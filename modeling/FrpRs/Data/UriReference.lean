import Mathlib.Data.List.Basic
import Mathlib.Data.List.DropRight
import Mathlib.Data.List.Infix
import Mathlib.Data.List.TakeWhile

/-!
# URI references

References as RFC 3986 splits them (appendix B), writes them (section 5.3) and resolves them against
a base (section 5.2).  A percent sign counts as a character: the digits after it are not looked at.
-/

namespace FrpRs

open List

structure UriReference where
  scheme : Option (List Char)
  authority : Option (List Char)
  path : List Char
  query : Option (List Char)
  fragment : Option (List Char)
deriving DecidableEq

namespace UriReference

/-- A component after the delimiter that opens it. -/
def delimited (delimiter : List Char) : Option (List Char) -> List Char
  | none => []
  | some s => delimiter ++ s

def schemeText (r : UriReference) : List Char :=
  match r.scheme with
  | none => []
  | some s => s ++ [':']

/-- The reference without its fragment. -/
def body (r : UriReference) : List Char :=
  r.schemeText ++ (delimited ['/', '/'] r.authority ++ (r.path ++ delimited ['?'] r.query))

def text (r : UriReference) : List Char :=
  r.body ++ delimited ['#'] r.fragment

/-!
## Well formed references
-/

def isPchar (c : Char) : Bool :=
  c.isAlphanum || "-._~%!$&'()*+,;=:@".toList.contains c

def isSchemeChar (c : Char) : Bool :=
  c.isAlphanum || "+-.".toList.contains c

def isAuthorityChar (c : Char) : Bool :=
  isPchar c || c == '[' || c == ']'

def isQueryChar (c : Char) : Bool :=
  isPchar c || c == '/' || c == '?'

def Rooted (p : List Char) : Prop :=
  p.head? = some '/'

instance (p : List Char) : Decidable (Rooted p) :=
  inferInstanceAs (Decidable (_ = _))

structure WellFormed (r : UriReference) : Prop where
  scheme_ne : r.scheme ≠ some []
  scheme : forall s, s ∈ r.scheme -> forall c, c ∈ s -> isSchemeChar c = true
  authority : forall a, a ∈ r.authority -> forall c, c ∈ a -> isAuthorityChar c = true
  path : forall c, c ∈ r.path -> isPchar c = true ∨ c = '/'
  query : forall q, q ∈ r.query -> forall c, c ∈ q -> isQueryChar c = true
  fragment : forall f, f ∈ r.fragment -> forall c, c ∈ f -> isQueryChar c = true
  path_abempty : r.authority ≠ none -> r.path = [] ∨ Rooted r.path
  path_absolute : r.authority = none -> ¬ ['/', '/'] <+: r.path
  path_noscheme : r.scheme = none -> r.authority = none -> ':' ∉ r.path.takeWhile (· != '/')

theorem isPchar_ne {c d : Char} (h : isPchar c = true) (hd : isPchar d = false) : c ≠ d := by
  intro heq
  rw [heq, hd] at h
  exact Bool.false_ne_true h

variable {c : Char}

theorem isSchemeChar_pchar (h : isSchemeChar c = true) :
    isPchar c = true ∧ c ≠ ':' := by
  constructor
  · simp only [isSchemeChar, isPchar, Bool.or_eq_true, contains_iff_mem] at h ⊢
    refine h.imp_right fun hmem => ?_
    have hsub : "+-.".toList ⊆ "-._~%!$&'()*+,;=:@".toList := by decide
    exact hsub hmem
  · rintro rfl
    exact absurd h (by decide)

theorem isQueryChar_of_pchar (h : isPchar c = true) : isQueryChar c = true := by
  rw [isQueryChar, h]
  rfl

theorem toNat_of_pchar (h : isPchar c = true) : 33 ≤ c.toNat ∧ c.toNat ≤ 126 := by
  simp only [isPchar, Bool.or_eq_true, contains_iff_mem] at h
  rcases h with h | h
  · change ((decide (65 ≤ c.toNat ∧ c.toNat ≤ 90) || (97 ≤ c.toNat && c.toNat ≤ 122)) ||
      (48 ≤ c.toNat && c.toNat ≤ 57)) = true at h
    simp only [Bool.or_eq_true, Bool.and_eq_true, decide_eq_true_eq] at h
    omega
  · have hall : "-._~%!$&'()*+,;=:@".toList.all fun c => 33 ≤ c.toNat && c.toNat ≤ 126 := by decide
    simpa using all_eq_true.mp hall c h

theorem mem_delimited {d : List Char} {o : Option (List Char)} (h : c ∈ delimited d o) :
    c ∈ d ∨ exists s, s ∈ o ∧ c ∈ s := by
  cases o with
  | none => exact absurd h not_mem_nil
  | some s => exact (mem_append.mp h).imp_right fun hs => ⟨s, rfl, hs⟩

variable {r : UriReference}

theorem WellFormed.mem_body (hr : r.WellFormed) (h : c ∈ r.body) :
    isQueryChar c = true ∨ c = '[' ∨ c = ']' := by
  rcases mem_append.mp h with h | h
  · refine .inl ?_
    cases hs : r.scheme with
    | none => exact absurd h (by simp [schemeText, hs])
    | some s =>
      rw [schemeText, hs] at h
      rcases mem_append.mp h with h | h
      · exact isQueryChar_of_pchar (isSchemeChar_pchar (hr.scheme s hs c h)).1
      · rw [mem_singleton.mp h]
        rfl
  · rcases mem_append.mp h with h | h
    · rcases mem_delimited h with h | ⟨a, ha, h⟩
      · refine .inl ?_
        rw [show c = '/' by simpa using h]
        rfl
      · have hauthority := hr.authority a ha c h
        simp only [isAuthorityChar, Bool.or_eq_true, beq_iff_eq] at hauthority
        rcases hauthority with (h | h) | h
        · exact .inl (isQueryChar_of_pchar h)
        · exact .inr (.inl h)
        · exact .inr (.inr h)
    · refine .inl ?_
      rcases mem_append.mp h with h | h
      · rcases hr.path c h with h | rfl
        · exact isQueryChar_of_pchar h
        · rfl
      · rcases mem_delimited h with h | ⟨q, hq, h⟩
        · rw [mem_singleton.mp h]
          rfl
        · exact hr.query q hq c h

theorem WellFormed.hash_not_mem_body (hr : r.WellFormed) : '#' ∉ r.body := by
  intro h
  rcases hr.mem_body h with h | h | h <;> exact absurd h (by decide)

/-- No character of a reference is white space or a control character. -/
theorem WellFormed.toNat_of_mem_text (hr : r.WellFormed) (h : c ∈ r.text) :
    33 ≤ c.toNat ∧ c.toNat ≤ 126 := by
  have hquery : isQueryChar c = true -> 33 ≤ c.toNat ∧ c.toNat ≤ 126 := by
    intro h
    simp only [isQueryChar, Bool.or_eq_true, beq_iff_eq] at h
    rcases h with (h | rfl) | rfl
    · exact toNat_of_pchar h
    · decide
    · decide
  rcases mem_append.mp h with h | h
  · rcases hr.mem_body h with h | rfl | rfl
    · exact hquery h
    · decide
    · decide
  · rcases mem_delimited h with h | ⟨f, hf, h⟩
    · rw [mem_singleton.mp h]
      decide
    · exact hquery (hr.fragment f hf c h)

/-!
## Splitting a text
-/

def endsScheme (c : Char) : Bool := c == ':' || c == '/' || c == '?' || c == '#'
def endsAuthority (c : Char) : Bool := c == '/' || c == '?' || c == '#'
def endsPath (c : Char) : Bool := c == '?' || c == '#'

def splitQuery (authority scheme : Option (List Char)) (path rest : List Char) : UriReference :=
  let query := match rest with
    | '?' :: rest => some (rest.takeWhile (· != '#'))
    | _ => none
  let fragment := match rest.dropWhile (· != '#') with
    | '#' :: fragment => some fragment
    | _ => none
  { scheme, authority, path, query, fragment }

def splitHier (scheme : Option (List Char)) (rest : List Char) : UriReference :=
  match rest with
  | '/' :: '/' :: rest =>
    let tail := rest.dropWhile (! endsAuthority ·)
    splitQuery (some (rest.takeWhile (! endsAuthority ·))) scheme
      (tail.takeWhile (! endsPath ·)) (tail.dropWhile (! endsPath ·))
  | rest =>
    splitQuery none scheme (rest.takeWhile (! endsPath ·)) (rest.dropWhile (! endsPath ·))

/-- The regular expression of appendix B. -/
def split (u : List Char) : UriReference :=
  let scheme := u.takeWhile (! endsScheme ·)
  match u.dropWhile (! endsScheme ·) with
  | ':' :: rest => if scheme = [] then splitHier none u else splitHier (some scheme) rest
  | _ => splitHier none u

variable {s t : List Char}

theorem takeWhile_stop {f : Char -> Bool} (hs : forall c, c ∈ s -> f c = true)
    (ht : forall c, t.head? = some c -> f c = false) : (s ++ t).takeWhile f = s := by
  rw [takeWhile_append_of_pos hs]
  cases t with
  | nil => exact append_nil s
  | cons c t => rw [takeWhile_cons_of_neg (by simp [ht c rfl]), append_nil]

theorem dropWhile_stop {f : Char -> Bool} (hs : forall c, c ∈ s -> f c = true)
    (ht : forall c, t.head? = some c -> f c = false) : (s ++ t).dropWhile f = t := by
  rw [dropWhile_append_of_pos hs]
  cases t with
  | nil => rfl
  | cons c t => rw [dropWhile_cons_of_neg (by simp [ht c rfl])]

theorem split_scheme (hne : s ≠ []) (hs : forall c, c ∈ s -> endsScheme c = false) :
    split (s ++ ':' :: t) = splitHier (some s) t := by
  have hpos : forall c, c ∈ s -> (! endsScheme c) = true := fun c hc => by rw [hs c hc]; rfl
  have hstop : forall c, (':' :: t).head? = some c -> (! endsScheme c) = false := by
    rintro c ⟨rfl⟩
    rfl
  rw [split, takeWhile_stop hpos hstop, dropWhile_stop hpos hstop]
  exact if_neg hne

/-- The parts of a text with an authority are those it was written from. -/
theorem splitHier_authority {scheme q : Option (List Char)} {a p : List Char}
    (ha : forall c, c ∈ a -> endsAuthority c = false) (hp : forall c, c ∈ p -> endsPath c = false)
    (hroot : p = [] ∨ Rooted p) (hq : forall s, s ∈ q -> '#' ∉ s) :
    splitHier scheme ('/' :: '/' :: (a ++ (p ++ delimited ['?'] q))) =
      ⟨scheme, some a, p, q, none⟩ := by
  have hquery : forall c, (delimited ['?'] q).head? = some c -> c = '?' := by
    intro c hc
    cases q with
    | none => exact absurd hc (by simp [delimited])
    | some s => exact (Option.some.inj hc).symm
  have hpath : forall c, (delimited ['?'] q).head? = some c -> (! endsPath c) = false := by
    intro c hc
    rw [hquery c hc]
    rfl
  have hhead : forall c, (p ++ delimited ['?'] q).head? = some c ->
      (! endsAuthority c) = false := by
    intro c hc
    rcases hroot with rfl | hroot
    · rw [hquery c hc]
      rfl
    · rw [head?_append, hroot] at hc
      cases hc
      rfl
  have hpos : forall c, c ∈ a -> (! endsAuthority c) = true := fun c hc => by rw [ha c hc]; rfl
  have hppos : forall c, c ∈ p -> (! endsPath c) = true := fun c hc => by rw [hp c hc]; rfl
  rw [splitHier, takeWhile_stop hpos hhead, dropWhile_stop hpos hhead, takeWhile_stop hppos hpath,
    dropWhile_stop hppos hpath]
  cases q with
  | none => rfl
  | some s =>
    have hall : forall c, c ∈ s -> (c != '#') = true := fun c hc =>
      bne_iff_ne.mpr fun heq => hq s rfl (heq ▸ hc)
    have htake : s.takeWhile (· != '#') = s := takeWhile_eq_self_iff.mpr hall
    have hdrop : s.dropWhile (· != '#') = [] := dropWhile_eq_nil_iff.mpr hall
    change splitQuery (some a) scheme p ('?' :: s) = _
    simp [splitQuery, htake, hdrop]

theorem WellFormed.split_body (hr : r.WellFormed) {s a : List Char} (hs : r.scheme = some s)
    (ha : r.authority = some a) :
    split r.body = { r with fragment := none } := by
  have hpchar : forall c, isPchar c = true -> endsAuthority c = false := by
    intro c hc
    simp only [endsAuthority, Bool.or_eq_false_iff, beq_eq_false_iff_ne]
    exact ⟨⟨isPchar_ne hc rfl, isPchar_ne hc rfl⟩, isPchar_ne hc rfl⟩
  have hbody : r.body = s ++ ':' :: ('/' :: '/' :: (a ++ (r.path ++ delimited ['?'] r.query))) := by
    rw [body, schemeText, hs, ha, append_assoc]
    rfl
  rw [hbody, split_scheme, splitHier_authority, ← hs, ← ha]
  · intro c hc
    have h := hr.authority a ha c hc
    simp only [isAuthorityChar, Bool.or_eq_true, beq_iff_eq] at h
    rcases h with (h | rfl) | rfl
    · exact hpchar c h
    · rfl
    · rfl
  · intro c hc
    rcases hr.path c hc with h | rfl
    · have hends := hpchar c h
      simp only [endsAuthority, Bool.or_eq_false_iff, endsPath] at hends ⊢
      exact ⟨hends.1.2, hends.2⟩
    · rfl
  · exact hr.path_abempty (by simp [ha])
  · intro q hq hhash
    exact absurd (hr.query q hq _ hhash) (by decide)
  · rintro rfl
    exact hr.scheme_ne hs
  · intro c hc
    have h := isSchemeChar_pchar (hr.scheme s hs c hc)
    have hends := hpchar c h.1
    simp only [endsAuthority, Bool.or_eq_false_iff, endsScheme, beq_eq_false_iff_ne] at hends ⊢
    exact ⟨⟨⟨h.2, hends.1.1⟩, hends.1.2⟩, hends.2⟩

/-!
## Resolution
-/

/-- The output without its last segment and the slash before it. -/
def removeLastSegment (out : List Char) : List Char :=
  (out.reverse.dropWhile (· != '/')).tail.reverse

/-- Section 5.2.4 on an input and an output buffer. -/
def removeDots : Nat -> List Char -> List Char -> List Char
  | 0, _, out => out
  | n + 1, input, out =>
    if "../".toList <+: input then removeDots n (input.drop 3) out
    else if "./".toList <+: input then removeDots n (input.drop 2) out
    else if "/./".toList <+: input then removeDots n (input.drop 2) out
    else if input = "/.".toList then removeDots n ['/'] out
    else if "/../".toList <+: input then removeDots n (input.drop 3) (removeLastSegment out)
    else if input = "/..".toList then removeDots n ['/'] (removeLastSegment out)
    else if input = ".".toList ∨ input = "..".toList then removeDots n [] out
    else
      match input with
      | [] => out
      | c :: rest =>
        removeDots n (rest.dropWhile (· != '/')) (out ++ c :: rest.takeWhile (· != '/'))

def removeDotSegments (p : List Char) : List Char :=
  removeDots p.length p []

/-- The path up to its last slash. -/
def directory (p : List Char) : List Char :=
  p.rdropWhile (· != '/')

/-- Section 5.2.3. -/
def merge (base : UriReference) (p : List Char) : List Char :=
  if base.authority ≠ none ∧ base.path = [] then '/' :: p else directory base.path ++ p

/-- Section 5.2.2, strict. -/
def resolve (base r : UriReference) : UriReference :=
  if r.scheme ≠ none then { r with path := removeDotSegments r.path }
  else if r.authority ≠ none then
    { r with scheme := base.scheme, path := removeDotSegments r.path }
  else if r.path = [] then
    { base with query := if r.query ≠ none then r.query else base.query, fragment := r.fragment }
  else
    { base with
      path := removeDotSegments (if Rooted r.path then r.path else merge base r.path),
      query := r.query, fragment := r.fragment }

/-- A complete segment after a slash is `.` or `..`. -/
def HasDotSegment (p : List Char) : Prop :=
  exists x s y, (s = ['.'] ∨ s = ['.', '.']) ∧ (y = [] ∨ Rooted y) ∧ p = x ++ '/' :: (s ++ y)

theorem directory_eq_self_iff {p : List Char} (hne : p ≠ []) :
    directory p = p <-> p.getLast? = some '/' := by
  rw [directory, rdropWhile_eq_self_iff, getLast?_eq_some_getLast hne, Option.some_inj]
  simp [hne]

theorem length_removeLastSegment_le (out : List Char) :
    (removeLastSegment out).length ≤ out.length := by
  rw [removeLastSegment, length_reverse, length_tail]
  have h := (dropWhile_suffix (l := out.reverse) (· != '/')).length_le
  rw [length_reverse] at h
  omega

theorem length_dropWhile_add (f : Char -> Bool) (s : List Char) :
    (s.dropWhile f).length + (s.takeWhile f).length = s.length := by
  have h := congrArg length (takeWhile_append_dropWhile (p := f) (l := s))
  rw [length_append] at h
  omega

/-- The first segment of the input is `.` or `..`. -/
def AtDot (input : List Char) : Prop :=
  exists s y, (s = ['.'] ∨ s = ['.', '.']) ∧ (y = [] ∨ Rooted y) ∧
    (input = s ++ y ∨ input = '/' :: (s ++ y))

theorem removeDots_cases (n : Nat) (input out : List Char) :
    (AtDot input ∧ exists input' out', removeDots (n + 1) input out = removeDots n input' out' ∧
      input'.length < input.length ∧ out'.length ≤ out.length) ∨
    (¬ AtDot input ∧ input = [] ∧ removeDots (n + 1) input out = out) ∨
    (¬ AtDot input ∧ exists c rest, input = c :: rest ∧ removeDots (n + 1) input out =
      removeDots n (rest.dropWhile (· != '/')) (out ++ c :: rest.takeWhile (· != '/'))) := by
  have hlast := length_removeLastSegment_le out
  rw [removeDots.eq_def]
  dsimp only
  split_ifs with h1 h2 h3 h4 h5 h6 h7
  · obtain ⟨t, rfl⟩ := h1
    exact .inl ⟨⟨_, '/' :: t, .inr rfl, .inr rfl, .inl rfl⟩, _, _, rfl, by grind, le_rfl⟩
  · obtain ⟨t, rfl⟩ := h2
    exact .inl ⟨⟨_, '/' :: t, .inl rfl, .inr rfl, .inl rfl⟩, _, _, rfl, by grind, le_rfl⟩
  · obtain ⟨t, rfl⟩ := h3
    exact .inl ⟨⟨_, '/' :: t, .inl rfl, .inr rfl, .inr rfl⟩, _, _, rfl, by simp, le_rfl⟩
  · subst h4
    exact .inl ⟨⟨_, [], .inl rfl, .inl rfl, .inr rfl⟩, _, _, rfl, by decide, le_rfl⟩
  · obtain ⟨t, rfl⟩ := h5
    exact .inl ⟨⟨_, '/' :: t, .inr rfl, .inr rfl, .inr rfl⟩, _, _, rfl, by simp, hlast⟩
  · subst h6
    exact .inl ⟨⟨_, [], .inr rfl, .inl rfl, .inr rfl⟩, _, _, rfl, by decide, hlast⟩
  · refine .inl ⟨?_, _, _, rfl, ?_, le_rfl⟩
    · rcases h7 with rfl | rfl
      · exact ⟨_, [], .inl rfl, .inl rfl, .inl rfl⟩
      · exact ⟨_, [], .inr rfl, .inl rfl, .inl rfl⟩
    · rcases h7 with rfl | rfl <;> decide
  · refine .inr ?_
    have hdot : ¬ AtDot input := by
      rintro ⟨s, y, rfl | rfl, rfl | hy, rfl | rfl⟩
      · exact h7 (.inl rfl)
      · exact h4 rfl
      · obtain ⟨t, rfl⟩ := head?_eq_some_iff.mp hy
        exact h2 ⟨t, rfl⟩
      · obtain ⟨t, rfl⟩ := head?_eq_some_iff.mp hy
        exact h3 ⟨t, rfl⟩
      · exact h7 (.inr rfl)
      · exact h6 rfl
      · obtain ⟨t, rfl⟩ := head?_eq_some_iff.mp hy
        exact h1 ⟨t, rfl⟩
      · obtain ⟨t, rfl⟩ := head?_eq_some_iff.mp hy
        exact h5 ⟨t, rfl⟩
    cases input with
    | nil => exact .inl ⟨hdot, rfl, rfl⟩
    | cons c rest => exact .inr ⟨hdot, c, rest, rfl, rfl⟩

theorem length_removeDots_le (n : Nat) (input out : List Char) :
    (removeDots n input out).length ≤ input.length + out.length := by
  induction n generalizing input out with
  | zero => exact Nat.le_add_left _ _
  | succ n ih =>
    rcases removeDots_cases n input out with ⟨-, input', out', heq, hin, hout⟩ | ⟨-, -, heq⟩ |
      ⟨-, c, rest, rfl, heq⟩
    · rw [heq]
      exact (ih input' out').trans (by omega)
    · rw [heq]
      exact Nat.le_add_left _ _
    · rw [heq]
      refine (ih _ _).trans ?_
      have h := length_dropWhile_add (· != '/') rest
      simp only [length_append, length_cons]
      omega

/-- A dot segment makes the result shorter. -/
theorem length_removeDots_lt {n : Nat} {input out : List Char} (hn : input.length ≤ n)
    (h : HasDotSegment input) : (removeDots n input out).length < input.length + out.length := by
  induction n generalizing input out with
  | zero =>
    obtain ⟨x, s, y, -, -, rfl⟩ := h
    simp at hn
  | succ n ih =>
    rcases removeDots_cases n input out with ⟨-, input', out', heq, hin, hout⟩ | ⟨-, rfl, -⟩ |
      ⟨hdot, c, rest, rfl, heq⟩
    · rw [heq]
      exact (length_removeDots_le n input' out').trans_lt (by omega)
    · obtain ⟨x, s, y, -, -, hnil⟩ := h
      simp at hnil
    · have hsum := length_dropWhile_add (· != '/') rest
      obtain ⟨x, s, y, hs, hy, hsplit⟩ := h
      cases x with
      | nil => exact absurd ⟨s, y, hs, hy, .inr hsplit⟩ hdot
      | cons d x =>
        have hrest : rest = x ++ '/' :: (s ++ y) := (cons.inj hsplit).2
        have hdrop : rest.dropWhile (· != '/') = x.dropWhile (· != '/') ++ '/' :: (s ++ y) := by
          rw [hrest, dropWhile_append]
          split_ifs with hempty
          · rw [isEmpty_iff.mp hempty]
            rfl
          · rfl
        rw [heq]
        refine (ih (by simp only [length_cons] at hn; omega) ⟨_, s, y, hs, hy, hdrop⟩).trans_le ?_
        simp only [length_append, length_cons]
        omega

theorem removeDots_of_clean {n : Nat} {input out : List Char} (hn : input.length ≤ n)
    (hroot : input = [] ∨ Rooted input) (h : ¬ HasDotSegment input) :
    removeDots n input out = out ++ input := by
  induction n generalizing input out with
  | zero =>
    rw [length_eq_zero_iff.mp (Nat.le_zero.mp hn), append_nil]
    rfl
  | succ n ih =>
    rcases removeDots_cases n input out with ⟨⟨s, y, hs, hy, hat⟩, -⟩ | ⟨-, rfl, heq⟩ |
      ⟨-, c, rest, rfl, heq⟩
    · rcases hat with rfl | rfl
      · rcases hs with rfl | rfl <;> rcases hroot with hroot | hroot <;> simp [Rooted] at hroot
      · exact absurd ⟨[], s, y, hs, hy, rfl⟩ h
    · rw [heq, append_nil]
    · have hsum := length_dropWhile_add (· != '/') rest
      have hdropped : rest.dropWhile (· != '/') = [] ∨ Rooted (rest.dropWhile (· != '/')) := by
        cases hd : rest.dropWhile (· != '/') with
        | nil => exact .inl rfl
        | cons d t =>
          refine .inr ?_
          have hnot := head_dropWhile_not (· != '/') (l := rest) (by rw [hd]; simp)
          simp only [hd, head_cons, bne_eq_false_iff_eq] at hnot
          rw [hnot]
          rfl
      rw [heq, ih (by simp only [length_cons] at hn; omega) hdropped, append_assoc, cons_append,
        takeWhile_append_dropWhile]
      rintro ⟨x, s, y, hs, hy, hsplit⟩
      refine h ⟨c :: (rest.takeWhile (· != '/') ++ x), s, y, hs, hy, ?_⟩
      rw [cons_append, append_assoc, ← hsplit, takeWhile_append_dropWhile]

theorem removeDotSegments_eq_self_iff {p : List Char} (hroot : p = [] ∨ Rooted p) :
    removeDotSegments p = p <-> ¬ HasDotSegment p := by
  constructor
  · intro heq hdot
    have h : (removeDotSegments p).length < p.length + 0 := length_removeDots_lt le_rfl hdot
    rw [heq] at h
    exact Nat.lt_irrefl _ h
  · intro h
    rw [removeDotSegments, removeDots_of_clean le_rfl hroot h, nil_append]

end UriReference
end FrpRs
