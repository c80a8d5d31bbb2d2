import FrpRs.Client.CompanionNames
import FrpRs.Data.Lines
import FrpRs.Data.UriReference

/-!
# Redirects of the health probe

`resolve_redirect_url` in `frp-client/src/health.rs`.  The probe follows a redirect by searching the
two texts for `://`, `/`, `?` and `#`.  RFC 3986 resolves the parts of the two references.
-/

namespace FrpRs
namespace Client

open List Text
open UriReference

/-!
## The probe
-/

/-- `str::find` of a text. -/
def find (pattern : Text) : Text -> Option Nat
  | [] => if pattern = [] then some 0 else none
  | c :: s => if pattern <+: c :: s then some 0 else (find pattern s).map (· + 1)

/-- `http://authority` and what follows it. -/
def baseParts (current : Text) : Text × Text :=
  let schemeEnd := ((find "://".toList current).map (· + 3)).getD 0
  match (current.drop schemeEnd).findIdx? (· == '/') with
  | some i => (current.take (schemeEnd + i), current.drop (schemeEnd + i))
  | none => (current, ['/'])

def baseDirectory (basePath : Text) : Text :=
  match rsplitOnce '/' (basePath.takeWhile (· != '?')) with
  | some (head, _) => if head ≠ [] then head ++ ['/'] else ['/']
  | none => ['/']

/-- The branches for a location that is not empty without its fragment. -/
def resolveLocation (current locNoFrag : Text) : Except Text Text :=
  match find "://".toList locNoFrag with
  | some n =>
    if (locNoFrag.take n).map Char.toLower = "http".toList then .ok locNoFrag
    else .error ("redirect to '".toList ++ locNoFrag ++
      "' is not supported (probe has no TLS stack)".toList)
  | none =>
    if "//".toList <+: locNoFrag then .ok ("http:".toList ++ locNoFrag)
    else if locNoFrag.head? = some '/' then .ok ((baseParts current).1 ++ locNoFrag)
    else .ok ((baseParts current).1 ++ (baseDirectory (baseParts current).2 ++ locNoFrag))

def resolveRedirectUrl (current location : Text) : Except Text Text :=
  let loc := trim location
  if loc = [] then .ok current
  else
    let locNoFrag := loc.takeWhile (· != '#')
    if locNoFrag = [] then .ok current else resolveLocation current locNoFrag

/-!
## Searches
-/

theorem find_eq_none_iff {pattern : Text} (hne : pattern ≠ []) (s : Text) :
    find pattern s = none <-> ¬ pattern <:+: s := by
  induction s with
  | nil => simp [find, hne]
  | cons c s ih =>
    rw [find, infix_cons_iff]
    split_ifs with h
    · simp [h]
    · simp [h, ih]

variable {s : Text}

theorem find_eq_some {pattern : Text} (hne : pattern ≠ []) {n : Nat} (h : find pattern s = some n) :
    exists t, s = s.take n ++ (pattern ++ t) := by
  induction s generalizing n with
  | nil => simp [find, hne] at h
  | cons c s ih =>
    rw [find] at h
    split_ifs at h with hprefix
    · obtain ⟨t, ht⟩ := hprefix
      cases h
      exact ⟨t, ht.symm⟩
    · obtain ⟨m, hm, rfl⟩ := Option.map_eq_some_iff.mp h
      obtain ⟨t, ht⟩ := ih hm
      exact ⟨t, congrArg (c :: ·) ht⟩

theorem find_after_scheme {s t : Text} (hs : ':' ∉ s) :
    find "://".toList (s ++ ("://".toList ++ t)) = some s.length := by
  induction s with
  | nil => rfl
  | cons c s ih =>
    have hprefix : ¬ "://".toList <+: c :: (s ++ ("://".toList ++ t)) := by
      rintro ⟨rest, hrest⟩
      exact hs (mem_cons.mpr (.inl (cons.inj hrest).1))
    rw [cons_append, find, if_neg hprefix, ih fun hmem => hs (mem_cons_of_mem c hmem)]
    rfl

theorem baseParts_slash {x y : Text} (hx : '/' ∉ x) :
    baseParts ("http://".toList ++ (x ++ '/' :: y)) = ("http://".toList ++ x, '/' :: y) := by
  have hfind : (x ++ '/' :: y).findIdx? (· == '/') = some x.length := by
    rw [findIdx?_append, findIdx?_eq_none_iff.mpr, findIdx?_cons]
    · simp
    · intro c hc
      exact beq_eq_false_iff_ne.mpr fun heq => hx (heq ▸ hc)
  rw [baseParts]
  change (match (x ++ '/' :: y).findIdx? (· == '/') with
    | some i => (("http://".toList ++ (x ++ '/' :: y)).take (7 + i),
      ("http://".toList ++ (x ++ '/' :: y)).drop (7 + i))
    | none => _) = _
  rw [hfind]
  simp [Nat.add_comm 7]

theorem baseParts_none {x : Text} (hx : '/' ∉ x) :
    baseParts ("http://".toList ++ x) = ("http://".toList ++ x, ['/']) := by
  have hfind : x.findIdx? (· == '/') = none :=
    findIdx?_eq_none_iff.mpr fun c hc => beq_eq_false_iff_ne.mpr fun heq => hx (heq ▸ hc)
  rw [baseParts]
  change (match x.findIdx? (· == '/') with
    | some i => _
    | none => ("http://".toList ++ x, ['/'])) = _
  rw [hfind]

variable {c : Char}

theorem splitOnce_eq (h : c ∈ s) :
    splitOnce c s = some (s.takeWhile (· != c), (s.dropWhile (· != c)).tail) := by
  induction s with
  | nil => exact absurd h not_mem_nil
  | cons d s ih =>
    rw [splitOnce]
    split_ifs with hd
    · subst hd
      simp
    · rw [ih (by simpa [Ne.symm hd] using h)]
      simp [hd]

theorem baseDirectory_eq (hslash : '/' ∈ s.takeWhile (· != '?')) :
    baseDirectory s = directory (s.takeWhile (· != '?')) := by
  rw [baseDirectory, rsplitOnce, splitOnce_eq (mem_reverse.mpr hslash), directory, rdropWhile]
  obtain ⟨c, rest, hrest⟩ : exists c rest,
      (s.takeWhile (· != '?')).reverse.dropWhile (· != '/') = c :: rest := by
    refine exists_cons_of_ne_nil fun hnil => ?_
    exact absurd (dropWhile_eq_nil_iff.mp hnil '/' (mem_reverse.mpr hslash)) (by decide)
  have hc : c = '/' := by
    have hnot := head_dropWhile_not (· != '/') (l := (s.takeWhile (· != '?')).reverse)
      (by rw [hrest]; simp)
    simpa [hrest] using hnot
  rw [hrest, hc]
  change (if rest.reverse ≠ [] then rest.reverse ++ ['/'] else ['/']) = _
  split_ifs with hnil
  · simp
  · rw [not_not, reverse_eq_nil_iff] at hnil
    rw [hnil]
    rfl

/-!
## Resolution
-/

def httpUrl (authority path : Text) (query : Option Text) : UriReference :=
  ⟨some "http".toList, some authority, path, query, none⟩

/-- The probe goes on to a URL with the parts of the resolved reference. -/
def Resolves (base r : UriReference) : Prop :=
  exists u, resolveRedirectUrl base.text r.text = .ok u ∧
    (split u).authority = (resolve base r).authority ∧ (split u).path = (resolve base r).path ∧
    (split u).query = (resolve base r).query

/-- Only a fragment, or an absolute URL, or a relative reference that does not hold `://`.  The path
has no dot segments.  The base of a path or of a query does not end in a query without a path, and
the path of a base that gets a new query ends in a slash. -/
def Followed (base r : UriReference) : Prop :=
  r.body = [] ∨ (r.scheme ≠ none ∧ r.authority ≠ none ∧ ¬ HasDotSegment r.path) ∨
    (r.scheme = none ∧ ¬ "://".toList <:+: r.body ∧
      (r.authority ≠ none ∧ ¬ HasDotSegment r.path ∨
        r.authority = none ∧ (base.path ≠ [] ∨ base.query = none) ∧
          (r.path = [] ∧ base.path.getLast? = some '/' ∨
            r.path ≠ [] ∧ ¬ HasDotSegment (if Rooted r.path then r.path else merge base r.path))))

section

variable {a p : Text} {q : Option Text} {r : UriReference}

theorem text_httpUrl (a p : Text) (q : Option Text) :
    (httpUrl a p q).text = "http://".toList ++ (a ++ (p ++ delimited ['?'] q)) :=
  append_nil _

theorem isWhitespace_text (hr : r.WellFormed) (h : c ∈ r.text) :
    isWhitespace c = false := by
  have hrange := hr.toNat_of_mem_text h
  simp only [isWhitespace, Bool.or_eq_false_iff, Bool.and_eq_false_iff, decide_eq_false_iff_not,
    beq_eq_false_iff_ne]
  omega

variable (current : Text)

theorem resolveRedirectUrl_text (hr : r.WellFormed) :
    resolveRedirectUrl current r.text =
      if r.body = [] then .ok current else resolveLocation current r.body := by
  have htrim : trim r.text = r.text :=
    trim_eq_self (fun c hc => isWhitespace_text hr (mem_of_mem_head? hc))
      fun c hc => isWhitespace_text hr (mem_of_mem_getLast? hc)
  have hbody : r.text.takeWhile (· != '#') = r.body := by
    refine takeWhile_stop (fun c hc => ?_) fun c hc => ?_
    · exact bne_iff_ne.mpr fun heq => hr.hash_not_mem_body (heq ▸ hc)
    · cases hf : r.fragment with
      | none => rw [hf] at hc; exact absurd hc (by simp [delimited])
      | some f => rw [hf] at hc; rw [← Option.some.inj hc]; rfl
  rw [resolveRedirectUrl, htrim, hbody]
  by_cases hnil : r.body = []
  · rw [if_pos hnil, ite_self]
  · have htext : r.text ≠ [] := fun h => hnil (append_eq_nil_iff.mp h).1
    rw [if_neg htext, if_neg hnil]

variable {base : UriReference}

theorem resolves_iff_of_ok {u : Text} {t : UriReference}
    (h : resolveRedirectUrl base.text r.text = .ok u) (hu : split u = t) :
    Resolves base r <-> t.authority = (resolve base r).authority ∧
      t.path = (resolve base r).path ∧ t.query = (resolve base r).query := by
  constructor
  · rintro ⟨u', hu', hparts⟩
    cases h.symm.trans hu'
    rw [← hu]
    exact hparts
  · intro hparts
    rw [← hu] at hparts
    exact ⟨u, h, hparts⟩

theorem not_resolves_of_error {e : Text} (h : resolveRedirectUrl base.text r.text = .error e) :
    ¬ Resolves base r := by
  rintro ⟨u, hu, -⟩
  cases h.symm.trans hu

/-!
### Absolute references
-/

theorem not_mem_of_http {x : Text} (hx : x.map Char.toLower = "http".toList)
    (hc : Char.toLower c ∉ "http".toList) : c ∉ x :=
  fun hmem => hc (hx ▸ mem_map_of_mem hmem)

theorem resolveLocation_absolute {s b : Text} (hs : r.scheme = some s) (hb : r.authority = some b)
    (hhttp : s.map Char.toLower = "http".toList) :
    resolveLocation current r.body = .ok r.body := by
  have hbody : r.body = s ++ ("://".toList ++ (b ++ (r.path ++ delimited ['?'] r.query))) := by
    rw [body, schemeText, hs, hb, append_assoc]
    rfl
  have hfind : find "://".toList r.body = some s.length := by
    rw [hbody]
    exact find_after_scheme (not_mem_of_http hhttp (by decide))
  have htake : r.body.take s.length = s := by
    rw [hbody, take_left]
  rw [resolveLocation, hfind]
  simp only [htake, hhttp, if_true]

theorem resolveLocation_error {current loc : Text} (hsub : "://".toList <:+: loc)
    (hnot : forall x t, loc = x ++ ("://".toList ++ t) -> x.map Char.toLower ≠ "http".toList) :
    exists e, resolveLocation current loc = .error e := by
  rw [resolveLocation]
  cases hfind : find "://".toList loc with
  | none => exact absurd hsub ((find_eq_none_iff (by decide) loc).mp hfind)
  | some n =>
    obtain ⟨t, ht⟩ := find_eq_some (by decide) hfind
    exact ⟨_, if_neg (hnot _ t ht)⟩

theorem colon_in_first_segment {x t : Text} (hx : forall c, c ∈ x -> c ≠ '/' ∧ c ≠ '?')
    (h : p ++ delimited ['?'] q = x ++ ':' :: t) : ':' ∈ p.takeWhile (· != '/') := by
  induction x generalizing p with
  | nil =>
    cases p with
    | nil => cases q <;> simp [delimited] at h
    | cons d p =>
      rw [(cons.inj h).1, takeWhile_cons_of_pos (by decide)]
      exact mem_cons_self
  | cons c x ih =>
    cases p with
    | nil =>
      cases q with
      | none => simp [delimited] at h
      | some s => exact absurd (cons.inj h).1.symm (hx c mem_cons_self).2
    | cons d p =>
      obtain ⟨rfl, htail⟩ := cons.inj h
      rw [takeWhile_cons_of_pos (by simpa using (hx d mem_cons_self).1)]
      exact mem_cons_of_mem d (ih (fun e he => hx e (mem_cons_of_mem d he)) htail)

theorem not_double_slash (hr : r.WellFormed) (hb : r.authority = none) (t : Text) :
    r.path ++ delimited ['?'] r.query ≠ '/' :: '/' :: t := by
  intro h
  have hpath := hr.path_absolute hb
  match hp : r.path with
  | [] => cases hq : r.query <;> simp [hp, hq, delimited] at h
  | [c] => cases hq : r.query <;> simp [hp, hq, delimited] at h
  | c :: d :: rest =>
    rw [hp] at h hpath
    simp only [cons_append, cons.injEq] at h
    rw [h.1, h.2.1] at hpath
    exact hpath ⟨rest, rfl⟩

/-- What stands before `://` is a scheme only if there are a scheme and an authority. -/
theorem not_http_before (hr : r.WellFormed) (hpart : r.scheme = none ∨ r.authority = none)
    {x t : Text} (hbody : r.body = x ++ ("://".toList ++ t)) :
    x.map Char.toLower ≠ "http".toList := by
  intro hx
  have hcolon : ':' ∉ x := not_mem_of_http hx (by decide)
  cases hs : r.scheme with
  | none =>
    rw [body, schemeText, hs] at hbody
    cases hb : r.authority with
    | none =>
      rw [hb] at hbody
      refine hr.path_noscheme hs hb (colon_in_first_segment (fun c hc => ⟨?_, ?_⟩) hbody)
      · rintro rfl
        exact not_mem_of_http hx (by decide) hc
      · rintro rfl
        exact not_mem_of_http hx (by decide) hc
    | some b =>
      rw [hb] at hbody
      cases x with
      | nil => exact absurd hx (by decide)
      | cons c x =>
        obtain ⟨rfl, -⟩ := cons.inj hbody
        exact not_mem_of_http hx (by decide) mem_cons_self
  | some s =>
    have hb : r.authority = none := hpart.resolve_left (by simp [hs])
    have hscheme : ':' ∉ s := fun hmem => (isSchemeChar_pchar (hr.scheme s hs _ hmem)).2 rfl
    have hsplit : s ++ ':' :: (r.path ++ delimited ['?'] r.query) = x ++ ':' :: '/' :: '/' :: t := by
      rw [body, schemeText, hs, hb, append_assoc] at hbody
      exact hbody
    exact not_double_slash hr hb t
      (Lines.append_cut_inj hscheme hcolon hsplit).2

/-!
### Relative references
-/

theorem wellFormed_httpUrl (hbase : (httpUrl a p q).WellFormed) {p' : Text} {q' : Option Text}
    (hpath : forall c, c ∈ p' -> isPchar c = true ∨ c = '/') (hroot : p' = [] ∨ Rooted p')
    (hquery : forall s, s ∈ q' -> forall c, c ∈ s -> isQueryChar c = true) :
    (httpUrl a p' q').WellFormed where
  scheme_ne := hbase.scheme_ne
  scheme := hbase.scheme
  authority := hbase.authority
  path := hpath
  query := hquery
  fragment := hbase.fragment
  path_abempty _ := hroot
  path_absolute h := absurd h (Option.some_ne_none _)
  path_noscheme h := absurd h (Option.some_ne_none _)

theorem split_httpUrl (h : (httpUrl a p q).WellFormed) :
    split ("http://".toList ++ (a ++ (p ++ delimited ['?'] q))) = httpUrl a p q :=
  h.split_body rfl rfl

theorem slash_not_mem_authority (hbase : (httpUrl a p q).WellFormed) : '/' ∉ a := by
  intro hmem
  exact absurd (hbase.authority a rfl _ hmem) (by decide)

/-- With a path, or without a query, the base is cut after its authority. -/
theorem baseParts_good (hbase : (httpUrl a p q).WellFormed) (hgood : p ≠ [] ∨ q = none) :
    (baseParts (httpUrl a p q).text).1 = "http://".toList ++ a ∧
      baseDirectory (baseParts (httpUrl a p q).text).2 ++ r.path = merge (httpUrl a p q) r.path := by
  have hslash := slash_not_mem_authority hbase
  rw [text_httpUrl, UriReference.merge]
  rcases hbase.path_abempty (by simp [httpUrl]) with hnil | hroot
  · have hp : p = [] := hnil
    have hq : q = none := hgood.resolve_left (by simp [hp])
    subst hp hq
    rw [show a ++ ([] ++ delimited ['?'] none) = a by simp [delimited], baseParts_none hslash]
    exact ⟨rfl, rfl⟩
  · obtain ⟨p', hp⟩ := head?_eq_some_iff.mp hroot
    change p = '/' :: p' at hp
    have hclean : forall c, c ∈ p -> (c != '?') = true := by
      intro c hc
      rcases hbase.path c hc with h | rfl
      · exact bne_iff_ne.mpr (isPchar_ne h (by decide))
      · rfl
    have htake : (p ++ delimited ['?'] q).takeWhile (· != '?') = p := by
      refine takeWhile_stop hclean fun c hc => ?_
      cases q with
      | none => exact absurd hc (by simp [delimited])
      | some s => rw [← Option.some.inj hc]; rfl
    have hparts : baseParts ("http://".toList ++ (a ++ (p ++ delimited ['?'] q))) =
        ("http://".toList ++ a, p ++ delimited ['?'] q) := by
      rw [hp]
      exact baseParts_slash hslash
    rw [hparts, baseDirectory_eq (by rw [htake, hp]; exact mem_cons_self), htake,
      if_neg fun h => by simp [httpUrl, hp] at h]
    exact ⟨rfl, rfl⟩

/-- A query without a path is taken for a part of the authority. -/
theorem baseParts_bad (hbase : (httpUrl a [] (some s)).WellFormed) :
    exists w, (baseParts (httpUrl a [] (some s)).text).1 = "http://".toList ++ (a ++ '?' :: w) ∧
      (forall c, c ∈ w -> isQueryChar c = true) ∧
      baseDirectory (baseParts (httpUrl a [] (some s)).text).2 ≠ [] ∧
      forall c, c ∈ baseDirectory (baseParts (httpUrl a [] (some s)).text).2 ->
        isQueryChar c = true := by
  have hslash := slash_not_mem_authority hbase
  have hquery : forall c, c ∈ s -> isQueryChar c = true := hbase.query s rfl
  have htext : (httpUrl a [] (some s)).text = "http://".toList ++ (a ++ '?' :: s) := text_httpUrl _ _ _
  rw [htext]
  by_cases hmem : '/' ∈ s
  · obtain ⟨w, z, rfl, hw⟩ := eq_append_cons_of_mem hmem
    have hfree : '/' ∉ a ++ '?' :: w := by simp [hslash, hw]
    have hparts := baseParts_slash (y := z) hfree
    rw [append_assoc, cons_append] at hparts
    have htake : '/' ∈ ('/' :: z).takeWhile (· != '?') := by simp
    rw [hparts, baseDirectory_eq htake]
    refine ⟨w, rfl, fun c hc => hquery c (mem_append_left _ hc), ?_, fun c hc => ?_⟩
    · rw [directory, Ne, rdropWhile_eq_nil_iff]
      intro hall
      exact absurd (hall '/' htake) (by decide)
    · refine hquery c (mem_append_right w ?_)
      exact (( rdropWhile_prefix _ _).trans ( takeWhile_prefix _)).subset hc
  · rw [baseParts_none (by simp [hslash, hmem])]
    have hdirectory : baseDirectory ['/'] = ['/'] := rfl
    refine ⟨s, rfl, hquery, ?_, fun c hc => ?_⟩
    · rw [hdirectory]
      exact cons_ne_nil _ _
    · rw [hdirectory] at hc
      rw [mem_singleton.mp hc]
      rfl

theorem resolveLocation_relative {current : Text} (hr : r.WellFormed) (hs : r.scheme = none)
    (hb : r.authority = none) (hclear : ¬ "://".toList <:+: r.body) :
    resolveLocation current r.body = .ok ((baseParts current).1 ++ ((if Rooted r.path then r.path
      else baseDirectory (baseParts current).2 ++ r.path) ++ delimited ['?'] r.query)) := by
  have hbody : r.body = r.path ++ delimited ['?'] r.query := by
    rw [body, schemeText, hs, hb]
    rfl
  have hdouble : ¬ "//".toList <+: r.body := by
    rw [hbody]
    rintro ⟨t, ht⟩
    exact not_double_slash hr hb t ht.symm
  have hhead : r.body.head? = some '/' ↔ Rooted r.path := by
    rw [hbody, Rooted]
    cases r.path with
    | nil => cases r.query <;> simp [delimited]
    | cons c rest => simp
  rw [resolveLocation, (find_eq_none_iff (by decide) _).mpr hclear]
  dsimp only
  rw [if_neg hdouble, if_congr hhead rfl rfl, hbody]
  split_ifs
  · rfl
  · rw [append_assoc]

theorem resolveLocation_http {t u : Text} (hr : r.WellFormed)
    (hpart : r.scheme = none ∨ r.authority = none)
    (h : resolveLocation ("http://".toList ++ t) r.body = .ok u) :
    exists v, u = "http://".toList ++ v := by
  obtain ⟨x, hx⟩ : exists x, (baseParts ("http://".toList ++ t)).1 = "http://".toList ++ x := by
    by_cases hmem : '/' ∈ t
    · obtain ⟨w, z, rfl, hw⟩ := eq_append_cons_of_mem hmem
      exact ⟨w, by rw [baseParts_slash hw]⟩
    · exact ⟨t, by rw [baseParts_none hmem]⟩
  rw [resolveLocation] at h
  cases hfind : find "://".toList r.body with
  | some n =>
    obtain ⟨rest, hrest⟩ := find_eq_some (by decide) hfind
    rw [hfind] at h
    dsimp only at h
    rw [if_neg (not_http_before hr hpart hrest)] at h
    cases h
  | none =>
    rw [hfind] at h
    dsimp only at h
    rw [hx] at h
    split_ifs at h with hdouble
    · obtain ⟨rest, hrest⟩ := hdouble
      cases h
      exact ⟨rest, by rw [← hrest]; rfl⟩
    · cases h
      exact ⟨_, append_assoc _ _ _⟩
    · cases h
      exact ⟨_, append_assoc _ _ _⟩

theorem resolves_body_nil (hbase : (httpUrl a p q).WellFormed) (hr : r.WellFormed)
    (hnil : r.body = []) : Resolves (httpUrl a p q) r := by
  have htext := resolveRedirectUrl_text (httpUrl a p q).text hr
  rw [if_pos hnil] at htext
  simp only [body, append_eq_nil_iff] at hnil
  obtain ⟨hscheme, hauthority, hpath, hquery⟩ := hnil
  have hs : r.scheme = none := by
    cases h : r.scheme with
    | none => rfl
    | some s => simp [schemeText, h] at hscheme
  have hb : r.authority = none := by
    cases h : r.authority with
    | none => rfl
    | some b => simp [delimited, h] at hauthority
  have hq : r.query = none := by
    cases h : r.query with
    | none => rfl
    | some s => simp [delimited, h] at hquery
  have hsplit : split (httpUrl a p q).text = httpUrl a p q := by
    rw [text_httpUrl, split_httpUrl hbase]
  rw [resolves_iff_of_ok htext hsplit]
  simp [resolve, hs, hb, hpath, hq]

theorem resolveLocation_network {b : Text} (hs : r.scheme = none) (hb : r.authority = some b)
    (hclear : ¬ "://".toList <:+: r.body) :
    resolveLocation current r.body = .ok ("http:".toList ++ r.body) := by
  have hdouble : "//".toList <+: r.body := by
    rw [body, schemeText, hs, hb]
    exact ⟨_, (append_assoc _ _ _).symm⟩
  rw [resolveLocation, (find_eq_none_iff (by decide) _).mpr hclear]
  exact if_pos hdouble

theorem split_network {b : Text} (hr : r.WellFormed) (hs : r.scheme = none)
    (hb : r.authority = some b) :
    split ("http:".toList ++ r.body) = { r with scheme := some "http".toList, fragment := none } := by
  have hwhole : ({ r with scheme := some "http".toList } : UriReference).WellFormed := by
    refine { hr with scheme_ne := by simp, scheme := ?_, path_noscheme := by simp }
    rintro _ ⟨rfl⟩
    exact all_eq_true.mp (by decide)
  have hbody : ({ r with scheme := some "http".toList } : UriReference).body =
      "http:".toList ++ r.body := by
    rw [body, body, schemeText, schemeText, hs]
    rfl
  rw [← hbody, hwhole.split_body rfl hb]

theorem resolves_with_authority {b u : Text} (hr : r.WellFormed) (hb : r.authority = some b)
    (hu : resolveRedirectUrl base.text r.text = .ok u) {scheme : Option Text}
    (hsplit : split u = { r with scheme, fragment := none }) :
    Resolves base r <-> ¬ HasDotSegment r.path := by
  have hroot := hr.path_abempty (by simp [hb])
  rw [resolves_iff_of_ok hu hsplit, ← removeDotSegments_eq_self_iff hroot]
  cases hs : r.scheme with
  | none => simp [resolve, hs, hb, eq_comm]
  | some s => simp [resolve, hs, eq_comm]

theorem merge_chars (hbase : (httpUrl a p q).WellFormed) (hr : r.WellFormed)
    (hc : c ∈ merge (httpUrl a p q) r.path) : isPchar c = true ∨ c = '/' := by
  rw [UriReference.merge] at hc
  split_ifs at hc
  · rcases mem_cons.mp hc with rfl | hc
    · exact .inr rfl
    · exact hr.path c hc
  · rcases mem_append.mp hc with hc | hc
    · exact hbase.path c (( rdropWhile_prefix _ _).subset hc)
    · exact hr.path c hc

theorem merge_rooted (hbase : (httpUrl a p q).WellFormed) (path : Text) :
    Rooted (merge (httpUrl a p q) path) := by
  rw [UriReference.merge]
  split_ifs with hp
  · rfl
  · have hroot : Rooted p := (hbase.path_abempty (by simp [httpUrl])).resolve_left
      fun hnil => hp ⟨by simp [httpUrl], hnil⟩
    obtain ⟨rest, rfl⟩ := head?_eq_some_iff.mp hroot
    have hdirectory : directory ('/' :: rest) ≠ [] := by
      rw [directory, Ne, rdropWhile_eq_nil_iff]
      intro hall
      exact absurd (hall '/' mem_cons_self) (by decide)
    obtain ⟨c, t, ht⟩ := exists_cons_of_ne_nil hdirectory
    obtain ⟨tail, htail⟩ : directory ('/' :: rest) <+: '/' :: rest := rdropWhile_prefix _ _
    rw [ht] at htail
    change Rooted (directory ('/' :: rest) ++ path)
    rw [ht, (cons.inj htail).1]
    rfl

theorem query_of_resolve (hs : r.scheme = none) (hb : r.authority = none) (hnil : r.body ≠ []) :
    (resolve base r).query = r.query := by
  by_cases hpath : r.path = []
  · have hq : r.query ≠ none := by
      intro hq
      exact hnil (by simp [body, schemeText, hs, hb, hpath, hq, delimited])
    simp [resolve, hs, hb, hpath, hq]
  · simp [resolve, hs, hb, hpath]

/-- Behind the query of the base everything is a query. -/
theorem not_resolves_after_query (hbase : (httpUrl a [] (some s)).WellFormed) (hr : r.WellFormed)
    (hs : r.scheme = none) (hb : r.authority = none) (hnil : r.body ≠ [])
    (hclear : ¬ "://".toList <:+: r.body) : ¬ Resolves (httpUrl a [] (some s)) r := by
  have htext := resolveRedirectUrl_text (httpUrl a [] (some s)).text hr
  rw [if_neg hnil, resolveLocation_relative hr hs hb hclear] at htext
  obtain ⟨w, hfirst, hw, hne, hdirectory⟩ := baseParts_bad hbase
  rw [hfirst] at htext
  generalize baseDirectory (baseParts (httpUrl a [] (some s)).text).2 = d at htext hne hdirectory
  generalize hz : (if Rooted r.path then r.path else d ++ r.path) = z at htext
  have hzne : z ≠ [] := by
    rw [← hz]
    split_ifs with hroot
    · intro h
      simp [Rooted, h] at hroot
    · exact fun h => hne (append_eq_nil_iff.mp h).1
  have hpathChars : forall c, c ∈ r.path -> isQueryChar c = true := by
    intro c hc
    rcases hr.path c hc with h | rfl
    · exact isQueryChar_of_pchar h
    · rfl
  have hzChars : forall c, c ∈ z -> isQueryChar c = true := by
    rw [← hz]
    intro c hc
    split_ifs at hc
    · exact hpathChars c hc
    · exact (mem_append.mp hc).elim (hdirectory c) (hpathChars c)
  have hquery : forall c, c ∈ w ++ (z ++ delimited ['?'] r.query) -> isQueryChar c = true := by
    intro c hc
    rcases mem_append.mp hc with hc | hc
    · exact hw c hc
    · rcases mem_append.mp hc with hc | hc
      · exact hzChars c hc
      · rcases mem_delimited hc with hc | ⟨t, ht, hc⟩
        · rw [mem_singleton.mp hc]
          rfl
        · exact hr.query t ht c hc
  have hwhole : (httpUrl a [] (some (w ++ (z ++ delimited ['?'] r.query)))).WellFormed :=
    wellFormed_httpUrl hbase (fun c hc => absurd hc not_mem_nil) (.inl rfl)
      (by rintro _ ⟨rfl⟩; exact hquery)
  have hsplit := split_httpUrl hwhole
  rw [resolves_iff_of_ok htext (t := httpUrl a [] (some (w ++ (z ++ delimited ['?'] r.query))))
    (by simpa [delimited] using hsplit), query_of_resolve hs hb hnil]
  rintro ⟨-, -, hsame⟩
  have hlength := congrArg (fun o => (delimited ['?'] o).length) hsame
  have hzlength : z.length ≠ 0 := fun h => hzne (length_eq_zero_iff.mp h)
  simp only [httpUrl, delimited, length_append, length_singleton] at hlength
  omega

theorem resolves_relative (hbase : (httpUrl a p q).WellFormed) (hr : r.WellFormed)
    (hs : r.scheme = none) (hb : r.authority = none) (hnil : r.body ≠ [])
    (hclear : ¬ "://".toList <:+: r.body) (hgood : p ≠ [] ∨ q = none) :
    Resolves (httpUrl a p q) r <-> r.path = [] ∧ p.getLast? = some '/' ∨ r.path ≠ [] ∧
      ¬ HasDotSegment (if Rooted r.path then r.path else merge (httpUrl a p q) r.path) := by
  have htext := resolveRedirectUrl_text (httpUrl a p q).text hr
  obtain ⟨hfirst, hmerge⟩ := baseParts_good hbase hgood (r := r)
  rw [if_neg hnil, resolveLocation_relative hr hs hb hclear, hfirst, hmerge] at htext
  generalize hz : (if Rooted r.path then r.path else merge (httpUrl a p q) r.path) = z at htext ⊢
  have hchars : forall c, c ∈ z -> isPchar c = true ∨ c = '/' := by
    rw [← hz]
    intro c hc
    split_ifs at hc
    · exact hr.path c hc
    · exact merge_chars hbase hr hc
  have hroot : Rooted z := by
    rw [← hz]
    split_ifs with h
    · exact h
    · exact merge_rooted hbase r.path
  have hwhole := wellFormed_httpUrl hbase hchars (.inr hroot) hr.query
  rw [append_assoc] at htext
  rw [resolves_iff_of_ok htext (split_httpUrl hwhole), query_of_resolve hs hb hnil]
  by_cases hpath : r.path = []
  · have hp : (resolve (httpUrl a p q) r).authority = some a ∧
        (resolve (httpUrl a p q) r).path = p := by
      simp [resolve, hs, hb, hpath, httpUrl]
    have hz : z = if p = [] then ['/'] else directory p := by
      rw [← hz, hpath, if_neg (by simp [Rooted]), UriReference.merge]
      simp [httpUrl]
    have hpart : z = p <-> p.getLast? = some '/' := by
      rw [hz]
      split_ifs with hne
      · simp [hne]
      · exact directory_eq_self_iff hne
    rw [hp.1, hp.2, ← hpart]
    simp [hpath, httpUrl]
  · have hp : (resolve (httpUrl a p q) r).authority = some a ∧
        (resolve (httpUrl a p q) r).path = removeDotSegments z := by
      simp [resolve, hs, hb, hpath, httpUrl, ← hz]
    rw [hp.1, hp.2, ← removeDotSegments_eq_self_iff (.inr hroot)]
    simp [hpath, httpUrl, eq_comm]

end

/-!
### The two together
-/

/-- The probe follows RFC 3986 exactly where its searches find what they look for. -/
theorem resolves_iff_followed {a p : Text} {q : Option Text} {r : UriReference}
    (hbase : (httpUrl a p q).WellFormed) (hr : r.WellFormed)
    (hhttp : forall s, s ∈ r.scheme -> s.map Char.toLower = "http".toList) :
    Resolves (httpUrl a p q) r <-> Followed (httpUrl a p q) r := by
  have htext := resolveRedirectUrl_text (httpUrl a p q).text hr
  by_cases hnil : r.body = []
  · exact iff_of_true (resolves_body_nil hbase hr hnil) (.inl hnil)
  · rw [if_neg hnil] at htext
    cases hs : r.scheme with
    | some s =>
      cases hb : r.authority with
      | some b =>
        rw [resolveLocation_absolute _ hs hb (hhttp s hs)] at htext
        rw [resolves_with_authority hr hb htext (hr.split_body hs hb)]
        simp [Followed, hnil, hs, hb]
      | none =>
        refine iff_of_false ?_ (by simp [Followed, hnil, hs, hb])
        rintro ⟨u, hu, hauthority, -⟩
        rw [htext, text_httpUrl] at hu
        obtain ⟨v, rfl⟩ := resolveLocation_http hr (.inr hb) hu
        have hplain : "http".toList.all fun c => endsScheme c == false := by decide
        have hsome : split ("http://".toList ++ v) = splitHier (some "http".toList) ('/' :: '/' :: v) :=
          split_scheme (by decide) fun c hc => beq_iff_eq.mp (all_eq_true.mp hplain c hc)
        rw [hsome, splitHier] at hauthority
        simp [resolve, hs, hb, splitQuery] at hauthority
    | none =>
      by_cases hclear : "://".toList <:+: r.body
      · obtain ⟨e, he⟩ : exists e, resolveLocation (httpUrl a p q).text r.body = .error e :=
          resolveLocation_error hclear fun x t => not_http_before hr (.inl hs)
        refine iff_of_false (not_resolves_of_error (htext.trans he)) ?_
        simp only [Followed, hnil, hs, hclear]
        simp
      · cases hb : r.authority with
        | some b =>
          rw [resolveLocation_network _ hs hb hclear] at htext
          rw [resolves_with_authority hr hb htext (split_network hr hs hb)]
          simp only [Followed, hnil, hs, hb, hclear]
          simp
        | none =>
          by_cases hgood : p ≠ [] ∨ q = none
          · rw [resolves_relative hbase hr hs hb hnil hclear hgood]
            simp only [Followed, hnil, hs, hb, hclear]
            simp [httpUrl, hgood]
          · simp only [not_or, not_not] at hgood
            obtain ⟨rfl, hq⟩ := hgood
            obtain ⟨s, rfl⟩ := Option.ne_none_iff_exists'.mp hq
            refine iff_of_false (not_resolves_after_query hbase hr hs hb hnil hclear) ?_
            simp [Followed, hnil, hs, hb, httpUrl]

def probedUrl : UriReference :=
  httpUrl "h".toList "/a/b".toList (some "q".toList)

def sibling (path : String) (query : Option String) : UriReference :=
  ⟨none, none, path.toList, query.map String.toList, none⟩

theorem wellFormed_probedUrl : probedUrl.WellFormed where
  scheme_ne := by decide
  scheme := by rintro _ ⟨rfl⟩; exact all_eq_true.mp (by decide)
  authority := by rintro _ ⟨rfl⟩; exact all_eq_true.mp (by decide)
  path := by
    have hall : "/a/b".toList.all fun c => isPchar c || c == '/' := by decide
    intro c hc
    simpa using all_eq_true.mp hall c hc
  query := by rintro _ ⟨rfl⟩; exact all_eq_true.mp (by decide)
  fragment := by rintro _ ⟨⟩
  path_abempty _ := .inr rfl
  path_absolute h := absurd h (by decide)
  path_noscheme h := absurd h (by decide)

theorem wellFormed_sibling {path : String} {query : Option String}
    (hpath : path.toList.all fun c => isPchar c && c != ':')
    (hquery : forall s, s ∈ query -> s.toList.all isQueryChar = true) :
    (sibling path query).WellFormed := by
  have hplain : forall c, c ∈ path.toList -> isPchar c = true ∧ c ≠ ':' := by
    simpa using all_eq_true.mp hpath
  refine ⟨by simp [sibling], by simp [sibling], by simp [sibling], ?_, ?_, by simp [sibling],
    by simp [sibling], ?_, ?_⟩
  · exact fun c hc => .inl (hplain c hc).1
  · intro s hs
    obtain ⟨t, ht, rfl⟩ := Option.map_eq_some_iff.mp hs
    exact all_eq_true.mp (hquery t ht)
  · rintro - ⟨t, ht⟩
    have hslash : '/' ∈ path.toList := by
      rw [show path.toList = _ from ht.symm]
      simp
    exact absurd (hplain _ hslash).1 (by decide)
  · exact fun _ _ hcolon => (hplain _ (( takeWhile_prefix _).subset hcolon)).2 rfl

theorem resolves_iff_followed_sibling : Resolves probedUrl (sibling "ok" none) := by
  have hwellFormed : (sibling "ok" none).WellFormed := wellFormed_sibling (by decide) (by simp)
  refine (resolves_iff_followed wellFormed_probedUrl hwellFormed (by simp [sibling])).mpr ?_
  have hclear : ¬ "://".toList <:+: (sibling "ok" none).body := by decide
  have hdots : ¬ HasDotSegment "/a/ok".toList :=
    (removeDotSegments_eq_self_iff (.inr (by decide))).mp (by decide)
  exact .inr (.inr ⟨rfl, hclear, .inr ⟨rfl, .inl (by decide), .inr ⟨by decide, hdots⟩⟩⟩)

/-- A query replaces the last segment of the path. -/
theorem query_drops_segment : probedUrl.WellFormed ∧ (sibling "" (some "x")).WellFormed ∧
    ¬ Resolves probedUrl (sibling "" (some "x")) := by
  refine ⟨wellFormed_probedUrl, wellFormed_sibling (by decide) (by rintro _ ⟨rfl⟩; decide), ?_⟩
  rintro ⟨u, hu, -, hpath, -⟩
  have hresult : resolveRedirectUrl probedUrl.text (sibling "" (some "x")).text =
      .ok "http://h/a/?x".toList := rfl
  cases hresult.symm.trans hu
  exact absurd hpath (by decide)

end Client
end FrpRs
