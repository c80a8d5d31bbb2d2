import FrpRs.Http.InjectorStream

/-!
# Names of injected headers

The configured headers of `ResponseHeaderInjector` in `frp-server/src/control/bridge/injector.rs`
are sent in the byte order of their keys, and a key that differs from the previous one only in
case takes its place.  Two spellings of one name need not be neighbours in that order.
-/

namespace FrpRs
namespace Http
namespace Injector

open List Bytes Lines Textproto Neighbours

/-!
## Lines with a name
-/

def isNamed (name line : List Byte) : Bool :=
  !isContinuation line && (cut colon (lineBody line)).any fun parts =>
    eqIgnoreAsciiCase parts.1 name

def linesNamed (name head : List Byte) : Nat :=
  (splitInclusive lf head).countP (isNamed name)

def emittedHead (headers : HeaderMap) (h : ResponseHead) (c : Nat) : List Byte :=
  emitHeaders
      (spliceHeadDeduplicated (unlines lf h.lines) headers (suppressedHeadersForStatus (some c)))
      (headers.sorted (suppressedHeadersForStatus (some c))) ++ (h.blank ++ [lf])

def isSuppressed (c : Nat) (name : List Byte) : Bool :=
  (suppressedHeadersForStatus (some c)).any fun s => eqIgnoreAsciiCase name s

def EachOnce (headers : HeaderMap) (h : ResponseHead) (c : Nat) : Prop :=
  forall key, key ∈ headers.pairs -> isSuppressed c key.1 = false ->
    linesNamed key.1 (emittedHead headers h c) = 1

/-- A key that stands before the colon of a line as it is. -/
structure PlainKey (key : List Byte) : Prop where
  colon_free : colon ∉ key
  cr_free : cr ∉ key
  lf_free : lf ∉ key
  filled : key.head?.any isOws = false

/-- The keys that are not suppressed are plain, and between two spellings of one name there is
no other key. -/
structure SpellingsTogether (headers : HeaderMap) (c : Nat) : Prop where
  plain : forall key, key ∈ headers.pairs -> isSuppressed c key.1 = false -> PlainKey key.1
  between : forall a m b, a ∈ headers.pairs -> m ∈ headers.pairs -> b ∈ headers.pairs ->
    isSuppressed c a.1 = false -> isSuppressed c m.1 = false ->
    byteLe a.1 m.1 = true -> byteLe m.1 b.1 = true ->
    lowered a.1 = lowered b.1 -> lowered m.1 = lowered a.1

/-!
## The order of the keys
-/

theorem byteLe_total (a b : List Byte) : byteLe a b = true ∨ byteLe b a = true := by
  induction a generalizing b with
  | nil => exact Or.inl rfl
  | cons x a ih =>
    cases b with
    | nil => exact Or.inr rfl
    | cons y b =>
      rw [byteLe, byteLe]
      by_cases heq : x = y
      · rw [if_pos heq, if_pos heq.symm]
        exact ih b
      · rw [if_neg heq, if_neg (Ne.symm heq), decide_eq_true_eq, decide_eq_true_eq]
        exact UInt8.lt_or_lt_of_ne heq

theorem byteLe_trans {a b d : List Byte} (hab : byteLe a b = true) (hbd : byteLe b d = true) :
    byteLe a d = true := by
  induction a generalizing b d with
  | nil => rfl
  | cons x a ih =>
    cases b with
    | nil => cases hab
    | cons y b =>
      cases d with
      | nil => cases hbd
      | cons z d =>
        rw [byteLe] at hab hbd ⊢
        by_cases hxy : x = y
        · by_cases hyz : y = z
          · rw [if_pos hxy] at hab
            rw [if_pos hyz] at hbd
            rw [if_pos (hxy.trans hyz)]
            exact ih hab hbd
          · rw [if_neg hyz] at hbd
            rw [hxy, if_neg hyz]
            exact hbd
        · rw [if_neg hxy, decide_eq_true_eq] at hab
          by_cases hyz : y = z
          · rw [<- hyz, if_neg hxy, decide_eq_true_eq]
            exact hab
          · rw [if_neg hyz, decide_eq_true_eq] at hbd
            have hlt := UInt8.lt_trans hab hbd
            rw [if_neg (UInt8.ne_of_lt hlt), decide_eq_true_eq]
            exact hlt

theorem byteLe_antisymm {a b : List Byte} (hab : byteLe a b = true) (hba : byteLe b a = true) :
    a = b := by
  induction a generalizing b with
  | nil =>
    cases b with
    | nil => rfl
    | cons y b => cases hba
  | cons x a ih =>
    cases b with
    | nil => cases hab
    | cons y b =>
      rw [byteLe] at hab hba
      by_cases heq : x = y
      · rw [if_pos heq] at hab
        rw [if_pos heq.symm] at hba
        rw [heq, ih hab hba]
      · rw [if_neg heq, decide_eq_true_eq] at hab
        rw [if_neg (Ne.symm heq), decide_eq_true_eq] at hba
        exact absurd (UInt8.lt_trans hab hba) (UInt8.lt_irrefl x)

namespace HeaderMap

def KeyLe (a b : List Byte × List Byte) : Prop :=
  byteLe a.1 b.1 = true

instance : DecidableRel KeyLe :=
  fun a b => inferInstanceAs (Decidable (byteLe a.1 b.1 = true))

instance : Std.Total KeyLe :=
  ⟨fun a b => byteLe_total a.1 b.1⟩

instance : IsTrans (List Byte × List Byte) KeyLe :=
  ⟨fun _ _ _ hab hbd => byteLe_trans hab hbd⟩

theorem mem_sorted {headers : HeaderMap} {c : Nat} {key : List Byte × List Byte} :
    key ∈ headers.sorted (suppressedHeadersForStatus (some c)) ↔
      key ∈ headers.pairs ∧ isSuppressed c key.1 = false := by
  rw [sorted, mem_insertionSort, mem_filter, isSuppressed, Bool.not_eq_true']

theorem sorted_keyLe (headers : HeaderMap) (suppress : List (List Byte)) :
    (headers.sorted suppress).Pairwise KeyLe :=
  pairwise_insertionSort KeyLe _

theorem sorted_keys_ne (headers : HeaderMap) (suppress : List (List Byte)) :
    (headers.sorted suppress).Pairwise fun a b => a.1 ≠ b.1 := by
  have hpairs : headers.pairs.Pairwise fun a b => a.1 ≠ b.1 := by
    rw [pairs, pairwise_map]
    exact pairwise_map.mp headers.nodupKeys
  have hperm := perm_insertionSort (fun a b : List Byte × List Byte => byteLe a.1 b.1)
    (headers.pairs.filter fun h => !suppress.any fun s => eqIgnoreAsciiCase h.1 s)
  exact (hperm.pairwise_iff Ne.symm).mpr (hpairs.sublist filter_sublist)

def KeyBefore (a b : List Byte × List Byte) : Prop :=
  byteLe b.1 a.1 = false

instance : Std.Antisymm KeyBefore where
  antisymm a b hab hba := by
    rcases byteLe_total a.1 b.1 with hle | hle
    · rw [show byteLe a.1 b.1 = false from hba] at hle
      cases hle
    · rw [show byteLe b.1 a.1 = false from hab] at hle
      cases hle

theorem keyBefore_of_ne {a b : List Byte × List Byte} (hle : byteLe a.1 b.1 = true)
    (hne : a.1 ≠ b.1) : KeyBefore a b := by
  rw [KeyBefore, <- Bool.not_eq_true]
  intro hge
  exact hne (byteLe_antisymm hle hge)

theorem sublist_sorted {headers : HeaderMap} {suppress : List (List Byte)}
    {a m b : List Byte × List Byte} (hmem : [a, m, b] ⊆ headers.sorted suppress)
    (ham : byteLe a.1 m.1 = true) (hmb : byteLe m.1 b.1 = true) (hneam : a.1 ≠ m.1)
    (hnemb : m.1 ≠ b.1) : [a, m, b].Sublist (headers.sorted suppress) := by
  have hneab : a.1 ≠ b.1 := by
    intro heq
    rw [heq] at ham
    exact hnemb (byteLe_antisymm hmb ham)
  have hordered : [a, m, b].Pairwise KeyBefore := by
    refine .cons ?_ (.cons ?_ (.cons (fun _ h => absurd h not_mem_nil) .nil))
    · intro d hd
      rcases mem_cons.mp hd with heq | hd
      · rw [heq]
        exact keyBefore_of_ne ham hneam
      · rw [mem_singleton.mp hd]
        exact keyBefore_of_ne (byteLe_trans ham hmb) hneab
    · intro d hd
      rw [mem_singleton.mp hd]
      exact keyBefore_of_ne hmb hnemb
  have hnodup : [a, m, b].Nodup := by
    have hne : forall x y : List Byte × List Byte, KeyBefore x y -> x ≠ y := by
      intro x y hbefore heq
      rw [heq, KeyBefore] at hbefore
      rcases byteLe_total y.1 y.1 with hle | hle
      · rw [hbefore] at hle
        cases hle
      · rw [hbefore] at hle
        cases hle
    exact hordered.imp fun h => hne _ _ h
  exact sublist_of_subperm_of_pairwise (subperm_of_subset hnodup hmem) hordered
    (((sorted_keyLe headers suppress).and (sorted_keys_ne headers suppress)).imp
      fun h => keyBefore_of_ne h.1 h.2)

/-- In the sorted list the spellings of one name stand together. -/
theorem together_sorted_iff (headers : HeaderMap) (c : Nat) :
    Together (fun key => lowered key.1) (headers.sorted (suppressedHeadersForStatus (some c))) ↔
      forall a m b, a ∈ headers.pairs -> m ∈ headers.pairs -> b ∈ headers.pairs ->
        isSuppressed c a.1 = false -> isSuppressed c m.1 = false ->
        byteLe a.1 m.1 = true -> byteLe m.1 b.1 = true ->
        lowered a.1 = lowered b.1 -> lowered m.1 = lowered a.1 := by
  constructor
  · intro htogether a m b ha hm hb hsa hsm ham hmb hlowered
    by_cases heq : a.1 = m.1
    · rw [heq]
    · by_cases heq' : m.1 = b.1
      · rw [heq']
        exact hlowered.symm
      · have hsb : isSuppressed c b.1 = false := by
          rw [<- hsa, isSuppressed, isSuppressed]
          simp only [eqIgnoreAsciiCase, hlowered]
        have hmem : [a, m, b] ⊆ headers.sorted (suppressedHeadersForStatus (some c)) := by
          intro d hd
          rcases mem_cons.mp hd with heqd | hd
          · rw [heqd]
            exact mem_sorted.mpr ⟨ha, hsa⟩
          · rcases mem_cons.mp hd with heqd | hd
            · rw [heqd]
              exact mem_sorted.mpr ⟨hm, hsm⟩
            · rw [mem_singleton.mp hd]
              exact mem_sorted.mpr ⟨hb, hsb⟩
        exact htogether a m b (sublist_sorted hmem ham hmb heq heq') hlowered
  · intro hbetween a m b hsub hlowered
    have ha := mem_sorted.mp (hsub.subset mem_cons_self)
    have hm := mem_sorted.mp (hsub.subset (mem_cons_of_mem a mem_cons_self))
    have hb := mem_sorted.mp
      (hsub.subset (mem_cons_of_mem a (mem_cons_of_mem m mem_cons_self)))
    have hordered := (sorted_keyLe headers (suppressedHeadersForStatus (some c))).sublist hsub
    rcases pairwise_cons.mp hordered with ⟨hfirst, hrest⟩
    have ham := hfirst m mem_cons_self
    have hmb := (pairwise_cons.mp hrest).1 b mem_cons_self
    exact hbetween a m b ha.1 hm.1 hb.1 ha.2 hm.2 ham hmb hlowered

end HeaderMap

/-!
## The lines of a head
-/

def headerContent (key : List Byte × List Byte) : List Byte :=
  sanitize key.1 ++ utf8 ": " ++ sanitize key.2 ++ [cr]

theorem headerLine_eq (key : List Byte × List Byte) :
    headerLine key = headerContent key ++ [lf] := by
  rw [headerLine, headerContent, append_assoc _ [cr]]
  rfl

theorem flatMap_headerLine (keys : List (List Byte × List Byte)) :
    keys.flatMap headerLine = unlines lf (keys.map headerContent) := by
  induction keys with
  | nil => rfl
  | cons key keys ih =>
    rw [flatMap_cons, map_cons, unlines_cons, ih, headerLine_eq, append_assoc]
    rfl

/-- What is left of a head has lines of the head, and none with a configured name. -/
theorem spliceLines_kept (headers : HeaderMap) (suppress : List (List Byte)) (fuel : Nat)
    (lines : List (List Byte)) :
    exists rest, spliceLines headers suppress fuel (lines.map fun line => line ++ [lf]) =
        unlines lf rest ∧ rest ⊆ lines ∧
      forall line, line ∈ rest -> takesOut headers suppress (line ++ [lf]) = false := by
  induction fuel generalizing lines with
  | zero => exact ⟨[], rfl, nil_subset _, fun _ h => absurd h not_mem_nil⟩
  | succ fuel ih =>
    cases lines with
    | nil => exact ⟨[], rfl, nil_subset _, fun _ h => absurd h not_mem_nil⟩
    | cons line lines =>
      rw [map_cons, spliceLines]
      cases htaken : takesOut headers suppress (line ++ [lf]) with
      | true =>
        rcases ih (lines.dropWhile ResponseHead.isFold) with ⟨rest, heq, hsub, hnone⟩
        rw [if_pos rfl, dropWhile_ended]
        refine ⟨rest, heq, fun x hx => ?_, hnone⟩
        exact mem_cons_of_mem line ((dropWhile_sublist _).subset (hsub hx))
      | false =>
        rcases ih lines with ⟨rest, heq, hsub, hnone⟩
        refine ⟨line :: rest, ?_, cons_subset_cons line hsub, ?_⟩
        · rw [heq, unlines_cons, append_assoc]
          rfl
        · intro x hx
          rcases mem_cons.mp hx with heqx | hx
          · rw [heqx]
            exact htaken
          · exact hnone x hx

theorem emittedHead_lines (headers : HeaderMap) (h : ResponseHead) (c : Nat) :
    exists rest, emittedHead headers h c =
        unlines lf (rest ++
          ((lastOfRuns (fun key => lowered key.1)
            (headers.sorted (suppressedHeadersForStatus (some c)))).map headerContent ++
              [h.blank])) ∧
      rest ⊆ h.lines ∧
      forall line, line ∈ rest ->
        takesOut headers (suppressedHeadersForStatus (some c)) (line ++ [lf]) = false := by
  have hsplit := splitInclusive_unlines (fun line hline => (h.lines_filled line hline).1) []
  rw [append_nil, splitInclusive, append_nil] at hsplit
  rcases spliceLines_kept headers (suppressedHeadersForStatus (some c))
    (h.lines.map fun line => line ++ [lf]).length h.lines with ⟨rest, hsplice, hsub, hnone⟩
  refine ⟨rest, ?_, hsub, hnone⟩
  rw [emittedHead, spliceHeadDeduplicated, hsplit, hsplice, emitHeaders_eq, flatMap_headerLine,
    lastOfCase, unlines_append, unlines_append, unlines_cons, unlines_nil, append_assoc]

/-!
## Case
-/

theorem toAsciiLower_eq_iff {b sep : Byte} (hupper : isAsciiUpper sep = false)
    (hlower : isAsciiLower sep = false) : toAsciiLower b = sep ↔ b = sep := by
  rw [toAsciiLower]
  split
  · rename_i hb
    have h32 : (32 : UInt8).toNat = 32 := rfl
    have h65 : (65 : UInt8).toNat = 65 := rfl
    have h90 : (90 : UInt8).toNat = 90 := rfl
    have h97 : (97 : UInt8).toNat = 97 := rfl
    have h122 : (122 : UInt8).toNat = 122 := rfl
    simp only [isAsciiUpper, isAsciiLower, Bool.and_eq_true, Bool.and_eq_false_iff,
      decide_eq_true_eq, decide_eq_false_iff_not, UInt8.le_iff_toNat_le, h65, h90, h97,
      h122] at hupper hlower hb
    rw [<- UInt8.toNat_inj, <- UInt8.toNat_inj, UInt8.toNat_add, h32]
    omega
  · exact Iff.rfl

theorem mem_lowered_iff {bs : List Byte} {sep : Byte} (hupper : isAsciiUpper sep = false)
    (hlower : isAsciiLower sep = false) : sep ∈ lowered bs ↔ sep ∈ bs := by
  rw [lowered, mem_map]
  constructor
  · rintro ⟨b, hmem, hb⟩
    rw [(toAsciiLower_eq_iff hupper hlower).mp hb] at hmem
    exact hmem
  · intro hmem
    exact ⟨sep, hmem, (toAsciiLower_eq_iff hupper hlower).mpr rfl⟩

theorem head_lowered (bs : List Byte) : (lowered bs).head?.any isOws = bs.head?.any isOws := by
  cases bs with
  | nil => rfl
  | cons b bs =>
    have hspace := @toAsciiLower_eq_iff b space rfl rfl
    have htab := @toAsciiLower_eq_iff b htab rfl rfl
    change isOws (toAsciiLower b) = isOws b
    rw [isOws, isOws, decide_eq_decide.mpr hspace, decide_eq_decide.mpr htab]

theorem PlainKey.of_lowered {a b : List Byte} (h : PlainKey a) (hlowered : lowered a = lowered b) :
    PlainKey b where
  colon_free hmem := h.colon_free (by
    rw [<- mem_lowered_iff rfl rfl, hlowered, mem_lowered_iff rfl rfl]
    exact hmem)
  cr_free hmem := h.cr_free (by
    rw [<- mem_lowered_iff rfl rfl, hlowered, mem_lowered_iff rfl rfl]
    exact hmem)
  lf_free hmem := h.lf_free (by
    rw [<- mem_lowered_iff rfl rfl, hlowered, mem_lowered_iff rfl rfl]
    exact hmem)
  filled := by
    rw [<- head_lowered, <- hlowered, head_lowered]
    exact h.filled

/-!
## Configured lines
-/

theorem lineBody_headerContent (key : List Byte × List Byte) :
    lineBody (headerContent key ++ [lf]) = sanitize key.1 ++ utf8 ": " ++ sanitize key.2 := by
  rw [lineBody_ended, headerContent, stripCr, getLast?_concat, if_pos rfl,
    dropLast_concat]

theorem sanitize_free (text : List Byte) : cr ∉ sanitize text ∧ lf ∉ sanitize text := by
  constructor
  · intro hmem
    have hkept := (mem_filter.mp hmem).2
    cases hkept
  · intro hmem
    have hkept := (mem_filter.mp hmem).2
    cases hkept

theorem sanitize_plain {key : List Byte} (h : PlainKey key) : sanitize key = key := by
  apply filter_eq_self.mpr
  intro b hmem
  have hcr : b ≠ cr := fun heq => h.cr_free (heq ▸ hmem)
  have hlf : b ≠ lf := fun heq => h.lf_free (heq ▸ hmem)
  rw [decide_eq_true hcr, decide_eq_true hlf]
  rfl

theorem headerContent_free (key : List Byte × List Byte) : lf ∉ headerContent key := by
  rw [headerContent, mem_append, mem_append, mem_append, not_or, not_or, not_or]
  exact ⟨⟨⟨(sanitize_free key.1).2, by decide⟩, (sanitize_free key.2).2⟩, by decide⟩

variable {key : List Byte × List Byte}

theorem isNamed_headerContent (h : PlainKey key.1) (name : List Byte) :
    isNamed name (headerContent key ++ [lf]) = eqIgnoreAsciiCase key.1 name := by
  have hbody : lineBody (headerContent key ++ [lf]) =
      key.1 ++ colon :: space :: sanitize key.2 := by
    rw [lineBody_headerContent, sanitize_plain h, append_assoc]
    rfl
  have hfirst : (key.1 ++ colon :: space :: sanitize key.2).head?.any isOws = false := by
    cases hkey : key.1 with
    | nil => rfl
    | cons b rest =>
      have hfilled := h.filled
      rw [hkey] at hfilled
      exact hfilled
  rw [isNamed, isContinuation, hbody, hfirst, cut_append colon h.colon_free]
  rfl

theorem plain_of_isNamed {name : List Byte} (h : isNamed name (headerContent key ++ [lf]) = true) :
    PlainKey name := by
  rw [isNamed, isContinuation, lineBody_headerContent, Bool.and_eq_true, Bool.not_eq_true'] at h
  rcases h with ⟨hfirst, hname⟩
  rcases (Option.any_eq_true _ _).mp hname with ⟨⟨part, rest⟩, hcut, heq⟩
  rcases cut_some hcut with ⟨hbody, hcolon⟩
  have hfree : cr ∉ sanitize key.1 ++ utf8 ": " ++ sanitize key.2 ∧
      lf ∉ sanitize key.1 ++ utf8 ": " ++ sanitize key.2 := by
    rw [mem_append, mem_append, not_or, not_or, mem_append, mem_append,
      not_or, not_or]
    exact ⟨⟨⟨(sanitize_free key.1).1, by decide⟩, (sanitize_free key.2).1⟩,
      ⟨⟨(sanitize_free key.1).2, by decide⟩, (sanitize_free key.2).2⟩⟩
  rw [hbody] at hfree hfirst
  have hpart : PlainKey part := by
    refine ⟨hcolon, fun hmem => hfree.1 (mem_append_left _ hmem),
      fun hmem => hfree.2 (mem_append_left _ hmem), ?_⟩
    cases part with
    | nil => rfl
    | cons b part => exact hfirst
  rw [eqIgnoreAsciiCase, decide_eq_true_eq] at heq
  exact hpart.of_lowered heq

/-!
## One line for each name
-/

section Lines

variable {headers : HeaderMap} {h : ResponseHead} {c : Nat} {name : List Byte}

theorem isNamed_of_kept {line : List Byte} (hname : headers.hasName name = true)
    (hkept : takesOut headers (suppressedHeadersForStatus (some c)) (line ++ [lf]) = false) :
    isNamed name (line ++ [lf]) = false := by
  rw [<- Bool.not_eq_true]
  intro hnamed
  rw [isNamed, Bool.and_eq_true] at hnamed
  rcases hnamed with ⟨hfirst, hnamed⟩
  rcases (Option.any_eq_true _ _).mp hnamed with ⟨parts, hcut, heq⟩
  rcases any_eq_true.mp hname with ⟨key, hkey, hsame⟩
  have hhas : headers.hasName parts.1 = true := by
    refine any_eq_true.mpr ⟨key, hkey, ?_⟩
    rw [eqIgnoreAsciiCase, decide_eq_true_eq] at heq hsame ⊢
    exact hsame.trans heq.symm
  rw [takesOut, hfirst, Bool.true_and, hcut, Option.any_some, hhas] at hkept
  cases hkept

theorem isNamed_blank {blank : List Byte} (hblank : Blank blank) :
    isNamed name (blank ++ [lf]) = false := by
  rw [isNamed, lineBody_ended, hblank.2]
  cases isContinuation (blank ++ [lf]) with
  | true => rfl
  | false => rfl

/-- Only the configured lines count. -/
theorem linesNamed_emittedHead (hname : headers.hasName name = true) :
    linesNamed name (emittedHead headers h c) =
      (lastOfRuns (fun key => lowered key.1)
        (headers.sorted (suppressedHeadersForStatus (some c)))).countP
          fun key => isNamed name (headerContent key ++ [lf]) := by
  rcases emittedHead_lines headers h c with ⟨rest, hlines, hsub, hkept⟩
  generalize lastOfRuns (fun key => lowered key.1)
    (headers.sorted (suppressedHeadersForStatus (some c))) = keys at hlines ⊢
  have hfree : forall line, line ∈ rest ++ (keys.map headerContent ++ [h.blank]) -> lf ∉ line := by
    intro line hmem
    rcases mem_append.mp hmem with hrest | hmem
    · exact (h.lines_filled line (hsub hrest)).1
    · rcases mem_append.mp hmem with hkey | hblank
      · rcases mem_map.mp hkey with ⟨key, _, heq⟩
        rw [<- heq]
        exact headerContent_free key
      · rw [mem_singleton.mp hblank]
        exact h.blank_blank.1
  have hsplit := splitInclusive_unlines hfree []
  rw [append_nil, splitInclusive, append_nil] at hsplit
  have hrest : (rest.map fun line => line ++ [lf]).countP (isNamed name) = 0 := by
    rw [countP_eq_zero]
    intro line hmem
    rcases mem_map.mp hmem with ⟨line', hmem', heq⟩
    rw [<- heq, isNamed_of_kept hname (hkept line' hmem')]
    exact Bool.false_ne_true
  rw [linesNamed, hlines, hsplit, map_append, map_append, countP_append,
    countP_append, hrest, Nat.zero_add, map_map, countP_map, map_singleton,
    countP_singleton, isNamed_blank h.blank_blank]
  rfl

theorem hasName_of_mem (hmem : key ∈ headers.pairs) :
    headers.hasName key.1 = true := by
  refine any_eq_true.mpr ⟨key, hmem, ?_⟩
  rw [eqIgnoreAsciiCase, decide_eq_true_eq]

theorem linesNamed_eq_kept
    (hplain : forall key, key ∈ headers.pairs -> isSuppressed c key.1 = false -> PlainKey key.1)
    {key : List Byte × List Byte} (hmem : key ∈ headers.pairs) :
    linesNamed key.1 (emittedHead headers h c) =
      kept (fun key => lowered key.1) (lowered key.1)
        (headers.sorted (suppressedHeadersForStatus (some c))) := by
  rw [linesNamed_emittedHead (hasName_of_mem hmem), kept]
  apply countP_congr
  intro key' hmem'
  have hsorted := HeaderMap.mem_sorted.mp ((lastOfRuns_sublist _).subset hmem')
  rw [isNamed_headerContent (hplain key' hsorted.1 hsorted.2), eqIgnoreAsciiCase]

theorem eachOnce_iff (headers : HeaderMap) (h : ResponseHead) (c : Nat) :
    EachOnce headers h c ↔ SpellingsTogether headers c := by
  constructor
  · intro honce
    have hplain : forall key, key ∈ headers.pairs -> isSuppressed c key.1 = false ->
        PlainKey key.1 := by
      intro key hmem hsent
      have hone := honce key hmem hsent
      rw [linesNamed_emittedHead (hasName_of_mem hmem)] at hone
      have hpos := Nat.lt_of_lt_of_eq Nat.one_pos hone.symm
      rcases countP_pos_iff.mp hpos with ⟨key', _, hnamed⟩
      exact plain_of_isNamed hnamed
    refine ⟨hplain, (HeaderMap.together_sorted_iff headers c).mp ?_⟩
    rw [<- kept_eq_one_iff]
    intro key hmem
    have hsorted := HeaderMap.mem_sorted.mp hmem
    rw [<- @linesNamed_eq_kept headers h c hplain key hsorted.1]
    exact honce key hsorted.1 hsorted.2
  · intro htogether key hmem hsent
    have hall := (HeaderMap.together_sorted_iff headers c).mpr htogether.between
    rw [<- kept_eq_one_iff] at hall
    rw [linesNamed_eq_kept htogether.plain hmem]
    exact hall key (HeaderMap.mem_sorted.mpr ⟨hmem, hsent⟩)

end Lines

/-!
## The injector
-/

namespace ResponseHeaderInjector

section Final

variable {s : ResponseHeaderInjector} {final : ResponseHead} {more : List Byte} {c : Nat}

theorem inject_emits (hstatus : final.status = some c) (hbuffer : s.buffer = final.bytes ++ more) :
    exists tail, (s.inject final.bytes.length (some c)).buffer =
        emittedHead s.headers final c ++ tail ∧
      (s.inject final.bytes.length (some c)).bufferOffset = 0 := by
  have hblank : final.bytes = unlines lf final.lines ++ (final.blank ++ [lf]) := by
    rw [ResponseHead.bytes, append_assoc]
  have hstart : blankStart s.buffer final.bytes.length = (unlines lf final.lines).length := by
    rw [hbuffer]
    exact ResponseHead.blankStart_eq (lines_ne_nil hstatus) more
  have htake : s.buffer.take (unlines lf final.lines).length = unlines lf final.lines := by
    rw [hbuffer, hblank, append_assoc, take_left]
  have hend : (s.buffer.take final.bytes.length).drop (unlines lf final.lines).length =
      final.blank ++ [lf] := by
    rw [hbuffer, take_left, hblank, drop_left]
  have hdrop : s.buffer.drop (unlines lf final.lines).length = final.blank ++ [lf] ++ more := by
    rw [hbuffer, hblank, append_assoc, drop_left]
  rw [inject]
  rw [hstart, htake, hend, hdrop]
  generalize (if some c = some 204 ∨ some c = some 304 then
    declaredDiscard (declaredBodyFraming (unlines lf final.lines)) else none) = declared
  cases declared with
  | none =>
    refine ⟨more, ?_, rfl⟩
    exact (append_assoc _ _ _).symm
  | some d =>
    refine ⟨[], ?_, rfl⟩
    rw [emittedHead, append_nil]

theorem classify_emits (source : Poll.Source) (hstatus : final.status = some c)
    (hfinal : servedRaw (some c) = false) (hbuffer : s.buffer = final.bytes ++ more) :
    exists s' tail, s.classify final.bytes.length source = .found s' ∧
      s'.buffer = emittedHead s.headers final c ++ tail ∧ s'.bufferOffset = 0 := by
  rcases inject_emits hstatus hbuffer with ⟨tail, hemitted, hoffset⟩
  refine ⟨s.inject final.bytes.length (some c), tail, ?_, hemitted, hoffset⟩
  have hcode : headStatusCode (s.buffer.take final.bytes.length) = some c := by
    rw [hbuffer, take_left]
    exact hstatus
  have hstart : blankStart s.buffer final.bytes.length = (unlines lf final.lines).length := by
    rw [hbuffer]
    exact ResponseHead.blankStart_eq (lines_ne_nil hstatus) more
  rw [classify, hstart, if_neg (unlines_length_ne_zero (lines_ne_nil hstatus))]
  rw [hcode, if_neg (Bool.eq_false_iff.mp hfinal)]

end Final

/-- The head that the injector puts up for a final status has one line for each configured name
exactly if the keys are plain and the spellings of each name stand together. -/
theorem classify_eachOnce_iff (s : ResponseHeaderInjector) (source : Poll.Source)
    (final : ResponseHead) (more : List Byte) (c : Nat) (hstatus : final.status = some c)
    (hfinal : servedRaw (some c) = false) (hbuffer : s.buffer = final.bytes ++ more) :
    exists s' tail, s.classify final.bytes.length source = .found s' ∧
      s'.buffer = emittedHead s.headers final c ++ tail ∧ s'.bufferOffset = 0 ∧
      (EachOnce s.headers final c ↔ SpellingsTogether s.headers c) := by
  rcases classify_emits source hstatus hfinal hbuffer with ⟨s', tail, hfound, hemitted, hoffset⟩
  exact ⟨s', tail, hfound, hemitted, hoffset, eachOnce_iff s.headers final c⟩

theorem filled_okLine (line : List Byte) (h : line ∈ [utf8 "HTTP/1.1 200 OK\r"]) :
    Filled line := by
  rw [List.mem_singleton.mp h]
  unfold Filled
  decide +kernel

theorem blank_cr : Blank [cr] := by
  unfold Blank
  decide

def bareFinal : ResponseHead where
  lines := [utf8 "HTTP/1.1 200 OK\r"]
  blank := [cr]
  lines_filled := filled_okLine
  blank_blank := blank_cr

theorem classify_eachOnce_iff_sample :
    bareFinal.status = some 200 ∧ servedRaw (some 200) = false ∧
      exists s' tail, ({ new sampleHeaders none with buffer := bareFinal.bytes ++ [] }).classify
          bareFinal.bytes.length ⟨[]⟩ = .found s' ∧
        s'.buffer = emittedHead sampleHeaders bareFinal 200 ++ tail ∧ s'.bufferOffset = 0 ∧
        (EachOnce sampleHeaders bareFinal 200 ↔ SpellingsTogether sampleHeaders 200) := by
  have hstatus : bareFinal.status = some 200 := by decide +kernel
  exact ⟨hstatus, rfl, classify_eachOnce_iff
    { new sampleHeaders none with buffer := bareFinal.bytes ++ [] } ⟨[]⟩ bareFinal [] 200 hstatus
    rfl rfl⟩

def splitSpellings : HeaderMap :=
  AList.insert (utf8 "A-B") (utf8 "1") (AList.insert (utf8 "A-C") (utf8 "2")
    (AList.insert (utf8 "a-b") (utf8 "3") ∅))

theorem two_lines_for_one_name :
    servedRaw bareFinal.status = false ∧
      (utf8 "A-B", utf8 "1") ∈ splitSpellings.pairs ∧ isSuppressed 200 (utf8 "A-B") = false ∧
      linesNamed (utf8 "A-B") (emittedHead splitSpellings bareFinal 200) = 2 := by
  decide +kernel

end ResponseHeaderInjector

end Injector
end Http
end FrpRs
