import Mathlib.Data.List.Basic

/-!
# Lines

A text is cut at a separator.  A cut gives what stands before the first separator and what
stands after it; cutting again and again gives the lines, with or without their separators.
-/

namespace FrpRs
namespace Lines

open List

variable {α : Type} {sep : α}

def unlines (sep : α) (lines : List (List α)) : List α :=
  lines.flatMap fun line => line ++ [sep]

@[simp] theorem unlines_nil (sep : α) : unlines sep [] = [] := rfl

theorem unlines_cons (sep : α) (line : List α) (lines : List (List α)) :
    unlines sep (line :: lines) = line ++ sep :: unlines sep lines := by
  simp [unlines]

theorem unlines_append (sep : α) (lines lines' : List (List α)) :
    unlines sep (lines ++ lines') = unlines sep lines ++ unlines sep lines' := by
  simp [unlines]

variable [DecidableEq α]

def cut (sep : α) : List α -> Option (List α × List α)
  | [] => none
  | a :: as =>
    if a = sep then some ([], as)
    else (cut sep as).map fun parts => (a :: parts.1, parts.2)

theorem cut_append (sep : α) {line : List α} (hline : sep ∉ line) (rest : List α) :
    cut sep (line ++ sep :: rest) = some (line, rest) := by
  induction line with
  | nil =>
    simp [cut]
  | cons a line ih =>
    have hne : a ≠ sep := fun heq => hline (heq ▸ mem_cons_self)
    rw [cons_append, cut, if_neg hne,
      ih fun hmem => hline (mem_cons_of_mem a hmem)]
    rfl

theorem append_cut_inj {k k' x y : List α} (hk : sep ∉ k) (hk' : sep ∉ k')
    (h : k ++ sep :: x = k' ++ sep :: y) : k = k' ∧ x = y := by
  have hcut := congrArg (cut sep) h
  rw [cut_append sep hk, cut_append sep hk', Option.some_inj] at hcut
  exact Prod.mk.inj hcut

theorem cut_none_iff {text : List α} : cut sep text = none ↔ sep ∉ text := by
  induction text with
  | nil =>
    simp [cut]
  | cons a text ih =>
    rw [cut]
    by_cases heq : a = sep
    · simp [heq]
    · rw [if_neg heq, Option.map_eq_none_iff, ih, mem_cons, not_or]
      exact ⟨fun h => ⟨fun hsep => heq hsep.symm, h⟩, fun h => h.2⟩

variable {text line rest : List α}

theorem cut_some (h : cut sep text = some (line, rest)) :
    text = line ++ sep :: rest ∧ sep ∉ line := by
  induction text generalizing line with
  | nil =>
    cases h
  | cons a text ih =>
    rw [cut] at h
    by_cases heq : a = sep
    · rw [if_pos heq] at h
      cases h
      exact ⟨by rw [heq, nil_append], not_mem_nil⟩
    · rw [if_neg heq, Option.map_eq_some_iff] at h
      obtain ⟨parts, hparts, hline⟩ := h
      cases hline
      obtain ⟨htext, hmem⟩ := ih hparts
      refine ⟨by rw [htext, cons_append], ?_⟩
      intro hin
      rcases mem_cons.mp hin with hsep | hin
      · exact heq hsep.symm
      · exact hmem hin

def cutLast (sep : α) (text : List α) : Option (List α × List α) :=
  (cut sep text.reverse).map fun parts => (parts.2.reverse, parts.1.reverse)

theorem cutLast_append (sep : α) (line : List α) {rest : List α} (hrest : sep ∉ rest) :
    cutLast sep (line ++ sep :: rest) = some (line, rest) := by
  have hreverse : (line ++ sep :: rest).reverse = rest.reverse ++ sep :: line.reverse := by
    rw [reverse_append, reverse_cons, append_assoc]
    rfl
  have hfree : sep ∉ rest.reverse := fun hmem => hrest (mem_reverse.mp hmem)
  rw [cutLast, hreverse, cut_append sep hfree, Option.map_some, reverse_reverse,
    reverse_reverse]

theorem cutLast_some (h : cutLast sep text = some (line, rest)) :
    text = line ++ sep :: rest ∧ sep ∉ rest := by
  rw [cutLast, Option.map_eq_some_iff] at h
  rcases h with ⟨parts, hparts, heq⟩
  cases heq
  rcases cut_some hparts with ⟨htext, hfree⟩
  constructor
  · rw [<- reverse_reverse text, htext, reverse_append, reverse_cons,
      append_assoc]
    rfl
  · intro hmem
    exact hfree (mem_reverse.mp hmem)

theorem cut_length (h : cut sep text = some (line, rest)) :
    rest.length < text.length := by
  rw [(cut_some h).1, length_append, length_cons]
  omega

theorem splitOn_map {f : α -> α} (hf : forall a, f a = sep ↔ a = sep) (text : List α) :
    (text.map f).splitOn sep = (text.splitOn sep).map (map f) := by
  induction text with
  | nil =>
    rfl
  | cons a text ih =>
    rw [map_cons, splitOn_cons_eq_if_modifyHead, splitOn_cons_eq_if_modifyHead,
      ih]
    by_cases ha : a = sep
    · simp [ha, (hf sep).mpr rfl]
    · have hne : f a ≠ sep := fun h => ha ((hf a).mp h)
      simp only [beq_eq_false_iff_ne.mpr ha, beq_eq_false_iff_ne.mpr hne,
        Bool.false_eq_true, if_false]
      cases text.splitOn sep with
      | nil => rfl
      | cons piece pieces => rfl

theorem mem_of_mem_splitOn {text piece : List α} (hpiece : piece ∈ text.splitOn sep) {a : α}
    (ha : a ∈ piece) : a ∈ text := by
  induction text generalizing piece with
  | nil =>
    rw [splitOn_nil, mem_singleton] at hpiece
    rw [hpiece] at ha
    exact ha
  | cons b text ih =>
    rw [splitOn_cons_eq_if_modifyHead] at hpiece
    split at hpiece
    · rcases mem_cons.mp hpiece with heq | hmem
      · rw [heq] at ha
        cases ha
      · exact mem_cons_of_mem b (ih hmem ha)
    · cases hsplit : text.splitOn sep with
      | nil => exact absurd hsplit (splitOn_ne_nil sep text)
      | cons first pieces =>
        rw [hsplit, modifyHead_cons] at hpiece
        rcases mem_cons.mp hpiece with heq | hmem
        · rw [heq] at ha
          rcases mem_cons.mp ha with heqb | hin
          · rw [heqb]
            exact mem_cons_self
          · exact mem_cons_of_mem b (ih (hsplit ▸ mem_cons_self) hin)
        · exact mem_cons_of_mem b (ih (hsplit ▸ mem_cons_of_mem first hmem) ha)

def splitInclusive (sep : α) : List α -> List (List α)
  | [] => []
  | a :: as =>
    if a = sep then [a] :: splitInclusive sep as
    else match splitInclusive sep as with
      | [] => [[a]]
      | line :: lines => (a :: line) :: lines

theorem splitInclusive_append {line : List α} (hline : sep ∉ line) (rest : List α) :
    splitInclusive sep (line ++ sep :: rest) = (line ++ [sep]) :: splitInclusive sep rest := by
  induction line with
  | nil =>
    simp [splitInclusive]
  | cons a line ih =>
    have hne : a ≠ sep := fun heq => hline (heq ▸ mem_cons_self)
    rw [cons_append, splitInclusive, if_neg hne,
      ih fun hmem => hline (mem_cons_of_mem a hmem)]
    rfl

theorem splitInclusive_unlines {lines : List (List α)}
    (hlines : forall line, line ∈ lines -> sep ∉ line) (rest : List α) :
    splitInclusive sep (unlines sep lines ++ rest) =
      lines.map (fun line => line ++ [sep]) ++ splitInclusive sep rest := by
  induction lines with
  | nil =>
    rfl
  | cons line lines ih =>
    rw [unlines_cons, append_assoc, cons_append,
      splitInclusive_append (hlines line mem_cons_self),
      ih fun line' hmem => hlines line' (mem_cons_of_mem line hmem)]
    rfl

end Lines
end FrpRs
