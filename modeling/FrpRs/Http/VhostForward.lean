import FrpRs.Http.HopByHop

/-!
# Line ends of the request head

`canonicalize_head_crlf`, the first of the edits of a head on its way to the backend.
-/

namespace FrpRs
namespace Http
namespace Vhost

open List Bytes Lines Blocks Textproto

variable {lines : List (List Byte)}

theorem linesOf_head {blank head : List Byte} (h : IsHead lines blank head) :
    linesOf head = lines.map stripCr ++ [[]] := by
  obtain ⟨hlines, ⟨hblank, hempty⟩, hhead⟩ := h
  have hcontent : forall line : List Byte, lineContent (line ++ [lf]) = stripCr line := by
    intro line
    rw [lineContent, getLast?_concat, if_pos rfl, dropLast_concat]
  have hlast : splitInclusive lf (blank ++ [lf]) = [blank ++ [lf]] :=
    splitInclusive_append hblank []
  rw [linesOf, hhead, append_assoc, splitInclusive_unlines fun line hmem => (hlines line hmem).1,
    hlast, map_append, map_map, map_singleton, hcontent, hempty]
  congr 1
  apply map_congr_left
  intro line _
  exact hcontent line

variable {line : List Byte}

theorem hasBareLf_line (hline : lf ∉ line) (rest : List Byte) (prevCr : Bool) :
    hasBareLf prevCr (line ++ lf :: rest) =
      (!(line.getLast?.elim prevCr fun b => b = cr) || hasBareLf false rest) := by
  induction line generalizing prevCr with
  | nil =>
    have hne : (lf = cr) = False := by decide
    simp [hasBareLf, hne]
  | cons b line ih =>
    obtain ⟨hb, htail⟩ := ne_and_not_mem_of_not_mem_cons hline
    rw [cons_append, hasBareLf, ih htail, decide_eq_false (Ne.symm hb), Bool.false_and,
      Bool.false_or]
    cases line with
    | nil => rfl
    | cons b' line =>
      rw [getLast?_cons_cons]
      cases hlast : (b' :: line).getLast? with
      | none => cases getLast?_eq_none_iff.mp hlast
      | some c => rfl

theorem eq_of_not_hasBareLf (hline : lf ∉ line) {rest : List Byte}
    (h : hasBareLf false (line ++ lf :: rest) = false) :
    line = stripCr line ++ [cr] ∧ hasBareLf false rest = false := by
  rw [hasBareLf_line hline, Bool.or_eq_false_iff, Bool.not_eq_false'] at h
  refine ⟨?_, h.2⟩
  cases hlast : line.getLast? with
  | none =>
    rw [hlast] at h
    cases h.1
  | some b =>
    rw [hlast] at h
    have hcr : b = cr := of_decide_eq_true h.1
    rw [hcr] at hlast
    rw [stripCr, if_pos hlast]
    obtain ⟨content, hcontent⟩ := getLast?_eq_some_iff.mp hlast
    rw [hcontent, dropLast_concat]

theorem text_of_not_hasBareLf (hlines : forall line, line ∈ lines -> lf ∉ line) {rest : List Byte}
    (h : hasBareLf false (unlines lf lines ++ rest) = false) :
    unlines lf lines = text (lines.map stripCr) ∧ hasBareLf false rest = false := by
  induction lines with
  | nil =>
    exact ⟨rfl, h⟩
  | cons line lines ih =>
    rw [unlines_cons, append_assoc, cons_append] at h
    obtain ⟨hline, htail⟩ := eq_of_not_hasBareLf (hlines line mem_cons_self) h
    obtain ⟨hrest, hend⟩ := ih (fun line' hmem => hlines line' (mem_cons_of_mem line hmem))
      htail
    refine ⟨?_, hend⟩
    rw [unlines_cons, hrest, map_cons, text_cons]
    conv_lhs => rw [hline]
    simp [crlf]

theorem canonicalizeHeadCrlf_head {blank head : List Byte} (h : IsHead lines blank head)
    (tail : List Byte) :
    canonicalizeHeadCrlf (head ++ tail) = text (lines.map stripCr) ++ crlf ++ tail := by
  have hlines := linesOf_head h
  rw [canonicalizeHeadCrlf, h.headEnd tail]
  dsimp only
  rw [take_left, drop_left]
  split
  · have htext : canonicalizeEolCrlf head = text (linesOf head) := by
      rw [canonicalizeEolCrlf, text, linesOf, flatMap_map]
    rw [htext, hlines, text_append]
    rfl
  · rename_i hbare
    obtain ⟨hfilled, ⟨hblank, hempty⟩, hhead⟩ := h
    rw [Bool.not_eq_true, hhead, append_assoc] at hbare
    obtain ⟨hunlines, hend⟩ := text_of_not_hasBareLf (fun line hmem => (hfilled line hmem).1) hbare
    obtain ⟨hcr, _⟩ := eq_of_not_hasBareLf hblank hend
    rw [hempty, nil_append] at hcr
    rw [hhead, hunlines, hcr]
    simp [crlf]

theorem lf_notMem_stripCr (h : lf ∉ line) : lf ∉ stripCr line := by
  rw [stripCr]
  split
  · exact fun hmem => h (dropLast_subset line hmem)
  · exact h

theorem filled_contents (hlines : forall line, line ∈ lines -> Filled line) :
    forall content, content ∈ lines.map stripCr -> content ≠ [] ∧ lf ∉ content := by
  intro content hmem
  rcases mem_map.mp hmem with ⟨line, hline, rfl⟩
  exact ⟨(hlines line hline).2, lf_notMem_stripCr (hlines line hline).1⟩

/-- The lines of the head stay as they are, each with the same line end, the bytes after the head
are not touched, and a second pass changes nothing. -/
theorem canonicalizeHeadCrlf_spec (data : List Byte) :
    (headEnd data = none -> canonicalizeHeadCrlf data = data) ∧
    forall e, headEnd data = some e ->
      exists head, canonicalizeHeadCrlf data = head ++ data.drop e ∧
        headEnd (canonicalizeHeadCrlf data) = some head.length ∧
        linesOf head = linesOf (data.take e) ∧
        (forall line, line ∈ splitInclusive lf head -> crlf <:+ line) ∧
        canonicalizeHeadCrlf (canonicalizeHeadCrlf data) = canonicalizeHeadCrlf data := by
  constructor
  · intro hnone
    rw [canonicalizeHeadCrlf, hnone]
  · intro e hsome
    rcases headEnd_some hsome with ⟨lines, blank, hhead, _⟩
    have hout := canonicalizeHeadCrlf_head hhead (data.drop e)
    rw [take_append_drop] at hout
    have hcontents := filled_contents hhead.1
    have hnew := isHead_text hcontents
    have hstrip : ((lines.map stripCr).map fun content => content ++ [cr]).map stripCr =
        lines.map stripCr := by
      rw [map_map]
      conv_rhs => rw [← map_id (lines.map stripCr)]
      apply map_congr_left
      intro content _
      exact stripCr_append_cr content
    refine ⟨text (lines.map stripCr) ++ crlf, hout, ?_, ?_, ?_, ?_⟩
    · rw [hout]
      exact hnew.headEnd _
    · rw [linesOf_head hnew, linesOf_head hhead, hstrip]
    · intro line hmem
      rw [splitInclusive_head hcontents, mem_append, mem_singleton] at hmem
      rcases hmem with hmem | rfl
      · rcases mem_map.mp hmem with ⟨content, _, rfl⟩
        exact suffix_append content crlf
      · exact suffix_rfl
    · rw [hout, canonicalizeHeadCrlf_head hnew, hstrip]

/-- A line end of three bytes and a bare one, with a tail that starts like a blank line. -/
theorem canonicalizeHeadCrlf_mixed :
    headEnd [97, 13, 13, 10, 98, 10, 10, 13, 10] = some 7 ∧
    exists head, canonicalizeHeadCrlf [97, 13, 13, 10, 98, 10, 10, 13, 10] = head ++ [13, 10] ∧
      linesOf head = [[97, 13], [98], []] := by
  rcases (canonicalizeHeadCrlf_spec [97, 13, 13, 10, 98, 10, 10, 13, 10]).2 7 (by decide) with
    ⟨head, hout, _, hlines, _, _⟩
  refine ⟨by decide, head, hout, ?_⟩
  rw [hlines]
  decide

end Vhost
end Http
end FrpRs
