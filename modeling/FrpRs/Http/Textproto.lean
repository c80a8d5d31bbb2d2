import FrpRs.Data.Bytes
import FrpRs.Data.Lines
import Mathlib.Data.List.DropRight
import Mathlib.Data.List.Sort

/-!
# Header blocks

`frp-core/src/textproto.rs`.  A line ends at the next line feed and loses one trailing
carriage return; a head ends with its first line that is then empty.
-/

namespace FrpRs
namespace Http

open List Bytes Lines

def lf : Byte := 10
def cr : Byte := 13
def space : Byte := 32
def htab : Byte := 9
def colon : Byte := 58
def comma : Byte := 44

def crlf : List Byte := [cr, lf]

namespace Textproto

def stripCr (line : List Byte) : List Byte :=
  if line.getLast? = some cr then line.dropLast else line

def headEndFrom : Nat -> List Byte -> Option Nat
  | 0, _ => none
  | fuel + 1, head =>
    match cut lf head with
    | none => none
    | some (line, rest) =>
      if stripCr line = [] then some (line.length + 1)
      else (headEndFrom fuel rest).map fun n => line.length + 1 + n

def headEnd (head : List Byte) : Option Nat :=
  headEndFrom head.length head

structure HeadEndScanner where
  lineStart : Nat
  scanned : Nat
deriving DecidableEq, Repr

namespace HeadEndScanner

def new : HeadEndScanner where
  lineStart := 0
  scanned := 0

def feedFrom : Nat -> HeadEndScanner -> List Byte -> Option Nat × HeadEndScanner
  | 0, s, _ => (none, s)
  | fuel + 1, s, buf =>
    if s.lineStart < buf.length then
      match cut lf (buf.drop (max s.lineStart s.scanned)) with
      | none => (none, { s with scanned := buf.length })
      | some (part, _) =>
        let nl := max s.lineStart s.scanned + part.length
        let line := (buf.take nl).drop s.lineStart
        let s := { s with lineStart := nl + 1 }
        if stripCr line = [] then (some (nl + 1), s) else feedFrom fuel s buf
    else (none, s)

def feed (s : HeadEndScanner) (buf : List Byte) : Option Nat × HeadEndScanner :=
  feedFrom (buf.length + 1) s buf

end HeadEndScanner

def lineContent (line : List Byte) : List Byte :=
  if line.getLast? = some lf then stripCr line.dropLast else line

def canonicalizeEolCrlf (head : List Byte) : List Byte :=
  (splitInclusive lf head).flatMap fun line => lineContent line ++ crlf

def hasBareLf : Bool -> List Byte -> Bool
  | _, [] => false
  | prevCr, b :: bs => (b = lf && !prevCr) || hasBareLf (b = cr) bs

def canonicalizeHeadCrlf (preRead : List Byte) : List Byte :=
  match headEnd preRead with
  | none => preRead
  | some n =>
    if hasBareLf false (preRead.take n) then
      canonicalizeEolCrlf (preRead.take n) ++ preRead.drop n
    else preRead

def isAsciiDigit (b : Byte) : Bool :=
  48 ≤ b && b ≤ 57

def isAsciiUpper (b : Byte) : Bool :=
  65 ≤ b && b ≤ 90

def isAsciiLower (b : Byte) : Bool :=
  97 ≤ b && b ≤ 122

def toAsciiLower (b : Byte) : Byte :=
  if isAsciiUpper b then b + 32 else b

def lowered (bs : List Byte) : List Byte :=
  bs.map toAsciiLower

def eqIgnoreAsciiCase (a b : List Byte) : Bool :=
  lowered a = lowered b

def isValidHttpVersion (vers : List Byte) : Bool :=
  vers = utf8 "HTTP/1.0" || vers = utf8 "HTTP/1.1" ||
    (vers.length = 8 && (utf8 "HTTP/").isPrefixOf vers && (vers[5]?.any isAsciiDigit) &&
      vers[6]? = some 46 && (vers[7]?.any isAsciiDigit))

/-- The `tchar` class of header names. -/
def isTokenByte (b : Byte) : Bool :=
  isAsciiDigit b || isAsciiUpper b || isAsciiLower b ||
    b ∈ ([33, 35, 36, 37, 38, 39, 42, 43, 45, 46, 94, 95, 96, 124, 126] : List Byte)

def isToken (s : List Byte) : Bool :=
  !s.isEmpty && s.all isTokenByte

def isOws (b : Byte) : Bool :=
  b = space || b = htab

def trimOws (bs : List Byte) : List Byte :=
  (bs.dropWhile isOws).rdropWhile isOws

def byteLe : List Byte -> List Byte -> Bool
  | [], _ => true
  | _ :: _, [] => false
  | a :: as, b :: bs => if a = b then byteLe as bs else a < b

/-!
## Heads
-/

def Filled (line : List Byte) : Prop :=
  lf ∉ line ∧ stripCr line ≠ []

def Blank (line : List Byte) : Prop :=
  lf ∉ line ∧ stripCr line = []

variable {lines : List (List Byte)}

theorem headEndFrom_filled (hlines : forall line, line ∈ lines -> Filled line) (rest : List Byte)
    (fuel : Nat) :
    headEndFrom (lines.length + fuel) (unlines lf lines ++ rest) =
      (headEndFrom fuel rest).map fun n => (unlines lf lines).length + n := by
  induction lines with
  | nil =>
    simp
  | cons line lines ih =>
    obtain ⟨hlf, hfilled⟩ := hlines line mem_cons_self
    have hrest := ih fun line' hmem => hlines line' (mem_cons_of_mem line hmem)
    have hfuel : (line :: lines).length + fuel = lines.length + fuel + 1 := by
      rw [length_cons]
      omega
    rw [hfuel, headEndFrom, unlines_cons, append_assoc, cons_append,
      cut_append lf hlf]
    simp only [if_neg hfilled]
    rw [hrest, Option.map_map]
    congr 1
    funext n
    simp only [Function.comp_apply, length_append, length_cons]
    omega

theorem headEndFrom_fuel {fuel : Nat} {head : List Byte} (hfuel : head.length ≤ fuel) :
    headEndFrom fuel head = headEnd head := by
  have hall : forall fuel fuel' (head : List Byte), head.length ≤ fuel ->
      head.length ≤ fuel' -> headEndFrom fuel head = headEndFrom fuel' head := by
    intro fuel
    induction fuel with
    | zero =>
      intro fuel' head hfuel _
      rw [eq_nil_of_length_eq_zero (Nat.le_zero.mp hfuel)]
      cases fuel' with
      | zero => rfl
      | succ fuel' => rfl
    | succ fuel ih =>
      intro fuel' head hfuel hfuel'
      cases hcut : cut lf head with
      | none =>
        cases fuel' with
        | zero => rw [headEndFrom, headEndFrom, hcut]
        | succ fuel' => rw [headEndFrom, headEndFrom, hcut]
      | some parts =>
        have hlength := cut_length hcut
        cases fuel' with
        | zero => omega
        | succ fuel' =>
          rw [headEndFrom, headEndFrom, hcut]
          dsimp only
          rw [ih fuel' parts.2 (by omega) (by omega)]
  exact hall fuel head.length head hfuel (Nat.le_refl _)

theorem length_le_unlines (lines : List (List Byte)) :
    lines.length ≤ (unlines lf lines).length := by
  induction lines with
  | nil =>
    exact Nat.le_refl _
  | cons line lines ih =>
    rw [unlines_cons, length_append, length_cons, length_cons]
    omega

theorem headEnd_filled (hlines : forall line, line ∈ lines -> Filled line) (rest : List Byte) :
    headEnd (unlines lf lines ++ rest) =
      (headEnd rest).map fun n => (unlines lf lines).length + n := by
  have hfuel : (unlines lf lines ++ rest).length ≤
      lines.length + (unlines lf lines ++ rest).length := Nat.le_add_left _ _
  rw [← headEndFrom_fuel hfuel, headEndFrom_filled hlines, headEndFrom_fuel]
  rw [length_append]
  exact Nat.le_add_left _ _

theorem headEnd_blank {line : List Byte} (hblank : Blank line) (rest : List Byte) :
    headEnd (line ++ lf :: rest) = some (line.length + 1) := by
  have hfuel : (line ++ lf :: rest).length ≤ (line ++ lf :: rest).length + 1 :=
    Nat.le_succ _
  rw [← headEndFrom_fuel hfuel, headEndFrom, cut_append lf hblank.1]
  simp only [if_pos hblank.2]

theorem headEnd_none_of_cut {head : List Byte} (h : lf ∉ head) : headEnd head = none := by
  have hfuel : head.length ≤ head.length + 1 := Nat.le_succ _
  rw [← headEndFrom_fuel hfuel, headEndFrom, cut_none_iff.mpr h]

def IsHead (lines : List (List Byte)) (blank head : List Byte) : Prop :=
  (forall line, line ∈ lines -> Filled line) ∧ Blank blank ∧
    head = unlines lf lines ++ blank ++ [lf]

theorem IsHead.headEnd {blank head : List Byte} (h : IsHead lines blank head) (rest : List Byte) :
    Textproto.headEnd (head ++ rest) = some head.length := by
  obtain ⟨hlines, hblank, hhead⟩ := h
  have htext : head ++ rest = unlines lf lines ++ (blank ++ lf :: rest) := by
    rw [hhead]
    simp
  rw [htext, headEnd_filled hlines, headEnd_blank hblank, hhead, Option.map_some]
  simp only [length_append, length_singleton]
  congr 1

theorem blank_iff {line : List Byte} : Blank line ↔ line = [] ∨ line = [cr] := by
  constructor
  · intro h
    have hstrip := h.2
    unfold stripCr at hstrip
    split at hstrip
    · rename_i hlast
      rcases getLast?_eq_some_iff.mp hlast with ⟨front, hline⟩
      rw [hline, dropLast_concat] at hstrip
      rw [hline, hstrip]
      exact .inr rfl
    · exact .inl hstrip
  · intro h
    rcases h with rfl | rfl
    · exact ⟨not_mem_nil, rfl⟩
    · exact ⟨by decide, by decide⟩

/-- Every text is filled lines with an unfinished one after them, or starts with a head. -/
theorem head_cases (text : List Byte) :
    (exists lines part, (forall line, line ∈ lines -> Filled line) ∧ lf ∉ part ∧
      text = unlines lf lines ++ part) ∨
    (exists lines blank head rest, IsHead lines blank head ∧ text = head ++ rest) := by
  induction hn : text.length using Nat.strong_induction_on generalizing text with
  | h n ih =>
    cases hcut : cut lf text with
    | none =>
      exact .inl ⟨[], text, fun _ hmem => absurd hmem not_mem_nil,
        cut_none_iff.mp hcut, rfl⟩
    | some parts =>
      obtain ⟨line, rest⟩ := parts
      obtain ⟨htext, hlf⟩ := cut_some hcut
      by_cases hblank : stripCr line = []
      · refine .inr ⟨[], line, line ++ [lf], rest, ⟨?_, ⟨hlf, hblank⟩, rfl⟩, ?_⟩
        · intro line' hmem
          cases hmem
        · rw [htext]
          simp
      · have hall : forall {lines : List (List Byte)},
            (forall line', line' ∈ lines -> Filled line') ->
            forall line', line' ∈ line :: lines -> Filled line' := by
          intro lines hlines line' hmem
          rcases mem_cons.mp hmem with heq | hmem
          · rw [heq]
            exact ⟨hlf, hblank⟩
          · exact hlines line' hmem
        rcases ih rest.length (hn ▸ cut_length hcut) rest rfl with
          ⟨lines, part, hlines, hpart, hrest⟩ | ⟨lines, blank, head, tail, hhead, hrest⟩
        · refine .inl ⟨line :: lines, part, hall hlines, hpart, ?_⟩
          rw [htext, hrest, unlines_cons]
          simp
        · obtain ⟨hlines, hend, heq⟩ := hhead
          refine .inr ⟨line :: lines, blank, line ++ lf :: head, tail,
            ⟨hall hlines, hend, ?_⟩, ?_⟩
          · rw [heq, unlines_cons]
            simp
          · rw [htext, hrest]
            simp

theorem headEnd_unfinished {part : List Byte} (hlines : forall line, line ∈ lines -> Filled line)
    (hpart : lf ∉ part) :
    headEnd (unlines lf lines ++ part) = none := by
  rw [headEnd_filled hlines, headEnd_none_of_cut hpart]
  rfl

theorem headEnd_some {text : List Byte} {n : Nat} (h : headEnd text = some n) :
    exists lines blank, IsHead lines blank (text.take n) ∧ n ≤ text.length := by
  rcases head_cases text with ⟨lines, part, hlines, hpart, htext⟩ |
    ⟨lines, blank, head, rest, hhead, htext⟩
  · rw [htext, headEnd_unfinished hlines hpart] at h
    cases h
  · rw [htext, hhead.headEnd rest] at h
    cases h
    rw [htext, take_left]
    exact ⟨lines, blank, hhead, by simp⟩

theorem headEnd_append {text : List Byte} {n : Nat} (h : headEnd text = some n)
    (more : List Byte) : headEnd (text ++ more) = some n := by
  obtain ⟨lines, blank, hhead, hle⟩ := headEnd_some h
  have hend := hhead.headEnd (text.drop n ++ more)
  rw [← append_assoc, take_append_drop] at hend
  rw [hend, length_take]
  congr 1
  omega

theorem IsHead.found {blank head text more later : List Byte} {n : Nat}
    (h : IsHead lines blank head) (hend : Textproto.headEnd text = some n)
    (htext : text ++ more = head ++ later) :
    n = head.length ∧ exists rest, text = head ++ rest ∧ later = rest ++ more := by
  have hwhole := headEnd_append hend more
  rw [htext, h.headEnd later] at hwhole
  cases hwhole
  rcases headEnd_some hend with ⟨_, _, _, hle⟩
  refine ⟨rfl, text.drop head.length, ?_, ?_⟩
  · have htake := congrArg (take head.length) htext
    rw [take_left, take_append_of_le_length hle] at htake
    have hsplit := take_append_drop head.length text
    rw [htake] at hsplit
    exact hsplit.symm
  · have hdrop := congrArg (drop head.length) htext
    rw [drop_left, drop_append_of_le_length hle] at hdrop
    exact hdrop.symm

theorem IsHead.short {blank head text more later : List Byte} (h : IsHead lines blank head)
    (hend : Textproto.headEnd text = none) (htext : text ++ more = head ++ later) :
    text.length < head.length := by
  apply Nat.lt_of_not_le
  intro hle
  have htake := congrArg (take head.length) htext
  rw [take_left, take_append_of_le_length hle] at htake
  have hsplit := take_append_drop head.length text
  rw [htake] at hsplit
  have hfound := h.headEnd (text.drop head.length)
  rw [hsplit, hend] at hfound
  cases hfound

/-!
## The incremental scanner
-/

namespace HeadEndScanner

/-- The lines before the start are filled, and there is no line feed between the start and
the mark. -/
def Resumes (s : HeadEndScanner) (buf : List Byte) : Prop :=
  exists lines part, (forall line, line ∈ lines -> Filled line) ∧
    buf = unlines lf lines ++ part ∧ s.lineStart = (unlines lf lines).length ∧
    s.scanned ≤ buf.length ∧ lf ∉ part.take (s.scanned - s.lineStart)

theorem new_resumes (buf : List Byte) : new.Resumes buf :=
  ⟨[], buf, fun _ hmem => absurd hmem not_mem_nil, rfl, rfl, Nat.zero_le _,
    not_mem_nil⟩

theorem Resumes.append {s : HeadEndScanner} {buf : List Byte} (h : s.Resumes buf)
    (more : List Byte) : s.Resumes (buf ++ more) := by
  obtain ⟨lines, part, hlines, hbuf, hstart, hscanned, hfree⟩ := h
  refine ⟨lines, part ++ more, hlines, ?_, hstart, ?_, ?_⟩
  · rw [hbuf, append_assoc]
  · rw [length_append]
    omega
  · rw [hbuf, length_append] at hscanned
    rw [take_append_of_le_length (by omega)]
    exact hfree

theorem cut_drop {part : List Byte} {k : Nat} (hfree : lf ∉ part.take k) :
    cut lf part = (cut lf (part.drop k)).map fun parts => (part.take k ++ parts.1, parts.2) := by
  cases hcut : cut lf (part.drop k) with
  | none =>
    have hrest := cut_none_iff.mp hcut
    rw [Option.map_none, cut_none_iff, ← take_append_drop k part, mem_append,
      not_or]
    exact ⟨hfree, hrest⟩
  | some parts =>
    obtain ⟨htext, hlf⟩ := cut_some hcut
    have hall : lf ∉ part.take k ++ parts.1 := by
      rw [mem_append, not_or]
      exact ⟨hfree, hlf⟩
    have hpart : part = part.take k ++ parts.1 ++ lf :: parts.2 := by
      rw [append_assoc, ← htext, take_append_drop]
    conv_lhs => rw [hpart]
    exact cut_append lf hall parts.2

variable {s : HeadEndScanner} {buf : List Byte}

theorem feedFrom_eq (h : s.Resumes buf) {fuel : Nat} (hfuel : buf.length < s.lineStart + fuel) :
    (feedFrom fuel s buf).1 = headEnd buf ∧
      (headEnd buf = none -> (feedFrom fuel s buf).2.Resumes buf) := by
  induction fuel generalizing s with
  | zero =>
    obtain ⟨lines, part, _, hbuf, hstart, _⟩ := h
    rw [hbuf, length_append] at hfuel
    omega
  | succ fuel ih =>
    have hresumes := h
    obtain ⟨lines, part, hlines, hbuf, hstart, hscanned, hfree⟩ := h
    have hend : headEnd buf = (headEnd part).map fun n => s.lineStart + n := by
      rw [hbuf, headEnd_filled hlines, hstart]
    rw [feedFrom]
    by_cases hlt : s.lineStart < buf.length
    · have hdrop : buf.drop (max s.lineStart s.scanned) =
          part.drop (s.scanned - s.lineStart) := by
        have hmax : max s.lineStart s.scanned =
            (unlines lf lines).length + (s.scanned - s.lineStart) := by omega
        rw [hmax, hbuf, drop_append, drop_of_length_le (by omega),
          nil_append]
        congr 1
        omega
      rw [if_pos hlt, hdrop]
      have hcut := cut_drop hfree
      cases hrest : cut lf (part.drop (s.scanned - s.lineStart)) with
      | none =>
        rw [hrest, Option.map_none] at hcut
        have hpart := cut_none_iff.mp hcut
        have hnone : headEnd part = none := headEnd_none_of_cut hpart
        refine ⟨by rw [hend, hnone]; rfl, ?_⟩
        intro _
        refine ⟨lines, part, hlines, hbuf, hstart, Nat.le_refl _, ?_⟩
        intro hmem
        exact hpart (mem_of_mem_take hmem)
      | some parts =>
        rw [hrest, Option.map_some] at hcut
        obtain ⟨hpart, hlf⟩ := cut_some hcut
        generalize hline : part.take (s.scanned - s.lineStart) ++ parts.1 = line at *
        have hnl : max s.lineStart s.scanned + parts.1.length =
            s.lineStart + line.length := by
          rw [hbuf, length_append, ← hstart] at hscanned
          rw [← hline, length_append, length_take]
          omega
        have htake : (buf.take (s.lineStart + line.length)).drop s.lineStart = line := by
          rw [hbuf, hpart, hstart, take_append, take_of_length_le (by omega),
            Nat.add_sub_cancel_left, take_left, drop_left]
        dsimp only
        rw [hnl, htake]
        by_cases hblank : stripCr line = []
        · rw [if_pos hblank, hend, hpart, headEnd_blank ⟨hlf, hblank⟩]
          refine ⟨by rw [Option.map_some, Nat.add_assoc], ?_⟩
          intro hnone
          cases hnone
        · rw [if_neg hblank]
          apply ih
          · refine ⟨lines ++ [line], parts.2, ?_, ?_, ?_, hscanned, ?_⟩
            · intro line' hmem
              rcases mem_append.mp hmem with hmem | hmem
              · exact hlines line' hmem
              · rw [mem_singleton.mp hmem]
                exact ⟨hlf, hblank⟩
            · rw [hbuf, hpart, unlines_append, unlines_cons]
              simp
            · rw [unlines_append, unlines_cons, hstart]
              simp
              omega
            · have hzero : s.scanned - (s.lineStart + line.length + 1) = 0 := by omega
              rw [hzero]
              exact not_mem_nil
          · dsimp only
            omega
    · have hnil : part = [] := by
        rw [hbuf, length_append, ← hstart] at hlt
        exact eq_nil_of_length_eq_zero (by omega)
      rw [if_neg hlt]
      refine ⟨by rw [hend, hnil]; rfl, fun _ => hresumes⟩

theorem feed_eq (h : s.Resumes buf) :
    (s.feed buf).1 = headEnd buf :=
  (feedFrom_eq h (by omega)).1

theorem feed_resumes (h : s.Resumes buf) (hnone : headEnd buf = none) :
    (s.feed buf).2.Resumes buf :=
  (feedFrom_eq h (by omega)).2 hnone

def feedUntil (s : HeadEndScanner) : List (List Byte) -> List (Option Nat)
  | [] => []
  | buf :: bufs =>
    if (s.feed buf).1.isSome then [(s.feed buf).1] else none :: (s.feed buf).2.feedUntil bufs

theorem headEnd_of_prefix {buf buf' : List Byte} {n : Nat} (hend : headEnd buf = some n)
    (h : buf <+: buf') : headEnd buf' = some n := by
  rcases h with ⟨more, rfl⟩
  exact headEnd_append hend more

theorem feedUntil_eq {bufs : List (List Byte)} (hgrow : bufs.IsChain fun buf buf' => buf <+: buf')
    (hs : forall buf, buf ∈ bufs.head? -> s.Resumes buf) :
    s.feedUntil bufs = (bufs.filter fun buf => headEnd buf = none).map (fun _ => none) ++
      ((bufs.find? fun buf => (headEnd buf).isSome).map headEnd).toList := by
  induction bufs generalizing s with
  | nil =>
    rfl
  | cons buf bufs ih =>
    have hresumes := hs buf rfl
    rw [feedUntil, feed_eq hresumes]
    cases hend : headEnd buf with
    | some n =>
      have hlater : forall buf', buf' ∈ buf :: bufs -> headEnd buf' = some n := by
        intro buf' hmem
        have htrans : Trans (fun buf buf' : List Byte => buf <+: buf')
            (fun buf buf' => buf <+: buf') (fun buf buf' => buf <+: buf') :=
          ⟨List.IsPrefix.trans⟩
        rcases mem_cons.mp hmem with heq | hmem
        · rw [heq, hend]
        · exact headEnd_of_prefix hend
            ((pairwise_cons.mp hgrow.pairwise).1 buf' hmem)
      have hnone : (buf :: bufs).filter (fun buf => headEnd buf = none) = [] := by
        apply filter_eq_nil_iff.mpr
        intro buf' hmem
        rw [hlater buf' hmem]
        exact Bool.false_ne_true
      rw [if_pos (Option.isSome_some), hnone,
        find?_cons_of_pos (by rw [hend]; rfl), Option.map_some, hend]
      rfl
    | none =>
      have hnext : forall buf', buf' ∈ bufs.head? -> (s.feed buf).2.Resumes buf' := by
        intro buf' hmem
        cases bufs with
        | nil => cases hmem
        | cons next bufs =>
          cases hmem
          rcases (isChain_cons_cons.mp hgrow).1 with ⟨more, hmore⟩
          rw [← hmore]
          exact (feed_resumes hresumes hend).append more
      have hskip : ¬ (headEnd buf).isSome = true := by
        rw [hend]
        exact Bool.false_ne_true
      have hkeep : (buf :: bufs).filter (fun buf => headEnd buf = none) =
          buf :: bufs.filter fun buf => headEnd buf = none :=
        filter_cons_of_pos (decide_eq_true hend)
      have hfind : (buf :: bufs).find? (fun buf => (headEnd buf).isSome) =
          bufs.find? fun buf => (headEnd buf).isSome :=
        find?_cons_of_neg hskip
      rw [if_neg (by decide), ih hgrow.of_cons hnext, hkeep, hfind]
      rfl

/-- A fresh scanner answers for every growing buffer like a scan of the whole of it. -/
theorem new_feedUntil {bufs : List (List Byte)}
    (hgrow : bufs.IsChain fun buf buf' => buf <+: buf') :
    new.feedUntil bufs = (bufs.filter fun buf => headEnd buf = none).map (fun _ => none) ++
      ((bufs.find? fun buf => (headEnd buf).isSome).map headEnd).toList :=
  feedUntil_eq hgrow fun buf _ => new_resumes buf

theorem new_feedUntil_split :
    new.feedUntil [[97, 13], [97, 13, 10, 13], [97, 13, 10, 13, 10, 98]] =
      [none, none, some 5] := by
  rw [new_feedUntil]
  · decide
  · simp

end HeadEndScanner

end Textproto
end Http
end FrpRs
