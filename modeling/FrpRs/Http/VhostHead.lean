import FrpRs.Data.Blocks
import FrpRs.Http.Textproto

/-!
# Request heads of virtual hosts

`validate_vhost_head_lines` of `frp-server/src/vhost/head.rs`.

A head is a request line, header lines and a blank line.  A line that starts with a blank
continues the header before it, so that a header is a block of lines.
-/

namespace FrpRs
namespace Http
namespace Vhost

open List Bytes Lines Blocks Textproto

def isVhostTchar (b : Byte) : Bool :=
  isTokenByte b

def isBadVhostValueByte (b : Byte) : Bool :=
  (b < space && b ≠ htab) || b = 127

def isValidVhostHostByte (b : Byte) : Bool :=
  isAsciiDigit b || isAsciiUpper b || isAsciiLower b ||
    b ∈ ([33, 36, 37, 38, 40, 41, 42, 43, 44, 45, 46, 58, 59, 61, 91, 39, 93, 95, 126] : List Byte)

inductive HeadLineVerdict where
  | ok
  | malformed
  | detailed (text : String)
deriving DecidableEq, Repr

def continues (line : List Byte) : Bool :=
  line.head?.any isOws

/-- The lines of a text, as `str::lines` gives them. -/
def linesOf (text : List Byte) : List (List Byte) :=
  (splitInclusive lf text).map lineContent

/-- What the validation has seen so far. -/
structure HeadScan where
  malformed : Bool
  spaceName : Bool
  hostValue : Option (List Byte)
deriving DecidableEq, Repr

namespace HeadScan

def start : HeadScan where
  malformed := false
  spaceName := false
  hostValue := none

def badName (name : List Byte) : Bool :=
  name.isEmpty || name.any fun b => !isVhostTchar b && b ≠ space

def hasCtl (value : List Byte) (folds : List (List Byte)) : Bool :=
  (value.rdropWhile isOws).any isBadVhostValueByte ||
    folds.any fun fold => (trimOws fold).any isBadVhostValueByte

def merged (value : List Byte) (folds : List (List Byte)) : List Byte :=
  trimOws value ++ folds.flatMap fun fold => space :: trimOws fold

def group (s : HeadScan) (name value : List Byte) (folds : List (List Byte)) : HeadScan where
  malformed := s.malformed || badName name || hasCtl value folds
  spaceName := s.spaceName || (!badName name && name.contains space)
  hostValue :=
    s.hostValue.or
      (if eqIgnoreAsciiCase name (utf8 "host") then some (merged value folds) else none)

def scan : Nat -> List (List Byte) -> HeadScan -> HeadScan
  | 0, _, s => s
  | _ + 1, [], s => s
  | fuel + 1, first :: rest, s =>
    if first = [] then s
    else if continues first then scan fuel rest { s with malformed := true }
    else match cut colon first with
      | none => scan fuel rest { s with malformed := true }
      | some (name, value) =>
        scan fuel (rest.dropWhile continues)
          (s.group name value (rest.takeWhile continues))

def verdict (s : HeadScan) : HeadLineVerdict :=
  if s.malformed then .malformed
  else if s.hostValue.any fun host => !host.all isValidVhostHostByte then
    .detailed "400 Bad Request: malformed Host header"
  else if s.spaceName then .detailed "400 Bad Request: invalid header name"
  else .ok

end HeadScan

def validateVhostHeadLines (request : List Byte) : HeadLineVerdict :=
  let lines := (linesOf request).drop 1
  (HeadScan.scan lines.length lines HeadScan.start).verdict

/-!
## Heads
-/

def text (lines : List (List Byte)) : List Byte :=
  lines.flatMap fun line => line ++ crlf

/-- A request line and header lines. -/
structure Head where
  requestLine : List Byte
  lines : List (List Byte)
  requestLine_filled : requestLine ≠ [] ∧ lf ∉ requestLine
  lines_filled : forall line, line ∈ lines -> line ≠ [] ∧ lf ∉ line

namespace Head

def bytes (d : Head) : List Byte :=
  text (d.requestLine :: d.lines) ++ crlf

def headers (d : Head) : List (Block (List Byte)) :=
  (blocks continues d.lines).2

end Head

theorem text_append (lines lines' : List (List Byte)) :
    text (lines ++ lines') = text lines ++ text lines' :=
  flatMap_append

variable (line : List Byte)

theorem text_cons (lines : List (List Byte)) :
    text (line :: lines) = line ++ crlf ++ text lines :=
  rfl

theorem text_eq_unlines (lines : List (List Byte)) :
    text lines = unlines lf (lines.map fun line => line ++ [cr]) := by
  rw [unlines, flatMap_map, text]
  apply flatMap_congr
  intro line _
  simp [crlf]

theorem lf_notMem_cr {line : List Byte} (hline : lf ∉ line) : lf ∉ line ++ [cr] := by
  rw [mem_append, not_or]
  exact ⟨hline, by decide⟩

variable {lines : List (List Byte)}

theorem splitInclusive_text (hlines : forall line, line ∈ lines -> lf ∉ line) (rest : List Byte) :
    splitInclusive lf (text lines ++ rest) =
      (lines.map fun line => line ++ crlf) ++ splitInclusive lf rest := by
  have hcr : forall line, line ∈ lines.map (fun line => line ++ [cr]) -> lf ∉ line := by
    intro line hmem
    obtain ⟨content, hcontent, heq⟩ := mem_map.mp hmem
    exact heq ▸ lf_notMem_cr (hlines content hcontent)
  rw [text_eq_unlines, splitInclusive_unlines hcr, map_map]
  congr 1
  apply map_congr_left
  intro line _
  simp [crlf]

theorem stripCr_append_cr : stripCr (line ++ [cr]) = line := by
  rw [stripCr, getLast?_concat, if_pos rfl, dropLast_concat]

@[simp] theorem lineContent_crlf : lineContent (line ++ crlf) = line := by
  have hsplit : line ++ crlf = line ++ [cr] ++ [lf] := by simp [crlf]
  rw [lineContent, hsplit, getLast?_concat, if_pos rfl, dropLast_concat,
    stripCr_append_cr]

theorem isHead_text (hlines : forall line, line ∈ lines -> line ≠ [] ∧ lf ∉ line) :
    IsHead (lines.map fun line => line ++ [cr]) [cr] (text lines ++ crlf) := by
  refine ⟨?_, ⟨by decide, by decide⟩, ?_⟩
  · intro line hmem
    obtain ⟨content, hcontent, heq⟩ := mem_map.mp hmem
    obtain ⟨hne, hlf⟩ := hlines content hcontent
    rw [← heq]
    refine ⟨lf_notMem_cr hlf, ?_⟩
    rw [stripCr_append_cr]
    exact hne
  · rw [text_eq_unlines]
    simp [crlf]

theorem headEnd_text (hlines : forall line, line ∈ lines -> line ≠ [] ∧ lf ∉ line)
    (tail : List Byte) :
    headEnd (text lines ++ crlf ++ tail) = some (text lines ++ crlf).length :=
  (isHead_text hlines).headEnd tail

theorem splitInclusive_head (hlines : forall line, line ∈ lines -> line ≠ [] ∧ lf ∉ line) :
    splitInclusive lf (text lines ++ crlf) =
      (lines.map fun line => line ++ crlf) ++ [crlf] :=
  splitInclusive_text (fun line hmem => (hlines line hmem).2) crlf

theorem linesOf_text (hlines : forall line, line ∈ lines -> line ≠ [] ∧ lf ∉ line) :
    linesOf (text lines ++ crlf) = lines ++ [[]] := by
  rw [linesOf, splitInclusive_head hlines, map_append, map_map]
  congr 1
  conv_rhs => rw [← map_id lines]
  apply map_congr_left
  intro line _
  exact lineContent_crlf line

namespace Head

theorem all_filled (d : Head) :
    forall line, line ∈ d.requestLine :: d.lines -> line ≠ [] ∧ lf ∉ line := by
  intro line hmem
  rcases mem_cons.mp hmem with heq | hmem
  · exact heq ▸ d.requestLine_filled
  · exact d.lines_filled line hmem

theorem linesOf_bytes (d : Head) : linesOf d.bytes = d.requestLine :: d.lines ++ [[]] :=
  linesOf_text d.all_filled

end Head

/-!
## Accepted heads
-/

namespace HeadScan

variable {s : HeadScan}

theorem scan_malformed {fuel : Nat} (h : s.malformed = true) :
    (scan fuel lines s).malformed = true := by
  induction fuel generalizing lines s with
  | zero =>
    exact h
  | succ fuel ih =>
    cases lines with
    | nil => exact h
    | cons first rest =>
      rw [scan]
      split
      · exact h
      · split
        · exact ih rfl
        · split
          · exact ih rfl
          · apply ih
            simp [group, h]

def header (s : HeadScan) (b : Block (List Byte)) : HeadScan :=
  match cut colon b.first with
  | none => { s with malformed := true }
  | some (name, value) => s.group name value b.rest

theorem takeWhile_continues {folds : List (List Byte)}
    (hfolds : forall line, line ∈ folds -> continues line = true) {rest : List (List Byte)}
    (hrest : (rest.head?.any continues) = false) :
    (folds ++ rest).takeWhile continues = folds ∧
      (folds ++ rest).dropWhile continues = rest := by
  have hstop : rest.takeWhile continues = [] ∧ rest.dropWhile continues = rest := by
    cases rest with
    | nil => exact ⟨rfl, rfl⟩
    | cons line rest =>
      have hline : ¬ continues line = true := by simpa using hrest
      exact ⟨takeWhile_cons_of_neg hline, dropWhile_cons_of_neg hline⟩
  rw [takeWhile_append_of_pos hfolds, dropWhile_append_of_pos hfolds, hstop.1, hstop.2,
    append_nil]
  exact ⟨rfl, rfl⟩

variable {bs : List (Block (List Byte))}

theorem head?_flatMap_items (hbs : forall b, b ∈ bs -> b.WellFormed continues) :
    ((bs.flatMap Block.items ++ [[]]).head?.any continues) = false := by
  cases bs with
  | nil => rfl
  | cons b bs =>
    exact (hbs b mem_cons_self).1

/-- A head without defects is validated header by header. -/
theorem scan_headers (hbs : forall b, b ∈ bs -> b.WellFormed continues ∧ b.first ≠ []) {fuel : Nat}
    (hfuel : (bs.flatMap Block.items).length < fuel)
    (hok : (scan fuel (bs.flatMap Block.items ++ [[]]) s).malformed = false) :
    scan fuel (bs.flatMap Block.items ++ [[]]) s = bs.foldl header s := by
  induction bs generalizing fuel s with
  | nil =>
    cases fuel with
    | zero => rfl
    | succ fuel => rfl
  | cons b bs ih =>
    obtain ⟨⟨hfirst, hrest⟩, hne⟩ := hbs b mem_cons_self
    have htail : forall b', b' ∈ bs -> b'.WellFormed continues ∧ b'.first ≠ [] :=
      fun b' hb' => hbs b' (mem_cons_of_mem b hb')
    have hlines : (b :: bs).flatMap Block.items ++ [[]] =
        b.first :: (b.rest ++ (bs.flatMap Block.items ++ [[]])) := by
      rw [flatMap_cons, Block.items, append_assoc, cons_append]
    obtain ⟨htake, hdrop⟩ := takeWhile_continues hrest
      (head?_flatMap_items fun b' hb' => (htail b' hb').1)
    rw [flatMap_cons, Block.items, length_append, length_cons] at hfuel
    cases fuel with
    | zero => omega
    | succ fuel =>
      rw [hlines, scan, if_neg hne, hfirst, if_neg Bool.false_ne_true] at hok ⊢
      rw [foldl_cons, header]
      cases hcut : cut colon b.first with
      | none =>
        rw [hcut] at hok
        rw [scan_malformed rfl] at hok
        cases hok
      | some parts =>
        rw [hcut] at hok
        rw [htake, hdrop] at hok ⊢
        exact ih htail (by omega) hok

theorem foldl_header_malformed (hok : (bs.foldl header s).malformed = false) :
    s.malformed = false ∧ forall b, b ∈ bs -> exists name value,
      cut colon b.first = some (name, value) ∧ badName name = false ∧
        hasCtl value b.rest = false := by
  induction bs generalizing s with
  | nil =>
    exact ⟨hok, fun b hb => absurd hb not_mem_nil⟩
  | cons b bs ih =>
    obtain ⟨hhead, htail⟩ := ih hok
    rw [header] at hhead
    cases hcut : cut colon b.first with
    | none =>
      rw [hcut] at hhead
      cases hhead
    | some parts =>
      rw [hcut] at hhead
      simp only [group, Bool.or_eq_false_iff] at hhead
      refine ⟨hhead.1.1, ?_⟩
      intro b' hb'
      rcases mem_cons.mp hb' with heq | hmem
      · rw [heq]
        exact ⟨parts.1, parts.2, hcut, hhead.1.2, hhead.2⟩
      · exact htail b' hmem

theorem foldl_header_spaceName (hok : (bs.foldl header s).spaceName = false) :
    s.spaceName = false ∧ forall b, b ∈ bs -> forall name value,
      cut colon b.first = some (name, value) -> badName name = false -> space ∉ name := by
  induction bs generalizing s with
  | nil =>
    exact ⟨hok, fun b hb => absurd hb not_mem_nil⟩
  | cons b bs ih =>
    obtain ⟨hhead, htail⟩ := ih hok
    rw [header] at hhead
    cases hcut : cut colon b.first with
    | none =>
      rw [hcut] at hhead
      refine ⟨hhead, ?_⟩
      intro b' hb' name value hname
      rcases mem_cons.mp hb' with heq | hmem
      · rw [heq, hcut] at hname
        cases hname
      · exact htail b' hmem name value hname
    | some parts =>
      rw [hcut] at hhead
      simp only [group, Bool.or_eq_false_iff] at hhead
      refine ⟨hhead.1, ?_⟩
      intro b' hb' name value hname hgood
      rcases mem_cons.mp hb' with heq | hmem
      · rw [heq, hcut] at hname
        cases hname
        rw [hgood, Bool.not_false, Bool.true_and] at hhead
        exact fun hmem => absurd hhead.2 (by simp [hmem])
      · exact htail b' hmem name value hname hgood

theorem isToken_of_good {name : List Byte} (hgood : badName name = false)
    (hspace : space ∉ name) : isToken name = true := by
  rw [badName, Bool.or_eq_false_iff] at hgood
  rw [isToken, hgood.1, Bool.not_false, Bool.true_and, all_eq_true]
  intro b hb
  have hb' := any_eq_false.mp hgood.2 b hb
  have hne : b ≠ space := fun heq => hspace (heq ▸ hb)
  simpa [hne, isVhostTchar] using hb'

end HeadScan

theorem HeadScan.verdict_ok {s : HeadScan} (h : s.verdict = .ok) :
    s.malformed = false ∧ s.spaceName = false ∧
      forall host, s.hostValue = some host -> host.all isValidVhostHostByte = true := by
  rw [HeadScan.verdict] at h
  split at h
  · cases h
  · rename_i hmalformed
    split at h
    · cases h
    · rename_i hhost
      split at h
      · cases h
      · rename_i hspace
        refine ⟨Bool.eq_false_iff.mpr hmalformed, Bool.eq_false_iff.mpr hspace, ?_⟩
        intro host heq
        simpa [heq] using hhost

theorem HeadScan.scan_orphan {line : List Byte} (hline : continues line = true)
    (lines : List (List Byte)) (fuel : Nat) (s : HeadScan) :
    (HeadScan.scan (fuel + 1) (line :: lines) s).malformed = true := by
  have hne : line ≠ [] := by
    intro hnil
    rw [hnil] at hline
    cases hline
  rw [HeadScan.scan, if_neg hne, if_pos hline]
  exact HeadScan.scan_malformed rfl

theorem validateVhostHeadLines_bytes (d : Head) :
    validateVhostHeadLines d.bytes =
      (HeadScan.scan (d.lines ++ [[]]).length (d.lines ++ [[]]) .start).verdict := by
  rw [validateVhostHeadLines, d.linesOf_bytes]
  rfl

theorem Head.headers_wellFormed (d : Head) :
    forall b, b ∈ d.headers -> b.WellFormed continues :=
  (blocks_wellFormed continues d.lines).2

variable {d : Head}

theorem lines_of_ok (h : validateVhostHeadLines d.bytes = .ok) :
    d.lines = d.headers.flatMap Block.items := by
  have hitems := blocks_items continues d.lines
  cases horphan : (blocks continues d.lines).1 with
  | nil =>
    rw [horphan, nil_append] at hitems
    exact hitems.symm
  | cons line orphans =>
    have hline : continues line = true := by
      apply (blocks_wellFormed continues d.lines).1
      rw [horphan]
      exact mem_cons_self
    rw [horphan, cons_append] at hitems
    rw [validateVhostHeadLines_bytes, ← hitems, cons_append, length_cons] at h
    have hmalformed := (HeadScan.verdict_ok h).1
    rw [HeadScan.scan_orphan hline] at hmalformed
    cases hmalformed

theorem headers_verdict_of_ok (h : validateVhostHeadLines d.bytes = .ok) :
    (d.headers.foldl HeadScan.header .start).verdict = .ok := by
  have hlines := lines_of_ok h
  have hbs : forall b, b ∈ d.headers -> b.WellFormed continues ∧ b.first ≠ [] := by
    intro b hb
    refine ⟨d.headers_wellFormed b hb, (d.lines_filled b.first ?_).1⟩
    rw [hlines]
    exact mem_flatMap.mpr ⟨b, hb, mem_cons_self⟩
  have hfuel : (d.headers.flatMap Block.items).length <
      (d.headers.flatMap Block.items ++ [[]]).length := by
    rw [length_append]
    exact Nat.lt_succ_self _
  rw [validateVhostHeadLines_bytes, hlines] at h
  rw [← HeadScan.scan_headers hbs hfuel (HeadScan.verdict_ok h).1]
  exact h

/-- Every line belongs to a header, and every header has a name. -/
structure Head.Readable (d : Head) : Prop where
  lines : d.lines = d.headers.flatMap Block.items
  named : forall b, b ∈ d.headers -> exists name value, cut colon b.first = some (name, value)

theorem named_of_ok (h : validateVhostHeadLines d.bytes = .ok) {b : Block (List Byte)}
    (hb : b ∈ d.headers) :
    exists name value, cut colon b.first = some (name, value) ∧ isToken name = true := by
  obtain ⟨hmalformed, hspace, _⟩ := HeadScan.verdict_ok (headers_verdict_of_ok h)
  obtain ⟨name, value, hcut, hgood, _⟩ := (HeadScan.foldl_header_malformed hmalformed).2 b hb
  exact ⟨name, value, hcut, HeadScan.isToken_of_good hgood
    ((HeadScan.foldl_header_spaceName hspace).2 b hb name value hcut hgood)⟩

theorem readable_of_ok (h : validateVhostHeadLines d.bytes = .ok) : d.Readable where
  lines := lines_of_ok h
  named := by
    intro b hb
    obtain ⟨name, value, hcut, _⟩ := named_of_ok h hb
    exact ⟨name, value, hcut⟩

end Vhost
end Http
end FrpRs
