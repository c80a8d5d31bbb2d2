import FrpRs.Http.ChunkedSkipping

/-!
# Chunked bodies

A chunked body is a sequence of chunks, each after a line with its size, a line with size zero and
a block of trailers that ends with a blank line.  `ChunkedSkip` skips every such body, however it
is cut, and keeps what follows it.
-/

namespace FrpRs
namespace Http
namespace Injector
namespace ChunkedSkip

open List Bytes Lines Textproto Feeding

/-!
## Bodies
-/

/-- A hexadecimal digit, in upper or lower case. -/
structure HexDigit where
  value : Fin 16
  upper : Bool

def HexDigit.byte (d : HexDigit) : Byte :=
  if d.value.val < 10 then UInt8.ofNat (48 + d.value.val)
  else if d.upper then UInt8.ofNat (55 + d.value.val)
  else UInt8.ofNat (87 + d.value.val)

/-- The parts of a size line: the digits, an extension after a semicolon, and blanks. -/
structure SizeText where
  digits : List HexDigit
  extension : Option (List Byte)
  blanks : List Byte

namespace SizeText

def tail (t : SizeText) : List Byte :=
  match t.extension with
  | none => t.blanks
  | some text => 59 :: (text ++ t.blanks)

def content (t : SizeText) : List Byte :=
  t.digits.map HexDigit.byte ++ t.tail

def size (t : SizeText) : Nat :=
  t.digits.foldl (fun n d => n * 16 + d.value.val) 0

end SizeText

structure SizeLine extends SizeText where
  some_digit : digits ≠ []
  few_digits : digits.length ≤ 16
  one_line : forall text, extension = some text -> cr ∉ text ∧ lf ∉ text
  all_blank : forall b, b ∈ blanks -> b = space ∨ b = htab
  short : toSizeText.content.length < 4096

structure Chunk where
  line : SizeLine
  data : List Byte
  nonempty : data ≠ []
  sized : line.size = data.length

def Chunk.bytes (c : Chunk) : List Byte :=
  c.line.content ++ crlf ++ c.data ++ crlf

/-- Lines that are not blank, and a blank one. -/
structure TrailerBlock where
  fields : List (List Byte)
  last : List Byte
  filled : forall line, line ∈ fields -> lf ∉ line ∧ stripCr line ≠ []
  blank : last = [] ∨ last = [cr]
  short : (unlines lf fields ++ last ++ [lf]).length ≤ 4096

def TrailerBlock.bytes (t : TrailerBlock) : List Byte :=
  unlines lf t.fields ++ t.last ++ [lf]

structure ChunkedBody where
  chunks : List Chunk
  zero : SizeLine
  zero_size : zero.size = 0
  trailers : TrailerBlock

def ChunkedBody.bytes (body : ChunkedBody) : List Byte :=
  body.chunks.flatMap Chunk.bytes ++ body.zero.content ++ crlf ++ body.trailers.bytes

/-!
## Size lines
-/

theorem HexDigit.hexDigit_byte (d : HexDigit) : hexDigit d.byte = some d.value.val := by
  rcases d with ⟨value, upper⟩
  revert value upper
  decide

theorem HexDigit.byte_plain (d : HexDigit) :
    isOws d.byte = false ∧ d.byte ≠ 59 ∧ d.byte ≠ cr ∧ d.byte ≠ lf := by
  rcases d with ⟨value, upper⟩
  revert value upper
  decide

theorem parseHexFrom_digits (digits : List HexDigit) {i : Nat} (h : i + digits.length ≤ 16)
    (n : Nat) :
    parseHexFrom i n (digits.map HexDigit.byte) =
      .ok (digits.foldl (fun n d => n * 16 + d.value.val) n) := by
  induction digits generalizing i n with
  | nil => rfl
  | cons d digits ih =>
    rw [length_cons] at h
    have hi : i ≠ 16 := by omega
    rw [map_cons, parseHexFrom, d.hexDigit_byte]
    dsimp only
    rw [if_neg hi, ih (by omega), foldl_cons]

theorem rdropWhile_append {p : Byte -> Bool} {a : List Byte} (b : List Byte)
    (ha : a.rdropWhile p = a) : (a ++ b).rdropWhile p = a ++ b.rdropWhile p := by
  rw [rdropWhile, reverse_append, dropWhile_append]
  split
  · rename_i hempty
    rw [List.isEmpty_iff] at hempty
    rw [<- rdropWhile, ha, rdropWhile, hempty, reverse_nil, append_nil]
  · rw [reverse_append, reverse_reverse, rdropWhile]

theorem rdropWhile_blanks {p : Byte -> Bool} {b : List Byte} (hb : forall x, x ∈ b -> p x = true) :
    b.rdropWhile p = [] := by
  rw [rdropWhile_eq_nil_iff]
  exact hb

theorem SizeText.rdropWhile_tail (t : SizeText)
    (hblank : forall b, b ∈ t.blanks -> b = space ∨ b = htab) :
    (t.tail.rdropWhile isOws).takeWhile (fun b => b ≠ 59) = [] := by
  rw [tail]
  cases t.extension with
  | none =>
    rw [rdropWhile_blanks]
    · rfl
    · intro b hb
      rcases hblank b hb with heq | heq
      · rw [heq]
        rfl
      · rw [heq]
        rfl
  | some text =>
    dsimp only
    rw [show 59 :: (text ++ t.blanks) = [59] ++ (text ++ t.blanks) from rfl,
      rdropWhile_append (text ++ t.blanks) (show [59].rdropWhile isOws = [59] by decide)]
    rfl

namespace SizeLine

variable (l : SizeLine)

theorem token :
    (l.content.rdropWhile isOws).takeWhile (fun b => b ≠ 59) = l.digits.map HexDigit.byte := by
  have hdigits : (l.digits.map HexDigit.byte).rdropWhile isOws = l.digits.map HexDigit.byte := by
    rw [rdropWhile_eq_self_iff]
    intro hne
    rcases mem_map.mp (getLast_mem hne) with ⟨d, _, hd⟩
    rw [<- hd, d.byte_plain.1]
    decide
  rw [SizeText.content, rdropWhile_append _ hdigits, takeWhile_append_of_pos,
    l.rdropWhile_tail l.all_blank, append_nil]
  intro b hb
  rcases mem_map.mp hb with ⟨d, _, hd⟩
  rw [<- hd, decide_eq_true_eq]
  exact d.byte_plain.2.1

theorem content_free : cr ∉ l.content ∧ lf ∉ l.content := by
  have hblanks : cr ∉ l.blanks ∧ lf ∉ l.blanks := by
    constructor
    · intro hb
      rcases l.all_blank cr hb with h | h
      · cases h
      · cases h
    · intro hb
      rcases l.all_blank lf hb with h | h
      · cases h
      · cases h
  have htail : cr ∉ l.tail ∧ lf ∉ l.tail := by
    rw [SizeText.tail]
    cases hext : l.extension with
    | none => exact hblanks
    | some text =>
      have hline := l.one_line text hext
      rw [mem_cons, mem_cons, mem_append, mem_append, not_or, not_or, not_or,
        not_or]
      exact ⟨⟨by decide, hline.1, hblanks.1⟩, ⟨by decide, hline.2, hblanks.2⟩⟩
  rw [SizeText.content, mem_append, mem_append, not_or, not_or]
  refine ⟨⟨fun hmem => ?_, htail.1⟩, ⟨fun hmem => ?_, htail.2⟩⟩
  · rcases mem_map.mp hmem with ⟨d, _, hd⟩
    exact d.byte_plain.2.2.1 hd
  · rcases mem_map.mp hmem with ⟨d, _, hd⟩
    exact d.byte_plain.2.2.2 hd

theorem parse : parseSizeLine (l.content ++ [cr]) = .ok l.size := by
  have hne : l.digits.map HexDigit.byte ≠ [] := fun h => l.some_digit (map_eq_nil_iff.mp h)
  have hdigits : 0 + l.digits.length ≤ 16 := by
    rw [Nat.zero_add]
    exact l.few_digits
  rw [parseSizeLine, getLast?_concat, if_neg (fun h => h rfl), dropLast_concat,
    if_neg l.content_free.1, if_neg (Nat.not_le.mpr l.short), l.token, parseHex, if_neg hne,
    parseHexFrom_digits l.digits hdigits 0]
  rfl

theorem cut_line (rest : List Byte) :
    cut lf (l.content ++ crlf ++ rest) = some (l.content ++ [cr], rest) := by
  have htext : l.content ++ crlf ++ rest = (l.content ++ [cr]) ++ lf :: rest := by
    rw [crlf, append_assoc, append_assoc]
    rfl
  rw [htext]
  refine cut_append lf ?_ rest
  rw [mem_append, not_or]
  exact ⟨l.content_free.2, by decide⟩

end SizeLine

/-!
## Skipping
-/

section Skipping

variable (left : Nat) (rest : List Byte)

theorem sound_of_size (pending : List Byte) : Sound ⟨.size, pending, left, 0⟩ where
  left_pos := by
    intro h
    cases h
  unscanned := fun _ => rfl
  scanned := Nat.zero_le _

theorem turn_sizeLine (l : SizeLine) :
    turn ⟨.size, l.content ++ crlf ++ rest, left, 0⟩ =
      .again (if l.size = 0 then ⟨.trailers, rest, left, 0⟩ else ⟨.data, rest, l.size, 0⟩) := by
  rw [turn]
  rw [sizeTurn]
  rw [l.cut_line]
  dsimp only
  rw [l.parse]
  cases l.size with
  | zero => rfl
  | succ n => rfl

theorem finish_chunk (c : Chunk) :
    finish ⟨.size, c.bytes ++ rest, left, 0⟩ = finish ⟨.size, rest, 0, 0⟩ := by
  have hpos : c.data.length ≠ 0 := fun h => c.nonempty (eq_nil_of_length_eq_zero h)
  have hbytes : c.bytes ++ rest = c.line.content ++ crlf ++ (c.data ++ (crlf ++ rest)) := by
    rw [Chunk.bytes, append_assoc, append_assoc]
  have hsize := turn_sizeLine left (c.data ++ (crlf ++ rest)) c.line
  rw [c.sized, if_neg hpos, <- hbytes] at hsize
  have hdata : turn ⟨.data, c.data ++ (crlf ++ rest), c.data.length, 0⟩ =
      .again ⟨.dataEnd, crlf ++ rest, 0, 0⟩ := by
    have hlong := @turn_data_long ⟨.data, c.data ++ (crlf ++ rest), c.data.length, 0⟩ rfl
      (append_ne_nil_of_left_ne_nil c.nonempty _)
      (by rw [length_append]; exact Nat.le_add_right _ _)
    rw [drop_left] at hlong
    exact hlong
  have hend : turn ⟨.dataEnd, crlf ++ rest, 0, 0⟩ = .again ⟨.size, rest, 0, 0⟩ := rfl
  have hsound := sound_of_size left (c.bytes ++ rest)
  have hsound' := (turn_again hsound hsize).1
  rw [finish_again hsound hsize, finish_again hsound' hdata,
    finish_again (turn_again hsound' hdata).1 hend]

theorem finish_chunks (chunks : List Chunk) :
    exists left', finish ⟨.size, chunks.flatMap Chunk.bytes ++ rest, left, 0⟩ =
      finish ⟨.size, rest, left', 0⟩ := by
  induction chunks generalizing left with
  | nil => exact ⟨left, rfl⟩
  | cons c chunks ih =>
    rcases ih 0 with ⟨left', hrest⟩
    refine ⟨left', ?_⟩
    rw [flatMap_cons, append_assoc, finish_chunk, hrest]

theorem scan_fields {fields : List (List Byte)} {last : List Byte}
    (hfilled : forall line, line ∈ fields -> lf ∉ line ∧ stripCr line ≠ [])
    (hblank : last = [] ∨ last = [cr]) (before : List Byte)
    (hshort : (before ++ (unlines lf fields ++ last ++ [lf])).length ≤ 4096) :
    scan (before ++ (unlines lf fields ++ last ++ [lf] ++ rest)) before.length =
      .ok (true, (before ++ (unlines lf fields ++ last ++ [lf])).length) := by
  induction fields generalizing before with
  | nil =>
    have hbefore : before.length ≤ 4096 := by
      rw [length_append] at hshort
      omega
    have hlast : lf ∉ last ∧ stripCr last = [] := by
      rcases hblank with h | h
      · rw [h]
        decide
      · rw [h]
        decide
    have hcut : cut lf ((before ++ (unlines lf [] ++ last ++ [lf] ++ rest)).drop before.length) =
        some (last, rest) := by
      rw [drop_left, unlines_nil, nil_append, append_assoc]
      exact cut_append lf hlast.1 rest
    rw [scan_blank hbefore hcut hlast.2, unlines_nil, nil_append, length_append,
      length_append]
    rfl
  | cons line fields ih =>
    have hline := hfilled line mem_cons_self
    have hbefore : before.length ≤ 4096 := by
      rw [length_append] at hshort
      omega
    have htext : unlines lf (line :: fields) ++ last ++ [lf] =
        (line ++ [lf]) ++ (unlines lf fields ++ last ++ [lf]) := by
      rw [unlines_cons]
      simp only [append_assoc, cons_append, nil_append]
    have hcut : cut lf
        ((before ++ (unlines lf (line :: fields) ++ last ++ [lf] ++ rest)).drop before.length) =
          some (line, unlines lf fields ++ last ++ [lf] ++ rest) := by
      rw [drop_left, htext, append_assoc, append_assoc]
      exact cut_append lf hline.1 _
    have hnext : before.length + line.length + 1 = (before ++ (line ++ [lf])).length := by
      rw [length_append, length_append, Nat.add_assoc]
      rfl
    rw [scan_next hbefore hcut hline.2, hnext, htext]
    rw [htext, <- append_assoc before] at hshort
    have hrest := ih (fun line' hmem => hfilled line' (mem_cons_of_mem line hmem)) _ hshort
    simp only [append_assoc] at hrest ⊢
    exact hrest

theorem finish_trailers (t : TrailerBlock) :
    finish ⟨.trailers, t.bytes ++ rest, left, 0⟩ = (.ok true, ⟨.trailers, rest, left, 0⟩) := by
  have hscan := scan_fields rest t.filled t.blank [] t.short
  refine finish_stop ?_
  rw [turn]
  rw [trailersTurn]
  rw [<- scan, show scan (t.bytes ++ rest) 0 = .ok (true, t.bytes.length) from hscan]
  dsimp only
  rw [drop_left]

theorem feed_body (body : ChunkedBody) :
    exists left', feed new (body.bytes ++ rest) = (.ok true, ⟨.trailers, rest, left', 0⟩) := by
  have hbytes : body.bytes ++ rest = body.chunks.flatMap Chunk.bytes ++
      (body.zero.content ++ crlf ++ (body.trailers.bytes ++ rest)) := by
    rw [ChunkedBody.bytes]
    simp only [append_assoc]
  rcases finish_chunks 0 (body.zero.content ++ crlf ++ (body.trailers.bytes ++ rest)) body.chunks
    with ⟨left', hchunks⟩
  have hzero := turn_sizeLine left' (body.trailers.bytes ++ rest) body.zero
  rw [body.zero_size, if_pos rfl] at hzero
  refine ⟨left', ?_⟩
  rw [feed_eq_finish]
  have hstart : new.extend (body.bytes ++ rest) = ⟨.size, body.bytes ++ rest, 0, 0⟩ := rfl
  rw [hstart, hbytes, hchunks, finish_again (sound_of_size left' _) hzero, finish_trailers]

end Skipping

/-- However a body and the bytes after it are cut, the body is skipped without an error and the
bytes after it that were fed are kept.  What any input leads to does not depend on the cut. -/
theorem feedAll_pieces :
    (forall (body : ChunkedBody) (r : List Byte) (pieces : List (List Byte)),
      pieces.flatten = body.bytes ++ r ->
        exists fed later s, pieces = fed ++ later ∧ feedAll feed new pieces = (.ok true, s, later) ∧
          fed.flatten = body.bytes ++ s.pending ∧ s.pending ++ later.flatten = r) ∧
    (forall pieces pieces' : List (List Byte), pieces.flatten = pieces'.flatten ->
      outcome pending (feedAll feed new pieces) = outcome pending (feedAll feed new pieces')) := by
  constructor
  · intro body r pieces hpieces
    rcases feed_body r body with ⟨left', hfeed⟩
    refine joining.feedAll_done new_waiting hpieces ?_
    rw [hpieces, hfeed, answer, outcome, flatten_nil, append_nil]
  · intro pieces pieces' heq
    exact joining.outcome_eq new_waiting heq

/-- A chunk of ten bytes, its size in upper case with an extension, and one trailer. -/
def sampleBody : ChunkedBody where
  chunks := [{
    line := {
      digits := [⟨10, true⟩]
      extension := some [120]
      blanks := [space]
      some_digit := by decide
      few_digits := by decide
      one_line := by
        intro text h
        cases h
        decide
      all_blank := by simp
      short := by decide }
    data := [1, 2, 3, 4, 5, 6, 7, 8, 9, 10]
    nonempty := by decide
    sized := by decide }]
  zero := {
    digits := [⟨0, false⟩]
    extension := none
    blanks := []
    some_digit := by decide
    few_digits := by decide
    one_line := by
      intro text h
      cases h
    all_blank := by simp
    short := by decide }
  zero_size := by decide
  trailers := {
    fields := [[97, colon, 98, cr]]
    last := [cr]
    filled := by decide
    blank := by decide
    short := by decide }

theorem feedAll_pieces_sample :
    exists fed later s,
      [[65, 59, 120, 32, 13], [10, 1, 2, 3, 4, 5, 6, 7, 8, 9, 10, 13], [10, 48, 13, 10, 97, 58],
        [98, 13, 10, 13, 10, 72], [84]] = fed ++ later ∧
      feedAll feed new [[65, 59, 120, 32, 13], [10, 1, 2, 3, 4, 5, 6, 7, 8, 9, 10, 13],
        [10, 48, 13, 10, 97, 58], [98, 13, 10, 13, 10, 72], [84]] = (.ok true, s, later) ∧
      fed.flatten = sampleBody.bytes ++ s.pending ∧ s.pending ++ later.flatten = [72, 84] :=
  feedAll_pieces.1 sampleBody [72, 84] _ (by decide)

end ChunkedSkip
end Injector
end Http
end FrpRs
