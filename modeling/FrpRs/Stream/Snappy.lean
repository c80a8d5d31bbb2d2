import FrpRs.Data.Poll

/-!
# Snappy frames

`SnappyDecompressor` in `frp-core/src/encryption.rs`, with the checksum of
`frp-core/src/crc32c.rs`.  A stream is a sequence of chunks with a type, a length of three bytes
and a body; data chunks carry a checksum of their data.  The block format inside a compressed
chunk is a parameter.

A feed appends its input to the buffered bytes and works on complete chunks: at most 1024 of
them, and none after the first data chunk.
-/

namespace FrpRs
namespace Stream

open List Bytes Poll

/-!
## The checksum
-/

namespace Crc32c

def reduceBit (crc : UInt32) : UInt32 :=
  if crc &&& 1 ≠ 0 then (crc >>> 1) ^^^ 0x82F63B78 else crc >>> 1

def baseEntry (i : UInt32) : UInt32 :=
  reduceBit (reduceBit (reduceBit (reduceBit (reduceBit (reduceBit (reduceBit (reduceBit i)))))))

def sliceEntry : Nat -> UInt32 -> UInt32
  | 0, i => baseEntry i
  | j + 1, i =>
    let crc := sliceEntry j i
    baseEntry (crc &&& 0xFF) ^^^ (crc >>> 8)

def tailLoop : UInt32 -> List Byte -> UInt32
  | c, [] => c
  | c, b :: bs => tailLoop (baseEntry ((c ^^^ b.toUInt32) &&& 0xFF) ^^^ (c >>> 8)) bs

def crc32cTail (crc : UInt32) (data : List Byte) : UInt32 :=
  ~~~ tailLoop (~~~ crc) data

/-- Eight bytes at a time, while more than eight are left. -/
def sliceLoop : Nat -> UInt32 -> List Byte -> UInt32 × List Byte
  | 0, c, rest => (c, rest)
  | fuel + 1, c, rest =>
    if rest.length ≤ 8 then (c, rest)
    else
      let at' := fun i => (rest.getD i 0).toUInt32
      let c := c ^^^ UInt32.ofNat (ofLeBytes (rest.take 4))
      let c := sliceEntry 0 (at' 7) ^^^ sliceEntry 1 (at' 6) ^^^ sliceEntry 2 (at' 5) ^^^
        sliceEntry 3 (at' 4) ^^^ sliceEntry 4 (c >>> 24) ^^^ sliceEntry 5 ((c >>> 16) &&& 0xFF) ^^^
        sliceEntry 6 ((c >>> 8) &&& 0xFF) ^^^ sliceEntry 7 (c &&& 0xFF)
      sliceLoop fuel c (rest.drop 8)

def crc32c (data : List Byte) : UInt32 :=
  if 16 ≤ data.length then
    let r := sliceLoop data.length (~~~ 0) data
    if r.2 = [] then ~~~ r.1 else crc32cTail (~~~ r.1) r.2
  else crc32cTail 0 data

def crc32cMasked (data : List Byte) : UInt32 :=
  let sum := crc32c data
  ((sum >>> 15) ||| (sum <<< 17)) + 0xA282EAD8

end Crc32c

/-!
## Chunks
-/

def maxSnappyChunk : Nat := 128 * 1024
def maxSnappyPending : Nat := 16 * 1024 * 1024
def maxFramesPerCall : Nat := 1024

def streamBody : List Byte := utf8 "sNaPpY"

/-- The block format of the `snap` crate: the length a block declares, and its data. -/
structure SnapRaw where
  decompressLen : List Byte -> Except String Nat
  decompress : List Byte -> Except String (List Byte)

def chunkLen (header : List Byte) : Nat :=
  ofLeBytes ((header.drop 1).take 3)

def hexPadded (width n : Nat) : String :=
  let digits := Nat.toDigits 16 n
  String.ofList (replicate (width - digits.length) '0' ++ digits)

def mismatch (checksum : UInt32) : String :=
  "snappy: crc32c checksum mismatch (expected " ++ hexPadded 8 checksum.toNat ++
    "): corrupt input"

/-- The data of a complete chunk: none for one without data. -/
def chunkData (raw : SnapRaw) (chunkType : Byte) (body : List Byte) :
    Except String (Option (List Byte)) :=
  if chunkType = 0x00 then
    if body.length < 4 then .error "snappy: compressed chunk length too small"
    else
      match raw.decompressLen (body.drop 4) with
      | .error e => .error ("snappy decompress: " ++ e)
      | .ok n =>
        if maxSnappyChunk < n then
          .error s!"snappy: decompressed output {n} exceeds per-chunk {maxSnappyChunk} byte limit"
        else
          match raw.decompress (body.drop 4) with
          | .error e => .error ("snappy decompress: " ++ e)
          | .ok data =>
            if data.length ≠ n then .error "snappy: decompressed output length changed"
            else if Crc32c.crc32cMasked data ≠ readU32Le body then
              .error (mismatch (readU32Le body))
            else .ok (some data)
  else if chunkType = 0x01 then
    if body.length < 4 then .error "snappy: uncompressed chunk length too small"
    else if Crc32c.crc32cMasked (body.drop 4) ≠ readU32Le body then
      .error (mismatch (readU32Le body))
    else .ok (some (body.drop 4))
  else if chunkType = 0xFF then
    if body ≠ streamBody then .error s!"snappy: bad stream identifier: {body}"
    else .ok none
  else if 0x02 ≤ chunkType ∧ chunkType ≤ 0x7F then
    .error ("snappy: reserved unskippable chunk type 0x" ++ hexPadded 2 chunkType.toNat)
  else .ok none

/-!
## The decompressor
-/

structure SnappyDecompressor where
  buf : List Byte
  offset : Nat
deriving DecidableEq, Repr

namespace SnappyDecompressor

def new : SnappyDecompressor where
  buf := []
  offset := 0

def rest (d : SnappyDecompressor) : List Byte :=
  d.buf.drop d.offset

def tooLong (n : Nat) : String :=
  s!"snappy: chunk length {n} exceeds {maxSnappyChunk} byte limit"

def settle (d : SnappyDecompressor) : SnappyDecompressor :=
  if d.offset = d.buf.length then ⟨[], 0⟩ else d

/-- The loop over complete chunks.  A data chunk ends it at once; after the other ways out the
buffer is settled. -/
def drainFrames (raw : SnapRaw) :
    Nat -> SnappyDecompressor -> List Byte -> Except String (SnappyDecompressor × List Byte)
  | 0, d, out => .ok (d.settle, out)
  | budget + 1, d, out =>
    let header := d.rest
    if header.length < 4 then .ok (d.settle, out)
    else if maxSnappyChunk < chunkLen header then .error (tooLong (chunkLen header))
    else
      let total := 4 + chunkLen header
      if header.length < total then .ok (d.settle, out)
      else
        match chunkData raw (header.getD 0 0) ((header.take total).drop 4) with
        | .error e => .error e
        | .ok (some data) => .ok ({ d with offset := d.offset + total }, out ++ data)
        | .ok none => drainFrames raw budget { d with offset := d.offset + total } out

def feedIntoStep (raw : SnapRaw) (d : SnappyDecompressor) (data out : List Byte) :
    Except String (SnappyDecompressor × List Byte) :=
  let d := if 0 < d.offset ∧ data ≠ [] then ⟨d.rest, 0⟩ else d
  let take := if d.buf.length < 4 then min (4 - d.buf.length) data.length else 0
  let head := d.buf ++ data.take take
  if 4 ≤ head.length ∧ maxSnappyChunk < chunkLen head then .error (tooLong (chunkLen head))
  else if maxSnappyPending < head.length + (data.drop take).length then
    .error "snappy decompression buffer exhausted"
  else drainFrames raw maxFramesPerCall { d with buf := head ++ data.drop take } out

def hasPending (d : SnappyDecompressor) : Bool :=
  d.offset < d.buf.length

def hasCompleteFrame (d : SnappyDecompressor) : Bool :=
  4 ≤ d.rest.length && 4 + chunkLen d.rest ≤ d.rest.length

def feedIntoAppendProgress (raw : SnapRaw) (d : SnappyDecompressor) (data out : List Byte) :
    Except String (SnappyDecompressor × List Byte × Bool) :=
  match feedIntoStep raw d data out with
  | .error e => .error e
  | .ok (d, out) => .ok (d, out, d.hasCompleteFrame)

def completeAtEof : String := "snappy: complete frame remains at EOF; drain progress first"
def incompleteAtEof : String := "snappy: incomplete frame at end of stream"

def validatePartialEof (d : SnappyDecompressor) : Except String Unit × SnappyDecompressor :=
  if d.hasCompleteFrame then (.error completeAtEof, d)
  else if d.hasPending then (.error incompleteAtEof, ⟨[], 0⟩)
  else (.ok (), d)

end SnappyDecompressor

/-!
## Valid streams
-/

/-- The chunks of the format, with their data. -/
inductive ValidChunk (raw : SnapRaw) : Byte -> List Byte -> Option (List Byte) -> Prop
  | compressed {block data : List Byte} (hlen : raw.decompressLen block = .ok data.length)
      (hdata : raw.decompress block = .ok data) (hshort : data.length ≤ maxSnappyChunk) :
      ValidChunk raw 0x00 (u32Le (Crc32c.crc32cMasked data) ++ block) (some data)
  | uncompressed (data : List Byte) :
      ValidChunk raw 0x01 (u32Le (Crc32c.crc32cMasked data) ++ data) (some data)
  | identifier : ValidChunk raw 0xFF streamBody none
  /-- Padding, and the reserved chunks that may be skipped. -/
  | skippable {t : Byte} (body : List Byte) (hlow : 0x80 ≤ t) (hhigh : t ≤ 0xFE) :
      ValidChunk raw t body none

theorem ValidChunk.chunkData_eq {raw : SnapRaw} {t : Byte} {body : List Byte}
    {data : Option (List Byte)} (h : ValidChunk raw t body data) :
    chunkData raw t body = .ok data := by
  cases h with
  | compressed hlen hdata hbound =>
    rename_i block data
    have hcrc : 4 ≤ (u32Le (Crc32c.crc32cMasked data) ++ block).length := by
      rw [length_append, u32Le_length]
      omega
    have hblock : (u32Le (Crc32c.crc32cMasked data) ++ block).drop 4 = block :=
      drop_left' (u32Le_length _)
    rw [chunkData, if_pos rfl, if_neg (by omega), hblock, hlen]
    dsimp only
    rw [if_neg (by omega), hdata]
    dsimp only
    rw [if_neg (fun h => h rfl), readU32Le_append, if_neg (fun h => h rfl)]
  | uncompressed data =>
    have hcrc : 4 ≤ (u32Le (Crc32c.crc32cMasked data) ++ data).length := by
      rw [length_append, u32Le_length]
      omega
    have hdata : (u32Le (Crc32c.crc32cMasked data) ++ data).drop 4 = data :=
      drop_left' (u32Le_length _)
    rw [chunkData, if_neg (by decide), if_pos rfl, if_neg (by omega), hdata, readU32Le_append,
      if_neg (fun h => h rfl)]
  | identifier =>
    rw [chunkData, if_neg (by decide), if_neg (by decide), if_pos rfl, if_neg (fun h => h rfl)]
  | skippable body hlow hhigh =>
    have hne : forall b : Byte, b < 0x80 -> t ≠ b := by
      intro b hb heq
      rw [heq] at hlow
      exact absurd (UInt8.lt_of_lt_of_le hb hlow) (UInt8.lt_irrefl b)
    have hff : t ≠ 0xFF := by
      intro heq
      rw [heq] at hhigh
      exact absurd hhigh (by decide)
    have hreserved : ¬ (0x02 ≤ t ∧ t ≤ 0x7F) := by
      rintro ⟨_, h⟩
      exact absurd (UInt8.le_trans hlow h) (by decide)
    rw [chunkData, if_neg (hne 0x00 (by decide)), if_neg (hne 0x01 (by decide)), if_neg hff,
      if_neg hreserved]

structure Chunk (raw : SnapRaw) where
  chunkType : Byte
  body : List Byte
  data : Option (List Byte)
  valid : ValidChunk raw chunkType body data
  short : body.length ≤ maxSnappyChunk

variable {raw : SnapRaw}

namespace Chunk

def encode (c : Chunk raw) : List Byte :=
  c.chunkType :: leBytes 3 c.body.length ++ c.body

def payload (c : Chunk raw) : List Byte :=
  c.data.getD []

theorem length_encode (c : Chunk raw) : c.encode.length = 4 + c.body.length := by
  rw [encode, cons_append, length_cons, length_append, leBytes_length]
  omega

theorem chunkLen_encode (c : Chunk raw) (rest : List Byte) :
    chunkLen (c.encode ++ rest) = c.body.length := by
  have hshort := c.short
  rw [chunkLen, encode, cons_append, cons_append, drop_succ_cons, drop_zero,
    append_assoc, take_left' (leBytes_length 3 _), ofLeBytes_leBytes]
  apply Nat.mod_eq_of_lt
  have hmax : maxSnappyChunk < 256 ^ 3 := by decide
  omega

theorem chunkData_eq (c : Chunk raw) : chunkData raw c.chunkType c.body = .ok c.data :=
  c.valid.chunkData_eq

end Chunk

def encodeAll (cs : List (Chunk raw)) : List Byte :=
  cs.flatMap Chunk.encode

def payloads (cs : List (Chunk raw)) : List Byte :=
  cs.flatMap Chunk.payload

def Partial (raw : SnapRaw) (part : List Byte) : Prop :=
  exists (c : Chunk raw) (more : List Byte), more ≠ [] ∧ part ++ more = c.encode

theorem partial_nil (c : Chunk raw) : Partial raw [] := by
  refine ⟨c, c.encode, ?_, rfl⟩
  intro hnil
  have hlength := c.length_encode
  rw [hnil, length_nil] at hlength
  omega

theorem Partial.chunkLen {part : List Byte} (h : Partial raw part) (hlong : 4 ≤ part.length) :
    chunkLen part ≤ maxSnappyChunk ∧ part.length < 4 + chunkLen part := by
  obtain ⟨c, more, hmore, heq⟩ := h
  have hlen : Stream.chunkLen part = c.body.length := by
    have hwhole := c.chunkLen_encode []
    rw [append_nil, ← heq, Stream.chunkLen, drop_append_of_le_length (by omega),
      take_append_of_le_length (by rw [length_drop]; omega)] at hwhole
    exact hwhole
  have hlength := congrArg length heq
  have hpos := length_pos_iff.mpr hmore
  rw [length_append, c.length_encode] at hlength
  have hshort := c.short
  omega

end Stream
end FrpRs
