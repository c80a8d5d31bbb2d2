import FrpRs.Http.H2cRelay
import Mathlib.Logic.Relation

/-!
# The buffer of the body reader

`BodyReader` of `frp-server/src/vhost_h2c.rs` with its buffer and the position in it.  Consumed
bytes stay in the buffer until a refill finds all of it consumed.  A refill for a line can find a
part of the line that is still unread; then the consumed bytes stay, and the reads that arrive
inside lines add up.
-/

namespace FrpRs
namespace Http
namespace H2c

open List Bytes Lines Textproto

/-!
## The reads of the reader without a buffer
-/

/-- A read, and whether a part of a line was unread when it came. -/
structure Arrival where
  inLine : Bool
  read : Nat
deriving DecidableEq, Repr

namespace BodyReader

def arrival (r r' : BodyReader) : Arrival where
  inLine := r.avail.length ≠ 0
  read := r'.avail.length - r.avail.length

def lineReads : Nat -> BodyReader -> List Arrival -> List Arrival
  | 0, _, log => log
  | fuel + 1, r, log =>
    if 65536 < r.avail.length ∨ lf ∈ r.avail then log
    else match r.readMore.join with
      | none => log
      | some r' => lineReads fuel r' (r.arrival r' :: log)

def fillReads : Nat -> Nat -> BodyReader -> List Arrival -> List Arrival
  | 0, _, _, log => log
  | fuel + 1, n, r, log =>
    if n = 0 then log
    else if r.avail.isEmpty then
      match r.readMore.join with
      | none => log
      | some r' => fillReads fuel n r' (r.arrival r' :: log)
    else
      let take := min n r.avail.length
      fillReads fuel (n - take) ⟨r.avail.drop take, r.source⟩ log

def sliceReads (cap : Nat) : Nat -> Nat -> BodyReader -> List Arrival -> List Arrival
  | 0, _, _, log => log
  | fuel + 1, remaining, r, log =>
    if remaining = 0 then log
    else
      let n := min remaining cap
      let filled := fillReads (2 * r.bytes.length + 2) n r log
      match r.fillExact n with
      | none => filled
      | some (_, r') => sliceReads cap fuel (remaining - n) r' filled

def trailerReads : Nat -> BodyReader -> List Arrival -> List Arrival
  | 0, _, log => log
  | fuel + 1, r, log =>
    let lines := lineReads (r.source.bytes.length + 1) r log
    match r.readLine with
    | none => lines
    | some (line, r') => if isBlankLine line then lines else trailerReads fuel r' lines

/-- The reads for the size lines, the chunks and the trailers of a body, the last one first. -/
def chunkedReads : Nat -> BodyReader -> List Arrival -> List Arrival
  | 0, _, log => log
  | fuel + 1, r, log =>
    let lines := lineReads (r.source.bytes.length + 1) r log
    match r.readLine with
    | none => lines
    | some (line, r1) =>
      if (trimOws (chomp line)).isEmpty then chunkedReads fuel r1 lines
      else match chunkSize line with
        | none => lines
        | some size =>
          if size = 0 then trailerReads (r1.bytes.length + 1) r1 lines
          else
            let slices := sliceReads 65536 (size / 65536 + 1) size r1 lines
            match (r1.readSpan 65536 size).2 with
            | none => slices
            | some r2 =>
              let filled := fillReads (2 * r2.bytes.length + 2) 2 r2 slices
              match r2.fillExact 2 with
              | none => filled
              | some (terminator, r3) =>
                if terminator = crlf then chunkedReads fuel r3 filled else filled

end BodyReader

/-!
## The reader
-/

/-- What a refill found unread, what its read brought, and what the buffer held then. -/
structure Refill where
  unread : Nat
  read : Nat
  held : Nat
deriving DecidableEq, Repr

def Refill.arrival (f : Refill) : Arrival where
  inLine := f.unread ≠ 0
  read := f.read

/-- `refills` is not in the source: the refills so far, the last one first. -/
structure BodyBuffer where
  inner : Source
  buf : List Byte
  pos : Nat
  refills : List Refill

namespace BodyBuffer

def new (inner : Source) (initial : List Byte) : BodyBuffer where
  inner := inner
  buf := initial
  pos := 0
  refills := []

def available (r : BodyBuffer) : List Byte :=
  r.buf.drop r.pos

def consume (n : Nat) (r : BodyBuffer) : BodyBuffer :=
  { r with pos := r.pos + n }

def cleared (r : BodyBuffer) : BodyBuffer :=
  if 0 < r.pos ∧ r.pos = r.buf.length then { r with buf := [], pos := 0 } else r

/-- Not at the end of the stream; `none` is an error. -/
def readMore (r : BodyBuffer) : Option Bool × BodyBuffer :=
  match r.inner.read 8192 with
  | (none, inner) => (none, { r.cleared with inner := inner })
  | (some [], inner) => (some false, { r.cleared with inner := inner })
  | (some (b :: bs), inner) =>
    (some true, { r.cleared with
      inner := inner
      buf := r.cleared.buf ++ b :: bs
      refills := ⟨r.available.length, (b :: bs).length, (r.cleared.buf ++ b :: bs).length⟩ ::
        r.refills })

def reader (r : BodyBuffer) : BodyReader where
  avail := r.available
  source := r.inner

def fillExactFrom : Nat -> Nat -> BodyBuffer -> Option (List Byte) × BodyBuffer
  | 0, _, r => (none, r)
  | fuel + 1, n, r =>
    if n = 0 then (some [], r)
    else if r.available.isEmpty then
      match r.readMore with
      | (some true, r) => fillExactFrom fuel n r
      | (_, r) => (none, r)
    else
      let take := min n r.available.length
      let rest := fillExactFrom fuel (n - take) (r.consume take)
      (rest.1.map fun bs => r.available.take take ++ bs, rest.2)

def fillExact (n : Nat) (r : BodyBuffer) : Option (List Byte) × BodyBuffer :=
  fillExactFrom (2 * r.reader.bytes.length + 2) n r

def readLineFrom : Nat -> BodyBuffer -> Option (List Byte) × BodyBuffer
  | 0, r => (none, r)
  | fuel + 1, r =>
    if 65536 < r.available.length then (none, r)
    else match BodyReader.findCrlf r.available with
      | some n => (some (r.available.take (n + 2)), r.consume (n + 2))
      | none =>
        match cut lf r.available with
        | some parts => (some (parts.1 ++ [lf]), r.consume (parts.1.length + 1))
        | none =>
          match r.readMore with
          | (some true, r) => readLineFrom fuel r
          | (_, r) => (none, r)

def readLine (r : BodyBuffer) : Option (List Byte) × BodyBuffer :=
  readLineFrom (r.inner.bytes.length + 1) r

/-- The slices of a span, and whether all of it was there. -/
def readSlices (cap : Nat) : Nat -> Nat -> BodyBuffer -> List (List Byte) × Bool × BodyBuffer
  | 0, remaining, r => ([], remaining = 0, r)
  | fuel + 1, remaining, r =>
    if remaining = 0 then ([], true, r)
    else
      let n := min remaining cap
      match r.fillExact n with
      | (none, r) => ([], false, r)
      | (some slice, r) =>
        let rest := readSlices cap fuel (remaining - n) r
        (slice :: rest.1, rest.2)

def readSpan (cap size : Nat) (r : BodyBuffer) : List (List Byte) × Bool × BodyBuffer :=
  readSlices cap (size / cap + 1) size r

def readTrailers (crate : HttpCrate) : Nat -> BodyBuffer -> Option Rows × BodyBuffer
  | 0, r => (none, r)
  | fuel + 1, r =>
    match r.readLine with
    | (none, r) => (none, r)
    | (some line, r) =>
      if isBlankLine line then (some [], r)
      else
        let rest := readTrailers crate fuel r
        (rest.1.map fun rows => trailerField crate line ++ rows, rest.2)

def streamChunkedBody (crate : HttpCrate) : Nat -> BodyBuffer -> Body × BodyBuffer
  | 0, r => (.reset, r)
  | fuel + 1, r =>
    match r.readLine with
    | (none, r) => (.reset, r)
    | (some line, r) =>
      if (trimOws (chomp line)).isEmpty then streamChunkedBody crate fuel r
      else match parseHex (trimOws (sizePart (trimOws (chomp line)))) with
        | none => (.reset, r)
        | some size =>
          if size = 0 then
            let trailers := readTrailers crate (r.reader.bytes.length + 1) r
            (⟨[], trailers.1⟩, trailers.2)
          else
            match r.readSpan 65536 size with
            | (slices, false, r) => (.after slices .reset, r)
            | (slices, true, r) =>
              match r.fillExact 2 with
              | (none, r) => (.after slices .reset, r)
              | (some terminator, r) =>
                if terminator = crlf then
                  let rest := streamChunkedBody crate fuel r
                  (.after slices rest.1, rest.2)
                else (.after slices .reset, r)

def streamLength (n : Nat) (r : BodyBuffer) : Body × BodyBuffer :=
  let span := r.readSpan 32768 n
  (⟨span.1, if span.2.1 then some [] else none⟩, span.2.2)

/-!
## What the reader does
-/

/-- The reader consumes what is available, or asks for more in a state that meets `Asks`. -/
inductive Step (Asks : BodyBuffer -> Prop) (r : BodyBuffer) : BodyBuffer -> Prop
  | consume {n : Nat} (h : n ≤ r.available.length) : Step Asks r (r.consume n)
  | readMore (h : Asks r) : Step Asks r r.readMore.2

abbrev Reaches (Asks : BodyBuffer -> Prop) : BodyBuffer -> BodyBuffer -> Prop :=
  Relation.ReflTransGen (Step Asks)

theorem findCrlf_length {bs : List Byte} {n : Nat} (h : BodyReader.findCrlf bs = some n) :
    n + 2 ≤ bs.length := by
  obtain ⟨before, after, hbs, hn, _⟩ := BodyReader.findCrlf_some h
  rw [hbs, length_append, hn]
  exact Nat.add_le_add_left (Nat.le_add_left 2 after.length) n

section Reaches

variable {Asks : BodyBuffer -> Prop}

theorem fillExactFrom_reaches (hasks : forall r : BodyBuffer, r.available = [] -> Asks r)
    (fuel n : Nat) (r : BodyBuffer) : Reaches Asks r (fillExactFrom fuel n r).2 := by
  induction fuel generalizing n r with
  | zero => exact .refl
  | succ fuel ih =>
    rw [fillExactFrom]
    split
    · exact .refl
    · split
      · rename_i hempty
        have hstep : Step Asks r r.readMore.2 := .readMore (hasks r (isEmpty_iff.mp hempty))
        split
        · rename_i r' hmore
          rw [hmore] at hstep
          exact .head hstep (ih n r')
        · rename_i r' _ hmore
          rw [hmore] at hstep
          exact .single hstep
      · exact .head (.consume (Nat.min_le_right n r.available.length)) (ih _ _)

theorem fillExact_reaches (hasks : forall r : BodyBuffer, r.available = [] -> Asks r) (n : Nat)
    (r : BodyBuffer) : Reaches Asks r (r.fillExact n).2 :=
  fillExactFrom_reaches hasks _ n r

theorem readSlices_reaches (hasks : forall r : BodyBuffer, r.available = [] -> Asks r)
    (cap fuel remaining : Nat) (r : BodyBuffer) :
    Reaches Asks r (readSlices cap fuel remaining r).2.2 := by
  induction fuel generalizing remaining r with
  | zero => exact .refl
  | succ fuel ih =>
    have hfill := fillExact_reaches hasks (min remaining cap) r
    rw [readSlices]
    split
    · exact .refl
    · dsimp only
      split
      · rename_i r' heq
        rw [heq] at hfill
        exact hfill
      · rename_i slice r' heq
        rw [heq] at hfill
        exact hfill.trans (ih _ r')

theorem readSpan_reaches (hasks : forall r : BodyBuffer, r.available = [] -> Asks r)
    (cap size : Nat) (r : BodyBuffer) : Reaches Asks r (r.readSpan cap size).2.2 :=
  readSlices_reaches hasks cap _ size r

theorem readLineFrom_reaches (hasks : forall r, Asks r) (fuel : Nat) (r : BodyBuffer) :
    Reaches Asks r (readLineFrom fuel r).2 := by
  induction fuel generalizing r with
  | zero => exact .refl
  | succ fuel ih =>
    rw [readLineFrom]
    split
    · exact .refl
    · split
      · rename_i n hcrlf
        exact .single (.consume (findCrlf_length hcrlf))
      · split
        · rename_i parts hcut
          refine .single (.consume ?_)
          rw [(cut_some hcut).1, length_append, length_cons]
          omega
        · have hstep : Step Asks r r.readMore.2 := .readMore (hasks r)
          split
          · rename_i r' hmore
            rw [hmore] at hstep
            exact .head hstep (ih r')
          · rename_i r' _ hmore
            rw [hmore] at hstep
            exact .single hstep

theorem readLine_reaches (hasks : forall r, Asks r) (r : BodyBuffer) :
    Reaches Asks r r.readLine.2 :=
  readLineFrom_reaches hasks _ r

theorem readTrailers_reaches (hasks : forall r, Asks r) (crate : HttpCrate) (fuel : Nat)
    (r : BodyBuffer) : Reaches Asks r (readTrailers crate fuel r).2 := by
  induction fuel generalizing r with
  | zero => exact .refl
  | succ fuel ih =>
    have hline := readLine_reaches hasks r
    rw [readTrailers]
    split
    · rename_i r' heq
      rw [heq] at hline
      exact hline
    · rename_i line r' heq
      rw [heq] at hline
      split
      · exact hline
      · exact hline.trans (ih r')

theorem streamChunkedBody_reaches (hasks : forall r, Asks r) (crate : HttpCrate) (fuel : Nat)
    (r : BodyBuffer) : Reaches Asks r (streamChunkedBody crate fuel r).2 := by
  induction fuel generalizing r with
  | zero => exact .refl
  | succ fuel ih =>
    have hline := readLine_reaches hasks r
    rw [streamChunkedBody]
    split
    · rename_i r1 heq
      rw [heq] at hline
      exact hline
    · rename_i line r1 heq
      rw [heq] at hline
      split
      · exact hline.trans (ih r1)
      · split
        · exact hline
        · rename_i size hsize
          split
          · exact hline.trans (readTrailers_reaches hasks crate _ r1)
          · have hspan := hline.trans (readSpan_reaches (fun r _ => hasks r) 65536 size r1)
            split
            · rename_i slices r2 heq2
              rw [heq2] at hspan
              exact hspan
            · rename_i slices r2 heq2
              rw [heq2] at hspan
              have hend := hspan.trans (fillExact_reaches (fun r _ => hasks r) 2 r2)
              split
              · rename_i r3 heq3
                rw [heq3] at hend
                exact hend
              · rename_i terminator r3 heq3
                rw [heq3] at hend
                split
                · exact hend.trans (ih r3)
                · exact hend

end Reaches

/-!
## What the buffer holds
-/

def arrivals (r : BodyBuffer) : List Arrival :=
  r.refills.map Refill.arrival

def stretch (initial : Nat) : List Arrival -> Nat
  | [] => initial
  | a :: earlier => (if a.inLine then stretch initial earlier else 0) + a.read

def Held (initial : Nat) : List Refill -> Prop
  | [] => True
  | f :: earlier => f.held = stretch initial (f.arrival :: earlier.map Refill.arrival) ∧
      f.read ≤ 8192 ∧ Held initial earlier

structure Kept (initial : Nat) (r : BodyBuffer) : Prop where
  inside : r.pos ≤ r.buf.length
  size : r.buf = [] ∨ r.buf.length = stretch initial r.arrivals
  held : Held initial r.refills

section Kept

variable {initial : Nat} {r : BodyBuffer}

theorem Kept.consume (h : r.Kept initial) {n : Nat} (hn : n ≤ r.available.length) :
    (r.consume n).Kept initial where
  inside := by
    have hinside := h.inside
    rw [available, length_drop] at hn
    rw [BodyBuffer.consume]
    dsimp only
    omega
  size := h.size
  held := h.held

theorem cleared_refills (r : BodyBuffer) : r.cleared.refills = r.refills := by
  rw [cleared]
  split
  · rfl
  · rfl

theorem Kept.cleared (h : r.Kept initial) : r.cleared.Kept initial := by
  rw [BodyBuffer.cleared]
  split
  · exact ⟨Nat.le_refl 0, .inl rfl, h.held⟩
  · exact h

theorem cleared_of_drained (h : r.Kept initial) (hempty : r.available = []) :
    r.cleared.buf = [] := by
  have hinside := h.inside
  have hall : r.buf.length ≤ r.pos := drop_eq_nil_iff.mp hempty
  rw [cleared]
  split
  · rfl
  · rename_i hnot
    apply eq_nil_of_length_eq_zero
    omega

theorem cleared_of_unread (hne : r.available ≠ []) : r.cleared = r := by
  rw [cleared]
  split
  · rename_i hdrained
    refine absurd ?_ hne
    rw [available, hdrained.2, drop_length]
  · rfl

theorem Kept.readMore (h : r.Kept initial) : r.readMore.2.Kept initial := by
  rw [BodyBuffer.readMore]
  split
  · exact ⟨h.cleared.inside, h.cleared.size, h.cleared.held⟩
  · exact ⟨h.cleared.inside, h.cleared.size, h.cleared.held⟩
  · rename_i b bs inner hread
    have hlength : (r.cleared.buf ++ b :: bs).length = stretch initial
        (⟨r.available.length ≠ 0, (b :: bs).length⟩ :: r.arrivals) := by
      rw [stretch, length_append]
      by_cases hempty : r.available = []
      · rw [cleared_of_drained h hempty, if_neg (by simp [hempty])]
        rfl
      · have hne : r.buf ≠ [] := by
          intro hnil
          rw [available, hnil, drop_nil] at hempty
          exact hempty rfl
        rw [if_pos (decide_eq_true (mt eq_nil_of_length_eq_zero hempty)),
          cleared_of_unread hempty, h.size.resolve_left hne]
    refine ⟨?_, .inr hlength, hlength, (Source.read_some hread).2.2, h.held⟩
    rw [length_append]
    exact Nat.le_add_right_of_le h.cleared.inside

theorem Kept.reaches {Asks : BodyBuffer -> Prop} {r' : BodyBuffer} (h : r.Kept initial)
    (hreaches : Reaches Asks r r') : r'.Kept initial := by
  induction hreaches with
  | refl => exact h
  | tail _ hstep ih =>
    cases hstep with
    | consume hn => exact ih.consume hn
    | readMore _ => exact ih.readMore

theorem new_kept (inner : Source) (initial : List Byte) :
    (new inner initial).Kept initial.length :=
  ⟨Nat.zero_le _, .inr rfl, trivial⟩

end Kept

/-!
## The buffer refines the reader
-/

section Reader

variable {initial : Nat} {r : BodyBuffer}

theorem readMore_reader {r' : BodyBuffer} (h : r.Kept initial)
    (hmore : r.readMore = (some true, r')) :
    r'.Kept initial ∧ r.reader.readMore.join = some r'.reader ∧
      r'.arrivals = r.reader.arrival r'.reader :: r.arrivals := by
  have hkept := h.readMore
  rw [hmore] at hkept
  refine ⟨hkept, ?_⟩
  rw [readMore] at hmore
  rw [BodyReader.readMore]
  cases hread : r.inner.read 8192 with
  | mk bytes inner =>
    rw [show r.reader.source.read 8192 = (bytes, inner) from hread]
    rw [hread] at hmore
    cases bytes with
    | none => cases hmore
    | some bytes =>
      cases bytes with
      | nil => cases hmore
      | cons b bs =>
        cases hmore
        have havailable : (r.cleared.buf ++ b :: bs).drop r.cleared.pos =
            r.available ++ b :: bs := by
          rw [drop_append_of_le_length h.cleared.inside]
          by_cases hempty : r.available = []
          · rw [cleared_of_drained h hempty, hempty, drop_nil]
          · rw [cleared_of_unread hempty, available]
        refine ⟨congrArg (fun avail => some (BodyReader.mk avail inner)) havailable.symm, ?_⟩
        have hread : ((r.cleared.buf ++ b :: bs).drop r.cleared.pos).length - r.available.length =
            (b :: bs).length := by
          rw [havailable, length_append, Nat.add_sub_cancel_left]
        exact congrArg (fun n => Arrival.mk _ n :: r.arrivals) hread.symm

theorem readMore_reader_none {failed : Option Bool} {r' : BodyBuffer}
    (hmore : r.readMore = (failed, r')) (hfailed : failed ≠ some true) :
    r.reader.readMore.join = none ∧ r'.arrivals = r.arrivals := by
  rw [readMore] at hmore
  rw [BodyReader.readMore]
  cases hread : r.inner.read 8192 with
  | mk bytes inner =>
    rw [show r.reader.source.read 8192 = (bytes, inner) from hread]
    rw [hread] at hmore
    cases bytes with
    | none =>
      cases hmore
      exact ⟨rfl, congrArg (map Refill.arrival) (cleared_refills r)⟩
    | some bytes =>
      cases bytes with
      | nil =>
        cases hmore
        exact ⟨rfl, congrArg (map Refill.arrival) (cleared_refills r)⟩
      | cons b bs =>
        cases hmore
        exact absurd rfl hfailed

theorem consume_reader (n : Nat) (r : BodyBuffer) :
    (r.consume n).reader = ⟨r.available.drop n, r.inner⟩ := by
  rw [reader, available, available, consume]
  rw [drop_drop]

/-- The reader without a buffer goes on from the same bytes, after the same reads. -/
theorem fillExactFrom_reader (fuel n : Nat) (h : r.Kept initial) :
    BodyReader.fillExactFrom fuel n r.reader =
        ((fillExactFrom fuel n r).1.map fun bs => (bs, (fillExactFrom fuel n r).2.reader)) ∧
      (fillExactFrom fuel n r).2.arrivals = BodyReader.fillReads fuel n r.reader r.arrivals := by
  induction fuel generalizing n r with
  | zero => exact ⟨rfl, rfl⟩
  | succ fuel ih =>
    rw [fillExactFrom, BodyReader.fillExactFrom, BodyReader.fillReads]
    by_cases hn : n = 0
    · rw [if_pos hn, if_pos hn, if_pos hn]
      exact ⟨rfl, rfl⟩
    · rw [if_neg hn, if_neg hn, if_neg hn, show r.reader.avail = r.available from rfl]
      by_cases hempty : r.available.isEmpty
      · rw [if_pos hempty, if_pos hempty, if_pos hempty]
        split
        · rename_i r' hmore
          obtain ⟨hkept, hread, harrival⟩ := readMore_reader h hmore
          rw [hread, Option.bind_some]
          dsimp only
          rw [<- harrival]
          exact ih n hkept
        · rename_i r' hne hmore
          obtain ⟨hread, harrival⟩ := readMore_reader_none hmore hne
          rw [hread]
          exact ⟨rfl, harrival⟩
      · rw [if_neg hempty, if_neg hempty, if_neg hempty]
        obtain ⟨hrest, hreads⟩ := ih (n - min n r.available.length)
          (h.consume (Nat.min_le_right n r.available.length))
        rw [consume_reader] at hrest hreads
        dsimp only
        rw [show r.reader.source = r.inner from rfl, hrest, Option.map_map, Option.map_map]
        exact ⟨rfl, hreads⟩

theorem fillExact_reader (n : Nat) (h : r.Kept initial) :
    r.reader.fillExact n = ((r.fillExact n).1.map fun bs => (bs, (r.fillExact n).2.reader)) ∧
      (r.fillExact n).2.arrivals =
        BodyReader.fillReads (2 * r.reader.bytes.length + 2) n r.reader r.arrivals :=
  fillExactFrom_reader _ n h

theorem readLineFrom_reader (fuel : Nat) (h : r.Kept initial) :
    BodyReader.readLineFrom fuel r.reader =
        ((readLineFrom fuel r).1.map fun line => (line, (readLineFrom fuel r).2.reader)) ∧
      (readLineFrom fuel r).2.arrivals = BodyReader.lineReads fuel r.reader r.arrivals := by
  induction fuel generalizing r with
  | zero => exact ⟨rfl, rfl⟩
  | succ fuel ih =>
    rw [readLineFrom, BodyReader.readLineFrom, BodyReader.lineReads,
      show r.reader.avail = r.available from rfl]
    by_cases hlong : 65536 < r.available.length
    · rw [if_pos hlong, if_pos hlong, if_pos (.inl hlong)]
      exact ⟨rfl, rfl⟩
    · rw [if_neg hlong, if_neg hlong]
      cases hcut : cut lf r.available with
      | some parts =>
        have hlf : lf ∈ r.available := by
          rw [(cut_some hcut).1]
          exact mem_append_right _ mem_cons_self
        rw [if_pos (.inr hlf)]
        cases BodyReader.findCrlf r.available with
        | some n =>
          rw [consume_reader]
          exact ⟨rfl, rfl⟩
        | none =>
          have hdrop : r.available.drop (parts.1.length + 1) = parts.2 := by
            rw [(cut_some hcut).1, drop_append, drop_eq_nil_of_le (Nat.le_succ _),
              Nat.add_sub_cancel_left]
            rfl
          rw [consume_reader, hdrop]
          exact ⟨rfl, rfl⟩
      | none =>
        have hfree := cut_none_iff.mp hcut
        rw [BodyReader.findCrlf_none hfree, if_neg (not_or.mpr ⟨hlong, hfree⟩)]
        dsimp only
        split
        · rename_i r' hmore
          obtain ⟨hkept, hread, harrival⟩ := readMore_reader h hmore
          rw [hread, Option.bind_some]
          dsimp only
          rw [<- harrival]
          exact ih hkept
        · rename_i r' hne hmore
          obtain ⟨hread, harrival⟩ := readMore_reader_none hmore hne
          rw [hread]
          exact ⟨rfl, harrival⟩

theorem readLine_reader (h : r.Kept initial) :
    r.reader.readLine = (r.readLine.1.map fun line => (line, r.readLine.2.reader)) ∧
      r.readLine.2.arrivals =
        BodyReader.lineReads (r.reader.source.bytes.length + 1) r.reader r.arrivals :=
  readLineFrom_reader _ h

theorem readSlices_reader (cap fuel remaining : Nat) (h : r.Kept initial) :
    BodyReader.readSlices cap fuel remaining r.reader =
        ((readSlices cap fuel remaining r).1,
          bif (readSlices cap fuel remaining r).2.1 then
            some (readSlices cap fuel remaining r).2.2.reader
          else none) ∧
      (readSlices cap fuel remaining r).2.2.arrivals =
        BodyReader.sliceReads cap fuel remaining r.reader r.arrivals := by
  induction fuel generalizing remaining r with
  | zero =>
    rw [readSlices, BodyReader.readSlices]
    by_cases hzero : remaining = 0
    · rw [if_pos hzero, decide_eq_true hzero]
      exact ⟨rfl, rfl⟩
    · rw [if_neg hzero, decide_eq_false hzero]
      exact ⟨rfl, rfl⟩
  | succ fuel ih =>
    have hkept := h.reaches (fillExact_reaches (fun r h => h) (min remaining cap) r)
    rw [readSlices, BodyReader.readSlices, BodyReader.sliceReads]
    by_cases hzero : remaining = 0
    · rw [if_pos hzero, if_pos hzero, if_pos hzero]
      exact ⟨rfl, rfl⟩
    · rw [if_neg hzero, if_neg hzero, if_neg hzero]
      obtain ⟨hread, hreads⟩ := fillExact_reader (min remaining cap) h
      dsimp only
      rw [hread, <- hreads]
      cases hfill : r.fillExact (min remaining cap) with
      | mk slice r' =>
        rw [hfill] at hkept
        cases slice with
        | none => exact ⟨rfl, rfl⟩
        | some slice =>
          obtain ⟨hrest, hreads⟩ := ih (remaining - min remaining cap) hkept
          dsimp only [Option.map_some]
          rw [hrest]
          exact ⟨rfl, hreads⟩

theorem readTrailers_reader (crate : HttpCrate) (fuel : Nat) (h : r.Kept initial) :
    H2c.readTrailers crate fuel r.reader = (readTrailers crate fuel r).1 ∧
      (readTrailers crate fuel r).2.arrivals =
        BodyReader.trailerReads fuel r.reader r.arrivals := by
  induction fuel generalizing r with
  | zero => exact ⟨rfl, rfl⟩
  | succ fuel ih =>
    have hkept := h.reaches (@readLine_reaches (fun _ => True) (fun _ => trivial) r)
    obtain ⟨hread, hreads⟩ := readLine_reader h
    rw [readTrailers, H2c.readTrailers, BodyReader.trailerReads, hread]
    dsimp only
    rw [<- hreads]
    cases hline : r.readLine with
    | mk line r' =>
      rw [hline] at hkept
      cases line with
      | none => exact ⟨rfl, rfl⟩
      | some line =>
        obtain ⟨hrest, hreads⟩ := ih hkept
        dsimp only [Option.map_some, Option.bind_some]
        rw [hrest]
        split
        · exact ⟨rfl, rfl⟩
        · exact ⟨rfl, hreads⟩

/-- The body that is sent does not depend on the buffer. -/
theorem streamChunkedBody_reader (crate : HttpCrate) (fuel : Nat) (h : r.Kept initial) :
    H2c.streamChunkedBody crate fuel r.reader = (streamChunkedBody crate fuel r).1 ∧
      (streamChunkedBody crate fuel r).2.arrivals =
        BodyReader.chunkedReads fuel r.reader r.arrivals := by
  induction fuel generalizing r with
  | zero => exact ⟨rfl, rfl⟩
  | succ fuel ih =>
    have hkept := h.reaches (@readLine_reaches (fun _ => True) (fun _ => trivial) r)
    obtain ⟨hread, hreads⟩ := readLine_reader h
    rw [streamChunkedBody, H2c.streamChunkedBody, BodyReader.chunkedReads, hread]
    dsimp only
    rw [<- hreads]
    cases hline : r.readLine with
    | mk line r1 =>
      rw [hline] at hkept
      cases line with
      | none => exact ⟨rfl, rfl⟩
      | some line =>
        dsimp only [Option.map_some]
        by_cases hempty : (trimOws (chomp line)).isEmpty
        · rw [if_pos hempty, if_pos hempty, if_pos hempty]
          exact ih hkept
        · rw [if_neg hempty, if_neg hempty, if_neg hempty, chunkSize]
          cases parseHex (trimOws (sizePart (trimOws (chomp line)))) with
          | none => exact ⟨rfl, rfl⟩
          | some size =>
            dsimp only
            by_cases hzero : size = 0
            · obtain ⟨htrailers, hreads⟩ := readTrailers_reader crate _ hkept
              rw [if_pos hzero, if_pos hzero, if_pos hzero, htrailers]
              exact ⟨rfl, hreads⟩
            · rw [if_neg hzero, if_neg hzero, if_neg hzero]
              have hspan := hkept.reaches (readSpan_reaches (fun r h => h) 65536 size r1)
              obtain ⟨hslice, hreads⟩ := readSlices_reader 65536 (size / 65536 + 1) size hkept
              rw [BodyReader.readSpan, hslice, <- hreads, <- readSpan]
              cases hslices : r1.readSpan 65536 size with
              | mk slices rest =>
                rcases rest with ⟨whole, r2⟩
                rw [hslices] at hspan
                cases whole with
                | false => exact ⟨rfl, rfl⟩
                | true =>
                  have hend := hspan.reaches (fillExact_reaches (fun r h => h) 2 r2)
                  obtain ⟨hread, hreads⟩ := fillExact_reader 2 hspan
                  dsimp only [cond_true, Option.bind_some]
                  rw [hread, <- hreads]
                  cases hfill : r2.fillExact 2 with
                  | mk terminator r3 =>
                    rw [hfill] at hend
                    cases terminator with
                    | none => exact ⟨rfl, rfl⟩
                    | some terminator =>
                      dsimp only [Option.map_some]
                      by_cases hcrlf : terminator = crlf
                      · obtain ⟨hrest, hreads⟩ := ih hend
                        rw [if_pos hcrlf, if_pos hcrlf, if_pos hcrlf, hrest]
                        exact ⟨rfl, hreads⟩
                      · rw [if_neg hcrlf, if_neg hcrlf, if_neg hcrlf]
                        exact ⟨rfl, rfl⟩

end Reader

def HeldWithin (bound : Nat) (r : BodyBuffer) : Prop :=
  forall f, f ∈ r.refills -> f.held ≤ bound

theorem held_le_iff {initial bound : Nat} (hbound : initial ≤ bound) {log : List Refill}
    (h : Held initial log) :
    (forall f, f ∈ log -> f.held ≤ bound) ↔
      forall last, last <:+ log.map Refill.arrival -> stretch initial last ≤ bound := by
  induction log with
  | nil =>
    constructor
    · intro _ last hlast
      rw [suffix_nil.mp hlast]
      exact hbound
    · intro _ f hf
      cases hf
  | cons f earlier ih =>
    rcases h with ⟨hheld, _, hearlier⟩
    have hrest := ih hearlier
    constructor
    · intro hall last hlast
      rcases suffix_cons_iff.mp hlast with heq | hsuffix
      · rw [heq, <- hheld]
        exact hall f mem_cons_self
      · exact hrest.mp (fun g hg => hall g (mem_cons_of_mem f hg)) last hsuffix
    · intro hall g hg
      rcases mem_cons.mp hg with heq | hmem
      · rw [heq, hheld]
        exact hall _ (suffix_refl _)
      · exact hrest.mpr
          (fun last hlast => hall last (hlast.trans (suffix_cons _ _))) g hmem

section Stretches

variable {initial bound : Nat} {log : List Arrival}

theorem sum_le_stretch {run : List Arrival} (h : run <+: log ++ [⟨false, initial⟩])
    (hlines : forall a, a ∈ run.dropLast -> a.inLine = true) :
    (run.map Arrival.read).sum ≤ stretch initial log := by
  induction log generalizing run with
  | nil =>
    rcases prefix_cons_iff.mp h with heq | ⟨later, heq, hlater⟩
    · rw [heq]
      exact Nat.zero_le _
    · rw [heq, prefix_nil.mp hlater]
      exact Nat.le_refl _
  | cons a log ih =>
    rcases prefix_cons_iff.mp h with heq | ⟨run, heq, hrun⟩
    · rw [heq]
      exact Nat.zero_le _
    · rw [heq, map_cons, sum_cons, stretch, Nat.add_comm]
      apply Nat.add_le_add_right
      by_cases hnil : run = []
      · rw [hnil]
        exact Nat.zero_le _
      · rw [heq, dropLast_cons_of_ne_nil hnil] at hlines
        rw [if_pos (hlines a mem_cons_self)]
        exact ih hrun fun b hb => hlines b (mem_cons_of_mem a hb)

theorem exists_stretch (initial : Nat) (log : List Arrival) :
    exists run, run <+: log ++ [⟨false, initial⟩] ∧
      (forall a, a ∈ run.dropLast -> a.inLine = true) ∧
        (run.map Arrival.read).sum = stretch initial log := by
  induction log with
  | nil => exact ⟨[⟨false, initial⟩], prefix_refl _, fun _ h => (not_mem_nil h).elim, rfl⟩
  | cons a log ih =>
    obtain ⟨run, hrun, hlines, hsum⟩ := ih
    rw [stretch]
    by_cases hline : a.inLine = true
    · refine ⟨a :: run, prefix_cons_inj a |>.mpr hrun, ?_, ?_⟩
      · intro b hb
        by_cases hnil : run = []
        · rw [hnil] at hb
          cases hb
        · rw [dropLast_cons_of_ne_nil hnil] at hb
          rcases mem_cons.mp hb with heq | hmem
          · rw [heq]
            exact hline
          · exact hlines b hmem
      · rw [if_pos hline, map_cons, sum_cons, hsum, Nat.add_comm]
    · refine ⟨[a], prefix_append [a] _, fun _ h => (not_mem_nil h).elim, ?_⟩
      rw [if_neg hline, Nat.zero_add]
      rfl

theorem stretches_iff :
    (forall last, last <:+ log -> stretch initial last ≤ bound) ↔
      forall run, run <:+: log ++ [⟨false, initial⟩] ->
        (forall a, a ∈ run.dropLast -> a.inLine = true) -> (run.map Arrival.read).sum ≤ bound := by
  constructor
  · intro h run hrun hlines
    obtain ⟨last, hprefix, hsuffix⟩ := infix_iff_prefix_suffix.mp hrun
    rcases suffix_concat_iff.mp hsuffix with hnil | ⟨last, rfl, hlast⟩
    · rw [hnil] at hprefix
      rw [prefix_nil.mp hprefix]
      exact Nat.zero_le _
    · exact (sum_le_stretch hprefix hlines).trans (h last hlast)
  · intro h last hlast
    obtain ⟨run, hrun, hlines, hsum⟩ := exists_stretch initial last
    rw [<- hsum]
    refine h run (infix_iff_prefix_suffix.mpr ⟨_, hrun, ?_⟩) hlines
    exact suffix_concat_iff.mpr (.inr ⟨last, rfl, hlast⟩)

end Stretches

theorem held_le_of_drained {initial : Nat} {log : List Refill} (h : Held initial log)
    (hdrained : forall f, f ∈ log -> f.unread = 0) (f : Refill) (hf : f ∈ log) :
    f.held ≤ 8192 := by
  induction log with
  | nil => cases hf
  | cons g earlier ih =>
    rcases h with ⟨hheld, hread, hearlier⟩
    rcases mem_cons.mp hf with heq | hmem
    · rw [heq, hheld, stretch, if_neg (by simp [Refill.arrival, hdrained g]), Nat.zero_add]
      exact hread
    · exact ih hearlier (fun e he => hdrained e (mem_cons_of_mem g he)) hmem

theorem readMore_refills (r : BodyBuffer) :
    r.readMore.2.refills = r.refills ∨
      exists f : Refill, f.unread = r.available.length ∧ r.readMore.2.refills = f :: r.refills := by
  rw [readMore]
  split
  · exact .inl (cleared_refills r)
  · exact .inl (cleared_refills r)
  · exact .inr ⟨_, rfl, rfl⟩

theorem drained_of_reaches {r r' : BodyBuffer}
    (hreaches : Reaches (fun r => r.available = []) r r')
    (h : forall f, f ∈ r.refills -> f.unread = 0) : forall f, f ∈ r'.refills -> f.unread = 0 := by
  induction hreaches with
  | refl => exact h
  | tail _ hstep ih =>
    cases hstep with
    | consume hn => exact ih
    | readMore hempty =>
      rename_i r1 _
      rcases readMore_refills r1 with heq | ⟨f, hunread, heq⟩
      · rw [heq]
        exact ih
      · rw [heq]
        intro g hg
        rcases mem_cons.mp hg with hfirst | hmem
        · rw [hfirst, hunread, hempty, length_nil]
        · exact ih g hmem

/-- Consumed bytes that stay in the buffer change nothing of what is sent, for both framings. -/
theorem buffered_relay_refines (crate : HttpCrate) (fuel n : Nat) (inner : Source)
    (initial : List Byte) :
    (streamChunkedBody crate fuel (new inner initial)).1 =
        H2c.streamChunkedBody crate fuel ⟨initial, inner⟩ ∧
      (streamLength n (new inner initial)).1 = H2c.streamLength n ⟨initial, inner⟩ := by
  have hkept := new_kept inner initial
  have hslices := (readSlices_reader 32768 (n / 32768 + 1) n hkept).1
  refine ⟨(streamChunkedBody_reader crate fuel hkept).1.symm, ?_⟩
  change _ = H2c.streamLength n (new inner initial).reader
  rw [H2c.streamLength, BodyReader.readSpan, hslices, streamLength, readSpan]
  cases (readSlices 32768 (n / 32768 + 1) n (new inner initial)).2.1 with
  | true => rfl
  | false => rfl

/-- The buffer for a body with a length stays small.  For a chunked body it does exactly when no
stretch of the reads of the reader without a buffer, each but the first while a part of a line is
unread, brings too much.  What is there at the start counts as the first read. -/
theorem heldWithin_iff_reads (crate : HttpCrate) (fuel n : Nat) (inner : Source)
    (initial : List Byte) :
    HeldWithin (initial.length + 65536 + 8192) (streamLength n (new inner initial)).2 ∧
    (HeldWithin (initial.length + 65536 + 8192)
        (streamChunkedBody crate fuel (new inner initial)).2 ↔
      forall run, run <:+: BodyReader.chunkedReads fuel ⟨initial, inner⟩ [] ++
          [⟨false, initial.length⟩] ->
        (forall a, a ∈ run.dropLast -> a.inLine = true) ->
          (run.map Arrival.read).sum ≤ initial.length + 65536 + 8192) := by
  have hkept := new_kept inner initial
  constructor
  · have hreaches := readSpan_reaches (fun r h => h) 32768 n (new inner initial)
    have hdrained := drained_of_reaches hreaches (fun f hf => by cases hf)
    intro f hf
    have hle := held_le_of_drained (hkept.reaches hreaches).held hdrained f hf
    omega
  · have hreaches : Reaches (fun _ => True) _ _ :=
      streamChunkedBody_reaches (fun _ => trivial) crate fuel (new inner initial)
    have hreads := (streamChunkedBody_reader crate fuel hkept).2
    rw [HeldWithin, held_le_iff (by omega) (hkept.reaches hreaches).held, <- stretches_iff]
    exact hreads ▸ Iff.rfl

/-!
## Reads that arrive inside lines
-/

theorem refills_suffix {Asks : BodyBuffer -> Prop} {r r' : BodyBuffer}
    (hreaches : Reaches Asks r r') : r.refills <:+ r'.refills := by
  induction hreaches with
  | refl => exact suffix_refl _
  | tail _ hstep ih =>
    cases hstep with
    | consume hn => exact ih
    | readMore hempty =>
      rename_i r1 _
      rcases readMore_refills r1 with heq | ⟨f, _, heq⟩
      · rw [heq]
        exact ih
      · rw [heq]
        exact ih.trans (suffix_cons f _)

theorem fillExact_available {r : BodyBuffer} {n : Nat} (hpos : 0 < n)
    (hn : n ≤ r.available.length) :
    r.fillExact n = (some (r.available.take n), r.consume n) := by
  have hempty : r.available.isEmpty = false := by
    rw [isEmpty_eq_false_iff]
    intro hnil
    rw [hnil, length_nil] at hn
    omega
  rw [fillExact, fillExactFrom, if_neg (Nat.pos_iff_ne_zero.mp hpos), hempty,
    if_neg Bool.false_ne_true]
  dsimp only
  rw [Nat.min_eq_left hn, Nat.sub_self, fillExactFrom, if_pos rfl]
  rw [Option.map_some, append_nil]

def sliver : List Byte :=
  [cr, lf, 120, cr, lf, 49]

def slivers (k : Nat) : Source where
  pieces := replicate k sliver
  fails := false
  filled := by
    intro p hp hnil
    rw [eq_of_mem_replicate hp] at hnil
    cases hnil

/-- A reader with the first byte of a line unread, and reads to come that each end with the first
byte of a line. -/
def between (k : Nat) (buf : List Byte) (log : List Refill) : BodyBuffer where
  inner := slivers k
  buf := buf ++ [49]
  pos := buf.length
  refills := log

theorem available_between (k : Nat) (buf : List Byte) (log : List Refill) :
    (between k buf log).available = [49] :=
  drop_left

theorem readMore_between (k : Nat) (buf : List Byte) (log : List Refill) :
    (between (k + 1) buf log).readMore =
      (some true, ⟨slivers k, buf ++ [49] ++ sliver, buf.length,
        ⟨1, 6, buf.length + 7⟩ :: log⟩) := by
  have hcleared : (between (k + 1) buf log).cleared = between (k + 1) buf log :=
    cleared_of_unread (by rw [available_between]; decide)
  have hlength : (buf ++ [49] ++ sliver).length = buf.length + 7 := by
    rw [length_append, length_append]
    rfl
  rw [readMore, hcleared, available_between]
  rw [<- hlength]
  rfl

theorem readLine_between (k : Nat) (buf : List Byte) (log : List Refill) :
    (between (k + 1) buf log).readLine =
      (some [49, cr, lf],
        ⟨slivers k, buf ++ [49] ++ sliver, buf.length + 3,
          ⟨1, 6, buf.length + 7⟩ :: log⟩) := by
  have hfuel : (between (k + 1) buf log).inner.bytes.length = 6 + (slivers k).bytes.length := by
    exact length_append
  have havailable : available ⟨slivers k, buf ++ [49] ++ sliver, buf.length,
      ⟨1, 6, buf.length + 7⟩ :: log⟩ = 49 :: sliver := by
    rw [available, append_assoc]
    exact drop_left
  rw [readLine, hfuel, Nat.add_comm 6, readLineFrom, available_between]
  rw [if_neg (by decide), show BodyReader.findCrlf [49] = none by decide,
    show cut lf [49] = none by decide]
  rw [readMore_between]
  dsimp only
  rw [readLineFrom, havailable, if_neg (by decide),
    show BodyReader.findCrlf (49 :: sliver) = some 1 by decide]
  rfl

theorem readSpan_available {r : BodyBuffer} {cap n : Nat} (hpos : 0 < n) (hcap : n < cap)
    (hn : n ≤ r.available.length) :
    r.readSpan cap n = ([r.available.take n], true, r.consume n) := by
  rw [readSpan, Nat.div_eq_of_lt hcap, readSlices, if_neg (Nat.pos_iff_ne_zero.mp hpos)]
  dsimp only
  rw [Nat.min_eq_left (Nat.le_of_lt hcap), fillExact_available hpos hn]
  dsimp only
  rw [Nat.sub_self, readSlices]
  rfl

variable (crate : HttpCrate)

/-- Each turn adds a whole read to the buffer. -/
theorem streamChunkedBody_between (fuel k : Nat) (buf : List Byte) (log : List Refill) :
    (streamChunkedBody crate (fuel + 1) (between (k + 1) buf log)).2 =
      (streamChunkedBody crate fuel (between k (buf ++ [49, cr, lf, 120, cr, lf])
        (⟨1, 6, buf.length + 7⟩ :: log))).2 := by
  generalize hread : (⟨slivers k, buf ++ [49] ++ sliver, buf.length + 3,
    ⟨1, 6, buf.length + 7⟩ :: log⟩ : BodyBuffer) = read
  have hdata : read.available = [120, cr, lf, 49] := by
    rw [<- hread, available, append_assoc, drop_append,
      drop_eq_nil_of_le (Nat.le_add_right _ _), Nat.add_sub_cancel_left]
    rfl
  have hend : (read.consume 1).available = [cr, lf, 49] := by
    rw [available, consume]
    rw [<- drop_drop, <- available, hdata]
    rfl
  have hspan : read.readSpan 65536 1 = ([[120]], true, read.consume 1) := by
    rw [readSpan_available (by decide) (by decide) (by rw [hdata]; decide), hdata]
    rfl
  have hterminator : (read.consume 1).fillExact 2 = (some crlf, (read.consume 1).consume 2) := by
    rw [fillExact_available (by decide) (by rw [hend]; decide), hend]
    rfl
  have hnext : (read.consume 1).consume 2 = between k (buf ++ [49, cr, lf, 120, cr, lf])
      (⟨1, 6, buf.length + 7⟩ :: log) := by
    rw [<- hread, between, consume, consume, length_append, append_assoc,
      append_assoc]
    rfl
  rw [streamChunkedBody, readLine_between, hread]
  dsimp only
  rw [if_neg (by decide), show parseHex (trimOws (sizePart (trimOws (chomp [49, cr, lf])))) =
    some 1 by decide +kernel]
  dsimp only
  rw [if_neg Nat.one_ne_zero, hspan]
  dsimp only
  rw [hterminator]
  dsimp only
  rw [if_pos rfl, hnext]

theorem held_slivers (k : Nat) (buf : List Byte) (log : List Refill) :
    exists f, f ∈ (streamChunkedBody crate (k + 1) (between (k + 1) buf log)).2.refills ∧
      f.held = buf.length + 6 * k + 7 := by
  induction k generalizing buf log with
  | zero =>
    have hreaches : Reaches (fun _ => True) _ _ := streamChunkedBody_reaches
      (fun _ => trivial) crate 0 (between 0 (buf ++ [49, cr, lf, 120, cr, lf])
        (⟨1, 6, buf.length + 7⟩ :: log))
    refine ⟨⟨1, 6, buf.length + 7⟩, ?_, rfl⟩
    rw [streamChunkedBody_between]
    exact (refills_suffix hreaches).subset mem_cons_self
  | succ k ih =>
    rcases ih (buf ++ [49, cr, lf, 120, cr, lf]) (⟨1, 6, buf.length + 7⟩ :: log)
      with ⟨f, hf, hheld⟩
    rw [streamChunkedBody_between]
    refine ⟨f, hf, ?_⟩
    rw [hheld, length_append, length_cons, length_cons, length_cons,
      length_cons, length_cons, length_cons, length_nil]
    omega

theorem exists_held_slivers (k : Nat) :
    exists f, f ∈ (streamChunkedBody crate (k + 1) (new (slivers (k + 1)) [49])).2.refills ∧
      f.held = 6 * k + 7 := by
  have hstart : between (k + 1) [] [] = new (slivers (k + 1)) [49] := rfl
  rcases held_slivers crate k [] [] with ⟨f, hf, hheld⟩
  rw [hstart] at hf
  refine ⟨f, hf, ?_⟩
  rw [hheld, length_nil, Nat.zero_add]

theorem slivers_outgrow {bound k : Nat} (hk : bound < 6 * k + 7) :
    ¬ HeldWithin bound (streamChunkedBody crate (k + 1) (new (slivers (k + 1)) [49])).2 := by
  intro h
  rcases exists_held_slivers crate k with ⟨f, hf, hheld⟩
  have hle := h f hf
  omega

/-- After 12289 reads of six bytes the buffer holds more than its first byte, 64 KiB and one
read. -/
theorem slivers_not_heldWithin :
    ¬ HeldWithin ([(49 : Byte)].length + 65536 + 8192)
      (streamChunkedBody sampleCrate (12288 + 1) (new (slivers (12288 + 1)) [49])).2 :=
  slivers_outgrow sampleCrate (by decide)

end BodyBuffer

end H2c
end Http
end FrpRs
