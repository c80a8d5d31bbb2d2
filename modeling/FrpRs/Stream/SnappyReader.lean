import FrpRs.Stream.Snappy

/-!
# The decompressing reader

`SnappyStreamReader` in `frp-core/src/snappy_stream.rs`.  A poll serves decoded bytes, then
works on buffered chunks, then reads from the inner stream.  Work on buffered chunks that gives
no data goes on to the read even when complete chunks are left.  At the end of the inner stream
this is reported as an error, and chunks that are read faster than they are worked on exceed
the buffer.  Where neither happens, the data of every chunk is delivered before the stream ends.
-/

namespace FrpRs
namespace Stream

open List Bytes Poll

def readChunkSize : Nat := 32 * 1024
def maxMetaFeedsPerPoll : Nat := 4

structure SnappyStreamReader where
  decompressor : SnappyDecompressor
  outBuf : List Byte
  outPos : Nat
  hasMoreComplete : Bool
  metaBudget : Nat
  eof : Bool
deriving DecidableEq, Repr

namespace SnappyStreamReader

def new : SnappyStreamReader where
  decompressor := SnappyDecompressor.new
  outBuf := []
  outPos := 0
  hasMoreComplete := false
  metaBudget := maxMetaFeedsPerPoll
  eof := false

def ioErr (e : String) : IoError where
  kind := .invalidData
  text := e

/-- How one turn of the loop ends. -/
inductive Turn where
  | again (s : SnappyStreamReader) (source : Source)
  | finish (outcome : Outcome (List Byte)) (s : SnappyStreamReader) (source : Source)

/-- The turn's read from the inner stream. -/
def readInner (raw : SnapRaw) (s : SnappyStreamReader) (source : Source) : Turn :=
  if s.eof then .finish (.ready []) s source
  else
    match source.pollRead readChunkSize with
    | (.pending, source) => .finish .pending s source
    | (.failed e, source) => .finish (.failed e) s source
    | (.ready got, source) =>
      if got = [] then
        match s.decompressor.validatePartialEof with
        | (.error e, d) => .finish (.failed (ioErr e)) { s with eof := true, decompressor := d } source
        | (.ok (), d) => .finish (.ready []) { s with eof := true, decompressor := d } source
      else
        let s := { s with outBuf := [], outPos := 0, metaBudget := s.metaBudget - 1 }
        match s.decompressor.feedIntoAppendProgress raw got [] with
        | .error e => .finish (.failed (ioErr e)) s source
        | .ok (d, out, more) =>
          .again { s with decompressor := d, outBuf := out, hasMoreComplete := more } source

def turn (raw : SnapRaw) (s : SnappyStreamReader) (source : Source) (cap : Nat) : Turn :=
  if s.outPos < s.outBuf.length then
    let n := min cap (s.outBuf.length - s.outPos)
    .finish (.ready ((s.outBuf.drop s.outPos).take n)) { s with outPos := s.outPos + n } source
  else if s.hasMoreComplete then
    if s.metaBudget = 0 then .finish .pending s source
    else
      let s := { s with outBuf := [], outPos := 0, metaBudget := s.metaBudget - 1 }
      match s.decompressor.feedIntoAppendProgress raw [] [] with
      | .error e => .finish (.failed (ioErr e)) s source
      | .ok (d, out, more) =>
        let s := { s with decompressor := d, outBuf := out, hasMoreComplete := more }
        if out ≠ [] then .again s source else readInner raw s source
  else readInner raw s source

def pollLoop (raw : SnapRaw) (cap : Nat) :
    Nat -> SnappyStreamReader -> Source -> Outcome (List Byte) × SnappyStreamReader × Source
  | 0, s, source => (.pending, s, source)
  | fuel + 1, s, source =>
    match turn raw s source cap with
    | .again s source => pollLoop raw cap fuel s source
    | .finish outcome s source => (outcome, s, source)

def pollRead (raw : SnapRaw) (s : SnappyStreamReader) (source : Source) (cap : Nat) :
    Outcome (List Byte) × SnappyStreamReader × Source :=
  if cap = 0 then (.ready [], s, source)
  else pollLoop raw cap (source.weight + 2) { s with metaBudget := maxMetaFeedsPerPoll } source

def snappyReader (raw : SnapRaw) : Reader SnappyStreamReader where
  pollRead := pollRead raw

end SnappyStreamReader

/-!
## The front of a stream
-/

variable {raw : SnapRaw}

theorem encodeAll_cons (c : Chunk raw) (cs : List (Chunk raw)) :
    encodeAll (c :: cs) = c.encode ++ encodeAll cs :=
  flatMap_cons

theorem payloads_cons (c : Chunk raw) (cs : List (Chunk raw)) :
    payloads (c :: cs) = c.payload ++ payloads cs :=
  flatMap_cons

theorem front_cases {rest later cut : List Byte} {cs : List (Chunk raw)}
    (h : rest ++ later = encodeAll cs ++ cut) (hcut : Partial raw cut) :
    Partial raw rest ∨ exists c cs' rest', cs = c :: cs' ∧ rest = c.encode ++ rest' ∧
      rest' ++ later = encodeAll cs' ++ cut := by
  cases cs with
  | nil =>
    obtain ⟨c, more, hmore, heq⟩ := hcut
    left
    refine ⟨c, later ++ more, ?_, ?_⟩
    · intro hnil
      exact hmore (append_eq_nil_iff.mp hnil).2
    · rw [← append_assoc, h, encodeAll, flatMap_nil, nil_append, heq]
  | cons c cs =>
    rw [encodeAll_cons, append_assoc] at h
    rcases append_eq_append_iff.mp h with ⟨more, hencode, hlater⟩ | ⟨rest', hrest, hlater⟩
    · by_cases hmore : more = []
      · right
        rw [hmore, append_nil] at hencode
        rw [hmore, nil_append] at hlater
        refine ⟨c, cs, [], rfl, ?_, hlater⟩
        rw [hencode, append_nil]
      · exact .inl ⟨c, more, hmore, hencode.symm⟩
    · exact .inr ⟨c, cs, rest', rfl, hrest, hlater.symm⟩

theorem chunkLen_front {rest later cut : List Byte} {cs : List (Chunk raw)}
    (h : rest ++ later = encodeAll cs ++ cut) (hcut : Partial raw cut) (hlong : 4 ≤ rest.length) :
    chunkLen rest ≤ maxSnappyChunk := by
  rcases front_cases h hcut with hcutoff | ⟨c, cs', rest', _, hrest, _⟩
  · exact (hcutoff.chunkLen hlong).1
  · rw [hrest, c.chunkLen_encode]
    exact c.short

theorem Partial.length_lt {part : List Byte} (h : Partial raw part) :
    part.length < 4 + maxSnappyChunk := by
  obtain ⟨c, more, hmore, heq⟩ := h
  have hlength := congrArg length heq
  have hpos := length_pos_iff.mpr hmore
  have hshort := c.short
  rw [length_append, c.length_encode] at hlength
  omega

namespace SnappyDecompressor

variable {d : SnappyDecompressor}

theorem hasCompleteFrame_encode {c : Chunk raw} {rest' : List Byte} (h : d.rest = c.encode ++ rest') :
    d.hasCompleteFrame = true := by
  rw [hasCompleteFrame, h, c.chunkLen_encode, length_append, c.length_encode, Bool.and_eq_true,
    decide_eq_true_iff, decide_eq_true_iff]
  omega

theorem hasCompleteFrame_of_cut (h : Partial raw d.rest) :
    d.hasCompleteFrame = false := by
  rw [hasCompleteFrame, Bool.and_eq_false_imp]
  intro hlong
  rw [decide_eq_true_iff] at hlong
  have hshort := (h.chunkLen hlong).2
  rw [decide_eq_false_iff_not]
  omega

/-- The buffer is within its limit, and its first header has been checked. -/
structure Wf (d : SnappyDecompressor) : Prop where
  offset : d.offset ≤ d.buf.length
  header : 4 ≤ d.buf.length -> chunkLen d.buf ≤ maxSnappyChunk
  bounded : d.buf.length ≤ maxSnappyPending

theorem length_rest (d : SnappyDecompressor) : d.rest.length = d.buf.length - d.offset :=
  length_drop

theorem settle_wf (h : d.Wf) :
    d.settle.Wf ∧ d.settle.rest = d.rest := by
  unfold settle
  split
  · rename_i hall
    refine ⟨⟨Nat.le_refl 0, fun hlong => absurd hlong (by decide), Nat.zero_le _⟩, ?_⟩
    rw [rest, rest, hall, drop_length, drop_nil]
  · exact ⟨h, rfl⟩

/-- A stream of which the buffer holds the front. -/
structure Holds (d : SnappyDecompressor) (later : List Byte) (cs : List (Chunk raw))
    (cut : List Byte) : Prop where
  wf : d.Wf
  stream : d.rest ++ later = encodeAll cs ++ cut
  partialCut : Partial raw cut

/-- What the loop does to a stream: some chunks are used up, at least one where there is a
complete one. -/
structure Drained (d d' : SnappyDecompressor) (later : List Byte) (cs cs' : List (Chunk raw))
    (cut data : List Byte) : Prop where
  holds : d'.Holds later cs' cut
  data : payloads cs = data ++ payloads cs'
  shorter : d'.rest.length ≤ d.rest.length
  progress : d.hasCompleteFrame = true -> d'.rest.length < d.rest.length

theorem Holds.skip {later cut : List Byte} {c : Chunk raw} {cs : List (Chunk raw)}
    (h : d.Holds later (c :: cs) cut) {rest' : List Byte} (hrest : d.rest = c.encode ++ rest') :
    Holds { d with offset := d.offset + (4 + c.body.length) } later cs cut ∧
      rest { d with offset := d.offset + (4 + c.body.length) } = rest' := by
  have hdrop : rest { d with offset := d.offset + (4 + c.body.length) } = rest' := by
    rw [rest, ← drop_drop]
    change d.rest.drop _ = rest'
    rw [hrest, drop_left' c.length_encode]
  have hstream := h.stream
  rw [hrest, encodeAll_cons, append_assoc, append_assoc, append_cancel_left_eq]
    at hstream
  have hlength := congrArg length hrest
  rw [length_rest, length_append, c.length_encode] at hlength
  refine ⟨⟨⟨?_, h.wf.header, h.wf.bounded⟩, ?_, h.partialCut⟩, hdrop⟩
  · change d.offset + (4 + c.body.length) ≤ d.buf.length
    omega
  · rw [hdrop]
    exact hstream

theorem drainFrames_spec {budget : Nat} {later cut : List Byte} {cs : List (Chunk raw)}
    (h : d.Holds later cs cut) (out : List Byte) (hbudget : 0 < budget) :
    exists d' cs' data, drainFrames raw budget d out = .ok (d', out ++ data) ∧
      Drained d d' later cs cs' cut data := by
  induction budget generalizing d cs with
  | zero => exact absurd hbudget (Nat.lt_irrefl 0)
  | succ budget ih =>
    rcases front_cases h.stream h.partialCut with hcutoff | ⟨c, cs', rest', hcs, hrest, hlater⟩
    · obtain ⟨hwf, hsettle⟩ := settle_wf h.wf
      have hstop : drainFrames raw (budget + 1) d out = .ok (d.settle, out) := by
        rw [drainFrames]
        by_cases hshort : d.rest.length < 4
        · rw [if_pos hshort]
        · obtain ⟨hlen, hmissing⟩ := hcutoff.chunkLen (by omega)
          rw [if_neg hshort, if_neg (by omega), if_pos hmissing]
      refine ⟨d.settle, cs, [], ?_, ?_⟩
      · rw [hstop, append_nil]
      · refine ⟨⟨hwf, ?_, h.partialCut⟩, rfl, ?_, ?_⟩
        · rw [hsettle]
          exact h.stream
        · rw [hsettle]
        · intro hcomplete
          rw [hasCompleteFrame_of_cut hcutoff] at hcomplete
          cases hcomplete
    · rw [hcs] at h ⊢
      obtain ⟨hnext, hrest'⟩ := h.skip hrest
      have hlength : rest'.length < d.rest.length := by
        rw [hrest, length_append, c.length_encode]
        omega
      have hbody : (d.rest.take (4 + c.body.length)).drop 4 = c.body := by
        rw [hrest, take_left' c.length_encode, Chunk.encode, cons_append,
          drop_succ_cons, drop_left' (leBytes_length 3 _)]
      have htype : d.rest.getD 0 0 = c.chunkType := by
        rw [hrest]
        rfl
      have hlen : chunkLen d.rest = c.body.length := by
        rw [hrest, c.chunkLen_encode]
      have hshort := c.short
      have hlong : 4 + c.body.length ≤ d.rest.length := by
        rw [hrest, length_append, c.length_encode]
        omega
      rw [drainFrames]
      rw [hlen, if_neg (by omega), if_neg (by omega), if_neg (by omega), hbody, htype,
        c.chunkData_eq]
      cases hdata : c.data with
      | some data =>
        refine ⟨_, cs', data, rfl, hnext, ?_, ?_, ?_⟩
        · rw [payloads_cons, Chunk.payload, hdata]
          rfl
        · rw [hrest']
          exact Nat.le_of_lt hlength
        · intro _
          rw [hrest']
          exact hlength
      | none =>
        have hpayload : payloads (c :: cs') = payloads cs' := by
          rw [payloads_cons, Chunk.payload, hdata]
          rfl
        by_cases hzero : budget = 0
        · obtain ⟨hwf, hsettle⟩ := settle_wf hnext.wf
          rw [hzero, drainFrames]
          refine ⟨settle _, cs', [], by rw [append_nil], ⟨hwf, ?_, h.partialCut⟩, hpayload, ?_, ?_⟩
          · rw [hsettle]
            exact hnext.stream
          · rw [hsettle, hrest']
            exact Nat.le_of_lt hlength
          · intro _
            rw [hsettle, hrest']
            exact hlength
        · obtain ⟨d', cs'', data, heq, hdrained⟩ := ih hnext (Nat.pos_of_ne_zero hzero)
          have hless := hdrained.shorter
          rw [hrest'] at hless
          refine ⟨d', cs'', data, heq, hdrained.holds, ?_, ?_, ?_⟩
          · rw [hpayload, hdrained.data]
          · omega
          · intro _
            omega

theorem feedIntoStep_nil (h : d.Wf) (out : List Byte) :
    feedIntoStep raw d [] out = drainFrames raw maxFramesPerCall d out := by
  have hsame : (if 0 < d.offset ∧ ([] : List Byte) ≠ [] then ⟨d.rest, 0⟩ else d) = d :=
    if_neg fun hne => hne.2 rfl
  have hheader : ¬ (4 ≤ d.buf.length ∧ maxSnappyChunk < chunkLen d.buf) := by
    rintro ⟨hlong, hover⟩
    exact absurd (h.header hlong) (Nat.not_le.mpr hover)
  rw [feedIntoStep, hsame, take_nil, drop_nil, append_nil, if_neg hheader, if_neg, append_nil]
  exact Nat.not_lt.mpr h.bounded

/-- New input is appended to the bytes not yet worked on. -/
theorem feedIntoStep_data {data later cut : List Byte} {cs : List (Chunk raw)}
    (h : d.Holds (data ++ later) cs cut) (hdata : data ≠ [])
    (hfits : d.rest.length + data.length ≤ maxSnappyPending) (out : List Byte) :
    feedIntoStep raw d data out = drainFrames raw maxFramesPerCall ⟨d.rest ++ data, 0⟩ out := by
  have hcompact : (if 0 < d.offset ∧ data ≠ [] then ⟨d.rest, 0⟩ else d) =
      (⟨d.rest, 0⟩ : SnappyDecompressor) := by
    by_cases hpos : 0 < d.offset
    · rw [if_pos ⟨hpos, hdata⟩]
    · have hzero := Nat.eq_zero_of_not_pos hpos
      obtain ⟨buf, offset⟩ := d
      rw [rest, hzero, drop_zero]
      exact congrArg (SnappyDecompressor.mk buf) hzero
  rw [feedIntoStep, hcompact]
  generalize (if d.rest.length < 4 then min (4 - d.rest.length) data.length else 0) = take
  have hsplit : d.rest ++ data.take take ++ data.drop take = d.rest ++ data := by
    rw [append_assoc, take_append_drop]
  have hheader : ¬ (4 ≤ (d.rest ++ data.take take).length ∧
      maxSnappyChunk < chunkLen (d.rest ++ data.take take)) := by
    rintro ⟨hlong, hover⟩
    have hstream : d.rest ++ data.take take ++ (data.drop take ++ later) = encodeAll cs ++ cut := by
      rw [← append_assoc, hsplit, append_assoc]
      exact h.stream
    exact absurd (chunkLen_front hstream h.partialCut hlong) (Nat.not_le.mpr hover)
  have hlength : (d.rest ++ data.take take).length + (data.drop take).length =
      d.rest.length + data.length := by
    rw [← length_append, hsplit, length_append]
  rw [if_neg hheader, hlength, if_neg (Nat.not_lt.mpr hfits), hsplit]

/-- What a feed does to a stream. -/
theorem feedIntoAppendProgress_spec {d : SnappyDecompressor} {data later cut : List Byte}
    {cs : List (Chunk raw)} (h : d.Holds (data ++ later) cs cut)
    (hfits : data ≠ [] -> d.rest.length + data.length ≤ maxSnappyPending) :
    exists (d' : SnappyDecompressor) (cs' : List (Chunk raw)) (out : List Byte),
      d.feedIntoAppendProgress raw data [] = .ok (d', out, d'.hasCompleteFrame) ∧
      d'.Holds later cs' cut ∧ payloads cs = out ++ payloads cs' ∧
      d'.rest.length ≤ d.rest.length + data.length ∧
      (d.hasCompleteFrame = true -> d'.rest.length < d.rest.length + data.length) := by
  by_cases hdata : data = []
  · rw [hdata, nil_append] at h
    obtain ⟨d', cs', out, heq, hdrained⟩ := drainFrames_spec h [] (by decide : 0 < maxFramesPerCall)
    refine ⟨d', cs', out, ?_, hdrained.holds, hdrained.data, ?_, ?_⟩
    · rw [feedIntoAppendProgress, hdata, feedIntoStep_nil h.wf, heq]
      rfl
    · rw [hdata]
      exact hdrained.shorter
    · rw [hdata]
      exact hdrained.progress
  · have hrest : rest ⟨d.rest ++ data, 0⟩ = d.rest ++ data := drop_zero
    have hholds : Holds ⟨d.rest ++ data, 0⟩ later cs cut := by
      have hstream : d.rest ++ data ++ later = encodeAll cs ++ cut := by
        rw [append_assoc]
        exact h.stream
      refine ⟨⟨Nat.zero_le _, chunkLen_front hstream h.partialCut, ?_⟩, ?_, h.partialCut⟩
      · rw [length_append]
        exact hfits hdata
      · exact hstream
    obtain ⟨d', cs', out, heq, hdrained⟩ :=
      drainFrames_spec hholds [] (by decide : 0 < maxFramesPerCall)
    have hshorter := hdrained.shorter
    have hprogress := hdrained.progress
    rw [hrest, length_append] at hshorter hprogress
    refine ⟨d', cs', out, ?_, hdrained.holds, hdrained.data, hshorter, ?_⟩
    · rw [feedIntoAppendProgress, feedIntoStep_data h hdata (hfits hdata), heq]
      rfl
    · intro hcomplete
      apply hprogress
      rcases front_cases hholds.stream h.partialCut with hcutoff | ⟨c, _, rest', _, hfront, _⟩
      · have hpart : Partial raw d.rest := by
          obtain ⟨c, more, hmore, hencode⟩ := hcutoff
          rw [hrest, append_assoc] at hencode
          exact ⟨c, data ++ more, fun hnil => hmore (append_eq_nil_iff.mp hnil).2, hencode⟩
        rw [hasCompleteFrame_of_cut hpart] at hcomplete
        cases hcomplete
      · exact hasCompleteFrame_encode hfront

theorem hasPending_iff (d : SnappyDecompressor) : d.hasPending = true ↔ d.rest ≠ [] := by
  rw [hasPending, decide_eq_true_iff, ← length_pos_iff, length_rest]
  omega

end SnappyDecompressor

/-!
## One poll
-/

namespace SnappyStreamReader

def goesOn (d : SnappyDecompressor) (source : Source) : Bool :=
  match (source.pollRead readChunkSize).1 with
  | .ready got => got ≠ [] && d.rest.length + got.length ≤ maxSnappyPending
  | .pending => true
  | .failed _ => true

/-- Work on buffered chunks that gives no data and leaves a complete chunk is followed by a read
that goes on. -/
def turnClear (raw : SnapRaw) (s : SnappyStreamReader) (source : Source) : Bool :=
  if s.outPos < s.outBuf.length then true
  else if s.hasMoreComplete && s.metaBudget ≠ 0 then
    match s.decompressor.feedIntoAppendProgress raw [] [] with
    | .ok (d, out, more) => out ≠ [] || !more || goesOn d source
    | .error _ => true
  else true

def loopClear (raw : SnapRaw) (cap : Nat) : Nat -> SnappyStreamReader -> Source -> Bool
  | 0, _, _ => true
  | fuel + 1, s, source =>
    turnClear raw s source &&
      match turn raw s source cap with
      | .again s source => loopClear raw cap fuel s source
      | .finish _ _ _ => true

def PollClear (raw : SnapRaw) (s : SnappyStreamReader) (source : Source) (cap : Nat) : Prop :=
  0 < cap ∧
    loopClear raw cap (source.weight + 2) { s with metaBudget := maxMetaFeedsPerPoll } source = true

instance (raw : SnapRaw) (s : SnappyStreamReader) (source : Source) (cap : Nat) :
    Decidable (PollClear raw s source cap) :=
  inferInstanceAs (Decidable (_ ∧ _))

/-- The stream behind a reader, up to its cut. -/
structure Reads (raw : SnapRaw) (cut : List Byte) (s : SnappyStreamReader) (source : Source)
    (owed : List Byte) (cs : List (Chunk raw)) : Prop where
  sound : source.Sound
  holds : s.decompressor.Holds source.bytes cs cut
  owes : owed = s.outBuf.drop s.outPos ++ payloads cs
  more : s.hasMoreComplete = s.decompressor.hasCompleteFrame
  open' : s.eof = false

def Inv (raw : SnapRaw) (cut : List Byte) (s : SnappyStreamReader) (source : Source)
    (owed : List Byte) : Prop :=
  exists cs, Reads raw cut s source owed cs

def measure (s : SnappyStreamReader) (source : Source) (owed : List Byte) : Nat :=
  s.decompressor.rest.length + source.bytes.length + source.weight + owed.length

def ending (cut : List Byte) : Ending :=
  if cut = [] then .eof else .failed (ioErr SnappyDecompressor.incompleteAtEof)

def Final (cut : List Byte) (e : Ending) : Prop :=
  e = ending cut

/-- What a turn may do. -/
inductive TurnRule (raw : SnapRaw) (cut : List Byte) (bound weight : Nat) (owed : List Byte) :
    Turn -> Prop
  | again {s : SnappyStreamReader} {source : Source} (hinv : Inv raw cut s source owed)
      (hless : measure s source owed < bound)
      (hnext : s.outPos < s.outBuf.length ∨ source.weight < weight) :
      TurnRule raw cut bound weight owed (.again s source)
  | finish {outcome : Outcome (List Byte)} {s : SnappyStreamReader} {source : Source}
      (hrule : PollRule (Inv raw cut) measure (Final cut) bound owed (outcome, s, source)) :
      TurnRule raw cut bound weight owed (.finish outcome s source)

theorem TurnRule.mono {cut : List Byte} {bound bound' weight : Nat} {owed : List Byte} {t : Turn}
    (h : TurnRule raw cut bound weight owed t) (hle : bound ≤ bound') :
    TurnRule raw cut bound' weight owed t := by
  cases h with
  | again hinv hless hnext => exact .again hinv (Nat.lt_of_lt_of_le hless hle) hnext
  | finish hrule => exact .finish (hrule.mono hle)

theorem validatePartialEof_spec {cut : List Byte} {d : SnappyDecompressor}
    (hrest : d.rest = cut) (hcut : Partial raw cut) :
    d.validatePartialEof.1 =
      if cut = [] then .ok () else .error SnappyDecompressor.incompleteAtEof := by
  rw [SnappyDecompressor.validatePartialEof,
    if_neg (by rw [SnappyDecompressor.hasCompleteFrame_of_cut (hrest ▸ hcut)]; exact Bool.false_ne_true)]
  by_cases hnil : cut = []
  · rw [if_pos hnil, if_neg]
    rw [d.hasPending_iff, hrest]
    exact fun hne => hne hnil
  · rw [if_neg hnil, if_pos]
    rw [d.hasPending_iff, hrest]
    exact hnil

section Turns

variable {cut owed : List Byte} {s : SnappyStreamReader} {source : Source}
  {cs : List (Chunk raw)}

theorem readInner_end (h : Reads raw cut s source owed cs) (hserved : s.outBuf.length ≤ s.outPos)
    (hend : source.bytes = []) (hnone : s.decompressor.hasCompleteFrame = false) :
    owed = [] ∧ s.decompressor.validatePartialEof.1 =
      if cut = [] then .ok () else .error SnappyDecompressor.incompleteAtEof := by
  have hstream := h.holds.stream
  rw [hend, append_nil] at hstream
  cases cs with
  | cons c cs =>
    rw [encodeAll_cons, append_assoc] at hstream
    rw [SnappyDecompressor.hasCompleteFrame_encode hstream] at hnone
    cases hnone
  | nil =>
    have howes := h.owes
    rw [drop_eq_nil_of_le hserved] at howes
    exact ⟨howes, validatePartialEof_spec hstream h.holds.partialCut⟩

theorem readInner_rule (h : Reads raw cut s source owed cs) (hserved : s.outBuf.length ≤ s.outPos)
    (hgo : s.decompressor.hasCompleteFrame = true -> goesOn s.decompressor source = true) :
    TurnRule raw cut (measure s source owed) source.weight owed (readInner raw s source) := by
  have howes := h.owes
  rw [drop_eq_nil_of_le hserved, nil_append] at howes
  rw [readInner, if_neg (by rw [h.open']; exact Bool.false_ne_true)]
  unfold goesOn at hgo
  cases hread : source.pollRead readChunkSize with
  | mk o source' =>
    have hsound : source'.Sound := by
      have hsound := h.sound.pollRead readChunkSize
      rw [hread] at hsound
      exact hsound
    rw [hread] at hgo
    cases o with
    | failed e => exact absurd hread fun hread => h.sound.not_failed hread
    | pending =>
      obtain ⟨hbytes, hweight⟩ := Source.pollRead_pending hread
      apply TurnRule.finish
      apply PollRule.pending
      · refine ⟨cs, hsound, ?_, h.owes, h.more, h.open'⟩
        rw [hbytes]
        exact h.holds
      · rw [measure, measure, hbytes]
        omega
    | ready got =>
      obtain ⟨hbytes, hcap⟩ := Source.pollRead_ready hread
      rcases h.sound.read (by decide) hread with ⟨hnil, hscript, hsame⟩ | ⟨hgot, hweight⟩
      · have hnone : s.decompressor.hasCompleteFrame = false := by
          rw [Bool.eq_false_iff]
          intro hcomplete
          have hgone := hgo hcomplete
          rw [hnil] at hgone
          cases hgone
        have hend : source.bytes = [] := by
          rw [Source.bytes, hscript]
          rfl
        obtain ⟨howed, heof⟩ := readInner_end h hserved hend hnone
        dsimp only
        rw [if_pos hnil]
        by_cases hcut : cut = []
        · rw [if_pos hcut] at heof
          split
          · rename_i heq
            rw [heq] at heof
            cases heof
          · exact .finish (.eof howed (if_pos hcut).symm)
        · rw [if_neg hcut] at heof
          split
          · rename_i heq
            rw [heq] at heof
            cases heof
            exact .finish (.failed howed (if_neg hcut).symm)
          · rename_i heq
            rw [heq] at heof
            cases heof
      · have hholds := h.holds
        rw [hbytes] at hholds
        have hfits : s.decompressor.rest.length + got.length ≤ maxSnappyPending := by
          cases hcomplete : s.decompressor.hasCompleteFrame with
          | true =>
            have hgone := hgo hcomplete
            rw [Bool.and_eq_true, decide_eq_true_iff, decide_eq_true_iff] at hgone
            exact hgone.2
          | false =>
            have hpart : Partial raw s.decompressor.rest := by
              rcases front_cases hholds.stream hholds.partialCut with
                hcutoff | ⟨c, _, rest', _, hfront, _⟩
              · exact hcutoff
              · rw [SnappyDecompressor.hasCompleteFrame_encode hfront] at hcomplete
                cases hcomplete
            have hlength := hpart.length_lt
            have hroom : 4 + maxSnappyChunk + readChunkSize ≤ maxSnappyPending := by decide
            omega
        obtain ⟨d', cs', out, heq, hheld, hdata, hshorter, _⟩ :=
          SnappyDecompressor.feedIntoAppendProgress_spec hholds fun _ => hfits
        dsimp only
        rw [if_neg hgot, heq]
        apply TurnRule.again
        · refine ⟨cs', hsound, hheld, ?_, rfl, h.open'⟩
          rw [howes, hdata]
          rfl
        · rw [measure, measure, hbytes, length_append]
          dsimp only
          omega
        · exact .inr hweight

def slack (s : SnappyStreamReader) : Nat :=
  if s.metaBudget = 0 then 1 else 0

theorem turn_rule (h : Reads raw cut s source owed cs) {cap : Nat} (hcap : 0 < cap)
    (hclear : turnClear raw s source = true) :
    TurnRule raw cut (measure s source owed + slack s) source.weight owed
      (turn raw s source cap) := by
  rw [turn]
  rw [turnClear] at hclear
  by_cases hserve : s.outPos < s.outBuf.length
  · rw [if_pos hserve]
    generalize hn : min cap (s.outBuf.length - s.outPos) = n
    have howed : owed = (s.outBuf.drop s.outPos).take n ++
        (s.outBuf.drop (s.outPos + n) ++ payloads cs) := by
      rw [← append_assoc, ← drop_drop, take_append_drop]
      exact h.owes
    have hlength : ((s.outBuf.drop s.outPos).take n).length = n := by
      rw [length_take, length_drop]
      omega
    have hgot : (s.outBuf.drop s.outPos).take n ≠ [] := by
      apply length_pos_iff.mp
      omega
    apply TurnRule.finish
    refine PollRule.data hgot howed ⟨cs, h.sound, h.holds, rfl, h.more, h.open'⟩ ?_
    have htotal := congrArg length howed
    rw [length_append, hlength] at htotal
    rw [measure, measure]
    dsimp only
    omega
  · rw [if_neg hserve]
    rw [if_neg hserve] at hclear
    cases hmore : s.hasMoreComplete with
    | false =>
      apply (readInner_rule h (Nat.not_lt.mp hserve) ?_).mono (Nat.le_add_right _ _)
      intro hcomplete
      rw [← h.more, hmore] at hcomplete
      cases hcomplete
    | true =>
      rw [if_pos rfl]
      rw [hmore, Bool.true_and] at hclear
      by_cases hbudget : s.metaBudget = 0
      · rw [if_pos hbudget]
        apply TurnRule.finish
        apply PollRule.pending ⟨cs, h⟩
        rw [slack, if_pos hbudget]
        exact Nat.lt_succ_self _
      · rw [if_neg hbudget]
        rw [decide_eq_true hbudget, if_pos rfl] at hclear
        obtain ⟨d', cs', out, heq, hheld, hdata, hshorter, hprogress⟩ :=
          @SnappyDecompressor.feedIntoAppendProgress_spec raw s.decompressor [] source.bytes cut cs
            h.holds fun hne => absurd rfl hne
        rw [heq] at hclear
        have howes := h.owes
        rw [drop_eq_nil_of_le (Nat.not_lt.mp hserve), nil_append, hdata] at howes
        have hless := hprogress (h.more ▸ hmore)
        rw [length_nil, Nat.add_zero] at hless
        dsimp only
        rw [heq]
        dsimp only
        have hreads : Reads raw cut { s with
            decompressor := d'
            outBuf := out
            outPos := 0
            hasMoreComplete := d'.hasCompleteFrame
            metaBudget := s.metaBudget - 1 } source owed cs' :=
          ⟨h.sound, hheld, howes, rfl, h.open'⟩
        have hmeasure : measure { s with
            decompressor := d'
            outBuf := out
            outPos := 0
            hasMoreComplete := d'.hasCompleteFrame
            metaBudget := s.metaBudget - 1 } source owed < measure s source owed := by
          rw [measure, measure]
          dsimp only
          omega
        by_cases hout : out = []
        · rw [if_neg (fun hne => hne hout)]
          have hserved : out.length ≤ 0 := by rw [hout]; exact Nat.le_refl 0
          apply (readInner_rule hreads hserved ?_).mono (by omega)
          intro hcomplete
          dsimp only at hclear hcomplete
          rw [hcomplete, decide_eq_false (fun hne => hne hout), Bool.false_or, Bool.not_true,
            Bool.false_or] at hclear
          exact hclear
        · rw [if_pos hout]
          apply TurnRule.again ⟨cs', hreads⟩ (by omega)
          exact .inl (length_pos_iff.mpr hout)

def fuelNeeded (s : SnappyStreamReader) (source : Source) : Nat :=
  if s.outPos < s.outBuf.length then 1 else source.weight + 2

theorem turn_serves {cap : Nat} (h : s.outPos < s.outBuf.length) :
    exists outcome s' source', turn raw s source cap = .finish outcome s' source' := by
  rw [turn, if_pos h]
  exact ⟨_, _, _, rfl⟩

theorem pollLoop_rule {cap bound : Nat} (hcap : 0 < cap) {fuel : Nat}
    (h : Inv raw cut s source owed) (hbound : measure s source owed + slack s ≤ bound)
    (hfuel : fuelNeeded s source ≤ fuel) (hclear : loopClear raw cap fuel s source = true) :
    PollRule (Inv raw cut) measure (Final cut) bound owed (pollLoop raw cap fuel s source) := by
  induction fuel generalizing s source with
  | zero =>
    unfold fuelNeeded at hfuel
    split at hfuel
    · exact absurd hfuel (by decide)
    · exact absurd hfuel (Nat.not_succ_le_zero _)
  | succ fuel ih =>
    obtain ⟨cs, hreads⟩ := h
    rw [loopClear, Bool.and_eq_true] at hclear
    have hrule := turn_rule hreads hcap hclear.1
    have hlater := hclear.2
    rw [pollLoop]
    generalize hturn : turn raw s source cap = t at hrule hlater
    cases hrule with
    | finish hrule => exact hrule.mono hbound
    | again hinv hless hnext =>
      rename_i s' source'
      refine ih hinv ?_ ?_ hlater
      · unfold slack
        split
        · omega
        · omega
      · rw [fuelNeeded] at hfuel ⊢
        by_cases hserve : s.outPos < s.outBuf.length
        · obtain ⟨_, _, _, hfinish⟩ := @turn_serves raw s source cap hserve
          rw [hturn] at hfinish
          cases hfinish
        · rw [if_neg hserve] at hfuel
          split
          · omega
          · rcases hnext with hnext | hnext
            · contradiction
            · omega

end Turns

theorem serves (raw : SnapRaw) (cut : List Byte) :
    (snappyReader raw).Serves (Inv raw cut) measure (Final cut) (PollClear raw) := by
  intro s source owed cap hinv hok
  obtain ⟨hcap, hclear⟩ := hok
  obtain ⟨cs, hreads⟩ := hinv
  have hbudget : Inv raw cut { s with metaBudget := maxMetaFeedsPerPoll } source owed :=
    ⟨cs, hreads.sound, hreads.holds, hreads.owes, hreads.more, hreads.open'⟩
  change PollRule _ _ _ _ _ (pollRead raw s source cap)
  rw [pollRead, if_neg (Nat.pos_iff_ne_zero.mp hcap)]
  refine pollLoop_rule hcap hbudget (Nat.le_refl _) ?_ hclear
  unfold fuelNeeded
  split
  · omega
  · exact Nat.le_refl _

/-!
## Readings of a whole stream
-/

/-- The data is delivered in order.  The stream ends after all of it, with an error exactly if it
is cut inside a chunk, and it does end after enough polls. -/
structure Delivers (cs : List (Chunk raw)) (cut : List Byte) (polls enough : Nat)
    (s : Reading SnappyStreamReader) : Prop where
  inOrder : s.delivered <+: payloads cs
  ends : forall e, s.ending = some e -> s.delivered = payloads cs ∧ e = ending cut
  enough : enough < polls -> s.ending.isSome = true

def enoughPolls (script : List ReadEvent) (cs : List (Chunk raw)) : Nat :=
  2 * (Source.bytes ⟨script⟩).length + script.length + (payloads cs).length

/-- A valid stream is delivered whole, wherever the reads and the caller's buffers end, if no
turn works on buffered chunks without data, leaves a complete chunk, and then meets the end of
the inner stream or the limit of the buffer. -/
theorem delivers_of_clear (cs : List (Chunk raw)) {cut : List Byte} (hcut : Partial raw cut)
    {script : List ReadEvent} (hscript : Source.Sound ⟨script⟩)
    (hstream : Source.bytes ⟨script⟩ = encodeAll cs ++ cut) (caps : List Nat)
    (hcaps : Run.Along (snappyReader raw).step (Reading.Polls (PollClear raw))
      (Reading.start new script) caps) :
    Delivers cs cut caps.length (enoughPolls script cs)
      (Run.run (snappyReader raw).step (Reading.start new script) caps) := by
  have hinv : Inv raw cut new ⟨script⟩ (payloads cs) := by
    refine ⟨cs, hscript, ⟨⟨Nat.le_refl 0, ?_, Nat.zero_le _⟩, hstream, hcut⟩, rfl, rfl, rfl⟩
    intro hlong
    exact absurd hlong (by decide)
  have howes := (serves raw cut).run hinv hcaps
  refine ⟨?_, ?_, ?_⟩
  · rcases howes with ⟨_, owed, htotal, _⟩ | ⟨_, _, _, htotal⟩
    · exact ⟨owed, htotal⟩
    · exact initial_of_eq htotal
  · intro e hend
    rcases howes with ⟨hnone, _⟩ | ⟨e', hend', hfinal, htotal⟩
    · rw [hend] at hnone
      cases hnone
    · rw [hend] at hend'
      cases hend'
      exact ⟨htotal, hfinal⟩
  · intro henough
    apply (serves raw cut).ends hinv hcaps
    rw [enoughPolls] at henough
    change 0 + (Source.bytes ⟨script⟩).length + ((Source.bytes ⟨script⟩).length + script.length) +
      (payloads cs).length < caps.length
    omega

/-- Blocks of a single literal of at most sixty bytes. -/
def literalRaw : SnapRaw where
  decompressLen
    | n :: _ => if n < 0x80 then .ok n.toNat else .error "snappy: unsupported block"
    | [] => .error "snappy: corrupt input (empty)"
  decompress
    | n :: tag :: data =>
      if 0 < n ∧ n ≤ 60 ∧ tag = 4 * (n - 1) ∧ data.length = n.toNat then .ok data
      else .error "snappy: unsupported block"
    | _ => .error "snappy: corrupt input (empty)"

def identifierChunk : Chunk literalRaw where
  chunkType := 0xFF
  body := streamBody
  data := none
  valid := .identifier
  short := by decide

def paddingChunk : Chunk literalRaw where
  chunkType := 0xFE
  body := [0, 0]
  data := none
  valid := .skippable _ (by decide) (by decide)
  short := by decide

def literalChunk : Chunk literalRaw where
  chunkType := 0x00
  body := u32Le (Crc32c.crc32cMasked [7, 7, 7]) ++ [3, 8, 7, 7, 7]
  data := some [7, 7, 7]
  valid := .compressed rfl rfl (by decide)
  short := by decide

def emptyChunk : Chunk literalRaw where
  chunkType := 0x01
  body := u32Le (Crc32c.crc32cMasked []) ++ []
  data := some []
  valid := .uncompressed []
  short := by decide

/-- An identifier, padding and a compressed chunk in three reads, and then three bytes of a
header. -/
def sampleScript : List ReadEvent :=
  [.chunk (identifierChunk.encode ++ [0xFE]), .pending, .chunk (paddingChunk.encode.drop 1),
    .chunk (literalChunk.encode ++ [0xFE, 2, 0])]

theorem delivers_of_clear_sample :
    Partial literalRaw [0xFE, 2, 0] ∧
    Delivers [identifierChunk, paddingChunk, literalChunk] [0xFE, 2, 0] 5
      (enoughPolls sampleScript [identifierChunk, paddingChunk, literalChunk])
      (Run.run (snappyReader literalRaw).step (Reading.start new sampleScript) [2, 1, 2, 1, 1]) := by
  have hcut : Partial literalRaw [0xFE, 2, 0] := ⟨paddingChunk, [0, 0, 0], by decide, by decide⟩
  have hscript : Source.Sound ⟨sampleScript⟩ := by decide
  have hstream : Source.bytes ⟨sampleScript⟩ =
      encodeAll [identifierChunk, paddingChunk, literalChunk] ++ [0xFE, 2, 0] := by decide +kernel
  exact ⟨hcut, delivers_of_clear _ hcut hscript hstream [2, 1, 2, 1, 1] (by decide +kernel)⟩

/-- Three empty data chunks in one read are a whole stream, but its end is reported as an
error. -/
theorem empty_chunks_end_in_error :
    Source.Sound ⟨[.chunk (encodeAll [emptyChunk, emptyChunk, emptyChunk])]⟩ ∧
    Partial literalRaw [] ∧
    Source.bytes ⟨[.chunk (encodeAll [emptyChunk, emptyChunk, emptyChunk])]⟩ =
      encodeAll [emptyChunk, emptyChunk, emptyChunk] ++ [] ∧
    (Run.run (snappyReader literalRaw).step
      (Reading.start new [.chunk (encodeAll [emptyChunk, emptyChunk, emptyChunk])])
      [1]).ending = some (.failed (ioErr SnappyDecompressor.completeAtEof)) :=
  ⟨by decide, partial_nil emptyChunk, by decide, by decide⟩

end SnappyStreamReader

end Stream
end FrpRs
