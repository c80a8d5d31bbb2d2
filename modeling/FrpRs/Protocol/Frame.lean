import FrpRs.Data.ByteStream

/-!
# V1 and V2 frames

The framing of `frp-core/src/protocol.rs`.  A frame is a fixed-size header that
carries the payload length, and the payload.  Writers hand both to the transport
in one vectored write and resume at the exact unwritten byte; readers take the
header, check the announced length and then take the payload.
-/

namespace FrpRs
namespace Protocol

open List Bytes Fallible ByteStream

def v1MaxMsgLength : Nat := 10240

def v1HeaderLen : Nat := 9

def v2FrameTypeMessage : UInt16 := 16

def v2MaxFramePayload : Nat := 64 * 1024

def v2FrameHeaderLen : Nat := 8

/-!
## The vectored write loop
-/

/-- The offsets into header and payload after `n` accepted bytes. -/
def advance (hdrLen payloadLen hdrOff payloadOff n : Nat) : Nat × Nat :=
  let hdrTake := if hdrOff < hdrLen then min n (hdrLen - hdrOff) else 0
  let payloadTake := min (n - hdrTake) (payloadLen - payloadOff)
  (hdrOff + hdrTake, payloadOff + payloadTake)

def unwritten (header payload : List Byte) (hdrOff payloadOff : Nat) : List Byte :=
  header.drop hdrOff ++ payload.drop payloadOff

theorem advance_remaining {hdrLen payloadLen hdrOff payloadOff n : Nat}
    (hmore : ¬ (hdrLen ≤ hdrOff ∧ payloadLen ≤ payloadOff)) (hn : n ≠ 0) :
    hdrLen - (advance hdrLen payloadLen hdrOff payloadOff n).1 +
        (payloadLen - (advance hdrLen payloadLen hdrOff payloadOff n).2) <
      hdrLen - hdrOff + (payloadLen - payloadOff) := by
  unfold advance
  by_cases hhdr : hdrOff < hdrLen
  · simp only [if_pos hhdr]
    omega
  · simp only [if_neg hhdr]
    omega

/-- The write loop shared by both frame versions; `label` is the version in its
error texts. -/
def writeFrame (label : String) (response : Nat -> Except String Nat)
    (header payload : List Byte) (hdrOff payloadOff : Nat) (sink : Sink) :
    Except String Unit × Sink :=
  if header.length ≤ hdrOff ∧ payload.length ≤ payloadOff then (.ok (), sink)
  else
    match sink.writeVectored response [header.drop hdrOff, payload.drop payloadOff] with
    | (.error e, sink) => (.error ("write " ++ label ++ " frame: " ++ e), sink)
    | (.ok n, sink) =>
      if n = 0 then (.error ("write " ++ label ++ " frame: " ++ "zero-length write"), sink)
      else
        writeFrame label response header payload
          (advance header.length payload.length hdrOff payloadOff n).1
          (advance header.length payload.length hdrOff payloadOff n).2 sink
termination_by header.length - hdrOff + (payload.length - payloadOff)
decreasing_by
  exact advance_remaining (by assumption) (by assumption)

variable {header payload : List Byte}

theorem unwritten_advance {hdrOff payloadOff n : Nat}
    (hn : n ≤ (unwritten header payload hdrOff payloadOff).length) :
    unwritten header payload
        (advance header.length payload.length hdrOff payloadOff n).1
        (advance header.length payload.length hdrOff payloadOff n).2 =
      (unwritten header payload hdrOff payloadOff).drop n := by
  unfold unwritten advance at *
  rw [length_append, length_drop, length_drop] at hn
  rw [drop_append, length_drop, drop_drop, drop_drop]
  by_cases hhdr : hdrOff < header.length
  · simp only [if_pos hhdr]
    by_cases hle : n ≤ header.length - hdrOff
    · have hrem : n - min n (header.length - hdrOff) = 0 := by omega
      have hover : n - (header.length - hdrOff) = 0 := by omega
      rw [hrem, hover, Nat.min_eq_left hle, Nat.zero_min]
    · have hmin : min n (header.length - hdrOff) = header.length - hdrOff := by omega
      have hend : header.length ≤ hdrOff + (header.length - hdrOff) := by omega
      have hpast : header.length ≤ hdrOff + n := by omega
      have hrest : n - (header.length - hdrOff) ≤ payload.length - payloadOff := by omega
      rw [hmin, Nat.min_eq_left hrest, drop_of_length_le hend,
        drop_of_length_le hpast]
  · have hzero : header.length - hdrOff = 0 := by omega
    have hend : header.length ≤ hdrOff := by omega
    have hpast : header.length ≤ hdrOff + n := by omega
    have hrest : n ≤ payload.length - payloadOff := by omega
    simp only [if_neg hhdr, hzero, Nat.sub_zero, Nat.add_zero]
    rw [Nat.min_eq_left hrest, drop_of_length_le hend, drop_of_length_le hpast]

variable {hdrOff payloadOff : Nat}

theorem unwritten_done (h : header.length ≤ hdrOff ∧ payload.length ≤ payloadOff) :
    unwritten header payload hdrOff payloadOff = [] := by
  unfold unwritten
  rw [drop_of_length_le h.1, drop_of_length_le h.2, append_nil]

theorem offer_ne_nil (h : ¬ (header.length ≤ hdrOff ∧ payload.length ≤ payloadOff)) :
    [header.drop hdrOff, payload.drop payloadOff].flatten ≠ [] := by
  intro hnil
  have hlen := congrArg length hnil
  simp only [flatten_cons, flatten_nil, append_nil, length_append,
    length_drop, length_nil] at hlen
  omega

variable {response : Nat -> Except String Nat}

variable {sink sink' : Sink}

theorem writeFrame_held {label : String}
    (h : writeFrame label response header payload hdrOff payloadOff sink =
      (.ok (), sink')) :
    sink'.held = sink.held ++ unwritten header payload hdrOff payloadOff := by
  fun_induction writeFrame label response header payload hdrOff payloadOff sink with
  | case1 hdrOff payloadOff sink hdone =>
    cases h
    rw [unwritten_done hdone, append_nil]
  | case2 hdrOff payloadOff sink hmore e next hwrite =>
    cases h
  | case3 hdrOff payloadOff sink hmore next hwrite =>
    cases h
  | case4 hdrOff payloadOff sink hmore n next hwrite hn ih =>
    obtain ⟨hle, hheld⟩ := writeVectored_ok hwrite
    have hflat : [header.drop hdrOff, payload.drop payloadOff].flatten =
        unwritten header payload hdrOff payloadOff := by
      simp [unwritten]
    rw [hflat] at hle hheld
    rw [ih h, unwritten_advance hle, hheld, append_assoc, take_append_drop]

theorem writeFrame_error {label : String} {e : String}
    (h : (writeFrame label response header payload hdrOff payloadOff sink).1 =
      .error e) :
    exists cause, e = "write " ++ label ++ " frame: " ++ cause := by
  fun_induction writeFrame label response header payload hdrOff payloadOff sink with
  | case1 hdrOff payloadOff sink hdone =>
    cases h
  | case2 hdrOff payloadOff sink hmore cause next hwrite =>
    cases h
    exact ⟨cause, rfl⟩
  | case3 hdrOff payloadOff sink hmore next hwrite =>
    cases h
    exact ⟨"zero-length write", rfl⟩
  | case4 hdrOff payloadOff sink hmore n next hwrite hn ih =>
    exact ih h

theorem writeFrame_accepting {label : String} {response : Nat -> Except String Nat}
    (hacc : Accepting response) (header payload : List Byte)
    (hdrOff payloadOff : Nat) (sink : Sink) :
    (writeFrame label response header payload hdrOff payloadOff sink).1 = .ok () := by
  fun_induction writeFrame label response header payload hdrOff payloadOff sink with
  | case1 hdrOff payloadOff sink hdone =>
    rfl
  | case2 hdrOff payloadOff sink hmore e next hwrite =>
    obtain ⟨n, _, hok⟩ := writeVectored_accepting hacc sink
      (offer_ne_nil hmore)
    rw [hwrite] at hok
    cases hok
  | case3 hdrOff payloadOff sink hmore next hwrite =>
    obtain ⟨n, hpos, hok⟩ := writeVectored_accepting hacc sink
      (offer_ne_nil hmore)
    rw [hwrite] at hok
    cases hok
    exact absurd hpos (Nat.lt_irrefl 0)
  | case4 hdrOff payloadOff sink hmore n next hwrite hn ih =>
    exact ih

/-!
## Reading with labelled errors
-/

/-- `read_exact` whose error text starts with what was being read. -/
def readLabelled (what : String) (need : Nat) (chunks : List (List Byte)) :
    Except String (List Byte) × List (List Byte) :=
  match readExact need chunks with
  | (.error e, rest) => (.error (what ++ e), rest)
  | (.ok bytes, rest) => (.ok bytes, rest)

variable {chunks : List (List Byte)}

theorem readLabelled_chunked (what : String) {bytes rest : List Byte}
    (h : Chunked chunks (bytes ++ rest)) :
    exists chunks', readLabelled what bytes.length chunks = (.ok bytes, chunks') ∧
      Chunked chunks' rest := by
  obtain ⟨chunks', hread, hrest⟩ := readExact_chunked h
  refine ⟨chunks', ?_, hrest⟩
  unfold readLabelled
  rw [hread]

def hexChar (n : Nat) : Char := "0123456789abcdef".toList.getD n '0'

def hexEncode (bytes : List Byte) : String :=
  String.ofList (bytes.flatMap fun b =>
    [hexChar (b.toNat >>> 4), hexChar (b.toNat &&& 0x0f)])

/-!
## V1 frames

The payload of a V1 frame is the JSON text of the message.  The message type and
its serializer are parameters of the framing.
-/

/-- What the framing uses of a message type: its type byte and its JSON text, or
the serializer's error. -/
structure MessageCodec (Msg : Type) where
  v1TypeByte : Msg -> Byte
  toWriter : Msg -> Except String (List Byte)

/-- A writer and the serialization buffer its caller owns. -/
structure V1Writer where
  scratch : List Byte
  sink : Sink
deriving DecidableEq, Repr

def v1Header (typeByte : Byte) (payloadLen : Nat) : List Byte :=
  typeByte :: beBytes 8 payloadLen

def writeV1FrameScratch {Msg : Type} (codec : MessageCodec Msg)
    (response : Nat -> Except String Nat) (msg : Msg) (w : V1Writer) :
    Except String Unit × V1Writer :=
  match codec.toWriter msg with
  | .error e => (.error ("serialize V1 msg: " ++ e), { w with scratch := [] })
  | .ok buf =>
    if v1MaxMsgLength < buf.length then
      (.error "V1 message too large", { w with scratch := buf })
    else
      let r := writeFrame "V1" response (v1Header (codec.v1TypeByte msg) buf.length)
        buf 0 0 w.sink
      (r.1, { scratch := buf, sink := r.2 })

def v1LengthError (header : List Byte) : String :=
  "invalid V1 msg length: " ++ toString (ofBeBytes (header.drop 1)) ++ " (max: " ++
    toString v1MaxMsgLength ++ "), raw header: " ++ hexEncode header

def readV1Frame (chunks : List (List Byte)) :
    Except String (Byte × List Byte) × List (List Byte) :=
  andThen (readLabelled "read V1 header: " v1HeaderLen chunks) fun header chunks =>
    let typeByte := header.headD 0
    let length := ofBeBytes (header.drop 1)
    if v1MaxMsgLength < length then (.error (v1LengthError header), chunks)
    else
      andThen (readLabelled "read V1 payload: " length chunks) fun payload chunks =>
        (.ok (typeByte, payload), chunks)

/-!
## V2 frames
-/

def v2Header (frameType flags : UInt16) (payloadLen : Nat) : List Byte :=
  u16Be frameType ++ (u16Be flags ++ beBytes 4 payloadLen)

def v2TooLarge (payloadLen : Nat) : String :=
  "V2 payload too large: " ++ toString payloadLen ++ " > " ++ toString v2MaxFramePayload

def writeV2FrameRaw (response : Nat -> Except String Nat) (frameType flags : UInt16)
    (payload : List Byte) (sink : Sink) : Except String Unit × Sink :=
  if v2MaxFramePayload < payload.length then (.error (v2TooLarge payload.length), sink)
  else
    writeFrame "V2" response (v2Header frameType flags payload.length) payload 0 0 sink

def v2LengthError (payloadLen : Nat) : String :=
  "V2 frame payload too large: " ++ toString payloadLen

def readV2FrameHeader (chunks : List (List Byte)) :
    Except String (UInt16 × UInt16 × Nat) × List (List Byte) :=
  andThen (readLabelled "read V2 frame: " v2FrameHeaderLen chunks) fun header chunks =>
    let frameType := readU16Be header
    let flags := readU16Be (header.drop 2)
    let payloadLen := ofBeBytes (header.drop 4)
    if flags ≠ 0 then
      (.error ("unsupported V2 frame flags: " ++ toString flags.toNat), chunks)
    else if v2MaxFramePayload < payloadLen then (.error (v2LengthError payloadLen), chunks)
    else (.ok (frameType, flags, payloadLen), chunks)

def readV2FrameRaw (chunks : List (List Byte)) :
    Except String (UInt16 × UInt16 × List Byte) × List (List Byte) :=
  andThen (readV2FrameHeader chunks) fun header chunks =>
    andThen (readLabelled "read V2 payload: " header.2.2 chunks) fun payload chunks =>
      (.ok (header.1, header.2.1, payload), chunks)

/-!
## Sequences of frames
-/

def writeV1Frames {Msg : Type} (codec : MessageCodec Msg)
    (response : Nat -> Except String Nat) :
    List Msg -> V1Writer -> Except String Unit × V1Writer
  | [], w => (.ok (), w)
  | msg :: msgs, w =>
    andThen (writeV1FrameScratch codec response msg w) fun _ w =>
      writeV1Frames codec response msgs w

/-- Frames with flags 0, given by frame type and payload. -/
def writeV2Frames (response : Nat -> Except String Nat) :
    List (UInt16 × List Byte) -> Sink -> Except String Unit × Sink
  | [], sink => (.ok (), sink)
  | frame :: frames, sink =>
    andThen (writeV2FrameRaw response frame.1 0 frame.2 sink) fun _ sink =>
      writeV2Frames response frames sink

def MessageCodec.v1Frame {Msg : Type} (codec : MessageCodec Msg) (msg : Msg) :
    Except String (Byte × List Byte) :=
  (codec.toWriter msg).map fun payload => (codec.v1TypeByte msg, payload)

def v1FrameBytes (frame : Byte × List Byte) : List Byte :=
  v1Header frame.1 frame.2.length ++ frame.2

def v2FrameBytes (frame : UInt16 × UInt16 × List Byte) : List Byte :=
  v2Header frame.1 frame.2.1 frame.2.2.length ++ frame.2.2

/-!
## What a frame writer puts into the sink
-/

variable {Msg : Type}
variable {codec : MessageCodec Msg}

theorem writeV1FrameScratch_ok {msg : Msg} {w w' : V1Writer}
    (h : writeV1FrameScratch codec response msg w = (.ok (), w')) :
    exists payload, codec.toWriter msg = .ok payload ∧
      payload.length ≤ v1MaxMsgLength ∧
      w'.sink.held =
        w.sink.held ++ v1FrameBytes (codec.v1TypeByte msg, payload) := by
  unfold writeV1FrameScratch at h
  cases hser : codec.toWriter msg with
  | error e =>
    simp only [hser] at h
    cases h
  | ok buf =>
    simp only [hser] at h
    by_cases hlen : v1MaxMsgLength < buf.length
    · rw [if_pos hlen] at h
      cases h
    · rw [if_neg hlen] at h
      injection h with hres hw
      have hheld := writeFrame_held (Prod.ext hres rfl)
      rw [← hw]
      exact ⟨buf, rfl, Nat.le_of_not_lt hlen, hheld⟩

theorem writeV2FrameRaw_ok {frameType flags : UInt16}
    (h : writeV2FrameRaw response frameType flags payload sink = (.ok (), sink')) :
    payload.length ≤ v2MaxFramePayload ∧
      sink'.held = sink.held ++ v2FrameBytes (frameType, flags, payload) := by
  unfold writeV2FrameRaw at h
  by_cases hlen : v2MaxFramePayload < payload.length
  · rw [if_pos hlen] at h
    cases h
  · rw [if_neg hlen] at h
    exact ⟨Nat.le_of_not_lt hlen, writeFrame_held h⟩

theorem writeV1Frames_ok {msgs : List Msg} {w w' : V1Writer}
    (h : writeV1Frames codec response msgs w = (.ok (), w')) :
    exists frames : List (Byte × List Byte),
      msgs.map codec.v1Frame = frames.map Except.ok ∧
      (forall frame, frame ∈ frames -> frame.2.length ≤ v1MaxMsgLength) ∧
      w'.sink.held = w.sink.held ++ frames.flatMap v1FrameBytes := by
  induction msgs generalizing w with
  | nil =>
    cases h
    exact ⟨[], rfl, by simp, by simp⟩
  | cons msg msgs ih =>
    obtain ⟨_, mid, hone, hrest⟩ := andThen_eq_ok h
    obtain ⟨payload, hser, hlen, hheld⟩ := writeV1FrameScratch_ok hone
    obtain ⟨frames, hframes, hlens, hall⟩ := ih hrest
    refine ⟨(codec.v1TypeByte msg, payload) :: frames, ?_, ?_, ?_⟩
    · have hframe : codec.v1Frame msg = .ok (codec.v1TypeByte msg, payload) := by
        unfold MessageCodec.v1Frame
        rw [hser]
        rfl
      rw [map_cons, map_cons, hframe, hframes]
    · intro frame hmem
      cases hmem with
      | head => exact hlen
      | tail _ hmem => exact hlens frame hmem
    · rw [hall, hheld, flatMap_cons, append_assoc]

variable {frames : List (UInt16 × List Byte)}

theorem writeV2Frames_ok (h : writeV2Frames response frames sink = (.ok (), sink')) :
    (forall frame, frame ∈ frames -> frame.2.length ≤ v2MaxFramePayload) ∧
      sink'.held = sink.held ++
        (frames.map fun frame => (frame.1, 0, frame.2)).flatMap v2FrameBytes := by
  induction frames generalizing sink with
  | nil =>
    cases h
    exact ⟨by simp, by simp⟩
  | cons frame frames ih =>
    obtain ⟨_, mid, hone, hrest⟩ := andThen_eq_ok h
    obtain ⟨hlen, hheld⟩ := writeV2FrameRaw_ok hone
    obtain ⟨hlens, hall⟩ := ih hrest
    constructor
    · intro other hmem
      cases hmem with
      | head => exact hlen
      | tail _ hmem => exact hlens other hmem
    · rw [hall, hheld, map_cons, flatMap_cons, append_assoc]

/-!
## What a frame reader takes from a stream
-/

theorem readV1Frame_header {header rest : List Byte} (hlen : header.length = v1HeaderLen)
    (h : Chunked chunks (header ++ rest)) :
    exists chunks', Chunked chunks' rest ∧
      readV1Frame chunks =
        if v1MaxMsgLength < ofBeBytes (header.drop 1) then
          (.error (v1LengthError header), chunks')
        else
          andThen (readLabelled "read V1 payload: " (ofBeBytes (header.drop 1)) chunks')
            fun payload chunks => (.ok (header.headD 0, payload), chunks) := by
  obtain ⟨chunks', hread, hrest⟩ := readLabelled_chunked "read V1 header: " h
  refine ⟨chunks', hrest, ?_⟩
  unfold readV1Frame
  rw [← hlen, hread, andThen_ok]

theorem readV1Frame_payload {header payload rest : List Byte} (hlen : header.length = v1HeaderLen)
    (hdeclared : ofBeBytes (header.drop 1) = payload.length)
    (hsize : payload.length ≤ v1MaxMsgLength) (h : Chunked chunks (header ++ payload ++ rest)) :
    exists chunks', readV1Frame chunks = (.ok (header.headD 0, payload), chunks') ∧
      Chunked chunks' rest := by
  rw [append_assoc] at h
  obtain ⟨mid, hmid, hread⟩ := readV1Frame_header hlen h
  obtain ⟨chunks', hpayload, hrest⟩ := readLabelled_chunked "read V1 payload: " hmid
  refine ⟨chunks', ?_, hrest⟩
  rw [hread, hdeclared, if_neg (Nat.not_lt_of_le hsize), hpayload, andThen_ok]

theorem readV2Frame_header {header rest : List Byte} (hlen : header.length = v2FrameHeaderLen)
    (hflags : readU16Be (header.drop 2) = 0) (h : Chunked chunks (header ++ rest)) :
    exists chunks', Chunked chunks' rest ∧
      readV2FrameHeader chunks =
        if v2MaxFramePayload < ofBeBytes (header.drop 4) then
          (.error (v2LengthError (ofBeBytes (header.drop 4))), chunks')
        else (.ok (readU16Be header, 0, ofBeBytes (header.drop 4)), chunks') := by
  obtain ⟨chunks', hread, hrest⟩ := readLabelled_chunked "read V2 frame: " h
  refine ⟨chunks', hrest, ?_⟩
  unfold readV2FrameHeader
  rw [← hlen, hread, andThen_ok]
  simp only [hflags, ne_eq, not_true_eq_false, if_false]

theorem readV2Frame_payload {header payload rest : List Byte}
    (hlen : header.length = v2FrameHeaderLen) (hflags : readU16Be (header.drop 2) = 0)
    (hdeclared : ofBeBytes (header.drop 4) = payload.length)
    (hsize : payload.length ≤ v2MaxFramePayload) (h : Chunked chunks (header ++ payload ++ rest)) :
    exists chunks', readV2FrameRaw chunks = (.ok (readU16Be header, 0, payload), chunks') ∧
      Chunked chunks' rest := by
  rw [append_assoc] at h
  obtain ⟨mid, hmid, hread⟩ := readV2Frame_header hlen hflags h
  obtain ⟨chunks', hpayload, hrest⟩ := readLabelled_chunked "read V2 payload: " hmid
  refine ⟨chunks', ?_, hrest⟩
  unfold readV2FrameRaw
  rw [hread, hdeclared, if_neg (Nat.not_lt_of_le hsize), andThen_ok, hpayload, andThen_ok]

theorem readV2FrameRaw_ok {chunks rest : List (List Byte)} {frameType flags : UInt16}
    (h : readV2FrameRaw chunks = (.ok (frameType, flags, payload), rest)) :
    flags = 0 ∧ payload.length ≤ v2MaxFramePayload := by
  rcases andThen_eq_ok h with ⟨header, mid, hheader, hbody⟩
  rcases andThen_eq_ok hbody with ⟨body, rest', hread, hresult⟩
  cases hresult
  rcases andThen_eq_ok hheader with ⟨raw, mid', _, hchecked⟩
  dsimp only at hchecked
  split at hchecked
  · cases hchecked
  · rename_i hflags
    split at hchecked
    · cases hchecked
    · rename_i hsize
      cases hchecked
      constructor
      · exact not_not.mp hflags
      · unfold readLabelled at hread
        split at hread
        · cases hread
        · rename_i bytes rest'' hexact
          cases hread
          rw [readExact_length hexact]
          exact Nat.le_of_not_lt hsize

/-!
## Headers declare the payload length
-/

theorem v1Header_length (typeByte : Byte) (n : Nat) :
    (v1Header typeByte n).length = v1HeaderLen := by
  simp [v1Header, v1HeaderLen]

theorem v1Header_declared (typeByte : Byte) {n : Nat} (h : n ≤ v1MaxMsgLength) :
    ofBeBytes ((v1Header typeByte n).drop 1) = n := by
  unfold v1MaxMsgLength at h
  unfold v1Header
  rw [drop_succ_cons, drop_zero, ofBeBytes_beBytes]
  exact Nat.mod_eq_of_lt (by omega)

variable (frameType flags : UInt16)

theorem v2Header_length (n : Nat) :
    (v2Header frameType flags n).length = v2FrameHeaderLen := by
  simp [v2Header, v2FrameHeaderLen]

theorem v2Header_flags (n : Nat) :
    readU16Be ((v2Header frameType flags n).drop 2) = flags := by
  unfold v2Header
  rw [drop_append_of_le_length (by simp), drop_of_length_le (by simp),
    nil_append, readU16Be_append]

theorem v2Header_declared {n : Nat} (h : n ≤ v2MaxFramePayload) :
    ofBeBytes ((v2Header frameType flags n).drop 4) = n := by
  unfold v2MaxFramePayload at h
  unfold v2Header
  rw [← append_assoc, drop_append_of_le_length (by simp),
    drop_of_length_le (by simp), nil_append, ofBeBytes_beBytes]
  exact Nat.mod_eq_of_lt (by omega)

theorem v1Frames_yield {frames : List (Byte × List Byte)}
    (hlens : forall frame, frame ∈ frames -> frame.2.length ≤ v1MaxMsgLength)
    (h : Chunked chunks (frames.flatMap v1FrameBytes)) :
    Yields readV1Frame chunks frames "read V1 header: early eof" := by
  apply yields_flatMap frames _ rfl h
  intro frame hmem rest chunks hchunks
  exact readV1Frame_payload (v1Header_length _ _) (v1Header_declared _ (hlens frame hmem))
    (hlens frame hmem) hchunks

theorem v2Frames_yield
    (hlens : forall frame, frame ∈ frames -> frame.2.length ≤ v2MaxFramePayload) (h : Chunked chunks
      ((frames.map fun frame => (frame.1, 0, frame.2)).flatMap v2FrameBytes)) :
    Yields readV2FrameRaw chunks (frames.map fun frame => (frame.1, 0, frame.2))
      "read V2 frame: early eof" := by
  apply yields_flatMap _ _ rfl h
  intro frame hmem rest chunks hchunks
  rw [mem_map] at hmem
  rcases hmem with ⟨source, hsource, rfl⟩
  have hread := readV2Frame_payload (v2Header_length source.1 0 _) (v2Header_flags _ _ _)
    (v2Header_declared _ _ (hlens source hsource)) (hlens source hsource) hchunks
  rw [v2Header, readU16Be_append] at hread
  exact hread

/-!
## The size limits of writer and reader
-/

theorem v1_size_rejected_iff (codec : MessageCodec Msg) (response : Nat -> Except String Nat)
    {msg : Msg} (w : V1Writer) (hser : codec.toWriter msg = .ok payload) :
    (writeV1FrameScratch codec response msg w).1 = .error "V1 message too large" ↔
      v1MaxMsgLength < payload.length := by
  unfold writeV1FrameScratch
  simp only [hser]
  by_cases hlen : v1MaxMsgLength < payload.length
  · exact iff_of_true (by rw [if_pos hlen]) hlen
  · apply iff_of_false _ hlen
    rw [if_neg hlen]
    intro herr
    obtain ⟨cause, htext⟩ := writeFrame_error herr
    have hchars := congrArg String.toList htext
    simp at hchars

theorem v1_length_rejected_iff (hlen : header.length = v1HeaderLen)
    (hdeclared : ofBeBytes (header.drop 1) = payload.length)
    (h : Chunked chunks (header ++ payload)) :
    (readV1Frame chunks).1 = .error (v1LengthError header) ↔
      v1MaxMsgLength < payload.length := by
  by_cases hsize : v1MaxMsgLength < payload.length
  · obtain ⟨rest, _, hread⟩ := readV1Frame_header hlen h
    rw [hread, hdeclared, if_pos hsize]
    simp only [hsize]
  · have hall : Chunked chunks (header ++ payload ++ []) := by
      rw [append_nil]
      exact h
    obtain ⟨rest, hread, _⟩ :=
      readV1Frame_payload hlen hdeclared (Nat.le_of_not_lt hsize) hall
    rw [hread]
    simp [hsize]

theorem v2TooLarge_start (n : Nat) : exists rest, v2TooLarge n = "V2 " ++ rest := by
  refine ⟨"payload too large: " ++ toString n ++ " > " ++ toString v2MaxFramePayload, ?_⟩
  rfl

theorem v2_size_rejected_iff (response : Nat -> Except String Nat)
    (frameType flags : UInt16) (payload : List Byte) (sink : Sink) :
    (writeV2FrameRaw response frameType flags payload sink).1 =
        .error (v2TooLarge payload.length) ↔
      v2MaxFramePayload < payload.length := by
  unfold writeV2FrameRaw
  by_cases hlen : v2MaxFramePayload < payload.length
  · exact iff_of_true (by rw [if_pos hlen]) hlen
  · apply iff_of_false _ hlen
    rw [if_neg hlen]
    intro herr
    obtain ⟨cause, htext⟩ := writeFrame_error herr
    obtain ⟨rest, hstart⟩ := v2TooLarge_start payload.length
    have hchars := congrArg String.toList (hstart.symm.trans htext)
    simp at hchars

theorem v2_length_rejected_iff (hlen : header.length = v2FrameHeaderLen)
    (hflags : readU16Be (header.drop 2) = 0)
    (hdeclared : ofBeBytes (header.drop 4) = payload.length)
    (h : Chunked chunks (header ++ payload)) :
    (readV2FrameRaw chunks).1 = .error (v2LengthError payload.length) ↔
      v2MaxFramePayload < payload.length := by
  by_cases hsize : v2MaxFramePayload < payload.length
  · obtain ⟨rest, _, hread⟩ := readV2Frame_header hlen hflags h
    unfold readV2FrameRaw
    rw [hread, hdeclared, if_pos hsize, andThen_error]
    simp only [hsize]
  · have hall : Chunked chunks (header ++ payload ++ []) := by
      rw [append_nil]
      exact h
    obtain ⟨rest, hread, _⟩ :=
      readV2Frame_payload hlen hflags hdeclared (Nat.le_of_not_lt hsize) hall
    rw [hread]
    simp [hsize]

/-!
## Framing is transparent
-/

theorem writeV1Frames_accepting (hacc : Accepting response)
    {msgs : List Msg}
    (hmsgs : forall msg, msg ∈ msgs -> exists payload, codec.toWriter msg = .ok payload ∧
      payload.length ≤ v1MaxMsgLength) (w : V1Writer) :
    exists w', writeV1Frames codec response msgs w = (.ok (), w') := by
  induction msgs generalizing w with
  | nil =>
    exact ⟨w, rfl⟩
  | cons msg msgs ih =>
    obtain ⟨payload, hser, hlen⟩ := hmsgs msg (by simp)
    have hone : (writeV1FrameScratch codec response msg w).1 = .ok () := by
      unfold writeV1FrameScratch
      simp only [hser, if_neg (Nat.not_lt_of_le hlen)]
      exact writeFrame_accepting hacc _ _ _ _ _
    obtain ⟨w', hrest⟩ := ih (fun other hmem => hmsgs other (mem_cons_of_mem msg hmem))
      (writeV1FrameScratch codec response msg w).2
    have hpair : writeV1FrameScratch codec response msg w =
        (.ok (), (writeV1FrameScratch codec response msg w).2) := Prod.ext hone rfl
    refine ⟨w', ?_⟩
    rw [writeV1Frames, hpair, andThen_ok]
    exact hrest

theorem writeV2Frames_accepting (hacc : Accepting response)
    (hframes : forall frame, frame ∈ frames -> frame.2.length ≤ v2MaxFramePayload) (sink : Sink) :
    exists sink', writeV2Frames response frames sink = (.ok (), sink') := by
  induction frames generalizing sink with
  | nil =>
    exact ⟨sink, rfl⟩
  | cons frame frames ih =>
    have hone : (writeV2FrameRaw response frame.1 0 frame.2 sink).1 = .ok () := by
      unfold writeV2FrameRaw
      rw [if_neg (Nat.not_lt_of_le (hframes frame (by simp)))]
      exact writeFrame_accepting hacc _ _ _ _ _
    obtain ⟨sink', hrest⟩ := ih (fun other hmem => hframes other
      (mem_cons_of_mem frame hmem)) (writeV2FrameRaw response frame.1 0 frame.2 sink).2
    have hpair : writeV2FrameRaw response frame.1 0 frame.2 sink =
        (.ok (), (writeV2FrameRaw response frame.1 0 frame.2 sink).2) := Prod.ext hone rfl
    refine ⟨sink', ?_⟩
    rw [writeV2Frames, hpair, andThen_ok]
    exact hrest

/-- Whatever part of each vectored write the sink accepts, frames that were all
written lie in the sink one after another, and reading them back in any chunks
returns the same frames and then the end of the stream.  Writer and reader draw
the same line between payload sizes. -/
theorem frames_read_back {Msg : Type} (codec : MessageCodec Msg)
    (response : Nat -> Except String Nat) :
    (forall (msgs : List Msg) (w w' : V1Writer),
      writeV1Frames codec response msgs w = (.ok (), w') ->
      exists frames : List (Byte × List Byte),
        msgs.map codec.v1Frame = frames.map Except.ok ∧
        w'.sink.held = w.sink.held ++ frames.flatMap v1FrameBytes ∧
        forall chunks, Chunked chunks (frames.flatMap v1FrameBytes) ->
          Yields readV1Frame chunks frames "read V1 header: early eof") ∧
    (forall (msg : Msg) (payload header : List Byte) (w : V1Writer)
      (chunks : List (List Byte)),
      codec.toWriter msg = .ok payload ->
      header.length = v1HeaderLen -> ofBeBytes (header.drop 1) = payload.length ->
      Chunked chunks (header ++ payload) ->
      ((writeV1FrameScratch codec response msg w).1 = .error "V1 message too large" ↔
        (readV1Frame chunks).1 = .error (v1LengthError header))) ∧
    (forall (frames : List (UInt16 × List Byte)) (sink sink' : Sink),
      writeV2Frames response frames sink = (.ok (), sink') ->
      sink'.held = sink.held ++
          (frames.map fun frame => (frame.1, 0, frame.2)).flatMap v2FrameBytes ∧
        forall chunks, Chunked chunks
            ((frames.map fun frame => (frame.1, 0, frame.2)).flatMap v2FrameBytes) ->
          Yields readV2FrameRaw chunks (frames.map fun frame => (frame.1, 0, frame.2))
            "read V2 frame: early eof") ∧
    (forall (frameType flags : UInt16) (payload header : List Byte) (sink : Sink)
      (chunks : List (List Byte)),
      header.length = v2FrameHeaderLen -> readU16Be (header.drop 2) = 0 ->
      ofBeBytes (header.drop 4) = payload.length ->
      Chunked chunks (header ++ payload) ->
      ((writeV2FrameRaw response frameType flags payload sink).1 =
          .error (v2TooLarge payload.length) ↔
        (readV2FrameRaw chunks).1 = .error (v2LengthError payload.length))) := by
  refine ⟨?_, ?_, ?_, ?_⟩
  · intro msgs w w' h
    obtain ⟨frames, hframes, hlens, hheld⟩ := writeV1Frames_ok h
    refine ⟨frames, hframes, hheld, ?_⟩
    intro chunks hchunks
    exact v1Frames_yield hlens hchunks
  · intro msg payload header w chunks hser hlen hdeclared hchunks
    rw [v1_size_rejected_iff codec response w hser,
      v1_length_rejected_iff hlen hdeclared hchunks]
  · intro frames sink sink' h
    obtain ⟨hlens, hheld⟩ := writeV2Frames_ok h
    refine ⟨hheld, ?_⟩
    intro chunks hchunks
    exact v2Frames_yield hlens hchunks
  · intro frameType flags payload header sink chunks hlen hflags hdeclared hchunks
    rw [v2_size_rejected_iff, v2_length_rejected_iff hlen hflags hdeclared hchunks]

def rawCodec : MessageCodec (Byte × List Byte) :=
  { v1TypeByte := Prod.fst, toWriter := fun msg => .ok msg.2 }

/-- A V1 message of two bytes and an empty one, and a V2 message with type id 1,
written and read back one byte at a time. -/
theorem frames_read_back_bytewise :
    (exists w', writeV1Frames rawCodec (fun _ => .ok 1) [(111, [123, 125]), (104, [])]
        ⟨[], ⟨[], 0⟩⟩ = (.ok (), w') ∧
      w'.sink.held = [111, 0, 0, 0, 0, 0, 0, 0, 2, 123, 125, 104, 0, 0, 0, 0, 0, 0, 0, 0] ∧
      Yields readV1Frame (w'.sink.held.map fun b => [b]) [(111, [123, 125]), (104, [])]
        "read V1 header: early eof") ∧
    exists sink', writeV2Frames (fun _ => .ok 1) [(v2FrameTypeMessage, u16Be 1 ++ [123, 125])]
        ⟨[], 0⟩ = (.ok (), sink') ∧
      sink'.held = [0, 16, 0, 0, 0, 0, 0, 4, 0, 1, 123, 125] ∧
      Yields readV2FrameRaw (sink'.held.map fun b => [b]) [(16, 0, [0, 1, 123, 125])]
        "read V2 frame: early eof" := by
  have hacc : Accepting (fun _ => .ok 1) := fun _ => ⟨0, rfl⟩
  constructor
  · have hmsgs : forall msg, msg ∈ [((111 : Byte), [(123 : Byte), 125]), (104, [])] ->
        exists payload, rawCodec.toWriter msg = .ok payload ∧
          payload.length ≤ v1MaxMsgLength := by
      intro msg hmem
      refine ⟨msg.2, rfl, ?_⟩
      revert msg
      decide
    obtain ⟨w', hw⟩ := writeV1Frames_accepting hacc hmsgs ⟨[], ⟨[], 0⟩⟩
    obtain ⟨frames, hframes, hheld, hread⟩ := (frames_read_back _ _).1 _ _ _ hw
    have hsame : [((111 : Byte), [(123 : Byte), 125]), (104, [])] = frames :=
      (map_inj_right fun _ _ hab => Except.ok.inj hab).mp hframes
    rw [← hsame] at hheld hread
    refine ⟨w', hw, hheld, hread _ ?_⟩
    rw [hheld]
    exact chunked_bytewise _
  · have hframes : forall frame,
        frame ∈ [(v2FrameTypeMessage, u16Be 1 ++ [(123 : Byte), 125])] ->
        frame.2.length ≤ v2MaxFramePayload := by
      decide
    obtain ⟨sink', hw⟩ := writeV2Frames_accepting hacc hframes ⟨[], 0⟩
    obtain ⟨hheld, hread⟩ := (frames_read_back rawCodec _).2.2.1 _ _ _ hw
    refine ⟨sink', hw, hheld, hread _ ?_⟩
    rw [hheld]
    exact chunked_bytewise _

end Protocol
end FrpRs
