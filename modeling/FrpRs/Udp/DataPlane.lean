import FrpRs.Protocol.Frame
import FrpRs.Udp.Native

/-!
# Messages of the UDP data plane

The readers and the writer of `frp-core/src/protocol.rs` on a connection that may have agreed on
the binary codec for UDP packets.  All other messages travel as JSON, which is a parameter.  The
scratch buffers are cleared before every use, and flushing is the transport's own.
-/

namespace FrpRs
namespace Udp

open List Bytes Fallible ByteStream
open Protocol (v2FrameTypeMessage v2TooLarge v2Header v2FrameBytes writeV2FrameRaw readLabelled
  readV2FrameHeader v2MaxFramePayload)

inductive FrpMessage (Other : Type) where
  | udpPacket (packet : UDPPacket)
  | other (msg : Other)

def v2TypeUdpPacket : UInt16 := 13
def v2TypeUdpPacketBinary : UInt16 := 19

/-- Type ids and JSON texts.  What is serialized is read back under its own type id, and the type id
of UDP packets is theirs alone. -/
structure JsonCodec (Other : Type) where
  typeId : Other -> UInt16
  toWriter : FrpMessage Other -> Except String (List Byte)
  deserializeV2 : UInt16 -> List Byte -> Except String (FrpMessage Other)
  typeId_ne : forall msg, typeId msg ≠ v2TypeUdpPacket ∧ typeId msg ≠ v2TypeUdpPacketBinary
  packet_back : forall packet json, toWriter (.udpPacket packet) = .ok json ->
    deserializeV2 v2TypeUdpPacket json = .ok (.udpPacket packet)
  packet_only : forall typeId json packet,
    deserializeV2 typeId json = .ok (.udpPacket packet) -> typeId = v2TypeUdpPacket
  other_back : forall msg json, toWriter (.other msg) = .ok json ->
    deserializeV2 (typeId msg) json = .ok (.other msg)

variable {Other : Type} (net : NetText) (codec : JsonCodec Other) (bufferSize : Nat)
  (response : Nat -> Except String Nat) (udpPacketCodec : Option String)

def JsonCodec.v2TypeId : FrpMessage Other -> UInt16
  | .udpPacket _ => v2TypeUdpPacket
  | .other msg => codec.typeId msg

/-!
## Writing
-/

def writeAll (buf : List Byte) (sink : Sink) : Except String Unit × Sink :=
  if buf = [] then (.ok (), sink)
  else
    match sink.writeVectored response [buf] with
    | (.error e, next) => (.error e, next)
    | (.ok n, next) =>
      if n = 0 then (.error "write zero", next) else writeAll (buf.drop n) next
termination_by buf.length
decreasing_by
  rename_i hmore hn
  have hpos := length_pos_iff.mpr hmore
  rw [length_drop]
  omega

def writeMsgV2Inner (msg : FrpMessage Other) (sink : Sink) : Except String Unit × Sink :=
  match codec.toWriter msg with
  | .error e => (.error ("V2 JSON serialize: " ++ e), sink)
  | .ok json =>
    let payload := u16Be (codec.v2TypeId msg) ++ json
    if v2MaxFramePayload < payload.length then (.error (v2TooLarge payload.length), sink)
    else
      match writeAll response (v2FrameBytes (v2FrameTypeMessage, 0, payload)) sink with
      | (.error e, sink) => (.error ("write V2 msg: " ++ e), sink)
      | (.ok (), sink) => (.ok (), sink)

def writeMsgV2WithUdpCodec (msg : FrpMessage Other) (sink : Sink) : Except String Unit × Sink :=
  match msg with
  | .udpPacket packet =>
    if udpPacketCodec = some udpPacketCodecBinary then
      match encodeUdpPacketBinaryInto net packet (u16Be v2TypeUdpPacketBinary) with
      | (.error e, _) => (.error ("encode binary UDP packet: " ++ e), sink)
      | (.ok (), scratch) => writeV2FrameRaw response v2FrameTypeMessage 0 scratch sink
    else writeMsgV2Inner codec response msg sink
  | .other _ => writeMsgV2Inner codec response msg sink

def writeMsgs : List (FrpMessage Other) -> Sink -> Except String Unit × Sink
  | [], sink => (.ok (), sink)
  | msg :: msgs, sink =>
    andThen (writeMsgV2WithUdpCodec net codec response udpPacketCodec msg sink) fun _ sink =>
      writeMsgs msgs sink

/-!
## Reading
-/

def readV2MessageBody (payloadLen : Nat) (chunks : List (List Byte)) :
    Except String (UInt16 × List Byte) × List (List Byte) :=
  andThen (readLabelled "read V2 payload: " 2 chunks) fun typeId chunks =>
    andThen (readLabelled "read V2 payload: " (payloadLen - 2) chunks) fun body chunks =>
      (.ok (readU16Be typeId, body), chunks)

def unexpectedFrameType (frameType : UInt16) : String :=
  "unexpected V2 frame type: " ++ toString frameType.toNat ++ ", expected 16 (Message)"

/-- The first part of both readers: a message frame, as a type id and a body. -/
def readV2Message (chunks : List (List Byte)) :
    Except String (UInt16 × List Byte) × List (List Byte) :=
  andThen (readV2FrameHeader chunks) fun header chunks =>
    if header.1 ≠ v2FrameTypeMessage then (.error (unexpectedFrameType header.1), chunks)
    else if header.2.2 < 2 then (.error "V2 message payload too short", chunks)
    else readV2MessageBody header.2.2 chunks

def decodeError (e : String) : String :=
  "decode binary UDP packet: " ++ e

def jsonAfterNegotiation : String :=
  "received JSON UDP packet after binary codec negotiation"

def decodeMessage (typeId : UInt16) (body : List Byte) : Except String (FrpMessage Other) :=
  if typeId = v2TypeUdpPacketBinary then
    if udpPacketCodec ≠ some udpPacketCodecBinary then
      .error "received binary UDP packet (type 19) without negotiated codec"
    else
      match (decodeUdpPacketBinaryOwned net bufferSize body).1 with
      | .error e => .error (decodeError e)
      | .ok packet => .ok (.udpPacket packet)
  else if udpPacketCodec = some udpPacketCodecBinary ∧ typeId = v2TypeUdpPacket then
    .error jsonAfterNegotiation
  else codec.deserializeV2 typeId body

def readMsgV2WithUdpCodec (chunks : List (List Byte)) :
    Except String (FrpMessage Other) × List (List Byte) :=
  andThen (readV2Message chunks) fun message chunks =>
    (decodeMessage net codec bufferSize udpPacketCodec message.1 message.2, chunks)

inductive UdpBinaryRead (Other : Type) where
  | socket (packet : SocketUdpPacket)
  | message (msg : FrpMessage Other)

/-- A packet with a zone is decoded a second time, to its message form. -/
def decodeSocketMessage (typeId : UInt16) (body : List Byte) :
    Except String (UdpBinaryRead Other) :=
  if typeId = v2TypeUdpPacketBinary then
    match decodeUdpPacketBinarySocketOwned net bufferSize body with
    | (.error e, _) => .error (decodeError e)
    | (.ok (some packet), _) => .ok (.socket packet)
    | (.ok none, body) =>
      match (decodeUdpPacketBinaryOwned net bufferSize body).1 with
      | .error e => .error (decodeError e)
      | .ok packet => .ok (.message (.udpPacket packet))
  else if typeId = v2TypeUdpPacket then .error jsonAfterNegotiation
  else (codec.deserializeV2 typeId body).map .message

def readMsgV2UdpBinarySocket (chunks : List (List Byte)) :
    Except String (UdpBinaryRead Other) × List (List Byte) :=
  andThen (readV2Message chunks) fun message chunks =>
    (decodeSocketMessage net codec bufferSize message.1 message.2, chunks)

/-!
## What is written is read back
-/

variable {net codec bufferSize response udpPacketCodec}

/-- A packet as the binary codec carries it. -/
def UDPPacket.canonical (net : NetText) (packet : UDPPacket) : UDPPacket :=
  { packet with
    localAddr := packet.localAddr.map (canonicalAddr net)
    remoteAddr := packet.remoteAddr.map (canonicalAddr net) }

def received (net : NetText) (udpPacketCodec : Option String) :
    FrpMessage Other -> FrpMessage Other
  | .udpPacket packet =>
    .udpPacket (if udpPacketCodec = some udpPacketCodecBinary then packet.canonical net else packet)
  | .other msg => .other msg

theorem writeAll_ok {buf : List Byte} {sink sink' : Sink}
    (h : writeAll response buf sink = (.ok (), sink')) : sink'.held = sink.held ++ buf := by
  fun_induction writeAll response buf sink with
  | case1 sink =>
    cases h
    rw [append_nil]
  | case2 buf sink hmore e next hwrite => cases h
  | case3 buf sink hmore next hwrite => cases h
  | case4 buf sink hmore n next hwrite hn ih =>
    obtain ⟨-, hheld⟩ := writeVectored_ok hwrite
    rw [flatten_singleton] at hheld
    rw [ih h, hheld, append_assoc, take_append_drop]

theorem encodeInto_ok {packet : UDPPacket} {out out' : List Byte}
    (h : encodeUdpPacketBinaryInto net packet out = (.ok (), out')) :
    exists body, encodeUdpPacketBinary net packet = .ok body ∧ out' = out ++ body := by
  rw [encodeUdpPacketBinary]
  unfold encodeUdpPacketBinaryInto at h ⊢
  cases hremote : packet.remoteAddr with
  | none =>
    rw [hremote] at h
    cases h
  | some remote =>
    simp only [hremote] at h ⊢
    by_cases hlong : packet.content.length > maxUdpPayloadSize
    · rw [if_pos hlong] at h
      cases h
    · rw [if_neg hlong] at h ⊢
      cases hlocal : mapTranspose (udpAddrToEnc net) packet.localAddr with
      | error e =>
        rw [hlocal] at h
        cases h
      | ok localB =>
        cases hremoteB : udpAddrToEnc net remote with
        | error e =>
          simp only [hlocal, hremoteB] at h
          cases h
        | ok remoteB =>
          simp only [hlocal, hremoteB, encodeBody_eq] at h ⊢
          split_ifs at h ⊢ with hfits
          · cases h
          · cases h
            exact ⟨_, rfl, rfl⟩

theorem decodeOwned_eq (body : List Byte) :
    (decodeUdpPacketBinaryOwned net bufferSize body).1 = decodeUdpPacketBinary net body := by
  unfold decodeUdpPacketBinaryOwned decodeUdpPacketBinary
  cases hheader : parseUdpPacketHeader net body with
  | error e => rfl
  | ok h =>
    have hpayload : (body.drop h.payloadOffset).length = h.payloadLen := by
      unfold parseUdpPacketHeader at hheader
      cases hparse : parseUdpPacketHeaderParts net body with
      | error e =>
        rw [hparse] at hheader
        cases hheader
      | ok parts =>
        simp only [hparse] at hheader
        split at hheader
        · cases hheader
        · split at hheader
          · cases hheader
          · cases hheader
            exact (parseUdpPacketHeaderParts_ok hparse).2.2.1
    simp only [takeOrCopyPayload_content bufferSize hpayload]

theorem writeMsgV2Inner_ok {msg : FrpMessage Other} {sink sink' : Sink}
    (h : writeMsgV2Inner codec response msg sink = (.ok (), sink')) :
    exists json, codec.toWriter msg = .ok json ∧
      (u16Be (codec.v2TypeId msg) ++ json).length ≤ v2MaxFramePayload ∧
      sink'.held = sink.held ++
        v2FrameBytes (v2FrameTypeMessage, 0, u16Be (codec.v2TypeId msg) ++ json) := by
  unfold writeMsgV2Inner at h
  cases hjson : codec.toWriter msg with
  | error e =>
    rw [hjson] at h
    cases h
  | ok json =>
    simp only [hjson] at h
    split_ifs at h with hlarge
    · cases h
    · split at h
      · cases h
      · rename_i hwrite
        cases h
        exact ⟨json, rfl, Nat.le_of_not_lt hlarge, writeAll_ok hwrite⟩

variable (bufferSize) in
/-- One call leaves a message frame in the sink, and the frame decodes to the message. -/
theorem writeMsg_ok {msg : FrpMessage Other} {sink sink' : Sink}
    (h : writeMsgV2WithUdpCodec net codec response udpPacketCodec msg sink = (.ok (), sink')) :
    exists typeId body,
      (u16Be typeId ++ body).length ≤ v2MaxFramePayload ∧
      sink'.held = sink.held ++ v2FrameBytes (v2FrameTypeMessage, 0, u16Be typeId ++ body) ∧
      decodeMessage net codec bufferSize udpPacketCodec typeId body =
        .ok (received net udpPacketCodec msg) := by
  cases msg with
  | udpPacket packet =>
    rw [writeMsgV2WithUdpCodec] at h
    split_ifs at h with hbinary
    · cases hencode : encodeUdpPacketBinaryInto net packet (u16Be v2TypeUdpPacketBinary) with
      | mk result scratch =>
        cases result with
        | error e =>
          rw [hencode] at h
          cases h
        | ok done =>
          rw [hencode] at h
          obtain ⟨body, hbody, rfl⟩ := encodeInto_ok hencode
          obtain ⟨hlen, hheld⟩ := Protocol.writeV2FrameRaw_ok h
          refine ⟨v2TypeUdpPacketBinary, body, hlen, hheld, ?_⟩
          rw [decodeMessage, if_pos rfl, if_neg (not_not.mpr hbinary), decodeOwned_eq,
            decode_encode hbody, received, if_pos hbinary]
          rfl
    · obtain ⟨json, hjson, hlen, hheld⟩ := writeMsgV2Inner_ok h
      refine ⟨v2TypeUdpPacket, json, hlen, hheld, ?_⟩
      rw [decodeMessage, if_neg (by decide), if_neg fun hboth => hbinary hboth.1,
        codec.packet_back packet json hjson, received, if_neg hbinary]
  | other msg =>
    obtain ⟨json, hjson, hlen, hheld⟩ := writeMsgV2Inner_ok h
    refine ⟨codec.typeId msg, json, hlen, hheld, ?_⟩
    obtain ⟨hpacket, hbinary⟩ := codec.typeId_ne msg
    rw [decodeMessage, if_neg hbinary, if_neg fun hboth => hpacket hboth.2]
    exact codec.other_back msg json hjson

theorem readV2Message_frame {typeId : UInt16} {body rest : List Byte} {chunks : List (List Byte)}
    (hlen : (u16Be typeId ++ body).length ≤ v2MaxFramePayload)
    (h : Chunked chunks (v2FrameBytes (v2FrameTypeMessage, 0, u16Be typeId ++ body) ++ rest)) :
    exists chunks',
      readV2Message chunks = (.ok (typeId, body), chunks') ∧ Chunked chunks' rest := by
  rw [v2FrameBytes, append_assoc] at h
  obtain ⟨mid, hmid, hheader⟩ := Protocol.readV2Frame_header (Protocol.v2Header_length _ _ _)
    (Protocol.v2Header_flags _ _ _) h
  rw [Protocol.v2Header_declared _ _ hlen, if_neg (Nat.not_lt_of_le hlen), v2Header,
    readU16Be_append] at hheader
  rw [append_assoc] at hmid
  obtain ⟨tail, htype, htail⟩ := Protocol.readLabelled_chunked "read V2 payload: " hmid
  obtain ⟨chunks', hbody, hrest⟩ := Protocol.readLabelled_chunked "read V2 payload: " htail
  refine ⟨chunks', ?_, hrest⟩
  have hlong : (u16Be typeId ++ body).length = body.length + 2 := by
    rw [length_append, Nat.add_comm]
    rfl
  rw [readV2Message, hheader, andThen_ok]
  simp only [hlong, ne_eq, not_true_eq_false, if_false]
  rw [if_neg (by omega), readV2MessageBody, show 2 = (u16Be typeId).length from rfl, htype,
    andThen_ok, Nat.add_sub_cancel, hbody, andThen_ok]
  have hid := readU16Be_append typeId []
  rw [append_nil] at hid
  rw [hid]

/-- Messages that were all written are read back one after another, whatever the sink accepts at
once and wherever the reads end: UDP packets as the negotiated codec carries them, all others as
they are. -/
theorem udp_messages_read_back {msgs : List (FrpMessage Other)} {sink sink' : Sink}
    (h : writeMsgs net codec response udpPacketCodec msgs sink = (.ok (), sink')) :
    exists bytes, sink'.held = sink.held ++ bytes ∧ forall chunks, Chunked chunks bytes ->
      Yields (readMsgV2WithUdpCodec net codec bufferSize udpPacketCodec) chunks
        (msgs.map (received net udpPacketCodec)) "read V2 frame: early eof" := by
  induction msgs generalizing sink with
  | nil =>
    cases h
    refine ⟨[], (append_nil _).symm, fun chunks hchunks => ?_⟩
    rw [chunked_nil hchunks]
    exact ⟨rfl, rfl⟩
  | cons msg msgs ih =>
    obtain ⟨_, mid, hone, hrest⟩ := andThen_eq_ok h
    obtain ⟨typeId, body, hlen, hheld, hdecode⟩ := writeMsg_ok bufferSize hone
    obtain ⟨bytes, hheld', hyields⟩ := ih hrest
    refine ⟨v2FrameBytes (v2FrameTypeMessage, 0, u16Be typeId ++ body) ++ bytes, ?_, ?_⟩
    · rw [hheld', hheld, append_assoc]
    · intro chunks hchunks
      obtain ⟨chunks', hread, hnext⟩ := readV2Message_frame hlen hchunks
      refine ⟨chunks', ?_, hyields chunks' hnext⟩
      rw [readMsgV2WithUdpCodec, hread, andThen_ok, hdecode]

/-- An empty pong. -/
def pongCodec : JsonCodec Unit where
  typeId _ := 12
  toWriter
    | .udpPacket _ => .error "no JSON for packets"
    | .other _ => .ok (utf8 "\x7b\x7d")
  deserializeV2 typeId _ :=
    if typeId = 12 then .ok (.other ()) else .error "unknown V2 message type ID"
  typeId_ne := fun _ => by decide
  packet_back := by
    intro packet json h
    cases h
  packet_only := by
    intro typeId json packet h
    split_ifs at h
    cases h
  other_back := by
    intro msg json h
    rfl

theorem udp_messages_read_back_packet :
    exists sink', writeMsgs sampleNet pongCodec (fun _ => .ok 1) (some udpPacketCodecBinary)
        [.udpPacket samplePacket] ⟨[], 0⟩ = (.ok (), sink') ∧
      exists bytes, sink'.held = [] ++ bytes ∧ forall chunks, Chunked chunks bytes ->
        Yields (readMsgV2WithUdpCodec sampleNet pongCodec 32768 (some udpPacketCodecBinary)) chunks
          [.udpPacket (samplePacket.canonical sampleNet)] "read V2 frame: early eof" := by
  have hencode : encodeUdpPacketBinaryInto sampleNet samplePacket (u16Be v2TypeUdpPacketBinary) =
      (.ok (), u16Be v2TypeUdpPacketBinary ++ sampleBody) := by decide +kernel
  have hwritten : (writeMsgV2WithUdpCodec sampleNet pongCodec (fun _ => .ok 1)
      (some udpPacketCodecBinary) (.udpPacket samplePacket) ⟨[], 0⟩).1 = .ok () := by
    rw [writeMsgV2WithUdpCodec, if_pos rfl, hencode]
    change (writeV2FrameRaw _ _ _ _ _).1 = _
    rw [writeV2FrameRaw, if_neg (by decide)]
    exact Protocol.writeFrame_accepting (fun _ => ⟨0, rfl⟩) _ _ _ _ _
  have hpair (sink : Sink) : writeMsgV2WithUdpCodec sampleNet pongCodec (fun _ => .ok 1)
        (some udpPacketCodecBinary) (.udpPacket samplePacket) ⟨[], 0⟩ = (.ok (), sink) ->
      writeMsgs sampleNet pongCodec (fun _ => .ok 1) (some udpPacketCodecBinary)
        [.udpPacket samplePacket] ⟨[], 0⟩ = (.ok (), sink) := by
    intro hone
    rw [writeMsgs, hone, andThen_ok, writeMsgs]
  have hall := hpair _ (Prod.ext hwritten rfl)
  exact ⟨_, hall, udp_messages_read_back hall⟩

/-!
## The two readers
-/

def UDPPacket.hasZone (packet : UDPPacket) : Bool :=
  packet.localAddr.any (fun addr => addr.zone ≠ "") ||
    packet.remoteAddr.any fun addr => addr.zone ≠ ""

/-- A packet without zones with its addresses parsed, any other message as it is. -/
def native (net : NetText) : FrpMessage Other -> UdpBinaryRead Other
  | .udpPacket packet =>
    match packet.remoteAddr.bind (udpAddrToSocket net) with
    | some remote =>
      if packet.hasZone then .message (.udpPacket packet)
      else
        .socket
          { content := packet.content
            localAddr := packet.localAddr.bind (udpAddrToSocket net)
            remoteAddr := remote }
    | none => .message (.udpPacket packet)
  | .other msg => .message (.other msg)

theorem decodeSocketMessage_packet (hback : forall ip, net.ReadsBack ip) (body : List Byte) :
    decodeSocketMessage net codec bufferSize v2TypeUdpPacketBinary body =
      (decodeMessage net codec bufferSize (some udpPacketCodecBinary) v2TypeUdpPacketBinary body).map
        (native net) := by
  rw [decodeSocketMessage, if_pos rfl, decodeMessage, if_pos rfl, if_neg (not_not.mpr rfl)]
  cases hparse : parseUdpPacketHeaderParts net body with
  | error e =>
    obtain ⟨hmessage, hsocket⟩ := decoders_of_error hparse bufferSize
    rw [hmessage, hsocket]
    rfl
  | ok h =>
    obtain ⟨localAddr, remoteAddr, localSocket, remoteSocket, hmessage, hzoned, hplain, hlocal,
      hremote⟩ := decoders_of_header hback hparse
    obtain ⟨left, hmessage⟩ := hmessage bufferSize
    have hlocal' : localAddr.bind (udpAddrToSocket net) = localSocket := by
      cases localAddr with
      | none =>
        cases localSocket with
        | none => rfl
        | some socket => cases hlocal
      | some addr =>
        cases localSocket with
        | none => cases hlocal
        | some socket => exact Option.some.inj hlocal
    have hflag (content : List Byte) :
        UDPPacket.hasZone ⟨content, localAddr, some remoteAddr⟩ = true <->
        (exists addr, localAddr = some addr ∧ addr.zone ≠ "") ∨ remoteAddr.zone ≠ "" := by
      cases localAddr <;> simp [UDPPacket.hasZone]
    by_cases hzone : (exists addr, localAddr = some addr ∧ addr.zone ≠ "") ∨ remoteAddr.zone ≠ ""
    · rw [hzoned hzone bufferSize]
      simp only [hmessage, native, Except.map, Option.bind_some, hremote,
        if_pos ((hflag _).mpr hzone)]
    · obtain ⟨left', hsocket⟩ := hplain hzone bufferSize
      rw [hsocket]
      simp only [hmessage, native, Except.map, Option.bind_some, hremote, hlocal',
        if_neg fun hset => hzone ((hflag _).mp hset)]

/-- On every stream the reader that skips the text of addresses takes the same bytes as the plain
one, fails with the same errors, and returns the same messages, with the addresses of packets parsed
where no zone stands in the way. -/
theorem udp_readers_agree (utf8Error : List Byte -> String) (codec : JsonCodec Other)
    (bufferSize : Nat) (chunks : List (List Byte)) :
    readMsgV2UdpBinarySocket (stdNet utf8Error) codec bufferSize chunks =
      let r := readMsgV2WithUdpCodec (stdNet utf8Error) codec bufferSize
        (some udpPacketCodecBinary) chunks
      (r.1.map (native (stdNet utf8Error)), r.2) := by
  rw [readMsgV2UdpBinarySocket, readMsgV2WithUdpCodec]
  cases readV2Message chunks with
  | mk result rest =>
    cases result with
    | error e => rfl
    | ok message =>
      obtain ⟨typeId, body⟩ := message
      simp only [andThen_ok, Prod.mk.injEq, and_true]
      by_cases hbinary : typeId = v2TypeUdpPacketBinary
      · rw [hbinary]
        exact decodeSocketMessage_packet (stdNet_readsBack utf8Error) body
      · rw [decodeSocketMessage, if_neg hbinary, decodeMessage, if_neg hbinary]
        by_cases hpacket : typeId = v2TypeUdpPacket
        · rw [if_pos hpacket, if_pos ⟨rfl, hpacket⟩]
          rfl
        · rw [if_neg hpacket, if_neg fun hboth => hpacket hboth.2]
          cases hjson : codec.deserializeV2 typeId body with
          | error e => rfl
          | ok msg =>
            cases msg with
            | udpPacket packet => exact absurd (codec.packet_only _ _ _ hjson) hpacket
            | other msg => rfl

end Udp
end FrpRs
