import FrpRs.Protocol.Handshake

/-!
# Agreement of the V2 handshake

Whatever an attacker makes of the frames on the way: two sides that end with the same transcript
hash saw the same two payloads and have agreed on the algorithm and on the codec.  A client that
proposed encryption never goes on without it.
-/

namespace FrpRs
namespace Protocol

open List Bytes Fallible ByteStream FrpRs.Stream
open Udp (udpPacketCodecBinary)

/-!
## Transcripts
-/

theorem transcript_injective {client server client' server' : List Byte}
    (hclient : client.length < 256 ^ 8) (hclient' : client'.length < 256 ^ 8)
    (hserver : server.length < 256 ^ 8) (hserver' : server'.length < 256 ^ 8)
    (h : transcript client server = transcript client' server') :
    client = client' ∧ server = server' := by
  simp only [transcript, transcriptPart, append_assoc, cons_append] at h
  have hfirst := append_cancel_left (cons.inj (append_cancel_left h)).2
  have hparts := prefixed_inj hclient hclient' (cons.inj hfirst).2
  have hsecond := append_cancel_left (cons.inj hparts.2).2
  have hlast := (cons.inj hsecond).2
  have hends : beBytes 8 server.length ++ (server ++ []) =
      beBytes 8 server'.length ++ (server' ++ []) := by
    rw [append_nil, append_nil]
    exact hlast
  exact ⟨hparts.1, (prefixed_inj hserver hserver' hends).1⟩

theorem algorithmFromStr_text {chacha20 : Bool} {text : String} {algorithm : AeadAlgorithm}
    (h : algorithmFromStr chacha20 text = some algorithm) : text = algorithmText algorithm := by
  unfold algorithmFromStr at h
  split at h
  · rename_i htext
    cases h
    exact htext
  · split at h
    · rename_i htext
      cases h
      rw [Bool.and_eq_true, decide_eq_true_eq] at htext
      exact htext.2
    · cases h

theorem algorithmText_injective {a b : AeadAlgorithm} (h : algorithmText a = algorithmText b) :
    a = b := by
  revert h
  cases a <;> cases b <;> decide

/-!
## What a side did
-/

def Sent (frameType : UInt16) (payload : List Byte) (before after : IoStream) : Prop :=
  after.sink.held = before.sink.held ++ v2FrameBytes (frameType, 0, payload) ∧
    payload.length ≤ v2MaxFramePayload

def Received (frameType : UInt16) (payload : List Byte) (side : Side) : Prop :=
  (side.stream.readRawV2Frame side.timely).1 = .ok (frameType, 0, payload) ∧
    payload.length ≤ v2MaxFramePayload

variable {response : Nat -> Except String Nat} {stream stream' : IoStream} {payload : List Byte}

theorem writeRawV2Frame_ok {frameType : UInt16}
    (h : stream.writeRawV2Frame response frameType 0 payload = (.ok (), stream')) :
    Sent frameType payload stream stream' ∧ stream'.incoming = stream.incoming := by
  unfold IoStream.writeRawV2Frame at h
  rcases hwrite : writeV2FrameRaw response frameType 0 payload stream.sink with ⟨res, sink⟩
  rw [hwrite] at h
  cases h
  have hheld := writeV2FrameRaw_ok hwrite
  exact ⟨⟨hheld.2, hheld.1⟩, rfl⟩

theorem readRawV2Frame_ok {timely : Bool} {frame : UInt16 × UInt16 × List Byte}
    (h : stream.readRawV2Frame timely = (.ok frame, stream')) :
    frame.2.1 = 0 ∧ frame.2.2.length ≤ v2MaxFramePayload ∧ stream'.sink = stream.sink := by
  unfold IoStream.readRawV2Frame at h
  split at h
  · rcases hread : readV2FrameRaw stream.incoming with ⟨res, rest⟩
    rw [hread] at h
    cases h
    have hframe := readV2FrameRaw_ok hread
    exact ⟨hframe.1, hframe.2, rfl⟩
  · cases h

section Handshake

variable {json : HelloJson} {sha256 : List Byte -> List Byte}

/-!
## The client
-/

variable {random : Except String Random} {p : ClientParams}

theorem make_algorithms {chacha20 : Bool} {hello : ClientHello}
    (h : ClientHello.make chacha20 p random = .ok hello) :
    hello.capabilities.crypto.algorithms = p.offered chacha20 := by
  unfold ClientHello.make at h
  split at h
  · cases random with
    | error e => cases h
    | ok random =>
      cases h
      rfl
  · cases h
    rfl

variable {side : Side}

theorem sendHello_ok (h : v2HandshakeClientSendHello json side p random = (.ok payload, stream)) :
    exists hello, ClientHello.make side.chacha20 p random = .ok hello ∧
      json.clientToVec hello = .ok payload ∧
      Sent v2FrameTypeClientHello payload side.stream stream ∧
      stream.incoming = side.stream.incoming := by
  unfold v2HandshakeClientSendHello at h
  split at h
  · cases h
  · rename_i hello hmake
    split at h
    · cases h
    · rename_i sent hjson
      rcases andThen_eq_ok h with ⟨_, stream', hwrite, hresult⟩
      cases hresult
      have hsent := writeRawV2Frame_ok hwrite
      exact ⟨hello, hmake, hjson, hsent.1, hsent.2⟩

/-- A selection that the client takes. -/
structure Taken (sha256 : List Byte -> List Byte) (chacha20 : Bool)
    (clientPayload serverPayload : List Byte) (serverHello : ServerHello) (c : CryptoContext) :
    Prop where
  hash : c.transcriptHash = computeTranscriptHash sha256 clientPayload serverPayload
  udp : c.udpPacketCodec = serverHello.selected.message.udpPacketCodec
  algorithm : exists selection, serverHello.selected.crypto = some selection ∧
    algorithmFromStr chacha20 selection.algorithm = some c.algorithm

theorem checkServerHello_ok {chacha20 withCrypto : Bool} {hello : ClientHello}
    {clientPayload serverPayload : List Byte} {serverHello : ServerHello}
    {result : Option CryptoContext}
    (h : checkServerHello sha256 chacha20 withCrypto hello clientPayload serverPayload
      serverHello = .ok result) :
    (result = none -> withCrypto = false) ∧
      forall c, result = some c ->
        Taken sha256 chacha20 clientPayload serverPayload serverHello c := by
  unfold checkServerHello at h
  dsimp only at h
  split at h
  · cases h
  · split at h
    · cases h
    · split at h
      · cases h
      · split at h
        · cases h
        · split at h
          · split at h
            · cases h
            · rename_i hplain
              cases h
              constructor
              · intro _
                exact Bool.eq_false_iff.mpr hplain
              · intro c hc
                cases hc
          · rename_i selection hselection
            split at h
            · cases h
            · rename_i algorithm halgorithm
              split at h
              · cases h
              · split at h
                · cases h
                · cases h
                  constructor
                  · intro hnone
                    cases hnone
                  · intro c hc
                    cases hc
                    exact ⟨rfl, rfl, selection, hselection, halgorithm⟩

theorem recvHello_ok {clientPayload : List Byte}
    {result : Option CryptoContext}
    (h : v2HandshakeClientRecvHello json sha256 side p random clientPayload stream =
      (.ok result, stream')) :
    (result = none -> p.withCrypto = false) ∧
      exists serverPayload serverHello,
        (stream.readRawV2Frame side.timely).1 = .ok (v2FrameTypeServerHello, 0, serverPayload) ∧
        serverPayload.length ≤ v2MaxFramePayload ∧ stream'.sink = stream.sink ∧
        json.serverFromSlice serverPayload = .ok serverHello ∧
        forall c, result = some c ->
          Taken sha256 side.chacha20 clientPayload serverPayload serverHello c := by
  unfold v2HandshakeClientRecvHello at h
  split at h
  · cases h
  · rename_i hello _
    rcases andThen_eq_ok h with ⟨⟨frameType, flags, payload⟩, next, hread, hbody⟩
    have hframe := readRawV2Frame_ok hread
    dsimp only at hbody hframe
    split at hbody
    · rename_i htype
      split at hbody
      · cases hbody
      · rename_i serverHello hjson
        rcases Prod.mk.inj hbody with ⟨hcheck, hstream⟩
        have hchecked := checkServerHello_ok hcheck
        constructor
        · exact hchecked.1
        · exists payload, serverHello
          constructor
          · rw [hread, htype, hframe.1]
          · rw [← hstream]
            exact ⟨hframe.2.1, hframe.2.2, hjson, hchecked.2⟩
    · split at hbody
      · cases hbody
      · cases hbody

/-- A run of the client that ends with a context. -/
theorem client_ok {sendRandom recvRandom : Except String Random} {c : CryptoContext}
    (h : (v2HandshakeClient json sha256 side p sendRandom recvRandom).1 = .ok (some c)) :
    exists hello clientPayload serverPayload serverHello,
      ClientHello.make side.chacha20 p sendRandom = .ok hello ∧
      json.clientToVec hello = .ok clientPayload ∧
      Sent v2FrameTypeClientHello clientPayload side.stream
        (v2HandshakeClient json sha256 side p sendRandom recvRandom).2 ∧
      Received v2FrameTypeServerHello serverPayload side ∧
      json.serverFromSlice serverPayload = .ok serverHello ∧
      Taken sha256 side.chacha20 clientPayload serverPayload serverHello c := by
  rcases hrun : v2HandshakeClient json sha256 side p sendRandom recvRandom with ⟨res, final⟩
  rw [hrun] at h
  cases h
  rcases andThen_eq_ok hrun with ⟨clientPayload, stream, hsend, hrecv⟩
  rcases sendHello_ok hsend with ⟨hello, hmake, hjson, hsent, hincoming⟩
  rcases recvHello_ok hrecv with ⟨_, serverPayload, serverHello, hread, hsize, hsink, hslice, htaken⟩
  exists hello, clientPayload, serverPayload, serverHello
  constructor
  · exact hmake
  · constructor
    · exact hjson
    · constructor
      · unfold Sent
        rw [hsink]
        exact hsent
      · constructor
        · constructor
          · rw [← hread]
            unfold IoStream.readRawV2Frame
            rw [hincoming]
            split
            · rfl
            · rfl
          · exact hsize
        · exact ⟨hslice, htaken c rfl⟩

theorem client_ne_plain {sendRandom recvRandom : Except String Random}
    (hcrypto : p.withCrypto = true) :
    (v2HandshakeClient json sha256 side p sendRandom recvRandom).1 ≠ .ok none := by
  intro h
  rcases hrun : v2HandshakeClient json sha256 side p sendRandom recvRandom with ⟨res, final⟩
  rw [hrun] at h
  cases h
  rcases andThen_eq_ok hrun with ⟨clientPayload, stream, _, hrecv⟩
  have hplain := (recvHello_ok hrecv).1 rfl
  rw [hcrypto] at hplain
  cases hplain

/-!
## The server
-/

theorem rejectHello_ne_ok {told error : String} {result : Option (List Byte) × Option CryptoContext} :
    rejectHello json response told error stream ≠ (.ok result, stream') := by
  intro h
  unfold rejectHello at h
  split at h
  · cases h
  · rcases andThen_eq_ok h with ⟨_, _, _, hresult⟩
    cases hresult

/-- What the server sends and keeps when it accepts a hello. -/
structure Granted (json : HelloJson) (sha256 : List Byte -> List Byte)
    (clientPayload serverPayload : List Byte) (s : CryptoContext) : Prop where
  hash : s.transcriptHash = computeTranscriptHash sha256 clientPayload serverPayload
  hello : exists serverRandom, json.serverToVec
    (ServerHello.withCryptoAndUdp s.algorithm serverRandom s.udpPacketCodec) = .ok serverPayload

theorem acceptHello_ok {clientHello : ClientHello} {algorithm : AeadAlgorithm}
    {first : Option (List Byte)} {s : CryptoContext}
    (h : acceptHello json sha256 response random clientHello payload algorithm stream =
      (.ok (first, some s), stream')) :
    s.algorithm = algorithm ∧ exists serverPayload,
      Granted json sha256 payload serverPayload s ∧
      Sent v2FrameTypeServerHello serverPayload stream stream' := by
  unfold acceptHello at h
  split at h
  · cases h
  · split at h
    · cases h
    · split at h
      · cases h
      · rename_i serverRandom
        dsimp only at h
        split at h
        · cases h
        · rename_i serverPayload hjson
          rcases andThen_eq_ok h with ⟨_, next, hwrite, hresult⟩
          cases hresult
          constructor
          · rfl
          · exists serverPayload
            constructor
            · exact ⟨rfl, serverRandom.bytes, hjson⟩
            · exact (writeRawV2Frame_ok hwrite).1

/-- A run of the server that ends with a context. -/
theorem server_ok {s : CryptoContext}
    (h : (v2HandshakeServer json sha256 side random).1 = .ok (none, some s)) :
    exists clientHello clientPayload serverPayload,
      Received v2FrameTypeClientHello clientPayload side ∧
      json.clientFromSlice clientPayload = .ok clientHello ∧
      selectAeadAlgorithm side.chacha20 clientHello.capabilities.crypto.algorithms =
        some s.algorithm ∧
      Granted json sha256 clientPayload serverPayload s ∧
      Sent v2FrameTypeServerHello serverPayload side.stream
        (v2HandshakeServer json sha256 side random).2 := by
  rcases hrun : v2HandshakeServer json sha256 side random with ⟨res, final⟩
  rw [hrun] at h
  cases h
  rcases andThen_eq_ok hrun with ⟨⟨frameType, flags, clientPayload⟩, stream, hread, hbody⟩
  have hframe := readRawV2Frame_ok hread
  dsimp only at hbody hframe
  split at hbody
  · rename_i htype
    split at hbody
    · cases hbody
    · rename_i clientHello hjson
      split at hbody
      · exact absurd hbody rejectHello_ne_ok
      · split at hbody
        · exact absurd hbody rejectHello_ne_ok
        · rename_i algorithm hselect
          rcases acceptHello_ok hbody with ⟨halgorithm, serverPayload, hgranted, hsent⟩
          exists clientHello, clientPayload, serverPayload
          constructor
          · constructor
            · rw [hread, htype, hframe.1]
            · exact hframe.2.1
          · constructor
            · exact hjson
            · constructor
              · rw [halgorithm]
                exact hselect
              · constructor
                · exact hgranted
                · unfold Sent at hsent ⊢
                  rw [← hframe.2.2]
                  exact hsent
  · split at hbody
    · cases hbody
    · cases hbody

end Handshake

/-!
## Agreement
-/

/-- The hello that one side sent as its only frame is the one that the other read. -/
structure SameHellos (client server : Side) (clientAfter serverAfter : IoStream)
    (clientPayload serverPayload : List Byte) : Prop where
  clientSent : Sent v2FrameTypeClientHello clientPayload client.stream clientAfter
  serverReceived : Received v2FrameTypeClientHello clientPayload server
  serverSent : Sent v2FrameTypeServerHello serverPayload server.stream serverAfter
  clientReceived : Received v2FrameTypeServerHello serverPayload client

theorem handshake_agreement {json : HelloJson} {sha256 : List Byte -> List Byte}
    (hjson : json.RoundTrips) (hsha : Function.Injective sha256)
    (client server : Side) (p : ClientParams)
    (sendRandom recvRandom serverRandom : Except String Random) :
    let clientRun := v2HandshakeClient json sha256 client p sendRandom recvRandom
    let serverRun := v2HandshakeServer json sha256 server serverRandom
    (p.withCrypto = true -> clientRun.1 ≠ .ok none) ∧
      forall c s, clientRun.1 = .ok (some c) -> serverRun.1 = .ok (none, some s) ->
        c.transcriptHash = s.transcriptHash ->
        (exists clientPayload serverPayload,
          SameHellos client server clientRun.2 serverRun.2 clientPayload serverPayload) ∧
        c.algorithm = s.algorithm ∧ c.udpPacketCodec = s.udpPacketCodec ∧
        (p.offered client.chacha20).findSome? (algorithmFromStr server.chacha20) =
          some c.algorithm := by
  intro clientRun serverRun
  constructor
  · exact client_ne_plain
  · intro c s hclient hserver hhash
    rcases client_ok hclient with
      ⟨hello, clientPayload, serverPayload, serverHello, hmake, htoVec, hsent, hreceived, hslice,
        htaken⟩
    rcases server_ok hserver with
      ⟨clientHello, clientPayload', serverPayload', hreceived', hslice', hselect, hgranted, hsent'⟩
    have hsmall : forall payload : List Byte, payload.length ≤ v2MaxFramePayload ->
        payload.length < 256 ^ 8 := by
      intro payload hle
      unfold v2MaxFramePayload at hle
      omega
    rw [htaken.hash, hgranted.hash] at hhash
    have hsame := transcript_injective (hsmall _ hsent.2) (hsmall _ hreceived'.2)
      (hsmall _ hreceived.2) (hsmall _ hsent'.2) (hsha hhash)
    rw [← hsame.1] at hreceived' hslice'
    rw [← hsame.2] at hsent'
    -- Both sides decode the payload that the other one encoded.
    have hdecoded := hjson.client hello clientPayload htoVec
    rw [hslice'] at hdecoded
    cases hdecoded
    rcases hgranted.hello with ⟨random, hencoded⟩
    rw [← hsame.2] at hencoded
    have hdecoded' := hjson.server _ serverPayload hencoded
    rw [hslice] at hdecoded'
    cases hdecoded'
    rcases htaken.algorithm with ⟨selection, hselection, hfromStr⟩
    cases hselection
    have halgorithm : s.algorithm = c.algorithm :=
      algorithmText_injective (algorithmFromStr_text hfromStr)
    constructor
    · exact ⟨clientPayload, serverPayload, hsent, hreceived', hsent', hreceived⟩
    · constructor
      · exact halgorithm.symm
      · constructor
        · exact htaken.udp
        · rw [← halgorithm, ← hselect, make_algorithms hmake]
          rfl

/-!
## Undisturbed runs
-/

theorem writeRawV2Frame_accepting (hacc : Accepting response) (frameType : UInt16)
    (stream : IoStream) (hsize : payload.length ≤ v2MaxFramePayload) :
    exists sink, stream.writeRawV2Frame response frameType 0 payload =
      (.ok (), { stream with sink := sink }) := by
  have hwritten := @writeFrame_accepting "V2" response hacc
    (v2Header frameType 0 payload.length) payload 0 0 stream.sink
  unfold IoStream.writeRawV2Frame writeV2FrameRaw
  rw [if_neg (Nat.not_lt_of_le hsize)]
  exact ⟨_, Prod.ext hwritten rfl⟩

theorem readRawV2Frame_frame {frameType : UInt16}
    (hincoming : stream.incoming = [v2FrameBytes (frameType, 0, payload)])
    (hsize : payload.length ≤ v2MaxFramePayload) :
    exists rest, stream.readRawV2Frame true =
      (.ok (frameType, 0, payload), { stream with incoming := rest }) := by
  have hchunked : Chunked stream.incoming
      (v2Header frameType 0 payload.length ++ payload ++ []) := by
    rw [hincoming, append_nil]
    constructor
    · intro c hc
      rw [mem_singleton.mp hc]
      exact append_ne_nil_of_left_ne_nil
        (ne_nil_of_length_pos (by rw [v2Header_length]; decide)) payload
    · exact append_nil _
  rcases readV2Frame_payload (v2Header_length frameType 0 payload.length)
    (v2Header_flags frameType 0 payload.length) (v2Header_declared frameType 0 hsize) hsize
    hchunked with ⟨rest, hread, _⟩
  have htype : readU16Be (v2Header frameType 0 payload.length) = frameType := by
    rw [v2Header, readU16Be_append]
  exists rest
  unfold IoStream.readRawV2Frame
  rw [if_pos rfl, hread, htype]

/-- A side whose peer's frame arrives whole and in time, and whose writes are taken. -/
structure Undisturbed (side : Side) (frameType : UInt16) (payload : List Byte) : Prop where
  accepting : Accepting side.response
  timely : side.timely = true
  incoming : side.stream.incoming = [v2FrameBytes (frameType, 0, payload)]
  size : payload.length ≤ v2MaxFramePayload

section Undisturbed

variable {json : HelloJson} {sha256 : List Byte -> List Byte} {clientPayload serverPayload : List Byte}

def agreed (sha256 : List Byte -> List Byte) (clientPayload serverPayload : List Byte) :
    CryptoContext where
  algorithm := .aes256Gcm
  transcriptHash := computeTranscriptHash sha256 clientPayload serverPayload
  udpPacketCodec := udpPacketCodecBinary

theorem client_undisturbed {side : Side} {p : ClientParams} (hcrypto : p.withCrypto = true)
    (random recvRandom serverRandom : Random) {hello : ClientHello}
    (hmake : ClientHello.make side.chacha20 p (.ok random) = .ok hello)
    (htoVec : json.clientToVec hello = .ok clientPayload)
    (hsize : clientPayload.length ≤ v2MaxFramePayload)
    (hslice : json.serverFromSlice serverPayload = .ok
      (ServerHello.withCryptoAndUdp .aes256Gcm serverRandom.bytes udpPacketCodecBinary))
    (h : Undisturbed side v2FrameTypeServerHello serverPayload) :
    (v2HandshakeClient json sha256 side p (.ok random) (.ok recvRandom)).1 =
      .ok (some (agreed sha256 clientPayload serverPayload)) := by
  rcases writeRawV2Frame_accepting h.accepting v2FrameTypeClientHello side.stream hsize with
    ⟨sink, hwrite⟩
  have hincoming : ({ side.stream with sink := sink } : IoStream).incoming =
      [v2FrameBytes (v2FrameTypeServerHello, 0, serverPayload)] := h.incoming
  rcases readRawV2Frame_frame hincoming h.size with ⟨rest, hread⟩
  have hcheck : forall again, ClientHello.make side.chacha20 p (.ok recvRandom) = .ok again ->
      checkServerHello sha256 side.chacha20 p.withCrypto again clientPayload serverPayload
        (ServerHello.withCryptoAndUdp .aes256Gcm serverRandom.bytes udpPacketCodecBinary) =
          .ok (some (agreed sha256 clientPayload serverPayload)) := by
    intro again hagain
    unfold ClientHello.make at hagain
    rw [if_pos hcrypto] at hagain
    cases hagain
    have hfirst : exists others, p.offered side.chacha20 = "aes-256-gcm" :: others := by
      rw [ClientParams.offered, if_pos hcrypto]
      cases side.chacha20 with
      | false => exact ⟨_, rfl⟩
      | true => exact ⟨_, rfl⟩
    rcases hfirst with ⟨others, hoffered⟩
    simp [checkServerHello, ServerHello.withCryptoAndUdp, agreed, hoffered, algorithmText,
      algorithmFromStr, udpPacketCodecBinary, defaultUdpPacketCodecs, serverRandom.length_eq]
  unfold v2HandshakeClient v2HandshakeClientSendHello v2HandshakeClientRecvHello
  rw [hmake]
  dsimp only
  rw [htoVec]
  dsimp only
  rw [hwrite, andThen_ok, andThen_ok, h.timely, hread]
  rcases hagain : ClientHello.make side.chacha20 p (.ok recvRandom) with e | again
  · unfold ClientHello.make at hagain
    rw [if_pos hcrypto] at hagain
    cases hagain
  · dsimp only
    rw [andThen_ok]
    rw [if_pos rfl, hslice]
    exact hcheck again hagain

theorem server_undisturbed {side : Side} {clientHello : ClientHello} (serverRandom : Random)
    {clientRandom : Random}
    (hslice : json.clientFromSlice clientPayload = .ok clientHello)
    (hcodecs : clientHello.capabilities.message = ⟨["json"], defaultUdpPacketCodecs⟩)
    (halgorithms : clientHello.capabilities.crypto.algorithms.head? = some "aes-256-gcm")
    (hrandom : clientHello.capabilities.crypto.clientRandom = some clientRandom.bytes)
    (htoVec : json.serverToVec
      (ServerHello.withCryptoAndUdp .aes256Gcm serverRandom.bytes udpPacketCodecBinary) =
        .ok serverPayload)
    (hsize : serverPayload.length ≤ v2MaxFramePayload)
    (h : Undisturbed side v2FrameTypeClientHello clientPayload) :
    (v2HandshakeServer json sha256 side (.ok serverRandom)).1 =
      .ok (none, some (agreed sha256 clientPayload serverPayload)) := by
  rcases readRawV2Frame_frame h.incoming h.size with ⟨rest, hread⟩
  rcases writeRawV2Frame_accepting h.accepting v2FrameTypeServerHello
    { side.stream with incoming := rest } hsize with ⟨sink, hwrite⟩
  have hselect : selectAeadAlgorithm side.chacha20
      clientHello.capabilities.crypto.algorithms = some .aes256Gcm := by
    rcases halgs : clientHello.capabilities.crypto.algorithms with _ | ⟨first, others⟩
    · rw [halgs] at halgorithms
      cases halgorithms
    · rw [halgs] at halgorithms
      cases halgorithms
      rfl
  have hcodec : selectUdpPacketCodec clientHello.capabilities.message.udpPacketCodecs =
      udpPacketCodecBinary := by
    rw [hcodecs]
    rfl
  unfold v2HandshakeServer
  rw [h.timely, hread, andThen_ok]
  rw [if_pos rfl, hslice]
  dsimp only
  rw [hcodecs, if_neg (by decide), hselect]
  unfold acceptHello
  rw [hrandom]
  dsimp only
  rw [if_neg (not_not.mpr clientRandom.length_eq), hcodec, htoVec]
  dsimp only
  rw [hwrite]
  rfl

end Undisturbed

/-!
## A sample run
-/

def ascii (text : String) : List Byte :=
  text.toList.map fun c => UInt8.ofNat c.toNat

def sampleClientPayload : List Byte :=
  ascii ("\x7b\"bootstrap\":\x7b\"transport\":\"tcp\",\"tls\":false,\"tcpMux\":true\x7d," ++
    "\"capabilities\":\x7b\"message\":\x7b\"codecs\":[\"json\"],\"udpPacketCodecs\":[\"binary-v1\"]\x7d," ++
    "\"crypto\":\x7b\"algorithms\":[\"aes-256-gcm\",\"xchacha20-poly1305\"]," ++
    "\"clientRandom\":\"AAAAAAAAAAAAAAAAAAAAAAAAAAAAAAAAAAAAAAAAAAA=\"\x7d\x7d\x7d")

def sampleServerPayload : List Byte :=
  ascii ("\x7b\"selected\":\x7b\"message\":\x7b\"codec\":\"json\",\"udpPacketCodec\":\"binary-v1\"\x7d," ++
    "\"crypto\":\x7b\"algorithm\":\"aes-256-gcm\"," ++
    "\"serverRandom\":\"AAAAAAAAAAAAAAAAAAAAAAAAAAAAAAAAAAAAAAAAAAA=\"\x7d\x7d\x7d")

theorem ascii_ofList_le {text : List Char} {n : Nat} (h : text.length ≤ n) :
    (ascii (String.ofList text)).length ≤ n := by
  rw [ascii, length_map, String.length_toList, String.length_ofList]
  exact h

theorem ascii_append_le {a b : String} {m n : Nat} (ha : (ascii a).length ≤ m)
    (hb : (ascii b).length ≤ n) : (ascii (a ++ b)).length ≤ m + n := by
  rw [ascii, String.toList_append, map_append, length_append]
  exact Nat.add_le_add ha hb

theorem sampleClientPayload_short : sampleClientPayload.length ≤ v2MaxFramePayload := by
  have hpart : forall {text : List Char}, text.length ≤ 128 ->
      (ascii (String.ofList text)).length ≤ 128 := ascii_ofList_le
  calc
    sampleClientPayload.length ≤ 128 + 128 + 128 + 128 :=
      ascii_append_le (ascii_append_le (ascii_append_le (hpart (by decide)) (hpart (by decide)))
        (hpart (by decide))) (hpart (by decide))
    _ ≤ v2MaxFramePayload := by decide

theorem sampleServerPayload_short : sampleServerPayload.length ≤ v2MaxFramePayload := by
  have hpart : forall {text : List Char}, text.length ≤ 128 ->
      (ascii (String.ofList text)).length ≤ 128 := ascii_ofList_le
  calc
    sampleServerPayload.length ≤ 128 + 128 + 128 :=
      ascii_append_le (ascii_append_le (hpart (by decide)) (hpart (by decide)))
        (hpart (by decide))
    _ ≤ v2MaxFramePayload := by decide

def zeroRandom : Random := ⟨replicate 32 0, rfl⟩

def sampleParams : ClientParams := ⟨"tcp", false, true, true⟩

def sampleClientHello : ClientHello :=
  ⟨⟨"tcp", false, true⟩, ⟨⟨["json"], defaultUdpPacketCodecs⟩,
    ⟨preferredAeadAlgorithms true, some zeroRandom.bytes⟩⟩⟩

def sampleServerHello : ServerHello :=
  ServerHello.withCryptoAndUdp .aes256Gcm zeroRandom.bytes udpPacketCodecBinary

section TwoHellos

variable (client : ClientHello) (clientPayload : List Byte) (server : ServerHello)
  (serverPayload : List Byte)

/-- `serde_json` on two hellos with their JSON. -/
def twoHellos : HelloJson where
  clientToVec hello := if hello = client then .ok clientPayload else .error ""
  clientFromSlice payload := if payload = clientPayload then .ok client else .error ""
  serverToVec hello := if hello = server then .ok serverPayload else .error ""
  serverFromSlice payload := if payload = serverPayload then .ok server else .error ""

theorem twoHellos_roundTrips : (twoHellos client clientPayload server serverPayload).RoundTrips := by
  constructor
  · intro hello payload h
    simp only [twoHellos] at h ⊢
    split at h
    · rename_i hhello
      cases h
      rw [if_pos rfl, hhello]
    · cases h
  · intro hello payload h
    simp only [twoHellos] at h ⊢
    split at h
    · rename_i hhello
      cases h
      rw [if_pos rfl, hhello]
    · cases h

theorem twoHellos_known :
    (twoHellos client clientPayload server serverPayload).clientToVec client = .ok clientPayload ∧
      (twoHellos client clientPayload server serverPayload).clientFromSlice clientPayload =
        .ok client ∧
      (twoHellos client clientPayload server serverPayload).serverToVec server =
        .ok serverPayload ∧
      (twoHellos client clientPayload server serverPayload).serverFromSlice serverPayload =
        .ok server := by
  simp [twoHellos]

end TwoHellos

def sampleDigest : List Byte :=
  [178, 179, 245, 217, 14, 118, 182, 195, 117, 40, 119, 208, 227, 230, 197, 49, 78, 132, 176, 134,
    152, 236, 175, 185, 171, 67, 101, 140, 47, 161, 36, 241]

def oneDigest (input : List Byte) (bytes : List Byte) : List Byte :=
  if bytes = input then sampleDigest else replicate 33 0 ++ bytes

theorem oneDigest_injective (input : List Byte) : Function.Injective (oneDigest input) := by
  have hlong : forall bytes : List Byte, sampleDigest ≠ replicate 33 0 ++ bytes := by
    intro bytes heq
    have hlength := congrArg length heq
    rw [length_append, length_replicate] at hlength
    simp only [sampleDigest, length_cons, length_nil] at hlength
    omega
  intro a b h
  unfold oneDigest at h
  split at h
  · rename_i ha
    split at h
    · rename_i hb
      exact ha.trans hb.symm
    · exact absurd h (hlong b)
  · split at h
    · exact absurd h.symm (hlong a)
    · exact append_cancel_left h

def sampleSide (frameType : UInt16) (payload : List Byte) : Side where
  chacha20 := true
  response := fun _ => .ok 65536
  timely := true
  stream := ⟨[v2FrameBytes (frameType, 0, payload)], ⟨[], 0⟩⟩

theorem sampleSide_undisturbed (frameType : UInt16) (hsize : payload.length ≤ v2MaxFramePayload) :
    Undisturbed (sampleSide frameType payload) frameType payload := by
  constructor
  · intro k
    exact ⟨65535, rfl⟩
  · rfl
  · rfl
  · exact hsize

def sampleJson : HelloJson :=
  twoHellos sampleClientHello sampleClientPayload sampleServerHello sampleServerPayload

def sampleSha256 : List Byte -> List Byte :=
  oneDigest (transcript sampleClientPayload sampleServerPayload)

theorem handshake_agreement_sample :
    let client := sampleSide v2FrameTypeServerHello sampleServerPayload
    let server := sampleSide v2FrameTypeClientHello sampleClientPayload
    exists c s,
      (v2HandshakeClient sampleJson sampleSha256 client sampleParams (.ok zeroRandom)
        (.ok zeroRandom)).1 = .ok (some c) ∧
      (v2HandshakeServer sampleJson sampleSha256 server (.ok zeroRandom)).1 = .ok (none, some s) ∧
      c.transcriptHash = s.transcriptHash ∧ c.algorithm = s.algorithm ∧
      c.udpPacketCodec = s.udpPacketCodec ∧
      (sampleParams.offered true).findSome? (algorithmFromStr true) = some c.algorithm := by
  intro client server
  rcases twoHellos_known sampleClientHello sampleClientPayload sampleServerHello
    sampleServerPayload with ⟨hclientVec, hclientSlice, hserverVec, hserverSlice⟩
  have hclient := @client_undisturbed sampleJson sampleSha256 sampleClientPayload
    sampleServerPayload client sampleParams rfl zeroRandom zeroRandom zeroRandom sampleClientHello
    rfl hclientVec sampleClientPayload_short hserverSlice
    (sampleSide_undisturbed v2FrameTypeServerHello sampleServerPayload_short)
  have hserver := @server_undisturbed sampleJson sampleSha256 sampleClientPayload
    sampleServerPayload server sampleClientHello zeroRandom zeroRandom hclientSlice rfl rfl rfl
    hserverVec sampleServerPayload_short
    (sampleSide_undisturbed v2FrameTypeClientHello sampleClientPayload_short)
  have hagree := (handshake_agreement (twoHellos_roundTrips _ _ _ _) (oneDigest_injective _) client
    server sampleParams (.ok zeroRandom) (.ok zeroRandom) (.ok zeroRandom)).2 _ _ hclient hserver rfl
  exact ⟨_, _, hclient, hserver, rfl, hagree.2⟩

end Protocol
end FrpRs
