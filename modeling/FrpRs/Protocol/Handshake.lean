import FrpRs.Protocol.Frame
import FrpRs.Udp.Binary
import FrpRs.Stream.Aead

/-!
# The V2 handshake

`frp-core/src/v2_handshake.rs`: a `ClientHello` offers algorithms and codecs, a `ServerHello`
selects among them, and both sides hash the two payloads as they saw them.

The JSON of the two hellos and SHA-256 are parameters.  So are the random bytes, the answers of
the transport to writes, whether the awaited frame comes in time, and whether a side was built
with XChaCha20.
-/

namespace FrpRs
namespace Protocol

open Bytes Fallible ByteStream FrpRs.Stream
open Udp (udpPacketCodecBinary)

/-!
## Hellos
-/

structure BootstrapInfo where
  transport : String
  tls : Bool
  tcpMux : Bool
deriving DecidableEq

structure MessageCapabilities where
  codecs : List String
  udpPacketCodecs : List String
deriving DecidableEq

structure CryptoCapabilities where
  algorithms : List String
  clientRandom : Option (List Byte)
deriving DecidableEq

structure ClientCapabilities where
  message : MessageCapabilities
  crypto : CryptoCapabilities
deriving DecidableEq

structure ClientHello where
  bootstrap : BootstrapInfo
  capabilities : ClientCapabilities
deriving DecidableEq

structure MessageSelection where
  codec : String
  udpPacketCodec : String
deriving DecidableEq

structure CryptoSelection where
  algorithm : String
  serverRandom : List Byte
deriving DecidableEq

structure ServerSelection where
  message : MessageSelection
  crypto : Option CryptoSelection
deriving DecidableEq

structure ServerHello where
  selected : ServerSelection
  error : Option String
deriving DecidableEq

structure CryptoContext where
  algorithm : AeadAlgorithm
  transcriptHash : List Byte
  udpPacketCodec : String
deriving DecidableEq

/-- `serde_json` on the two hellos. -/
structure HelloJson where
  clientToVec : ClientHello -> Except String (List Byte)
  clientFromSlice : List Byte -> Except String ClientHello
  serverToVec : ServerHello -> Except String (List Byte)
  serverFromSlice : List Byte -> Except String ServerHello

structure HelloJson.RoundTrips (json : HelloJson) : Prop where
  client : forall hello payload, json.clientToVec hello = .ok payload ->
    json.clientFromSlice payload = .ok hello
  server : forall hello payload, json.serverToVec hello = .ok payload ->
    json.serverFromSlice payload = .ok hello

def cryptoRandomSize : Nat := 32

/-- What the system's generator fills a buffer with. -/
structure Random where
  bytes : List Byte
  length_eq : bytes.length = cryptoRandomSize

/-!
## Algorithms
-/

def algorithmText : AeadAlgorithm -> String
  | .aes256Gcm => "aes-256-gcm"
  | .xchacha20Poly1305 => "xchacha20-poly1305"

/-- `AeadAlgorithm::from_str` of a build with or without XChaCha20. -/
def algorithmFromStr (chacha20 : Bool) (text : String) : Option AeadAlgorithm :=
  if text = "aes-256-gcm" then some .aes256Gcm
  else if chacha20 && text = "xchacha20-poly1305" then some .xchacha20Poly1305
  else none

def preferredAeadAlgorithms (chacha20 : Bool) : List String :=
  if chacha20 then [algorithmText .aes256Gcm, algorithmText .xchacha20Poly1305]
  else [algorithmText .aes256Gcm]

def selectAeadAlgorithm (chacha20 : Bool) (clientAlgorithms : List String) :
    Option AeadAlgorithm :=
  clientAlgorithms.findSome? (algorithmFromStr chacha20)

def defaultUdpPacketCodecs : List String := [udpPacketCodecBinary]

def selectUdpPacketCodec (codecs : List String) : String :=
  if codecs.any fun c => c = udpPacketCodecBinary then udpPacketCodecBinary else ""

/-!
## Constructors
-/

structure ClientParams where
  transport : String
  tls : Bool
  tcpMux : Bool
  withCrypto : Bool

def ClientParams.offered (p : ClientParams) (chacha20 : Bool) : List String :=
  if p.withCrypto then preferredAeadAlgorithms chacha20 else []

/-- `ClientHello::new`, or `new_without_crypto`, which needs no random bytes. -/
def ClientHello.make (chacha20 : Bool) (p : ClientParams) (random : Except String Random) :
    Except String ClientHello :=
  let hello (clientRandom : Option (List Byte)) : ClientHello :=
    { bootstrap := { transport := p.transport, tls := p.tls, tcpMux := p.tcpMux }
      capabilities :=
        { message := { codecs := ["json"], udpPacketCodecs := defaultUdpPacketCodecs }
          crypto := { algorithms := p.offered chacha20, clientRandom := clientRandom } } }
  if p.withCrypto then
    match random with
    | .error e => .error ("SysRng failure: " ++ e)
    | .ok random => .ok (hello (some random.bytes))
  else .ok (hello none)

def ServerHello.withCryptoAndUdp (algorithm : AeadAlgorithm) (serverRandom : List Byte)
    (udpPacketCodec : String) : ServerHello where
  selected :=
    { message := { codec := "json", udpPacketCodec := udpPacketCodec }
      crypto := some { algorithm := algorithmText algorithm, serverRandom := serverRandom } }
  error := none

def ServerHello.withError (error : String) : ServerHello where
  selected := { message := { codec := "json", udpPacketCodec := "" }, crypto := none }
  error := some error

/-!
## The transcript
-/

def cryptoTranscriptLabel : String := "frp wire v2 crypto transcript"

def transcriptPart (label : String) (payload : List Byte) : List Byte :=
  0 :: utf8 label ++ 0 :: beBytes 8 payload.length ++ payload

def transcript (clientHelloPayload serverHelloPayload : List Byte) : List Byte :=
  utf8 cryptoTranscriptLabel ++ transcriptPart "client hello" clientHelloPayload ++
    transcriptPart "server hello" serverHelloPayload

def computeTranscriptHash (sha256 : List Byte -> List Byte)
    (clientHelloPayload serverHelloPayload : List Byte) : List Byte :=
  sha256 (transcript clientHelloPayload serverHelloPayload)

/-!
## The stream
-/

def v2FrameTypeClientHello : UInt16 := 1

def v2FrameTypeServerHello : UInt16 := 2

structure IoStream where
  incoming : List (List Byte)
  sink : Sink

/-- One side of a handshake: how it was built, and what it meets. -/
structure Side where
  chacha20 : Bool
  response : Nat -> Except String Nat
  timely : Bool
  stream : IoStream

def IoStream.writeRawV2Frame (response : Nat -> Except String Nat) (frameType flags : UInt16)
    (payload : List Byte) (stream : IoStream) : Except String Unit × IoStream :=
  let r := writeV2FrameRaw response frameType flags payload stream.sink
  (r.1, { stream with sink := r.2 })

def IoStream.readRawV2Frame (timely : Bool) (stream : IoStream) :
    Except String (UInt16 × UInt16 × List Byte) × IoStream :=
  if timely then
    let r := readV2FrameRaw stream.incoming
    (r.1, { stream with incoming := r.2 })
  else (.error "V2 handshake timeout", stream)

section Handshake

variable (json : HelloJson) (sha256 : List Byte -> List Byte)

/-!
## The client
-/

def v2HandshakeClientSendHello (side : Side) (p : ClientParams) (random : Except String Random) :
    Except String (List Byte) × IoStream :=
  match ClientHello.make side.chacha20 p random with
  | .error e => (.error e, side.stream)
  | .ok hello =>
    match json.clientToVec hello with
    | .error e => (.error ("serialize ClientHello: " ++ e), side.stream)
    | .ok payload =>
      andThen (side.stream.writeRawV2Frame side.response v2FrameTypeClientHello 0 payload)
        fun _ stream => (.ok payload, stream)

/-- What the client makes of a selection; `hello` is derived again for the comparison with the
offer. -/
def checkServerHello (chacha20 withCrypto : Bool) (hello : ClientHello)
    (clientHelloJson serverHelloJson : List Byte) (serverHello : ServerHello) :
    Except String (Option CryptoContext) :=
  let message := serverHello.selected.message
  let udp := message.udpPacketCodec
  match serverHello.error with
  | some e => .error ("ServerHello error: " ++ e)
  | none =>
    if message.codec ≠ "json" then
      .error ("server selected unsupported codec: " ++ message.codec)
    else if udp ≠ "" ∧ udp ≠ udpPacketCodecBinary then
      .error ("server selected unsupported UDP packet codec: " ++ udp)
    else if udp ≠ "" ∧ udp ∉ hello.capabilities.message.udpPacketCodecs then
      .error ("server selected UDP packet codec not advertised by client: " ++ udp)
    else
      match serverHello.selected.crypto with
      | none =>
        if withCrypto then
          .error "server did not select crypto although client proposed it"
        else .ok none
      | some selection =>
        match algorithmFromStr chacha20 selection.algorithm with
        | none => .error ("server selected unknown algorithm: " ++ selection.algorithm)
        | some algorithm =>
          if selection.serverRandom.length ≠ cryptoRandomSize then
            .error ("invalid server random length: " ++
              toString selection.serverRandom.length)
          else if !hello.capabilities.crypto.algorithms.any fun a =>
              algorithmFromStr chacha20 a = some algorithm then
            .error ("server selected algorithm not offered by client: " ++
              selection.algorithm)
          else
            .ok (some
              { algorithm := algorithm
                transcriptHash :=
                  computeTranscriptHash sha256 clientHelloJson serverHelloJson
                udpPacketCodec := udp })

def v2HandshakeClientRecvHello (side : Side) (p : ClientParams) (random : Except String Random)
    (clientHelloJson : List Byte) (stream : IoStream) :
    Except String (Option CryptoContext) × IoStream :=
  match ClientHello.make side.chacha20 p random with
  | .error e => (.error e, stream)
  | .ok hello =>
    andThen (stream.readRawV2Frame side.timely) fun frame stream =>
      if frame.1 = v2FrameTypeServerHello then
        match json.serverFromSlice frame.2.2 with
        | .error e => (.error ("deserialize ServerHello: " ++ e), stream)
        | .ok serverHello =>
          (checkServerHello sha256 side.chacha20 p.withCrypto hello clientHelloJson frame.2.2
            serverHello, stream)
      else if frame.1 = v2FrameTypeMessage then
        (.error "server skipped ServerHello — unexpected for V2 client", stream)
      else
        (.error ("unexpected V2 frame type during handshake: " ++ toString frame.1.toNat),
          stream)

/-- Both steps; the generator is asked in each of them. -/
def v2HandshakeClient (side : Side) (p : ClientParams)
    (sendRandom recvRandom : Except String Random) :
    Except String (Option CryptoContext) × IoStream :=
  andThen (v2HandshakeClientSendHello json side p sendRandom) fun clientHelloJson stream =>
    v2HandshakeClientRecvHello json sha256 side p recvRandom clientHelloJson stream

/-!
## The server
-/

/-- The client is told why before the connection is given up. -/
def rejectHello (response : Nat -> Except String Nat) (told error : String) (stream : IoStream) :
    Except String (Option (List Byte) × Option CryptoContext) × IoStream :=
  match json.serverToVec (ServerHello.withError told) with
  | .error e => (.error ("serialize ServerHello: " ++ e), stream)
  | .ok payload =>
    andThen (stream.writeRawV2Frame response v2FrameTypeServerHello 0 payload) fun _ stream =>
      (.error error, stream)

/-- The answer to a hello with an algorithm that the server supports. -/
def acceptHello (response : Nat -> Except String Nat) (random : Except String Random)
    (clientHello : ClientHello) (payload : List Byte) (algorithm : AeadAlgorithm)
    (stream : IoStream) : Except String (Option (List Byte) × Option CryptoContext) × IoStream :=
  match clientHello.capabilities.crypto.clientRandom with
  | none => (.error "ClientHello crypto algorithms present but no client_random", stream)
  | some clientRandom =>
    if clientRandom.length ≠ cryptoRandomSize then
      (.error ("invalid client random length: " ++ toString clientRandom.length), stream)
    else
      match random with
      | .error e => (.error ("SysRng failure: " ++ e), stream)
      | .ok serverRandom =>
        let udp := selectUdpPacketCodec clientHello.capabilities.message.udpPacketCodecs
        let hello := ServerHello.withCryptoAndUdp algorithm serverRandom.bytes udp
        match json.serverToVec hello with
        | .error e => (.error ("serialize ServerHello: " ++ e), stream)
        | .ok serverHelloJson =>
          andThen (stream.writeRawV2Frame response v2FrameTypeServerHello 0 serverHelloJson)
            fun _ stream =>
              (.ok (none, some
                { algorithm := algorithm
                  transcriptHash := computeTranscriptHash sha256 payload serverHelloJson
                  udpPacketCodec := udp }), stream)

def v2HandshakeServer (side : Side) (random : Except String Random) :
    Except String (Option (List Byte) × Option CryptoContext) × IoStream :=
  andThen (side.stream.readRawV2Frame side.timely) fun frame stream =>
    if frame.1 = v2FrameTypeClientHello then
      match json.clientFromSlice frame.2.2 with
      | .error e => (.error ("deserialize ClientHello: " ++ e), stream)
      | .ok clientHello =>
        if !clientHello.capabilities.message.codecs.any fun c => c = "json" then
          rejectHello json side.response "unsupported message codec"
            "ClientHello rejected: unsupported codec" stream
        else
          match selectAeadAlgorithm side.chacha20 clientHello.capabilities.crypto.algorithms with
          | none =>
            rejectHello json side.response "no supported crypto algorithm"
              "ClientHello rejected: no supported crypto algorithm" stream
          | some algorithm =>
            acceptHello json sha256 side.response random clientHello frame.2.2 algorithm stream
    else if frame.1 = v2FrameTypeMessage then (.ok (some frame.2.2, none), stream)
    else (.error ("unexpected V2 frame type on accept: " ++ toString frame.1.toNat), stream)

end Handshake

end Protocol
end FrpRs
