import FrpRs.Data.Bytes
import FrpRs.Data.Fallible
import FrpRs.Protocol.Frame

/-!
# The binary UDP packet codec

The codec body of `frp-core/src/udp_binary.rs`: a flags byte, an optional local
and a required remote address, the payload length and the payload.  Addresses
are written as `family | ip | port | zone length | zone`.
-/

namespace FrpRs
namespace Udp

open Bytes
open Protocol (v2MaxFramePayload)

/-!
## Addresses
-/

structure Ipv4Addr where
  a : Byte
  b : Byte
  c : Byte
  d : Byte
deriving DecidableEq, Repr

def Ipv4Addr.octets (ip : Ipv4Addr) : List Byte := [ip.a, ip.b, ip.c, ip.d]

structure Ipv6Addr where
  octets : List Byte
  length_eq : octets.length = 16
deriving DecidableEq, Repr

inductive IpAddr where
  | v4 (ip : Ipv4Addr)
  | v6 (ip : Ipv6Addr)
deriving DecidableEq, Repr

inductive SocketAddr where
  | v4 (ip : Ipv4Addr) (port : UInt16)
  | v6 (ip : Ipv6Addr) (port : UInt16) (flowinfo scopeId : UInt32)
deriving DecidableEq, Repr

def SocketAddr.ip : SocketAddr -> IpAddr
  | .v4 ip _ => .v4 ip
  | .v6 ip _ _ _ => .v6 ip

/-- The address of an IPv4-mapped IPv6 address `::ffff:a.b.c.d`. -/
def Ipv6Addr.toIpv4Mapped (ip : Ipv6Addr) : Option Ipv4Addr :=
  if ip.octets.take 12 = [0, 0, 0, 0, 0, 0, 0, 0, 0, 0, 255, 255] then
    some
      { a := ip.octets.getD 12 0
        b := ip.octets.getD 13 0
        c := ip.octets.getD 14 0
        d := ip.octets.getD 15 0 }
  else none

/-- The parts of the standard library the codec relies on: reading an IP address,
writing an IPv6 address, and the text of a UTF-8 error. -/
structure NetText where
  parse : String -> Option IpAddr
  ipv6ToString : Ipv6Addr -> String
  utf8Error : List Byte -> String

/-- `{}` of the four octets, separated by dots. -/
def Ipv4Addr.toText (ip : Ipv4Addr) : String :=
  toString ip.a.toNat ++ "." ++ toString ip.b.toNat ++ "." ++ toString ip.c.toNat ++
    "." ++ toString ip.d.toNat

def NetText.toText (net : NetText) : IpAddr -> String
  | .v4 ip => ip.toText
  | .v6 ip => net.ipv6ToString ip

def NetText.ReadsBack (net : NetText) (ip : IpAddr) : Prop :=
  net.parse (net.toText ip) = some ip

/-!
## Packets
-/

structure UdpAddr where
  ip : String
  port : UInt16
  zone : String
deriving DecidableEq, Repr

structure UDPPacket where
  content : List Byte
  localAddr : Option UdpAddr
  remoteAddr : Option UdpAddr
deriving DecidableEq, Repr

def udpPacketCodecBinary : String := "binary-v1"

def maxUdpPayloadSize : Nat := 65507

def flagLocalAddr : UInt8 := 1
def flagRemoteAddr : UInt8 := 2
def validFlags : UInt8 := flagLocalAddr ||| flagRemoteAddr

/-!
## Encoding
-/

/-- A pre-encoded address.  The source keeps the octets at the front of a fixed
array; only that front part is ever read. -/
structure EncAddr where
  family : UInt8
  ip : List Byte
  port : UInt16
  zone : String
deriving DecidableEq, Repr

def EncAddr.len (addr : EncAddr) : Nat :=
  1 + addr.ip.length + 2 + 1 + (utf8 addr.zone).length

def encFromOctets (family : UInt8) (octets : List Byte) (port : UInt16)
    (zone : String) : EncAddr :=
  { family := family, ip := octets, port := port, zone := zone }

def udpAddrToEnc (net : NetText) (addr : UdpAddr) : Except String EncAddr :=
  if addr.port = 0 ∧ addr.ip = "" then .error "empty UDP address"
  else
    match net.parse addr.ip with
    | none =>
      .error ("invalid UDP address IP '" ++ addr.ip ++ "': invalid IP address syntax")
    | some (.v4 v4) =>
      if addr.zone ≠ "" then .error "IPv4 zone is forbidden"
      else .ok (encFromOctets 4 v4.octets addr.port "")
    | some (.v6 v6) =>
      match v6.toIpv4Mapped with
      | some v4 =>
        if addr.zone ≠ "" then .error "IPv4 zone is forbidden"
        else .ok (encFromOctets 4 v4.octets addr.port "")
      | none =>
        if (utf8 addr.zone).length > 255 then .error "zone exceeds 255 bytes"
        else .ok (encFromOctets 6 v6.octets addr.port addr.zone)

def putEncAddr (out : List Byte) (addr : EncAddr) : List Byte :=
  out ++ [addr.family] ++ addr.ip ++ u16Be addr.port ++
    [UInt8.ofNat (utf8 addr.zone).length] ++ utf8 addr.zone

def frameTooLong (length : Nat) : String :=
  "v2 frame payload length " ++ toString length ++ " exceeds limit " ++
    toString v2MaxFramePayload

def payloadTooLong (length : Nat) : String :=
  "UDP payload length " ++ toString length ++ " exceeds limit " ++
    toString maxUdpPayloadSize

def bodyLen (content : List Byte) (localAddr : Option EncAddr) (remote : EncAddr) : Nat :=
  1 + 2 + content.length + (localAddr.map EncAddr.len).getD 0 + remote.len

/-- The shared body writer; `out` is what the caller's buffer holds, before and
after. -/
def encodeBody (content : List Byte) (localAddr : Option EncAddr) (remote : EncAddr)
    (out : List Byte) : Except String Unit × List Byte :=
  if 2 + bodyLen content localAddr remote > v2MaxFramePayload then
    (.error (frameTooLong (2 + bodyLen content localAddr remote)), out)
  else
    let flags := if localAddr.isSome then flagRemoteAddr ||| flagLocalAddr
      else flagRemoteAddr
    let out := out ++ [flags]
    let out :=
      match localAddr with
      | some l => putEncAddr out l
      | none => out
    let out := putEncAddr out remote
    (.ok (), out ++ u16Be (UInt16.ofNat content.length) ++ content)

/-- `Option::map(..).transpose()` of a fallible conversion. -/
def mapTranspose {α β : Type} (f : α -> Except String β) :
    Option α -> Except String (Option β)
  | none => .ok none
  | some a => (f a).map some

def encodeUdpPacketBinaryInto (net : NetText) (packet : UDPPacket) (out : List Byte) :
    Except String Unit × List Byte :=
  match packet.remoteAddr with
  | none => (.error "UDP packet missing remote address", out)
  | some remote =>
    if packet.content.length > maxUdpPayloadSize then
      (.error (payloadTooLong packet.content.length), out)
    else
      match mapTranspose (udpAddrToEnc net) packet.localAddr with
      | .error e => (.error e, out)
      | .ok localB =>
        match udpAddrToEnc net remote with
        | .error e => (.error e, out)
        | .ok remoteB => encodeBody packet.content localB remoteB out

def encodeUdpPacketBinary (net : NetText) (packet : UDPPacket) :
    Except String (List Byte) :=
  match encodeUdpPacketBinaryInto net packet [] with
  | (.error e, _) => .error e
  | (.ok (), body) => .ok body

/-!
## Decoding
-/

structure AddrParts where
  family : UInt8
  ip : List Byte
  port : UInt16
  zone : List Byte
  offset : Nat
  stop : Nat
deriving DecidableEq, Repr

def addrError (offset : Nat) (msg : String) : String :=
  "UDP binary address at offset " ++ toString offset ++ ": " ++ msg

def ipLen (family : UInt8) : Option Nat :=
  if family = 4 then some 4 else if family = 6 then some 16 else none

def parseAddrParts (body : List Byte) (offset : Nat) : Except String AddrParts :=
  if body.length - offset < 4 then .error (addrError offset "truncated address header")
  else
    let family := body.getD offset 0
    match ipLen family with
    | none =>
      .error (addrError offset ("invalid address family " ++ toString family.toNat))
    | some ipLen =>
      if body.length - offset < 4 + ipLen then
        .error (addrError offset "truncated address")
      else
        let ipStart := offset + 1
        let zoneLen := (body.getD (ipStart + ipLen + 2) 0).toNat
        if body.length - offset < 4 + ipLen + zoneLen then
          .error (addrError offset "truncated zone")
        else
          .ok
            { family := family
              ip := (body.drop ipStart).take ipLen
              port := readU16Be (body.drop (ipStart + ipLen))
              zone := (body.drop (ipStart + ipLen + 3)).take zoneLen
              offset := offset
              stop := offset + 3 + ipLen + zoneLen + 1 }

def validateAddrParts (net : NetText) (p : AddrParts) : Except String Unit :=
  match fromUtf8 p.zone with
  | none => .error (addrError p.offset ("invalid zone UTF-8: " ++ net.utf8Error p.zone))
  | some _ =>
    if p.family = 4 ∧ p.zone ≠ [] then
      .error (addrError p.offset "IPv4 zone is forbidden")
    else .ok ()

def AddrParts.toIp (p : AddrParts) : Option IpAddr :=
  if p.family = 4 then
    some (.v4
      { a := p.ip.getD 0 0, b := p.ip.getD 1 0, c := p.ip.getD 2 0, d := p.ip.getD 3 0 })
  else if h : p.ip.length = 16 then some (.v6 ⟨p.ip, h⟩)
  else none

/-- Message form of parsed parts.  The last branch is the source's
`unreachable!`, since the family was checked when the parts were read. -/
def addrPartsToUdp (net : NetText) (p : AddrParts) : Except String UdpAddr :=
  match fromUtf8 p.zone with
  | none => .error (addrError p.offset ("invalid zone UTF-8: " ++ net.utf8Error p.zone))
  | some zone =>
    match p.toIp with
    | some (.v4 ip) =>
      if zone ≠ "" then .error (addrError p.offset "IPv4 zone is forbidden")
      else .ok { ip := ip.toText, port := p.port, zone := zone }
    | some (.v6 ip) =>
      .ok { ip := net.ipv6ToString ip, port := p.port, zone := zone }
    | none => .error "internal error: entered unreachable code: family validated above"

structure DecodedHeaderParts where
  localAddr : Option AddrParts
  remoteAddr : AddrParts
  payloadLen : Nat
  payloadOffset : Nat
deriving DecidableEq, Repr

/-- `{:#04x}` of a byte. -/
def hexByte (b : UInt8) : String :=
  let digit := fun n : Nat => if n < 10 then Char.ofNat (48 + n) else Char.ofNat (87 + n)
  String.ofList ['0', 'x', digit (b.toNat / 16), digit (b.toNat % 16)]

def readAddrParts (net : NetText) (body : List Byte) (offset : Nat) :
    Except String AddrParts :=
  match parseAddrParts body offset with
  | .error e => .error e
  | .ok p =>
    match validateAddrParts net p with
    | .error e => .error e
    | .ok () => .ok p

/-- The part of the header parse behind the addresses. -/
def readPayloadLen (body : List Byte) (localAddr : Option AddrParts)
    (remoteAddr : AddrParts) : Except String DecodedHeaderParts :=
  let offset := remoteAddr.stop
  if body.length - offset < 2 then .error "truncated UDP payload length"
  else
    let payloadLen := (readU16Be (body.drop offset)).toNat
    let offset := offset + 2
    if payloadLen > maxUdpPayloadSize then .error (payloadTooLong payloadLen)
    else
      let remaining := body.length - offset
      if remaining < payloadLen then
        .error ("truncated UDP payload: have " ++ toString remaining ++ " want " ++
          toString payloadLen)
      else if remaining > payloadLen then
        .error ("trailing UDP packet bytes: " ++ toString (remaining - payloadLen))
      else
        .ok
          { localAddr := localAddr
            remoteAddr := remoteAddr
            payloadLen := payloadLen
            payloadOffset := offset }

def parseUdpPacketHeaderParts (net : NetText) (body : List Byte) :
    Except String DecodedHeaderParts :=
  if body.length < 3 then
    .error ("UDP packet body too short: " ++ toString body.length)
  else if 2 + body.length > v2MaxFramePayload then
    .error (frameTooLong (2 + body.length))
  else
    let flags := body.getD 0 0
    if flags &&& ~~~validFlags ≠ 0 then
      .error ("reserved UDP packet flags set: " ++ hexByte flags)
    else if flags &&& flagRemoteAddr = 0 then .error "UDP packet missing remote address"
    else
      let localAddr :=
        if flags &&& flagLocalAddr ≠ 0 then (readAddrParts net body 1).map some
        else .ok none
      match localAddr with
      | .error e => .error e
      | .ok localAddr =>
        let offset := (localAddr.map AddrParts.stop).getD 1
        match readAddrParts net body offset with
        | .error e => .error e
        | .ok remoteAddr => readPayloadLen body localAddr remoteAddr

structure DecodedHeader where
  localAddr : Option UdpAddr
  remoteAddr : UdpAddr
  payloadLen : Nat
  payloadOffset : Nat
deriving DecidableEq, Repr

def parseUdpPacketHeader (net : NetText) (body : List Byte) :
    Except String DecodedHeader :=
  match parseUdpPacketHeaderParts net body with
  | .error e => .error e
  | .ok h =>
    match mapTranspose (addrPartsToUdp net) h.localAddr with
    | .error e => .error e
    | .ok localAddr =>
      match addrPartsToUdp net h.remoteAddr with
      | .error e => .error e
      | .ok remoteAddr =>
        .ok
          { localAddr := localAddr
            remoteAddr := remoteAddr
            payloadLen := h.payloadLen
            payloadOffset := h.payloadOffset }

def decodeUdpPacketBinary (net : NetText) (body : List Byte) : Except String UDPPacket :=
  match parseUdpPacketHeader net body with
  | .error e => .error e
  | .ok h =>
    .ok
      { content := (body.drop h.payloadOffset).take h.payloadLen
        localAddr := h.localAddr
        remoteAddr := some h.remoteAddr }

end Udp
end FrpRs
