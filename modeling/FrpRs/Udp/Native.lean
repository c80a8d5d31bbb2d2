import FrpRs.Udp.NetText
import FrpRs.Udp.RoundTrip

/-!
# Native socket addresses in the binary codec

The encoders that skip the text form of an address, and the two decoders that own
their buffer.  Encoding a socket address gives the bytes its text would give, and
the native decoder accepts what the message decoder accepts, up to zones, which a
socket address cannot carry.
-/

namespace FrpRs
namespace Udp

open Bytes

def SocketAddr.new (ip : IpAddr) (port : UInt16) : SocketAddr :=
  match ip with
  | .v4 ip => .v4 ip port
  | .v6 ip => .v6 ip port 0 0

def SocketAddr.port : SocketAddr -> UInt16
  | .v4 _ port => port
  | .v6 _ port _ _ => port

def SocketAddr.toUdpAddr (net : NetText) (addr : SocketAddr) : UdpAddr :=
  { ip := net.toText addr.ip, port := addr.port, zone := "" }

/-!
## Encoders
-/

def socketAddrToEnc : SocketAddr -> EncAddr
  | .v4 ip port => encFromOctets 4 ip.octets port ""
  | .v6 ip port _ _ =>
    match ip.toIpv4Mapped with
    | some v4 => encFromOctets 4 v4.octets port ""
    | none => encFromOctets 6 ip.octets port ""

/-- The size check and the body writer, behind the conversion of the local
address. -/
def encodeSocketBody (content : List Byte) (localB : Except String (Option EncAddr))
    (remote : SocketAddr) (out : List Byte) : Except String Unit × List Byte :=
  if content.length > maxUdpPayloadSize then
    (.error (payloadTooLong content.length), out)
  else
    match localB with
    | .error e => (.error e, out)
    | .ok localB => encodeBody content localB (socketAddrToEnc remote) out

def encodeUdpPacketBinarySocketAddr (net : NetText) (content : List Byte)
    (localAddr : Option UdpAddr) (remote : SocketAddr) (out : List Byte) :
    Except String Unit × List Byte :=
  encodeSocketBody content (mapTranspose (udpAddrToEnc net) localAddr) remote out

structure PreEncodedUdpAddr where
  family : UInt8
  ip : List Byte
  port : UInt16
  zone : String
deriving DecidableEq, Repr

def PreEncodedUdpAddr.asEnc (addr : PreEncodedUdpAddr) : EncAddr :=
  { family := addr.family, ip := addr.ip, port := addr.port, zone := addr.zone }

def preEncodeUdpAddr (net : NetText) (addr : UdpAddr) : Except String PreEncodedUdpAddr :=
  match udpAddrToEnc net addr with
  | .error e => .error e
  | .ok enc =>
    .ok { family := enc.family, ip := enc.ip, port := enc.port, zone := enc.zone }

def encodeUdpPacketBinaryLocalPre (content : List Byte)
    (localAddr : Option PreEncodedUdpAddr) (remote : SocketAddr) (out : List Byte) :
    Except String Unit × List Byte :=
  encodeSocketBody content (.ok (localAddr.map PreEncodedUdpAddr.asEnc)) remote out

def encodeUdpPacketBinarySocketAddrLocal (content : List Byte)
    (localAddr : Option SocketAddr) (remote : SocketAddr) (out : List Byte) :
    Except String Unit × List Byte :=
  encodeSocketBody content (.ok (localAddr.map socketAddrToEnc)) remote out

/-- A caller that pre-encodes its local address: a failed pre-encoding writes
nothing. -/
def preEncodeAndEncode (net : NetText) (content : List Byte) (localAddr : Option UdpAddr)
    (remote : SocketAddr) (out : List Byte) : Except String Unit × List Byte :=
  match mapTranspose (preEncodeUdpAddr net) localAddr with
  | .error e => (.error e, out)
  | .ok localPre => encodeUdpPacketBinaryLocalPre content localPre remote out

/-!
## The encoders agree
-/

def AppendsOrKeeps (out : List Byte) (r : Except String Unit × List Byte) : Prop :=
  (exists body, r = (.ok (), out ++ body)) ∨ (exists e, r = (.error e, out))

/-- Calls that all append the same bytes, or all fail and leave the buffer as it
was. -/
def AllAgree (out : List Byte) (rs : List (Except String Unit × List Byte)) : Prop :=
  (exists body, forall r, r ∈ rs -> r = (.ok (), out ++ body)) ∨
    (forall r, r ∈ rs -> exists e, r = (.error e, out))

theorem encodeBody_appendsOrKeeps (content : List Byte) (localB : Option EncAddr)
    (remoteB : EncAddr) (out : List Byte) :
    AppendsOrKeeps out (encodeBody content localB remoteB out) := by
  rw [encodeBody_eq]
  split
  · exact .inr ⟨_, rfl⟩
  · exact .inl ⟨_, rfl⟩

theorem encodeSocketBody_appendsOrKeeps (content : List Byte)
    (localB : Except String (Option EncAddr)) (remote : SocketAddr) (out : List Byte) :
    AppendsOrKeeps out (encodeSocketBody content localB remote out) := by
  unfold encodeSocketBody
  split
  · exact .inr ⟨_, rfl⟩
  · cases localB with
    | error e =>
      exact .inr ⟨e, rfl⟩
    | ok localB =>
      exact encodeBody_appendsOrKeeps content localB (socketAddrToEnc remote) out

theorem encodeUdpPacketBinaryInto_appendsOrKeeps (net : NetText) (packet : UDPPacket)
    (out : List Byte) :
    AppendsOrKeeps out (encodeUdpPacketBinaryInto net packet out) := by
  unfold encodeUdpPacketBinaryInto
  cases packet.remoteAddr with
  | none =>
    exact .inr ⟨_, rfl⟩
  | some remote =>
    simp only
    split
    · exact .inr ⟨_, rfl⟩
    · cases mapTranspose (udpAddrToEnc net) packet.localAddr with
      | error e =>
        exact .inr ⟨e, rfl⟩
      | ok localB =>
        cases udpAddrToEnc net remote with
        | error e =>
          exact .inr ⟨e, rfl⟩
        | ok remoteB =>
          exact encodeBody_appendsOrKeeps packet.content localB remoteB out

variable {net : NetText}

theorem udpAddrToEnc_toUdpAddr (hempty : net.parse "" = none) {addr : SocketAddr}
    (hback : net.ReadsBack addr.ip) :
    udpAddrToEnc net (addr.toUdpAddr net) = .ok (socketAddrToEnc addr) := by
  have hnonempty : ¬ (addr.port = 0 ∧ net.toText addr.ip = "") := by
    rintro ⟨-, htext⟩
    unfold NetText.ReadsBack at hback
    rw [htext, hempty] at hback
    cases hback
  have hparse : net.parse (net.toText addr.ip) = some addr.ip := hback
  unfold udpAddrToEnc SocketAddr.toUdpAddr
  rw [if_neg hnonempty]
  rw [hparse]
  cases addr with
  | v4 ip port =>
    rfl
  | v6 ip port flowinfo scopeId =>
    unfold SocketAddr.ip socketAddrToEnc
    simp only
    cases ip.toIpv4Mapped with
    | some v4 =>
      rfl
    | none =>
      rfl

theorem mapTranspose_preEncode (net : NetText) (localAddr : Option UdpAddr) :
    (mapTranspose (preEncodeUdpAddr net) localAddr).map
        (fun localPre => localPre.map PreEncodedUdpAddr.asEnc) =
      mapTranspose (udpAddrToEnc net) localAddr := by
  cases localAddr with
  | none =>
    rfl
  | some addr =>
    show Except.map _ ((preEncodeUdpAddr net addr).map some) =
      (udpAddrToEnc net addr).map some
    unfold preEncodeUdpAddr
    cases udpAddrToEnc net addr <;> rfl

theorem encodeUdpPacketBinaryInto_socket (hempty : net.parse "" = none) {remote : SocketAddr}
    (hback : net.ReadsBack remote.ip) (content : List Byte) (localAddr : Option UdpAddr)
    (out : List Byte) :
    encodeUdpPacketBinaryInto net
        { content := content, localAddr := localAddr,
          remoteAddr := some (remote.toUdpAddr net) } out =
      encodeUdpPacketBinarySocketAddr net content localAddr remote out := by
  have henc := udpAddrToEnc_toUdpAddr hempty hback
  unfold encodeUdpPacketBinaryInto encodeUdpPacketBinarySocketAddr encodeSocketBody
  cases mapTranspose (udpAddrToEnc net) localAddr with
  | error e => rfl
  | ok localB => simp only [henc]

theorem preEncodeAndEncode_cases (net : NetText) (content : List Byte)
    (localAddr : Option UdpAddr) (remote : SocketAddr) (out : List Byte) :
    preEncodeAndEncode net content localAddr remote out =
        encodeUdpPacketBinarySocketAddr net content localAddr remote out ∨
      ((exists e, preEncodeAndEncode net content localAddr remote out = (.error e, out)) ∧
        exists e, encodeUdpPacketBinarySocketAddr net content localAddr remote out =
          (.error e, out)) := by
  have hsame := mapTranspose_preEncode net localAddr
  unfold preEncodeAndEncode encodeUdpPacketBinarySocketAddr encodeUdpPacketBinaryLocalPre
  cases hpre : mapTranspose (preEncodeUdpAddr net) localAddr with
  | error e =>
    rw [hpre] at hsame
    rw [← hsame]
    right
    refine ⟨⟨e, rfl⟩, ?_⟩
    unfold encodeSocketBody
    split
    · exact ⟨_, rfl⟩
    · exact ⟨e, rfl⟩
  | ok localPre =>
    rw [hpre] at hsame
    rw [← hsame]
    left
    rfl

theorem allAgree_three (hempty : net.parse "" = none) {remote : SocketAddr}
    (hback : net.ReadsBack remote.ip) (content : List Byte) (localAddr : Option UdpAddr)
    (out : List Byte) :
    AllAgree out
      [encodeUdpPacketBinaryInto net
        { content := content, localAddr := localAddr,
          remoteAddr := some (remote.toUdpAddr net) } out,
      encodeUdpPacketBinarySocketAddr net content localAddr remote out,
      preEncodeAndEncode net content localAddr remote out] := by
  rw [encodeUdpPacketBinaryInto_socket hempty hback]
  have hsocket : AppendsOrKeeps out
      (encodeUdpPacketBinarySocketAddr net content localAddr remote out) :=
    encodeSocketBody_appendsOrKeeps content _ remote out
  rcases preEncodeAndEncode_cases net content localAddr remote out with
    hpre | ⟨⟨e, hpre⟩, e', hfail⟩
  · rw [hpre]
    rcases hsocket with ⟨body, hok⟩ | ⟨e, hfail⟩
    · exact .inl ⟨body, by simp [hok]⟩
    · exact .inr (by simp [hfail])
  · exact .inr (by simp [hpre, hfail])

theorem mapTranspose_toUdpAddr (hempty : net.parse "" = none) (hback : forall ip, net.ReadsBack ip)
    (localAddr : Option SocketAddr) :
    mapTranspose (udpAddrToEnc net) (localAddr.map (SocketAddr.toUdpAddr net)) =
      .ok (localAddr.map socketAddrToEnc) := by
  cases localAddr with
  | none =>
    rfl
  | some addr =>
    have henc := udpAddrToEnc_toUdpAddr hempty (hback addr.ip)
    show (udpAddrToEnc net (addr.toUdpAddr net)).map some = _
    rw [henc]
    rfl

/-- The encoders agree for every content, local address and remote socket address:
either all of them append the same bytes, or all fail with the buffer as it was.
Each of them, on any input, appends to its buffer or leaves it as it was. -/
theorem udp_encoders_agree (utf8Error : List Byte -> String) (content out : List Byte)
    (remote : SocketAddr) :
    (forall localAddr : Option UdpAddr,
      AllAgree out
        [encodeUdpPacketBinaryInto (stdNet utf8Error)
          { content := content, localAddr := localAddr,
            remoteAddr := some (remote.toUdpAddr (stdNet utf8Error)) } out,
        encodeUdpPacketBinarySocketAddr (stdNet utf8Error) content localAddr remote out,
        preEncodeAndEncode (stdNet utf8Error) content localAddr remote out]) ∧
    (forall localAddr : Option SocketAddr,
      AllAgree out
        [encodeUdpPacketBinaryInto (stdNet utf8Error)
          { content := content,
            localAddr := localAddr.map (SocketAddr.toUdpAddr (stdNet utf8Error)),
            remoteAddr := some (remote.toUdpAddr (stdNet utf8Error)) } out,
        encodeUdpPacketBinarySocketAddr (stdNet utf8Error) content
          (localAddr.map (SocketAddr.toUdpAddr (stdNet utf8Error))) remote out,
        preEncodeAndEncode (stdNet utf8Error) content
          (localAddr.map (SocketAddr.toUdpAddr (stdNet utf8Error))) remote out,
        encodeUdpPacketBinarySocketAddrLocal content localAddr remote out]) ∧
    (forall packet, AppendsOrKeeps out
      (encodeUdpPacketBinaryInto (stdNet utf8Error) packet out)) ∧
    (forall localAddr, AppendsOrKeeps out
      (encodeUdpPacketBinarySocketAddr (stdNet utf8Error) content localAddr remote out)) ∧
    (forall localAddr, AppendsOrKeeps out
      (encodeUdpPacketBinaryLocalPre content localAddr remote out)) ∧
    (forall localAddr, AppendsOrKeeps out
      (encodeUdpPacketBinarySocketAddrLocal content localAddr remote out)) := by
  have hempty := stdNet_parse_empty utf8Error
  have hback := stdNet_readsBack utf8Error
  refine ⟨fun localAddr => allAgree_three hempty (hback remote.ip) content localAddr out,
    fun localAddr => ?_,
    fun packet => encodeUdpPacketBinaryInto_appendsOrKeeps _ packet out,
    fun _ => encodeSocketBody_appendsOrKeeps content _ remote out,
    fun _ => encodeSocketBody_appendsOrKeeps content _ remote out,
    fun _ => encodeSocketBody_appendsOrKeeps content _ remote out⟩
  have hlocal : encodeUdpPacketBinarySocketAddrLocal content localAddr remote out =
      encodeUdpPacketBinarySocketAddr (stdNet utf8Error) content
        (localAddr.map (SocketAddr.toUdpAddr (stdNet utf8Error))) remote out := by
    unfold encodeUdpPacketBinarySocketAddr
    rw [mapTranspose_toUdpAddr hempty hback]
    rfl
  rw [hlocal]
  rcases allAgree_three hempty (hback remote.ip) content
      (localAddr.map (SocketAddr.toUdpAddr (stdNet utf8Error))) out with ⟨body, hok⟩ | hfail
  · left
    refine ⟨body, fun r hr => ?_⟩
    simp only [List.mem_cons, List.not_mem_nil, or_false] at hr hok
    rcases hr with hr | hr | hr | hr
    · exact hok r (.inl hr)
    · exact hok r (.inr (.inl hr))
    · exact hok r (.inr (.inr hr))
    · exact hok r (.inr (.inl hr))
  · right
    intro r hr
    simp only [List.mem_cons, List.not_mem_nil, or_false] at hr hfail
    rcases hr with hr | hr | hr | hr
    · exact hfail r (.inl hr)
    · exact hfail r (.inr (.inl hr))
    · exact hfail r (.inr (.inr hr))
    · exact hfail r (.inr (.inl hr))

/-!
## Decoders
-/

/-- Native form of parsed parts.  `none` stands for the source's `unreachable!`,
since the family was checked when the parts were read. -/
def addrPartsToSocket (p : AddrParts) : Option SocketAddr :=
  p.toIp.map fun ip => SocketAddr.new ip p.port

def udpAddrToSocket (net : NetText) (addr : UdpAddr) : Option SocketAddr :=
  (net.parse addr.ip).map fun ip => SocketAddr.new ip addr.port

def AddrParts.isZoned (p : AddrParts) : Bool :=
  p.family = 6 && !p.zone.isEmpty

/-- `copy_within(offset.., 0)`: the tail is copied over the front. -/
def copyToFront (body : List Byte) (offset : Nat) : List Byte :=
  body.drop offset ++ body.drop (body.length - offset)

def takeOrCopyPayload (bufferSize : Nat) (body : List Byte) (payloadLen payloadOffset : Nat) :
    List Byte × List Byte :=
  if payloadLen < bufferSize then ((body.drop payloadOffset).take payloadLen, body)
  else ((copyToFront body payloadOffset).take payloadLen, [])

def decodeUdpPacketBinaryOwned (net : NetText) (bufferSize : Nat) (body : List Byte) :
    Except String UDPPacket × List Byte :=
  match parseUdpPacketHeader net body with
  | .error e => (.error e, body)
  | .ok h =>
    let payload := takeOrCopyPayload bufferSize body h.payloadLen h.payloadOffset
    (.ok
      { content := payload.1
        localAddr := h.localAddr
        remoteAddr := some h.remoteAddr }, payload.2)

structure SocketUdpPacket where
  content : List Byte
  localAddr : Option SocketAddr
  remoteAddr : SocketAddr
deriving DecidableEq, Repr

def unreachableFamily : String :=
  "internal error: entered unreachable code: family validated above"

/-- The native addresses of a header. -/
def socketAddrs (h : DecodedHeaderParts) : Except String (Option SocketAddr × SocketAddr) :=
  match addrPartsToSocket h.remoteAddr with
  | none => .error unreachableFamily
  | some remote =>
    match h.localAddr with
    | none => .ok (none, remote)
    | some l =>
      match addrPartsToSocket l with
      | none => .error unreachableFamily
      | some l => .ok (some l, remote)

def decodeUdpPacketBinarySocketOwned (net : NetText) (bufferSize : Nat) (body : List Byte) :
    Except String (Option SocketUdpPacket) × List Byte :=
  match parseUdpPacketHeaderParts net body with
  | .error e => (.error e, body)
  | .ok h =>
    if (h.localAddr.map AddrParts.isZoned).getD false || h.remoteAddr.isZoned then
      (.ok none, body)
    else
      match socketAddrs h with
      | .error e => (.error e, body)
      | .ok addrs =>
        let payload := takeOrCopyPayload bufferSize body h.payloadLen h.payloadOffset
        (.ok (some
          { content := payload.1, localAddr := addrs.1, remoteAddr := addrs.2 }),
          payload.2)

/-!
## The decoders agree
-/

variable {body : List Byte}

theorem takeOrCopyPayload_content (bufferSize : Nat) {payloadLen payloadOffset : Nat}
    (h : (body.drop payloadOffset).length = payloadLen) :
    (takeOrCopyPayload bufferSize body payloadLen payloadOffset).1 =
      (body.drop payloadOffset).take payloadLen := by
  unfold takeOrCopyPayload
  split
  · rfl
  · show (body.drop payloadOffset ++ _).take payloadLen = _
    rw [List.take_append_of_le_length (Nat.le_of_eq h.symm)]

/-- The two forms of an address that was read: the message form carries the text
and the zone, the native one the address itself. -/
structure Forms (net : NetText) (p : AddrParts) (addr : UdpAddr) (socket : SocketAddr) :
    Prop where
  message : addrPartsToUdp net p = .ok addr
  native : addrPartsToSocket p = some socket
  zoned : p.isZoned = true ↔ addr.zone ≠ ""
  same : udpAddrToSocket net addr = some socket

theorem readAddrParts_forms (hback : forall ip, net.ReadsBack ip) {offset : Nat} {p : AddrParts}
    (hread : readAddrParts net body offset = .ok p) :
    exists addr socket, Forms net p addr socket := by
  obtain ⟨hparse, ⟨zone, hzone⟩, hplain⟩ := readAddrParts_ok hread
  obtain ⟨-, -, -, hfamily, -⟩ := wire_parseAddrParts hparse
  have hutf8 := utf8_fromUtf8 hzone
  have hempty : p.zone = [] ↔ zone = "" := by
    rw [← hutf8]
    exact utf8_eq_nil
  rcases ipLen_cases hfamily with ⟨hfour, hlen⟩ | ⟨hsix, hlen⟩
  · have hnil : zone = "" := hempty.mp (hplain hfour)
    have hip : exists ip, p.toIp = some (.v4 ip) := ⟨_, if_pos hfour⟩
    obtain ⟨ip, hip⟩ := hip
    refine ⟨{ ip := ip.toText, port := p.port, zone := zone }, .v4 ip p.port, ?_, ?_, ?_, ?_⟩
    · unfold addrPartsToUdp
      simp only [hzone, hip]
      rw [if_neg (fun hne => hne hnil)]
    · unfold addrPartsToSocket
      rw [hip]
      rfl
    · unfold AddrParts.isZoned
      simp [hfour, hnil]
    · have hreads : net.parse ip.toText = some (.v4 ip) := hback (.v4 ip)
      unfold udpAddrToSocket
      rw [hreads]
      rfl
  · have hnotFour : ¬ p.family = 4 := by
      rw [hsix]
      decide
    have hip : p.toIp = some (.v6 ⟨p.ip, hlen⟩) := by
      unfold AddrParts.toIp
      rw [if_neg hnotFour, dif_pos hlen]
    refine ⟨{ ip := net.ipv6ToString ⟨p.ip, hlen⟩, port := p.port, zone := zone },
      .v6 ⟨p.ip, hlen⟩ p.port 0 0, ?_, ?_, ?_, ?_⟩
    · unfold addrPartsToUdp
      simp only [hzone, hip]
    · unfold addrPartsToSocket
      rw [hip]
      rfl
    · unfold AddrParts.isZoned
      simp [hsix, hempty]
    · have hreads : net.parse (net.ipv6ToString ⟨p.ip, hlen⟩) = some (.v6 ⟨p.ip, hlen⟩) :=
        hback (.v6 ⟨p.ip, hlen⟩)
      unfold udpAddrToSocket
      rw [hreads]
      rfl

def UDPPacket.Zoned (packet : UDPPacket) : Prop :=
  (exists addr, packet.localAddr = some addr ∧ addr.zone ≠ "") ∨
    (exists addr, packet.remoteAddr = some addr ∧ addr.zone ≠ "")

/-- Both decoders on a body whose header was accepted. -/
theorem decoders_of_header (hback : forall ip, net.ReadsBack ip) {h : DecodedHeaderParts}
    (hparse : parseUdpPacketHeaderParts net body = .ok h) :
    exists localAddr remoteAddr localSocket remoteSocket,
      (forall bufferSize, exists left, decodeUdpPacketBinaryOwned net bufferSize body =
        (.ok { content := (body.drop h.payloadOffset).take h.payloadLen,
               localAddr := localAddr, remoteAddr := some remoteAddr }, left)) ∧
      ((exists addr, localAddr = some addr ∧ addr.zone ≠ "") ∨ remoteAddr.zone ≠ "" ->
        forall bufferSize, decodeUdpPacketBinarySocketOwned net bufferSize body =
          (.ok none, body)) ∧
      (¬ ((exists addr, localAddr = some addr ∧ addr.zone ≠ "") ∨ remoteAddr.zone ≠ "") ->
        forall bufferSize, exists left, decodeUdpPacketBinarySocketOwned net bufferSize body =
          (.ok (some { content := (body.drop h.payloadOffset).take h.payloadLen,
                       localAddr := localSocket, remoteAddr := remoteSocket }), left)) ∧
      localAddr.map (udpAddrToSocket net) = localSocket.map some ∧
      udpAddrToSocket net remoteAddr = some remoteSocket := by
  obtain ⟨-, -, hpayload, hlocal, ⟨offset, hremote⟩, -⟩ := parseUdpPacketHeaderParts_ok hparse
  obtain ⟨remoteAddr, remoteSocket, hremoteForms⟩ := readAddrParts_forms hback hremote
  have hlocalForms : exists localAddr localSocket,
      mapTranspose (addrPartsToUdp net) h.localAddr = .ok localAddr ∧
      socketAddrs h = .ok (localSocket, remoteSocket) ∧
      ((h.localAddr.map AddrParts.isZoned).getD false = true ↔
        exists addr, localAddr = some addr ∧ addr.zone ≠ "") ∧
      localAddr.map (udpAddrToSocket net) = localSocket.map some := by
    cases hl : h.localAddr with
    | none =>
      refine ⟨none, none, rfl, ?_, by simp, rfl⟩
      unfold socketAddrs
      simp only [hremoteForms.native, hl]
    | some p =>
      obtain ⟨localOffset, hread⟩ := hlocal p hl
      obtain ⟨addr, socket, hforms⟩ := readAddrParts_forms hback hread
      refine ⟨some addr, some socket, ?_, ?_, ?_, ?_⟩
      · show (addrPartsToUdp net p).map some = _
        rw [hforms.message]
        rfl
      · unfold socketAddrs
        simp only [hremoteForms.native, hl, hforms.native]
      · simpa using hforms.zoned
      · simp [hforms.same]
  obtain ⟨localAddr, localSocket, hmessage, hsockets, hzoned, hsame⟩ := hlocalForms
  refine ⟨localAddr, remoteAddr, localSocket, remoteSocket, ?_, ?_, ?_, hsame,
    hremoteForms.same⟩
  · intro bufferSize
    have hheader : parseUdpPacketHeader net body = .ok
        { localAddr := localAddr, remoteAddr := remoteAddr, payloadLen := h.payloadLen,
          payloadOffset := h.payloadOffset } := by
      unfold parseUdpPacketHeader
      simp only [hparse, hmessage, hremoteForms.message]
    unfold decodeUdpPacketBinaryOwned
    simp only [hheader]
    rw [takeOrCopyPayload_content bufferSize hpayload]
    exact ⟨_, rfl⟩
  · intro hzone bufferSize
    have hfallback : ((h.localAddr.map AddrParts.isZoned).getD false ||
        h.remoteAddr.isZoned) = true := by
      rw [Bool.or_eq_true, hzoned, hremoteForms.zoned]
      exact hzone
    unfold decodeUdpPacketBinarySocketOwned
    simp only [hparse]
    rw [if_pos hfallback]
  · intro hplain bufferSize
    have hfallback : ¬ ((h.localAddr.map AddrParts.isZoned).getD false ||
        h.remoteAddr.isZoned) = true := by
      rw [Bool.or_eq_true, hzoned, hremoteForms.zoned]
      exact hplain
    unfold decodeUdpPacketBinarySocketOwned
    simp only [hparse]
    rw [if_neg hfallback]
    simp only [hsockets]
    rw [takeOrCopyPayload_content bufferSize hpayload]
    exact ⟨_, rfl⟩

theorem decoders_of_error {e : String} (hparse : parseUdpPacketHeaderParts net body = .error e)
    (bufferSize : Nat) :
    decodeUdpPacketBinaryOwned net bufferSize body = (.error e, body) ∧
      decodeUdpPacketBinarySocketOwned net bufferSize body = (.error e, body) := by
  have hheader : parseUdpPacketHeader net body = .error e := by
    unfold parseUdpPacketHeader
    simp only [hparse]
  constructor
  · unfold decodeUdpPacketBinaryOwned
    simp only [hheader]
  · unfold decodeUdpPacketBinarySocketOwned
    simp only [hparse]

theorem zoned_iff {content : List Byte} {localAddr : Option UdpAddr} {remoteAddr : UdpAddr} :
    UDPPacket.Zoned { content := content, localAddr := localAddr, remoteAddr := some remoteAddr } ↔
      (exists addr, localAddr = some addr ∧ addr.zone ≠ "") ∨ remoteAddr.zone ≠ "" := by
  unfold UDPPacket.Zoned
  simp

/-- The two decoders that own their buffer agree on every body and every buffer
size: the same errors with the buffer as it was; no native packet, with the buffer
as it was, exactly for a packet with a zone; otherwise the same content and the
native form of the same addresses.  Neither content depends on whether the buffer
was taken. -/
theorem owned_decoders_agree (utf8Error : List Byte -> String) (bufferSize : Nat)
    (body : List Byte) :
    (forall e,
      (decodeUdpPacketBinarySocketOwned (stdNet utf8Error) bufferSize body).1 = .error e ↔
        (decodeUdpPacketBinaryOwned (stdNet utf8Error) bufferSize body).1 = .error e) ∧
    (forall e,
      (decodeUdpPacketBinaryOwned (stdNet utf8Error) bufferSize body).1 = .error e ->
        (decodeUdpPacketBinarySocketOwned (stdNet utf8Error) bufferSize body).2 = body ∧
          (decodeUdpPacketBinaryOwned (stdNet utf8Error) bufferSize body).2 = body) ∧
    ((decodeUdpPacketBinarySocketOwned (stdNet utf8Error) bufferSize body).1 = .ok none ↔
      exists packet,
        (decodeUdpPacketBinaryOwned (stdNet utf8Error) bufferSize body).1 = .ok packet ∧
          packet.Zoned) ∧
    ((decodeUdpPacketBinarySocketOwned (stdNet utf8Error) bufferSize body).1 = .ok none ->
      (decodeUdpPacketBinarySocketOwned (stdNet utf8Error) bufferSize body).2 = body) ∧
    (forall packet,
      (decodeUdpPacketBinaryOwned (stdNet utf8Error) bufferSize body).1 = .ok packet ->
      ¬ packet.Zoned ->
      exists native,
        (decodeUdpPacketBinarySocketOwned (stdNet utf8Error) bufferSize body).1 =
          .ok (some native) ∧
        native.content = packet.content ∧
        native.localAddr.map some =
          packet.localAddr.map (udpAddrToSocket (stdNet utf8Error)) ∧
        some (some native.remoteAddr) =
          packet.remoteAddr.map (udpAddrToSocket (stdNet utf8Error))) ∧
    (forall other,
      (decodeUdpPacketBinaryOwned (stdNet utf8Error) other body).1 =
        (decodeUdpPacketBinaryOwned (stdNet utf8Error) bufferSize body).1 ∧
      (decodeUdpPacketBinarySocketOwned (stdNet utf8Error) other body).1 =
        (decodeUdpPacketBinarySocketOwned (stdNet utf8Error) bufferSize body).1) := by
  cases hparse : parseUdpPacketHeaderParts (stdNet utf8Error) body with
  | error e =>
    have hmessage := fun size => (decoders_of_error hparse size).1
    have hnative := fun size => (decoders_of_error hparse size).2
    simp [hmessage, hnative]
  | ok h =>
    obtain ⟨localAddr, remoteAddr, localSocket, remoteSocket, hmessage, hzoned, hplain,
      hsameLocal, hsameRemote⟩ := decoders_of_header (stdNet_readsBack utf8Error) hparse
    have hmessageOk : forall size, (decodeUdpPacketBinaryOwned (stdNet utf8Error) size body).1 =
        .ok { content := (body.drop h.payloadOffset).take h.payloadLen,
              localAddr := localAddr, remoteAddr := some remoteAddr } := by
      intro size
      obtain ⟨left, heq⟩ := hmessage size
      rw [heq]
    by_cases hzone : (exists addr, localAddr = some addr ∧ addr.zone ≠ "") ∨
        remoteAddr.zone ≠ ""
    · have hnative := hzoned hzone
      simp only [hmessageOk, hnative]
      refine ⟨by simp, by simp, ?_, fun _ => trivial, ?_, fun _ => ⟨trivial, trivial⟩⟩
      · exact ⟨fun _ => ⟨_, rfl, zoned_iff.mpr hzone⟩, fun _ => trivial⟩
      · intro packet heq hnot
        cases heq
        exact absurd (zoned_iff.mpr hzone) hnot
    · have hnativeOk : forall size,
          (decodeUdpPacketBinarySocketOwned (stdNet utf8Error) size body).1 =
          .ok (some { content := (body.drop h.payloadOffset).take h.payloadLen,
                      localAddr := localSocket, remoteAddr := remoteSocket }) := by
        intro size
        obtain ⟨left, heq⟩ := hplain hzone size
        rw [heq]
      simp only [hmessageOk, hnativeOk]
      refine ⟨by simp, by simp, ?_, by simp, ?_, fun _ => ⟨trivial, trivial⟩⟩
      · constructor
        · intro heq
          cases heq
        · rintro ⟨packet, heq, hpacket⟩
          cases heq
          exact absurd (zoned_iff.mp hpacket) hzone
      · intro packet heq _
        cases heq
        refine ⟨_, rfl, rfl, hsameLocal.symm, ?_⟩
        rw [Option.map_some, hsameRemote]

end Udp
end FrpRs
