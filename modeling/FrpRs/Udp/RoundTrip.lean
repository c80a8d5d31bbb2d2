import FrpRs.Udp.Binary

/-!
# Round trips of the binary UDP codec

Both directions go through the bytes of one address: the parser reads back what
the writer put down, and what the parser accepted is what the writer puts down.
-/

namespace FrpRs
namespace Udp

open List Bytes
open Protocol (v2MaxFramePayload)

def wireAddr (family : UInt8) (ip : List Byte) (port : UInt16) (zone : List Byte) :
    List Byte :=
  family :: (ip ++ (u16Be port ++ (UInt8.ofNat zone.length :: zone)))

def EncAddr.wire (addr : EncAddr) : List Byte :=
  wireAddr addr.family addr.ip addr.port (utf8 addr.zone)

def AddrParts.wire (p : AddrParts) : List Byte :=
  wireAddr p.family p.ip p.port p.zone

theorem wireAddr_length (family : UInt8) (ip : List Byte) (port : UInt16)
    (zone : List Byte) :
    (wireAddr family ip port zone).length = 4 + ip.length + zone.length := by
  simp [wireAddr]
  omega

theorem putEncAddr_eq (out : List Byte) (addr : EncAddr) :
    putEncAddr out addr = out ++ addr.wire := by
  simp [putEncAddr, EncAddr.wire, wireAddr]

theorem EncAddr.len_eq (addr : EncAddr) : addr.len = addr.wire.length := by
  unfold EncAddr.len EncAddr.wire
  rw [wireAddr_length]
  omega

/-!
## One address
-/

theorem getD_drop (l : List Byte) (n i : Nat) : l.getD (n + i) 0 = (l.drop n).getD i 0 := by
  rw [getD_eq_getElem?_getD, getD_eq_getElem?_getD, getElem?_drop]

/-- Reading an address behind a prefix gives back the fields it was written from. -/
theorem parseAddrParts_wire (before rest : List Byte) {family : UInt8} {ip : List Byte}
    (port : UInt16) {zone : List Byte} (hfamily : ipLen family = some ip.length)
    (hzone : zone.length ≤ 255) :
    parseAddrParts (before ++ (wireAddr family ip port zone ++ rest)) before.length =
      .ok
        { family := family
          ip := ip
          port := port
          zone := zone
          offset := before.length
          stop := before.length + (wireAddr family ip port zone).length } := by
  have hlen := wireAddr_length family ip port zone
  have hbody : (before ++ (wireAddr family ip port zone ++ rest)).length - before.length =
      (wireAddr family ip port zone).length + rest.length := by
    rw [length_append, length_append]
    omega
  have hdrop : (before ++ (wireAddr family ip port zone ++ rest)).drop before.length =
      wireAddr family ip port zone ++ rest := drop_left
  generalize before ++ (wireAddr family ip port zone ++ rest) = body at hbody hdrop
  have hhead : body.getD before.length 0 = family := by
    have h := getD_drop body before.length 0
    rw [hdrop] at h
    exact h
  have hip : (body.drop (before.length + 1)).take ip.length = ip := by
    rw [← drop_drop, hdrop]
    simp [wireAddr]
  have hport : readU16Be (body.drop (before.length + 1 + ip.length)) = port := by
    rw [Nat.add_assoc, ← drop_drop, hdrop]
    have h : (wireAddr family ip port zone ++ rest).drop (1 + ip.length) =
        u16Be port ++ (UInt8.ofNat zone.length :: zone ++ rest) := by
      rw [← drop_drop]
      simp [wireAddr]
    rw [h, readU16Be_append]
  have hzoneDrop : (wireAddr family ip port zone ++ rest).drop (1 + ip.length + 2) =
      UInt8.ofNat zone.length :: zone ++ rest := by
    rw [← drop_drop, ← drop_drop]
    simp [wireAddr, drop_append]
  have hzoneLen : (body.getD (before.length + 1 + ip.length + 2) 0).toNat = zone.length := by
    have h := getD_drop body (before.length + (1 + ip.length + 2)) 0
    rw [← drop_drop, hdrop, hzoneDrop] at h
    have hindex : before.length + 1 + ip.length + 2 =
        before.length + (1 + ip.length + 2) + 0 := by
      omega
    rw [hindex, h]
    show (UInt8.ofNat zone.length).toNat = zone.length
    rw [UInt8.toNat_ofNat']
    omega
  have hzoneBytes : (body.drop (before.length + 1 + ip.length + 3)).take zone.length =
      zone := by
    have hindex : before.length + 1 + ip.length + 3 =
        before.length + (1 + ip.length + 2) + 1 := by
      omega
    rw [hindex, ← drop_drop, ← drop_drop, hdrop, hzoneDrop]
    simp
  unfold parseAddrParts
  rw [if_neg (by omega)]
  simp only [hhead, hfamily]
  rw [if_neg (by omega)]
  simp only [hzoneLen]
  rw [if_neg (by omega), hip, hport, hzoneBytes, hlen]
  congr 2
  omega

variable {l : List Byte}

theorem drop_eq_getD_cons {n : Nat} (h : n < l.length) :
    l.drop n = l.getD n 0 :: l.drop (n + 1) := by
  rw [drop_eq_getElem_cons h, getD_eq_getElem?_getD, getElem?_eq_getElem h,
    Option.getD_some]

theorem drop_eq_take_append (l : List Byte) (n len : Nat) :
    l.drop n = (l.drop n).take len ++ l.drop (n + len) := by
  rw [← drop_drop, take_append_drop]

theorem drop_eq_u16Be_append {n : Nat} (h : n + 2 ≤ l.length) :
    l.drop n = u16Be (readU16Be (l.drop n)) ++ l.drop (n + 2) := by
  rw [u16Be_readU16Be (by rw [length_drop]; omega)]
  exact drop_eq_take_append l n 2

variable {body : List Byte}
variable {p : AddrParts} {offset : Nat}

/-- The parts read from a body are the bytes at that place. -/
theorem wire_parseAddrParts (h : parseAddrParts body offset = .ok p) :
    body.drop offset = p.wire ++ body.drop p.stop ∧
      p.stop = offset + p.wire.length ∧ p.stop ≤ body.length ∧
      ipLen p.family = some p.ip.length ∧ p.zone.length ≤ 255 := by
  unfold parseAddrParts at h
  split at h
  · cases h
  · simp only at h
    split at h
    · cases h
    · rename_i n hfamily
      split at h
      · cases h
      · split at h
        · cases h
        · rename_i hlong
          cases h
          have hzone := UInt8.toNat_lt (body.getD (offset + 1 + n + 2) 0)
          generalize hz : (body.getD (offset + 1 + n + 2) 0).toNat = z at hlong hzone
          have hip : ((body.drop (offset + 1)).take n).length = n := by
            rw [length_take, length_drop]
            omega
          have hzoneLen : ((body.drop (offset + 1 + n + 3)).take z).length = z := by
            rw [length_take, length_drop]
            omega
          have hbyte : UInt8.ofNat z = body.getD (offset + 1 + n + 2) 0 := by
            rw [← hz, UInt8.ofNat_toNat]
          have hstop : offset + 3 + n + z + 1 = offset + 1 + n + 3 + z := by
            omega
          refine ⟨?_, ?_, ?_, ?_, ?_⟩
          · show body.drop offset = wireAddr _ _ _ _ ++ body.drop (offset + 3 + n + z + 1)
            unfold wireAddr
            rw [hzoneLen, hbyte, hstop]
            calc body.drop offset
                = body.getD offset 0 :: body.drop (offset + 1) :=
                  drop_eq_getD_cons (by omega)
              _ = body.getD offset 0 :: ((body.drop (offset + 1)).take n ++
                    body.drop (offset + 1 + n)) := by
                  rw [← drop_eq_take_append]
              _ = body.getD offset 0 :: ((body.drop (offset + 1)).take n ++
                    (u16Be (readU16Be (body.drop (offset + 1 + n))) ++
                      body.drop (offset + 1 + n + 2))) := by
                  rw [← drop_eq_u16Be_append (by omega)]
              _ = body.getD offset 0 :: ((body.drop (offset + 1)).take n ++
                    (u16Be (readU16Be (body.drop (offset + 1 + n))) ++
                      (body.getD (offset + 1 + n + 2) 0 ::
                        body.drop (offset + 1 + n + 2 + 1)))) := by
                  rw [← drop_eq_getD_cons (n := offset + 1 + n + 2) (by omega)]
              _ = body.getD offset 0 :: ((body.drop (offset + 1)).take n ++
                    (u16Be (readU16Be (body.drop (offset + 1 + n))) ++
                      (body.getD (offset + 1 + n + 2) 0 ::
                        ((body.drop (offset + 1 + n + 3)).take z ++
                          body.drop (offset + 1 + n + 3 + z))))) := by
                  rw [← drop_eq_take_append body (offset + 1 + n + 3) z]
              _ = _ := by simp
          · show offset + 3 + n + z + 1 = offset + (wireAddr _ _ _ _).length
            rw [wireAddr_length, hip, hzoneLen]
            omega
          · show offset + 3 + n + z + 1 ≤ body.length
            omega
          · show ipLen (body.getD offset 0) = _
            rw [hip]
            exact hfamily
          · show ((body.drop (offset + 1 + n + 3)).take z).length ≤ 255
            omega

/-!
## Addresses the encoder writes
-/

structure EncAddr.WellFormed (addr : EncAddr) : Prop where
  family : ipLen addr.family = some addr.ip.length
  zone : (utf8 addr.zone).length ≤ 255
  plain : addr.family = 4 -> addr.zone = ""

def EncAddr.parts (addr : EncAddr) (offset : Nat) : AddrParts :=
  { family := addr.family
    ip := addr.ip
    port := addr.port
    zone := utf8 addr.zone
    offset := offset
    stop := offset + addr.wire.length }

theorem readAddrParts_wire (net : NetText) (before rest : List Byte) {addr : EncAddr}
    (h : addr.WellFormed) :
    readAddrParts net (before ++ (addr.wire ++ rest)) before.length =
      .ok (addr.parts before.length) := by
  have hparse : parseAddrParts (before ++ (addr.wire ++ rest)) before.length =
      .ok (addr.parts before.length) :=
    parseAddrParts_wire before rest addr.port h.family h.zone
  have hvalid : validateAddrParts net (addr.parts before.length) = .ok () := by
    have hzone : ¬ (addr.family = 4 ∧ utf8 addr.zone ≠ []) := by
      rintro ⟨hfour, hne⟩
      exact hne (utf8_eq_nil.mpr (h.plain hfour))
    unfold validateAddrParts EncAddr.parts
    simp only [fromUtf8_utf8]
    exact if_neg hzone
  unfold readAddrParts
  simp only [hparse, hvalid]

def canonicalIp (net : NetText) : IpAddr -> String
  | .v4 ip => ip.toText
  | .v6 ip =>
    match ip.toIpv4Mapped with
    | some v4 => v4.toText
    | none => net.ipv6ToString ip

def canonicalAddr (net : NetText) (addr : UdpAddr) : UdpAddr :=
  match net.parse addr.ip with
  | some ip => { addr with ip := canonicalIp net ip }
  | none => addr

theorem parts_v4 (net : NetText) (ip : Ipv4Addr) (port : UInt16) (offset : Nat) :
    addrPartsToUdp net ((encFromOctets 4 ip.octets port "").parts offset) =
      .ok { ip := ip.toText, port := port, zone := "" } := by
  unfold addrPartsToUdp EncAddr.parts encFromOctets
  rfl

theorem parts_v6 (net : NetText) (ip : Ipv6Addr) (port : UInt16) (zone : String)
    (offset : Nat) :
    addrPartsToUdp net ((encFromOctets 6 ip.octets port zone).parts offset) =
      .ok { ip := net.ipv6ToString ip, port := port, zone := zone } := by
  have hip : ((encFromOctets 6 ip.octets port zone).parts offset).toIp =
      some (.v6 ip) := by
    unfold AddrParts.toIp EncAddr.parts encFromOctets
    simp only
    rw [if_neg (by decide), dif_pos ip.length_eq]
  unfold addrPartsToUdp
  rw [hip]
  unfold EncAddr.parts encFromOctets
  simp only [fromUtf8_utf8]

variable {net : NetText}

/-- An accepted address is written well formed, and read back canonically. -/
theorem udpAddrToEnc_canonical {addr : UdpAddr} {e : EncAddr} (h : udpAddrToEnc net addr = .ok e) :
    e.WellFormed ∧ forall offset,
      addrPartsToUdp net (e.parts offset) = .ok (canonicalAddr net addr) := by
  have hv4 : forall ip : Ipv4Addr, (encFromOctets 4 ip.octets addr.port "").WellFormed :=
    fun ip => ⟨rfl, by simp [encFromOctets], fun _ => rfl⟩
  unfold udpAddrToEnc at h
  split at h
  · cases h
  · split at h
    · cases h
    · rename_i v4 hparse
      split at h
      · cases h
      · rename_i hzone
        cases h
        refine ⟨hv4 v4, ?_⟩
        intro offset
        rw [parts_v4]
        unfold canonicalAddr
        rw [hparse]
        simp only [canonicalIp]
        rw [Decidable.not_not.mp hzone]
    · rename_i v6 hparse
      split at h
      · rename_i v4 hmapped
        split at h
        · cases h
        · rename_i hzone
          cases h
          refine ⟨hv4 v4, ?_⟩
          intro offset
          rw [parts_v4]
          unfold canonicalAddr
          rw [hparse]
          simp only [canonicalIp, hmapped]
          rw [Decidable.not_not.mp hzone]
      · rename_i hmapped
        split at h
        · cases h
        · rename_i hzone
          cases h
          refine ⟨⟨?_, by simpa [encFromOctets] using hzone, ?_⟩, ?_⟩
          · show ipLen 6 = some v6.octets.length
            rw [v6.length_eq]
            rfl
          · intro hfour
            have hsix : (6 : UInt8) = 4 := hfour
            exact absurd hsix (by decide)
          · intro offset
            rw [parts_v6]
            unfold canonicalAddr
            rw [hparse]
            simp only [canonicalIp, hmapped]

/-!
## Encoding, then decoding
-/

def wireBody (localWire remoteWire content : List Byte) (flags : UInt8) : List Byte :=
  flags :: (localWire ++ (remoteWire ++ (u16Be (UInt16.ofNat content.length) ++ content)))

def flagsOf {α : Type} (localAddr : Option α) : UInt8 :=
  if localAddr.isSome then flagRemoteAddr ||| flagLocalAddr else flagRemoteAddr

def localWire (localAddr : Option EncAddr) : List Byte :=
  (localAddr.map EncAddr.wire).getD []

theorem wireBody_length (localWire remoteWire content : List Byte) (flags : UInt8) :
    (wireBody localWire remoteWire content flags).length =
      3 + localWire.length + remoteWire.length + content.length := by
  simp [wireBody]
  omega

theorem bodyLen_eq (content : List Byte) (localAddr : Option EncAddr) (remote : EncAddr) :
    bodyLen content localAddr remote =
      (wireBody (localWire localAddr) remote.wire content (flagsOf localAddr)).length := by
  unfold bodyLen
  rw [wireBody_length, remote.len_eq]
  cases localAddr with
  | none =>
    simp [localWire]
    omega
  | some l =>
    simp [localWire, l.len_eq]
    omega

theorem encodeBody_eq (content : List Byte) (localAddr : Option EncAddr)
    (remote : EncAddr) (out : List Byte) :
    encodeBody content localAddr remote out =
      if 2 + bodyLen content localAddr remote > v2MaxFramePayload then
        (.error (frameTooLong (2 + bodyLen content localAddr remote)), out)
      else
        (.ok (), out ++
          wireBody (localWire localAddr) remote.wire content (flagsOf localAddr)) := by
  unfold encodeBody
  split
  · rfl
  · cases localAddr with
    | none => simp [putEncAddr_eq, wireBody, localWire, flagsOf]
    | some l => simp [putEncAddr_eq, wireBody, localWire, flagsOf]

variable {packet : UDPPacket}

/-- What an accepted packet is made of. -/
theorem encodeUdpPacketBinary_ok (h : encodeUdpPacketBinary net packet = .ok body) :
    exists remote localB remoteB,
      packet.remoteAddr = some remote ∧
      packet.content.length ≤ maxUdpPayloadSize ∧
      mapTranspose (udpAddrToEnc net) packet.localAddr = .ok localB ∧
      udpAddrToEnc net remote = .ok remoteB ∧
      2 + body.length ≤ v2MaxFramePayload ∧
      body = wireBody (localWire localB) remoteB.wire packet.content (flagsOf localB) := by
  unfold encodeUdpPacketBinary encodeUdpPacketBinaryInto at h
  cases hremote : packet.remoteAddr with
  | none =>
    rw [hremote] at h
    cases h
  | some remote =>
    rw [hremote] at h
    simp only at h
    by_cases hlong : packet.content.length > maxUdpPayloadSize
    · rw [if_pos hlong] at h
      cases h
    · rw [if_neg hlong] at h
      cases hlocal : mapTranspose (udpAddrToEnc net) packet.localAddr with
      | error e =>
        rw [hlocal] at h
        cases h
      | ok localB =>
        cases hremoteB : udpAddrToEnc net remote with
        | error e =>
          rw [hlocal, hremoteB] at h
          cases h
        | ok remoteB =>
          rw [hlocal, hremoteB] at h
          simp only at h
          rw [encodeBody_eq] at h
          by_cases hframe : 2 + bodyLen packet.content localB remoteB >
              v2MaxFramePayload
          · rw [if_pos hframe] at h
            cases h
          · rw [if_neg hframe] at h
            have hbody := Except.ok.inj h
            rw [nil_append] at hbody
            refine ⟨remote, localB, remoteB, rfl, by omega, rfl, hremoteB, ?_, hbody.symm⟩
            rw [← hbody, ← bodyLen_eq]
            omega

theorem readPayloadLen_wire (before content : List Byte) (localAddr : Option AddrParts)
    (remote : AddrParts) (hstop : remote.stop = before.length)
    (hlen : content.length ≤ maxUdpPayloadSize) :
    readPayloadLen (before ++ (u16Be (UInt16.ofNat content.length) ++ content)) localAddr
        remote =
      .ok
        { localAddr := localAddr
          remoteAddr := remote
          payloadLen := content.length
          payloadOffset := before.length + 2 } := by
  have hsize : (UInt16.ofNat content.length).toNat = content.length := by
    unfold maxUdpPayloadSize at hlen
    rw [UInt16.toNat_ofNat']
    omega
  have hbody : (before ++ (u16Be (UInt16.ofNat content.length) ++ content)).length =
      before.length + 2 + content.length := by
    simp
    omega
  unfold readPayloadLen
  simp only [hstop, drop_left, readU16Be_append, hsize, hbody]
  rw [if_neg (by omega), if_neg (by omega), if_neg (by omega), if_neg (by omega)]

/-- The header parse of a written body finds the written addresses and payload. -/
theorem parseUdpPacketHeaderParts_wire (net : NetText) {localB : Option EncAddr}
    {remoteB : EncAddr} {content : List Byte}
    (hlocal : forall l, localB = some l -> l.WellFormed) (hremote : remoteB.WellFormed)
    (hlen : content.length ≤ maxUdpPayloadSize)
    (hframe : 2 + (wireBody (localWire localB) remoteB.wire content
      (flagsOf localB)).length ≤ v2MaxFramePayload) :
    parseUdpPacketHeaderParts net
        (wireBody (localWire localB) remoteB.wire content (flagsOf localB)) =
      .ok
        { localAddr := localB.map fun l => l.parts 1
          remoteAddr := remoteB.parts (1 + (localWire localB).length)
          payloadLen := content.length
          payloadOffset := 1 + (localWire localB).length + remoteB.wire.length + 2 } := by
  have hlength := wireBody_length (localWire localB) remoteB.wire content (flagsOf localB)
  have hpayload := readPayloadLen_wire
    (flagsOf localB :: (localWire localB ++ remoteB.wire)) content
    (localB.map fun l => l.parts 1)
    (remoteB.parts (1 + (localWire localB).length))
    (by simp [EncAddr.parts]; omega) hlen
  have hremoteAt := readAddrParts_wire net (flagsOf localB :: localWire localB)
    (u16Be (UInt16.ofNat content.length) ++ content) hremote
  have hindex : (flagsOf localB :: localWire localB).length =
      1 + (localWire localB).length := by
    simp
    omega
  have hoffset : (flagsOf localB :: (localWire localB ++ remoteB.wire)).length + 2 =
      1 + (localWire localB).length + remoteB.wire.length + 2 := by
    simp
    omega
  have hsplitRemote : wireBody (localWire localB) remoteB.wire content (flagsOf localB) =
      (flagsOf localB :: localWire localB) ++
        (remoteB.wire ++ (u16Be (UInt16.ofNat content.length) ++ content)) := by
    simp [wireBody]
  have hsplitPayload : wireBody (localWire localB) remoteB.wire content (flagsOf localB) =
      (flagsOf localB :: (localWire localB ++ remoteB.wire)) ++
        (u16Be (UInt16.ofNat content.length) ++ content) := by
    simp [wireBody]
  have hreserved : ¬ flagsOf localB &&& ~~~validFlags ≠ 0 := by
    cases localB <;> simp [flagsOf] <;> decide
  have hhas : ¬ flagsOf localB &&& flagRemoteAddr = 0 := by
    cases localB <;> simp [flagsOf] <;> decide
  have hflags : (wireBody (localWire localB) remoteB.wire content
      (flagsOf localB)).getD 0 0 = flagsOf localB := rfl
  rw [hoffset] at hpayload
  rw [hindex] at hremoteAt
  rw [← hsplitPayload] at hpayload
  rw [← hsplitRemote] at hremoteAt
  unfold parseUdpPacketHeaderParts
  rw [if_neg (by omega), if_neg (by omega)]
  simp only [hflags]
  rw [if_neg hreserved, if_neg hhas]
  cases localB with
  | none =>
    have hbit : ¬ flagsOf (none : Option EncAddr) &&& flagLocalAddr ≠ 0 := by decide
    rw [if_neg hbit]
    have hremoteAt' := hremoteAt
    simp only [localWire, Option.map_none, Option.getD_none, length_nil,
      Nat.add_zero] at hremoteAt' hpayload ⊢
    rw [hremoteAt']
    exact hpayload
  | some l =>
    have hbit : flagsOf (some l) &&& flagLocalAddr ≠ 0 := by
      show (flagRemoteAddr ||| flagLocalAddr) &&& flagLocalAddr ≠ 0
      decide
    have hlocalAt := readAddrParts_wire net [flagsOf (some l)]
      (remoteB.wire ++ (u16Be (UInt16.ofNat content.length) ++ content)) (hlocal l rfl)
    have hsplitLocal : wireBody (localWire (some l)) remoteB.wire content
        (flagsOf (some l)) = [flagsOf (some l)] ++ (l.wire ++
          (remoteB.wire ++ (u16Be (UInt16.ofNat content.length) ++ content))) := rfl
    have hstop : (l.parts 1).stop = 1 + (localWire (some l)).length := rfl
    rw [← hsplitLocal] at hlocalAt
    change readAddrParts net _ 1 = _ at hlocalAt
    rw [if_pos hbit, hlocalAt]
    simp only [Except.map, Option.map_some, Option.getD_some, length_singleton]
    rw [hstop, hremoteAt]
    exact hpayload

theorem mapTranspose_ok {α β : Type} {f : α -> Except String β} {a : Option α}
    {b : Option β} (h : mapTranspose f a = .ok b) :
    (a = none ∧ b = none) ∨ exists x y, a = some x ∧ b = some y ∧ f x = .ok y := by
  cases a with
  | none =>
    cases h
    exact .inl ⟨rfl, rfl⟩
  | some x =>
    right
    change (f x).map some = .ok b at h
    cases hf : f x with
    | error e =>
      rw [hf] at h
      cases h
    | ok y =>
      rw [hf] at h
      cases h
      exact ⟨x, y, rfl, rfl, hf⟩

/-- Decoding what the encoder accepted gives the packet back with canonical
addresses. -/
theorem decode_encode (h : encodeUdpPacketBinary net packet = .ok body) :
    decodeUdpPacketBinary net body =
      .ok
        { content := packet.content
          localAddr := packet.localAddr.map (canonicalAddr net)
          remoteAddr := packet.remoteAddr.map (canonicalAddr net) } := by
  obtain ⟨remote, localB, remoteB, hremote, hlen, hlocal, hremoteB, hframe, hbody⟩ :=
    encodeUdpPacketBinary_ok h
  obtain ⟨hwellRemote, hbackRemote⟩ := udpAddrToEnc_canonical hremoteB
  have hwellLocal : forall l, localB = some l -> l.WellFormed := by
    intro l hl
    rcases mapTranspose_ok hlocal with ⟨_, hnone⟩ | ⟨x, y, _, hy, hx⟩
    · rw [hnone] at hl
      cases hl
    · rw [hy] at hl
      cases hl
      exact (udpAddrToEnc_canonical hx).1
  have hbackLocal : mapTranspose (addrPartsToUdp net) (localB.map fun l => l.parts 1) =
      .ok (packet.localAddr.map (canonicalAddr net)) := by
    rcases mapTranspose_ok hlocal with ⟨hnone, hnoneB⟩ | ⟨x, y, hx, hy, hxy⟩
    · rw [hnone, hnoneB]
      rfl
    · rw [hx, hy]
      show (addrPartsToUdp net (y.parts 1)).map some = _
      rw [(udpAddrToEnc_canonical hxy).2 1]
      rfl
  have hparts := parseUdpPacketHeaderParts_wire net hwellLocal hwellRemote hlen
    (by rw [← hbody]; exact hframe)
  have hpayload : (body.drop (1 + (localWire localB).length + remoteB.wire.length + 2)).take
      packet.content.length = packet.content := by
    have hsplit : body = (flagsOf localB :: (localWire localB ++ (remoteB.wire ++
        u16Be (UInt16.ofNat packet.content.length)))) ++ packet.content := by
      rw [hbody]
      simp [wireBody]
    have hindex : 1 + (localWire localB).length + remoteB.wire.length + 2 =
        (flagsOf localB :: (localWire localB ++ (remoteB.wire ++
          u16Be (UInt16.ofNat packet.content.length)))).length := by
      simp
      omega
    rw [hindex, hsplit, drop_left, take_length]
  rw [← hbody] at hparts
  unfold decodeUdpPacketBinary parseUdpPacketHeader
  rw [hparts]
  simp only [hbackLocal, hbackRemote, hpayload, hremote, Option.map_some]

/-!
## Decoding, then encoding
-/

theorem readAddrParts_ok (h : readAddrParts net body offset = .ok p) :
    parseAddrParts body offset = .ok p ∧
      (exists zone, fromUtf8 p.zone = some zone) ∧ (p.family = 4 -> p.zone = []) := by
  unfold readAddrParts at h
  cases hparse : parseAddrParts body offset with
  | error e =>
    rw [hparse] at h
    cases h
  | ok q =>
    rw [hparse] at h
    simp only at h
    cases hvalid : validateAddrParts net q with
    | error e =>
      rw [hvalid] at h
      cases h
    | ok _ =>
      rw [hvalid] at h
      cases h
      unfold validateAddrParts at hvalid
      cases hzone : fromUtf8 p.zone with
      | none =>
        rw [hzone] at hvalid
        cases hvalid
      | some zone =>
        rw [hzone] at hvalid
        refine ⟨rfl, ⟨zone, rfl⟩, ?_⟩
        intro hfour
        by_cases hne : p.zone = []
        · exact hne
        · rw [if_pos ⟨hfour, hne⟩] at hvalid
          cases hvalid

theorem readPayloadLen_ok {localAddr : Option AddrParts} {remote : AddrParts}
    {h : DecodedHeaderParts} (hread : readPayloadLen body localAddr remote = .ok h) :
    h.localAddr = localAddr ∧ h.remoteAddr = remote ∧
      h.payloadOffset = remote.stop + 2 ∧ h.payloadLen ≤ maxUdpPayloadSize ∧
      (body.drop h.payloadOffset).length = h.payloadLen ∧
      body.drop remote.stop =
        u16Be (UInt16.ofNat h.payloadLen) ++ body.drop h.payloadOffset := by
  unfold readPayloadLen at hread
  simp only at hread
  split at hread
  · cases hread
  · rename_i hheader
    split at hread
    · cases hread
    · rename_i hmax
      split at hread
      · cases hread
      · split at hread
        · cases hread
        · cases hread
          refine ⟨rfl, rfl, rfl, Nat.le_of_not_lt hmax, ?_, ?_⟩
          · show (body.drop (remote.stop + 2)).length =
              (readU16Be (body.drop remote.stop)).toNat
            rw [length_drop]
            omega
          · show body.drop remote.stop = u16Be (UInt16.ofNat (readU16Be
              (body.drop remote.stop)).toNat) ++ body.drop (remote.stop + 2)
            rw [UInt16.ofNat_toNat]
            exact drop_eq_u16Be_append (by omega)

theorem flags_cases (flags : UInt8) (hreserved : flags &&& ~~~validFlags = 0)
    (hremote : flags &&& flagRemoteAddr ≠ 0) :
    (flags &&& flagLocalAddr ≠ 0 ∧ flags = flagRemoteAddr ||| flagLocalAddr) ∨
      (flags &&& flagLocalAddr = 0 ∧ flags = flagRemoteAddr) := by
  have hall : forall b : BitVec 8, UInt8.ofBitVec b &&& ~~~validFlags = 0 ->
      UInt8.ofBitVec b &&& flagRemoteAddr ≠ 0 ->
      (UInt8.ofBitVec b &&& flagLocalAddr ≠ 0 ∧
        UInt8.ofBitVec b = flagRemoteAddr ||| flagLocalAddr) ∨
      (UInt8.ofBitVec b &&& flagLocalAddr = 0 ∧ UInt8.ofBitVec b = flagRemoteAddr) := by
    decide
  exact hall flags.toBitVec hreserved hremote

def partsWire (localAddr : Option AddrParts) : List Byte :=
  (localAddr.map AddrParts.wire).getD []

/-- An accepted body is the bytes of the addresses and the payload found in it. -/
theorem parseUdpPacketHeaderParts_ok {h : DecodedHeaderParts}
    (hparse : parseUdpPacketHeaderParts net body = .ok h) :
    2 + body.length ≤ v2MaxFramePayload ∧ h.payloadLen ≤ maxUdpPayloadSize ∧
      (body.drop h.payloadOffset).length = h.payloadLen ∧
      (forall p, h.localAddr = some p -> exists offset,
        readAddrParts net body offset = .ok p) ∧
      (exists offset, readAddrParts net body offset = .ok h.remoteAddr) ∧
      body = wireBody (partsWire h.localAddr) h.remoteAddr.wire
        (body.drop h.payloadOffset) (flagsOf h.localAddr) := by
  unfold parseUdpPacketHeaderParts at hparse
  split at hparse
  · cases hparse
  · rename_i hshort
    split at hparse
    · cases hparse
    · rename_i hframe
      simp only at hparse
      split at hparse
      · cases hparse
      · rename_i hreserved
        split at hparse
        · cases hparse
        · rename_i hremoteFlag
          have hfirst : body = body.getD 0 0 :: body.drop 1 := by
            have h := drop_eq_getD_cons (l := body) (n := 0) (by omega)
            exact h
          rcases flags_cases (body.getD 0 0) (Decidable.not_not.mp hreserved) hremoteFlag
            with ⟨hbit, hflags⟩ | ⟨hbit, hflags⟩
          · rw [if_pos hbit] at hparse
            cases hlocal : readAddrParts net body 1 with
            | error e =>
              rw [hlocal] at hparse
              cases hparse
            | ok l =>
              rw [hlocal] at hparse
              simp only [Except.map, Option.map_some, Option.getD_some] at hparse
              cases hremote : readAddrParts net body l.stop with
              | error e =>
                rw [hremote] at hparse
                cases hparse
              | ok r =>
                rw [hremote] at hparse
                obtain ⟨hl, hr, hoff, hmax, hlen, hpayload⟩ :=
                  readPayloadLen_ok hparse
                obtain ⟨hlw, -⟩ := wire_parseAddrParts (readAddrParts_ok hlocal).1
                obtain ⟨hrw, -⟩ := wire_parseAddrParts (readAddrParts_ok hremote).1
                refine ⟨by omega, hmax, hlen, ?_, ⟨l.stop, by rw [hr]; exact hremote⟩, ?_⟩
                · intro p hp
                  rw [hl] at hp
                  cases hp
                  exact ⟨1, hlocal⟩
                · rw [hl, hr]
                  unfold wireBody
                  rw [hlen, ← hpayload, ← hrw]
                  show body = (flagRemoteAddr ||| flagLocalAddr) ::
                    (l.wire ++ body.drop l.stop)
                  rw [← hlw, ← hflags]
                  exact hfirst
          · rw [if_neg (by simpa using hbit)] at hparse
            simp only [Option.map_none, Option.getD_none] at hparse
            cases hremote : readAddrParts net body 1 with
            | error e =>
              rw [hremote] at hparse
              cases hparse
            | ok r =>
              rw [hremote] at hparse
              obtain ⟨hl, hr, hoff, hmax, hlen, hpayload⟩ := readPayloadLen_ok hparse
              obtain ⟨hrw, -⟩ := wire_parseAddrParts (readAddrParts_ok hremote).1
              refine ⟨by omega, hmax, hlen, ?_, ⟨1, by rw [hr]; exact hremote⟩, ?_⟩
              · intro p hp
                rw [hl] at hp
                cases hp
              · rw [hl, hr]
                unfold wireBody
                rw [hlen, ← hpayload, ← hrw]
                show body = flagRemoteAddr :: body.drop 1
                rw [← hflags]
                exact hfirst

def wireIps (net : NetText) (body : List Byte) : List IpAddr :=
  match parseUdpPacketHeaderParts net body with
  | .ok h => (h.localAddr.toList ++ [h.remoteAddr]).filterMap AddrParts.toIp
  | .error _ => []

def IpAddr.isMapped : IpAddr -> Bool
  | .v4 _ => false
  | .v6 ip => ip.toIpv4Mapped.isSome

theorem length_four (h : l.length = 4) :
    l = [l.getD 0 0, l.getD 1 0, l.getD 2 0, l.getD 3 0] := by
  match l, h with
  | [a, b, c, d], _ => rfl

theorem ipLen_cases {family : UInt8} {n : Nat} (h : ipLen family = some n) :
    (family = 4 ∧ n = 4) ∨ (family = 6 ∧ n = 16) := by
  unfold ipLen at h
  split at h
  · cases h
    exact .inl ⟨‹_›, rfl⟩
  · split at h
    · cases h
      exact .inr ⟨‹_›, rfl⟩
    · cases h

/-- An address read from a body is written back as the same bytes. -/
theorem udpAddrToEnc_parts {addr : UdpAddr} (hempty : net.parse "" = none)
    (hread : readAddrParts net body offset = .ok p) (haddr : addrPartsToUdp net p = .ok addr)
    (hback : forall ip, p.toIp = some ip -> net.ReadsBack ip ∧ ip.isMapped = false) :
    exists e, udpAddrToEnc net addr = .ok e ∧ e.wire = p.wire := by
  obtain ⟨hparse, ⟨zone, hzone⟩, hplain⟩ := readAddrParts_ok hread
  obtain ⟨-, -, -, hfamily, hzoneLen⟩ := wire_parseAddrParts hparse
  have hutf8 := utf8_fromUtf8 hzone
  have hnonempty : forall ip, net.ReadsBack ip -> net.toText ip ≠ "" := by
    intro ip hip htext
    unfold NetText.ReadsBack at hip
    rw [htext, hempty] at hip
    cases hip
  unfold addrPartsToUdp at haddr
  rw [hzone] at haddr
  rcases ipLen_cases hfamily with ⟨hfour, hlen⟩ | ⟨hsix, hlen⟩
  · have hip : p.toIp = some (.v4
        { a := p.ip.getD 0 0, b := p.ip.getD 1 0, c := p.ip.getD 2 0,
          d := p.ip.getD 3 0 }) := if_pos hfour
    obtain ⟨hreads, -⟩ := hback _ hip
    have hnil : zone = "" := by
      apply utf8_eq_nil.mp
      rw [hutf8]
      exact hplain hfour
    have hzoneIf : ¬ zone ≠ "" := fun hne => hne hnil
    rw [hip] at haddr
    simp only at haddr
    rw [if_neg hzoneIf] at haddr
    cases haddr
    refine ⟨encFromOctets 4 p.ip p.port "", ?_, ?_⟩
    · unfold udpAddrToEnc
      rw [if_neg (fun h => hnonempty _ hreads h.2)]
      unfold NetText.ReadsBack NetText.toText at hreads
      rw [hreads]
      simp only
      rw [if_neg hzoneIf]
      congr 2
      exact (length_four hlen).symm
    · unfold EncAddr.wire AddrParts.wire encFromOctets
      rw [hfour, hplain hfour, utf8_empty]
  · have hnotFour : ¬ p.family = 4 := by
      rw [hsix]
      decide
    have hip : p.toIp = some (.v6 ⟨p.ip, hlen⟩) := by
      unfold AddrParts.toIp
      rw [if_neg hnotFour, dif_pos hlen]
    obtain ⟨hreads, hmapped⟩ := hback _ hip
    have hnone : (Ipv6Addr.mk p.ip hlen).toIpv4Mapped = none := by
      simpa [IpAddr.isMapped] using hmapped
    rw [hip] at haddr
    cases haddr
    refine ⟨encFromOctets 6 p.ip p.port zone, ?_, ?_⟩
    · unfold udpAddrToEnc
      rw [if_neg (fun h => hnonempty _ hreads h.2)]
      unfold NetText.ReadsBack NetText.toText at hreads
      rw [hreads]
      simp only [hnone]
      rw [if_neg (by rw [hutf8]; omega)]
    · unfold EncAddr.wire AddrParts.wire encFromOctets
      rw [hsix, hutf8]

/-- Encoding what the decoder accepted gives the body back, unless the body carries
an IPv4-mapped address as family 6. -/
theorem encode_decode (hempty : net.parse "" = none)
    (hback : forall ip, ip ∈ wireIps net body -> net.ReadsBack ip)
    (hplain : forall ip, ip ∈ wireIps net body -> ip.isMapped = false)
    (h : decodeUdpPacketBinary net body = .ok packet) :
    encodeUdpPacketBinary net packet = .ok body := by
  unfold decodeUdpPacketBinary parseUdpPacketHeader at h
  cases hparts : parseUdpPacketHeaderParts net body with
  | error e =>
    rw [hparts] at h
    cases h
  | ok header =>
    rw [hparts] at h
    simp only at h
    obtain ⟨hframe, hmax, hlen, hlocalRead, ⟨offset, hremoteRead⟩, hbody⟩ :=
      parseUdpPacketHeaderParts_ok hparts
    have hips : wireIps net body =
        (header.localAddr.toList ++ [header.remoteAddr]).filterMap AddrParts.toIp := by
      unfold wireIps
      rw [hparts]
    have hmem : forall p ip, p ∈ header.localAddr.toList ++ [header.remoteAddr] ->
        p.toIp = some ip -> net.ReadsBack ip ∧ ip.isMapped = false := by
      intro p ip hp hip
      have hin : ip ∈ wireIps net body := by
        rw [hips]
        exact mem_filterMap.mpr ⟨p, hp, hip⟩
      exact ⟨hback ip hin, hplain ip hin⟩
    cases hlocal : mapTranspose (addrPartsToUdp net) header.localAddr with
    | error e =>
      rw [hlocal] at h
      cases h
    | ok localAddr =>
      cases hremote : addrPartsToUdp net header.remoteAddr with
      | error e =>
        rw [hlocal, hremote] at h
        cases h
      | ok remoteAddr =>
        rw [hlocal, hremote] at h
        cases h
        obtain ⟨remoteB, hremoteB, hremoteWire⟩ := udpAddrToEnc_parts hempty
          hremoteRead hremote fun ip hip => hmem _ ip (by simp) hip
        have hlocalB : exists localB,
            mapTranspose (udpAddrToEnc net) localAddr = .ok localB ∧
              localWire localB = partsWire header.localAddr ∧
              flagsOf localB = flagsOf header.localAddr := by
          rcases mapTranspose_ok hlocal with ⟨hnone, hnoneAddr⟩ | ⟨p, addr, hp, ha, hpa⟩
          · rw [hnone, hnoneAddr]
            exact ⟨none, rfl, rfl, rfl⟩
          · obtain ⟨at', hread⟩ := hlocalRead p hp
            obtain ⟨e, he, hwire⟩ := udpAddrToEnc_parts hempty hread hpa
              fun ip hip => hmem p ip (by simp [hp]) hip
            rw [hp, ha]
            refine ⟨some e, ?_, hwire, rfl⟩
            show (udpAddrToEnc net addr).map some = _
            rw [he]
            rfl
        obtain ⟨localB, hlocalB, hlocalWire, hflags⟩ := hlocalB
        have hcontent : (body.drop header.payloadOffset).take header.payloadLen =
            body.drop header.payloadOffset := by
          rw [← hlen, take_length]
        have hlong : ¬ (body.drop header.payloadOffset).length > maxUdpPayloadSize := by
          omega
        have hwritten : wireBody (localWire localB) remoteB.wire
            (body.drop header.payloadOffset) (flagsOf localB) = body := by
          rw [hlocalWire, hremoteWire, hflags]
          exact hbody.symm
        have hfits : ¬ 2 + bodyLen (body.drop header.payloadOffset) localB remoteB >
            v2MaxFramePayload := by
          rw [bodyLen_eq, hwritten]
          omega
        unfold encodeUdpPacketBinary encodeUdpPacketBinaryInto
        simp only [hcontent]
        rw [if_neg hlong, hlocalB, hremoteB]
        simp only
        rw [encodeBody_eq, if_neg hfits, hwritten]
        rfl

/-- The two round trips of the codec, over a standard library that does not read the
empty text as an address. -/
theorem udp_packet_round_trip (net : NetText) (hempty : net.parse "" = none) :
    (forall packet body, encodeUdpPacketBinary net packet = .ok body ->
      decodeUdpPacketBinary net body =
        .ok
          { content := packet.content
            localAddr := packet.localAddr.map (canonicalAddr net)
            remoteAddr := packet.remoteAddr.map (canonicalAddr net) }) ∧
    (forall body packet, decodeUdpPacketBinary net body = .ok packet ->
      (forall ip, ip ∈ wireIps net body -> net.ReadsBack ip) ->
      (forall ip, ip ∈ wireIps net body -> ip.isMapped = false) ->
      encodeUdpPacketBinary net packet = .ok body) :=
  ⟨fun _ _ h => decode_encode h,
    fun _ _ h hback hplain => encode_decode hempty hback hplain h⟩

/-- The standard library's text forms of three addresses. -/
def sampleNet : NetText where
  parse text :=
    if text = "fe80::1" then
      some (.v6 ⟨[254, 128, 0, 0, 0, 0, 0, 0, 0, 0, 0, 0, 0, 0, 0, 1], rfl⟩)
    else if text = "::ffff:10.0.0.1" then
      some (.v6 ⟨[0, 0, 0, 0, 0, 0, 0, 0, 0, 0, 255, 255, 10, 0, 0, 1], rfl⟩)
    else if text = "10.0.0.1" then some (.v4 ⟨10, 0, 0, 1⟩)
    else none
  ipv6ToString ip :=
    if ip.octets = [0, 0, 0, 0, 0, 0, 0, 0, 0, 0, 255, 255, 10, 0, 0, 1] then
      "::ffff:10.0.0.1"
    else "fe80::1"
  utf8Error _ := "invalid utf-8 sequence of 1 bytes from index 0"

def samplePacket : UDPPacket :=
  { content := [104, 105]
    localAddr := some { ip := "fe80::1", port := 53, zone := "eth0" }
    remoteAddr := some { ip := "::ffff:10.0.0.1", port := 8080, zone := "" } }

def sampleBody : List Byte :=
  [3, 6, 254, 128, 0, 0, 0, 0, 0, 0, 0, 0, 0, 0, 0, 0, 0, 1, 0, 53, 4, 101, 116, 104, 48,
    4, 10, 0, 0, 1, 31, 144, 0, 0, 2, 104, 105]

theorem sample_round_trip :
    decodeUdpPacketBinary sampleNet sampleBody =
      .ok
        { content := [104, 105]
          localAddr := some { ip := "fe80::1", port := 53, zone := "eth0" }
          remoteAddr := some { ip := "10.0.0.1", port := 8080, zone := "" } } ∧
    encodeUdpPacketBinary sampleNet
        { content := [104, 105]
          localAddr := some { ip := "fe80::1", port := 53, zone := "eth0" }
          remoteAddr := some { ip := "10.0.0.1", port := 8080, zone := "" } } =
      .ok sampleBody := by
  have hround := udp_packet_round_trip sampleNet rfl
  have hdecode := hround.1 samplePacket sampleBody rfl
  refine ⟨hdecode, hround.2 sampleBody _ hdecode ?_ ?_⟩
  · unfold NetText.ReadsBack
    decide
  · decide

end Udp
end FrpRs
