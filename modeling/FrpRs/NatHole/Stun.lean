import FrpRs.Data.Lines
import FrpRs.Data.Text
import FrpRs.Udp.NetText

/-!
# STUN responses

`parse_binding_response` and `parse_binding_response_full` in `frp-core/src/stun.rs`, against the
messages that RFC 5389 and RFC 5780 build.
-/

namespace FrpRs
namespace NatHole
namespace Stun

open List Bytes
open Udp

def magicCookie : UInt32 := 0x2112A442

def cookieBytes : List Byte := [0x21, 0x12, 0xA4, 0x42]

def attrMappedAddress : UInt16 := 0x0001
def attrChangedAddress : UInt16 := 0x0005
def attrXorMappedAddress : UInt16 := 0x0020
def attrOtherAddress : UInt16 := 0x802C

structure Address where
  ip : IpAddr
  port : UInt16
deriving DecidableEq

/-- `{ip}:{port}`, with brackets around an IPv6 address. -/
def Address.text (a : Address) : Text :=
  match a.ip with
  | .v4 ip => ip.toText.toList ++ ':' :: Nat.toDigits 10 a.port.toNat
  | .v6 ip => '[' :: (ip.toText.toList ++ ']' :: ':' :: Nat.toDigits 10 a.port.toNat)

/-!
## The parsers
-/

def ipv4FromU32 (v : UInt32) : Ipv4Addr :=
  ⟨UInt8.ofNat (v.toNat / 2 ^ 24), UInt8.ofNat (v.toNat / 2 ^ 16), UInt8.ofNat (v.toNat / 2 ^ 8),
    UInt8.ofNat v.toNat⟩

def u32FromOctets (octets : List Byte) : UInt32 :=
  UInt32.ofNat (ofBeBytes octets)

def ipv6FromOctets (octets : List Byte) : Option Ipv6Addr :=
  if h : octets.length = 16 then some ⟨octets, h⟩ else none

def octetAt (data : List Byte) (i : Nat) : Byte :=
  data.getD i 0

def parseMappedAddress (data : List Byte) : Option Text :=
  if data.length < 4 then none
  else
    let port := readU16Be (data.drop 2)
    if octetAt data 1 = 1 then
      if data.length < 8 then none
      else
        let ip : Ipv4Addr := ⟨octetAt data 4, octetAt data 5, octetAt data 6, octetAt data 7⟩
        some (Address.text ⟨.v4 ip, port⟩)
    else if octetAt data 1 = 2 then
      if data.length < 20 then none
      else (ipv6FromOctets ((data.drop 4).take 16)).map fun ip => Address.text ⟨.v6 ip, port⟩
    else none

def parseXorMappedAddress (data : List Byte) (cookie : UInt32) (txId : List Byte) : Option Text :=
  if data.length < 4 then none
  else
    let cookieHi := (cookie >>> 16).toUInt16
    let port := readU16Be (data.drop 2) ^^^ cookieHi
    if octetAt data 1 = 1 then
      if data.length < 8 then none
      else
        let addrBytes := [octetAt data 4, octetAt data 5, octetAt data 6, octetAt data 7]
        let ip := ipv4FromU32 (u32FromOctets addrBytes ^^^ cookie)
        some (Address.text ⟨.v4 ip, port⟩)
    else if octetAt data 1 = 2 then
      if data.length < 20 then none
      else
        let key := beBytes 4 cookie.toNat ++ txId
        let ipBytes := zipWith (· ^^^ ·) ((data.drop 4).take 16) key
        (ipv6FromOctets ipBytes).map fun ip => Address.text ⟨.v6 ip, port⟩
    else none

/-- The attributes that the two loops walk over, with the bytes that are left as the cursor. -/
def readAttributes : Nat -> List Byte -> List (UInt16 × List Byte)
  | 0, _ => []
  | fuel + 1, attrs =>
    if attrs.length < 4 then []
    else
      let attrLen := (readU16Be (attrs.drop 2)).toNat
      let padding := (4 - attrLen % 4) % 4
      let attrEnd := 4 + attrLen
      if attrs.length < attrEnd then []
      else
        (readU16Be attrs, (attrs.drop 4).take attrLen) ::
          readAttributes fuel (attrs.drop (attrEnd + padding))

def missing : Text := "STUN response missing MAPPED-ADDRESS".toList

/-- The loop of `parse_binding_response`. -/
def scan (txId : List Byte) : Option Text -> List (UInt16 × List Byte) -> Except Text Text
  | some mapped, [] => .ok mapped
  | none, [] => .error missing
  | mapped, (attrType, value) :: rest =>
    if attrType = attrXorMappedAddress then
      match parseXorMappedAddress value magicCookie txId with
      | some addr => .ok addr
      | none => scan txId mapped rest
    else if attrType = attrMappedAddress ∧ mapped = none then
      scan txId (parseMappedAddress value) rest
    else scan txId mapped rest

structure StunResult where
  mappedAddr : Text
  otherAddr : Option Text
deriving DecidableEq

/-- The loop of `parse_binding_response_full`. -/
def scanFull (txId : List Byte) :
    Option Text -> Option Text -> List (UInt16 × List Byte) -> Except Text StunResult
  | some mapped, other, [] => .ok ⟨mapped, other⟩
  | none, _, [] => .error missing
  | mapped, other, (attrType, value) :: rest =>
    if attrType = attrXorMappedAddress then
      match parseXorMappedAddress value magicCookie txId with
      | some addr => scanFull txId (some addr) other rest
      | none => scanFull txId mapped other rest
    else if attrType = attrMappedAddress ∧ mapped = none then
      scanFull txId (parseMappedAddress value) other rest
    else if attrType = attrOtherAddress ∨ attrType = attrChangedAddress then
      match parseXorMappedAddress value magicCookie txId with
      | some addr => scanFull txId mapped (some addr) rest
      | none => scanFull txId mapped other rest
    else scanFull txId mapped other rest

def hexText (width n : Nat) : Text :=
  (Nat.toDigits 16 n).leftpad width '0'

section Parsers

-- the text of an error response, which neither loop reads
variable (parseErrorResponse : List Byte -> List Byte -> Text)

/-- The header checks of the two parsers. -/
def checkHeader (data txId : List Byte) : Except Text (List (UInt16 × List Byte)) :=
  if data.length < 20 then .error "STUN response too short".toList
  else
    let msgType := readU16Be data
    if msgType = 0x0111 then .error (parseErrorResponse data txId)
    else if msgType ≠ 0x0101 then
      .error ("unexpected STUN message type: 0x".toList ++ hexText 4 msgType.toNat)
    else
      let msgLen := (readU16Be (data.drop 2)).toNat
      if data.length < 20 + msgLen then .error "STUN message truncated".toList
      else
        let cookie := u32FromOctets ((data.drop 4).take 4)
        if cookie ≠ magicCookie then
          .error ("bad magic cookie: 0x".toList ++ hexText 8 cookie.toNat)
        else if (data.drop 8).take 12 ≠ txId then
          .error "STUN transaction ID mismatch".toList
        else .ok (readAttributes msgLen ((data.drop 20).take msgLen))

def parseBindingResponse (data txId : List Byte) : Except Text Text :=
  checkHeader parseErrorResponse data txId >>= scan txId none

def parseBindingResponseFull (data txId : List Byte) : Except Text StunResult :=
  checkHeader parseErrorResponse data txId >>= scanFull txId none none

end Parsers

/-!
## The messages of the RFCs
-/

def addressKey (txId : List Byte) : List Byte :=
  cookieBytes ++ txId

/-- The address that the XOR encoding writes: port and IPv4 address under the magic cookie, an IPv6
address under the cookie and the transaction id. -/
def mask (txId : List Byte) (a : Address) : Address :=
  match a.ip with
  | .v4 ip => ⟨.v4 (ipv4FromU32 (u32FromOctets ip.octets ^^^ magicCookie)), a.port ^^^ 0x2112⟩
  | .v6 ip =>
    if h : txId.length = 12 then
      ⟨.v6 ⟨zipWith (· ^^^ ·) ip.octets (addressKey txId), by
        rw [length_zipWith, ip.length_eq, addressKey, length_append, h]; rfl⟩,
        a.port ^^^ 0x2112⟩
    else a

/-- The value of MAPPED-ADDRESS and OTHER-ADDRESS. -/
def plainValue (a : Address) : List Byte :=
  match a.ip with
  | .v4 ip => 0 :: 1 :: (u16Be a.port ++ ip.octets)
  | .v6 ip => 0 :: 2 :: (u16Be a.port ++ ip.octets)

inductive Attribute where
  | mapped (a : Address)
  | xorMapped (a : Address)
  | other (a : Address)
  | changed (a : Address)
  | unknown (kind : UInt16) (value : List Byte)

namespace Attribute

def kind : Attribute -> UInt16
  | mapped _ => attrMappedAddress
  | xorMapped _ => attrXorMappedAddress
  | other _ => attrOtherAddress
  | changed _ => attrChangedAddress
  | unknown kind _ => kind

def value (txId : List Byte) : Attribute -> List Byte
  | mapped a => plainValue a
  | xorMapped a => plainValue (mask txId a)
  | other a => plainValue a
  | changed a => plainValue a
  | unknown _ value => value

def mapped? : Attribute -> Option Address
  | mapped a => some a
  | _ => none

def xorMapped? : Attribute -> Option Address
  | xorMapped a => some a
  | _ => none

def other? : Attribute -> Option Address
  | other a => some a
  | _ => none

/-- An attribute that names a second address, under its old or its new type. -/
def second? : Attribute -> Option Address
  | other a => some a
  | changed a => some a
  | _ => none

/-- A value whose length fits in 16 bits, under a type of its own. -/
def WellFormed : Attribute -> Prop
  | unknown kind value => value.length < 2 ^ 16 ∧ kind ≠ attrMappedAddress ∧
      kind ≠ attrXorMappedAddress ∧ kind ≠ attrOtherAddress ∧ kind ≠ attrChangedAddress
  | _ => True

end Attribute

/-- An attribute and the bytes that pad it. -/
structure Item where
  content : Attribute
  padding : List Byte

def Item.bytes (txId : List Byte) (item : Item) : List Byte :=
  u16Be item.content.kind ++ (u16Be (UInt16.ofNat (item.content.value txId).length) ++
    (item.content.value txId ++ item.padding))

/-- The attribute as a reader sees it. -/
def Item.entry (txId : List Byte) (item : Item) : UInt16 × List Byte :=
  (item.content.kind, item.content.value txId)

def body (txId : List Byte) (items : List Item) : List Byte :=
  items.flatMap (Item.bytes txId)

def bindingResponse (txId : List Byte) (items : List Item) : List Byte :=
  u16Be 0x0101 ++ (u16Be (UInt16.ofNat (body txId items).length) ++
    (cookieBytes ++ (txId ++ body txId items)))

structure WellFormed (txId : List Byte) (items : List Item) : Prop where
  txId_length : txId.length = 12
  body_length : (body txId items).length < 2 ^ 16
  attributes : forall item, item ∈ items -> item.content.WellFormed
  padded : forall item, item ∈ items ->
    item.padding.length = (4 - (item.content.value txId).length % 4) % 4

def firstOf (get : Attribute -> Option Address) (items : List Item) : Option Address :=
  items.findSome? fun item => get item.content

def lastOf (get : Attribute -> Option Address) (items : List Item) : Option Address :=
  firstOf get items.reverse

/-- The address that the server saw. -/
def mappedAddress (items : List Item) : Option Address :=
  (firstOf Attribute.xorMapped? items).or (firstOf Attribute.mapped? items)

/-!
## Addresses
-/

theorem ipv4FromU32_u32FromOctets (ip : Ipv4Addr) :
    ipv4FromU32 (u32FromOctets ip.octets) = ip := by
  obtain ⟨a, b, c, d⟩ := ip
  have ha := a.toNat_lt
  have hb := b.toNat_lt
  have hc := c.toNat_lt
  have hd := d.toNat_lt
  have hv : (u32FromOctets [a, b, c, d]).toNat =
      a.toNat * 2 ^ 24 + b.toNat * 2 ^ 16 + c.toNat * 2 ^ 8 + d.toNat := by
    simp only [u32FromOctets, ofBeBytes, reverse_cons, reverse_nil, nil_append,
      cons_append, ofLeBytes, UInt32.toNat_ofNat']
    omega
  simp only [Ipv4Addr.octets, ipv4FromU32, hv, Ipv4Addr.mk.injEq]
  refine ⟨?_, ?_, ?_, ?_⟩ <;> apply UInt8.toNat_inj.mp <;> rw [UInt8.toNat_ofNat'] <;> omega

theorem u32FromOctets_ipv4FromU32 (v : UInt32) : u32FromOctets (ipv4FromU32 v).octets = v := by
  have hv := v.toNat_lt
  apply UInt32.toNat_inj.mp
  simp only [u32FromOctets, ipv4FromU32, Ipv4Addr.octets, ofBeBytes, reverse_cons,
    reverse_nil, nil_append, cons_append, ofLeBytes, UInt32.toNat_ofNat',
    UInt8.toNat_ofNat']
  omega

theorem zipWith_xor_xor {octets key : List Byte} (h : octets.length ≤ key.length) :
    zipWith (· ^^^ ·) (zipWith (· ^^^ ·) octets key) key = octets := by
  induction octets generalizing key with
  | nil => simp
  | cons o octets ih =>
    cases key with
    | nil => simp at h
    | cons k key =>
      rw [zipWith_cons_cons, zipWith_cons_cons, ih (by simpa using h), UInt8.xor_assoc,
        UInt8.xor_self, UInt8.xor_zero]

theorem length_addressKey {txId : List Byte} (h : txId.length = 12) :
    (addressKey txId).length = 16 := by
  rw [addressKey, length_append, h]
  rfl

theorem mask_mask {txId : List Byte} (h : txId.length = 12) (a : Address) :
    mask txId (mask txId a) = a := by
  obtain ⟨ip, port⟩ := a
  have hport : port ^^^ 0x2112 ^^^ 0x2112 = port := by
    rw [UInt16.xor_assoc, UInt16.xor_self, UInt16.xor_zero]
  cases ip with
  | v4 ip =>
    simp only [mask]
    rw [u32FromOctets_ipv4FromU32, UInt32.xor_assoc, UInt32.xor_self, UInt32.xor_zero,
      ipv4FromU32_u32FromOctets, hport]
  | v6 ip =>
    have hle : ip.octets.length ≤ (addressKey txId).length := by
      rw [ip.length_eq, length_addressKey h]
    simp only [mask, h, dif_pos, zipWith_xor_xor hle, hport]

theorem u16Be_spec (v : UInt16) :
    exists hi lo, u16Be v = [hi, lo] ∧ forall rest, readU16Be (hi :: lo :: rest) = v :=
  ⟨UInt8.ofNat (v.toNat / 256), UInt8.ofNat v.toNat, rfl, readU16Be_append v⟩

theorem parseMappedAddress_plainValue (a : Address) :
    parseMappedAddress (plainValue a) = some a.text := by
  obtain ⟨ip, port⟩ := a
  obtain ⟨hi, lo, hbytes, hport⟩ := u16Be_spec port
  cases ip with
  | v4 ip =>
    simp only [plainValue, hbytes, Ipv4Addr.octets, cons_append, nil_append]
    simp [parseMappedAddress, octetAt, hport]
  | v6 ip =>
    have hlen := ip.length_eq
    simp only [plainValue, hbytes, cons_append, nil_append]
    simp [parseMappedAddress, octetAt, hport, ipv6FromOctets, hlen, take_of_length_le]

theorem parseXorMappedAddress_plainValue {txId : List Byte} (h : txId.length = 12) (a : Address) :
    parseXorMappedAddress (plainValue a) magicCookie txId = some (mask txId a).text := by
  obtain ⟨ip, port⟩ := a
  obtain ⟨hi, lo, hbytes, hport⟩ := u16Be_spec port
  have hcookie : (magicCookie >>> 16).toUInt16 = 0x2112 := by decide
  cases ip with
  | v4 ip =>
    simp only [plainValue, hbytes, Ipv4Addr.octets, cons_append, nil_append]
    simp [parseXorMappedAddress, octetAt, hport, hcookie, mask, Ipv4Addr.octets]
  | v6 ip =>
    have hlen := ip.length_eq
    have hkey : beBytes 4 magicCookie.toNat ++ txId = addressKey txId := rfl
    simp only [plainValue, hbytes, cons_append, nil_append]
    simp [parseXorMappedAddress, octetAt, hport, hcookie, ipv6FromOctets, hlen, hkey, h, mask,
      length_addressKey, take_of_length_le]

/-!
## Walking over the attributes
-/

theorem length_bytes (txId : List Byte) (item : Item) :
    (item.bytes txId).length = 4 + (item.content.value txId).length + item.padding.length := by
  simp only [Item.bytes, length_append, u16Be_length]
  omega

variable {items : List Item}

theorem value_length_lt {txId : List Byte} (h : WellFormed txId items) {item : Item}
    (hmem : item ∈ items) : (item.content.value txId).length < 2 ^ 16 := by
  have hle : (item.bytes txId).length ≤ (body txId items).length := by
    rw [body, flatMap_def]
    exact (sublist_flatten_of_mem (mem_map_of_mem hmem)).length_le
  have hbody := h.body_length
  rw [length_bytes] at hle
  omega

theorem readAttributes_cons {txId : List Byte} {item : Item} (rest : List Byte) (fuel : Nat)
    (hlt : (item.content.value txId).length < 2 ^ 16)
    (hpad : item.padding.length = (4 - (item.content.value txId).length % 4) % 4) :
    readAttributes (fuel + 1) (item.bytes txId ++ rest) =
      item.entry txId :: readAttributes fuel rest := by
  obtain ⟨value, hvalue⟩ : exists value, value = item.content.value txId := ⟨_, rfl⟩
  rw [← hvalue] at hlt hpad
  have hlen : (UInt16.ofNat value.length).toNat = value.length := by
    rw [UInt16.toNat_ofNat']
    exact Nat.mod_eq_of_lt hlt
  obtain ⟨k, k', hkind, hreadKind⟩ := u16Be_spec item.content.kind
  obtain ⟨n, n', hlength, hreadLength⟩ := u16Be_spec (UInt16.ofNat value.length)
  have hbytes : item.bytes txId ++ rest = k :: k' :: n :: n' :: (value ++ (item.padding ++ rest)) := by
    rw [Item.bytes, ← hvalue, hkind, hlength]
    simp
  have htake : (value ++ (item.padding ++ rest)).take value.length = value := take_left
  have hdrop : (value ++ (item.padding ++ rest)).drop (value.length + item.padding.length) = rest := by
    rw [← append_assoc, ← length_append, drop_left]
  rw [hbytes, readAttributes, if_neg (by simp)]
  simp only [drop_succ_cons, drop_zero, hreadLength, hreadKind, hlen, ← hpad, htake]
  rw [if_neg (by simp; omega)]
  rw [show 4 + value.length + item.padding.length = value.length + item.padding.length + 4 by omega]
  simp only [drop_succ_cons, hdrop, Item.entry, ← hvalue]

theorem readAttributes_body {txId : List Byte}
    (hlt : forall item, item ∈ items -> (item.content.value txId).length < 2 ^ 16)
    (hpad : forall item, item ∈ items ->
      item.padding.length = (4 - (item.content.value txId).length % 4) % 4)
    {fuel : Nat} (hfuel : (body txId items).length ≤ fuel) :
    readAttributes fuel (body txId items) =
      items.map (Item.entry txId) := by
  induction items generalizing fuel with
  | nil =>
    cases fuel with
    | zero => rfl
    | succ fuel => rfl
  | cons item items ih =>
    rw [body, flatMap_cons, length_append, length_bytes] at hfuel
    obtain ⟨fuel, rfl⟩ : exists n, fuel = n + 1 := ⟨fuel - 1, by omega⟩
    rw [body, flatMap_cons, readAttributes_cons _ _ (hlt item mem_cons_self)
      (hpad item mem_cons_self), map_cons]
    rw [forall_mem_cons] at hlt hpad
    exact congrArg _ (ih hlt.2 hpad.2 (by rw [body]; omega))

/-- The header of a response is accepted and its attributes are read. -/
theorem checkHeader_bindingResponse (parseErrorResponse : List Byte -> List Byte -> Text)
    {txId : List Byte} (h : WellFormed txId items) :
    checkHeader parseErrorResponse (bindingResponse txId items) txId =
      .ok (items.map (Item.entry txId)) := by
  have hread := readAttributes_body (fun item hmem => value_length_lt h hmem) h.padded
    (Nat.le_refl (body txId items).length)
  have htx := h.txId_length
  have hlen : (UInt16.ofNat (body txId items).length).toNat = (body txId items).length := by
    rw [UInt16.toNat_ofNat']
    exact Nat.mod_eq_of_lt h.body_length
  obtain ⟨n, n', hlength, hreadLength⟩ := u16Be_spec (UInt16.ofNat (body txId items).length)
  have hdata : bindingResponse txId items =
      1 :: 1 :: n :: n' :: 0x21 :: 0x12 :: 0xA4 :: 0x42 :: (txId ++ body txId items) := by
    rw [bindingResponse, hlength]
    rfl
  have htype (rest : List Byte) : readU16Be (1 :: 1 :: rest) = 0x0101 := rfl
  have hcookie : u32FromOctets [0x21, 0x12, 0xA4, 0x42] = magicCookie := by decide
  rw [hdata, checkHeader, if_neg (by simp; omega)]
  simp only [htype, drop_succ_cons, drop_zero, hreadLength, hlen, take_succ_cons,
    take_zero, hcookie]
  rw [if_neg (by decide), if_neg (by simp), if_neg (by simp; omega), if_neg (by simp),
    take_left' htx, if_neg (by simp), drop_left' htx, take_length, hread]

/-!
## What the loops find
-/

def answer (mapped : Option Text) : Except Text Text :=
  mapped.elim (.error missing) .ok

def fullAnswer (mapped other : Option Text) : Except Text StunResult :=
  mapped.elim (.error missing) fun addr => .ok ⟨addr, other⟩

theorem firstOf_cons (get : Attribute -> Option Address) (item : Item) (items : List Item) :
    firstOf get (item :: items) = (get item.content).or (firstOf get items) := by
  rw [firstOf, findSome?_cons, firstOf]
  cases get item.content <;> rfl

theorem lastOf_cons (get : Attribute -> Option Address) (item : Item) (items : List Item) :
    lastOf get (item :: items) = (lastOf get items).or (get item.content) := by
  rw [lastOf, lastOf, reverse_cons, firstOf, findSome?_append, firstOf]
  congr 1
  rw [findSome?_cons]
  cases get item.content <;> rfl

section Loops

variable {txId : List Byte} (htx : txId.length = 12)

include htx

theorem scan_items (h : forall item, item ∈ items -> item.content.WellFormed) (mapped : Option Text) :
    scan txId mapped (items.map (Item.entry txId)) =
      answer (((firstOf Attribute.xorMapped? items).map Address.text).or
        (mapped.or ((firstOf Attribute.mapped? items).map Address.text))) := by
  induction items generalizing mapped with
  | nil => cases mapped <;> rfl
  | cons item items ih =>
    rw [forall_mem_cons] at h
    obtain ⟨content, padding⟩ := item
    rw [map_cons, firstOf_cons, firstOf_cons]
    cases content with
    | mapped a =>
      show scan txId mapped ((attrMappedAddress, plainValue a) :: _) = _
      rw [scan, if_neg (by decide)]
      cases mapped with
      | none => simp [ih h.2, parseMappedAddress_plainValue, Attribute.xorMapped?, Attribute.mapped?]
      | some addr => simp [ih h.2, Attribute.xorMapped?]
    | xorMapped a =>
      show scan txId mapped ((attrXorMappedAddress, plainValue (mask txId a)) :: _) = _
      rw [scan, if_pos rfl, parseXorMappedAddress_plainValue htx, mask_mask htx]
      rfl
    | other a =>
      show scan txId mapped ((attrOtherAddress, plainValue a) :: _) = _
      rw [scan, if_neg (by decide), if_neg (fun h => absurd h.1 (by decide)), ih h.2]
      rfl
    | changed a =>
      show scan txId mapped ((attrChangedAddress, plainValue a) :: _) = _
      rw [scan, if_neg (by decide), if_neg (fun h => absurd h.1 (by decide)), ih h.2]
      rfl
    | unknown kind value =>
      obtain ⟨-, hmapped, hxor, -, -⟩ := h.1
      show scan txId mapped ((kind, value) :: _) = _
      rw [scan, if_neg hxor, if_neg (fun h => absurd h.1 hmapped), ih h.2]
      rfl

theorem scanFull_items (h : forall item, item ∈ items -> item.content.WellFormed)
    (mapped other : Option Text) :
    scanFull txId mapped other
        (items.map (Item.entry txId)) =
      fullAnswer (((lastOf Attribute.xorMapped? items).map Address.text).or
          (mapped.or ((firstOf Attribute.mapped? items).map Address.text)))
        (((lastOf Attribute.second? items).map fun a => (mask txId a).text).or other) := by
  induction items generalizing mapped other with
  | nil => cases mapped <;> rfl
  | cons item items ih =>
    rw [forall_mem_cons] at h
    obtain ⟨content, padding⟩ := item
    rw [map_cons, firstOf_cons, lastOf_cons, lastOf_cons]
    cases content with
    | mapped a =>
      show scanFull txId mapped other ((attrMappedAddress, plainValue a) :: _) = _
      rw [scanFull, if_neg (by decide)]
      cases mapped with
      | none =>
        simp [ih h.2, parseMappedAddress_plainValue, Attribute.xorMapped?, Attribute.mapped?,
          Attribute.second?]
      | some addr =>
        rw [if_neg (fun h => absurd h.2 (by simp)), if_neg (by decide), ih h.2]
        simp [Attribute.xorMapped?, Attribute.second?]
    | xorMapped a =>
      show scanFull txId mapped other ((attrXorMappedAddress, plainValue (mask txId a)) :: _) = _
      rw [scanFull, if_pos rfl, parseXorMappedAddress_plainValue htx, mask_mask htx]
      simp [ih h.2, Attribute.xorMapped?, Attribute.second?, Option.map_or]
    | other a =>
      show scanFull txId mapped other ((attrOtherAddress, plainValue a) :: _) = _
      rw [scanFull, if_neg (by decide), if_neg (fun h => absurd h.1 (by decide)), if_pos (by decide),
        parseXorMappedAddress_plainValue htx]
      simp [ih h.2, Attribute.xorMapped?, Attribute.mapped?, Attribute.second?]
    | changed a =>
      show scanFull txId mapped other ((attrChangedAddress, plainValue a) :: _) = _
      rw [scanFull, if_neg (by decide), if_neg (fun h => absurd h.1 (by decide)), if_pos (by decide),
        parseXorMappedAddress_plainValue htx]
      simp [ih h.2, Attribute.xorMapped?, Attribute.mapped?, Attribute.second?]
    | unknown kind value =>
      obtain ⟨-, hmapped, hxor, hother, hchanged⟩ := h.1
      show scanFull txId mapped other ((kind, value) :: _) = _
      rw [scanFull, if_neg hxor, if_neg (fun h => absurd h.1 hmapped),
        if_neg (not_or.mpr ⟨hother, hchanged⟩), ih h.2]
      simp [Attribute.xorMapped?, Attribute.mapped?, Attribute.second?]

end Loops

/-!
## The texts of two addresses
-/

theorem colon_not_mem_port (port : UInt16) : ':' ∉ Nat.toDigits 10 port.toNat := by
  intro h
  have hdigit : Char.isDigit ':' = true := Nat.isDigit_of_mem_toDigits (by decide) (by decide) h
  exact absurd hdigit (by decide)

/-- The part before the last colon and the port. -/
theorem port_cut {x y : Text} {p q : UInt16}
    (h : x ++ ':' :: Nat.toDigits 10 p.toNat = y ++ ':' :: Nat.toDigits 10 q.toNat) :
    x = y ∧ p = q := by
  have hreverse := congrArg reverse h
  simp only [reverse_append, reverse_cons, append_assoc, cons_append,
    nil_append] at hreverse
  obtain ⟨hport, htext⟩ := Lines.append_cut_inj
    (fun hmem => colon_not_mem_port p (mem_reverse.mp hmem))
    (fun hmem => colon_not_mem_port q (mem_reverse.mp hmem)) hreverse
  refine ⟨reverse_injective htext, UInt16.toNat_inj.mp ?_⟩
  rw [← @Nat.ofDigitChars_ten_toDigits p.toNat, reverse_injective hport,
    Nat.ofDigitChars_ten_toDigits]

theorem ipText_injective {ip ip' : IpAddr} {text : String} (h : parseIpAddr text = some ip)
    (h' : parseIpAddr text = some ip') : ip = ip' :=
  Option.some.inj (h.symm.trans h')

theorem ipv4Text_cons (ip : Ipv4Addr) : exists c cs, ip.toText.toList = c :: cs ∧ c ≠ '[' := by
  have hne : Nat.toDigits 10 ip.a.toNat ≠ [] := Nat.toDigits_ne_nil
  obtain ⟨c, cs, hc⟩ := exists_cons_of_ne_nil hne
  have hdigit : c.isDigit = true :=
    Nat.isDigit_of_mem_toDigits (by decide) (by decide) (hc ▸ mem_cons_self)
  refine ⟨c, cs ++ _, by simp [Ipv4Addr.toText, hc]; rfl, ?_⟩
  rintro rfl
  exact absurd hdigit (by decide)

theorem text_injective : Function.Injective Address.text := by
  intro a b h
  obtain ⟨ip, port⟩ := a
  obtain ⟨ip', port'⟩ := b
  have hmixed (ip : Ipv4Addr) (s t : Text) : ip.toText.toList ++ s ≠ '[' :: t := by
    obtain ⟨c, cs, htext, hc⟩ := ipv4Text_cons ip
    rw [htext]
    intro heq
    exact hc (cons.inj heq).1
  cases ip with
  | v4 ip =>
    cases ip' with
    | v4 ip' =>
      obtain ⟨htext, rfl⟩ := port_cut h
      have hip : IpAddr.v4 ip = IpAddr.v4 ip' :=
        ipText_injective (parseIpAddr_v4 ip) (String.toList_injective htext ▸ parseIpAddr_v4 ip')
      rw [hip]
    | v6 ip' => exact absurd h (hmixed ip _ _)
  | v6 ip =>
    cases ip' with
    | v4 ip' => exact absurd h.symm (hmixed ip' _ _)
    | v6 ip' =>
      have hcut : (ip.toText.toList ++ [']']) ++ ':' :: Nat.toDigits 10 port.toNat =
          (ip'.toText.toList ++ [']']) ++ ':' :: Nat.toDigits 10 port'.toNat := by
        simpa using (cons.inj h).2
      obtain ⟨htext, rfl⟩ := port_cut hcut
      have htext := append_cancel_right htext
      have hip : IpAddr.v6 ip = IpAddr.v6 ip' :=
        ipText_injective (parseIpAddr_v6 ip) (String.toList_injective htext ▸ parseIpAddr_v6 ip')
      rw [hip]

/-!
## The answers
-/

theorem lastOf_eq_none_iff (get : Attribute -> Option Address) (items : List Item) :
    lastOf get items = none <-> firstOf get items = none := by
  simp [lastOf, firstOf, findSome?_eq_none_iff]

/-- The second address comes out right exactly if the last attribute that names one, if any, holds
the XOR of the first OTHER-ADDRESS. -/
theorem answers_iff (parseErrorResponse : List Byte -> List Byte -> Text) {txId : List Byte}
    {items : List Item} (h : WellFormed txId items) :
    (forall a, mappedAddress items = some a ->
      parseBindingResponse parseErrorResponse (bindingResponse txId items) txId = .ok a.text ∧
      parseBindingResponseFull parseErrorResponse (bindingResponse txId items) txId =
        .ok ⟨a.text, (firstOf Attribute.other? items).map Address.text⟩) <->
    (mappedAddress items ≠ none ->
      lastOf Attribute.xorMapped? items = firstOf Attribute.xorMapped? items ∧
      (lastOf Attribute.second? items).map (mask txId) = firstOf Attribute.other? items) := by
  have hmap (f : Address -> Address) (o o' : Option Address) :
      o.map (fun a => (f a).text) = o'.map Address.text <-> o.map f = o' := by
    rw [← Option.map_injective text_injective |>.eq_iff, Option.map_map]
    rfl
  have hparse : parseBindingResponse parseErrorResponse (bindingResponse txId items) txId =
      answer ((mappedAddress items).map Address.text) := by
    rw [parseBindingResponse, checkHeader_bindingResponse parseErrorResponse h]
    show scan txId none (items.map (Item.entry txId)) = _
    rw [scan_items h.txId_length h.attributes, Option.none_or, ← Option.map_or]
    rfl
  have hfull : parseBindingResponseFull parseErrorResponse (bindingResponse txId items) txId =
      fullAnswer (((lastOf Attribute.xorMapped? items).or
        (firstOf Attribute.mapped? items)).map Address.text)
        ((lastOf Attribute.second? items).map fun a => (mask txId a).text) := by
    rw [parseBindingResponseFull, checkHeader_bindingResponse parseErrorResponse h]
    show scanFull txId none none (items.map (Item.entry txId)) = _
    rw [scanFull_items h.txId_length h.attributes, Option.none_or, ← Option.map_or, Option.or_none]
  rw [hparse, hfull]
  cases ha : mappedAddress items with
  | none => simp
  | some a =>
    have hfound : (lastOf Attribute.xorMapped? items).or (firstOf Attribute.mapped? items) = some a <->
        lastOf Attribute.xorMapped? items = firstOf Attribute.xorMapped? items := by
      rw [mappedAddress] at ha
      cases hfirst : firstOf Attribute.xorMapped? items with
      | none =>
        rw [hfirst, Option.none_or] at ha
        rw [(lastOf_eq_none_iff _ _).mpr hfirst, Option.none_or, ha]
        simp
      | some x =>
        rw [hfirst, Option.some_or] at ha
        cases ha
        cases hlast : lastOf Attribute.xorMapped? items with
        | none =>
          rw [(lastOf_eq_none_iff _ _).mp hlast] at hfirst
          cases hfirst
        | some y => rw [Option.some_or]
    have hans (o : Option Address) (second : Option Text) :
        fullAnswer (o.map Address.text) second =
          .ok ⟨a.text, (firstOf Attribute.other? items).map Address.text⟩ <->
        o = some a ∧ second = (firstOf Attribute.other? items).map Address.text := by
      cases o with
      | none => simp [fullAnswer]
      | some b => simp [fullAnswer, text_injective.eq_iff]
    simp only [Option.some_inj, forall_eq', hans, hfound, hmap, answer, Option.map_some,
      Option.elim_some, true_and, ne_eq, reduceCtorEq, not_false_eq_true, forall_const]

theorem answers_iff_plain :
    parseBindingResponseFull (fun _ _ => []) (bindingResponse (replicate 12 7)
      [⟨.unknown 0x8022 [65], [0, 0, 0]⟩, ⟨.xorMapped ⟨.v4 ⟨192, 0, 2, 1⟩, 3478⟩, []⟩])
      (replicate 12 7) = .ok ⟨"192.0.2.1:3478".toList, none⟩ := by
  have hwf : WellFormed (replicate 12 7)
      [⟨.unknown 0x8022 [65], [0, 0, 0]⟩, ⟨.xorMapped ⟨.v4 ⟨192, 0, 2, 1⟩, 3478⟩, []⟩] := by
    refine ⟨by decide, by decide, ?_, ?_⟩
    · simp [Attribute.WellFormed, attrMappedAddress, attrXorMappedAddress, attrOtherAddress,
        attrChangedAddress]
    · decide
  exact ((answers_iff (fun _ _ => []) hwf).mpr (fun _ => ⟨rfl, rfl⟩) _ rfl).2

def dualServer : List Item :=
  [⟨.xorMapped ⟨.v4 ⟨192, 0, 2, 1⟩, 3478⟩, []⟩, ⟨.other ⟨.v4 ⟨192, 0, 2, 2⟩, 3478⟩, []⟩]

/-- The second address of the server is reported under the magic cookie. -/
theorem other_address_masked :
    (firstOf Attribute.other? dualServer).map Address.text = some "192.0.2.2:3478".toList ∧
      parseBindingResponseFull (fun _ _ => []) (bindingResponse (replicate 12 7) dualServer)
        (replicate 12 7) =
          .ok ⟨"192.0.2.1:3478".toList, some "225.18.166.64:11396".toList⟩ := by
  decide +kernel

end Stun
end NatHole
end FrpRs
