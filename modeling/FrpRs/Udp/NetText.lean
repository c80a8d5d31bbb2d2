import FrpRs.Data.IpText
import FrpRs.Udp.Binary

/-!
# The standard library's address text

`IpAddr::from_str` and the `Display` of IPv4 and IPv6 addresses.  Reading what was
written gives the address back, for every address.
-/

namespace FrpRs
namespace Udp

open List Bytes
open IpText

def ipv4OfOctets (octets : List Nat) : Ipv4Addr :=
  { a := UInt8.ofNat (octets.getD 0 0)
    b := UInt8.ofNat (octets.getD 1 0)
    c := UInt8.ofNat (octets.getD 2 0)
    d := UInt8.ofNat (octets.getD 3 0) }

def groupsOf : List Byte -> List Nat
  | hi :: lo :: rest => (hi.toNat * 256 + lo.toNat) :: groupsOf rest
  | _ => []

def octetsOf (groups : List Nat) : List Byte :=
  groups.flatMap fun g => [UInt8.ofNat (g / 256), UInt8.ofNat (g % 256)]

def ipv6OfGroups (groups : List Nat) : Option Ipv6Addr :=
  if h : (octetsOf groups).length = 16 then some ⟨octetsOf groups, h⟩ else none

def parseIpAddr (text : String) : Option IpAddr :=
  match readIpv4 text.toList with
  | some (octets, rest) => if rest = [] then some (.v4 (ipv4OfOctets octets)) else none
  | none =>
    match readIpv6 text.toList with
    | some (groups, rest) => if rest = [] then (ipv6OfGroups groups).map .v6 else none
    | none => none

def Ipv6Addr.toText (ip : Ipv6Addr) : String :=
  match ip.toIpv4Mapped with
  | some v4 => String.ofList (formatMapped (v4.octets.map UInt8.toNat))
  | none => String.ofList (formatGroups (groupsOf ip.octets))

def stdNet (utf8Error : List Byte -> String) : NetText where
  parse := parseIpAddr
  ipv6ToString := Ipv6Addr.toText
  utf8Error := utf8Error

/-!
## Reading back
-/

theorem octetsOf_groupsOf {octets : List Byte} {n : Nat} (h : octets.length = 2 * n) :
    octetsOf (groupsOf octets) = octets ∧ (groupsOf octets).length = n := by
  induction n generalizing octets with
  | zero =>
    rw [length_eq_zero_iff.mp h]
    exact ⟨rfl, rfl⟩
  | succ n ih =>
    match octets, h with
    | hi :: lo :: rest, h =>
      have hrest : rest.length = 2 * n := by
        simp only [length_cons] at h
        omega
      obtain ⟨hback, hlen⟩ := ih hrest
      have hlo := lo.toNat_lt
      have hhigh : UInt8.ofNat ((hi.toNat * 256 + lo.toNat) / 256) = hi := by
        rw [show (hi.toNat * 256 + lo.toNat) / 256 = hi.toNat by omega, UInt8.ofNat_toNat]
      have hlow : UInt8.ofNat ((hi.toNat * 256 + lo.toNat) % 256) = lo := by
        rw [show (hi.toNat * 256 + lo.toNat) % 256 = lo.toNat by omega, UInt8.ofNat_toNat]
      constructor
      · show [_, _] ++ octetsOf (groupsOf rest) = hi :: lo :: rest
        rw [hback, hhigh, hlow]
        rfl
      · show (groupsOf rest).length + 1 = n + 1
        rw [hlen]

theorem groupsOf_lt (octets : List Byte) : forall g, g ∈ groupsOf octets -> g < 65536 := by
  intro g hg
  induction octets using groupsOf.induct with
  | case1 hi lo rest ih =>
    rcases mem_cons.mp hg with hfirst | hrest
    · have hhi := hi.toNat_lt
      have hlo := lo.toNat_lt
      omega
    · exact ih hrest
  | case2 octets hshort =>
    rw [groupsOf] at hg
    · cases hg
    · exact hshort

theorem toText_toList (ip : Ipv4Addr) :
    ip.toText.toList = joined '.' 10 0 (ip.octets.map UInt8.toNat) := by
  have hnat : forall n : Nat, (toString n).toList = Nat.toDigits 10 n := by
    intro n
    rw [Nat.toString_eq_ofList_toDigits, String.toList_ofList]
  unfold Ipv4Addr.toText Ipv4Addr.octets
  simp [joined]

theorem ipv4OfOctets_octets (ip : Ipv4Addr) :
    ipv4OfOctets (ip.octets.map UInt8.toNat) = ip := by
  unfold ipv4OfOctets Ipv4Addr.octets
  simp

theorem parseIpAddr_v4 (ip : Ipv4Addr) : parseIpAddr ip.toText = some (.v4 ip) := by
  have hoctets : forall o, o ∈ ip.octets.map UInt8.toNat -> o < 256 := by
    intro o ho
    obtain ⟨b, -, rfl⟩ := mem_map.mp ho
    exact b.toNat_lt
  have hread := readOctets_joined hoctets 0 (endsNumber_nil 10)
  rw [append_nil] at hread
  have hipv4 : readIpv4 ip.toText.toList = some (ip.octets.map UInt8.toNat, []) := by
    rw [toText_toList]
    exact hread
  unfold parseIpAddr
  rw [hipv4]
  simp only [if_true]
  rw [ipv4OfOctets_octets]

theorem ipv6OfGroups_groupsOf (ip : Ipv6Addr) {groups : List Nat}
    (h : octetsOf groups = ip.octets) : ipv6OfGroups groups = some ip := by
  have hlen : (octetsOf groups).length = 16 := by
    rw [h]
    exact ip.length_eq
  unfold ipv6OfGroups
  rw [dif_pos hlen]
  congr 1
  cases ip with
  | mk octets length_eq =>
    congr 1

theorem octets_of_mapped {ip : Ipv6Addr} {v4 : Ipv4Addr} (h : ip.toIpv4Mapped = some v4) :
    ip.octets = [0, 0, 0, 0, 0, 0, 0, 0, 0, 0, 255, 255] ++ v4.octets := by
  unfold Ipv6Addr.toIpv4Mapped at h
  split at h
  · rename_i hfront
    cases h
    have hback : ip.octets.drop 12 = [ip.octets.getD 12 0, ip.octets.getD 13 0,
        ip.octets.getD 14 0, ip.octets.getD 15 0] := by
      have hlen := ip.length_eq
      match hoctets : ip.octets, hlen with
      | [_, _, _, _, _, _, _, _, _, _, _, _, _, _, _, _], _ => rfl
    show ip.octets = _ ++ [_, _, _, _]
    rw [← hfront, ← hback, take_append_drop]
  · cases h

theorem octetsOf_mapped (v4 : Ipv4Addr) :
    octetsOf ([0, 0, 0, 0, 0, 65535] ++ embeddedGroups (v4.octets.map UInt8.toNat)) =
      [0, 0, 0, 0, 0, 0, 0, 0, 0, 0, 255, 255] ++ v4.octets := by
  have hsplit : forall hi lo : Byte,
      UInt8.ofNat ((hi.toNat * 256 + lo.toNat) / 256) = hi ∧
        UInt8.ofNat ((hi.toNat * 256 + lo.toNat) % 256) = lo := by
    intro hi lo
    have hlo := lo.toNat_lt
    constructor
    · rw [show (hi.toNat * 256 + lo.toNat) / 256 = hi.toNat by omega, UInt8.ofNat_toNat]
    · rw [show (hi.toNat * 256 + lo.toNat) % 256 = lo.toNat by omega, UInt8.ofNat_toNat]
  obtain ⟨a, b, c, d⟩ := v4
  show [0, 0, 0, 0, 0, 0, 0, 0, 0, 0, 255, 255,
    UInt8.ofNat ((a.toNat * 256 + b.toNat) / 256), UInt8.ofNat ((a.toNat * 256 + b.toNat) % 256),
    UInt8.ofNat ((c.toNat * 256 + d.toNat) / 256),
    UInt8.ofNat ((c.toNat * 256 + d.toNat) % 256)] = _
  rw [(hsplit a b).1, (hsplit a b).2, (hsplit c d).1, (hsplit c d).2]
  rfl

theorem not_dot_mem_formatGroups (groups : List Nat) : '.' ∉ formatGroups groups := by
  unfold formatGroups
  simp only
  split
  · intro hmem
    rcases mem_append.mp hmem with hhead | hmem
    · exact not_dot_mem_joined 0 _ hhead
    · rcases mem_cons.mp hmem with hsep | hmem
      · exact absurd hsep (by decide)
      · rcases mem_cons.mp hmem with hsep | htail
        · exact absurd hsep (by decide)
        · exact not_dot_mem_joined 0 _ htail
  · exact not_dot_mem_joined 0 groups

theorem parseIpAddr_v6 (ip : Ipv6Addr) : parseIpAddr ip.toText = some (.v6 ip) := by
  unfold Ipv6Addr.toText
  cases hmapped : ip.toIpv4Mapped with
  | some v4 =>
    have hoctets : forall o, o ∈ v4.octets.map UInt8.toNat -> o < 256 := by
      intro o ho
      obtain ⟨b, -, rfl⟩ := mem_map.mp ho
      exact b.toNat_lt
    have hipv6 := @readIpv6_formatMapped (v4.octets.map UInt8.toNat) rfl hoctets
    have hipv4 : readIpv4 (formatMapped (v4.octets.map UInt8.toNat)) = none := rfl
    have hback : octetsOf ([0, 0, 0, 0, 0, 65535] ++
        embeddedGroups (v4.octets.map UInt8.toNat)) = ip.octets := by
      rw [octetsOf_mapped, octets_of_mapped hmapped]
    unfold parseIpAddr
    simp only [String.toList_ofList]
    rw [hipv4, hipv6]
    simp only [if_true]
    rw [ipv6OfGroups_groupsOf ip hback]
    rfl
  | none =>
    obtain ⟨hback, hlen⟩ := @octetsOf_groupsOf ip.octets 8 ip.length_eq
    have hipv6 := readIpv6_formatGroups hlen (groupsOf_lt ip.octets)
    have hipv4 := readIpv4_eq_none (not_dot_mem_formatGroups (groupsOf ip.octets))
    unfold parseIpAddr
    simp only [String.toList_ofList]
    rw [hipv4, hipv6]
    simp only [if_true]
    rw [ipv6OfGroups_groupsOf ip hback]
    rfl

theorem stdNet_readsBack (utf8Error : List Byte -> String) (ip : IpAddr) :
    (stdNet utf8Error).ReadsBack ip := by
  unfold NetText.ReadsBack stdNet NetText.toText
  cases ip with
  | v4 ip =>
    simp only
    exact parseIpAddr_v4 ip
  | v6 ip =>
    simp only
    exact parseIpAddr_v6 ip

theorem stdNet_parse_empty (utf8Error : List Byte -> String) :
    (stdNet utf8Error).parse "" = none := rfl

end Udp
end FrpRs
