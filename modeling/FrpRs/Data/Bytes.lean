import Mathlib.Algebra.Order.Ring.Nat

/-!
# Fixed-width integers on byte lists

Wire formats write an unsigned integer as a fixed number of bytes, least or most
significant byte first.  Writing keeps the value modulo the width; reading back
what was written, and writing back what was read, are the identity.
-/

namespace FrpRs
namespace Bytes

open List

abbrev Byte := UInt8

/-!
## Little-endian digits
-/

def leBytes : Nat -> Nat -> List Byte
  | 0, _ => []
  | n + 1, v => UInt8.ofNat v :: leBytes n (v / 256)

def ofLeBytes : List Byte -> Nat
  | [] => 0
  | b :: bs => b.toNat + 256 * ofLeBytes bs

@[simp] theorem leBytes_length (n v : Nat) : (leBytes n v).length = n := by
  induction n generalizing v with
  | zero =>
    rfl
  | succ n ih =>
    simp [leBytes, ih]

theorem ofLeBytes_leBytes (n v : Nat) :
    ofLeBytes (leBytes n v) = v % 256 ^ n := by
  induction n generalizing v with
  | zero =>
    simp [leBytes, ofLeBytes, Nat.mod_one]
  | succ n ih =>
    have hpow : 256 ^ (n + 1) = 256 * 256 ^ n := by
      rw [Nat.pow_succ, Nat.mul_comm]
    simp only [leBytes, ofLeBytes]
    rw [ih, hpow, Nat.mod_mul, UInt8.toNat_ofNat']

variable (bs : List Byte)

theorem ofLeBytes_lt : ofLeBytes bs < 256 ^ bs.length := by
  induction bs with
  | nil =>
    simp [ofLeBytes]
  | cons b bs ih =>
    have hb := b.toNat_lt
    simp only [ofLeBytes, length_cons]
    omega

theorem leBytes_ofLeBytes :
    leBytes bs.length (ofLeBytes bs) = bs := by
  induction bs with
  | nil =>
    rfl
  | cons b bs ih =>
    have hb := b.toNat_lt
    have hdiv : (b.toNat + 256 * ofLeBytes bs) / 256 = ofLeBytes bs := by
      omega
    have hhead : UInt8.ofNat (b.toNat + 256 * ofLeBytes bs) = b := by
      apply UInt8.toNat_inj.mp
      rw [UInt8.toNat_ofNat']
      omega
    simp only [length_cons, leBytes, ofLeBytes]
    rw [hdiv, ih, hhead]

/-!
## Big-endian digits
-/

def beBytes (n v : Nat) : List Byte :=
  (leBytes n v).reverse

def ofBeBytes (bs : List Byte) : Nat :=
  ofLeBytes bs.reverse

@[simp] theorem beBytes_length (n v : Nat) : (beBytes n v).length = n := by
  simp [beBytes]

theorem ofBeBytes_beBytes (n v : Nat) :
    ofBeBytes (beBytes n v) = v % 256 ^ n := by
  simp [ofBeBytes, beBytes, ofLeBytes_leBytes]

theorem beBytes_ofBeBytes :
    beBytes bs.length (ofBeBytes bs) = bs := by
  have h := leBytes_ofLeBytes bs.reverse
  rw [length_reverse] at h
  simp [beBytes, ofBeBytes, h]

theorem ofBeBytes_lt : ofBeBytes bs < 256 ^ bs.length := by
  have h := ofLeBytes_lt bs.reverse
  rw [length_reverse] at h
  exact h

theorem prefixed_inj {n : Nat} {a b rest rest' : List Byte} (ha : a.length < 256 ^ n)
    (hb : b.length < 256 ^ n)
    (h : beBytes n a.length ++ (a ++ rest) = beBytes n b.length ++ (b ++ rest')) :
    a = b ∧ rest = rest' := by
  have hparts := append_inj h (by simp)
  have hlength : a.length = b.length := by
    have hdigits := congrArg ofBeBytes hparts.1
    rw [ofBeBytes_beBytes, ofBeBytes_beBytes, Nat.mod_eq_of_lt ha, Nat.mod_eq_of_lt hb] at hdigits
    exact hdigits
  exact append_inj hparts.2 hlength

/-!
## Machine widths
-/

def u16Le (v : UInt16) : List Byte := leBytes 2 v.toNat

def u32Le (v : UInt32) : List Byte := leBytes 4 v.toNat

def u16Be (v : UInt16) : List Byte := beBytes 2 v.toNat

def readU16Le (bs : List Byte) : UInt16 := UInt16.ofNat (ofLeBytes (bs.take 2))

def readU32Le (bs : List Byte) : UInt32 := UInt32.ofNat (ofLeBytes (bs.take 4))

def readU16Be (bs : List Byte) : UInt16 := UInt16.ofNat (ofBeBytes (bs.take 2))

variable (v : UInt16)

@[simp] theorem u16Le_length : (u16Le v).length = 2 := by
  simp [u16Le]

@[simp] theorem u32Le_length (v : UInt32) : (u32Le v).length = 4 := by
  simp [u32Le]

@[simp] theorem u16Be_length : (u16Be v).length = 2 := by
  simp [u16Be]

theorem readU16Le_append (rest : List Byte) :
    readU16Le (u16Le v ++ rest) = v := by
  have htake : (u16Le v ++ rest).take 2 = u16Le v := by
    rw [take_append_of_le_length (by simp), take_of_length_le (by simp)]
  have hv := v.toNat_lt
  unfold readU16Le
  rw [htake]
  unfold u16Le
  rw [ofLeBytes_leBytes, Nat.mod_eq_of_lt (by omega), UInt16.ofNat_toNat]

theorem readU32Le_append (v : UInt32) (rest : List Byte) :
    readU32Le (u32Le v ++ rest) = v := by
  have htake : (u32Le v ++ rest).take 4 = u32Le v := by
    rw [take_append_of_le_length (by simp), take_of_length_le (by simp)]
  have hv := v.toNat_lt
  unfold readU32Le
  rw [htake]
  unfold u32Le
  rw [ofLeBytes_leBytes, Nat.mod_eq_of_lt (by omega), UInt32.ofNat_toNat]

theorem readU16Be_append (rest : List Byte) :
    readU16Be (u16Be v ++ rest) = v := by
  have htake : (u16Be v ++ rest).take 2 = u16Be v := by
    rw [take_append_of_le_length (by simp), take_of_length_le (by simp)]
  have hv := v.toNat_lt
  unfold readU16Be
  rw [htake]
  unfold u16Be
  rw [ofBeBytes_beBytes, Nat.mod_eq_of_lt (by omega), UInt16.ofNat_toNat]

theorem u16Be_readU16Be {bs : List Byte} (h : 2 ≤ bs.length) :
    u16Be (readU16Be bs) = bs.take 2 := by
  have hlen : (bs.take 2).length = 2 := by
    rw [length_take]
    omega
  have hlt := ofBeBytes_lt (bs.take 2)
  have hback := beBytes_ofBeBytes (bs.take 2)
  rw [hlen] at hlt hback
  unfold u16Be readU16Be
  rw [UInt16.toNat_ofNat', Nat.mod_eq_of_lt (by omega), hback]

/-!
## Text
-/

def utf8 (s : String) : List Byte := s.toByteArray.data.toList

def fromUtf8 (bs : List Byte) : Option String := String.fromUTF8? ⟨⟨bs⟩⟩

theorem fromUtf8_utf8 (s : String) : fromUtf8 (utf8 s) = some s :=
  dif_pos s.isValidUTF8

theorem utf8_fromUtf8 {bs : List Byte} {s : String} (h : fromUtf8 bs = some s) :
    utf8 s = bs := by
  unfold fromUtf8 String.fromUTF8? at h
  split at h
  · cases h
    rfl
  · cases h

@[simp] theorem utf8_empty : utf8 "" = [] := rfl

theorem utf8_eq_nil {s : String} : utf8 s = [] ↔ s = "" := by
  constructor
  · intro h
    have hs := fromUtf8_utf8 s
    have hempty := fromUtf8_utf8 ""
    rw [h, ← utf8_empty, hempty] at hs
    exact (Option.some.inj hs).symm
  · intro h
    rw [h, utf8_empty]

theorem initial_of_eq {a b : List Byte} (h : a = b) : a <+: b :=
  ⟨[], (append_nil a).trans h⟩

end Bytes
end FrpRs
