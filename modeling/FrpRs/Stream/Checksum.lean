import FrpRs.Stream.Snappy

/-!
# The checksum bit by bit

The register of the checksum is linear in exclusive or, and clear bits at its end only shift it.  So
a byte that stands `k` places above the end counts as one that arrives `k` bytes later, and eight
tables take eight bytes at once.
-/

namespace FrpRs
namespace Stream
namespace Crc32c

open Bytes

def reduceBits : Nat -> UInt32 -> UInt32
  | 0, crc => crc
  | n + 1, crc => reduceBits n (reduceBit crc)

/-- CRC-32C bit by bit: reflected, from all ones, complemented at the end. -/
def crc32cBitwise (data : List Byte) : UInt32 :=
  data.foldl (fun c b => reduceBits 8 (c ^^^ b.toUInt32)) 0xFFFFFFFF ^^^ 0xFFFFFFFF

/-!
## Linearity
-/

variable (x : UInt32)

theorem and_one_ne_zero_iff : x &&& 1 ≠ 0 <-> x.toBitVec.getLsbD 0 = true := by
  rw [Ne, ← UInt32.toBitVec_inj, UInt32.toBitVec_and]
  change ¬ x.toBitVec &&& 1#32 = 0#32 ↔ _
  rw [BitVec.and_one_eq_setWidth_ofBool_getLsbD]
  cases x.toBitVec.getLsbD 0 <;> decide

theorem reduceBit_xor (x y : UInt32) : reduceBit (x ^^^ y) = reduceBit x ^^^ reduceBit y := by
  have hshift : (x ^^^ y) >>> 1 = x >>> 1 ^^^ y >>> 1 := by
    apply UInt32.toBitVec_inj.mp
    simp [BitVec.ushiftRight_xor_distrib]
  simp only [reduceBit, and_one_ne_zero_iff, UInt32.toBitVec_xor, BitVec.getLsbD_xor, hshift]
  cases x.toBitVec.getLsbD 0 <;> cases y.toBitVec.getLsbD 0
  · rfl
  · exact UInt32.xor_assoc _ _ _
  · simp only [Bool.xor_false, if_true, if_neg Bool.false_ne_true]
    ac_rfl
  · simp only [bne_self_eq_false, if_true, if_neg Bool.false_ne_true]
    generalize (0x82F63B78 : UInt32) = p
    rw [show x >>> 1 ^^^ p ^^^ (y >>> 1 ^^^ p) = x >>> 1 ^^^ y >>> 1 ^^^ (p ^^^ p) by ac_rfl,
      UInt32.xor_self, UInt32.xor_zero]

theorem reduceBits_xor (n : Nat) (x y : UInt32) :
    reduceBits n (x ^^^ y) = reduceBits n x ^^^ reduceBits n y := by
  induction n generalizing x y with
  | zero => rfl
  | succ n ih => rw [reduceBits, reduceBit_xor, ih, reduceBits, reduceBits]

theorem reduceBits_add (m n : Nat) (x : UInt32) :
    reduceBits (m + n) x = reduceBits n (reduceBits m x) := by
  induction m generalizing x with
  | zero => rw [Nat.zero_add, reduceBits]
  | succ m ih => rw [Nat.add_right_comm, reduceBits, ih, reduceBits]

/-- Bits that are clear only shift the register. -/
theorem reduceBits_of_clear {n : Nat} {x : UInt32}
    (h : forall i, i < n -> x.toBitVec.getLsbD i = false) :
    (reduceBits n x).toBitVec = x.toBitVec >>> n := by
  induction n generalizing x with
  | zero => simp [reduceBits]
  | succ n ih =>
    have hlow : ¬ x &&& 1 ≠ 0 := by
      rw [and_one_ne_zero_iff, h 0 (Nat.succ_pos n)]
      exact Bool.false_ne_true
    have hbit : (reduceBit x).toBitVec = x.toBitVec >>> 1 := by
      rw [reduceBit, if_neg hlow]
      simp
    rw [reduceBits, ih, hbit, ← BitVec.shiftRight_add, Nat.add_comm 1 n]
    intro i hi
    rw [hbit, BitVec.getLsbD_ushiftRight, Nat.add_comm 1 i]
    exact h (i + 1) (Nat.succ_lt_succ hi)

/-!
## Bytes of the register
-/

theorem toNat_low : (x &&& (0xFF : UInt32)).toNat = x.toNat % 256 := by
  rw [UInt32.toNat_and]
  exact Nat.and_two_pow_sub_one_eq_mod _ 8

theorem getLsbD_low (i : Nat) : (0xFF#32).getLsbD i = decide (i < 8) := by
  rw [show (0xFF#32) = BitVec.ofNat 32 (2 ^ 8 - 1) from rfl, BitVec.getLsbD_ofNat,
    Nat.testBit_two_pow_sub_one]
  by_cases h : i < 8
  · rw [decide_eq_true h, Bool.and_true, decide_eq_true (by omega)]
  · rw [decide_eq_false h, Bool.and_false]

/-- The register is the sum of its last byte and of the other bytes in their places. -/
theorem split_low : x = (x &&& (0xFF : UInt32)) ^^^ ((x >>> 8) <<< 8) := by
  apply UInt32.toBitVec_inj.mp
  apply BitVec.eq_of_getLsbD_eq
  intro i hi
  change _ = ((x.toBitVec &&& 0xFF#32) ^^^ ((x.toBitVec >>> 8) <<< 8)).getLsbD i
  rw [BitVec.getLsbD_xor, BitVec.getLsbD_and, BitVec.getLsbD_shiftLeft,
    BitVec.getLsbD_ushiftRight, getLsbD_low]
  by_cases h : i < 8
  · simp [h]
  · simp [h, hi, show 8 + (i - 8) = i by omega]

theorem reduceBits_shifted : reduceBits 8 ((x >>> 8) <<< 8) = x >>> 8 := by
  apply UInt32.toBitVec_inj.mp
  have hshift : ((x >>> 8) <<< 8).toBitVec = (x.toBitVec >>> 8) <<< 8 := rfl
  rw [reduceBits_of_clear, hshift]
  · apply BitVec.eq_of_getLsbD_eq
    intro i _
    change _ = (x.toBitVec >>> 8).getLsbD i
    have hhigh := BitVec.getLsbD_of_ge x.toBitVec (8 + i)
    simp
    grind
  · intro i hi
    rw [hshift, BitVec.getLsbD_shiftLeft, decide_eq_true hi]
    simp

/-- One byte of the register through the table. -/
theorem reduceBits_eq :
    reduceBits 8 x = baseEntry (x &&& (0xFF : UInt32)) ^^^ (x >>> 8) := by
  conv_lhs => rw [split_low x, reduceBits_xor, reduceBits_shifted]
  rfl

theorem sliceEntry_eq (j : Nat) (i : UInt32) : sliceEntry j i = reduceBits (8 * j + 8) i := by
  induction j with
  | zero => rfl
  | succ j ih =>
    rw [sliceEntry, ← reduceBits_eq, ih, ← reduceBits_add]
    rfl

theorem byte_shift (b : Byte) : b.toUInt32 >>> 8 = 0 := by
  apply UInt32.toNat_inj.mp
  rw [UInt32.toNat_shiftRight]
  change b.toUInt32.toNat >>> 8 = 0
  rw [UInt8.toNat_toUInt32, Nat.shiftRight_eq_div_pow]
  exact Nat.div_eq_of_lt b.toNat_lt

variable (c : UInt32)

theorem absorb_eq (b : Byte) :
    baseEntry ((c ^^^ b.toUInt32) &&& (0xFF : UInt32)) ^^^ (c >>> 8) =
      reduceBits 8 (c ^^^ b.toUInt32) := by
  have hshift : (c ^^^ b.toUInt32) >>> 8 = c >>> 8 ^^^ b.toUInt32 >>> 8 := by
    apply UInt32.toBitVec_inj.mp
    exact BitVec.ushiftRight_xor_distrib _ _ 8
  rw [reduceBits_eq, hshift, byte_shift, UInt32.xor_zero]

theorem tailLoop_eq (data : List Byte) :
    tailLoop c data = data.foldl (fun c b => reduceBits 8 (c ^^^ b.toUInt32)) c := by
  induction data generalizing c with
  | nil => rfl
  | cons b data ih => rw [tailLoop, ih, absorb_eq, List.foldl_cons]

/-!
## Eight bytes at once
-/

/-- The four bytes of a register arrive one after the other. -/
theorem reduceBits_word :
    reduceBits 64 x = reduceBits 64 (x &&& (0xFF : UInt32)) ^^^
      reduceBits 56 ((x >>> 8) &&& (0xFF : UInt32)) ^^^
      reduceBits 48 ((x >>> 16) &&& (0xFF : UInt32)) ^^^ reduceBits 40 (x >>> 24) := by
  have hbyte (n : Nat) (y : UInt32) : reduceBits (8 + n) y =
      reduceBits (8 + n) (y &&& (0xFF : UInt32)) ^^^ reduceBits n (y >>> 8) := by
    rw [reduceBits_add, reduceBits_eq, reduceBits_xor, reduceBits_add]
    rfl
  have h16 : (x >>> 8) >>> 8 = x >>> 16 :=
    UInt32.toBitVec_inj.mp (BitVec.shiftRight_add x.toBitVec 8 8).symm
  have h24 : (x >>> 16) >>> 8 = x >>> 24 :=
    UInt32.toBitVec_inj.mp (BitVec.shiftRight_add x.toBitVec 16 8).symm
  rw [hbyte 56 x, hbyte 48 (x >>> 8), h16, hbyte 40 (x >>> 16), h24]
  ac_rfl

theorem bytes_of_word (b0 b1 b2 b3 : Byte) :
    let lo := UInt32.ofNat (ofLeBytes [b0, b1, b2, b3])
    lo &&& (0xFF : UInt32) = b0.toUInt32 ∧ (lo >>> 8) &&& (0xFF : UInt32) = b1.toUInt32 ∧
      (lo >>> 16) &&& (0xFF : UInt32) = b2.toUInt32 ∧ lo >>> 24 = b3.toUInt32 := by
  intro lo
  have h0 := b0.toNat_lt
  have h1 := b1.toNat_lt
  have h2 := b2.toNat_lt
  have h3 := b3.toNat_lt
  have hlo : lo.toNat = b0.toNat + 256 * (b1.toNat + 256 * (b2.toNat + 256 * b3.toNat)) := by
    refine UInt32.toNat_ofNat_of_lt' ?_
    change b0.toNat + 256 * (b1.toNat + 256 * (b2.toNat + 256 * (b3.toNat + 256 * 0))) < 2 ^ 32
    omega
  have hs8 : (lo >>> 8).toNat = lo.toNat / 256 := Nat.shiftRight_eq_div_pow lo.toNat 8
  have hs16 : (lo >>> 16).toNat = lo.toNat / 65536 := Nat.shiftRight_eq_div_pow lo.toNat 16
  have hs24 : (lo >>> 24).toNat = lo.toNat / 16777216 := Nat.shiftRight_eq_div_pow lo.toNat 24
  refine ⟨?_, ?_, ?_, ?_⟩
  · apply UInt32.toNat_inj.mp
    rw [toNat_low, UInt8.toNat_toUInt32, hlo]
    omega
  · apply UInt32.toNat_inj.mp
    rw [toNat_low, hs8, UInt8.toNat_toUInt32, hlo]
    omega
  · apply UInt32.toNat_inj.mp
    rw [toNat_low, hs16, UInt8.toNat_toUInt32, hlo]
    omega
  · apply UInt32.toNat_inj.mp
    rw [hs24, UInt8.toNat_toUInt32, hlo]
    omega

theorem slice_eq (b0 b1 b2 b3 b4 b5 b6 b7 : Byte) :
    let d := c ^^^ UInt32.ofNat (ofLeBytes [b0, b1, b2, b3])
    sliceEntry 0 b7.toUInt32 ^^^ sliceEntry 1 b6.toUInt32 ^^^ sliceEntry 2 b5.toUInt32 ^^^
        sliceEntry 3 b4.toUInt32 ^^^ sliceEntry 4 (d >>> 24) ^^^
        sliceEntry 5 ((d >>> 16) &&& (0xFF : UInt32)) ^^^
        sliceEntry 6 ((d >>> 8) &&& (0xFF : UInt32)) ^^^ sliceEntry 7 (d &&& (0xFF : UInt32)) =
      [b0, b1, b2, b3, b4, b5, b6, b7].foldl (fun c b => reduceBits 8 (c ^^^ b.toUInt32)) c := by
  intro d
  have hfirst : reduceBits 64 d = reduceBits 64 c ^^^ (reduceBits 64 b0.toUInt32 ^^^
      reduceBits 56 b1.toUInt32 ^^^ reduceBits 48 b2.toUInt32 ^^^ reduceBits 40 b3.toUInt32) := by
    obtain ⟨h0, h1, h2, h3⟩ := bytes_of_word b0 b1 b2 b3
    rw [reduceBits_xor, reduceBits_word (UInt32.ofNat (ofLeBytes [b0, b1, b2, b3])), h0, h1, h2, h3]
  have hword := reduceBits_word d
  simp only [List.foldl_cons, List.foldl_nil, sliceEntry_eq, reduceBits_xor, ← reduceBits_add,
    Nat.reduceAdd, Nat.reduceMul]
  calc _ = (reduceBits 64 (d &&& (0xFF : UInt32)) ^^^
        reduceBits 56 ((d >>> 8) &&& (0xFF : UInt32)) ^^^
        reduceBits 48 ((d >>> 16) &&& (0xFF : UInt32)) ^^^ reduceBits 40 (d >>> 24)) ^^^
        (reduceBits 32 b4.toUInt32 ^^^ reduceBits 24 b5.toUInt32 ^^^ reduceBits 16 b6.toUInt32 ^^^
          reduceBits 8 b7.toUInt32) := by ac_rfl
    _ = _ := by
      rw [← hword, hfirst]
      ac_rfl

theorem sliceLoop_eq {fuel : Nat} {c : UInt32} {data : List Byte} (h : data.length ≤ fuel) :
    (sliceLoop fuel c data).2.foldl (fun c b => reduceBits 8 (c ^^^ b.toUInt32))
        (sliceLoop fuel c data).1 =
      data.foldl (fun c b => reduceBits 8 (c ^^^ b.toUInt32)) c := by
  induction fuel generalizing c data with
  | zero => rfl
  | succ fuel ih =>
    rw [sliceLoop]
    split_ifs with hshort
    · rfl
    · rcases data with _ | ⟨b0, _ | ⟨b1, _ | ⟨b2, _ | ⟨b3, _ | ⟨b4, _ | ⟨b5, _ | ⟨b6, _ |
        ⟨b7, rest⟩⟩⟩⟩⟩⟩⟩⟩
      iterate 8 exact absurd (by simp) hshort
      refine (ih (by simp only [List.length_drop, List.length_cons] at h ⊢; omega)).trans ?_
      exact congrArg (List.foldl _ · rest) (slice_eq c b0 b1 b2 b3 b4 b5 b6 b7)

theorem crc32cTail_eq (data : List Byte) :
    crc32cTail (~~~ c) data = ~~~ (data.foldl (fun c b => reduceBits 8 (c ^^^ b.toUInt32)) c) := by
  rw [crc32cTail, UInt32.not_not, tailLoop_eq]

/-- Eight tables, one table and single bits give one checksum. -/
theorem crc32c_eq_bitwise (data : List Byte) : crc32c data = crc32cBitwise data := by
  have hnot (c : UInt32) : c ^^^ 0xFFFFFFFF = ~~~ c :=
    UInt32.toBitVec_inj.mp BitVec.xor_allOnes
  rw [crc32cBitwise, hnot, crc32c]
  split_ifs with hlong
  · have hloop := sliceLoop_eq (c := ~~~ 0) (Nat.le_refl data.length)
    dsimp only
    split_ifs with hrest
    · rw [hrest] at hloop
      exact congrArg (~~~ ·) hloop
    · rw [crc32cTail_eq, hloop]
      rfl
  · exact crc32cTail_eq (~~~ 0) data

end Crc32c
end Stream
end FrpRs
