import Mathlib.Algebra.Field.Defs
import Mathlib.Algebra.Field.Basic
import Mathlib.Tactic.Ring

/-!
# Arithmetic in GF(2^8)

`gf256::mul`, `pow` and `inv` of `frp-core/src/kcp_compat.rs` over the polynomial
`x^8 + x^4 + x^3 + x^2 + 1`, and the field they form.  Multiplication is additive in
each argument, so its laws only have to be checked on the eight powers of `x`.
-/

namespace FrpRs
namespace Gf256

def double (a : UInt8) : UInt8 :=
  if a &&& 0x80 ≠ 0 then (a <<< 1) ^^^ 0x1D else a <<< 1

def mulLoop : Nat -> UInt8 -> UInt8 -> UInt8 -> UInt8
  | 0, _, _, result => result
  | n + 1, a, b, result =>
    mulLoop n (double a) (b >>> 1) (if b &&& 1 ≠ 0 then result ^^^ a else result)

def mul (a b : UInt8) : UInt8 :=
  mulLoop 8 a b 0

def powLoop : Nat -> UInt8 -> UInt32 -> UInt8 -> UInt8
  | 0, _, _, result => result
  | n + 1, base, exp, result =>
    if exp > 0 then
      powLoop n (mul base base) (exp >>> 1)
        (if exp &&& 1 ≠ 0 then mul result base else result)
    else result

def pow (base : UInt8) (exp : UInt32) : UInt8 :=
  powLoop 32 base exp 1

def inv (a : UInt8) : UInt8 :=
  if a = 0 then 0 else pow a 254

/-!
## Additivity
-/

theorem xor_and (a b c : UInt8) : (a ^^^ b) &&& c = (a &&& c) ^^^ (b &&& c) := by
  apply UInt8.toBitVec_inj.mp
  apply BitVec.eq_of_getLsbD_eq
  intro i _
  simp [Bool.and_xor_distrib_right]

theorem xor_xor_comm (a b c d : UInt8) : (a ^^^ b) ^^^ (c ^^^ d) = (a ^^^ c) ^^^ (b ^^^ d) := by
  rw [UInt8.xor_assoc, ← UInt8.xor_assoc b, UInt8.xor_comm b c, UInt8.xor_assoc,
    UInt8.xor_assoc]

theorem and_bit_cases (i : Fin 8) (a : UInt8) :
    a &&& (1 <<< UInt8.ofNat i) = 0 ∨
      a &&& (1 <<< UInt8.ofNat i) = 1 <<< UInt8.ofNat i := by
  have hall : forall i : Fin 8, forall b : BitVec 8,
      UInt8.ofBitVec b &&& (1 <<< UInt8.ofNat i) = 0 ∨
        UInt8.ofBitVec b &&& (1 <<< UInt8.ofNat i) = 1 <<< UInt8.ofNat i := by
    decide +kernel
  exact hall i a.toBitVec

def select (bit v : UInt8) : UInt8 :=
  if bit ≠ 0 then v else 0

theorem select_xor_bit (i : Fin 8) (a b v : UInt8) :
    select ((a ^^^ b) &&& (1 <<< UInt8.ofNat i)) v =
      select (a &&& (1 <<< UInt8.ofNat i)) v ^^^ select (b &&& (1 <<< UInt8.ofNat i)) v := by
  have hbit : forall i : Fin 8, (1 : UInt8) <<< UInt8.ofNat i ≠ 0 := by
    decide
  rw [xor_and]
  unfold select
  rcases and_bit_cases i a with ha | ha <;> rcases and_bit_cases i b with hb | hb <;>
    simp [ha, hb, hbit i]

theorem select_xor (bit v w : UInt8) : select bit (v ^^^ w) = select bit v ^^^ select bit w := by
  unfold select
  split <;> simp

variable (a : UInt8)

theorem double_eq : double a = (a <<< 1) ^^^ select (a &&& 0x80) 0x1D := by
  unfold double select
  split <;> simp

theorem double_xor (a b : UInt8) : double (a ^^^ b) = double a ^^^ double b := by
  rw [double_eq, double_eq, double_eq, UInt8.shiftLeft_xor, xor_xor_comm]
  congr 1
  exact select_xor_bit 7 a b 0x1D

variable (n : Nat)

theorem mulLoop_succ (a b result : UInt8) :
    mulLoop (n + 1) a b result =
      mulLoop n (double a) (b >>> 1) (result ^^^ select (b &&& 1) a) := by
  unfold select
  show mulLoop n (double a) (b >>> 1) _ = _
  split <;> simp

theorem mulLoop_xor_left (a a' b r r' : UInt8) :
    mulLoop n (a ^^^ a') b (r ^^^ r') = mulLoop n a b r ^^^ mulLoop n a' b r' := by
  induction n generalizing a a' b r r' with
  | zero =>
    rfl
  | succ n ih =>
    rw [mulLoop_succ, mulLoop_succ, mulLoop_succ, double_xor, select_xor, xor_xor_comm, ih]

theorem mulLoop_xor_right (a b b' r r' : UInt8) :
    mulLoop n a (b ^^^ b') (r ^^^ r') = mulLoop n a b r ^^^ mulLoop n a b' r' := by
  induction n generalizing a b b' r r' with
  | zero =>
    rfl
  | succ n ih =>
    have hselect : select ((b ^^^ b') &&& 1) a = select (b &&& 1) a ^^^ select (b' &&& 1) a :=
      select_xor_bit 0 b b' a
    rw [mulLoop_succ, mulLoop_succ, mulLoop_succ, UInt8.shiftRight_xor, hselect,
      xor_xor_comm, ih]

theorem mul_xor_left (a a' b : UInt8) : mul (a ^^^ a') b = mul a b ^^^ mul a' b := by
  have h := mulLoop_xor_left 8 a a' b 0 0
  rwa [UInt8.xor_self] at h

theorem mul_xor_right (a b b' : UInt8) : mul a (b ^^^ b') = mul a b ^^^ mul a b' := by
  have h := mulLoop_xor_right 8 a b b' 0 0
  rwa [UInt8.xor_self] at h

/-!
## Laws checked on the powers of `x`
-/

theorem xor_bits :
    a = (a &&& 1) ^^^ (a &&& 2) ^^^ (a &&& 4) ^^^ (a &&& 8) ^^^ (a &&& 16) ^^^
      (a &&& 32) ^^^ (a &&& 64) ^^^ (a &&& 128) := by
  have hall : forall b : BitVec 8, UInt8.ofBitVec b =
      (UInt8.ofBitVec b &&& 1) ^^^ (UInt8.ofBitVec b &&& 2) ^^^ (UInt8.ofBitVec b &&& 4) ^^^
        (UInt8.ofBitVec b &&& 8) ^^^ (UInt8.ofBitVec b &&& 16) ^^^
        (UInt8.ofBitVec b &&& 32) ^^^ (UInt8.ofBitVec b &&& 64) ^^^
        (UInt8.ofBitVec b &&& 128) := by
    decide +kernel
  exact hall a.toBitVec

theorem byte_induction {P : UInt8 -> Prop} (zero : P 0)
    (basis : forall i : Fin 8, P (1 <<< UInt8.ofNat i))
    (add : forall a b, P a -> P b -> P (a ^^^ b)) (a : UInt8) : P a := by
  have hbit : forall i : Fin 8, P (a &&& (1 <<< UInt8.ofNat i)) := by
    intro i
    rcases and_bit_cases i a with h | h
    · rw [h]
      exact zero
    · rw [h]
      exact basis i
  rw [xor_bits a]
  exact add _ _ (add _ _ (add _ _ (add _ _ (add _ _ (add _ _ (add _ _ (hbit 0) (hbit 1))
    (hbit 2)) (hbit 3)) (hbit 4)) (hbit 5)) (hbit 6)) (hbit 7)

theorem mulLoop_zero_left (b r : UInt8) : mulLoop n 0 b r = r := by
  induction n generalizing b with
  | zero =>
    rfl
  | succ n ih =>
    have hdouble : double 0 = 0 := rfl
    have hselect : select (b &&& 1) 0 = 0 := by
      unfold select
      split <;> rfl
    rw [mulLoop_succ, hdouble, hselect, UInt8.xor_zero, ih]

theorem zero_mul' : mul 0 a = 0 :=
  mulLoop_zero_left 8 a 0

theorem mul_zero' : mul a 0 = 0 := by
  have h := mul_xor_right a 0 0
  rw [UInt8.xor_self, UInt8.xor_self] at h
  exact h

theorem mul_comm' (a b : UInt8) : mul a b = mul b a := by
  refine byte_induction (P := fun a => mul a b = mul b a) ?_ ?_ ?_ a
  · rw [zero_mul', mul_zero']
  · intro i
    refine byte_induction (P := fun b => mul (1 <<< UInt8.ofNat i) b =
      mul b (1 <<< UInt8.ofNat i)) ?_ ?_ ?_ b
    · rw [zero_mul', mul_zero']
    · revert i
      decide +kernel
    · intro c d hc hd
      rw [mul_xor_right, mul_xor_left, hc, hd]
  · intro c d hc hd
    rw [mul_xor_left, mul_xor_right, hc, hd]

theorem mul_assoc' (a b c : UInt8) : mul (mul a b) c = mul a (mul b c) := by
  refine byte_induction (P := fun a => mul (mul a b) c = mul a (mul b c)) ?_ ?_ ?_ a
  · rw [zero_mul', zero_mul', zero_mul']
  · intro i
    refine byte_induction (P := fun b => mul (mul (1 <<< UInt8.ofNat i) b) c =
      mul (1 <<< UInt8.ofNat i) (mul b c)) ?_ ?_ ?_ b
    · rw [mul_zero', zero_mul', mul_zero']
    · intro j
      refine byte_induction (P := fun c => mul (mul (1 <<< UInt8.ofNat i)
        (1 <<< UInt8.ofNat j)) c = mul (1 <<< UInt8.ofNat i)
          (mul (1 <<< UInt8.ofNat j) c)) ?_ ?_ ?_ c
      · rw [mul_zero', mul_zero', mul_zero']
      · revert i j
        decide +kernel
      · intro d e hd he
        rw [mul_xor_right, mul_xor_right, mul_xor_right, hd, he]
    · intro d e hd he
      rw [mul_xor_right, mul_xor_left, mul_xor_left, mul_xor_right, hd, he]
  · intro d e hd he
    rw [mul_xor_left, mul_xor_left, mul_xor_left, hd, he]

theorem one_mul' : mul 1 a = a := by
  refine byte_induction (P := fun a => mul 1 a = a) (mul_zero' 1) ?_ ?_ a
  · decide +kernel
  · intro b c hb hc
    rw [mul_xor_right, hb, hc]

end Gf256

/-!
## The field
-/

def Gf256 : Type := UInt8

namespace Gf256

def ofByte (b : UInt8) : Gf256 := b

instance : DecidableEq Gf256 := inferInstanceAs (DecidableEq UInt8)

instance : Zero Gf256 := ⟨(0 : UInt8)⟩
instance : One Gf256 := ⟨(1 : UInt8)⟩
instance : Add Gf256 := ⟨fun a b => UInt8.xor a b⟩
instance : Neg Gf256 := ⟨fun a => a⟩
instance : Sub Gf256 := ⟨fun a b => UInt8.xor a b⟩
instance : Mul Gf256 := ⟨mul⟩
instance : Inv Gf256 := ⟨inv⟩

instance : CommRing Gf256 where
  add_assoc a b c := UInt8.xor_assoc a b c
  zero_add a := UInt8.zero_xor (a := a)
  add_zero a := UInt8.xor_zero (a := a)
  add_comm a b := UInt8.xor_comm a b
  neg_add_cancel a := UInt8.xor_self (a := a)
  sub_eq_add_neg _ _ := rfl
  mul_assoc := mul_assoc'
  one_mul := one_mul'
  mul_one a := (mul_comm' a 1).trans (one_mul' a)
  mul_comm := mul_comm'
  left_distrib := mul_xor_right
  right_distrib := mul_xor_left
  zero_mul := zero_mul'
  mul_zero := mul_zero'
  nsmul := nsmulRec
  zsmul := zsmulRec

theorem add_self (a : Gf256) : a + a = 0 :=
  UInt8.xor_self (a := a)

theorem and_one_ne_zero (exp : UInt32) : exp &&& 1 ≠ 0 ↔ exp.toNat % 2 = 1 := by
  have hone : (1 : UInt32).toNat = 1 := rfl
  rw [ne_eq, ← UInt32.toNat_inj, UInt32.toNat_and, hone, Nat.and_one_is_mod,
    UInt32.toNat_zero]
  omega

/-- The squaring loop computes powers as long as it has a round for each bit. -/
theorem powLoop_eq (n : Nat) (base result : Gf256) (exp : UInt32) (h : exp.toNat < 2 ^ n) :
    ofByte (powLoop n base exp result) = result * base ^ exp.toNat := by
  induction n generalizing base result exp with
  | zero =>
    have hzero : exp.toNat = 0 := by
      simpa using h
    rw [hzero, pow_zero, mul_one]
    rfl
  | succ n ih =>
    by_cases hpos : exp > 0
    · have hhalf : (exp >>> 1).toNat = exp.toNat / 2 := by
        rw [UInt32.toNat_shiftRight]
        simp [Nat.shiftRight_one]
      have hlt : (exp >>> 1).toNat < 2 ^ n := by
        rw [hhalf, Nat.div_lt_iff_lt_mul (by decide)]
        rwa [pow_succ] at h
      have hstep : ofByte (powLoop (n + 1) base exp result) =
          ofByte (powLoop n (base * base : Gf256) (exp >>> 1)
            (if exp &&& 1 ≠ 0 then result * base else result : Gf256)) :=
        congrArg ofByte (if_pos hpos)
      have hsquare : (base * base) ^ (exp.toNat / 2) = base ^ (2 * (exp.toNat / 2)) := by
        rw [← pow_two, ← pow_mul]
      rw [hstep, ih _ _ _ hlt, hhalf, hsquare]
      by_cases hodd : exp.toNat % 2 = 1
      · have hexp : exp.toNat = 2 * (exp.toNat / 2) + 1 := by
          omega
        rw [if_pos ((and_one_ne_zero exp).mpr hodd)]
        conv_rhs => rw [hexp, pow_succ]
        ring
      · have hexp : exp.toNat = 2 * (exp.toNat / 2) := by
          omega
        rw [if_neg (fun hne => hodd ((and_one_ne_zero exp).mp hne)), ← hexp]
    · have hzero : exp.toNat = 0 := by
        have hexp : ¬ (0 : UInt32) < exp := hpos
        rw [UInt32.lt_iff_toNat_lt, UInt32.toNat_zero] at hexp
        omega
      have hstop : ofByte (powLoop (n + 1) base exp result) = result :=
        congrArg ofByte (if_neg hpos)
      rw [hstop, hzero, pow_zero, mul_one]

theorem pow_eq (base : Gf256) (exp : UInt32) : ofByte (pow base exp) = base ^ exp.toNat := by
  have h := powLoop_eq 32 base 1 exp exp.toNat_lt
  rw [one_mul] at h
  exact h

theorem pow_256_add (a b : Gf256) : (a + b) ^ 256 = a ^ 256 + b ^ 256 := by
  have hsquare : forall a b : Gf256, (a + b) ^ 2 = a ^ 2 + b ^ 2 := by
    intro a b
    have hcross : (a + b) ^ 2 = a ^ 2 + b ^ 2 + (a * b + a * b) := by ring
    rw [hcross, add_self, add_zero]
  have hsplit : forall a : Gf256, a ^ 256 = (((((((a ^ 2) ^ 2) ^ 2) ^ 2) ^ 2) ^ 2) ^ 2) ^ 2 := by
    intro a
    ring
  simp only [hsplit, hsquare]

theorem pow_256 (a : Gf256) : a ^ 256 = a := by
  have hexp : (256 : UInt32).toNat = 256 := rfl
  refine byte_induction (P := fun b => ofByte b ^ 256 = ofByte b) ?_ ?_ ?_ a
  · exact zero_pow (by decide)
  · have hall : forall i : Fin 8,
        pow (1 <<< UInt8.ofNat i) 256 = 1 <<< UInt8.ofNat i := by
      decide +kernel
    intro i
    rw [← hexp, ← pow_eq]
    exact congrArg ofByte (hall i)
  · intro b c hb hc
    have hadd := pow_256_add (ofByte b) (ofByte c)
    rw [hb, hc] at hadd
    exact hadd

theorem idempotent_cases (a : Gf256) (h : a * a = a) : a = 0 ∨ a = 1 := by
  have hall : forall b : BitVec 8, mul (UInt8.ofBitVec b) (UInt8.ofBitVec b) =
      UInt8.ofBitVec b -> UInt8.ofBitVec b = 0 ∨ UInt8.ofBitVec b = 1 := by
    decide +kernel
  exact hall (UInt8.toBitVec a) h

theorem pow_255 {a : Gf256} (h : a ≠ 0) : a ^ 255 = 1 := by
  have hstep : a ^ 255 * a = a := by
    rw [← pow_succ, pow_256]
  have hidem : a ^ 255 * a ^ 255 = a ^ 255 := by
    calc a ^ 255 * a ^ 255 = (a ^ 255 * a) * a ^ 254 := by ring
      _ = a ^ 255 := by rw [hstep]; ring
  rcases idempotent_cases _ hidem with hzero | hone
  · rw [hzero, zero_mul] at hstep
    exact absurd hstep.symm h
  · exact hone

theorem mul_inv' {a : Gf256} (h : a ≠ 0) : a * a⁻¹ = 1 := by
  have hinv : a⁻¹ = a ^ 254 := (congrArg ofByte (if_neg h)).trans (pow_eq a 254)
  rw [hinv, ← pow_succ', pow_255 h]

instance : Field Gf256 where
  exists_pair_ne := ⟨0, 1, by decide⟩
  mul_inv_cancel _ h := mul_inv' h
  inv_zero := rfl
  nnqsmul := _
  nnqsmul_def := fun _ _ => rfl
  qsmul := _
  qsmul_def := fun _ _ => rfl

def ofNat (n : Nat) : Gf256 := UInt8.ofNat n

theorem ofNat_injective {m n : Nat} (hm : m < 256) (hn : n < 256)
    (h : ofNat m = ofNat n) : m = n := by
  have hnat := congrArg UInt8.toNat h
  change (UInt8.ofNat m).toNat = (UInt8.ofNat n).toNat at hnat
  rw [UInt8.toNat_ofNat', UInt8.toNat_ofNat'] at hnat
  omega

end Gf256
end FrpRs
