import Mathlib.Data.Nat.Notation

/-!
# Serial numbers

Sequence numbers and millisecond clocks are unsigned 32-bit values that wrap.
Two of them are compared through their distance from a common base, taken
modulo `2^32`.  This module develops that distance and the order it
induces on a window that starts at the base.
-/

namespace FrpRs
namespace Serial

open List

def offset (base sn : UInt32) : Nat :=
  (sn - base).toNat

theorem offset_lt (base sn : UInt32) : offset base sn < 4294967296 :=
  (sn - base).toNat_lt

theorem offset_eq (base sn : UInt32) :
    offset base sn =
      (4294967296 - base.toNat + sn.toNat) % 4294967296 := by
  unfold offset
  rw [UInt32.toNat_sub]

@[simp] theorem offset_self (base : UInt32) : offset base base = 0 := by
  have h := base.toNat_lt
  rw [offset_eq]
  omega

theorem offset_injective {base a b : UInt32}
    (h : offset base a = offset base b) : a = b := by
  have ha := a.toNat_lt
  have hb := b.toNat_lt
  rw [offset_eq, offset_eq] at h
  apply UInt32.toNat_inj.mp
  omega

/-!
## Moving the base

A base that moves forward to a point at or before a serial number shortens the
distance to that serial number by the distance moved.
-/

theorem offset_rebase {base next sn : UInt32}
    (h : offset base next ≤ offset base sn) :
    offset next sn = offset base sn - offset base next := by
  have hnext := next.toNat_lt
  rw [offset_eq, offset_eq] at h
  rw [offset_eq, offset_eq, offset_eq]
  omega

theorem offset_rebase_lt {base next sn : UInt32}
    (h : offset base sn < offset base next) :
    offset next sn = 4294967296 + offset base sn - offset base next := by
  have hnext := next.toNat_lt
  rw [offset_eq, offset_eq] at h
  rw [offset_eq, offset_eq, offset_eq]
  omega

theorem offset_trans {a b c : UInt32} (h : offset a b + offset b c < 4294967296) :
    offset a c = offset a b + offset b c := by
  have hb := b.toNat_lt
  rw [offset_eq, offset_eq] at h
  rw [offset_eq, offset_eq, offset_eq]
  omega

theorem offset_trans_wrap {a b c : UInt32} (h : 4294967296 ≤ offset a b + offset b c) :
    offset a c < offset a b := by
  have hb := b.toNat_lt
  rw [offset_eq, offset_eq] at h
  rw [offset_eq, offset_eq]
  omega

theorem offset_add (base sn d : UInt32) :
    offset base (sn + d) = (offset base sn + d.toNat) % 4294967296 := by
  rw [offset_eq, offset_eq, UInt32.toNat_add]
  omega

theorem offset_add_of_lt {base sn d : UInt32}
    (h : offset base sn + d.toNat < 4294967296) :
    offset base (sn + d) = offset base sn + d.toNat := by
  rw [offset_add, Nat.mod_eq_of_lt h]

theorem offset_succ_of_lt {base sn : UInt32}
    (h : offset base sn + 1 < 4294967296) :
    offset base (sn + 1) = offset base sn + 1 := by
  have hone : (1 : UInt32).toNat = 1 := rfl
  rw [offset_add_of_lt (by rw [hone]; exact h), hone]

variable {base : UInt32}

theorem offset_ofNat {n : Nat} (h : n < 4294967296) :
    offset base (base + UInt32.ofNat n) = n := by
  rw [offset_add, offset_self, Nat.zero_add, UInt32.toNat_ofNat', Nat.mod_mod,
    Nat.mod_eq_of_lt h]

theorem offset_of_succ {base sn : UInt32}
    (h : offset (base + 1) sn + 1 < 4294967296) :
    offset base sn = offset (base + 1) sn + 1 := by
  have hbase := base.toNat_lt
  have hone : (1 : UInt32).toNat = 1 := rfl
  rw [offset_eq, UInt32.toNat_add, hone] at h
  rw [offset_eq, offset_eq, UInt32.toNat_add, hone]
  omega

/-!
## Signed differences

The signed 32-bit difference of two serial numbers is read off their distance:
it is negative exactly when the distance reaches half of the number range.
-/

def signedDiff (later earlier : UInt32) : Int32 :=
  later.toInt32 - earlier.toInt32

theorem toInt_toInt32 (a : UInt32) :
    a.toInt32.toInt =
      if a.toNat < 2147483648 then (a.toNat : Int)
      else (a.toNat : Int) - 4294967296 := by
  show a.toBitVec.toInt = _
  rw [BitVec.toInt_eq_toNat_cond]
  have h : a.toBitVec.toNat = a.toNat := rfl
  rw [h]
  by_cases hlt : a.toNat < 2147483648
  · rw [if_pos hlt, if_pos (by omega)]
  · rw [if_neg hlt, if_neg (by omega)]
    rfl

theorem toInt_signedDiff (later earlier : UInt32) :
    (signedDiff later earlier).toInt =
      if offset earlier later < 2147483648 then (offset earlier later : Int)
      else (offset earlier later : Int) - 4294967296 := by
  have he := earlier.toNat_lt
  unfold signedDiff
  rw [Int32.toInt_sub, toInt_toInt32, toInt_toInt32, offset_eq,
    Int.bmod_def]
  split <;> split <;> split <;> split <;> omega

variable {later earlier : UInt32}

theorem signedDiff_lt_zero :
    signedDiff later earlier < 0 ↔
      2147483648 ≤ offset earlier later := by
  have h := offset_lt earlier later
  rw [Int32.lt_iff_toInt_lt, toInt_signedDiff, Int32.toInt_zero]
  split <;> omega

theorem signedDiff_nonneg :
    0 ≤ signedDiff later earlier ↔
      offset earlier later < 2147483648 := by
  have h := offset_lt earlier later
  rw [Int32.le_iff_toInt_le, toInt_signedDiff, Int32.toInt_zero]
  split <;> omega

theorem signedDiff_pos :
    0 < signedDiff later earlier ↔
      0 < offset earlier later ∧ offset earlier later < 2147483648 := by
  have h := offset_lt earlier later
  rw [Int32.lt_iff_toInt_lt, toInt_signedDiff, Int32.toInt_zero]
  split <;> omega

/-!
## Windows

A list of serial numbers lies in a window when its distances from the base
increase strictly and stay below the window's size.
-/

structure InWindow (base : UInt32) (size : Nat) (sns : List UInt32) : Prop where
  increasing : sns.Pairwise fun a b => offset base a < offset base b
  below : forall sn, sn ∈ sns -> offset base sn < size

theorem InWindow.nil (base : UInt32) (size : Nat) : InWindow base size [] :=
  ⟨List.Pairwise.nil, by simp⟩

theorem InWindow.sublist {size : Nat} {sns sub : List UInt32} (h : InWindow base size sns)
    (hsub : sub.Sublist sns) :
    InWindow base size sub :=
  ⟨h.increasing.sublist hsub, fun sn hsn => h.below sn (hsub.subset hsn)⟩

variable {sns : List UInt32}

theorem InWindow.mono {size bigger : Nat} (h : InWindow base size sns) (hle : size ≤ bigger) :
    InWindow base bigger sns :=
  ⟨h.increasing, fun sn hsn => Nat.lt_of_lt_of_le (h.below sn hsn) hle⟩

theorem InWindow.nodup {size : Nat} (h : InWindow base size sns) : sns.Nodup := by
  apply h.increasing.imp
  intro a b hab heq
  rw [heq] at hab
  exact Nat.lt_irrefl _ hab

theorem InWindow.rebase {base next : UInt32} {size : Nat} {sns : List UInt32}
    (h : InWindow base size sns)
    (hnext : forall sn, sn ∈ sns -> offset base next ≤ offset base sn) :
    InWindow next (size - offset base next) sns := by
  constructor
  · apply h.increasing.imp_of_mem
    intro a b ha hb hab
    have hna := hnext a ha
    have hnb := hnext b hb
    rw [offset_rebase hna, offset_rebase hnb]
    omega
  · intro sn hsn
    have hns := hnext sn hsn
    have hlt := h.below sn hsn
    rw [offset_rebase hns]
    omega

theorem InWindow.rebase_head {base head : UInt32} {size : Nat} {rest : List UInt32}
    (h : InWindow base size (head :: rest)) :
    InWindow head (size - offset base head) (head :: rest) := by
  apply h.rebase
  intro sn hsn
  rcases mem_cons.mp hsn with heq | hrest
  · exact Nat.le_of_eq (by rw [heq])
  · exact Nat.le_of_lt (rel_of_pairwise_cons h.increasing hrest)

theorem InWindow.snoc {base next : UInt32} (h : InWindow base (offset base next) sns) :
    InWindow base (offset base next + 1) (sns ++ [next]) := by
  constructor
  · rw [pairwise_append]
    refine ⟨h.increasing, pairwise_singleton _ _, ?_⟩
    intro a ha b hb
    rw [mem_singleton.mp hb]
    exact h.below a ha
  · intro sn hsn
    rcases mem_append.mp hsn with hold | hnew
    · exact Nat.lt_succ_of_lt (h.below sn hold)
    · rw [mem_singleton.mp hnew]
      exact Nat.lt_succ_self _

theorem signedDiff_pos_of_window {base a b : UInt32}
    (ha : offset base a < 2147483648) (hb : offset base b < 2147483648) :
    0 < signedDiff a b ↔ offset base b < offset base a := by
  rw [signedDiff_pos]
  rcases Nat.lt_or_ge (offset base a) (offset base b) with hlt | hge
  · rw [offset_rebase_lt hlt]
    omega
  · rw [offset_rebase hge]
    omega

theorem add_offset (base sn : UInt32) : base + UInt32.ofNat (offset base sn) = sn := by
  apply @offset_injective base
  exact offset_ofNat (offset_lt base sn)

theorem toNat_eq_add_offset {base sn : UInt32}
    (h : base.toNat + offset base sn < 4294967296) :
    sn.toNat = base.toNat + offset base sn := by
  have hadd := congrArg UInt32.toNat (add_offset base sn)
  rw [UInt32.toNat_add, UInt32.toNat_ofNat'] at hadd
  omega

/-!
## Consecutive numbers
-/

def Consecutive : UInt32 -> List UInt32 -> Prop
  | _, [] => True
  | nxt, sn :: rest => sn = nxt ∧ Consecutive (nxt + 1) rest

theorem Consecutive.offset_lt {nxt : UInt32} (h : Consecutive nxt sns)
    (hlen : sns.length < 4294967296) :
    forall sn, sn ∈ sns -> offset nxt sn < sns.length := by
  induction sns generalizing nxt with
  | nil =>
    intro sn hsn
    cases hsn
  | cons head rest ih =>
    intro sn hsn
    rw [length_cons] at hlen ⊢
    rcases mem_cons.mp hsn with heq | htail
    · rw [heq, h.1, offset_self]
      omega
    · have hrest := ih h.2 (by omega) sn htail
      rw [offset_of_succ (by omega)]
      omega

end Serial
end FrpRs
