import Mathlib.LinearAlgebra.Matrix.NonsingularInverse
import Mathlib.LinearAlgebra.Matrix.Nondegenerate
import Mathlib.LinearAlgebra.Vandermonde

/-!
# Systematic Vandermonde codes

The rows of a tall Vandermonde matrix times an inverse of its top square.  The top
rows become the identity, and any choice of as many rows as there are columns still
has a trivial kernel, as long as the nodes differ.
-/

namespace FrpRs
namespace Vandermonde

variable {K : Type} [Field K]

theorem sum_delta_mul {d a : Nat} (ha : a < d) {c : Nat -> K}
    (hc : forall k, k < d -> c k = if a = k then 1 else 0) (w : Nat -> K) :
    ∑ k ∈ Finset.range d, c k * w k = w a := by
  rw [Finset.sum_congr rfl fun k hk => by
    rw [hc k (Finset.mem_range.mp hk), ite_mul, one_mul, zero_mul]]
  rw [Finset.sum_ite_eq, if_pos (Finset.mem_range.mpr ha)]

/-- The first `d` rows are told apart by their nodes. -/
def DistinctBelow (d : Nat) (node : Nat -> K) : Prop :=
  forall i j, i < d -> j < d -> node i = node j -> i = j

variable {node : Nat -> K}

variable {d : Nat}

theorem vandermonde_kernel (hnode : DistinctBelow d node) {y : Nat -> K}
    (h : forall i, i < d -> ∑ j ∈ Finset.range d, node i ^ j * y j = 0) :
    forall j, j < d -> y j = 0 := by
  have hinj : Function.Injective fun i : Fin d => node i := by
    intro i j hij
    exact Fin.ext (hnode i j i.isLt j.isLt hij)
  have hdet := Matrix.det_vandermonde_ne_zero_iff.mpr hinj
  have hzero : (fun j : Fin d => y j) = 0 := by
    apply Matrix.eq_zero_of_mulVec_eq_zero hdet
    funext i
    have hrow := h i i.isLt
    rw [Finset.sum_range] at hrow
    exact hrow
  intro j hj
  exact congrFun hzero ⟨j, hj⟩

/-- Row `i`, column `k` of the Vandermonde matrix times `r`. -/
def systematic (d : Nat) (node : Nat -> K) (r : Nat -> Nat -> K) (i k : Nat) : K :=
  ∑ j ∈ Finset.range d, node i ^ j * r j k

/-- `r` times the top square of the Vandermonde matrix is the identity. -/
def InvertsTop (d : Nat) (node : Nat -> K) (r : Nat -> Nat -> K) : Prop :=
  forall a b, a < d -> b < d ->
    ∑ i ∈ Finset.range d, r a i * node i ^ b = if a = b then 1 else 0

variable {r : Nat -> Nat -> K}

theorem systematic_top (hr : InvertsTop d node r) {i k : Nat} (hi : i < d) (hk : k < d) :
    systematic d node r i k = if i = k then 1 else 0 := by
  let R : Matrix (Fin d) (Fin d) K := fun a b => r a b
  let V : Matrix (Fin d) (Fin d) K := fun a b => node a ^ (b : Nat)
  have hleft : R * V = 1 := by
    ext a b
    have hab := hr a b a.isLt b.isLt
    rw [Finset.sum_range] at hab
    rw [Matrix.mul_apply, Matrix.one_apply]
    simpa [R, V, Fin.ext_iff] using hab
  have hright : V * R = 1 := mul_eq_one_comm.mp hleft
  have hentry := congrFun (congrFun hright ⟨i, hi⟩) ⟨k, hk⟩
  rw [Matrix.mul_apply, Matrix.one_apply] at hentry
  rw [systematic, Finset.sum_range]
  simpa [R, V, Fin.ext_iff] using hentry

theorem systematic_kernel (hr : InvertsTop d node r)
    {selected : Nat -> Nat} (hnode : DistinctBelow d fun i => node (selected i)) {x : Nat -> K}
    (h : forall i, i < d ->
      ∑ k ∈ Finset.range d, systematic d node r (selected i) k * x k = 0) :
    forall k, k < d -> x k = 0 := by
  have hinner : forall i, ∑ k ∈ Finset.range d, systematic d node r i k * x k =
      ∑ j ∈ Finset.range d, node i ^ j * ∑ k ∈ Finset.range d, r j k * x k := by
    intro i
    simp only [systematic, Finset.sum_mul, Finset.mul_sum, mul_assoc]
    exact Finset.sum_comm
  have hy : forall j, j < d -> ∑ k ∈ Finset.range d, r j k * x k = 0 := by
    apply vandermonde_kernel hnode
    intro i hi
    rw [← hinner, h i hi]
  intro k hk
  have htop : ∑ j ∈ Finset.range d, systematic d node r k j * x j = x k :=
    sum_delta_mul hk (fun _ hj => systematic_top hr hk hj) x
  rw [← htop, hinner]
  apply Finset.sum_eq_zero
  intro j hj
  rw [hy j (Finset.mem_range.mp hj), mul_zero]

/-- The code word whose row `i` combines the data `w` with row `i` of the matrix. -/
def codeword (d : Nat) (node : Nat -> K) (r : Nat -> Nat -> K) (w : Nat -> K) (i : Nat) : K :=
  ∑ k ∈ Finset.range d, systematic d node r i k * w k

theorem codeword_top (hr : InvertsTop d node r) (w : Nat -> K) {i : Nat} (hi : i < d) :
    codeword d node r w i = w i :=
  sum_delta_mul hi (fun _ hj => systematic_top hr hi hj) w

theorem codeword_recover {r inv : Nat -> Nat -> K} {selected : Nat -> Nat} (w : Nat -> K)
    (hinv : forall a b, a < d -> b < d ->
      ∑ i ∈ Finset.range d, inv a i * systematic d node r (selected i) b =
        if a = b then 1 else 0) {a : Nat} (ha : a < d) :
    ∑ i ∈ Finset.range d, inv a i * codeword d node r w (selected i) = w a := by
  have hswap : ∑ i ∈ Finset.range d, inv a i * codeword d node r w (selected i) =
      ∑ k ∈ Finset.range d,
        (∑ i ∈ Finset.range d, inv a i * systematic d node r (selected i) k) * w k := by
    simp only [codeword, Finset.mul_sum, Finset.sum_mul, mul_assoc]
    exact Finset.sum_comm
  rw [hswap]
  exact sum_delta_mul ha (fun k hk => hinv a k ha hk) w

end Vandermonde
end FrpRs
