import Mathlib.Algebra.BigOperators.Fin
import Mathlib.Algebra.Module.Pi
import Mathlib.LinearAlgebra.Span.Basic

/-!
# Gauss-Jordan inversion

A square matrix, given as a list of rows over a field, is inverted by reducing the
matrix next to the identity column by column.  Row operations keep the span of the
rows.  From that alone follow both that the right half ends up as a left inverse
and that a pivot is always found when the matrix has a trivial kernel.
-/

namespace FrpRs
namespace GaussJordan

open List

variable {K : Type} [Field K] [DecidableEq K]

/-!
## The algorithm
-/

def entry (m : List (List K)) (i j : Nat) : K :=
  (m.getD i []).getD j 0

def augmentRow (n i : Nat) (row : List K) : List K :=
  (range n).map (fun j => row.getD j 0) ++
    (range n).map fun j => if j = i then 1 else 0

def augment (m : List (List K)) : List (List K) :=
  m.mapIdx fun i row => augmentRow m.length i row

def findPivot (n col : Nat) (aug : List (List K)) : Option Nat :=
  (range' col (n - col)).find? fun r => entry aug r col ≠ 0

def swapRows (aug : List (List K)) (i j : Nat) : List (List K) :=
  (aug.set i (aug.getD j [])).set j (aug.getD i [])

def scaleRow (c : K) (row : List K) : List K :=
  row.map (· * c)

def scalePivot (col : Nat) (aug : List (List K)) : List (List K) :=
  aug.set col (scaleRow (entry aug col col)⁻¹ (aug.getD col []))

def eliminateRow (factor : K) (pivot row : List K) : List K :=
  zipWith (fun cell p => cell - factor * p) row pivot

def clearColumn (col : Nat) (aug : List (List K)) : List (List K) :=
  aug.mapIdx fun r row =>
    if r = col then row
    else if row.getD col 0 = 0 then row
    else eliminateRow (row.getD col 0) (aug.getD col []) row

def columnStep (col p : Nat) (aug : List (List K)) : List (List K) :=
  clearColumn col (scalePivot col (swapRows aug col p))

def reduceColumn (n col : Nat) (aug : List (List K)) : Option (List (List K)) :=
  (findPivot n col aug).map fun p => columnStep col p aug

/-- Reduce the first `k` columns, from left to right. -/
def reduceColumns (n : Nat) : Nat -> List (List K) -> Option (List (List K))
  | 0, aug => some aug
  | k + 1, aug => (reduceColumns n k aug).bind (reduceColumn n k)

def invertMatrix (m : List (List K)) : Option (List (List K)) :=
  if m.length = 0 then some []
  else (reduceColumns m.length m.length (augment m)).map fun aug =>
    aug.map fun row => (row.drop m.length).take m.length

/-!
## Rows as vectors
-/

def rowVec (row : List K) : Nat -> K :=
  fun j => row.getD j 0

/-- Row `i` of a matrix as a vector. -/
def vec (m : List (List K)) (i : Nat) : Nat -> K :=
  rowVec (m.getD i [])

omit [DecidableEq K] in
theorem entry_eq_vec (m : List (List K)) (i j : Nat) : entry m i j = vec m i j := rfl

def rowSpan (m : List (List K)) : Submodule K (Nat -> K) :=
  Submodule.span K {v | exists i, i < m.length ∧ vec m i = v}

variable {m : List (List K)} {i : Nat}

omit [DecidableEq K] in
theorem vec_mem_rowSpan (h : i < m.length) :
    vec m i ∈ rowSpan m :=
  Submodule.subset_span ⟨i, h, rfl⟩

omit [DecidableEq K] in
theorem rowSpan_le {W : Submodule K (Nat -> K)} (h : forall i, i < m.length -> vec m i ∈ W) :
    rowSpan m ≤ W := by
  rw [rowSpan, Submodule.span_le]
  rintro v ⟨i, hi, rfl⟩
  exact h i hi

omit [DecidableEq K] in
theorem rowVec_scaleRow (c : K) (row : List K) : rowVec (scaleRow c row) = c • rowVec row := by
  funext j
  simp only [rowVec, scaleRow, Pi.smul_apply, smul_eq_mul, getD_eq_getElem?_getD,
    getElem?_map]
  cases row[j]? with
  | none => simp
  | some a => simp [mul_comm]

omit [DecidableEq K] in
theorem rowVec_eliminateRow (factor : K) {pivot row : List K}
    (h : row.length = pivot.length) :
    rowVec (eliminateRow factor pivot row) = rowVec row - factor • rowVec pivot := by
  funext j
  simp only [rowVec, eliminateRow, Pi.sub_apply, Pi.smul_apply, smul_eq_mul,
    getD_eq_getElem?_getD, getElem?_zipWith]
  by_cases hj : j < row.length
  · rw [getElem?_eq_getElem hj, getElem?_eq_getElem (h ▸ hj)]
    rfl
  · rw [getElem?_eq_none (by omega), getElem?_eq_none (by omega)]
    simp

omit [Field K] [DecidableEq K] in
theorem getD_mem (h : i < m.length) : m.getD i [] ∈ m := by
  rw [getD_eq_getElem?_getD, getElem?_eq_getElem h, Option.getD_some]
  exact getElem_mem h

/-!
## Row operations
-/

/-- `n` rows of width `w`. -/
structure Shaped (n w : Nat) (m : List (List K)) : Prop where
  rows : m.length = n
  widths : forall row, row ∈ m -> row.length = w

variable {n w : Nat}

omit [Field K] [DecidableEq K] in
theorem Shaped.width (h : Shaped n w m) (hi : i < n) :
    (m.getD i []).length = w :=
  h.widths _ (getD_mem (by rw [h.rows]; exact hi))

omit [Field K] [DecidableEq K] in
theorem Shaped.set (h : Shaped n w m) (i : Nat) {row : List K} (hrow : row.length = w) :
    Shaped n w (m.set i row) where
  rows := by
    rw [length_set, h.rows]
  widths := by
    intro r hr
    rcases mem_or_eq_of_mem_set hr with hr | rfl
    · exact h.widths r hr
    · exact hrow

omit [Field K] [DecidableEq K] in
theorem getD_set (hi : i < m.length) (row : List K) (r : Nat) :
    (m.set i row).getD r [] = if r = i then row else m.getD r [] := by
  rw [getD_eq_getElem?_getD, getElem?_set, getD_eq_getElem?_getD]
  by_cases hr : r = i
  · subst hr
    simp [hi]
  · rw [if_neg (Ne.symm hr), if_neg hr]

omit [DecidableEq K] in
theorem vec_swapRows {i j : Nat} (hi : i < m.length) (hj : j < m.length) (r : Nat) :
    vec (swapRows m i j) r = vec m (Equiv.swap i j r) := by
  unfold vec swapRows
  rw [getD_set (by rw [length_set]; exact hj), getD_set hi, Equiv.swap_apply_def]
  by_cases hri : r = i
  · by_cases hrj : r = j
    · rw [if_pos hrj, if_pos hri, ← hri, ← hrj]
    · rw [if_neg hrj, if_pos hri, if_pos hri]
  · by_cases hrj : r = j
    · rw [if_pos hrj, if_neg hri, if_pos hrj]
    · rw [if_neg hrj, if_neg hri, if_neg hri, if_neg hrj]

omit [Field K] [DecidableEq K] in
theorem Shaped.swapRows (h : Shaped n w m) {i j : Nat} (hi : i < n) (hj : j < n) :
    Shaped n w (swapRows m i j) :=
  (h.set i (h.width hj)).set j (h.width hi)

omit [DecidableEq K] in
theorem vec_scalePivot {col : Nat} (hcol : col < m.length) (r : Nat) :
    vec (scalePivot col m) r =
      if r = col then (entry m col col)⁻¹ • vec m col else vec m r := by
  unfold vec scalePivot
  rw [getD_set hcol]
  split
  · exact rowVec_scaleRow _ _
  · rfl

omit [DecidableEq K] in
theorem Shaped.scalePivot (h : Shaped n w m) {col : Nat} (hcol : col < n) :
    Shaped n w (scalePivot col m) :=
  h.set col (by rw [scaleRow, length_map]; exact h.width hcol)

theorem vec_clearColumn (h : Shaped n w m) {col r : Nat} (hcol : col < n) (hr : r < n) :
    vec (clearColumn col m) r =
      if r = col then vec m r else vec m r - entry m r col • vec m col := by
  have hlen : r < m.length := by
    rw [h.rows]
    exact hr
  have hrow : (clearColumn col m).getD r [] =
      if r = col then m.getD r []
      else if entry m r col = 0 then m.getD r []
      else eliminateRow (entry m r col) (m.getD col []) (m.getD r []) := by
    simp only [clearColumn, entry, getD_eq_getElem?_getD, getElem?_mapIdx,
      getElem?_eq_getElem hlen, Option.map_some, Option.getD_some]
  unfold vec
  rw [hrow]
  by_cases hrc : r = col
  · rw [if_pos hrc, if_pos hrc]
  · rw [if_neg hrc, if_neg hrc]
    by_cases hz : entry m r col = 0
    · rw [if_pos hz, hz, zero_smul, sub_zero]
    · rw [if_neg hz]
      exact rowVec_eliminateRow _ ((h.width hr).trans (h.width hcol).symm)

theorem Shaped.clearColumn (h : Shaped n w m) {col : Nat} (hcol : col < n) :
    Shaped n w (clearColumn col m) where
  rows := by
    rw [GaussJordan.clearColumn, length_mapIdx, h.rows]
  widths := by
    intro row hrow
    obtain ⟨i, hi, rfl⟩ := mem_mapIdx.mp hrow
    have hwidth := h.widths _ (getElem_mem hi)
    split
    · exact hwidth
    · split
      · exact hwidth
      · rw [eliminateRow, length_zipWith, hwidth, h.width hcol, Nat.min_self]

/-!
## One column
-/

theorem Shaped.columnStep (h : Shaped n w m) {col p : Nat} (hcol : col < n) (hp : p < n) :
    Shaped n w (columnStep col p m) :=
  ((h.swapRows hcol hp).scalePivot hcol).clearColumn hcol

theorem vec_columnStep (h : Shaped n w m) {col p r : Nat} (hcol : col < n) (hp : p < n) (hr : r < n) :
    vec (columnStep col p m) r =
      if r = col then (entry m p col)⁻¹ • vec m p
      else vec m (Equiv.swap col p r) -
        entry m (Equiv.swap col p r) col • (entry m p col)⁻¹ • vec m p := by
  have hswap := h.swapRows hcol hp
  have hscale := hswap.scalePivot hcol
  have hcolm : col < m.length := by
    rw [h.rows]
    exact hcol
  have hpm : p < m.length := by
    rw [h.rows]
    exact hp
  have hcols : col < (swapRows m col p).length := by
    rw [hswap.rows]
    exact hcol
  have hpivot : vec (scalePivot col (swapRows m col p)) col =
      (entry m p col)⁻¹ • vec m p := by
    rw [vec_scalePivot hcols, if_pos rfl, entry_eq_vec, vec_swapRows hcolm hpm,
      Equiv.swap_apply_left, entry_eq_vec]
  rw [columnStep, vec_clearColumn hscale hcol hr]
  by_cases hrc : r = col
  · rw [if_pos hrc, if_pos hrc, hrc, hpivot]
  · rw [if_neg hrc, if_neg hrc, entry_eq_vec, vec_scalePivot hcols, if_neg hrc,
      vec_swapRows hcolm hpm, hpivot, ← entry_eq_vec]

theorem rowSpan_columnStep (h : Shaped n w m) {col p : Nat} (hcol : col < n) (hp : p < n)
    (hne : entry m p col ≠ 0) :
    rowSpan (columnStep col p m) = rowSpan m := by
  have hrows := (h.columnStep hcol hp).rows
  have hswap : forall i, i < n -> Equiv.swap col p i < n := by
    intro i hi
    rw [Equiv.swap_apply_def]
    split
    · exact hp
    · split
      · exact hcol
      · exact hi
  have hold : forall i, i < n -> vec m i ∈ rowSpan m := by
    intro i hi
    exact vec_mem_rowSpan (by rw [h.rows]; exact hi)
  have hnew : forall i, i < n -> vec (columnStep col p m) i ∈ rowSpan (columnStep col p m) := by
    intro i hi
    exact vec_mem_rowSpan (by rw [hrows]; exact hi)
  have hpivot := vec_columnStep h hcol hp hcol
  rw [if_pos rfl] at hpivot
  have hpm : vec m p = entry m p col • vec (columnStep col p m) col := by
    rw [hpivot, smul_smul, mul_inv_cancel₀ hne, one_smul]
  apply le_antisymm
  · apply rowSpan_le
    intro i hi
    rw [hrows] at hi
    rw [vec_columnStep h hcol hp hi]
    have hscaled := Submodule.smul_mem _ (entry m p col)⁻¹ (hold p hp)
    split
    · exact hscaled
    · exact Submodule.sub_mem _ (hold _ (hswap i hi)) (Submodule.smul_mem _ _ hscaled)
  · apply rowSpan_le
    intro i hi
    rw [h.rows] at hi
    by_cases hip : i = p
    · rw [hip, hpm]
      exact Submodule.smul_mem _ _ (hnew col hcol)
    · have hne' : Equiv.swap col p i ≠ col := by
        intro heq
        apply hip
        rw [← Equiv.swap_apply_self col p i, heq, Equiv.swap_apply_left]
      have hback := vec_columnStep h hcol hp (hswap i hi)
      rw [if_neg hne', Equiv.swap_apply_self, ← hpivot] at hback
      rw [← sub_add_cancel (vec m i) (entry m i col • vec (columnStep col p m) col), ← hback]
      exact Submodule.add_mem _ (hnew _ (hswap i hi)) (Submodule.smul_mem _ _ (hnew col hcol))

/-!
## The invariant of the column loop
-/

/-- The first `k` columns are those of the identity and the rows still span the same space. -/
structure Reduced (m : List (List K)) (k : Nat) (aug : List (List K)) : Prop where
  shaped : Shaped m.length (2 * m.length) aug
  span : rowSpan aug = rowSpan (augment m)
  solved : forall i j, i < m.length -> j < k -> entry aug i j = if i = j then 1 else 0

omit [DecidableEq K] in
theorem augment_reduced (m : List (List K)) : Reduced m 0 (augment m) where
  shaped := {
    rows := length_mapIdx
    widths := by
      intro row hrow
      obtain ⟨i, _, rfl⟩ := mem_mapIdx.mp hrow
      simp [augmentRow]
      omega }
  span := rfl
  solved := by
    intro i j _ hj
    omega

theorem columnStep_reduced {m aug : List (List K)} {k p : Nat} (h : Reduced m k aug)
    (hk : k < m.length) (hkp : k ≤ p) (hp : p < m.length) (hne : entry aug p k ≠ 0) :
    Reduced m (k + 1) (columnStep k p aug) where
  shaped := h.shaped.columnStep hk hp
  span := (rowSpan_columnStep h.shaped hk hp hne).trans h.span
  solved := by
    intro i j hi hj
    rw [entry_eq_vec, vec_columnStep h.shaped hk hp hi]
    by_cases hjk : j = k
    · subst hjk
      split
      · exact inv_mul_cancel₀ hne
      · change entry aug _ j - entry aug _ j * ((entry aug p j)⁻¹ * entry aug p j) = 0
        rw [inv_mul_cancel₀ hne, mul_one, sub_self]
    · have hj : j < k := by omega
      have hpj : entry aug p j = 0 := by
        rw [h.solved p j hp hj, if_neg (by omega)]
      split
      · rename_i hik
        change (entry aug p k)⁻¹ * entry aug p j = _
        rw [hpj, mul_zero, if_neg (by omega)]
      · rename_i hik
        change entry aug _ j - entry aug _ k * ((entry aug p k)⁻¹ * entry aug p j) = _
        rw [hpj, mul_zero, mul_zero, sub_zero, Equiv.swap_apply_def, if_neg hik]
        split
        · rename_i hip
          rw [h.solved k j hk hj, if_neg (by omega), if_neg (by omega)]
        · exact h.solved i j hi hj

theorem findPivot_some {n col p : Nat} {aug : List (List K)}
    (h : findPivot n col aug = some p) : col ≤ p ∧ p < n ∧ entry aug p col ≠ 0 := by
  have hmem := mem_of_find?_eq_some h
  have hne := find?_some h
  rw [mem_range'_1] at hmem
  exact ⟨hmem.1, by omega, by simpa using hne⟩

theorem reduceColumns_reduced :
    forall {k : Nat} {aug : List (List K)}, k ≤ m.length ->
      reduceColumns m.length k (augment m) = some aug -> Reduced m k aug := by
  intro k
  induction k with
  | zero =>
    intro aug _ haug
    cases haug
    exact augment_reduced m
  | succ k ih =>
    intro aug hk haug
    obtain ⟨prev, hprev, hstep⟩ := Option.bind_eq_some_iff.mp haug
    obtain ⟨p, hp, rfl⟩ := Option.map_eq_some_iff.mp hstep
    obtain ⟨hkp, hpn, hne⟩ := findPivot_some hp
    exact columnStep_reduced (ih (by omega) hprev) (by omega) hkp hpn hne

/-!
## A pivot is found when the kernel is trivial
-/

/-- No vector but zero is sent to zero by the rows of `m`. -/
def KernelTrivial (m : List (List K)) : Prop :=
  forall x : Nat -> K,
    (forall i, i < m.length -> ∑ j ∈ Finset.range m.length, entry m i j * x j = 0) ->
      forall j, j < m.length -> x j = 0

/-- The vectors whose first `n` coordinates are orthogonal to `x`. -/
def orthogonal (n : Nat) (x : Nat -> K) : Submodule K (Nat -> K) where
  carrier := {v | ∑ j ∈ Finset.range n, v j * x j = 0}
  zero_mem' := by simp
  add_mem' := by
    intro v w hv hw
    change ∑ j ∈ Finset.range n, (v j + w j) * x j = 0
    simp only [add_mul, Finset.sum_add_distrib]
    rw [hv, hw, add_zero]
  smul_mem' := by
    intro c v hv
    change ∑ j ∈ Finset.range n, (c * v j) * x j = 0
    simp only [mul_assoc, ← Finset.mul_sum]
    rw [hv, mul_zero]

omit [DecidableEq K] in
theorem vec_augment (hi : i < m.length) :
    vec (augment m) i = rowVec (augmentRow m.length i (m.getD i [])) := by
  simp only [vec, augment, getD_eq_getElem?_getD, getElem?_mapIdx,
    getElem?_eq_getElem hi, Option.map_some, Option.getD_some]

omit [DecidableEq K] in
theorem vec_augment_left {i j : Nat} (hi : i < m.length) (hj : j < m.length) :
    vec (augment m) i j = entry m i j := by
  rw [vec_augment hi, rowVec, augmentRow, getD_eq_getElem?_getD,
    getElem?_append_left (by simpa using hj)]
  simp [entry, getD_eq_getElem?_getD, hj]

omit [DecidableEq K] in
theorem vec_augment_right {i j : Nat} (hi : i < m.length) (hj : j < m.length) :
    vec (augment m) i (m.length + j) = if j = i then 1 else 0 := by
  rw [vec_augment hi, rowVec, augmentRow, getD_eq_getElem?_getD,
    getElem?_append_right (by simp)]
  simp [hj]

/-- The kernel vector read off column `k` when the first `k` columns are solved. -/
def kernelVec (aug : List (List K)) (k : Nat) : Nat -> K :=
  fun j => if j = k then 1 else if j < k then - entry aug j k else 0

omit [DecidableEq K] in
theorem kernelVec_orthogonal {m aug : List (List K)} {k i : Nat} (h : Reduced m k aug)
    (hk : k < m.length) (hi : i < m.length)
    (hzero : forall r, k ≤ r -> r < m.length -> entry aug r k = 0) :
    ∑ j ∈ Finset.range m.length, entry aug i j * kernelVec aug k j = 0 := by
  have hsplit : forall j, j ∈ Finset.range m.length -> entry aug i j * kernelVec aug k j =
      (if j = k then entry aug i k else 0) +
        (if j = i then (if i < k then - entry aug i k else 0) else 0) := by
    intro j hj
    unfold kernelVec
    by_cases hjk : j = k
    · subst hjk
      by_cases hji : j = i
      · subst hji
        simp
      · simp [hji]
    · by_cases hlt : j < k
      · rw [if_neg hjk, if_pos hlt, h.solved i j hi hlt, if_neg hjk]
        by_cases hji : j = i
        · subst hji
          simp [hlt]
        · rw [if_neg (Ne.symm hji), if_neg hji, zero_mul, add_zero]
      · rw [if_neg hjk, if_neg hlt, if_neg hjk, mul_zero, zero_add]
        by_cases hji : j = i
        · rw [if_pos hji, if_neg (by omega)]
        · rw [if_neg hji]
  rw [Finset.sum_congr rfl hsplit, Finset.sum_add_distrib, Finset.sum_ite_eq',
    Finset.sum_ite_eq', if_pos (Finset.mem_range.mpr hk), if_pos (Finset.mem_range.mpr hi)]
  by_cases hik : i < k
  · rw [if_pos hik, add_neg_cancel]
  · rw [if_neg hik, hzero i (by omega) hi, add_zero]

theorem findPivot_isSome {m aug : List (List K)} {k : Nat} (h : Reduced m k aug)
    (hk : k < m.length) (hker : KernelTrivial m) : (findPivot m.length k aug).isSome := by
  cases hfind : findPivot m.length k aug with
  | some p => rfl
  | none =>
    have hzero : forall r, k ≤ r -> r < m.length -> entry aug r k = 0 := by
      intro r hkr hr
      have hnone := find?_eq_none.mp hfind r
        (by rw [mem_range'_1]; omega)
      simpa using hnone
    have hspan : rowSpan (augment m) ≤ orthogonal m.length (kernelVec aug k) := by
      rw [← h.span]
      apply rowSpan_le
      intro i hi
      rw [h.shaped.rows] at hi
      exact kernelVec_orthogonal h hk hi hzero
    have hx := hker (kernelVec aug k) ?_ k hk
    · simp [kernelVec] at hx
    · intro i hi
      have hmem : vec (augment m) i ∈ orthogonal m.length (kernelVec aug k) :=
        hspan (vec_mem_rowSpan (by rw [(augment_reduced m).shaped.rows]; exact hi))
      rw [← hmem]
      apply Finset.sum_congr rfl
      intro j hj
      rw [vec_augment_left hi (Finset.mem_range.mp hj)]

theorem reduceColumns_isSome (hker : KernelTrivial m) :
    forall k, k ≤ m.length -> exists aug, reduceColumns m.length k (augment m) = some aug := by
  intro k
  induction k with
  | zero =>
    intro _
    exact ⟨augment m, rfl⟩
  | succ k ih =>
    intro hk
    obtain ⟨prev, hprev⟩ := ih (by omega)
    have hred := reduceColumns_reduced (by omega) hprev
    obtain ⟨p, hp⟩ := Option.isSome_iff_exists.mp (findPivot_isSome hred (by omega) hker)
    exact ⟨columnStep k p prev, by simp [reduceColumns, hprev, reduceColumn, hp]⟩

/-!
## The right half is a left inverse
-/

/-- The vectors whose first `n` coordinates are the combination of the rows of `m` that
the next `n` coordinates name. -/
def combined (m : List (List K)) : Submodule K (Nat -> K) where
  carrier := {v | forall j, j < m.length ->
    v j = ∑ i ∈ Finset.range m.length, v (m.length + i) * entry m i j}
  zero_mem' := by
    intro j _
    simp
  add_mem' := by
    intro v w hv hw j hj
    simp only [Pi.add_apply, add_mul, Finset.sum_add_distrib]
    rw [hv j hj, hw j hj]
  smul_mem' := by
    intro c v hv j hj
    simp only [Pi.smul_apply, smul_eq_mul, mul_assoc, ← Finset.mul_sum]
    rw [hv j hj]

omit [DecidableEq K] in
theorem rowSpan_augment_le_combined (m : List (List K)) : rowSpan (augment m) ≤ combined m := by
  apply rowSpan_le
  intro r hr j hj
  rw [(augment_reduced m).shaped.rows] at hr
  have hterm : forall i, i ∈ Finset.range m.length ->
      vec (augment m) r (m.length + i) * entry m i j = if i = r then entry m r j else 0 := by
    intro i hi
    rw [vec_augment_right hr (Finset.mem_range.mp hi)]
    by_cases hir : i = r
    · rw [if_pos hir, if_pos hir, one_mul, hir]
    · rw [if_neg hir, if_neg hir, zero_mul]
  rw [vec_augment_left hr hj, Finset.sum_congr rfl hterm, Finset.sum_ite_eq',
    if_pos (Finset.mem_range.mpr hr)]

/-- `inv` times `m` is the identity. -/
def LeftInverse (inv m : List (List K)) : Prop :=
  forall r j, r < m.length -> j < m.length ->
    ∑ i ∈ Finset.range m.length, entry inv r i * entry m i j = if r = j then 1 else 0

omit [DecidableEq K] in
theorem entry_rightHalf {m aug : List (List K)} (h : Shaped m.length (2 * m.length) aug)
    {r i : Nat} (hr : r < m.length) (hi : i < m.length) :
    entry (aug.map fun row => (row.drop m.length).take m.length) r i =
      entry aug r (m.length + i) := by
  have hlen : r < aug.length := by
    rw [h.rows]
    exact hr
  simp [entry, getD_eq_getElem?_getD, getElem?_eq_getElem hlen, hi]

theorem invertMatrix_leftInverse {m inv : List (List K)} (h : invertMatrix m = some inv) :
    Shaped m.length m.length inv ∧ LeftInverse inv m := by
  unfold invertMatrix at h
  split at h
  · rename_i hzero
    cases h
    refine ⟨⟨hzero.symm, ?_⟩, ?_⟩
    · intro row hrow
      cases hrow
    · intro r j hr
      omega
  · obtain ⟨aug, haug, rfl⟩ := Option.map_eq_some_iff.mp h
    have hred := reduceColumns_reduced (Nat.le_refl _) haug
    refine ⟨⟨by rw [length_map, hred.shaped.rows], ?_⟩, ?_⟩
    · intro row hrow
      obtain ⟨full, hfull, rfl⟩ := mem_map.mp hrow
      have := hred.shaped.widths full hfull
      simp
      omega
    · intro r j hr hj
      have hmem : vec aug r ∈ combined m := by
        apply rowSpan_augment_le_combined m
        rw [← hred.span]
        exact vec_mem_rowSpan (by rw [hred.shaped.rows]; exact hr)
      rw [← hred.solved r j hr hj, entry_eq_vec, hmem j hj]
      apply Finset.sum_congr rfl
      intro i hi
      rw [entry_rightHalf hred.shaped hr (Finset.mem_range.mp hi), entry_eq_vec]

theorem invertMatrix_isSome (hker : KernelTrivial m) :
    exists inv, invertMatrix m = some inv := by
  unfold invertMatrix
  split
  · exact ⟨[], rfl⟩
  · obtain ⟨aug, haug⟩ := reduceColumns_isSome hker m.length (Nat.le_refl _)
    exact ⟨_, by rw [haug]; rfl⟩

end GaussJordan
end FrpRs
