import FrpRs.Data.GaussJordan
import FrpRs.Data.Vandermonde
import FrpRs.Fec.Gf256

/-!
# The Reed-Solomon codec

`Fec` of `frp-core/src/kcp_compat.rs`.  `none` stands for a panic: a failed `expect`, a
failed assertion or an index out of range.
-/

namespace FrpRs

open List

structure Fec where
  dataShards : Nat
  parityShards : Nat
  encodeMatrix : List (List UInt8)

namespace Fec

open GaussJordan

/-- `matrix[i][j]`. -/
def cell (m : List (List UInt8)) (i j : Nat) : UInt8 :=
  (m.getD i []).getD j 0

/-- The `sum ^= ..` loops. -/
def xorSum (n : Nat) (f : Nat -> UInt8) : UInt8 :=
  (range n).foldl (fun sum k => sum ^^^ f k) 0

/-- A byte matrix read over the field, with `gf256::mul`, `gf256::inv` and exclusive or. -/
def asField (m : List (List UInt8)) : List (List Gf256) := m

def asBytes (m : List (List Gf256)) : List (List UInt8) := m

def invertMatrix (matrix : List (List UInt8)) : Option (List (List UInt8)) :=
  (GaussJordan.invertMatrix (asField matrix)).map asBytes

/-!
## Construction
-/

def vandermondeRow (dataShards r : Nat) : List UInt8 :=
  (range dataShards).map fun c => Gf256.pow (UInt8.ofNat r) (UInt32.ofNat c)

def vandermondeRows (dataShards totalShards : Nat) : List (List UInt8) :=
  (range totalShards).map fun r => vandermondeRow dataShards r

def systematicRow (dataShards : Nat) (topInv : List (List UInt8)) (vmRow : List UInt8) :
    List UInt8 :=
  (range dataShards).map fun c =>
    xorSum vmRow.length fun k => Gf256.mul (vmRow.getD k 0) (cell topInv k c)

def new (dataShards parityShards : Nat) : Option Fec :=
  let dataShards := min dataShards 256
  let totalShards := dataShards + parityShards
  if dataShards > 0 ∧ parityShards > 0 then
    let vm := vandermondeRows dataShards totalShards
    (invertMatrix (vm.take dataShards)).map fun topInv =>
      { dataShards := dataShards
        parityShards := parityShards
        encodeMatrix := (vm.drop dataShards).map (systematicRow dataShards topInv) }
  else
    some { dataShards := dataShards, parityShards := parityShards, encodeMatrix := [] }

def enabled (fec : Fec) : Bool :=
  fec.dataShards > 0 ∧ fec.parityShards > 0

/-!
## Encoding
-/

def parityRow (fec : Fec) (input : List (List UInt8)) (blockSize i : Nat) : List UInt8 :=
  (range blockSize).map fun byteIdx =>
    xorSum input.length fun dataIdx =>
      Gf256.mul (cell fec.encodeMatrix i dataIdx) (cell input dataIdx byteIdx)

/-- The number of rows is asserted, the block size is that of the first row, and every
row is read up to it. -/
def encodeParity (fec : Fec) (input : List (List UInt8)) : Option (List (List UInt8)) :=
  if input.length ≠ fec.dataShards then none
  else match input with
    | [] => none
    | first :: _ =>
      if fec.parityShards > 0 ∧ input.any (fun row => row.length < first.length) then none
      else some ((range fec.parityShards).map (parityRow fec input first.length))

def encode (fec : Fec) (input : List (List UInt8)) : Option (List (List UInt8)) :=
  if fec.enabled then (encodeParity fec input).map fun parity => input ++ parity
  else some input

/-!
## Decoding
-/

def blockSize (shards : List (Option (List UInt8))) : Nat :=
  (shards.filterMap fun s => s.map length).foldl max 0

def zeroExtend (n : Nat) (row : List UInt8) : List UInt8 :=
  row ++ replicate (n - row.length) 0

def present (shards : List (Option (List UInt8))) : List Nat :=
  (range shards.length).filter fun i => (shards.getD i none).isSome

def addParity (dataShards : Nat) : List Nat -> List Nat -> List Nat
  | selected, [] => selected
  | selected, idx :: rest =>
    if selected.length ≥ dataShards then selected
    else if idx ≥ dataShards then addParity dataShards (selected ++ [idx]) rest
    else addParity dataShards selected rest

/-- Present data rows first, then parity rows up to `data_shards`. -/
def select (dataShards : Nat) (present : List Nat) : List Nat :=
  addParity dataShards (present.filter fun i => i < dataShards) present

/-- Row `shard_idx` of the encoding matrix with the identity on top. -/
def selectedRow (fec : Fec) (shardIdx : Nat) : List UInt8 :=
  (range fec.dataShards).map fun col =>
    if shardIdx < fec.dataShards then if col = shardIdx then 1 else 0
    else cell fec.encodeMatrix (shardIdx - fec.dataShards) col

def reconstructRow (shards : List (Option (List UInt8))) (selected : List Nat)
    (inv : List (List UInt8)) (blockSize missingIdx : Nat) : List UInt8 :=
  (range blockSize).map fun byteIdx =>
    xorSum selected.length fun row =>
      Gf256.mul (cell inv missingIdx row)
        (((shards.getD (selected.getD row 0) none).getD []).getD byteIdx 0)

/-- Fill in the missing data rows from the selected ones. -/
def reconstruct (fec : Fec) (shards : List (Option (List UInt8))) (selected : List Nat)
    (inv : List (List UInt8)) (blockSize : Nat) : List (Option (List UInt8)) :=
  shards.mapIdx fun i s =>
    if i < fec.dataShards ∧ s.isNone then some (reconstructRow shards selected inv blockSize i)
    else s

/-- The answer and the shards afterwards. -/
def decode (fec : Fec) (shards : List (Option (List UInt8))) :
    Option (Bool × List (Option (List UInt8))) :=
  if fec.enabled = false then some (true, shards)
  else
    let blockSize := blockSize shards
    if blockSize = 0 then some (false, shards)
    else
      let shards := shards.map fun s => s.map (zeroExtend blockSize)
      let present := present shards
      if present.length < fec.dataShards then some (false, shards)
      else
        let selected := select fec.dataShards present
        if selected.any (fun idx => fec.dataShards + fec.parityShards ≤ idx) then none
        else match invertMatrix (selected.map fec.selectedRow) with
          | none => some (false, shards)
          | some inv => some (true, reconstruct fec shards selected inv blockSize)

/-!
## The code generated by `new`
-/

theorem ofByte_xorSum (n : Nat) (f : Nat -> UInt8) :
    Gf256.ofByte (xorSum n f) = ∑ k ∈ Finset.range n, Gf256.ofByte (f k) := by
  unfold xorSum
  induction n with
  | zero =>
    rfl
  | succ n ih =>
    rw [range_succ, foldl_append, Finset.sum_range_succ, ← ih]
    rfl

theorem getD_map_range {α : Type} (n i : Nat) (f : Nat -> α) (x : α) (h : i < n) :
    ((range n).map f).getD i x = f i := by
  simp [getD_eq_getElem?_getD, h]

theorem ofByte_mul (a b : UInt8) :
    Gf256.ofByte (Gf256.mul a b) = Gf256.ofByte a * Gf256.ofByte b := rfl

theorem vandermondeRow_getD {d r c : Nat} (hd : d ≤ 256) (hc : c < d) :
    Gf256.ofByte ((vandermondeRow d r).getD c 0) = Gf256.ofNat r ^ c := by
  have hexp : (UInt32.ofNat c).toNat = c := by
    rw [UInt32.toNat_ofNat']
    omega
  rw [vandermondeRow, getD_map_range _ _ _ _ hc]
  exact (Gf256.pow_eq _ _).trans (by rw [hexp]; rfl)

theorem invertMatrix_isSome {m : List (List UInt8)}
    (hker : forall x : Nat -> Gf256,
      (forall i, i < m.length ->
        ∑ j ∈ Finset.range m.length, Gf256.ofByte (cell m i j) * x j = 0) ->
      forall j, j < m.length -> x j = 0) :
    exists inv, invertMatrix m = some inv := by
  have hkernel : KernelTrivial (asField m) := hker
  obtain ⟨inv, hinv⟩ := GaussJordan.invertMatrix_isSome hkernel
  exact ⟨asBytes inv, by rw [invertMatrix, hinv]; rfl⟩

theorem invertMatrix_leftInverse {m inv : List (List UInt8)} (h : invertMatrix m = some inv)
    {a b : Nat} (ha : a < m.length) (hb : b < m.length) :
    ∑ i ∈ Finset.range m.length, Gf256.ofByte (cell inv a i) * Gf256.ofByte (cell m i b) =
      if a = b then 1 else 0 := by
  obtain ⟨inv', hinv, rfl⟩ := Option.map_eq_some_iff.mp h
  exact (GaussJordan.invertMatrix_leftInverse hinv).2 a b ha hb

/-- `fec` encodes with the Vandermonde matrix over `0, 1, ..` times `r`. -/
structure Generates (d p : Nat) (r : Nat -> Nat -> Gf256) (fec : Fec) : Prop where
  dataShards : fec.dataShards = d
  parityShards : fec.parityShards = p
  data_pos : 1 ≤ d
  parity_pos : 1 ≤ p
  total_le : d + p ≤ 256
  invertsTop : Vandermonde.InvertsTop d Gf256.ofNat r
  parity : forall i k, i < p -> k < d ->
    Gf256.ofByte (cell fec.encodeMatrix i k) = Vandermonde.systematic d Gf256.ofNat r (d + i) k

variable {r : Nat -> Nat -> Gf256} {fec : Fec}

theorem Generates.enabled {d p : Nat} (hg : Generates d p r fec) : fec.enabled = true := by
  have hd := hg.data_pos
  have hp := hg.parity_pos
  simp [Fec.enabled, hg.dataShards, hg.parityShards]
  omega

theorem ofNat_distinctBelow {d : Nat} {selected : Nat -> Nat}
    (hlt : forall i, i < d -> selected i < 256)
    (hinj : forall i j, i < d -> j < d -> selected i = selected j -> i = j) :
    Vandermonde.DistinctBelow d fun i => Gf256.ofNat (selected i) := by
  intro i j hi hj hij
  exact hinj i j hi hj (Gf256.ofNat_injective (hlt i hi) (hlt j hj) hij)

theorem top_cell {d p : Nat} (hd : d ≤ 256) {i j : Nat} (hi : i < d) (hj : j < d) :
    Gf256.ofByte (cell ((vandermondeRows d (d + p)).take d) i j) = Gf256.ofNat i ^ j := by
  have hrow : ((vandermondeRows d (d + p)).take d).getD i [] = vandermondeRow d i := by
    simp [vandermondeRows, getD_eq_getElem?_getD, hi]
  rw [cell, hrow, vandermondeRow_getD hd hj]

theorem top_length (d p : Nat) : ((vandermondeRows d (d + p)).take d).length = d := by
  simp [vandermondeRows]

theorem top_inverse {d : Nat} (p : Nat) (hd : d ≤ 256) :
    exists topInv, invertMatrix ((vandermondeRows d (d + p)).take d) = some topInv := by
  apply invertMatrix_isSome
  intro x hx
  rw [top_length] at hx ⊢
  have hdistinct : Vandermonde.DistinctBelow d Gf256.ofNat :=
    @ofNat_distinctBelow d id (fun i hi => by change i < 256; omega)
      (fun _ _ _ _ h => h)
  apply Vandermonde.vandermonde_kernel hdistinct
  intro i hi
  rw [← hx i hi]
  apply Finset.sum_congr rfl
  intro j hj
  rw [top_cell hd hi (Finset.mem_range.mp hj)]

theorem parity_cell {d p i k : Nat} (hd : d ≤ 256) (topInv : List (List UInt8)) (hi : i < p)
    (hk : k < d) :
    Gf256.ofByte
        (cell (((vandermondeRows d (d + p)).drop d).map (systematicRow d topInv)) i k) =
      Vandermonde.systematic d Gf256.ofNat (fun j k => Gf256.ofByte (cell topInv j k))
        (d + i) k := by
  have hrow : (((vandermondeRows d (d + p)).drop d).map (systematicRow d topInv)).getD i [] =
      systematicRow d topInv (vandermondeRow d (d + i)) := by
    simp [vandermondeRows, getD_eq_getElem?_getD, hi]
  have hlen : (vandermondeRow d (d + i)).length = d := by
    simp [vandermondeRow]
  rw [cell, hrow, systematicRow, getD_map_range _ _ _ _ hk, ofByte_xorSum, hlen]
  apply Finset.sum_congr rfl
  intro j hj
  rw [ofByte_mul, vandermondeRow_getD hd (Finset.mem_range.mp hj)]

theorem new_generates {d p : Nat} (hd : 1 ≤ d) (hp : 1 ≤ p) (hdp : d + p ≤ 256) :
    exists fec r, new d p = some fec ∧ Generates d p r fec := by
  have hd256 : d ≤ 256 := by omega
  obtain ⟨topInv, hinv⟩ := top_inverse p hd256
  refine ⟨Fec.mk d p (((vandermondeRows d (d + p)).drop d).map (systematicRow d topInv)),
    fun j k => Gf256.ofByte (cell topInv j k), ?_, rfl, rfl, hd, hp, hdp, ?_, ?_⟩
  · unfold new
    rw [Nat.min_eq_left hd256, if_pos ⟨by omega, by omega⟩]
    simp only [hinv, Option.map_some]
  · intro a b ha hb
    have hab := invertMatrix_leftInverse hinv (a := a) (b := b)
    rw [top_length] at hab
    rw [← hab ha hb]
    apply Finset.sum_congr rfl
    intro i hi
    rw [top_cell hd256 (Finset.mem_range.mp hi) hb]
  · intro i k hi hk
    exact parity_cell hd256 topInv hi hk

/-!
## Rows of a code word
-/

/-- Byte `b` of every data row. -/
def dataWord (rows : List (List UInt8)) (b : Nat) : Nat -> Gf256 :=
  fun k => Gf256.ofByte (cell rows k b)

/-- Row `i` of the encoded block. -/
def codeRow (fec : Fec) (rows : List (List UInt8)) (blockSize i : Nat) : List UInt8 :=
  if i < fec.dataShards then rows.getD i []
  else parityRow fec rows blockSize (i - fec.dataShards)

/-- `d` rows of `n` bytes. -/
structure Block (d n : Nat) (rows : List (List UInt8)) : Prop where
  count : rows.length = d
  widths : forall row, row ∈ rows -> row.length = n

variable {rows : List (List UInt8)}

theorem Block.width {d n : Nat} (h : Block d n rows) {i : Nat} (hi : i < d) :
    (rows.getD i []).length = n :=
  h.widths _ (getD_mem (by rw [h.count]; exact hi))

theorem codeRow_length {d p n i : Nat} (hg : Generates d p r fec) (hb : Block d n rows) :
    (codeRow fec rows n i).length = n := by
  unfold codeRow
  split
  · rename_i hi
    exact hb.width (by rw [← hg.dataShards]; exact hi)
  · simp [parityRow]

theorem codeRow_getD {d p n i b : Nat} (hg : Generates d p r fec) (hb : Block d n rows)
    (hi : i < d + p) (hbn : b < n) :
    Gf256.ofByte ((codeRow fec rows n i).getD b 0) =
      Vandermonde.codeword d Gf256.ofNat r (dataWord rows b) i := by
  unfold codeRow
  rw [hg.dataShards]
  split
  · rename_i hid
    rw [Vandermonde.codeword_top hg.invertsTop _ hid]
    rfl
  · rename_i hid
    rw [parityRow, getD_map_range _ _ _ _ hbn, ofByte_xorSum, hb.count]
    apply Finset.sum_congr rfl
    intro k hk
    have hparity := hg.parity (i - d) k (by omega) (Finset.mem_range.mp hk)
    rw [show d + (i - d) = i by omega] at hparity
    rw [ofByte_mul, hparity]
    rfl

theorem encodeParity_eq {d p n : Nat} (hg : Generates d p r fec) (hb : Block d n rows) :
    encodeParity fec rows =
      some ((range p).map fun i => codeRow fec rows n (d + i)) := by
  have hcode : forall i, codeRow fec rows n (d + i) = parityRow fec rows n i := by
    intro i
    rw [codeRow, hg.dataShards, if_neg (by omega), Nat.add_sub_cancel_left]
  simp only [hcode]
  unfold encodeParity
  rw [if_neg (by rw [hb.count, hg.dataShards]; exact not_not.mpr rfl)]
  cases rows with
  | nil =>
    have := hb.count
    have := hg.data_pos
    simp at *
    omega
  | cons first rest =>
    have hfirst : first.length = n := hb.widths first (by simp)
    have hnone : ((first :: rest).any fun row => row.length < first.length) = false := by
      rw [any_eq_false]
      intro row hrow
      have := hb.widths row hrow
      simp
      omega
    simp only [hnone]
    rw [if_neg (by simp), hfirst, hg.parityShards]

theorem encode_eq {d p n : Nat} (hg : Generates d p r fec) (hb : Block d n rows) :
    encode fec rows = some ((range (d + p)).map (codeRow fec rows n)) := by
  have hdata : (range d).map (codeRow fec rows n) = rows := by
    apply ext_getElem
    · simp [hb.count]
    · intro i hi hi'
      have hid : i < d := by simpa using hi
      simp [codeRow, hg.dataShards, hid, getD_eq_getElem?_getD, hi']
  rw [encode, if_pos hg.enabled, encodeParity_eq hg hb, Option.map_some, range_add,
    map_append, hdata, map_map]
  rfl

/-!
## The selected rows
-/

theorem present_nodup (shards : List (Option (List UInt8))) : (present shards).Nodup :=
  List.Nodup.filter _ nodup_range

variable {shards : List (Option (List UInt8))}

theorem mem_present {i : Nat} :
    i ∈ present shards ↔ i < shards.length ∧ (shards.getD i none).isSome := by
  simp [present]

theorem mem_addParity {d : Nat} {selected rest : List Nat} {i : Nat}
    (h : i ∈ addParity d selected rest) : i ∈ selected ∨ i ∈ rest := by
  induction rest generalizing selected with
  | nil =>
    exact .inl h
  | cons idx rest ih =>
    unfold addParity at h
    split at h
    · exact .inl h
    · split at h
      · rcases ih h with hsel | hrest
        · rcases mem_append.mp hsel with hsel | hidx
          · exact .inl hsel
          · exact .inr (mem_cons.mpr (.inl (mem_singleton.mp hidx)))
        · exact .inr (mem_cons_of_mem _ hrest)
      · rcases ih h with hsel | hrest
        · exact .inl hsel
        · exact .inr (mem_cons_of_mem _ hrest)

theorem addParity_nodup {d : Nat} {selected rest : List Nat} (hsel : selected.Nodup)
    (hrest : rest.Nodup) (hdisj : forall i, i ∈ rest -> d ≤ i -> i ∉ selected) :
    (addParity d selected rest).Nodup := by
  induction rest generalizing selected with
  | nil =>
    exact hsel
  | cons idx rest ih =>
    obtain ⟨hidx, hrest⟩ := nodup_cons.mp hrest
    unfold addParity
    split
    · exact hsel
    · split
      · rename_i hge
        have hnew := hdisj idx (by simp) hge
        apply ih _ hrest
        · intro i hi hdi hmem
          rcases mem_append.mp hmem with hmem | hmem
          · exact hdisj i (mem_cons_of_mem _ hi) hdi hmem
          · exact hidx (mem_singleton.mp hmem ▸ hi)
        · rw [nodup_append]
          refine ⟨hsel, nodup_singleton idx, ?_⟩
          rintro a ha b hb rfl
          exact hnew (mem_singleton.mp hb ▸ ha)
      · apply ih hsel hrest
        intro i hi
        exact hdisj i (mem_cons_of_mem _ hi)

theorem addParity_length {d : Nat} {selected rest : List Nat} (h : selected.length ≤ d) :
    (addParity d selected rest).length =
      min d (selected.length + (rest.filter fun i => !decide (i < d)).length) := by
  induction rest generalizing selected with
  | nil =>
    simp [addParity]
    omega
  | cons idx rest ih =>
    unfold addParity
    split
    · omega
    · split
      · rename_i hge
        rw [ih (by simp; omega), filter_cons_of_pos (by simpa using hge)]
        simp
        omega
      · rename_i hlt
        rw [ih h, filter_cons_of_neg (by simpa using hlt)]

theorem select_length {d : Nat} {present : List Nat} (hnodup : present.Nodup)
    (h : d ≤ present.length) : (select d present).length = d := by
  have hdata : (present.filter fun i => i < d).length ≤ d := by
    have hsub : (present.filter fun i => i < d) ⊆ range d := by
      intro i hi
      simpa using (mem_filter.mp hi).2
    simpa using ((hnodup.filter _).subperm hsub).length_le
  have hcount := length_eq_length_filter_add (l := present) fun i => decide (i < d)
  rw [select, addParity_length hdata]
  omega

theorem mem_select {d : Nat} {present : List Nat} {i : Nat} (h : i ∈ select d present) :
    i ∈ present := by
  rcases mem_addParity h with hdata | hrest
  · exact (mem_filter.mp hdata).1
  · exact hrest

theorem select_nodup {d : Nat} {present : List Nat} (h : present.Nodup) :
    (select d present).Nodup := by
  apply addParity_nodup (h.filter _) h
  intro i _ hdi hmem
  have hlt := (mem_filter.mp hmem).2
  simp at hlt
  omega

theorem selectedRow_cell {d p i k : Nat} (hg : Generates d p r fec) {selected : List Nat}
    (hi : i < selected.length) (hk : k < d) (hlt : selected.getD i 0 < d + p) :
    Gf256.ofByte (cell (selected.map fec.selectedRow) i k) =
      Vandermonde.systematic d Gf256.ofNat r (selected.getD i 0) k := by
  have hrow : (selected.map fec.selectedRow).getD i [] = fec.selectedRow (selected.getD i 0) := by
    simp [getD_eq_getElem?_getD, hi]
  rw [cell, hrow, selectedRow, hg.dataShards, getD_map_range _ _ _ _ hk]
  split
  · rename_i hsd
    rw [Vandermonde.systematic_top hg.invertsTop hsd hk]
    split
    · rename_i hkc
      rw [if_pos hkc.symm]
      rfl
    · rename_i hkc
      rw [if_neg (Ne.symm hkc)]
      rfl
  · rename_i hsd
    rw [hg.parity _ k (by omega) hk, show d + (selected.getD i 0 - d) = selected.getD i 0 by omega]

theorem selected_inverse {d p : Nat} (hg : Generates d p r fec) {selected : List Nat}
    (hlen : selected.length = d) (hnodup : selected.Nodup)
    (hlt : forall i, i ∈ selected -> i < d + p) :
    exists inv, invertMatrix (selected.map fec.selectedRow) = some inv := by
  have hgetD : forall i, i < d -> selected.getD i 0 < d + p := by
    intro i hi
    rw [getD_eq_getElem?_getD, getElem?_eq_getElem (by omega), Option.getD_some]
    exact hlt _ (getElem_mem _)
  apply invertMatrix_isSome
  intro x hx
  rw [length_map, hlen] at hx ⊢
  refine Vandermonde.systematic_kernel hg.invertsTop
    (ofNat_distinctBelow (?_ : forall i, i < d -> selected.getD i 0 < 256) ?_) ?_
  · intro i hi
    have := hgetD i hi
    have := hg.total_le
    omega
  · intro i j hi hj hij
    rw [getD_eq_getElem?_getD, getElem?_eq_getElem (by omega), Option.getD_some,
      getD_eq_getElem?_getD, getElem?_eq_getElem (by omega), Option.getD_some] at hij
    exact (List.Nodup.getElem_inj_iff hnodup).mp hij
  · intro i hi
    rw [← hx i hi]
    apply Finset.sum_congr rfl
    intro k hk
    rw [selectedRow_cell hg (by omega) (Finset.mem_range.mp hk) (hgetD i hi)]

/-!
## Reconstruction
-/

theorem le_foldl_max (lens : List Nat) (acc : Nat) :
    acc ≤ lens.foldl max acc ∧ forall l, l ∈ lens -> l ≤ lens.foldl max acc := by
  induction lens generalizing acc with
  | nil =>
    simp
  | cons l lens ih =>
    obtain ⟨hacc, hmem⟩ := ih (max acc l)
    rw [foldl_cons]
    refine ⟨by omega, ?_⟩
    intro l' hl'
    rcases mem_cons.mp hl' with rfl | hl'
    · omega
    · exact hmem l' hl'

theorem foldl_max_le {lens : List Nat} {n : Nat} (h : forall l, l ∈ lens -> l ≤ n) {acc : Nat}
    (hacc : acc ≤ n) : lens.foldl max acc ≤ n := by
  induction lens generalizing acc with
  | nil =>
    exact hacc
  | cons l lens ih =>
    have hl := h l (by simp)
    exact ih (fun l' hl' => h l' (mem_cons_of_mem _ hl')) (by omega)

theorem mem_of_getD {i : Nat} {row : List UInt8} (h : shards.getD i none = some row) :
    some row ∈ shards := by
  rw [getD_eq_getElem?_getD] at h
  cases hi : shards[i]? with
  | none =>
    rw [hi] at h
    cases h
  | some s =>
    rw [hi, Option.getD_some] at h
    rw [← h]
    exact mem_of_getElem? hi

theorem blockSize_of_longest {n : Nat} (hle : forall row, some row ∈ shards -> row.length ≤ n)
    {row : List UInt8} (hmem : some row ∈ shards) (hrow : row.length = n) :
    blockSize shards = n := by
  apply Nat.le_antisymm
  · apply foldl_max_le _ (Nat.zero_le n)
    intro l hl
    obtain ⟨s, hs, hsl⟩ := mem_filterMap.mp hl
    obtain ⟨row', rfl, rfl⟩ := Option.map_eq_some_iff.mp hsl
    exact hle row' hs
  · apply (le_foldl_max _ 0).2
    rw [← hrow]
    exact mem_filterMap.mpr ⟨some row, hmem, rfl⟩

def FromBlock (fec : Fec) (rows : List (List UInt8)) (n : Nat)
    (shards : List (Option (List UInt8))) : Prop :=
  forall i row, shards.getD i none = some row -> row = codeRow fec rows n i

theorem FromBlock.length_of_mem {d p n : Nat} (hg : Generates d p r fec) (hb : Block d n rows)
    (hf : FromBlock fec rows n shards) {row : List UInt8} (h : some row ∈ shards) :
    row.length = n := by
  obtain ⟨i, hi, hrow⟩ := mem_iff_getElem.mp h
  have hcode := hf i row (by rw [getD_eq_getElem?_getD, getElem?_eq_getElem hi, hrow]; rfl)
  rw [hcode, codeRow_length hg hb]

theorem blockSize_eq {d p n : Nat} (hg : Generates d p r fec) (hb : Block d n rows)
    (hf : FromBlock fec rows n shards) (hpos : 1 ≤ (present shards).length) :
    blockSize shards = n := by
  obtain ⟨i, hi⟩ := exists_mem_of_length_pos hpos
  obtain ⟨row, hrow⟩ := Option.isSome_iff_exists.mp (mem_present.mp hi).2
  have hmem := mem_of_getD hrow
  exact blockSize_of_longest (fun row' h => Nat.le_of_eq (hf.length_of_mem hg hb h)) hmem
    (hf.length_of_mem hg hb hmem)

theorem zeroExtend_of_length {n : Nat} {row : List UInt8} (h : row.length = n) :
    zeroExtend n row = row := by
  simp [zeroExtend, h]

theorem map_zeroExtend_eq {d p n : Nat} (hg : Generates d p r fec) (hb : Block d n rows)
    (hf : FromBlock fec rows n shards) :
    (shards.map fun s => s.map (zeroExtend n)) = shards := by
  conv => rhs; rw [← map_id shards]
  apply map_congr_left
  intro s hs
  cases s with
  | none =>
    rfl
  | some row =>
    exact congrArg some (zeroExtend_of_length (hf.length_of_mem hg hb hs))

theorem reconstructRow_eq {d p n i : Nat} {rows inv : List (List UInt8)} {selected : List Nat}
    (hg : Generates d p r fec) (hb : Block d n rows) (hf : FromBlock fec rows n shards)
    (hlen : selected.length = d) (hlt : forall i, i ∈ selected -> i < d + p)
    (hsome : forall i, i ∈ selected -> (shards.getD i none).isSome)
    (hinv : invertMatrix (selected.map fec.selectedRow) = some inv) (hi : i < d) :
    reconstructRow shards selected inv n i = rows.getD i [] := by
  have hmem : forall j, j < d -> selected.getD j 0 ∈ selected := by
    intro j hj
    rw [getD_eq_getElem?_getD, getElem?_eq_getElem (by omega), Option.getD_some]
    exact getElem_mem _
  apply ext_getElem
  · rw [hb.width hi]
    simp [reconstructRow]
  · intro b hb₁ hb₂
    have hbn : b < n := by
      rw [hb.width hi] at hb₂
      exact hb₂
    have hleft : forall a c, a < d -> c < d ->
        ∑ j ∈ Finset.range d, Gf256.ofByte (cell inv a j) *
          Vandermonde.systematic d Gf256.ofNat r (selected.getD j 0) c =
            if a = c then 1 else 0 := by
      intro a c ha hc
      have hac := invertMatrix_leftInverse hinv (a := a) (b := c)
      rw [length_map, hlen] at hac
      rw [← hac ha hc]
      apply Finset.sum_congr rfl
      intro j hj
      have hj' := Finset.mem_range.mp hj
      rw [selectedRow_cell hg (by omega) hc (hlt _ (hmem j hj'))]
    have hrecover := Vandermonde.codeword_recover (r := r) (dataWord rows b) hleft hi
    have hbyte : (reconstructRow shards selected inv n i).getD b 0 = (rows.getD i []).getD b 0 := by
      have hfield : Gf256.ofByte ((reconstructRow shards selected inv n i).getD b 0) =
          dataWord rows b i := by
        rw [← hrecover, reconstructRow, getD_map_range _ _ _ _ hbn, ofByte_xorSum, hlen]
        apply Finset.sum_congr rfl
        intro j hj
        have hj' := Finset.mem_range.mp hj
        obtain ⟨row, hrow⟩ := Option.isSome_iff_exists.mp (hsome _ (hmem j hj'))
        rw [ofByte_mul, hrow, Option.getD_some, hf _ row hrow,
          codeRow_getD hg hb (hlt _ (hmem j hj')) hbn]
      exact hfield
    rw [getD_eq_getElem?_getD, getElem?_eq_getElem hb₁, Option.getD_some,
      getD_eq_getElem?_getD, getElem?_eq_getElem hb₂, Option.getD_some] at hbyte
    exact hbyte

theorem decode_recovers {d p n : Nat} (hg : Generates d p r fec) (hb : Block d n rows) (hn : 1 ≤ n)
    (hlen : shards.length = d + p) (hf : FromBlock fec rows n shards)
    (hcount : d ≤ (present shards).length) :
    exists shards', decode fec shards = some (true, shards') ∧ shards'.length = d + p ∧
      forall i, i < d -> shards'.getD i none = some (rows.getD i []) := by
  have hdpos := hg.data_pos
  have henabled := hg.enabled
  have hselLen := select_length (present_nodup shards) hcount
  have hselMem : forall i, i ∈ select d (present shards) ->
      i < d + p ∧ (shards.getD i none).isSome := by
    intro i hi
    obtain ⟨hlt, hsome⟩ := mem_present.mp (mem_select hi)
    exact ⟨by omega, hsome⟩
  have hbelow : (select d (present shards)).any (fun idx => d + p ≤ idx) = false := by
    rw [any_eq_false]
    intro i hi
    have := (hselMem i hi).1
    simp
    omega
  obtain ⟨inv, hinv⟩ := selected_inverse hg hselLen (select_nodup (present_nodup shards))
    (fun i hi => (hselMem i hi).1)
  refine ⟨reconstruct fec shards (select d (present shards)) inv n, ?_, ?_, ?_⟩
  · unfold decode
    rw [henabled, if_neg (by simp)]
    simp only [blockSize_eq hg hb hf (by omega), map_zeroExtend_eq hg hb hf]
    rw [if_neg (by omega), if_neg (by rw [hg.dataShards]; omega)]
    simp only [hg.dataShards, hg.parityShards, hbelow, hinv]
    rfl
  · simp [reconstruct, hlen]
  · intro i hi
    have hlt : i < shards.length := by omega
    have hget : shards.getD i none = shards[i] := by
      rw [getD_eq_getElem?_getD, getElem?_eq_getElem hlt, Option.getD_some]
    rw [getD_eq_getElem?_getD, reconstruct, getElem?_mapIdx,
      getElem?_eq_getElem hlt, Option.map_some, Option.getD_some, ← hget, hg.dataShards]
    cases hs : shards.getD i none with
    | none =>
      rw [if_pos ⟨hi, rfl⟩, reconstructRow_eq hg hb hf hselLen (fun j hj => (hselMem j hj).1)
        (fun j hj => (hselMem j hj).2) hinv hi]
    | some row =>
      rw [if_neg (by simp), hf i row hs, codeRow, if_pos (by rw [hg.dataShards]; exact hi)]

/-!
## Erasure correction
-/

/-- The rows that `kept` names, the others lost. -/
def keep (kept : Nat -> Bool) (coded : List (List UInt8)) : List (Option (List UInt8)) :=
  coded.mapIdx fun i row => if kept i then some row else none

theorem decode_encode_erased (d p n : Nat) (rows : List (List UInt8)) (kept : Nat -> Bool)
    (hd : 1 ≤ d) (hp : 1 ≤ p) (hdp : d + p ≤ 256) (hn : 1 ≤ n) (hcount : rows.length = d)
    (hwidths : forall row, row ∈ rows -> row.length = n)
    (hkept : d ≤ ((range (d + p)).filter kept).length) :
    exists fec coded shards, new d p = some fec ∧ encode fec rows = some coded ∧
      coded.length = d + p ∧ decode fec (keep kept coded) = some (true, shards) ∧
        shards.take d = rows.map some := by
  obtain ⟨fec, r, hnew, hg⟩ := new_generates hd hp hdp
  have hb : Block d n rows := ⟨hcount, hwidths⟩
  have hlen : ((range (d + p)).map (codeRow fec rows n)).length = d + p := by simp
  have hget : forall i, i < d + p ->
      (keep kept ((range (d + p)).map (codeRow fec rows n))).getD i none =
        if kept i then some (codeRow fec rows n i) else none := by
    intro i hi
    simp [keep, getD_eq_getElem?_getD, hi]
  have hkeepLen : (keep kept ((range (d + p)).map (codeRow fec rows n))).length = d + p := by
    simp [keep]
  have hpresent : present (keep kept ((range (d + p)).map (codeRow fec rows n))) =
      (range (d + p)).filter kept := by
    rw [present, hkeepLen]
    apply filter_congr
    intro i hi
    rw [hget i (mem_range.mp hi)]
    cases kept i <;> rfl
  have hf : FromBlock fec rows n (keep kept ((range (d + p)).map (codeRow fec rows n))) := by
    intro i row hrow
    by_cases hi : i < d + p
    · rw [hget i hi] at hrow
      split at hrow
      · exact (Option.some.inj hrow).symm
      · cases hrow
    · rw [getD_eq_getElem?_getD, getElem?_eq_none (by omega)] at hrow
      cases hrow
  obtain ⟨shards, hdecode, hshardsLen, hdata⟩ :=
    decode_recovers hg hb hn hkeepLen hf (by rw [hpresent]; exact hkept)
  refine ⟨fec, _, shards, hnew, encode_eq hg hb, hlen, hdecode, ?_⟩
  apply ext_getElem
  · simp [hshardsLen, hcount]
  · intro i hi₁ hi₂
    have hi : i < d := by
      simp at hi₁
      omega
    have hrow := hdata i hi
    rw [getD_eq_getElem?_getD, getElem?_eq_getElem (by omega), Option.getD_some,
      getD_eq_getElem?_getD, getElem?_eq_getElem (by omega), Option.getD_some] at hrow
    simpa using hrow

theorem decode_encode_erased_first_lost :
    exists fec coded shards, new 2 1 = some fec ∧ encode fec [[1, 2], [3, 4]] = some coded ∧
      coded.length = 2 + 1 ∧ decode fec (keep (fun i => i ≠ 0) coded) = some (true, shards) ∧
        shards.take 2 = [[1, 2], [3, 4]].map some :=
  decode_encode_erased 2 1 2 [[1, 2], [3, 4]] (fun i => i ≠ 0) (by decide) (by decide) (by decide)
    (by decide) rfl (by decide) (by decide)

end Fec
end FrpRs
