import Mathlib.Algebra.BigOperators.Group.List.Basic
import Mathlib.Algebra.Order.Ring.Nat
import Mathlib.Order.Lattice

/-!
# Ordered maps

A map whose keys are kept in increasing order, as a list of entries.  A range is read from
its first key on, and a map can be drained: the first key of a range is removed again and
again until the range is empty or its first key is one to stop at.
-/

namespace FrpRs

open List

structure OrderedMap (K V : Type) [LinearOrder K] where
  entries : List (K × V)
  sorted : entries.Pairwise fun a b => a.1 < b.1

namespace OrderedMap

variable {K V : Type} [LinearOrder K]

def empty : OrderedMap K V where
  entries := []
  sorted := List.Pairwise.nil

def get (m : OrderedMap K V) (k : K) : Option V :=
  (m.entries.find? fun e => e.1 = k).map Prod.snd

def first (m : OrderedMap K V) (range : K -> Bool) : Option (K × V) :=
  m.entries.find? fun e => range e.1

def keep (m : OrderedMap K V) (test : K -> Bool) : OrderedMap K V where
  entries := m.entries.filter fun e => test e.1
  sorted := m.sorted.filter _

def remove (m : OrderedMap K V) (k : K) : OrderedMap K V :=
  m.keep fun k' => k' ≠ k

def insertEntry (k : K) (v : V) : List (K × V) -> List (K × V)
  | [] => [(k, v)]
  | e :: es =>
    if k < e.1 then (k, v) :: e :: es
    else if e.1 < k then e :: insertEntry k v es
    else (k, v) :: es

variable {es : List (K × V)}

theorem mem_insertEntry {k : K} {v : V} {e : K × V} (h : e ∈ insertEntry k v es) :
    e = (k, v) ∨ e ∈ es := by
  induction es with
  | nil =>
    exact .inl (mem_singleton.mp h)
  | cons e' es ih =>
    simp only [insertEntry] at h
    split at h
    · exact mem_cons.mp h
    · split at h
      · rcases mem_cons.mp h with heq | hmem
        · exact .inr (heq ▸ mem_cons_self)
        · exact (ih hmem).imp_right (mem_cons_of_mem e')
      · exact (mem_cons.mp h).imp_right (mem_cons_of_mem e')

theorem insertEntry_sorted (k : K) (v : V) (h : es.Pairwise fun a b => a.1 < b.1) :
    (insertEntry k v es).Pairwise fun a b => a.1 < b.1 := by
  induction es with
  | nil =>
    exact pairwise_singleton _ _
  | cons e es ih =>
    obtain ⟨hfirst, hrest⟩ := pairwise_cons.mp h
    simp only [insertEntry]
    split
    · rename_i hlt
      apply pairwise_cons.mpr
      refine ⟨?_, h⟩
      intro e' he'
      rcases mem_cons.mp he' with heq | hmem
      · rw [heq]
        exact hlt
      · exact hlt.trans (hfirst e' hmem)
    · rename_i hle
      split
      · rename_i hgt
        apply pairwise_cons.mpr
        refine ⟨?_, ih hrest⟩
        intro e' he'
        rcases mem_insertEntry he' with heq | hmem
        · rw [heq]
          exact hgt
        · exact hfirst e' hmem
      · rename_i hge
        have hkey : e.1 = k := le_antisymm (not_lt.mp hle) (not_lt.mp hge)
        apply pairwise_cons.mpr
        refine ⟨?_, hrest⟩
        intro e' he'
        rw [← hkey]
        exact hfirst e' he'

def insert (m : OrderedMap K V) (k : K) (v : V) : OrderedMap K V where
  entries := insertEntry k v m.entries
  sorted := insertEntry_sorted k v m.sorted

/-!
## Reading
-/

theorem find_key_iff (hsorted : es.Pairwise fun a b => a.1 < b.1) (k : K) (v : V) :
    (es.find? fun e => e.1 = k).map Prod.snd = some v ↔ (k, v) ∈ es := by
  induction es with
  | nil =>
    simp
  | cons e es ih =>
    obtain ⟨hfirst, hrest⟩ := pairwise_cons.mp hsorted
    by_cases hkey : e.1 = k
    · rw [find?_cons_of_pos (by simpa using hkey), mem_cons]
      constructor
      · intro h
        left
        rw [← hkey, ← Option.some.inj h]
      · rintro (heq | hmem)
        · rw [← heq]
          rfl
        · exact absurd (hkey ▸ hfirst (k, v) hmem) (lt_irrefl k)
    · rw [find?_cons_of_neg (by simpa using hkey), mem_cons, ih hrest]
      constructor
      · exact .inr
      · rintro (heq | hmem)
        · exact absurd (congrArg Prod.fst heq).symm hkey
        · exact hmem

variable {m : OrderedMap K V} {k : K} {v : V}

theorem get_eq_some_iff : m.get k = some v ↔ (k, v) ∈ m.entries :=
  find_key_iff m.sorted k v

theorem get_eq_none_iff : m.get k = none ↔ forall v, (k, v) ∉ m.entries := by
  constructor
  · intro h v hmem
    rw [get_eq_some_iff.mpr hmem] at h
    cases h
  · intro h
    cases hget : m.get k with
    | none => rfl
    | some v => exact absurd (get_eq_some_iff.mp hget) (h v)

theorem get_keep (m : OrderedMap K V) (test : K -> Bool) (k : K) :
    (m.keep test).get k = if test k then m.get k else none := by
  apply Option.ext
  intro v
  rw [get_eq_some_iff]
  show (k, v) ∈ m.entries.filter (fun e => test e.1) ↔ _
  rw [mem_filter]
  cases htest : test k with
  | false => simp
  | true => simp [get_eq_some_iff]

theorem get_remove (m : OrderedMap K V) (k k' : K) :
    (m.remove k).get k' = if k' = k then none else m.get k' := by
  rw [remove, get_keep]
  simp

/-!
## Insertion
-/

theorem insertEntry_perm (k : K) (v : V) (hsorted : es.Pairwise fun a b => a.1 < b.1) :
    (insertEntry k v es).Perm ((k, v) :: es.filter fun e => e.1 ≠ k) := by
  induction es with
  | nil =>
    exact List.Perm.refl _
  | cons e es ih =>
    obtain ⟨hfirst, hrest⟩ := pairwise_cons.mp hsorted
    simp only [insertEntry]
    split
    · rename_i hlt
      have hall : (e :: es).filter (fun e => e.1 ≠ k) = e :: es := by
        apply filter_eq_self.mpr
        intro e' he'
        rcases mem_cons.mp he' with heq | hmem
        · simpa [heq] using ne_of_gt hlt
        · simpa using ne_of_gt (hlt.trans (hfirst e' hmem))
      rw [hall]
    · rename_i hle
      split
      · rename_i hgt
        rw [filter_cons_of_pos (by simpa using ne_of_lt hgt)]
        exact ((ih hrest).cons e).trans (List.Perm.swap (k, v) e _)
      · rename_i hge
        have hkey : e.1 = k := le_antisymm (not_lt.mp hle) (not_lt.mp hge)
        have hall : es.filter (fun e => e.1 ≠ k) = es := by
          apply filter_eq_self.mpr
          intro e' he'
          simpa using ne_of_gt (hkey ▸ hfirst e' he')
        rw [filter_cons_of_neg (by simpa using hkey), hall]

theorem entries_insert (m : OrderedMap K V) (k : K) (v : V) :
    (m.insert k v).entries.Perm ((k, v) :: (m.remove k).entries) :=
  insertEntry_perm k v m.sorted

theorem get_insert (m : OrderedMap K V) (k k' : K) (v : V) :
    (m.insert k v).get k' = if k' = k then some v else m.get k' := by
  apply Option.ext
  intro w
  rw [get_eq_some_iff, (m.entries_insert k v).mem_iff, mem_cons, ← get_eq_some_iff,
    get_remove]
  by_cases hkey : k' = k
  · simp [hkey, eq_comm]
  · simp [hkey]

/-!
## Weights
-/

def weight (size : V -> Nat) (m : OrderedMap K V) : Nat :=
  (m.entries.map fun e => size e.2).sum

theorem weight_insert (size : V -> Nat) (m : OrderedMap K V) (k : K) (v : V) :
    (m.insert k v).weight size = size v + (m.remove k).weight size := by
  rw [weight, ((m.entries_insert k v).map _).sum_eq]
  rfl

theorem weight_remove_of_none (size : V -> Nat) (h : m.get k = none) :
    (m.remove k).weight size = m.weight size := by
  have hall : (m.remove k).entries = m.entries := by
    apply filter_eq_self.mpr
    intro e he
    have hne : e.1 ≠ k := by
      intro heq
      exact get_eq_none_iff.mp h e.2 (heq ▸ he)
    simpa using hne
  rw [weight, weight, hall]

theorem filter_key_perm (hsorted : es.Pairwise fun a b => a.1 < b.1) (h : (k, v) ∈ es) :
    es.Perm ((k, v) :: es.filter fun e => e.1 ≠ k) := by
  induction es with
  | nil =>
    cases h
  | cons e es ih =>
    obtain ⟨hfirst, hrest⟩ := pairwise_cons.mp hsorted
    rcases mem_cons.mp h with heq | hmem
    · have hall : es.filter (fun e => e.1 ≠ k) = es := by
        apply filter_eq_self.mpr
        intro e' he'
        have hlt := hfirst e' he'
        rw [← heq] at hlt
        simpa using ne_of_gt hlt
      rw [filter_cons_of_neg (by simp [← heq]), hall, heq]
    · rw [filter_cons_of_pos (by simpa using ne_of_lt (hfirst (k, v) hmem))]
      exact ((ih hrest hmem).cons e).trans (List.Perm.swap (k, v) e _)

theorem weight_remove_of_some (size : V -> Nat) (h : m.get k = some v) :
    m.weight size = size v + (m.remove k).weight size := by
  have hperm : m.entries.Perm ((k, v) :: (m.remove k).entries) :=
    filter_key_perm m.sorted (get_eq_some_iff.mp h)
  rw [weight, (hperm.map _).sum_eq]
  rfl

/-!
## Draining a range
-/

theorem first_mem {range : K -> Bool} {e : K × V} (h : m.first range = some e) :
    e ∈ m.entries ∧ range e.1 = true := by
  have hrange := find?_some h
  exact ⟨mem_of_find?_eq_some h, hrange⟩

theorem first_le {range : K -> Bool} {e e' : K × V} (h : m.first range = some e)
    (hmem : e' ∈ m.entries) (hrange : range e'.1 = true) : e.1 ≤ e'.1 := by
  obtain ⟨hprop, before, after, hsplit, hbefore⟩ := find?_eq_some_iff_append.mp h
  have hsorted := m.sorted
  rw [hsplit] at hsorted hmem
  rcases mem_append.mp hmem with hin | hin
  · have hout := hbefore e' hin
    simp [hrange] at hout
  · rcases mem_cons.mp hin with heq | hlater
    · rw [heq]
    · exact le_of_lt ((pairwise_cons.mp (pairwise_append.mp hsorted).2.1).1 e' hlater)

theorem first_none {range : K -> Bool} (h : m.first range = none) {e : K × V}
    (hmem : e ∈ m.entries) : range e.1 = false := by
  have hall := find?_eq_none.mp h e hmem
  simpa using hall

theorem ext {m m' : OrderedMap K V} (h : m.entries = m'.entries) : m = m' := by
  cases m
  cases m'
  cases h
  rfl

theorem keep_all {test : K -> Bool} (h : forall e, e ∈ m.entries -> test e.1 = true) :
    m.keep test = m :=
  ext (filter_eq_self.mpr h)

theorem keep_remove {test : K -> Bool} (h : test k = false) :
    (m.remove k).keep test = m.keep test := by
  apply ext
  show filter _ (filter _ m.entries) = filter _ m.entries
  rw [filter_filter]
  apply filter_congr
  intro e _
  by_cases hkey : e.1 = k
  · simp [hkey, h]
  · simp [hkey]

theorem size_remove_lt (hmem : (k, v) ∈ m.entries) :
    (m.remove k).entries.length < m.entries.length := by
  have hperm := filter_key_perm m.sorted hmem
  rw [hperm.length_eq]
  exact Nat.lt_succ_self _

end OrderedMap
end FrpRs
