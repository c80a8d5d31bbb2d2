import Mathlib.Algebra.BigOperators.Group.List.Basic
import Mathlib.Algebra.Order.Ring.Nat
import Mathlib.Data.List.AList

/-!
# Tables

A hash map is an association list with distinct keys.  Beside insertion and removal,
a table can keep the entries that pass a test.
-/

namespace FrpRs

open List

abbrev Table (K V : Type) := AList fun _ : K => V

namespace Table

variable {K V : Type}

def retain (keep : K -> V -> Bool) (t : Table K V) : Table K V where
  entries := t.entries.filter fun e => keep e.1 e.2
  nodupKeys := by
    exact List.NodupKeys.sublist (filter_sublist) t.nodupKeys

def size (t : Table K V) : Nat :=
  t.entries.length

/-- Every value is replaced; the keys stay. -/
def mapValues (f : K -> V -> V) (t : Table K V) : Table K V where
  entries := t.entries.map fun e => ⟨e.1, f e.1 e.2⟩
  nodupKeys := by
    have hkeys : keys (t.entries.map fun e => (⟨e.1, f e.1 e.2⟩ : Sigma fun _ : K => V))
        = t.entries.keys := by
      simp [keys]
    rw [List.NodupKeys, hkeys]
    exact t.nodupKeys

variable [DecidableEq K]

theorem lookup_retain (keep : K -> V -> Bool) (t : Table K V) (k : K) :
    (t.retain keep).lookup k = (t.lookup k).filter (keep k) := by
  apply Option.ext
  intro v
  have hretained := AList.mem_lookup_iff (a := k) (b := v) (s := t.retain keep)
  have hall := AList.mem_lookup_iff (a := k) (b := v) (s := t)
  rw [Option.mem_def] at hretained hall
  rw [hretained, Option.filter_eq_some_iff, hall]
  exact mem_filter

theorem lookup_mapValues (f : K -> V -> V) (t : Table K V) (k : K) :
    (t.mapValues f).lookup k = (t.lookup k).map (f k) := by
  apply Option.ext
  intro v
  have hmapped := AList.mem_lookup_iff (a := k) (b := v) (s := t.mapValues f)
  rw [Option.mem_def] at hmapped
  rw [hmapped, Option.map_eq_some_iff]
  constructor
  · intro hmem
    obtain ⟨e, he, heq⟩ := mem_map.mp hmem
    cases heq
    exact ⟨e.2, AList.mem_lookup_iff.mpr he, rfl⟩
  · rintro ⟨old, hold, rfl⟩
    exact mem_map.mpr ⟨⟨k, old⟩, AList.mem_lookup_iff.mp hold, rfl⟩

theorem lookup_insert_eq (t : Table K V) (k a : K) (v : V) :
    (t.insert k v).lookup a = if a = k then some v else t.lookup a := by
  split
  · rename_i h
    rw [h, AList.lookup_insert]
  · rename_i h
    exact AList.lookup_insert_ne h

theorem lookup_erase_eq (t : Table K V) (k a : K) :
    (t.erase k).lookup a = if a = k then none else t.lookup a := by
  split
  · rename_i h
    rw [h, AList.lookup_erase]
  · rename_i h
    exact AList.lookup_erase_ne h

variable {t : Table K V}

theorem lookup_erase_insert {k : K} (h : t.lookup k = none) (v : V) (a : K) :
    ((t.insert k v).erase k).lookup a = t.lookup a := by
  rw [lookup_erase_eq, lookup_insert_eq]
  split
  · rename_i ha
    rw [ha, h]
  · rfl

/-!
## Entries
-/

theorem entries_insert (t : Table K V) (k : K) (v : V) :
    (t.insert k v).entries = ⟨k, v⟩ :: (t.erase k).entries := rfl

theorem entries_erase_of_none {k : K} (h : t.lookup k = none) :
    (t.erase k).entries = t.entries :=
  kerase_of_notMem_keys (AList.lookup_eq_none.mp h)

theorem entries_erase_of_some {k : K} {v : V} (h : t.lookup k = some v) :
    t.entries.Perm (⟨k, v⟩ :: (t.erase k).entries) := by
  have hmem : (⟨k, v⟩ : Sigma fun _ : K => V) ∈ t.entries := AList.mem_lookup_iff.mp h
  obtain ⟨w, before, after, _, hentries, herase⟩ :=
    exists_of_kerase (mem_keys_of_mem hmem)
  have hw : t.lookup k = some w := by
    apply AList.mem_lookup_iff.mpr
    rw [hentries]
    exact mem_append_right before (mem_cons_self)
  rw [h] at hw
  cases hw
  have herased : (t.erase k).entries = before ++ after := herase
  rw [herased, hentries]
  exact perm_middle

/-!
## Size
-/

theorem size_erase_of_none {k : K} (h : t.lookup k = none) :
    size (t.erase k) = t.size := by
  rw [size, size, entries_erase_of_none h]

theorem size_erase_of_some {k : K} {v : V} (h : t.lookup k = some v) :
    size (t.erase k) + 1 = t.size :=
  (entries_erase_of_some h).length_eq.symm

theorem size_insert (t : Table K V) (k : K) (v : V) :
    size (t.insert k v) = size (t.erase k) + 1 := rfl

theorem isEmpty_iff_lookup :
    t.entries.isEmpty = true ↔ forall k, t.lookup k = none := by
  rw [List.isEmpty_iff]
  constructor
  · intro h k
    rw [AList.lookup_eq_none, AList.mem_keys, AList.keys, h]
    exact not_mem_nil
  · intro h
    rw [eq_nil_iff_forall_not_mem]
    intro e he
    have hlookup : t.lookup e.1 = some e.2 := AList.mem_lookup_iff.mpr he
    rw [h] at hlookup
    cases hlookup

theorem size_eq_one {k : K} {v : V} (h : t.lookup k = some v)
    (honly : forall k', (t.lookup k').isSome = true -> k' = k) : t.size = 1 := by
  have hempty : (t.erase k).entries.isEmpty = true := by
    rw [isEmpty_iff_lookup]
    intro k'
    rw [lookup_erase_eq]
    split
    · rfl
    · rename_i hne
      cases hlookup : t.lookup k' with
      | none => rfl
      | some v' => exact absurd (honly k' (Option.isSome_iff_exists.mpr ⟨v', hlookup⟩)) hne
  rw [← size_erase_of_some h, size, List.isEmpty_iff.mp hempty]
  rfl

theorem retain_eq_self {keep : K -> V -> Bool}
    (h : forall k v, t.lookup k = some v -> keep k v = true) : t.retain keep = t := by
  apply AList.ext
  apply filter_eq_self.mpr
  intro e he
  exact h e.1 e.2 (AList.mem_lookup_iff.mpr he)

/-!
## Weights
-/

def weight (f : K -> V -> Nat) (t : Table K V) : Nat :=
  (t.entries.map fun e => f e.1 e.2).sum

theorem weight_insert (f : K -> V -> Nat) (t : Table K V) (k : K) (v : V) :
    weight f (t.insert k v) = f k v + weight f (t.erase k) := by
  rfl

theorem weight_erase (f : K -> V -> Nat) (t : Table K V) (k : K) :
    t.weight f = ((t.lookup k).map (f k)).getD 0 + weight f (t.erase k) := by
  cases h : t.lookup k with
  | none =>
    rw [weight, weight, entries_erase_of_none h]
    exact (Nat.zero_add _).symm
  | some v =>
    rw [weight, ((entries_erase_of_some h).map _).sum_eq, map_cons, sum_cons]
    rfl

end Table
end FrpRs
