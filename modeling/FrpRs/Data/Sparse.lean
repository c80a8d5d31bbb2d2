import FrpRs.Data.Table
import Mathlib.Data.Finset.Basic
import Mathlib.Logic.Function.Basic

/-!
# Sparse tables

A table that is meant to tabulate a function keeps only the entries that say
something: counts above zero, sets with an element, tables with an entry.  The
operations below count up and down and add to and remove from the stored sets, and
drop an entry as soon as it becomes vacant.
-/

namespace FrpRs
namespace Sparse

variable {J K V W A : Type} [DecidableEq J] [DecidableEq K]

/-- The table holds the function: a key whose value is vacant has no entry, and
every other key has an entry that stands for its value. -/
def Tabulates (stands : V -> W -> Prop) (vacant : W -> Prop) (t : Table K V)
    (f : K -> W) : Prop :=
  forall k, (vacant (f k) ∧ t.lookup k = none) ∨
    (¬ vacant (f k) ∧ exists v, t.lookup k = some v ∧ stands v (f k))

def Counts (t : Table K Nat) (f : K -> Nat) : Prop :=
  Tabulates Eq (fun n => n = 0) t f

def Sets (t : Table K (Finset A)) (f : K -> Finset A) : Prop :=
  Tabulates Eq (fun s => s = ∅) t f

def SetTables (t : Table J (Table K (Finset A))) (f : J -> K -> Finset A) : Prop :=
  Tabulates Sets (fun g => forall k, g k = ∅) t f

variable {stands : V -> W -> Prop} {vacant : W -> Prop}

theorem tabulates_empty {f : K -> W} (h : forall k, vacant (f k)) :
    Tabulates stands vacant (∅ : Table K V) f := by
  intro k
  exact .inl ⟨h k, AList.lookup_empty k⟩

variable {k : K}

theorem tabulates_insert {t : Table K V} {f g : K -> W} {v : V} (h : Tabulates stands vacant t f)
    (hne : ¬ vacant (g k)) (hv : stands v (g k)) (hsame : forall a, a ≠ k -> g a = f a) :
    Tabulates stands vacant (t.insert k v) g := by
  intro a
  by_cases ha : a = k
  · rw [ha]
    exact .inr ⟨hne, v, AList.lookup_insert t, hv⟩
  · rw [AList.lookup_insert_ne ha, hsame a ha]
    exact h a

theorem tabulates_erase {t : Table K V} {f g : K -> W} (h : Tabulates stands vacant t f)
    (hvacant : vacant (g k)) (hsame : forall a, a ≠ k -> g a = f a) :
    Tabulates stands vacant (t.erase k) g := by
  intro a
  by_cases ha : a = k
  · rw [ha]
    exact .inl ⟨hvacant, AList.lookup_erase k t⟩
  · rw [AList.lookup_erase_ne ha, hsame a ha]
    exact h a

theorem tabulates_some {t : Table K V} {f : K -> W} {v : V} (h : Tabulates stands vacant t f)
    (hv : t.lookup k = some v) : ¬ vacant (f k) ∧ stands v (f k) := by
  cases h k with
  | inl hnone =>
    rw [hnone.2] at hv
    cases hv
  | inr hsome =>
    obtain ⟨hne, w, hw, hstands⟩ := hsome
    rw [hv] at hw
    cases hw
    exact ⟨hne, hstands⟩

theorem tabulates_none {t : Table K V} {f : K -> W} (h : Tabulates stands vacant t f)
    (hv : t.lookup k = none) : vacant (f k) := by
  cases h k with
  | inl hnone =>
    exact hnone.1
  | inr hsome =>
    obtain ⟨_, w, hw, _⟩ := hsome
    rw [hv] at hw
    cases hw

theorem counts_getD {t : Table K Nat} {f : K -> Nat} (h : Counts t f) (k : K) :
    (t.lookup k).getD 0 = f k := by
  cases hk : t.lookup k with
  | none => exact (tabulates_none h hk).symm
  | some n => exact (tabulates_some h hk).2

theorem sets_getD {t : Table K (Finset A)} {f : K -> Finset A} (h : Sets t f) (k : K) :
    (t.lookup k).getD ∅ = f k := by
  cases hk : t.lookup k with
  | none => exact (tabulates_none h hk).symm
  | some s => exact (tabulates_some h hk).2

variable {t : Table J (Table K (Finset A))}

theorem setTables_getD {f : J -> K -> Finset A} (h : SetTables t f) (j : J) :
    Sets ((t.lookup j).getD ∅) (f j) := by
  cases hj : t.lookup j with
  | none => exact tabulates_empty (tabulates_none h hj)
  | some s => exact (tabulates_some h hj).2

theorem sets_isEmpty {t : Table K (Finset A)} {f : K -> Finset A} (h : Sets t f) :
    t.entries.isEmpty = true ↔ forall k, f k = ∅ := by
  rw [List.isEmpty_iff]
  constructor
  · intro hnil k
    have ht : t = ∅ := AList.ext hnil
    apply tabulates_none h
    rw [ht]
    exact AList.lookup_empty k
  · intro hall
    apply List.eq_nil_iff_forall_not_mem.mpr
    intro e he
    have hlook : t.lookup e.1 = some e.2 := AList.mem_lookup_iff.mpr he
    exact (tabulates_some h hlook).1 (hall e.1)

/-!
## Counting
-/

def bump (k : K) (t : Table K Nat) : Table K Nat :=
  t.insert k ((t.lookup k).getD 0 + 1)

/-- Counts one down; the flag says that the count has just reached zero and the
entry is gone. -/
def release (k : K) (t : Table K Nat) : Bool × Table K Nat :=
  match t.lookup k with
  | none => (false, t)
  | some n => if n - 1 = 0 then (true, t.erase k) else (false, t.insert k (n - 1))

theorem counts_bump {t : Table K Nat} {f g : K -> Nat} (h : Counts t f) (hk : g k = f k + 1)
    (hsame : forall a, a ≠ k -> g a = f a) :
    Counts (bump k t) g := by
  apply tabulates_insert h _ _ hsame
  · rw [hk]
    exact Nat.succ_ne_zero (f k)
  · rw [counts_getD h, hk]

theorem release_eq {t : Table K Nat} {f : K -> Nat} (h : Counts t f) (hk : f k ≠ 0) :
    release k t =
      if f k - 1 = 0 then (true, t.erase k) else (false, t.insert k (f k - 1)) := by
  unfold release
  cases hlook : t.lookup k with
  | none =>
    exact absurd (tabulates_none h hlook) hk
  | some n =>
    have hn := (tabulates_some h hlook).2
    rw [← hn]

theorem counts_release {t : Table K Nat} {f g : K -> Nat} (h : Counts t f) (hk : f k = g k + 1)
    (hsame : forall a, a ≠ k -> g a = f a) :
    (release k t).1 = decide (g k = 0) ∧ Counts (release k t).2 g := by
  have hpred : f k - 1 = g k := by rw [hk, Nat.add_sub_cancel]
  rw [release_eq h (by rw [hk]; exact Nat.succ_ne_zero _), hpred]
  by_cases hzero : g k = 0
  · rw [if_pos hzero, decide_eq_true hzero]
    exact ⟨rfl, tabulates_erase h hzero hsame⟩
  · rw [if_neg hzero, decide_eq_false hzero]
    exact ⟨rfl, tabulates_insert h hzero rfl hsame⟩

/-!
## Sets
-/

variable [DecidableEq A]

def addTo (k : K) (a : A) (t : Table K (Finset A)) : Table K (Finset A) :=
  t.insert k (insert a ((t.lookup k).getD ∅))

def removeFrom (k : K) (a : A) (t : Table K (Finset A)) : Table K (Finset A) :=
  match t.lookup k with
  | none => t
  | some s => if s.erase a = ∅ then t.erase k else t.insert k (s.erase a)

theorem sets_lookup {t : Table K (Finset A)} {f : K -> Finset A} (h : Sets t f) (k : K) :
    t.lookup k = if f k = ∅ then none else some (f k) := by
  cases hk : t.lookup k with
  | none => rw [if_pos (tabulates_none h hk)]
  | some s =>
    have hs := tabulates_some h hk
    rw [if_neg hs.1, hs.2]

variable {a : A}

theorem sets_addTo {t : Table K (Finset A)} {f g : K -> Finset A} (h : Sets t f)
    (hk : g k = insert a (f k)) (hsame : forall b, b ≠ k -> g b = f b) :
    Sets (addTo k a t) g := by
  apply tabulates_insert h _ _ hsame
  · rw [hk]
    exact Finset.insert_ne_empty a (f k)
  · rw [sets_getD h, hk]

theorem sets_removeFrom {t : Table K (Finset A)} {f g : K -> Finset A} (h : Sets t f)
    (hk : g k = (f k).erase a) (hsame : forall b, b ≠ k -> g b = f b) :
    Sets (removeFrom k a t) g := by
  unfold removeFrom
  cases hlook : t.lookup k with
  | none =>
    have hempty := tabulates_none h hlook
    have hfg : g = f := by
      funext b
      by_cases hb : b = k
      · rw [hb, hk, hempty, Finset.erase_empty]
      · exact hsame b hb
    rw [hfg]
    exact h
  | some s =>
    have hs := (tabulates_some h hlook).2
    simp only [hs, ← hk]
    by_cases hempty : g k = ∅
    · rw [if_pos hempty]
      exact tabulates_erase h hempty hsame
    · rw [if_neg hempty]
      exact tabulates_insert h hempty rfl hsame

theorem sets_unless_kept {t : Table K (Finset A)} {f g : K -> Finset A} (h : Sets t f)
    (hk : f k = insert a (g k)) (hsame : forall b, b ≠ k -> g b = f b) :
    Sets (if a ∉ g k then removeFrom k a t else t) g := by
  by_cases hgone : a ∉ g k
  · rw [if_pos hgone]
    apply sets_removeFrom h _ hsame
    rw [hk, Finset.erase_insert hgone]
  · rw [if_neg hgone]
    have hfg : g = f := by
      funext b
      by_cases hb : b = k
      · rw [hb, hk, Finset.insert_eq_of_mem (not_not.mp hgone)]
      · exact hsame b hb
    rw [hfg]
    exact h

/-!
## Tables of tables of sets
-/

def addToIn (j : J) (k : K) (a : A) (t : Table J (Table K (Finset A))) :
    Table J (Table K (Finset A)) :=
  t.insert j (addTo k a ((t.lookup j).getD ∅))

def removeFromIn (j : J) (k : K) (a : A) (t : Table J (Table K (Finset A))) :
    Table J (Table K (Finset A)) :=
  match t.lookup j with
  | none => t
  | some s =>
    let s := removeFrom k a s
    if s.entries.isEmpty then t.erase j else t.insert j s

theorem setTables_lookup {f : J -> K -> Finset A} (h : SetTables t f) (j : J) (k : K) :
    (t.lookup j).bind (AList.lookup k) = if f j k = ∅ then none else some (f j k) := by
  rw [← sets_lookup (setTables_getD h j) k]
  cases t.lookup j with
  | none =>
    rw [Option.bind_none, Option.getD_none, AList.lookup_empty]
  | some s => rfl

variable {f g : J -> K -> Finset A}

theorem setTables_addToIn {j : J} (h : SetTables t f) (hk : g j k = insert a (f j k))
    (hrow : forall b, b ≠ k -> g j b = f j b) (hsame : forall i, i ≠ j -> g i = f i) :
    SetTables (addToIn j k a t) g := by
  apply tabulates_insert h _ _ hsame
  · intro hempty
    have hnone := hempty k
    rw [hk] at hnone
    exact Finset.insert_ne_empty a (f j k) hnone
  · exact sets_addTo (setTables_getD h j) hk hrow

theorem setTables_removeFromIn {j : J} (h : SetTables t f) (hk : g j k = (f j k).erase a)
    (hrow : forall b, b ≠ k -> g j b = f j b) (hsame : forall i, i ≠ j -> g i = f i) :
    SetTables (removeFromIn j k a t) g := by
  unfold removeFromIn
  cases hlook : t.lookup j with
  | none =>
    have hempty := tabulates_none h hlook
    have hfg : g = f := by
      funext i b
      by_cases hi : i = j
      · rw [hi]
        by_cases hb : b = k
        · rw [hb, hk, hempty k, Finset.erase_empty]
        · exact hrow b hb
      · rw [hsame i hi]
    rw [hfg]
    exact h
  | some s =>
    have hs : Sets (removeFrom k a s) (g j) :=
      sets_removeFrom (tabulates_some h hlook).2 hk hrow
    simp only
    by_cases hempty : forall b, g j b = ∅
    · rw [if_pos ((sets_isEmpty hs).mpr hempty)]
      exact tabulates_erase h hempty hsame
    · rw [if_neg (mt (sets_isEmpty hs).mp hempty)]
      exact tabulates_insert h hempty hs hsame

theorem setTables_unless_kept {j : J} (h : SetTables t f) (hk : f j k = insert a (g j k))
    (hrow : forall b, b ≠ k -> g j b = f j b) (hsame : forall i, i ≠ j -> g i = f i) :
    SetTables (if a ∉ g j k then removeFromIn j k a t else t) g := by
  by_cases hgone : a ∉ g j k
  · rw [if_pos hgone]
    apply setTables_removeFromIn h _ hrow hsame
    rw [hk, Finset.erase_insert hgone]
  · rw [if_neg hgone]
    have hfg : g = f := by
      funext i b
      by_cases hi : i = j
      · rw [hi]
        by_cases hb : b = k
        · rw [hb, hk, Finset.insert_eq_of_mem (not_not.mp hgone)]
        · exact hrow b hb
      · rw [hsame i hi]
    rw [hfg]
    exact h

end Sparse
end FrpRs
