import Mathlib.Data.List.Basic

/-!
# Ranked lists

A list in descending order of a key.  An element is put where a binary search says; among equal
keys the place is open.  The first element that passes a test is the highest one that does.
-/

namespace FrpRs
namespace Ranked

open List

variable {α : Type}

def Descending (key : α -> Nat) (l : List α) : Prop :=
  l.Pairwise fun a b => key b ≤ key a

/-- What a binary search over descending keys may answer: the place of one of the equal keys, or
the place where the key belongs. -/
structure Search where
  position : List Nat -> Nat -> Nat
  found : forall keys k, Descending id keys -> k ∈ keys -> keys[position keys k]? = some k
  absent : forall keys k, Descending id keys -> k ∉ keys ->
    position keys k ≤ keys.length ∧
      (forall i a, i < position keys k -> keys[i]? = some a -> k < a) ∧
      (forall i a, position keys k ≤ i -> keys[i]? = some a -> a < k)

variable {key : α -> Nat}
variable {l : List α}

theorem Descending.le (h : Descending key l) {i j : Nat} {a b : α} (hij : i ≤ j)
    (ha : l[i]? = some a) (hb : l[j]? = some b) : key b ≤ key a := by
  rcases Nat.eq_or_lt_of_le hij with heq | hlt
  · rw [heq, hb] at ha
    cases ha
    exact Nat.le_refl _
  · rcases List.getElem?_eq_some_iff.mp ha with ⟨hi, rfl⟩
    rcases List.getElem?_eq_some_iff.mp hb with ⟨hj, rfl⟩
    exact pairwise_iff_getElem.mp h i j hi hj hlt

theorem descending_map :
    Descending id (l.map key) ↔ Descending key l :=
  pairwise_map

/-!
## Insertion
-/

theorem Search.bounds (search : Search) {keys : List Nat} (h : Descending id keys) (k : Nat) :
    search.position keys k ≤ keys.length ∧
      (forall i a, i < search.position keys k -> keys[i]? = some a -> k ≤ a) ∧
      (forall i a, search.position keys k ≤ i -> keys[i]? = some a -> a ≤ k) := by
  by_cases hk : k ∈ keys
  · have hat := search.found keys k h hk
    refine ⟨?_, ?_, ?_⟩
    · exact Nat.le_of_lt (List.getElem?_eq_some_iff.mp hat).1
    · intro i a hi ha
      exact h.le (Nat.le_of_lt hi) ha hat
    · intro i a hi ha
      exact h.le hi hat ha
  · rcases search.absent keys k h hk with ⟨hle, hbefore, hafter⟩
    refine ⟨hle, ?_, ?_⟩
    · intro i a hi ha
      exact Nat.le_of_lt (hbefore i a hi ha)
    · intro i a hi ha
      exact Nat.le_of_lt (hafter i a hi ha)

def insert (search : Search) (key : α -> Nat) (a : α) (l : List α) : List α :=
  l.insertIdx (search.position (l.map key) (key a)) a

theorem mem_insert {search : Search} {a b : α} (h : Descending key l) :
    b ∈ insert search key a l ↔ b = a ∨ b ∈ l := by
  have hle := (search.bounds (descending_map.mpr h) (key a)).1
  rw [length_map] at hle
  exact mem_insertIdx hle

theorem insertIdx_eq (l : List α) {n : Nat} (hn : n ≤ l.length) (a : α) :
    l.insertIdx n a = l.take n ++ a :: l.drop n := by
  induction l generalizing n with
  | nil =>
    rw [Nat.le_zero.mp hn]
    rfl
  | cons b l ih =>
    cases n with
    | zero => rfl
    | succ n => rw [insertIdx_succ_cons, ih (Nat.le_of_succ_le_succ hn)]; rfl

theorem descending_insert (search : Search) (a : α) (h : Descending key l) :
    Descending key (insert search key a l) := by
  rcases search.bounds (descending_map.mpr h) (key a) with ⟨hle, hbefore, hafter⟩
  rw [insert]
  generalize search.position (l.map key) (key a) = n at hle hbefore hafter
  rw [length_map] at hle
  have hfront : forall b, b ∈ l.take n -> key a ≤ key b := by
    intro b hb
    rcases mem_iff_getElem?.mp hb with ⟨i, hi⟩
    have hlt : i < n := by
      have hbound := (List.getElem?_eq_some_iff.mp hi).1
      rw [length_take] at hbound
      omega
    rw [List.getElem?_take_of_lt hlt] at hi
    exact hbefore i (key b) hlt (by rw [List.getElem?_map, hi]; rfl)
  have hback : forall b, b ∈ l.drop n -> key b ≤ key a := by
    intro b hb
    rcases mem_iff_getElem?.mp hb with ⟨i, hi⟩
    rw [List.getElem?_drop] at hi
    exact hafter (n + i) (key b) (Nat.le_add_right n i) (by rw [List.getElem?_map, hi]; rfl)
  rw [insertIdx_eq l hle, Descending, pairwise_append]
  refine ⟨h.sublist (take_sublist n l), ?_, ?_⟩
  · rw [pairwise_cons]
    exact ⟨hback, h.sublist (drop_sublist n l)⟩
  · intro b hb c hc
    rcases mem_cons.mp hc with heq | hc
    · rw [heq]
      exact hfront b hb
    · exact Nat.le_trans (hback c hc) (hfront b hb)

/-!
## The first match
-/

theorem Descending.find_best (h : Descending key l) {test : α -> Bool} {a : α}
    (ha : l.find? test = some a) {b : α} (hb : b ∈ l) (hpass : test b = true) : key b ≤ key a := by
  rcases find?_eq_some_iff_append.mp ha with ⟨_, before, after, hl, hbefore⟩
  rw [hl] at hb h
  rcases mem_append.mp hb with hb | hb
  · have hfail := hbefore b hb
    rw [hpass] at hfail
    cases hfail
  · rcases mem_cons.mp hb with heq | hb
    · exact Nat.le_of_eq (congrArg key heq)
    · exact (pairwise_cons.mp (pairwise_append.mp h).2.1).1 b hb

/-- The search that takes the first place. -/
def Search.first : Search where
  position := fun keys k => keys.findIdx fun a => a ≤ k
  found := by
    intro keys k h hk
    have hlt : keys.findIdx (fun a => decide (a ≤ k)) < keys.length :=
      findIdx_lt_length.mpr ⟨k, hk, decide_eq_true (Nat.le_refl k)⟩
    have hat := List.getElem?_eq_getElem hlt
    have hle := of_decide_eq_true (findIdx_getElem (w := hlt))
    rcases mem_iff_getElem?.mp hk with ⟨j, hj⟩
    have hfirst : keys.findIdx (fun a => decide (a ≤ k)) ≤ j := by
      refine Nat.le_of_not_lt fun hbefore => ?_
      rcases List.getElem?_eq_some_iff.mp hj with ⟨hbound, hval⟩
      have hfails := not_of_lt_findIdx hbefore
      rw [hval] at hfails
      exact of_decide_eq_false hfails (Nat.le_refl k)
    rw [hat]
    exact congrArg some (Nat.le_antisymm hle (h.le hfirst hat hj))
  absent := by
    intro keys k h hk
    refine ⟨findIdx_le_length, ?_, ?_⟩
    · intro i a hi ha
      rcases List.getElem?_eq_some_iff.mp ha with ⟨hbound, hval⟩
      have hfails := not_of_lt_findIdx hi
      rw [hval] at hfails
      exact Nat.lt_of_not_le (of_decide_eq_false hfails)
    · intro i a hi ha
      have hlt := Nat.lt_of_le_of_lt hi (List.getElem?_eq_some_iff.mp ha).1
      have hle := of_decide_eq_true (findIdx_getElem (w := hlt))
      have hbelow : a ≤ k := Nat.le_trans (h.le hi (List.getElem?_eq_getElem hlt) ha) hle
      refine Nat.lt_of_le_of_ne hbelow fun heq => hk ?_
      rw [<- heq]
      exact mem_of_getElem? ha

end Ranked
end FrpRs
