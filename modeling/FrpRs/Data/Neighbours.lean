import Mathlib.Data.List.Sort

/-!
# The last of neighbours

Of the neighbours in a list that have the same label, the last one is kept.  That leaves one
element of each label exactly if the elements of each label stand together.
-/

namespace FrpRs
namespace Neighbours

open List

variable {α β : Type}

def Together (label : α -> β) (l : List α) : Prop :=
  forall a m b, [a, m, b].Sublist l -> label a = label b -> label m = label a

variable {l : List α}

theorem Together.tail {label : α -> β} {a : α} (h : Together label (a :: l)) :
    Together label l :=
  fun a' m b hsub => h a' m b (hsub.cons a)

variable [DecidableEq β]

def lastOfRuns (label : α -> β) : List α -> List α
  | [] => []
  | [a] => [a]
  | a :: next :: rest =>
    if label a = label next then lastOfRuns label (next :: rest)
    else a :: lastOfRuns label (next :: rest)

def kept (label : α -> β) (x : β) (l : List α) : Nat :=
  (lastOfRuns label l).countP fun a => decide (label a = x)

variable {label : α -> β} {x : β}

theorem kept_singleton (a : α) : kept label x [a] = if label a = x then 1 else 0 := by
  rw [kept, lastOfRuns, countP_cons, countP_nil, Nat.zero_add]
  simp only [decide_eq_true_eq]

theorem kept_same {a next : α} {rest : List α} (h : label a = label next) :
    kept label x (a :: next :: rest) = kept label x (next :: rest) := by
  rw [kept, lastOfRuns, if_pos h]
  rfl

theorem kept_other {a next : α} {rest : List α} (h : label a ≠ label next) :
    kept label x (a :: next :: rest) =
      kept label x (next :: rest) + if label a = x then 1 else 0 := by
  rw [kept, lastOfRuns, if_neg h, countP_cons]
  simp only [decide_eq_true_eq]
  rfl

theorem lastOfRuns_sublist (l : List α) : (lastOfRuns label l).Sublist l := by
  fun_induction lastOfRuns label l with
  | case1 => exact List.Sublist.refl _
  | case2 a => exact List.Sublist.refl _
  | case3 a next rest hsame ih => exact ih.cons a
  | case4 a next rest hother ih => exact ih.cons_cons a

theorem kept_eq_zero (h : forall a, a ∈ l -> label a ≠ x) : kept label x l = 0 := by
  rw [kept, countP_eq_zero]
  intro a hmem
  have hne := h a ((lastOfRuns_sublist l).subset hmem)
  rw [decide_eq_true_eq]
  exact hne

theorem kept_pos (h : exists a, a ∈ l ∧ label a = x) : 0 < kept label x l := by
  fun_induction lastOfRuns label l with
  | case1 =>
    rcases h with ⟨a, hmem, _⟩
    cases hmem
  | case2 b =>
    rcases h with ⟨a, hmem, ha⟩
    rw [mem_singleton.mp hmem] at ha
    rw [kept_singleton, if_pos ha]
    exact Nat.one_pos
  | case3 b next rest hsame ih =>
    rw [kept_same hsame]
    apply ih
    rcases h with ⟨a, hmem, ha⟩
    rcases mem_cons.mp hmem with heq | hmem
    · refine ⟨next, mem_cons_self, ?_⟩
      rw [<- hsame, <- heq]
      exact ha
    · exact ⟨a, hmem, ha⟩
  | case4 b next rest hother ih =>
    rw [kept_other hother]
    rcases h with ⟨a, hmem, ha⟩
    rcases mem_cons.mp hmem with heq | hmem
    · rw [<- heq, if_pos ha]
      exact Nat.succ_pos _
    · exact Nat.add_pos_left (ih ⟨a, hmem, ha⟩) _

theorem kept_le_one (h : Together label l) : kept label x l ≤ 1 := by
  fun_induction lastOfRuns label l with
  | case1 => exact Nat.zero_le 1
  | case2 a =>
    rw [kept_singleton]
    split
    · exact Nat.le_refl 1
    · exact Nat.zero_le 1
  | case3 a next rest hsame ih =>
    rw [kept_same hsame]
    exact ih h.tail
  | case4 a next rest hother ih =>
    rw [kept_other hother]
    by_cases ha : label a = x
    · have hnone : kept label x (next :: rest) = 0 := by
        apply kept_eq_zero
        intro b hmem hb
        rcases mem_cons.mp hmem with heq | hmem
        · rw [heq] at hb
          exact hother (ha.trans hb.symm)
        · have hsub : [a, next, b].Sublist (a :: next :: rest) :=
            ((singleton_sublist.mpr hmem).cons_cons next).cons_cons a
          exact hother (h a next b hsub (ha.trans hb.symm)).symm
      rw [hnone, if_pos ha]
    · rw [if_neg ha]
      exact ih h.tail

theorem two_le_kept_cons {a m b : α} (ha : label a = x) (hm : label m ≠ x) (hb : label b = x)
    (hsub : [m, b].Sublist l) : 2 ≤ kept label x (a :: l) := by
  induction l generalizing a with
  | nil => cases hsub
  | cons next rest ih =>
    by_cases hsame : label a = label next
    · rw [kept_same hsame]
      have hnext : label next = x := hsame.symm.trans ha
      cases hsub with
      | cons _ hsub => exact ih hnext hsub
      | cons_cons _ hsub => exact absurd hnext hm
    · have hmem : b ∈ next :: rest := hsub.subset (mem_cons_of_mem m mem_cons_self)
      have hpos : 0 < kept label x (next :: rest) := kept_pos ⟨b, hmem, hb⟩
      rw [kept_other hsame, if_pos ha]
      omega

theorem kept_tail_le {a : α} : kept label x l ≤ kept label x (a :: l) := by
  cases l with
  | nil => exact Nat.zero_le _
  | cons next rest =>
    by_cases hsame : label a = label next
    · rw [kept_same hsame]
    · rw [kept_other hsame]
      exact Nat.le_add_right _ _

theorem two_le_kept {a m b : α} (ha : label a = x) (hm : label m ≠ x) (hb : label b = x)
    (hsub : [a, m, b].Sublist l) : 2 ≤ kept label x l := by
  induction l with
  | nil => cases hsub
  | cons c l ih =>
    cases hsub with
    | cons _ hsub => exact Nat.le_trans (ih hsub) kept_tail_le
    | cons_cons _ hsub => exact two_le_kept_cons ha hm hb hsub

theorem kept_eq_one_iff (l : List α) :
    (forall a, a ∈ l -> kept label (label a) l = 1) ↔ Together label l := by
  constructor
  · intro hone a m b hsub hlabel
    by_contra hm
    have htwo := two_le_kept rfl hm hlabel.symm hsub
    rw [hone a (hsub.subset mem_cons_self)] at htwo
    exact absurd htwo (by decide)
  · intro htogether a hmem
    have hpos : 0 < kept label (label a) l := kept_pos ⟨a, hmem, rfl⟩
    have hle : kept label (label a) l ≤ 1 := kept_le_one htogether
    omega

end Neighbours
end FrpRs
