import Mathlib.Data.List.Nodup

/-!
# Replaying names

Keys are replayed in turn over a set of names: each drops one name and adds another.  A name is
held in the end if the last key that concerns it adds it.
-/

namespace FrpRs
namespace Replay

open List

variable {α : Type}

/-!
## Order in a list
-/

theorem pair_sublist_of_mem {a b : α} {before : List α} (after : List α) (h : a ∈ before) :
    List.Sublist [a, b] (before ++ b :: after) := by
  have hhead : List.Sublist [a] before := singleton_sublist.mpr h
  have htail : List.Sublist [b] (b :: after) := singleton_sublist.mpr mem_cons_self
  exact List.Sublist.append hhead htail

theorem not_mem_after {a b : α} {before after : List α} (hnodup : (before ++ b :: after).Nodup)
    (hpair : List.Sublist [a, b] (before ++ b :: after)) : a ∉ after := by
  intro ha
  have hrest : (b :: after).Nodup := (nodup_append.mp hnodup).2.1
  have hbefore : a ∉ before := fun hmem =>
    (nodup_append.mp hnodup).2.2 a hmem a (mem_cons_of_mem b ha) rfl
  obtain ⟨xs, ys, heq, hxs, hys⟩ := sublist_append_iff.mp hpair
  cases xs with
  | nil =>
    rw [nil_append] at heq
    rw [← heq] at hys
    have hne : a ≠ b := fun hab => (nodup_cons.mp hrest).1 (hab ▸ ha)
    cases hys with
    | cons _ hsub =>
      exact (nodup_cons.mp hrest).1 (hsub.subset (mem_cons_of_mem a mem_cons_self))
    | cons_cons _ hsub => exact hne rfl
  | cons x xs =>
    rw [cons_append, cons.injEq] at heq
    rw [← heq.1] at hxs
    exact hbefore (hxs.subset mem_cons_self)

/-!
## Replays
-/

theorem mem_foldl_add (opened : α -> α) (keys held : List α) (x : α) :
    x ∈ keys.foldl (fun held key => opened key :: held) held ↔
      x ∈ held ∨ exists key, key ∈ keys ∧ opened key = x := by
  induction keys generalizing held with
  | nil => simp
  | cons first rest ih =>
    rw [foldl_cons, ih, mem_cons, exists_mem_cons_iff, or_assoc, or_left_comm,
      @eq_comm _ x]

variable [DecidableEq α]

def replay (closed opened : α -> α) (held : List α) (keys : List α) : List α :=
  keys.foldl (fun held key => opened key :: held.filter fun x => x ≠ closed key) held

theorem mem_replay (closed opened : α -> α) (keys : List α) :
    forall (held : List α) (x : α), x ∈ replay closed opened held keys ↔
      (x ∈ held ∧ forall key, key ∈ keys -> closed key ≠ x) ∨
        exists before key after, keys = before ++ key :: after ∧ opened key = x ∧
          forall later, later ∈ after -> closed later ≠ x := by
  induction keys with
  | nil =>
    intro held x
    simp [replay]
  | cons first rest ih =>
    intro held x
    change x ∈ replay closed opened _ rest ↔ _
    rw [ih, mem_cons, mem_filter, decide_eq_true_eq]
    constructor
    · rintro (⟨rfl | ⟨hheld, hne⟩, hrest⟩ | ⟨before, key, after, rfl, hopened, hafter⟩)
      · exact .inr ⟨[], first, rest, rfl, rfl, hrest⟩
      · exact .inl ⟨hheld, forall_mem_cons.mpr ⟨Ne.symm hne, hrest⟩⟩
      · exact .inr ⟨first :: before, key, after, rfl, hopened, hafter⟩
    · rintro (⟨hheld, hall⟩ | ⟨before, key, after, heq, hopened, hafter⟩)
      · obtain ⟨hne, hrest⟩ := forall_mem_cons.mp hall
        exact .inl ⟨.inr ⟨hheld, Ne.symm hne⟩, hrest⟩
      · cases before with
        | nil =>
          cases heq
          exact .inl ⟨.inl hopened.symm, hafter⟩
        | cons b before =>
          cases heq
          exact .inr ⟨before, key, after, rfl, hopened, hafter⟩

theorem mem_foldl_drop (closed : α -> α) (keys held : List α) (x : α) :
    x ∈ keys.foldl (fun held key => held.filter fun y => y ≠ closed key) held ↔
      x ∈ held ∧ forall key, key ∈ keys -> closed key ≠ x := by
  induction keys generalizing held with
  | nil => simp
  | cons first rest ih =>
    rw [foldl_cons, ih, mem_filter, decide_eq_true_eq, forall_mem_cons, and_assoc,
      ne_comm]

/-- A name that only two keys concern: one that drops it, and one that adds it. -/
theorem mem_replay_iff_pair {closed opened : α -> α} {keys held : List α} {key : α}
    (hnodup : keys.Nodup) (hinj : Function.Injective opened) (hne : opened key ≠ key)
    (hheld : opened key ∈ held) (hself : closed (opened key) = opened key)
    (honly : forall other, other ∈ keys -> closed other = opened key ->
      other = opened key ∨ other = key) :
    opened key ∈ replay closed opened held keys ↔
      (opened key ∈ keys -> List.Sublist [opened key, key] keys) := by
  rw [mem_replay]
  constructor
  · rintro (⟨_, hall⟩ | ⟨before, other, after, heq, hopened, hafter⟩) hmem
    · exact absurd hself (hall _ hmem)
    · cases hinj hopened
      rw [heq] at hmem ⊢
      have hbefore : opened key ∈ before := by
        obtain hbefore | hrest := mem_append.mp hmem
        · exact hbefore
        · obtain heq' | hlater := mem_cons.mp hrest
          · exact absurd heq' hne
          · exact absurd hself (hafter _ hlater)
      exact pair_sublist_of_mem after hbefore
  · intro hpair
    by_cases hkey : key ∈ keys
    · obtain ⟨before, after, heq⟩ := append_of_mem hkey
      refine .inr ⟨before, key, after, heq, rfl, ?_⟩
      intro later hlater hclosed
      have hmem : later ∈ keys := by
        rw [heq]
        exact mem_append_right before (mem_cons_of_mem key hlater)
      have hnodup' := hnodup
      rw [heq] at hnodup'
      obtain hopened | hsame := honly later hmem hclosed
      · have hsub := hpair (hopened ▸ hmem)
        rw [heq] at hsub
        exact not_mem_after hnodup' hsub (hopened ▸ hlater)
      · have hrest : (key :: after).Nodup := (nodup_append.mp hnodup').2.1
        exact (nodup_cons.mp hrest).1 (hsame ▸ hlater)
    · refine .inl ⟨hheld, ?_⟩
      intro other hother hclosed
      obtain hopened | hsame := honly other hother hclosed
      · exact hkey ((hpair (hopened ▸ hother)).subset (mem_cons_of_mem _ mem_cons_self))
      · exact hkey (hsame ▸ hother)

theorem mem_replay_of_closed_eq {closed opened : α -> α} {keys held : List α} {key : α}
    (hnodup : keys.Nodup) (hinj : Function.Injective opened) (hheld : opened key ∈ held)
    (hsame : forall other, closed other = opened other) :
    opened key ∈ replay closed opened held keys := by
  rw [mem_replay]
  by_cases hkey : key ∈ keys
  · obtain ⟨before, after, heq⟩ := append_of_mem hkey
    refine .inr ⟨before, key, after, heq, rfl, ?_⟩
    intro later hlater hclosed
    rw [hsame] at hclosed
    rw [heq] at hnodup
    have hrest : (key :: after).Nodup := (nodup_append.mp hnodup).2.1
    exact (nodup_cons.mp hrest).1 (hinj hclosed ▸ hlater)
  · refine .inl ⟨hheld, ?_⟩
    intro other hother hclosed
    rw [hsame] at hclosed
    exact hkey (hinj hclosed ▸ hother)

end Replay
end FrpRs
