import Mathlib.Logic.Basic

/-!
# Resources held by the entries of a map

A map assigns entries to names, an entry may hold resources, and a set of marks records
the resources that are held.  The marks are exact when a resource is marked if and only if
some entry holds it.

An operation on some names leaves what the other entries hold alone, so that exact marks
stay exact once they agree with the new entries of these names.
-/

namespace FrpRs
namespace Ledger

variable {Name Entry Resource : Type}

section Holders

variable (holds : Entry -> Resource -> Prop) (live : Name -> Option Entry)

def Held (r : Resource) : Prop :=
  exists n e, live n = some e ∧ holds e r

def HeldOutside (names : Name -> Prop) (r : Resource) : Prop :=
  exists n e, ¬ names n ∧ live n = some e ∧ holds e r

def HeldBeside (name : Name) (r : Resource) : Prop :=
  HeldOutside holds live (fun n => n = name) r

def Exact (marked : Resource -> Prop) : Prop :=
  forall r, marked r ↔ Held holds live r

end Holders

variable {holds : Entry -> Resource -> Prop} {live live' : Name -> Option Entry}
variable {marked marked' : Resource -> Prop} {names : Name -> Prop} {name : Name}
variable {r : Resource} {e : Entry}

theorem held_of (h : live name = some e) (hholds : holds e r) : Held holds live r :=
  ⟨name, e, h, hholds⟩

theorem held_iff_outside (names : Name -> Prop) :
    Held holds live r ↔
      (exists n e, names n ∧ live n = some e ∧ holds e r) ∨ HeldOutside holds live names r := by
  constructor
  · rintro ⟨n, e, hn, hholds⟩
    by_cases hin : names n
    · exact .inl ⟨n, e, hin, hn, hholds⟩
    · exact .inr ⟨n, e, hin, hn, hholds⟩
  · rintro (⟨n, e, _, hn, hholds⟩ | ⟨n, e, _, hn, hholds⟩)
    · exact ⟨n, e, hn, hholds⟩
    · exact ⟨n, e, hn, hholds⟩

theorem held_iff_of_some (h : live name = some e) :
    Held holds live r ↔ holds e r ∨ HeldBeside holds live name r := by
  rw [held_iff_outside (fun n => n = name)]
  constructor
  · rintro (⟨n, e', rfl, hn, hholds⟩ | hbeside)
    · rw [h] at hn
      cases hn
      exact .inl hholds
    · exact .inr hbeside
  · rintro (hholds | hbeside)
    · exact .inl ⟨name, e, rfl, h, hholds⟩
    · exact .inr hbeside

theorem held_iff_of_none (h : live name = none) :
    Held holds live r ↔ HeldBeside holds live name r := by
  rw [held_iff_outside (fun n => n = name)]
  constructor
  · rintro (⟨n, e', rfl, hn, _⟩ | hbeside)
    · rw [h] at hn
      cases hn
    · exact hbeside
  · exact .inr

theorem HeldBeside.held (h : HeldBeside holds live name r) : Held holds live r := by
  obtain ⟨n, e, _, hn, hholds⟩ := h
  exact ⟨n, e, hn, hholds⟩

theorem heldOutside_congr (h : forall n, ¬ names n -> live' n = live n) :
    HeldOutside holds live' names r ↔ HeldOutside holds live names r := by
  constructor
  · rintro ⟨n, e, hout, hn, hholds⟩
    exact ⟨n, e, hout, (h n hout) ▸ hn, hholds⟩
  · rintro ⟨n, e, hout, hn, hholds⟩
    exact ⟨n, e, hout, (h n hout).symm ▸ hn, hholds⟩

theorem heldBeside_congr (h : forall n, n ≠ name -> live' n = live n) :
    HeldBeside holds live' name r ↔ HeldBeside holds live name r :=
  heldOutside_congr h

theorem exact_of_removed (hrest : forall n, ¬ names n -> live' n = live n)
    (hgone : forall n, names n -> live' n = none)
    (hmarks : forall r, marked' r ↔ HeldOutside holds live names r) :
    Exact holds live' marked' := by
  intro r
  rw [hmarks, held_iff_outside names, ← heldOutside_congr hrest]
  constructor
  · exact .inr
  · rintro (⟨n, e, hin, hn, _⟩ | houtside)
    · rw [hgone n hin] at hn
      cases hn
    · exact houtside

theorem exact_of_written (hrest : forall n, n ≠ name -> live' n = live n)
    (hnew : live' name = some e)
    (hmarks : forall r, marked' r ↔ holds e r ∨ HeldBeside holds live name r) :
    Exact holds live' marked' := by
  intro r
  rw [hmarks, held_iff_of_some hnew, heldBeside_congr hrest]

theorem exact_of_replaced {freed : Resource -> Prop} (h : Exact holds live marked)
    (hrest : forall n, n ≠ name -> live' n = live n) (hnew : live' name = some e)
    (hmarks : forall r, marked' r ↔ (holds e r ∨ marked r) ∧ ¬ freed r)
    (hfreed : forall r, freed r -> ¬ holds e r ∧ ¬ HeldBeside holds live name r)
    (hkept : forall old r, live name = some old -> holds old r ->
      freed r ∨ holds e r ∨ HeldBeside holds live name r) :
    Exact holds live' marked' := by
  apply exact_of_written hrest hnew
  intro r
  rw [hmarks]
  constructor
  · rintro ⟨hnew | hmarked, hnot⟩
    · exact .inl hnew
    · cases hold : live name with
      | none => exact .inr ((held_iff_of_none hold).mp ((h r).mp hmarked))
      | some old =>
        rcases (held_iff_of_some hold).mp ((h r).mp hmarked) with hholds | hbeside
        · exact (hkept old r hold hholds).resolve_left hnot
        · exact .inr hbeside
  · rintro (hholds | hbeside)
    · exact ⟨.inl hholds, fun hfree => (hfreed r hfree).1 hholds⟩
    · exact ⟨.inr ((h r).mpr hbeside.held), fun hfree => (hfreed r hfree).2 hbeside⟩

theorem exact_of_kept (h : Exact holds live marked)
    (hrest : forall n, n ≠ name -> live' n = live n) (hnew : live' name = some e)
    (hmarks : forall r, marked' r ↔ holds e r ∨ marked r)
    (hkept : forall old r, live name = some old -> holds old r ->
      holds e r ∨ HeldBeside holds live name r) :
    Exact holds live' marked' := by
  apply @exact_of_replaced _ _ _ _ _ _ _ _ _ _ (fun _ => False) h hrest hnew
  · intro r
    rw [hmarks, not_false_eq_true, and_true]
  · intro r hfalse
    exact hfalse.elim
  · intro old r hold hholds
    exact .inr (hkept old r hold hholds)

theorem exact_of_erased (hrest : forall n, n ≠ name -> live' n = live n)
    (hgone : live' name = none) (hmarks : forall r, marked' r ↔ HeldBeside holds live name r) :
    Exact holds live' marked' := by
  intro r
  rw [hmarks, held_iff_of_none hgone, heldBeside_congr hrest]

end Ledger
end FrpRs
