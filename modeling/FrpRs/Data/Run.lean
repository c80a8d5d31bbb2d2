import Mathlib.Data.List.Induction
import Mathlib.Data.Nat.Notation

/-!
# Runs of a deterministic transition function

A run applies a step function to a list of events.  A side condition that may
look at the state before each step is carried along the run, and an invariant
kept by every step that meets the condition holds wherever the run leads.
-/

namespace FrpRs
namespace Run

variable {State Event : Type}

def run (step : State -> Event -> State) (s : State) (es : List Event) : State :=
  es.foldl step s

def Along (step : State -> Event -> State) (ok : State -> Event -> Prop) :
    State -> List Event -> Prop
  | _, [] => True
  | s, e :: es => ok s e ∧ Along step ok (step s e) es

instance decidableAlong (step : State -> Event -> State) (ok : State -> Event -> Prop)
    [hok : forall s e, Decidable (ok s e)] :
    (s : State) -> (es : List Event) -> Decidable (Along step ok s es)
  | _, [] => isTrue trivial
  | s, e :: es =>
    have := decidableAlong step ok (step s e) es
    inferInstanceAs (Decidable (ok s e ∧ Along step ok (step s e) es))

@[simp] theorem run_nil (step : State -> Event -> State) (s : State) :
    run step s [] = s := rfl

@[simp] theorem run_cons (step : State -> Event -> State) (s : State)
    (e : Event) (es : List Event) :
    run step s (e :: es) = run step (step s e) es := rfl

theorem run_append (step : State -> Event -> State) (s : State)
    (es fs : List Event) :
    run step s (es ++ fs) = run step (run step s es) fs := by
  simp [run]

variable {step : State -> Event -> State}

theorem along_append {ok : State -> Event -> Prop} {s : State} {es fs : List Event} :
    Along step ok s (es ++ fs) ↔
      Along step ok s es ∧ Along step ok (run step s es) fs := by
  induction es generalizing s with
  | nil =>
    simp [Along]
  | cons e es ih =>
    simp [Along, ih, and_assoc]

theorem along_prefix {ok : State -> Event -> Prop} {s : State} {pre es : List Event}
    (h : Along step ok s es) (hpre : pre <+: es) :
    Along step ok s pre := by
  rcases hpre with ⟨more, rfl⟩
  exact (along_append.mp h).1

theorem along_of_forall {step : State -> Event -> State} {ok : State -> Event -> Prop}
    {s : State} {es : List Event} (h : forall s e, e ∈ es -> ok s e) : Along step ok s es := by
  induction es generalizing s with
  | nil =>
    trivial
  | cons e es ih =>
    exact ⟨h s e List.mem_cons_self, ih fun s e' hmem => h s e' (List.mem_cons_of_mem e hmem)⟩

theorem run_invariant {step : State -> Event -> State} {ok : State -> Event -> Prop}
    {Inv : State -> Prop}
    (hstep : forall s e, Inv s -> ok s e -> Inv (step s e))
    {s : State} {es : List Event} (hs : Inv s) (hok : Along step ok s es) :
    Inv (run step s es) := by
  induction es generalizing s with
  | nil =>
    exact hs
  | cons e es ih =>
    exact ih (hstep s e hs hok.1) hok.2

theorem run_invariant_along {step : State -> Event -> State} {ok : State -> Event -> Prop}
    {Inv : Prop -> State -> Prop}
    (hstep : forall met s e, Inv met s -> Inv (met ∧ ok s e) (step s e))
    {met : Prop} {s : State} (hs : Inv met s) (es : List Event) :
    Inv (met ∧ Along step ok s es) (run step s es) := by
  induction es generalizing met s with
  | nil =>
    rw [Along, and_true]
    exact hs
  | cons e es ih =>
    rw [Along, <- and_assoc]
    exact ih (hstep met s e hs)

theorem along_of_invariant {ok good : State -> Event -> Prop} {Inv : State -> Prop}
    (hstep : forall s e, Inv s -> ok s e -> Inv (step s e) ∧ good s e) {s : State} {es : List Event}
    (hs : Inv s) (hok : Along step ok s es) :
    Along step good s es := by
  induction es generalizing s with
  | nil =>
    trivial
  | cons e es ih =>
    obtain ⟨hnext, hgood⟩ := hstep s e hs hok.1
    exact ⟨hgood, ih hnext hok.2⟩

theorem run_preserves {step : State -> Event -> State} {Inv : State -> Prop}
    (hstep : forall s e, Inv s -> Inv (step s e))
    {s : State} (es : List Event) (hs : Inv s) :
    Inv (run step s es) := by
  induction es generalizing s with
  | nil =>
    exact hs
  | cons e es ih =>
    exact ih (hstep s e hs)

theorem along_congr {ok ok' : State -> Event -> Prop} {Inv : State -> Prop}
    (hiff : forall s e, Inv s -> (ok s e ↔ ok' s e))
    (hinv : forall s e, Inv s -> ok' s e -> Inv (step s e)) {s : State} {es : List Event}
    (hs : Inv s) :
    Along step ok s es ↔ Along step ok' s es := by
  induction es generalizing s with
  | nil =>
    exact Iff.rfl
  | cons e es ih =>
    constructor
    · rintro ⟨hok, hrest⟩
      have hok' := (hiff s e hs).mp hok
      exact ⟨hok', (ih (hinv s e hs hok')).mp hrest⟩
    · rintro ⟨hok', hrest⟩
      exact ⟨(hiff s e hs).mpr hok', (ih (hinv s e hs hok')).mpr hrest⟩

theorem forall_prefix_iff_along {step : State -> Event -> State}
    {ok : State -> Event -> Prop} {Inv Good : State -> Prop}
    (hinv : forall s e, Inv s -> Inv (step s e))
    (hgood : forall s e, Inv s -> Good s -> (Good (step s e) ↔ ok s e))
    {s : State} {es : List Event} (hs : Inv s) (hg : Good s) :
    (forall pre, pre <+: es -> Good (run step s pre)) ↔ Along step ok s es := by
  induction es generalizing s with
  | nil =>
    constructor
    · intro _
      trivial
    · intro _ pre hpre
      rw [List.prefix_nil.mp hpre]
      exact hg
  | cons e es ih =>
    constructor
    · intro hall
      have hnext : Good (step s e) := hall [e] ⟨es, rfl⟩
      refine ⟨(hgood s e hs hg).mp hnext, (ih (hinv s e hs) hnext).mp ?_⟩
      intro pre hpre
      exact hall (e :: pre) (List.cons_prefix_cons.mpr ⟨rfl, hpre⟩)
    · rintro ⟨hok, hrest⟩ pre hpre
      have hnext := (hgood s e hs hg).mpr hok
      cases pre with
      | nil => exact hg
      | cons e' pre =>
        obtain ⟨heq, htail⟩ := List.cons_prefix_cons.mp hpre
        rw [heq]
        exact (ih (hinv s e hs) hnext).mpr hrest pre htail

end Run
end FrpRs
