import Mathlib.Data.Nat.Notation

/-!
# Fallible stateful calls

A call that may fail returns its result next to the state it leaves behind; a
failed call keeps the changes it made before failing.  `andThen` is the early
return: the second call runs only when the first one succeeded.
-/

namespace FrpRs
namespace Fallible

variable {Err State α β : Type}

def andThen (r : Except Err α × State) (f : α -> State -> Except Err β × State) :
    Except Err β × State :=
  match r with
  | (.error e, s) => (.error e, s)
  | (.ok a, s) => f a s

@[simp] theorem andThen_error (e : Err) (s : State)
    (f : α -> State -> Except Err β × State) :
    andThen (.error e, s) f = (.error e, s) := rfl

@[simp] theorem andThen_ok (a : α) (s : State)
    (f : α -> State -> Except Err β × State) :
    andThen (.ok a, s) f = f a s := rfl

theorem andThen_state {P : State -> Prop} {r : Except Err α × State}
    {f : α -> State -> Except Err β × State}
    (hr : P r.2) (hf : forall a s, r = (.ok a, s) -> P s -> P (f a s).2) :
    P (andThen r f).2 := by
  rcases r with ⟨res, s⟩
  cases res with
  | error e => exact hr
  | ok a => exact hf a s rfl hr

theorem andThen_eq_ok {r : Except Err α × State}
    {f : α -> State -> Except Err β × State} {b : β} {t : State}
    (h : andThen r f = (.ok b, t)) :
    exists a s, r = (.ok a, s) ∧ f a s = (.ok b, t) := by
  rcases r with ⟨res, s⟩
  cases res with
  | error e => cases h
  | ok a => exact ⟨a, s, rfl, h⟩

end Fallible
end FrpRs
