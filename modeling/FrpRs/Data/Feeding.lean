import Mathlib.Data.List.Basic

/-!
# Machines that are fed

A machine takes its input in pieces.  Each piece is answered: the machine is done and leaves what
it did not use, it has failed, or it waits for more.  When the answer to a piece and to a piece
after it is the answer to both together, the pieces do not matter.
-/

namespace FrpRs
namespace Feeding

variable {State α Error : Type}

/-- The answer to the last piece that was fed, and the pieces after it. -/
def feedAll (feed : State -> List α -> Except Error Bool × State) :
    State -> List (List α) -> Except Error Bool × State × List (List α)
  | s, [] => (.ok false, s, [])
  | s, piece :: pieces =>
    match feed s piece with
    | (.ok false, s) => feedAll feed s pieces
    | (.ok true, s) => (.ok true, s, pieces)
    | (.error e, s) => (.error e, s, pieces)

inductive Outcome (α : Type) where
  | done (leftover : List α)
  | failed
  | more
deriving DecidableEq, Repr

def outcome (left : State -> List α) :
    Except Error Bool × State × List (List α) -> Outcome α
  | (.ok true, s, pieces) => .done (left s ++ pieces.flatten)
  | (.ok false, _, _) => .more
  | (.error _, _, _) => .failed

def answer (left : State -> List α) (r : Except Error Bool × State) : Outcome α :=
  outcome left (r.1, r.2, [])

/-- Feeding two pieces is feeding both at once. -/
structure Joining (feed : State -> List α -> Except Error Bool × State) (left : State -> List α)
    (Waiting : State -> Prop) : Prop where
  idle : forall s, Waiting s -> (feed s []).1 = .ok false
  keeps : forall s a s', Waiting s -> feed s a = (.ok false, s') -> Waiting s'
  done : forall s a b s', Waiting s -> feed s a = (.ok true, s') ->
    answer left (feed s (a ++ b)) = .done (left s' ++ b)
  failed : forall s a b e s', Waiting s -> feed s a = (.error e, s') ->
    answer left (feed s (a ++ b)) = .failed
  more : forall s a b s', Waiting s -> feed s a = (.ok false, s') ->
    answer left (feed s (a ++ b)) = answer left (feed s' b)

section Joining

variable {feed : State -> List α -> Except Error Bool × State} {left : State -> List α}
  {Waiting : State -> Prop}

theorem feedAll_later (feed : State -> List α -> Except Error Bool × State) (s : State)
    (pieces : List (List α)) :
    exists fed, pieces = fed ++ (feedAll feed s pieces).2.2 := by
  induction pieces generalizing s with
  | nil => exact ⟨[], rfl⟩
  | cons piece pieces ih =>
    rw [feedAll]
    cases feed s piece with
    | mk r s' =>
      cases r with
      | error e => exact ⟨[piece], rfl⟩
      | ok b =>
        cases b with
        | true => exact ⟨[piece], rfl⟩
        | false =>
          rcases ih s' with ⟨fed, hfed⟩
          refine ⟨piece :: fed, ?_⟩
          rw [List.cons_append, <- hfed]

theorem Joining.outcome_feedAll (h : Joining feed left Waiting) {s : State} (hs : Waiting s)
    (pieces : List (List α)) :
    outcome left (feedAll feed s pieces) = answer left (feed s pieces.flatten) := by
  induction pieces generalizing s with
  | nil =>
    have hidle := h.idle s hs
    rw [List.flatten_nil, answer, hidle]
    rfl
  | cons piece pieces ih =>
    rw [feedAll, List.flatten_cons]
    cases hfeed : feed s piece with
    | mk r s' =>
      cases r with
      | error e =>
        rw [h.failed s piece pieces.flatten e s' hs hfeed]
        rfl
      | ok b =>
        cases b with
        | true =>
          rw [h.done s piece pieces.flatten s' hs hfeed]
          rfl
        | false =>
          rw [h.more s piece pieces.flatten s' hs hfeed]
          exact ih (h.keeps s piece s' hs hfeed)

theorem Joining.outcome_eq (h : Joining feed left Waiting) {s : State} (hs : Waiting s)
    {pieces pieces' : List (List α)} (heq : pieces.flatten = pieces'.flatten) :
    outcome left (feedAll feed s pieces) = outcome left (feedAll feed s pieces') := by
  rw [h.outcome_feedAll hs, h.outcome_feedAll hs, heq]

theorem Joining.feedAll_done (h : Joining feed left Waiting) {s : State} (hs : Waiting s)
    {pieces : List (List α)} {used leftover : List α} (hpieces : pieces.flatten = used ++ leftover)
    (hdone : answer left (feed s pieces.flatten) = .done leftover) :
    exists fed later s', pieces = fed ++ later ∧ feedAll feed s pieces = (.ok true, s', later) ∧
      fed.flatten = used ++ left s' ∧ left s' ++ later.flatten = leftover := by
  rcases feedAll_later feed s pieces with ⟨fed, hfed⟩
  rw [<- h.outcome_feedAll hs] at hdone
  cases hall : feedAll feed s pieces with
  | mk r tail =>
    rcases tail with ⟨s', later⟩
    rw [hall] at hdone hfed
    cases r with
    | error e => cases hdone
    | ok b =>
      cases b with
      | false => cases hdone
      | true =>
        cases hdone
        refine ⟨fed, later, s', hfed, rfl, ?_, rfl⟩
        rw [hfed, List.flatten_append, <- List.append_assoc] at hpieces
        exact List.append_cancel_right hpieces

end Joining

end Feeding
end FrpRs
