import FrpRs.Data.Run

/-!
# Tasks that give way to one another

Several operations work on one state.  Each is a task, and a step of the system starts an
operation or runs one task up to the next place where it gives way.  What a task meets outside
the state is data of its step.

A sum over the tasks under way says what they still owe.  While every step of a task moves as much
between the state and its own debt as it takes, the balance over all tasks is kept.
-/

namespace FrpRs
namespace Tasks

open List

variable {State Operation Task Answer : Type}

structure Program (State Operation Task Answer : Type) where
  begin : Operation -> Task
  advance : Answer -> State -> Task -> State × Task

structure System (State Task : Type) where
  state : State
  tasks : List Task

inductive Event (Operation Answer : Type) where
  | start (op : Operation)
  | advance (task : Nat) (answer : Answer)

/-- A step of a task that does not exist does nothing. -/
def Program.step (p : Program State Operation Task Answer) (s : System State Task) :
    Event Operation Answer -> System State Task
  | .start op => { s with tasks := s.tasks ++ [p.begin op] }
  | .advance i answer =>
    match s.tasks[i]? with
    | none => s
    | some t =>
      { state := (p.advance answer s.state t).1
        tasks := s.tasks.set i (p.advance answer s.state t).2 }

def System.Steps (good : System State Task -> Answer -> Task -> Prop) (s : System State Task) :
    Event Operation Answer -> Prop
  | .start _ => True
  | .advance i answer => forall t, s.tasks[i]? = some t -> good s answer t

instance (good : System State Task -> Answer -> Task -> Prop)
    [hgood : forall s answer t, Decidable (good s answer t)] (s : System State Task) :
    (e : Event Operation Answer) -> Decidable (s.Steps good e)
  | .start _ => isTrue trivial
  | .advance i answer =>
    match h : s.tasks[i]? with
    | none => isTrue fun t ht => by
      rw [h] at ht
      cases ht
    | some t =>
      decidable_of_iff (good s answer t) ⟨fun hg t' ht => by
        rw [h] at ht
        cases ht
        exact hg, fun hall => hall t h⟩

/-!
## Steps
-/

variable {p : Program State Operation Task Answer} {s : System State Task}

theorem forall_tasks_step {ok : Task -> Prop} (hbegin : forall op, ok (p.begin op))
    (hadvance : forall answer state t, ok t -> ok (p.advance answer state t).2)
    (h : forall t, t ∈ s.tasks -> ok t) (e : Event Operation Answer) :
    forall t, t ∈ (p.step s e).tasks -> ok t := by
  intro t ht
  cases e with
  | start op =>
    rcases mem_append.mp ht with ht | ht
    · exact h t ht
    · rw [mem_singleton.mp ht]
      exact hbegin op
  | advance i answer =>
    unfold Program.step at ht
    dsimp only at ht
    split at ht
    · exact h t ht
    · rename_i t' hi
      rcases mem_or_eq_of_mem_set ht with ht | heq
      · exact h t ht
      · rw [heq]
        exact hadvance answer s.state t' (h t' (mem_of_getElem? hi))

theorem good_step {Good : State -> Prop}
    (hadvance : forall answer t, t ∈ s.tasks -> Good (p.advance answer s.state t).1)
    (hgood : Good s.state) (e : Event Operation Answer) : Good (p.step s e).state := by
  cases e with
  | start op => exact hgood
  | advance i answer =>
    unfold Program.step
    dsimp only
    split
    · exact hgood
    · rename_i t hi
      exact hadvance answer t (mem_of_getElem? hi)

theorem good_step_iff {p : Program State Operation Task Answer} {Good : State -> Prop}
    {ok : System State Task -> Answer -> Task -> Prop} {s : System State Task}
    (hadvance : forall answer t, t ∈ s.tasks ->
      (Good (p.advance answer s.state t).1 ↔ ok s answer t))
    (hgood : Good s.state) (e : Event Operation Answer) :
    Good (p.step s e).state ↔ s.Steps ok e := by
  cases e with
  | start op => exact ⟨fun _ => trivial, fun _ => hgood⟩
  | advance i answer =>
    unfold Program.step System.Steps
    dsimp only
    cases hi : s.tasks[i]? with
    | none =>
      constructor
      · intro _ t ht
        cases ht
      · intro _
        exact hgood
    | some t =>
      have hiff := hadvance answer t (mem_of_getElem? hi)
      constructor
      · intro hnext t' ht
        cases ht
        exact hiff.mp hnext
      · intro hall
        exact hiff.mpr (hall t rfl)

/-!
## Sums over tasks
-/

def total (weight : Task -> Nat) : List Task -> Nat
  | [] => 0
  | t :: tasks => weight t + total weight tasks

theorem total_append (weight : Task -> Nat) (tasks more : List Task) :
    total weight (tasks ++ more) = total weight tasks + total weight more := by
  induction tasks with
  | nil => rw [nil_append, total, Nat.zero_add]
  | cons t tasks ih => rw [cons_append, total, total, ih, Nat.add_assoc]

theorem total_set {weight : Task -> Nat} {tasks : List Task} {i : Nat} {t : Task}
    (h : tasks[i]? = some t) (t' : Task) :
    total weight (tasks.set i t') + weight t = total weight tasks + weight t' := by
  induction tasks generalizing i with
  | nil => cases h
  | cons head tasks ih =>
    cases i with
    | zero =>
      cases h
      rw [set_cons_zero, total, total]
      omega
    | succ i =>
      have hrest := ih h
      rw [set_cons_succ, total, total]
      omega

theorem total_eq_zero {weight : Task -> Nat} {tasks : List Task}
    (h : forall t, t ∈ tasks -> weight t = 0) : total weight tasks = 0 := by
  induction tasks with
  | nil => rfl
  | cons t tasks ih =>
    rw [total, h t mem_cons_self, ih fun t' hmem => h t' (mem_cons_of_mem t hmem)]

/-!
## Balances
-/

def Balanced (has should : State -> Nat) (adds takes : Task -> Nat) (s : System State Task) : Prop :=
  has s.state + total adds s.tasks = should s.state + total takes s.tasks

theorem balanced_step {has should : State -> Nat} {adds takes : Task -> Nat}
    {good : System State Task -> Answer -> Task -> Prop}
    (hbegin : forall op, adds (p.begin op) = 0 ∧ takes (p.begin op) = 0)
    (hadvance : forall s answer t, good s answer t ->
      has (p.advance answer s.state t).1 + adds (p.advance answer s.state t).2 +
          (should s.state + takes t) =
        has s.state + adds t +
          (should (p.advance answer s.state t).1 + takes (p.advance answer s.state t).2))
    (h : Balanced has should adds takes s) {e : Event Operation Answer} (hgood : s.Steps good e) :
    Balanced has should adds takes (p.step s e) := by
  unfold Balanced at h ⊢
  cases e with
  | start op =>
    rcases hbegin op with ⟨hadds, htakes⟩
    simp only [Program.step, total_append, total, hadds, htakes]
    omega
  | advance i answer =>
    unfold Program.step
    dsimp only
    split
    · exact h
    · rename_i t ht
      have hkeeps := hadvance s answer t (hgood t ht)
      have hadds := @total_set _ adds _ _ _ ht (p.advance answer s.state t).2
      have htakes := @total_set _ takes _ _ _ ht (p.advance answer s.state t).2
      dsimp only
      omega

def Within (limit : Nat) (has : State -> Nat) (adds : Task -> Nat) (s : System State Task) : Prop :=
  has s.state + total adds s.tasks ≤ limit

theorem within_step {limit : Nat} {has : State -> Nat} {adds : Task -> Nat}
    {good : System State Task -> Answer -> Task -> Prop} (hbegin : forall op, adds (p.begin op) = 0)
    (hadvance : forall s answer t, t ∈ s.tasks -> good s answer t ->
      has (p.advance answer s.state t).1 + adds (p.advance answer s.state t).2 ≤
          has s.state + adds t ∨
        (forall t', t' ∈ s.tasks -> adds t' = 0) ∧
          has (p.advance answer s.state t).1 + adds (p.advance answer s.state t).2 ≤ limit)
    (h : Within limit has adds s) {e : Event Operation Answer} (hgood : s.Steps good e) :
    Within limit has adds (p.step s e) := by
  unfold Within at h ⊢
  cases e with
  | start op =>
    simp only [Program.step, total_append, total, hbegin op]
    omega
  | advance i answer =>
    unfold Program.step
    dsimp only
    split
    · exact h
    · rename_i t ht
      have hadds := @total_set _ adds _ _ _ ht (p.advance answer s.state t).2
      have hmem : t ∈ s.tasks := mem_of_getElem? ht
      dsimp only
      rcases hadvance s answer t hmem (hgood t ht) with hless | ⟨hnone, hle⟩
      · omega
      · rw [total_eq_zero hnone, hnone t hmem] at hadds
        omega

end Tasks
end FrpRs
