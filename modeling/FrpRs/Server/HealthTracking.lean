import FrpRs.Data.Tasks
import FrpRs.Server.GroupSelection

/-!
# The health flag

`health_tracking_active` of `frp-server/src/proxy.rs` while calls of the registry run at the same
time.  A failure report sets the flag and then waits for the lock of the entries; the calls that
remove entries clear the flag under the lock when none is left.

A call gives way at every lock.  The flag is cleared while the lock is held, so that a failure
report that sets it in between might as well have set it before.
-/

namespace FrpRs
namespace Server
namespace HealthTracking

open List Tasks

/-!
## Calls
-/

inductive Task where
  | done
  | indexing (steps : List IndexStep)
  | registering (info : ProxyInfo) (replace : Bool)
  | removing (name : String)
  | removingIfControlId (name : String) (controlId : Nat)
  | removingClient (runId : String)
  | reporting (now : Nat) (name : String)
  | inserting (now : Nat) (name : String)
  | recovering (name : String)
  | clearing (name : String)

inductive Operation where
  | register (info : ProxyInfo) (replace : Bool)
  | remove (name : String)
  | removeIfControlId (name : String) (controlId : Nat)
  | removeClient (runId : String)
  | reportBackendFailure (now : Nat) (name : String)
  | reportBackendSuccess (name : String)
  | removeBackendHealth (name : String)

def begin : Operation -> Task
  | .register info replace => .registering info replace
  | .remove name => .removing name
  | .removeIfControlId name controlId => .removingIfControlId name controlId
  | .removeClient runId => .removingClient runId
  | .reportBackendFailure now name => .reporting now name
  | .reportBackendSuccess name => .recovering name
  | .removeBackendHealth name => .clearing name

def insertFailure (now : Nat) (pm : ProxyManager) (name : String) : ProxyManager :=
  { pm with groupHealth := (pm.reportBackendFailure now name).groupHealth }

def register (pm : ProxyManager) (info : ProxyInfo) (replace : Bool) : ProxyManager × Task :=
  match pm.registerInner info.runId info replace with
  | .error _ => (pm, .done)
  | .ok (pm', steps, _) => (pm', .indexing steps)

def advance (_ : Unit) (pm : ProxyManager) : Task -> ProxyManager × Task
  | .done => (pm, .done)
  | .indexing [] => (pm, .done)
  | .indexing (st :: steps) => (pm.exec st, .indexing steps)
  | .registering info replace => register pm info replace
  | .removing name => ((pm.removeStart name).1, .indexing (pm.removeStart name).2.1)
  | .removingIfControlId name controlId =>
    ((pm.removeIfControlIdStart name controlId).1,
      .indexing (pm.removeIfControlIdStart name controlId).2.1)
  | .removingClient runId => ((pm.removeClient runId).1, .indexing (pm.removeClient runId).2)
  | .reporting now name => (pm.withTracking true, .inserting now name)
  | .inserting now name => (insertFailure now pm name, .done)
  | .recovering name => (pm.reportBackendSuccess name, .done)
  | .clearing name => (pm.removeBackendHealth name, .done)

def program : Program ProxyManager Operation Task Unit where
  begin := begin
  advance := advance

def init : System ProxyManager Task where
  state := ProxyManager.new
  tasks := []

namespace Task

def isDone : Task -> Bool
  | .done => true
  | _ => false

def isInserting : Task -> Bool
  | .inserting _ _ => true
  | _ => false

def dropped : Task -> Option (List String)
  | .indexing (.dropHealth names :: _) => some names
  | .clearing name => some [name]
  | _ => none

end Task

def Quiet (s : System ProxyManager Task) : Prop :=
  forall t, t ∈ s.tasks -> t.isDone = true

instance (s : System ProxyManager Task) : Decidable (Quiet s) :=
  inferInstanceAs (Decidable (forall t, t ∈ s.tasks -> t.isDone = true))

def empties (pm : ProxyManager) (t : Task) : Bool :=
  t.dropped.any fun names => (pm.dropHealth names).groupHealth.entries.isEmpty

def unhindered (s : System ProxyManager Task) (_ : Unit) (t : Task) : Bool :=
  !empties s.state t || s.tasks.all fun t' => !t'.isInserting

/-!
## Steps
-/

def Flagged (s : System ProxyManager Task) : Prop :=
  (s.state.groupHealth.entries ≠ [] ∨ exists t, t ∈ s.tasks ∧ t.isInserting = true) ->
    s.state.healthTrackingActive = true

/-- The step leaves the flag and makes no first entry. -/
structure Still (pm pm' : ProxyManager) : Prop where
  active : pm'.healthTrackingActive = pm.healthTrackingActive
  entries : pm'.groupHealth.entries ≠ [] -> pm.groupHealth.entries ≠ []

theorem Still.refl (pm : ProxyManager) : Still pm pm :=
  ⟨rfl, id⟩

theorem still_dropHealth {pm : ProxyManager} {names : List String}
    (h : (pm.dropHealth names).groupHealth.entries ≠ []) : Still pm (pm.dropHealth names) := by
  constructor
  · exact if_neg h
  · intro _ hnone
    exact h (ProxyManager.entries_foldl_erase hnone)

theorem still_exec {pm : ProxyManager} {st : IndexStep}
    (h : forall names, st ≠ .dropHealth names) : Still pm (pm.exec st) := by
  cases st with
  | leaveGroup name group =>
    simp only [ProxyManager.exec, ProxyManager.leaveGroup]
    split
    · exact Still.refl pm
    · split
      · exact ⟨rfl, id⟩
      · exact ⟨rfl, id⟩
  | removeClientRow runId name =>
    simp only [ProxyManager.exec, ProxyManager.removeClientRow]
    split
    · exact Still.refl pm
    · exact ⟨rfl, id⟩
  | dropHealth names => exact absurd rfl (h names)
  | joinGroup name group => exact ⟨rfl, id⟩
  | insertClient runId name info => exact ⟨rfl, id⟩
  | resyncClients => exact ⟨rfl, id⟩

theorem still_removeWhen (pm : ProxyManager) (test : ProxyInfo -> Bool) (name : String) :
    Still pm (pm.removeWhen test name).1 := by
  unfold ProxyManager.removeWhen
  split
  · exact Still.refl pm
  · split
    · exact ⟨rfl, id⟩
    · exact Still.refl pm

theorem still_success (pm : ProxyManager) (name : String) :
    Still pm (pm.reportBackendSuccess name) := by
  unfold ProxyManager.reportBackendSuccess
  split
  · exact Still.refl pm
  · rename_i entry hentry
    refine ⟨rfl, fun _ hnone => ?_⟩
    rw [AList.lookup_eq_none.mpr] at hentry
    · cases hentry
    · rw [AList.mem_keys, AList.keys, hnone]
      exact not_mem_nil

/-- What a step does to the flag and the entries. -/
inductive Effect (pm : ProxyManager) (t : Task) : ProxyManager × Task -> Prop where
  | sets {pm' : ProxyManager} {t' : Task} (h : pm'.healthTrackingActive = true) :
      Effect pm t (pm', t')
  | inserts {pm' : ProxyManager} {t' : Task} (ht : t.isInserting = true)
      (h : pm'.healthTrackingActive = pm.healthTrackingActive) : Effect pm t (pm', t')
  | still {pm' : ProxyManager} {t' : Task} (h : Still pm pm') (ht : t'.isInserting = false) :
      Effect pm t (pm', t')
  | empties {pm' : ProxyManager} {t' : Task} (h : empties pm t = true)
      (hnone : pm'.groupHealth.entries = []) (ht : t'.isInserting = false) :
      Effect pm t (pm', t')

theorem effect_dropHealth {pm : ProxyManager} {t t' : Task} {names : List String}
    (ht : t.dropped = some names) (ht' : t'.isInserting = false) :
    Effect pm t (pm.dropHealth names, t') := by
  by_cases hnone : (pm.dropHealth names).groupHealth.entries = []
  · apply Effect.empties _ hnone ht'
    rw [HealthTracking.empties, ht, Option.any_some, hnone]
    rfl
  · exact Effect.still (still_dropHealth hnone) ht'

theorem advance_effect (u : Unit) (pm : ProxyManager) (t : Task) :
    Effect pm t (advance u pm t) := by
  cases t with
  | done => exact Effect.still (Still.refl pm) rfl
  | indexing steps =>
    cases steps with
    | nil => exact Effect.still (Still.refl pm) rfl
    | cons st steps =>
      cases st with
      | dropHealth names => exact effect_dropHealth rfl rfl
      | _ =>
        apply Effect.still (still_exec _) rfl
        intro names hst
        cases hst
  | registering info replace =>
    rw [advance, register]
    cases hinner : pm.registerInner info.runId info replace with
    | error e => exact Effect.still (Still.refl pm) rfl
    | ok r =>
      rcases ProxyManager.registerInner_ok hinner with ⟨hpm, _⟩
      apply Effect.still _ rfl
      rw [hpm]
      exact ⟨rfl, id⟩
  | removing name => exact Effect.still (still_removeWhen pm _ name) rfl
  | removingIfControlId name controlId => exact Effect.still (still_removeWhen pm _ name) rfl
  | removingClient runId =>
    apply Effect.still _ rfl
    unfold ProxyManager.removeClient
    split
    · exact Still.refl pm
    · exact ⟨rfl, id⟩
  | reporting now name => exact Effect.sets rfl
  | inserting now name => exact Effect.inserts rfl rfl
  | recovering name => exact Effect.still (still_success pm name) rfl
  | clearing name => exact effect_dropHealth rfl rfl

theorem isInserting_begin (op : Operation) : (begin op).isInserting = false := by
  cases op with
  | _ => rfl

theorem flagged_step {s : System ProxyManager Task} (h : Flagged s) {e : Event Operation Unit}
    (hgood : s.Steps (fun s u t => unhindered s u t = true) e) : Flagged (program.step s e) := by
  cases e with
  | start op =>
    intro hflag
    apply h
    rcases hflag with hentry | ⟨t, ht, hinserting⟩
    · exact .inl hentry
    · rcases mem_append.mp ht with ht | ht
      · exact .inr ⟨t, ht, hinserting⟩
      · rw [mem_singleton.mp ht] at hinserting
        rw [show program.begin op = begin op from rfl, isInserting_begin] at hinserting
        cases hinserting
  | advance i u =>
    unfold Program.step
    dsimp only
    split
    · exact h
    · rename_i t hi
      have hmem := mem_of_getElem? hi
      have hclear : unhindered s u t = true := hgood t hi
      have heffect : Effect s.state t (program.advance u s.state t) :=
        advance_effect u s.state t
      generalize program.advance u s.state t = r at heffect
      cases heffect with
      | sets hset => exact fun _ => hset
      | inserts ht hsame =>
        intro _
        rw [hsame]
        exact h (.inr ⟨t, hmem, ht⟩)
      | still hstill ht' =>
        intro hflag
        rw [hstill.active]
        apply h
        rcases hflag with hentry | ⟨t₀, ht₀, hinserting⟩
        · exact .inl (hstill.entries hentry)
        · rcases mem_or_eq_of_mem_set ht₀ with ht₀ | heq
          · exact .inr ⟨t₀, ht₀, hinserting⟩
          · rw [heq, ht'] at hinserting
            cases hinserting
      | empties hempties hnone ht' =>
        intro hflag
        rw [unhindered, hempties, Bool.not_true, Bool.false_or, all_eq_true] at hclear
        rcases hflag with hentry | ⟨t₀, ht₀, hinserting⟩
        · exact absurd hnone hentry
        · rcases mem_or_eq_of_mem_set ht₀ with ht₀ | heq
          · have hnot := hclear t₀ ht₀
            rw [hinserting] at hnot
            cases hnot
          · rw [heq, ht'] at hinserting
            cases hinserting

/-!
## Runs
-/

/-- Without a clearing in the middle of a failure report the flag tells of every entry, and the
fast path picks no backend that has one. -/
theorem flag_tells (events : List (Event Operation Unit))
    (hevents : Run.Along program.step
      (fun s e => s.Steps (fun s u t => unhindered s u t = true) e) init events)
    (pre : List (Event Operation Unit)) (hpre : pre <+: events) :
    ((Run.run program.step init pre).state.groupHealth.entries ≠ [] ->
      (Run.run program.step init pre).state.healthTrackingActive = true) ∧
    forall now group groupKey b,
      (Run.run program.step init pre).state.healthTrackingActive = false ->
      ((Run.run program.step init pre).state.selectGroupBackend now group groupKey).2 = some b ->
      (Run.run program.step init pre).state.groupHealth.lookup b = none := by
  have hflagged : Flagged (Run.run program.step init pre) := by
    apply Run.run_invariant (fun s e hs he => flagged_step hs he) _ (Run.along_prefix hevents hpre)
    intro habs
    rcases habs with habs | ⟨t, ht, _⟩
    · exact absurd rfl habs
    · exact absurd ht not_mem_nil
  generalize Run.run program.step init pre = s at hflagged
  have htracked : s.state.Tracked := fun hentry => hflagged (.inl hentry)
  refine ⟨htracked, ?_⟩
  intro now group groupKey b hactive _
  have hempty : s.state.groupHealth.entries = [] := by
    apply Decidable.of_not_not
    intro hsome
    rw [htracked hsome] at hactive
    cases hactive
  rw [AList.lookup_eq_none, AList.mem_keys, AList.keys, hempty]
  exact not_mem_nil

def sampleInfo (name : String) : ProxyInfo where
  name := name
  proxyType := .tcp
  runId := "r"
  controlId := 1
  remotePort := none
  sk := none
  group := some "g"
  groupKey := none
  bandwidthLimit := ""
  bandwidthLimitMode := ""

def steps (task n : Nat) : List (Event Operation Unit) :=
  replicate n (.advance task ())

/-- Two members register, and the first one fails three times. -/
def orderlyRun : List (Event Operation Unit) :=
  .start (.register (sampleInfo "a") false) :: steps 0 8 ++
  .start (.register (sampleInfo "b") false) :: steps 1 8 ++
  .start (.reportBackendFailure 0 "a") :: steps 2 2 ++
  .start (.reportBackendFailure 0 "a") :: steps 3 2 ++
  .start (.reportBackendFailure 0 "a") :: steps 4 2

theorem flag_tells_orderly :
    (Run.run program.step init orderlyRun).state.groupHealth.entries ≠ [] ∧
      (Run.run program.step init orderlyRun).state.healthTrackingActive = true := by
  have hentry : (Run.run program.step init orderlyRun).state.groupHealth.entries ≠ [] := by
    decide
  exact ⟨hentry, (flag_tells orderlyRun (by decide) orderlyRun prefix_rfl).1 hentry⟩

/-- The three reports set the flag, the health of the other member is removed, and then the
entries are made. -/
def hinderedRun : List (Event Operation Unit) :=
  .start (.register (sampleInfo "a") false) :: steps 0 8 ++
  .start (.register (sampleInfo "b") false) :: steps 1 8 ++
  .start (.reportBackendFailure 0 "a") :: steps 2 1 ++
  .start (.reportBackendFailure 0 "a") :: steps 3 1 ++
  .start (.reportBackendFailure 0 "a") :: steps 4 1 ++
  .start (.removeBackendHealth "b") :: steps 5 1 ++
  steps 2 1 ++ steps 3 1 ++ steps 4 1

/-- No call is in progress and the flag is not set, so that the unhealthy member is picked. -/
theorem flag_lost :
    Quiet (Run.run program.step init hinderedRun) ∧
      (Run.run program.step init hinderedRun).state.healthTrackingActive = false ∧
      (Run.run program.step init hinderedRun).state.groupHealth.lookup "a" =
        some ⟨.unhealthy, 3, some 0⟩ ∧
      (Run.run program.step init hinderedRun).state.groupHealth.lookup "b" = none ∧
      ((Run.run program.step init hinderedRun).state.selectGroupBackend 1 "g" "").2 =
        some "a" := by
  decide

end HealthTracking
end Server
end FrpRs
