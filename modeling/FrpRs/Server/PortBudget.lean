import FrpRs.Data.Tasks
import FrpRs.Server.RegistryCalls
import FrpRs.Server.Teardown

/-!
# The port budget of a client

`client_ports_used` while registrations, `CloseProxy`, deletions from the dashboard and the ends of
controls run at the same time.  Each of them is a task that gives way wherever it awaits a lock.

Only what touches the registry or the counts is a step here.  What the other tables and the
operating system answer on the way is data of a step: whether a port was found, whether the
routes are free, whether the listener is bound.
-/

namespace FrpRs
namespace Server
namespace PortBudget

open List Tasks

/-!
## Tasks
-/

/-- A `NewProxy` message and the control that got it. -/
structure Job where
  np : NewProxy
  runId : String
  controlId : Nat

def Job.info (job : Job) (port : UInt16) : ProxyInfo :=
  job.np.proxyInfo job.runId job.controlId port

/-- A control whose proxies are swept. -/
structure Sweep where
  runId : String
  controlId : Nat

/-- Where an operation has given way.  A member joins a TCP group that exists; `counted` are the
names that a sweep has counted, of which the code keeps the number. -/
inductive Task where
  | done
  | indexing (steps : List IndexStep) (next : Task)
  | admission (job : Job)
  | allocation (job : Job)
  | entry (job : Job) (port : UInt16) (member : Bool)
  | takeover (job : Job) (port : UInt16) (member : Bool) (old : ProxyInfo)
  | counting (job : Job) (port : UInt16) (member : Bool)
  | routing (job : Job)
  | listening (job : Job)
  | rollbackCount (job : Job) (again : Bool)
  | rollbackEntry (job : Job) (uncounted again : Bool)
  | closing (runId name : String)
  | closingEntry (name : String)
  | deletion (name : String)
  | removal (info : ProxyInfo)
  | removalByName (name : String)
  | release (info : ProxyInfo)
  | listing (sweep : Sweep)
  | sweeping (sweep : Sweep) (names : Option (List String))
  | sweepCounting (sweep : Sweep) (names : Option (List String)) (batch : List ProxyInfo)
      (counted : List String)
  | sweepListing (sweep : Sweep) (counted : List String)
  | sweepRemoval (sweep : Sweep) (names counted : List String)

/-- What the rest of the server answers.  A refused listener may be tried again with another
port. -/
inductive Answer where
  | granted (port : UInt16) (joins : Bool)
  | refused (again : Bool)
deriving DecidableEq, Repr

def Answer.isRefused : Answer -> Bool
  | .granted _ _ => false
  | .refused _ => true

/-- The operations on the registry.  The reaper ends a control that has left without its
cleanup. -/
inductive Operation where
  | newProxy (job : Job)
  | closeProxy (runId name : String)
  | deleteProxy (name : String)
  | cleanup (sweep : Sweep)
  | reap (sweep : Sweep)

def begin : Operation -> Task
  | .newProxy job => .admission job
  | .closeProxy runId name => .closing runId name
  | .deleteProxy name => .deletion name
  | .cleanup sweep => .listing sweep
  | .reap sweep => .sweeping sweep none

def hasRoutes : ProxyType -> Bool
  | .vnet | .http | .https | .tcpmux => true
  | _ => false

/-- The gate of `max_ports_per_client`. -/
def overPortLimit (cfg : ServerConfig) (s : AppState) (job : Job) : Bool :=
  job.np.proxyType.consumesPort && decide (0 < cfg.maxPortsPerClient) &&
    decide (cfg.maxPortsPerClient < s.portsUsed job.runId + 1)

def Job.counts (job : Job) (port : UInt16) (member : Bool) : Bool :=
  member || (job.np.proxyType.consumesPort && decide (0 < port))

/-- Whether a takeover releases the count of the old entry.  For a member of a group the type
of that entry is not looked at. -/
def releases (member : Bool) (old : ProxyInfo) : Bool :=
  if member then old.remotePort.any fun port => 0 < port else old.consumesClientPort

/-- `register_or_replace`, or `register` for the types that cannot be taken over. -/
def register (s : AppState) (job : Job) (port : UInt16) (member : Bool) : AppState × Task :=
  match s.pm.registerInner job.runId (job.info port)
      (member || job.np.proxyType.replaceable) with
  | .error _ => (s, .done)
  | .ok (pm, steps, some old) =>
    ({ s with pm := pm }, .indexing steps (.takeover job port member old))
  | .ok (pm, steps, none) => ({ s with pm := pm }, .indexing steps (.counting job port member))

def admitted (job : Job) : Answer -> Task
  | .refused _ => .done
  | .granted _ _ => .allocation job

def allocated (job : Job) : Answer -> Task
  | .refused _ => .done
  | .granted port joins => .entry job port (joins && job.np.isTcpGroup)

def routed (job : Job) : Answer -> Task
  | .refused _ =>
    if hasRoutes job.np.proxyType then .rollbackEntry job false false else .listening job
  | .granted _ _ => .listening job

def bound (job : Job) : Answer -> Task
  | .refused again =>
    match job.np.proxyType with
    | .udp => .rollbackCount job false
    | .tcp => .rollbackCount job again
    | _ => .done
  | .granted _ _ => .done

def remove (s : AppState) (name : String) (found : Task) : AppState × Task :=
  ({ s with pm := (s.pm.removeStart name).1 },
    .indexing (s.pm.removeStart name).2.1
      (if (s.pm.removeStart name).2.2.isSome then found else .done))

def countSwept (s : AppState) (p : ProxyInfo) (counted : List String) : List String :=
  if !AppState.superseded s.pm p && p.consumesClientPort then p.name :: counted else counted

def advance (cfg : ServerConfig) (answer : Answer) (s : AppState) : Task -> AppState × Task
  | .done => (s, .done)
  | .indexing [] next => (s, next)
  | .indexing (st :: steps) next => ({ s with pm := s.pm.exec st }, .indexing steps next)
  | .admission job =>
    (s, if overPortLimit cfg s job then .done else admitted job answer)
  | .allocation job => (s, allocated job answer)
  | .entry job port member => register s job port member
  | .takeover job port member old =>
    (if releases member old then s.releaseClientPorts job.runId 1 else s,
      .counting job port member)
  | .counting job port member =>
    (if job.counts port member then s.countClientPort job.runId else s,
      if member then .done else .routing job)
  | .routing job => (s, routed job answer)
  | .listening job => (s, bound job answer)
  | .rollbackCount job again => (s.rollbackClientPort job.runId, .rollbackEntry job true again)
  | .rollbackEntry job _ again =>
    let next := if again then Task.allocation job else .done
    ({ s with pm := (s.pm.removeStart job.np.proxyName).1 },
      .indexing (s.pm.removeStart job.np.proxyName).2.1 next)
  | .closing runId name =>
    if s.pm.getRunId name = some runId then (s, .closingEntry name) else (s, .done)
  | .closingEntry name =>
    match s.pm.get name with
    | some info => (s, .removal info)
    | none => (s, .removalByName name)
  | .deletion name =>
    match s.pm.get name with
    | some info => (s, .removal info)
    | none => (s, .done)
  | .removal info => remove s info.name (.release info)
  | .removalByName name => remove s name .done
  | .release info =>
    (if info.consumesClientPort then s.releaseClientPorts info.runId 1 else s, .done)
  | .listing sweep => (s, .sweeping sweep (some (s.pm.listClientProxyNames sweep.runId)))
  | .sweeping sweep names =>
    (s, .sweepCounting sweep names (AppState.swept s.pm sweep.runId sweep.controlId) [])
  | .sweepCounting sweep names (p :: batch) counted =>
    (s, .sweepCounting sweep names batch (countSwept s p counted))
  | .sweepCounting sweep names [] counted =>
    (if 0 < counted.length then s.releaseClientPorts sweep.runId counted.length else s,
      match names with
      | some names => .sweepRemoval sweep names counted
      | none => .sweepListing sweep counted)
  | .sweepListing sweep counted =>
    (s, .sweepRemoval sweep (s.pm.listClientProxyNames sweep.runId) counted)
  | .sweepRemoval _ [] _ => (s, .done)
  | .sweepRemoval sweep (name :: names) counted =>
    ({ s with pm := (s.pm.removeIfControlIdStart name sweep.controlId).1 },
      .indexing (s.pm.removeIfControlIdStart name sweep.controlId).2.1
        (.sweepRemoval sweep names (counted.erase name)))

def program (cfg : ServerConfig) : Program AppState Operation Task Answer where
  begin := begin
  advance := advance cfg

def init : System AppState Task where
  state := AppState.new
  tasks := []

def Task.isDone : Task -> Bool
  | .done => true
  | _ => false

def Quiet (s : System AppState Task) : Prop :=
  forall t, t ∈ s.tasks -> t.isDone = true

instance (s : System AppState Task) : Decidable (Quiet s) :=
  inferInstanceAs (Decidable (forall t, t ∈ s.tasks -> t.isDone = true))

def uses (runId : String) (p : ProxyInfo) : Bool :=
  p.consumesClientPort && p.runId = runId

def live (s : AppState) (runId : String) : Nat :=
  s.pm.list.countP (uses runId)

/-!
## What tasks owe
-/

/-- Live entries that the count does not have: new ones, and those that go next. -/
def Task.uncounted (runId : String) : Task -> Nat
  | .indexing _ next => next.uncounted runId
  | .takeover job port member _ => if job.counts port member && job.runId = runId then 1 else 0
  | .counting job port member => if job.counts port member && job.runId = runId then 1 else 0
  | .rollbackEntry job uncounted _ => if uncounted && job.runId = runId then 1 else 0
  | .sweepListing sweep counted => if sweep.runId = runId then counted.length else 0
  | .sweepRemoval sweep _ counted => if sweep.runId = runId then counted.length else 0
  | _ => 0

def Task.due (runId : String) : Task -> Nat
  | .indexing _ next => next.due runId
  | .takeover job _ member old => if releases member old && job.runId = runId then 1 else 0
  | .release info => if uses runId info then 1 else 0
  | _ => 0

/-- The task has passed the gate and has not counted its port. -/
def Task.claims (runId : String) : Task -> Nat
  | .indexing _ next => next.claims runId
  | .allocation job => if job.np.proxyType.consumesPort && job.runId = runId then 1 else 0
  | .entry job _ _ => if job.np.proxyType.consumesPort && job.runId = runId then 1 else 0
  | .takeover job port member _ => if job.counts port member && job.runId = runId then 1 else 0
  | .counting job port member => if job.counts port member && job.runId = runId then 1 else 0
  | .rollbackEntry job _ again =>
    if again && (job.np.proxyType.consumesPort && job.runId = runId) then 1 else 0
  | _ => 0

/-!
## Undisturbed steps
-/

def agrees (entry : Option ProxyInfo) (used : Bool) (runId : String) : Bool :=
  match entry with
  | none => !used
  | some p => p.consumesClientPort == used && (!used || p.runId == runId)

/-- The gate lets one registration of a client pass at a time, a takeover finds an old entry
whose count it is to release, a removal finds what was looked up or counted before, and nothing
takes more off a count than it has. -/
def undisturbed (cfg : ServerConfig) (s : System AppState Task) (answer : Answer) : Task -> Bool
  | .admission job =>
    overPortLimit cfg s.state job || answer.isRefused ||
      !(job.np.proxyType.consumesPort && decide (0 < cfg.maxPortsPerClient)) ||
      s.tasks.all fun t => t.claims job.runId == 0
  | .entry job port member =>
    match s.state.pm.registerInner job.runId (job.info port)
        (member || job.np.proxyType.replaceable) with
    | .error _ => true
    | .ok (_, _, replaced) =>
      job.counts port member == (job.info port).consumesClientPort &&
        replaced.all fun old => releases member old == old.consumesClientPort
  | .takeover job _ member old => !releases member old || decide (0 < s.state.portsUsed job.runId)
  | .rollbackCount job _ => decide (0 < s.state.portsUsed job.runId)
  | .rollbackEntry job uncounted _ =>
    agrees (s.state.pm.get job.np.proxyName) uncounted job.runId
  | .removal info =>
    (s.state.pm.get info.name).isNone ||
      agrees (s.state.pm.get info.name) info.consumesClientPort info.runId
  | .removalByName name => agrees (s.state.pm.get name) false ""
  | .release info => !info.consumesClientPort || decide (0 < s.state.portsUsed info.runId)
  | .sweepCounting sweep _ [] counted =>
    decide (counted.length ≤ s.state.portsUsed sweep.runId)
  | .sweepRemoval _ [] counted => counted.isEmpty
  | .sweepRemoval sweep (name :: _) counted =>
    agrees (s.state.pm.removeIfControlIdStart name sweep.controlId).2.2
      (decide (name ∈ counted)) sweep.runId
  | _ => true

/-!
## Counts
-/

theorem portsUsed_releaseClientPorts (s : AppState) (runId r : String) (n : Nat) :
    (s.releaseClientPorts runId n).portsUsed r =
      if r = runId then s.portsUsed r - n else s.portsUsed r := by
  unfold AppState.releaseClientPorts AppState.portsUsed
  cases hlookup : s.clientPortsUsed.lookup runId with
  | none =>
    dsimp only
    split
    · rename_i hr
      rw [hr, hlookup, Option.getD_none, Nat.zero_sub]
    · rfl
  | some count =>
    dsimp only
    split
    · rename_i hzero
      rw [Table.lookup_erase_eq]
      split
      · rename_i hr
        rw [hr, hlookup, Option.getD_none, Option.getD_some, hzero]
      · rfl
    · rw [Table.lookup_insert_eq]
      split
      · rename_i hr
        rw [hr, hlookup, Option.getD_some, Option.getD_some]
      · rfl

theorem portsUsed_rollbackClientPort (s : AppState) (runId r : String) :
    (s.rollbackClientPort runId).portsUsed r =
      if r = runId then s.portsUsed r - 1 else s.portsUsed r := by
  unfold AppState.rollbackClientPort AppState.portsUsed
  cases hlookup : s.clientPortsUsed.lookup runId with
  | none =>
    dsimp only
    split
    · rename_i hr
      rw [hr, hlookup]
      rfl
    · rfl
  | some count =>
    rw [Table.lookup_insert_eq]
    split
    · rename_i hr
      rw [hr, hlookup, Option.getD_some, Option.getD_some]
    · rfl

theorem portsUsed_countClientPort (s : AppState) (runId r : String) :
    (s.countClientPort runId).portsUsed r =
      s.portsUsed r + (if runId = r then 1 else 0) := by
  unfold AppState.countClientPort AppState.portsUsed
  rw [Table.lookup_insert_eq]
  by_cases hr : runId = r
  · rw [if_pos hr.symm, if_pos hr, hr, Option.getD_some]
  · rw [if_neg (Ne.symm hr), if_neg hr, Nat.add_zero]

theorem portsUsed_release {s : AppState} {runId : String} {n : Nat}
    (h : n ≤ s.portsUsed runId) (r : String) :
    (s.releaseClientPorts runId n).portsUsed r + (if runId = r then n else 0) =
      s.portsUsed r := by
  rw [portsUsed_releaseClientPorts]
  by_cases hr : runId = r
  · rw [hr] at h
    rw [if_pos hr.symm, if_pos hr]
    exact Nat.sub_add_cancel h
  · rw [if_neg (Ne.symm hr), if_neg hr, Nat.add_zero]

variable {runId : String}

theorem portsUsed_rollback {s : AppState} (h : 0 < s.portsUsed runId) (r : String) :
    (s.rollbackClientPort runId).portsUsed r + (if runId = r then 1 else 0) = s.portsUsed r := by
  rw [portsUsed_rollbackClientPort]
  by_cases hr : runId = r
  · rw [hr] at h
    rw [if_pos hr.symm, if_pos hr]
    exact Nat.sub_add_cancel h
  · rw [if_neg (Ne.symm hr), if_neg hr, Nat.add_zero]

@[simp] theorem live_releaseClientPorts (s : AppState) (runId r : String) (n : Nat) :
    live (s.releaseClientPorts runId n) r = live s r := by
  unfold AppState.releaseClientPorts
  split
  · rfl
  · rfl

@[simp] theorem live_rollbackClientPort (s : AppState) (runId r : String) :
    live (s.rollbackClientPort runId) r = live s r := by
  unfold AppState.rollbackClientPort
  split
  · rfl
  · rfl

@[simp] theorem live_countClientPort (s : AppState) (runId r : String) :
    live (s.countClientPort runId) r = live s r := rfl

/-!
## Live proxies
-/

theorem countP_values_erase (t : Table String ProxyInfo) (name : String) (p : ProxyInfo -> Bool) :
    ((t.erase name).entries.map Sigma.snd).countP p + (if (t.lookup name).any p then 1 else 0) =
      (t.entries.map Sigma.snd).countP p := by
  cases hlookup : t.lookup name with
  | none => rw [Table.entries_erase_of_none hlookup, Option.any_none, if_neg Bool.false_ne_true,
      Nat.add_zero]
  | some info =>
    have hperm := (Table.entries_erase_of_some hlookup).map Sigma.snd
    rw [hperm.countP_eq, map_cons, countP_cons, Option.any_some]

theorem live_insert (s : AppState) (pm : ProxyManager) (info : ProxyInfo) (r : String)
    (h : pm.proxies = s.pm.proxies.insert info.name info) :
    live { s with pm := pm } r + (if (s.pm.get info.name).any (uses r) then 1 else 0) =
      live s r + (if uses r info then 1 else 0) := by
  have herase := countP_values_erase s.pm.proxies info.name (uses r)
  unfold live ProxyManager.list ProxyManager.get
  rw [h, Table.entries_insert, map_cons, countP_cons]
  dsimp only
  omega

theorem live_of_proxies (s : AppState) (pm : ProxyManager) (r : String)
    (h : pm.proxies = s.pm.proxies) : live { s with pm := pm } r = live s r := by
  unfold live ProxyManager.list
  rw [h]

theorem live_removeWhen (s : AppState) (test : ProxyInfo -> Bool) (name r : String) :
    live { s with pm := (ProxyManager.removeWhen test s.pm name).1 } r +
        (if (ProxyManager.removeWhen test s.pm name).2.2.any (uses r) then 1 else 0) =
      live s r := by
  unfold ProxyManager.removeWhen
  cases hlookup : s.pm.proxies.lookup name with
  | none => rfl
  | some info =>
    dsimp only
    split
    · have herase := countP_values_erase s.pm.proxies name (uses r)
      rw [hlookup] at herase
      exact herase
    · rfl

theorem removeStart_removed (pm : ProxyManager) (name : String) :
    (pm.removeStart name).2.2 = pm.get name := by
  unfold ProxyManager.removeStart ProxyManager.removeWhen ProxyManager.get
  cases pm.proxies.lookup name with
  | none => rfl
  | some info => rfl

theorem any_uses_of_agrees {entry : Option ProxyInfo} {used : Bool}
    (h : agrees entry used runId = true) (r : String) :
    entry.any (uses r) = (used && decide (runId = r)) := by
  unfold agrees at h
  cases entry with
  | none =>
    cases used with
    | false => rfl
    | true => cases h
  | some p =>
    rw [Bool.and_eq_true, beq_iff_eq] at h
    rw [Option.any_some, uses, h.1]
    cases used with
    | false => rfl
    | true =>
      have hrun : p.runId = runId := by simpa using h.2
      rw [hrun]

theorem live_removed {s : AppState} {test : ProxyInfo -> Bool} {name : String} {used : Bool}
    (h : agrees (ProxyManager.removeWhen test s.pm name).2.2 used runId = true) (r : String) :
    live { s with pm := (ProxyManager.removeWhen test s.pm name).1 } r +
        (if used && runId = r then 1 else 0) = live s r := by
  have hlive := live_removeWhen s test name r
  rw [any_uses_of_agrees h r] at hlive
  exact hlive

/-!
## The balance
-/

def Keeps (r : String) (s : AppState) (t : Task) (next : AppState × Task) : Prop :=
  next.1.portsUsed r + next.2.uncounted r + (live s r + t.due r) =
    s.portsUsed r + t.uncounted r + (live next.1 r + next.2.due r)

section Steps

variable {cfg : ServerConfig} {s : System AppState Task} {answer : Answer} {r : String}

variable {job : Job}

variable {port : UInt16} {member : Bool}

theorem entry_keeps (h : undisturbed cfg s answer (.entry job port member) = true) :
    Keeps r s.state (.entry job port member) (register s.state job port member) := by
  unfold undisturbed at h
  dsimp only at h
  unfold register
  cases hinner : s.state.pm.registerInner job.runId (job.info port)
      (member || job.np.proxyType.replaceable) with
  | error e => rfl
  | ok result =>
    rcases result with ⟨pm, steps, replaced⟩
    rw [hinner, Bool.and_eq_true, beq_iff_eq] at h
    rcases ProxyManager.registerInner_ok hinner with ⟨hpm, _, hreplaced, hqualified⟩
    have hlive := live_insert s.state pm (job.info port) r (by rw [hpm])
    have hnew : uses r (job.info port) =
        (job.counts port member && decide (job.runId = r)) := by
      rw [h.1]
      rfl
    rw [hnew, ProxyManager.get, ← hreplaced] at hlive
    cases replaced with
    | none =>
      simp only [Keeps, Task.uncounted, Task.due]
      simp only [Option.any_none, Bool.false_eq_true, if_false] at hlive
      show s.state.portsUsed r + _ + _ = _
      omega
    | some old =>
      have hrun : old.runId = job.runId :=
        ProxyManager.qualified_runId (hqualified old rfl)
      have hold : uses r old = (releases member old && decide (job.runId = r)) := by
        have hreleases := h.2
        rw [Option.all_some, beq_iff_eq] at hreleases
        rw [hreleases, uses, hrun]
      rw [Option.any_some, hold] at hlive
      simp only [Keeps, Task.uncounted, Task.due]
      show s.state.portsUsed r + _ + _ = _
      omega

variable {t next : Task}

theorem removal_keeps {name : String} {used : Bool} {test : ProxyInfo -> Bool}
    (h : agrees (ProxyManager.removeWhen test s.state.pm name).2.2 used runId = true)
    (howes : next.uncounted r + t.due r + (if used && runId = r then 1 else 0) =
      t.uncounted r + next.due r) :
    Keeps r s.state t
      ({ s.state with pm := (ProxyManager.removeWhen test s.state.pm name).1 }, next) := by
  have hlive := live_removed h r
  show s.state.portsUsed r + _ + _ = _
  dsimp only
  omega

theorem released_keeps {due : Bool} (h : (!due || decide (0 < s.state.portsUsed runId)) = true)
    (hdue : t.due r = if due && runId = r then 1 else 0) (hnext : next.due r = 0)
    (huncounted : next.uncounted r = t.uncounted r) :
    Keeps r s.state t (if due then s.state.releaseClientPorts runId 1 else s.state, next) := by
  unfold Keeps
  rw [hdue, hnext, huncounted]
  cases due with
  | false =>
    simp only [Bool.false_and, Bool.false_eq_true, if_false]
  | true =>
    have hpos : 0 < s.state.portsUsed runId := by simpa using h
    have hrelease := @portsUsed_release _ _ 1 hpos r
    simp only [Bool.true_and, decide_eq_true_eq, if_true, live_releaseClientPorts]
    omega

theorem counting_keeps :
    Keeps r s.state (.counting job port member)
      (advance cfg answer s.state (.counting job port member)) := by
  rw [advance, Keeps]
  dsimp only [Task.uncounted, Task.due]
  have hnext : (if member then Task.done else Task.routing job).uncounted r = 0 ∧
      (if member then Task.done else Task.routing job).due r = 0 := by
    cases member with
    | false => exact ⟨rfl, rfl⟩
    | true => exact ⟨rfl, rfl⟩
  rw [hnext.1, hnext.2]
  cases job.counts port member with
  | false => simp only [Bool.false_and, Bool.false_eq_true, if_false]
  | true =>
    have hcount := portsUsed_countClientPort s.state job.runId r
    simp only [Bool.true_and, decide_eq_true_eq, if_true, live_countClientPort]
    omega

theorem rollbackCount_keeps {again : Bool}
    (h : undisturbed cfg s answer (.rollbackCount job again) = true) :
    Keeps r s.state (.rollbackCount job again)
      (advance cfg answer s.state (.rollbackCount job again)) := by
  have hrollback := portsUsed_rollback (of_decide_eq_true h) r
  rw [advance, Keeps]
  dsimp only [Task.uncounted, Task.due]
  simp only [Bool.true_and, decide_eq_true_eq, live_rollbackClientPort]
  omega

theorem sweepRelease_keeps {sweep : Sweep} {counted : List String}
    (h : counted.length ≤ s.state.portsUsed sweep.runId)
    (ht : t.uncounted r = 0 ∧ t.due r = 0)
    (hnext : next.uncounted r = (if sweep.runId = r then counted.length else 0) ∧
      next.due r = 0) :
    Keeps r s.state t
      (if 0 < counted.length then s.state.releaseClientPorts sweep.runId counted.length
        else s.state, next) := by
  unfold Keeps
  dsimp only
  rw [ht.1, ht.2, hnext.1, hnext.2]
  split
  · have hrelease := portsUsed_release h r
    rw [live_releaseClientPorts]
    omega
  · rename_i hzero
    rw [Nat.eq_zero_of_not_pos hzero, ite_self]

theorem found_keeps {name : String} {used : Bool} {runId : String} {t found : Task}
    (h : ((s.state.pm.get name).isNone || agrees (s.state.pm.get name) used runId) = true)
    (ht : t.uncounted r = 0 ∧ t.due r = 0)
    (hfound : found.uncounted r = 0 ∧ found.due r = if used && runId = r then 1 else 0) :
    Keeps r s.state t (remove s.state name found) := by
  rw [← removeStart_removed] at h
  unfold remove
  cases hremoved : (s.state.pm.removeStart name).2.2 with
  | none =>
    have hagrees : agrees (s.state.pm.removeStart name).2.2 false runId = true := by
      rw [hremoved]
      rfl
    refine removal_keeps hagrees ?_
    rw [ht.1, ht.2]
    rfl
  | some info =>
    rw [hremoved, Option.isNone_some, Bool.false_or, ← hremoved] at h
    refine removal_keeps h ?_
    rw [Option.isSome_some, if_pos rfl]
    dsimp only [Task.uncounted, Task.due]
    rw [ht.1, ht.2, hfound.1, hfound.2]

theorem sweepRemoval_keeps {sweep : Sweep} {name : String} {names counted : List String}
    (h : undisturbed cfg s answer (.sweepRemoval sweep (name :: names) counted) = true) :
    Keeps r s.state (.sweepRemoval sweep (name :: names) counted)
      (advance cfg answer s.state (.sweepRemoval sweep (name :: names) counted)) := by
  refine removal_keeps h ?_
  dsimp only [Task.uncounted, Task.due]
  by_cases hr : sweep.runId = r
  · by_cases hmem : name ∈ counted
    · have hlength := length_erase_of_mem hmem
      have hpos := length_pos_of_mem hmem
      simp only [hr, hmem, if_true, decide_true, Bool.and_self]
      omega
    · rw [erase_of_not_mem hmem]
      simp [hmem]
  · simp [hr]

/-- Every undisturbed step of a task keeps the balance. -/
theorem advance_keeps (h : undisturbed cfg s answer t = true) :
    Keeps r s.state t (advance cfg answer s.state t) := by
  cases t with
  | done => rfl
  | indexing steps next =>
    cases steps with
    | nil => rfl
    | cons st steps =>
      have hlive := live_of_proxies s.state (s.state.pm.exec st) r
        (ProxyManager.exec_proxies _ _)
      rw [advance, Keeps]
      rw [hlive]
      rfl
  | admission job =>
    rw [advance]
    split
    · rfl
    · cases answer with
      | refused again => rfl
      | granted port joins => rfl
  | allocation job =>
    cases answer with
    | refused again => rfl
    | granted port joins => rfl
  | entry job port member => exact entry_keeps h
  | takeover job port member old =>
    exact released_keeps h rfl rfl rfl
  | counting job port member => exact counting_keeps
  | routing job =>
    cases answer with
    | refused again =>
      rw [advance, routed]
      split
      · rfl
      · rfl
    | granted port joins => rfl
  | listening job =>
    cases answer with
    | refused again =>
      rw [advance, bound]
      split
      · rfl
      · rfl
      · rfl
    | granted port joins => rfl
  | rollbackCount job again => exact rollbackCount_keeps h
  | rollbackEntry job uncounted again =>
    rw [undisturbed, ← removeStart_removed] at h
    refine removal_keeps h ?_
    cases again with
    | false => simp [Task.uncounted, Task.due]
    | true => simp [Task.uncounted, Task.due]
  | closing runId name =>
    rw [advance]
    split
    · rfl
    · rfl
  | closingEntry name =>
    rw [advance]
    split
    · rfl
    · rfl
  | deletion name =>
    rw [advance]
    split
    · rfl
    · rfl
  | removal info =>
    exact found_keeps h ⟨rfl, rfl⟩ ⟨rfl, rfl⟩
  | removalByName name =>
    rw [undisturbed] at h
    refine @found_keeps s r name false "" _ _ ?_ ⟨rfl, rfl⟩ ⟨rfl, rfl⟩
    rw [h, Bool.or_true]
  | release info =>
    exact released_keeps h rfl rfl rfl
  | listing sweep => rfl
  | sweeping sweep names => rfl
  | sweepCounting sweep names batch counted =>
    cases batch with
    | nil =>
      cases names with
      | none => exact sweepRelease_keeps (of_decide_eq_true h) ⟨rfl, rfl⟩ ⟨rfl, rfl⟩
      | some names => exact sweepRelease_keeps (of_decide_eq_true h) ⟨rfl, rfl⟩ ⟨rfl, rfl⟩
    | cons p batch => rfl
  | sweepListing sweep counted => rfl
  | sweepRemoval sweep names counted =>
    cases names with
    | nil =>
      rw [undisturbed, List.isEmpty_iff] at h
      rw [advance, Keeps, h]
      dsimp only [Task.uncounted, Task.due]
      rw [length_nil, ite_self]
    | cons name names => exact sweepRemoval_keeps h

/-!
## The limit
-/

def Bounds (r : String) (s : AppState) (t : Task) (next : AppState × Task) : Prop :=
  next.1.portsUsed r + next.2.claims r ≤ s.portsUsed r + t.claims r

theorem portsUsed_release_le (s : AppState) (runId r : String) (n : Nat) :
    (s.releaseClientPorts runId n).portsUsed r ≤ s.portsUsed r := by
  rw [portsUsed_releaseClientPorts]
  split
  · exact Nat.sub_le _ _
  · exact Nat.le_refl _

theorem entry_bounds (h : undisturbed cfg s answer (.entry job port member) = true) :
    Bounds r s.state (.entry job port member) (register s.state job port member) := by
  unfold undisturbed at h
  dsimp only at h
  unfold register
  cases hinner : s.state.pm.registerInner job.runId (job.info port)
      (member || job.np.proxyType.replaceable) with
  | error e => exact Nat.add_le_add_left (Nat.zero_le _) _
  | ok result =>
    rcases result with ⟨pm, steps, replaced⟩
    rw [hinner, Bool.and_eq_true, beq_iff_eq] at h
    have hclaims : (if job.counts port member && decide (job.runId = r) then 1 else 0) ≤
        (if job.np.proxyType.consumesPort && decide (job.runId = r) then 1 else 0) := by
      rw [h.1]
      show (if job.np.proxyType.consumesPort && decide (0 < port) && decide (job.runId = r)
        then 1 else 0) ≤ _
      cases job.np.proxyType.consumesPort with
      | false => exact Nat.le_refl _
      | true =>
        cases decide (job.runId = r) with
        | false => rw [Bool.and_false, Bool.and_false]
        | true =>
          cases decide (0 < port) with
          | false => exact Nat.zero_le _
          | true => exact Nat.le_refl _
    cases replaced with
    | none => exact Nat.add_le_add_left hclaims _
    | some old => exact Nat.add_le_add_left hclaims _

theorem admission_bounds (hlimit : 0 < cfg.maxPortsPerClient)
    (h : undisturbed cfg s answer (.admission job) = true) :
    Bounds r s.state (.admission job) (advance cfg answer s.state (.admission job)) ∨
      (forall t, t ∈ s.tasks -> t.claims r = 0) ∧
        (advance cfg answer s.state (.admission job)).1.portsUsed r +
          (advance cfg answer s.state (.admission job)).2.claims r ≤ cfg.maxPortsPerClient := by
  rw [undisturbed] at h
  rw [advance]
  cases hover : overPortLimit cfg s.state job with
  | true =>
    left
    exact Nat.le_refl _
  | false =>
    cases answer with
    | refused again =>
      left
      exact Nat.le_refl _
    | granted port joins =>
      by_cases hclaim : (job.np.proxyType.consumesPort && decide (job.runId = r)) = true
      · rw [Bool.and_eq_true] at hclaim
        have hrun : job.runId = r := of_decide_eq_true hclaim.2
        rw [hover, hclaim.1, hrun] at h
        rw [overPortLimit, hclaim.1, hrun, decide_eq_true hlimit] at hover
        right
        constructor
        · simpa [Answer.isRefused, hlimit] using h
        · have hroom : ¬ cfg.maxPortsPerClient < s.state.portsUsed r + 1 := by
            simpa using hover
          show s.state.portsUsed r + (Task.allocation job).claims r ≤ _
          rw [Task.claims, hclaim.1, decide_eq_true hrun, Bool.true_and, if_pos rfl]
          omega
      · left
        show s.state.portsUsed r + (Task.allocation job).claims r ≤ _
        rw [Task.claims, if_neg hclaim]
        exact Nat.le_refl _

theorem counting_bounds :
    Bounds r s.state (.counting job port member)
      (advance cfg answer s.state (.counting job port member)) := by
  have hnext : (if member then Task.done else Task.routing job).claims r = 0 := by
    cases member with
    | false => rfl
    | true => rfl
  rw [advance, Bounds]
  dsimp only [Task.claims]
  rw [hnext]
  cases job.counts port member with
  | false =>
    exact Nat.le_refl _
  | true =>
    have hcount := portsUsed_countClientPort s.state job.runId r
    simp only [Bool.true_and, decide_eq_true_eq, if_true]
    omega

theorem rollbackCount_bounds {again : Bool}
    (h : undisturbed cfg s answer (.rollbackCount job again) = true) :
    Bounds r s.state (.rollbackCount job again)
      (advance cfg answer s.state (.rollbackCount job again)) := by
  have hrollback := portsUsed_rollback (of_decide_eq_true h) r
  rw [advance, Bounds]
  dsimp only [Task.claims]
  by_cases hr : job.runId = r
  · rw [if_pos hr] at hrollback
    split
    · omega
    · omega
  · simp only [hr, decide_false, Bool.and_false, Bool.false_eq_true, if_false]
    omega

theorem released_bounds {n : Nat} {p : Prop} [Decidable p] (h : next.claims r ≤ t.claims r) :
    Bounds r s.state t (if p then s.state.releaseClientPorts runId n else s.state, next) := by
  unfold Bounds
  split
  · exact Nat.add_le_add (portsUsed_release_le _ _ _ _) h
  · exact Nat.add_le_add_left h _

theorem advance_bounds (hlimit : 0 < cfg.maxPortsPerClient) (h : undisturbed cfg s answer t = true) :
    Bounds r s.state t (advance cfg answer s.state t) ∨
      (forall t', t' ∈ s.tasks -> t'.claims r = 0) ∧
        (advance cfg answer s.state t).1.portsUsed r +
          (advance cfg answer s.state t).2.claims r ≤ cfg.maxPortsPerClient := by
  cases t with
  | admission job => exact admission_bounds hlimit h
  | done => exact .inl (Nat.le_refl _)
  | indexing steps next =>
    cases steps with
    | nil => exact .inl (Nat.le_refl _)
    | cons st steps => exact .inl (Nat.le_refl _)
  | allocation job =>
    cases answer with
    | refused again => exact .inl (Nat.add_le_add_left (Nat.zero_le _) _)
    | granted port joins => exact .inl (Nat.le_refl _)
  | entry job port member => exact .inl (entry_bounds h)
  | takeover job port member old =>
    left
    exact released_bounds (Nat.le_refl _)
  | counting job port member => exact .inl counting_bounds
  | routing job =>
    left
    cases answer with
    | refused again =>
      rw [advance, routed]
      split
      · exact Nat.le_refl _
      · exact Nat.le_refl _
    | granted port joins => exact Nat.le_refl _
  | listening job =>
    left
    cases answer with
    | refused again =>
      rw [advance, bound]
      split
      · exact Nat.le_refl _
      · exact Nat.le_refl _
      · exact Nat.le_refl _
    | granted port joins => exact Nat.le_refl _
  | rollbackCount job again => exact .inl (rollbackCount_bounds h)
  | rollbackEntry job uncounted again =>
    left
    cases again with
    | false => exact Nat.le_refl _
    | true => exact Nat.le_refl _
  | closing runId name =>
    left
    rw [advance]
    split
    · exact Nat.le_refl _
    · exact Nat.le_refl _
  | closingEntry name =>
    left
    rw [advance]
    split
    · exact Nat.le_refl _
    · exact Nat.le_refl _
  | deletion name =>
    left
    rw [advance]
    split
    · exact Nat.le_refl _
    · exact Nat.le_refl _
  | removal info =>
    left
    rw [advance, remove]
    split
    · exact Nat.le_refl _
    · exact Nat.le_refl _
  | removalByName name =>
    left
    rw [advance, remove]
    split
    · exact Nat.le_refl _
    · exact Nat.le_refl _
  | release info =>
    left
    exact released_bounds (Nat.le_refl _)
  | listing sweep => exact .inl (Nat.le_refl _)
  | sweeping sweep names => exact .inl (Nat.le_refl _)
  | sweepCounting sweep names batch counted =>
    left
    cases batch with
    | nil =>
      cases names with
      | none => exact released_bounds (Nat.le_refl _)
      | some names => exact released_bounds (Nat.le_refl _)
    | cons p batch => exact Nat.le_refl _
  | sweepListing sweep counted => exact .inl (Nat.le_refl _)
  | sweepRemoval sweep names counted =>
    left
    cases names with
    | nil => exact Nat.le_refl _
    | cons name names => exact Nat.le_refl _

end Steps

/-!
## Runs
-/

theorem eq_done {t : Task} (h : t.isDone = true) : t = .done := by
  cases t with
  | done => rfl
  | _ => cases h

theorem begin_owes_nothing (op : Operation) (r : String) :
    (begin op).uncounted r = 0 ∧ (begin op).due r = 0 ∧ (begin op).claims r = 0 := by
  cases op with
  | newProxy job => exact ⟨rfl, rfl, rfl⟩
  | closeProxy runId name => exact ⟨rfl, rfl, rfl⟩
  | deleteProxy name => exact ⟨rfl, rfl, rfl⟩
  | cleanup sweep => exact ⟨rfl, rfl, rfl⟩
  | reap sweep => exact ⟨rfl, rfl, rfl⟩

def Undisturbed (cfg : ServerConfig) (events : List (Event Operation Answer)) : Prop :=
  Run.Along (program cfg).step
    (fun s e => s.Steps (fun s answer t => undisturbed cfg s answer t = true) e) init events

instance (cfg : ServerConfig) (events : List (Event Operation Answer)) :
    Decidable (Undisturbed cfg events) :=
  inferInstanceAs (Decidable (Run.Along _ _ _ _))

section Runs

variable {cfg : ServerConfig} {events : List (Event Operation Answer)}

theorem run_balanced (h : Undisturbed cfg events) (r : String) :
    Tasks.Balanced (fun s => s.portsUsed r) (fun s => live s r) (Task.uncounted r) (Task.due r)
      (Run.run (program cfg).step init events) := by
  refine Run.run_invariant ?_ ?_ h
  · intro s e hs hgood
    refine balanced_step ?_ ?_ hs hgood
    · intro op
      exact ⟨(begin_owes_nothing op r).1, (begin_owes_nothing op r).2.1⟩
    · intro s answer t hgood
      exact advance_keeps hgood
  · rfl

theorem run_within (h : Undisturbed cfg events) (hlimit : 0 < cfg.maxPortsPerClient)
    (r : String) :
    Within cfg.maxPortsPerClient (fun s => s.portsUsed r) (Task.claims r)
      (Run.run (program cfg).step init events) := by
  refine Run.run_invariant ?_ ?_ h
  · intro s e hs hgood
    refine within_step ?_ ?_ hs hgood
    · intro op
      exact (begin_owes_nothing op r).2.2
    · intro s answer t _ hgood
      exact advance_bounds hlimit hgood
  · exact Nat.zero_le _

/-- Without operations in progress, the count of a client is the number of its live proxies with
a port, which is within the limit, and the gate refuses just the port that would exceed it. -/
theorem ports_used_exact (cfg : ServerConfig) (events : List (Event Operation Answer))
    (h : Undisturbed cfg events) (hquiet : Quiet (Run.run (program cfg).step init events))
    (r : String) :
    let s := (Run.run (program cfg).step init events).state
    s.portsUsed r = live s r ∧
    (0 < cfg.maxPortsPerClient -> live s r ≤ cfg.maxPortsPerClient) ∧
    forall job : Job, job.runId = r ->
      (overPortLimit cfg s job = true ↔ job.np.proxyType.consumesPort = true ∧
        0 < cfg.maxPortsPerClient ∧ cfg.maxPortsPerClient < live s r + 1) := by
  intro s
  have hzero : forall weight : Task -> Nat, weight .done = 0 ->
      total weight (Run.run (program cfg).step init events).tasks = 0 := by
    intro weight hdone
    apply total_eq_zero
    intro t hmem
    rw [eq_done (hquiet t hmem), hdone]
  have hbalance := run_balanced h r
  unfold Tasks.Balanced at hbalance
  rw [hzero _ rfl, hzero _ rfl, Nat.add_zero, Nat.add_zero] at hbalance
  have hexact : s.portsUsed r = live s r := hbalance
  refine ⟨hexact, ?_, ?_⟩
  · intro hlimit
    have hwithin := run_within h hlimit r
    unfold Within at hwithin
    rw [hzero _ rfl, Nat.add_zero] at hwithin
    rw [← hexact]
    exact hwithin
  · intro job hrun
    rw [overPortLimit, hrun, hexact, Bool.and_eq_true,
      Bool.and_eq_true, decide_eq_true_eq, decide_eq_true_eq, and_assoc]

end Runs

/-!
## Two runs
-/

def sampleConfig : ServerConfig where
  maxPortsPerClient := 2
  maxProxiesPerClient := 0
  maxCustomDomainsPerProxy := 0
  sudpPort := 0
  subDomainHost := ""
  proxyBindAddr := "0.0.0.0"
  detailedErrorsToClient := true
  toLowercase := String.toLower

def sampleJob (name runId : String) (controlId : Nat) : Job where
  np :=
    { proxyName := name
      proxyType := .tcp
      group := none
      groupKey := none
      remotePort := none
      sk := none
      customDomains := none
      subdomain := none
      locations := none
      httpUser := none
      httpPwd := none
      hostHeaderRewrite := none
      headers := none
      routeByHttpUser := none
      bandwidthLimit := none
      bandwidthLimitMode := none
      multiplexer := none }
  runId := runId
  controlId := controlId

def steps (task n : Nat) (port : UInt16) : List (Event Operation Answer) :=
  replicate n (.advance task (.granted port false))

def whole (task : Nat) (op : Operation) (port : UInt16) : List (Event Operation Answer) :=
  .start op :: steps task 16 port

/-- Two clients register at the same time, and then a proxy is closed and deleted at once. -/
def sampleRun : List (Event Operation Answer) :=
  .start (.newProxy (sampleJob "a" "r" 1)) :: .start (.newProxy (sampleJob "b" "q" 2)) ::
    (steps 0 3 7000 ++ steps 1 5 7001 ++ steps 0 5 7000 ++ steps 1 3 7001) ++
  .start (.closeProxy "r" "a") :: .start (.deleteProxy "a") ::
    (steps 2 2 0 ++ steps 3 2 0 ++ steps 2 8 0 ++ steps 3 8 0)

theorem ports_used_exact_sample :
    (Run.run (program sampleConfig).step init sampleRun).state.portsUsed "q" = 1 ∧
      (Run.run (program sampleConfig).step init sampleRun).state.portsUsed "r" = 0 := by
  have hexact := ports_used_exact sampleConfig sampleRun (by decide +kernel) (by decide +kernel)
  constructor
  · exact (hexact "q").1.trans (by decide +kernel)
  · exact (hexact "r").1.trans (by decide +kernel)

/-- Two generations of a client have a proxy each, and the newer one ends first.  Its sweep takes
both proxies off the count and leaves the older one alive.  The next generation then gets two
ports more, one at a time. -/
def driftingRun : List (Event Operation Answer) :=
  whole 0 (.newProxy (sampleJob "a" "r" 1)) 7000 ++
  whole 1 (.newProxy (sampleJob "b" "r" 2)) 7001 ++
  whole 2 (.cleanup ⟨"r", 2⟩) 0 ++
  whole 3 (.newProxy (sampleJob "c" "r" 3)) 7002 ++
  whole 4 (.newProxy (sampleJob "d" "r" 3)) 7003

theorem ports_used_drifts :
    Quiet (Run.run (program sampleConfig).step init driftingRun) ∧
    (Run.run (program sampleConfig).step init driftingRun).state.portsUsed "r" = 2 ∧
    live (Run.run (program sampleConfig).step init driftingRun).state "r" = 3 ∧
    sampleConfig.maxPortsPerClient = 2 := by
  decide +kernel

end PortBudget
end Server
end FrpRs
