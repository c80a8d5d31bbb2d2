import FrpRs.Data.Run
import FrpRs.Data.Table

/-!
# The proxy registry

`ProxyManager` of `frp-server/src/proxy.rs`: the live proxies under their names, an index
of them by client and an index of names by group.

A call changes the primary map in one step and returns the index updates it still owes,
one for each lock it awaits afterwards.  `complete` runs them at once.
-/

namespace FrpRs
namespace Server

/-- The types that some code compares with; any other text is a type of its own. -/
inductive ProxyType where
  | tcp
  | udp
  | sudp
  | http
  | https
  | tcpmux
  | stcp
  | xtcp
  | vnet
  | other (name : String)
deriving DecidableEq, Repr

structure ProxyInfo where
  name : String
  proxyType : ProxyType
  runId : String
  controlId : Nat
  remotePort : Option UInt16
  sk : Option String
  group : Option String
  groupKey : Option String
  bandwidthLimit : String
  bandwidthLimitMode : String
deriving DecidableEq, Repr

inductive HealthState where
  | healthy
  | unhealthy
deriving DecidableEq, Repr

structure GroupMemberHealth where
  state : HealthState
  consecutiveFailures : Nat
  lastFailure : Option Nat
deriving DecidableEq, Repr

structure ProxyManager where
  proxies : Table String ProxyInfo
  byClient : Table String (Table String ProxyInfo)
  groups : Table String (List String)
  -- a `u64` that goes up by one with each selection
  groupCounters : Table String Nat
  groupHealth : Table String GroupMemberHealth
  healthTrackingActive : Bool

namespace ProxyInfo

def groupName (p : ProxyInfo) : Option String :=
  p.group.filter fun g => g ≠ ""

def skIndexKey (p : ProxyInfo) : Option String :=
  (p.sk.filter fun sk => sk ≠ "").map fun _ => p.name

theorem groupName_eq_some {p : ProxyInfo} {g : String} :
    p.groupName = some g ↔ p.group = some g ∧ g ≠ "" := by
  rw [groupName, Option.filter_eq_some_iff]
  simp

end ProxyInfo

/-- An index update that a call makes once it gets the lock of the index. -/
inductive IndexStep where
  | leaveGroup (name group : String)
  | joinGroup (name group : String)
  | insertClient (runId name : String) (info : ProxyInfo)
  | removeClientRow (runId name : String)
  | dropHealth (names : List String)
  | resyncClients
deriving DecidableEq

namespace ProxyManager

def new : ProxyManager where
  proxies := ∅
  byClient := ∅
  groups := ∅
  groupCounters := ∅
  groupHealth := ∅
  healthTrackingActive := false

def get (pm : ProxyManager) (name : String) : Option ProxyInfo :=
  pm.proxies.lookup name

/-- `by_client[run_id][name]`. -/
def row (pm : ProxyManager) (runId name : String) : Option ProxyInfo :=
  (pm.byClient.lookup runId).bind fun row => row.lookup name

def members (pm : ProxyManager) (group : String) : List String :=
  (pm.groups.lookup group).getD []

def groupLen (pm : ProxyManager) (group : String) : Nat :=
  (pm.members group).length

def clientProxyCount (pm : ProxyManager) (runId : String) : Nat :=
  ((pm.byClient.lookup runId).map Table.size).getD 0

def listClient (pm : ProxyManager) (runId : String) : List ProxyInfo :=
  ((pm.byClient.lookup runId).map fun row => row.entries.map Sigma.snd).getD []

def listClientProxyNames (pm : ProxyManager) (runId : String) : List String :=
  ((pm.byClient.lookup runId).map fun row => row.entries.map Sigma.fst).getD []

def getRunId (pm : ProxyManager) (name : String) : Option String :=
  (pm.get name).map ProxyInfo.runId

def list (pm : ProxyManager) : List ProxyInfo :=
  pm.proxies.entries.map Sigma.snd

/-!
## Index updates
-/

/-- The last member takes the group and its round-robin counter with it. -/
def leaveGroup (pm : ProxyManager) (name group : String) : ProxyManager :=
  match pm.groups.lookup group with
  | none => pm
  | some members =>
    let rest := members.filter fun n => n ≠ name
    if rest = [] then
      { pm with
        groups := pm.groups.erase group
        groupCounters := pm.groupCounters.erase group }
    else { pm with groups := pm.groups.insert group rest }

def joinGroup (pm : ProxyManager) (name group : String) : ProxyManager :=
  let members := pm.members group
  { pm with
    groups := pm.groups.insert group
      (if name ∈ members then members else members ++ [name]) }

def insertClient (pm : ProxyManager) (runId name : String) (info : ProxyInfo) : ProxyManager :=
  { pm with
    byClient := pm.byClient.insert runId
      (((pm.byClient.lookup runId).getD ∅).insert name info) }

def removeClientRow (pm : ProxyManager) (runId name : String) : ProxyManager :=
  match pm.byClient.lookup runId with
  | none => pm
  | some row => { pm with byClient := pm.byClient.insert runId (row.erase name) }

def dropHealth (pm : ProxyManager) (names : List String) : ProxyManager :=
  let health := names.foldl (fun t n => AList.erase n t) pm.groupHealth
  { pm with
    groupHealth := health
    healthTrackingActive := if health.entries = [] then false else pm.healthTrackingActive }

def resyncClients (pm : ProxyManager) : ProxyManager :=
  let live := fun (n : String) (_ : ProxyInfo) => (pm.proxies.lookup n).isSome
  { pm with
    byClient := (pm.byClient.mapValues fun _ row => row.retain live).retain
      fun _ row => !row.entries.isEmpty }

def exec (pm : ProxyManager) : IndexStep -> ProxyManager
  | .leaveGroup name group => pm.leaveGroup name group
  | .joinGroup name group => pm.joinGroup name group
  | .insertClient runId name info => pm.insertClient runId name info
  | .removeClientRow runId name => pm.removeClientRow runId name
  | .dropHealth names => pm.dropHealth names
  | .resyncClients => pm.resyncClients

def complete (pm : ProxyManager) (steps : List IndexStep) : ProxyManager :=
  steps.foldl exec pm

/-!
## Calls
-/

def qualified (old : ProxyInfo) (runId : String) (info : ProxyInfo) : Bool :=
  old.runId = runId && old.controlId != 0 && info.controlId != 0 &&
    decide (old.controlId < info.controlId)

/-- What a registration leaves to the indexes. -/
def registerSteps (replaced : Option ProxyInfo) (runId : String) (info : ProxyInfo) :
    List IndexStep :=
  (match replaced.bind ProxyInfo.groupName with
    | some oldGroup =>
      if info.group ≠ some oldGroup then [.leaveGroup info.name oldGroup] else []
    | none => []) ++
  [.insertClient runId info.name info] ++
  (match info.groupName with
    | some group => [.joinGroup info.name group]
    | none => [])

/-- The replaced entry, or the text of the refusal. -/
def registerInner (pm : ProxyManager) (runId : String) (info : ProxyInfo) (replace : Bool) :
    Except String (ProxyManager × List IndexStep × Option ProxyInfo) :=
  let pm' := { pm with proxies := pm.proxies.insert info.name info }
  match pm.proxies.lookup info.name with
  | some old =>
    if replace && qualified old runId info then
      .ok (pm', registerSteps (some old) runId info, some old)
    else .error ("proxy '" ++ info.name ++ "' already registered")
  | none => .ok (pm', registerSteps none runId info, none)

/-- The arguments of `update_runtime`; `limitParses` is the result of
`parse_bandwidth_limit` for a limit that is not empty. -/
structure RuntimeUpdate where
  name : String
  bandwidthLimit : Option String
  bandwidthLimitMode : Option String
  limitParses : Bool

namespace RuntimeUpdate

/-- The text of the refusal, if a value is not accepted. -/
def refusal (u : RuntimeUpdate) : Option String :=
  (u.bandwidthLimit.bind fun limit =>
    if !limit.isEmpty && !u.limitParses then
      some ("invalid bandwidthLimit '" ++ limit ++ "' (e.g. 1MB, 2KB, 1GB)")
    else none).or
  (u.bandwidthLimitMode.bind fun mode =>
    if mode = "server" ∨ mode = "client" ∨ mode = "" then none
    else some "bandwidthLimitMode must be one of server, client, or empty")

def apply (u : RuntimeUpdate) (info : ProxyInfo) : ProxyInfo :=
  { info with
    bandwidthLimit := u.bandwidthLimit.getD info.bandwidthLimit
    bandwidthLimitMode := u.bandwidthLimitMode.getD info.bandwidthLimitMode }

end RuntimeUpdate

/-- The entry may be gone by the time its client's row is written, which is checked once
before that. -/
def updateRuntime (pm : ProxyManager) (u : RuntimeUpdate) :
    Except String (ProxyManager × List IndexStep) :=
  match u.refusal with
  | some text => .error text
  | none =>
    match pm.proxies.lookup u.name with
    | none => .error ("proxy '" ++ u.name ++ "' not found")
    | some info =>
      let updated := u.apply info
      let pm' := { pm with proxies := pm.proxies.insert u.name updated }
      if (pm'.proxies.lookup u.name).isNone then
        .error ("proxy '" ++ u.name ++ "' not found")
      else .ok (pm', [.insertClient updated.runId u.name updated])

/-- `cleanup_removed`: nothing is left to do if the name is live again. -/
def cleanupRemoved (pm : ProxyManager) (name : String) (info : ProxyInfo) : List IndexStep :=
  if (pm.proxies.lookup name).isSome then []
  else
    (match info.groupName with
      | some group => [.leaveGroup name group]
      | none => []) ++
    [.dropHealth [name], .removeClientRow info.runId name]

/-- `remove`, and `remove_if_control_id` with the test it makes under the shard lock. -/
def removeWhen (test : ProxyInfo -> Bool) (pm : ProxyManager) (name : String) :
    ProxyManager × List IndexStep × Option ProxyInfo :=
  match pm.proxies.lookup name with
  | none => (pm, [], none)
  | some info =>
    if test info then
      let pm' := { pm with proxies := pm.proxies.erase name }
      (pm', pm'.cleanupRemoved name info, some info)
    else (pm, [], none)

def removeStart (pm : ProxyManager) (name : String) :
    ProxyManager × List IndexStep × Option ProxyInfo :=
  removeWhen (fun _ => true) pm name

def removeIfControlIdStart (pm : ProxyManager) (name : String) (controlId : Nat) :
    ProxyManager × List IndexStep × Option ProxyInfo :=
  removeWhen (fun info => info.controlId = 0 || info.controlId = controlId) pm name

/-- The client's row and its proxies go in one step, their groups afterwards. -/
def removeClient (pm : ProxyManager) (runId : String) : ProxyManager × List IndexStep :=
  match pm.byClient.lookup runId with
  | none => (pm, [])
  | some row =>
    let removed := row.entries.map Sigma.snd
    ({ pm with
        byClient := pm.byClient.erase runId
        proxies := pm.proxies.retain fun _ info => info.runId != runId },
      removed.filterMap (fun p => p.groupName.map fun g => .leaveGroup p.name g) ++
        [.dropHealth (removed.map ProxyInfo.name), .resyncClients])

/-!
## Completed calls
-/

def register (pm : ProxyManager) (info : ProxyInfo) : Except String ProxyManager :=
  match pm.registerInner info.runId info false with
  | .error e => .error e
  | .ok (pm, steps, _) => .ok (pm.complete steps)

def registerOrReplace (pm : ProxyManager) (info : ProxyInfo) :
    Except String (ProxyManager × Option ProxyInfo) :=
  match pm.registerInner info.runId info true with
  | .error e => .error e
  | .ok (pm, steps, replaced) => .ok (pm.complete steps, replaced)

def remove (pm : ProxyManager) (name : String) : ProxyManager × Option ProxyInfo :=
  let (pm, steps, removed) := pm.removeStart name
  (pm.complete steps, removed)

def removeIfControlId (pm : ProxyManager) (name : String) (controlId : Nat) :
    ProxyManager × Option ProxyInfo :=
  let (pm, steps, removed) := pm.removeIfControlIdStart name controlId
  (pm.complete steps, removed)

/-!
## What an index update does
-/

variable (pm : ProxyManager)

@[simp] theorem exec_proxies (st : IndexStep) :
    (pm.exec st).proxies = pm.proxies := by
  cases st with
  | leaveGroup name group =>
    simp only [exec, leaveGroup]
    split
    · rfl
    · split <;> rfl
  | removeClientRow runId name =>
    simp only [exec, removeClientRow]
    split <;> rfl
  | joinGroup name group => rfl
  | insertClient runId name info => rfl
  | dropHealth names => rfl
  | resyncClients => rfl

@[simp] theorem complete_proxies (steps : List IndexStep) :
    (pm.complete steps).proxies = pm.proxies := by
  induction steps generalizing pm with
  | nil => rfl
  | cons st steps ih =>
    show (complete (pm.exec st) steps).proxies = pm.proxies
    rw [ih, exec_proxies]

theorem members_leaveGroup (name group g : String) :
    (pm.leaveGroup name group).members g =
      if g = group then (pm.members g).filter fun n => n ≠ name else pm.members g := by
  unfold leaveGroup members
  by_cases hg : g = group
  · subst hg
    cases hlookup : pm.groups.lookup g with
    | none => simp [hlookup]
    | some ms =>
      by_cases hrest : (ms.filter fun n => n ≠ name) = []
      · simp only [hrest, if_true, AList.lookup_erase, Option.getD_none, Option.getD_some]
      · simp only [hrest, if_false, if_true, AList.lookup_insert, Option.getD_some]
  · cases hlookup : pm.groups.lookup group with
    | none => simp [hg]
    | some ms =>
      by_cases hrest : (ms.filter fun n => n ≠ name) = []
      · simp only [hrest, if_true, AList.lookup_erase_ne hg, hg, if_false]
      · simp only [hrest, if_false, AList.lookup_insert_ne hg, hg]

theorem members_joinGroup (name group g : String) :
    (pm.joinGroup name group).members g =
      if g = group then
        if name ∈ pm.members g then pm.members g else pm.members g ++ [name]
      else pm.members g := by
  show ((pm.groups.insert group _).lookup g).getD [] = _
  rw [Table.lookup_insert_eq]
  by_cases hg : g = group
  · simp only [hg, if_true, Option.getD_some]
  · simp only [hg, if_false]
    rfl

theorem row_insertClient (runId name : String) (info : ProxyInfo) (r n : String) :
    (pm.insertClient runId name info).row r n =
      if r = runId ∧ n = name then some info else pm.row r n := by
  unfold insertClient row
  by_cases hr : r = runId
  · subst hr
    simp only [AList.lookup_insert, true_and, Option.bind_some, Table.lookup_insert_eq]
    split
    · rfl
    · cases pm.byClient.lookup r with
      | none => rfl
      | some row => rfl
  · simp only [AList.lookup_insert_ne hr, hr, if_false, false_and]

theorem row_removeClientRow (runId name r n : String) :
    (pm.removeClientRow runId name).row r n =
      if r = runId ∧ n = name then none else pm.row r n := by
  unfold removeClientRow row
  by_cases hr : r = runId
  · subst hr
    cases hrow : pm.byClient.lookup r with
    | none => simp [hrow]
    | some row =>
      simp only [AList.lookup_insert, true_and, Option.bind_some, Table.lookup_erase_eq]
  · cases hrow : pm.byClient.lookup runId with
    | none => simp [hr]
    | some row => simp only [AList.lookup_insert_ne hr, hr, false_and, if_false]

theorem row_resyncClients (r n : String) :
    pm.resyncClients.row r n =
      if (pm.proxies.lookup n).isSome then pm.row r n else none := by
  unfold resyncClients row
  simp only [Table.lookup_retain, Table.lookup_mapValues]
  cases hrow : pm.byClient.lookup r with
  | none => simp
  | some row =>
    simp only [Option.map_some]
    have hlookup : (row.retain fun n _ => (pm.proxies.lookup n).isSome).lookup n =
        if (pm.proxies.lookup n).isSome then row.lookup n else none := by
      rw [Table.lookup_retain]
      cases row.lookup n with
      | none => simp
      | some info =>
        cases hlive : (pm.proxies.lookup n).isSome with
        | false => simp [Option.filter]
        | true => simp [Option.filter]
    rw [Option.filter]
    by_cases hempty : (row.retain fun n _ => (pm.proxies.lookup n).isSome).entries = []
    · have hnone : (row.retain fun n _ => (pm.proxies.lookup n).isSome).lookup n = none := by
        rw [AList.lookup_eq_none, AList.mem_keys]
        intro hmem
        rw [AList.keys, hempty] at hmem
        cases hmem
      rw [hnone] at hlookup
      simp [hempty, ← hlookup]
    · simp [hempty, hlookup]

theorem exec_members_of {st : IndexStep} (hleave : forall n g, st ≠ .leaveGroup n g)
    (hjoin : forall n g, st ≠ .joinGroup n g) (g : String) :
    (pm.exec st).members g = pm.members g := by
  cases st with
  | leaveGroup name group => exact absurd rfl (hleave name group)
  | joinGroup name group => exact absurd rfl (hjoin name group)
  | insertClient runId name info => rfl
  | removeClientRow runId name =>
    simp only [exec, removeClientRow]
    split <;> rfl
  | dropHealth names => rfl
  | resyncClients => rfl

end ProxyManager
end Server
end FrpRs
