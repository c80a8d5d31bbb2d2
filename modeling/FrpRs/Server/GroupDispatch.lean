import FrpRs.Server.TcpGroups

/-!
# Dispatch within TCP groups

A connection to the shared port of a TCP group goes to a backend that `ProxyManager` picks
from its group index.  The index has one row for each group name, whatever the types of the
proxies under it, while the keys are checked by the controller of each kind.

The machine of this module handles requests, connections and health reports.
-/

namespace FrpRs
namespace Server

/-!
## Picking a backend
-/

namespace GroupMemberHealth

def healthy : GroupMemberHealth where
  state := .healthy
  consecutiveFailures := 0
  lastFailure := none

def healthCooldown : Nat := 30

def maxConsecutiveFailures : Nat := 3

def available (now : Nat) (h : GroupMemberHealth) : Bool :=
  h.state ≠ .unhealthy || h.lastFailure.any fun t => healthCooldown ≤ now - t

end GroupMemberHealth

namespace ProxyManager

def reportBackendSuccess (pm : ProxyManager) (name : String) : ProxyManager :=
  match pm.groupHealth.lookup name with
  | none => pm
  | some _ => { pm with groupHealth := pm.groupHealth.insert name .healthy }

def reportBackendFailure (now : Nat) (pm : ProxyManager) (name : String) : ProxyManager :=
  let entry := (pm.groupHealth.lookup name).getD .healthy
  let failures := entry.consecutiveFailures + 1
  { pm with
    healthTrackingActive := true
    groupHealth := pm.groupHealth.insert name
      { state := if GroupMemberHealth.maxConsecutiveFailures ≤ failures then .unhealthy
          else entry.state
        consecutiveFailures := failures
        lastFailure := some now } }

def keyHash (key : String) : UInt64 :=
  key.toUTF8.toList.foldl (fun h b => h * 31 + b.toUInt64) 0

/-- The members that are not known to be unhealthy, or all of them if none is left. -/
def pool (now : Nat) (pm : ProxyManager) (members : List String) : List String :=
  if pm.healthTrackingActive then
    let healthy := members.filter fun m =>
      ((pm.groupHealth.lookup m).map (GroupMemberHealth.available now)).getD true
    if healthy = [] then members else healthy
  else members

/-- A key sticks to a backend; without one the backends take turns. -/
def selectGroupBackend (now : Nat) (pm : ProxyManager) (group groupKey : String) :
    ProxyManager × Option String :=
  match pm.groups.lookup group with
  | none => (pm, none)
  | some members =>
    if members = [] then (pm, none)
    else
      let pool := pm.pool now members
      if groupKey ≠ "" then (pm, pool[(keyHash groupKey).toNat % pool.length]?)
      else
        let counter := (pm.groupCounters.lookup group).getD 0
        ({ pm with groupCounters := pm.groupCounters.insert group (counter + 1) },
          pool[counter % pool.length]?)

/-- A backend that has no run id any more is picked once more. -/
def selectGroupBackendWithRunId (now : Nat) (pm : ProxyManager) (group groupKey : String) :
    ProxyManager × Option (String × String) :=
  match pm.selectGroupBackend now group groupKey with
  | (pm, none) => (pm, none)
  | (pm, some backend) =>
    match pm.getRunId backend with
    | some runId => (pm, some (backend, runId))
    | none =>
      match pm.selectGroupBackend now group groupKey with
      | (pm, none) => (pm, none)
      | (pm, some backend) => (pm, (pm.getRunId backend).map fun runId => (backend, runId))

theorem mem_of_mem_pool {now : Nat} {pm : ProxyManager} {members : List String} {n : String}
    (h : n ∈ pm.pool now members) : n ∈ members := by
  unfold pool at h
  split at h
  · dsimp only at h
    split at h
    · exact h
    · exact List.mem_of_mem_filter h
  · exact h

/-- A call that changes neither the entries nor the groups. -/
structure SameEntries (pm pm' : ProxyManager) : Prop where
  proxies : pm'.proxies = pm.proxies
  byClient : pm'.byClient = pm.byClient
  groups : pm'.groups = pm.groups

namespace SameEntries

variable {pm pm' pm'' : ProxyManager}

theorem refl (pm : ProxyManager) : pm.SameEntries pm :=
  ⟨rfl, rfl, rfl⟩

theorem trans (h : pm.SameEntries pm') (h' : pm'.SameEntries pm'') : pm.SameEntries pm'' :=
  ⟨h'.proxies.trans h.proxies, h'.byClient.trans h.byClient, h'.groups.trans h.groups⟩

theorem get_eq (h : pm.SameEntries pm') (n : String) : pm'.get n = pm.get n := by
  rw [get, h.proxies]
  rfl

theorem members_eq (h : pm.SameEntries pm') (g : String) : pm'.members g = pm.members g := by
  rw [members, h.groups]
  rfl

theorem indexed (h : pm.SameEntries pm') (hindexed : pm.Indexed) : pm'.Indexed := by
  refine ⟨?_, ?_, ?_, ?_⟩
  · intro g
    rw [h.members_eq]
    exact hindexed.group_once g
  · intro g hg n
    rw [h.members_eq, hindexed.group_exact g hg n]
    unfold InGroup
    rw [h.proxies]
  · intro r n info
    rw [row, h.byClient, h.proxies]
    exact hindexed.client_exact r n info
  · rw [h.proxies]
    exact hindexed.named

end SameEntries

theorem sameEntries_reportBackendSuccess (pm : ProxyManager) (name : String) :
    pm.SameEntries (pm.reportBackendSuccess name) := by
  unfold reportBackendSuccess
  split
  · exact SameEntries.refl pm
  · exact ⟨rfl, rfl, rfl⟩

theorem sameEntries_reportBackendFailure (now : Nat) (pm : ProxyManager) (name : String) :
    pm.SameEntries (pm.reportBackendFailure now name) :=
  ⟨rfl, rfl, rfl⟩

theorem sameEntries_selectGroupBackend (now : Nat) (pm : ProxyManager) (group key : String) :
    pm.SameEntries (pm.selectGroupBackend now group key).1 := by
  unfold selectGroupBackend
  split
  · exact SameEntries.refl pm
  · split
    · exact SameEntries.refl pm
    · split
      · exact SameEntries.refl pm
      · exact ⟨rfl, rfl, rfl⟩

theorem selectGroupBackend_mem {now : Nat} {pm : ProxyManager} {group key b : String}
    (h : (pm.selectGroupBackend now group key).2 = some b) : b ∈ pm.members group := by
  unfold selectGroupBackend at h
  split at h
  · cases h
  · rename_i members hmembers
    rw [ProxyManager.members, hmembers, Option.getD_some]
    split at h
    · cases h
    · split at h
      · exact mem_of_mem_pool (List.mem_of_getElem? h)
      · exact mem_of_mem_pool (List.mem_of_getElem? h)

theorem sameEntries_selectGroupBackendWithRunId (now : Nat) (pm : ProxyManager)
    (group key : String) :
    pm.SameEntries (pm.selectGroupBackendWithRunId now group key).1 := by
  have hfirst := pm.sameEntries_selectGroupBackend now group key
  unfold selectGroupBackendWithRunId
  split
  · rename_i pm1 hpick
    rw [hpick] at hfirst
    exact hfirst
  · rename_i pm1 backend hpick
    rw [hpick] at hfirst
    split
    · exact hfirst
    · have hsecond := pm1.sameEntries_selectGroupBackend now group key
      split
      · rename_i pm2 hagain
        rw [hagain] at hsecond
        exact hfirst.trans hsecond
      · rename_i pm2 backend2 hagain
        rw [hagain] at hsecond
        exact hfirst.trans hsecond

theorem selectGroupBackendWithRunId_mem {now : Nat} {pm : ProxyManager}
    {group key b runId : String}
    (h : (pm.selectGroupBackendWithRunId now group key).2 = some (b, runId)) :
    b ∈ pm.members group ∧ pm.getRunId b = some runId := by
  have hfirst := pm.sameEntries_selectGroupBackend now group key
  unfold selectGroupBackendWithRunId at h
  split at h
  · cases h
  · rename_i pm1 backend hpick
    have hmem : backend ∈ pm.members group := by
      apply selectGroupBackend_mem
      rw [hpick]
    rw [hpick] at hfirst
    split at h
    · rename_i run hrun
      cases h
      rw [getRunId, hfirst.get_eq] at hrun
      exact ⟨hmem, hrun⟩
    · have hsecond := pm1.sameEntries_selectGroupBackend now group key
      split at h
      · cases h
      · rename_i pm2 backend2 hagain
        have hmem2 : backend2 ∈ pm1.members group := by
          apply selectGroupBackend_mem
          rw [hagain]
        rw [hagain] at hsecond
        obtain ⟨run, hrun, heq⟩ := Option.map_eq_some_iff.mp h
        cases heq
        rw [getRunId, hsecond.get_eq, hfirst.get_eq] at hrun
        rw [hfirst.members_eq] at hmem2
        exact ⟨hmem2, hrun⟩

end ProxyManager

/-!
## The machine
-/

/-- The server with the groups whose listener has stopped by itself. -/
structure GroupServer where
  state : AppState
  stopped : List String

namespace GroupServer

def new : GroupServer where
  state := AppState.new
  stopped := []

/-- One turn of the loop of `tcp_group_listener`: the listener stops when the group has no
member, and else hands the connection to a backend. -/
def tcpGroupListener (now : Nat) (s : GroupServer) (group : String) :
    GroupServer × Option (String × String) :=
  if (s.state.tcpGroups.lookup group).isNone ∨ group ∈ s.stopped then (s, none)
  else if s.state.pm.groupLen group = 0 then ({ s with stopped := group :: s.stopped }, none)
  else
    let (pm, backend) := s.state.pm.selectGroupBackendWithRunId now group ""
    ({ s with state := { s.state with pm := pm } }, backend)

/-- The group and the key that `handle_proxy_user_conn` balances over. -/
def balanced (pm : ProxyManager) (name : String) : Option (String × String) :=
  ((pm.get name).filter fun p => p.proxyType = .tcp).bind fun p =>
    p.groupName.map fun g => (g, p.groupKey.getD "")

/-- The group branch of `handle_proxy_user_conn`; without a backend the connection stays
with the proxy it came for. -/
def handleProxyUserConn (now : Nat) (s : GroupServer) (name : String) (groupSelected : Bool) :
    GroupServer × Option (String × String) :=
  match if groupSelected then none else balanced s.state.pm name with
  | none => (s, none)
  | some (group, key) =>
    let (pm, backend) := s.state.pm.selectGroupBackendWithRunId now group key
    ({ s with state := { s.state with pm := pm } }, backend)

inductive Event where
  | request (e : AppState.Request)
  | groupConn (now : Nat) (group : String)
  | userConn (now : Nat) (name : String) (groupSelected : Bool)
  | backendSuccess (name : String)
  | backendFailure (now : Nat) (name : String)

/-- A listener that has stopped stays so until its group is created anew. -/
def step (cfg : ServerConfig) (s : GroupServer) : Event -> GroupServer
  | .request e =>
    let state := s.state.step cfg e
    { state := state
      stopped := s.stopped.filter fun g => (state.tcpGroups.lookup g).isSome }
  | .groupConn now group => (s.tcpGroupListener now group).1
  | .userConn now name groupSelected => (s.handleProxyUserConn now name groupSelected).1
  | .backendSuccess name =>
    { s with state := { s.state with pm := s.state.pm.reportBackendSuccess name } }
  | .backendFailure now name =>
    { s with state := { s.state with pm := s.state.pm.reportBackendFailure now name } }

end GroupServer
/-!
## Groups of one kind
-/

/-- Outside the given names, each TCP member has the key of its group, and a TCP group has
no member of another type. -/
structure Kinded (names : String -> Prop) (pm : ProxyManager)
    (groups : Table String TcpGroupEntry) : Prop where
  indexed : pm.Indexed
  named : forall g entry, groups.lookup g = some entry -> g ≠ ""
  key : forall n info g, ¬ names n -> pm.get n = some info -> info.InTcpGroup g ->
    exists entry, groups.lookup g = some entry ∧ entry.groupKey = info.groupKey.getD ""
  pure : forall n info g entry, ¬ names n -> groups.lookup g = some entry ->
    pm.get n = some info -> info.groupName = some g -> info.proxyType = .tcp

namespace Kinded

variable {names : String -> Prop} {pm pm' : ProxyManager}
variable {groups groups' : Table String TcpGroupEntry} {name : String}

theorem new : Kinded names ProxyManager.new ∅ where
  indexed := ProxyManager.indexed_new
  named g entry h := by cases h
  key n info g _ h := by cases h
  pure n info g entry _ h := by cases h

theorem remove (h : Kinded (fun n => n = name) pm groups) :
    Kinded (fun _ => False) (pm.remove name).1 groups := by
  have hlive : forall n info, (pm.remove name).1.get n = some info ->
      n ≠ name ∧ pm.get n = some info := by
    intro n info hn
    rw [ProxyManager.get_remove] at hn
    split at hn
    · cases hn
    · rename_i hne
      exact ⟨hne, hn⟩
  refine ⟨h.indexed.remove name, h.named, ?_, ?_⟩
  · intro n info g _ hn hin
    exact h.key n info g (hlive n info hn).1 (hlive n info hn).2 hin
  · intro n info g entry _ hentry hn hg
    exact h.pure n info g entry (hlive n info hn).1 hentry (hlive n info hn).2 hg

theorem shrink (h : Kinded names pm groups) (hindexed : pm'.Indexed)
    (hlive : forall n info, pm'.get n = some info -> pm.get n = some info)
    (hkept : forall n info g, pm'.get n = some info -> info.InTcpGroup g ->
      groups'.lookup g = groups.lookup g)
    (hgroups : forall g entry, groups'.lookup g = some entry -> groups.lookup g = some entry) :
    Kinded names pm' groups' := by
  refine ⟨hindexed, fun g entry hentry => h.named g entry (hgroups g entry hentry), ?_, ?_⟩
  · intro n info g hname hn hin
    rw [hkept n info g hn hin]
    exact h.key n info g hname (hlive n info hn) hin
  · intro n info g entry hname hentry hn hg
    exact h.pure n info g entry hname (hgroups g entry hentry) (hlive n info hn) hg

theorem register {s : AppState} {info : ProxyInfo} {replaced : Option ProxyInfo}
    {port : UInt16} (now : Nat) (h : Kinded (fun _ => False) s.pm s.tcpGroups)
    (hreg : s.pm.Registered info pm' replaced) :
    Kinded (fun n => n = info.name) pm'
      ({ s with pm := pm' }.freeReplaced now port replaced).tcpGroups := by
  have hindexed := hreg.indexed h.indexed
  refine ⟨hindexed, ?_, ?_, ?_⟩
  · intro g entry hentry
    have hlookup := AppState.lookup_of_lookup_freeReplaced hentry
    exact h.named g entry hlookup
  · intro n i g hname hn hin
    rw [AppState.lookup_freeReplaced_kept now port hindexed hn hin.2]
    rw [hreg.get_of_ne hname] at hn
    exact h.key n i g not_false hn hin
  · intro n i g entry hname hentry hn hg
    have hlookup := AppState.lookup_of_lookup_freeReplaced hentry
    rw [hreg.get_of_ne hname] at hn
    exact h.pure n i g entry not_false hlookup hn hg

theorem complete {info : ProxyInfo} (h : Kinded (fun n => n = name) pm groups)
    (hget : pm.get name = some info)
    (hkey : forall g, info.InTcpGroup g ->
      exists entry, groups.lookup g = some entry ∧ entry.groupKey = info.groupKey.getD "")
    (hpure : forall g entry, groups.lookup g = some entry -> info.groupName = some g ->
      info.proxyType = .tcp) :
    Kinded (fun _ => False) pm groups := by
  refine ⟨h.indexed, h.named, ?_, ?_⟩
  · intro n i g _ hn hin
    by_cases hname : n = name
    · rw [hname, hget] at hn
      cases hn
      exact hkey g hin
    · exact h.key n i g hname hn hin
  · intro n i g entry _ hentry hn hg
    by_cases hname : n = name
    · rw [hname, hget] at hn
      cases hn
      exact hpure g entry hentry hg
    · exact h.pure n i g entry hname hentry hn hg

theorem create {g : String} {entry : TcpGroupEntry} (h : Kinded (fun n => n = name) pm groups)
    (hne : g ≠ "") (hfresh : groups.lookup g = none)
    (hpure : forall n i, n ≠ name -> pm.get n = some i -> i.groupName = some g ->
      i.proxyType = .tcp) :
    Kinded (fun n => n = name) pm (groups.insert g entry) := by
  refine ⟨h.indexed, ?_, ?_, ?_⟩
  · intro g' e he
    rw [Table.lookup_insert_eq] at he
    split at he
    · rename_i heq
      rw [heq]
      exact hne
    · exact h.named g' e he
  · intro n i g' hname hn hin
    obtain ⟨e, he, hkey⟩ := h.key n i g' hname hn hin
    refine ⟨e, ?_, hkey⟩
    rw [Table.lookup_insert_eq, if_neg]
    · exact he
    · rintro rfl
      rw [hfresh] at he
      cases he
  · intro n i g' e hname he hn hg
    rw [Table.lookup_insert_eq] at he
    split at he
    · rename_i heq
      subst heq
      exact hpure n i hname hn hg
    · exact h.pure n i g' e hname he hn hg

end Kinded

namespace AppState

def KindsRight (s : AppState) : Prop :=
  Kinded (fun _ => False) s.pm s.tcpGroups

/-- A message of another type names no TCP group, and the first member of a TCP group finds
no proxy of another type under its name. -/
def KindSafeNew (cfg : ServerConfig) (env : Surroundings) (s : AppState) (np : NewProxy)
    (runId : String) (controlId : Nat) : Prop :=
  s.notAdmitted cfg env np runId = none -> s.nameTaken np runId controlId = false ->
    forall g, g ∈ np.groupName ->
      (np.proxyType ≠ .tcp -> s.tcpGroups.lookup g = none) ∧
      (np.proxyType = .tcp -> s.tcpGroups.lookup g = none ->
        forall info, info ∈ s.pm.list -> info.name ≠ np.proxyName -> info.groupName = some g ->
          info.proxyType = .tcp)

def KindSafeDisconnect (s : AppState) (runId : String) (controlId : Nat) : Prop :=
  forall p, p ∈ swept s.pm runId controlId -> p.isTcpGroup = true ->
    s.pm.groupLen (p.group.getD "") ≤ 1 -> p.controlId = 0 ∨ p.controlId = controlId

def KindSafe (cfg : ServerConfig) (s : AppState) : Request -> Prop
  | .newProxy env np runId controlId => s.KindSafeNew cfg env np runId controlId
  | .closeProxy _ _ => True
  | .disconnect _ runId controlId => s.KindSafeDisconnect runId controlId

instance (cfg : ServerConfig) (s : AppState) : (e : Request) -> Decidable (s.KindSafe cfg e)
  | .newProxy env np runId _ =>
    inferInstanceAs (Decidable (s.notAdmitted cfg env np runId = none -> _))
  | .closeProxy _ _ => inferInstanceAs (Decidable True)
  | .disconnect _ runId controlId =>
    inferInstanceAs (Decidable (forall p, p ∈ swept s.pm runId controlId -> _))

section NewProxy

variable {cfg : ServerConfig} {env : Surroundings} {np : NewProxy} {runId : String}
variable {controlId : Nat}

/-- The entry of the message is written and fits the groups as they are, or the group it is
about to create. -/
structure KindEntered (np : NewProxy) (runId : String) (controlId : Nat) (port : UInt16)
    (s : AppState) : Prop where
  outside : Kinded (fun n => n = np.proxyName) s.pm s.tcpGroups
  entry : s.pm.get np.proxyName = some (np.proxyInfo runId controlId port)
  fresh : forall g, np.groupName = some g -> s.tcpGroups.lookup g = none
  pure : forall g n i, np.proxyType = .tcp -> np.groupName = some g -> n ≠ np.proxyName ->
    s.pm.get n = some i -> i.groupName = some g -> i.proxyType = .tcp

variable {port : UInt16} {s s' : AppState}

theorem KindEntered.of_ports (hports : s'.ports = s.ports)
    (h : KindEntered np runId controlId port s) : KindEntered np runId controlId port s' := by
  have hpm : s'.pm = s.pm := pm_of_ports hports
  have hgroups : s'.tcpGroups = s.tcpGroups := congrArg PortView.tcpGroups hports
  refine ⟨?_, ?_, ?_, ?_⟩
  · rw [hpm, hgroups]
    exact h.outside
  · rw [hpm]
    exact h.entry
  · rw [hgroups]
    exact h.fresh
  · rw [hpm]
    exact h.pure

theorem kindsRight_of_ports (h : s'.ports = s.ports) (hs : s.KindsRight) :
    s'.KindsRight := by
  unfold KindsRight
  rw [show s'.pm = s.pm from pm_of_ports h,
    show s'.tcpGroups = s.tcpGroups from congrArg PortView.tcpGroups h]
  exact hs

theorem Allocates.kindsRight (h : s.Allocates s') (hs : s.KindsRight) :
    s'.KindsRight := by
  unfold KindsRight
  rw [h.pm_eq, h.tcpGroups_eq]
  exact hs

theorem KindEntered.rollbackTcp (h : KindEntered np runId controlId port s) :
    (s.rollbackTcpBindFailure runId port np.proxyName).KindsRight :=
  kindsRight_of_ports (ports_rollbackTcpBindFailure s runId port np.proxyName) h.outside.remove

theorem KindEntered.rollbackUdp (h : KindEntered np runId controlId port s) :
    (s.rollbackUdpBindFailure runId port np.proxyName).KindsRight :=
  kindsRight_of_ports (ports_rollbackUdpBindFailure s runId port np.proxyName) h.outside.remove

theorem kindEntered_registerProxyEntry (hs : s.KindsRight)
    (hreg : s.registerProxyEntry env np runId controlId port = (s', none))
    (hfresh : s.nameTaken np runId controlId = false -> forall g, np.groupName = some g ->
      s.tcpGroups.lookup g = none ∧
      (np.proxyType = .tcp -> forall info, info ∈ s.pm.list -> info.name ≠ np.proxyName ->
        info.groupName = some g -> info.proxyType = .tcp)) :
    KindEntered np runId controlId port s' := by
  obtain ⟨pm', hfree, hregistered, hports⟩ := registerProxyEntry_entered hreg
  have hpm : s'.pm = pm' := by
    rw [pm_of_ports hports, freeReplaced_pm]
  have hgroups : s'.tcpGroups = ({ s with pm := pm' }.freeReplaced env.now port
      (s.takenOver np runId controlId)).tcpGroups := congrArg PortView.tcpGroups hports
  refine ⟨?_, ?_, ?_, ?_⟩
  · rw [hpm, hgroups]
    exact Kinded.register env.now hs hregistered
  · rw [hpm]
    exact hregistered.get_self
  · intro g hg
    cases hlookup : s'.tcpGroups.lookup g with
    | none => rfl
    | some entry =>
      rw [hgroups] at hlookup
      have hsome := lookup_of_lookup_freeReplaced hlookup
      rw [(hfresh hfree g hg).1] at hsome
      cases hsome
  · intro g n i htcp hg hname hn hgroup
    rw [hpm, hregistered.get_of_ne hname] at hn
    have hnamed := ProxyManager.named_of_get hs.indexed hn
    exact (hfresh hfree g hg).2 htcp i (ProxyManager.mem_list_of_get hs.indexed hn)
      (hnamed.symm ▸ hname) hgroup

theorem kindsRight_registerProxyEntry_refused {e : String} (hs : s.KindsRight)
    (hreg : s.registerProxyEntry env np runId controlId port = (s', some e)) :
    s'.KindsRight := by
  obtain ⟨_, hports⟩ := registerProxyEntry_taken hreg
  unfold KindsRight
  rw [show s'.pm = s.pm from congrArg PortView.pm hports,
    show s'.tcpGroups = s.tcpGroups from congrArg PortView.tcpGroups hports]
  exact hs

theorem kindsRight_registerNew {tcpGroupCreated : Bool} (hs : s.KindsRight)
    (hcreated : tcpGroupCreated = np.isTcpGroup)
    (hfresh : s.nameTaken np runId controlId = false -> forall g, np.groupName = some g ->
      s.tcpGroups.lookup g = none ∧
      (np.proxyType = .tcp -> forall info, info ∈ s.pm.list -> info.name ≠ np.proxyName ->
        info.groupName = some g -> info.proxyType = .tcp)) :
    (s.registerNew cfg env np runId controlId tcpGroupCreated).1.KindsRight := by
  have hungrouped : forall g, tcpGroupCreated = false -> np.proxyType = .tcp ->
      np.groupName ≠ some g := by
    intro g hplain htcp hg
    rw [hcreated, NewProxy.isTcpGroup, htcp, hg] at hplain
    cases hplain
  apply @registerNew_rule cfg env np runId controlId (KindEntered np runId controlId)
    (KindEntered np runId controlId) (fun s _ => s.KindsRight)
  case noPort =>
    intro s1 e halloc
    have hallocates := allocateProxyPort_allocates halloc
    exact hallocates.kindsRight hs
  case taken =>
    intro s1 s2 port e halloc hreg
    have hallocates := allocateProxyPort_allocates halloc
    exact kindsRight_registerProxyEntry_refused (hallocates.kindsRight hs) hreg
  case entered =>
    intro s1 s2 port halloc hreg
    have hallocates := allocateProxyPort_allocates halloc
    have hpm : s1.pm = s.pm := hallocates.pm_eq
    have hgroups : s1.tcpGroups = s.tcpGroups := hallocates.tcpGroups_eq
    apply kindEntered_registerProxyEntry (hallocates.kindsRight hs) hreg
    rw [hpm, hgroups]
    intro hfree
    apply hfresh
    unfold nameTaken takenOver at hfree ⊢
    rw [hpm] at hfree
    exact hfree
  case routed =>
    intro s1 s2 port hentered hroutes
    have hports := registerRoutes_ports hroutes
    exact hentered.of_ports hports
  case unrouted =>
    intro s1 s2 port reply hentered hroutes
    obtain ⟨hports, _⟩ := registerRoutes_ports hroutes
    exact kindsRight_of_ports hports hentered.outside.remove
  case listening =>
    intro hplain port s' hentered
    apply hentered.outside.complete hentered.entry
    · intro g hin
      exact absurd hin.2 (hungrouped g (hplain hin.1) hin.1)
    · intro g entry hentry hg
      rw [hentered.fresh g hg] at hentry
      cases hentry
  case udpUndone =>
    intro _ port s' _ hentered
    exact hentered.rollbackUdp
  case undone =>
    intro _ port s' _ hentered
    exact hentered.rollbackTcp
  case again =>
    intro htype hplain port s' attempt s1 r hentered _ halloc hgone
    have hretry := allocateProxyPort_allocates halloc
    have hundone : ((s'.rollbackTcpBindFailure runId port np.proxyName).dropReservation
        np.proxyName).KindsRight := hentered.rollbackTcp
    have hright : s1.KindsRight := hretry.kindsRight hundone
    refine ⟨fun _ _ => hright, ?_⟩
    intro p s2 _ hreg
    apply kindEntered_registerProxyEntry hright hreg
    intro _ g hg
    exact absurd hg (hungrouped g hplain htype)
  case fresh =>
    intro hgroup port s' hentered
    rw [hcreated] at hgroup
    obtain ⟨g, _, hg, hgetD⟩ := isTcpGroup_newProxy hgroup
    rw [hgetD]
    exact hentered.fresh g hg
  case created =>
    intro _ hgroup port s' hentered
    rw [hcreated] at hgroup
    obtain ⟨g, htype, hg, hgetD⟩ := isTcpGroup_newProxy hgroup
    rw [hgetD]
    have hne : g ≠ "" := (ProxyInfo.groupName_eq_some.mp
      (show (np.proxyInfo runId controlId port).groupName = some g from hg)).2
    apply (hentered.outside.create hne (hentered.fresh g hg)
      fun n i => hentered.pure g n i htype hg).complete hentered.entry
    · intro g' hin
      have heq : g' = g := Option.some.inj (hin.2.symm.trans hg)
      exact ⟨_, by rw [Table.lookup_insert_eq, if_pos heq], rfl⟩
    · intro _ _ _ _
      exact htype

/-- A message that joins a group. -/
theorem kindsRight_join {g : String} {entry : TcpGroupEntry} (hs : s.KindsRight)
    (htype : np.proxyType = .tcp) (hg : np.groupName = some g)
    (hentry : s.tcpGroups.lookup g = some entry) (hkey : entry.groupKey = np.groupKey.getD "") :
    ((s.markTcp port).handleTcpGroupMemberRegistration cfg env np runId controlId
      port).1.KindsRight := by
  rcases (s.markTcp port).handleTcpGroupMemberRegistration_cases cfg env runId controlId port
    htype with ⟨s', text, heq, _, hports⟩ | ⟨s', pm', heq, _, hregistered, hports⟩
  · rw [heq]
    unfold KindsRight
    rw [show s'.pm = s.pm from congrArg PortView.pm hports,
      show s'.tcpGroups = s.tcpGroups from congrArg PortView.tcpGroups hports]
    exact hs
  · rw [heq]
    have hin : (np.proxyInfo runId controlId port).InTcpGroup g := ⟨htype, hg⟩
    have hindexed := hregistered.indexed hs.indexed
    have houtside : Kinded (fun n => n = np.proxyName) pm'
        ({ s.markTcp port with pm := pm' }.freeReplaced env.now port
          ((s.markTcp port).takenOver np runId controlId)).tcpGroups :=
      Kinded.register (s := s.markTcp port) env.now hs hregistered
    unfold KindsRight
    rw [show s'.pm = pm' by rw [pm_of_ports hports, freeReplaced_pm],
      show s'.tcpGroups = _ from congrArg PortView.tcpGroups hports]
    apply houtside.complete hregistered.get_self
    · intro g' hin'
      rw [hin.unique hin']
      refine ⟨entry, ?_, hkey⟩
      have hkept : ({ s.markTcp port with pm := pm' }.freeReplaced env.now port
          ((s.markTcp port).takenOver np runId controlId)).tcpGroups.lookup g =
          s.tcpGroups.lookup g :=
        lookup_freeReplaced_kept (s := s.markTcp port) env.now port hindexed
          hregistered.get_self hin.2
      exact hkept.trans hentry
    · intro _ _ _ _
      exact htype

theorem kindsRight_handleNewProxy (hs : s.KindsRight)
    (hsafe : s.KindSafeNew cfg env np runId controlId) :
    (s.handleNewProxy cfg env np runId controlId).1.KindsRight := by
  unfold handleNewProxy
  split
  · exact hs
  · rename_i hadmitted
    split
    · rename_i hgroup
      obtain ⟨g, htype, hg, hgetD⟩ := isTcpGroup_newProxy hgroup
      cases hquery : s.groupQuery cfg np with
      | found port =>
        obtain ⟨entry, hentry, _, hkey⟩ := groupQuery_found hgetD hquery
        exact kindsRight_join hs htype hg hentry hkey
      | mismatch text => exact hs
      | notFound =>
        apply kindsRight_registerNew hs hgroup.symm
        intro hfree g' hg'
        rw [hg] at hg'
        cases hg'
        have hnone := (groupQuery_notFound hgetD).mp hquery
        exact ⟨hnone, fun _ => (hsafe hadmitted hfree g hg).2 htype hnone⟩
    · rename_i hgroup
      have hplain : np.isTcpGroup = false := Bool.eq_false_iff.mpr hgroup
      apply kindsRight_registerNew hs hplain.symm
      intro hfree g hg
      have hother : np.proxyType ≠ .tcp := by
        intro htcp
        rw [NewProxy.isTcpGroup, htcp, hg] at hplain
        cases hplain
      exact ⟨(hsafe hadmitted hfree g hg).1 hother, fun htcp => absurd htcp hother⟩

end NewProxy

theorem kindsRight_closeProxy {s : AppState} (hs : s.KindsRight) (runId name : String) :
    (s.closeProxy runId name).KindsRight := by
  by_cases howned : exists p, s.pm.get name = some p ∧ p.runId = runId
  · obtain ⟨p, hget, hrun⟩ := howned
    have hindexed := hs.indexed.remove p.name
    unfold KindsRight
    rw [closeProxy_pm hget hrun, closeProxy_tcpGroups hget hrun]
    apply hs.shrink hindexed
    · intro n info hn
      rw [ProxyManager.get_remove] at hn
      split at hn
      · cases hn
      · exact hn
    · intro n info g hn hin
      split
      · rename_i hempty
        have hpos := ProxyManager.groupLen_pos hindexed hn hin.2
        rw [Table.lookup_erase_eq, if_neg]
        rintro rfl
        omega
      · rfl
    · intro g entry hentry
      split at hentry
      · rw [Table.lookup_erase_eq] at hentry
        split at hentry
        · cases hentry
        · exact hentry
      · exact hentry
  · rw [closeProxy_of_other]
    · exact hs
    · intro p hget hrun
      exact howned ⟨p, hget, hrun⟩

theorem groupLen_of_sweptGroup {pm : ProxyManager} {p : ProxyInfo} {g : String} {len : Nat}
    (h : sweptGroup pm p = some (g, len)) : p.InTcpGroup g ∧ pm.groupLen g ≤ 1 := by
  unfold sweptGroup at h
  split at h
  · rename_i hswept
    simp only [Bool.and_eq_true] at hswept
    cases h
    obtain ⟨g, hin⟩ := ProxyInfo.isTcpGroup_iff.mp hswept.1
    rw [hin.group_getD]
    refine ⟨hin, ?_⟩
    have hport := hswept.2
    unfold sweptPort at hport
    split at hport
    · cases hport
    · obtain ⟨port, hsome⟩ := Option.isSome_iff_exists.mp hport
      have htest := (Option.filter_eq_some_iff.mp hsome).2
      rw [hin.isTcpGroup, hin.group_getD] at htest
      simpa using htest
  · cases h

theorem kindsRight_cleanup (now : Nat) {s : AppState} {runId : String} {controlId : Nat}
    (hs : s.KindsRight) (hsafe : s.KindSafeDisconnect runId controlId) :
    (s.cleanup now runId controlId).KindsRight := by
  have hget : forall n, (s.cleanup now runId controlId).pm.get n =
      if n ∈ s.pm.listClientProxyNames runId ∧ (s.pm.get n).any (ofGeneration controlId) then none
      else s.pm.get n := by
    intro n
    unfold cleanup
    rw [get_foldl_removeSwept, unregisterControl_pm]
  have hlookup : forall g, (s.cleanup now runId controlId).tcpGroups.lookup g =
      if g ∈ ((swept s.pm runId controlId).filterMap (sweptGroup s.pm)).map Prod.fst then none
      else s.tcpGroups.lookup g := by
    intro g
    rw [cleanup_tcpGroups, lookup_sweepTcpPorts]
  have hlive : forall n info, (s.cleanup now runId controlId).pm.get n = some info ->
      s.pm.get n = some info := by
    intro n info hn
    rw [hget] at hn
    split at hn
    · cases hn
    · exact hn
  apply hs.shrink (indexed_cleanup now hs.indexed runId controlId) hlive
  · intro n info g hn hin
    rw [hlookup, if_neg]
    intro hmem
    obtain ⟨x, hx, rfl⟩ := List.mem_map.mp hmem
    obtain ⟨p, hp, hsome⟩ := List.mem_filterMap.mp hx
    obtain ⟨hpin, hle⟩ := groupLen_of_sweptGroup hsome
    obtain ⟨hgetp, hrun, _⟩ := (mem_swept hs.indexed).mp hp
    have hname := ProxyManager.eq_of_groupLen_le_one hs.indexed hle hgetp hpin.2
      (hlive n info hn) hin.2
    have hown := hsafe p hp hpin.isTcpGroup (by rw [hpin.group_getD]; exact hle)
    rw [hget, hname, if_pos] at hn
    · cases hn
    · refine ⟨(ProxyManager.mem_listClientProxyNames hs.indexed).mpr ⟨p, hgetp, hrun⟩, ?_⟩
      rw [hgetp]
      simpa [ofGeneration] using hown
  · intro g entry hentry
    rw [hlookup] at hentry
    split at hentry
    · cases hentry
    · exact hentry

theorem kindsRight_step (cfg : ServerConfig) (s : AppState) (e : Request) (hs : s.KindsRight)
    (hsafe : s.KindSafe cfg e) : (s.step cfg e).KindsRight := by
  cases e with
  | newProxy env np runId controlId => exact kindsRight_handleNewProxy hs hsafe
  | closeProxy runId name => exact kindsRight_closeProxy hs runId name
  | disconnect now runId controlId => exact kindsRight_cleanup now hs hsafe

end AppState

/-!
## Runs
-/

namespace GroupServer

def KindSafe (cfg : ServerConfig) (s : GroupServer) : Event -> Prop
  | .request e => s.state.KindSafe cfg e
  | _ => True

instance (cfg : ServerConfig) (s : GroupServer) : (e : Event) -> Decidable (s.KindSafe cfg e)
  | .request e => inferInstanceAs (Decidable (s.state.KindSafe cfg e))
  | .groupConn _ _ => inferInstanceAs (Decidable True)
  | .userConn _ _ _ => inferInstanceAs (Decidable True)
  | .backendSuccess _ => inferInstanceAs (Decidable True)
  | .backendFailure _ _ => inferInstanceAs (Decidable True)

theorem kindsRight_sameEntries {s : AppState} {pm : ProxyManager} (hs : s.KindsRight)
    (h : s.pm.SameEntries pm) : ({ s with pm := pm } : AppState).KindsRight := by
  refine hs.shrink (h.indexed hs.indexed) ?_ (fun _ _ _ _ _ => rfl) (fun _ _ h => h)
  intro n info hn
  rw [← h.get_eq]
  exact hn

variable {s : GroupServer}

theorem kindsRight_tcpGroupListener (now : Nat) (hs : s.state.KindsRight) (group : String) :
    (s.tcpGroupListener now group).1.state.KindsRight := by
  unfold tcpGroupListener
  split
  · exact hs
  · split
    · exact hs
    · exact kindsRight_sameEntries hs
        (ProxyManager.sameEntries_selectGroupBackendWithRunId now s.state.pm group "")

theorem kindsRight_handleProxyUserConn (now : Nat) (hs : s.state.KindsRight) (name : String)
    (groupSelected : Bool) :
    (s.handleProxyUserConn now name groupSelected).1.state.KindsRight := by
  unfold handleProxyUserConn
  split
  · exact hs
  · rename_i group key _
    exact kindsRight_sameEntries hs
      (ProxyManager.sameEntries_selectGroupBackendWithRunId now s.state.pm group key)

theorem kindsRight_step (cfg : ServerConfig) (s : GroupServer) (e : Event)
    (hs : s.state.KindsRight) (hsafe : s.KindSafe cfg e) : (s.step cfg e).state.KindsRight := by
  cases e with
  | request e => exact AppState.kindsRight_step cfg s.state e hs hsafe
  | groupConn now group => exact kindsRight_tcpGroupListener now hs group
  | userConn now name groupSelected =>
    exact kindsRight_handleProxyUserConn now hs name groupSelected
  | backendSuccess name =>
    exact kindsRight_sameEntries hs (ProxyManager.sameEntries_reportBackendSuccess _ name)
  | backendFailure now name =>
    exact kindsRight_sameEntries hs (ProxyManager.sameEntries_reportBackendFailure now _ name)

theorem kindsRight_run {cfg : ServerConfig} {events : List Event}
    (h : Run.Along (step cfg) (KindSafe cfg) new events) :
    (Run.run (step cfg) new events).state.KindsRight :=
  @Run.run_invariant _ _ _ _ (fun s => s.state.KindsRight) (kindsRight_step cfg) _ _ Kinded.new h

def Admitted (s : GroupServer) (group backend : String) : Prop :=
  exists info entry, s.state.pm.get backend = some info ∧ info.InTcpGroup group ∧
    s.state.tcpGroups.lookup group = some entry ∧ entry.groupKey = info.groupKey.getD ""

/-- Connections to TCP groups reach members of the group only, and a listener goes on only
while the group has such a member. -/
def GroupsIsolated (s : GroupServer) : Prop :=
  (forall now group backend runId,
    (s.tcpGroupListener now group).2 = some (backend, runId) -> s.Admitted group backend) ∧
  (forall now name groupSelected backend runId,
    (s.handleProxyUserConn now name groupSelected).2 = some (backend, runId) ->
    exists group key, balanced s.state.pm name = some (group, key) ∧
      s.Admitted group backend) ∧
  forall group, (s.state.tcpGroups.lookup group).isSome = true ->
    s.state.pm.groupLen group ≠ 0 -> exists n, s.Admitted group n

theorem admitted_of_mem (hs : s.state.KindsRight) {group n : String}
    (hsome : (s.state.tcpGroups.lookup group).isSome = true) (hmem : n ∈ s.state.pm.members group) :
    s.Admitted group n := by
  obtain ⟨entry, hentry⟩ := Option.isSome_iff_exists.mp hsome
  have hne := hs.named group entry hentry
  obtain ⟨info, hn, hgroup⟩ := (hs.indexed.group_exact group hne n).mp hmem
  have hname : info.groupName = some group := ProxyInfo.groupName_eq_some.mpr ⟨hgroup, hne⟩
  have hin : info.InTcpGroup group := ⟨hs.pure n info group entry not_false hentry hn hname, hname⟩
  obtain ⟨entry', hentry', hkey⟩ := hs.key n info group not_false hn hin
  exact ⟨info, entry', hn, hin, hentry', hkey⟩

theorem groupsIsolated_of_kinds (hs : s.state.KindsRight) :
    s.GroupsIsolated := by
  refine ⟨?_, ?_, ?_⟩
  · intro now group backend runId hbackend
    unfold tcpGroupListener at hbackend
    split at hbackend
    · cases hbackend
    · rename_i hlistening
      split at hbackend
      · cases hbackend
      · have hmem := (ProxyManager.selectGroupBackendWithRunId_mem hbackend).1
        rw [not_or, Option.isNone_iff_eq_none] at hlistening
        exact admitted_of_mem hs (Option.isSome_iff_ne_none.mpr hlistening.1) hmem
  · intro now name groupSelected backend runId hbackend
    unfold handleProxyUserConn at hbackend
    split at hbackend
    · cases hbackend
    · rename_i group key hbalanced
      have hmem := (ProxyManager.selectGroupBackendWithRunId_mem hbackend).1
      have hbranch : balanced s.state.pm name = some (group, key) := by
        split at hbalanced
        · cases hbalanced
        · exact hbalanced
      refine ⟨group, key, hbranch, ?_⟩
      obtain ⟨p, hp, hgroup⟩ := Option.bind_eq_some_iff.mp hbranch
      obtain ⟨hget, htcp⟩ := Option.filter_eq_some_iff.mp hp
      obtain ⟨g, hg, heq⟩ := Option.map_eq_some_iff.mp hgroup
      cases heq
      obtain ⟨entry, hentry, _⟩ := hs.key name p group not_false hget
        ⟨of_decide_eq_true htcp, hg⟩
      exact admitted_of_mem hs (Option.isSome_iff_exists.mpr ⟨entry, hentry⟩) hmem
  · intro group hsome hlen
    obtain ⟨n, hn⟩ := List.exists_mem_of_length_pos (Nat.pos_of_ne_zero hlen)
    exact ⟨n, admitted_of_mem hs hsome hn⟩

/-- While all requests are safe, TCP groups are isolated from other kinds. -/
theorem group_kind_isolation {cfg : ServerConfig} {events : List Event}
    (h : Run.Along (step cfg) (KindSafe cfg) new events) :
    (Run.run (step cfg) new events).GroupsIsolated :=
  groupsIsolated_of_kinds (kindsRight_run h)

open AppState

def sampleHttp (name domain group : String) : NewProxy :=
  { sampleMessage name .http 0 (some group) with customDomains := some [domain] }

/-- Groups of two kinds with names of their own, and connections to the TCP one. -/
theorem group_kind_isolation_sample :
    Run.Along (step sampleConfig) (KindSafe sampleConfig) new
      [.request (sampleRequest "a" .tcp 6000 (some "g")),
        .request (.newProxy sampleSurroundings (sampleHttp "h" "x.org" "web") "q" 2),
        .groupConn 0 "g", .userConn 0 "a" false] ∧
    (Run.run (step sampleConfig) new
      [.request (sampleRequest "a" .tcp 6000 (some "g")),
        .request (.newProxy sampleSurroundings (sampleHttp "h" "x.org" "web") "q" 2),
        .groupConn 0 "g", .userConn 0 "a" false]).GroupsIsolated := by
  have hsafe : Run.Along (step sampleConfig) (KindSafe sampleConfig) new
      [.request (sampleRequest "a" .tcp 6000 (some "g")),
        .request (.newProxy sampleSurroundings (sampleHttp "h" "x.org" "web") "q" 2),
        .groupConn 0 "g", .userConn 0 "a" false] := by
    decide +kernel
  exact ⟨hsafe, group_kind_isolation hsafe⟩

/-- An HTTP proxy under the name of a TCP group gets every other connection to it. -/
theorem http_member_gets_tcp_connection :
    ¬ (Run.run (step sampleConfig) new
      [.request (sampleRequest "a" .tcp 6000 (some "g")),
        .request (.newProxy sampleSurroundings (sampleHttp "h" "x.org" "g") "q" 2),
        .groupConn 0 "g"]).GroupsIsolated := by
  intro h
  have hbackend : ((Run.run (step sampleConfig) new
      [.request (sampleRequest "a" .tcp 6000 (some "g")),
        .request (.newProxy sampleSurroundings (sampleHttp "h" "x.org" "g") "q" 2),
        .groupConn 0 "g"]).tcpGroupListener 0 "g").2 = some ("h", "q") := by
    decide +kernel
  obtain ⟨info, entry, hget, hin, _⟩ := h.1 0 "g" "h" "q" hbackend
  have htype : ((Run.run (step sampleConfig) new
      [.request (sampleRequest "a" .tcp 6000 (some "g")),
        .request (.newProxy sampleSurroundings (sampleHttp "h" "x.org" "g") "q" 2),
        .groupConn 0 "g"]).state.pm.get "h").all (fun info => info.proxyType = .http) = true := by
    decide +kernel
  rw [hget, Option.all_some, hin.1] at htype
  cases htype

end GroupServer
end Server
end FrpRs
