import FrpRs.Data.Run
import FrpRs.Data.Table

/-!
# The client registry

`ClientRegistry` of `frp-server/src/registry.rs`: the known clients under their composite
key, and an index from run ids to keys.  Both calls hold the two write locks for their
whole length, so each is one step.
-/

namespace FrpRs
namespace Server

structure ClientInfo where
  key : String
  user : String
  rawClientId : String
  runId : String
  hostname : String
  ip : String
  version : String
  wireProtocol : String
  firstConnectedAt : Nat
  lastConnectedAt : Nat
  disconnectedAt : Option Nat
  firstConnectedAtUnix : UInt64
  lastConnectedAtUnix : UInt64
  disconnectedAtUnix : Option UInt64
  online : Bool
  controlId : UInt64
deriving DecidableEq, Repr

structure ClientRegistry where
  clients : Table String ClientInfo
  runIndex : Table String String

/-- The arguments of `register_with_control_id`. -/
structure ClientLogin where
  user : String
  rawClientId : String
  runId : String
  hostname : String
  version : String
  remoteAddr : String
  wireProtocol : String
  controlId : UInt64

/-- The monotonic clock and the Unix clock, which a new entry reads twice. -/
structure RegistryClock where
  now : Nat
  unixFirst : UInt64
  unixLast : UInt64

def composeClientKey (user id : String) : String :=
  if user.isEmpty then id
  else if id.isEmpty then user
  else user ++ "." ++ id

namespace ClientLogin

def effectiveId (login : ClientLogin) : String :=
  if login.rawClientId.isEmpty then login.runId else login.rawClientId

def key (login : ClientLogin) : String :=
  composeClientKey login.user login.effectiveId

/-- The entry made by `or_insert_with` for a key seen for the first time. -/
def freshInfo (login : ClientLogin) (clock : RegistryClock) : ClientInfo where
  key := login.key
  user := login.user
  rawClientId := ""
  runId := ""
  hostname := ""
  ip := ""
  version := ""
  wireProtocol := ""
  firstConnectedAt := clock.now
  lastConnectedAt := clock.now
  disconnectedAt := none
  firstConnectedAtUnix := clock.unixFirst
  lastConnectedAtUnix := clock.unixLast
  disconnectedAtUnix := none
  online := false
  controlId := 0

/-- What a login writes over the entry of its key. -/
def stamp (login : ClientLogin) (clock : RegistryClock) (info : ClientInfo) : ClientInfo :=
  { info with
    rawClientId := login.rawClientId
    runId := login.runId
    controlId := login.controlId
    hostname := login.hostname
    ip := login.remoteAddr
    version := login.version
    wireProtocol := login.wireProtocol
    lastConnectedAt := clock.now
    disconnectedAt := none
    online := true }

end ClientLogin

namespace ClientRegistry

def new : ClientRegistry where
  clients := ∅
  runIndex := ∅

def conflicts (r : ClientRegistry) (login : ClientLogin) : Bool :=
  !login.rawClientId.isEmpty &&
    match r.clients.lookup login.key with
    | none => false
    | some info => info.online && !info.runId.isEmpty && info.runId != login.runId

def entryOf (r : ClientRegistry) (clock : RegistryClock) (login : ClientLogin) : ClientInfo :=
  (r.clients.lookup login.key).getD (login.freshInfo clock)

def dropOldRun (r : ClientRegistry) (clock : RegistryClock) (login : ClientLogin) :
    Table String String :=
  let info := r.entryOf clock login
  if info.runId ≠ "" ∧ info.runId ≠ login.runId then r.runIndex.erase info.runId
  else r.runIndex

def registerWithControlId (r : ClientRegistry) (clock : RegistryClock) (login : ClientLogin) :
    ClientRegistry × String × Bool :=
  if login.runId.isEmpty then (r, "", false)
  else if r.conflicts login then (r, login.key, true)
  else
    ({ clients := r.clients.insert login.key (login.stamp clock (r.entryOf clock login))
       runIndex := (r.dropOldRun clock login).insert login.runId login.key },
      login.key, false)

def offlineInfo (info : ClientInfo) (now : Nat) (unix : UInt64) : ClientInfo :=
  { info with
    runId := ""
    controlId := 0
    online := false
    disconnectedAt := some now
    disconnectedAtUnix := some unix }

def markOfflineByRunIdAndControlId (r : ClientRegistry) (now : Nat) (unix : UInt64)
    (runId : String) (controlId : UInt64) : ClientRegistry :=
  match r.runIndex.lookup runId with
  | none => r
  | some key =>
    match r.clients.lookup key with
    | none => r
    | some info =>
      if info.runId = runId ∧ (controlId = 0 ∨ info.controlId = controlId) then
        if info.rawClientId.isEmpty then
          { clients := r.clients.erase key, runIndex := r.runIndex.erase runId }
        else
          { clients := r.clients.insert key (offlineInfo info now unix)
            runIndex := r.runIndex.erase runId }
      else r

end ClientRegistry

inductive RegistryCall where
  | register (clock : RegistryClock) (login : ClientLogin)
  | markOffline (now : Nat) (unix : UInt64) (runId : String) (controlId : UInt64)

namespace ClientRegistry

def step (r : ClientRegistry) : RegistryCall -> ClientRegistry
  | .register clock login => (r.registerWithControlId clock login).1
  | .markOffline now unix runId controlId =>
    r.markOfflineByRunIdAndControlId now unix runId controlId

/-!
## Consistency
-/

def OnlineAt (r : ClientRegistry) (key runId : String) : Prop :=
  exists info, r.clients.lookup key = some info ∧ info.online = true ∧ info.runId = runId

/-- The index names a key exactly if its client is online with that run id; so a run id is
carried by one online client at most, and marking the control offline that the index leads
to leaves no client online with the run id. -/
structure Consistent (r : ClientRegistry) : Prop where
  exact_index : forall runId key,
    r.runIndex.lookup runId = some key ↔ r.OnlineAt key runId
  unique_online : forall runId key key',
    r.OnlineAt key runId -> r.OnlineAt key' runId -> key = key'
  offline_clears : forall runId key info now unix,
    r.runIndex.lookup runId = some key -> r.clients.lookup key = some info ->
      forall key', ¬ (r.markOfflineByRunIdAndControlId now unix runId info.controlId).OnlineAt
        key' runId

def MovesRun (r : ClientRegistry) (login : ClientLogin) : Prop :=
  login.runId ≠ "" ∧ r.conflicts login = false ∧
    exists key, r.runIndex.lookup login.runId = some key ∧ key ≠ login.key

def KeepsRun (r : ClientRegistry) : RegistryCall -> Prop
  | .register _ login => ¬ r.MovesRun login
  | .markOffline _ _ _ _ => True

def Stamped (r : ClientRegistry) : Prop :=
  forall key info, r.clients.lookup key = some info -> (info.online = true ↔ info.runId ≠ "")

/-!
## What a call does
-/

variable {r : ClientRegistry} {login : ClientLogin}

variable {info : ClientInfo}

variable (clock : RegistryClock)

theorem entryOf_of_some (h : r.clients.lookup login.key = some info) :
    r.entryOf clock login = info := by
  rw [entryOf, h]
  rfl

theorem entryOf_of_none (h : r.clients.lookup login.key = none) :
    r.entryOf clock login = login.freshInfo clock := by
  rw [entryOf, h]
  rfl

theorem step_register_refused (h : login.runId = "" ∨ r.conflicts login = true) :
    r.step (.register clock login) = r := by
  simp only [step, registerWithControlId]
  rcases h with hempty | hconflict
  · simp [hempty]
  · split <;> rfl

theorem step_register_accepted (hrun : login.runId ≠ "") (hconflict : r.conflicts login = false) :
    r.step (.register clock login) =
      { clients := r.clients.insert login.key (login.stamp clock (r.entryOf clock login))
        runIndex := (r.dropOldRun clock login).insert login.runId login.key } := by
  simp [step, registerWithControlId, hrun, hconflict]

theorem onlineAt_register (hrun : login.runId ≠ "") (hconflict : r.conflicts login = false)
    (key runId : String) :
    (r.step (.register clock login)).OnlineAt key runId ↔
      if key = login.key then runId = login.runId else r.OnlineAt key runId := by
  rw [step_register_accepted clock hrun hconflict]
  unfold OnlineAt
  rw [Table.lookup_insert_eq]
  split
  · constructor
    · rintro ⟨info, hinfo, _, rfl⟩
      cases hinfo
      rfl
    · intro heq
      exact ⟨_, rfl, rfl, heq.symm⟩
  · exact Iff.rfl

theorem lookup_dropOldRun (r : ClientRegistry) (clock : RegistryClock) {runId : String}
    (hne : runId ≠ login.runId) :
    (r.dropOldRun clock login).lookup runId =
      if runId ≠ "" ∧ (r.entryOf clock login).runId = runId then none
      else r.runIndex.lookup runId := by
  unfold dropOldRun
  by_cases hold : (r.entryOf clock login).runId = runId
  · by_cases hempty : runId = ""
    · simp [hold, hempty]
    · simp [hold, hempty, hne]
  · simp only [hold, and_false, if_false]
    split
    · rw [Table.lookup_erase_eq, if_neg (Ne.symm hold)]
    · rfl

theorem lookup_runIndex_register (hrun : login.runId ≠ "") (hconflict : r.conflicts login = false)
    (runId : String) :
    (r.step (.register clock login)).runIndex.lookup runId =
      if runId = login.runId then some login.key
      else if runId ≠ "" ∧ (r.entryOf clock login).runId = runId then none
      else r.runIndex.lookup runId := by
  rw [step_register_accepted clock hrun hconflict]
  show ((r.dropOldRun clock login).insert login.runId login.key).lookup runId = _
  rw [Table.lookup_insert_eq]
  split
  · rfl
  · rename_i hne
    exact lookup_dropOldRun r clock hne

theorem markOffline_cases (r : ClientRegistry) (now : Nat) (unix : UInt64) (runId : String)
    (controlId : UInt64) :
    r.markOfflineByRunIdAndControlId now unix runId controlId = r ∨
      exists key info,
        r.runIndex.lookup runId = some key ∧ r.clients.lookup key = some info ∧
        info.runId = runId ∧
        (r.markOfflineByRunIdAndControlId now unix runId controlId).runIndex =
          r.runIndex.erase runId ∧
        ((r.markOfflineByRunIdAndControlId now unix runId controlId).clients =
            r.clients.erase key ∨
          (r.markOfflineByRunIdAndControlId now unix runId controlId).clients =
            r.clients.insert key (offlineInfo info now unix)) := by
  unfold markOfflineByRunIdAndControlId
  split
  · exact .inl rfl
  · rename_i key hkey
    split
    · exact .inl rfl
    · rename_i info hinfo
      split
      · rename_i howner
        right
        refine ⟨key, info, hkey, hinfo, howner.1, ?_⟩
        split
        · exact ⟨rfl, .inl rfl⟩
        · exact ⟨rfl, .inr rfl⟩
      · exact .inl rfl

theorem markOffline_owner {runId key : String} (hkey : r.runIndex.lookup runId = some key)
    (hinfo : r.clients.lookup key = some info) (hrun : info.runId = runId) (now : Nat)
    (unix : UInt64) :
    (r.markOfflineByRunIdAndControlId now unix runId info.controlId).runIndex =
      r.runIndex.erase runId := by
  unfold markOfflineByRunIdAndControlId
  simp only [hkey, hinfo, hrun, true_and, or_true, if_true]
  split <;> rfl

theorem onlineAt_offline {r r' : ClientRegistry} {key : String} {now : Nat}
    {unix : UInt64}
    (hclients : r'.clients = r.clients.erase key ∨
      r'.clients = r.clients.insert key (offlineInfo info now unix)) (key' runId' : String) :
    r'.OnlineAt key' runId' ↔ key' ≠ key ∧ r.OnlineAt key' runId' := by
  unfold OnlineAt
  by_cases hsame : key' = key
  · rcases hclients with herase | hinsert
    · simp [herase, hsame, Table.lookup_erase_eq]
    · simp [hinsert, hsame, Table.lookup_insert_eq, offlineInfo]
  · rcases hclients with herase | hinsert
    · simp [herase, hsame]
    · simp [hinsert, hsame]

/-!
## The run id of an online client
-/

theorem stamped_new : new.Stamped := by
  intro key info h
  cases h

theorem stamped_step (h : r.Stamped) (e : RegistryCall) :
    (r.step e).Stamped := by
  cases e with
  | register clock login =>
    by_cases hrefused : login.runId = "" ∨ r.conflicts login = true
    · rw [step_register_refused clock hrefused]
      exact h
    · simp only [not_or, Bool.not_eq_true] at hrefused
      rw [step_register_accepted clock hrefused.1 hrefused.2]
      intro key info hinfo
      simp only [Table.lookup_insert_eq] at hinfo
      split at hinfo
      · cases hinfo
        simp [ClientLogin.stamp, hrefused.1]
      · exact h key info hinfo
  | markOffline now unix runId controlId =>
    rcases markOffline_cases r now unix runId controlId with
      hsame | ⟨key, info, _, hinfo, _, _, herase | hinsert⟩
    · simp only [step, hsame]
      exact h
    · intro key' info' hinfo'
      simp only [step, herase, Table.lookup_erase_eq] at hinfo'
      split at hinfo'
      · cases hinfo'
      · exact h key' info' hinfo'
    · intro key' info' hinfo'
      simp only [step, hinsert, Table.lookup_insert_eq] at hinfo'
      split at hinfo'
      · cases hinfo'
        simp [offlineInfo]
      · exact h key' info' hinfo'

theorem runId_ne_of_onlineAt (h : r.Stamped) {key runId : String} (honline : r.OnlineAt key runId) :
    runId ≠ "" := by
  obtain ⟨info, hinfo, hon, rfl⟩ := honline
  exact (h key info hinfo).mp hon

theorem entryOf_runId_iff (h : r.Stamped) (clock : RegistryClock) (login : ClientLogin)
    (runId : String) :
    (runId ≠ "" ∧ (r.entryOf clock login).runId = runId) ↔ r.OnlineAt login.key runId := by
  cases hlookup : r.clients.lookup login.key with
  | none =>
    rw [entryOf_of_none clock hlookup]
    constructor
    · rintro ⟨hne, heq⟩
      exact absurd heq.symm hne
    · rintro ⟨info, hinfo, _⟩
      rw [hlookup] at hinfo
      cases hinfo
  | some info =>
    rw [entryOf_of_some clock hlookup]
    constructor
    · rintro ⟨hne, rfl⟩
      exact ⟨info, hlookup, (h login.key info hlookup).mpr hne, rfl⟩
    · intro honline
      refine ⟨runId_ne_of_onlineAt h honline, ?_⟩
      obtain ⟨info', hinfo', _, hrun⟩ := honline
      rw [hlookup] at hinfo'
      cases hinfo'
      exact hrun

/-!
## The index
-/

def IndexExact (r : ClientRegistry) : Prop :=
  forall runId key, r.runIndex.lookup runId = some key ↔ r.OnlineAt key runId

theorem indexExact_new : new.IndexExact := by
  intro runId key
  constructor
  · intro h
    cases h
  · rintro ⟨info, hinfo, _⟩
    cases hinfo

theorem IndexExact.unique (h : r.IndexExact) {runId key key' : String} (hkey : r.OnlineAt key runId)
    (hkey' : r.OnlineAt key' runId) : key = key' := by
  have h1 := (h runId key).mpr hkey
  rw [(h runId key').mpr hkey'] at h1
  cases h1
  rfl

theorem IndexExact.markOffline (h : r.IndexExact) (now : Nat) (unix : UInt64) (runId : String)
    (controlId : UInt64) :
    (r.markOfflineByRunIdAndControlId now unix runId controlId).IndexExact := by
  rcases markOffline_cases r now unix runId controlId with
    hsame | ⟨key, info, hkey, hinfo, hrun, hindex, hclients⟩
  · rw [hsame]
    exact h
  · intro runId' key'
    rw [hindex, onlineAt_offline hclients, Table.lookup_erase_eq]
    have honline : r.OnlineAt key runId := (h runId key).mp hkey
    by_cases hsame : runId' = runId
    · simp only [hsame, if_true]
      constructor
      · intro hnone
        cases hnone
      · rintro ⟨hne, honline'⟩
        exact absurd (h.unique honline' honline) hne
    · simp only [hsame, if_false]
      rw [h runId' key']
      constructor
      · intro honline'
        refine ⟨?_, honline'⟩
        rintro rfl
        obtain ⟨info', hinfo', _, hrun'⟩ := honline'
        rw [hinfo] at hinfo'
        cases hinfo'
        exact hsame (hrun'.symm.trans hrun)
      · exact And.right

theorem IndexExact.offline_clears (h : r.IndexExact) {runId key : String}
    (hkey : r.runIndex.lookup runId = some key) (hinfo : r.clients.lookup key = some info)
    (now : Nat) (unix : UInt64) (key' : String) :
    ¬ (r.markOfflineByRunIdAndControlId now unix runId info.controlId).OnlineAt key' runId := by
  have hrun : info.runId = runId := by
    obtain ⟨info', hinfo', _, hrun⟩ := (h runId key).mp hkey
    rw [hinfo] at hinfo'
    cases hinfo'
    exact hrun
  intro honline
  have hindexed := (h.markOffline now unix runId info.controlId runId key').mpr honline
  rw [markOffline_owner hkey hinfo hrun, Table.lookup_erase_eq, if_pos rfl] at hindexed
  cases hindexed

theorem consistent_iff (r : ClientRegistry) : r.Consistent ↔ r.IndexExact := by
  constructor
  · intro h
    exact h.exact_index
  · intro h
    refine ⟨h, ?_, ?_⟩
    · intro runId key key'
      exact h.unique
    · intro runId key info now unix hkey hinfo key'
      exact h.offline_clears hkey hinfo now unix key'

/-- A login keeps the index exact unless it moves a run id to another key. -/
theorem IndexExact.register_iff (hstamped : r.Stamped) (h : r.IndexExact) (clock : RegistryClock)
    (login : ClientLogin) :
    (r.step (.register clock login)).IndexExact ↔ ¬ r.MovesRun login := by
  by_cases hrefused : login.runId = "" ∨ r.conflicts login = true
  · rw [step_register_refused clock hrefused]
    simp only [h, true_iff]
    rintro ⟨hrun, hconflict, _⟩
    rcases hrefused with hempty | hrefused
    · exact hrun hempty
    · rw [hconflict] at hrefused
      cases hrefused
  · simp only [not_or, Bool.not_eq_true] at hrefused
    obtain ⟨hrun, hconflict⟩ := hrefused
    have hindex := lookup_runIndex_register clock hrun hconflict
    have honline := onlineAt_register clock hrun hconflict
    constructor
    · rintro hexact ⟨_, _, key, hkey, hne⟩
      have hstill : (r.step (.register clock login)).OnlineAt key login.runId := by
        rw [honline, if_neg hne]
        exact (h login.runId key).mp hkey
      have hrow := (hexact login.runId key).mpr hstill
      rw [hindex, if_pos rfl] at hrow
      cases hrow
      exact hne rfl
    · intro hstays runId key
      rw [hindex, honline]
      by_cases hsame : runId = login.runId
      · by_cases hkey : key = login.key
        · simp [hsame, hkey]
        · simp only [hsame, if_true, hkey, if_false]
          constructor
          · intro heq
            cases heq
            exact absurd rfl hkey
          · intro honline'
            exact absurd ⟨hrun, hconflict, key, (h login.runId key).mpr honline', hkey⟩ hstays
      · simp only [hsame, if_false]
        have hold := entryOf_runId_iff hstamped clock login runId
        by_cases hkey : key = login.key
        · simp only [hkey, if_true]
          split
          · simp
          · rename_i hnot
            simp only [iff_false]
            intro hrow
            exact hnot (hold.mpr ((h runId login.key).mp hrow))
        · split
          · rename_i hother
            constructor
            · intro hnone
              cases hnone
            · intro honline'
              exact absurd (h.unique honline' (hold.mp hother)) hkey
          · exact h runId key

theorem consistent_step_iff (hstamped : r.Stamped) (h : r.Consistent) (e : RegistryCall) :
    (r.step e).Consistent ↔ r.KeepsRun e := by
  rw [consistent_iff] at h
  rw [consistent_iff]
  cases e with
  | register clock login =>
    exact h.register_iff hstamped clock login
  | markOffline now unix runId controlId =>
    simp only [KeepsRun, iff_true]
    exact h.markOffline now unix runId controlId

/-!
## Histories of calls
-/

/-- The two maps agree after every call of a history exactly if no accepted login brings a
run id under a new key that the index still has under another. -/
theorem client_registry_consistent_iff (calls : List RegistryCall) :
    (forall pre, pre <+: calls -> (Run.run step new pre).Consistent) ↔
      Run.Along step KeepsRun new calls := by
  refine @Run.forall_prefix_iff_along _ _ step KeepsRun Stamped Consistent ?_ ?_ new calls
    stamped_new ((consistent_iff new).mpr indexExact_new)
  · intro r e h
    exact stamped_step h e
  · intro r e hstamped h
    exact consistent_step_iff hstamped h e

/-- Two logins of one run id under the client ids `a` and `b`: the first client stays online
with the run id, also after the second control went offline. -/
theorem shared_run_id_stays_online :
    let clock : RegistryClock := ⟨0, 0, 0⟩
    let login := fun (id : String) (controlId : UInt64) =>
      RegistryCall.register clock
        ⟨"u", id, "r1", "host", "0.71.0", "1.2.3.4:5678", "v1", controlId⟩
    let r := Run.run step new [login "a" 1, login "b" 2]
    ¬ r.Consistent ∧
      (r.markOfflineByRunIdAndControlId 1 1 "r1" 2).OnlineAt "u.a" "r1" := by
  intro clock login r
  have honline : r.OnlineAt "u.a" "r1" := ⟨_, rfl, rfl, rfl⟩
  refine ⟨?_, ⟨_, rfl, rfl, rfl⟩⟩
  intro h
  have hrow := (h.exact_index "r1" "u.a").mpr honline
  exact absurd hrow (by decide +kernel)

end ClientRegistry
end Server
end FrpRs
