import FrpRs.Data.Ledger
import FrpRs.Server.Sweep

/-!
# TCP groups

A TCP group has an entry in `tcp_group_ctl`, with the shared listener, while it has a
member.  This module follows the entries through registrations, closes and disconnects.

The registry counts the members of a group by its name, whatever their types, and a
disconnect counts the members it is about to remove.  `GroupSafe` says which requests are
not led astray by that.
-/

namespace FrpRs
namespace Server

open List Ledger

namespace ProxyInfo

def InTcpGroup (p : ProxyInfo) (g : String) : Prop :=
  p.proxyType = .tcp ∧ p.groupName = some g

instance (p : ProxyInfo) (g : String) : Decidable (p.InTcpGroup g) :=
  inferInstanceAs (Decidable (_ ∧ _))

variable {p : ProxyInfo}

theorem InTcpGroup.ne_empty {g : String} (h : p.InTcpGroup g) : g ≠ "" :=
  (groupName_eq_some.mp h.2).2

theorem InTcpGroup.group_getD {g : String} (h : p.InTcpGroup g) :
    p.group.getD "" = g := by
  rw [(groupName_eq_some.mp h.2).1, Option.getD_some]

theorem InTcpGroup.isTcpGroup {g : String} (h : p.InTcpGroup g) :
    p.isTcpGroup = true := by
  simp [ProxyInfo.isTcpGroup, h.1, h.2]

theorem InTcpGroup.unique {g g' : String} (h : p.InTcpGroup g) (h' : p.InTcpGroup g') : g' = g :=
  Option.some.inj (h'.2.symm.trans h.2)

theorem isTcpGroup_iff : p.isTcpGroup = true ↔ exists g, p.InTcpGroup g := by
  constructor
  · intro h
    simp only [isTcpGroup, Bool.and_eq_true, decide_eq_true_eq, Option.isSome_iff_exists] at h
    obtain ⟨htype, g, hg⟩ := h
    exact ⟨g, htype, hg⟩
  · rintro ⟨g, hg⟩
    exact hg.isTcpGroup

end ProxyInfo

/-- The entries are those of the groups with a live member, or of the group that a
registration is about to create, and each member has its group's port. -/
structure Grouped (pending : Option String) (pm : ProxyManager)
    (groups : Table String TcpGroupEntry) : Prop where
  indexed : pm.Indexed
  exact : Exact ProxyInfo.InTcpGroup pm.get fun g =>
    (groups.lookup g).isSome = true ∨ pending = some g
  fresh : forall g, pending = some g -> groups.lookup g = none
  alone : forall g n m info info', pending = some g -> pm.get n = some info ->
    info.InTcpGroup g -> pm.get m = some info' -> info'.InTcpGroup g -> m = n
  port : forall g entry n info, groups.lookup g = some entry -> pm.get n = some info ->
    info.InTcpGroup g -> info.remotePort = some entry.port

namespace Grouped

variable {pending : Option String} {pm pm' : ProxyManager}
variable {groups groups' : Table String TcpGroupEntry}

theorem new : Grouped none ProxyManager.new ∅ where
  indexed := ProxyManager.indexed_new
  exact g := by
    constructor
    · rintro (h | h)
      · cases h
      · cases h
    · rintro ⟨n, info, h, _⟩
      cases h
  fresh g h := by cases h
  alone g n m info info' h := by cases h
  port g entry n info h := by cases h

theorem lookup_of_member (h : Grouped none pm groups) {n g : String} {info : ProxyInfo}
    (hget : pm.get n = some info) (hin : info.InTcpGroup g) :
    exists entry, groups.lookup g = some entry ∧ info.remotePort = some entry.port := by
  rcases (h.exact g).mpr (held_of hget hin) with hsome | hpending
  · obtain ⟨entry, hentry⟩ := Option.isSome_iff_exists.mp hsome
    exact ⟨entry, hentry, h.port g entry n info hentry hget hin⟩
  · cases hpending

theorem isSome_iff (h : Grouped none pm groups) (g : String) :
    (groups.lookup g).isSome = true ↔ Held ProxyInfo.InTcpGroup pm.get g := by
  rw [← h.exact g]
  simp

/-- The registration that is not completed is undone, or an entry outside the groups goes. -/
theorem remove (h : Grouped pending pm groups) {name : String}
    (hpending : forall g, pending = some g ->
      exists info, pm.get name = some info ∧ info.InTcpGroup g)
    (hmember : forall info g, pm.get name = some info -> info.InTcpGroup g -> pending = some g) :
    Grouped none (pm.remove name).1 groups := by
  have hrest : forall n, n ≠ name -> (pm.remove name).1.get n = pm.get n := by
    intro n hn
    rw [ProxyManager.get_remove, if_neg hn]
  refine ⟨h.indexed.remove name, ?_, ?_, ?_, ?_⟩
  · apply exact_of_erased hrest (by rw [ProxyManager.get_remove, if_pos rfl])
    intro g
    constructor
    · rintro (hsome | hnone)
      · have hheld := (h.exact g).mp (.inl hsome)
        cases hget : pm.get name with
        | none => exact (held_iff_of_none hget).mp hheld
        | some info =>
          rcases (held_iff_of_some hget).mp hheld with hin | hbeside
          · rw [h.fresh g (hmember info g hget hin)] at hsome
            cases hsome
          · exact hbeside
      · cases hnone
    · rintro ⟨n, info, hne, hn, hin⟩
      rcases (h.exact g).mpr (held_of hn hin) with hsome | hg
      · exact .inl hsome
      · obtain ⟨i, hi, hiin⟩ := hpending g hg
        exact absurd (h.alone g name n i info hg hi hiin hn hin) hne
  · intro g hg
    cases hg
  · intro g n m info info' hg
    cases hg
  · intro g entry n info hentry hn hin
    rw [ProxyManager.get_remove] at hn
    split at hn
    · cases hn
    · exact h.port g entry n info hentry hn hin

theorem create {g : String} (h : Grouped (some g) pm groups) {entry : TcpGroupEntry}
    (hport : forall n info, pm.get n = some info -> info.InTcpGroup g ->
      info.remotePort = some entry.port) :
    Grouped none pm (groups.insert g entry) := by
  refine ⟨h.indexed, ?_, ?_, ?_, ?_⟩
  · intro g'
    rw [← h.exact g']
    dsimp only
    rw [Table.lookup_insert_eq]
    by_cases hg : g' = g
    · simp [hg]
    · simp [hg, Ne.symm hg]
  · intro g' hg
    cases hg
  · intro g' n m info info' hg
    cases hg
  · intro g' e n info hentry hn hin
    rw [Table.lookup_insert_eq] at hentry
    split at hentry
    · rename_i hg
      cases hentry
      exact hport n info hn (hg ▸ hin)
    · exact h.port g' e n info hentry hn hin

end Grouped

/-!
## Freeing the port of a replaced entry
-/

namespace AppState

theorem freeReplacedPort_tcpGroups (s : AppState) (now : Nat) (old : ProxyInfo)
    (port : UInt16) :
    ((s.freeReplacedPort now old port).tcpGroups = s.tcpGroups.erase (old.group.getD "") ∧
      s.pm.groupLen (old.group.getD "") = 0) ∨
    ((s.freeReplacedPort now old port).tcpGroups = s.tcpGroups ∧
      forall q, old.remotePort = some q -> 0 < q -> q ≠ port -> old.isTcpGroup = true ->
        s.pm.groupLen (old.group.getD "") ≠ 0) := by
  unfold freeReplacedPort
  split
  · rename_i hport
    refine .inr ⟨rfl, ?_⟩
    intro q hq hpos
    rw [hq] at hport
    simp [Option.filter, hpos] at hport
  · rename_i q hport
    obtain ⟨hq, _⟩ := Option.filter_eq_some_iff.mp hport
    split
    · rename_i heq
      refine .inr ⟨rfl, ?_⟩
      intro q' hq' _ hne
      rw [hq] at hq'
      cases hq'
      exact absurd heq hne
    · split
      · dsimp only
        split
        · rename_i hlen
          refine .inl ⟨?_, hlen⟩
          split
          · rfl
          · rename_i hrecheck
            exact absurd hlen hrecheck
        · rename_i hlen
          exact .inr ⟨rfl, fun _ _ _ _ _ => hlen⟩
      · rename_i hgroup
        refine .inr ⟨?_, fun _ _ _ _ h => absurd h hgroup⟩
        split
        · split <;> rfl
        · rfl

variable {s : AppState} {g : String}

variable (now : Nat)

theorem lookup_freeReplacedPort_of_freed {old : ProxyInfo} {q port : UInt16}
    (hin : old.InTcpGroup g) (hq : old.remotePort = some q) (hpos : 0 < q) (hne : q ≠ port)
    (hlen : s.pm.groupLen g = 0) :
    (s.freeReplacedPort now old port).tcpGroups.lookup g = none := by
  rcases s.freeReplacedPort_tcpGroups now old port with ⟨heq, _⟩ | ⟨_, hkept⟩
  · rw [heq, hin.group_getD, Table.lookup_erase_eq, if_pos rfl]
  · exact absurd (hin.group_getD ▸ hlen) (hkept q hq hpos hne hin.isTcpGroup)

theorem lookup_freeReplacedPort_of_kept (old : ProxyInfo) (port : UInt16)
    (hlen : 0 < s.pm.groupLen g) :
    (s.freeReplacedPort now old port).tcpGroups.lookup g = s.tcpGroups.lookup g := by
  rcases s.freeReplacedPort_tcpGroups now old port with ⟨heq, hzero⟩ | ⟨heq, _⟩
  · have hne : g ≠ old.group.getD "" := by
      rintro rfl
      omega
    rw [heq, Table.lookup_erase_eq, if_neg hne]
  · rw [heq]

variable {entry : TcpGroupEntry}

theorem lookup_of_lookup_freeReplacedPort {now : Nat} {old : ProxyInfo} {port : UInt16}
    (h : (s.freeReplacedPort now old port).tcpGroups.lookup g = some entry) :
    s.tcpGroups.lookup g = some entry := by
  rcases s.freeReplacedPort_tcpGroups now old port with ⟨heq, _⟩ | ⟨heq, _⟩
  · rw [heq, Table.lookup_erase_eq] at h
    split at h
    · cases h
    · exact h
  · rw [heq] at h
    exact h

/-!
## A registration
-/

/-- What a registration needs of the groups: it creates its own or joins it on its port, and
the group of the entry it replaces keeps a member or is left by the last one. -/
structure EntersGroup (s : AppState) (pending : Option String) (info : ProxyInfo)
    (port : UInt16) (replaced : Option ProxyInfo) : Prop where
  join : forall g, info.InTcpGroup g -> pending = some g ∨
    exists entry, s.tcpGroups.lookup g = some entry ∧ entry.port = port
  create : forall g, pending = some g -> info.InTcpGroup g ∧ s.tcpGroups.lookup g = none
  leave : forall old g, replaced = some old -> old.InTcpGroup g -> info.InTcpGroup g ∨
    HeldBeside ProxyInfo.InTcpGroup s.pm.get info.name g ∨
    (s.pm.groupLen g ≤ 1 ∧ info.groupName ≠ some g ∧ old.remotePort ≠ some port ∧
      old.remotePort ≠ some 0)

theorem groupLen_left {pm pm' : ProxyManager} {info old : ProxyInfo} (h : pm.Indexed)
    (hreg : pm.Registered info pm' (some old)) (hold : old.InTcpGroup g) (hlen : pm.groupLen g ≤ 1)
    (hgroup : info.groupName ≠ some g) : pm'.groupLen g = 0 := by
  have hget : pm.get info.name = some old := hreg.replaced_eq.symm
  apply ProxyManager.groupLen_eq_zero (hreg.indexed h) hold.ne_empty
  intro n i hn
  by_cases hname : n = info.name
  · rw [hname, hreg.get_self] at hn
    cases hn
    exact hgroup
  · rw [hreg.get_of_ne hname] at hn
    intro hi
    exact hname (ProxyManager.eq_of_groupLen_le_one h hlen hget hold.2 hn hi)

variable {pm' : ProxyManager}

theorem lookup_freeReplaced_left {info old : ProxyInfo} {port : UInt16}
    (h : Grouped none s.pm s.tcpGroups) (hreg : s.pm.Registered info pm' (some old))
    (hold : old.InTcpGroup g) (hlen : s.pm.groupLen g ≤ 1) (hgroup : info.groupName ≠ some g)
    (hport : old.remotePort ≠ some port) (hzero : old.remotePort ≠ some 0) :
    ({ s with pm := pm' }.freeReplacedPort now old port).tcpGroups.lookup g = none := by
  have hget : s.pm.get info.name = some old := hreg.replaced_eq.symm
  obtain ⟨entry, _, hq⟩ := h.lookup_of_member hget hold
  apply lookup_freeReplacedPort_of_freed now hold hq
  · rw [UInt16.pos_iff_ne_zero]
    rintro heq
    exact hzero (heq ▸ hq)
  · rintro heq
    exact hport (heq ▸ hq)
  · exact groupLen_left h.indexed hreg hold hlen hgroup

variable {replaced : Option ProxyInfo}

theorem lookup_freeReplaced_kept {i : ProxyInfo} {n g : String} (port : UInt16)
    (hindexed : pm'.Indexed) (hn : pm'.get n = some i) (hi : i.groupName = some g) :
    ({ s with pm := pm' }.freeReplaced now port replaced).tcpGroups.lookup g =
      s.tcpGroups.lookup g := by
  cases replaced with
  | none => rfl
  | some old =>
    exact lookup_freeReplacedPort_of_kept now old port
      (ProxyManager.groupLen_pos hindexed hn hi)

theorem lookup_of_lookup_freeReplaced {now : Nat} {port : UInt16}
    (h : (s.freeReplaced now port replaced).tcpGroups.lookup g = some entry) :
    s.tcpGroups.lookup g = some entry := by
  cases replaced with
  | none => exact h
  | some old => exact lookup_of_lookup_freeReplacedPort h

theorem grouped_registered {pending : Option String} {info : ProxyInfo} {port : UInt16}
    (h : Grouped none s.pm s.tcpGroups) (hreg : s.pm.Registered info pm' replaced)
    (hport : info.remotePort = some port) (henters : s.EntersGroup pending info port replaced) :
    Grouped pending pm' ({ s with pm := pm' }.freeReplaced now port replaced).tcpGroups := by
  have hindexed := hreg.indexed h.indexed
  have hbefore : forall g, (s.tcpGroups.lookup g).isSome = true ->
      (exists old, replaced = some old ∧ old.InTcpGroup g) ∨
        HeldBeside ProxyInfo.InTcpGroup s.pm.get info.name g := by
    intro g hsome
    have hheld := (h.exact g).mp (.inl hsome)
    cases hget : s.pm.get info.name with
    | none => exact .inr ((held_iff_of_none hget).mp hheld)
    | some old =>
      rcases (held_iff_of_some hget).mp hheld with hold | hbeside
      · exact .inl ⟨old, hreg.replaced_eq.trans hget, hold⟩
      · exact .inr hbeside
  refine ⟨hindexed, ?_, ?_, ?_, ?_⟩
  · apply exact_of_written (fun n hn => hreg.get_of_ne hn) hreg.get_self
    intro g
    constructor
    · rintro (hsome | hpending)
      · obtain ⟨entry, hentry⟩ := Option.isSome_iff_exists.mp hsome
        have hlookup := lookup_of_lookup_freeReplaced hentry
        rcases hbefore g (Option.isSome_iff_exists.mpr ⟨entry, hlookup⟩) with
          ⟨old, hold, hin⟩ | hbeside
        · rcases henters.leave old g hold hin with hnew | hbeside | ⟨hlen, hgroup, hne, hzero⟩
          · exact .inl hnew
          · exact .inr hbeside
          · rw [hold] at hreg hentry
            have hgone := lookup_freeReplaced_left now h hreg hin hlen hgroup hne hzero
            rw [show freeReplaced _ now port (some old) = freeReplacedPort _ now old port from rfl,
              hgone] at hentry
            cases hentry
        · exact .inr hbeside
      · exact .inl (henters.create g hpending).1
    · rintro (hin | hbeside)
      · rcases henters.join g hin with hpending | ⟨entry, hentry, _⟩
        · exact .inr hpending
        · rw [lookup_freeReplaced_kept now port hindexed hreg.get_self hin.2, hentry]
          exact .inl rfl
      · obtain ⟨n, i, hne, hn, hi⟩ := hbeside
        rw [lookup_freeReplaced_kept now port hindexed ((hreg.get_of_ne hne).trans hn) hi.2]
        rcases (h.exact g).mpr (held_of hn hi) with hsome | hnone
        · exact .inl hsome
        · cases hnone
  · intro g hpending
    have hnone := (henters.create g hpending).2
    cases hlookup : ({ s with pm := pm' }.freeReplaced now port replaced).tcpGroups.lookup g with
    | none => rfl
    | some entry =>
      have hsome := lookup_of_lookup_freeReplaced hlookup
      rw [show ({ s with pm := pm' } : AppState).tcpGroups = s.tcpGroups from rfl, hnone] at hsome
      cases hsome
  · have hself : forall g n i, pending = some g -> pm'.get n = some i -> i.InTcpGroup g ->
        n = info.name := by
      intro g n i hpending hn hin
      by_contra hname
      rw [hreg.get_of_ne hname] at hn
      obtain ⟨entry, hentry, _⟩ := h.lookup_of_member hn hin
      rw [(henters.create g hpending).2] at hentry
      cases hentry
    intro g n m i i' hpending hn hin hm hin'
    rw [hself g n i hpending hn hin, hself g m i' hpending hm hin']
  · intro g entry n i hentry hn hin
    have hlookup := lookup_of_lookup_freeReplaced hentry
    by_cases hname : n = info.name
    · rw [hname, hreg.get_self] at hn
      cases hn
      rcases henters.join g hin with hpending | ⟨entry', hentry', hentryPort⟩
      · rw [(henters.create g hpending).2] at hlookup
        cases hlookup
      · rw [hlookup] at hentry'
        cases hentry'
        rw [hport, hentryPort]
    · rw [hreg.get_of_ne hname] at hn
      exact h.port g entry n i hlookup hn hin

/-!
## Requests that keep the groups right
-/

/-- The port that a message resolves to in the state before it. -/
def resolvedPort (cfg : ServerConfig) (env : Surroundings) (s : AppState) (np : NewProxy) :
    Option UInt16 :=
  match if np.isTcpGroup then s.groupQuery cfg np else .notFound with
  | .found port => some port
  | .mismatch _ => none
  | .notFound =>
    (s.allocateProxyPort cfg env 0 np.proxyName np.proxyType np.declaredPort).2.toOption

def TcpMemberOutside (s : AppState) (names : List String) (g : String) : Prop :=
  exists info, info ∈ s.pm.list ∧ info.name ∉ names ∧ info.InTcpGroup g

instance (s : AppState) (names : List String) (g : String) :
    Decidable (s.TcpMemberOutside names g) :=
  inferInstanceAs (Decidable (exists info, info ∈ s.pm.list ∧ _))

/-- A message that takes over a member of a TCP group stays in the group, leaves a member
behind, or gives up the last name in it for another port. -/
def GroupSafeNew (cfg : ServerConfig) (env : Surroundings) (s : AppState) (np : NewProxy)
    (runId : String) (controlId : Nat) : Prop :=
  s.notAdmitted cfg env np runId = none ->
    forall port, port ∈ s.resolvedPort cfg env np ->
    forall old, old ∈ s.takenOver np runId controlId ->
    forall g, g ∈ old.groupName -> old.proxyType = .tcp ->
      (np.proxyType = .tcp ∧ np.groupName = some g) ∨
      s.TcpMemberOutside [np.proxyName] g ∨
      (s.pm.groupLen g ≤ 1 ∧ np.groupName ≠ some g ∧ old.remotePort ≠ some port ∧
        old.remotePort ≠ some 0)

def GroupSafeClose (s : AppState) (runId name : String) : Prop :=
  forall p, p ∈ s.pm.get name -> p.runId = runId ->
    forall g, g ∈ p.groupName -> p.proxyType = .tcp ->
      s.TcpMemberOutside [name] g ∨ s.pm.groupLen g ≤ 1

/-- The control sweeps entries of its own generation only, and a group of which it sweeps
more than the only name keeps a TCP member. -/
def GroupSafeDisconnect (s : AppState) (runId : String) (controlId : Nat) : Prop :=
  forall p, p ∈ swept s.pm runId controlId ->
    (p.controlId = 0 ∨ p.controlId = controlId) ∧
    forall g, g ∈ p.groupName -> p.proxyType = .tcp ->
      s.TcpMemberOutside ((swept s.pm runId controlId).map ProxyInfo.name) g ∨
        s.pm.groupLen g ≤ 1

def GroupSafe (cfg : ServerConfig) (s : AppState) : Request -> Prop
  | .newProxy env np runId controlId => s.GroupSafeNew cfg env np runId controlId
  | .closeProxy runId name => s.GroupSafeClose runId name
  | .disconnect _ runId controlId => s.GroupSafeDisconnect runId controlId

instance (cfg : ServerConfig) (s : AppState) : (e : Request) -> Decidable (s.GroupSafe cfg e)
  | .newProxy env np runId _ =>
    inferInstanceAs (Decidable (s.notAdmitted cfg env np runId = none -> _))
  | .closeProxy _ name => inferInstanceAs (Decidable (forall p, p ∈ s.pm.get name -> _))
  | .disconnect _ runId controlId =>
    inferInstanceAs (Decidable (forall p, p ∈ swept s.pm runId controlId -> _))

theorem heldOutside_of_tcpMemberOutside (hindexed : s.pm.Indexed) {names : List String}
    (h : s.TcpMemberOutside names g) :
    HeldOutside ProxyInfo.InTcpGroup s.pm.get (fun n => n ∈ names) g := by
  obtain ⟨info, hlist, hname, hin⟩ := h
  exact ⟨info.name, info, hname, (ProxyManager.mem_list hindexed).mp hlist, hin⟩

theorem heldBeside_of_tcpMemberOutside (hindexed : s.pm.Indexed) {name g : String}
    (h : s.TcpMemberOutside [name] g) :
    HeldBeside ProxyInfo.InTcpGroup s.pm.get name g := by
  obtain ⟨n, info, hne, hn, hin⟩ := heldOutside_of_tcpMemberOutside hindexed h
  exact ⟨n, info, fun heq => hne (mem_singleton.mpr heq), hn, hin⟩

def GroupsRight (s : AppState) : Prop :=
  Grouped none s.pm s.tcpGroups

theorem groupsRight_of_ports {s s' : AppState} (h : s'.ports = s.ports) (hs : s.GroupsRight) :
    s'.GroupsRight := by
  have hpm : s'.pm = s.pm := pm_of_ports h
  have hgroups : s'.tcpGroups = s.tcpGroups := congrArg PortView.tcpGroups h
  unfold GroupsRight
  rw [hpm, hgroups]
  exact hs

theorem grouped_of_ports {pending : Option String} {s s' : AppState} (h : s'.ports = s.ports)
    (hs : Grouped pending s.pm s.tcpGroups) : Grouped pending s'.pm s'.tcpGroups := by
  have hpm : s'.pm = s.pm := pm_of_ports h
  have hgroups : s'.tcpGroups = s.tcpGroups := congrArg PortView.tcpGroups h
  rw [hpm, hgroups]
  exact hs

theorem isTcpGroup_newProxy {np : NewProxy} (h : np.isTcpGroup = true) :
    exists g, np.proxyType = .tcp ∧ np.groupName = some g ∧ np.group.getD "" = g := by
  simp only [NewProxy.isTcpGroup, Bool.and_eq_true, decide_eq_true_eq,
    Option.isSome_iff_exists] at h
  obtain ⟨htype, g, hg⟩ := h
  refine ⟨g, htype, hg, ?_⟩
  rw [(Option.filter_eq_some_iff.mp hg).1, Option.getD_some]

theorem groupQuery_notFound {cfg : ServerConfig} {np : NewProxy} (hg : np.group.getD "" = g) :
    s.groupQuery cfg np = .notFound ↔ s.tcpGroups.lookup g = none := by
  unfold groupQuery getGroupPort
  rw [hg]
  cases s.tcpGroups.lookup g with
  | none => simp
  | some entry =>
    simp only [reduceCtorEq, iff_false]
    split
    · simp
    · split
      · simp
      · split <;> simp

theorem groupQuery_found {cfg : ServerConfig} {np : NewProxy} {port : UInt16}
    (hg : np.group.getD "" = g) (h : s.groupQuery cfg np = .found port) :
    exists entry, s.tcpGroups.lookup g = some entry ∧ entry.port = port ∧
      entry.groupKey = np.groupKey.getD "" := by
  unfold groupQuery getGroupPort at h
  rw [hg] at h
  cases hentry : s.tcpGroups.lookup g with
  | none =>
    rw [hentry] at h
    cases h
  | some entry =>
    rw [hentry] at h
    dsimp only at h
    split at h
    · cases h
    · split at h
      · cases h
      · split at h
        · cases h
        · rename_i hkey
          cases h
          exact ⟨entry, rfl, rfl, not_not.mp hkey⟩

/-!
## The groups after a message
-/

section NewProxy

variable {cfg : ServerConfig} {env : Surroundings} {np : NewProxy} {runId : String}
variable {controlId : Nat}

theorem Allocates.groupsRight {s s' : AppState} (h : s.Allocates s') (hs : s.GroupsRight) :
    s'.GroupsRight := by
  unfold GroupsRight
  rw [h.pm_eq, h.tcpGroups_eq]
  exact hs

def pendingGroup (np : NewProxy) : Option String :=
  if np.isTcpGroup then np.groupName else none

theorem pendingGroup_eq_some :
    pendingGroup np = some g ↔ np.proxyType = .tcp ∧ np.groupName = some g := by
  unfold pendingGroup NewProxy.isTcpGroup
  cases np.groupName with
  | none => simp
  | some g' =>
    by_cases htype : np.proxyType = .tcp
    · simp [htype]
    · simp [htype]

/-- The entry that a message writes, and the group it is about to create. -/
structure Entered (np : NewProxy) (runId : String) (controlId : Nat) (s : AppState)
    (port : UInt16) : Prop where
  grouped : Grouped (pendingGroup np) s.pm s.tcpGroups
  entry : s.pm.get np.proxyName = some (np.proxyInfo runId controlId port)

variable {port : UInt16}

theorem Entered.of_ports {s s' : AppState} (hports : s'.ports = s.ports)
    (h : Entered np runId controlId s port) : Entered np runId controlId s' port :=
  ⟨grouped_of_ports hports h.grouped, by rw [pm_of_ports hports]; exact h.entry⟩

theorem Entered.remove (h : Entered np runId controlId s port) :
    Grouped none (s.pm.remove np.proxyName).1 s.tcpGroups := by
  apply h.grouped.remove
  · intro g hg
    exact ⟨_, h.entry, pendingGroup_eq_some.mp hg⟩
  · intro info g hinfo hin
    rw [h.entry] at hinfo
    cases hinfo
    exact pendingGroup_eq_some.mpr hin

theorem Entered.groupsRight (h : Entered np runId controlId s port) (hgroup : np.isTcpGroup = false) :
    s.GroupsRight := by
  have hpending : pendingGroup np = none := by
    unfold pendingGroup
    rw [hgroup]
    rfl
  have hgrouped := h.grouped
  rw [hpending] at hgrouped
  exact hgrouped

theorem Entered.rollbackTcp (h : Entered np runId controlId s port) :
    (s.rollbackTcpBindFailure runId port np.proxyName).GroupsRight :=
  groupsRight_of_ports (ports_rollbackTcpBindFailure s runId port np.proxyName) h.remove

theorem Entered.rollbackUdp (h : Entered np runId controlId s port) :
    (s.rollbackUdpBindFailure runId port np.proxyName).GroupsRight :=
  groupsRight_of_ports (ports_rollbackUdpBindFailure s runId port np.proxyName) h.remove

/-- The group of the entry that a message takes over keeps a member, or its last one leaves. -/
def LeavesGroups (s : AppState) (np : NewProxy) (runId : String) (controlId : Nat)
    (port : UInt16) : Prop :=
  forall old g, s.takenOver np runId controlId = some old -> old.InTcpGroup g ->
    (np.proxyType = .tcp ∧ np.groupName = some g) ∨
    HeldBeside ProxyInfo.InTcpGroup s.pm.get np.proxyName g ∨
    (s.pm.groupLen g ≤ 1 ∧ np.groupName ≠ some g ∧ old.remotePort ≠ some port ∧
      old.remotePort ≠ some 0)

theorem entersGroup_pending
    (hnew : forall g, np.proxyType = .tcp -> np.groupName = some g -> s.tcpGroups.lookup g = none)
    (hleave : s.LeavesGroups np runId controlId port) :
    s.EntersGroup (pendingGroup np) (np.proxyInfo runId controlId port) port
      (s.takenOver np runId controlId) := by
  refine ⟨?_, ?_, hleave⟩
  · intro g hin
    exact .inl (pendingGroup_eq_some.mpr hin)
  · intro g hg
    have hin := pendingGroup_eq_some.mp hg
    exact ⟨hin, hnew g hin.1 hin.2⟩

/-- A registration that goes through. -/
theorem entered_registerProxyEntry {s s' : AppState} (hs : s.GroupsRight)
    (hreg : s.registerProxyEntry env np runId controlId port = (s', none))
    (hnew : forall g, np.proxyType = .tcp -> np.groupName = some g ->
      s.tcpGroups.lookup g = none)
    (hleave : s.LeavesGroups np runId controlId port) :
    Entered np runId controlId s' port := by
  obtain ⟨pm', _, hregistered, hports⟩ := registerProxyEntry_entered hreg
  have hpm : s'.pm = pm' := by
    rw [pm_of_ports hports, freeReplaced_pm]
  have hgrouped := grouped_registered env.now hs hregistered rfl (entersGroup_pending hnew hleave)
  refine ⟨?_, ?_⟩
  · rw [hpm, show s'.tcpGroups = _ from congrArg PortView.tcpGroups hports]
    exact hgrouped
  · rw [hpm]
    exact hregistered.get_self

theorem groupsRight_registerProxyEntry_refused {s s' : AppState} {e : String} (hs : s.GroupsRight)
    (hreg : s.registerProxyEntry env np runId controlId port = (s', some e)) :
    s'.GroupsRight := by
  obtain ⟨_, hports⟩ := registerProxyEntry_taken hreg
  have hpm : s'.pm = s.pm := congrArg PortView.pm hports
  have hgroups : s'.tcpGroups = s.tcpGroups := congrArg PortView.tcpGroups hports
  unfold GroupsRight
  rw [hpm, hgroups]
  exact hs

theorem groupsRight_registerNew {tcpGroupCreated : Bool} (hs : s.GroupsRight)
    (hcreated : tcpGroupCreated = np.isTcpGroup)
    (hnew : forall g, np.proxyType = .tcp -> np.groupName = some g ->
      s.tcpGroups.lookup g = none)
    (hleave : forall s1 port, s.allocateProxyPort cfg env 0 np.proxyName np.proxyType
        np.declaredPort = (s1, .ok port) -> s.LeavesGroups np runId controlId port) :
    (s.registerNew cfg env np runId controlId tcpGroupCreated).1.GroupsRight := by
  have hgroupless : (np.proxyType = .tcp -> tcpGroupCreated = false) ->
      np.isTcpGroup = false := by
    intro h
    by_contra hgroup
    obtain ⟨g, htype, _⟩ := isTcpGroup_newProxy (Bool.not_eq_false _ ▸ hgroup)
    rw [← hcreated, h htype] at hgroup
    exact hgroup rfl
  apply @registerNew_rule cfg env np runId controlId
    (fun port s => Entered np runId controlId s port)
    (fun port s => Entered np runId controlId s port) (fun s _ => s.GroupsRight)
  case noPort =>
    intro s1 e halloc
    have hallocates := allocateProxyPort_allocates halloc
    exact hallocates.groupsRight hs
  case taken =>
    intro s1 s2 port e halloc hreg
    have hallocates := allocateProxyPort_allocates halloc
    exact groupsRight_registerProxyEntry_refused (hallocates.groupsRight hs) hreg
  case entered =>
    intro s1 s2 port halloc hreg
    have hallocates := allocateProxyPort_allocates halloc
    have hpm : s1.pm = s.pm := hallocates.pm_eq
    apply entered_registerProxyEntry (hallocates.groupsRight hs) hreg
    · intro g htype hg
      rw [show s1.tcpGroups = s.tcpGroups from hallocates.tcpGroups_eq]
      exact hnew g htype hg
    · intro old g hold hin
      rw [takenOver, hpm] at hold
      rw [hpm]
      exact hleave s1 port halloc old g hold hin
  case routed =>
    intro s1 s2 port hentered hroutes
    have hports := registerRoutes_ports hroutes
    exact hentered.of_ports hports
  case unrouted =>
    intro s1 s2 port reply hentered hroutes
    obtain ⟨hports, _⟩ := registerRoutes_ports hroutes
    exact groupsRight_of_ports hports hentered.remove
  case listening =>
    intro hplain port s' hentered
    exact hentered.groupsRight (hgroupless hplain)
  case udpUndone =>
    intro _ port s' _ hentered
    exact hentered.rollbackUdp
  case undone =>
    intro _ port s' _ hentered
    exact hentered.rollbackTcp
  case again =>
    intro htype hplain port s' attempt s1 r hentered _ halloc hgone
    have hretry := allocateProxyPort_allocates halloc
    have hundone : ((s'.rollbackTcpBindFailure runId port np.proxyName).dropReservation
        np.proxyName).GroupsRight := hentered.rollbackTcp
    have hright : s1.GroupsRight := hretry.groupsRight hundone
    refine ⟨fun _ _ => hright, ?_⟩
    intro p s2 _ hreg
    apply entered_registerProxyEntry hright hreg
    · intro g htcp hg
      have hnot := hgroupless (fun _ => hplain)
      rw [NewProxy.isTcpGroup, htcp, hg] at hnot
      cases hnot
    · intro old g hold _
      rw [takenOver, hgone] at hold
      cases hold
  case fresh =>
    intro hgroup port s' hentered
    rw [hcreated] at hgroup
    obtain ⟨g, htype, hg, hgetD⟩ := isTcpGroup_newProxy hgroup
    rw [hgetD]
    exact hentered.grouped.fresh g (pendingGroup_eq_some.mpr ⟨htype, hg⟩)
  case created =>
    intro _ hgroup port s' hentered
    rw [hcreated] at hgroup
    obtain ⟨g, htype, hg, hgetD⟩ := isTcpGroup_newProxy hgroup
    have hpending := pendingGroup_eq_some.mpr ⟨htype, hg⟩
    have hgrouped := hentered.grouped
    rw [hpending] at hgrouped
    rw [hgetD]
    apply hgrouped.create
    intro n info hn hin
    have hname := hgrouped.alone g np.proxyName n _ info rfl hentered.entry ⟨htype, hg⟩ hn hin
    rw [hname, hentered.entry] at hn
    cases hn
    rfl

/-- A message that joins a group. -/
theorem groupsRight_join (hs : s.GroupsRight)
    (htype : np.proxyType = .tcp) (hg : np.groupName = some g)
    (hentry : exists entry, s.tcpGroups.lookup g = some entry ∧ entry.port = port)
    (hleave : s.LeavesGroups np runId controlId port) :
    ((s.markTcp port).handleTcpGroupMemberRegistration cfg env np runId controlId
      port).1.GroupsRight := by
  rcases (s.markTcp port).handleTcpGroupMemberRegistration_cases cfg env runId controlId port
    htype with ⟨s', text, heq, _, hports⟩ | ⟨s', pm', heq, _, hregistered, hports⟩
  · rw [heq]
    have hpm : s'.pm = s.pm := congrArg PortView.pm hports
    have hgroups : s'.tcpGroups = s.tcpGroups := congrArg PortView.tcpGroups hports
    unfold GroupsRight
    rw [hpm, hgroups]
    exact hs
  · rw [heq]
    have hpm : s'.pm = pm' := by
      rw [pm_of_ports hports, freeReplaced_pm]
    have henters : (s.markTcp port).EntersGroup none (np.proxyInfo runId controlId port) port
        ((s.markTcp port).takenOver np runId controlId) := by
      refine ⟨?_, ?_, hleave⟩
      · intro g' hin
        rw [hin.unique (p := np.proxyInfo runId controlId port) ⟨htype, hg⟩] at hentry
        exact .inr hentry
      · intro g' hpending
        cases hpending
    have hgrouped := grouped_registered (s := s.markTcp port) env.now hs hregistered rfl henters
    unfold GroupsRight
    rw [hpm, show s'.tcpGroups = _ from congrArg PortView.tcpGroups hports]
    exact hgrouped

theorem GroupSafeNew.leavesGroups (h : s.GroupSafeNew cfg env np runId controlId)
    (hindexed : s.pm.Indexed) (hadmitted : s.notAdmitted cfg env np runId = none)
    (hport : s.resolvedPort cfg env np = some port) : s.LeavesGroups np runId controlId port := by
  intro old g hold hin
  rcases h hadmitted port hport old hold g hin.2 hin.1 with hnew | hmember | hlast
  · exact .inl hnew
  · exact .inr (.inl (heldBeside_of_tcpMemberOutside hindexed hmember))
  · exact .inr (.inr hlast)

theorem groupsRight_handleNewProxy (hs : s.GroupsRight)
    (hsafe : s.GroupSafeNew cfg env np runId controlId) :
    (s.handleNewProxy cfg env np runId controlId).1.GroupsRight := by
  unfold handleNewProxy
  split
  · exact hs
  · rename_i hadmitted
    split
    · rename_i hgroup
      obtain ⟨g, htype, hg, hgetD⟩ := isTcpGroup_newProxy hgroup
      cases hquery : s.groupQuery cfg np with
      | found port =>
        obtain ⟨entry, hentry, hport, _⟩ := groupQuery_found hgetD hquery
        apply groupsRight_join hs htype hg ⟨entry, hentry, hport⟩
        apply hsafe.leavesGroups hs.indexed hadmitted
        rw [resolvedPort, if_pos hgroup, hquery]
      | mismatch text => exact hs
      | notFound =>
        apply groupsRight_registerNew hs hgroup.symm
        · intro g' _ hg'
          rw [hg] at hg'
          cases hg'
          exact (groupQuery_notFound hgetD).mp hquery
        · intro s1 port halloc
          apply hsafe.leavesGroups hs.indexed hadmitted
          rw [resolvedPort, if_pos hgroup, hquery]
          rw [halloc]
          rfl
    · rename_i hgroup
      have hplain : np.isTcpGroup = false := Bool.eq_false_iff.mpr hgroup
      apply groupsRight_registerNew hs hplain.symm
      · intro g htype hg
        rw [NewProxy.isTcpGroup, htype, hg] at hplain
        cases hplain
      · intro s1 port halloc
        apply hsafe.leavesGroups hs.indexed hadmitted
        rw [resolvedPort, if_neg hgroup]
        rw [halloc]
        rfl

end NewProxy

/-!
## The groups after a close or a disconnect
-/

theorem releaseClosedPort_pm (s : AppState) (p : ProxyInfo) :
    (s.releaseClosedPort p).pm = s.pm := by
  unfold releaseClosedPort
  split
  · rfl
  · split
    · unfold releaseUdpPortWithOwnerCheck
      split <;> rfl
    · split <;> rfl

theorem releaseClosedPort_tcpGroups (s : AppState) (p : ProxyInfo) :
    (s.releaseClosedPort p).tcpGroups = s.tcpGroups := by
  unfold releaseClosedPort
  split
  · rfl
  · split
    · unfold releaseUdpPortWithOwnerCheck
      split <;> rfl
    · split <;> rfl

theorem releaseEmptyTcpGroup_pm (s : AppState) (p : ProxyInfo) :
    (s.releaseEmptyTcpGroup p).pm = s.pm := by
  unfold releaseEmptyTcpGroup
  dsimp only
  split
  · split <;> rfl
  · rfl

theorem releaseEmptyTcpGroup_tcpGroups (s : AppState) (p : ProxyInfo) :
    (s.releaseEmptyTcpGroup p).tcpGroups =
      if p.isTcpGroup = true ∧ s.pm.groupLen (p.group.getD "") = 0 then
        s.tcpGroups.erase (p.group.getD "")
      else s.tcpGroups := by
  unfold releaseEmptyTcpGroup
  dsimp only
  split
  · rename_i hempty
    simp only [Bool.and_eq_true, decide_eq_true_eq] at hempty
    rw [if_pos hempty]
    split <;> rfl
  · rename_i hempty
    simp only [Bool.and_eq_true, decide_eq_true_eq] at hempty
    rw [if_neg hempty]

variable {p : ProxyInfo}
variable {runId name : String}

theorem closeProxy_pm (hget : s.pm.get name = some p) (hrun : p.runId = runId) :
    (s.closeProxy runId name).pm = (s.pm.remove p.name).1 := by
  rw [pm_of_ports (ports_closeProxy hget hrun), releaseEmptyTcpGroup_pm, removeEntry,
    releaseClosedPort_pm]

theorem closeProxy_tcpGroups (hget : s.pm.get name = some p) (hrun : p.runId = runId) :
    (s.closeProxy runId name).tcpGroups =
      if p.isTcpGroup = true ∧ (s.pm.remove p.name).1.groupLen (p.group.getD "") = 0 then
        s.tcpGroups.erase (p.group.getD "")
      else s.tcpGroups := by
  have hports := congrArg PortView.tcpGroups (ports_closeProxy hget hrun)
  have hgroups : (s.closeProxy runId name).tcpGroups =
      (((s.releaseClosedPort p).removeEntry p.name).releaseEmptyTcpGroup p).tcpGroups := hports
  rw [hgroups, releaseEmptyTcpGroup_tcpGroups, removeEntry, releaseClosedPort_pm]
  show (if _ then (s.releaseClosedPort p).tcpGroups.erase _ else
    (s.releaseClosedPort p).tcpGroups) = _
  rw [releaseClosedPort_tcpGroups]

/-- Whether the last member of a group closes is decided by the names that are left. -/
theorem groupLen_remove_eq_zero_iff {pm : ProxyManager} (h : pm.Indexed)
    (hget : pm.get p.name = some p) (hg : p.groupName = some g) :
    (pm.remove p.name).1.groupLen g = 0 ↔ pm.groupLen g ≤ 1 := by
  have hindexed := h.remove p.name
  constructor
  · intro hzero
    by_contra hmany
    obtain ⟨hgroup, hne⟩ := ProxyInfo.groupName_eq_some.mp hg
    have hnodup := h.group_once g
    obtain ⟨m, hm, hmne⟩ : exists m, m ∈ pm.members g ∧ m ≠ p.name := by
      by_contra hnone
      have hall : forall m, m ∈ pm.members g -> m = p.name := by
        intro m hm
        by_contra hmne
        exact hnone ⟨m, hm, hmne⟩
      have hle : (pm.members g).length ≤ 1 := by
        match hlist : pm.members g with
        | [] => exact Nat.zero_le 1
        | [a] => exact Nat.le_refl 1
        | a :: b :: rest =>
          rw [hlist] at hall hnodup
          have ha := hall a mem_cons_self
          have hb := hall b (mem_cons_of_mem a mem_cons_self)
          rw [ha, hb] at hnodup
          exact absurd mem_cons_self (nodup_cons.mp hnodup).1
      exact hmany hle
    obtain ⟨info, hinfo, higroup⟩ := (h.group_exact g hne m).mp hm
    have hkept : (pm.remove p.name).1.get m = some info := by
      rw [ProxyManager.get_remove, if_neg hmne]
      exact hinfo
    have hpos := ProxyManager.groupLen_pos hindexed hkept
      (ProxyInfo.groupName_eq_some.mpr ⟨higroup, hne⟩)
    omega
  · intro hle
    apply ProxyManager.groupLen_eq_zero hindexed (ProxyInfo.groupName_eq_some.mp hg).2
    intro n info hn hgroup
    rw [ProxyManager.get_remove] at hn
    split at hn
    · cases hn
    · rename_i hne
      exact hne (ProxyManager.eq_of_groupLen_le_one h hle hget hg hn hgroup)

theorem groupsRight_closeProxy (hs : s.GroupsRight) (hsafe : s.GroupSafeClose runId name) :
    (s.closeProxy runId name).GroupsRight := by
  by_cases howned : exists p, s.pm.get name = some p ∧ p.runId = runId
  · obtain ⟨p, hget, hrun⟩ := howned
    have hname : p.name = name := ProxyManager.named_of_get hs.indexed hget
    have hgetp : s.pm.get p.name = some p := hname.symm ▸ hget
    unfold GroupsRight
    rw [closeProxy_pm hget hrun, closeProxy_tcpGroups hget hrun]
    by_cases hgroup : p.isTcpGroup = true
    · obtain ⟨g, hin⟩ := ProxyInfo.isTcpGroup_iff.mp hgroup
      rw [hin.group_getD]
      have hiff := groupLen_remove_eq_zero_iff hs.indexed hgetp hin.2
      have hrest : forall n, n ≠ p.name -> (s.pm.remove p.name).1.get n = s.pm.get n := by
        intro n hn
        rw [ProxyManager.get_remove, if_neg hn]
      refine ⟨hs.indexed.remove p.name, ?_, ?_, ?_, ?_⟩
      · apply exact_of_erased hrest (by rw [ProxyManager.get_remove, if_pos rfl])
        intro g'
        have hbefore := hs.isSome_iff g'
        rw [held_iff_of_some hgetp] at hbefore
        split
        · rename_i hempty
          rw [Table.lookup_erase_eq]
          by_cases hg : g' = g
          · subst hg
            simp only [if_true, Option.isSome_none, Bool.false_eq_true, reduceCtorEq, or_self,
              false_iff]
            rintro ⟨n, info, hne, hn, hinfo⟩
            exact hne (ProxyManager.eq_of_groupLen_le_one hs.indexed (hiff.mp hempty.2) hgetp
              hin.2 hn hinfo.2)
          · rw [if_neg hg, hbefore]
            constructor
            · rintro ((hp | hbeside) | hnone)
              · exact absurd (hin.unique hp) hg
              · exact hbeside
              · cases hnone
            · intro hbeside
              exact .inl (.inr hbeside)
        · rename_i hkept
          have hmember : HeldBeside ProxyInfo.InTcpGroup s.pm.get p.name g := by
            rcases hsafe p hget hrun g hin.2 hin.1 with hmember | hle
            · rw [hname]
              exact heldBeside_of_tcpMemberOutside hs.indexed hmember
            · exact absurd ⟨hgroup, hiff.mpr hle⟩ hkept
          rw [hbefore]
          constructor
          · rintro ((hp | hbeside) | hnone)
            · rw [hin.unique hp]
              exact hmember
            · exact hbeside
            · cases hnone
          · intro hbeside
            exact .inl (.inr hbeside)
      · intro g' hpending
        cases hpending
      · intro g' n m info info' hpending
        cases hpending
      · intro g' entry n info hentry hn hinfo
        rw [ProxyManager.get_remove] at hn
        split at hn
        · cases hn
        · split at hentry
          · rw [Table.lookup_erase_eq] at hentry
            split at hentry
            · cases hentry
            · exact hs.port g' entry n info hentry hn hinfo
          · exact hs.port g' entry n info hentry hn hinfo
    · rw [if_neg (fun h => hgroup h.1)]
      apply hs.remove
      · intro g hpending
        cases hpending
      · intro info g hinfo hin
        rw [hgetp] at hinfo
        cases hinfo
        exact absurd hin.isTcpGroup hgroup
  · rw [closeProxy_of_other]
    · exact hs
    · intro p hget hrun
      exact howned ⟨p, hget, hrun⟩

theorem sweptPort_of_member (hs : s.GroupsRight) (hget : s.pm.get p.name = some p)
    (hin : p.InTcpGroup g) (hentry : s.tcpGroups.lookup g = some entry) :
    sweptPort s.pm p = if s.pm.groupLen g ≤ 1 then some entry.port else none := by
  unfold sweptPort
  rw [not_superseded hget, hs.port g entry p.name p hentry hget hin, hin.group_getD,
    hin.isTcpGroup]
  simp [Option.filter_some]

theorem sweptGroup_eq_some (hs : s.GroupsRight) (hget : s.pm.get p.name = some p) :
    (exists len, sweptGroup s.pm p = some (g, len)) ↔ p.InTcpGroup g ∧ s.pm.groupLen g ≤ 1 := by
  unfold sweptGroup
  constructor
  · rintro ⟨len, hsome⟩
    split at hsome
    · rename_i hswept
      simp only [Bool.and_eq_true] at hswept
      cases hsome
      obtain ⟨g', hin⟩ := ProxyInfo.isTcpGroup_iff.mp hswept.1
      obtain ⟨entry, hentry, _⟩ := hs.lookup_of_member hget hin
      rw [sweptPort_of_member hs hget hin hentry] at hswept
      rw [hin.group_getD]
      refine ⟨hin, ?_⟩
      by_contra hmany
      rw [if_neg hmany] at hswept
      cases hswept.2
    · cases hsome
  · rintro ⟨hin, hle⟩
    obtain ⟨entry, hentry, _⟩ := hs.lookup_of_member hget hin
    refine ⟨s.pm.groupLen g, ?_⟩
    rw [sweptPort_of_member hs hget hin hentry, if_pos hle, hin.isTcpGroup, hin.group_getD]
    rfl

variable {controlId : Nat}

theorem mem_sweptGroups (hs : s.GroupsRight) {runId : String} :
    g ∈ ((swept s.pm runId controlId).filterMap (sweptGroup s.pm)).map Prod.fst ↔
      exists p, p ∈ swept s.pm runId controlId ∧ p.InTcpGroup g ∧ s.pm.groupLen g ≤ 1 := by
  rw [mem_map]
  constructor
  · rintro ⟨x, hx, rfl⟩
    obtain ⟨p, hp, hsome⟩ := mem_filterMap.mp hx
    exact ⟨p, hp, (sweptGroup_eq_some hs ((mem_swept hs.indexed).mp hp).1).mp ⟨x.2, hsome⟩⟩
  · rintro ⟨p, hp, hin⟩
    obtain ⟨len, hsome⟩ :=
      (sweptGroup_eq_some hs ((mem_swept hs.indexed).mp hp).1).mpr hin
    exact ⟨(g, len), mem_filterMap.mpr ⟨p, hp, hsome⟩, rfl⟩

theorem groupsRight_cleanup {runId : String} (hs : s.GroupsRight)
    (hsafe : s.GroupSafeDisconnect runId controlId) :
    (s.cleanup now runId controlId).GroupsRight := by
  have hget := fun n => get_cleanup now hs.indexed n (fun p hp => (hsafe p hp).1)
  have hlookup : forall g, (s.cleanup now runId controlId).tcpGroups.lookup g =
      if g ∈ ((swept s.pm runId controlId).filterMap (sweptGroup s.pm)).map Prod.fst then none
      else s.tcpGroups.lookup g := by
    intro g
    rw [cleanup_tcpGroups, lookup_sweepTcpPorts]
  refine ⟨indexed_cleanup now hs.indexed runId controlId, ?_, ?_, ?_, ?_⟩
  · apply @exact_of_removed _ _ _ _ s.pm.get _ _ (fun n => n ∈ s.sweptNames runId controlId)
    · intro n hn
      rw [hget, if_neg hn]
    · intro n hn
      rw [hget, if_pos hn]
    · intro g
      rw [hlookup]
      constructor
      · rintro (hsome | hnone)
        · split at hsome
          · cases hsome
          · rename_i hkept
            obtain ⟨n, info, hn, hin⟩ := (hs.isSome_iff g).mp hsome
            by_cases hout : n ∈ s.sweptNames runId controlId
            · obtain ⟨p, hp, hswept⟩ := (mem_sweptNames hs.indexed).mp hout
              rw [hn] at hp
              cases hp
              rcases (hsafe info hswept).2 g hin.2 hin.1 with hmember | hle
              · exact heldOutside_of_tcpMemberOutside hs.indexed hmember
              · exact absurd ((mem_sweptGroups hs).mpr ⟨info, hswept, hin, hle⟩) hkept
            · exact ⟨n, info, hout, hn, hin⟩
        · cases hnone
      · rintro ⟨n, info, hout, hn, hin⟩
        refine .inl ?_
        rw [if_neg]
        · exact (hs.isSome_iff g).mpr (held_of hn hin)
        · intro hswept
          obtain ⟨p, hp, hpin, hle⟩ := (mem_sweptGroups hs).mp hswept
          have hgetp := ((mem_swept hs.indexed).mp hp).1
          have heq := ProxyManager.eq_of_groupLen_le_one hs.indexed hle hgetp hpin.2 hn hin.2
          exact hout ((mem_sweptNames hs.indexed).mpr ⟨p, heq ▸ hgetp, hp⟩)
  · intro g hpending
    cases hpending
  · intro g n m info info' hpending
    cases hpending
  · intro g entry n info hentry hn hin
    rw [hlookup] at hentry
    rw [hget] at hn
    split at hn
    · cases hn
    · split at hentry
      · cases hentry
      · exact hs.port g entry n info hentry hn hin

theorem groupsRight_step (cfg : ServerConfig) (s : AppState) (e : Request) (hs : s.GroupsRight)
    (hsafe : s.GroupSafe cfg e) : (s.step cfg e).GroupsRight := by
  cases e with
  | newProxy env np runId controlId => exact groupsRight_handleNewProxy hs hsafe
  | closeProxy runId name => exact groupsRight_closeProxy hs hsafe
  | disconnect now runId controlId => exact groupsRight_cleanup now hs hsafe

theorem groupsRight_new : new.GroupsRight :=
  Grouped.new

theorem groupsRight_run {cfg : ServerConfig} {requests : List Request}
    (h : Run.Along (step cfg) (GroupSafe cfg) new requests) :
    (Run.run (step cfg) new requests).GroupsRight :=
  Run.run_invariant (groupsRight_step cfg) groupsRight_new h

/-- The entries of `tcp_group_ctl` are those of the groups with a live TCP proxy. -/
def GroupsExact (s : AppState) : Prop :=
  forall g, (s.tcpGroups.lookup g).isSome = true ↔
    exists n info, s.pm.get n = some info ∧ info.InTcpGroup g

theorem released_of_swept (cfg : ServerConfig) (hs : s.GroupsRight) {now : Nat} {runId : String}
    (hsafe : s.GroupSafeDisconnect runId controlId)
    (hentry : s.tcpGroups.lookup g = some entry)
    (hall : forall n info, s.pm.get n = some info -> info.InTcpGroup g ->
      info ∈ swept s.pm runId controlId) :
    (s.step cfg (.disconnect now runId controlId)).tcpGroups.lookup g = none ∧
      entry.port ∉ (s.step cfg (.disconnect now runId controlId)).usedPorts := by
  obtain ⟨n, p, hn, hin⟩ := (hs.isSome_iff g).mp (Option.isSome_iff_exists.mpr ⟨entry, hentry⟩)
  have hp := hall n p hn hin
  have hget := ((mem_swept hs.indexed).mp hp).1
  have hle : s.pm.groupLen g ≤ 1 := by
    rcases (hsafe p hp).2 g hin.2 hin.1 with ⟨info, hlist, hout, hinfo⟩ | hle
    · have hlive := (ProxyManager.mem_list hs.indexed).mp hlist
      exact absurd (mem_map_of_mem (hall info.name info hlive hinfo)) hout
    · exact hle
  constructor
  · show (s.cleanup now runId controlId).tcpGroups.lookup g = none
    rw [cleanup_tcpGroups, lookup_sweepTcpPorts,
      if_pos ((mem_sweptGroups hs).mpr ⟨p, hp, hin, hle⟩)]
  · show entry.port ∉ (s.cleanup now runId controlId).usedPorts
    rw [cleanup_usedPorts, mem_usedPorts_sweepTcpPorts]
    rintro ⟨_, hnot⟩
    apply hnot p hp
    rw [sweptPort_of_member hs hget hin hentry, if_pos hle]

/-- While all requests are safe, a group has its entry exactly as long as it has a live TCP
member, and a client that disconnects with all members takes the entry and the mark. -/
theorem tcp_group_lifecycle {cfg : ServerConfig} {requests : List Request}
    (h : Run.Along (step cfg) (GroupSafe cfg) new requests) :
    (Run.run (step cfg) new requests).GroupsExact ∧
    forall now runId controlId,
      GroupSafe cfg (Run.run (step cfg) new requests) (.disconnect now runId controlId) ->
      forall g entry, (Run.run (step cfg) new requests).tcpGroups.lookup g = some entry ->
        (forall n info, (Run.run (step cfg) new requests).pm.get n = some info ->
          info.InTcpGroup g ->
          info ∈ swept (Run.run (step cfg) new requests).pm runId controlId) ->
        ((Run.run (step cfg) new requests).step cfg
          (.disconnect now runId controlId)).tcpGroups.lookup g = none ∧
        entry.port ∉ ((Run.run (step cfg) new requests).step cfg
          (.disconnect now runId controlId)).usedPorts := by
  have hs := groupsRight_run h
  refine ⟨hs.isSome_iff, ?_⟩
  intro now runId controlId hsafe g entry hentry hall
  exact released_of_swept cfg hs hsafe hentry hall

def sampleConfig : ServerConfig where
  maxPortsPerClient := 0
  maxProxiesPerClient := 0
  maxCustomDomainsPerProxy := 0
  sudpPort := 0
  subDomainHost := ""
  proxyBindAddr := "0.0.0.0"
  detailedErrorsToClient := true
  toLowercase := String.toLower

def sampleSurroundings : Surroundings where
  pluginRejection := none
  vnetRejection := none
  allowPorts := []
  now := 0
  udpBindable := fun _ => true
  tcpBindable := fun _ _ => true
  udpBind := none
  tcpBind := fun _ => none

def sampleMessage (name : String) (type : ProxyType) (port : Int) (group : Option String) :
    NewProxy where
  proxyName := name
  proxyType := type
  group := group
  groupKey := none
  remotePort := some port
  sk := none
  customDomains := none
  subdomain := none
  locations := none
  httpUser := none
  httpPwd := none
  hostHeaderRewrite := none
  headers := none
  routeByHttpUser := none
  bandwidthLimit := none
  bandwidthLimitMode := none
  multiplexer := none

def sampleRequest (name : String) (type : ProxyType) (port : Int) (group : Option String) :
    Request :=
  .newProxy sampleSurroundings (sampleMessage name type port group) "r" 1

/-- Two clients in one group, of which one closes its member and the other disconnects. -/
theorem tcp_group_lifecycle_sample :
    Run.Along (step sampleConfig) (GroupSafe sampleConfig) new
      [sampleRequest "a" .tcp 6000 (some "g"),
        .newProxy sampleSurroundings (sampleMessage "b" .tcp 6000 (some "g")) "q" 2,
        .closeProxy "r" "a", .disconnect 0 "q" 2] ∧
    (Run.run (step sampleConfig) new
      [sampleRequest "a" .tcp 6000 (some "g"),
        .newProxy sampleSurroundings (sampleMessage "b" .tcp 6000 (some "g")) "q" 2,
        .closeProxy "r" "a", .disconnect 0 "q" 2]).GroupsExact := by
  have hsafe : Run.Along (step sampleConfig) (GroupSafe sampleConfig) new
      [sampleRequest "a" .tcp 6000 (some "g"),
        .newProxy sampleSurroundings (sampleMessage "b" .tcp 6000 (some "g")) "q" 2,
        .closeProxy "r" "a", .disconnect 0 "q" 2] := by
    decide +kernel
  exact ⟨hsafe, (tcp_group_lifecycle hsafe).1⟩

/-- A client with both members of a group disconnects: the registry still counts two of
them for each, and the entry stays. -/
theorem disconnect_leaves_group :
    ¬ (Run.run (step sampleConfig) new
      [sampleRequest "a" .tcp 6000 (some "g"), sampleRequest "b" .tcp 6000 (some "g"),
        .disconnect 0 "r" 1]).GroupsExact := by
  intro h
  obtain ⟨n, info, hget, _⟩ := (h "g").mp (by decide +kernel)
  cases hget

end AppState
end Server
end FrpRs
