import FrpRs.Server.PortOwnership
import Mathlib.Data.Finset.Basic

/-!
# Rejected messages

A message that is refused is undone by name or by port.  This module says when the tables
are afterwards what they were before.

The reservations of ports are not among these tables: the allocator drops them when they
have expired, whatever becomes of the message.
-/

namespace FrpRs
namespace Server
namespace AppState

/-!
## What holds in every state
-/

/-- The registry's indexes are sound and port zero is never reserved. -/
structure Sound (s : AppState) : Prop where
  indexed : s.pm.Indexed
  filled : s.pm.Filled
  reserved : s.ReservesPorts

theorem sound_new : new.Sound where
  indexed := ProxyManager.indexed_new
  filled g h := by cases h
  reserved n r h := by cases h

theorem sound_of_ports {s s' : AppState} (h : s'.ports = s.ports) (hs : s.Sound) : s'.Sound := by
  have hpm : s'.pm = s.pm := pm_of_ports h
  refine ⟨?_, ?_, reservesPorts_of_ports h hs.reserved⟩
  · rw [hpm]
    exact hs.indexed
  · rw [hpm]
    exact hs.filled

variable {s : AppState}

theorem Sound.removeEntry (hs : s.Sound) (name : String) :
    (s.removeEntry name).Sound :=
  ⟨hs.indexed.remove name, hs.filled.remove name, hs.reserved⟩

theorem Allocates.sound {s s' : AppState} (h : s.Allocates s') (hs : s.Sound) : s'.Sound := by
  refine ⟨?_, ?_, ?_⟩
  · rw [h.pm_eq]
    exact hs.indexed
  · rw [h.pm_eq]
    exact hs.filled
  · intro n r hr
    exact hs.reserved n r (h.reservations n r hr)

theorem Sound.dropReservation (hs : s.Sound) (name : String) :
    (s.dropReservation name).Sound := by
  refine ⟨hs.indexed, hs.filled, ?_⟩
  intro n r hr
  rw [AppState.dropReservation, Table.lookup_erase_eq] at hr
  split at hr
  · cases hr
  · exact hs.reserved n r hr

theorem Sound.rollbackTcp (hs : s.Sound) (runId : String) (port : UInt16) (name : String) :
    (s.rollbackTcpBindFailure runId port name).Sound :=
  sound_of_ports (ports_rollbackTcpBindFailure s runId port name)
    ⟨hs.indexed.remove name, hs.filled.remove name, hs.reserved⟩

theorem Sound.rollbackUdp (hs : s.Sound) (runId : String) (port : UInt16) (name : String) :
    (s.rollbackUdpBindFailure runId port name).Sound :=
  sound_of_ports (ports_rollbackUdpBindFailure s runId port name)
    ⟨hs.indexed.remove name, hs.filled.remove name, hs.reserved⟩

theorem sound_registered {info : ProxyInfo} {pm' : ProxyManager} {replaced : Option ProxyInfo}
    (hs : s.Sound) (hreg : s.pm.Registered info pm' replaced) (now : Nat) (port : UInt16) :
    ({ s with pm := pm' }.freeReplaced now port replaced).Sound := by
  refine ⟨?_, ?_, ?_⟩
  · rw [freeReplaced_pm]
    exact hreg.indexed hs.indexed
  · rw [freeReplaced_pm]
    exact hreg.filled hs.filled
  · apply reservesPorts_freeReplaced
    exact hs.reserved

section NewProxy

variable {cfg : ServerConfig} {env : Surroundings} {np : NewProxy} {runId : String}
variable {controlId : Nat}

theorem sound_registerProxyEntry {s s' : AppState} {port : UInt16} {e : Option String}
    (hs : s.Sound) (hreg : s.registerProxyEntry env np runId controlId port = (s', e)) :
    s'.Sound := by
  rcases s.registerProxyEntry_cases env np runId controlId port with
    ⟨s1, e', heq, _, hports⟩ | ⟨s1, pm', heq, _, hregistered, hports⟩
  · rw [hreg] at heq
    cases heq
    have hpm : s'.pm = s.pm := congrArg PortView.pm hports
    have hreserved : s'.portReservations = s.portReservations :=
      congrArg PortView.portReservations hports
    refine ⟨?_, ?_, ?_⟩
    · rw [hpm]
      exact hs.indexed
    · rw [hpm]
      exact hs.filled
    · unfold ReservesPorts
      rw [hreserved]
      exact hs.reserved
  · rw [hreg] at heq
    cases heq
    exact sound_of_ports hports (sound_registered hs hregistered env.now port)

theorem lookup_registerProxyEntry {s s' : AppState} {port : UInt16} {g : String}
    (hreg : s.registerProxyEntry env np runId controlId port = (s', none))
    (hnone : s.tcpGroups.lookup g = none) : s'.tcpGroups.lookup g = none := by
  obtain ⟨pm', _, _, hports⟩ := registerProxyEntry_entered hreg
  cases hlookup : s'.tcpGroups.lookup g with
  | none => rfl
  | some entry =>
    rw [show s'.tcpGroups = _ from congrArg PortView.tcpGroups hports] at hlookup
    have hsome := lookup_of_lookup_freeReplaced hlookup
    rw [hnone] at hsome
    cases hsome

theorem sound_registerNew {s : AppState} {tcpGroupCreated : Bool} (hs : s.Sound)
    (hfresh : tcpGroupCreated = true -> s.tcpGroups.lookup (np.group.getD "") = none) :
    (s.registerNew cfg env np runId controlId tcpGroupCreated).1.Sound := by
  apply @registerNew_rule cfg env np runId controlId
    (fun _ s' => s'.Sound ∧
      (tcpGroupCreated = true -> s'.tcpGroups.lookup (np.group.getD "") = none))
    (fun _ s' => s'.Sound ∧
      (tcpGroupCreated = true -> s'.tcpGroups.lookup (np.group.getD "") = none))
    (fun s' _ => s'.Sound)
  case noPort =>
    intro s1 e halloc
    have hallocates := allocateProxyPort_allocates halloc
    exact hallocates.sound hs
  case taken =>
    intro s1 s2 port e halloc hreg
    have hallocates := allocateProxyPort_allocates halloc
    exact sound_registerProxyEntry (hallocates.sound hs) hreg
  case entered =>
    intro s1 s2 port halloc hreg
    have hallocates := allocateProxyPort_allocates halloc
    refine ⟨sound_registerProxyEntry (hallocates.sound hs) hreg, ?_⟩
    intro hcreated
    apply lookup_registerProxyEntry hreg
    rw [show s1.tcpGroups = s.tcpGroups from hallocates.tcpGroups_eq]
    exact hfresh hcreated
  case routed =>
    intro s1 s2 port hs1 hroutes
    have hports := registerRoutes_ports hroutes
    refine ⟨sound_of_ports hports hs1.1, ?_⟩
    rw [show s2.tcpGroups = s1.tcpGroups from congrArg PortView.tcpGroups hports]
    exact hs1.2
  case unrouted =>
    intro s1 s2 port reply hs1 hroutes
    obtain ⟨hports, _⟩ := registerRoutes_ports hroutes
    exact sound_of_ports hports (hs1.1.removeEntry np.proxyName)
  case listening =>
    intro _ port s' hs'
    exact hs'.1
  case udpUndone =>
    intro _ port s' _ hs'
    exact hs'.1.rollbackUdp runId port np.proxyName
  case undone =>
    intro _ port s' _ hs'
    exact hs'.1.rollbackTcp runId port np.proxyName
  case again =>
    intro _ hplain port s' attempt s1 r hs' _ halloc _
    have hretry := allocateProxyPort_allocates halloc
    have hundone := hs'.1.rollbackTcp runId port np.proxyName
    have hsound : s1.Sound := hretry.sound (hundone.dropReservation np.proxyName)
    refine ⟨fun _ _ => hsound, ?_⟩
    intro p s2 _ hreg
    refine ⟨sound_registerProxyEntry hsound hreg, ?_⟩
    rw [hplain]
    intro h
    cases h
  case fresh =>
    intro hcreated port s' hs'
    exact hs'.2 hcreated
  case created =>
    intro _ _ port s' hs'
    exact ⟨hs'.1.indexed, hs'.1.filled, hs'.1.reserved⟩

theorem sound_handleNewProxy (hs : s.Sound) :
    (s.handleNewProxy cfg env np runId controlId).1.Sound := by
  unfold handleNewProxy
  split
  · exact hs
  · split
    · rename_i hgroup
      obtain ⟨g, htype, _, hgetD⟩ := isTcpGroup_newProxy hgroup
      cases hquery : s.groupQuery cfg np with
      | found port =>
        have hmarked : (s.markTcp port).Sound := ⟨hs.indexed, hs.filled, hs.reserved⟩
        rcases (s.markTcp port).handleTcpGroupMemberRegistration_cases cfg env runId controlId
          port htype with ⟨s', text, heq, _, hports⟩ | ⟨s', pm', heq, _, hregistered, hports⟩
        · dsimp only
          rw [heq]
          exact sound_of_ports (s := (s.markTcp port).unmarkTcp port) hports
            ⟨hs.indexed, hs.filled, hs.reserved⟩
        · dsimp only
          rw [heq]
          exact sound_of_ports hports (sound_registered hmarked hregistered env.now port)
      | mismatch text => exact hs
      | notFound =>
        apply sound_registerNew hs
        intro _
        rw [hgetD]
        exact (groupQuery_notFound hgetD).mp hquery
    · apply sound_registerNew hs
      intro h
      cases h

end NewProxy

theorem sound_closeProxy (hs : s.Sound) (runId name : String) :
    (s.closeProxy runId name).Sound := by
  by_cases howned : exists p, s.pm.get name = some p ∧ p.runId = runId
  · obtain ⟨p, hget, hrun⟩ := howned
    have hpm := closeProxy_pm hget hrun
    refine ⟨?_, ?_, ?_⟩
    · rw [hpm]
      exact hs.indexed.remove p.name
    · rw [hpm]
      exact hs.filled.remove p.name
    · unfold ReservesPorts
      rw [closeProxy_portReservations hget hrun]
      exact hs.reserved
  · rw [closeProxy_of_other]
    · exact hs
    · intro p hget hrun
      exact howned ⟨p, hget, hrun⟩

theorem sound_cleanup (now : Nat) (hs : s.Sound) (runId : String) (controlId : Nat) :
    (s.cleanup now runId controlId).Sound := by
  refine ⟨indexed_cleanup now hs.indexed runId controlId, ?_,
    reservesPorts_cleanup now hs.reserved runId controlId⟩
  apply @foldl_keeps _ (fun s => s.pm.Filled) (removeSwept controlId)
  · intro s' name hfilled
    exact hfilled.removeIfControlId name controlId
  · rw [unregisterControl_pm]
    exact hs.filled

theorem sound_run (cfg : ServerConfig) (requests : List Request) :
    (Run.run (step cfg) new requests).Sound := by
  apply @Run.run_preserves _ _ _ Sound
  · intro s e hs
    cases e with
    | newProxy env np runId controlId => exact sound_handleNewProxy hs
    | closeProxy runId name => exact sound_closeProxy hs runId name
    | disconnect now runId controlId => exact sound_cleanup now hs runId controlId
  · exact sound_new

/-!
## The tables before and after
-/

/-- The tables of the two states hold the same. -/
structure Unchanged (s s' : AppState) : Prop where
  usedPorts : s'.usedPorts = s.usedPorts
  usedUdpPorts : s'.usedUdpPorts = s.usedUdpPorts
  skIndex : forall n, s'.skIndex.lookup n = s.skIndex.lookup n
  clientPortsUsed : forall r, s'.clientPortsUsed.lookup r = s.clientPortsUsed.lookup r
  proxies : forall n, s'.pm.proxies.lookup n = s.pm.proxies.lookup n
  byClient : forall r, (s'.pm.byClient.lookup r).isSome = (s.pm.byClient.lookup r).isSome ∧
    forall n, s'.pm.row r n = s.pm.row r n
  groups : forall g, s'.pm.groups.lookup g = s.pm.groups.lookup g
  tcpGroups : forall g, s'.tcpGroups.lookup g = s.tcpGroups.lookup g
  vhost : s'.vhost = s.vhost
  httpGroups : forall kind g, (s'.httpGroups.kindGroups kind).lookup g =
    (s.httpGroups.kindGroups kind).lookup g
  tcpmux : s'.tcpmux = s.tcpmux
  tcpmuxGroups : forall g, s'.tcpmuxGroups.lookup g = s.tcpmuxGroups.lookup g

def writesSecretKey (np : NewProxy) : Bool :=
  (np.sk.filter fun sk => np.proxyType.hasSecretKey && sk ≠ "").isSome

/-- An entry has been written and undone again.  The client's row and its count may be there
although they were not before. -/
structure Undone (np : NewProxy) (runId : String) (s s' : AppState) : Prop where
  usedPorts : s'.usedPorts = s.usedPorts
  usedUdpPorts : s'.usedUdpPorts = s.usedUdpPorts
  skIndex : s'.skIndex = s.skIndex
  tcpGroups : s'.tcpGroups = s.tcpGroups
  vhost : s'.vhost = s.vhost
  tcpmux : s'.tcpmux = s.tcpmux
  httpGroups : forall kind g, (s'.httpGroups.kindGroups kind).lookup g =
    (s.httpGroups.kindGroups kind).lookup g
  tcpmuxGroups : forall g, s'.tcpmuxGroups.lookup g = s.tcpmuxGroups.lookup g
  pm : ProxyManager.Restored runId s.pm s'.pm
  row : (s'.pm.byClient.lookup runId).isSome = true
  counts : forall r, np.proxyType.consumesPort = false ∨ r ≠ runId ->
    s'.clientPortsUsed.lookup r = s.clientPortsUsed.lookup r
  count : np.proxyType.consumesPort = true ->
    s'.clientPortsUsed.lookup runId = some (s.portsUsed runId)

theorem Undone.unchanged_iff {np : NewProxy} {runId : String} {s s' : AppState}
    (h : Undone np runId s s') (hfilled : s.pm.Filled) (hfilled' : s'.pm.Filled) :
    s.Unchanged s' ↔ (s.pm.byClient.lookup runId).isSome = true ∧
      (np.proxyType.consumesPort = true ->
        (s.clientPortsUsed.lookup runId).isSome = true) := by
  constructor
  · intro hsame
    refine ⟨?_, ?_⟩
    · rw [← (hsame.byClient runId).1]
      exact h.row
    · intro hconsumes
      rw [← hsame.clientPortsUsed runId, h.count hconsumes]
      rfl
  · rintro ⟨hrow, hcount⟩
    refine ⟨h.usedPorts, h.usedUdpPorts, fun n => by rw [h.skIndex], ?_, h.pm.get_eq, ?_,
      h.pm.groups_eq hfilled hfilled', fun g => by rw [h.tcpGroups], h.vhost, h.httpGroups,
      h.tcpmux, h.tcpmuxGroups⟩
    · intro r
      by_cases hr : r = runId
      · subst hr
        cases hconsumes : np.proxyType.consumesPort with
        | false => exact h.counts r (.inl hconsumes)
        | true =>
          obtain ⟨c, hc⟩ := Option.isSome_iff_exists.mp (hcount hconsumes)
          rw [h.count hconsumes, portsUsed, hc, Option.getD_some]
      · exact h.counts r (.inr hr)
    · intro r
      refine ⟨?_, h.pm.row_eq r⟩
      by_cases hr : r = runId
      · rw [hr, h.row, hrow]
      · exact h.pm.clients r hr

/-- The tables of a message that has left no entry so far. -/
structure Back (np : NewProxy) (runId : String) (s s' : AppState) : Prop where
  usedPorts : s'.usedPorts = s.usedPorts
  usedUdpPorts : s'.usedUdpPorts = s.usedUdpPorts
  skIndex : s'.skIndex = s.skIndex
  tcpGroups : s'.tcpGroups = s.tcpGroups
  vhost : s'.vhost = s.vhost
  tcpmux : s'.tcpmux = s.tcpmux
  httpGroups : s'.httpGroups = s.httpGroups
  tcpmuxGroups : s'.tcpmuxGroups = s.tcpmuxGroups
  pm : ProxyManager.Restored runId s.pm s'.pm
  counts : forall r, np.proxyType.consumesPort = false ∨ r ≠ runId ->
    s'.clientPortsUsed.lookup r = s.clientPortsUsed.lookup r
  used : s'.portsUsed runId = s.portsUsed runId

theorem Back.refl (np : NewProxy) (runId : String) (s : AppState) : Back np runId s s where
  usedPorts := rfl
  usedUdpPorts := rfl
  skIndex := rfl
  tcpGroups := rfl
  vhost := rfl
  tcpmux := rfl
  httpGroups := rfl
  tcpmuxGroups := rfl
  pm := ProxyManager.Restored.refl s.pm
  counts _ _ := rfl
  used := rfl

theorem Back.undone {np : NewProxy} {runId : String} {s s' : AppState} (h : Back np runId s s')
    (hrow : (s'.pm.byClient.lookup runId).isSome = true)
    (hcount : np.proxyType.consumesPort = true ->
      (s'.clientPortsUsed.lookup runId).isSome = true) : Undone np runId s s' where
  usedPorts := h.usedPorts
  usedUdpPorts := h.usedUdpPorts
  skIndex := h.skIndex
  tcpGroups := h.tcpGroups
  vhost := h.vhost
  tcpmux := h.tcpmux
  httpGroups kind g := by rw [h.httpGroups]
  tcpmuxGroups g := by rw [h.tcpmuxGroups]
  pm := h.pm
  row := hrow
  counts := h.counts
  count hconsumes := by
    obtain ⟨c, hc⟩ := Option.isSome_iff_exists.mp (hcount hconsumes)
    rw [hc, ← h.used, portsUsed, hc, Option.getD_some]

/-- The entry of a message under a name that was free. -/
structure Added (np : NewProxy) (runId : String) (controlId : Nat) (s : AppState)
    (port : UInt16) (s' : AppState) : Prop where
  pm : exists pm0, ProxyManager.Restored runId s.pm pm0 ∧ pm0.Indexed ∧
    s'.pm = pm0.entered (np.proxyInfo runId controlId port)
  usedPorts : forall p, p ∈ s'.usedPorts ↔ (np.proxyType = .tcp ∧ p = port) ∨ p ∈ s.usedPorts
  usedUdpPorts : forall p, p ∈ s'.usedUdpPorts ↔
    (np.proxyType.isUdp = true ∧ p = port) ∨ p ∈ s.usedUdpPorts
  tcpFree : np.proxyType = .tcp -> port ∉ s.usedPorts
  udpFree : np.proxyType = .udp -> port ∉ s.usedUdpPorts
  skIndex : s'.skIndex = s.skIndex
  tcpGroups : s'.tcpGroups = s.tcpGroups
  vhost : s'.vhost = s.vhost
  tcpmux : s'.tcpmux = s.tcpmux
  httpGroups : s'.httpGroups = s.httpGroups
  tcpmuxGroups : s'.tcpmuxGroups = s.tcpmuxGroups
  counts : forall r, np.proxyType.consumesPort = false ∨ r ≠ runId ->
    s'.clientPortsUsed.lookup r = s.clientPortsUsed.lookup r
  count : np.proxyType.consumesPort = true ->
    s'.clientPortsUsed.lookup runId = some (s.portsUsed runId + 1)

end AppState

/-!
## Routes that are refused
-/

namespace HttpGroups

theorem only_member_leaves {c : HttpGroups} (kind : Scheme) {group name : String}
    {entry : HttpGroup} (hfree : (c.kindGroups kind).lookup group = none)
    (hmembers : entry.members = [name]) (k : Scheme) (g : String) :
    (((c.setKind kind ((c.kindGroups kind).insert group entry)).unregisterMember kind group
      name).1.kindGroups k).lookup g = (c.kindGroups k).lookup g := by
  have hkind : (c.setKind kind ((c.kindGroups kind).insert group entry)).kindGroups kind =
      (c.kindGroups kind).insert group entry := by
    cases kind with
    | http => rfl
    | https => rfl
  unfold unregisterMember
  rw [hkind, AList.lookup_insert]
  simp only [hmembers, List.filter_cons, ne_eq, not_true_eq_false, decide_false,
    Bool.false_eq_true, if_false, List.filter_nil, List.isEmpty_nil, if_true]
  rw [lookup_setKind, lookup_setKind, Table.lookup_erase_insert hfree]
  split
  · rename_i hk
    rw [hk]
  · rfl

theorem registerMember_undone {c groups : HttpGroups}
    {group groupKey domain location user name : String}
    (h : c.registerMember group groupKey domain location user name = .ok (groups, true))
    (kind : Scheme) (g : String) :
    ((groups.unregisterMember .http group name).1.kindGroups kind).lookup g =
      (c.kindGroups kind).lookup g := by
  unfold registerMember at h
  cases hlookup : c.http.lookup group with
  | some entry =>
    rw [hlookup] at h
    dsimp only at h
    split at h
    · cases h
    · split at h
      · cases h
      · split at h
        · cases h
        · cases h
  | none =>
    rw [hlookup] at h
    cases h
    exact only_member_leaves .http hlookup rfl kind g

theorem registerHttpsMember_undone {c groups : HttpGroups}
    {group groupKey domain name : String}
    (h : c.registerHttpsMember group groupKey domain name = .ok (groups, true))
    (kind : Scheme) (g : String) :
    ((groups.unregisterMember .https group name).1.kindGroups kind).lookup g =
      (c.kindGroups kind).lookup g := by
  unfold registerHttpsMember at h
  cases hlookup : c.https.lookup group with
  | some entry =>
    rw [hlookup] at h
    dsimp only at h
    split at h
    · cases h
    · split at h
      · cases h
      · cases h
  | none =>
    rw [hlookup] at h
    cases h
    exact only_member_leaves .https hlookup rfl kind g

end HttpGroups

theorem TcpMuxGroup.registerMember_undone {groups groups' : Table String TcpMuxGroup}
    {group groupKey domain user httpUser httpPwd name : String}
    (h : registerMember groups group groupKey domain user httpUser httpPwd name =
      .ok (groups', true)) (g : String) :
    (unregisterMember groups' group name).1.lookup g = groups.lookup g := by
  unfold registerMember at h
  cases hlookup : groups.lookup group with
  | some entry =>
    rw [hlookup] at h
    dsimp only at h
    split at h
    · cases h
    · split at h
      · cases h
      · split at h
        · cases h
        · cases h
  | none =>
    rw [hlookup] at h
    cases h
    unfold unregisterMember
    rw [AList.lookup_insert]
    simp only [List.filter_cons, ne_eq, not_true_eq_false, decide_false, Bool.false_eq_true,
      if_false, List.filter_nil, List.isEmpty_nil, if_true]
    exact Table.lookup_erase_insert hlookup _ g

namespace AppState

/-- The entry of a proxy that is refused for its routes is gone, and the groups of routes are
what they were. -/
structure RoutesRefused (np : NewProxy) (s s' : AppState) : Prop where
  frame : s' = { s with
    pm := (s.pm.remove np.proxyName).1
    httpGroups := s'.httpGroups
    tcpmuxGroups := s'.tcpmuxGroups }
  httpGroups : forall kind g, (s'.httpGroups.kindGroups kind).lookup g =
    (s.httpGroups.kindGroups kind).lookup g
  tcpmuxGroups : forall g, s'.tcpmuxGroups.lookup g = s.tcpmuxGroups.lookup g

section Routes

variable {cfg : ServerConfig} {env : Surroundings} {np : NewProxy} {runId : String}
variable {s s' : AppState} {port : UInt16} {reply : Reply}

theorem rejectRoutes_refused {text : String}
    (h : s.rejectRoutes np runId port text = (s', some reply)) : RoutesRefused np s s' := by
  cases h
  exact ⟨rfl, fun _ _ => rfl, fun _ => rfl⟩

theorem registerOwnRoute_refused {route : VhostRoute} {domains : List String}
    (h : s.registerOwnRoute cfg np runId port route domains = (s', some reply)) :
    RoutesRefused np s s' := by
  unfold registerOwnRoute at h
  split at h
  · cases h
  · exact rejectRoutes_refused h

theorem registerSharedRoute_refused {scheme : Scheme} {group : String} {route : VhostRoute}
    {domains : List String} {joined : Except String (HttpGroups × Bool)}
    (hundone : forall groups, joined = .ok (groups, true) -> forall kind g,
      ((groups.unregisterMember scheme group np.proxyName).1.kindGroups kind).lookup g =
        (s.httpGroups.kindGroups kind).lookup g)
    (h : s.registerSharedRoute cfg np runId port scheme group route domains joined =
      (s', some reply)) : RoutesRefused np s s' := by
  unfold registerSharedRoute at h
  split at h
  · exact rejectRoutes_refused h
  · cases h
  · rename_i groups
    dsimp only at h
    split at h
    · cases h
    · cases h
      exact ⟨rfl, hundone groups rfl, fun _ => rfl⟩

theorem registerHttpVhost_refused
    (h : s.registerHttpVhost cfg np runId port = (s', some reply)) : RoutesRefused np s s' := by
  unfold registerHttpVhost at h
  split at h
  · exact rejectRoutes_refused h
  · dsimp only at h
    split at h
    · exact registerOwnRoute_refused h
    · split at h
      · cases h
        exact ⟨rfl, fun _ _ => rfl, fun _ => rfl⟩
      · exact registerSharedRoute_refused
          (fun groups hjoined => HttpGroups.registerMember_undone hjoined) h

theorem registerHttpsVhost_refused
    (h : s.registerHttpsVhost cfg np runId port = (s', some reply)) :
    RoutesRefused np s s' := by
  unfold registerHttpsVhost at h
  split at h
  · exact rejectRoutes_refused h
  · split at h
    · exact registerOwnRoute_refused h
    · dsimp only at h
      split at h
      · exact rejectRoutes_refused h
      · exact registerSharedRoute_refused
          (fun groups hjoined => HttpGroups.registerHttpsMember_undone hjoined) h

theorem registerTcpMuxProxy_refused
    (h : s.registerTcpMuxProxy cfg np runId port = (s', some reply)) :
    RoutesRefused np s s' := by
  unfold registerTcpMuxProxy at h
  split at h
  · exact rejectRoutes_refused h
  · split at h
    · unfold registerTcpMuxRoute at h
      split at h
      · cases h
      · exact rejectRoutes_refused h
    · split at h
      · exact rejectRoutes_refused h
      · split at h
        · exact rejectRoutes_refused h
        · cases h
        · rename_i groups hjoined
          split at h
          · cases h
          · cases h
            exact ⟨rfl, fun _ _ => rfl, TcpMuxGroup.registerMember_undone hjoined⟩

theorem registerRoutes_refused (h : s.registerRoutes cfg env np runId port = (s', some reply)) :
    RoutesRefused np s s' ∧ np.proxyType.consumesPort = false ∧
      np.proxyType.hasSecretKey = false := by
  unfold registerRoutes at h
  split at h
  · rename_i htype
    rw [htype]
    split at h
    · exact ⟨rejectRoutes_refused h, rfl, rfl⟩
    · cases h
  · rename_i htype
    rw [htype]
    exact ⟨registerHttpVhost_refused h, rfl, rfl⟩
  · rename_i htype
    rw [htype]
    exact ⟨registerHttpsVhost_refused h, rfl, rfl⟩
  · rename_i htype
    rw [htype]
    exact ⟨registerTcpMuxProxy_refused h, rfl, rfl⟩
  · cases h

end Routes

/-!
## An entry that is undone
-/

section NewProxy

variable {cfg : ServerConfig} {env : Surroundings} {np : NewProxy} {runId : String}
variable {controlId : Nat}
variable {s : AppState}

theorem registerSkIndex_of_none (h : np.proxyType.hasSecretKey = false) :
    s.registerSkIndex np = (s, false) := by
  unfold registerSkIndex
  cases np.sk with
  | none => rfl
  | some sk => simp [Option.filter, h]

variable {port : UInt16}

theorem registerProxyEntry_free (hfree : s.pm.get np.proxyName = none)
    (hkey : np.proxyType.hasSecretKey = false) :
    s.registerProxyEntry env np runId controlId port =
      (if np.proxyType.consumesPort && 0 < port then
        ({ s with pm := s.pm.entered (np.proxyInfo runId controlId port) } :
          AppState).countClientPort runId
      else { s with pm := s.pm.entered (np.proxyInfo runId controlId port) }, none) := by
  have hinfo : s.registerInfo (np.proxyInfo runId controlId port) =
      .ok (s.pm.entered (np.proxyInfo runId controlId port), none) := by
    unfold registerInfo
    split
    · exact ProxyManager.registerOrReplace_free hfree
    · rw [@ProxyManager.register_free s.pm (np.proxyInfo runId controlId port) hfree]
      rfl
  unfold registerProxyEntry
  rw [registerSkIndex_of_none hkey]
  dsimp only
  rw [hinfo]
  rfl

theorem added_registerProxyEntry {s s0 s1 s2 : AppState} {attempt : Nat}
    {remotePort port : UInt16} (hback : Back np runId s s0) (hindexed : s0.pm.Indexed)
    (hreserved : s0.ReservesPorts) (hfree : s.pm.get np.proxyName = none)
    (hkey : np.proxyType.hasSecretKey = false)
    (halloc : s0.allocateProxyPort cfg env attempt np.proxyName np.proxyType remotePort =
      (s1, .ok port))
    (hreg : s1.registerProxyEntry env np runId controlId port = (s2, none))
    (hallowed : np.proxyType.consumesPort = true ->
      requestedPort cfg np.proxyType remotePort = 0 ->
      0 ∉ env.allowPorts.flatMap PortsRange.iter) :
    Added np runId controlId s port s2 := by
  have hspec := allocateProxyPort_allocatesPort halloc
  have hpm : s1.pm = s0.pm := hspec.allocates.pm_eq
  have hcounts : s1.clientPortsUsed = s0.clientPortsUsed := hspec.allocates.clientPortsUsed_eq
  have hfree1 : s1.pm.get np.proxyName = none := by
    rw [hpm, hback.pm.get_eq, hfree]
  rw [registerProxyEntry_free hfree1 hkey] at hreg
  have hentered : s2 = { s1 with
      pm := s1.pm.entered (np.proxyInfo runId controlId port)
      clientPortsUsed := s2.clientPortsUsed } := by
    have hs2 := (Prod.mk.inj hreg).1
    rw [← hs2]
    split
    · rfl
    · rfl
  refine ⟨⟨s0.pm, hback.pm, hindexed, ?_⟩, ?_, ?_, ?_, ?_, ?_, ?_, ?_, ?_, ?_, ?_, ?_, ?_⟩
  · rw [hentered, hpm]
  · intro p
    rw [hentered, ← hback.usedPorts]
    exact hspec.tcp_marks port rfl p
  · intro p
    rw [hentered, ← hback.usedUdpPorts]
    exact hspec.udp_marks port rfl p
  · rw [← hback.usedPorts]
    exact hspec.tcp_free port rfl
  · rw [← hback.usedUdpPorts]
    exact hspec.udp_free port rfl
  · rw [hentered, ← hback.skIndex]
    exact hspec.allocates.skIndex_eq
  · rw [hentered, ← hback.tcpGroups]
    exact hspec.allocates.tcpGroups_eq
  · rw [hentered, ← hback.vhost]
    exact hspec.allocates.vhost_eq
  · rw [hentered, ← hback.tcpmux]
    exact hspec.allocates.tcpmux_eq
  · rw [hentered, ← hback.httpGroups]
    exact hspec.allocates.httpGroups_eq
  · rw [hentered, ← hback.tcpmuxGroups]
    exact hspec.allocates.tcpmuxGroups_eq
  · intro r hr
    rw [← hback.counts r hr, ← hcounts, ← (Prod.mk.inj hreg).1]
    split
    · rename_i hconsumes
      have hne : r ≠ runId := by
        rcases hr with hnot | hne
        · rw [hnot] at hconsumes
          cases hconsumes
        · exact hne
      show (AList.insert runId _ s1.clientPortsUsed).lookup r = _
      rw [Table.lookup_insert_eq, if_neg hne]
    · rfl
  · intro hconsumes
    have hzero := hspec.nonzero port rfl hconsumes (hallowed hconsumes) hreserved
    rw [← (Prod.mk.inj hreg).1, hconsumes, Bool.true_and,
      if_pos (decide_eq_true (UInt16.pos_iff_ne_zero.mpr hzero))]
    show (AList.insert runId _ s1.clientPortsUsed).lookup runId = _
    rw [Table.lookup_insert_eq, if_pos rfl, ← hback.used]
    show some ((s1.clientPortsUsed.lookup runId).getD 0 + 1) = _
    rw [hcounts]
    rfl

theorem Added.restored {s s' : AppState} (h : Added np runId controlId s port s')
    (hfree : s.pm.get np.proxyName = none) :
    ProxyManager.Restored runId s.pm (s'.pm.remove np.proxyName).1 ∧
      ((s'.pm.remove np.proxyName).1.byClient.lookup runId).isSome = true := by
  obtain ⟨pm0, hrestored, hindexed, hpm⟩ := h.pm
  have hfree0 : pm0.get np.proxyName = none := by
    rw [hrestored.get_eq, hfree]
  obtain ⟨hundone, hrow⟩ := @ProxyManager.restored_entered_removed pm0
    (np.proxyInfo runId controlId port) hindexed hfree0
  rw [hpm]
  exact ⟨hrestored.trans hundone, hrow⟩

theorem rollbackClientPort_of_some {c : Nat} (h : s.clientPortsUsed.lookup runId = some c) :
    s.rollbackClientPort runId =
      { s with clientPortsUsed := s.clientPortsUsed.insert runId (c - 1) } := by
  unfold rollbackClientPort
  rw [h]

theorem erase_added {used used' : Finset UInt16} {P : Prop}
    (h : forall p, p ∈ used' ↔ (P ∧ p = port) ∨ p ∈ used) (hfree : port ∉ used) :
    used'.erase port = used := by
  ext p
  rw [Finset.mem_erase, h]
  constructor
  · rintro ⟨hne, ⟨_, heq⟩ | hp⟩
    · exact absurd heq hne
    · exact hp
  · intro hp
    refine ⟨?_, .inr hp⟩
    rintro rfl
    exact hfree hp

theorem kept_added {used used' : Finset UInt16} {P : Prop}
    (h : forall p, p ∈ used' ↔ (P ∧ p = port) ∨ p ∈ used) (hnot : ¬ P) : used' = used := by
  ext p
  rw [h]
  simp [hnot]

/-- A rollback that takes the marks, the count and the entry of a proxy with a port. -/
theorem Added.back {s s' s'' : AppState}
    (h : Added np runId controlId s port s') (hfree : s.pm.get np.proxyName = none)
    (hconsumes : np.proxyType.consumesPort = true)
    (heq : s'' = { s'.rollbackClientPort runId with
      usedPorts := s''.usedPorts
      usedUdpPorts := s''.usedUdpPorts
      pm := (s'.pm.remove np.proxyName).1 })
    (hused : s''.usedPorts = s.usedPorts) (hudp : s''.usedUdpPorts = s.usedUdpPorts) :
    Back np runId s s'' ∧ (s''.pm.byClient.lookup runId).isSome = true ∧
      (s''.clientPortsUsed.lookup runId).isSome = true := by
  obtain ⟨hrestored, hrow⟩ := h.restored hfree
  rw [rollbackClientPort_of_some (h.count hconsumes)] at heq
  have hcount : s''.clientPortsUsed =
      s'.clientPortsUsed.insert runId (s.portsUsed runId) := by
    rw [heq]
    rfl
  refine ⟨⟨hused, hudp, ?_, ?_, ?_, ?_, ?_, ?_, ?_, ?_, ?_⟩, ?_, ?_⟩
  · rw [heq]
    exact h.skIndex
  · rw [heq]
    exact h.tcpGroups
  · rw [heq]
    exact h.vhost
  · rw [heq]
    exact h.tcpmux
  · rw [heq]
    exact h.httpGroups
  · rw [heq]
    exact h.tcpmuxGroups
  · rw [heq]
    exact hrestored
  · intro r hr
    rw [hcount, Table.lookup_insert_eq, if_neg]
    · exact h.counts r hr
    · rcases hr with hnot | hne
      · rw [hnot] at hconsumes
        cases hconsumes
      · exact hne
  · rw [portsUsed, hcount, Table.lookup_insert_eq, if_pos rfl, Option.getD_some]
  · rw [heq]
    exact hrow
  · rw [hcount, Table.lookup_insert_eq, if_pos rfl]
    rfl

theorem Added.rollbackTcp {s s' : AppState} (h : Added np runId controlId s port s')
    (hfree : s.pm.get np.proxyName = none) (htype : np.proxyType = .tcp) :
    Back np runId s (s'.rollbackTcpBindFailure runId port np.proxyName) ∧
      ((s'.rollbackTcpBindFailure runId port np.proxyName).pm.byClient.lookup runId).isSome =
        true ∧
      ((s'.rollbackTcpBindFailure runId port np.proxyName).clientPortsUsed.lookup runId).isSome =
        true := by
  have hports := ports_rollbackTcpBindFailure s' runId port np.proxyName
  have hconsumes : np.proxyType.consumesPort = true := by
    rw [htype]
    rfl
  apply h.back hfree hconsumes
  · unfold rollbackTcpBindFailure rollbackClientPort removeEntry unmarkTcp
    cases s'.clientPortsUsed.lookup runId with
    | none => rfl
    | some c => rfl
  · rw [usedPorts_of_ports hports]
    exact erase_added h.usedPorts (h.tcpFree htype)
  · rw [show (s'.rollbackTcpBindFailure runId port np.proxyName).usedUdpPorts = s'.usedUdpPorts
      from congrArg PortView.usedUdpPorts hports]
    apply kept_added h.usedUdpPorts
    rw [htype]
    exact Bool.false_ne_true

theorem Added.rollbackUdp {s s' : AppState} (h : Added np runId controlId s port s')
    (hfree : s.pm.get np.proxyName = none) (htype : np.proxyType = .udp) :
    Back np runId s (s'.rollbackUdpBindFailure runId port np.proxyName) ∧
      ((s'.rollbackUdpBindFailure runId port np.proxyName).pm.byClient.lookup runId).isSome =
        true ∧
      ((s'.rollbackUdpBindFailure runId port np.proxyName).clientPortsUsed.lookup runId).isSome =
        true := by
  have hports := ports_rollbackUdpBindFailure s' runId port np.proxyName
  have hconsumes : np.proxyType.consumesPort = true := by
    rw [htype]
    rfl
  apply h.back hfree hconsumes
  · unfold rollbackUdpBindFailure rollbackClientPort removeEntry unmarkUdp
    cases s'.clientPortsUsed.lookup runId with
    | none => rfl
    | some c => rfl
  · rw [usedPorts_of_ports hports]
    apply kept_added h.usedPorts
    rw [htype]
    intro heq
    cases heq
  · rw [show (s'.rollbackUdpBindFailure runId port np.proxyName).usedUdpPorts =
      s'.usedUdpPorts.erase port from congrArg PortView.usedUdpPorts hports]
    exact erase_added h.usedUdpPorts (h.udpFree htype)

theorem Added.unrouted {s s' s'' : AppState} (h : Added np runId controlId s port s')
    (hfree : s.pm.get np.proxyName = none) (hrefused : RoutesRefused np s' s'')
    (hconsumes : np.proxyType.consumesPort = false) :
    Undone np runId s s'' := by
  obtain ⟨hrestored, hrow⟩ := h.restored hfree
  have htcp : ¬ np.proxyType = .tcp := by
    intro htype
    rw [htype] at hconsumes
    cases hconsumes
  have hudp : ¬ np.proxyType.isUdp = true := by
    intro hkind
    cases htype : np.proxyType with
    | udp =>
      rw [htype] at hconsumes
      cases hconsumes
    | sudp =>
      rw [htype] at hconsumes
      cases hconsumes
    | _ =>
      rw [htype] at hkind
      cases hkind
  have hframe := hrefused.frame
  have hpm : s''.pm = (s'.pm.remove np.proxyName).1 := by rw [hframe]
  refine ⟨?_, ?_, ?_, ?_, ?_, ?_, ?_, ?_, ?_, ?_, ?_, ?_⟩
  · rw [show s''.usedPorts = s'.usedPorts by rw [hframe]]
    exact kept_added h.usedPorts htcp
  · rw [show s''.usedUdpPorts = s'.usedUdpPorts by rw [hframe]]
    exact kept_added h.usedUdpPorts hudp
  · rw [show s''.skIndex = s'.skIndex by rw [hframe]]
    exact h.skIndex
  · rw [show s''.tcpGroups = s'.tcpGroups by rw [hframe]]
    exact h.tcpGroups
  · rw [show s''.vhost = s'.vhost by rw [hframe]]
    exact h.vhost
  · rw [show s''.tcpmux = s'.tcpmux by rw [hframe]]
    exact h.tcpmux
  · intro kind g
    rw [hrefused.httpGroups, h.httpGroups]
  · intro g
    rw [hrefused.tcpmuxGroups, h.tcpmuxGroups]
  · rw [hpm]
    exact hrestored
  · rw [hpm]
    exact hrow
  · intro r hr
    rw [show s''.clientPortsUsed = s'.clientPortsUsed by rw [hframe]]
    exact h.counts r hr
  · intro hnot
    rw [hconsumes] at hnot
    cases hnot

/-- A message under a free name that is refused has its entry undone. -/
theorem undone_registerNew {tcpGroupCreated : Bool} (hs : s.Sound)
    (hfree : s.pm.get np.proxyName = none) (hcreated : tcpGroupCreated = np.isTcpGroup)
    (hport : exists s1 port, s.allocateProxyPort cfg env 0 np.proxyName np.proxyType
      np.declaredPort = (s1, .ok port))
    (hallowed : np.proxyType.consumesPort = true ->
      requestedPort cfg np.proxyType np.declaredPort = 0 ->
      0 ∉ env.allowPorts.flatMap PortsRange.iter)
    (hfresh : tcpGroupCreated = true -> s.tcpGroups.lookup (np.group.getD "") = none) :
    forall text, (s.registerNew cfg env np runId controlId tcpGroupCreated).2 = .rejected text ->
      Undone np runId s (s.registerNew cfg env np runId controlId tcpGroupCreated).1 := by
  obtain ⟨s0, port0, halloc0⟩ := hport
  apply @registerNew_rule cfg env np runId controlId
    (fun port s' => np.proxyType.hasSecretKey = false ->
      Added np runId controlId s port s' ∧ s'.Sound)
    (fun port s' => np.proxyType = .tcp ∨ np.proxyType = .udp ->
      Added np runId controlId s port s' ∧ s'.Sound)
    (fun s' reply => forall text, reply = .rejected text -> Undone np runId s s')
  case noPort =>
    intro s1 e halloc
    rw [halloc0] at halloc
    cases halloc
  case taken =>
    intro s1 s2 port e halloc hreg
    have hallocates := allocateProxyPort_allocates halloc
    obtain ⟨htaken, _⟩ := registerProxyEntry_taken hreg
    rw [nameTaken, show s1.pm = s.pm from hallocates.pm_eq, hfree] at htaken
    cases htaken
  case entered =>
    intro s1 s2 port halloc hreg hkey
    have hallocates := allocateProxyPort_allocates halloc
    exact ⟨added_registerProxyEntry (Back.refl np runId s) hs.indexed hs.reserved hfree hkey halloc
      hreg hallowed, sound_registerProxyEntry (hallocates.sound hs) hreg⟩
  case routed =>
    intro s1 s2 port hentered hroutes htype
    have hsame : s1.registerRoutes cfg env np runId port = (s1, none) := by
      unfold registerRoutes
      rcases htype with htype | htype
      · rw [htype]
      · rw [htype]
    rw [hsame] at hroutes
    cases hroutes
    apply hentered
    rcases htype with htype | htype
    · rw [htype]
      rfl
    · rw [htype]
      rfl
  case unrouted =>
    intro s1 s2 port reply hentered hroutes text _
    obtain ⟨hrefused, hconsumes, hkey⟩ := registerRoutes_refused hroutes
    exact (hentered hkey).1.unrouted hfree hrefused hconsumes
  case listening =>
    intro _ port s' _ text h
    cases h
  case udpUndone =>
    intro htype port s' _ hrouted text _
    obtain ⟨hback, hrow, hcount⟩ := (hrouted (.inr htype)).1.rollbackUdp hfree htype
    exact hback.undone hrow fun _ => hcount
  case undone =>
    intro htype port s' _ hrouted text _
    obtain ⟨hback, hrow, hcount⟩ := (hrouted (.inl htype)).1.rollbackTcp hfree htype
    exact hback.undone hrow fun _ => hcount
  case again =>
    intro htype hplain port s' attempt s1 r hrouted hzero halloc hgone
    obtain ⟨hadded, hsound⟩ := hrouted (.inl htype)
    obtain ⟨hback, hrow, hcount⟩ := hadded.rollbackTcp hfree htype
    have hundone := (hsound.rollbackTcp runId port np.proxyName).dropReservation np.proxyName
    have hdropped : Back np runId s
        ((s'.rollbackTcpBindFailure runId port np.proxyName).dropReservation np.proxyName) :=
      ⟨hback.usedPorts, hback.usedUdpPorts, hback.skIndex, hback.tcpGroups, hback.vhost,
        hback.tcpmux, hback.httpGroups, hback.tcpmuxGroups, hback.pm, hback.counts, hback.used⟩
    have hretry := allocateProxyPort_allocatesPort halloc
    have hallocated := hretry.allocates
    refine ⟨?_, ?_⟩
    · intro e he text _
      have hagain : Back np runId s s1 := by
        refine ⟨?_, ?_, ?_, ?_, ?_, ?_, ?_, ?_, ?_, ?_, ?_⟩
        · exact (hretry.refused e he).1.trans hdropped.usedPorts
        · exact (hretry.refused e he).2.trans hdropped.usedUdpPorts
        · exact hallocated.skIndex_eq.trans hdropped.skIndex
        · exact hallocated.tcpGroups_eq.trans hdropped.tcpGroups
        · exact hallocated.vhost_eq.trans hdropped.vhost
        · exact hallocated.tcpmux_eq.trans hdropped.tcpmux
        · exact hallocated.httpGroups_eq.trans hdropped.httpGroups
        · exact hallocated.tcpmuxGroups_eq.trans hdropped.tcpmuxGroups
        · rw [show s1.pm = _ from hallocated.pm_eq]
          exact hdropped.pm
        · rw [show s1.clientPortsUsed = _ from hallocated.clientPortsUsed_eq]
          exact hdropped.counts
        · rw [portsUsed, show s1.clientPortsUsed = _ from hallocated.clientPortsUsed_eq]
          exact hdropped.used
      apply hagain.undone
      · rw [show s1.pm = _ from hallocated.pm_eq]
        exact hrow
      · intro _
        rw [show s1.clientPortsUsed = _ from hallocated.clientPortsUsed_eq]
        exact hcount
    · intro p s2 hp hreg _
      subst hp
      have hsound1 : s1.Sound := hallocated.sound hundone
      rw [← htype] at halloc
      refine ⟨?_, sound_registerProxyEntry hsound1 hreg⟩
      apply added_registerProxyEntry hdropped hundone.indexed hundone.reserved hfree _ halloc hreg
      · intro hconsumes _
        apply hallowed hconsumes
        unfold requestedPort NewProxy.declaredPort
        rw [hzero, htype]
        rfl
      · rw [htype]
        rfl
  case fresh =>
    intro hgroup port s' hrouted
    have htype : np.proxyType = .tcp := by
      rw [hcreated] at hgroup
      obtain ⟨g, htype, _⟩ := isTcpGroup_newProxy hgroup
      exact htype
    rw [(hrouted (.inl htype)).1.tcpGroups]
    exact hfresh hgroup
  case created =>
    intro _ _ port s' _ text h
    cases h

/-- A message that took an entry over and is refused leaves none. -/
theorem gone_registerNew {tcpGroupCreated : Bool}
    (htaken : s.nameTaken np runId controlId = false)
    (hport : exists s1 port, s.allocateProxyPort cfg env 0 np.proxyName np.proxyType
      np.declaredPort = (s1, .ok port))
    (hfresh : tcpGroupCreated = true -> s.tcpGroups.lookup (np.group.getD "") = none) :
    forall text, (s.registerNew cfg env np runId controlId tcpGroupCreated).2 = .rejected text ->
      (s.registerNew cfg env np runId controlId tcpGroupCreated).1.pm.get np.proxyName = none := by
  obtain ⟨s0, port0, halloc0⟩ := hport
  have hremoved : forall pm : ProxyManager, (pm.remove np.proxyName).1.get np.proxyName = none := by
    intro pm
    rw [ProxyManager.get_remove, if_pos rfl]
  apply @registerNew_rule cfg env np runId controlId
    (fun _ s' => tcpGroupCreated = true -> s'.tcpGroups.lookup (np.group.getD "") = none)
    (fun _ s' => tcpGroupCreated = true -> s'.tcpGroups.lookup (np.group.getD "") = none)
    (fun s' reply => forall text, reply = .rejected text -> s'.pm.get np.proxyName = none)
  case noPort =>
    intro s1 e halloc
    rw [halloc0] at halloc
    cases halloc
  case taken =>
    intro s1 s2 port e halloc hreg
    have hallocates := allocateProxyPort_allocates halloc
    obtain ⟨htaken1, _⟩ := registerProxyEntry_taken hreg
    unfold nameTaken takenOver at htaken htaken1
    rw [show s1.pm = s.pm from hallocates.pm_eq, htaken] at htaken1
    cases htaken1
  case entered =>
    intro s1 s2 port halloc hreg hcreated
    have hallocates := allocateProxyPort_allocates halloc
    apply lookup_registerProxyEntry hreg
    rw [show s1.tcpGroups = s.tcpGroups from hallocates.tcpGroups_eq]
    exact hfresh hcreated
  case routed =>
    intro s1 s2 port hentered hroutes
    have hports := registerRoutes_ports hroutes
    rw [show s2.tcpGroups = s1.tcpGroups from congrArg PortView.tcpGroups hports]
    exact hentered
  case unrouted =>
    intro s1 s2 port reply _ hroutes text _
    rw [show s2.pm = _ by rw [(registerRoutes_refused hroutes).1.frame]]
    exact hremoved s1.pm
  case listening =>
    intro _ port s' _ text h
    cases h
  case udpUndone =>
    intro _ port s' _ _ text _
    rw [pm_of_ports (ports_rollbackUdpBindFailure s' runId port np.proxyName)]
    exact hremoved s'.pm
  case undone =>
    intro _ port s' _ _ text _
    rw [pm_of_ports (ports_rollbackTcpBindFailure s' runId port np.proxyName)]
    exact hremoved s'.pm
  case again =>
    intro _ hplain port s' attempt s1 r _ _ _ hgone
    refine ⟨fun _ _ _ _ => hgone, ?_⟩
    intro p s2 _ _ hcreated
    rw [hplain] at hcreated
    cases hcreated
  case fresh =>
    intro hcreated port s' hrouted
    exact hrouted hcreated
  case created =>
    intro _ _ port s' _ text h
    cases h

end NewProxy

/-!
## When a rejection changes nothing
-/

/-- A message that is refused for its name must not come upon a mark or a secret key of
others. -/
def NameRefusalSafe (s : AppState) (np : NewProxy) (port : UInt16) : Prop :=
  (np.proxyType ≠ .tcp -> port ∉ s.usedPorts) ∧
  (np.proxyType.isUdp = true ->
    (port ∈ s.usedUdpPorts ↔ s.udpPortHasOtherOwner port [] = true)) ∧
  (writesSecretKey np = true -> s.skIndex.lookup np.proxyName = none)

instance (s : AppState) (np : NewProxy) (port : UInt16) : Decidable (s.NameRefusalSafe np port) :=
  inferInstanceAs (Decidable ((_ -> _) ∧ (_ -> _) ∧ (_ -> _)))

/-- A message that is refused later must not have taken an entry over, and must find the row
and the count of its client in place. -/
def UndoingSafe (s : AppState) (np : NewProxy) (runId : String) (controlId : Nat) : Prop :=
  (s.takenOver np runId controlId).isNone = true ∧
  (s.pm.byClient.lookup runId).isSome = true ∧
  (np.proxyType.consumesPort = true -> (s.clientPortsUsed.lookup runId).isSome = true)

instance (s : AppState) (np : NewProxy) (runId : String) (controlId : Nat) :
    Decidable (s.UndoingSafe np runId controlId) :=
  inferInstanceAs (Decidable (_ ∧ _ ∧ (_ -> _)))

/-- The condition on a message that is refused after all, in the state before it. -/
def RejectionSafe (cfg : ServerConfig) (env : Surroundings) (s : AppState) (np : NewProxy)
    (runId : String) (controlId : Nat) : Prop :=
  s.notAdmitted cfg env np runId = none ->
    forall port, port ∈ s.resolvedPort cfg env np ->
      if s.nameTaken np runId controlId then
        if np.isTcpGroup ∧ s.groupQuery cfg np ≠ .notFound then port ∉ s.usedPorts
        else s.NameRefusalSafe np port
      else s.UndoingSafe np runId controlId

instance (cfg : ServerConfig) (env : Surroundings) (s : AppState) (np : NewProxy)
    (runId : String) (controlId : Nat) :
    Decidable (RejectionSafe cfg env s np runId controlId) :=
  inferInstanceAs (Decidable (s.notAdmitted cfg env np runId = none -> _))

theorem Unchanged.refl (s : AppState) : s.Unchanged s where
  usedPorts := rfl
  usedUdpPorts := rfl
  skIndex _ := rfl
  clientPortsUsed _ := rfl
  proxies _ := rfl
  byClient _ := ⟨rfl, fun _ => rfl⟩
  groups _ := rfl
  tcpGroups _ := rfl
  vhost := rfl
  httpGroups _ _ := rfl
  tcpmux := rfl
  tcpmuxGroups _ := rfl

section Refused

variable {cfg : ServerConfig} {env : Surroundings} {np : NewProxy} {runId : String}
variable {controlId : Nat}

theorem rollbackPortAllocation_eq (s : AppState) (name : String) (port : UInt16)
    (isUdp needsSkIndex : Bool) :
    s.rollbackPortAllocation name port isUdp needsSkIndex = { s with
      usedPorts := s.usedPorts.erase port
      usedUdpPorts :=
        if isUdp && !s.udpPortHasOtherOwner port [] then s.usedUdpPorts.erase port
        else s.usedUdpPorts
      skIndex := if needsSkIndex then s.skIndex.erase name else s.skIndex } := by
  have howner : ((if needsSkIndex then { s with skIndex := s.skIndex.erase name } else s :
      AppState).unmarkTcp port).udpPortHasOtherOwner port [] =
      s.udpPortHasOtherOwner port [] := by
    cases needsSkIndex with
    | false => rfl
    | true => rfl
  unfold rollbackPortAllocation
  dsimp only
  rw [howner]
  cases isUdp && !s.udpPortHasOtherOwner port [] with
  | false =>
    cases needsSkIndex with
    | false => rfl
    | true => rfl
  | true =>
    cases needsSkIndex with
    | false => rfl
    | true => rfl

variable {port : UInt16}

theorem registerProxyEntry_refused {s s' : AppState} {e : String}
    (h : s.registerProxyEntry env np runId controlId port = (s', some e)) :
    s' = { s with
      usedPorts := s.usedPorts.erase port
      usedUdpPorts :=
        if np.proxyType.isUdp && !s.udpPortHasOtherOwner port [] then s.usedUdpPorts.erase port
        else s.usedUdpPorts
      skIndex := s'.skIndex } ∧
    forall n, s'.skIndex.lookup n =
      if writesSecretKey np = true ∧ n = np.proxyName then none else s.skIndex.lookup n := by
  unfold registerProxyEntry at h
  dsimp only at h
  split at h
  · rw [rollbackPortAllocation_eq] at h
    have hs' := (Prod.mk.inj h).1
    unfold writesSecretKey
    unfold registerSkIndex at hs'
    cases hsk : np.sk.filter fun sk => np.proxyType.hasSecretKey && sk ≠ "" with
    | none =>
      rw [hsk] at hs'
      rw [← hs']
      refine ⟨rfl, fun n => (if_neg ?_).symm⟩
      rintro ⟨hwrites, _⟩
      cases hwrites
    | some sk =>
      rw [hsk] at hs'
      rw [← hs']
      refine ⟨rfl, fun n => ?_⟩
      show ((s.skIndex.insert np.proxyName sk).erase np.proxyName).lookup n = _
      rw [Table.lookup_erase_eq, Table.lookup_insert_eq]
      by_cases hn : n = np.proxyName
      · rw [if_pos hn, if_pos ⟨rfl, hn⟩]
      · rw [if_neg hn, if_neg hn, if_neg fun h => hn h.2]
  · cases h

/-- A message that is refused for its name takes a mark of its port and the secret key of its
name away, whose ever they are. -/
theorem unchanged_iff_of_taken {s s1 s2 : AppState} {e : String}
    (halloc : s.allocateProxyPort cfg env 0 np.proxyName np.proxyType np.declaredPort =
      (s1, .ok port))
    (hreg : s1.registerProxyEntry env np runId controlId port = (s2, some e)) :
    s.Unchanged s2 ↔ s.NameRefusalSafe np port := by
  have hspec := allocateProxyPort_allocatesPort halloc
  obtain ⟨hframe, hkeys⟩ := registerProxyEntry_refused hreg
  have hallocates := hspec.allocates
  have hpm : s1.pm = s.pm := hallocates.pm_eq
  have hsk : s1.skIndex = s.skIndex := hallocates.skIndex_eq
  have howner : s1.udpPortHasOtherOwner port [] = s.udpPortHasOtherOwner port [] := by
    unfold udpPortHasOtherOwner
    rw [hpm]
  have htcp : forall p, p ∈ s2.usedPorts ↔ p ≠ port ∧ p ∈ s.usedPorts := by
    intro p
    rw [hframe, Finset.mem_erase, hspec.tcp_marks port rfl]
    constructor
    · rintro ⟨hne, ⟨_, heq⟩ | hp⟩
      · exact absurd heq hne
      · exact ⟨hne, hp⟩
    · rintro ⟨hne, hp⟩
      exact ⟨hne, .inr hp⟩
  have hudp : forall p, p ∈ s2.usedUdpPorts ↔
      if np.proxyType.isUdp = true ∧ p = port then s.udpPortHasOtherOwner port [] = true
      else p ∈ s.usedUdpPorts := by
    intro p
    rw [hframe]
    rw [howner]
    have hmarks := hspec.udp_marks port rfl p
    cases hkind : np.proxyType.isUdp with
    | false =>
      rw [hkind] at hmarks
      simpa using hmarks
    | true =>
      rw [hkind] at hmarks
      cases hother : s.udpPortHasOtherOwner port [] with
      | false =>
        by_cases hp : p = port
        · simp [hp]
        · simpa [hp] using hmarks
      | true =>
        by_cases hp : p = port
        · simpa [hp] using hmarks
        · simpa [hp] using hmarks
  have hfree : (np.proxyType ≠ .tcp -> port ∉ s.usedPorts) -> port ∉ s.usedPorts := by
    intro h
    by_cases htype : np.proxyType = .tcp
    · exact hspec.tcp_free port rfl htype
    · exact h htype
  constructor
  · intro hsame
    refine ⟨?_, ?_, ?_⟩
    · intro _ hport
      rw [← hsame.usedPorts] at hport
      exact ((htcp port).mp hport).1 rfl
    · intro hkind
      rw [← hsame.usedUdpPorts, hudp port, if_pos ⟨hkind, rfl⟩]
    · intro hwrites
      rw [← hsame.skIndex, hkeys, if_pos ⟨hwrites, rfl⟩]
  · rintro ⟨hport, howned, hkey⟩
    refine ⟨?_, ?_, ?_, ?_, ?_, ?_, ?_, ?_, ?_, ?_, ?_, ?_⟩
    · ext p
      rw [htcp]
      constructor
      · exact And.right
      · intro hp
        refine ⟨?_, hp⟩
        rintro rfl
        exact hfree hport hp
    · ext p
      rw [hudp]
      split
      · rename_i hp
        rw [hp.2]
        exact (howned hp.1).symm
      · rfl
    · intro n
      rw [hkeys, hsk]
      split
      · rename_i hn
        rw [hn.2]
        exact (hkey hn.1).symm
      · rfl
    · intro r
      rw [hframe, ← hallocates.clientPortsUsed_eq]
    · intro n
      rw [hframe, ← hpm]
    · intro r
      rw [hframe, ← hpm]
      exact ⟨rfl, fun _ => rfl⟩
    · intro g
      rw [hframe, ← hpm]
    · intro g
      rw [hframe, ← hallocates.tcpGroups_eq]
    · rw [hframe, ← hallocates.vhost_eq]
    · intro kind g
      rw [hframe, ← hallocates.httpGroups_eq]
    · rw [hframe, ← hallocates.tcpmux_eq]
    · intro g
      rw [hframe, ← hallocates.tcpmuxGroups_eq]

theorem Allocates.unchanged {s s' : AppState} (h : s.Allocates s')
    (htcp : s'.usedPorts = s.usedPorts) (hudp : s'.usedUdpPorts = s.usedUdpPorts) :
    s.Unchanged s' := by
  have heq : s' = { s with portReservations := s'.portReservations } := by
    rw [h.frame, htcp, hudp]
  rw [heq]
  exact ⟨rfl, rfl, fun _ => rfl, fun _ => rfl, fun _ => rfl, fun _ => ⟨rfl, fun _ => rfl⟩,
    fun _ => rfl, fun _ => rfl, rfl, fun _ _ => rfl, rfl, fun _ => rfl⟩

variable {s : AppState}

theorem handleTcpGroupMemberRegistration_refused {text : String}
    (h : (s.handleTcpGroupMemberRegistration cfg env np runId controlId port).2 =
      .rejected text) :
    (s.handleTcpGroupMemberRegistration cfg env np runId controlId port).1 =
      s.unmarkTcp port := by
  unfold handleTcpGroupMemberRegistration at h ⊢
  split at h
  · rfl
  · cases h

theorem unchanged_iff_of_unmarked :
    s.Unchanged ((s.markTcp port).unmarkTcp port) ↔ port ∉ s.usedPorts := by
  have hused : ((s.markTcp port).unmarkTcp port).usedPorts = s.usedPorts.erase port :=
    Finset.erase_insert_eq_erase s.usedPorts port
  constructor
  · intro hsame hport
    rw [← hsame.usedPorts, hused] at hport
    exact (Finset.mem_erase.mp hport).1 rfl
  · intro hport
    refine ⟨?_, rfl, fun _ => rfl, fun _ => rfl, fun _ => rfl, fun _ => ⟨rfl, fun _ => rfl⟩,
      fun _ => rfl, fun _ => rfl, rfl, fun _ _ => rfl, rfl, fun _ => rfl⟩
    rw [hused]
    exact Finset.erase_eq_of_notMem hport

/-- The same condition for a message that joins no group. -/
theorem unchanged_iff_registerNew {tcpGroupCreated : Bool} {text : String}
    (hs : s.Sound) (hcreated : tcpGroupCreated = np.isTcpGroup)
    (hfresh : tcpGroupCreated = true -> s.tcpGroups.lookup (np.group.getD "") = none)
    (hallowed : np.proxyType.consumesPort = true ->
      requestedPort cfg np.proxyType np.declaredPort = 0 ->
      0 ∉ env.allowPorts.flatMap PortsRange.iter)
    (hrejected : (s.registerNew cfg env np runId controlId tcpGroupCreated).2 =
      .rejected text) :
    s.Unchanged (s.registerNew cfg env np runId controlId tcpGroupCreated).1 ↔
      forall port, port ∈ (s.allocateProxyPort cfg env 0 np.proxyName np.proxyType
          np.declaredPort).2.toOption ->
        if s.nameTaken np runId controlId then s.NameRefusalSafe np port
        else s.UndoingSafe np runId controlId := by
  have hsound := @sound_registerNew cfg env np runId controlId s tcpGroupCreated hs hfresh
  rcases halloc : s.allocateProxyPort cfg env 0 np.proxyName np.proxyType np.declaredPort with
    ⟨s1, e | port⟩
  · have hspec := allocateProxyPort_allocatesPort halloc
    have hrefused : (s.registerNew cfg env np runId controlId tcpGroupCreated).1 = s1 := by
      unfold registerNew
      rw [halloc]
    rw [hrefused]
    refine iff_of_true (hspec.allocates.unchanged (hspec.refused e rfl).1
      (hspec.refused e rfl).2) ?_
    intro port hport
    cases hport
  · rw [show forall P : UInt16 -> Prop,
      (forall p, p ∈ (Except.ok port : Except PortError UInt16).toOption -> P p) ↔ P port from
      fun P => ⟨fun h => h port rfl, fun h p hp => by cases hp; exact h⟩]
    have hspec := allocateProxyPort_allocatesPort halloc
    have hpm : s1.pm = s.pm := hspec.allocates.pm_eq
    have htaken1 : s1.nameTaken np runId controlId = s.nameTaken np runId controlId := by
      unfold nameTaken takenOver
      rw [hpm]
    split
    · rename_i htaken
      rcases s1.registerProxyEntry_cases env np runId controlId port with
        ⟨s2, e, hreg, _⟩ | ⟨_, _, _, hnot, _⟩
      · have hrefused : (s.registerNew cfg env np runId controlId tcpGroupCreated).1 = s2 := by
          unfold registerNew
          rw [halloc]
          dsimp only
          rw [hreg]
        rw [hrefused]
        exact unchanged_iff_of_taken halloc hreg
      · rw [htaken1, htaken] at hnot
        cases hnot
    · rename_i htaken
      have hnot : s.nameTaken np runId controlId = false := Bool.eq_false_iff.mpr htaken
      cases hover : s.takenOver np runId controlId with
      | some old =>
        have hgone := gone_registerNew hnot ⟨s1, port, halloc⟩ hfresh text hrejected
        have hlive : s.pm.get np.proxyName = some old :=
          (Option.filter_eq_some_iff.mp hover).1
        constructor
        · intro hsame
          have hget : (s.registerNew cfg env np runId controlId tcpGroupCreated).1.pm.get
              np.proxyName = s.pm.get np.proxyName := hsame.proxies np.proxyName
          rw [hgone, hlive] at hget
          cases hget
        · intro hsafe
          rw [UndoingSafe, hover] at hsafe
          cases hsafe.1
      | none =>
        have hfree : s.pm.get np.proxyName = none := by
          rw [nameTaken, hover, Option.isNone_none, Bool.and_true] at hnot
          exact Option.isSome_eq_false_iff.mp hnot |> Option.isNone_iff_eq_none.mp
        have hundone := undone_registerNew hs hfree hcreated ⟨s1, port, halloc⟩ hallowed hfresh
          text hrejected
        rw [hundone.unchanged_iff hs.filled hsound.filled, UndoingSafe, hover,
          Option.isNone_none, eq_self_iff_true, true_and]

theorem rejectionSafe_iff_registerNew (hadmitted : s.notAdmitted cfg env np runId = none)
    (hjoin : np.isTcpGroup = true -> s.groupQuery cfg np = .notFound) :
    s.RejectionSafe cfg env np runId controlId ↔
      forall port, port ∈ (s.allocateProxyPort cfg env 0 np.proxyName np.proxyType
          np.declaredPort).2.toOption ->
        if s.nameTaken np runId controlId then s.NameRefusalSafe np port
        else s.UndoingSafe np runId controlId := by
  have hresolved : s.resolvedPort cfg env np =
      (s.allocateProxyPort cfg env 0 np.proxyName np.proxyType np.declaredPort).2.toOption := by
    unfold resolvedPort
    by_cases hgroup : np.isTcpGroup = true
    · rw [if_pos hgroup, hjoin hgroup]
    · rw [if_neg hgroup]
  have hno : ¬ (np.isTcpGroup = true ∧ s.groupQuery cfg np ≠ .notFound) :=
    fun h => h.2 (hjoin h.1)
  unfold RejectionSafe
  simp only [hadmitted, hresolved, if_neg hno, true_implies]

theorem rejectionSafe_iff_join (hadmitted : s.notAdmitted cfg env np runId = none)
    (hgroup : np.isTcpGroup = true) (hquery : s.groupQuery cfg np = .found port)
    (htaken : s.nameTaken np runId controlId = true) :
    s.RejectionSafe cfg env np runId controlId ↔ port ∉ s.usedPorts := by
  have hresolved : s.resolvedPort cfg env np = some port := by
    rw [resolvedPort, if_pos hgroup, hquery]
  have hjoin : np.isTcpGroup = true ∧ s.groupQuery cfg np ≠ .notFound := by
    refine ⟨hgroup, ?_⟩
    rw [hquery]
    intro heq
    cases heq
  unfold RejectionSafe
  simp only [hadmitted, hresolved, if_pos htaken, if_pos hjoin, true_implies]
  constructor
  · intro h
    exact h port rfl
  · intro h p hp
    cases hp
    exact h

/-- A message that is refused changes nothing, exactly if it is safe. -/
theorem rejection_atomic {cfg : ServerConfig} {requests : List Request} {env : Surroundings}
    {np : NewProxy} {runId : String} {controlId : Nat} {text : String}
    (hallowed : np.proxyType.consumesPort = true ->
      requestedPort cfg np.proxyType np.declaredPort = 0 ->
      0 ∉ env.allowPorts.flatMap PortsRange.iter)
    (hrejected : ((Run.run (step cfg) new requests).handleNewProxy cfg env np runId
      controlId).2 = .rejected text) :
    (Run.run (step cfg) new requests).Unchanged
        ((Run.run (step cfg) new requests).handleNewProxy cfg env np runId controlId).1 ↔
      (Run.run (step cfg) new requests).RejectionSafe cfg env np runId controlId := by
  have hs := sound_run cfg requests
  generalize Run.run (step cfg) new requests = s at *
  unfold handleNewProxy at hrejected ⊢
  cases hadmitted : s.notAdmitted cfg env np runId with
  | some text' =>
    refine iff_of_true (Unchanged.refl s) ?_
    intro h
    rw [hadmitted] at h
    cases h
  | none =>
    rw [hadmitted] at hrejected
    by_cases hgroup : np.isTcpGroup = true
    · obtain ⟨g, htype, _, hgetD⟩ := isTcpGroup_newProxy hgroup
      rw [if_pos hgroup] at hrejected ⊢
      cases hquery : s.groupQuery cfg np with
      | mismatch text' =>
        refine iff_of_true (Unchanged.refl s) ?_
        intro _ port hport
        rw [resolvedPort, if_pos hgroup, hquery] at hport
        cases hport
      | found port =>
        rw [hquery] at hrejected
        rcases (s.markTcp port).handleTcpGroupMemberRegistration_cases cfg env runId controlId
          port htype with ⟨_, _, _, htaken, _⟩ | ⟨s', pm', heq, _⟩
        · rw [rejectionSafe_iff_join hadmitted hgroup hquery htaken]
          rw [handleTcpGroupMemberRegistration_refused hrejected, unchanged_iff_of_unmarked]
        · dsimp only at hrejected
          rw [heq] at hrejected
          cases hrejected
      | notFound =>
        rw [hquery] at hrejected
        rw [rejectionSafe_iff_registerNew hadmitted fun _ => hquery]
        apply unchanged_iff_registerNew hs hgroup.symm _ hallowed hrejected
        intro _
        rw [hgetD]
        exact (groupQuery_notFound hgetD).mp hquery
    · rw [if_neg hgroup] at hrejected ⊢
      rw [rejectionSafe_iff_registerNew hadmitted fun h => absurd h hgroup]
      apply unchanged_iff_registerNew hs (Bool.eq_false_iff.mpr hgroup).symm _ hallowed hrejected
      intro h
      cases h

end Refused

/-- A client with a live proxy whose next one cannot be bound. -/
theorem rejection_atomic_sample :
    (Run.run (step sampleConfig) new [sampleRequest "a" .tcp 6000 none]).RejectionSafe
      sampleConfig { sampleSurroundings with tcpBind := fun _ => some ⟨false, "denied"⟩ }
      (sampleMessage "b" .tcp 6001 none) "r" 1 ∧
    (Run.run (step sampleConfig) new [sampleRequest "a" .tcp 6000 none]).Unchanged
      ((Run.run (step sampleConfig) new [sampleRequest "a" .tcp 6000 none]).handleNewProxy
        sampleConfig { sampleSurroundings with tcpBind := fun _ => some ⟨false, "denied"⟩ }
        (sampleMessage "b" .tcp 6001 none) "r" 1).1 := by
  have hsafe : (Run.run (step sampleConfig) new
      [sampleRequest "a" .tcp 6000 none]).RejectionSafe sampleConfig
      { sampleSurroundings with tcpBind := fun _ => some ⟨false, "denied"⟩ }
      (sampleMessage "b" .tcp 6001 none) "r" 1 := by
    decide +kernel
  refine ⟨hsafe, (@rejection_atomic _ _ _ _ _ _ "TCP bind failed: denied" ?_ ?_).mpr hsafe⟩
  · intro _ _ h
    cases h
  · decide +kernel

/-- A name that is taken: the port that the message names loses the mark of the TCP proxy
that holds it. -/
theorem rejection_unmarks_live_port :
    ((Run.run (step sampleConfig) new
      [sampleRequest "a" .tcp 6000 none, sampleRequest "c" .stcp 0 none]).handleNewProxy
        sampleConfig sampleSurroundings (sampleMessage "c" .stcp 6000 none) "q" 2).2 =
      .rejected "proxy 'c' already registered" ∧
    ¬ (Run.run (step sampleConfig) new
      [sampleRequest "a" .tcp 6000 none, sampleRequest "c" .stcp 0 none]).Unchanged
      ((Run.run (step sampleConfig) new
        [sampleRequest "a" .tcp 6000 none, sampleRequest "c" .stcp 0 none]).handleNewProxy
          sampleConfig sampleSurroundings (sampleMessage "c" .stcp 6000 none) "q" 2).1 := by
  refine ⟨by decide +kernel, ?_⟩
  intro hsame
  have hused := hsame.usedPorts
  have hbefore : (6000 : UInt16) ∈ (Run.run (step sampleConfig) new
      [sampleRequest "a" .tcp 6000 none, sampleRequest "c" .stcp 0 none]).usedPorts := by
    decide +kernel
  have hafter : (6000 : UInt16) ∉ ((Run.run (step sampleConfig) new
      [sampleRequest "a" .tcp 6000 none, sampleRequest "c" .stcp 0 none]).handleNewProxy
        sampleConfig sampleSurroundings (sampleMessage "c" .stcp 6000 none) "q" 2).1.usedPorts := by
    decide +kernel
  rw [hused] at hafter
  exact hafter hbefore

end AppState
end Server
end FrpRs
