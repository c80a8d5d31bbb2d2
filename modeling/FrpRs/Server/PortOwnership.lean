import FrpRs.Server.PortMarks

/-!
# Who owns a port

The marks through every message, close and disconnect: while all requests are `PortSafe`, a
port is marked exactly as long as a live proxy of its kind holds it.
-/

namespace FrpRs
namespace Server

open Ledger

namespace AppState

/-!
## The marks after a message
-/

/-- What the allocator does to the marks, for each kind of proxy. -/
structure AllocatesPort (cfg : ServerConfig) (env : Surroundings) (s : AppState)
    (type : ProxyType) (remotePort : UInt16) (r : AppState × Except PortError UInt16) :
    Prop where
  allocates : s.Allocates r.1
  refused : forall e, r.2 = .error e ->
    r.1.usedPorts = s.usedPorts ∧ r.1.usedUdpPorts = s.usedUdpPorts
  tcp_marks : forall p, r.2 = .ok p ->
    forall q, q ∈ r.1.usedPorts ↔ (type = .tcp ∧ q = p) ∨ q ∈ s.usedPorts
  udp_marks : forall p, r.2 = .ok p ->
    forall q, q ∈ r.1.usedUdpPorts ↔ (type.isUdp = true ∧ q = p) ∨ q ∈ s.usedUdpPorts
  tcp_free : forall p, r.2 = .ok p -> type = .tcp -> p ∉ s.usedPorts
  udp_free : forall p, r.2 = .ok p -> type = .udp -> p ∉ s.usedUdpPorts
  nonzero : forall p, r.2 = .ok p -> type.consumesPort = true ->
    (requestedPort cfg type remotePort = 0 -> 0 ∉ env.allowPorts.flatMap PortsRange.iter) ->
    (forall n r, s.portReservations.lookup n = some r -> r.port ≠ 0) -> p ≠ 0

variable {s : AppState}

variable {name : String}

theorem PortSource.nonzero {env : Surroundings} {remotePort p : UInt16}
    (h : PortSource env s name remotePort p)
    (hallowed : remotePort = 0 -> 0 ∉ env.allowPorts.flatMap PortsRange.iter)
    (hreserved : forall n r, s.portReservations.lookup n = some r -> r.port ≠ 0) : p ≠ 0 := by
  rcases h with ⟨hpos, heq⟩ | ⟨hzero, ⟨r, hr, heq⟩ | hrange⟩
  · rw [heq]
    exact UInt16.pos_iff_ne_zero.mp hpos
  · rw [← heq]
    exact hreserved name r hr
  · rintro rfl
    exact hallowed hzero hrange

variable {attempt : Nat}

theorem allocateProxyPort_allocatesPort {cfg : ServerConfig} {env : Surroundings} {type : ProxyType}
    {remotePort : UInt16} {r : AppState × Except PortError UInt16}
    (h : s.allocateProxyPort cfg env attempt name type remotePort = r) :
    AllocatesPort cfg env s type remotePort r := by
  rw [← h]
  unfold allocateProxyPort
  split
  · rename_i hconsumes
    have hnot : type.consumesPort = false := by simpa using hconsumes
    have htcp : type ≠ .tcp := by
      rintro rfl
      cases hnot
    have hudp : type ≠ .udp := by
      rintro rfl
      cases hnot
    have hkind : type.isUdp = false := by
      cases type with
      | udp => cases hnot
      | sudp => cases hnot
      | _ => rfl
    refine ⟨Allocates.refl s, fun _ _ => ⟨rfl, rfl⟩, ?_, ?_, ?_, ?_, ?_⟩
    · intro p _ q
      simp [htcp]
    · intro p _ q
      simp [hkind]
    · intro p _ h
      exact absurd h htcp
    · intro p _ h
      exact absurd h hudp
    · intro p _ h
      rw [hnot] at h
      cases h
  · rename_i hconsumes
    split
    · rename_i hkind
      have hspec := s.allocateUdpPort_spec env name (type = .sudp) (requestedPort cfg type remotePort)
      have htcp : type ≠ .tcp := by
        rintro rfl
        cases hkind
      refine ⟨hspec.allocates, fun e he => ⟨hspec.tcp_same, hspec.refused e he⟩, ?_, ?_, ?_, ?_, ?_⟩
      · intro p _ q
        rw [hspec.tcp_same]
        simp [htcp]
      · intro p hp q
        rw [hspec.marked p hp, Finset.mem_insert]
        simp [hkind]
      · intro p _ h
        exact absurd h htcp
      · intro p hp h
        exact hspec.fresh p hp (by rw [h]; rfl)
      · intro p hp _ hallowed hreserved
        exact (hspec.source p hp).nonzero hallowed hreserved
    · rename_i hkind
      have hspec := s.allocateTcpPort_spec env attempt name (requestedPort cfg type remotePort)
      have htcp : type = .tcp := by
        cases type with
        | tcp => rfl
        | udp => exact absurd rfl hkind
        | sudp => exact absurd rfl hkind
        | _ => exact absurd rfl hconsumes
      refine ⟨hspec.allocates, fun e he => ⟨hspec.refused e he, hspec.udp_same⟩, ?_, ?_, ?_, ?_, ?_⟩
      · intro p hp q
        rw [hspec.marked p hp, Finset.mem_insert]
        simp [htcp]
      · intro p _ q
        rw [hspec.udp_same]
        simp [hkind]
      · intro p hp _
        exact hspec.fresh p hp
      · intro p _ h
        rw [htcp] at h
        cases h
      · intro p hp _ hallowed hreserved
        exact (hspec.source p hp).nonzero hallowed hreserved

section NewProxy

variable {cfg : ServerConfig} {env : Surroundings} {np : NewProxy} {runId : String}
variable {controlId : Nat}

theorem holdsTcp_proxyInfo {port p : UInt16} :
    (np.proxyInfo runId controlId port).HoldsTcp p ↔ np.proxyType = .tcp ∧ p = port := by
  constructor
  · rintro ⟨htype, hport⟩
    exact ⟨htype, (Option.some.inj hport).symm⟩
  · rintro ⟨htype, rfl⟩
    exact ⟨htype, rfl⟩

theorem holdsUdp_proxyInfo {port p : UInt16} :
    (np.proxyInfo runId controlId port).HoldsUdp p ↔
      np.proxyType.isUdp = true ∧ p = port := by
  constructor
  · rintro ⟨htype, hport⟩
    exact ⟨htype, (Option.some.inj hport).symm⟩
  · rintro ⟨htype, rfl⟩
    exact ⟨htype, rfl⟩

/-- The entry is written and has the port for itself, so that it can be undone. -/
structure Bound (np : NewProxy) (runId : String) (controlId : Nat) (port : UInt16)
    (s : AppState) : Prop where
  entered : Entered np runId controlId s port
  marks : s.PortsRight
  tcp : np.proxyType = .tcp -> ¬ HeldBeside ProxyInfo.HoldsTcp s.pm.get np.proxyName port
  udp : np.proxyType = .udp -> ¬ HeldBeside ProxyInfo.HoldsUdp s.pm.get np.proxyName port

variable {port : UInt16}

theorem Bound.of_ports {s s' : AppState} (hports : s'.ports = s.ports)
    (h : Bound np runId controlId port s) : Bound np runId controlId port s' := by
  have hpm : s'.pm = s.pm := pm_of_ports hports
  refine ⟨h.entered.of_ports hports, portsRight_of_ports hports h.marks, ?_, ?_⟩
  · rw [hpm]
    exact h.tcp
  · rw [hpm]
    exact h.udp

theorem PortsRight.remove {s s' : AppState} (hs : s.PortsRight) (hpm : s'.pm = (s.pm.remove name).1)
    (htcp : forall p, p ∈ s'.usedPorts ↔ HeldBeside ProxyInfo.HoldsTcp s.pm.get name p)
    (hudp : forall p, p ∈ s'.usedUdpPorts ↔ HeldBeside ProxyInfo.HoldsUdp s.pm.get name p)
    (hreserved : s'.portReservations = s.portReservations) : s'.PortsRight := by
  have hrest : forall n, n ≠ name -> s'.pm.get n = s.pm.get n := by
    intro n hn
    rw [hpm, ProxyManager.get_remove, if_neg hn]
  have hgone : s'.pm.get name = none := by
    rw [hpm, ProxyManager.get_remove, if_pos rfl]
  have hlive : forall n info, s'.pm.get n = some info -> s.pm.get n = some info := by
    intro n info hn
    by_cases hname : n = name
    · rw [hname, hgone] at hn
      cases hn
    · rw [← hrest n hname]
      exact hn
  refine ⟨exact_of_erased hrest hgone htcp, exact_of_erased hrest hgone hudp, ?_, ?_, ?_⟩
  · intro n info hn
    exact hs.nonzero n info (hlive n info hn)
  · intro n m info info' p hn hm
    exact hs.shared n m info info' p (hlive n info hn) (hlive m info' hm)
  · unfold ReservesPorts
    rw [hreserved]
    exact hs.reserved

theorem mem_iff_heldBeside {holds : ProxyInfo -> UInt16 -> Prop} {pm : ProxyManager}
    {marked : UInt16 -> Prop} {info : ProxyInfo} {p : UInt16} (h : Exact holds pm.get marked)
    (hget : pm.get name = some info) (hholds : holds info p -> HeldBeside holds pm.get name p) :
    marked p ↔ HeldBeside holds pm.get name p := by
  rw [h p, held_iff_of_some hget]
  constructor
  · rintro (hself | hbeside)
    · exact hholds hself
    · exact hbeside
  · exact .inr

theorem mem_erase_iff_heldBeside {holds : ProxyInfo -> UInt16 -> Prop} {pm : ProxyManager}
    {marked : Finset UInt16} {info : ProxyInfo} {port p : UInt16}
    (h : Exact holds pm.get fun p => p ∈ marked) (hget : pm.get name = some info)
    (honly : forall q, holds info q -> q = port) (halone : ¬ HeldBeside holds pm.get name port) :
    p ∈ marked.erase port ↔ HeldBeside holds pm.get name p := by
  rw [Finset.mem_erase, show (p ∈ marked) ↔ _ from h p, held_iff_of_some hget]
  constructor
  · rintro ⟨hne, hself | hbeside⟩
    · exact absurd (honly p hself) hne
    · exact hbeside
  · intro hbeside
    refine ⟨?_, .inr hbeside⟩
    rintro rfl
    exact halone hbeside

theorem Bound.rollbackTcp (h : Bound np runId controlId port s) (htype : np.proxyType = .tcp) :
    (s.rollbackTcpBindFailure runId port np.proxyName).PortsRight := by
  apply portsRight_of_ports (ports_rollbackTcpBindFailure s runId port np.proxyName)
  apply h.marks.remove
  · rfl
  · intro p
    apply mem_erase_iff_heldBeside h.marks.tcp h.entered.entry
    · intro q hq
      exact (holdsTcp_proxyInfo.mp hq).2
    · exact h.tcp htype
  · intro p
    apply mem_iff_heldBeside h.marks.udp h.entered.entry
    intro hudp
    have hkind := (holdsUdp_proxyInfo.mp hudp).1
    rw [htype] at hkind
    cases hkind
  · rfl

theorem Bound.rollbackUdp (h : Bound np runId controlId port s) (htype : np.proxyType = .udp) :
    (s.rollbackUdpBindFailure runId port np.proxyName).PortsRight := by
  apply portsRight_of_ports (ports_rollbackUdpBindFailure s runId port np.proxyName)
  apply h.marks.remove
  · rfl
  · intro p
    apply mem_iff_heldBeside h.marks.tcp h.entered.entry
    intro htcp
    have hkind := (holdsTcp_proxyInfo.mp htcp).1
    rw [htype] at hkind
    cases hkind
  · intro p
    apply mem_erase_iff_heldBeside h.marks.udp h.entered.entry
    · intro q hq
      exact (holdsUdp_proxyInfo.mp hq).2
    · exact h.udp htype
  · rfl

theorem Bound.unrouted {s s' : AppState} (h : Bound np runId controlId port s)
    (hconsumes : np.proxyType.consumesPort = false)
    (hports : s'.ports = (s.removeEntry np.proxyName).ports) : s'.PortsRight := by
  apply portsRight_of_ports hports
  apply h.marks.remove
  · rfl
  · intro p
    apply mem_iff_heldBeside h.marks.tcp h.entered.entry
    intro htcp
    have hnot := htcp.consumesPort
    rw [show (np.proxyInfo runId controlId port).proxyType = np.proxyType from rfl, hconsumes]
      at hnot
    cases hnot
  · intro p
    apply mem_iff_heldBeside h.marks.udp h.entered.entry
    intro hudp
    have hnot := hudp.consumesPort
    rw [show (np.proxyInfo runId controlId port).proxyType = np.proxyType from rfl, hconsumes]
      at hnot
    cases hnot
  · rfl

/-- A registration that goes through. -/
theorem bound_registerProxyEntry {s s1 s2 : AppState} {remotePort port : UInt16}
    (hs : s.PortsRight) (hgroups : s.GroupsRight)
    (halloc : s.allocateProxyPort cfg env attempt np.proxyName np.proxyType remotePort =
      (s1, .ok port))
    (hreg : s1.registerProxyEntry env np runId controlId port = (s2, none))
    (hallowed : np.proxyType.consumesPort = true ->
      requestedPort cfg np.proxyType remotePort = 0 ->
      0 ∉ env.allowPorts.flatMap PortsRange.iter)
    (hnew : forall g, np.proxyType = .tcp -> np.groupName = some g ->
      s.tcpGroups.lookup g = none)
    (hleave : s.LeavesGroups np runId controlId port)
    (hgives : forall old, s.takenOver np runId controlId = some old ->
      s.GivesUpPort np port old) :
    Bound np runId controlId port s2 := by
  have hspec := allocateProxyPort_allocatesPort halloc
  have hpm : s1.pm = s.pm := hspec.allocates.pm_eq
  have htables : s1.tcpGroups = s.tcpGroups := hspec.allocates.tcpGroups_eq
  have htaken : s1.takenOver np runId controlId = s.takenOver np runId controlId := by
    unfold takenOver
    rw [hpm]
  have hentered : Entered np runId controlId s2 port := by
    apply entered_registerProxyEntry (hspec.allocates.groupsRight hgroups) hreg
    · rw [htables]
      exact hnew
    · unfold LeavesGroups
      dsimp only
      rw [htaken, hpm]
      exact hleave
  obtain ⟨pm', _, hregistered, hports⟩ := registerProxyEntry_entered hreg
  rw [htaken, hpm] at hregistered
  rw [htaken] at hports
  have hgroup := entersGroup_pending hnew hleave
  have henters : s.EntersPort (np.proxyInfo runId controlId port) port
      (s.takenOver np runId controlId) := by
    refine ⟨?_, ?_, ?_, ?_, ?_⟩
    · intro hconsumes
      exact hspec.nonzero port rfl hconsumes (hallowed hconsumes) hs.reserved
    · intro htcp
      exact .inl (hspec.tcp_free port rfl htcp)
    · intro old hold hholds
      rcases (hgives old hold).1 hholds with htcp | hother
      · exact .inl htcp
      · exact .inr
          (heldOutside_singleton.mp ((tcpPortHeldOutside_iff hgroups.indexed).mp hother))
    · intro old hold hholds
      rcases (hgives old hold).2.1 hholds with hkind | hother
      · exact .inl hkind
      · exact .inr
          (heldOutside_singleton.mp ((udpPortHasOtherOwner_iff hgroups.indexed).mp hother))
    · intro old q hold hnot hq hne
      exact (hgives old hold).2.2 hnot q hq hne
  have hpm2 : s2.pm = pm' := by
    rw [pm_of_ports hports, freeReplaced_pm]
  have hbeside : forall {holds : ProxyInfo -> UInt16 -> Prop},
      HeldBeside holds s2.pm.get np.proxyName port -> Held holds s.pm.get port := by
    intro holds h
    obtain ⟨n, info, hne, hn, hholds⟩ := h
    rw [hpm2, hregistered.get_of_ne hne] at hn
    exact held_of hn hholds
  refine ⟨hentered, portsRight_of_ports hports ?_, ?_, ?_⟩
  · apply portsRight_registered env.now hs hgroups hregistered rfl hgroup henters rfl
    · intro p
      rw [holdsTcp_proxyInfo]
      exact hspec.tcp_marks port rfl p
    · intro p
      rw [holdsUdp_proxyInfo]
      exact hspec.udp_marks port rfl p
    · intro n r hr
      exact hs.reserved n r (hspec.allocates.reservations n r hr)
  · intro htcp h
    exact hspec.tcp_free port rfl htcp ((hs.tcp port).mpr (hbeside h))
  · intro hudp h
    exact hspec.udp_free port rfl hudp ((hs.udp port).mpr (hbeside h))

/-- A message that is refused for its name gives back the port it was allocated. -/
theorem portsRight_taken {s s1 s2 : AppState} {remotePort port : UInt16}
    {e : String} (hs : s.PortsRight) (hindexed : s.pm.Indexed)
    (halloc : s.allocateProxyPort cfg env attempt np.proxyName np.proxyType remotePort =
      (s1, .ok port))
    (hreg : s1.registerProxyEntry env np runId controlId port = (s2, some e))
    (hother : np.proxyType ≠ .tcp -> port ∉ s.usedPorts) : s2.PortsRight := by
  have hspec := allocateProxyPort_allocatesPort halloc
  have hpm : s1.pm = s.pm := hspec.allocates.pm_eq
  obtain ⟨_, hports⟩ := registerProxyEntry_taken hreg
  have hunmarked : port ∉ s.usedPorts := by
    by_cases htcp : np.proxyType = .tcp
    · exact hspec.tcp_free port rfl htcp
    · exact hother htcp
  have howner : s1.udpPortHasOtherOwner port [] = true ↔ port ∈ s.usedUdpPorts := by
    rw [udpPortHasOtherOwner_iff (hpm.symm ▸ hindexed), hpm]
    constructor
    · rintro ⟨n, info, _, hn, hholds⟩
      exact (hs.udp port).mpr (held_of hn hholds)
    · intro hmarked
      obtain ⟨n, info, hn, hholds⟩ := (hs.udp port).mp hmarked
      exact ⟨n, info, List.not_mem_nil, hn, hholds⟩
  apply hs.congr
  · exact (congrArg PortView.pm hports).trans hpm
  · rw [show s2.usedPorts = s1.usedPorts.erase port from congrArg PortView.usedPorts hports]
    ext p
    rw [Finset.mem_erase, hspec.tcp_marks port rfl]
    constructor
    · rintro ⟨hne, ⟨_, heq⟩ | hmarked⟩
      · exact absurd heq hne
      · exact hmarked
    · intro hmarked
      refine ⟨?_, .inr hmarked⟩
      rintro rfl
      exact hunmarked hmarked
  · have hmarks := hspec.udp_marks port rfl
    rw [show s2.usedUdpPorts = if np.proxyType.isUdp && !s1.udpPortHasOtherOwner port [] then
      s1.usedUdpPorts.erase port else s1.usedUdpPorts from
      congrArg PortView.usedUdpPorts hports]
    ext p
    split
    · rename_i hfree
      simp only [Bool.and_eq_true, Bool.not_eq_true', Bool.eq_false_iff, ne_eq, howner] at hfree
      rw [Finset.mem_erase, hmarks]
      constructor
      · rintro ⟨hne, ⟨_, heq⟩ | hmarked⟩
        · exact absurd heq hne
        · exact hmarked
      · intro hmarked
        refine ⟨?_, .inr hmarked⟩
        rintro rfl
        exact hfree.2 hmarked
    · rename_i hkept
      rw [hmarks]
      constructor
      · rintro (⟨hkind, rfl⟩ | hmarked)
        · by_contra hfree
          apply hkept
          simp only [Bool.and_eq_true, Bool.not_eq_true', Bool.eq_false_iff, ne_eq, howner]
          exact ⟨hkind, hfree⟩
        · exact hmarked
      · exact .inr
  · intro n r hr
    rw [show s2.portReservations = s1.portReservations from
      congrArg PortView.portReservations hports] at hr
    exact hspec.allocates.reservations n r hr

theorem portsRight_registerNew {tcpGroupCreated : Bool} (hs : s.PortsRight)
    (hgroups : s.GroupsRight) (hcreated : tcpGroupCreated = np.isTcpGroup)
    (hallowed : np.proxyType.consumesPort = true ->
      requestedPort cfg np.proxyType np.declaredPort = 0 ->
      0 ∉ env.allowPorts.flatMap PortsRange.iter)
    (hnew : forall g, np.proxyType = .tcp -> np.groupName = some g ->
      s.tcpGroups.lookup g = none)
    (hport : forall s1 port, s.allocateProxyPort cfg env 0 np.proxyName np.proxyType
        np.declaredPort = (s1, .ok port) ->
      (s.nameTaken np runId controlId = true -> np.proxyType ≠ .tcp -> port ∉ s.usedPorts) ∧
      (forall old, s.takenOver np runId controlId = some old -> s.GivesUpPort np port old) ∧
        s.LeavesGroups np runId controlId port) :
    (s.registerNew cfg env np runId controlId tcpGroupCreated).1.PortsRight := by
  apply @registerNew_rule cfg env np runId controlId (Bound np runId controlId)
    (Bound np runId controlId) (fun s _ => s.PortsRight)
  case noPort =>
    intro s1 e halloc
    have hspec := allocateProxyPort_allocatesPort halloc
    exact hs.congr hspec.allocates.pm_eq (hspec.refused e rfl).1 (hspec.refused e rfl).2
      hspec.allocates.reservations
  case taken =>
    intro s1 s2 port e halloc hreg
    apply portsRight_taken hs hgroups.indexed halloc hreg
    have hspec := allocateProxyPort_allocatesPort halloc
    apply (hport s1 port halloc).1
    obtain ⟨htaken, _⟩ := registerProxyEntry_taken hreg
    unfold nameTaken takenOver at htaken ⊢
    rw [show s1.pm = s.pm from hspec.allocates.pm_eq] at htaken
    exact htaken
  case entered =>
    intro s1 s2 port halloc hreg
    obtain ⟨_, hgives, hleave⟩ := hport s1 port halloc
    exact bound_registerProxyEntry hs hgroups halloc hreg hallowed hnew hleave hgives
  case routed =>
    intro s1 s2 port hbound hroutes
    have hports := registerRoutes_ports hroutes
    exact hbound.of_ports hports
  case unrouted =>
    intro s1 s2 port reply hbound hroutes
    obtain ⟨hports, hconsumes⟩ := registerRoutes_ports hroutes
    exact hbound.unrouted hconsumes hports
  case listening =>
    intro _ port s' hbound
    exact hbound.marks
  case udpUndone =>
    intro htype port s' _ hbound
    exact hbound.rollbackUdp htype
  case undone =>
    intro htype port s' _ hbound
    exact hbound.rollbackTcp htype
  case again =>
    intro htype hplain port s' attempt s1 r hbound hzero halloc hgone
    have hundone : ((s'.rollbackTcpBindFailure runId port np.proxyName).dropReservation
        np.proxyName).PortsRight := (hbound.rollbackTcp htype).dropReservation np.proxyName
    have hgroupsUndone : ((s'.rollbackTcpBindFailure runId port np.proxyName).dropReservation
        np.proxyName).GroupsRight := hbound.entered.rollbackTcp
    have hretry := allocateProxyPort_allocatesPort halloc
    refine ⟨?_, ?_⟩
    · intro e he
      exact hundone.congr hretry.allocates.pm_eq (hretry.refused e he).1
        (hretry.refused e he).2 hretry.allocates.reservations
    · intro p s2 hp hreg
      subst hp
      rw [← htype] at halloc
      have hnone : ((s'.rollbackTcpBindFailure runId port np.proxyName).dropReservation
          np.proxyName).takenOver np runId controlId = none := by
        unfold takenOver
        rw [← hretry.allocates.pm_eq, hgone]
        rfl
      apply bound_registerProxyEntry hundone hgroupsUndone halloc hreg
      · intro hconsumes _
        apply hallowed hconsumes
        unfold requestedPort NewProxy.declaredPort
        rw [hzero, htype]
        rfl
      · intro g htcp hg
        rw [hcreated, NewProxy.isTcpGroup, htcp, hg] at hplain
        cases hplain
      · intro old g hold
        rw [hnone] at hold
        cases hold
      · intro old hold
        rw [hnone] at hold
        cases hold
  case fresh =>
    intro hgroup port s' hbound
    rw [hcreated] at hgroup
    obtain ⟨g, htype, hg, hgetD⟩ := isTcpGroup_newProxy hgroup
    rw [hgetD]
    exact hbound.entered.grouped.fresh g (pendingGroup_eq_some.mpr ⟨htype, hg⟩)
  case created =>
    intro _ _ port s' hbound
    exact hbound.marks.congr rfl rfl rfl (fun _ _ h => h)

/-- A message that joins a group. -/
theorem portsRight_join {g : String} {entry : TcpGroupEntry}
    (hs : s.PortsRight) (hgroups : s.GroupsRight) (htype : np.proxyType = .tcp)
    (hg : np.groupName = some g) (hentry : s.tcpGroups.lookup g = some entry)
    (hport : entry.port = port) (hfree : s.nameTaken np runId controlId = false)
    (hleave : s.LeavesGroups np runId controlId port)
    (hgives : forall old, s.takenOver np runId controlId = some old ->
      s.GivesUpPort np port old) :
    ((s.markTcp port).handleTcpGroupMemberRegistration cfg env np runId controlId
      port).1.PortsRight := by
  have hin : (np.proxyInfo runId controlId port).InTcpGroup g := ⟨htype, hg⟩
  rcases (s.markTcp port).handleTcpGroupMemberRegistration_cases cfg env runId controlId port
    htype with ⟨s', text, heq, htaken, hports⟩ | ⟨s', pm', heq, _, hregistered, hports⟩
  · rw [show (s.markTcp port).nameTaken np runId controlId = s.nameTaken np runId controlId from
      rfl, hfree] at htaken
    cases htaken
  · rw [heq]
    obtain ⟨n, member, hn, hmember⟩ :=
      (hgroups.isSome_iff g).mp (Option.isSome_iff_exists.mpr ⟨entry, hentry⟩)
    have hholds : member.HoldsTcp port := by
      refine ⟨hmember.1, ?_⟩
      rw [hgroups.port g entry n member hentry hn hmember, hport]
    have hgroup : s.EntersGroup none (np.proxyInfo runId controlId port) port
        (s.takenOver np runId controlId) := by
      refine ⟨?_, ?_, hleave⟩
      · intro g' hin'
        rw [hin.unique hin']
        exact .inr ⟨entry, hentry, hport⟩
      · intro g' hpending
        cases hpending
    have henters : s.EntersPort (np.proxyInfo runId controlId port) port
        (s.takenOver np runId controlId) := by
      refine ⟨?_, ?_, fun _ _ _ => .inl htype, ?_, ?_⟩
      · rintro _ rfl
        exact hs.nonzero n member hn hholds.consumesPort hholds.2
      · intro _
        exact .inr ⟨g, entry, hin, hentry, hport⟩
      · intro old hold hudp
        rcases (hgives old hold).2.1 hudp with hkind | hother
        · exact .inl hkind
        · exact .inr
            (heldOutside_singleton.mp ((udpPortHasOtherOwner_iff hgroups.indexed).mp hother))
      · intro old q hold hnot hq hne
        exact (hgives old hold).2.2 hnot q hq hne
    apply portsRight_of_ports hports
    apply @portsRight_registered s _ none _ _ (s.takenOver np runId controlId) port env.now hs
      hgroups hregistered rfl hgroup henters rfl
    · intro p
      show p ∈ insert port s.usedPorts ↔ _
      rw [Finset.mem_insert, holdsTcp_proxyInfo]
      simp [htype]
    · intro p
      show p ∈ s.usedUdpPorts ↔ _
      rw [holdsUdp_proxyInfo, htype]
      simp [ProxyType.isUdp]
    · exact hs.reserved

theorem portsRight_handleNewProxy (hs : s.PortsRight) (hgroups : s.GroupsRight)
    (hgroup : s.GroupSafeNew cfg env np runId controlId)
    (hsafe : s.PortSafeNew cfg env np runId controlId) :
    (s.handleNewProxy cfg env np runId controlId).1.PortsRight := by
  unfold handleNewProxy
  split
  · exact hs
  · rename_i hadmitted
    obtain ⟨hallowed, hresolved⟩ := hsafe hadmitted
    have hnewPort : (if np.isTcpGroup then s.groupQuery cfg np else .notFound) = .notFound ->
        forall s1 port, s.allocateProxyPort cfg env 0 np.proxyName np.proxyType np.declaredPort =
          (s1, .ok port) -> s.resolvedPort cfg env np = some port := by
      intro hquery s1 port halloc
      rw [resolvedPort, hquery]
      rw [halloc]
      rfl
    split
    · rename_i hisGroup
      obtain ⟨g, htype, hg, hgetD⟩ := isTcpGroup_newProxy hisGroup
      cases hquery : s.groupQuery cfg np with
      | found port =>
        have hport : s.resolvedPort cfg env np = some port := by
          rw [resolvedPort, if_pos hisGroup, hquery]
        obtain ⟨entry, hentry, hentryPort, _⟩ := groupQuery_found hgetD hquery
        apply portsRight_join hs hgroups htype hg hentry hentryPort
        · by_contra htaken
          have hnone := ((hresolved port hport).1 (Bool.not_eq_false _ ▸ htaken)).1 hisGroup
          rw [hquery] at hnone
          cases hnone
        · exact hgroup.leavesGroups hgroups.indexed hadmitted hport
        · exact (hresolved port hport).2
      | mismatch text => exact hs
      | notFound =>
        have hnew := hnewPort (by rw [if_pos hisGroup, hquery])
        apply portsRight_registerNew hs hgroups hisGroup.symm hallowed
        · intro g' _ hg'
          rw [hg] at hg'
          cases hg'
          exact (groupQuery_notFound hgetD).mp hquery
        · intro s1 port halloc
          have hport := hnew s1 port halloc
          exact ⟨fun htaken => ((hresolved port hport).1 htaken).2, (hresolved port hport).2,
            hgroup.leavesGroups hgroups.indexed hadmitted hport⟩
    · rename_i hisGroup
      have hplain : np.isTcpGroup = false := Bool.eq_false_iff.mpr hisGroup
      have hnew := hnewPort (by rw [if_neg hisGroup])
      apply portsRight_registerNew hs hgroups hplain.symm hallowed
      · intro g htype hg
        rw [NewProxy.isTcpGroup, htype, hg] at hplain
        cases hplain
      · intro s1 port halloc
        have hport := hnew s1 port halloc
        exact ⟨fun htaken => ((hresolved port hport).1 htaken).2, (hresolved port hport).2,
          hgroup.leavesGroups hgroups.indexed hadmitted hport⟩

end NewProxy

/-!
## The marks after a close
-/

variable {p : ProxyInfo}

theorem closeProxy_portReservations {runId name : String} (hget : s.pm.get name = some p)
    (hrun : p.runId = runId) :
    (s.closeProxy runId name).portReservations = s.portReservations := by
  rw [show (s.closeProxy runId name).portReservations = _ from
    congrArg PortView.portReservations (ports_closeProxy hget hrun)]
  show AppState.portReservations _ = _
  have hempty : forall s' : AppState,
      (s'.releaseEmptyTcpGroup p).portReservations = s'.portReservations := by
    intro s'
    unfold releaseEmptyTcpGroup
    dsimp only
    split
    · split <;> rfl
    · rfl
  rw [hempty]
  show (s.releaseClosedPort p).portReservations = _
  unfold releaseClosedPort releaseUdpPortWithOwnerCheck
  split
  · rfl
  · split
    · split <;> rfl
    · split <;> rfl

theorem closeProxy_usedUdpPorts {runId name : String} (hget : s.pm.get name = some p)
    (hrun : p.runId = runId) :
    (s.closeProxy runId name).usedUdpPorts =
      match p.remotePort.filter fun _ => p.proxyType.isUdp with
      | none => s.usedUdpPorts
      | some q =>
        if s.udpPortHasOtherOwner q [p.name] then s.usedUdpPorts else s.usedUdpPorts.erase q := by
  rw [show (s.closeProxy runId name).usedUdpPorts = _ from
    congrArg PortView.usedUdpPorts (ports_closeProxy hget hrun)]
  show AppState.usedUdpPorts _ = _
  have hempty : forall s' : AppState,
      (s'.releaseEmptyTcpGroup p).usedUdpPorts = s'.usedUdpPorts := by
    intro s'
    unfold releaseEmptyTcpGroup
    dsimp only
    split
    · split <;> rfl
    · rfl
  rw [hempty]
  show (s.releaseClosedPort p).usedUdpPorts = _
  unfold releaseClosedPort releaseUdpPortWithOwnerCheck
  cases p.remotePort with
  | none => rfl
  | some q =>
    cases hkind : p.proxyType.isUdp with
    | true =>
      dsimp only [Option.filter]
      rw [if_pos rfl, if_pos rfl]
      dsimp only
      split <;> rfl
    | false =>
      dsimp only [Option.filter]
      rw [if_neg Bool.false_ne_true, if_neg Bool.false_ne_true]
      split <;> rfl

/-- The TCP marks after a close. -/
theorem closeProxy_usedPorts {runId name : String} (hget : s.pm.get name = some p)
    (hrun : p.runId = runId) :
    (s.closeProxy runId name).usedPorts =
      match p.remotePort.filter fun _ => !p.proxyType.isUdp with
      | none => s.usedPorts
      | some q =>
        if p.isTcpGroup = true ∧ (s.pm.remove p.name).1.groupLen (p.group.getD "") ≠ 0 then
          s.usedPorts
        else s.usedPorts.erase q := by
  rw [usedPorts_of_ports (ports_closeProxy hget hrun)]
  unfold releaseEmptyTcpGroup
  dsimp only
  rw [show ((s.releaseClosedPort p).removeEntry p.name).pm = (s.pm.remove p.name).1 by
    rw [removeEntry, releaseClosedPort_pm]]
  unfold releaseClosedPort releaseUdpPortWithOwnerCheck
  cases p.remotePort with
  | none =>
    split
    · rfl
    · rfl
  | some q =>
    cases hkind : p.proxyType.isUdp with
    | true =>
      rw [ProxyInfo.not_isTcpGroup_of_isUdp hkind, Bool.false_and,
        if_neg Bool.false_ne_true]
      dsimp only [Option.filter]
      rw [if_pos rfl]
      show AppState.usedPorts _ = _
      split <;> rfl
    | false =>
      dsimp only [Option.filter]
      by_cases hgroup : p.isTcpGroup = true
      · by_cases hlen : (s.pm.remove p.name).1.groupLen (p.group.getD "") = 0
        · simp [hgroup, hlen, removeEntry, unmarkTcp, removeGroup]
        · simp [hgroup, hlen, removeEntry]
      · simp [hgroup, removeEntry, unmarkTcp]

theorem portsRight_closeProxy {runId name : String} (hs : s.PortsRight) (hgroups : s.GroupsRight)
    (hgroup : s.GroupSafeClose runId name) (hsafe : s.PortSafeClose runId name) :
    (s.closeProxy runId name).PortsRight := by
  by_cases howned : exists p, s.pm.get name = some p ∧ p.runId = runId
  · obtain ⟨p, hget, hrun⟩ := howned
    have hname : p.name = name := ProxyManager.named_of_get hgroups.indexed hget
    have hgetp : s.pm.get p.name = some p := hname.symm ▸ hget
    apply hs.remove (closeProxy_pm hget hrun)
    · intro q
      rw [closeProxy_usedPorts hget hrun]
      split
      · rename_i hnone
        apply mem_iff_heldBeside hs.tcp hgetp
        intro hholds
        rw [hholds.2, Option.filter_some, if_pos (by rw [hholds.not_isUdp]; rfl)] at hnone
        cases hnone
      · rename_i port hsome
        obtain ⟨hport, hkind⟩ := Option.filter_eq_some_iff.mp hsome
        have hudp : p.proxyType.isUdp = false := by simpa using hkind
        split
        · rename_i hstays
          obtain ⟨g, hin⟩ := ProxyInfo.isTcpGroup_iff.mp hstays.1
          rw [hin.group_getD] at hstays
          apply mem_iff_heldBeside hs.tcp hgetp
          intro hholds
          rcases hgroup p hget hrun g hin.2 hin.1 with hmember | hle
          · obtain ⟨m, i, hne, hm, hi⟩ := heldBeside_of_tcpMemberOutside hgroups.indexed hmember
            obtain ⟨entry, hentry, hentryPort⟩ := hgroups.lookup_of_member hgetp hin
            refine ⟨m, i, hname.symm ▸ hne, hm, hi.1, ?_⟩
            rw [hgroups.port g entry m i hentry hm hi, ← hentryPort]
            exact hholds.2
          · exact absurd ((groupLen_remove_eq_zero_iff hgroups.indexed hgetp hin.2).mpr hle)
              hstays.2
        · rename_i hgoes
          apply mem_erase_iff_heldBeside hs.tcp hgetp
          · intro q' hholds
            exact Option.some.inj (hholds.2.symm.trans hport)
          · by_cases hconsumes : p.proxyType.consumesPort = true
            · apply not_heldBeside_of_shared hs hgetp
                ⟨ProxyInfo.tcp_of_consumesPort hconsumes hudp, hport⟩
              intro g m i hin hm hi hig
              apply hgoes
              refine ⟨hin.isTcpGroup, ?_⟩
              rw [hin.group_getD]
              have hpos := ProxyManager.groupLen_pos (hgroups.indexed.remove p.name)
                (by rw [ProxyManager.get_remove, if_neg hm]; exact hi) hig.2
              omega
            · exact not_mem_usedPorts hs
                (hsafe p hget hrun (Bool.eq_false_iff.mpr hconsumes) port hport) p.name
    · intro q
      rw [closeProxy_usedUdpPorts hget hrun]
      split
      · rename_i hnone
        apply mem_iff_heldBeside hs.udp hgetp
        intro hholds
        rw [hholds.2, Option.filter_some, if_pos hholds.1] at hnone
        cases hnone
      · rename_i port hsome
        obtain ⟨hport, hkind⟩ := Option.filter_eq_some_iff.mp hsome
        have howner : s.udpPortHasOtherOwner port [p.name] = true ↔
            HeldBeside ProxyInfo.HoldsUdp s.pm.get p.name port := by
          rw [udpPortHasOtherOwner_iff hgroups.indexed, heldOutside_singleton]
        split
        · rename_i hother
          apply mem_iff_heldBeside hs.udp hgetp
          intro hholds
          rw [Option.some.inj (hholds.2.symm.trans hport)]
          exact howner.mp hother
        · rename_i hother
          apply mem_erase_iff_heldBeside hs.udp hgetp
          · intro q' hholds
            exact Option.some.inj (hholds.2.symm.trans hport)
          · intro hbeside
            exact hother (howner.mpr hbeside)
    · exact closeProxy_portReservations hget hrun
  · rw [closeProxy_of_other]
    · exact hs
    · intro p hget hrun
      exact howned ⟨p, hget, hrun⟩

/-!
## The marks after a disconnect
-/

variable {controlId : Nat} {runId : String}

/-- The TCP marks after a disconnect are those of the proxies that stay. -/
theorem mem_usedPorts_cleanup (now : Nat) (hs : s.PortsRight) (hgroups : s.GroupsRight)
    (hgroup : s.GroupSafeDisconnect runId controlId) (hsafe : s.PortSafeDisconnect runId controlId)
    (port : UInt16) :
    port ∈ (s.cleanup now runId controlId).usedPorts ↔
      HeldOutside ProxyInfo.HoldsTcp s.pm.get (fun n => n ∈ s.sweptNames runId controlId)
        port := by
  rw [cleanup_usedPorts, mem_usedPorts_sweepTcpPorts]
  constructor
  · rintro ⟨hmarked, hkept⟩
    obtain ⟨n, info, hn, hholds⟩ := (hs.tcp port).mp hmarked
    by_cases hout : n ∈ s.sweptNames runId controlId
    · obtain ⟨p, hp, hswept⟩ := (mem_sweptNames hgroups.indexed).mp hout
      rw [hn] at hp
      cases hp
      have hget := ((mem_swept hgroups.indexed).mp hswept).1
      have hnot := hkept info hswept
      by_cases htcp : info.isTcpGroup = true
      · obtain ⟨g, hin⟩ := ProxyInfo.isTcpGroup_iff.mp htcp
        obtain ⟨entry, hentry, hentryPort⟩ := hgroups.lookup_of_member hget hin
        have hport : entry.port = port := Option.some.inj (hentryPort.symm.trans hholds.2)
        rw [sweptPort_of_member hgroups hget hin hentry, hport] at hnot
        rcases (hgroup info hswept).2 g hin.2 hin.1 with hmember | hle
        · obtain ⟨m, i, hne, hm, hi⟩ := heldOutside_of_tcpMemberOutside hgroups.indexed hmember
          refine ⟨m, i, hne, hm, hi.1, ?_⟩
          rw [hgroups.port g entry m i hentry hm hi, hport]
        · rw [if_pos hle] at hnot
          exact absurd rfl hnot
      · exfalso
        apply hnot
        unfold sweptPort
        rw [not_superseded hget, hholds.2, hholds.not_isUdp]
        simp [htcp]
    · exact ⟨n, info, hout, hn, hholds⟩
  · rintro ⟨n, info, hout, hn, hholds⟩
    refine ⟨(hs.tcp port).mpr (held_of hn hholds), ?_⟩
    intro p hp hswept
    have hget := ((mem_swept hgroups.indexed).mp hp).1
    have hne : n ≠ p.name := by
      rintro rfl
      exact hout (List.mem_map_of_mem hp)
    unfold sweptPort at hswept
    rw [not_superseded hget, if_neg Bool.false_ne_true] at hswept
    obtain ⟨hport, htest⟩ := Option.filter_eq_some_iff.mp hswept
    by_cases hconsumes : p.proxyType.consumesPort = true
    · have hkind : p.proxyType.isUdp = false := by
        by_contra hudp
        rw [ProxyInfo.not_isTcpGroup_of_isUdp (Bool.not_eq_false _ ▸ hudp)] at htest
        simp [Bool.not_eq_false _ ▸ hudp] at htest
      have hp' : p.HoldsTcp port := ⟨ProxyInfo.tcp_of_consumesPort hconsumes hkind, hport⟩
      obtain ⟨g, hpg, hig⟩ := hs.shared p.name n p info port hget hn hp' hholds hne
      rw [hpg.isTcpGroup, hpg.group_getD] at htest
      have hle : s.pm.groupLen g ≤ 1 := by simpa using htest
      exact hne (ProxyManager.eq_of_groupLen_le_one hgroups.indexed hle hget hpg.2 hn hig.2)
    · apply (hsafe p hp port hport).1 (Bool.eq_false_iff.mpr hconsumes)
      rw [tcpPortHeldOutside_iff hgroups.indexed]
      exact ⟨n, info, hout, hn, hholds⟩

/-- The UDP marks after a disconnect are those of the proxies that stay. -/
theorem mem_usedUdpPorts_cleanup_iff (now : Nat) (hs : s.PortsRight) (hgroups : s.GroupsRight)
    (hsafe : s.PortSafeDisconnect runId controlId) (port : UInt16) :
    port ∈ (s.cleanup now runId controlId).usedUdpPorts ↔
      HeldOutside ProxyInfo.HoldsUdp s.pm.get (fun n => n ∈ s.sweptNames runId controlId)
        port := by
  have howner := @udpPortHasOtherOwner_iff s hgroups.indexed port
    ((swept s.pm runId controlId).map ProxyInfo.name)
  rw [mem_usedUdpPorts_cleanup]
  constructor
  · rintro ⟨hmarked, hkept⟩
    obtain ⟨n, info, hn, hholds⟩ := (hs.udp port).mp hmarked
    by_cases hout : n ∈ s.sweptNames runId controlId
    · obtain ⟨p, hp, hswept⟩ := (mem_sweptNames hgroups.indexed).mp hout
      rw [hn] at hp
      cases hp
      have hnot := hkept info hswept
      unfold sweptUdpPort at hnot
      rw [hholds.2, Option.filter_some, hholds.1] at hnot
      apply howner.mp
      by_contra hother
      simp [Bool.eq_false_iff.mpr hother] at hnot
    · exact ⟨n, info, hout, hn, hholds⟩
  · rintro ⟨n, info, hout, hn, hholds⟩
    have hother := howner.mpr ⟨n, info, hout, hn, hholds⟩
    refine ⟨(hs.udp port).mpr (held_of hn hholds), ?_⟩
    intro p hp hswept
    obtain ⟨hport, htest⟩ := Option.filter_eq_some_iff.mp hswept
    rw [hother] at htest
    have hudp : p.proxyType = .udp := by
      cases htype : p.proxyType with
      | udp => rfl
      | _ =>
        rw [htype] at htest
        cases htest
    rw [(hsafe p hp port hport).2 hudp] at hother
    cases hother

theorem portsRight_cleanup (now : Nat) (hs : s.PortsRight) (hgroups : s.GroupsRight)
    (hgroup : s.GroupSafeDisconnect runId controlId) (hsafe : s.PortSafeDisconnect runId controlId) :
    (s.cleanup now runId controlId).PortsRight := by
  have hget := fun n => get_cleanup now hgroups.indexed n (fun p hp => (hgroup p hp).1)
  have hrest : forall n, ¬ n ∈ s.sweptNames runId controlId ->
      (s.cleanup now runId controlId).pm.get n = s.pm.get n := by
    intro n hn
    rw [hget, if_neg hn]
  have hgone : forall n, n ∈ s.sweptNames runId controlId ->
      (s.cleanup now runId controlId).pm.get n = none := by
    intro n hn
    rw [hget, if_pos hn]
  have hlive : forall n info, (s.cleanup now runId controlId).pm.get n = some info ->
      s.pm.get n = some info := by
    intro n info hn
    rw [hget] at hn
    split at hn
    · cases hn
    · exact hn
  refine ⟨?_, ?_, ?_, ?_, reservesPorts_cleanup now hs.reserved runId controlId⟩
  · exact exact_of_removed hrest hgone (mem_usedPorts_cleanup now hs hgroups hgroup hsafe)
  · exact exact_of_removed hrest hgone (mem_usedUdpPorts_cleanup_iff now hs hgroups hsafe)
  · intro n info hn
    exact hs.nonzero n info (hlive n info hn)
  · intro n m info info' p hn hm
    exact hs.shared n m info info' p (hlive n info hn) (hlive m info' hm)

/-!
## Runs
-/

theorem portsRight_step (cfg : ServerConfig) (s : AppState) (e : Request)
    (hs : s.GroupsRight ∧ s.PortsRight) (hsafe : s.PortSafe cfg e) :
    (s.step cfg e).GroupsRight ∧ (s.step cfg e).PortsRight := by
  refine ⟨groupsRight_step cfg s e hs.1 hsafe.1, ?_⟩
  obtain ⟨hgroups, hports⟩ := hs
  cases e with
  | newProxy env np runId controlId =>
    exact portsRight_handleNewProxy hports hgroups hsafe.1 hsafe.2
  | closeProxy runId name => exact portsRight_closeProxy hports hgroups hsafe.1 hsafe.2
  | disconnect now runId controlId =>
    exact portsRight_cleanup now hports hgroups hsafe.1 hsafe.2

theorem portsRight_run {cfg : ServerConfig} {requests : List Request}
    (h : Run.Along (step cfg) (PortSafe cfg) new requests) :
    (Run.run (step cfg) new requests).GroupsRight ∧
      (Run.run (step cfg) new requests).PortsRight :=
  @Run.run_invariant _ _ _ _ (fun s => s.GroupsRight ∧ s.PortsRight) (portsRight_step cfg) _ _
    ⟨groupsRight_new, portsRight_new⟩ h

/-- The marks are the ports, other than zero, of the live proxies of their kind, and each
group with a live member has its shared port marked. -/
def PortsExact (s : AppState) : Prop :=
  (forall port, port ∈ s.usedPorts ↔ port ≠ 0 ∧
    exists n info, s.pm.get n = some info ∧ info.proxyType = .tcp ∧
      info.remotePort = some port) ∧
  (forall port, port ∈ s.usedUdpPorts ↔ port ≠ 0 ∧
    exists n info, s.pm.get n = some info ∧ info.proxyType.isUdp = true ∧
      info.remotePort = some port) ∧
  forall n info g, s.pm.get n = some info -> info.InTcpGroup g ->
    exists entry, s.tcpGroups.lookup g = some entry ∧ info.remotePort = some entry.port ∧
      entry.port ∈ s.usedPorts

theorem portsExact_of_right (hgroups : s.GroupsRight) (hs : s.PortsRight) :
    s.PortsExact := by
  refine ⟨?_, ?_, ?_⟩
  · intro port
    rw [show port ∈ s.usedPorts ↔ _ from hs.tcp port]
    constructor
    · rintro ⟨n, info, hn, hholds⟩
      refine ⟨?_, n, info, hn, hholds⟩
      rintro rfl
      exact hs.nonzero n info hn hholds.consumesPort hholds.2
    · rintro ⟨_, n, info, hn, hholds⟩
      exact ⟨n, info, hn, hholds⟩
  · intro port
    rw [show port ∈ s.usedUdpPorts ↔ _ from hs.udp port]
    constructor
    · rintro ⟨n, info, hn, hholds⟩
      refine ⟨?_, n, info, hn, hholds⟩
      rintro rfl
      exact hs.nonzero n info hn hholds.consumesPort hholds.2
    · rintro ⟨_, n, info, hn, hholds⟩
      exact ⟨n, info, hn, hholds⟩
  · intro n info g hn hin
    obtain ⟨entry, hentry, hport⟩ := hgroups.lookup_of_member hn hin
    exact ⟨entry, hentry, hport, (hs.tcp entry.port).mpr ⟨n, info, hn, hin.1, hport⟩⟩

/-- While all requests are safe, the marks are exact. -/
theorem port_marks_exact {cfg : ServerConfig} {requests : List Request}
    (h : Run.Along (step cfg) (PortSafe cfg) new requests) :
    (Run.run (step cfg) new requests).PortsExact :=
  portsExact_of_right (portsRight_run h).1 (portsRight_run h).2

/-- A proxy of each kind, one of which closes while the client of the others stays. -/
theorem port_marks_exact_sample :
    Run.Along (step sampleConfig) (PortSafe sampleConfig) new
      [sampleRequest "a" .tcp 6000 none, sampleRequest "b" .udp 6000 none,
        .newProxy sampleSurroundings (sampleMessage "c" .stcp 0 none) "q" 2,
        .closeProxy "r" "b", .disconnect 0 "q" 2] ∧
    (Run.run (step sampleConfig) new
      [sampleRequest "a" .tcp 6000 none, sampleRequest "b" .udp 6000 none,
        .newProxy sampleSurroundings (sampleMessage "c" .stcp 0 none) "q" 2,
        .closeProxy "r" "b", .disconnect 0 "q" 2]).PortsExact := by
  have hsafe : Run.Along (step sampleConfig) (PortSafe sampleConfig) new
      [sampleRequest "a" .tcp 6000 none, sampleRequest "b" .udp 6000 none,
        .newProxy sampleSurroundings (sampleMessage "c" .stcp 0 none) "q" 2,
        .closeProxy "r" "b", .disconnect 0 "q" 2] := by
    decide +kernel
  exact ⟨hsafe, port_marks_exact hsafe⟩

/-- An STCP proxy declares the port of a live TCP proxy and closes: the mark of the TCP proxy
goes with it. -/
theorem close_frees_live_port :
    ¬ (Run.run (step sampleConfig) new
      [sampleRequest "a" .tcp 6000 none,
        .newProxy sampleSurroundings (sampleMessage "c" .stcp 6000 none) "q" 2,
        .closeProxy "q" "c"]).PortsExact := by
  intro h
  have hget : ((Run.run (step sampleConfig) new
      [sampleRequest "a" .tcp 6000 none,
        .newProxy sampleSurroundings (sampleMessage "c" .stcp 6000 none) "q" 2,
        .closeProxy "q" "c"]).pm.get "a").any
      (fun info => info.proxyType = .tcp && info.remotePort = some 6000) = true := by
    decide +kernel
  obtain ⟨info, hinfo, htest⟩ := (Option.any_eq_true _ _).mp hget
  simp only [Bool.and_eq_true, decide_eq_true_eq] at htest
  have hmarked := (h.1 6000).mpr ⟨by decide, "a", info, hinfo, htest⟩
  have hfree : (6000 : UInt16) ∉ (Run.run (step sampleConfig) new
      [sampleRequest "a" .tcp 6000 none,
        .newProxy sampleSurroundings (sampleMessage "c" .stcp 6000 none) "q" 2,
        .closeProxy "q" "c"]).usedPorts := by
    decide +kernel
  exact hfree hmarked

end AppState
end Server
end FrpRs
