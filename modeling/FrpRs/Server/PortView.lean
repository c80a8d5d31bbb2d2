import FrpRs.Server.RegistryCalls
import FrpRs.Server.Teardown

/-!
# The ports of the server

The part of the server's state that decides about ports: the registry, the marks, the
reservations and the TCP groups.  For each part of a registration this module says once
what it does to that.
-/

namespace FrpRs
namespace Server

/-- A condition on the port of an entry is tested there, not over all ports. -/
instance (priority := 2000) decidableForallPort {P : UInt16 -> Prop} [DecidablePred P]
    (port : Option UInt16) : Decidable (forall p, p ∈ port -> P p) :=
  Option.decidableForallMem port

structure PortView where
  pm : ProxyManager
  usedPorts : Finset UInt16
  usedUdpPorts : Finset UInt16
  portReservations : Table String Reservation
  tcpGroups : Table String TcpGroupEntry

namespace AppState

def ports (s : AppState) : PortView where
  pm := s.pm
  usedPorts := s.usedPorts
  usedUdpPorts := s.usedUdpPorts
  portReservations := s.portReservations
  tcpGroups := s.tcpGroups

/-!
## Steps beside the ports
-/

@[simp] theorem ports_releaseClientPorts (s : AppState) (runId : String) (n : Nat) :
    (s.releaseClientPorts runId n).ports = s.ports := by
  unfold releaseClientPorts
  split <;> rfl

@[simp] theorem ports_rollbackClientPort (s : AppState) (runId : String) :
    (s.rollbackClientPort runId).ports = s.ports := by
  unfold rollbackClientPort
  split <;> rfl

@[simp] theorem ports_countClientPort (s : AppState) (runId : String) :
    (s.countClientPort runId).ports = s.ports := rfl

@[simp] theorem ports_registerSkIndex (s : AppState) (np : NewProxy) :
    (s.registerSkIndex np).1.ports = s.ports := by
  unfold registerSkIndex
  split <;> rfl

@[simp] theorem ports_releaseSkIndex (s : AppState) (p : ProxyInfo) :
    (s.releaseSkIndex p).ports = s.ports := by
  unfold releaseSkIndex
  split <;> rfl

@[simp] theorem ports_releaseVhostRoute (s : AppState) (p : ProxyInfo) :
    (s.releaseVhostRoute p).ports = s.ports := by
  unfold releaseVhostRoute
  split <;> rfl

@[simp] theorem ports_releaseTcpMuxRoute (s : AppState) (p : ProxyInfo) :
    (s.releaseTcpMuxRoute p).ports = s.ports := by
  unfold releaseTcpMuxRoute
  split <;> rfl

@[simp] theorem ports_releaseRoutes (s : AppState) (p : ProxyInfo) :
    (s.releaseRoutes p).ports = s.ports := by
  rw [releaseRoutes, ports_releaseTcpMuxRoute, ports_releaseVhostRoute]

variable {s s' : AppState}

theorem pm_of_ports (h : s.ports = s'.ports) : s.pm = s'.pm :=
  congrArg PortView.pm h

theorem usedPorts_of_ports (h : s.ports = s'.ports) :
    s.usedPorts = s'.usedPorts :=
  congrArg PortView.usedPorts h

/-- Routes are in other tables.  A proxy whose route is refused leaves. -/
def RoutesPorts (np : NewProxy) (s : AppState) (r : AppState × Option Reply) : Prop :=
  match r.2 with
  | none => r.1.ports = s.ports
  | some _ => r.1.ports = (s.removeEntry np.proxyName).ports ∧ np.proxyType.consumesPort = false

section Routes

variable {cfg : ServerConfig} {env : Surroundings} {np : NewProxy} {runId : String}
variable {port : UInt16} {route : VhostRoute} {domains : List String}

theorem registerOwnRoute_ports (hplain : np.proxyType.consumesPort = false) :
    RoutesPorts np s (s.registerOwnRoute cfg np runId port route domains) := by
  unfold registerOwnRoute
  split
  · exact rfl
  · exact ⟨rfl, hplain⟩

theorem registerSharedRoute_ports {scheme : Scheme} {group : String}
    {joined : Except String (HttpGroups × Bool)} (hplain : np.proxyType.consumesPort = false) :
    RoutesPorts np s
      (s.registerSharedRoute cfg np runId port scheme group route domains joined) := by
  unfold registerSharedRoute
  split
  · exact ⟨rfl, hplain⟩
  · exact rfl
  · dsimp only
    split
    · exact rfl
    · exact ⟨rfl, hplain⟩

theorem registerRoutes_ports {r : AppState × Option Reply}
    (h : s.registerRoutes cfg env np runId port = r) : RoutesPorts np s r := by
  rw [← h]
  unfold registerRoutes
  split
  · rename_i htype
    split
    · exact ⟨rfl, by rw [htype]; rfl⟩
    · exact rfl
  · rename_i htype
    have hplain : np.proxyType.consumesPort = false := by rw [htype]; rfl
    unfold registerHttpVhost
    split
    · exact ⟨rfl, hplain⟩
    · dsimp only
      split
      · exact registerOwnRoute_ports hplain
      · split
        · exact ⟨rfl, hplain⟩
        · exact registerSharedRoute_ports hplain
  · rename_i htype
    have hplain : np.proxyType.consumesPort = false := by rw [htype]; rfl
    unfold registerHttpsVhost
    split
    · exact ⟨rfl, hplain⟩
    · split
      · exact registerOwnRoute_ports hplain
      · dsimp only
        split
        · exact ⟨rfl, hplain⟩
        · exact registerSharedRoute_ports hplain
  · rename_i htype
    have hplain : np.proxyType.consumesPort = false := by rw [htype]; rfl
    unfold registerTcpMuxProxy
    split
    · exact ⟨rfl, hplain⟩
    · split
      · unfold registerTcpMuxRoute
        split
        · exact rfl
        · exact ⟨rfl, hplain⟩
      · split
        · exact ⟨rfl, hplain⟩
        · split
          · exact ⟨rfl, hplain⟩
          · exact rfl
          · split
            · exact rfl
            · exact ⟨rfl, hplain⟩
  · exact rfl

end Routes

/-!
## Allocation
-/

/-- The allocator touches marks, and reservations only to drop them. -/
structure Allocates (s s' : AppState) : Prop where
  frame : s' = { s with
    usedPorts := s'.usedPorts
    usedUdpPorts := s'.usedUdpPorts
    portReservations := s'.portReservations }
  reservations : forall n r, s'.portReservations.lookup n = some r ->
    s.portReservations.lookup n = some r

def PortSource (env : Surroundings) (s : AppState) (name : String) (remotePort p : UInt16) :
    Prop :=
  (0 < remotePort ∧ p = remotePort) ∨
  (remotePort = 0 ∧ ((exists r, s.portReservations.lookup name = some r ∧ r.port = p) ∨
    p ∈ env.allowPorts.flatMap PortsRange.iter))

theorem Allocates.refl (s : AppState) : s.Allocates s :=
  ⟨rfl, fun _ _ h => h⟩

theorem reservedPort_spec (s : AppState) (env : Surroundings) (isUdp : Bool) (name : String) :
    s.Allocates (s.reservedPort env isUdp name).1 ∧
      (s.reservedPort env isUdp name).1.usedPorts = s.usedPorts ∧
      (s.reservedPort env isUdp name).1.usedUdpPorts = s.usedUdpPorts ∧
      forall p, (s.reservedPort env isUdp name).2 = some p ->
        exists r, s.portReservations.lookup name = some r ∧ r.port = p := by
  unfold reservedPort
  split
  · refine ⟨Allocates.refl s, rfl, rfl, ?_⟩
    intro p hp
    cases hp
  · rename_i r hr
    obtain ⟨hlookup, _⟩ := Option.filter_eq_some_iff.mp hr
    split
    · refine ⟨⟨rfl, ?_⟩, rfl, rfl, ?_⟩
      · intro n r' hn
        rw [dropReservation, Table.lookup_erase_eq] at hn
        split at hn
        · cases hn
        · exact hn
      · intro p hp
        cases hp
    · refine ⟨Allocates.refl s, rfl, rfl, ?_⟩
      intro p hp
      cases hp
      exact ⟨r, hlookup, rfl⟩

theorem Allocates.markUdp (h : s.Allocates s') (p : UInt16) :
    s.Allocates (s'.markUdp p) := by
  refine ⟨?_, h.reservations⟩
  rw [h.frame]
  rfl

theorem Allocates.markTcp (h : s.Allocates s') (p : UInt16) :
    s.Allocates (s'.markTcp p) := by
  refine ⟨?_, h.reservations⟩
  rw [h.frame]
  rfl

theorem or_filter_eq_some {first second : Option UInt16} {ok : UInt16 -> Bool} {p : UInt16}
    (h : (first.filter ok).or second = some p) :
    (first = some p ∧ ok p = true) ∨ second = some p := by
  rcases Option.or_eq_some_iff.mp h with hfirst | ⟨_, hsecond⟩
  · exact .inl (Option.filter_eq_some_iff.mp hfirst)
  · exact .inr hsecond

/-- The outcome of an allocation from one of the two sets of marks. -/
structure AllocatesUdp (env : Surroundings) (s : AppState) (name : String) (isSudp : Bool)
    (remotePort : UInt16) (r : AppState × Except PortError UInt16) : Prop where
  allocates : s.Allocates r.1
  tcp_same : r.1.usedPorts = s.usedPorts
  refused : forall e, r.2 = .error e -> r.1.usedUdpPorts = s.usedUdpPorts
  marked : forall p, r.2 = .ok p -> r.1.usedUdpPorts = insert p s.usedUdpPorts
  fresh : forall p, r.2 = .ok p -> isSudp = false -> p ∉ s.usedUdpPorts
  source : forall p, r.2 = .ok p -> PortSource env s name remotePort p

theorem allocateUdpPort_spec (env : Surroundings) (s : AppState) (name : String) (isSudp : Bool)
    (remotePort : UInt16) :
    AllocatesUdp env s name isSudp remotePort (s.allocateUdpPort env name isSudp remotePort) := by
  unfold allocateUdpPort
  split
  · rename_i hpos
    split
    · rename_i hused
      cases isSudp with
      | false =>
        refine ⟨Allocates.refl s, rfl, fun _ _ => rfl, ?_, ?_, ?_⟩
        · intro p hp
          cases hp
        · intro p hp
          cases hp
        · intro p hp
          cases hp
      | true =>
        refine ⟨Allocates.refl s, rfl, fun _ _ => rfl, ?_, ?_, ?_⟩
        · intro p hp
          cases hp
          exact (Finset.insert_eq_of_mem hused).symm
        · intro p _ hsudp
          cases hsudp
        · intro p hp
          cases hp
          exact .inl ⟨hpos, rfl⟩
    · rename_i hfree
      split
      · refine ⟨Allocates.refl s, rfl, fun _ _ => rfl, ?_, ?_, ?_⟩
        · intro p hp
          cases hp
        · intro p hp
          cases hp
        · intro p hp
          cases hp
      · refine ⟨(Allocates.refl s).markUdp _, rfl, ?_, ?_, ?_, ?_⟩
        · intro e he
          cases he
        · intro p hp
          cases hp
          rfl
        · intro p hp _
          cases hp
          exact hfree
        · intro p hp
          cases hp
          exact .inl ⟨hpos, rfl⟩
  · rename_i hzero
    have hport : remotePort = 0 := by
      have hle : ¬ (0 : UInt16) < remotePort := hzero
      exact UInt16.le_zero_iff.mp (UInt16.not_lt.mp hle)
    obtain ⟨halloc, htcp, hudp, hreserved⟩ := s.reservedPort_spec env true name
    dsimp only
    split
    · rename_i p hsome
      have hcases := or_filter_eq_some hsome
      refine ⟨halloc.markUdp _, htcp, ?_, ?_, ?_, ?_⟩
      · intro e he
        cases he
      · intro p' hp
        cases hp
        show insert p _ = insert p s.usedUdpPorts
        rw [hudp]
      · intro p' hp _
        cases hp
        rw [← hudp]
        rcases hcases with ⟨_, hok⟩ | hscan
        · simp only [Bool.and_eq_true, decide_eq_true_eq] at hok
          exact hok.1
        · have hok := List.find?_some hscan
          simp only [Bool.and_eq_true, decide_eq_true_eq] at hok
          exact hok.1
      · intro p' hp
        cases hp
        refine .inr ⟨hport, ?_⟩
        rcases hcases with ⟨hfirst, _⟩ | hscan
        · exact .inl (hreserved p hfirst)
        · exact .inr (List.mem_of_find?_eq_some hscan)
    · refine ⟨halloc, htcp, fun _ _ => hudp, ?_, ?_, ?_⟩
      · intro p hp
        cases hp
      · intro p hp
        cases hp
      · intro p hp
        cases hp

structure AllocatesTcp (env : Surroundings) (s : AppState) (name : String)
    (remotePort : UInt16) (r : AppState × Except PortError UInt16) : Prop where
  allocates : s.Allocates r.1
  udp_same : r.1.usedUdpPorts = s.usedUdpPorts
  refused : forall e, r.2 = .error e -> r.1.usedPorts = s.usedPorts
  marked : forall p, r.2 = .ok p -> r.1.usedPorts = insert p s.usedPorts
  fresh : forall p, r.2 = .ok p -> p ∉ s.usedPorts
  source : forall p, r.2 = .ok p -> PortSource env s name remotePort p

/-- The candidate is free, and nothing is marked for it yet. -/
theorem tcpCandidate_spec (env : Surroundings) (attempt : Nat) (s : AppState) (name : String)
    (remotePort : UInt16) :
    s.Allocates (s.tcpCandidate env attempt name remotePort).1 ∧
      (s.tcpCandidate env attempt name remotePort).1.usedPorts = s.usedPorts ∧
      (s.tcpCandidate env attempt name remotePort).1.usedUdpPorts = s.usedUdpPorts ∧
      forall p, (s.tcpCandidate env attempt name remotePort).2 = .ok p ->
        p ∉ s.usedPorts ∧ PortSource env s name remotePort p := by
  unfold tcpCandidate
  split
  · rename_i hzero
    obtain ⟨halloc, htcp, hudp, hreserved⟩ := s.reservedPort_spec env false name
    dsimp only
    split
    · rename_i p hsome
      have hcases := or_filter_eq_some hsome
      refine ⟨halloc, htcp, hudp, ?_⟩
      intro p' hp
      cases hp
      rcases hcases with ⟨hfirst, hok⟩ | hpick
      · simp only [Bool.and_eq_true, decide_eq_true_eq] at hok
        exact ⟨htcp ▸ hok.1, .inr ⟨hzero, .inl (hreserved p hfirst)⟩⟩
      · have hmem := List.mem_of_mem_take (List.mem_of_find?_eq_some hpick)
        obtain ⟨hrange, hfree⟩ := List.mem_filter.mp hmem
        exact ⟨htcp ▸ of_decide_eq_true hfree, .inr ⟨hzero, .inr hrange⟩⟩
    · refine ⟨halloc, htcp, hudp, ?_⟩
      intro p hp
      cases hp
  · rename_i hne
    split
    · refine ⟨Allocates.refl s, rfl, rfl, ?_⟩
      intro p hp
      cases hp
    · rename_i hfree
      split
      · refine ⟨Allocates.refl s, rfl, rfl, ?_⟩
        intro p hp
        cases hp
      · split
        · refine ⟨Allocates.refl s, rfl, rfl, ?_⟩
          intro p hp
          cases hp
        · refine ⟨Allocates.refl s, rfl, rfl, ?_⟩
          intro p hp
          cases hp
          exact ⟨hfree, .inl ⟨UInt16.pos_iff_ne_zero.mpr hne, rfl⟩⟩

theorem allocateTcpPort_spec (env : Surroundings) (attempt : Nat) (s : AppState) (name : String)
    (remotePort : UInt16) :
    AllocatesTcp env s name remotePort (s.allocateTcpPort env attempt name remotePort) := by
  obtain ⟨halloc, htcp, hudp, hok⟩ := s.tcpCandidate_spec env attempt name remotePort
  unfold allocateTcpPort
  split
  · rename_i s1 e hcand
    rw [hcand] at halloc htcp hudp
    refine ⟨halloc, hudp, fun _ _ => htcp, ?_, ?_, ?_⟩
    · intro p hp
      cases hp
    · intro p hp
      cases hp
    · intro p hp
      cases hp
  · rename_i s1 p hcand
    rw [hcand] at halloc htcp hudp hok
    obtain ⟨hfree, hsource⟩ := hok p rfl
    have hfree1 : p ∉ s1.usedPorts := by
      rw [show s1.usedPorts = s.usedPorts from htcp]
      exact hfree
    unfold commitTcpPort
    rw [if_neg hfree1]
    refine ⟨halloc.markTcp p, hudp, ?_, ?_, ?_, ?_⟩
    · intro e he
      cases he
    · intro p' hp
      cases hp
      show insert p s1.usedPorts = _
      rw [show s1.usedPorts = s.usedPorts from htcp]
    · intro p' hp
      cases hp
      exact hfree
    · intro p' hp
      cases hp
      exact hsource

/-!
## The entry
-/

def takenOver (s : AppState) (np : NewProxy) (runId : String) (controlId : Nat) :
    Option ProxyInfo :=
  (s.pm.get np.proxyName).filter fun old =>
    np.proxyType.replaceable && ProxyManager.qualified old runId (np.proxyInfo runId controlId 0)

def nameTaken (s : AppState) (np : NewProxy) (runId : String) (controlId : Nat) : Bool :=
  (s.pm.get np.proxyName).isSome && (s.takenOver np runId controlId).isNone

def freeReplaced (s : AppState) (now : Nat) (port : UInt16) : Option ProxyInfo -> AppState
  | none => s
  | some old => s.freeReplacedPort now old port

variable {port : UInt16}

theorem registerInfo_registered {np : NewProxy} {runId : String} {controlId : Nat}
    {pm' : ProxyManager} {replaced : Option ProxyInfo}
    (h : s.registerInfo (np.proxyInfo runId controlId port) = .ok (pm', replaced)) :
    replaced = s.takenOver np runId controlId ∧
      s.nameTaken np runId controlId = false ∧
      s.pm.Registered (np.proxyInfo runId controlId port) pm' replaced := by
  unfold registerInfo at h
  split at h
  · rename_i hreplaceable
    have hregistered := ProxyManager.registerOrReplace_registered h
    have hreplaced : replaced = s.pm.get np.proxyName := hregistered.replaced_eq
    cases hget : s.pm.get np.proxyName with
    | none =>
      rw [hget] at hreplaced
      refine ⟨?_, ?_, hregistered⟩
      · rw [takenOver, hget, hreplaced]
        rfl
      · rw [nameTaken, hget]
        rfl
    | some old =>
      rw [hget] at hreplaced
      have hqualified := hregistered.qualified old hreplaced
      have htaken : s.takenOver np runId controlId = some old := by
        rw [takenOver, hget, Option.filter_eq_some_iff]
        refine ⟨rfl, ?_⟩
        rw [Bool.and_eq_true]
        exact ⟨hreplaceable, hqualified⟩
      refine ⟨?_, ?_, hregistered⟩
      · rw [htaken, hreplaced]
      · rw [nameTaken, htaken]
        simp
  · cases hregister : s.pm.register (np.proxyInfo runId controlId port) with
    | error e =>
      rw [hregister] at h
      cases h
    | ok pm =>
      rw [hregister] at h
      cases h
      obtain ⟨hregistered, hnone⟩ := ProxyManager.register_registered hregister
      have hget : s.pm.get np.proxyName = none := hnone
      refine ⟨?_, ?_, hregistered⟩
      · rw [takenOver, hget]
        rfl
      · rw [nameTaken, hget]
        rfl

theorem registerInfo_error {np : NewProxy} {runId : String} {controlId : Nat} {e : String}
    (h : s.registerInfo (np.proxyInfo runId controlId port) = .error e) :
    s.nameTaken np runId controlId = true := by
  unfold registerInfo at h
  split at h
  · unfold ProxyManager.registerOrReplace at h
    split at h
    · rename_i herror
      obtain ⟨old, hget, hnot⟩ := ProxyManager.registerInner_error herror
      have hname : s.pm.get np.proxyName = some old := hget
      have hq : ProxyManager.qualified old runId (np.proxyInfo runId controlId 0) = false := hnot
      rw [nameTaken, takenOver, hname]
      simp [Option.filter, hq]
    · cases h
  · rename_i hnot
    cases hregister : s.pm.register (np.proxyInfo runId controlId port) with
    | ok pm =>
      rw [hregister] at h
      cases h
    | error e' =>
      unfold ProxyManager.register at hregister
      split at hregister
      · rename_i herror
        obtain ⟨old, hget, _⟩ := ProxyManager.registerInner_error herror
        have hname : s.pm.get np.proxyName = some old := hget
        have hr : np.proxyType.replaceable = false := Bool.eq_false_iff.mpr hnot
        rw [nameTaken, takenOver, hname]
        simp [Option.filter, hr]
      · cases hregister

theorem registerSkIndex_registerInfo (s : AppState) (np : NewProxy) (info : ProxyInfo) :
    (s.registerSkIndex np).1.registerInfo info = s.registerInfo info := by
  unfold registerInfo
  rw [pm_of_ports (ports_registerSkIndex s np)]

theorem ports_freeReplacedPort_congr (h : s.ports = s'.ports) (now : Nat) (old : ProxyInfo)
    (port : UInt16) :
    (s.freeReplacedPort now old port).ports = (s'.freeReplacedPort now old port).ports := by
  cases s
  cases s'
  cases h
  unfold freeReplacedPort udpPortHasOtherOwner unmarkTcp reserve
  dsimp only
  split
  · rfl
  · split
    · rfl
    · split
      · split
        · rfl
        · rfl
      · split
        · split
          · rfl
          · rfl
        · rfl

theorem ports_releaseReplaced (s : AppState) (env : Surroundings) (runId : String)
    (port : UInt16) (replaced : Option ProxyInfo) :
    (s.releaseReplaced env runId port replaced).ports =
      (s.freeReplaced env.now port replaced).ports := by
  cases replaced with
  | none => rfl
  | some old =>
    apply ports_freeReplacedPort_congr
    split
    · rw [ports_releaseClientPorts]
    · rfl

theorem ports_rollbackPortAllocation (s : AppState) (name : String) (port : UInt16)
    (isUdp b : Bool) :
    (s.rollbackPortAllocation name port isUdp b).ports =
      { s.ports with
        usedPorts := s.usedPorts.erase port
        usedUdpPorts :=
          if isUdp && !s.udpPortHasOtherOwner port [] then s.usedUdpPorts.erase port
          else s.usedUdpPorts } := by
  have hrest : forall skIndex : Table String String,
      (if isUdp && !s.udpPortHasOtherOwner port [] then
        (({ s with skIndex := skIndex } : AppState).unmarkTcp port).unmarkUdp port
      else ({ s with skIndex := skIndex } : AppState).unmarkTcp port).ports =
      { s.ports with
        usedPorts := s.usedPorts.erase port
        usedUdpPorts :=
          if isUdp && !s.udpPortHasOtherOwner port [] then s.usedUdpPorts.erase port
          else s.usedUdpPorts } := by
    intro skIndex
    cases isUdp && !s.udpPortHasOtherOwner port [] with
    | false => rfl
    | true => rfl
  cases b with
  | false => exact hrest s.skIndex
  | true => exact hrest (s.skIndex.erase name)

/-- A registration is refused for its name, or writes its entry and frees what the entry
before it held. -/
theorem registerProxyEntry_cases (env : Surroundings) (s : AppState) (np : NewProxy)
    (runId : String) (controlId : Nat) (port : UInt16) :
    (exists s' e, s.registerProxyEntry env np runId controlId port = (s', some e) ∧
      s.nameTaken np runId controlId = true ∧
      s'.ports = { s.ports with
        usedPorts := s.usedPorts.erase port
        usedUdpPorts :=
          if np.proxyType.isUdp && !s.udpPortHasOtherOwner port [] then s.usedUdpPorts.erase port
          else s.usedUdpPorts }) ∨
    exists s' pm', s.registerProxyEntry env np runId controlId port = (s', none) ∧
      s.nameTaken np runId controlId = false ∧
      s.pm.Registered (np.proxyInfo runId controlId port) pm' (s.takenOver np runId controlId) ∧
      s'.ports =
        ({ s with pm := pm' }.freeReplaced env.now port (s.takenOver np runId controlId)).ports := by
  unfold registerProxyEntry
  dsimp only
  cases hinfo : s.registerInfo (np.proxyInfo runId controlId port) with
  | error e =>
    rw [registerSkIndex_registerInfo, hinfo]
    refine .inl ⟨_, e, rfl, registerInfo_error hinfo, ?_⟩
    rw [ports_rollbackPortAllocation]
    unfold registerSkIndex
    split <;> rfl
  | ok r =>
    obtain ⟨pm', replaced⟩ := r
    obtain ⟨hreplaced, hfree, hregistered⟩ := registerInfo_registered hinfo
    rw [registerSkIndex_registerInfo, hinfo]
    refine .inr ⟨_, pm', rfl, hfree, hreplaced ▸ hregistered, ?_⟩
    rw [← hreplaced]
    have hports : ({ (s.registerSkIndex np).1 with pm := pm' } : AppState).ports =
        ({ s with pm := pm' } : AppState).ports := by
      unfold registerSkIndex
      split <;> rfl
    have hrelease := ports_releaseReplaced { (s.registerSkIndex np).1 with pm := pm' } env
      runId port replaced
    have hcongr : ({ (s.registerSkIndex np).1 with pm := pm' }.freeReplaced env.now port
        replaced).ports = ({ s with pm := pm' }.freeReplaced env.now port replaced).ports := by
      cases replaced with
      | none => exact hports
      | some old => exact ports_freeReplacedPort_congr hports _ _ _
    split
    · rw [ports_countClientPort, hrelease, hcongr]
    · rw [hrelease, hcongr]

theorem registerProxyEntry_taken {env : Surroundings} {np : NewProxy} {runId e : String}
    {controlId : Nat} (h : s.registerProxyEntry env np runId controlId port = (s', some e)) :
    s.nameTaken np runId controlId = true ∧
      s'.ports = { s.ports with
        usedPorts := s.usedPorts.erase port
        usedUdpPorts :=
          if np.proxyType.isUdp && !s.udpPortHasOtherOwner port [] then s.usedUdpPorts.erase port
          else s.usedUdpPorts } := by
  rcases s.registerProxyEntry_cases env np runId controlId port with
    ⟨_, _, heq, hspec⟩ | ⟨_, _, heq, _⟩
  · cases h.symm.trans heq
    exact hspec
  · cases h.symm.trans heq

theorem registerProxyEntry_entered {env : Surroundings} {np : NewProxy} {runId : String}
    {controlId : Nat} (h : s.registerProxyEntry env np runId controlId port = (s', none)) :
    exists pm', s.nameTaken np runId controlId = false ∧
      s.pm.Registered (np.proxyInfo runId controlId port) pm' (s.takenOver np runId controlId) ∧
      s'.ports =
        ({ s with pm := pm' }.freeReplaced env.now port (s.takenOver np runId controlId)).ports := by
  rcases s.registerProxyEntry_cases env np runId controlId port with
    ⟨_, _, heq, _⟩ | ⟨_, pm', heq, hspec⟩
  · cases h.symm.trans heq
  · cases h.symm.trans heq
    exact ⟨pm', hspec⟩

theorem allocateProxyPort_allocates {cfg : ServerConfig} {env : Surroundings} {attempt : Nat}
    {name : String} {type : ProxyType} {remotePort : UInt16} {r : Except PortError UInt16}
    (h : s.allocateProxyPort cfg env attempt name type remotePort = (s', r)) : s.Allocates s' := by
  rw [show s' = (s.allocateProxyPort cfg env attempt name type remotePort).1 by rw [h]]
  unfold allocateProxyPort
  split
  · exact Allocates.refl s
  · split
    · exact (s.allocateUdpPort_spec env name _ _).allocates
    · exact (s.allocateTcpPort_spec env attempt name _).allocates

theorem Allocates.pm_eq (h : s.Allocates s') : s'.pm = s.pm := by
  rw [h.frame]

theorem Allocates.tcpGroups_eq (h : s.Allocates s') :
    s'.tcpGroups = s.tcpGroups := by
  rw [h.frame]

theorem Allocates.clientPortsUsed_eq (h : s.Allocates s') :
    s'.clientPortsUsed = s.clientPortsUsed := by
  rw [h.frame]

theorem Allocates.skIndex_eq (h : s.Allocates s') :
    s'.skIndex = s.skIndex := by
  rw [h.frame]

theorem Allocates.vhost_eq (h : s.Allocates s') :
    s'.vhost = s.vhost := by
  rw [h.frame]

theorem Allocates.httpGroups_eq (h : s.Allocates s') :
    s'.httpGroups = s.httpGroups := by
  rw [h.frame]

theorem Allocates.tcpmux_eq (h : s.Allocates s') :
    s'.tcpmux = s.tcpmux := by
  rw [h.frame]

theorem Allocates.tcpmuxGroups_eq (h : s.Allocates s') :
    s'.tcpmuxGroups = s.tcpmuxGroups := by
  rw [h.frame]

theorem ports_rollbackTcpBindFailure (s : AppState) (runId : String) (port : UInt16)
    (name : String) :
    (s.rollbackTcpBindFailure runId port name).ports =
      ((s.unmarkTcp port).removeEntry name).ports := by
  unfold rollbackTcpBindFailure rollbackClientPort
  split <;> rfl

theorem ports_rollbackUdpBindFailure (s : AppState) (runId : String) (port : UInt16)
    (name : String) :
    (s.rollbackUdpBindFailure runId port name).ports =
      ((s.unmarkUdp port).removeEntry name).ports := by
  unfold rollbackUdpBindFailure rollbackClientPort
  split <;> rfl

theorem freeReplacedPort_pm (s : AppState) (now : Nat) (old : ProxyInfo) (port : UInt16) :
    (s.freeReplacedPort now old port).pm = s.pm := by
  unfold freeReplacedPort
  split
  · rfl
  · split
    · rfl
    · split
      · dsimp only
        split
        · split <;> rfl
        · rfl
      · split
        · split <;> rfl
        · rfl

theorem freeReplaced_pm (s : AppState) (now : Nat) (port : UInt16) (replaced : Option ProxyInfo) :
    (s.freeReplaced now port replaced).pm = s.pm := by
  cases replaced with
  | none => rfl
  | some old => exact s.freeReplacedPort_pm now old port

/-!
## A rule for messages

What holds after a message follows from what each of its parts does.  `Entered` is said of
the state once the entry is written, `Routed` once the routes are, and `Done` of the state
at the end and the answer.
-/

section Rule

variable {cfg : ServerConfig} {env : Surroundings} {np : NewProxy} {runId : String}
variable {controlId : Nat} {Entered Routed : UInt16 -> AppState -> Prop}
variable {Done : AppState -> Reply -> Prop}

/-- The attempts of a TCP proxy to bind a port.  A further attempt starts without an entry
of the name. -/
theorem bindTcpProxyWithRetry_rule
    (listening : forall port s, Routed port s -> Done s (.accepted port))
    (undone : forall port s text, Routed port s ->
      Done (s.rollbackTcpBindFailure runId port np.proxyName) (.rejected text))
    (again : forall port s attempt s1 r, Routed port s -> np.remotePort.getD 0 = 0 ->
      ((s.rollbackTcpBindFailure runId port np.proxyName).dropReservation
        np.proxyName).allocateProxyPort cfg env attempt np.proxyName .tcp 0 = (s1, r) ->
      s1.pm.get np.proxyName = none ->
      (forall e, r = .error e -> Done s1 (.rejected e.clientText)) ∧
      forall p s2, r = .ok p -> s1.registerProxyEntry env np runId controlId p = (s2, none) ->
        Routed p s2)
    (left : Nat) (h : Routed port s) :
    Done (bindTcpProxyWithRetry cfg env np runId controlId left s port).1
      (bindTcpProxyWithRetry cfg env np runId controlId left s port).2 := by
  induction left generalizing s port with
  | zero =>
    unfold bindTcpProxyWithRetry
    split
    · exact listening port s h
    · exact undone port s _ h
  | succ left ih =>
    unfold bindTcpProxyWithRetry
    split
    · exact listening port s h
    · dsimp only
      split
      · rename_i hretry
        cases halloc : ((s.rollbackTcpBindFailure runId port np.proxyName).dropReservation
            np.proxyName).allocateProxyPort cfg env (attemptNumber left) np.proxyName .tcp 0
          with
        | mk s1 r =>
          have hpm : s1.pm = (s.pm.remove np.proxyName).1 := by
            rw [(allocateProxyPort_allocates halloc).pm_eq]
            exact pm_of_ports (ports_rollbackTcpBindFailure s runId port np.proxyName)
          have hgone : s1.pm.get np.proxyName = none := by
            rw [hpm, ProxyManager.get_remove, if_pos rfl]
          obtain ⟨hrefused, hentered⟩ := again port s _ s1 r h hretry.1 halloc hgone
          cases r with
          | error e => exact hrefused e rfl
          | ok p =>
            dsimp only
            rcases s1.registerProxyEntry_cases env np runId controlId p with
              ⟨s2, e, heq, htaken, _⟩ | ⟨s2, pm', heq, _⟩
            · rw [nameTaken, hgone] at htaken
              cases htaken
            · rw [heq]
              exact ih (hentered p s2 rfl heq)
      · exact undone port s _ h

theorem createTcpGroup_rule
    (fresh : forall port s, Routed port s -> s.tcpGroups.lookup (np.group.getD "") = none)
    (created : forall port s, Routed port s ->
      Done { s with
        tcpGroups := s.tcpGroups.insert (np.group.getD "")
          ⟨port, np.declaredPort, np.groupKey.getD "", cfg.proxyBindAddr⟩ } (.accepted port))
    (undone : forall port s text, Routed port s ->
      Done (s.rollbackTcpBindFailure runId port np.proxyName) (.rejected text)) (h : Routed port s) :
    Done (createTcpGroup cfg env s np runId controlId port).1
      (createTcpGroup cfg env s np runId controlId port).2 := by
  have hgroups : (s.rollbackTcpBindFailure runId port np.proxyName).tcpGroups = s.tcpGroups :=
    congrArg PortView.tcpGroups (ports_rollbackTcpBindFailure s runId port np.proxyName)
  have hquery : (s.rollbackTcpBindFailure runId port np.proxyName).groupQuery cfg np =
      .notFound := by
    unfold groupQuery getGroupPort
    rw [hgroups, fresh port s h]
  unfold createTcpGroup
  dsimp only
  split
  · split
    · unfold joinInstead
      rw [hquery]
      exact undone port s _ h
    · exact undone port s _ h
  · unfold createGroup
    rw [fresh port s h]
    exact created port s h

theorem registerNew_rule {s : AppState} {tcpGroupCreated : Bool}
    (noPort : forall s1 e, s.allocateProxyPort cfg env 0 np.proxyName np.proxyType
        np.declaredPort = (s1, .error e) -> Done s1 (.rejected e.clientText))
    (taken : forall s1 s2 port e, s.allocateProxyPort cfg env 0 np.proxyName np.proxyType
        np.declaredPort = (s1, .ok port) ->
      s1.registerProxyEntry env np runId controlId port = (s2, some e) ->
      Done s2 (.rejected (errMsg cfg e "proxy registration conflict")))
    (entered : forall s1 s2 port, s.allocateProxyPort cfg env 0 np.proxyName np.proxyType
        np.declaredPort = (s1, .ok port) ->
      s1.registerProxyEntry env np runId controlId port = (s2, none) -> Entered port s2)
    (routed : forall s1 s2 port, Entered port s1 ->
      s1.registerRoutes cfg env np runId port = (s2, none) -> Routed port s2)
    (unrouted : forall s1 s2 port reply, Entered port s1 ->
      s1.registerRoutes cfg env np runId port = (s2, some reply) -> Done s2 reply)
    (listening : (np.proxyType = .tcp -> tcpGroupCreated = false) ->
      forall port s, Routed port s -> Done s (.accepted port))
    (udpUndone : np.proxyType = .udp -> forall port s text, Routed port s ->
      Done (s.rollbackUdpBindFailure runId port np.proxyName) (.rejected text))
    (undone : np.proxyType = .tcp -> forall port s text, Routed port s ->
      Done (s.rollbackTcpBindFailure runId port np.proxyName) (.rejected text))
    (again : np.proxyType = .tcp -> tcpGroupCreated = false ->
      forall port s attempt s1 r, Routed port s -> np.remotePort.getD 0 = 0 ->
      ((s.rollbackTcpBindFailure runId port np.proxyName).dropReservation
        np.proxyName).allocateProxyPort cfg env attempt np.proxyName .tcp 0 = (s1, r) ->
      s1.pm.get np.proxyName = none ->
      (forall e, r = .error e -> Done s1 (.rejected e.clientText)) ∧
      forall p s2, r = .ok p -> s1.registerProxyEntry env np runId controlId p = (s2, none) ->
        Routed p s2)
    (fresh : tcpGroupCreated = true -> forall port s, Routed port s ->
      s.tcpGroups.lookup (np.group.getD "") = none)
    (created : np.proxyType = .tcp -> tcpGroupCreated = true -> forall port s, Routed port s ->
      Done { s with
        tcpGroups := s.tcpGroups.insert (np.group.getD "")
          ⟨port, np.declaredPort, np.groupKey.getD "", cfg.proxyBindAddr⟩ } (.accepted port)) :
    Done (s.registerNew cfg env np runId controlId tcpGroupCreated).1
      (s.registerNew cfg env np runId controlId tcpGroupCreated).2 := by
  unfold registerNew
  split
  · rename_i s1 e halloc
    exact noPort s1 e halloc
  · rename_i s1 port halloc
    split
    · rename_i s2 e hreg
      exact taken s1 s2 port e halloc hreg
    · rename_i s2 hreg
      have henter := entered s1 s2 port halloc hreg
      split
      · rename_i s3 reply hroutes
        exact unrouted s2 s3 port reply henter hroutes
      · rename_i s3 hroutes
        have hrouted := routed s2 s3 port henter hroutes
        unfold setupProxyListeners
        split
        · rename_i htype
          split
          · apply listening
            · intro htcp
              rw [htype] at htcp
              cases htcp
            · exact hrouted
          · exact udpUndone htype port s3 _ hrouted
        · rename_i htype
          split
          · rename_i hcreated
            exact createTcpGroup_rule (fresh hcreated) (created htype hcreated) (undone htype)
              hrouted
          · rename_i hcreated
            have hplain : tcpGroupCreated = false := Bool.eq_false_iff.mpr hcreated
            exact bindTcpProxyWithRetry_rule (listening (fun _ => hplain)) (undone htype)
              (again htype hplain) _ hrouted
        · rename_i hudp htcp
          exact listening (fun h => absurd h htcp) port s3 hrouted

end Rule

/-- A message that joins a group is refused for its name, or writes its entry. -/
theorem handleTcpGroupMemberRegistration_cases (cfg : ServerConfig) (env : Surroundings)
    (s : AppState) {np : NewProxy} (runId : String) (controlId : Nat) (port : UInt16)
    (htype : np.proxyType = .tcp) :
    (exists s' text,
      s.handleTcpGroupMemberRegistration cfg env np runId controlId port =
        (s', .rejected text) ∧
      s.nameTaken np runId controlId = true ∧
      s'.ports = { s.ports with usedPorts := s.usedPorts.erase port }) ∨
    exists s' pm',
      s.handleTcpGroupMemberRegistration cfg env np runId controlId port =
        (s', .accepted port) ∧
      s.nameTaken np runId controlId = false ∧
      s.pm.Registered (np.proxyInfo runId controlId port) pm' (s.takenOver np runId controlId) ∧
      s'.ports =
        ({ s with pm := pm' }.freeReplaced env.now port (s.takenOver np runId controlId)).ports := by
  have hinfo : s.registerInfo (np.proxyInfo runId controlId port) =
      s.pm.registerOrReplace (np.proxyInfo runId controlId port) := by
    unfold registerInfo
    rw [if_pos]
    show np.proxyType.replaceable = true
    rw [htype]
    rfl
  unfold handleTcpGroupMemberRegistration
  split
  · rename_i e herror
    rw [← hinfo] at herror
    exact .inl ⟨_, _, rfl, registerInfo_error herror, rfl⟩
  · rename_i pm' replaced hok
    rw [← hinfo] at hok
    obtain ⟨hreplaced, hfree, hregistered⟩ := registerInfo_registered hok
    refine .inr ⟨_, pm', rfl, hfree, hreplaced ▸ hregistered, ?_⟩
    rw [ports_countClientPort, ← hreplaced]
    cases replaced with
    | none => rfl
    | some old =>
      apply ports_freeReplacedPort_congr
      split
      · rw [ports_releaseClientPorts]
      · rfl

end AppState
end Server
end FrpRs
