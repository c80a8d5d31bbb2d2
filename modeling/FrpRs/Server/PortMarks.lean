import FrpRs.Server.TcpGroups

/-!
# Port marks

`used_ports` and `used_udp_ports` record which ports the live proxies hold.  A mark is set
by the allocator and by a group join, and removed by closes, sweeps, takeovers and rollbacks
that go by the port in an entry, whatever the type of the proxy.

`PortSafe` says which requests remove no mark of another proxy by that.
-/

namespace FrpRs
namespace Server

open Ledger

namespace ProxyInfo

def HoldsTcp (p : ProxyInfo) (port : UInt16) : Prop :=
  p.proxyType = .tcp ∧ p.remotePort = some port

def HoldsUdp (p : ProxyInfo) (port : UInt16) : Prop :=
  p.proxyType.isUdp = true ∧ p.remotePort = some port

instance (p : ProxyInfo) (port : UInt16) : Decidable (p.HoldsTcp port) :=
  inferInstanceAs (Decidable (_ ∧ _))

instance (p : ProxyInfo) (port : UInt16) : Decidable (p.HoldsUdp port) :=
  inferInstanceAs (Decidable (_ ∧ _))

variable {p : ProxyInfo}

theorem HoldsTcp.not_isUdp {port : UInt16} (h : p.HoldsTcp port) :
    p.proxyType.isUdp = false := by
  rw [h.1]
  rfl

theorem HoldsTcp.consumesPort {port : UInt16} (h : p.HoldsTcp port) :
    p.proxyType.consumesPort = true := by
  rw [h.1]
  rfl

theorem HoldsUdp.consumesPort {port : UInt16} (h : p.HoldsUdp port) :
    p.proxyType.consumesPort = true := by
  have hudp := h.1
  cases htype : p.proxyType with
  | udp => rfl
  | sudp => rfl
  | _ =>
    rw [htype] at hudp
    cases hudp

theorem not_isTcpGroup_of_isUdp (h : p.proxyType.isUdp = true) :
    p.isTcpGroup = false := by
  rw [isTcpGroup]
  cases htype : p.proxyType with
  | tcp =>
    rw [htype] at h
    cases h
  | _ => rfl

theorem tcp_of_consumesPort (h : p.proxyType.consumesPort = true) (hudp : p.proxyType.isUdp = false) :
    p.proxyType = .tcp := by
  cases htype : p.proxyType with
  | tcp => rfl
  | _ =>
    rw [htype] at h hudp
    cases h <;> cases hudp

end ProxyInfo

namespace AppState

/-- The marks are exact, no proxy holds port zero, and TCP proxies on one port are members
of one group. -/
structure PortsRight (s : AppState) : Prop where
  tcp : Exact ProxyInfo.HoldsTcp s.pm.get fun p => p ∈ s.usedPorts
  udp : Exact ProxyInfo.HoldsUdp s.pm.get fun p => p ∈ s.usedUdpPorts
  nonzero : forall n info, s.pm.get n = some info -> info.proxyType.consumesPort = true ->
    info.remotePort ≠ some 0
  shared : forall n m info info' p, s.pm.get n = some info -> s.pm.get m = some info' ->
    info.HoldsTcp p -> info'.HoldsTcp p -> m ≠ n ->
    exists g, info.InTcpGroup g ∧ info'.InTcpGroup g
  reserved : s.ReservesPorts

theorem portsRight_new : new.PortsRight where
  tcp p := by
    constructor
    · intro h
      cases h
    · rintro ⟨n, info, h, _⟩
      cases h
  udp p := by
    constructor
    · intro h
      cases h
    · rintro ⟨n, info, h, _⟩
      cases h
  nonzero n info h := by cases h
  shared n m info info' p h := by cases h
  reserved n r h := by cases h

theorem PortsRight.congr {s s' : AppState} (hs : s.PortsRight) (hpm : s'.pm = s.pm)
    (hused : s'.usedPorts = s.usedPorts) (hudp : s'.usedUdpPorts = s.usedUdpPorts)
    (hreserved : forall n r, s'.portReservations.lookup n = some r ->
      s.portReservations.lookup n = some r) : s'.PortsRight := by
  refine ⟨?_, ?_, ?_, ?_, ?_⟩
  · rw [hpm, hused]
    exact hs.tcp
  · rw [hpm, hudp]
    exact hs.udp
  · rw [hpm]
    exact hs.nonzero
  · rw [hpm]
    exact hs.shared
  · intro n r hr
    exact hs.reserved n r (hreserved n r hr)

theorem portsRight_of_ports {s s' : AppState} (h : s'.ports = s.ports) (hs : s.PortsRight) :
    s'.PortsRight := by
  apply hs.congr (pm_of_ports h) (usedPorts_of_ports h) (congrArg PortView.usedUdpPorts h)
  intro n r hr
  rw [show s'.portReservations = s.portReservations from
    congrArg PortView.portReservations h] at hr
  exact hr

theorem PortsRight.dropReservation {s : AppState} (hs : s.PortsRight) (name : String) :
    (s.dropReservation name).PortsRight := by
  refine ⟨hs.tcp, hs.udp, hs.nonzero, hs.shared, ?_⟩
  intro n r hr
  rw [AppState.dropReservation, Table.lookup_erase_eq] at hr
  split at hr
  · cases hr
  · exact hs.reserved n r hr

theorem not_mem_usedPorts {s : AppState} (hs : s.PortsRight) {p : UInt16}
    (h : p ∉ s.usedPorts) (n : String) : ¬ HeldBeside ProxyInfo.HoldsTcp s.pm.get n p := by
  intro hbeside
  exact h ((hs.tcp p).mpr hbeside.held)

theorem udpPortHasOtherOwner_iff {s : AppState} (h : s.pm.Indexed) {port : UInt16}
    {exclude : List String} :
    s.udpPortHasOtherOwner port exclude = true ↔
      HeldOutside ProxyInfo.HoldsUdp s.pm.get (fun n => n ∈ exclude) port := by
  unfold udpPortHasOtherOwner
  rw [List.any_eq_true]
  constructor
  · rintro ⟨info, hlist, htest⟩
    simp only [Bool.and_eq_true, decide_eq_true_eq, Bool.not_eq_true', List.contains_eq_mem,
      decide_eq_false_iff_not] at htest
    exact ⟨info.name, info, htest.2, (ProxyManager.mem_list h).mp hlist, htest.1.2, htest.1.1⟩
  · rintro ⟨n, info, hout, hn, hudp, hport⟩
    refine ⟨info, ProxyManager.mem_list_of_get h hn, ?_⟩
    rw [ProxyManager.named_of_get h hn]
    simp [hudp, hport, hout]

/-!
## Freeing the port of a replaced entry
-/

/-- The port of a replaced entry stays marked for a reason, or goes into the reservations. -/
inductive FreesPort (s : AppState) (now : Nat) (old : ProxyInfo) (port : UInt16)
    (s' : AppState) : Prop where
  | kept (hused : s'.usedPorts = s.usedPorts) (hudp : s'.usedUdpPorts = s.usedUdpPorts)
      (hreserved : s'.portReservations = s.portReservations)
      (hwhy : forall q, old.remotePort = some q -> q ≠ 0 ->
        q = port ∨ (old.isTcpGroup = true ∧ s.pm.groupLen (old.group.getD "") ≠ 0) ∨
        (old.proxyType.isUdp = true ∧ s.udpPortHasOtherOwner q [] = true))
  | tcp (q : UInt16) (hq : old.remotePort = some q) (hzero : q ≠ 0) (hne : q ≠ port)
      (hkind : old.proxyType.isUdp = false)
      (hlast : old.isTcpGroup = true -> s.pm.groupLen (old.group.getD "") = 0)
      (hused : s'.usedPorts = s.usedPorts.erase q) (hudp : s'.usedUdpPorts = s.usedUdpPorts)
      (hreserved : s'.portReservations = s.portReservations.insert old.name ⟨q, false, now⟩)
  | udp (q : UInt16) (hq : old.remotePort = some q) (hzero : q ≠ 0) (hne : q ≠ port)
      (hkind : old.proxyType.isUdp = true) (hlast : s.udpPortHasOtherOwner q [] = false)
      (hused : s'.usedPorts = s.usedPorts) (hudp : s'.usedUdpPorts = s.usedUdpPorts.erase q)
      (hreserved : s'.portReservations = s.portReservations.insert old.name ⟨q, true, now⟩)

theorem freeReplacedPort_freesPort (s : AppState) (now : Nat) (old : ProxyInfo)
    (port : UInt16) : s.FreesPort now old port (s.freeReplacedPort now old port) := by
  unfold freeReplacedPort
  split
  · rename_i hport
    apply FreesPort.kept rfl rfl rfl
    intro q hq hne
    rw [hq, Option.filter_some, if_pos (decide_eq_true (UInt16.pos_iff_ne_zero.mpr hne))] at hport
    cases hport
  · rename_i q hport
    obtain ⟨hq, hpos⟩ := Option.filter_eq_some_iff.mp hport
    have hzero : q ≠ 0 := UInt16.pos_iff_ne_zero.mp (of_decide_eq_true hpos)
    have honly : forall q', old.remotePort = some q' -> q' = q := by
      intro q' hq'
      rw [hq] at hq'
      exact (Option.some.inj hq').symm
    split
    · rename_i hsame
      apply FreesPort.kept rfl rfl rfl
      intro q' hq' _
      exact .inl ((honly q' hq').trans hsame)
    · rename_i hne
      split
      · rename_i hgroup
        have hkind : old.proxyType.isUdp = false := by
          by_contra hudp
          rw [ProxyInfo.not_isTcpGroup_of_isUdp (Bool.not_eq_false _ ▸ hudp)] at hgroup
          cases hgroup
        dsimp only
        split
        · rename_i hlen
          split
          · exact FreesPort.tcp q hq hzero hne hkind (fun _ => hlen) rfl rfl rfl
          · exact FreesPort.tcp q hq hzero hne hkind (fun _ => hlen) rfl rfl rfl
        · rename_i hlen
          exact FreesPort.kept rfl rfl rfl (fun _ _ _ => .inr (.inl ⟨hgroup, hlen⟩))
      · rename_i hgroup
        split
        · rename_i hudp
          split
          · rename_i hother
            apply FreesPort.kept rfl rfl rfl
            intro q' hq' _
            rw [honly q' hq']
            exact .inr (.inr ⟨hudp, hother⟩)
          · rename_i hother
            exact FreesPort.udp q hq hzero hne hudp (Bool.eq_false_iff.mpr hother) rfl rfl rfl
        · rename_i hudp
          exact FreesPort.tcp q hq hzero hne (Bool.eq_false_iff.mpr hudp)
            (fun h => absurd h hgroup) rfl rfl rfl

theorem reservesPorts_freeReplaced (now : Nat) {s : AppState} (h : s.ReservesPorts)
    (port : UInt16) (replaced : Option ProxyInfo) :
    (s.freeReplaced now port replaced).ReservesPorts := by
  cases replaced with
  | none => exact h
  | some old =>
    show forall n r, (s.freeReplacedPort now old port).portReservations.lookup n = some r -> _
    cases s.freeReplacedPort_freesPort now old port with
    | kept _ _ hsame _ =>
      rw [hsame]
      exact h
    | tcp q _ hzero _ _ _ _ _ hinserted =>
      rw [hinserted]
      exact reservesPorts_reserve h old.name hzero false now
    | udp q _ hzero _ _ _ _ _ hinserted =>
      rw [hinserted]
      exact reservesPorts_reserve h old.name hzero true now

/-!
## A registration
-/

/-- What a registration needs of the marks: its port is free or that of its group, and the
entry it replaces keeps no mark without a holder and gives up none that has one. -/
structure EntersPort (s : AppState) (info : ProxyInfo) (port : UInt16)
    (replaced : Option ProxyInfo) : Prop where
  nonzero : info.proxyType.consumesPort = true -> port ≠ 0
  free : info.proxyType = .tcp -> port ∉ s.usedPorts ∨
    exists g entry, info.InTcpGroup g ∧ s.tcpGroups.lookup g = some entry ∧ entry.port = port
  sameTcp : forall old, replaced = some old -> old.HoldsTcp port ->
    info.proxyType = .tcp ∨ HeldBeside ProxyInfo.HoldsTcp s.pm.get info.name port
  sameUdp : forall old, replaced = some old -> old.HoldsUdp port ->
    info.proxyType.isUdp = true ∨ HeldBeside ProxyInfo.HoldsUdp s.pm.get info.name port
  stored : forall old q, replaced = some old -> old.proxyType.consumesPort = false ->
    old.remotePort = some q -> q ≠ port -> q ∉ s.usedPorts

section Registered

variable {s s1 : AppState} {pending : Option String} {info : ProxyInfo} {pm' : ProxyManager}
variable {replaced : Option ProxyInfo} {port : UInt16}

theorem not_heldBeside_of_shared {n : String} {old : ProxyInfo} {q : UInt16} (hs : s.PortsRight)
    (hget : s.pm.get n = some old) (hold : old.HoldsTcp q)
    (hlast : forall g m i, old.InTcpGroup g -> m ≠ n -> s.pm.get m = some i ->
      ¬ i.InTcpGroup g) : ¬ HeldBeside ProxyInfo.HoldsTcp s.pm.get n q := by
  rintro ⟨m, i, hne, hm, hi⟩
  obtain ⟨g, hg, hig⟩ := hs.shared n m old i q hget hm hold hi hne
  exact hlast g m i hg hne hm hig

theorem exact_tcp_registered (now : Nat) (hs : s.PortsRight) (hgroups : s.GroupsRight)
    (hreg : s.pm.Registered info pm' replaced) (hport : info.remotePort = some port)
    (hgroup : s.EntersGroup pending info port replaced)
    (henters : s.EntersPort info port replaced) (hpm : s1.pm = pm')
    (hused : forall p, p ∈ s1.usedPorts ↔ info.HoldsTcp p ∨ p ∈ s.usedPorts) :
    Exact ProxyInfo.HoldsTcp pm'.get fun p => p ∈ (s1.freeReplaced now port replaced).usedPorts := by
  cases replaced with
  | none =>
    have hnone : s.pm.get info.name = none := hreg.replaced_eq.symm
    apply exact_of_kept hs.tcp (fun n hn => hreg.get_of_ne hn) hreg.get_self hused
    intro old p hold
    rw [hnone] at hold
    cases hold
  | some old =>
    have hget : s.pm.get info.name = some old := hreg.replaced_eq.symm
    have hold : forall o, s.pm.get info.name = some o -> o = old := by
      intro o ho
      rw [hget] at ho
      exact (Option.some.inj ho).symm
    have hindexed := hreg.indexed hgroups.indexed
    cases s1.freeReplacedPort_freesPort now old port with
    | kept hsame _ _ hwhy =>
      apply exact_of_kept hs.tcp (fun n hn => hreg.get_of_ne hn) hreg.get_self
      · intro p
        rw [show (s1.freeReplaced now port (some old)).usedPorts = s1.usedPorts from hsame,
          hused]
      · intro o q ho hholds
        rw [hold o ho] at hholds
        have hzero : q ≠ 0 := by
          rintro rfl
          exact hs.nonzero info.name old hget hholds.consumesPort hholds.2
        rcases hwhy q hholds.2 hzero with hq | ⟨htcp, hlen⟩ | ⟨hudp, _⟩
        · subst hq
          rcases henters.sameTcp old rfl hholds with htcp | hbeside
          · exact .inl ⟨htcp, hport⟩
          · exact .inr hbeside
        · obtain ⟨g, hin⟩ := ProxyInfo.isTcpGroup_iff.mp htcp
          obtain ⟨entry, hentry, hentryPort⟩ := hgroups.lookup_of_member hget hin
          have hq : entry.port = q := Option.some.inj (hentryPort.symm.trans hholds.2)
          rcases hgroup.leave old g rfl hin with hnew | hbeside | ⟨hle, hname, _⟩
          · rcases hgroup.join g hnew with hpending | ⟨entry', hentry', hport'⟩
            · rw [(hgroup.create g hpending).2] at hentry
              cases hentry
            · rw [hentry] at hentry'
              cases hentry'
              refine .inl ⟨hnew.1, ?_⟩
              rw [hport, ← hport', hq]
          · obtain ⟨m, i, hne, hm, hi⟩ := hbeside
            refine .inr ⟨m, i, hne, hm, hi.1, ?_⟩
            rw [hgroups.port g entry m i hentry hm hi, hq]
          · rw [hpm, hin.group_getD] at hlen
            exact absurd (groupLen_left hgroups.indexed hreg hin hle hname) hlen
        · rw [hholds.not_isUdp] at hudp
          cases hudp
    | tcp q hq hzero hne hkind hlast herased _ _ =>
      apply @exact_of_replaced _ _ _ _ _ _ _ _ _ _ (fun p => p = q) hs.tcp
        (fun n hn => hreg.get_of_ne hn) hreg.get_self
      · intro p
        rw [show (s1.freeReplaced now port (some old)).usedPorts = s1.usedPorts.erase q from
          herased, Finset.mem_erase, hused]
        exact and_comm
      · rintro p rfl
        refine ⟨?_, ?_⟩
        · rintro ⟨_, hp⟩
          rw [hport] at hp
          exact hne (Option.some.inj hp).symm
        · by_cases hconsumes : old.proxyType.consumesPort = true
          · have htcp := ProxyInfo.tcp_of_consumesPort hconsumes hkind
            apply not_heldBeside_of_shared hs hget ⟨htcp, hq⟩
            intro g m i hin hm hi hig
            have hlen := hlast hin.isTcpGroup
            rw [hpm, hin.group_getD] at hlen
            have hpos := ProxyManager.groupLen_pos hindexed ((hreg.get_of_ne hm).trans hi)
              hig.2
            omega
          · exact not_mem_usedPorts hs (henters.stored old p rfl
              (Bool.eq_false_iff.mpr hconsumes) hq hne) info.name
      · intro o p ho hholds
        rw [hold o ho] at hholds
        exact .inl (Option.some.inj (hholds.2.symm.trans hq))
    | udp q _ _ _ hkind _ hsame _ _ =>
      apply exact_of_kept hs.tcp (fun n hn => hreg.get_of_ne hn) hreg.get_self
      · intro p
        rw [show (s1.freeReplaced now port (some old)).usedPorts = s1.usedPorts from hsame,
          hused]
      · intro o p ho hholds
        rw [hold o ho] at hholds
        rw [hholds.not_isUdp] at hkind
        cases hkind

theorem exact_udp_registered (now : Nat) (hs : s.PortsRight) (hgroups : s.GroupsRight)
    (hreg : s.pm.Registered info pm' replaced) (hport : info.remotePort = some port)
    (henters : s.EntersPort info port replaced) (hpm : s1.pm = pm')
    (hudp : forall p, p ∈ s1.usedUdpPorts ↔ info.HoldsUdp p ∨ p ∈ s.usedUdpPorts) :
    Exact ProxyInfo.HoldsUdp pm'.get
      fun p => p ∈ (s1.freeReplaced now port replaced).usedUdpPorts := by
  have hindexed : s1.pm.Indexed := hpm.symm ▸ hreg.indexed hgroups.indexed
  cases replaced with
  | none =>
    have hnone : s.pm.get info.name = none := hreg.replaced_eq.symm
    apply exact_of_kept hs.udp (fun n hn => hreg.get_of_ne hn) hreg.get_self hudp
    intro old p hold
    rw [hnone] at hold
    cases hold
  | some old =>
    have hget : s.pm.get info.name = some old := hreg.replaced_eq.symm
    have hold : forall o, s.pm.get info.name = some o -> o = old := by
      intro o ho
      rw [hget] at ho
      exact (Option.some.inj ho).symm
    cases s1.freeReplacedPort_freesPort now old port with
    | kept _ hsame _ hwhy =>
      apply exact_of_kept hs.udp (fun n hn => hreg.get_of_ne hn) hreg.get_self
      · intro p
        rw [show (s1.freeReplaced now port (some old)).usedUdpPorts = s1.usedUdpPorts from
          hsame, hudp]
      · intro o q ho hholds
        rw [hold o ho] at hholds
        have hzero : q ≠ 0 := by
          rintro rfl
          exact hs.nonzero info.name old hget hholds.consumesPort hholds.2
        rcases hwhy q hholds.2 hzero with hq | ⟨htcp, _⟩ | ⟨_, hother⟩
        · subst hq
          rcases henters.sameUdp old rfl hholds with hkind | hbeside
          · exact .inl ⟨hkind, hport⟩
          · exact .inr hbeside
        · rw [ProxyInfo.not_isTcpGroup_of_isUdp hholds.1] at htcp
          cases htcp
        · obtain ⟨m, i, _, hm, hi⟩ := (udpPortHasOtherOwner_iff hindexed).mp hother
          rw [hpm] at hm
          by_cases hname : m = info.name
          · rw [hname, hreg.get_self] at hm
            cases hm
            exact .inl hi
          · exact .inr ⟨m, i, hname, (hreg.get_of_ne hname).symm.trans hm, hi⟩
    | tcp q _ _ _ hkind _ _ hsame _ =>
      apply exact_of_kept hs.udp (fun n hn => hreg.get_of_ne hn) hreg.get_self
      · intro p
        rw [show (s1.freeReplaced now port (some old)).usedUdpPorts = s1.usedUdpPorts from
          hsame, hudp]
      · intro o p ho hholds
        rw [hold o ho] at hholds
        rw [hholds.1] at hkind
        cases hkind
    | udp q hq hzero hne hkind hlast _ herased _ =>
      apply @exact_of_replaced _ _ _ _ _ _ _ _ _ _ (fun p => p = q) hs.udp
        (fun n hn => hreg.get_of_ne hn) hreg.get_self
      · intro p
        rw [show (s1.freeReplaced now port (some old)).usedUdpPorts =
          s1.usedUdpPorts.erase q from herased, Finset.mem_erase, hudp]
        exact and_comm
      · rintro p rfl
        refine ⟨?_, ?_⟩
        · rintro ⟨_, hp⟩
          rw [hport] at hp
          exact hne (Option.some.inj hp).symm
        · rintro ⟨m, i, hname, hm, hi⟩
          have hother : s1.udpPortHasOtherOwner p [] = true := by
            rw [udpPortHasOtherOwner_iff hindexed]
            refine ⟨m, i, List.not_mem_nil, ?_, hi⟩
            rw [hpm, hreg.get_of_ne hname]
            exact hm
          rw [hlast] at hother
          cases hother
      · intro o p ho hholds
        rw [hold o ho] at hholds
        exact .inl (Option.some.inj (hholds.2.symm.trans hq))

theorem inTcpGroup_of_holdsTcp (hs : s.PortsRight) (hgroups : s.GroupsRight) {g m : String}
    {entry : TcpGroupEntry} {i : ProxyInfo} (hentry : s.tcpGroups.lookup g = some entry)
    (hm : s.pm.get m = some i) (hi : i.HoldsTcp entry.port) : i.InTcpGroup g := by
  obtain ⟨n, member, hn, hin⟩ :=
    (hgroups.isSome_iff g).mp (Option.isSome_iff_exists.mpr ⟨entry, hentry⟩)
  by_cases hname : m = n
  · rw [hname, hn] at hm
    cases hm
    exact hin
  · have hholds : member.HoldsTcp entry.port :=
      ⟨hin.1, hgroups.port g entry n member hentry hn hin⟩
    obtain ⟨g', hg', hig'⟩ := hs.shared n m member i entry.port hn hm hholds hi hname
    rw [hin.unique hg'] at hig'
    exact hig'

theorem shared_registered (hs : s.PortsRight) (hgroups : s.GroupsRight)
    (hport : info.remotePort = some port) (henters : s.EntersPort info port replaced)
    {m : String} {i : ProxyInfo} {p : UInt16} (hm : s.pm.get m = some i) (hi : i.HoldsTcp p)
    (hinfo : info.HoldsTcp p) : exists g, info.InTcpGroup g ∧ i.InTcpGroup g := by
  have hp : p = port := Option.some.inj (hinfo.2.symm.trans hport)
  subst hp
  rcases henters.free hinfo.1 with hfree | ⟨g, entry, hin, hentry, heq⟩
  · exact absurd ((hs.tcp p).mpr (held_of hm hi)) hfree
  · rw [← heq] at hi
    exact ⟨g, hin, inTcpGroup_of_holdsTcp hs hgroups hentry hm hi⟩

theorem portsRight_registered (now : Nat) (hs : s.PortsRight) (hgroups : s.GroupsRight)
    (hreg : s.pm.Registered info pm' replaced) (hport : info.remotePort = some port)
    (hgroup : s.EntersGroup pending info port replaced)
    (henters : s.EntersPort info port replaced) (hpm : s1.pm = pm')
    (hused : forall p, p ∈ s1.usedPorts ↔ info.HoldsTcp p ∨ p ∈ s.usedPorts)
    (hudp : forall p, p ∈ s1.usedUdpPorts ↔ info.HoldsUdp p ∨ p ∈ s.usedUdpPorts)
    (hreserved : s1.ReservesPorts) : (s1.freeReplaced now port replaced).PortsRight := by
  have hpm' : (s1.freeReplaced now port replaced).pm = pm' := by
    rw [freeReplaced_pm, hpm]
  refine ⟨?_, ?_, ?_, ?_, ?_⟩
  · rw [hpm']
    exact exact_tcp_registered now hs hgroups hreg hport hgroup henters hpm hused
  · rw [hpm']
    exact exact_udp_registered now hs hgroups hreg hport henters hpm hudp
  · rw [hpm']
    intro n i hn hconsumes
    by_cases hname : n = info.name
    · rw [hname, hreg.get_self] at hn
      cases hn
      rw [hport]
      intro hzero
      exact henters.nonzero hconsumes (Option.some.inj hzero)
    · rw [hreg.get_of_ne hname] at hn
      exact hs.nonzero n i hn hconsumes
  · rw [hpm']
    intro n m i i' p hn hm hi hi' hne
    by_cases hname : n = info.name
    · subst hname
      rw [hreg.get_self] at hn
      rw [hreg.get_of_ne hne] at hm
      cases hn
      exact shared_registered hs hgroups hport henters hm hi' hi
    · rw [hreg.get_of_ne hname] at hn
      by_cases hname' : m = info.name
      · rw [hname', hreg.get_self] at hm
        cases hm
        obtain ⟨g, hg, hig⟩ := shared_registered hs hgroups hport henters hn hi hi'
        exact ⟨g, hig, hg⟩
      · rw [hreg.get_of_ne hname'] at hm
        exact hs.shared n m i i' p hn hm hi hi' hne
  · exact reservesPorts_freeReplaced now hreserved port replaced

end Registered

/-!
## Requests that keep the marks right
-/

def TcpPortHeldOutside (s : AppState) (names : List String) (port : UInt16) : Prop :=
  exists info, info ∈ s.pm.list ∧ info.name ∉ names ∧ info.HoldsTcp port

instance (s : AppState) (names : List String) (port : UInt16) :
    Decidable (s.TcpPortHeldOutside names port) :=
  inferInstanceAs (Decidable (exists info, info ∈ s.pm.list ∧ _))

/-- The entry that a message takes over keeps its own mark only where the port stays in use
for its kind, and an entry without a mark stores no port that is marked. -/
def GivesUpPort (s : AppState) (np : NewProxy) (port : UInt16) (old : ProxyInfo) : Prop :=
  (old.HoldsTcp port ->
    np.proxyType = .tcp ∨ s.TcpPortHeldOutside [np.proxyName] port) ∧
  (old.HoldsUdp port ->
    np.proxyType.isUdp = true ∨ s.udpPortHasOtherOwner port [np.proxyName] = true) ∧
  (old.proxyType.consumesPort = false ->
    forall q, q ∈ old.remotePort -> q ≠ port -> q ∉ s.usedPorts)

instance (s : AppState) (np : NewProxy) (port : UInt16) (old : ProxyInfo) :
    Decidable (s.GivesUpPort np port old) :=
  inferInstanceAs (Decidable ((_ -> _) ∧ (_ -> _) ∧ (_ -> _)))

/-- Port zero is never assigned, a message refused for its name is no group join and
resolves to a TCP port of its own or an unmarked one, and a takeover is safe. -/
def PortSafeNew (cfg : ServerConfig) (env : Surroundings) (s : AppState) (np : NewProxy)
    (runId : String) (controlId : Nat) : Prop :=
  s.notAdmitted cfg env np runId = none ->
    (np.proxyType.consumesPort = true -> requestedPort cfg np.proxyType np.declaredPort = 0 ->
      0 ∉ env.allowPorts.flatMap PortsRange.iter) ∧
    forall port, port ∈ s.resolvedPort cfg env np ->
      (s.nameTaken np runId controlId = true ->
        (np.isTcpGroup = true -> s.groupQuery cfg np = .notFound) ∧
        (np.proxyType ≠ .tcp -> port ∉ s.usedPorts)) ∧
      forall old, old ∈ s.takenOver np runId controlId -> s.GivesUpPort np port old

def PortSafeClose (s : AppState) (runId name : String) : Prop :=
  forall p, p ∈ s.pm.get name -> p.runId = runId -> p.proxyType.consumesPort = false ->
    forall port, port ∈ p.remotePort -> port ∉ s.usedPorts

/-- A swept proxy without a TCP mark of its own stores no port of a TCP proxy that stays, and
a swept UDP proxy shares its port with none that stays. -/
def PortSafeDisconnect (s : AppState) (runId : String) (controlId : Nat) : Prop :=
  forall p, p ∈ swept s.pm runId controlId -> forall port, port ∈ p.remotePort ->
    (p.proxyType.consumesPort = false ->
      ¬ s.TcpPortHeldOutside ((swept s.pm runId controlId).map ProxyInfo.name) port) ∧
    (p.proxyType = .udp ->
      s.udpPortHasOtherOwner port ((swept s.pm runId controlId).map ProxyInfo.name) = false)

def PortSafe (cfg : ServerConfig) (s : AppState) (e : Request) : Prop :=
  s.GroupSafe cfg e ∧
  match e with
  | .newProxy env np runId controlId => s.PortSafeNew cfg env np runId controlId
  | .closeProxy runId name => s.PortSafeClose runId name
  | .disconnect _ runId controlId => s.PortSafeDisconnect runId controlId

instance (cfg : ServerConfig) (s : AppState) : (e : Request) -> Decidable (s.PortSafe cfg e)
  | .newProxy env np runId _ =>
    @instDecidableAnd _ _ inferInstance
      (inferInstanceAs (Decidable (s.notAdmitted cfg env np runId = none -> _ ∧ _)))
  | .closeProxy _ name =>
    @instDecidableAnd _ _ inferInstance
      (inferInstanceAs (Decidable (forall p, p ∈ s.pm.get name -> _)))
  | .disconnect _ runId controlId =>
    @instDecidableAnd _ _ inferInstance
      (inferInstanceAs (Decidable (forall p, p ∈ swept s.pm runId controlId -> _)))

theorem tcpPortHeldOutside_iff {s : AppState} (hindexed : s.pm.Indexed)
    {names : List String} {port : UInt16} :
    s.TcpPortHeldOutside names port ↔
      HeldOutside ProxyInfo.HoldsTcp s.pm.get (fun n => n ∈ names) port := by
  constructor
  · rintro ⟨info, hlist, hname, hholds⟩
    exact ⟨info.name, info, hname, (ProxyManager.mem_list hindexed).mp hlist, hholds⟩
  · rintro ⟨n, info, hname, hn, hholds⟩
    refine ⟨info, ProxyManager.mem_list_of_get hindexed hn, ?_, hholds⟩
    rw [ProxyManager.named_of_get hindexed hn]
    exact hname

theorem heldOutside_singleton {holds : ProxyInfo -> UInt16 -> Prop} {pm : ProxyManager}
    {name : String} {port : UInt16} :
    HeldOutside holds pm.get (fun n => n ∈ [name]) port ↔ HeldBeside holds pm.get name port := by
  constructor
  · rintro ⟨n, info, hname, hn, hholds⟩
    exact ⟨n, info, fun h => hname (List.mem_singleton.mpr h), hn, hholds⟩
  · rintro ⟨n, info, hname, hn, hholds⟩
    exact ⟨n, info, fun h => hname (List.mem_singleton.mp h), hn, hholds⟩

end AppState
end Server
end FrpRs
