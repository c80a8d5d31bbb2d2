import FrpRs.Server.PortView

/-!
# Ports of proxies that close

What `CloseProxy` and the sweep of a disconnect do to the marks, the TCP groups and the
entries.
-/

namespace FrpRs
namespace Server
namespace AppState

open List

/-!
## Closing a proxy
-/

theorem ports_removeEntry_congr {s s' : AppState} (h : s.ports = s'.ports) (name : String) :
    (s.removeEntry name).ports = (s'.removeEntry name).ports := by
  cases s
  cases s'
  cases h
  rfl

theorem ports_releaseEmptyTcpGroup_congr {s s' : AppState} (h : s.ports = s'.ports)
    (p : ProxyInfo) :
    (s.releaseEmptyTcpGroup p).ports = (s'.releaseEmptyTcpGroup p).ports := by
  cases s
  cases s'
  cases h
  unfold releaseEmptyTcpGroup
  dsimp only
  split
  · split <;> rfl
  · rfl

theorem ports_removeProxyAndReleaseClientCounts (s : AppState) (p : ProxyInfo) :
    (s.removeProxyAndReleaseClientCounts p).ports = (s.removeEntry p.name).ports := by
  unfold removeProxyAndReleaseClientCounts removeEntry
  dsimp only
  split
  · rw [ports_releaseClientPorts]
  · rfl

variable {s : AppState}
variable {p : ProxyInfo}

theorem ports_closeProxy {runId name : String} (hget : s.pm.get name = some p)
    (hrun : p.runId = runId) :
    (s.closeProxy runId name).ports =
      (((s.releaseClosedPort p).removeEntry p.name).releaseEmptyTcpGroup p).ports := by
  unfold closeProxy
  rw [hget, Option.filter_some, if_pos (decide_eq_true hrun)]
  apply ports_releaseEmptyTcpGroup_congr
  rw [ports_removeProxyAndReleaseClientCounts]
  apply ports_removeEntry_congr
  rw [ports_releaseRoutes, ports_releaseSkIndex]

theorem closeProxy_of_other {runId name : String}
    (h : forall p, s.pm.get name = some p -> p.runId ≠ runId) : s.closeProxy runId name = s := by
  unfold closeProxy
  cases hget : s.pm.get name with
  | none => rfl
  | some p => rw [Option.filter_some, if_neg (by simpa using h p hget)]

/-!
## The sweep of a disconnect
-/

theorem foldl_field {α β : Type} (field : AppState -> β) (f : AppState -> α -> AppState)
    (hf : forall s a, field (f s a) = field s) (l : List α) (s : AppState) :
    field (l.foldl f s) = field s := by
  induction l generalizing s with
  | nil => rfl
  | cons a l ih => rw [foldl_cons, ih, hf]

@[simp] theorem ports_sweepSkIndex (s : AppState) (p : ProxyInfo) :
    (s.sweepSkIndex p).ports = s.ports := by
  unfold sweepSkIndex
  split
  · rfl
  · rw [ports_releaseSkIndex]

@[simp] theorem ports_sweepRoutes (s : AppState) (p : ProxyInfo) :
    (s.sweepRoutes p).ports = s.ports := by
  unfold sweepRoutes
  split
  · rfl
  · rw [ports_releaseRoutes]

@[simp] theorem ports_sweepClientPorts (s : AppState) (runId : String) (batch : List ProxyInfo) :
    (s.sweepClientPorts runId batch).ports = s.ports := by
  unfold sweepClientPorts
  dsimp only
  split
  · rw [ports_releaseClientPorts]
  · rfl

theorem ports_foldl_sweepSkIndex (l : List ProxyInfo) (s : AppState) :
    (l.foldl sweepSkIndex s).ports = s.ports :=
  foldl_field ports _ ports_sweepSkIndex l s

variable (now : Nat)

theorem ports_unregisterControl (s : AppState) (runId : String) (controlId : Nat) :
    (s.unregisterControl now runId controlId).ports =
      ((swept s.pm runId controlId).foldl
        (sweepUdpPort now (swept s.pm runId controlId))
        ((swept s.pm runId controlId).foldl sweepSkIndex
          (s.sweepTcpPorts now (swept s.pm runId controlId)))).ports := by
  unfold unregisterControl
  rw [foldl_field ports _ ports_sweepRoutes, ports_sweepClientPorts]

variable (batch : List ProxyInfo)

theorem sweepUdpPort_pm (s : AppState) (p : ProxyInfo) :
    (s.sweepUdpPort now batch p).pm = s.pm := by
  unfold sweepUdpPort
  split
  · rfl
  · split
    · rfl
    · split <;> rfl

theorem sweepUdpPort_tcpGroups (s : AppState) (p : ProxyInfo) :
    (s.sweepUdpPort now batch p).tcpGroups = s.tcpGroups := by
  unfold sweepUdpPort
  split
  · rfl
  · split
    · rfl
    · split <;> rfl

theorem sweepUdpPort_usedPorts (s : AppState) (p : ProxyInfo) :
    (s.sweepUdpPort now batch p).usedPorts = s.usedPorts := by
  unfold sweepUdpPort
  split
  · rfl
  · split
    · rfl
    · split <;> rfl

theorem reserveSwept_pm (s : AppState) (p : ProxyInfo) :
    (s.reserveSwept now p).pm = s.pm := by
  unfold reserveSwept
  split <;> rfl

theorem removeSweptGroup_pm (s : AppState) (g : String × Nat) :
    (s.removeSweptGroup g).pm = s.pm := by
  unfold removeSweptGroup
  split <;> rfl

theorem removeSweptGroup_usedPorts (s : AppState) (g : String × Nat) :
    (s.removeSweptGroup g).usedPorts = s.usedPorts := by
  unfold removeSweptGroup
  split <;> rfl

theorem reserveSwept_usedPorts (s : AppState) (p : ProxyInfo) :
    (s.reserveSwept now p).usedPorts = s.usedPorts := by
  unfold reserveSwept
  split <;> rfl

theorem reserveSwept_tcpGroups (s : AppState) (p : ProxyInfo) :
    (s.reserveSwept now p).tcpGroups = s.tcpGroups := by
  unfold reserveSwept
  split <;> rfl

theorem sweepTcpPorts_pm (s : AppState) (batch : List ProxyInfo) :
    (s.sweepTcpPorts now batch).pm = s.pm := by
  unfold sweepTcpPorts
  rw [foldl_field pm _ removeSweptGroup_pm, foldl_field pm _ (reserveSwept_pm now),
    foldl_field pm unmarkTcp (fun _ _ => rfl)]

theorem mem_usedPorts_foldl_unmarkTcp (l : List UInt16) (s : AppState) (p : UInt16) :
    p ∈ (l.foldl unmarkTcp s).usedPorts ↔ p ∈ s.usedPorts ∧ p ∉ l := by
  induction l generalizing s with
  | nil => simp
  | cons q l ih =>
    rw [foldl_cons, ih, unmarkTcp, Finset.mem_erase, mem_cons]
    tauto

theorem mem_usedPorts_sweepTcpPorts (s : AppState) (batch : List ProxyInfo) (p : UInt16) :
    p ∈ (s.sweepTcpPorts now batch).usedPorts ↔
      p ∈ s.usedPorts ∧ forall q, q ∈ batch -> sweptPort s.pm q ≠ some p := by
  unfold sweepTcpPorts
  rw [foldl_field usedPorts _ removeSweptGroup_usedPorts,
    foldl_field usedPorts _ (reserveSwept_usedPorts now), mem_usedPorts_foldl_unmarkTcp,
    mem_filterMap]
  simp

theorem lookup_foldl_removeSweptGroup (l : List (String × Nat)) (s : AppState) (g : String)
    (hlen : forall x, x ∈ l -> s.pm.groupLen x.1 = x.2) :
    (l.foldl removeSweptGroup s).tcpGroups.lookup g =
      if g ∈ l.map Prod.fst then none else s.tcpGroups.lookup g := by
  induction l generalizing s with
  | nil => simp
  | cons x l ih =>
    have hstep : s.removeSweptGroup x = s.removeGroup x.1 := by
      unfold removeSweptGroup
      rw [if_pos (hlen x mem_cons_self)]
    rw [foldl_cons, hstep, ih]
    · rw [removeGroup, Table.lookup_erase_eq, map_cons]
      by_cases hx : g = x.1
      · simp [hx]
      · rw [if_neg hx]
        exact if_congr (by rw [mem_cons, or_iff_right hx]) rfl rfl
    · intro y hy
      exact hlen y (mem_cons_of_mem x hy)

theorem lookup_sweepTcpPorts (s : AppState) (batch : List ProxyInfo) (g : String) :
    (s.sweepTcpPorts now batch).tcpGroups.lookup g =
      if g ∈ (batch.filterMap (sweptGroup s.pm)).map Prod.fst then none
      else s.tcpGroups.lookup g := by
  unfold sweepTcpPorts
  rw [lookup_foldl_removeSweptGroup]
  · rw [foldl_field tcpGroups _ (reserveSwept_tcpGroups now),
      foldl_field tcpGroups unmarkTcp (fun _ _ => rfl)]
  · intro x hx
    rw [foldl_field pm _ (reserveSwept_pm now), foldl_field pm unmarkTcp (fun _ _ => rfl)]
    obtain ⟨p, _, hp⟩ := mem_filterMap.mp hx
    unfold sweptGroup at hp
    split at hp
    · cases hp
      rfl
    · cases hp

theorem unregisterControl_pm (s : AppState) (runId : String) (controlId : Nat) :
    (s.unregisterControl now runId controlId).pm = s.pm := by
  rw [pm_of_ports (ports_unregisterControl now s runId controlId),
    foldl_field pm _ (sweepUdpPort_pm now _), pm_of_ports (ports_foldl_sweepSkIndex _ _),
    sweepTcpPorts_pm]

theorem unregisterControl_tcpGroups (s : AppState) (runId : String) (controlId : Nat) :
    (s.unregisterControl now runId controlId).tcpGroups =
      (s.sweepTcpPorts now (swept s.pm runId controlId)).tcpGroups := by
  rw [show (s.unregisterControl now runId controlId).tcpGroups = _ from
      congrArg PortView.tcpGroups (ports_unregisterControl now s runId controlId)]
  show AppState.tcpGroups _ = _
  rw [foldl_field tcpGroups _ (sweepUdpPort_tcpGroups now _)]
  exact congrArg PortView.tcpGroups (ports_foldl_sweepSkIndex _ _)

theorem unregisterControl_usedPorts (s : AppState) (runId : String) (controlId : Nat) :
    (s.unregisterControl now runId controlId).usedPorts =
      (s.sweepTcpPorts now (swept s.pm runId controlId)).usedPorts := by
  rw [usedPorts_of_ports (ports_unregisterControl now s runId controlId),
    foldl_field usedPorts _ (sweepUdpPort_usedPorts now _)]
  exact usedPorts_of_ports (ports_foldl_sweepSkIndex _ _)

def sweptUdpPort (s : AppState) (batch : List ProxyInfo) (p : ProxyInfo) : Option UInt16 :=
  p.remotePort.filter fun port => p.proxyType.isUdp &&
    !(p.proxyType = .sudp && s.udpPortHasOtherOwner port (batch.map ProxyInfo.name))

theorem sweepUdpPort_usedUdpPorts (s : AppState) (p : ProxyInfo) (q : UInt16) :
    q ∈ (s.sweepUdpPort now batch p).usedUdpPorts ↔
      q ∈ s.usedUdpPorts ∧ s.sweptUdpPort batch p ≠ some q := by
  unfold sweepUdpPort sweptUdpPort
  cases p.remotePort with
  | none => simp
  | some port =>
    rw [Option.filter_some, Option.filter_some]
    cases hkind : p.proxyType.isUdp with
    | false => simp
    | true =>
      rw [if_pos rfl, Bool.true_and]
      dsimp only
      split
      · rename_i hother
        simp only [Bool.and_eq_true, decide_eq_true_eq] at hother
        simp [hother.1, hother.2]
      · rename_i hfree
        have htest : (!(decide (p.proxyType = .sudp) &&
            s.udpPortHasOtherOwner port (batch.map ProxyInfo.name))) = true := by
          rw [Bool.not_eq_true']
          exact Bool.eq_false_iff.mpr hfree
        have herase : q ∈ (s.usedUdpPorts.erase port) ↔
            q ∈ s.usedUdpPorts ∧ some port ≠ some q := by
          rw [Finset.mem_erase]
          constructor
          · rintro ⟨hne, hq⟩
            exact ⟨hq, fun h => hne (Option.some.inj h).symm⟩
          · rintro ⟨hq, hne⟩
            exact ⟨fun h => hne (congrArg some h.symm), hq⟩
        split
        · exact herase
        · exact herase

theorem sweptUdpPort_congr {s s' : AppState} (h : s'.pm = s.pm) (batch : List ProxyInfo)
    (p : ProxyInfo) : s'.sweptUdpPort batch p = s.sweptUdpPort batch p := by
  unfold sweptUdpPort udpPortHasOtherOwner
  rw [h]

theorem mem_usedUdpPorts_foldl (batch l : List ProxyInfo) (s : AppState) (q : UInt16) :
    q ∈ (l.foldl (sweepUdpPort now batch) s).usedUdpPorts ↔
      q ∈ s.usedUdpPorts ∧ forall p, p ∈ l -> s.sweptUdpPort batch p ≠ some q := by
  induction l generalizing s with
  | nil => simp
  | cons p l ih =>
    have hcongr := sweptUdpPort_congr (sweepUdpPort_pm now batch s p) batch
    rw [foldl_cons, ih, sweepUdpPort_usedUdpPorts, forall_mem_cons, and_assoc]
    simp only [hcongr]

theorem sweepTcpPorts_usedUdpPorts (s : AppState) (batch : List ProxyInfo) :
    (s.sweepTcpPorts now batch).usedUdpPorts = s.usedUdpPorts := by
  unfold sweepTcpPorts
  rw [foldl_field usedUdpPorts removeSweptGroup, foldl_field usedUdpPorts (reserveSwept now),
    foldl_field usedUdpPorts unmarkTcp (fun _ _ => rfl)]
  · intro s p
    unfold reserveSwept
    split <;> rfl
  · intro s g
    unfold removeSweptGroup
    split <;> rfl

theorem mem_usedUdpPorts_unregisterControl (s : AppState) (runId : String) (controlId : Nat)
    (q : UInt16) :
    q ∈ (s.unregisterControl now runId controlId).usedUdpPorts ↔
      q ∈ s.usedUdpPorts ∧ forall p, p ∈ swept s.pm runId controlId ->
        s.sweptUdpPort (swept s.pm runId controlId) p ≠ some q := by
  have hports := ports_foldl_sweepSkIndex (swept s.pm runId controlId)
    (s.sweepTcpPorts now (swept s.pm runId controlId))
  have hudp : (foldl sweepSkIndex (s.sweepTcpPorts now (swept s.pm runId controlId))
      (swept s.pm runId controlId)).usedUdpPorts = s.usedUdpPorts :=
    (congrArg PortView.usedUdpPorts hports).trans (sweepTcpPorts_usedUdpPorts now s _)
  have hcongr := sweptUdpPort_congr
    ((pm_of_ports hports).trans (sweepTcpPorts_pm now s _)) (swept s.pm runId controlId)
  rw [show (s.unregisterControl now runId controlId).usedUdpPorts = _ from
    congrArg PortView.usedUdpPorts (ports_unregisterControl now s runId controlId)]
  show q ∈ AppState.usedUdpPorts _ ↔ _
  rw [mem_usedUdpPorts_foldl, hudp]
  simp only [hcongr]

def ReservesPorts (s : AppState) : Prop :=
  forall n r, s.portReservations.lookup n = some r -> r.port ≠ 0

theorem reservesPorts_reserve (h : s.ReservesPorts) (name : String) {port : UInt16}
    (hport : port ≠ 0) (isUdp : Bool) (now : Nat) :
    (s.reserve name port isUdp now).ReservesPorts := by
  intro n r hr
  rw [reserve, Table.lookup_insert_eq] at hr
  split at hr
  · cases hr
    exact hport
  · exact h n r hr

theorem reservesPorts_reserveSwept (h : s.ReservesPorts) (p : ProxyInfo) :
    (s.reserveSwept now p).ReservesPorts := by
  unfold reserveSwept
  split
  · rename_i port hport
    have hpos := of_decide_eq_true (Option.filter_eq_some_iff.mp hport).2
    exact reservesPorts_reserve h p.name (UInt16.pos_iff_ne_zero.mp hpos) false now
  · exact h

theorem reservesPorts_sweepUdpPort (h : s.ReservesPorts) (p : ProxyInfo) :
    (s.sweepUdpPort now batch p).ReservesPorts := by
  unfold sweepUdpPort
  split
  · exact h
  · split
    · exact h
    · split
      · rename_i hpos
        exact reservesPorts_reserve (s := s.unmarkUdp _) h p.name
          (UInt16.pos_iff_ne_zero.mp hpos) true now
      · exact h

theorem foldl_keeps {α : Type} {P : AppState -> Prop} {f : AppState -> α -> AppState}
    (hf : forall s a, P s -> P (f s a)) (l : List α) {s : AppState} (h : P s) :
    P (l.foldl f s) := by
  induction l generalizing s with
  | nil => exact h
  | cons a l ih => exact ih (hf s a h)

theorem reservesPorts_of_ports {s s' : AppState} (h : s'.ports = s.ports)
    (hs : s.ReservesPorts) : s'.ReservesPorts := by
  unfold ReservesPorts
  rw [show s'.portReservations = s.portReservations from congrArg PortView.portReservations h]
  exact hs

theorem reservesPorts_unregisterControl (h : s.ReservesPorts) (runId : String) (controlId : Nat) :
    (s.unregisterControl now runId controlId).ReservesPorts := by
  apply reservesPorts_of_ports (ports_unregisterControl now s runId controlId)
  refine @foldl_keeps _ ReservesPorts _ (fun s p h => reservesPorts_sweepUdpPort now _ h p) _ _ ?_
  apply reservesPorts_of_ports (ports_foldl_sweepSkIndex _ _)
  refine @foldl_keeps _ ReservesPorts _ ?_ _ _ ?_
  · intro s g hs
    unfold removeSweptGroup
    split
    · exact hs
    · exact hs
  · refine @foldl_keeps _ ReservesPorts _ (fun s p h => reservesPorts_reserveSwept now h p) _ _ ?_
    exact @foldl_keeps _ ReservesPorts unmarkTcp (fun _ _ h => h) _ _ h

/-!
## The removal loop of a disconnect
-/

/-- The test of `remove_if_control_id`. -/
def ofGeneration (controlId : Nat) (info : ProxyInfo) : Bool :=
  info.controlId = 0 || info.controlId = controlId

theorem get_foldl_removeSwept (controlId : Nat) (names : List String) (s : AppState)
    (n : String) :
    (names.foldl (removeSwept controlId) s).pm.get n =
      if n ∈ names ∧ (s.pm.get n).any (ofGeneration controlId) then none else s.pm.get n := by
  induction names generalizing s with
  | nil => simp
  | cons name names ih =>
    rw [foldl_cons, ih]
    have hget : (s.removeSwept controlId name).pm.get n =
        if n = name ∧ (s.pm.get name).any (ofGeneration controlId) then none
        else s.pm.get n :=
      ProxyManager.get_removeWhen _ s.pm name n
    by_cases hn : n = name
    · subst hn
      by_cases htest : (s.pm.get n).any (ofGeneration controlId)
      · simp [hget, htest]
      · simp [hget, htest]
    · simp [hget, hn]

theorem indexed_foldl_removeSwept (controlId : Nat) (names : List String) (h : s.pm.Indexed) :
    (names.foldl (removeSwept controlId) s).pm.Indexed := by
  induction names generalizing s with
  | nil => exact h
  | cons name names ih =>
    exact ih (h.removeIfControlId name controlId)

variable {controlId : Nat} {runId : String}

theorem mem_swept {pm : ProxyManager} (h : pm.Indexed) :
    p ∈ swept pm runId controlId ↔ pm.get p.name = some p ∧ p.runId = runId ∧
      (controlId = 0 ∨ p.controlId ≤ controlId) := by
  rw [swept, mem_filter, ProxyManager.mem_listClient h]
  simp [and_assoc]

theorem not_superseded {pm : ProxyManager} (h : pm.get p.name = some p) :
    superseded pm p = false := by
  unfold superseded
  rw [h]
  simp

def sweptNames (s : AppState) (runId : String) (controlId : Nat) : List String :=
  (swept s.pm runId controlId).map ProxyInfo.name

theorem mem_sweptNames (h : s.pm.Indexed) {n : String} :
    n ∈ s.sweptNames runId controlId ↔ exists p, s.pm.get n = some p ∧
      p ∈ swept s.pm runId controlId := by
  rw [sweptNames, mem_map]
  constructor
  · rintro ⟨p, hp, rfl⟩
    exact ⟨p, ((mem_swept h).mp hp).1, hp⟩
  · rintro ⟨p, hget, hp⟩
    exact ⟨p, hp, ProxyManager.named_of_get h hget⟩

theorem get_cleanup (h : s.pm.Indexed) (n : String)
    (hown : forall p, p ∈ swept s.pm runId controlId ->
      p.controlId = 0 ∨ p.controlId = controlId) :
    (s.cleanup now runId controlId).pm.get n =
      if n ∈ s.sweptNames runId controlId then none else s.pm.get n := by
  unfold cleanup
  rw [get_foldl_removeSwept, unregisterControl_pm]
  apply if_congr _ rfl rfl
  rw [mem_sweptNames h, ProxyManager.mem_listClientProxyNames h]
  constructor
  · rintro ⟨⟨info, hget, hrun⟩, htest⟩
    rw [hget] at htest
    have hgen : info.controlId = 0 ∨ info.controlId = controlId := by
      simpa [ofGeneration] using htest
    refine ⟨info, hget, (mem_swept h).mpr ⟨?_, hrun, ?_⟩⟩
    · rw [ProxyManager.named_of_get h hget]
      exact hget
    · omega
  · rintro ⟨p, hget, hp⟩
    refine ⟨⟨p, hget, ((mem_swept h).mp hp).2.1⟩, ?_⟩
    rw [hget]
    simpa [ofGeneration] using hown p hp

theorem cleanup_tcpGroups (s : AppState) (runId : String) (controlId : Nat) :
    (s.cleanup now runId controlId).tcpGroups =
      (s.sweepTcpPorts now (swept s.pm runId controlId)).tcpGroups := by
  unfold cleanup
  rw [foldl_field tcpGroups (removeSwept controlId) (fun _ _ => rfl), unregisterControl_tcpGroups]

theorem cleanup_usedPorts (s : AppState) (runId : String) (controlId : Nat) :
    (s.cleanup now runId controlId).usedPorts =
      (s.sweepTcpPorts now (swept s.pm runId controlId)).usedPorts := by
  unfold cleanup
  rw [foldl_field usedPorts (removeSwept controlId) (fun _ _ => rfl), unregisterControl_usedPorts]

theorem mem_usedUdpPorts_cleanup (s : AppState) (runId : String) (controlId : Nat) (q : UInt16) :
    q ∈ (s.cleanup now runId controlId).usedUdpPorts ↔
      q ∈ s.usedUdpPorts ∧ forall p, p ∈ swept s.pm runId controlId ->
        s.sweptUdpPort (swept s.pm runId controlId) p ≠ some q := by
  unfold cleanup
  rw [foldl_field usedUdpPorts (removeSwept controlId) (fun _ _ => rfl),
    mem_usedUdpPorts_unregisterControl]

theorem reservesPorts_cleanup (h : s.ReservesPorts) (runId : String) (controlId : Nat) :
    (s.cleanup now runId controlId).ReservesPorts := by
  exact @foldl_keeps _ ReservesPorts (removeSwept controlId) (fun _ _ h => h) _ _
    (reservesPorts_unregisterControl now h runId controlId)

theorem indexed_cleanup (h : s.pm.Indexed) (runId : String) (controlId : Nat) :
    (s.cleanup now runId controlId).pm.Indexed := by
  apply indexed_foldl_removeSwept
  rw [unregisterControl_pm]
  exact h

end AppState
end Server
end FrpRs
