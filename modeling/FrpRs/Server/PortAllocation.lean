import FrpRs.Data.Tasks
import FrpRs.Server.Registration

/-!
# Concurrent port allocation

`allocate_proxy_port` of `frp-server/src/control/proxy_ops/ports.rs`, when several calls and the
releases of ports run at the same time.  A call gives way wherever it awaits a lock or a probe of
the operating system.  The answers of the probes, the clock and the ranges in force are data.

A call with a port of its own checks it, probes it and commits it.  When the port is taken in
between, the commit looks for any free port instead.
-/

namespace FrpRs
namespace Server
namespace PortAllocation

open List Tasks

/-!
## Calls
-/

/-- The ranges are those that the call reads. -/
structure Call where
  name : String
  type : ProxyType
  remotePort : UInt16
  allowPorts : List PortsRange

structure Answer where
  now : Nat
  udpBindable : UInt16 -> Bool
  tcpBindable : UInt16 -> Bool

def Call.env (call : Call) (answer : Answer) : Surroundings where
  pluginRejection := none
  vnetRejection := none
  allowPorts := call.allowPorts
  now := answer.now
  udpBindable := answer.udpBindable
  tcpBindable := fun _ => answer.tcpBindable
  udpBind := none
  tcpBind := fun _ => none

/-- What the rest of the server does to the ports. -/
inductive Change where
  | release (port : UInt16)
  | releaseUdp (port : UInt16)
  | mark (port : UInt16)
  | reserve (name : String) (port : UInt16) (isUdp : Bool) (now : Nat)

inductive Entry where
  | returned (call : Call) (port : UInt16)
  | released (port : UInt16)

/-- The tables, and what has been returned and released so far. -/
structure Ports where
  app : AppState
  log : List Entry

/-- Where a call has given way.  A candidate that is committed comes from a reservation or from
the request and the ranges. -/
inductive Task where
  | done
  | changing (change : Change)
  | entered (call : Call)
  | udpScan (call : Call)
  | tcpProbe (call : Call)
  | tcpReservedUsed (call : Call) (port : UInt16)
  | tcpReservedProbe (call : Call) (port : UInt16)
  | tcpPick (call : Call)
  | tcpScan (call : Call) (candidates : List UInt16)
  | tcpCommit (call : Call) (port : UInt16) (reserved : Bool)

inductive Operation where
  | allocate (call : Call)
  | change (change : Change)

def begin : Operation -> Task
  | .allocate call => .entered call
  | .change change => .changing change

def returnedEntry (call : Call) : Except PortError UInt16 -> List Entry
  | .ok port => [.returned call port]
  | .error _ => []

namespace Ports

def reply (s : Ports) (call : Call) (r : AppState × Except PortError UInt16) : Ports × Task :=
  ({ app := r.1, log := s.log ++ returnedEntry call r.2 }, .done)

def change (s : Ports) : Change -> Ports
  | .release port => { app := s.app.unmarkTcp port, log := s.log ++ [.released port] }
  | .releaseUdp port => { s with app := s.app.unmarkUdp port }
  | .mark port => { s with app := s.app.markTcp port }
  | .reserve name port isUdp now => { s with app := s.app.reserve name port isUdp now }

end Ports

/-- An explicit port, before it is probed. -/
def classify (s : Ports) (call : Call) : Ports × Task :=
  if call.remotePort ∈ s.app.usedPorts then s.reply call (s.app, .error .alreadyUsed)
  else if !(call.allowPorts.isEmpty || call.allowPorts.any fun r => r.contains call.remotePort) then
    s.reply call (s.app, .error .notAllowed)
  else (s, .tcpProbe call)

def tcpReservation (answer : Answer) (s : Ports) (call : Call) : Ports × Task :=
  let r := s.app.reservedPort (call.env answer) false call.name
  ({ s with app := r.1 },
    match r.2 with
    | some port => .tcpReservedUsed call port
    | none => .tcpPick call)

def udpReserved (answer : Answer) (s : Ports) (call : Call) : Option UInt16 :=
  (s.app.reservedPort (call.env answer) true call.name).2.filter fun port =>
    port ∉ s.app.usedUdpPorts && answer.udpBindable port

def udpReservation (answer : Answer) (s : Ports) (call : Call) : Ports × Task :=
  let app := (s.app.reservedPort (call.env answer) true call.name).1
  match udpReserved answer s call with
  | some port => s.reply call (app.markUdp port, .ok port)
  | none => ({ s with app := app }, .udpScan call)

/-- The first lock of a call. -/
def enter (cfg : ServerConfig) (answer : Answer) (s : Ports) (call : Call) : Ports × Task :=
  let port := AppState.requestedPort cfg call.type call.remotePort
  if !call.type.consumesPort then s.reply call (s.app, .ok port)
  else if call.type.isUdp then
    if 0 < port then
      s.reply call (s.app.allocateUdpPort (call.env answer) call.name (call.type = .sudp) port)
    else udpReservation answer s call
  else if port = 0 then tcpReservation answer s call
  else classify s call

def udpScan (answer : Answer) (s : Ports) (call : Call) : Ports × Task :=
  match AppState.scanUdpPorts (call.env answer) s.app.usedUdpPorts with
  | some port => s.reply call (s.app.markUdp port, .ok port)
  | none => s.reply call (s.app, .error .noAvailable)

def advance (cfg : ServerConfig) (answer : Answer) (s : Ports) : Task -> Ports × Task
  | .done => (s, .done)
  | .changing change => (s.change change, .done)
  | .entered call => enter cfg answer s call
  | .udpScan call => udpScan answer s call
  | .tcpProbe call =>
    if answer.tcpBindable call.remotePort then (s, .tcpCommit call call.remotePort false)
    else s.reply call (s.app, .error .unAvailable)
  | .tcpReservedUsed call port =>
    (s, if port ∈ s.app.usedPorts then .tcpPick call else .tcpReservedProbe call port)
  | .tcpReservedProbe call port =>
    (s, if answer.tcpBindable port then .tcpCommit call port true else .tcpPick call)
  | .tcpPick call =>
    (s, .tcpScan call (AppState.pickTcpPortCandidates s.app.usedPorts call.allowPorts 4096))
  | .tcpScan call candidates =>
    match candidates.find? answer.tcpBindable with
    | some port => (s, .tcpCommit call port false)
    | none => s.reply call (s.app, .error .noAvailable)
  | .tcpCommit call port _ => s.reply call (s.app.commitTcpPort (call.env answer) 0 port)

def program (cfg : ServerConfig) : Program Ports Operation Task Answer where
  begin := begin
  advance := advance cfg

def init : System Ports Task where
  state := { app := AppState.new, log := [] }
  tasks := []

/-!
## A call that is not disturbed
-/

def runAlone (cfg : ServerConfig) (answer : Answer) : Nat -> Ports × Task -> Ports × Task
  | 0, r => r
  | n + 1, r => runAlone cfg answer n (advance cfg answer r.1 r.2)

variable (cfg : ServerConfig)
variable (answer : Answer)

theorem runAlone_done (n : Nat) (s : Ports) :
    runAlone cfg answer n (s, .done) = (s, .done) := by
  induction n with
  | zero => rfl
  | succ n ih => exact ih

theorem runAlone_reply (n : Nat) (s : Ports) (call : Call) (r : AppState × Except PortError UInt16) :
    runAlone cfg answer n (s.reply call r) = s.reply call r :=
  runAlone_done cfg answer n _

def commitFound (answer : Answer) (s : Ports) (call : Call) : Option UInt16 -> Ports × Task
  | some port => s.reply call (s.app.commitTcpPort (call.env answer) 0 port)
  | none => s.reply call (s.app, .error .noAvailable)

theorem runAlone_pick (n : Nat) (s : Ports) (call : Call) :
    runAlone cfg answer (n + 3) (s, .tcpPick call) =
      commitFound answer s call
        ((AppState.pickTcpPortCandidates s.app.usedPorts call.allowPorts 4096).find?
          answer.tcpBindable) := by
  rw [runAlone, advance, runAlone, advance]
  cases (AppState.pickTcpPortCandidates s.app.usedPorts call.allowPorts 4096).find?
      answer.tcpBindable with
  | none => exact runAlone_reply cfg answer _ s call _
  | some port => exact runAlone_reply cfg answer n s call _

theorem runAlone_reserved (s : Ports) (call : Call) (port : UInt16) :
    runAlone cfg answer 5 (s, .tcpReservedUsed call port) =
      if port ∉ s.app.usedPorts && answer.tcpBindable port then
        s.reply call (s.app.commitTcpPort (call.env answer) 0 port)
      else runAlone cfg answer 3 (s, .tcpPick call) := by
  rw [runAlone, advance]
  by_cases hused : port ∈ s.app.usedPorts
  · rw [if_pos hused, if_neg (by simp [hused]), runAlone_pick, runAlone_pick]
  · rw [if_neg hused, runAlone, advance]
    cases hbind : answer.tcpBindable port with
    | true =>
      rw [if_pos rfl, if_pos (by simp [hused])]
      exact runAlone_reply cfg answer 2 s call _
    | false => rw [if_neg Bool.false_ne_true, if_neg (by simp)]

theorem eq_tcp {type : ProxyType} (hconsumes : type.consumesPort = true)
    (hudp : type.isUdp = false) : type = .tcp := by
  cases type with
  | tcp => rfl
  | udp => cases hudp
  | sudp => cases hudp
  | _ => cases hconsumes

theorem requestedPort_tcp (remotePort : UInt16) :
    AppState.requestedPort cfg .tcp remotePort = remotePort := by
  apply if_neg
  intro h
  cases h.1

theorem reservedPort_used (s : AppState) (env : Surroundings) (isUdp : Bool) (name : String) :
    (s.reservedPort env isUdp name).1.usedPorts = s.usedPorts ∧
      (s.reservedPort env isUdp name).1.usedUdpPorts = s.usedUdpPorts := by
  unfold AppState.reservedPort
  split
  · exact ⟨rfl, rfl⟩
  · split
    · exact ⟨rfl, rfl⟩
    · exact ⟨rfl, rfl⟩

theorem runAlone_udp (n : Nat) (s : Ports) (call : Call) (isSudp : Bool) :
    runAlone cfg answer (n + 1) (udpReservation answer s call) =
      s.reply call (s.app.allocateUdpPort (call.env answer) call.name isSudp 0) := by
  have hused := (reservedPort_used s.app (call.env answer) true call.name).2
  have hbindable : (call.env answer).udpBindable = answer.udpBindable := rfl
  rw [udpReservation, udpReserved, AppState.allocateUdpPort, if_neg (by decide)]
  dsimp only
  rw [hused, hbindable]
  generalize s.app.reservedPort (call.env answer) true call.name = r at hused ⊢
  cases r.2.filter fun port => port ∉ s.app.usedUdpPorts && answer.udpBindable port with
  | some port => exact runAlone_reply cfg answer (n + 1) s call _
  | none =>
    rw [Option.none_or, runAlone, advance, udpScan]
    rw [hused]
    cases AppState.scanUdpPorts (call.env answer) s.app.usedUdpPorts with
    | none => exact runAlone_reply cfg answer n _ call _
    | some port => exact runAlone_reply cfg answer n _ call _

theorem runAlone_classify (n : Nat) (s : Ports) (call : Call) (hport : call.remotePort ≠ 0) :
    runAlone cfg answer (n + 2) (classify s call) =
      s.reply call (s.app.allocateTcpPort (call.env answer) 0 call.name call.remotePort) := by
  rw [classify, AppState.allocateTcpPort, AppState.tcpCandidate, if_neg hport]
  by_cases hused : call.remotePort ∈ s.app.usedPorts
  · rw [if_pos hused, if_pos hused]
    exact runAlone_reply cfg answer (n + 2) s call _
  · rw [if_neg hused, if_neg hused]
    have hranges : (call.env answer).allowPorts = call.allowPorts := rfl
    rw [hranges]
    split
    · exact runAlone_reply cfg answer (n + 2) s call _
    · rw [runAlone, advance]
      have hbindable : (call.env answer).tcpBindable 0 = answer.tcpBindable := rfl
      rw [hbindable]
      cases answer.tcpBindable call.remotePort with
      | true => exact runAlone_reply cfg answer n s call _
      | false => exact runAlone_reply cfg answer (n + 1) s call _

theorem runAlone_auto (s : Ports) (call : Call) :
    runAlone cfg answer 5 (tcpReservation answer s call) =
      s.reply call (s.app.allocateTcpPort (call.env answer) 0 call.name 0) := by
  have hbindable : (call.env answer).tcpBindable 0 = answer.tcpBindable := rfl
  have hranges : (call.env answer).allowPorts = call.allowPorts := rfl
  rw [tcpReservation, AppState.allocateTcpPort, AppState.tcpCandidate, if_pos rfl]
  dsimp only
  rw [hbindable, hranges]
  generalize s.app.reservedPort (call.env answer) false call.name = r
  generalize hs : ({ app := r.1, log := s.log } : Ports) = s'
  have happ : r.1 = s'.app := by rw [← hs]
  have hreply : forall q, s.reply call q = s'.reply call q := by
    intro q
    rw [← hs]
    rfl
  rw [happ, hreply]
  cases r.2 with
  | none =>
    rw [runAlone_pick, Option.filter_none, Option.none_or]
    cases (AppState.pickTcpPortCandidates s'.app.usedPorts call.allowPorts 4096).find?
      answer.tcpBindable with
    | none => rfl
    | some port => rfl
  | some port =>
    rw [runAlone_reserved]
    cases hfree : decide (port ∉ s'.app.usedPorts) && answer.tcpBindable port with
    | true =>
      rw [if_pos rfl, Option.filter_some, hfree, if_pos rfl]
      rfl
    | false =>
      rw [if_neg Bool.false_ne_true, Option.filter_some, hfree, if_neg Bool.false_ne_true,
        runAlone_pick, Option.none_or]
      cases (AppState.pickTcpPortCandidates s'.app.usedPorts call.allowPorts 4096).find?
        answer.tcpBindable with
      | none => rfl
      | some port => rfl

/-- The steps of a call that no other call disturbs are the sequential allocation. -/
theorem undisturbed_allocation (cfg : ServerConfig) (answer : Answer) (s : Ports) (call : Call) :
    runAlone cfg answer 6 (s, .entered call) =
      s.reply call (s.app.allocateProxyPort cfg (call.env answer) 0 call.name call.type
        call.remotePort) := by
  rw [runAlone, advance, enter, AppState.allocateProxyPort]
  cases hconsumes : call.type.consumesPort with
  | false => exact runAlone_reply cfg answer 5 s call _
  | true =>
    cases hudp : call.type.isUdp with
    | true =>
      simp only [Bool.not_true, Bool.false_eq_true, if_false, if_true]
      split
      · exact runAlone_reply cfg answer 5 s call _
      · rename_i hport
        have hzero : AppState.requestedPort cfg call.type call.remotePort = 0 := by
          simpa using hport
        rw [hzero]
        exact runAlone_udp cfg answer 4 s call _
    | false =>
      simp only [Bool.not_true, Bool.false_eq_true, if_false]
      rw [eq_tcp hconsumes hudp, requestedPort_tcp]
      split
      · rename_i hzero
        rw [hzero]
        exact runAlone_auto cfg answer s call
      · rename_i hport
        exact runAlone_classify cfg answer 3 s call hport

/-!
## What a step returns
-/

def Call.allows (call : Call) (port : UInt16) : Bool :=
  call.allowPorts.isEmpty || call.allowPorts.any fun r => r.contains port

/-- The entries that a step adds to the log. -/
def added (cfg : ServerConfig) (answer : Answer) (s : Ports) : Task -> List Entry
  | .changing (.release port) => [.released port]
  | .entered call =>
    let port := AppState.requestedPort cfg call.type call.remotePort
    if !call.type.consumesPort then [.returned call port]
    else if call.type.isUdp then
      if 0 < port then
        returnedEntry call
          (s.app.allocateUdpPort (call.env answer) call.name (call.type = .sudp) port).2
      else (udpReserved answer s call).toList.map (Entry.returned call)
    else []
  | .udpScan call =>
    (AppState.scanUdpPorts (call.env answer) s.app.usedUdpPorts).toList.map (Entry.returned call)
  | .tcpCommit call port _ =>
    returnedEntry call (s.app.commitTcpPort (call.env answer) 0 port).2
  | _ => []

theorem enter_log (s : Ports) (call : Call) :
    (enter cfg answer s call).1.log = s.log ++ added cfg answer s (.entered call) := by
  rw [enter, added]
  split
  · rfl
  · split
    · split
      · rfl
      · rw [udpReservation]
        cases udpReserved answer s call with
        | some port => rfl
        | none => exact (append_nil _).symm
    · split
      · exact (append_nil _).symm
      · rw [classify]
        split
        · rfl
        · split
          · rfl
          · exact (append_nil _).symm

theorem advance_log (s : Ports) (t : Task) :
    (advance cfg answer s t).1.log = s.log ++ added cfg answer s t := by
  have hnil : s.log = s.log ++ [] := (append_nil _).symm
  cases t with
  | changing change =>
    cases change with
    | release port => rfl
    | _ => exact hnil
  | entered call => exact enter_log cfg answer s call
  | udpScan call =>
    rw [advance, udpScan, added]
    cases AppState.scanUdpPorts (call.env answer) s.app.usedUdpPorts with
    | some port => rfl
    | none => rfl
  | tcpProbe call =>
    rw [advance]
    split
    · exact hnil
    · rfl
  | tcpScan call candidates =>
    rw [advance]
    cases candidates.find? answer.tcpBindable with
    | some port => exact hnil
    | none => rfl
  | tcpCommit call port reserved => rfl
  | _ => exact hnil

/-!
## Where a call stands
-/

variable {port : UInt16}

theorem contains_of_mem_iter {r : PortsRange} (h : port ∈ r.iter) :
    r.contains port = true := by
  unfold PortsRange.iter at h
  unfold PortsRange.contains
  split at h
  · rename_i hsingle
    rw [if_pos hsingle, mem_singleton.mp h, decide_eq_true rfl]
  · rename_i hsingle
    rcases mem_map.mp h with ⟨n, hn, hport⟩
    have hbounds := mem_range'_1.mp hn
    have hlast := r.last.toNat_lt
    have hsize : n < UInt16.size := by
      rw [UInt16.size]
      omega
    have hnat : port.toNat = n := by
      rw [← hport]
      exact UInt16.toNat_ofNat_of_lt' hsize
    rw [if_neg hsingle, decide_eq_true_eq, UInt16.le_iff_toNat_le, UInt16.le_iff_toNat_le]
    omega

variable {call : Call}

theorem Call.allows_of_mem (h : port ∈ call.allowPorts.flatMap PortsRange.iter) :
    call.allows port = true := by
  rcases mem_flatMap.mp h with ⟨r, hr, hport⟩
  have hany : (call.allowPorts.any fun r => r.contains port) = true :=
    any_eq_true.mpr ⟨r, hr, contains_of_mem_iter hport⟩
  rw [Call.allows, hany, Bool.or_true]

theorem mem_ranges_of_pick {used : Finset UInt16} {ranges : List PortsRange} {limit : Nat}
    (h : port ∈ AppState.pickTcpPortCandidates used ranges limit) :
    port ∈ ranges.flatMap PortsRange.iter ∧ port ∉ used := by
  have hmem := mem_filter.mp (mem_of_mem_take h)
  exact ⟨hmem.1, of_decide_eq_true hmem.2⟩

namespace Task

/-- What a task knows of its call: an explicit port is committed as it is, and every candidate
that does not come from a reservation is allowed. -/
def Placed : Task -> Prop
  | .done | .changing _ | .entered _ => True
  | .udpScan call => call.type.isUdp = true
  | .tcpProbe call => call.type = .tcp ∧ call.allows call.remotePort = true
  | .tcpReservedUsed call _ | .tcpReservedProbe call _ | .tcpPick call =>
    call.type = .tcp ∧ call.remotePort = 0
  | .tcpScan call candidates =>
    (call.type = .tcp ∧ call.remotePort = 0) ∧
      forall port, port ∈ candidates -> call.allows port = true
  | .tcpCommit call port reserved =>
    call.type = .tcp ∧ (call.remotePort ≠ 0 -> port = call.remotePort) ∧
      (reserved = false -> call.allows port = true)

end Task

theorem placed_enter (s : Ports) (call : Call) :
    (enter cfg answer s call).2.Placed := by
  rw [enter]
  cases hconsumes : call.type.consumesPort with
  | false => trivial
  | true =>
    rw [if_neg (by decide)]
    cases hudp : call.type.isUdp with
    | true =>
      rw [if_pos rfl]
      split
      · trivial
      · rw [udpReservation]
        cases udpReserved answer s call with
        | some port => trivial
        | none => exact hudp
    | false =>
      have htype := eq_tcp hconsumes hudp
      rw [if_neg Bool.false_ne_true, htype, requestedPort_tcp]
      split
      · rename_i hzero
        rw [tcpReservation]
        cases (s.app.reservedPort (call.env answer) false call.name).2 with
        | some port => exact ⟨htype, hzero⟩
        | none => exact ⟨htype, hzero⟩
      · rw [classify]
        split
        · trivial
        · split
          · trivial
          · rename_i hallowed
            rw [Bool.not_eq_true', Bool.not_eq_false] at hallowed
            exact ⟨htype, hallowed⟩

variable {t : Task}

theorem placed_advance (s : Ports) (h : t.Placed) :
    (advance cfg answer s t).2.Placed := by
  cases t with
  | done => trivial
  | changing change => trivial
  | entered call => exact placed_enter cfg answer s call
  | udpScan call =>
    rw [advance, udpScan]
    cases AppState.scanUdpPorts (call.env answer) s.app.usedUdpPorts with
    | some port => trivial
    | none => trivial
  | tcpProbe call =>
    rw [advance]
    split
    · exact ⟨h.1, fun _ => rfl, fun _ => h.2⟩
    · trivial
  | tcpReservedUsed call port =>
    rw [advance]
    split
    · exact h
    · exact h
  | tcpReservedProbe call port =>
    rw [advance]
    split
    · exact ⟨h.1, fun hne => absurd h.2 hne, fun habs => absurd habs (by decide)⟩
    · exact h
  | tcpPick call =>
    refine ⟨h, ?_⟩
    intro port hport
    exact Call.allows_of_mem (mem_ranges_of_pick hport).1
  | tcpScan call candidates =>
    rw [advance]
    cases hfind : candidates.find? answer.tcpBindable with
    | none => trivial
    | some port =>
      exact ⟨h.1.1, fun hne => absurd h.1.2 hne,
        fun _ => h.2 port (mem_of_find?_eq_some hfind)⟩
  | tcpCommit call port reserved => trivial

theorem placed_step {s : System Ports Task} (h : forall t, t ∈ s.tasks -> t.Placed)
    (e : Event Operation Answer) :
    forall t, t ∈ ((program cfg).step s e).tasks -> t.Placed := by
  apply forall_tasks_step _ _ h e
  · intro op
    cases op with
    | allocate call => trivial
    | change change => trivial
  · intro answer state t ht
    exact placed_advance cfg answer state ht

/-!
## Explicit ports
-/

def Entry.Exact : Entry -> Prop
  | .returned call port => call.type = .tcp -> 0 < call.remotePort -> port = call.remotePort
  | .released _ => True

def retryPort (answer : Answer) (s : Ports) (call : Call) : Option UInt16 :=
  ((AppState.pickTcpPortCandidates s.app.usedPorts call.allowPorts 64).filter
    fun c => c ∉ s.app.usedPorts).find? answer.tcpBindable

def undisturbed (s : System Ports Task) (answer : Answer) : Task -> Bool
  | .tcpCommit call port _ =>
    call.remotePort = 0 || port ∉ s.state.app.usedPorts ||
      (retryPort answer s.state call).isNone
  | _ => true

variable {s : Ports}

theorem commitTcpPort_free (h : port ∉ s.app.usedPorts) (answer : Answer) (call : Call) :
    s.app.commitTcpPort (call.env answer) 0 port = (s.app.markTcp port, .ok port) :=
  if_neg h

theorem commitTcpPort_taken (h : port ∈ s.app.usedPorts) (answer : Answer) (call : Call) :
    s.app.commitTcpPort (call.env answer) 0 port =
      ((retryPort answer s call).elim (s.app, Except.error PortError.noAvailable)
        fun other => (s.app.markTcp other, Except.ok other)) := by
  rw [AppState.commitTcpPort, if_pos h, retryPort]
  have hranges : (call.env answer).allowPorts = call.allowPorts := rfl
  have hbindable : (call.env answer).tcpBindable 0 = answer.tcpBindable := rfl
  rw [hranges, hbindable]
  cases ((AppState.pickTcpPortCandidates s.app.usedPorts call.allowPorts 64).filter
      fun c => c ∉ s.app.usedPorts).find? answer.tcpBindable with
  | none => rfl
  | some other => rfl

theorem retryPort_spec {answer : Answer} {other : UInt16} (h : retryPort answer s call = some other) :
    other ∉ s.app.usedPorts ∧ call.allows other = true := by
  have hmem := mem_filter.mp (mem_of_find?_eq_some h)
  exact ⟨of_decide_eq_true hmem.2, Call.allows_of_mem (mem_ranges_of_pick hmem.1).1⟩

theorem commitTcpPort_cases (s : Ports) (call : Call) (port : UInt16) :
    (exists e, s.app.commitTcpPort (call.env answer) 0 port = (s.app, Except.error e)) ∨
      exists p, p ∉ s.app.usedPorts ∧
        s.app.commitTcpPort (call.env answer) 0 port = (s.app.markTcp p, Except.ok p) := by
  by_cases hused : port ∈ s.app.usedPorts
  · rw [commitTcpPort_taken hused]
    cases hretry : retryPort answer s call with
    | none => exact .inl ⟨_, rfl⟩
    | some other => exact .inr ⟨other, (retryPort_spec hretry).1, rfl⟩
  · exact .inr ⟨port, hused, commitTcpPort_free hused answer call⟩

variable {ok : Entry -> Prop}

theorem forall_mem_toList_map {port : Option UInt16} :
    (forall e, e ∈ port.toList.map (Entry.returned call) -> ok e) ↔
      forall p, port = some p -> ok (.returned call p) := by
  cases port with
  | none =>
    constructor
    · intro _ p hp
      cases hp
    · intro _ e he
      cases he
  | some p =>
    constructor
    · intro h p' hp
      cases hp
      exact h _ mem_cons_self
    · intro h e he
      rw [mem_singleton.mp he]
      exact h p rfl

theorem forall_mem_returnedEntry {r : Except PortError UInt16} :
    (forall e, e ∈ returnedEntry call r -> ok e) ↔
      forall p, r = .ok p -> ok (.returned call p) := by
  cases r with
  | error _ =>
    constructor
    · intro _ p hp
      cases hp
    · intro _ e he
      cases he
  | ok p =>
    constructor
    · intro h p' hp
      cases hp
      exact h _ mem_cons_self
    · intro h e he
      rw [mem_singleton.mp he]
      exact h p rfl

theorem exact_of_ne_tcp (h : call.type ≠ .tcp) (port : UInt16) :
    (Entry.returned call port).Exact :=
  fun htcp => absurd htcp h

theorem added_ne_tcp (s : Ports) (call : Call) :
    forall e, e ∈ added cfg answer s (.entered call) ->
      exists port, e = .returned call port ∧ call.type ≠ .tcp := by
  rw [added]
  split
  · rename_i hconsumes
    intro e he
    refine ⟨_, mem_singleton.mp he, ?_⟩
    intro htcp
    rw [htcp] at hconsumes
    cases hconsumes
  · split
    · rename_i hudp
      have hne : call.type ≠ .tcp := by
        intro htcp
        rw [htcp] at hudp
        cases hudp
      split
      · exact forall_mem_returnedEntry.mpr fun p _ => ⟨p, rfl, hne⟩
      · exact forall_mem_toList_map.mpr fun p _ => ⟨p, rfl, hne⟩
    · intro e he
      cases he

theorem exact_added_iff (s : System Ports Task) (answer : Answer) (ht : t.Placed) :
    (forall e, e ∈ added cfg answer s.state t -> e.Exact) ↔ undisturbed s answer t = true := by
  have hnil : (forall e : Entry, e ∈ [] -> e.Exact) ↔ True :=
    ⟨fun _ => trivial, fun _ e he => absurd he not_mem_nil⟩
  cases t with
  | changing change =>
    cases change with
    | release port =>
      refine ⟨fun _ => rfl, fun _ e he => ?_⟩
      rw [mem_singleton.mp he]
      trivial
    | _ => exact hnil.trans ⟨fun _ => rfl, fun _ => trivial⟩
  | entered call =>
    refine ⟨fun _ => rfl, fun _ e he => ?_⟩
    rcases added_ne_tcp cfg answer s.state call e he with ⟨port, heq, hne⟩
    rw [heq]
    exact exact_of_ne_tcp hne port
  | udpScan call =>
    refine ⟨fun _ => rfl, fun _ => forall_mem_toList_map.mpr fun p _ => ?_⟩
    apply exact_of_ne_tcp
    intro htcp
    rw [Task.Placed, htcp] at ht
    cases ht
  | tcpCommit call port reserved =>
    rcases ht with ⟨htype, hexplicit, _⟩
    rw [added, forall_mem_returnedEntry, undisturbed]
    by_cases hzero : call.remotePort = 0
    · rw [hzero]
      refine ⟨fun _ => rfl, fun _ p _ _ hpos => absurd hpos ?_⟩
      rw [hzero]
      decide
    · have hport := hexplicit hzero
      have hpos : 0 < call.remotePort := UInt16.pos_iff_ne_zero.mpr hzero
      rw [decide_eq_false hzero, Bool.false_or]
      by_cases hused : port ∈ s.state.app.usedPorts
      · rw [commitTcpPort_taken hused, decide_eq_false (fun hfree => hfree hused), Bool.false_or]
        cases hretry : retryPort answer s.state call with
        | none =>
          refine ⟨fun _ => rfl, fun _ p hp => ?_⟩
          cases hp
        | some other =>
          constructor
          · intro hexact
            have heq := hexact other rfl htype hpos
            apply absurd hused
            rw [hport, ← heq]
            exact (retryPort_spec hretry).1
          · intro habs
            cases habs
      · rw [commitTcpPort_free hused, decide_eq_true hused, Bool.true_or]
        refine ⟨fun _ => rfl, fun _ p hp _ _ => ?_⟩
        cases hp
        exact hport
  | _ => exact hnil.trans ⟨fun _ => rfl, fun _ => trivial⟩

/-!
## Ports that are held
-/

def Unshared (log : List Entry) : Prop :=
  forall before call port between call' after,
    log = before ++ .returned call port :: (between ++ .returned call' port :: after) ->
    call.type = .tcp -> call'.type = .tcp -> Entry.released port ∈ between

def Marked (s : Ports) : Prop :=
  forall before call port after, s.log = before ++ .returned call port :: after ->
    call.type = .tcp -> Entry.released port ∉ after -> port ∈ s.app.usedPorts

theorem append_singleton_split {log before after : List Entry} {x e : Entry}
    (h : log ++ [e] = before ++ x :: after) :
    (after = [] ∧ before = log ∧ x = e) ∨
      exists rest, after = rest ++ [e] ∧ log = before ++ x :: rest := by
  rcases eq_nil_or_concat after with rfl | ⟨rest, last, rfl⟩
  · have hparts := append_inj' h rfl
    exact .inl ⟨rfl, hparts.1.symm, (cons.inj hparts.2).1.symm⟩
  · rw [concat_eq_append, ← cons_append, ← append_assoc] at h
    have hparts := append_inj' h rfl
    have hlast : e = last := (cons.inj hparts.2).1
    rw [concat_eq_append, hlast]
    exact .inr ⟨rest, rfl, hparts.1⟩

variable {app : AppState}

theorem marked_mono (h : Marked s) (hused : s.app.usedPorts ⊆ app.usedPorts) :
    Marked { s with app := app } :=
  fun before call port after hlog htype hfree =>
    hused (h before call port after hlog htype hfree)

theorem marked_return (h : Marked s) (hused : s.app.usedPorts ⊆ app.usedPorts)
    (hport : call.type = .tcp -> port ∈ app.usedPorts) :
    Marked { app := app, log := s.log ++ [.returned call port] } := by
  intro before call' port' after hlog htype hfree
  rcases append_singleton_split hlog with ⟨_, _, hentry⟩ | ⟨rest, hafter, hrest⟩
  · injection hentry with hcall hport'
    rw [hport']
    exact hport (hcall ▸ htype)
  · rw [hafter, mem_append, not_or] at hfree
    exact hused (h before call' port' rest hrest htype hfree.1)

theorem marked_release (h : Marked s) (port : UInt16) :
    Marked (s.change (.release port)) := by
  intro before call port' after hlog htype hfree
  rcases append_singleton_split hlog with ⟨_, _, hentry⟩ | ⟨rest, hafter, hrest⟩
  · cases hentry
  · rw [hafter, mem_append, not_or] at hfree
    have hne : port' ≠ port := by
      intro heq
      rw [heq] at hfree
      exact hfree.2 (mem_singleton_self _)
    exact Finset.mem_erase.mpr ⟨hne, h before call port' rest hrest htype hfree.1⟩

theorem unshared_release {log : List Entry} (h : Unshared log) (port : UInt16) :
    Unshared (log ++ [.released port]) := by
  intro before call port' between call' after hlog htype htype'
  rw [← cons_append, ← append_assoc] at hlog
  rcases append_singleton_split hlog with ⟨_, _, hentry⟩ | ⟨rest, _, hrest⟩
  · cases hentry
  · rw [append_assoc, cons_append] at hrest
    exact h before call port' between call' rest hrest htype htype'

theorem unshared_return (h : Unshared s.log) (hmarked : Marked s)
    (hfree : call.type = .tcp -> port ∉ s.app.usedPorts) :
    Unshared (s.log ++ [.returned call port]) := by
  intro before call₀ port' between call' after hlog htype htype'
  rw [← cons_append, ← append_assoc] at hlog
  rcases append_singleton_split hlog with ⟨_, hbefore, hentry⟩ | ⟨rest, _, hrest⟩
  · injection hentry with hcall hport
    apply Classical.byContradiction
    intro hreleased
    have hmark := hmarked before call₀ port' between hbefore.symm htype hreleased
    rw [hport] at hmark
    exact hfree (hcall ▸ htype') hmark
  · rw [append_assoc, cons_append] at hrest
    exact h before call₀ port' between call' rest hrest htype htype'

def Held (s : Ports) : Prop :=
  Marked s ∧ Unshared s.log

theorem held_mono (h : Held s) (hused : s.app.usedPorts ⊆ app.usedPorts) :
    Held { s with app := app } :=
  ⟨marked_mono h.1 hused, h.2⟩

theorem held_reply {r : AppState × Except PortError UInt16} (h : Held s)
    (hused : s.app.usedPorts ⊆ r.1.usedPorts) (hnew : forall p, r.2 = .ok p -> call.type = .tcp ->
      p ∉ s.app.usedPorts ∧ p ∈ r.1.usedPorts) : Held (s.reply call r).1 := by
  rw [Ports.reply]
  cases hr : r.2 with
  | error e =>
    rw [returnedEntry, append_nil]
    exact held_mono h hused
  | ok p =>
    constructor
    · exact marked_return h.1 hused fun htype => (hnew p hr htype).2
    · exact unshared_return h.2 h.1 fun htype => (hnew p hr htype).1

theorem held_reply_error {e : PortError} (h : Held s) :
    Held (s.reply call (s.app, .error e)).1 := by
  apply held_reply h (Finset.Subset.refl _)
  intro p hp
  cases hp

theorem held_reply_ne_tcp {r : AppState × Except PortError UInt16} (h : Held s)
    (hused : r.1.usedPorts = s.app.usedPorts) (htype : call.type ≠ .tcp) :
    Held (s.reply call r).1 := by
  apply held_reply h
  · rw [hused]
  · intro p _ htcp
    exact absurd htcp htype

theorem allocateUdpPort_explicit {env : Surroundings} {s : AppState} {name : String} {isSudp : Bool}
    (h : 0 < port) :
    s.allocateUdpPort env name isSudp port =
      if port ∈ s.usedUdpPorts then (s, if isSudp then .ok port else .error .alreadyUsed)
      else if !env.udpBindable port then (s, .error .unAvailable)
      else (s.markUdp port, .ok port) :=
  if_pos h

theorem held_enter (call : Call) (h : Held s) :
    Held (enter cfg answer s call).1 := by
  have hreserved := fun isUdp =>
    (reservedPort_used s.app (call.env answer) isUdp call.name).1
  rw [enter]
  cases hconsumes : call.type.consumesPort with
  | false =>
    apply held_reply_ne_tcp h rfl
    intro htcp
    rw [htcp] at hconsumes
    cases hconsumes
  | true =>
    rw [if_neg (by decide)]
    cases hudp : call.type.isUdp with
    | true =>
      have hne : call.type ≠ .tcp := by
        intro htcp
        rw [htcp] at hudp
        cases hudp
      rw [if_pos rfl]
      split
      · rename_i hport
        rw [allocateUdpPort_explicit hport]
        apply held_reply_ne_tcp h _ hne
        split
        · rfl
        · split
          · rfl
          · rfl
      · rw [udpReservation]
        cases udpReserved answer s call with
        | some port => exact held_reply_ne_tcp h (hreserved true) hne
        | none =>
          apply held_mono h
          rw [hreserved true]
    | false =>
      rw [if_neg Bool.false_ne_true]
      split
      · apply held_mono h
        rw [hreserved false]
      · rw [classify]
        split
        · exact held_reply_error h
        · split
          · exact held_reply_error h
          · exact h

theorem held_advance (ht : t.Placed) (h : Held s) :
    Held (advance cfg answer s t).1 := by
  cases t with
  | changing change =>
    cases change with
    | release port => exact ⟨marked_release h.1 port, unshared_release h.2 port⟩
    | releaseUdp port => exact held_mono h (Finset.Subset.refl _)
    | mark port => exact held_mono h (Finset.subset_insert port s.app.usedPorts)
    | reserve name port isUdp now => exact held_mono h (Finset.Subset.refl _)
  | entered call => exact held_enter cfg answer call h
  | udpScan call =>
    have hne : call.type ≠ .tcp := by
      intro htcp
      rw [Task.Placed, htcp] at ht
      cases ht
    rw [advance, udpScan]
    cases AppState.scanUdpPorts (call.env answer) s.app.usedUdpPorts with
    | some port => exact held_reply_ne_tcp h rfl hne
    | none => exact held_reply_error h
  | tcpProbe call =>
    rw [advance]
    split
    · exact h
    · exact held_reply_error h
  | tcpScan call candidates =>
    rw [advance]
    cases candidates.find? answer.tcpBindable with
    | some port => exact h
    | none => exact held_reply_error h
  | tcpCommit call port reserved =>
    rw [advance]
    rcases commitTcpPort_cases answer s call port with ⟨e, he⟩ | ⟨p, hfree, hp⟩
    · rw [he]
      exact held_reply_error h
    · rw [hp]
      apply held_reply h (Finset.subset_insert p s.app.usedPorts)
      intro p' hp' _
      cases hp'
      exact ⟨hfree, Finset.mem_insert_self p s.app.usedPorts⟩
  | _ => exact h

theorem held_step {s : System Ports Task} (htasks : forall t, t ∈ s.tasks -> t.Placed)
    (h : Held s.state) (e : Event Operation Answer) : Held ((program cfg).step s e).state := by
  apply good_step _ h e
  intro answer t ht
  exact held_advance cfg answer (htasks t ht) h

/-!
## Runs
-/

def Sound (s : System Ports Task) : Prop :=
  (forall t, t ∈ s.tasks -> t.Placed) ∧ Held s.state

theorem sound_step (s : System Ports Task) (e : Event Operation Answer) (h : Sound s) :
    Sound ((program cfg).step s e) :=
  ⟨placed_step cfg h.1 e, held_step cfg h.1 h.2 e⟩

theorem sound_init : Sound init := by
  have hlog : init.state.log = [] := rfl
  refine ⟨fun t ht => absurd ht not_mem_nil, ?_, ?_⟩
  · intro before call port after h
    cases append_ne_nil_of_right_ne_nil before (cons_ne_nil _ _) h.symm
  · intro before call port between call' after h
    cases append_ne_nil_of_right_ne_nil before (cons_ne_nil _ _) h.symm

theorem log_iff_along
    {good : System Ports Task -> Answer -> Task -> Bool}
    (hgood : forall s answer t, t.Placed ->
      ((forall e, e ∈ added cfg answer s.state t -> ok e) ↔ good s answer t = true))
    (events : List (Event Operation Answer)) :
    (forall pre, pre <+: events ->
      forall e, e ∈ (Run.run (program cfg).step init pre).state.log -> ok e) ↔
      Run.Along (program cfg).step
        (fun s e => s.Steps (fun s answer t => good s answer t = true) e) init events := by
  apply @Run.forall_prefix_iff_along _ _ _ _ Sound
    (fun s => forall e, e ∈ s.state.log -> ok e) (sound_step cfg) _ _ _ sound_init
  · intro e he
    cases he
  · intro s e hs hall
    apply @good_step_iff _ _ _ _ (program cfg) (fun s => forall e, e ∈ s.log -> ok e)
      (fun s answer t => good s answer t = true) s _ hall e
    intro answer t ht
    rw [← hgood s answer t (hs.1 t ht)]
    have hlog : ((program cfg).advance answer s.state t).1.log =
        s.state.log ++ added cfg answer s.state t := advance_log cfg answer s.state t
    constructor
    · intro hnext e he
      apply hnext e
      rw [hlog]
      exact mem_append_right _ he
    · intro hadded e he
      rw [hlog] at he
      rcases mem_append.mp he with he | he
      · exact hall e he
      · exact hadded e he

/-- Explicit TCP ports are returned as they are in exactly the runs where no commit finds its
explicit port taken and another one free; ports are never shared. -/
theorem explicit_ports_iff (cfg : ServerConfig) (events : List (Event Operation Answer)) :
    (forall pre, pre <+: events ->
      (forall e, e ∈ (Run.run (program cfg).step init pre).state.log -> e.Exact) ∧
        Unshared (Run.run (program cfg).step init pre).state.log) ↔
      Run.Along (program cfg).step
        (fun s e => s.Steps (fun s answer t => undisturbed s answer t = true) e) init events := by
  rw [← log_iff_along cfg fun s answer _ ht => exact_added_iff cfg s answer ht]
  constructor
  · intro h pre hpre
    exact (h pre hpre).1
  · intro h pre hpre
    exact ⟨h pre hpre, (Run.run_preserves (sound_step cfg) pre sound_init).2.2⟩

def sampleConfig : ServerConfig where
  maxPortsPerClient := 0
  maxProxiesPerClient := 0
  maxCustomDomainsPerProxy := 0
  sudpPort := 0
  subDomainHost := ""
  proxyBindAddr := ""
  detailedErrorsToClient := false
  toLowercase := id

def sampleRange : PortsRange where
  first := 7000
  last := 7001
  single := 0

def sampleCall (name : String) (type : ProxyType) (port : UInt16) : Call where
  name := name
  type := type
  remotePort := port
  allowPorts := [sampleRange]

def sampleAnswer : Answer where
  now := 0
  udpBindable := fun _ => true
  tcpBindable := fun _ => true

/-- Two calls ask for one port; both probe it before either commits. -/
def racingRun : List (Event Operation Answer) :=
  [.start (.allocate (sampleCall "a" .tcp 7000)), .start (.allocate (sampleCall "b" .tcp 7000)),
    .advance 0 sampleAnswer, .advance 1 sampleAnswer, .advance 0 sampleAnswer,
    .advance 1 sampleAnswer, .advance 0 sampleAnswer, .advance 1 sampleAnswer]

/-- The second call gets a port that it did not ask for. -/
theorem explicit_port_replaced :
    (Run.run (program sampleConfig).step init racingRun).state.log =
      [.returned (sampleCall "a" .tcp 7000) 7000, .returned (sampleCall "b" .tcp 7000) 7001] ∧
      ¬ (Entry.returned (sampleCall "b" .tcp 7000) 7001).Exact := by
  refine ⟨rfl, ?_⟩
  intro hexact
  exact absurd (hexact rfl (by decide)) (by decide)

/-!
## Allowed ports
-/

def forced (cfg : ServerConfig) (call : Call) : Bool :=
  call.type = .sudp && 0 < cfg.sudpPort

def Entry.Allowed (cfg : ServerConfig) : Entry -> Prop
  | .returned call port =>
    call.type.consumesPort = true ->
      call.allows port = true ∨ (forced cfg call = true ∧ port = cfg.sudpPort)
  | .released _ => True

def udpRefused (answer : Answer) (s : Ports) (call : Call) (port : UInt16) : Bool :=
  if port ∈ s.app.usedUdpPorts then call.type ≠ .sudp else !answer.udpBindable port

/-- An explicit UDP port is allowed, forced or refused, and so is the port of a reservation that is
taken. -/
def permitted (cfg : ServerConfig) (s : System Ports Task) (answer : Answer) : Task -> Bool
  | .entered call =>
    let port := AppState.requestedPort cfg call.type call.remotePort
    !call.type.isUdp ||
      if 0 < port then
        forced cfg call || call.allows port || udpRefused answer s.state call port
      else (udpReserved answer s.state call).all call.allows
  | .tcpCommit call port reserved =>
    !reserved || port ∈ s.state.app.usedPorts || call.allows port
  | _ => true

theorem requestedPort_forced {cfg : ServerConfig} (h : forced cfg call = true) :
    AppState.requestedPort cfg call.type call.remotePort = cfg.sudpPort := by
  rw [forced, Bool.and_eq_true, decide_eq_true_eq, decide_eq_true_eq] at h
  exact if_pos h

theorem allocateUdpPort_ok_iff {answer : Answer} {port p : UInt16} (hport : 0 < port) :
    (s.app.allocateUdpPort (call.env answer) call.name (call.type = .sudp) port).2 = .ok p ↔
      p = port ∧ udpRefused answer s call port = false := by
  have hbindable : (call.env answer).udpBindable = answer.udpBindable := rfl
  rw [allocateUdpPort_explicit hport, udpRefused, hbindable]
  by_cases hused : port ∈ s.app.usedUdpPorts
  · rw [if_pos hused, if_pos hused]
    by_cases hsudp : call.type = .sudp
    · simp [hsudp, eq_comm]
    · simp [hsudp]
  · rw [if_neg hused, if_neg hused]
    cases answer.udpBindable port with
    | true => simp [eq_comm]
    | false => simp

theorem isUdp_of_not_consumes {type : ProxyType} (h : type.consumesPort = false) :
    type.isUdp = false := by
  cases type with
  | udp => cases h
  | sudp => cases h
  | _ => rfl

theorem allowed_explicit_iff (s : Ports) (answer : Answer)
    (hconsumes : call.type.consumesPort = true) (hport : 0 < port)
    (hrequested : AppState.requestedPort cfg call.type call.remotePort = port) :
    (forall e, e ∈ returnedEntry call
        (s.app.allocateUdpPort (call.env answer) call.name (call.type = .sudp) port).2 ->
      e.Allowed cfg) ↔
      (forced cfg call || call.allows port || udpRefused answer s call port) = true := by
  rw [forall_mem_returnedEntry, Bool.or_eq_true, Bool.or_eq_true]
  constructor
  · intro h
    cases hrefused : udpRefused answer s call port with
    | true => exact .inr rfl
    | false =>
      have hallowed := h port ((allocateUdpPort_ok_iff hport).mpr ⟨rfl, hrefused⟩) hconsumes
      rcases hallowed with hallows | ⟨hforced, _⟩
      · exact .inl (.inr hallows)
      · exact .inl (.inl hforced)
  · intro h p hp _
    rcases (allocateUdpPort_ok_iff hport).mp hp with ⟨heq, hrefused⟩
    rw [heq]
    rcases h with (hforced | hallows) | habs
    · exact .inr ⟨hforced, hrequested.symm.trans (requestedPort_forced hforced)⟩
    · exact .inl hallows
    · rw [habs] at hrefused
      cases hrefused

theorem allowed_reserved_iff (s : Ports) (answer : Answer)
    (hconsumes : call.type.consumesPort = true)
    (hport : ¬ 0 < AppState.requestedPort cfg call.type call.remotePort) :
    (forall e, e ∈ (udpReserved answer s call).toList.map (Entry.returned call) ->
      e.Allowed cfg) ↔ (udpReserved answer s call).all call.allows = true := by
  have hfree : forced cfg call = false := by
    apply Bool.eq_false_of_not_eq_true
    intro hforced
    rw [requestedPort_forced hforced] at hport
    rw [forced, Bool.and_eq_true, decide_eq_true_eq, decide_eq_true_eq] at hforced
    exact hport hforced.2
  rw [forall_mem_toList_map]
  cases udpReserved answer s call with
  | none =>
    refine ⟨fun _ => rfl, fun _ p hp => ?_⟩
    cases hp
  | some p =>
    constructor
    · intro h
      rcases h p rfl hconsumes with hallows | ⟨hforced, _⟩
      · exact hallows
      · rw [hfree] at hforced
        cases hforced
    · intro h p' hp _
      cases hp
      exact .inl h

theorem allowed_added_iff (s : System Ports Task) (answer : Answer) (ht : t.Placed) :
    (forall e, e ∈ added cfg answer s.state t -> e.Allowed cfg) ↔
      permitted cfg s answer t = true := by
  have hnil : (forall e : Entry, e ∈ [] -> e.Allowed cfg) ↔ True :=
    ⟨fun _ => trivial, fun _ e he => absurd he not_mem_nil⟩
  cases t with
  | changing change =>
    cases change with
    | release port =>
      refine ⟨fun _ => rfl, fun _ e he => ?_⟩
      rw [mem_singleton.mp he]
      trivial
    | _ => exact hnil.trans ⟨fun _ => rfl, fun _ => trivial⟩
  | entered call =>
    rw [added, permitted]
    cases hconsumes : call.type.consumesPort with
    | false =>
      simp only [Bool.not_false, if_true, isUdp_of_not_consumes hconsumes, Bool.true_or,
        iff_true]
      intro e he
      rw [mem_singleton.mp he]
      intro habs
      rw [hconsumes] at habs
      cases habs
    | true =>
      simp only [Bool.not_true, Bool.false_eq_true, if_false]
      cases hudp : call.type.isUdp with
      | false =>
        simp only [Bool.false_eq_true, if_false, Bool.not_false, Bool.true_or]
        exact hnil
      | true =>
        simp only [if_true, Bool.not_true, Bool.false_or]
        split
        · rename_i hport
          exact allowed_explicit_iff cfg s.state answer hconsumes hport rfl
        · rename_i hport
          exact allowed_reserved_iff cfg s.state answer hconsumes hport
  | udpScan call =>
    refine ⟨fun _ => rfl, fun _ => forall_mem_toList_map.mpr fun p hp _ => ?_⟩
    exact .inl (Call.allows_of_mem (mem_of_find?_eq_some hp))
  | tcpCommit call port reserved =>
    rcases ht with ⟨htype, _, hallowed⟩
    have hnot : forced cfg call = false := by
      rw [forced, htype]
      rfl
    have hconsumes : call.type.consumesPort = true := by
      rw [htype]
      rfl
    have hiff : forall p, (Entry.returned call p).Allowed cfg ↔ call.allows p = true := by
      intro p
      rw [Entry.Allowed, hnot]
      simp [hconsumes]
    rw [added, forall_mem_returnedEntry, permitted]
    by_cases hused : port ∈ s.state.app.usedPorts
    · rw [commitTcpPort_taken hused, decide_eq_true hused, Bool.or_true, Bool.true_or]
      refine ⟨fun _ => rfl, fun _ p hp => ?_⟩
      cases hretry : retryPort answer s.state call with
      | none =>
        rw [hretry] at hp
        cases hp
      | some other =>
        rw [hretry] at hp
        cases hp
        exact (hiff _).mpr (retryPort_spec hretry).2
    · rw [commitTcpPort_free hused, decide_eq_false hused, Bool.or_false]
      have hport : (forall p, (Except.ok port : Except PortError UInt16) = .ok p ->
          (Entry.returned call p).Allowed cfg) ↔ call.allows port = true := by
        rw [← hiff port]
        constructor
        · intro h
          exact h port rfl
        · intro h p hp
          cases hp
          exact h
      rw [hport]
      cases reserved with
      | true => rw [Bool.not_true, Bool.false_or]
      | false =>
        rw [hallowed rfl]
        exact ⟨fun _ => rfl, fun _ => rfl⟩
  | _ => exact hnil.trans ⟨fun _ => rfl, fun _ => trivial⟩

/-- Every port that is returned lies in the ranges of its call in exactly the runs where no
explicit UDP port and no reserved port from outside them is taken. -/
theorem allowed_ports_iff (cfg : ServerConfig) (events : List (Event Operation Answer)) :
    (forall pre, pre <+: events ->
      forall e, e ∈ (Run.run (program cfg).step init pre).state.log -> e.Allowed cfg) ↔
      Run.Along (program cfg).step
        (fun s e => s.Steps (fun s answer t => permitted cfg s answer t = true) e) init events :=
  log_iff_along cfg (fun s answer _ ht => allowed_added_iff cfg s answer ht) events

/-- A UDP proxy asks for a port outside the ranges, and a TCP proxy has a reservation from before
a change of the ranges. -/
def outsideRun : List (Event Operation Answer) :=
  [.start (.allocate (sampleCall "a" .udp 9000)), .advance 0 sampleAnswer,
    .start (.change (.reserve "b" 8000 false 0)), .advance 1 sampleAnswer,
    .start (.allocate (sampleCall "b" .tcp 0)), .advance 2 sampleAnswer, .advance 2 sampleAnswer,
    .advance 2 sampleAnswer, .advance 2 sampleAnswer]

theorem ports_outside_ranges :
    (Run.run (program sampleConfig).step init outsideRun).state.log =
      [.returned (sampleCall "a" .udp 9000) 9000, .returned (sampleCall "b" .tcp 0) 8000] ∧
      ¬ (Entry.returned (sampleCall "a" .udp 9000) 9000).Allowed sampleConfig ∧
      ¬ (Entry.returned (sampleCall "b" .tcp 0) 8000).Allowed sampleConfig := by
  refine ⟨rfl, ?_, ?_⟩
  · intro hallowed
    exact absurd (hallowed rfl) (by decide)
  · intro hallowed
    exact absurd (hallowed rfl) (by decide)

end PortAllocation
end Server
end FrpRs
