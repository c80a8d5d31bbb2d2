import FrpRs.Data.Run
import Mathlib.Data.List.Count
import Mathlib.Data.List.TakeWhile

/-!
# The work-connection pool

The queues of one control loop, `frp-server/src/control/pool.rs`, with the delivery of
NAT-hole session ids of `control/nathole.rs` and the expiry at the top of the loop in
`control/mod.rs`.

User requests and work connections are numbered as they arrive; the number stands for the
socket, which the code moves from one owner to the next.  What becomes of a socket is
recorded in `log`.  A turn of the loop expires old entries and handles one event; the
results of writes and of the steps before a request reaches the pool are part of the
event.  The counters kept for the dashboard are left out.
-/

namespace FrpRs
namespace Server

open List

def maxPendingRequests : Nat := 256

def defaultPendingRequestTimeout : Nat := 10 * 1000000000

def pendingRequestTimeout (userConnTimeoutSecs : Nat) : Nat :=
  if 0 < userConnTimeoutSecs then userConnTimeoutSecs * 1000000000
  else defaultPendingRequestTimeout

structure PendingRequest where
  id : Nat
  proxyName : String
  createdAt : Nat
deriving DecidableEq, Repr

/-- The end of a request or of a work connection. -/
inductive Outcome where
  | bridged (req conn : Nat)
  | evicted (req : Nat)
  | expired (req : Nat)
  | failed (req : Nat)
  /-- The connection was forwarded to the loop of another control. -/
  | handedOver (req : Nat)
  | sidDelivered (sid : String) (conn : Nat)
  | udpBridged (proxyName : String) (conn : Nat)
  | connDropped (conn : Nat)
deriving DecidableEq, Repr

namespace Outcome

def request : Outcome -> Option Nat
  | .bridged req _ => some req
  | .evicted req => some req
  | .expired req => some req
  | .failed req => some req
  | .handedOver req => some req
  | .sidDelivered _ _ => none
  | .udpBridged _ _ => none
  | .connDropped _ => none

def conn : Outcome -> Option Nat
  | .bridged _ conn => some conn
  | .evicted _ => none
  | .expired _ => none
  | .failed _ => none
  | .handedOver _ => none
  | .sidDelivered _ conn => some conn
  | .udpBridged _ conn => some conn
  | .connDropped conn => some conn

def consumed : Outcome -> Option Nat
  | .bridged _ conn => some conn
  | .sidDelivered _ conn => some conn
  | .udpBridged _ conn => some conn
  | _ => none

end Outcome

structure PoolState where
  workPool : List Nat
  pendingRequests : List PendingRequest
  pendingUdp : List (String × Nat)
  pendingNatHoleSids : List (String × String × Nat)
  requests : Nat
  conns : Nat
  log : List Outcome
  ended : Bool
deriving DecidableEq, Repr

structure PoolConfig where
  poolCap : Nat
  userConnTimeout : Nat

/-- The readings of one turn: for the scans at the top of the loop, for those of the
handler, and for a new entry of a queue. -/
structure TurnClock where
  top : Nat
  scan : Nat
  created : Nat

/-- Whether `ReqWorkConn` reaches the client, and `StartWorkConn` the work connection. -/
structure AssignWrites where
  reqWorkConn : Bool
  startWorkConn : Bool

/-- What the steps before the pool decide about a user connection: the plugin hook, the
choice of a backend and its permit. -/
inductive Admission where
  | pluginRejected
  | handedOver
  | backendUnreachable
  | atCap
  | here
deriving DecidableEq, Repr

inductive PoolEvent where
  | proxyUserConn (admission : Admission) (proxyName : String) (writes : AssignWrites)
  | visitorConn (pluginAccepts : Bool) (proxyName : String) (writes : AssignWrites)
  | newWorkConn (startWorkConn udpStarts : Bool)
  | natHoleSid (sid proxyName : String)
  | udpNeedsWorkConn (proxyName : String) (hasSocket reqWorkConn : Bool)
  | timer
  | loopExit

namespace PoolState

def init : PoolState where
  workPool := []
  pendingRequests := []
  pendingUdp := []
  pendingNatHoleSids := []
  requests := 0
  conns := 0
  log := []
  ended := false

def record (s : PoolState) (os : List Outcome) : PoolState :=
  { s with log := s.log ++ os }

/-!
## Queues
-/

def expireRequests (s : PoolState) (stale : Nat -> Bool) : PoolState :=
  let old := s.pendingRequests.takeWhile fun req => stale req.createdAt
  let s := s.record (old.map fun req => .expired req.id)
  { s with pendingRequests := s.pendingRequests.dropWhile fun req => stale req.createdAt }

def expireUdp (s : PoolState) (stale : Nat -> Bool) : PoolState :=
  { s with pendingUdp := s.pendingUdp.dropWhile fun e => stale e.2 }

def expirePendingNatHoleSids (s : PoolState) (stale : Nat -> Bool) : PoolState :=
  { s with pendingNatHoleSids := s.pendingNatHoleSids.dropWhile fun e => stale e.2.2 }

/-- `elapsed() >= timeout`. -/
def reached (timeout now ts : Nat) : Bool :=
  decide (timeout ≤ now - ts)

/-- `elapsed() > timeout`. -/
def exceeded (timeout now ts : Nat) : Bool :=
  decide (timeout < now - ts)

/-- A queue longer than its bound loses its oldest entry. -/
def pushPendingRequest (s : PoolState) (req : PendingRequest) : PoolState :=
  match s.pendingRequests ++ [req] with
  | [] => s
  | oldest :: rest =>
    if maxPendingRequests < rest.length + 1 then
      PoolState.record { s with pendingRequests := rest } [.evicted oldest.id]
    else { s with pendingRequests := oldest :: rest }

/-!
## Handlers

A handler that fails ends the loop; its error carries the state it leaves.
-/

def assignOrQueue (s : PoolState) (req : PendingRequest) (writes : AssignWrites) :
    Except PoolState PoolState :=
  match s.workPool with
  | conn :: pool =>
    let s := { s with workPool := pool }
    if writes.reqWorkConn then
      if writes.startWorkConn then .ok (s.record [.bridged req.id conn])
      else .ok ((s.record [.connDropped conn]).pushPendingRequest req)
    else .error (s.record [.failed req.id, .connDropped conn])
  | [] =>
    if writes.reqWorkConn then .ok (s.pushPendingRequest req)
    else .error (s.record [.failed req.id])

/-- The oldest waiting request takes a connection that arrives, else the pool if it has
room. -/
def assignToRequest (c : PoolConfig) (s : PoolState) (conn : Nat) (startWorkConn : Bool) :
    PoolState :=
  match s.pendingRequests with
  | req :: queue =>
    let s := { s with pendingRequests := queue }
    if startWorkConn then s.record [.bridged req.id conn]
    else s.record [.failed req.id, .connDropped conn]
  | [] =>
    if s.workPool.length < c.poolCap then { s with workPool := s.workPool ++ [conn] }
    else s.record [.connDropped conn]

def handleNewWorkConn (c : PoolConfig) (s : PoolState) (now : Nat)
    (startWorkConn udpStarts : Bool) : PoolState :=
  let timeout := pendingRequestTimeout c.userConnTimeout
  let conn := s.conns
  let s := { s with conns := s.conns + 1 }
  let s := s.expirePendingNatHoleSids (reached timeout now)
  match s.pendingNatHoleSids with
  | (sid, _, _) :: sids =>
    PoolState.record { s with pendingNatHoleSids := sids } [.sidDelivered sid conn]
  | [] =>
    let s := s.expireUdp (exceeded timeout now)
    match s.pendingUdp with
    | (proxyName, _) :: udp =>
      PoolState.record { s with pendingUdp := udp }
        [if udpStarts then .udpBridged proxyName conn else .connDropped conn]
    | [] => assignToRequest c (s.expireRequests (exceeded timeout now)) conn startWorkConn

def handleVisitorConn (s : PoolState) (now : Nat) (pluginAccepts : Bool) (proxyName : String)
    (writes : AssignWrites) : Except PoolState PoolState :=
  let req : PendingRequest := ⟨s.requests, proxyName, now⟩
  let s := { s with requests := s.requests + 1 }
  if pluginAccepts then s.assignOrQueue req writes else .ok (s.record [.failed req.id])

def handleProxyUserConn (s : PoolState) (now : Nat) (admission : Admission)
    (proxyName : String) (writes : AssignWrites) : Except PoolState PoolState :=
  let req : PendingRequest := ⟨s.requests, proxyName, now⟩
  let s := { s with requests := s.requests + 1 }
  match admission with
  | .here => s.assignOrQueue req writes
  | .handedOver => .ok (s.record [.handedOver req.id])
  | .pluginRejected | .backendUnreachable | .atCap => .ok (s.record [.failed req.id])

/-- The session id goes out on a pooled connection, or waits for one. -/
def handleSidOnWorkConn (s : PoolState) (now : Nat) (sid proxyName : String) : PoolState :=
  match s.workPool with
  | conn :: pool => PoolState.record { s with workPool := pool } [.sidDelivered sid conn]
  | [] =>
    let sids := s.pendingNatHoleSids ++ [(sid, proxyName, now)]
    { s with
      pendingNatHoleSids := if maxPendingRequests < sids.length then sids.tail else sids }

def handleUdpWorkConn (s : PoolState) (now : Nat) (proxyName : String)
    (hasSocket reqWorkConn : Bool) : Except PoolState PoolState :=
  if !hasSocket then .ok s
  else if !reqWorkConn then .error s
  else
    let udp := s.pendingUdp ++ [(proxyName, now)]
    .ok { s with pendingUdp := if maxPendingRequests < udp.length then udp.tail else udp }

/-!
## Turns of the loop
-/

def expireAtTop (c : PoolConfig) (s : PoolState) (now : Nat) : PoolState :=
  let timeout := pendingRequestTimeout c.userConnTimeout
  ((s.expireRequests (reached timeout now)).expireUdp (reached timeout now)).expirePendingNatHoleSids
    (reached timeout now)

def dispatch (c : PoolConfig) (s : PoolState) (clock : TurnClock) :
    PoolEvent -> Except PoolState PoolState
  | .proxyUserConn admission proxyName writes =>
    s.handleProxyUserConn clock.created admission proxyName writes
  | .visitorConn pluginAccepts proxyName writes =>
    s.handleVisitorConn clock.created pluginAccepts proxyName writes
  | .newWorkConn startWorkConn udpStarts =>
    .ok (handleNewWorkConn c s clock.scan startWorkConn udpStarts)
  | .natHoleSid sid proxyName => .ok (s.handleSidOnWorkConn clock.created sid proxyName)
  | .udpNeedsWorkConn proxyName hasSocket reqWorkConn =>
    s.handleUdpWorkConn clock.created proxyName hasSocket reqWorkConn
  | .timer => .ok s
  | .loopExit => .error s

def endLoop (s : PoolState) : PoolState :=
  let s := s.record
    (s.pendingRequests.map (fun req => .failed req.id) ++ s.workPool.map .connDropped)
  { s with
    workPool := []
    pendingRequests := []
    pendingUdp := []
    pendingNatHoleSids := []
    ended := true }

def turn (c : PoolConfig) (s : PoolState) (e : TurnClock × PoolEvent) : PoolState :=
  if s.ended then s
  else
    match dispatch c (s.expireAtTop c e.1.top) e.1 e.2 with
    | .ok s => s
    | .error s => s.endLoop

/-!
## Accounts

Every request and every connection is owned once: by a queue, by the log, or by the
handler that has it in hand.
-/

def requestCount (s : PoolState) (id : Nat) : Nat :=
  (s.pendingRequests.map PendingRequest.id).count id + (s.log.filterMap Outcome.request).count id

def connCount (s : PoolState) (id : Nat) : Nat :=
  s.workPool.count id + (s.log.filterMap Outcome.conn).count id

/-- The sockets in hand are listed; the queues keep to their bounds. -/
structure Balanced (c : PoolConfig) (s : PoolState) (reqs conns : List Nat) : Prop where
  requests_once : forall id,
    s.requestCount id + reqs.count id = if id < s.requests then 1 else 0
  conns_once : forall id, s.connCount id + conns.count id = if id < s.conns then 1 else 0
  pool_le : s.workPool.length ≤ c.poolCap
  pending_le : s.pendingRequests.length ≤ maxPendingRequests

namespace Balanced

variable {c : PoolConfig} {s : PoolState} {reqs conns : List Nat}

theorem init : Balanced c PoolState.init [] [] where
  requests_once _ := rfl
  conns_once _ := rfl
  pool_le := Nat.zero_le _
  pending_le := Nat.zero_le _

theorem record (h : Balanced c s reqs conns) {reqs' conns' : List Nat} (os : List Outcome)
    (hreqs : reqs = os.filterMap Outcome.request ++ reqs')
    (hconns : conns = os.filterMap Outcome.conn ++ conns') :
    Balanced c (s.record os) reqs' conns' where
  requests_once id := by
    have := h.requests_once id
    show (s.record os).requestCount id + reqs'.count id = if id < s.requests then 1 else 0
    simp only [requestCount, PoolState.record, filterMap_append, count_append,
      hreqs] at this ⊢
    omega
  conns_once id := by
    have := h.conns_once id
    show (s.record os).connCount id + conns'.count id = if id < s.conns then 1 else 0
    simp only [connCount, PoolState.record, filterMap_append, count_append,
      hconns] at this ⊢
    omega
  pool_le := h.pool_le
  pending_le := h.pending_le

theorem popRequest {req : PendingRequest} {queue : List PendingRequest}
    (hqueue : s.pendingRequests = req :: queue) (h : Balanced c s reqs conns) :
    Balanced c { s with pendingRequests := queue } (req.id :: reqs) conns where
  requests_once id := by
    have := h.requests_once id
    simp only [requestCount, hqueue, map_cons, count_cons] at this ⊢
    omega
  conns_once := h.conns_once
  pool_le := h.pool_le
  pending_le := by
    have := h.pending_le
    rw [hqueue, length_cons] at this
    exact Nat.le_of_succ_le this

theorem popConn {conn : Nat} {pool : List Nat} (hpool : s.workPool = conn :: pool)
    (h : Balanced c s reqs conns) :
    Balanced c { s with workPool := pool } reqs (conn :: conns) where
  requests_once := h.requests_once
  conns_once id := by
    have := h.conns_once id
    simp only [connCount, hpool, count_cons] at this ⊢
    omega
  pool_le := by
    have := h.pool_le
    rw [hpool, length_cons] at this
    exact Nat.le_of_succ_le this
  pending_le := h.pending_le

theorem pushConn {conn : Nat} (hroom : s.workPool.length < c.poolCap)
    (h : Balanced c s reqs (conn :: conns)) :
    Balanced c { s with workPool := s.workPool ++ [conn] } reqs conns where
  requests_once := h.requests_once
  conns_once id := by
    have := h.conns_once id
    simp only [connCount, count_append, count_cons, count_nil] at this ⊢
    omega
  pool_le := by
    rw [length_append]
    exact hroom
  pending_le := h.pending_le

theorem newRequest (h : Balanced c s reqs conns) :
    Balanced c { s with requests := s.requests + 1 } (s.requests :: reqs) conns where
  requests_once id := by
    have := h.requests_once id
    simp only [requestCount, count_cons, beq_iff_eq] at this ⊢
    split at this <;> split <;> split <;> omega
  conns_once := h.conns_once
  pool_le := h.pool_le
  pending_le := h.pending_le

theorem newConn (h : Balanced c s reqs conns) :
    Balanced c { s with conns := s.conns + 1 } reqs (s.conns :: conns) where
  requests_once := h.requests_once
  conns_once id := by
    have := h.conns_once id
    simp only [connCount, count_cons, beq_iff_eq] at this ⊢
    split at this <;> split <;> split <;> omega
  pool_le := h.pool_le
  pending_le := h.pending_le

theorem setUdp (h : Balanced c s reqs conns) (udp : List (String × Nat)) :
    Balanced c { s with pendingUdp := udp } reqs conns :=
  ⟨h.requests_once, h.conns_once, h.pool_le, h.pending_le⟩

theorem setSids (h : Balanced c s reqs conns) (sids : List (String × String × Nat)) :
    Balanced c { s with pendingNatHoleSids := sids } reqs conns :=
  ⟨h.requests_once, h.conns_once, h.pool_le, h.pending_le⟩

theorem expireRequests (h : Balanced c s reqs conns) (stale : Nat -> Bool) :
    Balanced c (s.expireRequests stale) reqs conns where
  requests_once id := by
    have hall := h.requests_once id
    have hsplit := takeWhile_append_dropWhile
      (p := fun req : PendingRequest => stale req.createdAt) (l := s.pendingRequests)
    have hcount : (s.pendingRequests.map PendingRequest.id).count id =
        ((s.pendingRequests.takeWhile fun req => stale req.createdAt).map
          PendingRequest.id).count id +
        ((s.pendingRequests.dropWhile fun req => stale req.createdAt).map
          PendingRequest.id).count id := by
      rw [← count_append, ← map_append, hsplit]
    have hlog : forall l : List PendingRequest,
        (l.map fun req => Outcome.expired req.id).filterMap Outcome.request =
          l.map PendingRequest.id := by
      intro l
      rw [filterMap_map]
      exact congrFun filterMap_eq_map l
    show (s.expireRequests stale).requestCount id + reqs.count id =
      if id < s.requests then 1 else 0
    simp only [requestCount, PoolState.expireRequests, PoolState.record,
      filterMap_append, count_append, hlog] at hall ⊢
    omega
  conns_once id := by
    have hall := h.conns_once id
    have hlog : forall l : List PendingRequest,
        (l.map fun req => Outcome.expired req.id).filterMap Outcome.conn = [] := by
      intro l
      rw [filterMap_map]
      exact filterMap_eq_nil_iff.mpr fun _ _ => rfl
    show (s.expireRequests stale).connCount id + conns.count id =
      if id < s.conns then 1 else 0
    simpa only [connCount, PoolState.expireRequests, PoolState.record,
      filterMap_append, hlog, append_nil] using hall
  pool_le := h.pool_le
  pending_le :=
    Nat.le_trans (length_dropWhile_le _ _) h.pending_le

theorem pushPendingRequest {req : PendingRequest} (h : Balanced c s (req.id :: reqs) conns) :
    Balanced c (s.pushPendingRequest req) reqs conns := by
  have hpush : Balanced c { s with pendingRequests := s.pendingRequests ++ [req] } reqs conns ∨
      maxPendingRequests < (s.pendingRequests ++ [req]).length := by
    by_cases hlen : (s.pendingRequests ++ [req]).length ≤ maxPendingRequests
    · refine .inl ⟨?_, h.conns_once, h.pool_le, hlen⟩
      intro id
      have := h.requests_once id
      simp only [requestCount, map_append, map_cons, map_nil, count_append,
        count_cons, count_nil] at this ⊢
      omega
    · exact .inr (Nat.lt_of_not_le hlen)
  unfold PoolState.pushPendingRequest
  split
  · rename_i hnil
    exact absurd hnil (by simp)
  · rename_i oldest rest hqueue
    have hlen : (s.pendingRequests ++ [req]).length = rest.length + 1 := by
      rw [hqueue, length_cons]
    split
    · refine ⟨?_, ?_, h.pool_le, ?_⟩
      · intro id
        have := h.requests_once id
        have hcount : ((s.pendingRequests ++ [req]).map PendingRequest.id).count id =
            ((oldest :: rest).map PendingRequest.id).count id := by
          rw [hqueue]
        show requestCount _ id + reqs.count id = if id < s.requests then 1 else 0
        simp only [requestCount, PoolState.record, Outcome.request, map_append,
          map_cons, map_nil, filterMap_append, filterMap_cons,
          filterMap_nil, count_append, count_cons, count_nil]
          at this hcount ⊢
        omega
      · intro id
        have := h.conns_once id
        show connCount _ id + conns.count id = if id < s.conns then 1 else 0
        simpa only [connCount, PoolState.record, Outcome.conn, filterMap_append,
          filterMap_cons, filterMap_nil, append_nil] using this
      · have := h.pending_le
        rw [length_append, length_cons, length_nil] at hlen
        show rest.length ≤ maxPendingRequests
        omega
    · rename_i hshort
      rcases hpush with hpush | hlong
      · rw [hqueue] at hpush
        exact hpush
      · exact absurd (hlen ▸ hlong) hshort

def settled : Except PoolState PoolState -> PoolState
  | .ok s => s
  | .error s => s

theorem assignOrQueue {req : PendingRequest} (writes : AssignWrites)
    (h : Balanced c s (req.id :: reqs) conns) :
    Balanced c (settled (s.assignOrQueue req writes)) reqs conns := by
  unfold PoolState.assignOrQueue
  split
  · rename_i conn pool hpool
    have hpopped := h.popConn hpool
    split
    · split
      · exact hpopped.record [.bridged req.id conn] rfl rfl
      · exact (hpopped.record [.connDropped conn] rfl rfl).pushPendingRequest
    · exact hpopped.record [.failed req.id, .connDropped conn] rfl rfl
  · split
    · exact h.pushPendingRequest
    · exact h.record [.failed req.id] rfl rfl

theorem assignToRequest {conn : Nat} (startWorkConn : Bool)
    (h : Balanced c s reqs (conn :: conns)) :
    Balanced c (s.assignToRequest c conn startWorkConn) reqs conns := by
  unfold PoolState.assignToRequest
  split
  · rename_i req queue hqueue
    have hpopped := h.popRequest hqueue
    split
    · exact hpopped.record [.bridged req.id conn] rfl rfl
    · exact hpopped.record [.failed req.id, .connDropped conn] rfl rfl
  · split
    · rename_i hroom
      exact h.pushConn hroom
    · exact h.record [.connDropped conn] rfl rfl

section

variable (h : Balanced c s reqs conns)
include h

theorem handleNewWorkConn (now : Nat)
    (startWorkConn udpStarts : Bool) :
    Balanced c (s.handleNewWorkConn c now startWorkConn udpStarts) reqs conns := by
  have harrived : Balanced c
      (PoolState.expirePendingNatHoleSids { s with conns := s.conns + 1 }
        (reached (pendingRequestTimeout c.userConnTimeout) now)) reqs (s.conns :: conns) :=
    h.newConn.setSids _
  unfold PoolState.handleNewWorkConn
  dsimp only
  split
  · rename_i sid _ _ sids _
    exact (harrived.setSids sids).record [.sidDelivered sid s.conns] rfl rfl
  · split
    · rename_i proxyName _ udp _
      cases udpStarts
      · exact (harrived.setUdp udp).record [.connDropped s.conns] rfl rfl
      · exact (harrived.setUdp udp).record [.udpBridged proxyName s.conns] rfl rfl
    · exact ((harrived.setUdp _).expireRequests _).assignToRequest startWorkConn

theorem handleVisitorConn (now : Nat) (pluginAccepts : Bool)
    (proxyName : String) (writes : AssignWrites) :
    Balanced c (settled (s.handleVisitorConn now pluginAccepts proxyName writes))
      reqs conns := by
  cases pluginAccepts
  · exact h.newRequest.record [.failed s.requests] rfl rfl
  · exact @Balanced.assignOrQueue c _ reqs conns ⟨s.requests, proxyName, now⟩ writes
      h.newRequest

theorem handleProxyUserConn (now : Nat) (admission : Admission)
    (proxyName : String) (writes : AssignWrites) :
    Balanced c (settled (s.handleProxyUserConn now admission proxyName writes))
      reqs conns := by
  cases admission with
  | here =>
    exact @Balanced.assignOrQueue c _ reqs conns ⟨s.requests, proxyName, now⟩ writes
      h.newRequest
  | handedOver =>
    exact h.newRequest.record [.handedOver s.requests] rfl rfl
  | pluginRejected =>
    exact h.newRequest.record [.failed s.requests] rfl rfl
  | backendUnreachable =>
    exact h.newRequest.record [.failed s.requests] rfl rfl
  | atCap =>
    exact h.newRequest.record [.failed s.requests] rfl rfl

theorem handleSidOnWorkConn (now : Nat)
    (sid proxyName : String) :
    Balanced c (s.handleSidOnWorkConn now sid proxyName) reqs conns := by
  unfold PoolState.handleSidOnWorkConn
  split
  · rename_i conn pool hpool
    exact (h.popConn hpool).record [.sidDelivered sid conn] rfl rfl
  · exact h.setSids _

theorem handleUdpWorkConn (now : Nat) (proxyName : String)
    (hasSocket reqWorkConn : Bool) :
    Balanced c (settled (s.handleUdpWorkConn now proxyName hasSocket reqWorkConn))
      reqs conns := by
  cases hasSocket
  · exact h
  · cases reqWorkConn
    · exact h
    · exact h.setUdp _

theorem expireAtTop (now : Nat) :
    Balanced c (s.expireAtTop c now) reqs conns :=
  ((h.expireRequests _).setUdp _).setSids _

theorem dispatch (clock : TurnClock) (e : PoolEvent) :
    Balanced c (settled (s.dispatch c clock e)) reqs conns := by
  cases e with
  | proxyUserConn admission proxyName writes =>
    exact h.handleProxyUserConn clock.created admission proxyName writes
  | visitorConn pluginAccepts proxyName writes =>
    exact h.handleVisitorConn clock.created pluginAccepts proxyName writes
  | newWorkConn startWorkConn udpStarts =>
    exact h.handleNewWorkConn clock.scan startWorkConn udpStarts
  | natHoleSid sid proxyName =>
    exact h.handleSidOnWorkConn clock.created sid proxyName
  | udpNeedsWorkConn proxyName hasSocket reqWorkConn =>
    exact h.handleUdpWorkConn clock.created proxyName hasSocket reqWorkConn
  | timer => exact h
  | loopExit => exact h

theorem endLoop : Balanced c s.endLoop reqs conns := by
  have hreqs : forall l : List PendingRequest,
      (l.map fun req => Outcome.failed req.id).filterMap Outcome.request =
        l.map PendingRequest.id := by
    intro l
    rw [filterMap_map]
    exact congrFun filterMap_eq_map l
  have hnoconn : forall l : List PendingRequest,
      (l.map fun req => Outcome.failed req.id).filterMap Outcome.conn = [] := by
    intro l
    rw [filterMap_map]
    exact filterMap_eq_nil_iff.mpr fun _ _ => rfl
  have hconns : forall l : List Nat,
      (l.map Outcome.connDropped).filterMap Outcome.conn = l := by
    intro l
    rw [filterMap_map]
    exact filterMap_some
  have hnoreq : forall l : List Nat,
      (l.map Outcome.connDropped).filterMap Outcome.request = [] := by
    intro l
    rw [filterMap_map]
    exact filterMap_eq_nil_iff.mpr fun _ _ => rfl
  refine ⟨?_, ?_, Nat.zero_le _, Nat.zero_le _⟩
  · intro id
    have := h.requests_once id
    show s.endLoop.requestCount id + reqs.count id = if id < s.requests then 1 else 0
    simp only [requestCount, PoolState.endLoop, PoolState.record, filterMap_append,
      count_append, hreqs, hnoreq, map_nil, count_nil] at this ⊢
    omega
  · intro id
    have := h.conns_once id
    show s.endLoop.connCount id + conns.count id = if id < s.conns then 1 else 0
    simp only [connCount, PoolState.endLoop, PoolState.record, filterMap_append,
      count_append, hconns, hnoconn, count_nil] at this ⊢
    omega

theorem turn (e : TurnClock × PoolEvent) :
    Balanced c (s.turn c e) reqs conns := by
  unfold PoolState.turn
  split
  · exact h
  · have hdone := (h.expireAtTop e.1.top).dispatch e.1 e.2
    cases hresult : (s.expireAtTop c e.1.top).dispatch c e.1 e.2 with
    | ok s' =>
      rw [hresult] at hdone
      exact hdone
    | error s' =>
      rw [hresult] at hdone
      exact hdone.endLoop

end

end Balanced

/-!
## Waiting requests and idle connections
-/

def Exclusive (s : PoolState) : Prop :=
  s.pendingRequests = [] ∨ s.workPool = []

theorem pushPendingRequest_workPool (s : PoolState) (req : PendingRequest) :
    (s.pushPendingRequest req).workPool = s.workPool := by
  unfold pushPendingRequest
  split
  · rfl
  · split <;> rfl

theorem pushPendingRequest_ne_nil (s : PoolState) (req : PendingRequest) :
    (s.pushPendingRequest req).pendingRequests ≠ [] := by
  unfold pushPendingRequest
  split
  · rename_i hnil
    exact absurd hnil (by simp)
  · rename_i oldest rest _
    split
    · rename_i hlong
      show rest ≠ []
      rintro rfl
      exact absurd hlong (by decide)
    · exact cons_ne_nil oldest rest

theorem exclusive_pushPendingRequest (s : PoolState) (req : PendingRequest) :
    (s.pushPendingRequest req).Exclusive ↔ s.workPool = [] := by
  unfold Exclusive
  rw [pushPendingRequest_workPool]
  simp only [pushPendingRequest_ne_nil, false_or]

variable {s : PoolState}

theorem exclusive_expireRequests (h : s.Exclusive) (stale : Nat -> Bool) :
    (s.expireRequests stale).Exclusive := by
  rcases h with hqueue | hpool
  · left
    simp [expireRequests, record, hqueue]
  · exact .inr hpool

theorem exclusive_endLoop (s : PoolState) : s.endLoop.Exclusive :=
  .inl rfl

variable {c : PoolConfig}

theorem exclusive_assignToRequest (h : s.Exclusive) (conn : Nat) (startWorkConn : Bool) :
    (s.assignToRequest c conn startWorkConn).Exclusive := by
  unfold assignToRequest
  split
  · rename_i req queue hqueue
    have hpool : s.workPool = [] := by
      rcases h with hnil | hpool
      · rw [hqueue] at hnil
        cases hnil
      · exact hpool
    cases startWorkConn
    · exact .inr hpool
    · exact .inr hpool
  · rename_i hqueue
    split
    · exact .inl hqueue
    · exact .inl hqueue

theorem exclusive_handleNewWorkConn (h : s.Exclusive) (now : Nat) (startWorkConn udpStarts : Bool) :
    (s.handleNewWorkConn c now startWorkConn udpStarts).Exclusive := by
  unfold handleNewWorkConn
  dsimp only
  split
  · exact h
  · split
    · exact h
    · apply exclusive_assignToRequest
      apply exclusive_expireRequests
      exact h

theorem exclusive_handleSidOnWorkConn (h : s.Exclusive) (now : Nat) (sid proxyName : String) :
    (s.handleSidOnWorkConn now sid proxyName).Exclusive := by
  unfold handleSidOnWorkConn
  split
  · rename_i conn pool hpool
    rcases h with hqueue | hnil
    · exact .inl hqueue
    · rw [hpool] at hnil
      cases hnil
  · exact h

def continued : Except PoolState PoolState -> PoolState
  | .ok s => s
  | .error s => s.endLoop

def DeadIsLast (s : PoolState) (writes : AssignWrites) : Prop :=
  writes.reqWorkConn = true -> writes.startWorkConn = false -> s.workPool.length ≤ 1

theorem exclusive_assignOrQueue (h : s.Exclusive) (req : PendingRequest) (writes : AssignWrites) :
    (continued (s.assignOrQueue req writes)).Exclusive ↔ s.DeadIsLast writes := by
  unfold assignOrQueue DeadIsLast
  split
  · rename_i conn pool hpool
    have hqueue : s.pendingRequests = [] := by
      rcases h with hqueue | hnil
      · exact hqueue
      · rw [hpool] at hnil
        cases hnil
    cases hreq : writes.reqWorkConn
    · simp [continued, exclusive_endLoop]
    · cases hstart : writes.startWorkConn
      · simp only [if_true, Bool.false_eq_true, if_false, continued, forall_const]
        rw [exclusive_pushPendingRequest, hpool, length_cons]
        show pool = [] ↔ pool.length + 1 ≤ 1
        rw [← length_eq_zero_iff]
        omega
      · simp only [if_true, continued, Bool.true_eq_false, false_implies, implies_true,
          iff_true]
        exact .inl hqueue
  · rename_i hpool
    cases hreq : writes.reqWorkConn
    · simp [continued, exclusive_endLoop]
    · simp only [if_true, continued, hpool, length_nil, Nat.zero_le, implies_true,
        iff_true]
      rw [exclusive_pushPendingRequest]
      exact hpool

/-- A request that reaches the pool and finds a dead connection there leaves no idle one
behind it. -/
def SparesIdle (s : PoolState) (e : TurnClock × PoolEvent) : Prop :=
  match e.2 with
  | .proxyUserConn .here _ writes => s.DeadIsLast writes
  | .visitorConn true _ writes => s.DeadIsLast writes
  | _ => True

theorem exclusive_dispatch (h : s.Exclusive) (clock : TurnClock) (e : PoolEvent) :
    (continued (s.dispatch c clock e)).Exclusive ↔ s.SparesIdle (clock, e) := by
  have hnew : Exclusive { s with requests := s.requests + 1 } := h
  cases e with
  | proxyUserConn admission proxyName writes =>
    cases admission with
    | here => exact exclusive_assignOrQueue hnew _ writes
    | pluginRejected => exact iff_of_true h trivial
    | handedOver => exact iff_of_true h trivial
    | backendUnreachable => exact iff_of_true h trivial
    | atCap => exact iff_of_true h trivial
  | visitorConn pluginAccepts proxyName writes =>
    cases pluginAccepts
    · exact iff_of_true h trivial
    · exact exclusive_assignOrQueue hnew _ writes
  | newWorkConn startWorkConn udpStarts =>
    exact iff_of_true (exclusive_handleNewWorkConn h _ _ _) trivial
  | natHoleSid sid proxyName =>
    exact iff_of_true (exclusive_handleSidOnWorkConn h _ _ _) trivial
  | udpNeedsWorkConn proxyName hasSocket reqWorkConn =>
    refine iff_of_true ?_ trivial
    cases hasSocket
    · exact h
    · cases reqWorkConn
      · exact exclusive_endLoop s
      · exact h
  | timer => exact iff_of_true h trivial
  | loopExit => exact iff_of_true (exclusive_endLoop s) trivial

theorem turn_of_running (h : s.ended = false) (e : TurnClock × PoolEvent) :
    s.turn c e = continued ((s.expireAtTop c e.1.top).dispatch c e.1 e.2) := by
  unfold turn continued
  rw [h]
  rfl

theorem exclusive_turn (hended : s.ended = true -> s.workPool = []) (h : s.Exclusive)
    (e : TurnClock × PoolEvent) :
    (s.turn c e).Exclusive ↔ s.SparesIdle e := by
  cases hrun : s.ended with
  | true =>
    have hpool := hended hrun
    have hsame : s.turn c e = s := by
      unfold turn
      rw [hrun]
      rfl
    rw [hsame]
    refine iff_of_true h ?_
    unfold SparesIdle
    split
    · intro _ _
      simp [hpool]
    · intro _ _
      simp [hpool]
    · trivial
  | false =>
    rw [turn_of_running hrun]
    have htop : (s.expireAtTop c e.1.top).Exclusive := exclusive_expireRequests h _
    exact exclusive_dispatch htop e.1 e.2

/-!
## The pool over a run
-/

inductive RequestFate where
  | pending
  | bridged
  | dropped
  | handedOver
deriving DecidableEq, Repr

def fateIn (id : Nat) : Outcome -> Option RequestFate
  | .bridged req _ => if req = id then some .bridged else none
  | .evicted req | .expired req | .failed req => if req = id then some .dropped else none
  | .handedOver req => if req = id then some .handedOver else none
  | _ => none

def fates (s : PoolState) (id : Nat) : List RequestFate :=
  (s.pendingRequests.filterMap fun req => if req.id = id then some .pending else none) ++
    s.log.filterMap (fateIn id)

/-- Every request has one fate, a work connection is taken once at most, the queues keep to
their bounds, and no request waits beside an idle connection. -/
structure Sound (c : PoolConfig) (s : PoolState) : Prop where
  one_fate : forall id, id < s.requests -> exists fate, s.fates id = [fate]
  taken_once : forall conn, (s.log.filterMap Outcome.consumed).count conn ≤ 1
  pool_le : s.workPool.length ≤ c.poolCap
  pending_le : s.pendingRequests.length ≤ maxPendingRequests
  exclusive : s.Exclusive

theorem length_fates (s : PoolState) (id : Nat) : (s.fates id).length = s.requestCount id := by
  have hqueue : forall l : List PendingRequest,
      (l.filterMap fun req => if req.id = id then some RequestFate.pending else none).length =
        (l.map PendingRequest.id).count id := by
    intro l
    induction l with
    | nil => rfl
    | cons req l ih =>
      by_cases hid : req.id = id
      · simp [hid, ih]
      · simp [hid, ih]
  have hlog : forall l : List Outcome,
      (l.filterMap (fateIn id)).length = (l.filterMap Outcome.request).count id := by
    intro l
    induction l with
    | nil => rfl
    | cons o l ih =>
      cases o <;> simp only [filterMap_cons, fateIn, Outcome.request] <;>
        (try split) <;> simp_all
  rw [fates, length_append, hqueue, hlog]
  rfl

theorem consumed_count_le (l : List Outcome) (conn : Nat) :
    (l.filterMap Outcome.consumed).count conn ≤ (l.filterMap Outcome.conn).count conn := by
  induction l with
  | nil => exact Nat.le_refl 0
  | cons o l ih =>
    cases o <;> simp only [filterMap_cons, Outcome.consumed, Outcome.conn,
      count_cons] <;> omega

theorem sound_iff (h : Balanced c s [] []) :
    s.Sound c ↔ s.Exclusive := by
  constructor
  · exact Sound.exclusive
  · intro hexclusive
    refine ⟨?_, ?_, h.pool_le, h.pending_le, hexclusive⟩
    · intro id hid
      have hcount := h.requests_once id
      rw [count_nil, Nat.add_zero, if_pos hid, ← length_fates] at hcount
      exact length_eq_one_iff.mp hcount
    · intro conn
      have hcount := h.conns_once conn
      have hle := consumed_count_le s.log conn
      rw [count_nil, Nat.add_zero, connCount] at hcount
      split at hcount <;> omega

def EndedEmpty (s : PoolState) : Prop :=
  s.ended = true -> s.workPool = []

theorem pushPendingRequest_ended (s : PoolState) (req : PendingRequest) :
    (s.pushPendingRequest req).ended = s.ended := by
  unfold pushPendingRequest
  split
  · rfl
  · split <;> rfl

theorem assignOrQueue_ended {s s' : PoolState} (h : s.ended = false) (req : PendingRequest)
    (writes : AssignWrites) (hok : s.assignOrQueue req writes = .ok s') : s'.ended = false := by
  unfold assignOrQueue at hok
  split at hok
  · split at hok
    · split at hok
      · cases hok
        exact h
      · cases hok
        rw [pushPendingRequest_ended]
        exact h
    · cases hok
  · split at hok
    · cases hok
      rw [pushPendingRequest_ended]
      exact h
    · cases hok

theorem dispatch_ended {s s' : PoolState} (h : s.ended = false) (clock : TurnClock) (e : PoolEvent)
    (hok : s.dispatch c clock e = .ok s') :
    s'.ended = false := by
  have hnew : PoolState.ended { s with requests := s.requests + 1 } = false := h
  cases e with
  | proxyUserConn admission proxyName writes =>
    cases admission with
    | here => exact assignOrQueue_ended hnew _ writes hok
    | pluginRejected =>
      cases hok
      exact h
    | handedOver =>
      cases hok
      exact h
    | backendUnreachable =>
      cases hok
      exact h
    | atCap =>
      cases hok
      exact h
  | visitorConn pluginAccepts proxyName writes =>
    cases pluginAccepts
    · cases hok
      exact h
    · exact assignOrQueue_ended hnew _ writes hok
  | newWorkConn startWorkConn udpStarts =>
    cases hok
    unfold handleNewWorkConn assignToRequest
    dsimp only
    repeat' split
    all_goals exact h
  | natHoleSid sid proxyName =>
    cases hok
    unfold handleSidOnWorkConn
    split <;> exact h
  | udpNeedsWorkConn proxyName hasSocket reqWorkConn =>
    cases hasSocket
    · cases hok
      exact h
    · cases reqWorkConn
      · cases hok
      · cases hok
        exact h
  | timer =>
    cases hok
    exact h
  | loopExit => cases hok

theorem endedEmpty_turn (h : s.EndedEmpty) (e : TurnClock × PoolEvent) :
    (s.turn c e).EndedEmpty := by
  cases hrun : s.ended with
  | true =>
    have hsame : s.turn c e = s := by
      unfold turn
      rw [hrun]
      rfl
    rw [hsame]
    exact h
  | false =>
    rw [turn_of_running hrun]
    cases hresult : (s.expireAtTop c e.1.top).dispatch c e.1 e.2 with
    | ok s' =>
      intro hended
      have htop : (s.expireAtTop c e.1.top).ended = false := hrun
      have hgoes := dispatch_ended htop e.1 e.2 hresult
      rw [show (continued (.ok s')).ended = s'.ended from rfl, hgoes] at hended
      cases hended
    | error s' =>
      intro _
      rfl

/-- Over the turns of a control loop the pool stays sound exactly if no request pops a dead
connection while the pool holds another one. -/
theorem work_pool_sound_iff (c : PoolConfig) (turns : List (TurnClock × PoolEvent)) :
    (forall pre, pre <+: turns -> (Run.run (turn c) init pre).Sound c) ↔
      Run.Along (turn c) SparesIdle init turns := by
  refine @Run.forall_prefix_iff_along _ _ (turn c) SparesIdle
    (fun s => Balanced c s [] [] ∧ s.EndedEmpty) (Sound c) ?_ ?_ init turns
    ⟨Balanced.init, fun h => by cases h⟩ ((sound_iff Balanced.init).mpr (.inl rfl))
  · rintro s e ⟨hbalanced, hended⟩
    exact ⟨hbalanced.turn e, endedEmpty_turn hended e⟩
  · rintro s e ⟨hbalanced, hended⟩ hsound
    rw [sound_iff (hbalanced.turn e)]
    exact exclusive_turn hended hsound.exclusive e

/-- Two connections are pooled and the first one has died when a user connects: the request
goes back to the queue beside the idle second connection. -/
theorem dead_pooled_conn_strands_request :
    let clock : TurnClock := ⟨0, 0, 0⟩
    let s := Run.run (turn ⟨11, 0⟩) init
      [(clock, .newWorkConn true true), (clock, .newWorkConn true true),
        (clock, .proxyUserConn .here "web" ⟨true, false⟩)]
    s.pendingRequests = [⟨0, "web", 0⟩] ∧ s.workPool = [1] ∧ ¬ s.Sound ⟨11, 0⟩ := by
  refine ⟨by decide, by decide, ?_⟩
  intro h
  exact absurd h.exclusive (by unfold Exclusive; decide)

end PoolState
end Server
end FrpRs
