import FrpRs.Client.HealthGate
import FrpRs.Data.Bytes

/-!
# The registration phase of a session

`register_proxies` writes every request and then reads the answers.  A frame is read in two stages,
its header and its payload, and both are kept while a timer races with them.  The server's bytes,
the timers and the watchdog come in any order.
-/

namespace FrpRs
namespace Client

open List Bytes

/-!
## Frames
-/

structure RegFrameHdr where
  v1Type : Byte
  payloadLen : Nat

/-- A read under way, with the bytes it has taken. -/
inductive RegReadStage where
  | header (got : List Byte)
  | payload (hdr : RegFrameHdr) (got : List Byte)

inductive RegMessage where
  | newProxyResp (proxyName : Text) (error : Option Text)
  | newVisitorConnResp (proxyName : Text) (error : Option Text)
  | reqWorkConn
  | other

/-- What the session brings to the phase; `none` is a message that cannot be read. -/
structure RegSetup where
  v2 : Bool
  poolCount : Int
  timedOut : Text
  deserializeV1 : Byte -> List Byte -> Option RegMessage
  deserializeV2 : Nat -> List Byte -> Option RegMessage

def regHeaderLen (v2 : Bool) : Nat :=
  if v2 then 8 else 9

def regFrameHeader (v2 : Bool) (header : List Byte) : Option RegFrameHdr :=
  if v2 then
    let frameType := ofBeBytes (header.take 2)
    let flags := ofBeBytes ((header.drop 2).take 2)
    let payloadLen := ofBeBytes ((header.drop 4).take 4)
    if flags ≠ 0 then none
    else if frameType ≠ 16 then none
    else if payloadLen < 2 then none
    else if 64 * 1024 < payloadLen then none
    else some ⟨0, payloadLen⟩
  else
    let payloadLen := ofBeBytes ((header.drop 1).take 8)
    if 10240 < payloadLen then none else some ⟨header.headD 0, payloadLen⟩

def regFramePayload (setup : RegSetup) (hdr : RegFrameHdr) (payload : List Byte) :
    Option RegMessage :=
  if setup.v2 then setup.deserializeV2 (ofBeBytes (payload.take 2)) (payload.drop 2)
  else setup.deserializeV1 hdr.v1Type payload

/-!
## Requests
-/

structure SessionVisitor where
  serverUser : Text
  serverName : Text
  bindPort : Nat
  enabled : Bool

def visitorWireName (serverUser user serverName : Text) : Text :=
  if serverUser ≠ [] then serverUser ++ '.' :: serverName
  else if user ≠ [] then user ++ '.' :: serverName
  else serverName

def ProxyRuntimeInfo.answered : Option Text -> ProxyRuntimeInfo -> ProxyRuntimeInfo
  | some e => ProxyRuntimeInfo.fail e
  | none => ProxyRuntimeInfo.start

/-- `consumed` and `dispatched` record what was taken from the stream, the latter with whether the
loop waited for it. -/
structure Registration where
  service : Service
  pendingProxies : List Text
  pendingVisitors : List Text
  seenRegistrationResponse : Bool := false
  reqWorkConnsSeen : Nat := 0
  visitorGraceElapsed : Bool := false
  readStage : Option RegReadStage := none
  unexpected : Nat := 0
  aborted : Bool
  finished : Bool := false
  consumed : List Byte := []
  dispatched : List (RegMessage × Bool) := []

namespace Registration

/-!
## The response loop
-/

def failPendingProxies (r : Registration) (error : Text) : Registration :=
  { r with
    pendingProxies := []
    service := r.pendingProxies.foldl (fun s name => s.setInfo name (ProxyRuntimeInfo.fail error))
      r.service }

def abort (r : Registration) : Registration :=
  { r with aborted := true, finished := true }

def loopTop (r : Registration) : Registration :=
  if r.aborted then { r with finished := true }
  else if r.visitorGraceElapsed && r.readStage.isNone && r.pendingProxies.isEmpty &&
      !r.pendingVisitors.isEmpty then
    { r with pendingVisitors := [], finished := true }
  else if r.pendingProxies.isEmpty && r.pendingVisitors.isEmpty && r.readStage.isNone then
    { r with finished := true }
  else if r.readStage.isNone then { r with readStage := some (.header []) }
  else r

def endIteration (r : Registration) : Registration :=
  if 100 ≤ r.unexpected then { r with aborted := true }.loopTop else r.loopTop

def expects (r : Registration) : RegMessage -> Bool
  | .newProxyResp name _ => r.pendingProxies.contains name
  | .newVisitorConnResp name _ => r.pendingVisitors.contains name
  | .reqWorkConn => true
  | .other => false

/-- The last element takes the place of the removed one. -/
def swapRemove {α : Type} (l : List α) (pos : Nat) : List α :=
  match l.getLast? with
  | none => []
  | some last => (l.set pos last).dropLast

def dispatch (setup : RegSetup) (r : Registration) : RegMessage -> Registration
  | .newProxyResp name error =>
    let r := { r with seenRegistrationResponse := true }
    if r.pendingProxies.contains name then
      { r with
        pendingProxies := swapRemove r.pendingProxies (r.pendingProxies.idxOf name)
        service := r.service.setInfo name (ProxyRuntimeInfo.answered error) }.endIteration
    -- The arm goes on with the loop before the limit is looked at.
    else { r with unexpected := r.unexpected + 1 }.loopTop
  | .newVisitorConnResp name _ =>
    let r := { r with seenRegistrationResponse := true }
    if r.pendingVisitors.contains name then
      { r with pendingVisitors :=
          swapRemove r.pendingVisitors (r.pendingVisitors.idxOf name) }.endIteration
    else { r with unexpected := r.unexpected + 1 }.loopTop
  | .reqWorkConn =>
    let poolConnsDone := r.seenRegistrationResponse ||
      (r.pendingProxies.isEmpty && (max setup.poolCount 1).toNat ≤ r.reqWorkConnsSeen)
    { r with
      pendingVisitors := if poolConnsDone then r.pendingVisitors.tail else r.pendingVisitors
      reqWorkConnsSeen := r.reqWorkConnsSeen + 1 }.endIteration
  | .other => { r with unexpected := r.unexpected + 1 }.endIteration

def headerRead (setup : RegSetup) (r : Registration) (header : List Byte) : Registration :=
  match regFrameHeader setup.v2 header with
  | none => r.abort
  | some hdr => { r with readStage := some (.payload hdr []) }.endIteration

def payloadRead (setup : RegSetup) (r : Registration) (hdr : RegFrameHdr) (payload : List Byte) :
    Registration :=
  match regFramePayload setup hdr payload with
  | none => r.abort
  | some m =>
    { r with
      readStage := none
      dispatched := r.dispatched ++ [(m, r.expects m)] }.dispatch setup m

/-- A byte is there; a read that is full with it ends in the same poll. -/
def onByte (setup : RegSetup) (r : Registration) (b : Byte) : Registration :=
  match r.readStage with
  | none => r
  | some (.header got) =>
    let r := { r with
      consumed := r.consumed ++ [b]
      readStage := some (.header (got ++ [b])) }
    if got.length + 1 = regHeaderLen setup.v2 then r.headerRead setup (got ++ [b]) else r
  | some (.payload hdr got) =>
    if got.length < hdr.payloadLen then
      let r := { r with
        consumed := r.consumed ++ [b]
        readStage := some (.payload hdr (got ++ [b])) }
      if got.length + 1 = hdr.payloadLen then r.payloadRead setup hdr (got ++ [b]) else r
    else r

/-- A payload without bytes is read by the first poll. -/
def onPoll (setup : RegSetup) (r : Registration) : Registration :=
  match r.readStage with
  | some (.payload hdr got) =>
    if got.length = hdr.payloadLen then r.payloadRead setup hdr got else r
  | _ => r

def cancelHeader (r : Registration) : Registration :=
  match r.readStage with
  | some (.header _) => { r with readStage := none }.endIteration
  | some (.payload _ _) => r.abort
  | none => r.endIteration

def onTimer (setup : RegSetup) (r : Registration) : Registration :=
  if !r.pendingProxies.isEmpty then (r.failPendingProxies setup.timedOut).cancelHeader
  else if !r.pendingVisitors.isEmpty && !r.visitorGraceElapsed then
    let r := { r with visitorGraceElapsed := true }
    match r.readStage with
    | some (.header _) => { r with readStage := none }.endIteration
    | _ => r.endIteration
  else r.cancelHeader

end Registration

/-- `failed` is a read that ends in an error, or the end of the stream. -/
inductive RegEvent where
  | byte (b : Byte)
  | poll
  | failed
  | timer
  | watchdog
  | stop

namespace Registration

def step (setup : RegSetup) (r : Registration) (e : RegEvent) : Registration :=
  if r.finished then r
  else match e with
    | .byte b => r.onByte setup b
    | .poll => r.onPoll setup
    | .timer => r.onTimer setup
    | .failed | .watchdog | .stop => r.abort

def sessionVisitors (visitors : List SessionVisitor) : List SessionVisitor :=
  visitors.filter fun v => v.enabled && v.bindPort ≠ 0

/-- The requests are written; `visitorError` is by the place of the visitor. -/
def start (s : Service) (user : Text) (proxies : List ProxyConfig)
    (visitors : List SessionVisitor) (writeError : Text -> Option Text)
    (visitorError : Nat -> Bool) : Registration :=
  let written := (proxies.foldl (registerProxy writeError) (⟨s, user, [], ∅⟩, [])).1
  let refused := (proxies.filter fun p => !healthCheckMonitored p).any fun p =>
    (writeError (wireProxyName user p.name)).isSome
  let asked := (sessionVisitors visitors).zipIdx.filter fun v => !visitorError v.2
  loopTop {
    service := written.service
    pendingProxies := written.pending
    pendingVisitors := asked.map fun v => visitorWireName v.1.serverUser user v.1.serverName
    aborted := refused || (sessionVisitors visitors).zipIdx.any fun v => visitorError v.2 }

/-- The end of the phase: what is still pending has failed. -/
def finish (r : Registration) : Registration × Bool :=
  ({ r.failPendingProxies "registration aborted (no response)".toList with pendingVisitors := [] },
    !r.aborted)

/-!
## Unexpected messages
-/

def unexpectedSeen (r : Registration) : Nat :=
  r.dispatched.countP fun m => !m.2

variable {setup : RegSetup} {r : Registration}

theorem loopTop_same (r : Registration) :
    r.loopTop.unexpected = r.unexpected ∧ r.loopTop.dispatched = r.dispatched ∧
      r.loopTop.service = r.service ∧ r.loopTop.pendingProxies = r.pendingProxies ∧
      r.loopTop.consumed = r.consumed ∧ r.loopTop.aborted = r.aborted := by
  unfold loopTop
  repeat' split
  all_goals exact ⟨rfl, rfl, rfl, rfl, rfl, rfl⟩

theorem endIteration_full (h : 100 ≤ r.unexpected) : r.endIteration = r.abort := by
  rw [endIteration, if_pos h, loopTop, if_pos rfl]
  rfl

theorem endIteration_open (h : r.unexpected < 100) : r.endIteration = r.loopTop := by
  rw [endIteration, if_neg (Nat.not_le.mpr h)]

/-- At the limit no payload is under way. -/
structure Capped (r : Registration) : Prop where
  counted : r.unexpected = r.unexpectedSeen
  bounded : r.unexpected ≤ 100
  header : r.finished = false -> r.unexpected = 100 -> exists got, r.readStage = some (.header got)

theorem Capped.abort (h : Capped r) : Capped r.abort :=
  ⟨h.counted, h.bounded, nofun⟩

theorem capped_loopTop (hcounted : r.unexpected = r.unexpectedSeen) (hbounded : r.unexpected ≤ 100)
    (hstage : r.readStage = none ∨ r.unexpected < 100) : Capped r.loopTop := by
  obtain ⟨hunexpected, hdispatched, _⟩ := loopTop_same r
  have hseen : r.loopTop.unexpectedSeen = r.unexpectedSeen := by
    rw [unexpectedSeen, hdispatched, unexpectedSeen]
  refine ⟨by rw [hunexpected, hseen, hcounted], hunexpected ▸ hbounded, ?_⟩
  intro hrunning hfull
  rw [hunexpected] at hfull
  have hnone : r.readStage = none := hstage.resolve_right (by omega)
  unfold loopTop at hrunning ⊢
  rw [hnone] at hrunning ⊢
  split at hrunning
  · cases hrunning
  · split at hrunning
    · cases hrunning
    · split at hrunning
      · cases hrunning
      · rename_i h1 h2 h3
        rw [if_neg h1, if_neg h2, if_neg h3]
        exact ⟨[], rfl⟩

theorem capped_endIteration (hcounted : r.unexpected = r.unexpectedSeen)
    (hbounded : r.unexpected ≤ 100) : Capped r.endIteration := by
  by_cases hfull : 100 ≤ r.unexpected
  · rw [endIteration_full hfull]
    exact ⟨hcounted, hbounded, nofun⟩
  · rw [endIteration_open (Nat.not_le.mp hfull)]
    exact capped_loopTop hcounted hbounded (.inr (Nat.not_le.mp hfull))

theorem Capped.payloadRead (h : Capped r) (hrunning : r.finished = false) {hdr : RegFrameHdr}
    {got : List Byte} (hstage : r.readStage = some (.payload hdr got)) (payload : List Byte) :
    Capped (r.payloadRead setup hdr payload) := by
  have hbelow : r.unexpected < 100 := by
    apply Nat.lt_of_le_of_ne h.bounded
    intro hfull
    obtain ⟨_, hheader⟩ := h.header hrunning hfull
    cases hstage.symm.trans hheader
  have hseen (m : RegMessage) (expected : Bool) :
      (r.dispatched ++ [(m, expected)]).countP (fun m => !m.2) =
        r.unexpected + if expected then 0 else 1 := by
    rw [countP_append, countP_singleton, h.counted]
    cases expected <;> rfl
  unfold Registration.payloadRead
  split
  · exact h.abort
  · rename_i m _
    cases m with
    | newProxyResp name error =>
      unfold dispatch expects
      dsimp only
      split
      · rename_i hpending
        exact capped_endIteration (by rw [unexpectedSeen, hseen, hpending]; rfl) h.bounded
      · rename_i hpending
        exact capped_loopTop (by rw [unexpectedSeen, hseen, if_neg hpending]) hbelow (.inl rfl)
    | newVisitorConnResp name error =>
      unfold dispatch expects
      dsimp only
      split
      · rename_i hpending
        exact capped_endIteration (by rw [unexpectedSeen, hseen, hpending]; rfl) h.bounded
      · rename_i hpending
        exact capped_loopTop (by rw [unexpectedSeen, hseen, if_neg hpending]) hbelow (.inl rfl)
    | reqWorkConn => exact capped_endIteration (hseen .reqWorkConn true).symm h.bounded
    | other => exact capped_endIteration (hseen .other false).symm hbelow

theorem Capped.cancelHeader (h : Capped r) : Capped r.cancelHeader := by
  unfold Registration.cancelHeader
  split
  · exact capped_endIteration h.counted h.bounded
  · exact h.abort
  · exact capped_endIteration h.counted h.bounded

theorem Capped.step (h : Capped r) (e : RegEvent) : Capped (r.step setup e) := by
  unfold Registration.step
  split
  · exact h
  · rename_i hfinished
    have hrunning := Bool.eq_false_of_not_eq_true hfinished
    cases e with
    | byte b =>
      dsimp only
      unfold onByte
      split
      · exact h
      · dsimp only
        split
        · unfold headerRead
          split
          · exact ⟨h.counted, h.bounded, nofun⟩
          · exact capped_endIteration h.counted h.bounded
        · exact ⟨h.counted, h.bounded, fun _ _ => ⟨_, rfl⟩⟩
      · rename_i hdr got hstage
        split
        · have hnext : Capped { r with
              consumed := r.consumed ++ [b]
              readStage := some (.payload hdr (got ++ [b])) } := by
            refine ⟨h.counted, h.bounded, ?_⟩
            intro _ hfull
            obtain ⟨_, hheader⟩ := h.header hrunning hfull
            cases hstage.symm.trans hheader
          dsimp only
          split
          · exact hnext.payloadRead hrunning rfl _
          · exact hnext
        · exact h
    | poll =>
      dsimp only
      unfold onPoll
      split
      · rename_i hdr got hstage
        split
        · exact h.payloadRead hrunning hstage got
        · exact h
      · exact h
    | timer =>
      dsimp only
      unfold onTimer
      split
      · exact Capped.cancelHeader ⟨h.counted, h.bounded, h.header⟩
      · split
        · dsimp only
          split
          · exact capped_endIteration h.counted h.bounded
          · exact capped_endIteration h.counted h.bounded
        · exact h.cancelHeader
    | failed => exact h.abort
    | watchdog => exact h.abort
    | stop => exact h.abort

theorem endIteration_ends (h : 100 ≤ r.unexpected) :
    r.endIteration.dispatched = r.dispatched ∧
      (r.endIteration.finished = true -> r.endIteration.aborted = true) := by
  rw [endIteration_full h]
  exact ⟨rfl, fun _ => rfl⟩

theorem step_full (setup : RegSetup) (hfull : 100 ≤ r.unexpected) (hrunning : r.finished = false)
    {got : List Byte} (hstage : r.readStage = some (.header got)) (e : RegEvent) :
    (r.step setup e).dispatched = r.dispatched ∧
      ((r.step setup e).finished = true -> (r.step setup e).aborted = true) := by
  unfold step
  rw [if_neg (Bool.eq_false_iff.mp hrunning)]
  cases e with
  | byte b =>
    simp only [onByte, hstage]
    split
    · unfold headerRead
      split
      · exact ⟨rfl, fun _ => rfl⟩
      · exact endIteration_ends hfull
    · exact ⟨rfl, fun hfinished => absurd (hrunning.symm.trans hfinished) Bool.false_ne_true⟩
  | poll =>
    simp only [onPoll, hstage]
    exact ⟨trivial, fun hfinished => absurd (hrunning.symm.trans hfinished) Bool.false_ne_true⟩
  | timer =>
    simp only [onTimer, cancelHeader, failPendingProxies, hstage]
    split
    · exact endIteration_ends hfull
    · split
      · exact endIteration_ends hfull
      · exact endIteration_ends hfull
  | failed => exact ⟨rfl, fun _ => rfl⟩
  | watchdog => exact ⟨rfl, fun _ => rfl⟩
  | stop => exact ⟨rfl, fun _ => rfl⟩

/-- At most 100 messages are handled that nothing waits for.  After the hundredth none is, and what
ends the phase makes it return `false`. -/
theorem unexpected_bounded (setup : RegSetup) (s : Service) (user : Text)
    (proxies : List ProxyConfig) (visitors : List SessionVisitor)
    (writeError : Text -> Option Text) (visitorError : Nat -> Bool) (es : List RegEvent) :
    let r := Run.run (step setup) (start s user proxies visitors writeError visitorError) es
    r.unexpectedSeen ≤ 100 ∧
      (r.unexpectedSeen = 100 -> r.finished = false -> forall e,
        (r.step setup e).dispatched = r.dispatched ∧
          ((r.step setup e).finished = true -> (r.step setup e).finish.2 = false)) := by
  intro r
  have hcapped : Capped r :=
    Run.run_preserves (fun _ e h => h.step e) es
      (capped_loopTop rfl (Nat.zero_le 100) (.inl rfl))
  rw [<- hcapped.counted]
  refine ⟨hcapped.bounded, ?_⟩
  intro hfull hrunning e
  obtain ⟨got, hstage⟩ := hcapped.header hrunning hfull
  obtain ⟨hsame, haborted⟩ := step_full setup (Nat.le_of_eq hfull.symm) hrunning hstage e
  exact ⟨hsame, fun hfinished => congrArg not (haborted hfinished)⟩

end Registration
end Client
end FrpRs
