import FrpRs.Data.Run
import FrpRs.NatHole.Response
import FrpRs.NatHole.SessionTable

/-!
# The NAT-hole controller

`Controller` of `frp-server/src/nathole/controller.rs` together with the handlers that
drive it: the visitor flows of `control/nathole.rs` (over the control channel) and
`handlers/dispatch.rs` (over a connection of their own), the provider's messages, and
the janitor's sweep.  Every handler is cut at the points where another task can run in
between, and the tasks interleave in any order.

A session is an object that tasks go on holding after it has left the table; the table
maps a session id to the object's index.  The hash of the session ids and the MD5 digest
are parameters.
-/

namespace FrpRs
namespace NatHole

/-- The session object; of a channel, whether its sender is still in place. -/
structure Session where
  vResp : Option NatHoleResp
  clientMsg : Option NatHoleClient
  notifyCh : Bool
  reportTx : Bool
  lastActivity : Nat
  selectedIndex : Option Nat
  analysisKey : Option String

/-!
## Tasks
-/

/-- What `get_recommend_behaviors` chose for a flow, and under which key. -/
structure Choice where
  key : String
  mode : Nat
  index : Nat
deriving DecidableEq

/-- Where a visitor's flow stands between two of its steps. -/
inductive Stage where
  /-- A slot is reserved and the shard lock awaited. -/
  | inserting
  /-- The entry is stored and the reservation not settled yet. -/
  | landed (replaced : Bool)
  | notifying
  | awaitingClient
  | takingClient
  | analysing (client : NatHoleClient)
  | storing (vResp cResp : NatHoleResp)
  | responding
  | awaitingReport
  | removing
  | finished

structure Flow where
  visitor : NatHoleVisitor
  viaCtl : Bool
  object : Nat
  stage : Stage
  chosen : Option Choice

def Flow.tid (f : Flow) : String := f.visitor.transactionId

/-- A `handle_client` or `handle_report` call that has cloned its session. -/
inductive Lookup where
  | client (object : Nat) (msg : NatHoleClient)
  | report (object : Nat) (success : Bool)
  | finished

/-- Where a sweep stands on its shard. -/
inductive Phase where
  | idle
  /-- The shard is read-locked; the entries not looked at yet. -/
  | reading (unread : List (String × Nat)) (expired : List String)
  | removing (expired : List String)

/-- A call of `expire_sessions`. -/
structure Sweep where
  start : Nat
  timeout : Nat
  shard : Nat
  phase : Phase

namespace Sweep

def expired (w : Sweep) : List String :=
  match w.phase with
  | .idle => []
  | .reading _ expired => expired
  | .removing expired => expired

def unread (w : Sweep) : List (String × Nat) :=
  match w.phase with
  | .reading unread _ => unread
  | _ => []

def locks (w : Sweep) (shard : Nat) : Bool :=
  match w.phase with
  | .reading _ _ => w.shard = shard
  | _ => false

/-- `now.duration_since(last) >= timeout`; the difference saturates. -/
def stale (w : Sweep) (lastActivity : Nat) : Bool :=
  w.timeout ≤ w.start - lastActivity

end Sweep

structure Controller where
  sessions : SessionTable Nat
  objects : List Session
  analyzer : Analyzer
  clock : Nat
  flows : List Flow
  lookups : List Lookup
  sweeps : List Sweep
  /-- Removals that have taken an entry out and not counted down yet. -/
  releases : Nat

def Controller.new (reserve : Nat) : Controller where
  sessions := SessionTable.new
  objects := []
  analyzer := Analyzer.new reserve
  clock := 0
  flows := []
  lookups := []
  sweeps := []
  releases := 0

/-- A step of a visitor's flow; what a channel or a timer answers is part of it. -/
inductive FlowStep where
  | land
  | settle
  | cancel
  | notifyProvider (sent : Bool)
  | awaitClient (received : Bool)
  | takeClient
  | analyse
  | store
  | respond (sent : Bool)
  | awaitReport (reported : Bool)
  | cleanUp

inductive SweepStep where
  | lockShard
  | readEntry (entry : Nat)
  | unlockShard
  | expire (entry : Nat)
  | nextShard

/-- A step of one of the tasks, or the passing of time.  Flows, lookups and sweeps are
named by their position. -/
inductive Event where
  /-- A `NatHoleVisitor` that passed authentication and whose provider is online. -/
  | visitor (viaCtl : Bool) (msg : NatHoleVisitor)
  | flow (flow : Nat) (step : FlowStep)
  | client (msg : NatHoleClient)
  | finishClient (lookup : Nat)
  /-- A call of `Controller::handle_report`. -/
  | reportCall (msg : NatHoleReport)
  | finishReport (lookup : Nat)
  /-- A `NatHoleReport` on a control connection. -/
  | report (msg : NatHoleReport)
  | countDown
  | tick (elapsed : Nat)
  | cleanAnalyzer
  | expireSessions (timeout : Nat)
  | sweep (sweep : Nat) (step : SweepStep)

namespace Controller

/-!
## The table
-/

section Step

variable (hash : String -> Nat)

def get (s : Controller) (sid : String) : Option Nat :=
  s.sessions.get hash sid

def locked (s : Controller) (sid : String) : Bool :=
  s.sweeps.any fun w => w.locks (SessionTable.shardIndex hash sid)

/-- `SessionTable::remove`, up to the decrement. -/
def remove (s : Controller) (sid : String) : Controller :=
  let taken := s.sessions.takeOut hash sid
  { s with
    sessions := taken.2
    releases := if taken.1.isSome then s.releases + 1 else s.releases }

def countDown (s : Controller) : Controller :=
  if s.releases = 0 then s
  else { s with sessions := s.sessions.release, releases := s.releases - 1 }

def updateObject (s : Controller) (object : Nat) (f : Session -> Session) : Controller :=
  { s with objects := s.objects.modify object f }

def setFlow (s : Controller) (flow : Nat) (f : Flow) : Controller :=
  { s with flows := s.flows.set flow f }

/-!
## Visitor flows
-/

def newSession (s : Controller) (viaCtl : Bool) : Session where
  vResp := none
  clientMsg := none
  notifyCh := viaCtl
  reportTx := true
  lastActivity := s.clock
  selectedIndex := none
  analysisKey := none

/-- `create_session_with_ctl` and `create_session_with_writer` up to the shard lock: at
the cap the session is refused and the flow ends. -/
def createSession (s : Controller) (viaCtl : Bool) (msg : NatHoleVisitor) : Controller :=
  let reserved := s.sessions.reserve
  { s with
    sessions := reserved.getD s.sessions
    objects := s.objects ++ [s.newSession viaCtl]
    flows := s.flows ++
      [{ visitor := msg, viaCtl := viaCtl, object := s.objects.length,
         stage := if reserved.isSome then .inserting else .finished, chosen := none }] }

/-- The session a flow works on: the control-channel path looks it up again by its id,
the other path holds it. -/
def target (s : Controller) (f : Flow) : Option Nat :=
  if f.viaCtl then s.get hash f.tid else some f.object

def updateTarget (s : Controller) (f : Flow) (update : Session -> Session) : Controller :=
  match s.target hash f with
  | none => s
  | some object => s.updateObject object update

def land (s : Controller) (flow : Nat) (f : Flow) : Controller :=
  if s.locked hash f.tid then s
  else
    let put := s.sessions.put hash f.tid f.object
    { s with sessions := put.2 }.setFlow flow { f with stage := .landed put.1 }

def settle (s : Controller) (flow : Nat) (f : Flow) (replaced : Bool) : Controller :=
  { s with sessions := if replaced then s.sessions.release else s.sessions }.setFlow flow
    { f with stage := .notifying }

def cancel (s : Controller) (flow : Nat) (f : Flow) : Controller :=
  { s with sessions := s.sessions.release }.setFlow flow { f with stage := .finished }

def notifyProvider (s : Controller) (flow : Nat) (f : Flow) (sent : Bool) : Controller :=
  (s.updateObject f.object fun o => { o with notifyCh := true }).setFlow flow
    { f with stage := if sent then .awaitingClient else .removing }

/-- The wait for the provider ends early when the signal was sent, or when the session
has left the table and its sender with it. -/
def signalled (s : Controller) (f : Flow) : Bool :=
  s.get hash f.tid ≠ some f.object ||
    (s.objects[f.object]?).any fun o => !o.notifyCh

def reported (s : Controller) (f : Flow) : Bool :=
  (s.objects[f.object]?).any fun o => !o.reportTx

/-- The client's message leaves the session. -/
def takeClient (s : Controller) (flow : Nat) (f : Flow) : Controller :=
  let client := ((s.target hash f).bind fun object => s.objects[object]?).bind Session.clientMsg
  (s.updateTarget hash f fun o => { o with clientMsg := none }).setFlow flow
    { f with
      stage :=
        match client with
        | some msg => .analysing msg
        | none => .removing }

def analyse (md5 : String -> String) (s : Controller) (flow : Nat) (f : Flow)
    (client : NatHoleClient) : Controller :=
  let x : Exchange := { visitor := f.visitor, client := client }
  match x.features with
  | some (cf, vf) =>
    let key := x.analysisKey md5 cf vf
    let recommended := s.analyzer.getRecommendBehaviors key cf vf s.clock
    let responses := x.responses cf vf recommended.1
    ({ s with analyzer := recommended.2 }.updateTarget hash f fun o =>
      { o with
        analysisKey := some key
        selectedIndex := if f.viaCtl then o.selectedIndex else some recommended.1.index }).setFlow flow
      { f with
        stage := .storing responses.1 responses.2
        chosen := some { key := key, mode := recommended.1.mode, index := recommended.1.index } }
  | none =>
    s.setFlow flow { f with stage := .storing x.plainResponses.1 x.plainResponses.2 }

/-- What the analysis found is stored for the report. -/
def store (s : Controller) (flow : Nat) (f : Flow) (vResp : NatHoleResp) : Controller :=
  (s.updateTarget hash f fun o =>
    { o with
      vResp := some vResp
      selectedIndex :=
        if f.viaCtl then f.chosen.map Choice.index else o.selectedIndex }).setFlow flow
    { f with stage := .responding }

/-- A provider that cannot be reached ends a flow of a connection of its own; on the
control channel the failure is only logged. -/
def respond (s : Controller) (flow : Nat) (f : Flow) (sent : Bool) : Controller :=
  s.setFlow flow
    { f with stage := if sent || f.viaCtl then .awaitingReport else .removing }

def cleanUp (s : Controller) (flow : Nat) (f : Flow) : Controller :=
  if s.locked hash f.tid then s
  else (s.remove hash f.tid).setFlow flow { f with stage := .finished }

/-- One step of a flow; a step that the flow's stage does not offer changes nothing. -/
def stepFlow (md5 : String -> String) (s : Controller) (flow : Nat) (f : Flow) :
    FlowStep -> Controller
  | .land =>
    match f.stage with
    | .inserting => s.land hash flow f
    | _ => s
  | .settle =>
    match f.stage with
    | .landed replaced => s.settle flow f replaced
    | _ => s
  | .cancel =>
    match f.stage with
    | .inserting => s.cancel flow f
    | _ => s
  | .notifyProvider sent =>
    match f.stage with
    | .notifying => s.notifyProvider flow f sent
    | _ => s
  | .awaitClient received =>
    match f.stage with
    | .awaitingClient =>
      if received && !s.signalled hash f then s
      else s.setFlow flow { f with stage := if received then .takingClient else .removing }
    | _ => s
  | .takeClient =>
    match f.stage with
    | .takingClient => s.takeClient hash flow f
    | _ => s
  | .analyse =>
    match f.stage with
    | .analysing client => s.analyse hash md5 flow f client
    | _ => s
  | .store =>
    match f.stage with
    | .storing vResp _ => s.store hash flow f vResp
    | _ => s
  | .respond sent =>
    match f.stage with
    | .responding => s.respond flow f sent
    | _ => s
  | .awaitReport reported =>
    match f.stage with
    | .awaitingReport =>
      if reported && !s.reported f then s
      else s.setFlow flow { f with stage := if reported then .finished else .removing }
    | _ => s
  | .cleanUp =>
    match f.stage with
    | .removing => s.cleanUp hash flow f
    | _ => s

/-!
## Messages of the provider
-/

/-- `handle_client` up to the clone of the session. -/
def handleClient (s : Controller) (msg : NatHoleClient) : Controller :=
  match msg.sid.bind (s.get hash) with
  | none => s
  | some object => { s with lookups := s.lookups ++ [.client object msg] }

/-- The rest of `handle_client`: the message is stored and the waiting flow signalled. -/
def finishClient (s : Controller) (lookup : Nat) (object : Nat) (msg : NatHoleClient) :
    Controller :=
  { s.updateObject object fun o =>
      { o with clientMsg := some msg, lastActivity := s.clock, notifyCh := false } with
    lookups := s.lookups.set lookup .finished }

/-- `Controller::handle_report` up to the clone of the session. -/
def handleReport (s : Controller) (msg : NatHoleReport) : Controller :=
  match msg.sid.bind (s.get hash) with
  | none => s
  | some object => { s with lookups := s.lookups ++ [.report object msg.success] }

/-- What `handle_report` tells the analyzer about a session. -/
def learn (s : Controller) (o : Session) : Analyzer :=
  match o.vResp.bind NatHoleResp.detectBehavior with
  | none => s.analyzer
  | some behavior =>
    s.analyzer.reportSuccess (o.analysisKey.getD "") behavior.mode (o.selectedIndex.getD 0) s.clock

/-- The rest of `handle_report`: a success is reported to the analyzer. -/
def finishReport (s : Controller) (lookup : Nat) (object : Nat) (success : Bool) : Controller :=
  { s.updateObject object fun o => { o with lastActivity := s.clock } with
    lookups := s.lookups.set lookup .finished
    analyzer :=
      match s.objects[object]? with
      | some o => if success then s.learn o else s.analyzer
      | none => s.analyzer }

def complete (s : Controller) (sid : String) : Controller :=
  match s.get hash sid with
  | none => s.remove hash sid
  | some object =>
    (s.remove hash sid).updateObject object fun o => { o with reportTx := false }

/-- `handle_nat_hole_report` of the control loop: the report is forwarded to the visitor
and the session completed. -/
def handleNatHoleReport (s : Controller) (msg : NatHoleReport) : Controller :=
  match msg.sid with
  | none => s
  | some sid => s.complete hash sid

/-!
## The sweep
-/

def setPhase (s : Controller) (sweep : Nat) (w : Sweep) (phase : Phase) : Controller :=
  { s with sweeps := s.sweeps.set sweep { w with phase := phase } }

def staleObject (s : Controller) (w : Sweep) (object : Nat) : Bool :=
  (s.objects[object]?).any fun o => w.stale o.lastActivity

def lockShard (s : Controller) (sweep : Nat) (w : Sweep) : Controller :=
  match s.sessions.shards[w.shard]? with
  | none => s
  | some shard => s.setPhase sweep w (.reading (shard.entries.map fun e => (e.1, e.2)) [])

/-- The scan looks at one of the entries it has not looked at yet. -/
def readEntry (s : Controller) (sweep : Nat) (w : Sweep) (unread : List (String × Nat))
    (expired : List String) (entry : Nat) : Controller :=
  match unread[entry]? with
  | none => s
  | some (sid, object) =>
    s.setPhase sweep w
      (.reading (unread.eraseIdx entry)
        (if s.staleObject w object then expired ++ [sid] else expired))

def expire (s : Controller) (sweep : Nat) (w : Sweep) (expired : List String) (entry : Nat) :
    Controller :=
  match expired[entry]? with
  | none => s
  | some sid =>
    if s.locked hash sid then s
    else (s.remove hash sid).setPhase sweep w (.removing (expired.eraseIdx entry))

def stepSweep (s : Controller) (sweep : Nat) (w : Sweep) : SweepStep -> Controller
  | .lockShard =>
    match w.phase with
    | .idle => s.lockShard sweep w
    | _ => s
  | .readEntry entry =>
    match w.phase with
    | .reading unread expired => s.readEntry sweep w unread expired entry
    | _ => s
  | .unlockShard =>
    match w.phase with
    | .reading [] expired => s.setPhase sweep w (.removing expired)
    | _ => s
  | .expire entry =>
    match w.phase with
    | .removing expired => s.expire hash sweep w expired entry
    | _ => s
  | .nextShard =>
    match w.phase with
    | .removing [] =>
      { s with
        sweeps := s.sweeps.set sweep { w with shard := w.shard + 1, phase := .idle } }
    | _ => s

theorem stepSweep_frame (s : Controller) (i : Nat) (w : Sweep) (e : SweepStep) :
    exists sessions sweeps releases,
      s.stepSweep hash i w e =
        { s with sessions := sessions, sweeps := sweeps, releases := releases } := by
  cases e with
  | lockShard =>
    simp only [stepSweep, lockShard]
    split
    · split
      · exact ⟨_, _, _, rfl⟩
      · exact ⟨_, _, _, rfl⟩
    · exact ⟨_, _, _, rfl⟩
  | readEntry entry =>
    simp only [stepSweep, readEntry]
    split
    · split
      · exact ⟨_, _, _, rfl⟩
      · exact ⟨_, _, _, rfl⟩
    · exact ⟨_, _, _, rfl⟩
  | expire entry =>
    simp only [stepSweep, expire]
    split
    · split
      · exact ⟨_, _, _, rfl⟩
      · split
        · exact ⟨_, _, _, rfl⟩
        · exact ⟨_, _, _, rfl⟩
    · exact ⟨_, _, _, rfl⟩
  | _ =>
    simp only [stepSweep]
    split
    · exact ⟨_, _, _, rfl⟩
    · exact ⟨_, _, _, rfl⟩

def startSweep (s : Controller) (timeout : Nat) : Controller :=
  { s with
    sweeps := s.sweeps ++ [{ start := s.clock, timeout := timeout, shard := 0, phase := .idle }] }

/-!
## Steps
-/

def step (md5 : String -> String) (s : Controller) : Event -> Controller
  | .visitor viaCtl msg => s.createSession viaCtl msg
  | .flow i e =>
    match s.flows[i]? with
    | some f => s.stepFlow hash md5 i f e
    | none => s
  | .client msg => s.handleClient hash msg
  | .finishClient i =>
    match s.lookups[i]? with
    | some (.client object msg) => s.finishClient i object msg
    | _ => s
  | .reportCall msg => s.handleReport hash msg
  | .finishReport i =>
    match s.lookups[i]? with
    | some (.report object success) => s.finishReport i object success
    | _ => s
  | .report msg =>
    if msg.sid.any (s.locked hash) then s else s.handleNatHoleReport hash msg
  | .countDown => s.countDown
  | .tick elapsed => { s with clock := s.clock + elapsed }
  | .cleanAnalyzer => { s with analyzer := (s.analyzer.clean s.clock).2 }
  | .expireSessions timeout => s.startSweep timeout
  | .sweep i e =>
    match s.sweeps[i]? with
    | some w => s.stepSweep hash i w e
    | none => s

end Step

end Controller

/-!
## What a step does to the table
-/

/-- A write to the table: what is stored under the id afterwards. -/
structure TableWrite where
  sid : String
  stored : Option Nat

namespace Controller

section Writes

variable (hash : String -> Nat) (md5 : String -> String)

def permitted (s : Controller) (sid : String) (stored : Option Nat) : Option TableWrite :=
  if s.locked hash sid then none else some { sid := sid, stored := stored }

def flowWrite (s : Controller) (f : Flow) : FlowStep -> Option TableWrite
  | .land =>
    match f.stage with
    | .inserting => s.permitted hash f.tid (some f.object)
    | _ => none
  | .cleanUp =>
    match f.stage with
    | .removing => s.permitted hash f.tid none
    | _ => none
  | _ => none

def sweepWrite (s : Controller) (w : Sweep) : SweepStep -> Option TableWrite
  | .expire entry =>
    match w.phase with
    | .removing expired => (expired[entry]?).bind fun sid => s.permitted hash sid none
    | _ => none
  | _ => none

def writes (s : Controller) : Event -> Option TableWrite
  | .flow i e => (s.flows[i]?).bind fun f => s.flowWrite hash f e
  | .report msg => msg.sid.bind fun sid => s.permitted hash sid none
  | .sweep i e => (s.sweeps[i]?).bind fun w => s.sweepWrite hash w e
  | _ => none

end Writes

end Controller

def TableWrite.apply (hash : String -> Nat) (write : TableWrite) (t : SessionTable Nat) :
    SessionTable Nat :=
  match write.stored with
  | some object => (t.put hash write.sid object).2
  | none => (t.takeOut hash write.sid).2

theorem TableWrite.get_apply (hash : String -> Nat) (write : TableWrite)
    (t : SessionTable Nat) (a : String) :
    (write.apply hash t).get hash a = if a = write.sid then write.stored else t.get hash a := by
  cases write with
  | mk sid stored =>
    cases stored with
    | none =>
      exact t.get_takeOut hash sid a
    | some object =>
      exact t.get_put hash sid a object

def SessionTable.after (hash : String -> Nat) (t : SessionTable Nat) :
    Option TableWrite -> SessionTable Nat
  | some write => write.apply hash t
  | none => t

namespace Controller

section Frame

variable (hash : String -> Nat) (md5 : String -> String)

variable (s : Controller)

@[simp] theorem updateObject_sessions (object : Nat) (f : Session -> Session) :
    (s.updateObject object f).sessions = s.sessions := rfl

@[simp] theorem setFlow_sessions (flow : Nat) (f : Flow) :
    (s.setFlow flow f).sessions = s.sessions := rfl

@[simp] theorem setPhase_sessions (sweep : Nat) (w : Sweep) (phase : Phase) :
    (s.setPhase sweep w phase).sessions = s.sessions := rfl

@[simp] theorem updateTarget_sessions (f : Flow) (update : Session -> Session) :
    (s.updateTarget hash f update).sessions = s.sessions := by
  rw [updateTarget]
  split
  · rfl
  · rfl

@[simp] theorem countDown_shards :
    s.countDown.sessions.shards = s.sessions.shards := by
  rw [countDown]
  split
  · rfl
  · rfl

theorem analyse_sessions (flow : Nat) (f : Flow) (client : NatHoleClient) :
    (s.analyse hash md5 flow f client).sessions = s.sessions := by
  simp only [analyse]
  split
  · simp only [setFlow_sessions, updateTarget_sessions]
  · rfl

theorem stepFlow_shards (i : Nat) (f : Flow) (e : FlowStep) :
    (s.stepFlow hash md5 i f e).sessions.shards =
      (s.sessions.after hash (s.flowWrite hash f e)).shards := by
  cases e with
  | land =>
    simp only [stepFlow, flowWrite]
    split
    · simp only [land, permitted]
      split
      · rfl
      · rfl
    · rfl
  | settle =>
    simp only [stepFlow, flowWrite]
    split
    · rename_i replaced hstage
      cases replaced with
      | true => rfl
      | false => rfl
    · rfl
  | cancel =>
    simp only [stepFlow, flowWrite]
    split
    · rfl
    · rfl
  | notifyProvider sent =>
    simp only [stepFlow, flowWrite]
    split
    · rfl
    · rfl
  | awaitClient received =>
    simp only [stepFlow, flowWrite]
    split
    · split
      · rfl
      · rfl
    · rfl
  | takeClient =>
    simp only [stepFlow, flowWrite]
    split
    · simp only [takeClient, setFlow_sessions, updateTarget_sessions]
      rfl
    · rfl
  | analyse =>
    simp only [stepFlow, flowWrite]
    split
    · rw [analyse_sessions]
      rfl
    · rfl
  | store =>
    simp only [stepFlow, flowWrite]
    split
    · simp only [store, setFlow_sessions, updateTarget_sessions]
      rfl
    · rfl
  | respond sent =>
    simp only [stepFlow, flowWrite]
    split
    · rfl
    · rfl
  | awaitReport reported =>
    simp only [stepFlow, flowWrite]
    split
    · split
      · rfl
      · rfl
    · rfl
  | cleanUp =>
    simp only [stepFlow, flowWrite]
    split
    · simp only [cleanUp, permitted]
      split
      · rfl
      · rfl
    · rfl

theorem stepSweep_shards (i : Nat) (w : Sweep) (e : SweepStep) :
    (s.stepSweep hash i w e).sessions.shards =
      (s.sessions.after hash (s.sweepWrite hash w e)).shards := by
  cases e with
  | lockShard =>
    simp only [stepSweep, sweepWrite]
    split
    · rw [lockShard]
      split
      · rfl
      · rfl
    · rfl
  | readEntry entry =>
    simp only [stepSweep, sweepWrite]
    split
    · rw [readEntry]
      split
      · rfl
      · rfl
    · rfl
  | unlockShard =>
    simp only [stepSweep, sweepWrite]
    split
    · rfl
    · rfl
  | expire entry =>
    simp only [stepSweep, sweepWrite]
    split
    · rename_i expired hphase
      cases hentry : expired[entry]? with
      | none =>
        simp only [expire, hentry, Option.bind_none]
        rfl
      | some sid =>
        simp only [expire, hentry, Option.bind_some, permitted]
        split
        · rfl
        · rfl
    · rfl
  | nextShard =>
    simp only [stepSweep, sweepWrite]
    split
    · rfl
    · rfl

theorem complete_shards (sid : String) :
    (s.complete hash sid).sessions.shards = (s.sessions.takeOut hash sid).2.shards := by
  rw [complete]
  split
  · rfl
  · rfl

theorem report_shards (msg : NatHoleReport) :
    (s.step hash md5 (.report msg)).sessions.shards =
      (s.sessions.after hash (s.writes hash (.report msg))).shards := by
  simp only [step, writes]
  cases hsid : msg.sid with
  | none =>
    rw [handleNatHoleReport, hsid]
    rfl
  | some sid =>
    simp only [handleNatHoleReport, hsid, Option.any_some, Option.bind_some, permitted]
    split
    · rfl
    · exact s.complete_shards hash sid

theorem step_shards (e : Event) :
    (s.step hash md5 e).sessions.shards = (s.sessions.after hash (s.writes hash e)).shards := by
  cases e with
  | visitor viaCtl msg =>
    exact s.sessions.shards_reserve
  | flow i e =>
    simp only [step, writes]
    cases s.flows[i]? with
    | none => rfl
    | some f => exact s.stepFlow_shards hash md5 i f e
  | client msg =>
    simp only [step, handleClient]
    split
    · rfl
    · rfl
  | finishClient i =>
    simp only [step]
    split
    · rfl
    · rfl
  | reportCall msg =>
    simp only [step, handleReport]
    split
    · rfl
    · rfl
  | finishReport i =>
    simp only [step]
    split
    · rfl
    · rfl
  | report msg =>
    exact s.report_shards hash md5 msg
  | countDown =>
    exact s.countDown_shards
  | tick elapsed => rfl
  | cleanAnalyzer => rfl
  | expireSessions timeout => rfl
  | sweep i e =>
    simp only [step, writes]
    cases s.sweeps[i]? with
    | none => rfl
    | some w => exact s.stepSweep_shards hash i w e

theorem step_get (e : Event) (a : String) :
    (s.step hash md5 e).get hash a = (s.sessions.after hash (s.writes hash e)).get hash a :=
  SessionTable.get_congr hash (s.step_shards hash md5 e) a

theorem step_get_of_none {s : Controller} {e : Event} (h : s.writes hash e = none) (a : String) :
    (s.step hash md5 e).get hash a = s.get hash a := by
  rw [step_get, h]
  rfl

theorem step_get_of_some {s : Controller} {e : Event} {write : TableWrite}
    (h : s.writes hash e = some write) (a : String) :
    (s.step hash md5 e).get hash a = if a = write.sid then write.stored else s.get hash a := by
  rw [step_get, h]
  exact write.get_apply hash s.sessions a

end Frame

end Controller
/-- `DefaultHasher` on the session ids `w` and `l`; both belong to the first shard. -/
def sampleHash (sid : String) : Nat :=
  if sid = "w" then 585348332714601792 else 1068041501124884128

end NatHole
end FrpRs
