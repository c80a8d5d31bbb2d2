import FrpRs.Client.Session
import FrpRs.Data.Run

/-!
# The health monitor of one proxy

`run_health_check` reads the session generation, waits for a probe and then tries to hand an event
to the control loop.  The generation may change at any moment, also while the probe is under way.
-/

namespace FrpRs
namespace Client

inductive HealthAction where
  | none
  | close
  | recover
deriving DecidableEq, Repr

structure HealthState where
  failures : Nat := 0
  wasFailed : Bool := true
  wasHealthy : Bool := false
deriving DecidableEq, Repr

namespace HealthState

def onCheck (s : HealthState) (ok : Bool) (maxFailed : Nat) : HealthState × HealthAction :=
  if ok then
    ({ s with failures := 0, wasHealthy := true }, if s.wasFailed then .recover else .none)
  else
    -- The counter is 64 bits wide.
    let failures := (s.failures + 1) % 2 ^ 64
    ({ s with failures }, if s.wasHealthy && maxFailed ≤ failures && !s.wasFailed then .close
      else .none)

def confirmRecover (s : HealthState) : HealthState :=
  { s with wasFailed := false }

def confirmClose (s : HealthState) : HealthState :=
  { s with wasFailed := true }

end HealthState

inductive MonitorPhase where
  | waiting
  | probing
  | stopped
deriving DecidableEq, Repr

/-- What an observer of one monitor sees. -/
inductive Mark where
  | changed
  | probed (ok : Bool)
  | delivered (kind : HealthKind)
deriving DecidableEq

/-- `log` is the observer's record, the newest mark first. -/
structure HealthCheck where
  -- an `AtomicU64` that goes up by one with each login
  sessionGen : Nat
  cancel : Bool := false
  seenGen : Nat
  state : HealthState := {}
  phase : MonitorPhase := .waiting
  log : List Mark := []
deriving DecidableEq

/-- `accepts` says whether the channel to the control loop takes the event. -/
inductive MonitorEvent where
  | login
  | cancel
  | begin
  | finish (ok accepts : Bool)
deriving DecidableEq, Repr

namespace HealthCheck

def start (gen : Nat) : HealthCheck :=
  { sessionGen := gen, seenGen := gen }

def beginCheck (m : HealthCheck) : HealthCheck :=
  if m.cancel then { m with phase := .stopped }
  else if m.sessionGen ≠ m.seenGen then
    { m with state := {}, seenGen := m.sessionGen, phase := .probing }
  else { m with phase := .probing }

def deliver (m : HealthCheck) (accepts : Bool) : HealthAction -> HealthCheck
  | .none => m
  | .recover =>
    if accepts then
      { m with state := m.state.confirmRecover, log := .delivered .recover :: m.log }
    else m
  | .close =>
    if accepts then
      { m with state := m.state.confirmClose, log := .delivered .close :: m.log }
    else m

def finishCheck (maxFailed : Nat) (m : HealthCheck) (ok accepts : Bool) : HealthCheck :=
  if m.cancel then { m with phase := .stopped }
  else
    let (state, action) := m.state.onCheck ok maxFailed
    { m with state, phase := .waiting, log := .probed ok :: m.log }.deliver accepts action

def next (maxFailed : Nat) (m : HealthCheck) : MonitorEvent -> HealthCheck
  | .login => { m with sessionGen := m.sessionGen + 1, log := .changed :: m.log }
  | .cancel => { m with cancel := true }
  | .begin => if m.phase = .waiting then m.beginCheck else m
  | .finish ok accepts => if m.phase = .probing then m.finishCheck maxFailed ok accepts else m

end HealthCheck

/-!
## The order of the events
-/

/-- How many events were delivered since the generation last changed. -/
def deliveredSince : List Mark -> Nat
  | [] => 0
  | .changed :: _ => 0
  | .probed _ :: before => deliveredSince before
  | .delivered _ :: before => deliveredSince before + 1

def lastProbe : List Mark -> Option Bool
  | [] => none
  | .probed ok :: _ => some ok
  | .changed :: before => lastProbe before
  | .delivered _ :: before => lastProbe before

def failuresInRow : List Mark -> Nat
  | [] => 0
  | .probed true :: _ => 0
  | .probed false :: before => failuresInRow before + 1
  | .changed :: before => failuresInRow before
  | .delivered _ :: before => failuresInRow before

/-- In each generation the first, third, ... event is a `Recover`, on a successful probe, and the
second, fourth, ... a `Close`, on a failed one that ends a row of `maxFailed` failures. -/
def Alternates (maxFailed : Nat) : List Mark -> Prop
  | [] => True
  | .changed :: before => Alternates maxFailed before
  | .probed _ :: before => Alternates maxFailed before
  | .delivered .recover :: before =>
    deliveredSince before % 2 = 0 ∧ lastProbe before = some true ∧ Alternates maxFailed before
  | .delivered .close :: before =>
    deliveredSince before % 2 = 1 ∧ lastProbe before = some false ∧
      maxFailed ≤ failuresInRow before ∧ Alternates maxFailed before

namespace HealthCheck

/-- The generation does not change while a probe is under way. -/
def BetweenProbes (m : HealthCheck) (e : MonitorEvent) : Prop :=
  e = .login -> m.phase ≠ .probing

instance decidableBetweenProbes (m : HealthCheck) (e : MonitorEvent) :
    Decidable (m.BetweenProbes e) :=
  inferInstanceAs (Decidable (e = .login -> m.phase ≠ .probing))

structure Sound (maxFailed : Nat) (m : HealthCheck) : Prop where
  alternates : Alternates maxFailed m.log
  failures : m.state.failures ≤ failuresInRow m.log
  same : m.sessionGen = m.seenGen ->
    deliveredSince m.log % 2 = if m.state.wasFailed then 0 else 1
  changed : m.sessionGen ≠ m.seenGen -> deliveredSince m.log = 0
  probing : m.phase = .probing -> m.sessionGen = m.seenGen
  seen : m.seenGen ≤ m.sessionGen

variable {maxFailed : Nat} {m : HealthCheck}

theorem sound_start (gen : Nat) : Sound maxFailed (start gen) where
  alternates := trivial
  failures := Nat.le_refl 0
  same := fun _ => rfl
  changed := fun h => absurd rfl h
  probing := nofun
  seen := Nat.le_refl gen

theorem Sound.beginCheck (h : Sound maxFailed m) : Sound maxFailed m.beginCheck := by
  unfold HealthCheck.beginCheck
  split
  · exact { h with probing := nofun }
  · split
    · rename_i hgen
      constructor
      · exact h.alternates
      · exact Nat.zero_le _
      · intro _
        exact congrArg (· % 2) (h.changed hgen)
      · exact fun hne => absurd rfl hne
      · exact fun _ => rfl
      · exact Nat.le_refl _
    · rename_i hgen
      exact { h with probing := fun _ => Decidable.not_not.mp hgen }

theorem Sound.recorded (h : Sound maxFailed m) {ok : Bool} (state : HealthState)
    (hwas : state.wasFailed = m.state.wasFailed)
    (hfailures : state.failures ≤ failuresInRow (.probed ok :: m.log)) :
    Sound maxFailed { m with state, phase := .waiting, log := .probed ok :: m.log } where
  alternates := h.alternates
  failures := hfailures
  same := fun hgen => hwas ▸ h.same hgen
  changed := h.changed
  probing := nofun
  seen := h.seen

theorem Sound.recover (h : Sound maxFailed m) (hgen : m.sessionGen = m.seenGen)
    (hfailed : m.state.wasFailed = true) (hprobe : lastProbe m.log = some true) :
    Sound maxFailed
      { m with state := m.state.confirmRecover, log := .delivered .recover :: m.log } := by
  have heven := h.same hgen
  rw [hfailed, if_pos rfl] at heven
  constructor
  · exact ⟨heven, hprobe, h.alternates⟩
  · exact h.failures
  · intro _
    show (deliveredSince m.log + 1) % 2 = 1
    omega
  · exact fun hne => absurd hgen hne
  · exact h.probing
  · exact h.seen

theorem Sound.close (h : Sound maxFailed m) (hgen : m.sessionGen = m.seenGen)
    (hfailed : m.state.wasFailed = false) (hprobe : lastProbe m.log = some false)
    (hrow : maxFailed ≤ m.state.failures) :
    Sound maxFailed
      { m with state := m.state.confirmClose, log := .delivered .close :: m.log } := by
  have hodd := h.same hgen
  rw [hfailed, if_neg Bool.false_ne_true] at hodd
  constructor
  · exact ⟨hodd, hprobe, Nat.le_trans hrow h.failures, h.alternates⟩
  · exact h.failures
  · intro _
    show (deliveredSince m.log + 1) % 2 = 0
    omega
  · exact fun hne => absurd hgen hne
  · exact h.probing
  · exact h.seen

theorem Sound.finishCheck (h : Sound maxFailed m) (hprobing : m.phase = .probing)
    (ok accepts : Bool) : Sound maxFailed (m.finishCheck maxFailed ok accepts) := by
  have hgen := h.probing hprobing
  unfold HealthCheck.finishCheck
  split
  · exact { h with probing := nofun }
  · cases ok with
    | true =>
      have hrecorded := h.recorded { m.state with failures := 0, wasHealthy := true } rfl
        (Nat.zero_le (failuresInRow (.probed true :: m.log)))
      rw [HealthState.onCheck, if_pos rfl]
      dsimp only
      split
      · rename_i hfailed
        cases accepts with
        | false => exact hrecorded
        | true => exact hrecorded.recover hgen hfailed rfl
      · exact hrecorded
    | false =>
      have hcount : (m.state.failures + 1) % 2 ^ 64 ≤ failuresInRow (.probed false :: m.log) :=
        Nat.le_trans (Nat.mod_le _ _) (Nat.succ_le_succ h.failures)
      have hrecorded :=
        h.recorded { m.state with failures := (m.state.failures + 1) % 2 ^ 64 } rfl hcount
      rw [HealthState.onCheck, if_neg Bool.false_ne_true]
      dsimp only
      split
      · rename_i hclose
        rw [Bool.and_eq_true, Bool.and_eq_true, decide_eq_true_eq, Bool.not_eq_true'] at hclose
        cases accepts with
        | false => exact hrecorded
        | true => exact hrecorded.close hgen hclose.2 rfl hclose.1.2
      · exact hrecorded

theorem Sound.login (h : Sound maxFailed m) (hphase : m.phase ≠ .probing) :
    Sound maxFailed
      { m with sessionGen := m.sessionGen + 1, log := .changed :: m.log } where
  alternates := h.alternates
  failures := h.failures
  same := fun hgen => absurd hgen (Nat.ne_of_gt (Nat.lt_succ_of_le h.seen))
  changed := fun _ => rfl
  probing := fun hprobing => absurd hprobing hphase
  seen := Nat.le_succ_of_le h.seen

theorem Sound.next (h : Sound maxFailed m) (e : MonitorEvent) (he : m.BetweenProbes e) :
    Sound maxFailed (m.next maxFailed e) := by
  cases e with
  | login => exact h.login (he rfl)
  | cancel => exact ⟨h.alternates, h.failures, h.same, h.changed, h.probing, h.seen⟩
  | begin =>
    rw [HealthCheck.next]
    split
    · exact h.beginCheck
    · exact h
  | finish ok accepts =>
    rw [HealthCheck.next]
    split
    · rename_i hprobing
      exact h.finishCheck hprobing ok accepts
    · exact h

theorem events_alternate (maxFailed gen : Nat) {es : List MonitorEvent}
    (hes : Run.Along (next maxFailed) BetweenProbes (start gen) es) :
    Alternates maxFailed (Run.run (next maxFailed) (start gen) es).log :=
  (Run.run_invariant (fun _ e h he => h.next e he) (sound_start gen) hes).alternates

theorem events_alternate_sample :
    Alternates 1 (Run.run (next 1) (start 0)
      [.begin, .finish true true, .begin, .finish false true, .login, .begin]).log :=
  events_alternate 1 0 (by decide)

/-- The session changes under the probe that has failed: the first event of the new session is a
`Close`. -/
theorem close_before_recover :
    ¬ forall gen es, Alternates 1 (Run.run (next 1) (start gen) es).log := by
  intro h
  have hlog := h 0 [.begin, .finish true true, .begin, .login, .finish false true]
  exact absurd hlog.1 (by decide)

end HealthCheck
end Client
end FrpRs
