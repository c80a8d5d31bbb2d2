import FrpRs.NatHole.Controller

/-!
# Learning from reports

The analyzer learns through `Controller::handle_report`, which raises the score of the
behaviour that the session was given.  The control loop handles a `NatHoleReport` without
that call: it forwards the report and completes the session, and the scores stay as the
recommendations left them.
-/

namespace FrpRs
namespace NatHole

/-!
## Scores
-/

namespace Analyzer

def Learns (before after : Analyzer) (c : Choice) (success : Bool) : Prop :=
  if success then
    after.score c.key c.mode c.index =
      (before.score c.key c.mode c.index).map fun old => min (old + 2) 10
  else
    forall key mode index, after.score key mode index = before.score key mode index

theorem learns_self_iff (a : Analyzer) (c : Choice) (success : Bool) :
    Learns a a c success ↔
      (success = true -> forall old, a.score c.key c.mode c.index = some old -> old = 10) := by
  cases success with
  | false =>
    simp [Learns]
  | true =>
    simp only [Learns, if_true, true_implies]
    cases a.score c.key c.mode c.index with
    | none => simp
    | some score =>
      simp only [Option.map_some, Option.some.injEq, forall_eq']
      omega

end Analyzer

/-!
## Reports
-/

namespace Controller

variable (hash : String -> Nat) (md5 : String -> String)

theorem complete_analyzer (s : Controller) (sid : String) :
    (s.complete hash sid).analyzer = s.analyzer := by
  rw [complete]
  split
  · rfl
  · rfl

theorem handleNatHoleReport_analyzer (s : Controller) (msg : NatHoleReport) :
    (s.handleNatHoleReport hash msg).analyzer = s.analyzer := by
  rw [handleNatHoleReport]
  split
  · rfl
  · exact s.complete_analyzer hash _

end Controller

/-- A report handled by the control loop leaves the scores as they should be exactly when
it reports no success, or when the chosen behaviour has no score below the cap to raise. -/
theorem report_learns_iff (hash : String -> Nat) (md5 : String -> String) (reserve : Nat)
    (es : List Event) :
    let s := Run.run (Controller.step hash md5) (Controller.new reserve) es
    forall (i : Nat) (f : Flow) (c : Choice) (msg : NatHoleReport), s.flows[i]? = some f ->
      f.chosen = some c -> s.get hash f.tid = some f.object -> msg.sid = some f.tid ->
      (s.analyzer.Learns (s.handleNatHoleReport hash msg).analyzer c msg.success ↔
        (msg.success = true -> forall old,
          s.analyzer.score c.key c.mode c.index = some old -> old = 10)) := by
  intro s i f c msg _ _ _ _
  rw [s.handleNatHoleReport_analyzer hash msg]
  exact s.analyzer.learns_self_iff c msg.success

/-- The digest of the key text of `punched`. -/
def md5OfPunched : String -> String := fun _ => "2b45fb7dc4c3c466cdf40ce9878214f3"

def easyVisitor : NatHoleVisitor :=
  { transactionId := "w", proxyName := "p", protocol := none,
    mappedAddrs := some ["1.2.3.4:1000", "1.2.3.4:1000"], assistedAddrs := none }

def easyClient : NatHoleClient :=
  { transactionId := "w", sid := some "w", protocol := none,
    mappedAddrs := some ["5.6.7.8:2000", "5.6.7.8:2000"], assistedAddrs := none }

def punched : List Event :=
  [ .visitor true easyVisitor, .flow 0 .land, .flow 0 .settle, .flow 0 (.notifyProvider true),
    .client easyClient, .finishClient 0, .flow 0 (.awaitClient true), .flow 0 .takeClient,
    .flow 0 .analyse, .flow 0 .store, .flow 0 (.respond true) ]

def punchedChoice : Choice :=
  { key := "2b45fb7dc4c3c466cdf40ce9878214f3", mode := 0, index := 0 }

def punchedFlow : Flow :=
  { visitor := easyVisitor, viaCtl := true, object := 0, stage := .awaitingReport,
    chosen := some punchedChoice }

theorem report_failure_learns_punched :
    (Run.run (Controller.step sampleHash md5OfPunched) (Controller.new 86400)
      punched).analyzer.Learns
      ((Run.run (Controller.step sampleHash md5OfPunched) (Controller.new 86400)
        punched).handleNatHoleReport sampleHash { sid := some "w", success := false }).analyzer
      punchedChoice false :=
  (report_learns_iff sampleHash md5OfPunched 86400 punched 0 punchedFlow punchedChoice
    { sid := some "w", success := false } rfl rfl (by decide +kernel) rfl).mpr
    (fun h => by cases h)

/-- The session's success leaves the score where the recommendation left it, one below
zero. -/
theorem report_success_unlearned :
    let s := Run.run (Controller.step sampleHash md5OfPunched) (Controller.new 86400) punched
    s.flows[0]? = some punchedFlow
      ∧ s.get sampleHash punchedFlow.tid = some punchedFlow.object
      ∧ ¬ s.analyzer.Learns
          (s.handleNatHoleReport sampleHash { sid := some "w", success := true }).analyzer
          punchedChoice true := by
  intro s
  refine ⟨rfl, by decide +kernel, ?_⟩
  rw [s.handleNatHoleReport_analyzer, s.analyzer.learns_self_iff]
  intro h
  have hscore : s.analyzer.score punchedChoice.key punchedChoice.mode punchedChoice.index
      = some (-1) := by decide +kernel
  cases h rfl (-1) hscore

end NatHole
end FrpRs
