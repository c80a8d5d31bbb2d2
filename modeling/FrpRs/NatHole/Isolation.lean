import FrpRs.NatHole.Controller

/-!
# Isolation of hole-punch sessions

The session id is the transaction id that the visitor sent, and every path addresses the
table by it.  Flows with different transaction ids therefore never touch each other's
entry; two flows with the same one share it.
-/

namespace FrpRs
namespace NatHole
namespace Controller

variable (hash : String -> Nat) (md5 : String -> String)

/-!
## Who can end a session
-/

def ownStep (s : Controller) (sid : String) : Event -> Bool
  | .flow i _ => (s.flows[i]?).any fun f => f.tid = sid
  | _ => false

def ownReport (sid : String) : Event -> Bool
  | .report msg => msg.sid = some sid
  | _ => false

def sweptAway (s : Controller) (sid : String) : Event -> Bool
  | .sweep i (.expire entry) => (s.sweeps[i]?).any fun w => w.expired[entry]? = some sid
  | _ => false

def mayEnd (s : Controller) (sid : String) (e : Event) : Bool :=
  s.ownStep sid e || ownReport sid e || s.sweptAway sid e

variable {s : Controller}

variable {write : TableWrite}

theorem permitted_sid {sid : String} {stored : Option Nat}
    (h : s.permitted hash sid stored = some write) : write.sid = sid := by
  rw [permitted] at h
  split at h
  · cases h
  · cases h
    rfl

theorem flowWrite_sid {f : Flow} {e : FlowStep} (h : s.flowWrite hash f e = some write) :
    write.sid = f.tid := by
  cases e with
  | land =>
    simp only [flowWrite] at h
    split at h
    · exact permitted_sid hash h
    · cases h
  | cleanUp =>
    simp only [flowWrite] at h
    split at h
    · exact permitted_sid hash h
    · cases h
  | _ => cases h

theorem sweepWrite_sid {w : Sweep} {e : SweepStep} (h : s.sweepWrite hash w e = some write) :
    exists entry, e = .expire entry ∧ w.expired[entry]? = some write.sid := by
  cases e with
  | expire entry =>
    simp only [sweepWrite] at h
    split at h
    · rename_i expired hphase
      obtain ⟨sid, hsid, hpermitted⟩ := Option.bind_eq_some_iff.mp h
      refine ⟨entry, rfl, ?_⟩
      rw [permitted_sid hash hpermitted, Sweep.expired, hphase]
      exact hsid
    · cases h
  | _ => cases h

theorem mayEnd_of_writes {e : Event} (h : s.writes hash e = some write) :
    s.mayEnd write.sid e = true := by
  cases e with
  | flow i e =>
    obtain ⟨f, hf, hwrite⟩ := Option.bind_eq_some_iff.mp h
    simp [mayEnd, ownStep, hf, flowWrite_sid hash hwrite]
  | report msg =>
    obtain ⟨sid, hsid, hwrite⟩ := Option.bind_eq_some_iff.mp h
    simp [mayEnd, ownReport, hsid, permitted_sid hash hwrite]
  | sweep i e =>
    obtain ⟨w, hw, hwrite⟩ := Option.bind_eq_some_iff.mp h
    obtain ⟨entry, hentry, hsid⟩ := sweepWrite_sid hash hwrite
    rw [hentry]
    simp [mayEnd, sweptAway, hw, hsid]
  | _ => cases h

theorem step_get_of_mayEnd {e : Event} {sid : String} (h : s.mayEnd sid e = false) :
    (s.step hash md5 e).get hash sid = s.get hash sid := by
  cases hwrite : s.writes hash e with
  | none =>
    exact step_get_of_none hash md5 hwrite sid
  | some write =>
    have hother : sid ≠ write.sid := by
      intro hsame
      rw [hsame, mayEnd_of_writes hash hwrite] at h
      cases h
    rw [step_get_of_some hash md5 hwrite, if_neg hother]

theorem run_get_of_mayEnd {sid : String} {es : List Event}
    (h : Run.Along (step hash md5) (fun s e => s.mayEnd sid e = false) s es) :
    (Run.run (step hash md5) s es).get hash sid = s.get hash sid := by
  induction es generalizing s with
  | nil =>
    rfl
  | cons e es ih =>
    rw [Run.run_cons, ih h.2]
    exact step_get_of_mayEnd hash md5 h.1

end Controller

/-- Flows with different transaction ids leave each other's live entry alone, and a
session stays in the table until a flow with its transaction id, a report for it or the
expiry sweep ends it. -/
theorem sessions_isolated (hash : String -> Nat) (md5 : String -> String) (reserve : Nat)
    (es : List Event) :
    let s := Run.run (Controller.step hash md5) (Controller.new reserve) es
    forall (i : Nat) (f : Flow), s.flows[i]? = some f -> s.get hash f.tid = some f.object ->
      (forall (j : Nat) (g : Flow) (e : FlowStep), s.flows[j]? = some g -> g.tid ≠ f.tid ->
        (s.step hash md5 (.flow j e)).get hash f.tid = some f.object) ∧
      (forall later, Run.Along (Controller.step hash md5)
          (fun s e => s.mayEnd f.tid e = false) s later ->
        (Run.run (Controller.step hash md5) s later).get hash f.tid = some f.object) := by
  intro s i f _ hlive
  constructor
  · intro j g e hg hother
    have hnot : s.mayEnd f.tid (.flow j e) = false := by
      simp [Controller.mayEnd, Controller.ownStep, Controller.ownReport, Controller.sweptAway,
        hg, hother]
    rw [Controller.step_get_of_mayEnd hash md5 hnot]
    exact hlive
  · intro later hlater
    rw [Controller.run_get_of_mayEnd hash md5 hlater]
    exact hlive

def visit (viaCtl : Bool) (transactionId proxyName : String) : Event :=
  .visitor viaCtl
    { transactionId := transactionId, proxyName := proxyName, protocol := none,
      mappedAddrs := none, assistedAddrs := none }

def twoVisitors (first second : String) : List Event :=
  [ visit true first "p", .flow 0 .land, .flow 0 .settle, .flow 0 (.notifyProvider true),
    visit false second "q" ]

def firstFlow : Flow :=
  { visitor :=
      { transactionId := "w", proxyName := "p", protocol := none,
        mappedAddrs := none, assistedAddrs := none }
    viaCtl := true
    object := 0
    stage := .awaitingClient
    chosen := none }

theorem sessions_isolated_two_visitors :
    (Run.run (Controller.step sampleHash id) (Controller.new 86400)
      (twoVisitors "w" "l" ++ [.flow 1 .land])).get sampleHash "w" = some 0 := by
  have h := sessions_isolated sampleHash id 86400 (twoVisitors "w" "l") 0 firstFlow rfl
    (by decide +kernel)
  exact h.2 [.flow 1 .land] (by decide +kernel)

/-- With one transaction id the second visitor's entry replaces the first's, and the
first flow's timeout removes the second's. -/
theorem shared_transaction_id_interferes :
    let s := Run.run (Controller.step sampleHash id) (Controller.new 86400) (twoVisitors "w" "w")
    s.get sampleHash "w" = some 0
      ∧ (s.step sampleHash id (.flow 1 .land)).get sampleHash "w" = some 1
      ∧ (Run.run (Controller.step sampleHash id) s
          [.flow 1 .land, .flow 0 (.awaitClient false), .flow 0 .cleanUp]).get sampleHash "w"
        = none := by
  decide +kernel

end NatHole
end FrpRs
