import FrpRs.Data.Run
import FrpRs.NatHole.Analysis

/-!
# What the analyzer recommends

A record of scores is built from the features of the call that creates it and is read by
later calls, whose own features decide the swap of the roles.  When the analysis key
determines the two peers' classes, every recommendation is an entry of its mode's table
with the roles that the mode asks for.
-/

namespace FrpRs
namespace NatHole

open List

/-!
## Calls of the analyzer
-/

/-- The part of a feature that an analysis key determines. -/
structure PeerClass where
  natType : NatType
  behavior : NatBehavior
  regularPortsChange : Bool
deriving DecidableEq

def NatFeature.peerClass (f : NatFeature) : PeerClass where
  natType := f.natType
  behavior := f.behavior
  regularPortsChange := f.regularPortsChange

/-- The two arguments of `report_success` are signed. -/
inductive AnalyzerCall where
  | recommend (key : String) (c v : NatFeature) (now : Nat)
  | reportSuccess (key : String) (mode index : Int) (now : Nat)
  | clean (now : Nat)

namespace MakeHoleRecords

def touch (r : MakeHoleRecords) (now : Nat) : MakeHoleRecords :=
  { r with lastUpdateTime := now }

end MakeHoleRecords

namespace Analyzer

/-- No entry has a negative mode or index, and a report of one only refreshes the record. -/
def reportSigned (a : Analyzer) (key : String) (mode index : Int) (now : Nat) : Analyzer :=
  match mode, index with
  | .ofNat mode, .ofNat index => a.reportSuccess key mode index now
  | _, _ =>
    match a.records.lookup key with
    | none => a
    | some entry => { a with records := a.records.insert key (entry.touch now) }

def step (a : Analyzer) : AnalyzerCall -> Analyzer
  | .recommend key c v now => (a.getRecommendBehaviors key c v now).2
  | .reportSuccess key mode index now => a.reportSigned key mode index now
  | .clean now => (a.clean now).2

end Analyzer

def Keyed (classes : String -> PeerClass × PeerClass) : AnalyzerCall -> Prop
  | .recommend key c v _ => classes key = (c.peerClass, v.peerClass)
  | _ => True

instance (classes : String -> PeerClass × PeerClass) : DecidablePred (Keyed classes)
  | .recommend key c v _ => inferInstanceAs (Decidable (classes key = (c.peerClass, v.peerClass)))
  | .reportSuccess _ _ _ _ => isTrue trivial
  | .clean _ => isTrue trivial

/-!
## Table entries
-/

def opposed (pair : BehaviorPair) : Bool :=
  pair.1.role ≠ pair.2.role

theorem behaviorTable_opposed (mode : Nat) :
    forall pair, pair ∈ behaviorTable mode -> opposed pair = true :=
  forall_behaviorTable (by decide) mode

theorem behaviorTable_sender_first {mode : Nat} (h : mode = 1 ∨ mode = 2 ∨ mode = 4) :
    forall pair, pair ∈ behaviorTable mode -> pair.1.role = .sender ∧ pair.2.role = .receiver := by
  rcases h with rfl | rfl | rfl
  · decide
  · decide
  · decide

theorem modeCounts_eq (mode : Nat) : modeCounts.getD mode 0 = (behaviorTable mode).length := by
  rcases mode with _ | _ | _ | _ | _ | mode
  · rfl
  · rfl
  · rfl
  · rfl
  · rfl
  · rfl

/-!
## Records
-/

def OneHard (peers : PeerClass × PeerClass) : Prop :=
  peers.1.natType ≠ peers.2.natType

/-- An entry that a record for these peers may hold. -/
structure Fits (peers : PeerClass × PeerClass) (b : BehaviorScore) : Prop where
  index_lt : b.index < (behaviorTable b.mode).length
  oneHard : b.mode = 2 -> OneHard peers

namespace MakeHoleRecords

def Fit (r : MakeHoleRecords) (peers : PeerClass × PeerClass) : Prop :=
  forall b, b ∈ r.scores -> Fits peers b

theorem mode0Scores_fits (peers : PeerClass × PeerClass) (cPub vPub : Bool) :
    forall b, b ∈ mode0Scores cPub vPub -> Fits peers b := by
  intro b hb
  rcases mem_mapIdx.mp hb with ⟨i, hi, hentry⟩
  rw [← hentry]
  constructor
  · exact hi
  · intro hmode
    cases hmode

variable {peers : PeerClass × PeerClass}

theorem modeScores_fits {mode : Nat} (score : Int) (h : mode = 2 -> OneHard peers) :
    forall b, b ∈ modeScores mode score -> Fits peers b := by
  intro b hb
  rcases mem_map.mp hb with ⟨i, hi, hentry⟩
  rw [mem_range, modeCounts_eq] at hi
  rw [← hentry]
  constructor
  · exact hi
  · exact h

theorem oneHard_of_count {c v : NatFeature} (h : (classifyFeatureCount [c, v]).hard = 1) :
    OneHard (c.peerClass, v.peerClass) := by
  intro heq
  simp only [NatFeature.peerClass] at heq
  simp only [classifyFeatureCount, countP_cons, countP_nil, heq] at h
  split at h
  · cases h
  · cases h

theorem new_fit (c v : NatFeature) (now : Nat) : (new c v now).Fit (c.peerClass, v.peerClass) := by
  apply forall_initialScores
  · exact mode0Scores_fits (c.peerClass, v.peerClass) c.publicNetwork v.publicNetwork
  · intro mode score _ _ hhard
    exact modeScores_fits score fun hmode => oneHard_of_count (hhard hmode)

theorem fits_of_same {peers : PeerClass × PeerClass} {b b' : BehaviorScore}
    (hmode : b'.mode = b.mode) (hindex : b'.index = b.index) (h : Fits peers b) :
    Fits peers b' := by
  constructor
  · rw [hmode, hindex]
    exact h.index_lt
  · rw [hmode]
    exact h.oneHard

theorem Fit.recommend {r : MakeHoleRecords} (h : r.Fit peers) (now : Nat) :
    (r.recommend now).2.Fit peers := by
  simp only [MakeHoleRecords.recommend]
  split
  · exact h
  · rename_i s hs
    intro b hb
    cases mem_or_eq_of_mem_set hb with
    | inl hold => exact h b hold
    | inr hnew =>
      rw [hnew]
      exact @fits_of_same peers s _ rfl rfl (h s (mem_of_getElem? hs))

theorem raiseFirst_fits (mode index : Nat) {scores : List BehaviorScore}
    (h : forall b, b ∈ scores -> Fits peers b) :
    forall b, b ∈ raiseFirst mode index scores -> Fits peers b := by
  induction scores with
  | nil =>
    intro b hb
    cases hb
  | cons s scores ih =>
    rw [forall_mem_cons] at h
    rw [raiseFirst]
    split
    · rw [forall_mem_cons]
      constructor
      · exact @fits_of_same peers s _ rfl rfl h.1
      · exact h.2
    · rw [forall_mem_cons]
      constructor
      · exact h.1
      · exact ih h.2

theorem Fit.chosen {r : MakeHoleRecords} (h : r.Fit peers) (now : Nat) :
    Fits peers ⟨(r.recommend now).1.1, (r.recommend now).1.2, 0⟩ := by
  simp only [MakeHoleRecords.recommend]
  split
  · constructor
    · show 0 < mode0Table.length
      decide
    · intro hmode
      cases hmode
  · rename_i s hs
    exact @fits_of_same peers s _ rfl rfl (h s (mem_of_getElem? hs))

end MakeHoleRecords

/-!
## Runs of calls
-/

namespace Analyzer

def Fit (classes : String -> PeerClass × PeerClass) (a : Analyzer) : Prop :=
  forall key r, a.records.lookup key = some r -> r.Fit (classes key)

variable {classes : String -> PeerClass × PeerClass}

theorem new_fit (reserve : Nat) : Fit classes (new reserve) := by
  intro key r h
  cases h

variable {a : Analyzer}

theorem Fit.entry (h : a.Fit classes) {key : String} {c v : NatFeature} (now : Nat)
    (hkey : classes key = (c.peerClass, v.peerClass)) :
    ((a.records.lookup key).getD (MakeHoleRecords.new c v now)).Fit (classes key) := by
  cases hlookup : a.records.lookup key with
  | none =>
    rw [hkey]
    exact MakeHoleRecords.new_fit c v now
  | some r => exact h key r hlookup

theorem Fit.insert (h : a.Fit classes) {key : String} {r : MakeHoleRecords}
    (hr : r.Fit (classes key)) : Fit classes { a with records := a.records.insert key r } := by
  intro k found hfound
  simp only [Table.lookup_insert_eq] at hfound
  split at hfound
  · rename_i hk
    cases hfound
    rw [hk]
    exact hr
  · exact h k found hfound

theorem Fit.reportSigned (h : a.Fit classes) (key : String) (mode index : Int) (now : Nat) :
    (a.reportSigned key mode index now).Fit classes := by
  unfold Analyzer.reportSigned
  split
  · unfold Analyzer.reportSuccess
    split
    · exact h
    · rename_i entry hlookup
      exact h.insert (MakeHoleRecords.raiseFirst_fits _ _ (h key entry hlookup))
  · split
    · exact h
    · rename_i entry hlookup
      exact h.insert (h key entry hlookup)

theorem Fit.step {call : AnalyzerCall} (h : a.Fit classes) (hcall : Keyed classes call) :
    (a.step call).Fit classes := by
  cases call with
  | recommend key c v now => exact h.insert ((h.entry now hcall).recommend now)
  | reportSuccess key mode index now => exact h.reportSigned key mode index now
  | clean now =>
    intro key r hr
    simp only [Analyzer.step, Analyzer.clean, Table.lookup_retain] at hr
    exact h key r (Option.filter_eq_some_iff.mp hr).1

end Analyzer

/-!
## Recommendations
-/

def Recommendation.pair (r : Recommendation) : BehaviorPair :=
  (r.cBehavior, r.vBehavior)

/-- What the mode asks of a recommendation for these peers. -/
structure Recommendation.Sound (r : Recommendation) (c v : NatFeature) : Prop where
  entry : exists pair, (behaviorTable r.mode)[r.index]? = some pair ∧
    (r.pair = pair ∨ r.pair = pair.swap)
  roles : (r.cBehavior.role = .sender ∧ r.vBehavior.role = .receiver) ∨
    (r.cBehavior.role = .receiver ∧ r.vBehavior.role = .sender)
  mode1 : r.mode = 1 -> c.natType ≠ v.natType ->
    (r.cBehavior.role = .sender ↔ c.natType = .hardNat) ∧
      (r.vBehavior.role = .sender ↔ v.natType = .hardNat)
  mode2 : r.mode = 2 ->
    (r.cBehavior.role = .receiver ↔ c.natType = .hardNat) ∧
      (r.vBehavior.role = .receiver ↔ v.natType = .hardNat)
  mode4 : r.mode = 4 -> c.regularPortsChange ≠ v.regularPortsChange ->
    (r.cBehavior.role = .sender ↔ c.regularPortsChange = true) ∧
      (r.vBehavior.role = .sender ↔ v.regularPortsChange = true)

namespace Analyzer

def assign (mode : Nat) (c : NatFeature) (pair : BehaviorPair) : BehaviorPair :=
  if swaps mode c then pair.swap else pair

theorem assign_roles {pair : BehaviorPair} (h : opposed pair = true) (mode : Nat) (c : NatFeature) :
    ((assign mode c pair).1.role = .sender ∧ (assign mode c pair).2.role = .receiver) ∨
      ((assign mode c pair).1.role = .receiver ∧ (assign mode c pair).2.role = .sender) := by
  rcases pair with ⟨first, second⟩
  unfold assign
  simp only [opposed, decide_eq_true_eq] at h
  cases hfirst : first.role with
  | sender =>
    cases hsecond : second.role with
    | sender => exact absurd (hfirst.trans hsecond.symm) h
    | receiver =>
      split
      · exact .inr ⟨hsecond, hfirst⟩
      · exact .inl ⟨hfirst, hsecond⟩
  | receiver =>
    cases hsecond : second.role with
    | sender =>
      split
      · exact .inl ⟨hsecond, hfirst⟩
      · exact .inr ⟨hfirst, hsecond⟩
    | receiver => exact absurd (hfirst.trans hsecond.symm) h

theorem assign_sender_first (mode : Nat) (c : NatFeature) {pair : BehaviorPair}
    (h : pair.1.role = .sender ∧ pair.2.role = .receiver) :
    ((assign mode c pair).1.role = if swaps mode c then .receiver else .sender) ∧
      ((assign mode c pair).2.role = if swaps mode c then .sender else .receiver) := by
  unfold assign
  split
  · exact ⟨h.2, h.1⟩
  · exact h

/-- An entry that fits the peers, assigned to them, is what the mode asks for. -/
theorem sound_of_fits {c v : NatFeature} {mode index : Nat}
    (h : Fits (c.peerClass, v.peerClass) ⟨mode, index, 0⟩) :
    Recommendation.Sound
      { mode := mode
        index := index
        cBehavior := (assign mode c (getBehaviorByModeAndIndex mode index)).1
        vBehavior := (assign mode c (getBehaviorByModeAndIndex mode index)).2 } c v := by
  have hsome : exists pair, (behaviorTable mode)[index]? = some pair :=
    ⟨_, getElem?_eq_getElem h.index_lt⟩
  rcases hsome with ⟨pair, hpair⟩
  have hmem := mem_of_getElem? hpair
  have hlookup : getBehaviorByModeAndIndex mode index = pair := by
    simp only [getBehaviorByModeAndIndex, hpair, Option.getD_some]
  rw [hlookup]
  constructor
  case entry =>
    exists pair
    constructor
    · exact hpair
    · unfold Recommendation.pair assign
      split
      · exact .inr rfl
      · exact .inl rfl
  case roles => exact assign_roles (behaviorTable_opposed mode pair hmem) mode c
  case mode1 =>
    intro hmode hone
    rcases assign_sender_first mode c
      (behaviorTable_sender_first (.inl hmode) pair hmem) with ⟨hc, hv⟩
    cases hmode
    simp only [swaps] at hc hv
    rw [hc, hv]
    revert hone
    cases c.natType <;> cases v.natType <;> decide
  case mode2 =>
    intro hmode
    have hone := h.oneHard hmode
    rcases assign_sender_first mode c
      (behaviorTable_sender_first (.inr (.inl hmode)) pair hmem) with ⟨hc, hv⟩
    cases hmode
    simp only [swaps] at hc hv
    simp only [OneHard, NatFeature.peerClass] at hone
    rw [hc, hv]
    revert hone
    cases c.natType <;> cases v.natType <;> decide
  case mode4 =>
    intro hmode hone
    rcases assign_sender_first mode c
      (behaviorTable_sender_first (.inr (.inr hmode)) pair hmem) with ⟨hc, hv⟩
    cases hmode
    simp only [swaps] at hc hv
    rw [hc, hv]
    revert hone
    cases c.regularPortsChange <;> cases v.regularPortsChange <;> decide

theorem Fit.sound {classes : String -> PeerClass × PeerClass} {a : Analyzer} (h : a.Fit classes)
    {key : String} {c v : NatFeature} (now : Nat)
    (hkey : classes key = (c.peerClass, v.peerClass)) :
    (a.getRecommendBehaviors key c v now).1.Sound c v := by
  have hentry := (h.entry now hkey).chosen now
  rw [hkey] at hentry
  exact sound_of_fits hentry

end Analyzer

/-- After any calls whose keys determine the classes of their peers, a recommendation is an
entry of its mode's table with the roles that the mode asks for. -/
theorem recommendations_sound (classes : String -> PeerClass × PeerClass) (reserve : Nat)
    (calls : List AnalyzerCall) (h : forall call, call ∈ calls -> Keyed classes call)
    (key : String) (c v : NatFeature) (now : Nat)
    (hkey : classes key = (c.peerClass, v.peerClass)) :
    (((Run.run Analyzer.step (Analyzer.new reserve) calls).getRecommendBehaviors
      key c v now).1).Sound c v := by
  have hfit : (Run.run Analyzer.step (Analyzer.new reserve) calls).Fit classes :=
    @Run.run_invariant _ _ _ _ (Analyzer.Fit classes) (fun _ _ ha hcall => ha.step hcall) _ _
      (Analyzer.new_fit reserve) (Run.along_of_forall fun _ call hcall => h call hcall)
  exact hfit.sound now hkey

def easyPeer : NatFeature where
  natType := .easyNat
  behavior := .noChange
  portsDifference := 0
  regularPortsChange := false
  publicNetwork := false

def hardPeer : NatFeature where
  natType := .hardNat
  behavior := .portChanged
  portsDifference := 3
  regularPortsChange := true
  publicNetwork := false

/-- After six recommendations for one key, one of them reported as a success, the seventh
is of mode 1 again. -/
def punchedBefore : List AnalyzerCall :=
  replicate 6 (.recommend "k" easyPeer hardPeer 0) ++
    [.reportSuccess "k" 1 2 1, .reportSuccess "k" (-1) 0 2, .clean 3]

theorem recommendations_sound_punched :
    let a := Run.run Analyzer.step (Analyzer.new 3600) punchedBefore
    let r := (a.getRecommendBehaviors "k" easyPeer hardPeer 4).1
    (r.mode, r.index) = (1, 2) ∧ r.Sound easyPeer hardPeer := by
  intro a r
  constructor
  · decide +kernel
  · exact recommendations_sound (fun _ => (easyPeer.peerClass, hardPeer.peerClass)) 3600
      punchedBefore (by decide) "k" easyPeer hardPeer 4 rfl

end NatHole
end FrpRs
