import FrpRs.Data.Table
import FrpRs.NatHole.Classify

/-!
# The NAT analyzer

`frp-server/src/nathole/analysis.rs`: for each pair of NAT features the analyzer keeps
a scored list of hole-punch behaviours.  A recommendation takes the best one and lowers
its score; a reported success raises the score again.
-/

namespace FrpRs
namespace NatHole

open List

inductive Role where
  | sender
  | receiver
deriving DecidableEq, Repr

structure RecommendBehavior where
  role : Role
  ttl : Int
  sendDelayMs : Int
  portsRangeNumber : Int
  portsRandomNumber : Int
  listenRandomPorts : Int
deriving DecidableEq, Repr

abbrev BehaviorPair := RecommendBehavior × RecommendBehavior

/-!
## Behaviour tables
-/

def modeCounts : List Nat := [10, 6, 3, 6, 3]

def sender (ttl delay prn prnn lrp : Int) : RecommendBehavior :=
  { role := .sender, ttl := ttl, sendDelayMs := delay, portsRangeNumber := prn,
    portsRandomNumber := prnn, listenRandomPorts := lrp }

def receiver (ttl delay prn prnn lrp : Int) : RecommendBehavior :=
  { role := .receiver, ttl := ttl, sendDelayMs := delay, portsRangeNumber := prn,
    portsRandomNumber := prnn, listenRandomPorts := lrp }

def recvPorts (ttl delay prn : Int) : RecommendBehavior := receiver ttl delay prn 0 0

def senderPort (delay prnn lrp : Int) : RecommendBehavior := sender 0 delay 0 prnn lrp

def recvListen (ttl lrp : Int) : RecommendBehavior := receiver ttl 0 0 0 lrp

def recvListenPorts (ttl lrp prn : Int) : RecommendBehavior := receiver ttl 0 prn 0 lrp

def mode0Table : List BehaviorPair :=
  [ (sender 0 0 0 0 0, receiver 7 0 0 0 0),
    (receiver 7 0 0 0 0, sender 0 0 0 0 0),
    (sender 0 0 0 0 0, receiver 4 0 0 0 0),
    (receiver 4 0 0 0 0, sender 0 0 0 0 0),
    (sender 0 0 0 0 0, receiver 0 0 0 0 0),
    (receiver 0 0 0 0 0, sender 0 0 0 0 0),
    (sender 0 5000 0 0 0, receiver 0 0 0 0 0),
    (sender 0 10000 0 0 0, receiver 0 0 0 0 0),
    (receiver 0 0 0 0 0, sender 0 5000 0 0 0),
    (receiver 0 0 0 0 0, sender 0 10000 0 0 0) ]

def mode1Table : List BehaviorPair :=
  [ (sender 0 0 0 0 0, recvPorts 7 0 10),
    (sender 0 2000 0 0 0, recvPorts 7 0 10),
    (sender 0 0 0 0 0, recvPorts 4 0 10),
    (sender 0 2000 0 0 0, recvPorts 4 0 10),
    (sender 0 0 0 0 0, recvPorts 0 0 10),
    (sender 0 2000 0 0 0, recvPorts 0 0 10) ]

def mode2Table : List BehaviorPair :=
  [ (senderPort 3000 1000 0, recvListen 7 256),
    (senderPort 3000 1000 0, recvListen 4 256),
    (senderPort 3000 1000 0, recvListen 0 256) ]

def mode3Table : List BehaviorPair :=
  [ (sender 0 0 10 0 0, recvPorts 7 0 10),
    (sender 0 0 10 0 0, recvPorts 4 0 10),
    (sender 0 0 10 0 0, recvPorts 0 0 10),
    (recvPorts 7 0 10, sender 0 0 10 0 0),
    (recvPorts 4 0 10, sender 0 0 10 0 0),
    (recvPorts 0 0 10, sender 0 0 10 0 0) ]

def mode4Table : List BehaviorPair :=
  [ (senderPort 3000 1000 0, recvListenPorts 7 256 2),
    (senderPort 3000 1000 0, recvListenPorts 4 256 2),
    (senderPort 3000 1000 0, recvListenPorts 0 256 2) ]

def defaultFallback : BehaviorPair := (sender 0 2000 16 4 0, receiver 0 0 0 0 0)

def behaviorTable : Nat -> List BehaviorPair
  | 0 => mode0Table
  | 1 => mode1Table
  | 2 => mode2Table
  | 3 => mode3Table
  | 4 => mode4Table
  | _ => []

theorem forall_behaviorTable {p : BehaviorPair -> Prop}
    (h : forall mode, mode < 5 -> forall pair, pair ∈ behaviorTable mode -> p pair) (mode : Nat) :
    forall pair, pair ∈ behaviorTable mode -> p pair := by
  intro pair hpair
  rcases Nat.lt_or_ge mode 5 with hlt | hge
  · exact h mode hlt pair hpair
  · rcases Nat.exists_eq_add_of_le' hge with ⟨k, hk⟩
    subst hk
    cases hpair

def getBehaviorByModeAndIndex (mode index : Nat) : BehaviorPair :=
  ((behaviorTable mode)[index]?).getD defaultFallback

/-!
## Scores
-/

structure BehaviorScore where
  mode : Nat
  index : Nat
  score : Int
deriving DecidableEq, Repr

structure MakeHoleRecords where
  scores : List BehaviorScore
  lastUpdateTime : Nat

namespace MakeHoleRecords

def mode0Scores (cPub vPub : Bool) : List BehaviorScore :=
  let scores : Int × Int := if cPub then (0, 1) else if vPub then (1, 0) else (0, 0)
  mode0Table.mapIdx fun i pair =>
    { mode := 0, index := i, score := if pair.1.role = .sender then scores.1 else scores.2 }

def modeScores (mode : Nat) (score : Int) : List BehaviorScore :=
  (range (modeCounts.getD mode 0)).map fun i =>
    { mode := mode, index := i, score := score }

def initialScores (c v : NatFeature) : List BehaviorScore :=
  let count := classifyFeatureCount [c, v]
  let mode0 := mode0Scores c.publicNetwork v.publicNetwork
  if count.easy = 2 then mode0
  else if count.hard = 1 ∧ count.regular = 1 then modeScores 1 0 ++ modeScores 2 0 ++ mode0
  else if count.hard = 1 ∧ count.regular = 0 then modeScores 2 0 ++ modeScores 1 0 ++ mode0
  else if count.hard = 2 ∧ count.regular = 2 then modeScores 3 0 ++ modeScores 4 0
  else if count.hard = 2 ∧ count.regular = 1 then modeScores 4 0
  else modeScores 0 1 ++ modeScores 1 1 ++ modeScores 3 1

def new (c v : NatFeature) (now : Nat) : MakeHoleRecords where
  scores := initialScores c v
  lastUpdateTime := now

def best : List BehaviorScore -> Nat -> Nat × Int -> Nat
  | [], _, found => found.1
  | s :: scores, i, found =>
    best scores (i + 1) (if s.score > found.2 then (i, s.score) else found)

def lower (s : BehaviorScore) : BehaviorScore :=
  { s with score := s.score - 1 }

def recommend (r : MakeHoleRecords) (now : Nat) : (Nat × Nat) × MakeHoleRecords :=
  let i := best r.scores 0 (0, -2 ^ 31)
  match r.scores[i]? with
  | none => ((0, 0), r)
  | some s => ((s.mode, s.index), { scores := r.scores.set i (lower s), lastUpdateTime := now })

def raise (s : BehaviorScore) : BehaviorScore :=
  { s with score := min (s.score + 2) 10 }

def raiseFirst (mode index : Nat) : List BehaviorScore -> List BehaviorScore
  | [] => []
  | s :: scores =>
    if s.mode = mode ∧ s.index = index then raise s :: scores
    else s :: raiseFirst mode index scores

def reportSuccess (r : MakeHoleRecords) (mode index now : Nat) : MakeHoleRecords where
  scores := raiseFirst mode index r.scores
  lastUpdateTime := now

def score (r : MakeHoleRecords) (mode index : Nat) : Option Int :=
  (r.scores.find? fun s => s.mode = mode ∧ s.index = index).map BehaviorScore.score

/-- What holds of the entries of a fresh record: those of mode 0, and those of the modes that
are appended with one score.  Mode 2 is appended for one hard NAT only. -/
theorem forall_initialScores {c v : NatFeature} {P : BehaviorScore -> Prop}
    (h0 : forall b, b ∈ mode0Scores c.publicNetwork v.publicNetwork -> P b)
    (hmode : forall (mode : Nat) (score : Int), 0 ≤ score -> score ≤ 1 ->
      (mode = 2 -> (classifyFeatureCount [c, v]).hard = 1) ->
      forall b, b ∈ modeScores mode score -> P b) :
    forall b, b ∈ initialScores c v -> P b := by
  have hzero : forall mode, mode ≠ 2 -> forall b, b ∈ modeScores mode 0 -> P b :=
    fun mode hne => hmode mode 0 (by decide) (by decide) fun heq => absurd heq hne
  have hone : forall mode, mode ≠ 2 -> forall b, b ∈ modeScores mode 1 -> P b :=
    fun mode hne => hmode mode 1 (by decide) (by decide) fun heq => absurd heq hne
  have htwo : (classifyFeatureCount [c, v]).hard = 1 -> forall b, b ∈ modeScores 2 0 -> P b :=
    fun hhard => hmode 2 0 (by decide) (by decide) fun _ => hhard
  simp only [initialScores]
  split
  · exact h0
  · split
    · rename_i hcount
      rw [forall_mem_append, forall_mem_append]
      exact ⟨⟨hzero 1 (by decide), htwo hcount.1⟩, h0⟩
    · split
      · rename_i hcount
        rw [forall_mem_append, forall_mem_append]
        exact ⟨⟨htwo hcount.1, hzero 1 (by decide)⟩, h0⟩
      · split
        · rw [forall_mem_append]
          exact ⟨hzero 3 (by decide), hzero 4 (by decide)⟩
        · split
          · exact hzero 4 (by decide)
          · rw [forall_mem_append, forall_mem_append]
            exact ⟨⟨hone 0 (by decide), hone 1 (by decide)⟩, hone 3 (by decide)⟩

end MakeHoleRecords

/-!
## The analyzer
-/

structure Analyzer where
  records : Table String MakeHoleRecords
  dataReserveDuration : Nat

/-- What a recommendation returns. -/
structure Recommendation where
  mode : Nat
  index : Nat
  cBehavior : RecommendBehavior
  vBehavior : RecommendBehavior
deriving DecidableEq

namespace Analyzer

def new (dataReserveDuration : Nat) : Analyzer where
  records := ∅
  dataReserveDuration := dataReserveDuration

def swaps (mode : Nat) (c : NatFeature) : Bool :=
  match mode with
  | 1 => c.natType = .easyNat
  | 2 => c.natType = .hardNat
  | 4 => !c.regularPortsChange
  | _ => false

def getRecommendBehaviors (a : Analyzer) (key : String) (c v : NatFeature) (now : Nat) :
    Recommendation × Analyzer :=
  let entry := (a.records.lookup key).getD (MakeHoleRecords.new c v now)
  let chosen := entry.recommend now
  let pair := getBehaviorByModeAndIndex chosen.1.1 chosen.1.2
  let pair := if swaps chosen.1.1 c then pair.swap else pair
  ({ mode := chosen.1.1, index := chosen.1.2, cBehavior := pair.1, vBehavior := pair.2 },
    { a with records := a.records.insert key chosen.2 })

def reportSuccess (a : Analyzer) (key : String) (mode index now : Nat) : Analyzer :=
  match a.records.lookup key with
  | none => a
  | some entry => { a with records := a.records.insert key (entry.reportSuccess mode index now) }

def clean (a : Analyzer) (now : Nat) : (Nat × Nat) × Analyzer :=
  let kept := Table.retain
    (fun _ r => decide (now - r.lastUpdateTime < a.dataReserveDuration)) a.records
  ((a.records.size - kept.size, a.records.size), { a with records := kept })

def score (a : Analyzer) (key : String) (mode index : Nat) : Option Int :=
  (a.records.lookup key).bind fun r => r.score mode index

end Analyzer

end NatHole
end FrpRs
