import FrpRs.NatHole.Recommendation
import FrpRs.NatHole.Response

/-!
# Candidate ports

A response names the ports around the last candidate address at which the other peer is
tried.  The port is read again there, behind the last colon, and not by the bracket-aware
split of the classification; where both read a port it is the same one.
-/

namespace FrpRs
namespace NatHole

open List IpText

/-!
## Reading a port
-/

variable {text : List Char}

theorem isSome_toDigit_of_digitRun (h : (digitRun 10 text).2 = []) :
    forall c, c ∈ text -> (toDigit 10 c).isSome = true := by
  induction text with
  | nil =>
    intro c hc
    cases hc
  | cons c text ih =>
    unfold digitRun at h
    split at h
    · rename_i d hd
      rw [forall_mem_cons]
      constructor
      · rw [hd]
        rfl
      · exact ih h
    · cases h

theorem isSome_toDigit_of_parseDigits {n : Nat} (h : parseDigits text = some n) :
    forall c, c ∈ text -> (toDigit 10 c).isSome = true := by
  apply isSome_toDigit_of_digitRun
  simp only [parseDigits] at h
  split at h
  · cases h
  · rename_i hrun
    simp only [Bool.or_eq_true, not_or, Bool.not_eq_true, Bool.not_eq_false',
      List.isEmpty_iff] at hrun
    exact hrun.2

def isNumeric (c : Char) : Bool :=
  c = '-' || c = '+' || (toDigit 10 c).isSome

theorem isNumeric_of_parseI32 {n : Int} (h : parseI32 text = some n) :
    forall c, c ∈ text -> isNumeric c = true := by
  have hdigits : forall digits m, parseDigits digits = some m ->
      forall c, c ∈ digits -> isNumeric c = true := by
    intro digits m hparse c hc
    simp [isNumeric, isSome_toDigit_of_parseDigits hparse c hc]
  unfold parseI32 at h
  split at h
  · rcases Option.bind_eq_some_iff.mp h with ⟨m, hparse, _⟩
    rw [forall_mem_cons]
    exact ⟨rfl, hdigits _ m hparse⟩
  · rcases Option.bind_eq_some_iff.mp h with ⟨m, hparse, _⟩
    rw [forall_mem_cons]
    exact ⟨rfl, hdigits _ m hparse⟩
  · rcases Option.bind_eq_some_iff.mp h with ⟨m, hparse, _⟩
    exact hdigits _ m hparse

theorem not_mem_of_parseI32 {n : Int} (h : parseI32 text = some n) {c : Char}
    (hc : isNumeric c = false) : c ∉ text := by
  intro hmem
  rw [isNumeric_of_parseI32 h c hmem] at hc
  cases hc

theorem splitLast_eq_some {sep : Char} {text before after : List Char}
    (h : splitLast sep text = some (before, after)) : text = before ++ sep :: after := by
  induction text generalizing before with
  | nil =>
    cases h
  | cons c text ih =>
    unfold splitLast at h
    split at h
    · rename_i before' after' hrest
      cases h
      rw [ih hrest, cons_append]
    · split at h
      · rename_i hsep
        cases h
        rw [hsep, nil_append]
      · cases h

theorem splitFirst_eq_some {sep : Char} {text before after : List Char}
    (h : splitFirst sep text = some (before, after)) : text = before ++ sep :: after := by
  induction text generalizing before with
  | nil =>
    cases h
  | cons c text ih =>
    unfold splitFirst at h
    split at h
    · rename_i hsep
      cases h
      rw [hsep, nil_append]
    · rcases Option.map_eq_some_iff.mp h with ⟨parts, hrest, hparts⟩
      cases hparts
      rw [ih hrest, cons_append]

theorem eq_port_of_bracketed {head before after port : List Char} {skipped : Char} {n p : Int}
    (h : before ++ ':' :: after = head ++ ']' :: skipped :: port)
    (hport : parseI32 port = some n) (hafter : parseI32 after = some p) : after = port := by
  have hbracket : ']' ∉ after := not_mem_of_parseI32 hafter rfl
  have hcolon : ':' ∉ port := not_mem_of_parseI32 hport rfl
  have hsplit : before ++ ':' :: after = (head ++ [']']) ++ skipped :: port := by
    simpa using h
  rcases append_eq_append_iff.mp hsplit with ⟨middle, hhead, htail⟩ | ⟨middle, _, htail⟩
  · cases middle with
    | nil => exact (cons.inj htail).2
    | cons c middle =>
      rcases cons.inj htail with ⟨rfl, rfl⟩
      have hlast : ']' ∈ ':' :: middle := by
        have hget := congrArg getLast? hhead
        rw [getLast?_concat, getLast?_append_cons] at hget
        exact mem_of_getLast? hget.symm
      rcases mem_cons.mp hlast with hcontra | hmiddle
      · cases hcontra
      · exact absurd (mem_append_left _ hmiddle) hbracket
  · cases middle with
    | nil => exact (cons.inj htail).2.symm
    | cons c middle =>
      rcases cons.inj htail with ⟨rfl, rfl⟩
      exact absurd (mem_append_right _ mem_cons_self) hcolon

variable {addr ip : String}

theorem parsePort_eq_ok {host text : List Char} {port : Int}
    (h : parsePort addr host text = .ok (ip, port)) : parseI32 text = some port := by
  unfold parsePort at h
  split at h
  · rename_i n hn
    cases h
    exact hn
  · cases h

theorem port_of_lastPart {port p : Int} (h : splitHostPort addr = .ok (ip, port))
    (hlast : parseI32 (lastPart addr) = some p) :
    p = port := by
  unfold lastPart at hlast
  unfold splitHostPort at h
  split at h
  · rename_i text htext
    split at h
    · cases h
    · rename_i host skipped rest hfirst
      split at h
      · have hport := parsePort_eq_ok h
        have haddr : addr.toList = ('[' :: host) ++ ']' :: skipped :: rest := by
          rw [htext, splitFirst_eq_some hfirst, cons_append]
        split at hlast
        · rename_i before after hcolon
          have hsame := splitLast_eq_some hcolon
          rw [haddr] at hsame
          rw [eq_port_of_bracketed hsame.symm hport hlast, hport] at hlast
          exact (Option.some.inj hlast).symm
        · have hmem : ']' ∈ addr.toList := by
            rw [haddr]
            exact mem_append_right _ mem_cons_self
          exact absurd hmem (not_mem_of_parseI32 hlast rfl)
      · cases h
    · cases h
  · split at h
    · cases h
    · rename_i host rest hcolon
      rw [hcolon] at hlast
      rw [parsePort_eq_ok h] at hlast
      exact (Option.some.inj hlast).symm

/-!
## Classified addresses
-/

def Accepted (addr : String) : Prop :=
  exists ip port, splitHostPort addr = .ok (ip, port) ∧ 0 ≤ port ∧ port ≤ 65535

theorem accepted_of_splitPeerAddr {port : Int} (h : splitPeerAddr addr = .ok (ip, port)) :
    Accepted addr ∧ 0 ≤ port ∧ port ≤ 65535 := by
  unfold splitPeerAddr at h
  split at h
  · cases h
  · rename_i ip' port' hsplit
    split at h
    · rename_i hport
      cases h
      exact ⟨⟨ip, port, hsplit, hport⟩, hport⟩
    · cases h

/-- The least and the greatest port so far are ports. -/
structure Observed.Spread (o : Observed) : Prop where
  min_le_max : o.portMin ≤ o.portMax
  nonneg : 0 ≤ o.portMin
  le_max : o.portMax ≤ 65535

theorem observe_eq_ok {localIps : List String} {firstIp addr : String} {firstPort : Int}
    {o o' : Observed} (h : observe localIps firstIp firstPort o addr = .ok o') (ho : o.Spread) :
    Accepted addr ∧ o'.Spread := by
  unfold observe at h
  split at h
  · cases h
  · rename_i ip port hsplit
    cases h
    have haccepted := accepted_of_splitPeerAddr hsplit
    rcases ho with ⟨hle, hlow, hhigh⟩
    constructor
    · exact haccepted.1
    · constructor
      · show min o.portMin port ≤ max o.portMax port
        omega
      · show 0 ≤ min o.portMin port
        omega
      · show max o.portMax port ≤ 65535
        omega

theorem observe_all {localIps : List String} {firstIp : String} {firstPort : Int}
    {addrs : List String} {o o' : Observed}
    (h : addrs.foldlM (observe localIps firstIp firstPort) o = .ok o') (ho : o.Spread) :
    (forall addr, addr ∈ addrs -> Accepted addr) ∧ o'.Spread := by
  induction addrs generalizing o with
  | nil =>
    cases h
    constructor
    · intro addr haddr
      cases haddr
    · exact ho
  | cons addr addrs ih =>
    rw [foldlM_cons] at h
    cases hfirst : observe localIps firstIp firstPort o addr with
    | error e =>
      rw [hfirst] at h
      cases h
    | ok next =>
      rw [hfirst] at h
      have hstep := observe_eq_ok hfirst ho
      have hrest := ih h hstep.2
      rw [forall_mem_cons]
      exact ⟨⟨hstep.1, hrest.1⟩, hrest.2⟩

theorem classifyNatFeature_eq_ok {addrs localIps : List String} {f : NatFeature}
    (h : classifyNatFeature addrs localIps = .ok f) :
    (forall addr, addr ∈ addrs -> Accepted addr) ∧
      0 ≤ f.portsDifference ∧ f.portsDifference ≤ 65535 := by
  unfold classifyNatFeature at h
  split at h
  · rename_i first second rest
    split at h
    · cases h
    · rename_i firstIp firstPort hsplit
      have hfirst := accepted_of_splitPeerAddr hsplit
      simp only at h
      split at h
      · cases h
      · rename_i o hobserve
        cases h
        have hbaseline : (Observed.mk false false (max 0 firstPort) (min 65535 firstPort)
            (localIps.contains firstIp)).Spread := by
          constructor
          · show min 65535 firstPort ≤ max 0 firstPort
            omega
          · show 0 ≤ min 65535 firstPort
            omega
          · show max 0 firstPort ≤ 65535
            omega
        have hall := observe_all hobserve hbaseline
        rcases hall with ⟨haccepted, hle, hlow, hhigh⟩
        constructor
        · rw [forall_mem_cons]
          exact ⟨hfirst.1, haccepted⟩
        · show 0 ≤ o.portMax - o.portMin ∧ o.portMax - o.portMin ≤ 65535
          omega
  · cases h

/-!
## Recommended ranges
-/

def narrow (pair : BehaviorPair) : Bool :=
  pair.1.portsRangeNumber ≤ 16 && pair.2.portsRangeNumber ≤ 16

theorem behaviorTable_narrow (mode : Nat) :
    forall pair, pair ∈ behaviorTable mode -> narrow pair = true :=
  forall_behaviorTable (by decide) mode

theorem getBehaviorByModeAndIndex_narrow (mode index : Nat) :
    narrow (getBehaviorByModeAndIndex mode index) = true := by
  unfold getBehaviorByModeAndIndex
  cases hentry : (behaviorTable mode)[index]? with
  | none => rfl
  | some pair => exact behaviorTable_narrow mode pair (mem_of_getElem? hentry)

theorem Analyzer.getRecommendBehaviors_narrow (a : Analyzer) (key : String) (c v : NatFeature)
    (now : Nat) : narrow (a.getRecommendBehaviors key c v now).1.pair = true := by
  simp only [Analyzer.getRecommendBehaviors, Recommendation.pair]
  have hpair := getBehaviorByModeAndIndex_narrow
    ((((a.records.lookup key).getD (MakeHoleRecords.new c v now)).recommend now).1.1)
    ((((a.records.lookup key).getD (MakeHoleRecords.new c v now)).recommend now).1.2)
  simp only [narrow, Bool.and_eq_true] at hpair ⊢
  split
  · exact hpair.symm
  · exact hpair

/-!
## Ranges of ports
-/

/-- A range around a port with so many ports on either side. -/
structure PortsRange.Around (range : PortsRange) (port number : Int) : Prop where
  one_le : 1 ≤ range.first
  first_le : range.first ≤ range.last
  le_max : range.last ≤ 65535
  contains : 1 ≤ port -> range.first ≤ port ∧ port ≤ range.last
  span : range.last - range.first + 1 ≤ 2 * number + 1

def rangeTerms (port portsDifference number : Int) : List Int :=
  [ port - portsDifference, port - portsDifference - 5, port - number,
    port + portsDifference, port + portsDifference + 5, port + number ]

def FitsI32 (n : Int) : Prop :=
  -2 ^ 31 ≤ n ∧ n < 2 ^ 31

theorem rangeTerms_fit {port portsDifference number : Int} (hport : 0 ≤ port ∧ port ≤ 65535)
    (hdifference : 0 ≤ portsDifference ∧ portsDifference ≤ 65535)
    (hnumber : 0 < number ∧ number ≤ 16) :
    forall n, n ∈ rangeTerms port portsDifference number -> FitsI32 n := by
  intro n hn
  simp only [rangeTerms, mem_cons, not_mem_nil, or_false] at hn
  unfold FitsI32
  omega

theorem around_of_bounds {port portsDifference number : Int} (hport : 0 ≤ port ∧ port ≤ 65535)
    (hdifference : 0 ≤ portsDifference) (hnumber : 0 < number) :
    PortsRange.Around
      { first := max (max (port - portsDifference - 5) (port - number)) 1
        last := min (min (port + portsDifference + 5) (port + number)) 65535 } port number := by
  constructor
  · show 1 ≤ max (max (port - portsDifference - 5) (port - number)) 1
    omega
  · show max (max (port - portsDifference - 5) (port - number)) 1 ≤
      min (min (port + portsDifference + 5) (port + number)) 65535
    omega
  · show min (min (port + portsDifference + 5) (port + number)) 65535 ≤ 65535
    omega
  · intro hone
    show max (max (port - portsDifference - 5) (port - number)) 1 ≤ port ∧
      port ≤ min (min (port + portsDifference + 5) (port + number)) 65535
    omega
  · show min (min (port + portsDifference + 5) (port + number)) 65535 -
      max (max (port - portsDifference - 5) (port - number)) 1 + 1 ≤ 2 * number + 1
    omega

/-- What a range of a response is, for the port of its last candidate. -/
structure SoundRange (p : NatHoleResponseParams) (range : PortsRange) (addr : String)
    (port : Int) : Prop where
  last : p.candidateAddrs.eraseDups.getLast? = some addr
  port_eq : (splitHostPort addr).map Prod.snd = .ok port
  around : range.Around port p.behavior.portsRangeNumber
  fits : forall n, n ∈ rangeTerms port p.portsDifference p.behavior.portsRangeNumber -> FitsI32 n

theorem soundRange_of_candidatePorts {p : NatHoleResponseParams} {ports : List PortsRange}
    (haccepted : forall addr, addr ∈ p.candidateAddrs -> Accepted addr)
    (hdifference : 0 ≤ p.portsDifference ∧ p.portsDifference ≤ 65535)
    (hnarrow : p.behavior.portsRangeNumber ≤ 16)
    (h : candidatePorts p.behavior p.portsDifference p.candidateAddrs.eraseDups = some ports)
    {range : PortsRange} (hrange : range ∈ ports) :
    exists addr port, SoundRange p range addr port := by
  unfold candidatePorts at h
  split at h
  · rename_i hnumber
    rcases Option.bind_eq_some_iff.mp h with ⟨addr, hlast, hmap⟩
    rcases Option.map_eq_some_iff.mp hmap with ⟨read, hread, rfl⟩
    have hmem : addr ∈ p.candidateAddrs := by
      exact mem_eraseDups.mp (mem_of_getLast? hlast)
    rcases haccepted addr hmem with ⟨ip, port, hsplit, hport⟩
    have hsame := port_of_lastPart hsplit hread
    subst hsame
    rw [mem_singleton.mp hrange]
    exists addr, read
    constructor
    · exact hlast
    · rw [hsplit]
      rfl
    · exact around_of_bounds hport hdifference.1 hnumber
    · exact rangeTerms_fit hport hdifference ⟨hnumber, hnarrow⟩
  · cases h

/-- Every range of ports in a response that is built from the addresses of a classified peer
and a recommended behaviour. -/
theorem candidatePorts_sound {clientMapped clientIps visitorMapped visitorIps : List String}
    {c v : NatFeature} (hc : classifyNatFeature clientMapped clientIps = .ok c)
    (hv : classifyNatFeature visitorMapped visitorIps = .ok v)
    (a : Analyzer) (key : String) (now : Nat) (p : NatHoleResponseParams)
    (hpeer : (p.candidateAddrs, p.portsDifference) = (clientMapped, c.portsDifference) ∨
      (p.candidateAddrs, p.portsDifference) = (visitorMapped, v.portsDifference))
    (hbehavior : p.behavior = (a.getRecommendBehaviors key c v now).1.cBehavior ∨
      p.behavior = (a.getRecommendBehaviors key c v now).1.vBehavior)
    {ports : List PortsRange}
    (h : (buildNatHoleResponse p).detectBehavior.bind NatHoleDetectBehavior.candidatePorts =
      some ports)
    {range : PortsRange} (hrange : range ∈ ports) :
    exists addr port, SoundRange p range addr port := by
  have hnarrow := a.getRecommendBehaviors_narrow key c v now
  simp only [narrow, Recommendation.pair, Bool.and_eq_true] at hnarrow
  have hnumber : p.behavior.portsRangeNumber ≤ 16 := by
    rcases hbehavior with heq | heq
    · rw [heq]
      exact of_decide_eq_true hnarrow.1
    · rw [heq]
      exact of_decide_eq_true hnarrow.2
  have hclassified : (forall addr, addr ∈ p.candidateAddrs -> Accepted addr) ∧
      0 ≤ p.portsDifference ∧ p.portsDifference ≤ 65535 := by
    rcases hpeer with heq | heq
    · rw [(Prod.mk.inj heq).1, (Prod.mk.inj heq).2]
      exact classifyNatFeature_eq_ok hc
    · rw [(Prod.mk.inj heq).1, (Prod.mk.inj heq).2]
      exact classifyNatFeature_eq_ok hv
  exact soundRange_of_candidatePorts hclassified.1 hclassified.2 hnumber h hrange

def mappedClient : List String :=
  ["203.0.113.7:5000", "203.0.113.7:5003"]

def mappedVisitor : List String :=
  ["[2001:db8::1]:40000", "[2001:db8::1]:40002", "[2001:db8::1]:40000"]

def regularFeature (portsDifference : Int) : NatFeature where
  natType := .hardNat
  behavior := .portChanged
  portsDifference := portsDifference
  regularPortsChange := true
  publicNetwork := false

def visitorParams : NatHoleResponseParams where
  transactionId := "t"
  sid := "t"
  protocol := none
  mode := 3
  candidateAddrs := mappedVisitor
  assistedAddrs := []
  behavior := sender 0 0 10 0 0
  readTimeoutMs := 5000
  portsDifference := 2

theorem candidatePorts_sound_visitor :
    (buildNatHoleResponse visitorParams).detectBehavior.bind
        NatHoleDetectBehavior.candidatePorts = some [⟨39995, 40009⟩] ∧
      exists addr port, SoundRange visitorParams ⟨39995, 40009⟩ addr port := by
  have hports : (buildNatHoleResponse visitorParams).detectBehavior.bind
      NatHoleDetectBehavior.candidatePorts = some [⟨39995, 40009⟩] := by
    decide +kernel
  constructor
  · exact hports
  · exact @candidatePorts_sound mappedClient [] mappedVisitor [] (regularFeature 3)
      (regularFeature 2) (by decide +kernel) (by decide +kernel) (Analyzer.new 3600) "k" 0
      visitorParams (Or.inr rfl) (Or.inl (by decide +kernel)) _ hports _ mem_cons_self

end NatHole
end FrpRs
