import FrpRs.Data.OrderedMap
import FrpRs.Data.Run
import Mathlib.Data.Finset.Dedup
import Mathlib.Data.Finset.Card

/-!
# Replay detection

`ReplayTable` of `frp-server/src/state.rs`, `validate_timestamp_freshness` of
`frp-core/src/auth.rs` and `check_token_replay` of `frp-server/src/control/login/auth.rs`.

The run ids that logged in are kept under their timestamps.  Each login that reaches the
table first drops the timestamps outside the window, on both sides, and is then recorded.
-/

namespace FrpRs
namespace Server

open List

def msEpoch : Int := 1000000000000

def maxEntriesPerTimestamp : Nat := 100

def maxTotalReplayEntries : Nat := 100000

/-- The `i64` closest to the exact result. -/
def saturate (x : Int) : Int :=
  max (-9223372036854775808) (min 9223372036854775807 x)

inductive ReplayCheck where
  | admitted
  | duplicateSecondsPrecision
  | replay
deriving DecidableEq, Repr

structure ReplayTable where
  map : OrderedMap Int (List String)
  total : Nat

namespace ReplayTable

def new : ReplayTable where
  map := OrderedMap.empty
  total := 0

/-- `self.total -= self.map.remove(&k).map_or(0, |v| v.len())`. -/
def removeKey (t : ReplayTable) (k : Int) : ReplayTable where
  map := t.map.remove k
  total := t.total - ((t.map.get k).map length).getD 0

/-- The loop of each pass: the first key of a range is removed until there is none or it is
one to stop at.  The fuel is the number of keys. -/
def drain (range stop : Int -> Bool) : Nat -> ReplayTable -> ReplayTable
  | 0, t => t
  | fuel + 1, t =>
    match t.map.first range with
    | none => t
    | some e => if stop e.1 then t else drain range stop fuel (t.removeKey e.1)

def drainKeys (t : ReplayTable) (range stop : Int -> Bool) : ReplayTable :=
  drain range stop t.map.entries.length t

def dropExpired (t : ReplayTable) (thresholdS thresholdMs : Int) : ReplayTable :=
  (t.drainKeys (fun _ => true) (fun k => msEpoch ≤ k || thresholdS ≤ k)).drainKeys
    (fun k => msEpoch ≤ k) (fun k => thresholdMs ≤ k)

def dropFuture (t : ReplayTable) (futureS futureMs : Int) : ReplayTable :=
  (t.drainKeys (fun k => futureS ≤ k && k < msEpoch) (fun _ => false)).drainKeys
    (fun k => futureMs ≤ k) (fun _ => false)

/-- A range whose start lies past its end makes the call panic; the table then stays as the
first two passes left it. -/
def pruneExpired (t : ReplayTable) (nowMs timeoutSecs : Int) :
    Except ReplayTable (ReplayTable × Nat) :=
  if timeoutSecs ≤ 0 then .ok (t, 0)
  else
    let thresholdMs := saturate (nowMs - saturate (timeoutSecs * 1000))
    let thresholdS := saturate (nowMs.tdiv 1000 - timeoutSecs)
    let expired := t.dropExpired thresholdS thresholdMs
    let futureS := saturate (nowMs.tdiv 1000 + 1)
    let futureMs := saturate (nowMs + 1)
    if msEpoch < futureS then .error expired
    else .ok (expired.dropFuture futureS futureMs,
      t.total - (expired.dropFuture futureS futureMs).total)

def evictOldest : Nat -> ReplayTable -> ReplayTable
  | 0, t => t
  | fuel + 1, t =>
    if maxTotalReplayEntries ≤ t.total then
      match t.map.first (fun _ => true) with
      | none => t
      | some e => evictOldest fuel (t.removeKey e.1)
    else t

/-- The pair is appended to its timestamp's list, whose oldest id goes at the cap. -/
def push (t : ReplayTable) (ts : Int) (runId : String) : ReplayTable :=
  let entry := (t.map.get ts).getD []
  if maxEntriesPerTimestamp ≤ entry.length then
    { map := t.map.insert ts (entry.drop 1 ++ [runId])
      total := t.total - 1 + 1 }
  else
    { map := t.map.insert ts (entry ++ [runId])
      total := t.total + 1 }

def record (t : ReplayTable) (ts : Int) (runId : String) : ReplayTable × ReplayCheck :=
  if (t.map.get ts).any fun entry => entry.contains runId then
    (t, if ts < msEpoch then .duplicateSecondsPrecision else .replay)
  else ((evictOldest t.map.entries.length t).push ts runId, .admitted)

end ReplayTable

def validateTimestampFreshness (nowMs timestamp timeoutSecs : Int) : Except String Unit :=
  if timeoutSecs ≤ 0 then .ok ()
  else
    let nowS := nowMs.tdiv 1000
    let elapsedS := saturate (saturate (timestamp - nowS)).natAbs
    let elapsedMs := saturate (saturate (timestamp - nowMs)).natAbs
    if ¬ elapsedS ≤ timeoutSecs ∧ ¬ elapsedMs ≤ saturate (timeoutSecs * 1000) then
      .error "timestamp outside acceptable window"
    else .ok ()

structure AuthConfig where
  tokenAuthTimeout : Bool
  authenticationTimeout : Int

structure Login where
  timestamp : Option Int
  runId : Option String
deriving DecidableEq, Repr

/-- A login with what the server reads while it checks it: the clock, once for the freshness
and once for the table, and the id made up for a client that sends none. -/
structure Attempt where
  login : Login
  freshnessClock : Nat
  tableClock : Nat
  uuid : String
deriving DecidableEq, Repr

/-- The text sent to a throttled peer is left out. -/
inductive ReplayVerdict where
  | accepted
  | rejected (error : String)
  | panicked
deriving DecidableEq, Repr

namespace Attempt

def runIdForCheck (a : Attempt) : String :=
  (a.login.runId.filter fun id => id ≠ "").getD a.uuid

def freshTimestamp (a : Attempt) (timeout : Int) : Option Int :=
  a.login.timestamp.filter fun ts =>
    (validateTimestampFreshness a.freshnessClock ts timeout).isOk

end Attempt

namespace ReplayTable

/-- The part of the check under the lock. -/
def admitPair (t : ReplayTable) (timeout nowMs ts : Int) (runId : String) :
    ReplayTable × ReplayVerdict :=
  match t.pruneExpired nowMs timeout with
  | .error t => (t, .panicked)
  | .ok (t, _) =>
    match t.record ts runId with
    | (t, .admitted) => (t, .accepted)
    | (t, .duplicateSecondsPrecision) => (t, .accepted)
    | (t, .replay) => (t, .rejected "replay attack detected: duplicate timestamp")

def checkTokenReplay (t : ReplayTable) (cfg : AuthConfig) (a : Attempt) :
    ReplayTable × ReplayVerdict :=
  if cfg.tokenAuthTimeout ∧ 0 < cfg.authenticationTimeout then
    match a.login.timestamp with
    | none => (t, .accepted)
    | some ts =>
      match validateTimestampFreshness a.freshnessClock ts cfg.authenticationTimeout with
      | .error e => (t, .rejected e)
      | .ok () => t.admitPair cfg.authenticationTimeout a.tableClock ts a.runIdForCheck
  else (t, .accepted)

/-!
## Draining
-/

variable {t : ReplayTable}

theorem removeKey_map (t : ReplayTable) (k : Int) : (t.removeKey k).map = t.map.remove k := rfl

theorem drain_map {range stop : Int -> Bool}
    (hmono : forall k k', range k = true -> range k' = true -> k ≤ k' -> stop k = true ->
      stop k' = true)
    {fuel : Nat} (hfuel : t.map.entries.length ≤ fuel) :
    (drain range stop fuel t).map = t.map.keep fun k => !range k || stop k := by
  induction fuel generalizing t with
  | zero =>
    have hempty := eq_nil_of_length_eq_zero (Nat.le_zero.mp hfuel)
    rw [drain]
    exact (OrderedMap.keep_all (by simp [hempty])).symm
  | succ fuel ih =>
    rw [drain]
    cases hfirst : t.map.first range with
    | none =>
      refine (OrderedMap.keep_all ?_).symm
      intro e he
      simp [OrderedMap.first_none hfirst he]
    | some e =>
      obtain ⟨hmem, hrange⟩ := OrderedMap.first_mem hfirst
      by_cases hstop : stop e.1 = true
      · simp only [hstop, if_true]
        refine (OrderedMap.keep_all ?_).symm
        intro e' he'
        cases hrange' : range e'.1 with
        | false => simp
        | true =>
          have hle := OrderedMap.first_le hfirst he' hrange'
          simp [hmono e.1 e'.1 hrange hrange' hle hstop]
      · simp only [hstop, Bool.false_eq_true, if_false]
        have hlt := OrderedMap.size_remove_lt hmem
        rw [ih (by rw [removeKey_map]; omega), removeKey_map,
          OrderedMap.keep_remove (by simp [hrange, hstop])]

theorem drainKeys_map {range stop : Int -> Bool}
    (hmono : forall k k', range k = true -> range k' = true -> k ≤ k' -> stop k = true ->
      stop k' = true) :
    (t.drainKeys range stop).map = t.map.keep fun k => !range k || stop k :=
  drain_map hmono (Nat.le_refl _)

theorem dropExpired_get {thresholdS thresholdMs ts : Int} (hms : msEpoch ≤ ts)
    (hlive : thresholdMs ≤ ts) :
    (t.dropExpired thresholdS thresholdMs).map.get ts = t.map.get ts := by
  rw [dropExpired, drainKeys_map, drainKeys_map, OrderedMap.get_keep, OrderedMap.get_keep]
  · simp [hms, hlive]
  · intro k k' _ _ hle hstop
    simp only [Bool.or_eq_true, decide_eq_true_eq] at hstop ⊢
    omega
  · intro k k' _ _ hle hstop
    simp only [decide_eq_true_eq] at hstop ⊢
    omega

theorem dropFuture_get {futureS futureMs ts : Int} (hms : msEpoch ≤ ts) (hpast : ts < futureMs) :
    (t.dropFuture futureS futureMs).map.get ts = t.map.get ts := by
  rw [dropFuture, drainKeys_map, drainKeys_map, OrderedMap.get_keep, OrderedMap.get_keep]
  · simp [not_lt.mpr hms, not_le.mpr hpast]
  · intro k k' _ _ _ hstop
    cases hstop
  · intro k k' _ _ _ hstop
    cases hstop

/-!
## Consistency
-/

/-- The count is exact and within its bound, and every list is a list of at most so many
distinct ids. -/
structure Consistent (t : ReplayTable) : Prop where
  counted : t.total = t.map.weight length
  bounded : t.total ≤ maxTotalReplayEntries
  lists : forall ts ids, t.map.get ts = some ids ->
    ids ≠ [] ∧ ids.length ≤ maxEntriesPerTimestamp ∧ ids.Nodup

theorem new_consistent : new.Consistent where
  counted := rfl
  bounded := Nat.zero_le _
  lists := by
    intro ts ids h
    cases h

theorem removeKey_total_le (t : ReplayTable) (k : Int) : (t.removeKey k).total ≤ t.total :=
  Nat.sub_le _ _

theorem Consistent.removeKey (h : t.Consistent) (k : Int) : (t.removeKey k).Consistent where
  counted := by
    rw [ReplayTable.removeKey]
    cases hget : t.map.get k with
    | none =>
      rw [OrderedMap.weight_remove_of_none _ hget, ← h.counted]
      rfl
    | some ids =>
      have hweight := OrderedMap.weight_remove_of_some length hget
      have hcounted := h.counted
      simp only [Option.map_some, Option.getD_some]
      omega
  bounded := (removeKey_total_le t k).trans h.bounded
  lists := by
    intro ts ids hget
    rw [ReplayTable.removeKey, OrderedMap.get_remove] at hget
    split at hget
    · cases hget
    · exact h.lists ts ids hget

theorem drain_rule {P : ReplayTable -> Prop} (hremove : forall t k, P t -> P (t.removeKey k))
    (range stop : Int -> Bool) (fuel : Nat) (h : P t) : P (drain range stop fuel t) := by
  induction fuel generalizing t with
  | zero =>
    exact h
  | succ fuel ih =>
    rw [drain]
    split
    · exact h
    · split
      · exact h
      · exact ih (hremove t _ h)

theorem evictOldest_rule {P : ReplayTable -> Prop}
    (hremove : forall t k, P t -> P (t.removeKey k)) (fuel : Nat) (h : P t) :
    P (evictOldest fuel t) := by
  induction fuel generalizing t with
  | zero =>
    exact h
  | succ fuel ih =>
    rw [evictOldest]
    split
    · split
      · exact h
      · exact ih (hremove t _ h)
    · exact h

theorem pruneExpired_rule {P : ReplayTable -> Prop}
    (hremove : forall t k, P t -> P (t.removeKey k)) (h : P t) (nowMs timeoutSecs : Int) :
    (forall t', t.pruneExpired nowMs timeoutSecs = .error t' -> P t') ∧
      (forall t' n, t.pruneExpired nowMs timeoutSecs = .ok (t', n) -> P t') := by
  have hexpired : forall s m, P (t.dropExpired s m) := by
    intro s m
    exact drain_rule hremove _ _ _ (drain_rule hremove _ _ _ h)
  unfold pruneExpired
  split
  · constructor
    · intro t' heq
      cases heq
    · intro t' n heq
      cases heq
      exact h
  · dsimp only
    split
    · constructor
      · intro t' heq
        cases heq
        exact hexpired _ _
      · intro t' n heq
        cases heq
    · constructor
      · intro t' heq
        cases heq
      · intro t' n heq
        cases heq
        exact drain_rule hremove _ _ _ (drain_rule hremove _ _ _ (hexpired _ _))

theorem evictOldest_room (h : t.Consistent) {fuel : Nat}
    (hfuel : t.map.entries.length ≤ fuel) :
    (evictOldest fuel t).total < maxTotalReplayEntries := by
  induction fuel generalizing t with
  | zero =>
    have hempty := eq_nil_of_length_eq_zero (Nat.le_zero.mp hfuel)
    rw [evictOldest, h.counted, OrderedMap.weight, hempty]
    decide
  | succ fuel ih =>
    rw [evictOldest]
    split
    · rename_i hfull
      cases hfirst : t.map.first (fun _ => true) with
      | none =>
        have hempty : t.map.entries = [] := by
          apply eq_nil_iff_forall_not_mem.mpr
          intro e he
          have := OrderedMap.first_none hfirst he
          cases this
        have hzero : t.total = 0 := by
          rw [h.counted, OrderedMap.weight, hempty]
          rfl
        rw [hzero] at hfull
        exact absurd hfull (by decide)
      | some e =>
        have hlt := OrderedMap.size_remove_lt (OrderedMap.first_mem hfirst).1
        exact ih (h.removeKey e.1) (by rw [removeKey_map]; omega)
    · rename_i hroom
      exact not_le.mp hroom

theorem evictOldest_of_room (h : t.total < maxTotalReplayEntries) (fuel : Nat) :
    evictOldest fuel t = t := by
  cases fuel with
  | zero => rfl
  | succ fuel => exact if_neg (not_le.mpr h)

theorem push_get (t : ReplayTable) (ts : Int) (runId : String) (ts' : Int) :
    (t.push ts runId).map.get ts' =
      if ts' = ts then
        some (((t.map.get ts).getD []).drop
          (if maxEntriesPerTimestamp ≤ ((t.map.get ts).getD []).length then 1 else 0) ++ [runId])
      else t.map.get ts' := by
  unfold push
  dsimp only
  split
  · exact OrderedMap.get_insert _ _ _ _
  · exact OrderedMap.get_insert _ _ _ _

theorem Consistent.entry (h : t.Consistent) (ts : Int) :
    ((t.map.get ts).getD []).length ≤ maxEntriesPerTimestamp ∧
      ((t.map.get ts).getD []).Nodup := by
  cases hget : t.map.get ts with
  | none => exact ⟨Nat.zero_le _, nodup_nil⟩
  | some ids => exact (h.lists ts ids hget).2

theorem Consistent.weight_entry (h : t.Consistent) (ts : Int) :
    t.total = ((t.map.get ts).getD []).length + (t.map.remove ts).weight length := by
  rw [h.counted]
  cases hget : t.map.get ts with
  | none => simp [OrderedMap.weight_remove_of_none _ hget]
  | some ids => exact OrderedMap.weight_remove_of_some _ hget

variable {runId : String}

theorem Consistent.push (h : t.Consistent) (hroom : t.total < maxTotalReplayEntries) {ts : Int}
    (hnew : runId ∉ (t.map.get ts).getD []) :
    (t.push ts runId).Consistent := by
  obtain ⟨hlength, hnodup⟩ := h.entry ts
  have hweight := h.weight_entry ts
  have hcap : 0 < maxEntriesPerTimestamp := by decide
  constructor
  · unfold ReplayTable.push
    dsimp only
    split
    · rename_i hfull
      rw [OrderedMap.weight_insert, length_append, length_drop, length_singleton]
      show t.total - 1 + 1 = _
      omega
    · rw [OrderedMap.weight_insert, length_append, length_singleton]
      show t.total + 1 = _
      omega
  · unfold ReplayTable.push
    dsimp only
    split
    · show t.total - 1 + 1 ≤ maxTotalReplayEntries
      omega
    · exact hroom
  · intro ts' ids hget
    rw [push_get] at hget
    split at hget
    · cases hget
      refine ⟨by simp, ?_, ?_⟩
      · rw [length_append, length_drop, length_singleton]
        split
        · omega
        · omega
      · apply List.Nodup.append
        · exact hnodup.sublist (drop_sublist _ _)
        · exact nodup_singleton _
        · rw [disjoint_singleton]
          intro hmem
          exact hnew (mem_of_mem_drop hmem)
    · exact h.lists ts' ids hget

theorem any_contains_iff (t : ReplayTable) (ts : Int) (runId : String) :
    ((t.map.get ts).any fun entry => entry.contains runId) = true ↔
      runId ∈ (t.map.get ts).getD [] := by
  cases t.map.get ts with
  | none => simp
  | some ids => simp

theorem evictOldest_get (t : ReplayTable) (fuel : Nat) (ts : Int) :
    (evictOldest fuel t).map.get ts = none ∨
      (evictOldest fuel t).map.get ts = t.map.get ts := by
  apply @evictOldest_rule t (fun t' => t'.map.get ts = none ∨ t'.map.get ts = t.map.get ts)
  · intro t' k h
    rw [removeKey_map, OrderedMap.get_remove]
    split
    · exact .inl rfl
    · exact h
  · exact .inr rfl

theorem record_duplicate {ts : Int} (h : runId ∈ (t.map.get ts).getD []) :
    t.record ts runId =
      (t, if ts < msEpoch then .duplicateSecondsPrecision else .replay) :=
  if_pos ((any_contains_iff t ts runId).mpr h)

theorem record_new {ts : Int} (h : runId ∉ (t.map.get ts).getD []) :
    t.record ts runId =
      ((evictOldest t.map.entries.length t).push ts runId, .admitted) :=
  if_neg fun hany => h ((any_contains_iff t ts runId).mp hany)

theorem Consistent.record (h : t.Consistent) (ts : Int) (runId : String) :
    (t.record ts runId).1.Consistent := by
  by_cases hmem : runId ∈ (t.map.get ts).getD []
  · rw [record_duplicate hmem]
    exact h
  · rw [record_new hmem]
    have hevicted : (evictOldest t.map.entries.length t).Consistent :=
      @evictOldest_rule t Consistent (fun _ k h => h.removeKey k) _ h
    refine hevicted.push (evictOldest_room h (Nat.le_refl _)) ?_
    rcases evictOldest_get t t.map.entries.length ts with hnone | hsame
    · simp [hnone]
    · rw [hsame]
      exact hmem

theorem Consistent.admitPair (h : t.Consistent) (timeout nowMs ts : Int) (runId : String) :
    (t.admitPair timeout nowMs ts runId).1.Consistent := by
  obtain ⟨herror, hok⟩ :=
    @pruneExpired_rule t Consistent (fun _ k h => h.removeKey k) h nowMs timeout
  unfold ReplayTable.admitPair
  cases hprune : t.pruneExpired nowMs timeout with
  | error t' => exact herror t' hprune
  | ok result =>
    have hrecorded := (hok result.1 result.2 hprune).record ts runId
    dsimp only
    cases hrecord : result.1.record ts runId with
    | mk t' check =>
      rw [hrecord] at hrecorded
      cases check with
      | admitted => exact hrecorded
      | duplicateSecondsPrecision => exact hrecorded
      | replay => exact hrecorded

def step (t : ReplayTable) (cfg : AuthConfig) (a : Attempt) : ReplayTable :=
  (t.checkTokenReplay cfg a).1

theorem Consistent.step (h : t.Consistent) (cfg : AuthConfig) (a : Attempt) :
    (t.step cfg a).Consistent := by
  unfold ReplayTable.step checkTokenReplay
  split
  · split
    · exact h
    · split
      · exact h
      · exact h.admitPair _ _ _ _
  · exact h

/-!
## A recorded pair
-/

/-- The id stands in the list of its timestamp, and everything after it is among the ids
seen since. -/
def Tracked (ts : Int) (id : String) (seen : List String) (t : ReplayTable) : Prop :=
  exists older newer, t.map.get ts = some (older ++ id :: newer) ∧
    forall x, x ∈ newer -> x ∈ seen

variable {seen : List String}

theorem Tracked.mem {ts : Int} {id : String} (h : Tracked ts id seen t) :
    id ∈ (t.map.get ts).getD [] := by
  obtain ⟨older, newer, hget, _⟩ := h
  simp [hget]

variable {t' : ReplayTable}

theorem Tracked.of_get {ts : Int} {id : String} (h : Tracked ts id seen t)
    (hget : t'.map.get ts = t.map.get ts) :
    Tracked ts id seen t' := by
  obtain ⟨older, newer, hlist, hseen⟩ := h
  exact ⟨older, newer, hget.trans hlist, hseen⟩

def crowd (id : String) (seen : List String) : Nat :=
  (seen.toFinset.erase id).card

/-- A push drops the tracked id only once so many others have been seen. -/
theorem Tracked.push {ts ts' : Int} {id runId : String} (h : Tracked ts id seen t)
    (hlists : t.Consistent) (hnew : runId ∉ (t.map.get ts').getD [])
    (hcrowd : ts' = ts -> crowd id (seen ++ [runId]) < maxEntriesPerTimestamp) :
    Tracked ts id (if ts' = ts then seen ++ [runId] else seen) (t.push ts' runId) := by
  obtain ⟨older, newer, hget, hseen⟩ := h
  by_cases hts : ts' = ts
  · subst hts
    rw [if_pos rfl]
    simp only [hget, Option.getD_some] at hnew
    obtain ⟨_, _, hnodup⟩ := hlists.lists ts' _ hget
    cases older with
    | nil =>
      have hroom : ¬ maxEntriesPerTimestamp ≤ (id :: newer).length := by
        intro hfull
        have hdistinct : (newer ++ [runId]).Nodup := by
          apply List.Nodup.append (nodup_cons.mp hnodup).2 (nodup_singleton _)
          rw [disjoint_singleton]
          intro hmem
          exact hnew (mem_cons_of_mem id hmem)
        have hsub : (newer ++ [runId]).toFinset ⊆ (seen ++ [runId]).toFinset.erase id := by
          intro x hx
          rw [mem_toFinset, mem_append, mem_singleton] at hx
          rw [Finset.mem_erase, mem_toFinset, mem_append, mem_singleton]
          rcases hx with hmem | heq
          · refine ⟨?_, .inl (hseen x hmem)⟩
            intro hid
            exact (nodup_cons.mp hnodup).1 (hid ▸ hmem)
          · refine ⟨?_, .inr heq⟩
            intro hid
            exact hnew (by simp [← heq, hid])
        have hcard := Finset.card_le_card hsub
        rw [toFinset_card_of_nodup hdistinct, length_append,
          length_singleton] at hcard
        have hlow := hcrowd rfl
        rw [crowd] at hlow
        rw [length_cons] at hfull
        omega
      refine ⟨[], newer ++ [runId], ?_, ?_⟩
      · rw [push_get, if_pos rfl, hget, Option.getD_some, nil_append, if_neg hroom]
        rfl
      · intro x hx
        rcases mem_append.mp hx with hmem | hmem
        · exact mem_append_left _ (hseen x hmem)
        · exact mem_append_right _ hmem
    | cons oldest older =>
      refine ⟨(oldest :: older).drop
        (if maxEntriesPerTimestamp ≤ (oldest :: older ++ id :: newer).length then 1 else 0),
        newer ++ [runId], ?_, ?_⟩
      · rw [push_get, if_pos rfl, hget, Option.getD_some]
        split
        · simp
        · simp
      · intro x hx
        rcases mem_append.mp hx with hmem | hmem
        · exact mem_append_left _ (hseen x hmem)
        · exact mem_append_right _ hmem
  · rw [if_neg hts]
    refine ⟨older, newer, ?_, hseen⟩
    rw [push_get, if_neg (Ne.symm hts), hget]

def Live (timeout ts nowMs : Int) : Prop :=
  saturate (nowMs - saturate (timeout * 1000)) ≤ ts

theorem pruneExpired_get {timeout ts nowMs : Int} (hms : msEpoch ≤ ts)
    (hlive : Live timeout ts nowMs) (hpast : ts ≤ nowMs) :
    (forall t', t.pruneExpired nowMs timeout = .error t' -> t'.map.get ts = t.map.get ts) ∧
      (forall t' n, t.pruneExpired nowMs timeout = .ok (t', n) ->
        t'.map.get ts = t.map.get ts) := by
  have hexpired : forall s,
      (t.dropExpired s (saturate (nowMs - saturate (timeout * 1000)))).map.get ts =
        t.map.get ts := fun s => dropExpired_get hms hlive
  unfold pruneExpired
  split
  · constructor
    · intro t' heq
      cases heq
    · intro t' n heq
      cases heq
      rfl
  · dsimp only
    split
    · constructor
      · intro t' heq
        cases heq
        exact hexpired _
      · intro t' n heq
        cases heq
    · rename_i hrange
      constructor
      · intro t' heq
        cases heq
      · intro t' n heq
        cases heq
        rw [dropFuture_get hms, hexpired]
        rw [Int.tdiv_eq_ediv_of_nonneg (by unfold msEpoch at hms; omega)] at hrange
        unfold saturate msEpoch at *
        omega

theorem pruneExpired_total {timeout nowMs : Int} {n : Nat}
    (h : t.pruneExpired nowMs timeout = .ok (t', n)) : t'.total ≤ t.total :=
  (@pruneExpired_rule t (fun t' => t'.total ≤ t.total)
    (fun t' k hle => (removeKey_total_le t' k).trans hle) (Nat.le_refl _) nowMs timeout).2 t' n h

theorem admitPair_duplicate {timeout nowMs ts : Int} {n : Nat}
    (hprune : t.pruneExpired nowMs timeout = .ok (t', n)) (hms : msEpoch ≤ ts)
    (hmem : runId ∈ (t'.map.get ts).getD []) :
    t.admitPair timeout nowMs ts runId =
      (t', .rejected "replay attack detected: duplicate timestamp") := by
  unfold admitPair
  rw [hprune]
  dsimp only
  rw [record_duplicate hmem, if_neg (not_lt.mpr hms)]

theorem admitPair_known {timeout nowMs ts : Int} {n : Nat}
    (hprune : t.pruneExpired nowMs timeout = .ok (t', n)) (hmem : runId ∈ (t'.map.get ts).getD []) :
    (t.admitPair timeout nowMs ts runId).1 = t' := by
  unfold admitPair
  rw [hprune]
  dsimp only
  rw [record_duplicate hmem]
  by_cases hms : ts < msEpoch
  · rw [if_pos hms]
  · rw [if_neg hms]

theorem admitPair_fresh {timeout nowMs ts : Int} {n : Nat}
    (hprune : t.pruneExpired nowMs timeout = .ok (t', n)) (hnew : runId ∉ (t'.map.get ts).getD []) :
    t.admitPair timeout nowMs ts runId =
      ((evictOldest t'.map.entries.length t').push ts runId, .accepted) := by
  unfold admitPair
  rw [hprune]
  dsimp only
  rw [record_new hnew]

def addedId (ts : Int) (timestamp : Option Int) (runId : String) (verdict : ReplayVerdict) :
    List String :=
  if timestamp = some ts ∧ verdict = .accepted then [runId] else []

theorem crowd_mono {id : String} {seen seen' : List String}
    (h : forall x, x ∈ seen -> x ∈ seen') : crowd id seen ≤ crowd id seen' := by
  apply Finset.card_le_card
  apply Finset.erase_subset_erase
  intro x hx
  exact mem_toFinset.mpr (h x (mem_toFinset.mp hx))

theorem Tracked.mono {ts : Int} {id : String} {seen seen' : List String}
    (h : Tracked ts id seen t) (hsub : forall x, x ∈ seen -> x ∈ seen') :
    Tracked ts id seen' t := by
  obtain ⟨older, newer, hget, hseen⟩ := h
  exact ⟨older, newer, hget, fun x hx => hsub x (hseen x hx)⟩

theorem Tracked.admitPair {ts ts' timeout nowMs : Int} {id runId : String}
    (h : Tracked ts id seen t) (hconsistent : t.Consistent)
    (hroom : t.total < maxTotalReplayEntries) (hms : msEpoch ≤ ts) (hlive : Live timeout ts nowMs)
    (hpast : ts ≤ nowMs) (hcrowd : crowd id (seen ++ addedId ts (some ts') runId
      (t.admitPair timeout nowMs ts' runId).2) < maxEntriesPerTimestamp) :
    Tracked ts id (seen ++ addedId ts (some ts') runId
      (t.admitPair timeout nowMs ts' runId).2) (t.admitPair timeout nowMs ts' runId).1 := by
  obtain ⟨herror, hok⟩ := @pruneExpired_get t timeout ts nowMs hms hlive hpast
  obtain ⟨_, hpruned⟩ :=
    @pruneExpired_rule t Consistent (fun _ k h => h.removeKey k) hconsistent nowMs timeout
  cases hprune : t.pruneExpired nowMs timeout with
  | error t' =>
    have hpanic : t.admitPair timeout nowMs ts' runId = (t', .panicked) := by
      unfold ReplayTable.admitPair
      rw [hprune]
    rw [hpanic]
    exact (h.of_get (herror t' hprune)).mono fun x hx => mem_append_left _ hx
  | ok result =>
    obtain ⟨t', n⟩ := result
    have hkept := h.of_get (hok t' n hprune)
    by_cases hmem : runId ∈ (t'.map.get ts').getD []
    · rw [admitPair_known hprune hmem]
      exact hkept.mono fun x hx => mem_append_left _ hx
    · rw [admitPair_fresh hprune hmem] at hcrowd ⊢
      have hroom' := Nat.lt_of_le_of_lt (pruneExpired_total hprune) hroom
      rw [evictOldest_of_room hroom'] at hcrowd ⊢
      have hpushed := hkept.push (hpruned t' n hprune) hmem
      by_cases hts : ts' = ts
      · subst hts
        have hadded : addedId ts' (some ts') runId .accepted = [runId] := if_pos ⟨rfl, rfl⟩
        rw [hadded] at hcrowd ⊢
        have hresult := hpushed fun _ => hcrowd
        rwa [if_pos rfl] at hresult
      · have hresult := hpushed fun heq => absurd heq hts
        rw [if_neg hts] at hresult
        exact hresult.mono fun x hx => mem_append_left _ hx

theorem tracked_of_accepted {timeout nowMs ts : Int} {id : String} (hms : msEpoch ≤ ts)
    (haccepted : (t.admitPair timeout nowMs ts id).2 = .accepted) :
    Tracked ts id [] (t.admitPair timeout nowMs ts id).1 := by
  cases hprune : t.pruneExpired nowMs timeout with
  | error t' =>
    unfold ReplayTable.admitPair at haccepted
    rw [hprune] at haccepted
    cases haccepted
  | ok result =>
    obtain ⟨t', n⟩ := result
    by_cases hmem : id ∈ (t'.map.get ts).getD []
    · rw [admitPair_duplicate hprune hms hmem] at haccepted
      cases haccepted
    · rw [admitPair_fresh hprune hmem]
      exact ⟨_, [], by rw [push_get, if_pos rfl], fun x hx => hx⟩

/-!
## Runs
-/

variable {cfg : AuthConfig} {a : Attempt}

section Enabled

variable (hon : cfg.tokenAuthTimeout = true) (hpos : 0 < cfg.authenticationTimeout)
include hon hpos

theorem checkTokenReplay_fresh {ts : Int}
    (h : a.freshTimestamp cfg.authenticationTimeout = some ts) :
    t.checkTokenReplay cfg a =
      t.admitPair cfg.authenticationTimeout a.tableClock ts a.runIdForCheck := by
  obtain ⟨htimestamp, hfresh⟩ := Option.filter_eq_some_iff.mp h
  unfold checkTokenReplay
  rw [if_pos ⟨hon, hpos⟩, htimestamp]
  dsimp only
  cases hcheck : validateTimestampFreshness a.freshnessClock ts cfg.authenticationTimeout with
  | error e =>
    rw [hcheck] at hfresh
    cases hfresh
  | ok u => rfl

theorem checkTokenReplay_stale {ts : Int} (htimestamp : a.login.timestamp = some ts)
    (h : a.freshTimestamp cfg.authenticationTimeout = none) :
    exists e, t.checkTokenReplay cfg a = (t, .rejected e) := by
  unfold checkTokenReplay
  rw [if_pos ⟨hon, hpos⟩, htimestamp]
  dsimp only
  cases hcheck : validateTimestampFreshness a.freshnessClock ts cfg.authenticationTimeout with
  | error e => exact ⟨e, rfl⟩
  | ok u =>
    unfold Attempt.freshTimestamp at h
    rw [htimestamp, Option.filter_some, hcheck] at h
    cases h

theorem checkTokenReplay_unseen (h : a.freshTimestamp cfg.authenticationTimeout = none) :
    (t.checkTokenReplay cfg a).1 = t := by
  cases htimestamp : a.login.timestamp with
  | none =>
    unfold checkTokenReplay
    rw [if_pos ⟨hon, hpos⟩, htimestamp]
  | some ts =>
    obtain ⟨e, he⟩ := checkTokenReplay_stale hon hpos htimestamp h
    rw [he]

end Enabled

def acceptedAt (cfg : AuthConfig) (ts : Int) : ReplayTable -> List Attempt -> List String
  | _, [] => []
  | t, a :: as =>
    addedId ts a.login.timestamp a.runIdForCheck (t.checkTokenReplay cfg a).2 ++
      acceptedAt cfg ts (t.step cfg a) as

/-- The table has room, and a login that reaches it does not find the clock behind the
timestamp. -/
def Undisturbed (cfg : AuthConfig) (ts : Int) (t : ReplayTable) (a : Attempt) : Prop :=
  t.total < maxTotalReplayEntries ∧
    (a.freshTimestamp cfg.authenticationTimeout ≠ none -> ts ≤ a.tableClock)

def readings (as : List Attempt) : List Nat :=
  as.flatMap fun a => [a.freshnessClock, a.tableClock]

def ClockForward (as : List Attempt) : Prop :=
  (readings as).Pairwise (· ≤ ·)

def InWindow (timeout ts nowMs : Int) : Prop :=
  ((ts - nowMs).natAbs : Int) ≤ timeout * 1000

theorem Live.earlier {timeout ts nowMs nowMs' : Int} (h : Live timeout ts nowMs)
    (hle : nowMs' ≤ nowMs) : Live timeout ts nowMs' := by
  unfold Live saturate at *
  omega

theorem InWindow.live {timeout ts nowMs : Int} (h : InWindow timeout ts nowMs)
    (hms : msEpoch ≤ ts) (hdate : nowMs < 1000 * msEpoch) : Live timeout ts nowMs := by
  unfold InWindow at h
  unfold Live saturate
  unfold msEpoch at *
  omega

theorem Tracked.step {ts : Int} {id : String} (hon : cfg.tokenAuthTimeout = true)
    (hpos : 0 < cfg.authenticationTimeout) (h : Tracked ts id seen t) (hconsistent : t.Consistent)
    (hms : msEpoch ≤ ts) (hlive : Live cfg.authenticationTimeout ts a.tableClock)
    (hok : Undisturbed cfg ts t a)
    (hcrowd : crowd id (seen ++ addedId ts a.login.timestamp a.runIdForCheck
      (t.checkTokenReplay cfg a).2) < maxEntriesPerTimestamp) :
    Tracked ts id (seen ++ addedId ts a.login.timestamp a.runIdForCheck
      (t.checkTokenReplay cfg a).2) (t.step cfg a) := by
  rw [ReplayTable.step]
  cases hfresh : a.freshTimestamp cfg.authenticationTimeout with
  | none =>
    rw [checkTokenReplay_unseen hon hpos hfresh]
    exact h.mono fun x hx => mem_append_left _ hx
  | some ts' =>
    have htimestamp := (Option.filter_eq_some_iff.mp hfresh).1
    rw [checkTokenReplay_fresh hon hpos hfresh, htimestamp] at hcrowd ⊢
    exact h.admitPair hconsistent hok.1 hms hlive (hok.2 (by simp [hfresh])) hcrowd

theorem Tracked.run {ts : Int} {id : String} {as : List Attempt} (hon : cfg.tokenAuthTimeout = true)
    (hpos : 0 < cfg.authenticationTimeout) (h : Tracked ts id seen t) (hconsistent : t.Consistent)
    (hms : msEpoch ≤ ts)
    (hlive : forall a, a ∈ as -> Live cfg.authenticationTimeout ts a.tableClock)
    (hok : Run.Along (fun t a => t.step cfg a) (Undisturbed cfg ts) t as)
    (hcrowd : crowd id (seen ++ acceptedAt cfg ts t as) < maxEntriesPerTimestamp) :
    Tracked ts id (seen ++ acceptedAt cfg ts t as) (Run.run (fun t a => t.step cfg a) t as) := by
  induction as generalizing t seen with
  | nil =>
    exact h.mono fun x hx => mem_append_left _ hx
  | cons a as ih =>
    rw [acceptedAt, ← append_assoc] at hcrowd ⊢
    have hstep := h.step hon hpos hconsistent hms (hlive a mem_cons_self) hok.1
      (Nat.lt_of_le_of_lt (crowd_mono fun x hx => mem_append_left _ hx) hcrowd)
    exact ih hstep (hconsistent.step cfg a)
      (fun b hb => hlive b (mem_cons_of_mem a hb)) hok.2 hcrowd

theorem consistent_of_run (cfg : AuthConfig) (as : List Attempt) :
    (Run.run (fun t a => t.step cfg a) new as).Consistent :=
  Run.run_preserves (fun _ a h => h.step cfg a) as new_consistent

theorem ClockForward.le_last {before between : List Attempt} {again a : Attempt}
    (h : ClockForward (before ++ (between ++ [again]))) (ha : a ∈ between) :
    a.tableClock ≤ again.tableClock := by
  unfold ClockForward readings at h
  rw [flatMap_append, flatMap_append] at h
  have htail := (pairwise_append.mp h).2.1
  refine (pairwise_append.mp htail).2.2 _ ?_ _ ?_
  · exact mem_flatMap.mpr ⟨a, ha, by simp⟩
  · simp

theorem pruneExpired_panics_iff {timeout : Int} (hpos : 0 < timeout) (nowMs : Nat) :
    (exists t', t.pruneExpired nowMs timeout = .error t') ↔ 1000 * msEpoch ≤ (nowMs : Int) := by
  have hrange : msEpoch < saturate ((nowMs : Int).tdiv 1000 + 1) ↔
      1000 * msEpoch ≤ (nowMs : Int) := by
    rw [Int.tdiv_eq_ediv_of_nonneg (Int.natCast_nonneg nowMs)]
    unfold saturate msEpoch
    omega
  unfold pruneExpired
  rw [if_neg (not_le.mpr hpos)]
  dsimp only
  split
  · rename_i hlt
    exact ⟨fun _ => hrange.mp hlt, fun _ => ⟨_, rfl⟩⟩
  · rename_i hlt
    constructor
    · rintro ⟨t', heq⟩
      cases heq
    · intro hdate
      exact absurd (hrange.mpr hdate) hlt

theorem runIdForCheck_of_login {ts : Option Int} {id : String}
    (h : a.login = ⟨ts, some id⟩) (hid : id ≠ "") : a.runIdForCheck = id := by
  unfold Attempt.runIdForCheck
  rw [h, Option.filter_some, if_pos (by simpa using hid)]
  rfl

section Presented

variable {ts : Int} {id : String}
variable (hon : cfg.tokenAuthTimeout = true) (hpos : 0 < cfg.authenticationTimeout)
include hon hpos

theorem tracked_of_first (hms : msEpoch ≤ ts) (hid : id ≠ "")
    (hlogin : a.login = ⟨some ts, some id⟩)
    (haccepted : (t.checkTokenReplay cfg a).2 = .accepted) :
    Tracked ts id [] (t.step cfg a) := by
  have htimestamp : a.login.timestamp = some ts := by rw [hlogin]
  rw [step]
  cases hfresh : a.freshTimestamp cfg.authenticationTimeout with
  | none =>
    obtain ⟨e, he⟩ := checkTokenReplay_stale hon hpos htimestamp hfresh
    rw [he] at haccepted
    cases haccepted
  | some ts' =>
    have hsame := (Option.filter_eq_some_iff.mp hfresh).1
    rw [htimestamp] at hsame
    cases hsame
    rw [checkTokenReplay_fresh hon hpos hfresh, runIdForCheck_of_login hlogin hid] at *
    exact tracked_of_accepted hms haccepted

theorem refused_of_tracked (hms : msEpoch ≤ ts) (hid : id ≠ "")
    (hlogin : a.login = ⟨some ts, some id⟩) (htracked : Tracked ts id seen t)
    (hlive : Live cfg.authenticationTimeout ts a.tableClock) (hok : Undisturbed cfg ts t a)
    (hdate : (a.tableClock : Int) < 1000 * msEpoch) :
    exists e, (t.checkTokenReplay cfg a).2 = .rejected e := by
  have htimestamp : a.login.timestamp = some ts := by rw [hlogin]
  cases hfresh : a.freshTimestamp cfg.authenticationTimeout with
  | none =>
    obtain ⟨e, he⟩ := checkTokenReplay_stale hon hpos htimestamp hfresh
    exact ⟨e, by rw [he]⟩
  | some ts' =>
    have hsame := (Option.filter_eq_some_iff.mp hfresh).1
    rw [htimestamp] at hsame
    cases hsame
    rw [checkTokenReplay_fresh hon hpos hfresh, runIdForCheck_of_login hlogin hid]
    have hpast := hok.2 (by simp [hfresh])
    cases hprune : t.pruneExpired a.tableClock cfg.authenticationTimeout with
    | error t' =>
      have hpanic := (pruneExpired_panics_iff hpos a.tableClock).mp ⟨t', hprune⟩
      exact absurd hpanic (not_le.mpr hdate)
    | ok result =>
      obtain ⟨t', n⟩ := result
      have hget := (pruneExpired_get hms hlive hpast).2 t' n hprune
      rw [admitPair_duplicate hprune hms (htracked.of_get hget).mem]
      exact ⟨_, rfl⟩

theorem not_accepted_of_date (htimestamp : a.login.timestamp = some ts)
    (hdate : 1000 * msEpoch ≤ (a.tableClock : Int)) :
    (t.checkTokenReplay cfg a).2 ≠ .accepted := by
  intro haccepted
  cases hfresh : a.freshTimestamp cfg.authenticationTimeout with
  | none =>
    obtain ⟨e, he⟩ := checkTokenReplay_stale hon hpos htimestamp hfresh
    rw [he] at haccepted
    cases haccepted
  | some ts' =>
    obtain ⟨t', hprune⟩ := (pruneExpired_panics_iff hpos a.tableClock).mpr hdate
    rw [checkTokenReplay_fresh hon hpos hfresh] at haccepted
    unfold admitPair at haccepted
    rw [hprune] at haccepted
    cases haccepted

theorem refused_again {between : List Attempt} {first again : Attempt} {before : List Attempt}
    (hclock : ClockForward (before ++ (between ++ [again])))
    (hms : msEpoch ≤ ts) (hid : id ≠ "")
    (hfirst : first.login = ⟨some ts, some id⟩) (hagain : again.login = ⟨some ts, some id⟩)
    (hconsistent : t.Consistent) (haccepted : (t.checkTokenReplay cfg first).2 = .accepted)
    (hwindow : InWindow cfg.authenticationTimeout ts again.tableClock)
    (hok : Run.Along (fun t a => t.step cfg a) (Undisturbed cfg ts) (t.step cfg first)
      (between ++ [again]))
    (hcrowd : crowd id (acceptedAt cfg ts (t.step cfg first) between) < maxEntriesPerTimestamp)
    (hdate : (again.tableClock : Int) < 1000 * msEpoch) :
    exists e, ((Run.run (fun t a => t.step cfg a) (t.step cfg first) between).checkTokenReplay
      cfg again).2 = .rejected e := by
  have hlive := hwindow.live hms hdate
  obtain ⟨hbetween, hlast⟩ := Run.along_append.mp hok
  have htracked := tracked_of_first hon hpos hms hid hfirst haccepted
  have hrun := htracked.run hon hpos (hconsistent.step cfg first) hms
    (fun a ha => hlive.earlier (Int.ofNat_le.mpr (hclock.le_last ha))) hbetween
    (by rw [nil_append]; exact hcrowd)
  exact refused_of_tracked hon hpos hms hid hagain hrun hlive hlast.1 hdate

end Presented

/-- The table is consistent after every run, and recording a pair that is there evicts
nothing.  A pair that was accepted at a milliseconds timestamp is not accepted whenever it is
presented in the window again, as long as the table stays below its bound, the timestamp's
list is not crowded and no login finds the clock behind the timestamp.  It is refused unless
the clock has passed the last date, where the check panics. -/
theorem replay_protection (hon : cfg.tokenAuthTimeout = true)
    (hpos : 0 < cfg.authenticationTimeout) :
    (forall as, ClockForward as ->
      (Run.run (fun t a => t.step cfg a) new as).Consistent ∧
        forall ts id,
          id ∈ ((Run.run (fun t a => t.step cfg a) new as).map.get ts).getD [] ->
          ((Run.run (fun t a => t.step cfg a) new as).record ts id).1 =
            Run.run (fun t a => t.step cfg a) new as) ∧
    forall (before between : List Attempt) (first again : Attempt) (ts : Int) (id : String)
        (t : ReplayTable),
      ClockForward (before ++ [first] ++ (between ++ [again])) ->
      id ≠ "" -> msEpoch ≤ ts ->
      first.login = ⟨some ts, some id⟩ -> again.login = ⟨some ts, some id⟩ ->
      t = Run.run (fun t a => t.step cfg a) new before ->
      (t.checkTokenReplay cfg first).2 = .accepted ->
      InWindow cfg.authenticationTimeout ts again.tableClock ->
      Run.Along (fun t a => t.step cfg a) (Undisturbed cfg ts) (t.step cfg first)
        (between ++ [again]) ->
      crowd id (acceptedAt cfg ts (t.step cfg first) between) < maxEntriesPerTimestamp ->
      ((Run.run (fun t a => t.step cfg a) (t.step cfg first) between).checkTokenReplay
          cfg again).2 ≠ .accepted ∧
        ((again.tableClock : Int) < 1000 * msEpoch ->
          exists e,
            ((Run.run (fun t a => t.step cfg a) (t.step cfg first) between).checkTokenReplay
              cfg again).2 = .rejected e) := by
  constructor
  · intro as _
    refine ⟨consistent_of_run cfg as, ?_⟩
    intro ts id hmem
    rw [record_duplicate hmem]
  · intro before between first again ts id t hclock hid hms hfirst hagain ht haccepted hwindow
      hok hcrowd
    have hconsistent : t.Consistent := ht ▸ consistent_of_run cfg before
    have hrefused := refused_again hon hpos hclock hms hid hfirst hagain hconsistent haccepted
      hwindow hok hcrowd
    refine ⟨?_, hrefused⟩
    by_cases hdate : (again.tableClock : Int) < 1000 * msEpoch
    · obtain ⟨e, he⟩ := hrefused hdate
      rw [he]
      intro heq
      cases heq
    · exact not_accepted_of_date hon hpos (by rw [hagain]) (not_lt.mp hdate)

def sampleConfig : AuthConfig where
  tokenAuthTimeout := true
  authenticationTimeout := 900

/-- The run id `"r"` presented with the timestamp when the clock reads the time. -/
def sampleAttempt (ts : Int) (clock : Nat) : Attempt where
  login := ⟨some ts, some "r"⟩
  freshnessClock := clock
  tableClock := clock
  uuid := ""

theorem replay_protection_sample :
    exists e, ((new.step sampleConfig
      (sampleAttempt 1700000000000 1700000000100)).checkTokenReplay sampleConfig
        (sampleAttempt 1700000000000 1700000002000)).2 = .rejected e := by
  refine ((replay_protection rfl (by decide)).2 [] []
    (sampleAttempt 1700000000000 1700000000100) (sampleAttempt 1700000000000 1700000002000)
    1700000000000 "r" new ?_ ?_ ?_ rfl rfl rfl ?_ ?_ ?_ ?_).2 ?_
  · simp [ClockForward, readings, sampleAttempt]
  · decide
  · decide
  · decide +kernel
  · simp [InWindow, sampleConfig, sampleAttempt]
  · exact ⟨⟨by decide +kernel, fun _ => by decide⟩, trivial⟩
  · decide
  · decide

/-- A timestamp five seconds ahead of the clock is forgotten by the next login, so that the
pair is accepted twice within two seconds. -/
theorem early_timestamp_accepted_twice :
    ClockForward [sampleAttempt 1700000005000 1700000000000,
        sampleAttempt 1700000005000 1700000001000] ∧
      msEpoch ≤ 1700000005000 ∧
      (new.checkTokenReplay sampleConfig (sampleAttempt 1700000005000 1700000000000)).2 =
        .accepted ∧
      InWindow sampleConfig.authenticationTimeout 1700000005000 1700000001000 ∧
      (new.step sampleConfig (sampleAttempt 1700000005000 1700000000000)).total <
        maxTotalReplayEntries ∧
      ((new.step sampleConfig (sampleAttempt 1700000005000 1700000000000)).checkTokenReplay
        sampleConfig (sampleAttempt 1700000005000 1700000001000)).2 = .accepted := by
  refine ⟨?_, by decide, by decide +kernel, ?_, by decide +kernel, by decide +kernel⟩
  · simp [ClockForward, readings, sampleAttempt]
  · simp [InWindow, sampleConfig]

end ReplayTable
end Server
end FrpRs
