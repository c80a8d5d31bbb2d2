import FrpRs.Server.GroupDispatch
import Mathlib.Data.List.Rotate

/-!
# Load balancing within a group

`select_group_backend` of `frp-server/src/proxy.rs` over whole runs of calls of the registry.

While `health_tracking_active` is not set, the health of the members is not looked at.  Between
calls the flag is set whenever there is an entry, so that both ways pick from the same members.
-/

namespace FrpRs
namespace Server
namespace ProxyManager

open List

/-!
## Calls
-/

def removeBackendHealth (pm : ProxyManager) (name : String) : ProxyManager :=
  pm.dropHealth [name]

inductive Call where
  | register (info : ProxyInfo)
  | registerOrReplace (info : ProxyInfo)
  | updateRuntime (u : RuntimeUpdate)
  | remove (name : String)
  | removeIfControlId (name : String) (controlId : Nat)
  | removeClient (runId : String)
  | reportBackendSuccess (name : String)
  | reportBackendFailure (now : Nat) (name : String)
  | removeBackendHealth (name : String)
  | selectGroupBackend (now : Nat) (group groupKey : String)

/-- The registry after a whole call. -/
def call (pm : ProxyManager) : Call -> ProxyManager
  | .register info =>
    match pm.register info with
    | .ok pm' => pm'
    | .error _ => pm
  | .registerOrReplace info =>
    match pm.registerOrReplace info with
    | .ok (pm', _) => pm'
    | .error _ => pm
  | .updateRuntime u =>
    match pm.updateRuntime u with
    | .ok (pm', steps) => pm'.complete steps
    | .error _ => pm
  | .remove name => (pm.remove name).1
  | .removeIfControlId name controlId => (pm.removeIfControlId name controlId).1
  | .removeClient runId => (pm.removeClient runId).1.complete (pm.removeClient runId).2
  | .reportBackendSuccess name => pm.reportBackendSuccess name
  | .reportBackendFailure now name => pm.reportBackendFailure now name
  | .removeBackendHealth name => pm.removeBackendHealth name
  | .selectGroupBackend now group groupKey => (pm.selectGroupBackend now group groupKey).1

/-!
## The flag and the members
-/

def Tracked (pm : ProxyManager) : Prop :=
  pm.groupHealth.entries ≠ [] -> pm.healthTrackingActive = true

def Distinct (pm : ProxyManager) : Prop :=
  forall g, (pm.members g).Nodup

theorem tracked_of_eq {pm pm' : ProxyManager} (h : pm.Tracked)
    (hhealth : pm'.groupHealth = pm.groupHealth)
    (hactive : pm'.healthTrackingActive = pm.healthTrackingActive) : pm'.Tracked := by
  unfold Tracked
  rw [hhealth, hactive]
  exact h

theorem entries_foldl_erase {names : List String} {t : Table String GroupMemberHealth}
    (h : t.entries = []) : (names.foldl (fun t n => AList.erase n t) t).entries = [] := by
  induction names generalizing t with
  | nil => exact h
  | cons n names ih =>
    apply ih
    rw [Table.entries_erase_of_none]
    · exact h
    · rw [AList.lookup_eq_none, AList.mem_keys, AList.keys, h]
      exact not_mem_nil

theorem tracked_dropHealth {pm : ProxyManager} (h : pm.Tracked) (names : List String) :
    (pm.dropHealth names).Tracked := by
  unfold Tracked dropHealth
  dsimp only
  intro hsome
  rw [if_neg hsome]
  apply h
  intro hnone
  exact hsome (entries_foldl_erase hnone)

theorem tracked_exec {pm : ProxyManager} (h : pm.Tracked) (st : IndexStep) :
    (pm.exec st).Tracked := by
  cases st with
  | leaveGroup name group =>
    simp only [exec, leaveGroup]
    split
    · exact h
    · split
      · exact h
      · exact h
  | removeClientRow runId name =>
    simp only [exec, removeClientRow]
    split
    · exact h
    · exact h
  | dropHealth names => exact tracked_dropHealth h names
  | joinGroup name group => exact h
  | insertClient runId name info => exact h
  | resyncClients => exact h

theorem distinct_exec {pm : ProxyManager} (h : pm.Distinct) (st : IndexStep) :
    (pm.exec st).Distinct := by
  intro g
  cases st with
  | leaveGroup name group =>
    simp only [exec]
    rw [members_leaveGroup]
    split
    · exact (h g).filter _
    · exact h g
  | joinGroup name group =>
    simp only [exec]
    rw [members_joinGroup]
    split
    · split
      · exact h g
      · rename_i hnew
        rw [nodup_append]
        refine ⟨h g, nodup_singleton name, ?_⟩
        intro a ha b hb heq
        rw [mem_singleton.mp hb] at heq
        rw [heq] at ha
        exact hnew ha
    · exact h g
  | removeClientRow runId name =>
    simp only [exec, removeClientRow]
    split
    · exact h g
    · exact h g
  | insertClient runId name info => exact h g
  | dropHealth names => exact h g
  | resyncClients => exact h g

def Balanceable (pm : ProxyManager) : Prop :=
  pm.Tracked ∧ pm.Distinct

namespace Balanceable

variable {pm : ProxyManager}

theorem complete (h : pm.Balanceable) (steps : List IndexStep) :
    (pm.complete steps).Balanceable := by
  induction steps generalizing pm with
  | nil => exact h
  | cons st steps ih => exact ih ⟨tracked_exec h.1 st, distinct_exec h.2 st⟩

theorem registerInner {pm' : ProxyManager} {runId : String} {info : ProxyInfo} {replace : Bool}
    {steps : List IndexStep} {replaced : Option ProxyInfo} (h : pm.Balanceable)
    (hinner : pm.registerInner runId info replace = .ok (pm', steps, replaced)) :
    (pm'.complete steps).Balanceable := by
  rcases registerInner_ok hinner with ⟨hpm, _⟩
  apply complete
  rw [hpm]
  exact h

theorem removeWhen (h : pm.Balanceable) (test : ProxyInfo -> Bool) (name : String) :
    ((pm.removeWhen test name).1.complete (pm.removeWhen test name).2.1).Balanceable := by
  apply complete
  unfold ProxyManager.removeWhen
  split
  · exact h
  · split
    · exact h
    · exact h

theorem selectGroupBackend (h : pm.Balanceable) (now : Nat) (group groupKey : String) :
    (pm.selectGroupBackend now group groupKey).1.Balanceable := by
  unfold ProxyManager.selectGroupBackend
  split
  · exact h
  · split
    · exact h
    · split
      · exact h
      · exact h

theorem call (h : pm.Balanceable) (c : Call) : (pm.call c).Balanceable := by
  cases c with
  | register info =>
    rw [ProxyManager.call, ProxyManager.register]
    cases hinner : pm.registerInner info.runId info false with
    | error e => exact h
    | ok r => exact h.registerInner hinner
  | registerOrReplace info =>
    rw [ProxyManager.call, ProxyManager.registerOrReplace]
    cases hinner : pm.registerInner info.runId info true with
    | error e => exact h
    | ok r => exact h.registerInner hinner
  | updateRuntime u =>
    rw [ProxyManager.call]
    split
    · rename_i pm' steps hupdate
      rcases updateRuntime_ok hupdate with ⟨_, _, hpm, _⟩
      apply complete
      rw [hpm]
      exact h
    · exact h
  | remove name => exact h.removeWhen _ name
  | removeIfControlId name controlId => exact h.removeWhen _ name
  | removeClient runId =>
    apply complete
    unfold ProxyManager.removeClient
    split
    · exact h
    · exact h
  | reportBackendSuccess name =>
    rw [ProxyManager.call, ProxyManager.reportBackendSuccess]
    split
    · exact h
    · rename_i entry hentry
      refine ⟨fun _ => h.1 ?_, h.2⟩
      intro hnone
      rw [AList.lookup_eq_none.mpr] at hentry
      · cases hentry
      · rw [AList.mem_keys, AList.keys, hnone]
        exact not_mem_nil
  | reportBackendFailure now name => exact ⟨fun _ => rfl, h.2⟩
  | removeBackendHealth name => exact ⟨tracked_dropHealth h.1 [name], h.2⟩
  | selectGroupBackend now group groupKey => exact h.selectGroupBackend now group groupKey

theorem run (calls : List Call) : (Run.run ProxyManager.call new calls).Balanceable := by
  apply Run.run_preserves (fun pm c hpm => hpm.call c) calls
  refine ⟨fun habs => absurd rfl habs, fun g => ?_⟩
  exact nodup_nil

end Balanceable

/-!
## Members that take turns
-/

def coolingDown (now : Nat) (pm : ProxyManager) (member : String) : Bool :=
  (pm.groupHealth.lookup member).any fun h => !h.available now

def eligible (now : Nat) (pm : ProxyManager) (group : String) : List String :=
  let ready := (pm.members group).filter fun m => !pm.coolingDown now m
  if ready = [] then pm.members group else ready

theorem not_coolingDown (now : Nat) (pm : ProxyManager) (member : String) :
    (!pm.coolingDown now member) =
      ((pm.groupHealth.lookup member).map (GroupMemberHealth.available now)).getD true := by
  rw [coolingDown]
  cases pm.groupHealth.lookup member with
  | none => rfl
  | some h =>
    rw [Option.any_some, Bool.not_not]
    rfl

variable {now : Nat}

theorem pool_active {pm : ProxyManager} (h : pm.healthTrackingActive = true) (group : String) :
    pm.pool now (pm.members group) = pm.eligible now group := by
  rw [pool, eligible, if_pos h]
  simp only [not_coolingDown]

variable {group : String}

theorem eligible_of_ready {pm : ProxyManager}
    (h : forall m, m ∈ pm.members group -> pm.coolingDown now m = false) :
    pm.eligible now group = pm.members group := by
  have hall : ((pm.members group).filter fun m => !pm.coolingDown now m) = pm.members group := by
    apply filter_eq_self.mpr
    intro m hm
    rw [h m hm]
    rfl
  rw [eligible, hall]
  split
  · rfl
  · rfl

theorem Tracked.pool_eq {pm : ProxyManager} (h : pm.Tracked) (now : Nat) (group : String) :
    pm.pool now (pm.members group) = pm.eligible now group := by
  cases hactive : pm.healthTrackingActive with
  | true => exact pool_active hactive group
  | false =>
    have hempty : pm.groupHealth.entries = [] := by
      apply Decidable.of_not_not
      intro hsome
      rw [h hsome] at hactive
      cases hactive
    rw [eligible_of_ready, pool, hactive, if_neg Bool.false_ne_true]
    intro m _
    have hnone : pm.groupHealth.lookup m = none := by
      rw [AList.lookup_eq_none, AList.mem_keys, AList.keys, hempty]
      exact not_mem_nil
    rw [coolingDown, hnone]
    rfl

theorem eligible_ne_nil {now : Nat} {pm : ProxyManager} {group : String}
    (h : pm.members group ≠ []) : pm.eligible now group ≠ [] := by
  rw [eligible]
  split
  · exact h
  · assumption

def counter (pm : ProxyManager) (group : String) : Nat :=
  (pm.groupCounters.lookup group).getD 0

theorem selectGroupBackend_eq (now : Nat) (pm : ProxyManager) (group groupKey : String) :
    pm.selectGroupBackend now group groupKey =
      if pm.members group = [] then (pm, none)
      else if groupKey ≠ "" then
        (pm, (pm.pool now (pm.members group))[(keyHash groupKey).toNat %
          (pm.pool now (pm.members group)).length]?)
      else
        ({ pm with groupCounters := pm.groupCounters.insert group (pm.counter group + 1) },
          (pm.pool now (pm.members group))[pm.counter group %
            (pm.pool now (pm.members group)).length]?) := by
  rw [selectGroupBackend, members]
  cases pm.groups.lookup group with
  | none => rw [Option.getD_none, if_pos rfl]
  | some members => rfl

def turn (pm : ProxyManager) (group groupKey : String) : Nat :=
  if groupKey ≠ "" then (keyHash groupKey).toNat else pm.counter group

theorem selectGroupBackend_snd (now : Nat) (pm : ProxyManager) (group groupKey : String) :
    (pm.selectGroupBackend now group groupKey).2 =
      (pm.pool now (pm.members group))[pm.turn group groupKey %
        (pm.pool now (pm.members group)).length]? := by
  rw [selectGroupBackend_eq, turn]
  split
  · rename_i hnone
    have hempty : pm.pool now (pm.members group) = [] := by
      rw [hnone, pool]
      split
      · rfl
      · rfl
    rw [hempty]
    rfl
  · split
    · rfl
    · rfl

theorem Tracked.selectGroupBackend_snd {pm : ProxyManager} (h : pm.Tracked) (now : Nat)
    (group groupKey : String) :
    (pm.selectGroupBackend now group groupKey).2 =
      (pm.eligible now group)[pm.turn group groupKey % (pm.eligible now group).length]? := by
  rw [ProxyManager.selectGroupBackend_snd, h.pool_eq]

def withTracking (pm : ProxyManager) (active : Bool) : ProxyManager :=
  { pm with healthTrackingActive := active }

theorem counter_selectGroupBackend (now : Nat) (pm : ProxyManager) (group groupKey g : String) :
    (pm.selectGroupBackend now group groupKey).1.counter g =
      if g = group ∧ groupKey = "" ∧ pm.members g ≠ [] then pm.counter g + 1
      else pm.counter g := by
  rw [selectGroupBackend_eq]
  by_cases hg : g = group
  · rw [hg]
    split
    · rename_i hnone
      rw [if_neg fun h => h.2.2 hnone]
    · rename_i hsome
      split
      · rename_i hkey
        rw [if_neg fun h => hkey h.2.1]
      · rename_i hkey
        rw [if_pos ⟨rfl, Decidable.of_not_not hkey, hsome⟩, counter, Table.lookup_insert_eq,
          if_pos rfl]
        rfl
  · have hother : ¬ (g = group ∧ groupKey = "" ∧ pm.members g ≠ []) := fun h => hg h.1
    split
    · rfl
    · split
      · rfl
      · rw [counter, Table.lookup_insert_eq, if_neg hg]
        rfl

/-- A call of `select_group_backend`. -/
structure Selection where
  now : Nat
  group : String
  groupKey : String

/-- The answers to the calls for one group and key, among calls for others. -/
def served (group groupKey : String) : ProxyManager -> List Selection -> List (Option String)
  | _, [] => []
  | pm, c :: cs =>
    let r := pm.selectGroupBackend c.now c.group c.groupKey
    if c.group = group ∧ c.groupKey = groupKey then r.2 :: served group groupKey r.1 cs
    else served group groupKey r.1 cs

def Steady (pm : ProxyManager) (group : String) (now : Nat) (cs : List Selection) : Prop :=
  forall c, c ∈ cs -> forall m, m ∈ pm.members group ->
    pm.coolingDown c.now m = pm.coolingDown now m

def SameHealth (pm pm' : ProxyManager) : Prop :=
  pm'.groups = pm.groups ∧ pm'.groupHealth = pm.groupHealth ∧
    pm'.healthTrackingActive = pm.healthTrackingActive

theorem sameHealth_selectGroupBackend (now : Nat) (pm : ProxyManager) (group groupKey : String) :
    pm.SameHealth (pm.selectGroupBackend now group groupKey).1 := by
  rw [selectGroupBackend_eq]
  split
  · exact ⟨rfl, rfl, rfl⟩
  · split
    · exact ⟨rfl, rfl, rfl⟩
    · exact ⟨rfl, rfl, rfl⟩

namespace SameHealth

variable {pm pm' : ProxyManager}

theorem members_eq (h : pm.SameHealth pm') (group : String) :
    pm'.members group = pm.members group := by
  rw [members, h.1]
  rfl

theorem coolingDown_eq (h : pm.SameHealth pm') (now : Nat) (m : String) :
    pm'.coolingDown now m = pm.coolingDown now m := by
  rw [coolingDown, h.2.1]
  rfl

theorem tracked (h : pm.SameHealth pm') (htracked : pm.Tracked) : pm'.Tracked :=
  tracked_of_eq htracked h.2.1 h.2.2

theorem eligible_eq (h : pm.SameHealth pm') (now : Nat) (group : String) :
    pm'.eligible now group = pm.eligible now group := by
  rw [eligible, eligible, h.members_eq]
  simp only [h.coolingDown_eq]

theorem steady (h : pm.SameHealth pm') {cs : List Selection} (hsteady : pm.Steady group now cs) :
    pm'.Steady group now cs := by
  intro c hc m hm
  rw [h.coolingDown_eq, h.coolingDown_eq]
  rw [h.members_eq] at hm
  exact hsteady c hc m hm

end SameHealth

variable {cs : List Selection}

theorem Steady.eligible_eq {pm : ProxyManager} (h : pm.Steady group now cs) {c : Selection}
    (hc : c ∈ cs) :
    pm.eligible c.now group = pm.eligible now group := by
  have hready : ((pm.members group).filter fun m => !pm.coolingDown c.now m) =
      (pm.members group).filter fun m => !pm.coolingDown now m := by
    apply filter_congr
    intro m hm
    rw [h c hc m hm]
  rw [eligible, eligible, hready]

theorem Steady.tail {pm : ProxyManager} {c : Selection} (h : pm.Steady group now (c :: cs)) :
    pm.Steady group now cs :=
  fun c' hc => h c' (mem_cons_of_mem c hc)

/-!
## Whole runs
-/

theorem served_turns {pm : ProxyManager} (htracked : pm.Tracked) (hsteady : pm.Steady group now cs)
    (hmembers : pm.members group ≠ []) :
    forall i, i < (served group "" pm cs).length ->
      (served group "" pm cs)[i]? = some
        ((pm.eligible now group)[(i + pm.counter group) % (pm.eligible now group).length]?) := by
  induction cs generalizing pm with
  | nil =>
    intro i hi
    exact absurd hi (Nat.not_lt_zero i)
  | cons c cs ih =>
    have hsame := sameHealth_selectGroupBackend c.now pm c.group c.groupKey
    have hcounter := counter_selectGroupBackend c.now pm c.group c.groupKey group
    have hrest := ih (hsame.tracked htracked) (hsame.steady hsteady.tail)
      (by rw [hsame.members_eq]; exact hmembers)
    rw [hsame.eligible_eq] at hrest
    rw [served]
    by_cases hours : c.group = group ∧ c.groupKey = ""
    · rw [if_pos hours]
      rw [if_pos ⟨hours.1.symm, hours.2, hmembers⟩] at hcounter
      intro i hi
      cases i with
      | zero =>
        rw [getElem?_cons_zero, htracked.selectGroupBackend_snd, hours.1, hours.2, turn,
          if_neg fun h => h rfl, hsteady.eligible_eq mem_cons_self, Nat.zero_add]
      | succ i =>
        rw [getElem?_cons_succ, hrest i (Nat.lt_of_succ_lt_succ hi), hcounter]
        congr 3
        omega
    · rw [if_neg hours]
      rw [if_neg fun h => hours ⟨h.1.symm, h.2.1⟩] at hcounter
      rw [hcounter] at hrest
      exact hrest

theorem served_key {pm : ProxyManager} (htracked : pm.Tracked) {group groupKey : String}
    (hkey : groupKey ≠ "") (hsteady : pm.Steady group now cs) :
    forall r, r ∈ served group groupKey pm cs -> r = (pm.eligible now group)[
      (keyHash groupKey).toNat % (pm.eligible now group).length]? := by
  induction cs generalizing pm with
  | nil =>
    intro r hr
    cases hr
  | cons c cs ih =>
    have hsame := sameHealth_selectGroupBackend c.now pm c.group c.groupKey
    have hrest := ih (hsame.tracked htracked) (hsame.steady hsteady.tail)
    rw [hsame.eligible_eq] at hrest
    rw [served]
    by_cases hours : c.group = group ∧ c.groupKey = groupKey
    · rw [if_pos hours]
      intro r hr
      rcases mem_cons.mp hr with heq | hr
      · rw [heq, htracked.selectGroupBackend_snd, hours.1, hours.2, turn, if_pos hkey,
          hsteady.eligible_eq mem_cons_self]
      · exact hrest r hr
    · rw [if_neg hours]
      exact hrest

theorem nodup_eligible {pm : ProxyManager} (h : pm.Distinct) (now : Nat) (group : String) :
    (pm.eligible now group).Nodup := by
  rw [eligible]
  split
  · exact h group
  · exact (h group).filter _

theorem served_perm {pm : ProxyManager} (htracked : pm.Tracked) (hsteady : pm.Steady group now cs)
    (hlength : (served group "" pm cs).length = (pm.eligible now group).length) :
    (served group "" pm cs).Perm ((pm.eligible now group).map some) := by
  have hrotated : served group "" pm cs =
      ((pm.eligible now group).rotate (pm.counter group)).map some := by
    apply ext_getElem?
    intro i
    by_cases hi : i < (served group "" pm cs).length
    · have hmembers : pm.members group ≠ [] := by
        intro hnone
        have hempty : pm.eligible now group = [] := by
          rw [eligible, hnone]
          rfl
        rw [hlength, hempty] at hi
        exact absurd hi (Nat.not_lt_zero i)
      rw [served_turns htracked hsteady hmembers i hi, getElem?_map,
        getElem?_rotate (hlength ▸ hi)]
      have hpos : 0 < (pm.eligible now group).length := by omega
      rw [getElem?_eq_getElem (Nat.mod_lt _ hpos)]
      rfl
    · have hout := Nat.le_of_not_lt hi
      rw [getElem?_eq_none hout, getElem?_eq_none]
      rw [length_map, length_rotate, ← hlength]
      exact hout
  rw [hrotated]
  exact ((pm.eligible now group).rotate_perm (pm.counter group)).map some

theorem coolingDown_of_eligible {pm : ProxyManager} {group b : String}
    (hb : b ∈ pm.eligible now group) (hcooling : pm.coolingDown now b = true) :
    forall m, m ∈ pm.members group -> pm.coolingDown now m = true := by
  intro m hm
  rw [eligible] at hb
  split at hb
  · rename_i hnone
    have hnot := filter_eq_nil_iff.mp hnone m hm
    simpa using hnot
  · have hready := (mem_filter.mp hb).2
    rw [hcooling] at hready
    cases hready

theorem selectGroupBackend_paths {pm : ProxyManager}
    (h : forall m, m ∈ pm.members group -> pm.coolingDown now m = false) (groupKey : String) :
    ((pm.withTracking true).selectGroupBackend now group groupKey).2 =
      ((pm.withTracking false).selectGroupBackend now group groupKey).2 := by
  have hslow : (pm.withTracking true).pool now ((pm.withTracking true).members group) =
      pm.members group :=
    (pool_active rfl group).trans (eligible_of_ready h)
  have hfast : (pm.withTracking false).pool now ((pm.withTracking false).members group) =
      pm.members group := rfl
  rw [selectGroupBackend_snd, selectGroupBackend_snd, hslow, hfast]
  rfl

/-- After any calls of the registry: as many calls without a key as there are members that are
not cooling down get each of them once, calls with a key get one member, a member that is cooling
down is picked only if all are, and the two paths agree while none is. -/
theorem group_selection (calls : List Call) (group : String) :
    (forall now cs, (Run.run call new calls).Steady group now cs ->
      (served group "" (Run.run call new calls) cs).length =
        ((Run.run call new calls).eligible now group).length ->
      (served group "" (Run.run call new calls) cs).Perm
          (((Run.run call new calls).eligible now group).map some) ∧
        ((Run.run call new calls).eligible now group).Nodup) ∧
    (forall now cs groupKey, groupKey ≠ "" -> (Run.run call new calls).members group ≠ [] ->
      (Run.run call new calls).Steady group now cs ->
      exists b, b ∈ (Run.run call new calls).eligible now group ∧
        forall r, r ∈ served group groupKey (Run.run call new calls) cs -> r = some b) ∧
    (forall now groupKey b,
      ((Run.run call new calls).selectGroupBackend now group groupKey).2 = some b ->
      (Run.run call new calls).coolingDown now b = true ->
      forall m, m ∈ (Run.run call new calls).members group ->
        (Run.run call new calls).coolingDown now m = true) ∧
    (forall now groupKey,
      (forall m, m ∈ (Run.run call new calls).members group ->
        (Run.run call new calls).coolingDown now m = false) ->
      (((Run.run call new calls).withTracking true).selectGroupBackend now group groupKey).2 =
        (((Run.run call new calls).withTracking false).selectGroupBackend now group
          groupKey).2) := by
  have h := Balanceable.run calls
  generalize Run.run call new calls = pm at h
  refine ⟨?_, ?_, ?_, ?_⟩
  · intro now cs hsteady hlength
    exact ⟨served_perm h.1 hsteady hlength, nodup_eligible h.2 now group⟩
  · intro now cs groupKey hkey hmembers hsteady
    have hpos := length_pos_of_ne_nil (@eligible_ne_nil now pm group hmembers)
    have hplace := Nat.mod_lt (keyHash groupKey).toNat hpos
    refine ⟨_, getElem_mem hplace, ?_⟩
    intro r hr
    rw [served_key h.1 hkey hsteady r hr, getElem?_eq_getElem hplace]
  · intro now groupKey b hb hcooling
    rw [h.1.selectGroupBackend_snd] at hb
    exact coolingDown_of_eligible (mem_of_getElem? hb) hcooling
  · intro now groupKey hready
    exact selectGroupBackend_paths hready groupKey

def groupMember (name : String) : ProxyInfo where
  name := name
  proxyType := .tcp
  runId := "r"
  controlId := 1
  remotePort := some 7000
  sk := none
  group := some "g"
  groupKey := none
  bandwidthLimit := ""
  bandwidthLimitMode := ""

/-- Three members, and failures of one of them. -/
def failingMember : List Call :=
  [.register (groupMember "a"), .register (groupMember "b"), .register (groupMember "c"),
    .selectGroupBackend 0 "g" ""] ++ replicate 3 (.reportBackendFailure 1 "b")

theorem group_selection_failing :
    (served "g" "" (Run.run call new failingMember) [⟨2, "g", ""⟩, ⟨2, "h", ""⟩, ⟨3, "g", ""⟩]).Perm
        [some "a", some "c"] ∧
      exists b, b ∈ ["a", "c"] ∧ forall r,
        r ∈ served "g" "k" (Run.run call new failingMember) [⟨2, "g", "k"⟩, ⟨3, "g", "k"⟩] ->
          r = some b := by
  have heligible : (Run.run call new failingMember).eligible 2 "g" = ["a", "c"] := by
    decide +kernel
  have hsteady : (Run.run call new failingMember).Steady "g" 2
      [⟨2, "g", ""⟩, ⟨2, "h", ""⟩, ⟨3, "g", ""⟩] ∧
      (Run.run call new failingMember).Steady "g" 2 [⟨2, "g", "k"⟩, ⟨3, "g", "k"⟩] := by
    unfold Steady
    decide +kernel
  obtain ⟨hround, hkey, _⟩ := group_selection failingMember "g"
  have hturns := (hround 2 _ hsteady.1 (by decide +kernel)).1
  have hone := hkey 2 _ "k" (by decide) (by decide +kernel) hsteady.2
  rw [heligible] at hturns hone
  exact ⟨hturns, hone⟩

end ProxyManager
end Server
end FrpRs
