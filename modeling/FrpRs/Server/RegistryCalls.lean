import FrpRs.Server.ProxyIndexes
import FrpRs.Server.Registration

/-!
# What the registry calls do to the entries

The calls of the proxy registry, run by themselves, as updates of the map from names to
live proxies, and what the indexes say about it.
-/

namespace FrpRs
namespace Server

open List

namespace ProxyManager

@[simp] theorem get_complete (pm : ProxyManager) (steps : List IndexStep) (n : String) :
    (pm.complete steps).get n = pm.get n := by
  rw [get, complete_proxies]
  rfl

def Filled (pm : ProxyManager) : Prop :=
  forall g, pm.groups.lookup g ≠ some []

theorem filled_exec {pm : ProxyManager} (h : pm.Filled) (st : IndexStep) : (pm.exec st).Filled := by
  cases st with
  | leaveGroup name group =>
    simp only [exec, leaveGroup]
    split
    · exact h
    · split
      · intro g
        rw [Table.lookup_erase_eq]
        split
        · intro heq
          cases heq
        · exact h g
      · rename_i hrest
        intro g
        rw [Table.lookup_insert_eq]
        split
        · exact fun heq => hrest (Option.some.inj heq)
        · exact h g
  | joinGroup name group =>
    intro g
    simp only [exec, joinGroup]
    rw [Table.lookup_insert_eq]
    split
    · intro heq
      have hnil := Option.some.inj heq
      split at hnil
      · rename_i hmem
        rw [hnil] at hmem
        cases hmem
      · exact absurd hnil (append_ne_nil_of_right_ne_nil _ (cons_ne_nil name []))
    · exact h g
  | removeClientRow runId name =>
    simp only [exec, removeClientRow]
    split
    · exact h
    · exact h
  | insertClient runId name info => exact h
  | dropHealth names => exact h
  | resyncClients => exact h

theorem filled_complete {pm : ProxyManager} (h : pm.Filled) (steps : List IndexStep) :
    (pm.complete steps).Filled := by
  induction steps generalizing pm with
  | nil => exact h
  | cons st steps ih => exact ih (filled_exec h st)

/-- What a registration that goes through does to the entries. -/
structure Registered (pm : ProxyManager) (info : ProxyInfo) (pm' : ProxyManager)
    (replaced : Option ProxyInfo) : Prop where
  get_eq : forall n, pm'.get n = if n = info.name then some info else pm.get n
  replaced_eq : replaced = pm.get info.name
  qualified : forall old, replaced = some old -> qualified old info.runId info = true
  indexed : pm.Indexed -> pm'.Indexed
  filled : pm.Filled -> pm'.Filled

namespace Registered

variable {pm pm' : ProxyManager} {info : ProxyInfo} {replaced : Option ProxyInfo}

theorem get_self (h : pm.Registered info pm' replaced) : pm'.get info.name = some info := by
  rw [h.get_eq, if_pos rfl]

theorem get_of_ne (h : pm.Registered info pm' replaced) {n : String} (hn : n ≠ info.name) :
    pm'.get n = pm.get n := by
  rw [h.get_eq, if_neg hn]

end Registered

variable {info : ProxyInfo}

theorem registerInner_registered {pm pm' : ProxyManager} {replace : Bool} {steps : List IndexStep}
    {replaced : Option ProxyInfo}
    (h : pm.registerInner info.runId info replace = .ok (pm', steps, replaced)) :
    pm.Registered info (pm'.complete steps) replaced := by
  obtain ⟨hpm, _, hreplaced, hqualified⟩ := registerInner_ok h
  refine ⟨?_, hreplaced, hqualified, fun hindexed => hindexed.registerInner h, ?_⟩
  · intro n
    rw [get_complete, hpm, get, get, Table.lookup_insert_eq]
  · intro hfilled
    apply filled_complete
    rw [hpm]
    exact hfilled

theorem registerOrReplace_registered {pm pm' : ProxyManager} {replaced : Option ProxyInfo}
    (h : pm.registerOrReplace info = .ok (pm', replaced)) :
    pm.Registered info pm' replaced := by
  unfold registerOrReplace at h
  split at h
  · cases h
  · rename_i hinner
    cases h
    exact registerInner_registered hinner

theorem register_registered {pm pm' : ProxyManager} (h : pm.register info = .ok pm') :
    pm.Registered info pm' none ∧ pm.get info.name = none := by
  unfold register at h
  split at h
  · cases h
  · rename_i replaced hinner
    cases h
    have hnone : pm.get info.name = none := by
      unfold registerInner at hinner
      cases hlookup : pm.proxies.lookup info.name with
      | none => exact hlookup
      | some old =>
        rw [hlookup] at hinner
        cases hinner
    have hregistered := registerInner_registered hinner
    have hreplaced := hregistered.replaced_eq
    rw [hnone] at hreplaced
    rw [hreplaced] at hregistered
    exact ⟨hregistered, hnone⟩

theorem registerInner_error {pm : ProxyManager} {runId : String} {replace : Bool} {e : String}
    (h : pm.registerInner runId info replace = .error e) :
    exists old, pm.get info.name = some old ∧ (replace && qualified old runId info) = false := by
  unfold registerInner at h
  cases hlookup : pm.proxies.lookup info.name with
  | none =>
    rw [hlookup] at h
    cases h
  | some old =>
    rw [hlookup] at h
    dsimp only at h
    split at h
    · cases h
    · rename_i hnot
      exact ⟨old, hlookup, Bool.eq_false_iff.mpr hnot⟩

theorem get_removeWhen (test : ProxyInfo -> Bool) (pm : ProxyManager) (name n : String) :
    ((removeWhen test pm name).1.complete (removeWhen test pm name).2.1).get n =
      if n = name ∧ (pm.get name).any test then none else pm.get n := by
  rw [get_complete, removeWhen]
  cases hlookup : pm.proxies.lookup name with
  | none => simp [get, hlookup]
  | some info =>
    dsimp only
    have hget : pm.get name = some info := hlookup
    split
    · rename_i htest
      rw [hget, get, Table.lookup_erase_eq]
      simp [htest, get]
    · rename_i htest
      simp [hget, htest]

theorem get_remove (pm : ProxyManager) (name n : String) :
    (pm.remove name).1.get n = if n = name then none else pm.get n := by
  have h := get_removeWhen (fun _ => true) pm name n
  refine Eq.trans h ?_
  by_cases hn : n = name
  · subst hn
    cases hget : pm.get n with
    | none => simp
    | some info => simp
  · simp [hn]

theorem filled_removeWhen (test : ProxyInfo -> Bool) {pm : ProxyManager} (h : pm.Filled)
    (name : String) :
    ((removeWhen test pm name).1.complete (removeWhen test pm name).2.1).Filled := by
  apply filled_complete
  unfold removeWhen
  split
  · exact h
  · split
    · exact h
    · exact h

theorem Filled.remove {pm : ProxyManager} (h : pm.Filled) (name : String) :
    (pm.remove name).1.Filled :=
  filled_removeWhen _ h name

theorem Filled.removeIfControlId {pm : ProxyManager} (h : pm.Filled) (name : String)
    (controlId : Nat) : (pm.removeIfControlId name controlId).1.Filled :=
  filled_removeWhen _ h name

/-!
## A registration that is undone
-/

/-- The entries and the group index are as they were; the client keeps its row. -/
structure Restored (runId : String) (pm pm' : ProxyManager) : Prop where
  get_eq : forall n, pm'.get n = pm.get n
  row_eq : forall r n, pm'.row r n = pm.row r n
  members_eq : forall g, pm'.members g = pm.members g
  clients : forall r, r ≠ runId ->
    (pm'.byClient.lookup r).isSome = (pm.byClient.lookup r).isSome
  client : (pm.byClient.lookup runId).isSome = true -> (pm'.byClient.lookup runId).isSome = true

namespace Restored

variable {runId : String} {pm pm' pm'' : ProxyManager}

theorem refl (pm : ProxyManager) : Restored runId pm pm :=
  ⟨fun _ => rfl, fun _ _ => rfl, fun _ => rfl, fun _ _ => rfl, fun h => h⟩

theorem trans (h : Restored runId pm pm') (h' : Restored runId pm' pm'') :
    Restored runId pm pm'' where
  get_eq n := (h'.get_eq n).trans (h.get_eq n)
  row_eq r n := (h'.row_eq r n).trans (h.row_eq r n)
  members_eq g := (h'.members_eq g).trans (h.members_eq g)
  clients r hr := (h'.clients r hr).trans (h.clients r hr)
  client hrow := h'.client (h.client hrow)

theorem groups_eq (h : Restored runId pm pm') (hfilled : pm.Filled) (hfilled' : pm'.Filled)
    (g : String) : pm'.groups.lookup g = pm.groups.lookup g := by
  have hmembers := h.members_eq g
  unfold members at hmembers
  cases hlookup : pm.groups.lookup g with
  | none =>
    cases hlookup' : pm'.groups.lookup g with
    | none => rfl
    | some ms =>
      rw [hlookup, hlookup', Option.getD_some, Option.getD_none] at hmembers
      rw [hmembers] at hlookup'
      exact absurd hlookup' (hfilled' g)
  | some ms =>
    cases hlookup' : pm'.groups.lookup g with
    | none =>
      rw [hlookup, hlookup', Option.getD_some, Option.getD_none] at hmembers
      rw [← hmembers] at hlookup
      exact absurd hlookup (hfilled g)
    | some ms' =>
      rw [hlookup, hlookup', Option.getD_some, Option.getD_some] at hmembers
      rw [hmembers]

end Restored

def entered (pm : ProxyManager) (info : ProxyInfo) : ProxyManager :=
  ({ pm with proxies := pm.proxies.insert info.name info } : ProxyManager).complete
    (registerSteps none info.runId info)

theorem registerInner_free {pm : ProxyManager} (replace : Bool) (h : pm.get info.name = none) :
    pm.registerInner info.runId info replace =
      .ok ({ pm with proxies := pm.proxies.insert info.name info },
        registerSteps none info.runId info, none) := by
  unfold registerInner
  rw [show pm.proxies.lookup info.name = none from h]

theorem register_free {pm : ProxyManager} {info : ProxyInfo} (h : pm.get info.name = none) :
    pm.register info = .ok (pm.entered info) := by
  rw [register, registerInner_free false h]
  rfl

theorem registerOrReplace_free {pm : ProxyManager} (h : pm.get info.name = none) :
    pm.registerOrReplace info = .ok (pm.entered info, none) := by
  rw [registerOrReplace, registerInner_free true h]
  rfl

theorem byClient_leaveGroup (pm : ProxyManager) (name group : String) :
    (pm.leaveGroup name group).byClient = pm.byClient := by
  unfold leaveGroup
  split
  · rfl
  · dsimp only
    split
    · rfl
    · rfl

theorem isSome_removeClientRow (pm : ProxyManager) (runId name r : String) :
    ((pm.removeClientRow runId name).byClient.lookup r).isSome =
      (pm.byClient.lookup r).isSome := by
  unfold removeClientRow
  cases hlookup : pm.byClient.lookup runId with
  | none => rfl
  | some row =>
    rw [Table.lookup_insert_eq]
    split
    · rename_i hr
      rw [hr, hlookup]
      rfl
    · rfl

theorem get_entered (pm : ProxyManager) (info : ProxyInfo) (n : String) :
    (pm.entered info).get n = if n = info.name then some info else pm.get n := by
  unfold entered
  rw [get_complete, get, get, Table.lookup_insert_eq]

theorem row_entered (pm : ProxyManager) (info : ProxyInfo) (r n : String) :
    (pm.entered info).row r n =
      if r = info.runId ∧ n = info.name then some info else pm.row r n := by
  unfold entered registerSteps complete
  cases info.groupName with
  | none => exact row_insertClient _ _ _ _ _ _
  | some group => exact row_insertClient _ _ _ _ _ _

theorem isSome_entered (pm : ProxyManager) (info : ProxyInfo) (r : String) :
    ((pm.entered info).byClient.lookup r).isSome =
      if r = info.runId then true else (pm.byClient.lookup r).isSome := by
  have hinsert : forall pm' : ProxyManager, pm'.byClient = pm.byClient ->
      ((pm'.insertClient info.runId info.name info).byClient.lookup r).isSome =
        if r = info.runId then true else (pm.byClient.lookup r).isSome := by
    intro pm' heq
    unfold insertClient
    rw [heq, Table.lookup_insert_eq]
    split
    · rfl
    · rfl
  unfold entered registerSteps complete
  cases info.groupName with
  | none => exact hinsert _ rfl
  | some group => exact hinsert _ rfl

theorem members_entered (pm : ProxyManager) (info : ProxyInfo) (g : String) :
    (pm.entered info).members g =
      if info.groupName = some g then
        if info.name ∈ pm.members g then pm.members g else pm.members g ++ [info.name]
      else pm.members g := by
  unfold entered registerSteps complete
  cases info.groupName with
  | none => rfl
  | some group =>
    refine Eq.trans (members_joinGroup _ _ _ _) ?_
    by_cases hg : g = group
    · subst hg
      rw [if_pos rfl, if_pos rfl]
      rfl
    · rw [if_neg hg, if_neg fun h => hg (Option.some.inj h).symm]
      rfl

variable {name : String}

theorem remove_of_get {pm : ProxyManager} (h : pm.get name = some info) :
    (pm.remove name).1 =
      ({ pm with proxies := pm.proxies.erase name } : ProxyManager).complete
        (cleanupRemoved { pm with proxies := pm.proxies.erase name } name info) := by
  unfold remove removeStart removeWhen
  rw [show pm.proxies.lookup name = some info from h]
  rfl

theorem row_remove {pm : ProxyManager} (h : pm.get name = some info) (r n : String) :
    (pm.remove name).1.row r n =
      if r = info.runId ∧ n = name then none else pm.row r n := by
  rw [remove_of_get h, cleanupRemoved_erase]
  cases info.groupName with
  | none => exact row_removeClientRow _ _ _ _ _
  | some group =>
    refine Eq.trans (row_removeClientRow _ _ _ _ _) ?_
    congr 1
    show ((leaveGroup _ name group).byClient.lookup r).bind _ = _
    rw [byClient_leaveGroup]
    rfl

theorem isSome_remove {pm : ProxyManager} (h : pm.get name = some info) (r : String) :
    ((pm.remove name).1.byClient.lookup r).isSome = (pm.byClient.lookup r).isSome := by
  rw [remove_of_get h, cleanupRemoved_erase]
  cases info.groupName with
  | none => exact isSome_removeClientRow _ _ _ _
  | some group =>
    refine Eq.trans (isSome_removeClientRow _ _ _ _) ?_
    show ((leaveGroup _ name group).byClient.lookup r).isSome = _
    rw [byClient_leaveGroup]

theorem members_remove {pm : ProxyManager} (h : pm.get name = some info) (g : String) :
    (pm.remove name).1.members g =
      if info.groupName = some g then (pm.members g).filter fun n => n ≠ name
      else pm.members g := by
  have hrow : forall (pm' : ProxyManager) (runId : String),
      (pm'.removeClientRow runId name).members g = pm'.members g := by
    intro pm' runId
    unfold removeClientRow
    split
    · rfl
    · rfl
  rw [remove_of_get h, cleanupRemoved_erase]
  cases info.groupName with
  | none => exact hrow _ _
  | some group =>
    refine Eq.trans (hrow _ _) ?_
    show (leaveGroup _ name group).members g = _
    rw [members_leaveGroup]
    by_cases hg : g = group
    · subst hg
      rw [if_pos rfl, if_pos rfl]
      rfl
    · rw [if_neg hg, if_neg fun h => hg (Option.some.inj h).symm]
      rfl

theorem restored_entered_removed {pm : ProxyManager} {info : ProxyInfo} (h : pm.Indexed)
    (hfree : pm.get info.name = none) :
    Restored info.runId pm ((pm.entered info).remove info.name).1 ∧
      (((pm.entered info).remove info.name).1.byClient.lookup info.runId).isSome = true := by
  have hget : (pm.entered info).get info.name = some info := by
    rw [get_entered, if_pos rfl]
  refine ⟨⟨?_, ?_, ?_, ?_, ?_⟩, ?_⟩
  · intro n
    rw [get_remove, get_entered]
    split
    · rename_i hn
      rw [hn, hfree]
    · rfl
  · intro r n
    rw [row_remove hget, row_entered]
    split
    · rename_i hrn
      cases hr : pm.row r n with
      | none => rfl
      | some i =>
        have hlive := ((h.client_exact r n i).mp hr).1
        rw [hrn.2, show pm.proxies.lookup info.name = none from hfree] at hlive
        cases hlive
    · rfl
  · intro g
    rw [members_remove hget, members_entered]
    split
    · rename_i hg
      have hne : g ≠ "" := (ProxyInfo.groupName_eq_some.mp hg).2
      have hmem : info.name ∉ pm.members g := by
        intro hmem
        obtain ⟨i, hi, _⟩ := (h.group_exact g hne info.name).mp hmem
        rw [show pm.proxies.lookup info.name = none from hfree] at hi
        cases hi
      rw [if_neg hmem, filter_append, filter_eq_self.mpr]
      · simp
      · intro n hn
        rw [decide_eq_true_eq]
        rintro rfl
        exact hmem hn
    · rfl
  · intro r hr
    rw [isSome_remove hget, isSome_entered, if_neg hr]
  · intro _
    rw [isSome_remove hget, isSome_entered, if_pos rfl]
  · rw [isSome_remove hget, isSome_entered, if_pos rfl]

/-!
## Listing the entries
-/

theorem mem_list {pm : ProxyManager} (h : pm.Indexed) :
    info ∈ pm.list ↔ pm.get info.name = some info := by
  rw [list, mem_map]
  constructor
  · rintro ⟨⟨n, i⟩, hmem, rfl⟩
    have hlookup : pm.proxies.lookup n = some i := AList.mem_lookup_iff.mpr hmem
    have hname : i.name = n := h.named n i hlookup
    rw [get, hname]
    exact hlookup
  · intro hget
    exact ⟨⟨info.name, info⟩, AList.mem_lookup_iff.mp hget, rfl⟩

theorem named_of_get {pm : ProxyManager} (h : pm.Indexed) {n : String} (hget : pm.get n = some info) :
    info.name = n :=
  h.named n info hget

theorem mem_list_of_get {pm : ProxyManager} (h : pm.Indexed) {n : String}
    (hget : pm.get n = some info) : info ∈ pm.list := by
  rw [mem_list h, named_of_get h hget]
  exact hget

theorem mem_listClient {pm : ProxyManager} (h : pm.Indexed) {runId : String} :
    info ∈ pm.listClient runId ↔ pm.get info.name = some info ∧ info.runId = runId := by
  have hrow := h.client_exact runId info.name info
  rw [row] at hrow
  rw [get, ← hrow, listClient]
  cases hlookup : pm.byClient.lookup runId with
  | none => simp
  | some row =>
    rw [Option.map_some, Option.getD_some, Option.bind_some, mem_map]
    constructor
    · rintro ⟨⟨n, i⟩, hmem, rfl⟩
      have hi : row.lookup n = some i := AList.mem_lookup_iff.mpr hmem
      have hlive := (h.client_exact runId n i).mp (by
        rw [ProxyManager.row, hlookup]
        exact hi)
      rw [show i.name = n from h.named n i hlive.1]
      exact hi
    · intro hi
      exact ⟨⟨info.name, info⟩, AList.mem_lookup_iff.mp hi, rfl⟩

theorem mem_listClientProxyNames {pm : ProxyManager} (h : pm.Indexed) {runId n : String} :
    n ∈ pm.listClientProxyNames runId ↔ exists info, pm.get n = some info ∧ info.runId = runId := by
  have hrow := h.client_exact runId n
  simp only [row] at hrow
  rw [listClientProxyNames]
  cases hlookup : pm.byClient.lookup runId with
  | none =>
    simp only [hlookup, Option.bind_none] at hrow
    simp only [Option.map_none, Option.getD_none, not_mem_nil, false_iff]
    rintro ⟨info, hinfo⟩
    cases (hrow info).mpr hinfo
  | some row =>
    simp only [hlookup, Option.bind_some] at hrow
    constructor
    · intro hname
      obtain ⟨⟨m, i⟩, hmem, rfl⟩ := mem_map.mp hname
      exact ⟨i, (hrow i).mp (AList.mem_lookup_iff.mpr hmem)⟩
    · rintro ⟨info, hinfo⟩
      exact mem_map.mpr
        ⟨⟨n, info⟩, AList.mem_lookup_iff.mp ((hrow info).mpr hinfo), rfl⟩

/-!
## Counting a group
-/

theorem groupLen_pos {pm : ProxyManager} (h : pm.Indexed) {n g : String}
    (hget : pm.get n = some info) (hgroup : info.groupName = some g) : 0 < pm.groupLen g := by
  obtain ⟨hinfo, hg⟩ := ProxyInfo.groupName_eq_some.mp hgroup
  exact length_pos_of_mem ((h.group_exact g hg n).mpr ⟨info, hget, hinfo⟩)

theorem groupLen_eq_zero {pm : ProxyManager} (h : pm.Indexed) {g : String} (hg : g ≠ "")
    (hnone : forall n info, pm.get n = some info -> info.groupName ≠ some g) :
    pm.groupLen g = 0 := by
  rw [groupLen, length_eq_zero_iff, eq_nil_iff_forall_not_mem]
  intro n hmem
  obtain ⟨info, hinfo, hgroup⟩ := (h.group_exact g hg n).mp hmem
  exact hnone n info hinfo (ProxyInfo.groupName_eq_some.mpr ⟨hgroup, hg⟩)

theorem eq_of_groupLen_le_one {pm : ProxyManager} (h : pm.Indexed) {n m g : String}
    {info info' : ProxyInfo} (hlen : pm.groupLen g ≤ 1) (hget : pm.get n = some info)
    (hgroup : info.groupName = some g) (hget' : pm.get m = some info')
    (hgroup' : info'.groupName = some g) : m = n := by
  obtain ⟨hinfo, hg⟩ := ProxyInfo.groupName_eq_some.mp hgroup
  have hn : n ∈ pm.members g := (h.group_exact g hg n).mpr ⟨info, hget, hinfo⟩
  have hm : m ∈ pm.members g :=
    (h.group_exact g hg m).mpr ⟨info', hget', (ProxyInfo.groupName_eq_some.mp hgroup').1⟩
  obtain ⟨a, ha⟩ : exists a, pm.members g = [a] := by
    apply length_eq_one_iff.mp
    have hpos := length_pos_of_mem hn
    have hle : (pm.members g).length ≤ 1 := hlen
    omega
  rw [ha] at hn hm
  rw [mem_singleton.mp hn, mem_singleton.mp hm]

end ProxyManager
end Server
end FrpRs
