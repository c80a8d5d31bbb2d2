import FrpRs.Server.ProxyManager

/-!
# The indexes of the proxy registry

Calls run concurrently and give way to one another wherever they await a lock.  A task is
the list of index updates a call still owes; a step of the system starts a call or runs
the next update of one task.

An update may be overtaken: by the time it gets its lock the entry it was made for can be
replaced or gone, and a name it clears can be live again.  While no update is overtaken in
this way the indexes are exact whenever no call is under way.
-/

namespace FrpRs
namespace Server

open List

open ProxyManager (RuntimeUpdate)

/-- A call with its arguments.  The run id given to a registration is the one of its
entry, as in every call of the server. -/
inductive RegistryOp where
  | register (info : ProxyInfo) (replace : Bool)
  | updateRuntime (u : RuntimeUpdate)
  | remove (name : String)
  | removeIfControlId (name : String) (controlId : Nat)
  | removeClient (runId : String)

inductive RegistryEvent where
  | start (op : RegistryOp)
  | advance (task : Nat)

/-- The registry and the calls under way. -/
structure RegistrySystem where
  pm : ProxyManager
  tasks : List (List IndexStep)

namespace ProxyManager

/-- The primary map after a call has begun, and the updates it owes. -/
def begin (pm : ProxyManager) : RegistryOp -> ProxyManager × List IndexStep
  | .register info replace =>
    match pm.registerInner info.runId info replace with
    | .ok (pm, steps, _) => (pm, steps)
    | .error _ => (pm, [])
  | .updateRuntime u =>
    match pm.updateRuntime u with
    | .ok (pm, steps) => (pm, steps)
    | .error _ => (pm, [])
  | .remove name => ((pm.removeStart name).1, (pm.removeStart name).2.1)
  | .removeIfControlId name controlId =>
    ((pm.removeIfControlIdStart name controlId).1,
      (pm.removeIfControlIdStart name controlId).2.1)
  | .removeClient runId => pm.removeClient runId

end ProxyManager

namespace RegistrySystem

def init : RegistrySystem where
  pm := ProxyManager.new
  tasks := []

def step (s : RegistrySystem) : RegistryEvent -> RegistrySystem
  | .start op =>
    { pm := (s.pm.begin op).1, tasks := s.tasks ++ [(s.pm.begin op).2] }
  | .advance i =>
    match s.tasks[i]? with
    | some (st :: rest) => { pm := s.pm.exec st, tasks := s.tasks.set i rest }
    | _ => s

def Quiet (s : RegistrySystem) : Prop :=
  forall task, task ∈ s.tasks -> task = []

end RegistrySystem

namespace ProxyManager

def InGroup (pm : ProxyManager) (name group : String) : Prop :=
  exists info, pm.proxies.lookup name = some info ∧ info.group = some group

def OfClient (pm : ProxyManager) (name runId : String) : Prop :=
  exists info, pm.proxies.lookup name = some info ∧ info.runId = runId

instance (pm : ProxyManager) (name group : String) : Decidable (pm.InGroup name group) :=
  decidable_of_iff ((pm.proxies.lookup name).bind ProxyInfo.group = some group) (by
    rw [Option.bind_eq_some_iff]
    rfl)

instance (pm : ProxyManager) (name runId : String) : Decidable (pm.OfClient name runId) :=
  decidable_of_iff ((pm.proxies.lookup name).map ProxyInfo.runId = some runId) (by
    rw [Option.map_eq_some_iff]
    rfl)

/-- The group index lists the live proxies of each group once, and the client index maps
the names of each client's live proxies to their entries. -/
structure Indexed (pm : ProxyManager) : Prop where
  group_once : forall g, (pm.members g).Nodup
  group_exact : forall g, g ≠ "" -> forall n, n ∈ pm.members g ↔ pm.InGroup n g
  client_exact : forall r n info,
    pm.row r n = some info ↔ pm.proxies.lookup n = some info ∧ info.runId = r
  named : forall n info, pm.proxies.lookup n = some info -> info.name = n

/-- Moreover no client's row is left empty. -/
structure Consistent (pm : ProxyManager) : Prop extends pm.Indexed where
  no_empty_row : forall r row, pm.byClient.lookup r = some row -> row.entries ≠ []

/-!
## Updates that still agree with the primary map
-/

/-- The update writes or clears what the primary map says at that time. -/
def Agrees (pm : ProxyManager) : IndexStep -> Prop
  | .leaveGroup name group => ¬ pm.InGroup name group
  | .joinGroup name group => pm.InGroup name group
  | .insertClient _ name info => pm.proxies.lookup name = some info
  | .removeClientRow runId name => ¬ pm.OfClient name runId
  | .dropHealth _ => True
  | .resyncClients => True

def LeavesName (pm : ProxyManager) : IndexStep -> Prop
  | .removeClientRow runId name =>
    forall row, pm.byClient.lookup runId = some row -> (row.erase name).entries ≠ []
  | _ => True

instance (pm : ProxyManager) : (st : IndexStep) -> Decidable (pm.Agrees st)
  | .leaveGroup name group => inferInstanceAs (Decidable (¬ pm.InGroup name group))
  | .joinGroup name group => inferInstanceAs (Decidable (pm.InGroup name group))
  | .insertClient _ name info =>
    inferInstanceAs (Decidable (pm.proxies.lookup name = some info))
  | .removeClientRow runId name => inferInstanceAs (Decidable (¬ pm.OfClient name runId))
  | .dropHealth _ => isTrue trivial
  | .resyncClients => isTrue trivial

instance (pm : ProxyManager) : (st : IndexStep) -> Decidable (pm.LeavesName st)
  | .removeClientRow runId name =>
    decidable_of_iff
      (((pm.byClient.lookup runId).map fun row => (row.erase name).entries) ≠ some []) (by
        show _ ↔ forall row, pm.byClient.lookup runId = some row -> (row.erase name).entries ≠ []
        cases pm.byClient.lookup runId with
        | none => simp
        | some row => simp)
  | .leaveGroup _ _ => isTrue trivial
  | .joinGroup _ _ => isTrue trivial
  | .insertClient _ _ _ => isTrue trivial
  | .dropHealth _ => isTrue trivial
  | .resyncClients => isTrue trivial

/-- Every difference between an index and the primary map is owed: some update is still to
come that settles it. -/
structure Tracks (pm : ProxyManager) (owes : IndexStep -> Prop) : Prop where
  row_live : forall r n info, pm.row r n = some info ->
    (pm.proxies.lookup n = some info ∧ info.runId = r) ∨
      owes (.removeClientRow r n) ∨ exists info', owes (.insertClient r n info')
  live_row : forall n info, pm.proxies.lookup n = some info ->
    pm.row info.runId n = some info ∨ owes (.insertClient info.runId n info)
  member_live : forall g, g ≠ "" -> forall n, n ∈ pm.members g ->
    pm.InGroup n g ∨ owes (.leaveGroup n g) ∨ owes (.joinGroup n g) ∨
      exists r info, owes (.insertClient r n info) ∧ info.group = some g
  live_member : forall g, g ≠ "" -> forall n, pm.InGroup n g ->
    n ∈ pm.members g ∨ owes (.joinGroup n g)
  members_once : forall g, (pm.members g).Nodup
  named : forall n info, pm.proxies.lookup n = some info -> info.name = n
  row_named : forall r n info, pm.row r n = some info -> info.name = n
  owed_named : forall r n info, owes (.insertClient r n info) -> info.name = n ∧ info.runId = r

namespace Tracks

theorem new (owes : IndexStep -> Prop)
    (hnone : forall st, ¬ owes st) : ProxyManager.new.Tracks owes where
  row_live r n info h := by cases h
  live_row n info h := by cases h
  member_live g _ n h := by cases h
  live_member g _ n h := by
    obtain ⟨info, hinfo, _⟩ := h
    cases hinfo
  members_once g := nodup_nil
  named n info h := by cases h
  row_named r n info h := by cases h
  owed_named _ _ _ h := absurd h (hnone _)

theorem indexed {pm : ProxyManager} {owes : IndexStep -> Prop} (h : pm.Tracks owes)
    (hnone : forall st, ¬ owes st) : pm.Indexed where
  group_once := h.members_once
  group_exact g hg n := by
    constructor
    · intro hmem
      rcases h.member_live g hg n hmem with hlive | howed | howed | ⟨r, info, howed, _⟩
      · exact hlive
      · exact absurd howed (hnone _)
      · exact absurd howed (hnone _)
      · exact absurd howed (hnone _)
    · intro hlive
      rcases h.live_member g hg n hlive with hmem | howed
      · exact hmem
      · exact absurd howed (hnone _)
  client_exact r n info := by
    constructor
    · intro hrow
      rcases h.row_live r n info hrow with hlive | howed | ⟨info', howed⟩
      · exact hlive
      · exact absurd howed (hnone _)
      · exact absurd howed (hnone _)
    · rintro ⟨hlive, rfl⟩
      rcases h.live_row n info hlive with hrow | howed
      · exact hrow
      · exact absurd howed (hnone _)
  named := h.named

theorem of_indexed {pm : ProxyManager} (h : pm.Indexed) (owes : IndexStep -> Prop)
    (hnone : forall st, ¬ owes st) : pm.Tracks owes where
  row_live r n info hrow := .inl ((h.client_exact r n info).mp hrow)
  live_row n info hlive := .inl ((h.client_exact info.runId n info).mpr ⟨hlive, rfl⟩)
  member_live g hg n hmem := .inl ((h.group_exact g hg n).mp hmem)
  live_member g hg n hlive := .inl ((h.group_exact g hg n).mpr hlive)
  members_once := h.group_once
  named := h.named
  row_named r n info hrow := h.named n info ((h.client_exact r n info).mp hrow).1
  owed_named _ _ _ howed := absurd howed (hnone _)

/-!
## Running an update
-/

section Exec

variable {pm : ProxyManager} {owes owes' : IndexStep -> Prop} {st : IndexStep}

theorem row_exec_other (pm : ProxyManager) (hinsert : forall r n info, st ≠ .insertClient r n info)
    (hremove : forall r n, st ≠ .removeClientRow r n) (hsync : st ≠ .resyncClients) (r n : String) :
    (pm.exec st).row r n = pm.row r n := by
  cases st with
  | leaveGroup name group =>
    simp only [exec, leaveGroup]
    split
    · rfl
    · split <;> rfl
  | joinGroup name group => rfl
  | insertClient runId name info => exact absurd rfl (hinsert runId name info)
  | removeClientRow runId name => exact absurd rfl (hremove runId name)
  | dropHealth names => rfl
  | resyncClients => exact absurd rfl hsync

theorem inGroup_exec (pm : ProxyManager) (st : IndexStep) (n g : String) :
    (pm.exec st).InGroup n g ↔ pm.InGroup n g := by
  unfold InGroup
  rw [exec_proxies]

/-- The group half: the group index after an update that agrees with the primary map. -/
theorem member_live_exec (h : pm.Tracks owes) (hagrees : pm.Agrees st)
    (hrest : forall x, owes x -> x = st ∨ owes' x) {g : String} (hg : g ≠ "") {n : String}
    (hmem : n ∈ (pm.exec st).members g) :
    pm.InGroup n g ∨ owes' (.leaveGroup n g) ∨ owes' (.joinGroup n g) ∨
      exists r info, owes' (.insertClient r n info) ∧ info.group = some g := by
  have hkept : n ∈ pm.members g -> (st = .leaveGroup n g -> False) ->
      pm.InGroup n g ∨ owes' (.leaveGroup n g) ∨ owes' (.joinGroup n g) ∨
        exists r info, owes' (.insertClient r n info) ∧ info.group = some g := by
    intro hold hnot
    rcases h.member_live g hg n hold with hlive | howed | howed | ⟨r, info, howed, hgroup⟩
    · exact .inl hlive
    · rcases hrest _ howed with heq | howed
      · exact absurd heq.symm hnot
      · exact .inr (.inl howed)
    · rcases hrest _ howed with heq | howed
      · rw [← heq] at hagrees
        exact .inl hagrees
      · exact .inr (.inr (.inl howed))
    · rcases hrest _ howed with heq | howed
      · rw [← heq] at hagrees
        exact .inl ⟨info, hagrees, hgroup⟩
      · exact .inr (.inr (.inr ⟨r, info, howed, hgroup⟩))
  cases st with
  | leaveGroup name group =>
    rw [exec, members_leaveGroup] at hmem
    by_cases hsame : g = group
    · rw [if_pos hsame] at hmem
      have hfilter := mem_filter.mp hmem
      refine hkept hfilter.1 ?_
      intro heq
      cases heq
      simp at hfilter
    · rw [if_neg hsame] at hmem
      refine hkept hmem ?_
      intro heq
      cases heq
      exact hsame rfl
  | joinGroup name group =>
    rw [exec, members_joinGroup] at hmem
    by_cases hsame : g = group ∧ n = name
    · obtain ⟨rfl, rfl⟩ := hsame
      exact .inl hagrees
    · refine hkept ?_ (by intro heq; cases heq)
      by_cases hgroup : g = group
      · rw [if_pos hgroup] at hmem
        split at hmem
        · exact hmem
        · rcases mem_append.mp hmem with hmem | hnew
          · exact hmem
          · exact absurd ⟨hgroup, mem_singleton.mp hnew⟩ hsame
      · rw [if_neg hgroup] at hmem
        exact hmem
  | insertClient runId name info =>
    exact hkept hmem (by intro heq; cases heq)
  | removeClientRow runId name =>
    rw [exec_members_of pm (by simp) (by simp)] at hmem
    exact hkept hmem (by intro heq; cases heq)
  | dropHealth names =>
    exact hkept hmem (by intro heq; cases heq)
  | resyncClients =>
    exact hkept hmem (by intro heq; cases heq)

theorem live_member_exec (h : pm.Tracks owes) (hagrees : pm.Agrees st)
    (hrest : forall x, owes x -> x = st ∨ owes' x) {g : String} (hg : g ≠ "") {n : String}
    (hlive : pm.InGroup n g) :
    n ∈ (pm.exec st).members g ∨ owes' (.joinGroup n g) := by
  have hold := h.live_member g hg n hlive
  cases st with
  | leaveGroup name group =>
    rw [exec, members_leaveGroup]
    by_cases hsame : g = group
    · rw [if_pos hsame]
      have hne : n ≠ name := by
        rintro rfl
        exact hagrees (hsame ▸ hlive)
      rcases hold with hmem | howed
      · exact .inl (mem_filter.mpr ⟨hmem, by simp [hne]⟩)
      · exact .inr ((hrest _ howed).resolve_left (by simp))
    · rw [if_neg hsame]
      exact hold.imp_right fun howed => (hrest _ howed).resolve_left (by simp)
  | joinGroup name group =>
    rw [exec, members_joinGroup]
    by_cases hsame : g = group
    · rw [if_pos hsame]
      rcases hold with hmem | howed
      · left
        split
        · exact hmem
        · exact mem_append_left _ hmem
      · rcases hrest _ howed with heq | howed
        · cases heq
          left
          split
          · rename_i hmem
            exact hmem
          · exact mem_append_right _ (mem_singleton.mpr rfl)
        · exact .inr howed
    · rw [if_neg hsame]
      refine hold.imp_right fun howed => (hrest _ howed).resolve_left ?_
      intro heq
      cases heq
      exact hsame rfl
  | insertClient runId name info =>
    exact hold.imp_right fun howed => (hrest _ howed).resolve_left (by simp)
  | removeClientRow runId name =>
    rw [exec_members_of pm (by simp) (by simp)]
    exact hold.imp_right fun howed => (hrest _ howed).resolve_left (by simp)
  | dropHealth names =>
    exact hold.imp_right fun howed => (hrest _ howed).resolve_left (by simp)
  | resyncClients =>
    exact hold.imp_right fun howed => (hrest _ howed).resolve_left (by simp)

theorem members_once_exec (h : pm.Tracks owes) (g : String) :
    ((pm.exec st).members g).Nodup := by
  have hold := h.members_once g
  cases st with
  | leaveGroup name group =>
    rw [exec, members_leaveGroup]
    split
    · exact hold.filter _
    · exact hold
  | joinGroup name group =>
    rw [exec, members_joinGroup]
    split
    · split
      · exact hold
      · rename_i hnot
        exact nodup_append.mpr ⟨hold, nodup_singleton _, by
          intro a ha b hb
          rw [mem_singleton.mp hb]
          rintro rfl
          exact hnot ha⟩
    · exact hold
  | insertClient runId name info => exact hold
  | removeClientRow runId name =>
    rw [exec_members_of pm (by simp) (by simp)]
    exact hold
  | dropHealth names => exact hold
  | resyncClients => exact hold

theorem row_exec_cases (pm : ProxyManager) (st : IndexStep) {r n : String} {info : ProxyInfo}
    (hrow : (pm.exec st).row r n = some info) :
    st = .insertClient r n info ∨
      (pm.row r n = some info ∧ st ≠ .removeClientRow r n ∧
        forall info', st ≠ .insertClient r n info') := by
  cases st with
  | insertClient runId name info' =>
    rw [exec, row_insertClient] at hrow
    split at hrow
    · rename_i hsame
      obtain ⟨rfl, rfl⟩ := hsame
      cases hrow
      exact .inl rfl
    · rename_i hother
      refine .inr ⟨hrow, by simp, ?_⟩
      intro info'' heq
      cases heq
      exact hother ⟨rfl, rfl⟩
  | removeClientRow runId name =>
    rw [exec, row_removeClientRow] at hrow
    split at hrow
    · cases hrow
    · rename_i hother
      refine .inr ⟨hrow, ?_, by simp⟩
      intro heq
      cases heq
      exact hother ⟨rfl, rfl⟩
  | resyncClients =>
    rw [exec, row_resyncClients] at hrow
    split at hrow
    · exact .inr ⟨hrow, by simp, by simp⟩
    · cases hrow
  | leaveGroup name group =>
    rw [row_exec_other pm (by simp) (by simp) (by simp)] at hrow
    exact .inr ⟨hrow, by simp, by simp⟩
  | joinGroup name group => exact .inr ⟨hrow, by simp, by simp⟩
  | dropHealth names => exact .inr ⟨hrow, by simp, by simp⟩

theorem row_exec_of_live {r n : String} {info : ProxyInfo} (hagrees : pm.Agrees st)
    (hlive : pm.proxies.lookup n = some info) (hrun : info.runId = r)
    (hrow : pm.row r n = some info) : (pm.exec st).row r n = some info := by
  cases st with
  | insertClient runId name info' =>
    rw [exec, row_insertClient]
    split
    · rename_i hsame
      obtain ⟨rfl, rfl⟩ := hsame
      have : pm.proxies.lookup n = some info' := hagrees
      rw [hlive] at this
      exact this.symm
    · exact hrow
  | removeClientRow runId name =>
    rw [exec, row_removeClientRow]
    split
    · rename_i hsame
      obtain ⟨rfl, rfl⟩ := hsame
      exact absurd ⟨info, hlive, hrun⟩ hagrees
    · exact hrow
  | resyncClients =>
    rw [exec, row_resyncClients, hlive]
    exact hrow
  | leaveGroup name group =>
    rw [row_exec_other pm (by simp) (by simp) (by simp)]
    exact hrow
  | joinGroup name group => exact hrow
  | dropHealth names => exact hrow

/-- An update that agrees with the primary map settles its own debt and no other. -/
theorem exec (h : pm.Tracks owes) (howed : owes st) (hagrees : pm.Agrees st)
    (hrest : forall x, owes x -> x = st ∨ owes' x) (hsub : forall x, owes' x -> owes x) :
    (pm.exec st).Tracks owes' where
  row_live r n info hrow := by
    rw [exec_proxies]
    rcases row_exec_cases pm st hrow with rfl | ⟨hold, hremove, hinsert⟩
    · exact .inl ⟨hagrees, (h.owed_named r n info howed).2⟩
    · rcases h.row_live r n info hold with hlive | howed' | ⟨info', howed'⟩
      · exact .inl hlive
      · exact .inr (.inl ((hrest _ howed').resolve_left (Ne.symm hremove)))
      · exact .inr (.inr
          ⟨info', (hrest _ howed').resolve_left (Ne.symm (hinsert info'))⟩)
  live_row n info hlive := by
    rw [exec_proxies] at hlive
    rcases h.live_row n info hlive with hrow | howed'
    · exact .inl (row_exec_of_live hagrees hlive rfl hrow)
    · rcases hrest _ howed' with heq | howed'
      · left
        rw [← heq, ProxyManager.exec, row_insertClient, if_pos ⟨rfl, rfl⟩]
      · exact .inr howed'
  member_live g hg n hmem := by
    rw [inGroup_exec]
    exact member_live_exec h hagrees hrest hg hmem
  live_member g hg n hlive := by
    rw [inGroup_exec] at hlive
    exact live_member_exec h hagrees hrest hg hlive
  members_once g := members_once_exec h g
  named n info hlive := by
    rw [exec_proxies] at hlive
    exact h.named n info hlive
  row_named r n info hrow := by
    rcases row_exec_cases pm st hrow with rfl | ⟨hold, _⟩
    · exact (h.owed_named r n info howed).1
    · exact h.row_named r n info hold
  owed_named r n info howed' := h.owed_named r n info (hsub _ howed')

end Exec

/-!
## Beginning a call
-/

section Begin

variable {pm : ProxyManager} {owes : IndexStep -> Prop}

theorem idle (h : pm.Tracks owes) : pm.Tracks (fun x => owes x ∨ x ∈ ([] : List IndexStep)) := by
  have hsame : (fun x => owes x ∨ x ∈ ([] : List IndexStep)) = owes := by
    funext x
    simp
  rw [hsame]
  exact h

variable {steps : List IndexStep}

/-- An entry is written: the row of its client and its group are owed, and the group that
the replaced entry leaves. -/
theorem write {name : String} {info : ProxyInfo}
    (h : pm.Tracks owes) (hname : info.name = name)
    (hold : forall old, pm.proxies.lookup name = some old -> old.runId = info.runId)
    (hclient : IndexStep.insertClient info.runId name info ∈ steps)
    (honly : forall r n i, IndexStep.insertClient r n i ∈ steps ->
      r = info.runId ∧ n = name ∧ i = info)
    (hjoin : forall g, g ≠ "" -> info.group = some g ->
      pm.InGroup name g ∨ IndexStep.joinGroup name g ∈ steps)
    (hleave : forall g, g ≠ "" -> pm.InGroup name g ->
      info.group = some g ∨ IndexStep.leaveGroup name g ∈ steps) :
    ProxyManager.Tracks { pm with proxies := pm.proxies.insert name info }
      (fun x => owes x ∨ x ∈ steps) where
  row_live r n i hrow := by
    rw [Table.lookup_insert_eq]
    by_cases hn : n = name
    · subst hn
      rcases h.row_live r n i hrow with ⟨hlive, hrun⟩ | howed | ⟨i', howed⟩
      · right
        right
        refine ⟨info, .inr ?_⟩
        rw [← hrun, hold i hlive]
        exact hclient
      · exact .inr (.inl (.inl howed))
      · exact .inr (.inr ⟨i', .inl howed⟩)
    · rw [if_neg hn]
      rcases h.row_live r n i hrow with hlive | howed | ⟨i', howed⟩
      · exact .inl hlive
      · exact .inr (.inl (.inl howed))
      · exact .inr (.inr ⟨i', .inl howed⟩)
  live_row n i hlive := by
    rw [Table.lookup_insert_eq] at hlive
    split at hlive
    · rename_i hn
      cases hlive
      rw [hn]
      exact .inr (.inr hclient)
    · exact (h.live_row n i hlive).imp_right .inl
  member_live g hg n hmem := by
    unfold InGroup
    rw [Table.lookup_insert_eq]
    rcases h.member_live g hg n hmem with hlive | howed | howed | ⟨r, i, howed, hgroup⟩
    · by_cases hn : n = name
      · rw [if_pos hn]
        subst hn
        rcases hleave g hg hlive with hstays | hleaves
        · exact .inl ⟨info, rfl, hstays⟩
        · exact .inr (.inl (.inr hleaves))
      · rw [if_neg hn]
        exact .inl hlive
    · exact .inr (.inl (.inl howed))
    · exact .inr (.inr (.inl (.inl howed)))
    · exact .inr (.inr (.inr ⟨r, i, .inl howed, hgroup⟩))
  live_member g hg n hlive := by
    unfold InGroup at hlive
    rw [Table.lookup_insert_eq] at hlive
    by_cases hn : n = name
    · rw [if_pos hn] at hlive
      obtain ⟨i, hi, hgroup⟩ := hlive
      cases hi
      subst hn
      rcases hjoin g hg hgroup with hwas | hnew
      · exact (h.live_member g hg n hwas).imp_right .inl
      · exact .inr (.inr hnew)
    · rw [if_neg hn] at hlive
      exact (h.live_member g hg n hlive).imp_right .inl
  members_once := h.members_once
  named n i hlive := by
    rw [Table.lookup_insert_eq] at hlive
    split at hlive
    · rename_i hn
      cases hlive
      rw [hn]
      exact hname
    · exact h.named n i hlive
  row_named := h.row_named
  owed_named r n i howed := by
    rcases howed with howed | hnew
    · exact h.owed_named r n i howed
    · obtain ⟨rfl, rfl, rfl⟩ := honly r n i hnew
      exact ⟨hname, rfl⟩

/-- An entry is taken out: its row and its group are owed. -/
theorem erase {name : String} {info : ProxyInfo} (h : pm.Tracks owes)
    (hlive : pm.proxies.lookup name = some info)
    (hrow : IndexStep.removeClientRow info.runId name ∈ steps)
    (hnone : forall r n i, IndexStep.insertClient r n i ∉ steps)
    (hleave : forall g, g ≠ "" -> info.group = some g -> IndexStep.leaveGroup name g ∈ steps) :
    ProxyManager.Tracks { pm with proxies := pm.proxies.erase name }
      (fun x => owes x ∨ x ∈ steps) where
  row_live r n i hold := by
    rw [Table.lookup_erase_eq]
    rcases h.row_live r n i hold with ⟨hi, hrun⟩ | howed | ⟨i', howed⟩
    · by_cases hn : n = name
      · subst hn
        rw [hlive] at hi
        cases hi
        subst hrun
        exact .inr (.inl (.inr hrow))
      · rw [if_neg hn]
        exact .inl ⟨hi, hrun⟩
    · exact .inr (.inl (.inl howed))
    · exact .inr (.inr ⟨i', .inl howed⟩)
  live_row n i hi := by
    rw [Table.lookup_erase_eq] at hi
    split at hi
    · cases hi
    · exact (h.live_row n i hi).imp_right .inl
  member_live g hg n hmem := by
    unfold InGroup
    rw [Table.lookup_erase_eq]
    rcases h.member_live g hg n hmem with hi | howed | howed | ⟨r, i, howed, hgroup⟩
    · by_cases hn : n = name
      · subst hn
        obtain ⟨i, hi, hgroup⟩ := hi
        rw [hlive] at hi
        cases hi
        exact .inr (.inl (.inr (hleave g hg hgroup)))
      · rw [if_neg hn]
        exact .inl hi
    · exact .inr (.inl (.inl howed))
    · exact .inr (.inr (.inl (.inl howed)))
    · exact .inr (.inr (.inr ⟨r, i, .inl howed, hgroup⟩))
  live_member g hg n hi := by
    unfold InGroup at hi
    rw [Table.lookup_erase_eq] at hi
    split at hi
    · obtain ⟨i, hi, _⟩ := hi
      cases hi
    · exact (h.live_member g hg n hi).imp_right .inl
  members_once := h.members_once
  named n i hi := by
    rw [Table.lookup_erase_eq] at hi
    split at hi
    · cases hi
    · exact h.named n i hi
  row_named := h.row_named
  owed_named r n i howed := by
    rcases howed with howed | hnew
    · exact h.owed_named r n i howed
    · exact absurd hnew (hnone r n i)

/-- All proxies of a client are taken out with its row. -/
theorem eraseClient {runId : String} {row : Table String ProxyInfo}
    (h : pm.Tracks owes) (hrow : pm.byClient.lookup runId = some row)
    (hnone : forall r n i, IndexStep.insertClient r n i ∉ steps)
    (hleave : forall n info g, row.lookup n = some info -> g ≠ "" -> info.group = some g ->
      IndexStep.leaveGroup info.name g ∈ steps) :
    ProxyManager.Tracks
      { pm with
        byClient := pm.byClient.erase runId
        proxies := pm.proxies.retain fun _ info => info.runId != runId }
      (fun x => owes x ∨ x ∈ steps) := by
  have hrows : forall r n i,
      ProxyManager.row { pm with
          byClient := pm.byClient.erase runId
          proxies := pm.proxies.retain fun _ info => info.runId != runId } r n = some i ->
        r ≠ runId ∧ pm.row r n = some i := by
    intro r n i hi
    unfold ProxyManager.row at hi
    rw [Table.lookup_erase_eq] at hi
    split at hi
    · cases hi
    · rename_i hr
      exact ⟨hr, hi⟩
  have hproxies : forall n i,
      (pm.proxies.retain fun _ info => info.runId != runId).lookup n = some i ↔
        pm.proxies.lookup n = some i ∧ i.runId ≠ runId := by
    intro n i
    rw [Table.lookup_retain, Option.filter_eq_some_iff]
    simp
  refine ⟨?_, ?_, ?_, ?_, h.members_once, ?_, ?_, ?_⟩
  · intro r n i hi
    obtain ⟨hr, hold⟩ := hrows r n i hi
    rcases h.row_live r n i hold with ⟨hlive, hrun⟩ | howed | ⟨i', howed⟩
    · exact .inl ⟨(hproxies n i).mpr ⟨hlive, hrun ▸ hr⟩, hrun⟩
    · exact .inr (.inl (.inl howed))
    · exact .inr (.inr ⟨i', .inl howed⟩)
  · intro n i hi
    obtain ⟨hlive, hr⟩ := (hproxies n i).mp hi
    rcases h.live_row n i hlive with hold | howed
    · left
      unfold ProxyManager.row
      rw [AList.lookup_erase_ne hr]
      exact hold
    · exact .inr (.inl howed)
  · intro g hg n hmem
    rcases h.member_live g hg n hmem with ⟨i, hlive, hgroup⟩ | howed | howed |
        ⟨r, i, howed, hgroup⟩
    · by_cases hr : i.runId = runId
      · rcases h.live_row n i hlive with hold | howed
        · have hentry : row.lookup n = some i := by
            unfold ProxyManager.row at hold
            rw [hr, hrow] at hold
            exact hold
          have hleaves := hleave n i g hentry hg hgroup
          rw [h.named n i hlive] at hleaves
          exact .inr (.inl (.inr hleaves))
        · exact .inr (.inr (.inr ⟨i.runId, i, .inl howed, hgroup⟩))
      · exact .inl ⟨i, (hproxies n i).mpr ⟨hlive, hr⟩, hgroup⟩
    · exact .inr (.inl (.inl howed))
    · exact .inr (.inr (.inl (.inl howed)))
    · exact .inr (.inr (.inr ⟨r, i, .inl howed, hgroup⟩))
  · rintro g hg n ⟨i, hi, hgroup⟩
    have hlive := ((hproxies n i).mp hi).1
    exact (h.live_member g hg n ⟨i, hlive, hgroup⟩).imp_right .inl
  · intro n i hi
    exact h.named n i ((hproxies n i).mp hi).1
  · intro r n i hi
    exact h.row_named r n i (hrows r n i hi).2
  · intro r n i howed
    rcases howed with howed | hnew
    · exact h.owed_named r n i howed
    · exact absurd hnew (hnone r n i)

end Begin

end Tracks

/-!
## The calls
-/

variable {steps : List IndexStep}

variable {replaced : Option ProxyInfo} {info : ProxyInfo}
variable {runId : String}

theorem registerInner_ok {pm pm' : ProxyManager} {replace : Bool}
    (h : pm.registerInner runId info replace = .ok (pm', steps, replaced)) :
    pm' = { pm with proxies := pm.proxies.insert info.name info } ∧
      steps = registerSteps replaced runId info ∧ replaced = pm.proxies.lookup info.name ∧
      forall old, replaced = some old -> qualified old runId info = true := by
  unfold registerInner at h
  cases hlookup : pm.proxies.lookup info.name with
  | none =>
    rw [hlookup] at h
    cases h
    exact ⟨rfl, rfl, rfl, fun old hold => by cases hold⟩
  | some old =>
    rw [hlookup] at h
    dsimp only at h
    split at h
    · rename_i hqualified
      cases h
      refine ⟨rfl, rfl, rfl, ?_⟩
      intro old' hold
      cases hold
      exact (Bool.and_eq_true_iff.mp hqualified).2
    · cases h

theorem qualified_runId {old info : ProxyInfo} (h : qualified old runId info = true) :
    old.runId = runId := by
  simp only [qualified, Bool.and_eq_true, decide_eq_true_eq] at h
  exact h.1.1.1

theorem insertClient_mem_registerSteps (replaced : Option ProxyInfo) (runId : String)
    (info : ProxyInfo) :
    IndexStep.insertClient runId info.name info ∈ registerSteps replaced runId info := by
  exact mem_append_left _ (mem_append_right _ (mem_singleton.mpr rfl))

variable {st : IndexStep}

theorem mem_registerSteps (h : st ∈ registerSteps replaced runId info) :
    (exists g, st = .leaveGroup info.name g ∧ info.group ≠ some g) ∨
      st = .insertClient runId info.name info ∨
      (exists g, st = .joinGroup info.name g ∧ info.groupName = some g) := by
  rcases mem_append.mp h with h | h
  · rcases mem_append.mp h with h | h
    · split at h
      · rename_i g _
        split at h
        · rename_i hne
          exact .inl ⟨g, mem_singleton.mp h, hne⟩
        · cases h
      · cases h
    · exact .inr (.inl (mem_singleton.mp h))
  · split at h
    · rename_i g hg
      exact .inr (.inr ⟨g, mem_singleton.mp h, hg⟩)
    · cases h

variable {owes : IndexStep -> Prop}

theorem tracks_registerInner {pm pm' : ProxyManager} {replace : Bool} (h : pm.Tracks owes)
    (hok : pm.registerInner info.runId info replace = .ok (pm', steps, replaced)) :
    pm'.Tracks (fun x => owes x ∨ x ∈ steps) := by
  obtain ⟨rfl, rfl, rfl, hqualified⟩ := registerInner_ok hok
  apply h.write rfl
  · intro old hold
    exact qualified_runId (hqualified old hold)
  · exact insertClient_mem_registerSteps _ _ _
  · intro r n i hmem
    rcases mem_registerSteps hmem with ⟨g, heq, _⟩ | heq | ⟨g, heq, _⟩
    · cases heq
    · cases heq
      exact ⟨rfl, rfl, rfl⟩
    · cases heq
  · intro g hg hgroup
    right
    unfold registerSteps
    rw [ProxyInfo.groupName_eq_some.mpr ⟨hgroup, hg⟩]
    exact mem_append_right _ (mem_singleton.mpr rfl)
  · rintro g hg ⟨old, hold, hgroup⟩
    by_cases hstays : info.group = some g
    · exact .inl hstays
    · right
      unfold registerSteps
      rw [hold, Option.bind_some, ProxyInfo.groupName_eq_some.mpr ⟨hgroup, hg⟩]
      apply mem_append_left
      apply mem_append_left
      simp only [ne_eq, hstays, not_false_eq_true, if_true]
      exact mem_singleton.mpr rfl

theorem updateRuntime_ok {pm pm' : ProxyManager} {u : RuntimeUpdate}
    (h : pm.updateRuntime u = .ok (pm', steps)) :
    exists info, pm.proxies.lookup u.name = some info ∧
      pm' = { pm with proxies := pm.proxies.insert u.name (u.apply info) } ∧
      steps = [.insertClient info.runId u.name (u.apply info)] := by
  unfold updateRuntime at h
  split at h
  · cases h
  · split at h
    · cases h
    · rename_i info hinfo
      dsimp only at h
      split at h
      · cases h
      · cases h
        exact ⟨info, hinfo, rfl, rfl⟩

theorem tracks_updateRuntime {pm pm' : ProxyManager} {u : RuntimeUpdate} (h : pm.Tracks owes)
    (hok : pm.updateRuntime u = .ok (pm', steps)) :
    pm'.Tracks (fun x => owes x ∨ x ∈ steps) := by
  obtain ⟨info, hinfo, rfl, rfl⟩ := updateRuntime_ok hok
  have hname : (u.apply info).name = u.name := h.named u.name info hinfo
  apply h.write hname
  · intro old hold
    rw [hinfo] at hold
    cases hold
    rfl
  · exact mem_singleton.mpr rfl
  · intro r n i hmem
    have heq := mem_singleton.mp hmem
    cases heq
    exact ⟨rfl, rfl, rfl⟩
  · intro g _ hgroup
    exact .inl ⟨info, hinfo, hgroup⟩
  · rintro g _ ⟨old, hold, hgroup⟩
    rw [hinfo] at hold
    cases hold
    exact .inl hgroup

variable {pm : ProxyManager}

theorem mem_cleanupRemoved {name : String} (h : st ∈ pm.cleanupRemoved name info) :
    (exists g, st = .leaveGroup name g) ∨ st = .dropHealth [name] ∨
      st = .removeClientRow info.runId name := by
  unfold cleanupRemoved at h
  split at h
  · cases h
  · rcases mem_append.mp h with h | h
    · split at h
      · exact .inl ⟨_, mem_singleton.mp h⟩
      · cases h
    · rcases mem_cons.mp h with h | h
      · exact .inr (.inl h)
      · exact .inr (.inr (mem_singleton.mp h))

theorem cleanupRemoved_erase (pm : ProxyManager) (name : String) (info : ProxyInfo) :
    cleanupRemoved { pm with proxies := pm.proxies.erase name } name info =
      (match info.groupName with
        | some group => [.leaveGroup name group]
        | none => []) ++
      [.dropHealth [name], .removeClientRow info.runId name] := by
  have hgone : ¬ ((pm.proxies.erase name).lookup name).isSome = true := by simp
  cases hgroup : info.groupName with
  | none =>
    unfold cleanupRemoved
    rw [hgroup]
    exact if_neg hgone
  | some group =>
    unfold cleanupRemoved
    rw [hgroup]
    exact if_neg hgone

theorem tracks_removeWhen (h : pm.Tracks owes) (test : ProxyInfo -> Bool) (name : String) :
    (removeWhen test pm name).1.Tracks
      (fun x => owes x ∨ x ∈ (removeWhen test pm name).2.1) := by
  unfold removeWhen
  cases hinfo : pm.proxies.lookup name with
  | none => exact h.idle
  | some info =>
    dsimp only
    split
    · apply h.erase hinfo
      · rw [cleanupRemoved_erase]
        simp
      · intro r n i hmem
        rcases mem_cleanupRemoved hmem with ⟨g, heq⟩ | heq | heq
        · cases heq
        · cases heq
        · cases heq
      · intro g hg hgroup
        rw [cleanupRemoved_erase, ProxyInfo.groupName_eq_some.mpr ⟨hgroup, hg⟩]
        exact mem_append_left _ (mem_singleton.mpr rfl)
    · exact h.idle

theorem tracks_removeClient (h : pm.Tracks owes) (runId : String) :
    (pm.removeClient runId).1.Tracks (fun x => owes x ∨ x ∈ (pm.removeClient runId).2) := by
  unfold removeClient
  cases hrow : pm.byClient.lookup runId with
  | none => exact h.idle
  | some row =>
    apply h.eraseClient hrow
    · intro r n i hmem
      simp at hmem
    · intro n info g hentry hg hgroup
      apply mem_append_left
      rw [mem_filterMap]
      refine ⟨info, ?_, ?_⟩
      · have hmem : (⟨n, info⟩ : Sigma fun _ : String => ProxyInfo) ∈ row.entries :=
          AList.mem_lookup_iff.mp hentry
        exact mem_map.mpr ⟨_, hmem, rfl⟩
      · rw [ProxyInfo.groupName_eq_some.mpr ⟨hgroup, hg⟩]
        rfl

theorem tracks_begin (h : pm.Tracks owes) (op : RegistryOp) :
    (pm.begin op).1.Tracks (fun x => owes x ∨ x ∈ (pm.begin op).2) := by
  cases op with
  | register info replace =>
    unfold begin
    cases hresult : pm.registerInner info.runId info replace with
    | error e =>
      simpa [hresult] using h.idle
    | ok result =>
      simpa [hresult] using tracks_registerInner h hresult
  | updateRuntime u =>
    unfold begin
    cases hresult : pm.updateRuntime u with
    | error e =>
      simpa [hresult] using h.idle
    | ok result =>
      simpa [hresult] using tracks_updateRuntime h hresult
  | remove name => exact tracks_removeWhen h _ name
  | removeIfControlId name controlId => exact tracks_removeWhen h _ name
  | removeClient runId => exact tracks_removeClient h runId

/-!
## Empty rows
-/

def NoEmptyRow (pm : ProxyManager) : Prop :=
  forall r row, pm.byClient.lookup r = some row -> row.entries ≠ []

theorem noEmptyRow_exec (h : pm.NoEmptyRow) (hleaves : pm.LeavesName st) :
    (pm.exec st).NoEmptyRow := by
  intro r row hrow
  cases st with
  | insertClient runId name info =>
    simp only [exec, insertClient, Table.lookup_insert_eq] at hrow
    split at hrow
    · cases hrow
      exact cons_ne_nil _ _
    · exact h r row hrow
  | removeClientRow runId name =>
    simp only [exec, removeClientRow] at hrow
    cases hold : pm.byClient.lookup runId with
    | none =>
      simp only [hold] at hrow
      exact h r row hrow
    | some old =>
      simp only [hold, Table.lookup_insert_eq] at hrow
      split at hrow
      · cases hrow
        exact hleaves old hold
      · exact h r row hrow
  | resyncClients =>
    simp only [exec, resyncClients, Table.lookup_retain, Option.filter_eq_some_iff] at hrow
    simpa using hrow.2
  | leaveGroup name group =>
    refine h r row ?_
    have hsame : (pm.exec (.leaveGroup name group)).byClient = pm.byClient := by
      simp only [exec, leaveGroup]
      split
      · rfl
      · split <;> rfl
    rw [← hsame]
    exact hrow
  | joinGroup name group => exact h r row hrow
  | dropHealth names => exact h r row hrow

theorem noEmptyRow_begin (h : pm.NoEmptyRow) (op : RegistryOp) :
    (pm.begin op).1.NoEmptyRow := by
  have hsame : forall pm' : ProxyManager, pm'.byClient = pm.byClient -> pm'.NoEmptyRow := by
    intro pm' heq r row hrow
    rw [heq] at hrow
    exact h r row hrow
  have hremove : forall test name, (removeWhen test pm name).1.NoEmptyRow := by
    intro test name
    apply hsame
    unfold removeWhen
    split
    · rfl
    · split <;> rfl
  cases op with
  | register info replace =>
    apply hsame
    cases hresult : pm.registerInner info.runId info replace with
    | error e => simp only [begin, hresult]
    | ok result =>
      simp only [begin, hresult, (registerInner_ok hresult).1]
  | updateRuntime u =>
    apply hsame
    cases hresult : pm.updateRuntime u with
    | error e => simp only [begin, hresult]
    | ok result =>
      obtain ⟨_, _, heq, _⟩ := updateRuntime_ok hresult
      simp only [begin, hresult, heq]
  | remove name => exact hremove _ name
  | removeIfControlId name controlId => exact hremove _ name
  | removeClient runId =>
    intro r row hrow
    simp only [begin, removeClient] at hrow
    cases hold : pm.byClient.lookup runId with
    | none =>
      rw [hold] at hrow
      exact h r row hrow
    | some old =>
      simp only [hold, Table.lookup_erase_eq] at hrow
      split at hrow
      · cases hrow
      · exact h r row hrow

end ProxyManager

/-!
## Interleaved calls
-/

namespace RegistrySystem

def Owes (s : RegistrySystem) (st : IndexStep) : Prop :=
  exists task, task ∈ s.tasks ∧ st ∈ task

def Undisturbed (s : RegistrySystem) : RegistryEvent -> Prop
  | .start _ => True
  | .advance i =>
    match s.tasks[i]? with
    | some (st :: _) => s.pm.Agrees st ∧ s.pm.LeavesName st
    | _ => True

instance (s : RegistrySystem) : (e : RegistryEvent) -> Decidable (s.Undisturbed e)
  | .start _ => isTrue trivial
  | .advance i =>
    match h : s.tasks[i]? with
    | some (st :: _) =>
      decidable_of_iff (s.pm.Agrees st ∧ s.pm.LeavesName st) (by simp only [Undisturbed, h])
    | some [] => isTrue (by simp only [Undisturbed, h])
    | none => isTrue (by simp only [Undisturbed, h])

variable {s : RegistrySystem}

theorem owes_start {op : RegistryOp} {st : IndexStep} :
    (s.step (.start op)).Owes st ↔ s.Owes st ∨ st ∈ (s.pm.begin op).2 := by
  simp only [Owes, step, mem_append, mem_singleton, or_and_right, exists_or,
    exists_eq_left]

theorem owes_advance {i : Nat} {st : IndexStep} {rest : List IndexStep}
    (h : s.tasks[i]? = some (st :: rest)) :
    s.Owes st ∧
      (forall x, s.Owes x -> x = st ∨ (s.step (.advance i)).Owes x) ∧
      (forall x, (s.step (.advance i)).Owes x -> s.Owes x) := by
  have htask : (st :: rest) ∈ s.tasks := mem_of_getElem? h
  have hstep : (s.step (.advance i)).tasks = s.tasks.set i rest := by
    simp only [step, h]
  refine ⟨⟨_, htask, mem_cons_self⟩, ?_, ?_⟩
  · rintro x ⟨task, hmem, hx⟩
    obtain ⟨j, hj, rfl⟩ := mem_iff_getElem.mp hmem
    by_cases hij : j = i
    · subst hij
      have heq : s.tasks[j] = st :: rest := by
        rw [getElem?_eq_getElem hj] at h
        exact Option.some.inj h
      rw [heq] at hx
      rcases mem_cons.mp hx with hx | hx
      · exact .inl hx
      · refine .inr ⟨rest, ?_, hx⟩
        rw [hstep]
        exact mem_iff_getElem.mpr ⟨j, by simpa using hj, by simp⟩
    · refine .inr ⟨s.tasks[j], ?_, hx⟩
      rw [hstep]
      refine mem_iff_getElem.mpr ⟨j, by simpa using hj, ?_⟩
      rw [getElem_set_ne (Ne.symm hij)]
  · rintro x ⟨task, hmem, hx⟩
    rw [hstep] at hmem
    rcases mem_or_eq_of_mem_set hmem with hmem | rfl
    · exact ⟨task, hmem, hx⟩
    · exact ⟨_, htask, mem_cons_of_mem _ hx⟩

def Settling (s : RegistrySystem) : Prop :=
  s.pm.Tracks s.Owes ∧ s.pm.NoEmptyRow

theorem settling_init : init.Settling := by
  constructor
  · apply ProxyManager.Tracks.new
    rintro st ⟨task, hmem, _⟩
    cases hmem
  · intro r row hrow
    cases hrow

theorem settling_step (h : s.Settling) (e : RegistryEvent) (hok : s.Undisturbed e) :
    (s.step e).Settling := by
  obtain ⟨htracks, hrows⟩ := h
  cases e with
  | start op =>
    constructor
    · have hbegun := ProxyManager.tracks_begin htracks op
      have howes : (fun x => s.Owes x ∨ x ∈ (s.pm.begin op).2) = (s.step (.start op)).Owes := by
        funext x
        exact propext owes_start.symm
      rw [howes] at hbegun
      exact hbegun
    · exact ProxyManager.noEmptyRow_begin hrows op
  | advance i =>
    cases htask : s.tasks[i]? with
    | none =>
      have hsame : s.step (.advance i) = s := by
        simp only [step, htask]
      rw [hsame]
      exact ⟨htracks, hrows⟩
    | some task =>
      cases task with
      | nil =>
        have hsame : s.step (.advance i) = s := by
          simp only [step, htask]
        rw [hsame]
        exact ⟨htracks, hrows⟩
      | cons st rest =>
        simp only [Undisturbed, htask] at hok
        obtain ⟨howed, hrest, hsub⟩ := owes_advance htask
        have hpm : (s.step (.advance i)).pm = s.pm.exec st := by
          simp only [step, htask]
        refine ⟨?_, ?_⟩
        · rw [hpm]
          exact htracks.exec howed hok.1 hrest hsub
        · rw [hpm]
          exact ProxyManager.noEmptyRow_exec hrows hok.2

/-- In a run in which no index update is overtaken and no removal empties a client's row, the
indexes are exact whenever all calls have completed. -/
theorem proxy_indexes_consistent {events : List RegistryEvent}
    (h : Run.Along step Undisturbed init events) {pre : List RegistryEvent}
    (hpre : pre <+: events) (hquiet : (Run.run step init pre).Quiet) :
    (Run.run step init pre).pm.Consistent := by
  obtain ⟨suf, rfl⟩ := hpre
  have hsettling : (Run.run step init pre).Settling :=
    @Run.run_invariant _ _ step Undisturbed Settling
      (fun s e hs hok => settling_step hs e hok) init pre settling_init
      (Run.along_append.mp h).1
  have hnone : forall st, ¬ (Run.run step init pre).Owes st := by
    rintro st ⟨task, hmem, hst⟩
    rw [hquiet task hmem] at hst
    cases hst
  exact ⟨hsettling.1.indexed hnone, hsettling.2⟩

/-- A tcp proxy of client `r1`. -/
def sampleProxy (name : String) (group : Option String) : ProxyInfo :=
  ⟨name, .tcp, "r1", 1, some 6000, none, group, none, "", ""⟩

/-- Two members register at once and the first one is removed. -/
theorem proxy_indexes_consistent_interleaved :
    let events : List RegistryEvent :=
      [.start (.register (sampleProxy "a" (some "g")) true),
        .start (.register (sampleProxy "b" (some "g")) true),
        .advance 1, .advance 0, .advance 0, .advance 1, .start (.remove "a"),
        .advance 2, .advance 2, .advance 2]
    (Run.run step init events).Quiet ∧ (Run.run step init events).pm.members "g" = ["b"] ∧
      (Run.run step init events).pm.Consistent := by
  intro events
  have hquiet : (Run.run step init events).Quiet := by
    unfold Quiet
    decide
  exact ⟨hquiet, by decide, proxy_indexes_consistent (by decide +kernel)
    (prefix_refl events) hquiet⟩

/-- A client that closes its only proxy keeps an empty row, and a registration overtaken by
a removal leaves a row for a name that is not live. -/
theorem removal_leaves_stale_row :
    let closed := Run.run step init
      [.start (.register (sampleProxy "a" none) true), .advance 0, .start (.remove "a"),
        .advance 1, .advance 1]
    let overtaken := Run.run step init
      [.start (.register (sampleProxy "a" none) true), .start (.remove "a"),
        .advance 1, .advance 1, .advance 0]
    (closed.Quiet ∧ ¬ closed.pm.Consistent) ∧ (overtaken.Quiet ∧ ¬ overtaken.pm.Consistent) := by
  refine ⟨⟨by unfold Quiet; decide, ?_⟩, ⟨by unfold Quiet; decide, ?_⟩⟩
  · intro h
    exact h.no_empty_row "r1" ∅ rfl rfl
  · intro h
    have hlive := (h.client_exact "r1" "a" (sampleProxy "a" none)).mp (by decide)
    exact absurd hlive.1 (by decide)

end RegistrySystem

/-!
## Calls that run by themselves
-/

namespace ProxyManager

theorem agrees_exec (pm : ProxyManager) (st st' : IndexStep) :
    (pm.exec st).Agrees st' ↔ pm.Agrees st' := by
  cases st' <;> simp only [Agrees, InGroup, OfClient, exec_proxies]

variable {pm : ProxyManager}

theorem tracks_complete {steps : List IndexStep} (h : pm.Tracks (fun x => x ∈ steps))
    (hagrees : forall st, st ∈ steps -> pm.Agrees st) :
    (pm.complete steps).Indexed := by
  induction steps generalizing pm with
  | nil =>
    apply h.indexed
    intro st hst
    cases hst
  | cons st steps ih =>
    show ((pm.exec st).complete steps).Indexed
    apply ih
    · apply h.exec mem_cons_self (hagrees st mem_cons_self)
      · intro x hx
        exact mem_cons.mp hx
      · intro x hx
        exact mem_cons_of_mem st hx
    · intro st' hst'
      rw [agrees_exec]
      exact hagrees st' (mem_cons_of_mem st hst')

theorem Indexed.registerInner {pm pm' : ProxyManager} {info : ProxyInfo} {replace : Bool}
    {steps : List IndexStep} {replaced : Option ProxyInfo} (h : pm.Indexed)
    (hok : pm.registerInner info.runId info replace = .ok (pm', steps, replaced)) :
    (pm'.complete steps).Indexed := by
  have htracks := tracks_registerInner (Tracks.of_indexed h (fun _ => False) (fun _ => id)) hok
  simp only [false_or] at htracks
  apply tracks_complete htracks
  obtain ⟨rfl, rfl, _, _⟩ := registerInner_ok hok
  intro st hst
  rcases mem_registerSteps hst with ⟨g, rfl, hne⟩ | rfl | ⟨g, rfl, hg⟩
  · rintro ⟨i, hi, hgroup⟩
    rw [AList.lookup_insert] at hi
    cases hi
    exact hne hgroup
  · exact AList.lookup_insert _
  · exact ⟨info, AList.lookup_insert _, (ProxyInfo.groupName_eq_some.mp hg).1⟩

theorem Indexed.removeWhen (h : pm.Indexed) (test : ProxyInfo -> Bool) (name : String) :
    ((removeWhen test pm name).1.complete (removeWhen test pm name).2.1).Indexed := by
  have htracks :=
    tracks_removeWhen (Tracks.of_indexed h (fun _ => False) (fun _ => id)) test name
  simp only [false_or] at htracks
  apply tracks_complete htracks
  intro st hst
  unfold ProxyManager.removeWhen at hst ⊢
  cases hinfo : pm.proxies.lookup name with
  | none =>
    simp only [hinfo] at hst
    cases hst
  | some info =>
    simp only [hinfo] at hst ⊢
    split at hst
    · rename_i htest
      simp only [htest, if_true]
      rcases mem_cleanupRemoved hst with ⟨g, rfl⟩ | rfl | rfl
      · rintro ⟨i, hi, _⟩
        rw [AList.lookup_erase] at hi
        cases hi
      · trivial
      · rintro ⟨i, hi, _⟩
        rw [AList.lookup_erase] at hi
        cases hi
    · cases hst

theorem Indexed.remove (h : pm.Indexed) (name : String) :
    (pm.remove name).1.Indexed :=
  h.removeWhen (fun _ => true) name

theorem Indexed.removeIfControlId (h : pm.Indexed) (name : String) (controlId : Nat) :
    (pm.removeIfControlId name controlId).1.Indexed :=
  h.removeWhen _ name

theorem indexed_new : new.Indexed :=
  (Tracks.new (fun _ => False) (fun _ => id)).indexed (fun _ => id)

end ProxyManager
end Server
end FrpRs
