import FrpRs.NatHole.Controller

/-!
# Expiry

A sweep collects stale ids under a shard's read lock and removes them one by one after
the lock is gone.  The removals address the table by id, so they take out whatever is
stored there by then: a session refreshed in between, or a new one.  As long as neither
happens to a collected id, a sweep removes stale sessions only.
-/

namespace FrpRs
namespace NatHole

open List

namespace SessionTable

variable {S : Type} (hash : String -> Nat)

def Routed (t : SessionTable S) : Prop :=
  forall (k : Nat) (shard : Table String S), t.shards[k]? = some shard ->
    forall sid, (shard.lookup sid).isSome = true -> shardIndex hash sid = k

theorem routed_new : (new : SessionTable S).Routed hash := by
  intro k shard hshard sid hsid
  rw [new, List.getElem?_replicate] at hshard
  split at hshard
  · cases hshard
    cases hsid
  · cases hshard

variable {t : SessionTable S}

theorem Routed.setShard (ht : t.Routed hash) {sid : String}
    {entries : Table String S}
    (h : forall a, (entries.lookup a).isSome = true ->
      a = sid ∨ ((t.shard hash sid).lookup a).isSome = true) :
    (t.setShard hash sid entries).Routed hash := by
  intro k shard hshard a ha
  rw [SessionTable.setShard, List.getElem?_set] at hshard
  split at hshard
  · rename_i hk
    split at hshard
    · cases hshard
      cases h a ha with
      | inl hsame => rw [hsame, hk]
      | inr hold => exact hk ▸ ht _ _ (t.shards_get hash sid) a hold
    · cases hshard
  · exact ht k shard hshard a ha

theorem Routed.put (ht : t.Routed hash) (sid : String) (session : S) :
    (t.put hash sid session).2.Routed hash := by
  apply ht.setShard
  intro a ha
  rw [Table.lookup_insert_eq] at ha
  split at ha
  · rename_i hsame
    exact .inl hsame
  · exact .inr ha

theorem Routed.takeOut (ht : t.Routed hash) (sid : String) :
    (t.takeOut hash sid).2.Routed hash := by
  apply ht.setShard
  intro a ha
  rw [Table.lookup_erase_eq] at ha
  split at ha
  · cases ha
  · exact .inr ha

theorem Routed.congr {t u : SessionTable S} (ht : t.Routed hash) (h : u.shards = t.shards) :
    u.Routed hash := by
  rw [Routed, h]
  exact ht

theorem Routed.get_of_mem (ht : t.Routed hash) {k : Nat} {shard : Table String S}
    (hshard : t.shards[k]? = some shard) {sid : String} {session : S}
    (h : ⟨sid, session⟩ ∈ shard.entries) :
    shardIndex hash sid = k ∧ t.get hash sid = some session := by
  have hlookup : shard.lookup sid = some session := AList.mem_lookup_iff.mpr h
  have hk : shardIndex hash sid = k := by
    apply ht k shard hshard
    rw [hlookup]
    rfl
  have hget := t.shards_get hash sid
  rw [hk, hshard] at hget
  rw [get, ← Option.some.inj hget]
  exact ⟨hk, hlookup⟩

theorem Routed.after {t : SessionTable Nat} (ht : t.Routed hash) (write : Option TableWrite) :
    (t.after hash write).Routed hash := by
  cases write with
  | none => exact ht
  | some write =>
    cases write with
    | mk sid stored =>
      cases stored with
      | none => exact ht.takeOut hash sid
      | some object => exact ht.put hash sid object

end SessionTable

namespace Sweep

theorem locks_of_unread {w : Sweep} {p : String × Nat} (h : p ∈ w.unread) :
    w.locks w.shard = true := by
  cases w with
  | mk start timeout shard phase =>
    cases phase with
    | idle => cases h
    | reading unread expired => exact decide_eq_true rfl
    | removing expired => cases h

end Sweep

namespace Controller

variable (hash : String -> Nat) (md5 : String -> String)

/-!
## Activity
-/

def activity (s : Controller) (object : Nat) : Option Nat :=
  (s.objects[object]?).map Session.lastActivity

theorem staleObject_eq (s : Controller) (w : Sweep) (object : Nat) :
    s.staleObject w object = (s.activity object).any w.stale := by
  rw [staleObject, activity]
  cases s.objects[object]? with
  | none => rfl
  | some o => rfl

theorem activity_updateObject (s : Controller) (object a : Nat) (f : Session -> Session) :
    (s.updateObject object f).activity a =
      if object = a then (s.objects[a]?).map fun o => (f o).lastActivity else s.activity a := by
  rw [activity, activity, updateObject, List.getElem?_modify]
  split
  · cases s.objects[a]? with
    | none => rfl
    | some o => rfl
  · cases s.objects[a]? with
    | none => rfl
    | some o => rfl

theorem activity_updateObject_keep (s : Controller) (object a : Nat) {f : Session -> Session}
    (hf : forall o, (f o).lastActivity = o.lastActivity) :
    (s.updateObject object f).activity a = s.activity a := by
  rw [activity_updateObject]
  split
  · simp only [hf]
    rfl
  · rfl

theorem activity_updateTarget (s : Controller) (f : Flow) (a : Nat)
    {update : Session -> Session} (hu : forall o, (update o).lastActivity = o.lastActivity) :
    (s.updateTarget hash f update).activity a = s.activity a := by
  rw [updateTarget]
  split
  · rfl
  · exact s.activity_updateObject_keep _ a hu

/-- What a step leaves alone that moves neither the clock of a session nor a sweep. -/
structure Keeps (s s' : Controller) : Prop where
  activity_eq : forall object, s'.activity object = s.activity object
  sweeps_eq : s'.sweeps = s.sweeps

theorem Keeps.refl (s : Controller) : Keeps s s where
  activity_eq := fun _ => rfl
  sweeps_eq := rfl

theorem updateTarget_sweeps (s : Controller) (f : Flow) (update : Session -> Session) :
    (s.updateTarget hash f update).sweeps = s.sweeps := by
  rw [updateTarget]
  split
  · rfl
  · rfl

theorem updateTarget_keeps (s : Controller) (f g : Flow) (flow : Nat)
    {update : Session -> Session} (hu : forall o, (update o).lastActivity = o.lastActivity) :
    Keeps s ((s.updateTarget hash f update).setFlow flow g) where
  activity_eq := fun a => s.activity_updateTarget hash f a hu
  sweeps_eq := s.updateTarget_sweeps hash f update

theorem stepFlow_keeps (s : Controller) (i : Nat) (f : Flow) (e : FlowStep) :
    Keeps s (s.stepFlow hash md5 i f e) := by
  cases e with
  | land =>
    simp only [stepFlow]
    split
    · rw [land]
      split
      · exact Keeps.refl s
      · exact ⟨fun _ => rfl, rfl⟩
    · exact Keeps.refl s
  | settle =>
    simp only [stepFlow]
    split
    · exact ⟨fun _ => rfl, rfl⟩
    · exact Keeps.refl s
  | cancel =>
    simp only [stepFlow]
    split
    · exact ⟨fun _ => rfl, rfl⟩
    · exact Keeps.refl s
  | notifyProvider sent =>
    simp only [stepFlow]
    split
    · constructor
      · intro a
        exact s.activity_updateObject_keep f.object a fun _ => rfl
      · rfl
    · exact Keeps.refl s
  | awaitClient received =>
    simp only [stepFlow]
    split
    · split
      · exact Keeps.refl s
      · exact ⟨fun _ => rfl, rfl⟩
    · exact Keeps.refl s
  | takeClient =>
    simp only [stepFlow]
    split
    · exact s.updateTarget_keeps hash f _ i fun _ => rfl
    · exact Keeps.refl s
  | analyse =>
    simp only [stepFlow]
    split
    · simp only [analyse]
      split
      · constructor
        · intro a
          exact activity_updateTarget hash _ f a fun _ => rfl
        · exact updateTarget_sweeps hash _ f _
      · exact ⟨fun _ => rfl, rfl⟩
    · exact Keeps.refl s
  | store =>
    simp only [stepFlow]
    split
    · exact s.updateTarget_keeps hash f _ i fun _ => rfl
    · exact Keeps.refl s
  | respond sent =>
    simp only [stepFlow]
    split
    · exact ⟨fun _ => rfl, rfl⟩
    · exact Keeps.refl s
  | awaitReport reported =>
    simp only [stepFlow]
    split
    · split
      · exact Keeps.refl s
      · exact ⟨fun _ => rfl, rfl⟩
    · exact Keeps.refl s
  | cleanUp =>
    simp only [stepFlow]
    split
    · rw [cleanUp]
      split
      · exact Keeps.refl s
      · exact ⟨fun _ => rfl, rfl⟩
    · exact Keeps.refl s

def refreshes (s : Controller) : Event -> Option Nat
  | .finishClient i =>
    match s.lookups[i]? with
    | some (.client object _) => some object
    | _ => none
  | .finishReport i =>
    match s.lookups[i]? with
    | some (.report object _) => some object
    | _ => none
  | _ => none

theorem activity_updateObject_set (s : Controller) (object a : Nat) {f : Session -> Session}
    {last now : Nat} (hf : forall o, (f o).lastActivity = now) (h : s.activity a = some last) :
    (s.updateObject object f).activity a = some (if some object = some a then now else last) := by
  rw [activity_updateObject]
  cases hobject : s.objects[a]? with
  | none =>
    rw [activity, hobject] at h
    cases h
  | some o =>
    simp only [Option.some.injEq]
    split
    · exact congrArg some (hf o)
    · exact h

theorem activity_createSession (s : Controller) (viaCtl : Bool) (msg : NatHoleVisitor)
    {object last : Nat} (h : s.activity object = some last) :
    (s.createSession viaCtl msg).activity object = some last := by
  have hlt : object < s.objects.length := by
    rw [activity, Option.map_eq_some_iff] at h
    obtain ⟨o, ho, -⟩ := h
    exact (List.getElem?_eq_some_iff.mp ho).1
  rw [activity, createSession, List.getElem?_append_left hlt]
  exact h

theorem activity_complete (s : Controller) (sid : String) (object : Nat) :
    (s.complete hash sid).activity object = s.activity object := by
  rw [complete]
  split
  · rfl
  · exact activity_updateObject_keep _ _ object fun _ => rfl

theorem activity_stepSweep (s : Controller) (i : Nat) (w : Sweep) (e : SweepStep) (object : Nat) :
    (s.stepSweep hash i w e).activity object = s.activity object := by
  rcases s.stepSweep_frame hash i w e with ⟨sessions, sweeps, releases, hstep⟩
  rw [hstep]
  rfl

/-- A session's time stamp moves when it is refreshed and at no other step. -/
theorem step_activity (s : Controller) (e : Event) {object last : Nat}
    (h : s.activity object = some last) :
    (s.step hash md5 e).activity object =
      some (if s.refreshes e = some object then s.clock else last) := by
  cases e with
  | visitor viaCtl msg =>
    exact s.activity_createSession viaCtl msg h
  | flow i e =>
    simp only [step]
    split
    · exact ((s.stepFlow_keeps hash md5 i _ e).activity_eq object).trans h
    · exact h
  | client msg =>
    simp only [step, handleClient]
    split
    · exact h
    · exact h
  | finishClient i =>
    cases hcall : s.lookups[i]? with
    | none =>
      simp only [step, refreshes, hcall]
      exact h
    | some call =>
      cases call with
      | client a msg =>
        simp only [step, refreshes, hcall]
        exact s.activity_updateObject_set a object (fun _ => rfl) h
      | report a success =>
        simp only [step, refreshes, hcall]
        exact h
      | finished =>
        simp only [step, refreshes, hcall]
        exact h
  | reportCall msg =>
    simp only [step, handleReport]
    split
    · exact h
    · exact h
  | finishReport i =>
    cases hcall : s.lookups[i]? with
    | none =>
      simp only [step, refreshes, hcall]
      exact h
    | some call =>
      cases call with
      | client a msg =>
        simp only [step, refreshes, hcall]
        exact h
      | report a success =>
        simp only [step, refreshes, hcall]
        exact s.activity_updateObject_set a object (fun _ => rfl) h
      | finished =>
        simp only [step, refreshes, hcall]
        exact h
  | report msg =>
    simp only [step, handleNatHoleReport]
    split
    · exact h
    · split
      · exact h
      · exact (s.activity_complete hash _ object).trans h
  | countDown =>
    simp only [step, countDown]
    split
    · exact h
    · exact h
  | tick elapsed => exact h
  | cleanAnalyzer => exact h
  | expireSessions timeout => exact h
  | sweep i e =>
    simp only [step]
    split
    · exact (s.activity_stepSweep hash i _ e object).trans h
    · exact h

/-!
## Undisturbed steps
-/

def refreshOk (s : Controller) (object : Nat) : Bool :=
  s.sweeps.all fun w =>
    w.expired.all fun sid => s.get hash sid ≠ some object || w.stale s.clock

def storeOk (s : Controller) (write : TableWrite) : Bool :=
  write.stored.all fun object =>
    s.sweeps.all fun w => !w.expired.contains write.sid || s.staleObject w object

def undisturbed (s : Controller) (e : Event) : Bool :=
  (s.refreshes e).all (s.refreshOk hash) && (s.writes hash e).all s.storeOk

def expiresFresh (s : Controller) : Event -> Bool
  | .sweep i (.expire entry) =>
    (s.sweeps[i]?).any fun w =>
      (s.sweepWrite hash w (.expire entry)).any fun write =>
        (s.get hash write.sid).any fun object => !s.staleObject w object
  | _ => false

variable {s : Controller} {w : Sweep} {e : Event}

variable {sid : String} {object : Nat}

theorem undisturbed_refresh (h : s.undisturbed hash e = true) (hw : w ∈ s.sweeps)
    (hsid : sid ∈ w.expired) (hget : s.get hash sid = some object)
    (hrefresh : s.refreshes e = some object) :
    w.stale s.clock = true := by
  rw [undisturbed, Bool.and_eq_true, hrefresh, Option.all_some] at h
  have hall := all_eq_true.mp (all_eq_true.mp h.1 w hw) sid hsid
  simpa [hget] using hall

theorem undisturbed_store (h : s.undisturbed hash e = true) (hw : w ∈ s.sweeps)
    (hsid : sid ∈ w.expired) (hwrite : s.writes hash e = some { sid := sid, stored := some object }) :
    s.staleObject w object = true := by
  rw [undisturbed, Bool.and_eq_true, hwrite, Option.all_some] at h
  have hall := all_eq_true.mp h.2 w hw
  simpa [hsid] using hall

/-!
## The invariant
-/

/-- The locked shard still holds what the scan has not looked at, and what is stored
under a collected id is stale. -/
structure SweepSound (s : Controller) (w : Sweep) : Prop where
  unread_get : forall p, p ∈ w.unread -> s.get hash p.1 = some p.2
  unread_shard : forall p, p ∈ w.unread -> SessionTable.shardIndex hash p.1 = w.shard
  expired_stale : forall sid, sid ∈ w.expired -> forall object,
    s.get hash sid = some object -> s.staleObject w object = true

structure Sound (s : Controller) : Prop where
  routed : s.sessions.Routed hash
  sweeps : forall w, w ∈ s.sweeps -> SweepSound hash s w

theorem new_sound (reserve : Nat) : Sound hash (new reserve) where
  routed := SessionTable.routed_new hash
  sweeps := by
    intro w hw
    cases hw

theorem locked_of_unread (hw : w ∈ s.sweeps) (hs : SweepSound hash s w) {p : String × Nat}
    (hp : p ∈ w.unread) :
    s.locked hash p.1 = true := by
  apply any_eq_true.mpr
  exact ⟨w, hw, by rw [hs.unread_shard p hp]; exact Sweep.locks_of_unread hp⟩

variable {write : TableWrite}

theorem permitted_eq_some {stored : Option Nat} (h : s.permitted hash sid stored = some write) :
    s.locked hash write.sid = false := by
  rw [permitted] at h
  split at h
  · cases h
  · rename_i hfree
    cases h
    exact Bool.eq_false_iff.mpr hfree

theorem writes_unlocked (h : s.writes hash e = some write) :
    s.locked hash write.sid = false := by
  cases e with
  | flow i e =>
    obtain ⟨f, -, hf⟩ := Option.bind_eq_some_iff.mp h
    cases e with
    | land =>
      simp only [flowWrite] at hf
      split at hf
      · exact permitted_eq_some hash hf
      · cases hf
    | cleanUp =>
      simp only [flowWrite] at hf
      split at hf
      · exact permitted_eq_some hash hf
      · cases hf
    | _ => cases hf
  | report msg =>
    obtain ⟨sid, -, hsid⟩ := Option.bind_eq_some_iff.mp h
    exact permitted_eq_some hash hsid
  | sweep i e =>
    obtain ⟨w, -, hw⟩ := Option.bind_eq_some_iff.mp h
    cases e with
    | expire entry =>
      simp only [sweepWrite] at hw
      split at hw
      · obtain ⟨sid, -, hsid⟩ := Option.bind_eq_some_iff.mp hw
        exact permitted_eq_some hash hsid
      · cases hw
    | _ => cases hw
  | _ => cases h

theorem refreshes_of_write (h : s.writes hash e = some write) :
    s.refreshes e = none := by
  cases e with
  | finishClient i => cases h
  | finishReport i => cases h
  | _ => rfl

theorem step_staleObject (h : s.staleObject w object = true)
    (hrefresh : s.refreshes e = some object -> w.stale s.clock = true) :
    (s.step hash md5 e).staleObject w object = true := by
  rw [staleObject_eq] at h ⊢
  cases hactivity : s.activity object with
  | none =>
    rw [hactivity] at h
    cases h
  | some last =>
    rw [hactivity] at h
    rw [s.step_activity hash md5 e hactivity]
    split
    · rename_i hrefreshed
      exact hrefresh hrefreshed
    · exact h

theorem SweepSound.step (hs : SweepSound hash s w) (hw : w ∈ s.sweeps)
    (hok : s.undisturbed hash e = true) :
    SweepSound hash (s.step hash md5 e) w := by
  cases hwrite : s.writes hash e with
  | none =>
    refine ⟨?_, hs.unread_shard, ?_⟩
    · intro p hp
      rw [step_get_of_none hash md5 hwrite]
      exact hs.unread_get p hp
    · intro sid hsid object hget
      rw [step_get_of_none hash md5 hwrite] at hget
      apply step_staleObject
      · exact hs.expired_stale sid hsid object hget
      · exact undisturbed_refresh hash hok hw hsid hget
  | some write =>
    have hnever := refreshes_of_write hash hwrite
    refine ⟨?_, hs.unread_shard, ?_⟩
    · intro p hp
      have hother : p.1 ≠ write.sid := by
        intro hsame
        have hlocked := locked_of_unread hash hw hs hp
        rw [hsame, writes_unlocked hash hwrite] at hlocked
        cases hlocked
      rw [step_get_of_some hash md5 hwrite, if_neg hother]
      exact hs.unread_get p hp
    · intro sid hsid object hget
      rw [step_get_of_some hash md5 hwrite] at hget
      apply step_staleObject
      · split at hget
        · rename_i hsame
          apply undisturbed_store hash hok hw hsid
          rw [hwrite, hsame, ← hget]
        · exact hs.expired_stale sid hsid object hget
      · intro hrefresh
        rw [hnever] at hrefresh
        cases hrefresh

/-!
## Moving a sweep
-/

theorem SweepSound.setPhase (hs : SweepSound hash s w) (i : Nat) (v : Sweep) (phase : Phase) :
    SweepSound hash (s.setPhase i v phase) w :=
  ⟨hs.unread_get, hs.unread_shard, hs.expired_stale⟩

theorem lockShard_sound (hs : Sound hash s) {shard : Table String Nat}
    (hshard : s.sessions.shards[w.shard]? = some shard) :
    SweepSound hash s
      { w with phase := .reading (shard.entries.map fun e => (e.1, e.2)) [] } := by
  have hentry : forall p, p ∈ shard.entries.map (fun e => (e.1, e.2)) ->
      SessionTable.shardIndex hash p.1 = w.shard ∧ s.get hash p.1 = some p.2 := by
    intro p hp
    obtain ⟨e, he, hpe⟩ := mem_map.mp hp
    rw [← hpe]
    exact hs.routed.get_of_mem hash hshard he
  refine ⟨fun p hp => (hentry p hp).2, fun p hp => (hentry p hp).1, ?_⟩
  intro sid hsid
  cases hsid

theorem readEntry_sound (hw : SweepSound hash s w) {unread : List (String × Nat)}
    {expired : List String} (hphase : w.phase = .reading unread expired) {entry : Nat}
    (hentry : unread[entry]? = some (sid, object)) :
    SweepSound hash s
      { w with
        phase := .reading (unread.eraseIdx entry)
          (if s.staleObject w object then expired ++ [sid] else expired) } := by
  have hunread : w.unread = unread := by
    rw [Sweep.unread, hphase]
  have hexpired : w.expired = expired := by
    rw [Sweep.expired, hphase]
  have hstored : s.get hash sid = some object := by
    apply hw.unread_get (sid, object)
    rw [hunread]
    exact mem_of_getElem? hentry
  have hsub : forall p, p ∈ unread.eraseIdx entry -> p ∈ w.unread := by
    intro p hp
    rw [hunread]
    exact mem_of_mem_eraseIdx hp
  refine ⟨fun p hp => hw.unread_get p (hsub p hp), fun p hp => hw.unread_shard p (hsub p hp), ?_⟩
  intro a ha other hget
  have hold : a ∈ expired -> s.staleObject w other = true := by
    intro hmem
    rw [← hexpired] at hmem
    exact hw.expired_stale a hmem other hget
  split at ha
  · rename_i hstale
    cases mem_append.mp ha with
    | inl hmem => exact hold hmem
    | inr hnew =>
      rw [mem_singleton.mp hnew, hstored] at hget
      cases hget
      exact hstale
  · exact hold ha

theorem expire_sound (hw : SweepSound hash s w) {expired : List String}
    (hphase : w.phase = .removing expired) (entry : Nat) (sid : String) :
    SweepSound hash (s.remove hash sid) { w with phase := .removing (expired.eraseIdx entry) } := by
  have hexpired : w.expired = expired := by
    rw [Sweep.expired, hphase]
  constructor
  · intro p hp
    cases hp
  · intro p hp
    cases hp
  · intro a ha object hget
    have hmem : a ∈ w.expired := by
      rw [hexpired]
      exact mem_of_mem_eraseIdx ha
    have hbefore : s.get hash a = some object := by
      have htaken := s.sessions.get_takeOut hash sid a
      change (s.sessions.takeOut hash sid).2.get hash a = some object at hget
      rw [htaken] at hget
      split at hget
      · cases hget
      · exact hget
    exact hw.expired_stale a hmem object hbefore

theorem idle_sound (s : Controller) (start timeout shard : Nat) :
    SweepSound hash s { start := start, timeout := timeout, shard := shard, phase := .idle } := by
  constructor
  · intro p hp
    cases hp
  · intro p hp
    cases hp
  · intro sid hsid
    cases hsid

/-- A sweep that a step leaves in the list is an old one or sound where it got to. -/
theorem stepSweep_sound (hs : Sound hash s) {i : Nat} (hi : s.sweeps[i]? = some w) (e : SweepStep) :
    forall v, v ∈ (s.stepSweep hash i w e).sweeps ->
      v ∈ s.sweeps ∨ SweepSound hash (s.stepSweep hash i w e) v := by
  have hw : SweepSound hash s w := hs.sweeps w (mem_of_getElem? hi)
  intro v hv
  cases e with
  | lockShard =>
    simp only [stepSweep] at hv ⊢
    split at hv
    · rw [lockShard] at hv ⊢
      split at hv
      · exact .inl hv
      · rename_i shard hshard
        cases mem_or_eq_of_mem_set hv with
        | inl hold => exact .inl hold
        | inr hnew =>
          rw [hnew]
          exact .inr ((lockShard_sound hash hs hshard).setPhase hash i w _)
    · exact .inl hv
  | readEntry entry =>
    simp only [stepSweep] at hv ⊢
    split at hv
    · rename_i unread expired hphase
      rw [readEntry] at hv ⊢
      split at hv
      · exact .inl hv
      · rename_i sid object hentry
        cases mem_or_eq_of_mem_set hv with
        | inl hold => exact .inl hold
        | inr hnew =>
          rw [hnew]
          exact .inr ((readEntry_sound hash hw hphase hentry).setPhase hash i w _)
    · exact .inl hv
  | unlockShard =>
    simp only [stepSweep] at hv ⊢
    split at hv
    · rename_i expired hphase
      cases mem_or_eq_of_mem_set hv with
      | inl hold => exact .inl hold
      | inr hnew =>
        rw [hnew]
        have hexpired : w.expired = expired := by
          rw [Sweep.expired, hphase]
        refine .inr ⟨?_, ?_, ?_⟩
        · intro p hp
          cases hp
        · intro p hp
          cases hp
        · intro sid hsid
          apply hw.expired_stale sid
          rw [hexpired]
          exact hsid
    · exact .inl hv
  | expire entry =>
    simp only [stepSweep] at hv ⊢
    split at hv
    · rename_i expired hphase
      rw [expire] at hv ⊢
      split at hv
      · exact .inl hv
      · rename_i sid hentry
        split at hv
        · exact .inl hv
        · rename_i hfree
          rw [if_neg hfree]
          cases mem_or_eq_of_mem_set hv with
          | inl hold => exact .inl hold
          | inr hnew =>
            rw [hnew]
            exact .inr ((expire_sound hash hw hphase entry sid).setPhase hash i w _)
    · exact .inl hv
  | nextShard =>
    simp only [stepSweep] at hv ⊢
    split at hv
    · cases mem_or_eq_of_mem_set hv with
      | inl hold => exact .inl hold
      | inr hnew =>
        rw [hnew]
        exact .inr (idle_sound hash _ w.start w.timeout (w.shard + 1))
    · exact .inl hv

/-!
## Every run
-/

/-- A step of another task leaves the sweeps as they are, or starts one. -/
theorem step_sweeps (s : Controller) (e : Event) (h : forall i step, e ≠ .sweep i step) :
    forall v, v ∈ (s.step hash md5 e).sweeps ->
      v ∈ s.sweeps ∨ SweepSound hash (s.step hash md5 e) v := by
  intro v hv
  cases e with
  | visitor viaCtl msg => exact .inl hv
  | flow i e =>
    simp only [step] at hv
    split at hv
    · rw [(s.stepFlow_keeps hash md5 i _ e).sweeps_eq] at hv
      exact .inl hv
    · exact .inl hv
  | client msg =>
    simp only [step, handleClient] at hv
    split at hv
    · exact .inl hv
    · exact .inl hv
  | finishClient i =>
    simp only [step] at hv
    split at hv
    · exact .inl hv
    · exact .inl hv
  | reportCall msg =>
    simp only [step, handleReport] at hv
    split at hv
    · exact .inl hv
    · exact .inl hv
  | finishReport i =>
    simp only [step] at hv
    split at hv
    · exact .inl hv
    · exact .inl hv
  | report msg =>
    simp only [step, handleNatHoleReport, complete] at hv
    split at hv
    · exact .inl hv
    · split at hv
      · exact .inl hv
      · split at hv
        · exact .inl hv
        · exact .inl hv
  | countDown =>
    simp only [step, countDown] at hv
    split at hv
    · exact .inl hv
    · exact .inl hv
  | tick elapsed => exact .inl hv
  | cleanAnalyzer => exact .inl hv
  | expireSessions timeout =>
    cases mem_append.mp hv with
    | inl hold => exact .inl hold
    | inr hnew =>
      rw [mem_singleton.mp hnew]
      exact .inr (idle_sound hash _ s.clock timeout 0)
  | sweep i e => exact absurd rfl (h i e)

theorem step_sound (hs : Sound hash s) (hok : s.undisturbed hash e = true) :
    Sound hash (s.step hash md5 e) where
  routed := (hs.routed.after hash (s.writes hash e)).congr hash (s.step_shards hash md5 e)
  sweeps := by
    have hmoved : forall v, v ∈ (s.step hash md5 e).sweeps ->
        v ∈ s.sweeps ∨ SweepSound hash (s.step hash md5 e) v := by
      cases e with
      | sweep i e =>
        simp only [step]
        cases hi : s.sweeps[i]? with
        | none => exact fun v hv => .inl hv
        | some w => exact stepSweep_sound hash hs hi e
      | _ =>
        apply step_sweeps
        intro i e h
        cases h
    intro v hv
    cases hmoved v hv with
    | inl hold => exact (hs.sweeps v hold).step hash md5 hold hok
    | inr hnew => exact hnew

theorem Sound.expiresFresh_eq_false (hs : Sound hash s) (e : Event) :
    s.expiresFresh hash e = false := by
  cases e with
  | sweep i e =>
    cases e with
    | expire entry =>
      simp only [expiresFresh, sweepWrite]
      cases hi : s.sweeps[i]? with
      | none => rfl
      | some w =>
        have hw := hs.sweeps w (mem_of_getElem? hi)
        cases hphase : w.phase with
        | idle => simp [hphase]
        | reading unread expired => simp [hphase]
        | removing expired =>
          simp only [Option.any_some, hphase]
          cases hentry : expired[entry]? with
          | none => rfl
          | some sid =>
            have hmem : sid ∈ w.expired := by
              rw [Sweep.expired, hphase]
              exact mem_of_getElem? hentry
            rw [Option.bind_some, permitted]
            split
            · rfl
            · rw [Option.any_some]
              cases hget : s.get hash sid with
              | none => rfl
              | some object =>
                rw [Option.any_some, hw.expired_stale sid hmem object hget]
                rfl
    | _ => rfl
  | _ => rfl

end Controller

/-- In a run in which no session is refreshed or stored under an id between a sweep's
finding it stale and removing it, no sweep ever removes a session that is not stale. -/
theorem sweep_removes_only_stale (hash : String -> Nat) (md5 : String -> String)
    (reserve : Nat) (es : List Event)
    (h : Run.Along (Controller.step hash md5) (fun s e => s.undisturbed hash e = true)
      (Controller.new reserve) es) :
    forall e, (Run.run (Controller.step hash md5) (Controller.new reserve) es).expiresFresh hash e
      = false := by
  have hs : Controller.Sound hash
      (Run.run (Controller.step hash md5) (Controller.new reserve) es) :=
    Run.run_invariant (fun _ _ hs hok => Controller.step_sound hash md5 hs hok)
      (Controller.new_sound hash reserve) h
  exact hs.expiresFresh_eq_false hash

def openSession : List Event :=
  [ .visitor true
      { transactionId := "w", proxyName := "p", protocol := none,
        mappedAddrs := none, assistedAddrs := none },
    .flow 0 .land, .flow 0 .settle, .flow 0 (.notifyProvider true) ]

def staleScan : List Event :=
  openSession ++
    [ .tick 120,
      .client
        { transactionId := "w", sid := some "w", protocol := none,
          mappedAddrs := none, assistedAddrs := none },
      .expireSessions 120, .sweep 0 .lockShard, .sweep 0 (.readEntry 0), .sweep 0 .unlockShard ]

theorem sweep_removes_only_stale_scan :
    Run.Along (Controller.step sampleHash id) (fun s e => s.undisturbed sampleHash e = true)
        (Controller.new 86400) staleScan ∧
      forall e, (Run.run (Controller.step sampleHash id) (Controller.new 86400)
        staleScan).expiresFresh sampleHash e = false :=
  ⟨by decide +kernel,
    sweep_removes_only_stale sampleHash id 86400 staleScan (by decide +kernel)⟩

/-- The provider's message refreshes the session between the scan and the removal, and
the removal takes it out all the same. -/
theorem sweep_removes_refreshed_session :
    (Run.run (Controller.step sampleHash id) (Controller.new 86400)
      (staleScan ++ [.finishClient 0])).expiresFresh sampleHash (.sweep 0 (.expire 0)) = true := by
  decide +kernel

end NatHole
end FrpRs
