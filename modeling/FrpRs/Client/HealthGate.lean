import FrpRs.Client.ReloadConvergence
import FrpRs.Client.Session
import FrpRs.Data.Run

/-!
# The health gate

A monitored proxy is to be opened only after its monitor has reported that it is healthy.  The
gate of a wire name is open if the last event of its running monitor in this session was a
recovery.  All proxies that the retry tick may open again stay behind open gates, as long as
reloads leave the monitored proxies alone and no monitor that was replaced is heard.

A reload opens an added or changed proxy at once, monitored or not.
-/

namespace FrpRs
namespace Client

open List

def Session.Open (t : Session) (name : Text) : Prop :=
  exists m, t.service.healthCancels.lookup name = some m ∧
    t.last.lookup (name, m.id) = some .recover

def Session.Gated (build : Build) (t : Session) (e : SessionEvent) : Prop :=
  forall name addr p, .newProxy name addr p ∈ (t.step build e).2 -> healthCheckMonitored p = true ->
    (t.deliver e).Open name

def Session.candidates (t : Session) : List ProxyConfig :=
  filterActiveProxies t.service.cfg t.service.proxies

def Session.Monitored (t : Session) (key : Text) : Prop :=
  exists p, p ∈ t.candidates ∧ healthCheckMonitored p = true ∧ wireProxyName t.cfgUser p.name = key

def Session.Waiting (t : Session) (key : Text) : Prop :=
  exists info, t.service.proxyInfoMap.lookup key = some info ∧ info.phase.isWaiting = true

structure Guarded (t : Session) : Prop where
  user : t.service.cfg.user = t.cfgUser
  keys : forall key, t.service.Registered key -> exists name, key = wireProxyName t.cfgUser name
  configs : forall key p, t.service.healthProxyConfigs.lookup key = some p ->
    key = wireProxyName t.cfgUser p.name
  pending : forall key, key ∈ t.pending -> ¬ t.Monitored key
  waiting : forall key, t.Waiting key -> t.Monitored key -> t.Open key

/-!
## Phases
-/

section SetInfo

variable (s : Service) (name : Text) (f : ProxyRuntimeInfo -> ProxyRuntimeInfo)

@[simp] theorem cfg_setInfo : (s.setInfo name f).cfg = s.cfg := by
  rw [Service.setInfo]
  split <;> rfl

@[simp] theorem proxies_setInfo : (s.setInfo name f).proxies = s.proxies := by
  rw [Service.setInfo]
  split <;> rfl

@[simp] theorem healthCancels_setInfo : (s.setInfo name f).healthCancels = s.healthCancels := by
  rw [Service.setInfo]
  split <;> rfl

@[simp] theorem healthProxyConfigs_setInfo :
    (s.setInfo name f).healthProxyConfigs = s.healthProxyConfigs := by
  rw [Service.setInfo]
  split <;> rfl

theorem lookup_setInfo (key : Text) :
    (s.setInfo name f).proxyInfoMap.lookup key =
      if key = name then (s.proxyInfoMap.lookup name).map f else s.proxyInfoMap.lookup key := by
  rw [Service.setInfo]
  split
  · rename_i info hinfo
    rw [Table.lookup_insert_eq, hinfo]
    rfl
  · rename_i hnone
    split
    · rename_i hkey
      rw [hkey, hnone]
      rfl
    · rfl

theorem registered_setInfo {key : Text} :
    (s.setInfo name f).Registered key ↔ s.Registered key := by
  rw [Service.Registered, lookup_setInfo, Service.Registered]
  split
  · rename_i hkey
    rw [Option.isSome_map, hkey]
  · exact Iff.rfl

end SetInfo

/-- What a step may change and keep the gates: phases, and gates that stay open. -/
structure Retains (t t' : Session) : Prop where
  config : t'.service.cfg = t.service.cfg
  proxies : t'.service.proxies = t.service.proxies
  user : t'.cfgUser = t.cfgUser
  configs : t'.service.healthProxyConfigs = t.service.healthProxyConfigs
  registered : forall key, t'.service.Registered key -> t.service.Registered key
  pending : forall key, key ∈ t'.pending -> key ∈ t.pending ∨ ¬ t.Monitored key
  waiting : forall key, t'.Waiting key ->
    ¬ t.Monitored key ∨ t'.Open key ∨ (t.Waiting key ∧ (t.Open key -> t'.Open key))

theorem Retains.monitored {t t' : Session} (h : Retains t t') (key : Text) :
    t'.Monitored key ↔ t.Monitored key := by
  rw [Session.Monitored, Session.Monitored, Session.candidates, Session.candidates, h.config,
    h.proxies, h.user]

theorem Guarded.retained {t t' : Session} (hguard : Guarded t) (h : Retains t t') : Guarded t' := by
  refine ⟨?_, ?_, ?_, ?_, ?_⟩
  · rw [h.config, h.user]
    exact hguard.user
  · intro key hkey
    rw [h.user]
    exact hguard.keys key (h.registered key hkey)
  · intro key p hp
    rw [h.configs] at hp
    rw [h.user]
    exact hguard.configs key p hp
  · intro key hkey
    rw [h.monitored]
    obtain hpending | hfree := h.pending key hkey
    · exact hguard.pending key hpending
    · exact hfree
  · intro key hwaiting hmonitored
    have hmonitored' := (h.monitored key).mp hmonitored
    obtain hfree | hopen | ⟨hbefore, hstays⟩ := h.waiting key hwaiting
    · exact absurd hmonitored' hfree
    · exact hopen
    · exact hstays (hguard.waiting key hbefore hmonitored')

theorem Retains.refl (t : Session) : Retains t t :=
  ⟨rfl, rfl, rfl, rfl, fun _ h => h, fun _ h => .inl h, fun _ h => .inr (.inr ⟨h, fun h => h⟩)⟩

theorem retains_setInfo {t : Session} {name : Text} {f : ProxyRuntimeInfo -> ProxyRuntimeInfo}
    (pending : List Text)
    (hpending : forall key, key ∈ pending -> key ∈ t.pending ∨ ¬ t.Monitored key)
    (hf : forall info, t.service.proxyInfoMap.lookup name = some info ->
      (f info).phase.isWaiting = true ->
      ¬ t.Monitored name ∨ t.Open name ∨ info.phase.isWaiting = true) :
    Retains t { t with pending := pending, service := t.service.setInfo name f } := by
  have hopen : forall key, t.Open key ->
      Session.Open { t with pending := pending, service := t.service.setInfo name f } key := by
    rintro key ⟨m, hm, hlast⟩
    exact ⟨m, (healthCancels_setInfo t.service name f).symm ▸ hm, hlast⟩
  refine ⟨cfg_setInfo _ _ _, proxies_setInfo _ _ _, rfl, healthProxyConfigs_setInfo _ _ _, ?_,
    hpending, ?_⟩
  · intro key hkey
    exact (registered_setInfo _ _ _).mp hkey
  · rintro key ⟨info', hinfo', hwaits⟩
    rw [lookup_setInfo] at hinfo'
    split at hinfo'
    · rename_i hkey
      obtain ⟨info, hinfo, rfl⟩ := Option.map_eq_some_iff.mp hinfo'
      rw [hkey]
      obtain hfree | hgate | hwaited := hf info hinfo hwaits
      · exact .inl hfree
      · exact .inr (.inl (hopen name hgate))
      · exact .inr (.inr ⟨⟨info, hinfo, hwaited⟩, hopen name⟩)
    · exact .inr (.inr ⟨⟨info', hinfo', hwaits⟩, hopen key⟩)

theorem Retains.trans {t t' t'' : Session} (h : Retains t t') (h' : Retains t' t'') :
    Retains t t'' := by
  refine ⟨h'.config.trans h.config, h'.proxies.trans h.proxies, h'.user.trans h.user,
    h'.configs.trans h.configs, fun key hkey => h.registered key (h'.registered key hkey), ?_, ?_⟩
  · intro key hkey
    obtain hpending | hfree := h'.pending key hkey
    · exact h.pending key hpending
    · exact .inr fun hmonitored => hfree ((h.monitored key).mpr hmonitored)
  · intro key hkey
    obtain hfree | hopen | ⟨hbetween, hstays'⟩ := h'.waiting key hkey
    · exact .inl fun hmonitored => hfree ((h.monitored key).mpr hmonitored)
    · exact .inr (.inl hopen)
    · obtain hfree | hopen | ⟨hbefore, hstays⟩ := h.waiting key hbetween
      · exact .inl hfree
      · exact .inr (.inl (hstays' hopen))
      · exact .inr (.inr ⟨hbefore, fun hgate => hstays' (hstays hgate)⟩)

/-!
## Answers
-/

theorem handleRegistrationResp_retains {t : Session} (hguard : Guarded t) (name : Text)
    (error : Option Text) : Retains t (handleRegistrationResp t name error) := by
  unfold handleRegistrationResp
  split
  · rename_i hpending
    have hmem : name ∈ t.pending := contains_iff_mem.mp hpending
    have hset : forall f, Retains t { t with
        pending := t.pending.erase name, service := t.service.setInfo name f } := fun f =>
      retains_setInfo _ (fun key hkey => .inl (mem_of_mem_erase hkey)) fun _ _ _ =>
        .inl (hguard.pending name hmem)
    cases error with
    | none => exact hset _
    | some e => exact hset _
  · exact Retains.refl t

theorem retains_foldl_fail (error : Text) (list : List Text) :
    forall t : Session, (forall name, name ∈ list -> ¬ t.Monitored name) ->
      Retains t { t with service := list.foldl (fun s name =>
        s.setInfo name (ProxyRuntimeInfo.fail error)) t.service } := by
  induction list with
  | nil =>
    intro t _
    exact Retains.refl t
  | cons name rest ih =>
    intro t hlist
    obtain ⟨hname, hrest⟩ := forall_mem_cons.mp hlist
    have hfirst : Retains t { t with
        service := t.service.setInfo name (ProxyRuntimeInfo.fail error) } :=
      retains_setInfo t.pending (fun _ hkey => .inl hkey) fun _ _ _ => .inl hname
    refine hfirst.trans (ih { t with
      service := t.service.setInfo name (ProxyRuntimeInfo.fail error) } ?_)
    intro other hother
    rw [hfirst.monitored]
    exact hrest other hother

theorem failPending_retains {t : Session} (hguard : Guarded t) (error : Text) :
    Retains t (failPending t error) := by
  have hfail := retains_foldl_fail error t.pending t hguard.pending
  exact ⟨hfail.config, hfail.proxies, hfail.user, hfail.configs, hfail.registered,
    fun _ hkey => absurd hkey not_mem_nil, hfail.waiting⟩

theorem handleNewProxyResp_retains (t : Session) (name : Text) (error : Option Text) :
    Retains t (handleNewProxyResp t name error) := by
  rw [handleNewProxyResp]
  split
  · apply retains_setInfo t.pending fun _ hkey => .inl hkey
    intro info _ hwaits
    refine .inr (.inr ?_)
    split at hwaits
    · rename_i hphase
      rw [hphase]
      rfl
    · exact hwaits
  · apply retains_setInfo t.pending fun _ hkey => .inl hkey
    intro info _ hwaits
    split at hwaits
    · cases hwaits
    · exact .inr (.inr hwaits)

theorem handleCloseProxy_retains (t : Session) (name : Text) :
    Retains t (handleCloseProxy t name) := by
  rw [handleCloseProxy]
  split
  · exact Retains.refl t
  · refine ⟨cfg_setInfo _ _ _, proxies_setInfo _ _ _, rfl, healthProxyConfigs_setInfo _ _ _, ?_,
      fun _ hkey => .inl hkey, ?_⟩
    · intro key hkey
      exact (registered_setInfo t.service name _).mp hkey
    · rintro key ⟨info', hinfo', hwaits⟩
      rw [lookup_setInfo] at hinfo'
      split at hinfo'
      · obtain ⟨info, _, rfl⟩ := Option.map_eq_some_iff.mp hinfo'
        cases hwaits
      · rename_i hkey
        refine .inr (.inr ⟨⟨info', hinfo', hwaits⟩, ?_⟩)
        rintro ⟨m, hm, hlast⟩
        refine ⟨m, ?_, hlast⟩
        rw [Table.lookup_erase_eq, if_neg hkey, healthCancels_setInfo]
        exact hm

/-!
## Retries
-/

theorem waiting_of_mem_retryList {t : Session} {due : Text -> Bool} {entry : Text × Text}
    (h : entry ∈ retryList t.service.proxyInfoMap due) : t.Waiting entry.1 := by
  obtain ⟨e, he, rfl⟩ := mem_map.mp h
  obtain hfailed | hwaits := mem_append.mp he
  · obtain ⟨hmem, hphase⟩ := mem_filter.mp hfailed
    refine ⟨e.2, AList.mem_lookup_iff.mpr hmem, ?_⟩
    split at hphase
    · rename_i error heq
      rw [heq]
      rfl
    · cases hphase
  · obtain ⟨hmem, hphase⟩ := mem_filter.mp hwaits
    refine ⟨e.2, AList.mem_lookup_iff.mpr hmem, ?_⟩
    rw [Bool.and_eq_true, decide_eq_true_eq] at hphase
    rw [hphase.1]
    rfl

/-- Some retries of a session: phases have changed, and what was opened was behind open gates. -/
structure Retried (t : Session) (u : Session × List Message) : Prop where
  retains : Retains t u.1
  healthCancels : u.1.service.healthCancels = t.service.healthCancels
  last : u.1.last = t.last
  gated : forall name addr p, .newProxy name addr p ∈ u.2 -> healthCheckMonitored p = true ->
    t.Open name

variable {u : Session × List Message}

theorem Retried.open_iff {t : Session} (h : Retried t u) (key : Text) :
    u.1.Open key ↔ t.Open key := by
  rw [Session.Open, Session.Open, h.healthCancels, h.last]

theorem retryProxy_retried {t : Session} (hguard : Guarded t) (accepts : Text -> Bool)
    (hu : Retried t u) {entry : Text × Text} (hentry : t.Waiting entry.1) :
    Retried t (retryProxy t.candidates accepts u entry) := by
  rw [retryProxy]
  split
  · exact hu
  · rename_i p hp
    split
    · have hsame : forall key, t.Open key -> Session.Open { u.1 with
          service := u.1.service.setInfo entry.1 fun info => { info with phase := .waitStart } } key := by
        intro key hopen
        obtain ⟨m, hm, hlast⟩ := (hu.open_iff key).mpr hopen
        exact ⟨m, (healthCancels_setInfo u.1.service entry.1 _).symm ▸ hm, hlast⟩
      refine ⟨⟨(cfg_setInfo _ _ _).trans hu.retains.config,
        (proxies_setInfo _ _ _).trans hu.retains.proxies, hu.retains.user,
        (healthProxyConfigs_setInfo _ _ _).trans hu.retains.configs, ?_, hu.retains.pending, ?_⟩,
        (healthCancels_setInfo _ _ _).trans hu.healthCancels, hu.last, ?_⟩
      · intro key hkey
        exact hu.retains.registered key ((registered_setInfo _ _ _).mp hkey)
      · rintro key ⟨info', hinfo', hwaits⟩
        rw [lookup_setInfo] at hinfo'
        split at hinfo'
        · rename_i hkey
          exact .inr (.inr ⟨hkey ▸ hentry, hsame key⟩)
        · obtain hfree | hopen | ⟨hbefore, _⟩ := hu.retains.waiting key ⟨info', hinfo', hwaits⟩
          · exact .inl hfree
          · exact .inr (.inl (hsame key ((hu.open_iff key).mp hopen)))
          · exact .inr (.inr ⟨hbefore, hsame key⟩)
      · intro name addr q hmem hmonitored
        obtain hold | hnew := mem_append.mp hmem
        · exact hu.gated name addr q hold hmonitored
        · cases mem_singleton.mp hnew
          have hregistered : t.service.Registered entry.1 := by
            obtain ⟨info, hinfo, _⟩ := hentry
            exact Option.isSome_iff_exists.mpr ⟨info, hinfo⟩
          obtain ⟨bare, hkey⟩ := hguard.keys entry.1 hregistered
          have hname : p.name = bare := by
            rw [name_of_findProxy hp, hu.retains.user, hkey, stripUser_wireProxyName]
          rw [hu.retains.user, hname, ← hkey]
          exact hguard.waiting entry.1 hentry ⟨p, mem_of_find?_eq_some hp, hmonitored,
            by rw [hname, hkey]⟩
    · exact hu

theorem handleProxyRetryTick_retried {t : Session} (hguard : Guarded t) (due accepts : Text -> Bool) :
    Retried t (handleProxyRetryTick t due accepts) := by
  have hfold : forall list : List (Text × Text), (forall entry, entry ∈ list -> t.Waiting entry.1) ->
      forall u, Retried t u -> Retried t (list.foldl (retryProxy t.candidates accepts) u) := by
    intro list
    induction list with
    | nil =>
      intro _ u hu
      exact hu
    | cons entry rest ih =>
      intro hlist u hu
      obtain ⟨hentry, hrest⟩ := forall_mem_cons.mp hlist
      exact ih hrest _ (retryProxy_retried hguard accepts hu hentry)
  apply hfold _ fun entry hentry => waiting_of_mem_retryList hentry
  exact ⟨Retains.refl t, rfl, rfl, fun _ _ _ hmem => absurd hmem not_mem_nil⟩

/-!
## Health events
-/

def HeardFrom (t : Session) (monitor : Nat) (kind : HealthKind) (name : Text) : Prop :=
  kind = .recover -> (t.service.healthProxyConfigs.lookup name).isSome = true ->
    exists m, t.service.healthCancels.lookup name = some m ∧ m.id = monitor

section Health

variable {t : Session} {monitor : Nat} {name : Text}

theorem open_of_ne {kind : HealthKind} {key : Text} (hkey : key ≠ name) (h : t.Open key) :
    Session.Open { t with last := t.last.insert (name, monitor) kind } key := by
  obtain ⟨m, hm, hlast⟩ := h
  refine ⟨m, hm, ?_⟩
  rw [Table.lookup_insert_eq, if_neg fun heq => hkey (Prod.mk.inj heq).1]
  exact hlast

theorem open_recover {key : Text} (h : t.Open key) :
    Session.Open { t with last := t.last.insert (name, monitor) .recover } key := by
  obtain ⟨m, hm, hlast⟩ := h
  refine ⟨m, hm, ?_⟩
  rw [Table.lookup_insert_eq]
  split
  · rfl
  · exact hlast

theorem handleHealthEvent_retains {kind : HealthKind} (hheard : HeardFrom t monitor kind name)
    (accepted : Bool) :
    Retains t (handleHealthEvent { t with last := t.last.insert (name, monitor) kind } kind name
      accepted).1 := by
  cases kind with
  | close =>
    refine ⟨cfg_setInfo _ _ _, proxies_setInfo _ _ _, rfl, healthProxyConfigs_setInfo _ _ _, ?_,
      fun _ hkey => .inl hkey, ?_⟩
    · intro key hkey
      exact (registered_setInfo t.service name _).mp hkey
    · rintro key ⟨info', hinfo', hwaits⟩
      dsimp only [handleHealthEvent] at hinfo'
      rw [lookup_setInfo] at hinfo'
      split at hinfo'
      · obtain ⟨info, _, rfl⟩ := Option.map_eq_some_iff.mp hinfo'
        cases hwaits
      · rename_i hkey
        refine .inr (.inr ⟨⟨info', hinfo', hwaits⟩, ?_⟩)
        intro hopen
        obtain ⟨m, hm, hlast⟩ := @open_of_ne t monitor name .close key hkey hopen
        exact ⟨m, (healthCancels_setInfo t.service name _).symm ▸ hm, hlast⟩
  | recover =>
    rw [handleHealthEvent]
    split
    · refine ⟨rfl, rfl, rfl, rfl, fun _ hkey => hkey, fun _ hkey => .inl hkey, ?_⟩
      intro key hwaits
      exact .inr (.inr ⟨hwaits, open_recover⟩)
    · rename_i p hp
      obtain ⟨m, hm, hid⟩ := hheard rfl (Option.isSome_iff_exists.mpr ⟨p, hp⟩)
      refine ⟨cfg_setInfo _ _ _, proxies_setInfo _ _ _, rfl, healthProxyConfigs_setInfo _ _ _, ?_,
        fun _ hkey => .inl hkey, ?_⟩
      · intro key hkey
        exact (registered_setInfo t.service name _).mp hkey
      · rintro key ⟨info', hinfo', hwaits⟩
        rw [lookup_setInfo] at hinfo'
        split at hinfo'
        · rename_i hkey
          refine .inr (.inl ⟨m, ?_, ?_⟩)
          · rw [hkey]
            exact (healthCancels_setInfo t.service name _).symm ▸ hm
          · rw [hkey, hid]
            exact AList.lookup_insert _
        · refine .inr (.inr ⟨⟨info', hinfo', hwaits⟩, ?_⟩)
          intro hopen
          obtain ⟨m', hm', hlast⟩ := @open_recover t monitor name key hopen
          exact ⟨m', (healthCancels_setInfo t.service name _).symm ▸ hm', hlast⟩

theorem handleHealthEvent_gated {kind : HealthKind} (hguard : Guarded t)
    (hheard : HeardFrom t monitor kind name) (accepted : Bool) {name' addr : Text}
    {p : ProxyConfig}
    (h : .newProxy name' addr p ∈ (handleHealthEvent
      { t with last := t.last.insert (name, monitor) kind } kind name accepted).2) :
    Session.Open { t with last := t.last.insert (name, monitor) kind } name' := by
  cases kind with
  | close =>
    rw [handleHealthEvent] at h
    split at h
    · cases mem_singleton.mp h
    · cases h
  | recover =>
    rw [handleHealthEvent] at h
    split at h
    · cases h
    · rename_i q hq
      split at h
      · cases mem_singleton.mp h
        obtain ⟨m, hm, hid⟩ := hheard rfl (Option.isSome_iff_exists.mpr ⟨_, hq⟩)
        have hname := hguard.configs name _ hq
        rw [← hname]
        refine ⟨m, hm, ?_⟩
        rw [hid]
        exact AList.lookup_insert _
      · cases h

end Health

/-!
## Reloads
-/

variable {p : ProxyConfig}

theorem mem_openMsgs {delta : ReloadDelta} {addrs : Table Text Text} {label n name addr : Text}
    {m : ReloadMsg} (hm : m ∈ openMsgs delta addrs label n) (hmsg : m.msg = .newProxy name addr p) :
    findProxy delta.newConfig.proxies n = some p ∧
      name = wireProxyName delta.newConfig.user n := by
  rw [openMsgs] at hm
  split at hm
  · rename_i q hq
    cases mem_singleton.mp hm
    cases hmsg
    exact ⟨hq, by rw [name_of_findProxy hq]⟩
  · cases hm

theorem opened_of_mem_reloadMsgs {s : Service} {delta : ReloadDelta} {addrs : Table Text Text}
    {name addr : Text} (h : .newProxy name addr p ∈ (reloadMsgs s delta addrs).map ReloadMsg.msg) :
    exists n, (n ∈ delta.changed ∨ n ∈ delta.added) ∧
      findProxy delta.newConfig.proxies n = some p ∧
      name = wireProxyName delta.newConfig.user n := by
  obtain ⟨m, hm, hmsg⟩ := mem_map.mp h
  rw [reloadMsgs, append_assoc] at hm
  obtain hclosed | hopened := mem_append.mp hm
  · obtain ⟨n, _, rfl⟩ := mem_map.mp hclosed
    cases hmsg
  · obtain hchanged | hadded := mem_append.mp hopened
    · obtain ⟨n, hn, hmem⟩ := mem_flatMap.mp hchanged
      rw [changedMsgs] at hmem
      split at hmem
      · obtain rfl | hopen := mem_cons.mp hmem
        · cases hmsg
        · exact ⟨n, .inl hn, mem_openMsgs hopen hmsg⟩
      · cases hmem
    · obtain ⟨n, hn, hmem⟩ := mem_flatMap.mp hadded
      exact ⟨n, .inr hn, mem_openMsgs hmem hmsg⟩

theorem opened_of_mem_sent {build : Build} {s : Service} {inputs : Inputs} {name addr : Text}
    (h : .newProxy name addr p ∈ (reloadFromSources build s inputs).sent) :
    exists cfg n, reloadedConfig s inputs = .ok cfg ∧
      (n ∈ (reloadDelta build s cfg).changed ∨ n ∈ (reloadDelta build s cfg).added) ∧
      findProxy (reloadDelta build s cfg).newConfig.proxies n = some p ∧
      name = wireProxyName (reloadDelta build s cfg).newConfig.user n := by
  rw [reloadFromSources] at h
  split at h
  · cases h
  · rename_i cfg hcfg
    rw [applyDelta] at h
    have hopened : exists n,
        (n ∈ (reloadDelta build s cfg).changed ∨ n ∈ (reloadDelta build s cfg).added) ∧
          findProxy (reloadDelta build s cfg).newConfig.proxies n = some p ∧
          name = wireProxyName (reloadDelta build s cfg).newConfig.user n := by
      split at h
      · cases h
      · split at h
        · cases h
        · rename_i addrs _
          dsimp only at h
          split at h
          · obtain ⟨m, hm, hmsg⟩ := mem_map.mp h
            exact opened_of_mem_reloadMsgs (mem_map.mpr ⟨m, mem_of_mem_take hm, hmsg⟩)
          · exact opened_of_mem_reloadMsgs h
    obtain ⟨n, hn, hp⟩ := hopened
    exact ⟨cfg, n, hcfg, hn, hp⟩

theorem service_reload (build : Build) (s : Service) (inputs : Inputs) :
    (reloadFromSources build s inputs).service = s ∨
      exists cfg, reloadedConfig s inputs = .ok cfg ∧
        ((reloadFromSources build s inputs).service = { s with cfg := cfg, proxies := cfg.proxies } ∨
          exists addrs, (reloadFromSources build s inputs).service =
            commitReload build.print s (reloadDelta build s cfg) addrs) := by
  rw [reloadFromSources]
  split
  · exact .inl rfl
  · rename_i cfg hcfg
    have hnew : (reloadDelta build s cfg).newConfig = cfg :=
      newConfig_reloadDelta build.vnet build.print build.order s cfg
    rw [applyDelta]
    split
    · refine .inr ⟨cfg, hcfg, .inl ?_⟩
      rw [hnew]
    · split
      · exact .inl rfl
      · rename_i addrs _
        dsimp only
        split
        · exact .inl rfl
        · exact .inr ⟨cfg, hcfg, .inr ⟨addrs, rfl⟩⟩

section Commit

variable {print : Printing} {s : Service} {delta : ReloadDelta} {addrs : Table Text Text}

theorem lookup_foldl_erase_of_ne {V : Type} (key : Text -> Text) (list : List Text) {x : Text} :
    forall t : Table Text V, (forall name, name ∈ list -> key name ≠ x) ->
      (list.foldl (fun t name => t.erase (key name)) t).lookup x = t.lookup x := by
  induction list with
  | nil =>
    intro t _
    rfl
  | cons name rest ih =>
    intro t h
    obtain ⟨hfirst, hrest⟩ := forall_mem_cons.mp h
    rw [foldl_cons, ih _ hrest, Table.lookup_erase_eq, if_neg (Ne.symm hfirst)]

theorem lookup_foldl_insertInfo_of_ne (print : Printing) (addrs : Table Text Text)
    (cfg : ClientConfig) (list : List Text) {x : Text} :
    forall t, (forall name, name ∈ list -> wireProxyName cfg.user name ≠ x) ->
      (list.foldl (insertInfo print addrs cfg) t).lookup x = t.lookup x := by
  induction list with
  | nil =>
    intro t _
    rfl
  | cons name rest ih =>
    intro t h
    obtain ⟨hfirst, hrest⟩ := forall_mem_cons.mp h
    rw [foldl_cons, ih _ hrest, insertInfo]
    split
    · rw [Table.lookup_insert_eq, if_neg (Ne.symm hfirst)]
    · rfl

theorem lookup_spawnHealthChecks_of_ne (user : Text) (proxies : List ProxyConfig) {x : Text} :
    forall s, (forall p, p ∈ proxies -> wireProxyName user p.name ≠ x) ->
      (spawnHealthChecks user proxies s).healthCancels.lookup x = s.healthCancels.lookup x := by
  induction proxies with
  | nil =>
    intro s _
    rfl
  | cons p ps ih =>
    intro s h
    obtain ⟨hfirst, hrest⟩ := forall_mem_cons.mp h
    have hstep : (spawnHealthCheck user s p).healthCancels.lookup x = s.healthCancels.lookup x := by
      rw [spawnHealthCheck]
      split
      · exact (Table.lookup_insert_eq _ _ _ _).trans (if_neg (Ne.symm hfirst))
      · rfl
    exact (ih _ hrest).trans hstep

theorem healthProxyConfigs_spawnHealthChecks (user : Text) (proxies : List ProxyConfig) :
    forall s, (spawnHealthChecks user proxies s).healthProxyConfigs = s.healthProxyConfigs := by
  induction proxies with
  | nil =>
    intro s
    rfl
  | cons p ps ih =>
    intro s
    have hstep : (spawnHealthCheck user s p).healthProxyConfigs = s.healthProxyConfigs := by
      rw [spawnHealthCheck]
      split <;> rfl
    exact (ih _).trans hstep

theorem proxyInfoMap_commitReload : (commitReload print s delta addrs).proxyInfoMap =
    (delta.changed ++ delta.added).foldl (insertInfo print addrs delta.newConfig)
      (delta.removed.foldl (fun t name =>
        t.erase (closeWireNameForReload s.proxyInfoMap name delta.newConfig.user))
          s.proxyInfoMap) := by
  exact (spawnHealthChecks_tables _ _ _).1

variable {key : Text}

theorem commitReload_kept {info : ProxyRuntimeInfo}
    (hopened : forall n, n ∈ delta.changed ∨ n ∈ delta.added ->
      wireProxyName delta.newConfig.user n ≠ key)
    (hchanged : forall n, n ∈ delta.changed ->
      closeWireNameForReload s.proxyInfoMap n delta.newConfig.user ≠ key)
    (h : (commitReload print s delta addrs).proxyInfoMap.lookup key = some info) :
    s.proxyInfoMap.lookup key = some info ∧
      (commitReload print s delta addrs).healthCancels.lookup key = s.healthCancels.lookup key := by
  rw [proxyInfoMap_commitReload, lookup_foldl_insertInfo_of_ne _ _ _ _ _ fun n hn =>
    hopened n (mem_append.mp hn)] at h
  have hremoved := ((isSome_foldl_erase _ _ _ _).mp (Option.isSome_iff_exists.mpr ⟨info, h⟩)).2
  rw [lookup_foldl_erase_of_ne _ _ _ hremoved] at h
  refine ⟨h, ?_⟩
  have hfresh : forall p, p ∈ delta.newConfig.proxies.filter (fun p =>
      delta.added.contains p.name || delta.changed.contains p.name) ->
      wireProxyName delta.newConfig.user p.name ≠ key := by
    intro p hp
    have hnamed := (mem_filter.mp hp).2
    rw [Bool.or_eq_true, contains_iff_mem, contains_iff_mem] at hnamed
    exact hopened p.name hnamed.symm
  refine (lookup_spawnHealthChecks_of_ne _ _ _ hfresh).trans ?_
  apply lookup_foldl_erase_of_ne
  intro n hn
  obtain hgone | hnew := mem_append.mp hn
  · exact hremoved n hgone
  · exact hchanged n hnew

theorem registered_commitReload (h : (commitReload print s delta addrs).Registered key) :
    s.Registered key ∨ exists n, key = wireProxyName delta.newConfig.user n := by
  by_cases hwire : exists n, key = wireProxyName delta.newConfig.user n
  · exact .inr hwire
  · have hno : forall n, wireProxyName delta.newConfig.user n ≠ key := fun n hn => hwire ⟨n, hn.symm⟩
    rw [Service.Registered, proxyInfoMap_commitReload,
      lookup_foldl_insertInfo_of_ne _ _ _ _ _ fun n _ => hno n] at h
    exact .inl ((isSome_foldl_erase _ _ _ _).mp h).1

theorem lookup_foldl_updateHealthConfig (cfg : ClientConfig) (list : List Text) :
    forall t, (list.foldl (updateHealthConfig cfg) t).lookup key = some p ->
      t.lookup key = some p ∨ key = wireProxyName cfg.user p.name := by
  induction list with
  | nil =>
    intro t h
    exact .inl h
  | cons name rest ih =>
    intro t h
    obtain hfirst | hwire := ih _ h
    · rw [updateHealthConfig] at hfirst
      split at hfirst
      · rename_i q hq
        split at hfirst
        · rw [Table.lookup_insert_eq] at hfirst
          split at hfirst
          · rename_i hkey
            cases hfirst
            rw [name_of_findProxy hq]
            exact .inr hkey
          · exact .inl hfirst
        · rw [Table.lookup_erase_eq] at hfirst
          split at hfirst
          · cases hfirst
          · exact .inl hfirst
      · exact .inl hfirst
    · exact .inr hwire

theorem commitReload_configs : (commitReload print s delta addrs).healthProxyConfigs =
    (delta.changed ++ delta.added).foldl (updateHealthConfig delta.newConfig)
      (delta.removed.foldl (fun t name =>
        t.erase (closeWireNameForReload s.proxyInfoMap name delta.newConfig.user))
          s.healthProxyConfigs) := by
  exact healthProxyConfigs_spawnHealthChecks _ _ _

theorem healthProxyConfigs_commitReload
    (h : (commitReload print s delta addrs).healthProxyConfigs.lookup key = some p) :
    s.healthProxyConfigs.lookup key = some p ∨
      key = wireProxyName delta.newConfig.user p.name := by
  rw [commitReload_configs] at h
  obtain hkept | hwire := lookup_foldl_updateHealthConfig _ _ _ h
  · have hclosed := ((isSome_foldl_erase _ _ _ _).mp (Option.isSome_iff_exists.mpr ⟨p, hkept⟩)).2
    rw [lookup_foldl_erase_of_ne _ _ _ hclosed] at hkept
    exact .inl hkept
  · exact .inr hwire

end Commit

/-- A reload that leaves the monitored proxies alone: the user stays, every monitored proxy of the
new configuration runs already with the same settings, and no changed proxy has the wire name of
another for its own name. -/
structure SparesMonitored (build : Build) (t : Session) (cfg : ClientConfig) : Prop where
  user : cfg.user = t.cfgUser
  distinct : (names cfg.proxies).Nodup
  monitored : forall p, p ∈ cfg.proxies -> healthCheckMonitored p = true ->
    p ∈ t.candidates ∧ t.service.Known cfg.user p.name ∧
      settingsDiffer build.vnet build.print t.service cfg p.name = false
  changed : forall name, settingsDiffer build.vnet build.print t.service cfg name = true ->
    ¬ t.service.Registered name

section SparesMonitored

variable {build : Build} {t : Session} {cfg : ClientConfig}

theorem SparesMonitored.not_opened (h : SparesMonitored build t cfg) (hp : p ∈ cfg.proxies)
    (hmonitored : healthCheckMonitored p = true) :
    p.name ∉ (reloadDelta build t.service cfg).changed ∧
      p.name ∉ (reloadDelta build t.service cfg).added := by
  obtain ⟨_, hknown, hsame⟩ := h.monitored p hp hmonitored
  constructor
  · intro hchanged
    have hdiffer := (mem_changed_iff build.vnet build.print build.order t.service cfg h.distinct
      p.name).mp hchanged
    rw [hsame] at hdiffer
    cases hdiffer
  · intro hadded
    exact ((mem_added_iff build.vnet build.print build.order t.service cfg p.name).mp hadded).2
      hknown

theorem mem_of_mem_filterActiveProxies {proxies : List ProxyConfig}
    (h : p ∈ filterActiveProxies cfg proxies) : p ∈ proxies := by
  have hstart := (mem_filter.mp h).1
  rw [filterStart] at hstart
  split at hstart
  · exact hstart
  · exact (mem_filter.mp hstart).1

theorem SparesMonitored.monitored_before (h : SparesMonitored build t cfg) {s' : Service}
    (hcfg : s'.cfg = cfg) (hproxies : s'.proxies = cfg.proxies) {key : Text}
    (hkey : Session.Monitored { t with service := s' } key) :
    t.Monitored key ∧ exists p, p ∈ cfg.proxies ∧ healthCheckMonitored p = true ∧
      wireProxyName t.cfgUser p.name = key := by
  obtain ⟨p, hp, hmonitored, hwire⟩ := hkey
  have hmem : p ∈ cfg.proxies := by
    have hactive : p ∈ filterActiveProxies s'.cfg s'.proxies := hp
    rw [hcfg, hproxies] at hactive
    exact mem_of_mem_filterActiveProxies hactive
  exact ⟨⟨p, (h.monitored p hmem hmonitored).1, hmonitored, hwire⟩, p, hmem, hmonitored, hwire⟩

theorem guarded_config (hguard : Guarded t) (h : SparesMonitored build t cfg)
    (hpending : t.pending = []) :
    Guarded { t with service := { t.service with cfg := cfg, proxies := cfg.proxies } } := by
  refine ⟨h.user, hguard.keys, hguard.configs, ?_, ?_⟩
  · intro key hkey
    rw [hpending] at hkey
    cases hkey
  · intro key hwaiting hmonitored
    exact hguard.waiting key hwaiting (h.monitored_before rfl rfl hmonitored).1

theorem guarded_commit (hguard : Guarded t) (h : SparesMonitored build t cfg)
    (hpending : t.pending = []) (addrs : Table Text Text) :
    Guarded { t with
      service := commitReload build.print t.service (reloadDelta build t.service cfg) addrs } := by
  have hnew : (reloadDelta build t.service cfg).newConfig = cfg :=
    newConfig_reloadDelta build.vnet build.print build.order t.service cfg
  have hcfg : (commitReload build.print t.service (reloadDelta build t.service cfg) addrs).cfg = cfg :=
    hnew
  have hproxies : (commitReload build.print t.service (reloadDelta build t.service cfg) addrs).proxies
      = cfg.proxies := congrArg ClientConfig.proxies hnew
  refine ⟨?_, ?_, ?_, ?_, ?_⟩
  · rw [hcfg]
    exact h.user
  · intro key hkey
    obtain hbefore | ⟨n, hn⟩ := registered_commitReload hkey
    · exact hguard.keys key hbefore
    · rw [hnew, h.user] at hn
      exact ⟨n, hn⟩
  · intro key p hp
    obtain hbefore | hwire := healthProxyConfigs_commitReload hp
    · exact hguard.configs key p hbefore
    · rwa [hnew, h.user] at hwire
  · intro key hkey
    rw [hpending] at hkey
    cases hkey
  · rintro key ⟨info, hinfo, hwaits⟩ hmonitored
    obtain ⟨hbefore, p, hp, hchecked, hwire⟩ := h.monitored_before hcfg hproxies hmonitored
    obtain ⟨hunchanged, hold⟩ := h.not_opened hp hchecked
    have hopened : forall n, n ∈ (reloadDelta build t.service cfg).changed ∨
        n ∈ (reloadDelta build t.service cfg).added ->
        wireProxyName (reloadDelta build t.service cfg).newConfig.user n ≠ key := by
      intro n hn hsame
      rw [hnew, h.user, ← hwire] at hsame
      cases wireProxyName_injective t.cfgUser hsame
      exact hn.elim hunchanged hold
    -- A changed name is no key, so it closes its own wire name only.
    have hchanged : forall n, n ∈ (reloadDelta build t.service cfg).changed ->
        closeWireNameForReload t.service.proxyInfoMap n
          (reloadDelta build t.service cfg).newConfig.user ≠ key := by
      intro n hn hclosed
      have hdiffer := (mem_changed_iff build.vnet build.print build.order t.service cfg h.distinct
        n).mp hn
      obtain ⟨hregistered, _⟩ | ⟨_, hsame⟩ := closeWireNameForReload_eq_iff.mp hclosed
      · exact h.changed n hdiffer hregistered
      · exact hopened n (.inl hn) hsame
    obtain ⟨hentry, hmonitor⟩ := commitReload_kept hopened hchanged hinfo
    obtain ⟨m, hm, hlast⟩ := hguard.waiting key ⟨info, hentry, hwaits⟩ hbefore
    exact ⟨m, hmonitor.trans hm, hlast⟩

end SparesMonitored

/-!
## Runs
-/

/-- The events that leave the gates in order: reloads spare the monitored proxies, and a recovery
comes from the running monitor. -/
def Session.Clean (build : Build) (t : Session) : SessionEvent -> Prop
  | .health monitor kind name _ => HeardFrom t monitor kind name
  | .reload inputs =>
    forall cfg, reloadedConfig t.service inputs = .ok cfg -> SparesMonitored build t cfg
  | _ => True

theorem step_guarded {build : Build} {t : Session} {e : SessionEvent} (hguard : Guarded t)
    (hclean : t.Clean build e) : Guarded (t.next build e) ∧ t.Gated build e := by
  rw [Session.next, Session.Gated, Session.step]
  by_cases hreceives : t.receives e = true
  · rw [if_pos hreceives]
    have hsilent : forall {t' : Session}, Retains t t' -> Guarded t' ∧
        forall name addr p, Message.newProxy name addr p ∈ ([] : List Message) ->
          healthCheckMonitored p = true -> t.Open name := fun hretains =>
      ⟨hguard.retained hretains, fun _ _ _ hmem => absurd hmem not_mem_nil⟩
    cases e with
    | registrationResp name error => exact hsilent (handleRegistrationResp_retains hguard name error)
    | registrationFailed error => exact hsilent (failPending_retains hguard error)
    | newProxyResp name error => exact hsilent (handleNewProxyResp_retains t name error)
    | closeProxy name => exact hsilent (handleCloseProxy_retains t name)
    | retryTick due accepts =>
      have hretried := handleProxyRetryTick_retried hguard due accepts
      exact ⟨hguard.retained hretried.retains, hretried.gated⟩
    | health monitor kind name accepted =>
      have hdeliver : t.deliver (.health monitor kind name accepted) =
          { t with last := t.last.insert (name, monitor) kind } := if_pos hreceives
      rw [hdeliver]
      exact ⟨hguard.retained (handleHealthEvent_retains hclean accepted),
        fun _ _ _ hmem _ => handleHealthEvent_gated hguard hclean accepted hmem⟩
    | reload inputs =>
      have hpending : t.pending = [] := isEmpty_iff.mp hreceives
      constructor
      · change Guarded { t with service := (reloadFromSources build t.service inputs).service }
        obtain hsame | ⟨cfg, hcfg, hconfig | ⟨addrs, hcommit⟩⟩ :=
          service_reload build t.service inputs
        · rw [hsame]
          exact hguard
        · rw [hconfig]
          exact guarded_config hguard (hclean cfg hcfg) hpending
        · rw [hcommit]
          exact guarded_commit hguard (hclean cfg hcfg) hpending addrs
      · intro name addr p hmem hmonitored
        have hsent : .newProxy name addr p ∈ (reloadFromSources build t.service inputs).sent := hmem
        obtain ⟨cfg, n, hcfg, hopened, hp, _⟩ := opened_of_mem_sent hsent
        have hnew : (reloadDelta build t.service cfg).newConfig = cfg :=
          newConfig_reloadDelta build.vnet build.print build.order t.service cfg
        rw [hnew] at hp
        obtain ⟨hunchanged, hold⟩ := (hclean cfg hcfg).not_opened (mem_of_find?_eq_some hp)
          hmonitored
        rw [name_of_findProxy hp] at hunchanged hold
        exact absurd hopened (not_or.mpr ⟨hunchanged, hold⟩)
  · rw [if_neg hreceives]
    exact ⟨hguard, fun _ _ _ hmem => absurd hmem not_mem_nil⟩

/-- A client whose session can start: keys are wire names of its user, names are distinct, and no
monitored proxy was left waiting by an earlier session. -/
structure ReadyForSession (s : Service) : Prop where
  keys : forall key, s.Registered key -> exists name, key = wireProxyName s.cfg.user name
  configs : forall key p, s.healthProxyConfigs.lookup key = some p ->
    key = wireProxyName s.cfg.user p.name
  distinct : (names s.proxies).Nodup
  quiet : forall p info, p ∈ filterActiveProxies s.cfg s.proxies -> healthCheckMonitored p = true ->
    s.proxyInfoMap.lookup (wireProxyName s.cfg.user p.name) = some info ->
    info.phase.isWaiting = false

theorem ReadyForSession.guarded {s : Service} (h : ReadyForSession s) :
    Guarded ⟨s, s.cfg.user, [], ∅⟩ := by
  refine ⟨rfl, h.keys, h.configs, fun _ hkey => absurd hkey not_mem_nil, ?_⟩
  rintro key ⟨info, hinfo, hwaits⟩ ⟨p, hp, hmonitored, hwire⟩
  have hquiet := h.quiet p info hp hmonitored (by rw [hwire]; exact hinfo)
  rw [hquiet] at hwaits
  cases hwaits

/-- A session during its registration: gates are in order and nothing monitored was opened. -/
structure Registering (t0 : Session) (u : Session × List Message) : Prop where
  retains : Retains t0 u.1
  sent : forall name addr p, .newProxy name addr p ∈ u.2 -> healthCheckMonitored p = false

theorem registerProxy_registering {t0 : Session} (hdistinct : (names t0.service.proxies).Nodup)
    (writeError : Text -> Option Text) (hu : Registering t0 u) (hp : p ∈ t0.candidates) :
    Registering t0 (registerProxy writeError u p) := by
  rw [registerProxy]
  split
  · exact hu
  · rename_i hchecked
    have hfree : ¬ u.1.Monitored (wireProxyName u.1.cfgUser p.name) := by
      rw [hu.retains.monitored]
      rintro ⟨q, hq, hmonitored, hwire⟩
      rw [hu.retains.user] at hwire
      have hname := wireProxyName_injective t0.cfgUser hwire
      have hfound := findProxy_of_mem hdistinct (mem_of_mem_filterActiveProxies hp)
      rw [← hname, findProxy_of_mem hdistinct (mem_of_mem_filterActiveProxies hq)] at hfound
      cases hfound
      exact hchecked hmonitored
    dsimp only
    split
    · refine ⟨hu.retains.trans ?_, hu.sent⟩
      exact retains_setInfo u.1.pending (fun _ hkey => .inl hkey) fun _ _ _ => .inl hfree
    · refine ⟨hu.retains.trans ⟨rfl, rfl, rfl, rfl, fun _ hkey => hkey, ?_, ?_⟩, ?_⟩
      · intro key hkey
        obtain hold | hnew := mem_append.mp hkey
        · exact .inl hold
        · rw [mem_singleton.mp hnew]
          exact .inr hfree
      · intro key hwaits
        exact .inr (.inr ⟨hwaits, fun hopen => hopen⟩)
      · intro name addr q hmem
        obtain hold | hnew := mem_append.mp hmem
        · exact hu.sent name addr q hold
        · cases mem_singleton.mp hnew
          exact Bool.eq_false_iff.mpr hchecked

theorem registerProxies_registering {s : Service} (h : ReadyForSession s)
    (writeError : Text -> Option Text) :
    Registering ⟨s, s.cfg.user, [], ∅⟩ (registerProxies s writeError) := by
  have hfold : forall list : List ProxyConfig,
      (forall p, p ∈ list -> p ∈ filterActiveProxies s.cfg s.proxies) ->
      forall u, Registering ⟨s, s.cfg.user, [], ∅⟩ u ->
        Registering ⟨s, s.cfg.user, [], ∅⟩ (list.foldl (registerProxy writeError) u) := by
    intro list
    induction list with
    | nil =>
      intro _ u hu
      exact hu
    | cons p rest ih =>
      intro hlist u hu
      obtain ⟨hp, hrest⟩ := forall_mem_cons.mp hlist
      exact ih hrest _ (registerProxy_registering h.distinct writeError hu hp)
  apply hfold _ fun p hp => hp
  exact ⟨Retains.refl _, fun _ _ _ hmem => absurd hmem not_mem_nil⟩

/-- In every session of a ready client whose events are clean, no monitored proxy is registered at
the start, and each one that is opened later is behind an open gate. -/
theorem health_gate (build : Build) (s : Service) (writeError : Text -> Option Text)
    (es : List SessionEvent) (hready : ReadyForSession s)
    (hclean : Run.Along (Session.next build) (Session.Clean build)
      (registerProxies s writeError).1 es) :
    (forall name addr p, .newProxy name addr p ∈ (registerProxies s writeError).2 ->
        healthCheckMonitored p = false) ∧
      Run.Along (Session.next build) (Session.Gated build) (registerProxies s writeError).1 es := by
  have hregistering := registerProxies_registering hready writeError
  refine ⟨hregistering.sent, ?_⟩
  exact Run.along_of_invariant (fun t e hguard hevent => step_guarded hguard hevent)
    (hready.guarded.retained hregistering.retains) hclean

def probedProxy (name : Text) : ProxyConfig :=
  { tcpProxy name with healthCheckType := "tcp".toList }

/-- A client with one probed proxy, before its first session. -/
def probedService : Service :=
  { singleService [] "p".toList with
    cfg := { proxies := [probedProxy "p".toList] }
    proxies := [probedProxy "p".toList]
    proxyInfoMap := (∅ : Table Text ProxyRuntimeInfo).insert "p".toList
      { runtimeInfo plainPrinting ∅ (probedProxy "p".toList) with phase := .new }
    healthCancels := (∅ : Table Text Monitor).insert "p".toList ⟨0, probedProxy "p".toList⟩
    healthProxyConfigs := (∅ : Table Text ProxyConfig).insert "p".toList (probedProxy "p".toList)
    nextMonitor := 1 }

theorem probedService_ready : ReadyForSession probedService := by
  refine ⟨?_, ?_, nodup_singleton _, ?_⟩
  · intro key _
    exact ⟨key, rfl⟩
  · intro key p hp
    rw [probedService, Table.lookup_insert_eq] at hp
    split at hp
    · rename_i hkey
      cases hp
      exact hkey
    · cases hp
  · intro p info hp _ hinfo
    cases mem_singleton.mp hp
    cases hinfo
    rfl

/-- The monitor reports a recovery, the server refuses, and the proxy is tried again. -/
theorem health_gate_retry :
    ((registerProxies probedService fun _ => none).1.next ⟨false, plainPrinting, insertionOrder⟩
        (.health 0 .recover "p".toList true)).Waiting "p".toList ∧
      Run.Along (Session.next ⟨false, plainPrinting, insertionOrder⟩)
        (Session.Gated ⟨false, plainPrinting, insertionOrder⟩)
        (registerProxies probedService fun _ => none).1
        [.health 0 .recover "p".toList true, .newProxyResp "p".toList (some "busy".toList),
          .retryTick (fun _ => true) (fun _ => true)] := by
  refine ⟨⟨_, rfl, rfl⟩, (health_gate ⟨false, plainPrinting, insertionOrder⟩ probedService
    (fun _ => none) _ probedService_ready ?_).2⟩
  refine ⟨?_, trivial, trivial, trivial⟩
  intro _ _
  exact ⟨_, rfl, rfl⟩

/-- A reload adds a probed proxy and opens it at once: no monitor has reported anything. -/
theorem reload_opens_unprobed :
    ReadyForSession probedService ∧
      ¬ Session.Gated ⟨false, plainPrinting, insertionOrder⟩
        (registerProxies probedService fun _ => none).1
        (.reload { singleInputs [] [] with
          loaded := .ok { proxies := [probedProxy "q".toList] } }) := by
  refine ⟨probedService_ready, ?_⟩
  intro hgated
  obtain ⟨m, hm, _⟩ := hgated "q".toList "127.0.0.1:80".toList (probedProxy "q".toList)
    (mem_cons_of_mem _ mem_cons_self) rfl
  cases hm

end Client
end FrpRs
