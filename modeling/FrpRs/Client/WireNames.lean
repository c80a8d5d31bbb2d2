import FrpRs.Client.ServerClose
import FrpRs.Client.ReloadOutcome
import FrpRs.Client.StartUp

/-!
# The names of requests and the keys of entries

Every `NewProxy` of a session should carry the key of an entry that the same step has put into
`WaitStart`, so that the answer finds it.  The session names proxies after the user it was opened
with, and a reload after the user of its configuration.
-/

namespace FrpRs
namespace Client

open List

def Message.opened : Message -> Option Text
  | .newProxy name _ _ => some name
  | .closeProxy _ => none

def Service.InWaitStart (s : Service) (key : Text) : Prop :=
  exists info, s.proxyInfoMap.lookup key = some info ∧ info.phase = .waitStart

def retried (t : Session) (accepts : Text -> Bool) (key : Text) : Bool :=
  accepts key && (findProxy t.candidates (stripUser t.cfgUser key)).isSome

def reopened (delta : ReloadDelta) : List Text :=
  ((delta.changed ++ delta.added).filter fun n =>
    (findProxy delta.newConfig.proxies n).isSome).map (wireProxyName delta.newConfig.user)

def reloadPuts (build : Build) (s : Service) (inputs : Inputs) : List Text :=
  match reloadedConfig s inputs, (reloadFromSources build s inputs).result with
  | .ok cfg, .ok () => reopened (reloadDelta build s cfg)
  | _, _ => []

/-- The keys whose entries a step puts into `WaitStart`. -/
def Session.puts (build : Build) (t : Session) (e : SessionEvent) : List Text :=
  if t.receives e then
    match e with
    | .retryTick due accepts =>
      ((retryList t.service.proxyInfoMap due).map Prod.fst).filter (retried t accepts)
    | .health _ .recover name _ =>
      if (t.service.healthProxyConfigs.lookup name).isSome &&
        (t.service.proxyInfoMap.lookup name).isSome then [name] else []
    | .reload inputs => reloadPuts build t.service inputs
    | _ => []
  else []

/-- One request for every such entry, under its key, or none if it could not be sent. -/
structure Session.Answerable (build : Build) (t : Session) (e : SessionEvent) : Prop where
  names : (t.step build e).2.filterMap Message.opened <+ t.puts build e
  waits : forall key, key ∈ t.puts build e -> (t.next build e).service.InWaitStart key

/-- A reload keeps the user of the session, and its messages are queued all or not at all. -/
def Session.KeepsUser (build : Build) (t : Session) (e : SessionEvent) : Prop :=
  forall inputs, e = .reload inputs -> ¬ RefusedMidway build t.service inputs ∧
    forall cfg, reloadedConfig t.service inputs = .ok cfg -> cfg.user = t.cfgUser

/-- Keys are wire names of the session's user, and a proxy that may recover has an entry. -/
structure Keyed (t : Session) : Prop where
  keys : forall key, t.service.Registered key -> exists n, key = wireProxyName t.cfgUser n
  configs : forall key p, t.service.healthProxyConfigs.lookup key = some p ->
    key = wireProxyName t.cfgUser p.name ∧ t.service.Registered key

variable {build : Build} {t : Session}

theorem Rephased.keyed {t' : Session} (h : Rephased t t') (hkeyed : Keyed t) : Keyed t' := by
  constructor
  · intro key hkey
    rw [h.user]
    exact hkeyed.keys key ((h.registered key).mp hkey)
  · intro key p hp
    rw [h.configs] at hp
    rw [h.user, h.registered]
    exact hkeyed.configs key p hp

/-!
## Retries
-/

theorem inWaitStart_setInfo {s : Service} {key name : Text}
    (h : s.InWaitStart key ∨ key = name ∧ s.Registered name) :
    (s.setInfo name fun info => { info with phase := .waitStart }).InWaitStart key := by
  unfold Service.InWaitStart
  rw [lookup_setInfo]
  split
  · rename_i heq
    have hsome : s.Registered name := by
      rcases h with ⟨info, hinfo, _⟩ | ⟨_, hregistered⟩
      · exact Option.isSome_iff_exists.mpr ⟨info, heq ▸ hinfo⟩
      · exact hregistered
    obtain ⟨info, hinfo⟩ := Option.isSome_iff_exists.mp hsome
    rw [hinfo]
    exact ⟨_, rfl, rfl⟩
  · rename_i hne
    rcases h with hwaits | ⟨heq, _⟩
    · exact hwaits
    · exact absurd heq hne

theorem foldl_retryProxy (hkeyed : Keyed t) (accepts : Text -> Bool) (list : List (Text × Text))
    (hlist : forall entry, entry ∈ list -> t.service.Registered entry.1)
    (u : Session × List Message) (hu : Rephased t u.1) :
    let v := list.foldl (retryProxy t.candidates accepts) u
    v.2.filterMap Message.opened =
        u.2.filterMap Message.opened ++ (list.map Prod.fst).filter (retried t accepts) ∧
      forall key, u.1.service.InWaitStart key ∨ key ∈ (list.map Prod.fst).filter (retried t accepts) ->
        v.1.service.InWaitStart key := by
  induction list generalizing u with
  | nil =>
    refine ⟨(append_nil _).symm, fun key hkey => ?_⟩
    exact hkey.resolve_right not_mem_nil
  | cons entry rest ih =>
    obtain ⟨hentry, hrest⟩ := forall_mem_cons.mp hlist
    have hnext := ih hrest (retryProxy t.candidates accepts u entry)
      (hu.trans (retryProxy_rephased t.candidates accepts u entry))
    rw [foldl_cons, map_cons]
    cases hretried : retried t accepts entry.1 with
    | false =>
      have hstays : retryProxy t.candidates accepts u entry = u := by
        unfold retryProxy
        rw [hu.user]
        split
        · rfl
        · rename_i p hp
          rw [retried, hp, Option.isSome_some, Bool.and_true] at hretried
          rw [if_neg (Bool.eq_false_iff.mp hretried)]
      rw [filter_cons_of_neg (Bool.eq_false_iff.mp hretried)]
      rw [hstays] at hnext ⊢
      exact hnext
    | true =>
      obtain ⟨haccepts, hfound⟩ := Bool.and_eq_true_iff.mp hretried
      obtain ⟨p, hp⟩ := Option.isSome_iff_exists.mp hfound
      obtain ⟨n, hn⟩ := hkeyed.keys entry.1 hentry
      have hname : wireProxyName t.cfgUser p.name = entry.1 := by
        rw [name_of_findProxy hp, hn, stripUser_wireProxyName]
      have hsends : retryProxy t.candidates accepts u entry =
          ({ u.1 with service := u.1.service.setInfo entry.1 fun info =>
              { info with phase := .waitStart } },
            u.2 ++ [createNewProxyMsg p entry.2 t.cfgUser]) := by
        simp only [retryProxy, hu.user, hp, if_pos haccepts]
      rw [filter_cons_of_pos hretried]
      rw [hsends] at hnext ⊢
      refine ⟨?_, fun key hkey => hnext.2 key ?_⟩
      · rw [hnext.1, filterMap_append, append_assoc, createNewProxyMsg, hname]
        rfl
      · rcases hkey with hwaits | hmem
        · exact .inl (inWaitStart_setInfo (.inl hwaits))
        · rcases mem_cons.mp hmem with heq | hmem
          · exact .inl (inWaitStart_setInfo (.inr ⟨heq, (hu.registered _).mpr hentry⟩))
          · exact .inr hmem

/-!
## Reloads
-/

theorem filterMap_flatMap_opened (delta : ReloadDelta) (f : Text -> List ReloadMsg)
    (hf : forall n, ((f n).map ReloadMsg.msg).filterMap Message.opened =
      if (findProxy delta.newConfig.proxies n).isSome then [wireProxyName delta.newConfig.user n]
      else []) (list : List Text) :
    ((list.flatMap f).map ReloadMsg.msg).filterMap Message.opened =
      (list.filter fun n => (findProxy delta.newConfig.proxies n).isSome).map
        (wireProxyName delta.newConfig.user) := by
  induction list with
  | nil => rfl
  | cons n rest ih =>
    rw [flatMap_cons, map_append, filterMap_append, ih, hf, filter_cons]
    split <;> rfl

theorem opened_openMsgs (delta : ReloadDelta) (addrs : Table Text Text) (label n : Text) :
    ((openMsgs delta addrs label n).map ReloadMsg.msg).filterMap Message.opened =
      if (findProxy delta.newConfig.proxies n).isSome then [wireProxyName delta.newConfig.user n]
      else [] := by
  unfold openMsgs
  split
  · rename_i p hp
    rw [hp, createNewProxyMsg, name_of_findProxy hp]
    rfl
  · rename_i hnone
    rw [hnone]
    rfl

theorem opened_reloadMsgs (s : Service) (delta : ReloadDelta) (addrs : Table Text Text) :
    ((reloadMsgs s delta addrs).map ReloadMsg.msg).filterMap Message.opened = reopened delta := by
  have hchanged (n : Text) :
      ((changedMsgs s delta addrs n).map ReloadMsg.msg).filterMap Message.opened =
        if (findProxy delta.newConfig.proxies n).isSome then [wireProxyName delta.newConfig.user n]
        else [] := by
    unfold changedMsgs
    split
    · exact opened_openMsgs delta addrs _ n
    · rename_i hnone
      rw [hnone]
      rfl
  have hremoved : ((delta.removed.map (closeMsg s delta "send CloseProxy for".toList)).map
      ReloadMsg.msg).filterMap Message.opened = [] := by
    rw [map_map, filterMap_map]
    exact filterMap_eq_nil_iff.mpr fun _ _ => rfl
  rw [reloadMsgs, map_append, map_append, filterMap_append, filterMap_append, hremoved,
    filterMap_flatMap_opened delta _ hchanged,
    filterMap_flatMap_opened delta _ (opened_openMsgs delta addrs _), nil_append, <- map_append,
    <- filter_append]
  rfl

/-- The entries that are opened again wait for an answer. -/
theorem inWaitStart_commitReload {print : Printing} {s : Service} {delta : ReloadDelta}
    {addrs : Table Text Text} {key : Text} (hkey : key ∈ reopened delta) :
    (commitReload print s delta addrs).InWaitStart key := by
  unfold Service.InWaitStart
  rw [proxyInfoMap_commitReload]
  obtain ⟨n, hn, rfl⟩ := mem_map.mp hkey
  obtain ⟨hmem, hfound⟩ := mem_filter.mp hn
  have hfold (list : List Text) (map : Table Text ProxyRuntimeInfo)
      (h : n ∈ list ∨ exists info, map.lookup (wireProxyName delta.newConfig.user n) = some info ∧
        info.phase = .waitStart) :
      exists info, (list.foldl (insertInfo print addrs delta.newConfig) map).lookup
        (wireProxyName delta.newConfig.user n) = some info ∧ info.phase = .waitStart := by
    induction list generalizing map with
    | nil => exact h.resolve_left not_mem_nil
    | cons m rest ih =>
      refine ih _ ?_
      by_cases hrest : n ∈ rest
      · exact .inl hrest
      · right
        unfold insertInfo
        split
        · rw [Table.lookup_insert_eq]
          split
          · exact ⟨_, rfl, rfl⟩
          · rename_i hne
            refine h.resolve_left ?_
            intro hcons
            rcases mem_cons.mp hcons with rfl | hin
            · exact hne rfl
            · exact hrest hin
        · rename_i hnone
          refine h.resolve_left ?_
          intro hcons
          rcases mem_cons.mp hcons with rfl | hin
          · rw [hnone] at hfound
            cases hfound
          · exact hrest hin
  exact hfold _ _ (.inl hmem)

theorem isSome_foldl_configs (print : Printing) (addrs : Table Text Text) (cfg : ClientConfig)
    (list : List Text) (map : Table Text ProxyRuntimeInfo) (configs : Table Text ProxyConfig)
    (h : forall key, (configs.lookup key).isSome = true -> (map.lookup key).isSome = true)
    (key : Text) (hkey : ((list.foldl (updateHealthConfig cfg) configs).lookup key).isSome = true) :
    ((list.foldl (insertInfo print addrs cfg) map).lookup key).isSome = true := by
  induction list generalizing map configs with
  | nil => exact h key hkey
  | cons n rest ih =>
    refine ih _ _ ?_ hkey
    intro key hkey
    unfold updateHealthConfig at hkey
    unfold insertInfo
    split at hkey
    · rw [Table.lookup_insert_eq]
      split
      · rfl
      · rename_i hne
        split at hkey
        · rw [Table.lookup_insert_eq, if_neg hne] at hkey
          exact h key hkey
        · rw [Table.lookup_erase_eq, if_neg hne] at hkey
          exact h key hkey
    · exact h key hkey

theorem Keyed.commitReload (hkeyed : Keyed t) {print : Printing} {delta : ReloadDelta}
    (huser : delta.newConfig.user = t.cfgUser) (addrs : Table Text Text) :
    Keyed { t with service := commitReload print t.service delta addrs } := by
  constructor
  · intro key hkey
    rcases registered_commitReload hkey with hbefore | ⟨n, hn⟩
    · exact hkeyed.keys key hbefore
    · exact ⟨n, huser ▸ hn⟩
  · intro key p hp
    constructor
    · rcases healthProxyConfigs_commitReload hp with hbefore | hwire
      · exact (hkeyed.configs key p hbefore).1
      · exact huser ▸ hwire
    · unfold Service.Registered
      dsimp only at hp ⊢
      rw [commitReload_configs] at hp
      rw [proxyInfoMap_commitReload]
      refine isSome_foldl_configs _ _ _ _ _ _ ?_ key (Option.isSome_iff_exists.mpr ⟨p, hp⟩)
      intro key hkey
      rw [isSome_foldl_erase] at hkey ⊢
      obtain ⟨q, hq⟩ := Option.isSome_iff_exists.mp hkey.1
      exact ⟨(hkeyed.configs key q hq).2, hkey.2⟩

theorem reload_answerable (hkeyed : Keyed t) {inputs : Inputs}
    (he : t.KeepsUser build (.reload inputs)) :
    let r := reloadFromSources build t.service inputs
    Keyed { t with service := r.service } ∧
      r.sent.filterMap Message.opened <+ reloadPuts build t.service inputs ∧
      forall key, key ∈ reloadPuts build t.service inputs -> r.service.InWaitStart key := by
  obtain ⟨hwhole, huser⟩ := he inputs rfl
  have hvoid {u : Service} (key : Text) (hkey : key ∈ []) : u.InWaitStart key :=
    absurd hkey not_mem_nil
  unfold reloadPuts reloadFromSources
  cases hcfg : reloadedConfig t.service inputs with
  | error e => exact ⟨hkeyed, nil_sublist _, hvoid⟩
  | ok cfg =>
    have hnew : (reloadDelta build t.service cfg).newConfig = cfg :=
      newConfig_reloadDelta build.vnet build.print build.order t.service cfg
    dsimp only
    unfold applyDelta
    cases hempty : (reloadDelta build t.service cfg).isEmpty with
    | true =>
      have hnone : reopened (reloadDelta build t.service cfg) = [] := by
        simp only [ReloadDelta.isEmpty, Bool.and_eq_true, List.isEmpty_iff] at hempty
        rw [reopened, hempty.1.1.1.1.2, hempty.1.1.1.2]
        rfl
      rw [if_pos rfl]
      dsimp only
      rw [hnone]
      exact ⟨⟨hkeyed.keys, hkeyed.configs⟩, nil_sublist _, hvoid⟩
    | false =>
      rw [if_neg Bool.false_ne_true]
      cases hstart : startPlugins inputs.startPlugin (reloadDelta build t.service cfg)
          ((reloadDelta build t.service cfg).added ++ (reloadDelta build t.service cfg).changed)
          ∅ with
      | error e => exact ⟨hkeyed, nil_sublist _, hvoid⟩
      | ok addrs =>
        dsimp only
        cases hrefused :
            (reloadMsgs t.service (reloadDelta build t.service cfg) addrs)[inputs.sends]? with
        | none =>
          dsimp only
          rw [opened_reloadMsgs]
          exact ⟨hkeyed.commitReload (by rw [hnew, huser cfg hcfg]) addrs, Sublist.refl _,
            fun _ hkey => inWaitStart_commitReload hkey⟩
        | some refused =>
          have hzero : inputs.sends = 0 := by
            by_contra hsome
            exact hwhole ⟨cfg, addrs, hcfg, hempty, hstart, Nat.pos_of_ne_zero hsome,
              (List.getElem?_eq_some_iff.mp hrefused).1⟩
          dsimp only
          rw [hzero, take_zero]
          exact ⟨hkeyed, nil_sublist _, hvoid⟩

/-!
## Runs
-/

theorem recover_answerable (hkeyed : Keyed t) (name : Text) (accepted : Bool) :
    let r := handleHealthEvent t .recover name accepted
    let keys := if (t.service.healthProxyConfigs.lookup name).isSome &&
      (t.service.proxyInfoMap.lookup name).isSome then [name] else []
    r.2.filterMap Message.opened <+ keys ∧ forall key, key ∈ keys -> r.1.service.InWaitStart key := by
  dsimp only
  unfold handleHealthEvent
  cases hconfig : t.service.healthProxyConfigs.lookup name with
  | none => exact ⟨nil_sublist _, nofun⟩
  | some p =>
    obtain ⟨hwire, hregistered⟩ := hkeyed.configs name p hconfig
    have hsome : (t.service.proxyInfoMap.lookup name).isSome = true := hregistered
    rw [Option.isSome_some, Bool.true_and, if_pos hsome]
    refine ⟨?_, fun key hkey => ?_⟩
    · dsimp only
      split
      · rw [createNewProxyMsg, <- hwire]
        exact Sublist.refl _
      · exact nil_sublist _
    · exact inWaitStart_setInfo (.inr ⟨mem_singleton.mp hkey, hregistered⟩)

theorem answerable_silent {e : SessionEvent} (hsent : (t.step build e).2.filterMap Message.opened = [])
    (hputs : t.puts build e = []) : t.Answerable build e := by
  refine ⟨hsent ▸ nil_sublist _, ?_⟩
  rw [hputs]
  exact nofun

theorem step_answerable (hkeyed : Keyed t) {e : SessionEvent} (he : t.KeepsUser build e) :
    Keyed (t.next build e) ∧ t.Answerable build e := by
  by_cases hreceives : t.receives e = true
  · have hstep : t.step build e = handleEvent build (t.deliver e) e := if_pos hreceives
    have hsilent (h : (t.step build e).2 = []) (hputs : t.puts build e = [])
        (hother : forall inputs, e ≠ .reload inputs) :
        Keyed (t.next build e) ∧ t.Answerable build e :=
      ⟨(next_rephased t e hother).keyed hkeyed, answerable_silent (by rw [h]; rfl) hputs⟩
    cases e with
    | registrationResp name error => exact hsilent (hstep ▸ rfl) (if_pos hreceives) (by simp)
    | registrationFailed error => exact hsilent (hstep ▸ rfl) (if_pos hreceives) (by simp)
    | newProxyResp name error => exact hsilent (hstep ▸ rfl) (if_pos hreceives) (by simp)
    | closeProxy name => exact hsilent (hstep ▸ rfl) (if_pos hreceives) (by simp)
    | retryTick due accepts =>
      have hputs : t.puts build (.retryTick due accepts) =
          ((retryList t.service.proxyInfoMap due).map Prod.fst).filter (retried t accepts) :=
        if_pos hreceives
      obtain ⟨hsent, hwaits⟩ := foldl_retryProxy hkeyed accepts
        (retryList t.service.proxyInfoMap due) (fun entry hentry => by
          obtain ⟨info, hinfo, _⟩ := waiting_of_mem_retryList hentry
          exact Option.isSome_iff_exists.mpr ⟨info, hinfo⟩) (t, []) (Rephased.refl t)
      refine ⟨(next_rephased t _ (by simp)).keyed hkeyed, ⟨?_, fun key hkey => ?_⟩⟩
      · rw [hputs, hstep]
        exact hsent ▸ Sublist.refl _
      · rw [hputs] at hkey
        rw [Session.next, hstep]
        exact hwaits key (.inr hkey)
    | health monitor kind name accepted =>
      have hdeliver : t.deliver (.health monitor kind name accepted) =
          { t with last := t.last.insert (name, monitor) kind } := if_pos hreceives
      rw [hdeliver] at hstep
      refine ⟨(next_rephased t _ (by simp)).keyed hkeyed, ?_⟩
      cases kind with
      | close =>
        refine answerable_silent ?_ (if_pos hreceives)
        rw [hstep, handleEvent, handleHealthEvent]
        cases accepted <;> rfl
      | recover =>
        have hputs : t.puts build (.health monitor .recover name accepted) =
            if (t.service.healthProxyConfigs.lookup name).isSome &&
              (t.service.proxyInfoMap.lookup name).isSome then [name] else [] := if_pos hreceives
        have hkeyed' : Keyed { t with last := t.last.insert (name, monitor) .recover } :=
          ⟨hkeyed.keys, hkeyed.configs⟩
        obtain ⟨hsent, hwaits⟩ := recover_answerable hkeyed' name accepted
        refine ⟨?_, fun key hkey => ?_⟩
        · rw [hputs, hstep]
          exact hsent
        · rw [hputs] at hkey
          rw [Session.next, hstep]
          exact hwaits key hkey
    | reload inputs =>
      obtain ⟨hnext, hsent, hwaits⟩ := reload_answerable hkeyed he
      have hputs : t.puts build (.reload inputs) = reloadPuts build t.service inputs :=
        if_pos hreceives
      refine ⟨?_, ⟨?_, fun key hkey => ?_⟩⟩
      · rw [Session.next, hstep]
        exact hnext
      · rw [hputs, hstep]
        exact hsent
      · rw [hputs] at hkey
        rw [Session.next, hstep]
        exact hwaits key hkey
  · refine ⟨?_, answerable_silent ?_ (if_neg hreceives)⟩
    · rw [Session.next, Session.step, if_neg hreceives]
      exact hkeyed
    · rw [Session.step, if_neg hreceives]
      rfl

/-- A client whose keys carry its user, as after start-up. -/
def KeyedService (s : Service) : Prop :=
  Keyed ⟨s, s.cfg.user, [], ∅⟩

theorem exists_of_lookup_foldl {V : Type} {user key : Text} {f : ProxyConfig -> V} {v : V}
    {proxies : List ProxyConfig}
    (h : (proxies.foldl (fun (map : Table Text V) p =>
      map.insert (wireProxyName user p.name) (f p)) ∅).lookup key = some v) :
    exists p, p ∈ proxies ∧ wireProxyName user p.name = key := by
  by_contra hno
  rw [lookup_foldl_insert_of_ne user f proxies _ fun p hp hkey => hno ⟨p, hp, hkey⟩] at h
  cases h

theorem initialService_keyed (print : Printing) {cfg : ClientConfig} (addrs : Table Text Text)
    (hnames : (names cfg.proxies).Nodup) : KeyedService (initialService print cfg addrs) := by
  constructor
  · intro key hkey
    obtain ⟨info, hinfo⟩ := Option.isSome_iff_exists.mp hkey
    obtain ⟨p, _, hwire⟩ := exists_of_lookup_foldl hinfo
    exact ⟨p.name, hwire.symm⟩
  · intro key p hp
    obtain ⟨q, hq, rfl⟩ := exists_of_lookup_foldl hp
    have hmonitored : (names (cfg.proxies.filter healthCheckMonitored)).Nodup :=
      hnames.sublist (filter_sublist.map _)
    have hsame := lookup_foldl_insert_of_mem cfg.user (fun p => p) _ ∅ hmonitored hq
    cases hsame.symm.trans hp
    refine ⟨rfl, Option.isSome_iff_exists.mpr ⟨initialInfo print addrs p, ?_⟩⟩
    exact lookup_foldl_insert_of_mem cfg.user (initialInfo print addrs) cfg.proxies ∅ hnames
      (mem_filter.mp hq).1

theorem wire_names_consistent (build : Build) (s : Service) (writeError : Text -> Option Text)
    (es : List SessionEvent) (hkeyed : KeyedService s)
    (hkeeps : Run.Along (Session.next build) (Session.KeepsUser build)
      (registerProxies s writeError).1 es) :
    Run.Along (Session.next build) (Session.Answerable build) (registerProxies s writeError).1
      es := by
  refine Run.along_of_invariant (fun t e (h : Keyed t) he => step_answerable h he) ?_ hkeeps
  exact (foldl_rephased (registerProxy_rephased writeError) _ _).keyed hkeyed

/-- A client of a user, as it is after start-up. -/
def startedService (user name : Text) : Service :=
  initialService plainPrinting { user := user, proxies := [tcpProxy name] } ∅

theorem wire_names_consistent_retry :
    Run.Along (Session.next ⟨false, plainPrinting, insertionOrder⟩)
      (Session.Answerable ⟨false, plainPrinting, insertionOrder⟩)
      (registerProxies (startedService "u".toList "a".toList) fun _ => none).1
      [.registrationFailed [], .retryTick (fun _ => true) fun _ => true] := by
  apply wire_names_consistent
  · exact initialService_keyed plainPrinting ∅ (nodup_singleton _)
  · refine ⟨?_, ?_, trivial⟩
    · intro inputs h
      cases h
    · intro inputs h
      cases h

/-- After a reload to no user, the retry of `b` asks for `u.b`. -/
theorem user_change_misnames :
    let t := (registerProxies (startedService "u".toList "a".toList) fun _ => none).1
    let es : List SessionEvent := [.registrationResp "u.a".toList none,
      .reload (singleInputs [] "b".toList), .newProxyResp "b".toList (some "e".toList)]
    let t' := Run.run (Session.next ⟨false, plainPrinting, insertionOrder⟩) t es
    ¬ t'.Answerable ⟨false, plainPrinting, insertionOrder⟩
      (.retryTick (fun _ => true) fun _ => true) := by
  intro t es t' h
  have hsent : (t'.step ⟨false, plainPrinting, insertionOrder⟩
      (.retryTick (fun _ => true) fun _ => true)).2.filterMap Message.opened = ["u.b".toList] := by
    decide +kernel
  have hputs : t'.puts ⟨false, plainPrinting, insertionOrder⟩
      (.retryTick (fun _ => true) fun _ => true) = ["b".toList] := by
    decide +kernel
  have hnames := h.names
  rw [hsent, hputs] at hnames
  exact absurd hnames (by decide)

end Client
end FrpRs
