import FrpRs.Client.HealthGate

/-!
# Proxies that the server has closed

A `CloseProxy` of the server ends a registered proxy for the session: its phase is `closed`,
which the retry tick passes over, and its monitor is cancelled.  The configuration that a
recovery would open again stays in `health_proxy_configs`, unlike on the removal of a proxy
by a reload, and a recovery that the monitor had already sent opens the closed proxy.
-/

namespace FrpRs
namespace Client

open List

def Session.opens (t : Session) (key : Text) : Text :=
  wireProxyName t.cfgUser (stripUser t.cfgUser key)

/-- The proxy of this wire name has no second entry under another key. -/
structure Sole (name : Text) (t : Session) : Prop where
  user : t.service.cfg.user = t.cfgUser
  keys : forall key, t.service.Registered key -> t.opens key = name -> key = name
  configs : forall key p, t.service.healthProxyConfigs.lookup key = some p ->
    wireProxyName t.cfgUser p.name = name -> key = name

/-- The message loop runs and the proxy is not due for a retry. -/
structure Ended (name : Text) (t : Session) : Prop where
  sole : Sole name t
  pending : t.pending = []
  waiting : ¬ t.Waiting name

def Session.LeavesClosed (build : Build) (name : Text) (t : Session) (e : SessionEvent) : Prop :=
  forall addr p, .newProxy name addr p ∉ (t.step build e).2

/-- A reload that does not touch the proxy: the user stays, and the proxy is not among those that
are opened, or closed to be opened again. -/
structure Spares (build : Build) (name : Text) (t : Session) (cfg : ClientConfig) : Prop where
  user : cfg.user = t.cfgUser
  opened : forall n, n ∈ (reloadDelta build t.service cfg).changed ∨
    n ∈ (reloadDelta build t.service cfg).added -> wireProxyName cfg.user n ≠ name
  closed : forall n, n ∈ (reloadDelta build t.service cfg).changed ->
    closeWireNameForReload t.service.proxyInfoMap n cfg.user ≠ name

def Session.Untouched (build : Build) (name : Text) (t : Session) : SessionEvent -> Prop
  | .reload inputs => forall cfg, reloadedConfig t.service inputs = .ok cfg -> Spares build name t cfg
  | _ => True

def Session.Unrecovered (name : Text) (t : Session) : SessionEvent -> Prop
  | .health _ .recover heard _ => heard = name -> t.service.healthProxyConfigs.lookup name = none
  | _ => True

/-!
## What phases leave alone
-/

/-- Phases may have changed; the configuration and the set of keys are as they were. -/
structure Rephased (t t' : Session) : Prop where
  config : t'.service.cfg = t.service.cfg
  user : t'.cfgUser = t.cfgUser
  configs : t'.service.healthProxyConfigs = t.service.healthProxyConfigs
  registered : forall key, t'.service.Registered key ↔ t.service.Registered key

theorem Rephased.refl (t : Session) : Rephased t t := by
  constructor
  · rfl
  · rfl
  · rfl
  · intro key
    exact Iff.rfl

theorem Rephased.trans {t t' t'' : Session} (h : Rephased t t') (h' : Rephased t' t'') :
    Rephased t t'' := by
  constructor
  · exact h'.config.trans h.config
  · exact h'.user.trans h.user
  · exact h'.configs.trans h.configs
  · intro key
    exact (h'.registered key).trans (h.registered key)

variable {name : Text}

theorem Rephased.sole {t t' : Session} (h : Rephased t t') (hsole : Sole name t) :
    Sole name t' := by
  constructor
  · rw [h.config, h.user]
    exact hsole.user
  · intro key hkey hopens
    unfold Session.opens at hopens
    rw [h.user] at hopens
    exact hsole.keys key ((h.registered key).mp hkey) hopens
  · intro key p hp hwire
    rw [h.configs] at hp
    rw [h.user] at hwire
    exact hsole.configs key p hp hwire

theorem rephased_setInfo (t : Session) (pending : List Text) (name : Text)
    (f : ProxyRuntimeInfo -> ProxyRuntimeInfo) :
    Rephased t { t with pending := pending, service := t.service.setInfo name f } := by
  constructor
  · exact cfg_setInfo t.service name f
  · rfl
  · exact healthProxyConfigs_setInfo t.service name f
  · intro key
    exact registered_setInfo t.service name f

theorem rephased_foldl_fail (error : Text) (list : List Text) (t : Session) :
    Rephased t { t with service := list.foldl (fun s name =>
      s.setInfo name (ProxyRuntimeInfo.fail error)) t.service } := by
  induction list generalizing t with
  | nil =>
    exact Rephased.refl t
  | cons name rest ih =>
    exact (rephased_setInfo t t.pending name (ProxyRuntimeInfo.fail error)).trans
      (ih { t with service := t.service.setInfo name (ProxyRuntimeInfo.fail error) })

theorem handleRegistrationResp_rephased (t : Session) (name : Text) (error : Option Text) :
    Rephased t (handleRegistrationResp t name error) := by
  unfold handleRegistrationResp
  split
  · cases error with
    | none => exact rephased_setInfo t _ name _
    | some e => exact rephased_setInfo t _ name _
  · exact Rephased.refl t

theorem failPending_rephased (t : Session) (error : Text) : Rephased t (failPending t error) := by
  have h := rephased_foldl_fail error t.pending t
  exact ⟨h.config, h.user, h.configs, h.registered⟩

theorem handleNewProxyResp_rephased (t : Session) (name : Text) (error : Option Text) :
    Rephased t (handleNewProxyResp t name error) := by
  unfold handleNewProxyResp
  split
  · exact rephased_setInfo t t.pending name _
  · exact rephased_setInfo t t.pending name _

theorem handleCloseProxy_rephased (t : Session) (name : Text) :
    Rephased t (handleCloseProxy t name) := by
  unfold handleCloseProxy
  split
  · exact Rephased.refl t
  · have h := rephased_setInfo t t.pending name fun info => { info with phase := .closed }
    exact ⟨h.config, h.user, h.configs, h.registered⟩

theorem retryProxy_rephased (candidates : List ProxyConfig) (accepts : Text -> Bool)
    (u : Session × List Message) (entry : Text × Text) :
    Rephased u.1 (retryProxy candidates accepts u entry).1 := by
  unfold retryProxy
  split
  · exact Rephased.refl u.1
  · split
    · exact rephased_setInfo u.1 u.1.pending entry.1 _
    · exact Rephased.refl u.1

theorem foldl_rephased {A : Type} {f : Session × List Message -> A -> Session × List Message}
    (h : forall u a, Rephased u.1 (f u a).1) (list : List A) (u : Session × List Message) :
    Rephased u.1 (list.foldl f u).1 := by
  induction list generalizing u with
  | nil =>
    exact Rephased.refl u.1
  | cons a rest ih =>
    exact (h u a).trans (ih (f u a))

theorem handleHealthEvent_rephased (t : Session) (kind : HealthKind) (name : Text) (accepted : Bool) :
    Rephased t (handleHealthEvent t kind name accepted).1 := by
  cases kind with
  | close => exact rephased_setInfo t t.pending name _
  | recover =>
    unfold handleHealthEvent
    dsimp only
    split
    · exact Rephased.refl t
    · exact rephased_setInfo t t.pending name _

theorem registerProxy_rephased (writeError : Text -> Option Text) (u : Session × List Message)
    (p : ProxyConfig) : Rephased u.1 (registerProxy writeError u p).1 := by
  unfold registerProxy
  split
  · exact Rephased.refl u.1
  · dsimp only
    split
    · exact rephased_setInfo u.1 u.1.pending _ _
    · exact ⟨rfl, rfl, rfl, fun _ => Iff.rfl⟩

variable {build : Build}

theorem next_rephased (t : Session) (e : SessionEvent) (h : forall inputs, e ≠ .reload inputs) :
    Rephased t (t.next build e) := by
  unfold Session.next Session.step
  split
  · rename_i hreceives
    cases e with
    | registrationResp name error => exact handleRegistrationResp_rephased t name error
    | registrationFailed error => exact failPending_rephased t error
    | newProxyResp name error => exact handleNewProxyResp_rephased t name error
    | closeProxy name => exact handleCloseProxy_rephased t name
    | retryTick due accepts =>
      exact foldl_rephased (retryProxy_rephased t.candidates accepts) _ (t, [])
    | health monitor kind name accepted =>
      have hdeliver : t.deliver (.health monitor kind name accepted) =
          { t with last := t.last.insert (name, monitor) kind } := if_pos hreceives
      rw [hdeliver]
      have hevent := handleHealthEvent_rephased
        { t with last := t.last.insert (name, monitor) kind } kind name accepted
      exact ⟨hevent.config, hevent.user, hevent.configs, hevent.registered⟩
    | reload inputs => exact absurd rfl (h inputs)
  · exact Rephased.refl t

/-!
## Reloads
-/

theorem opens_wireProxyName (t : Session) (n : Text) :
    t.opens (wireProxyName t.cfgUser n) = wireProxyName t.cfgUser n := by
  unfold Session.opens
  rw [stripUser_wireProxyName]

variable {t : Session}

/-- What a reload that spares the proxy leaves of its entry. -/
theorem reload_spares {inputs : Inputs} (hsole : Sole name t)
    (huntouched : t.Untouched build name (.reload inputs)) :
    Sole name { t with service := (reloadFromSources build t.service inputs).service } ∧
      (Session.Waiting { t with service := (reloadFromSources build t.service inputs).service } name ->
        t.Waiting name) ∧
      forall addr p, .newProxy name addr p ∉ (reloadFromSources build t.service inputs).sent := by
  have hnew : forall cfg, (reloadDelta build t.service cfg).newConfig = cfg := fun cfg =>
    newConfig_reloadDelta build.vnet build.print build.order t.service cfg
  constructor
  · rcases service_reload build t.service inputs with hsame | ⟨cfg, hcfg, hconfig | ⟨addrs, hcommit⟩⟩
    · rw [hsame]
      exact hsole
    · rw [hconfig]
      exact ⟨(huntouched cfg hcfg).user, hsole.keys, hsole.configs⟩
    · rw [hcommit]
      have huser := (huntouched cfg hcfg).user
      constructor
      · show (reloadDelta build t.service cfg).newConfig.user = t.cfgUser
        rw [hnew]
        exact huser
      · intro key hkey hopens
        rcases registered_commitReload hkey with hbefore | ⟨n, hn⟩
        · exact hsole.keys key hbefore hopens
        · rw [hnew, huser] at hn
          rw [hn] at hopens ⊢
          exact (opens_wireProxyName t n).symm.trans hopens
      · intro key p hp hwire
        rcases healthProxyConfigs_commitReload hp with hbefore | hkey
        · exact hsole.configs key p hbefore hwire
        · rw [hnew, huser] at hkey
          exact hkey.trans hwire
  · constructor
    · rcases service_reload build t.service inputs with
        hsame | ⟨cfg, hcfg, hconfig | ⟨addrs, hcommit⟩⟩
      · rw [hsame]
        exact id
      · rw [hconfig]
        exact id
      · rw [hcommit]
        intro hwaiting
        rcases hwaiting with ⟨info, hinfo, hwaits⟩
        have hspares := huntouched cfg hcfg
        have hkept := commitReload_kept (by rw [hnew]; exact hspares.opened)
          (by rw [hnew]; exact hspares.closed) hinfo
        exact ⟨info, hkept.1, hwaits⟩
    · intro addr p hmem
      rcases opened_of_mem_sent hmem with ⟨cfg, n, hcfg, hopened, _, hname⟩
      rw [hnew] at hname
      exact (huntouched cfg hcfg).opened n hopened hname.symm

theorem next_sole {e : SessionEvent} (hsole : Sole name t) (huntouched : t.Untouched build name e) :
    Sole name (t.next build e) := by
  cases e with
  | reload inputs =>
    unfold Session.next Session.step
    split
    · exact (reload_spares hsole huntouched).1
    · exact hsole
  | registrationResp n error => exact (next_rephased t _ (by simp)).sole hsole
  | registrationFailed error => exact (next_rephased t _ (by simp)).sole hsole
  | newProxyResp n error => exact (next_rephased t _ (by simp)).sole hsole
  | closeProxy n => exact (next_rephased t _ (by simp)).sole hsole
  | retryTick due accepts => exact (next_rephased t _ (by simp)).sole hsole
  | health monitor kind n accepted => exact (next_rephased t _ (by simp)).sole hsole

/-!
## After the close
-/

theorem not_waiting_setInfo {name n : Text} {f : ProxyRuntimeInfo -> ProxyRuntimeInfo}
    (h : ¬ t.Waiting name)
    (hf : n = name -> forall info, (f info).phase.isWaiting = true -> info.phase.isWaiting = true) :
    ¬ Session.Waiting { t with service := t.service.setInfo n f } name := by
  intro hwaiting
  rcases hwaiting with ⟨info', hinfo', hwaits⟩
  rw [lookup_setInfo] at hinfo'
  split at hinfo'
  · rename_i hname
    rcases Option.map_eq_some_iff.mp hinfo' with ⟨info, hinfo, rfl⟩
    rw [hname] at h
    exact h ⟨info, hinfo, hf hname.symm info hwaits⟩
  · exact h ⟨info', hinfo', hwaits⟩

theorem handleNewProxyResp_ended (h : Ended name t) (n : Text) (error : Option Text) :
    Ended name (handleNewProxyResp t n error) := by
  constructor
  · exact (handleNewProxyResp_rephased t n error).sole h.sole
  · unfold handleNewProxyResp
    split
    · exact h.pending
    · exact h.pending
  · unfold handleNewProxyResp
    split
    · apply not_waiting_setInfo h.waiting
      intro _ info hwaits
      split at hwaits
      · rename_i hphase
        rw [hphase]
        rfl
      · exact hwaits
    · apply not_waiting_setInfo h.waiting
      intro _ info hwaits
      split at hwaits
      · cases hwaits
      · exact hwaits

theorem handleCloseProxy_ended (h : Ended name t) (n : Text) :
    Ended name (handleCloseProxy t n) := by
  constructor
  · exact (handleCloseProxy_rephased t n).sole h.sole
  · unfold handleCloseProxy
    split
    · exact h.pending
    · exact h.pending
  · unfold handleCloseProxy
    split
    · exact h.waiting
    · apply not_waiting_setInfo h.waiting
      intro _ info hwaits
      cases hwaits

theorem handleCloseProxy_ends (hsole : Sole name t) (hpending : t.pending = [])
    (hphase : forall info, t.service.proxyInfoMap.lookup name = some info ->
      info.phase ≠ .new ∧ info.phase ≠ .waitStart) : Ended name (handleCloseProxy t name) := by
  have hkilled : ((t.service.proxyInfoMap.lookup name).any fun info =>
      info.phase = .new || info.phase = .waitStart) = false := by
    cases hlookup : t.service.proxyInfoMap.lookup name with
    | none => rfl
    | some info =>
      have hinfo := hphase info hlookup
      simp [hinfo.1, hinfo.2]
  constructor
  · exact (handleCloseProxy_rephased t name).sole hsole
  · unfold handleCloseProxy
    rw [hkilled]
    exact hpending
  · unfold handleCloseProxy
    rw [hkilled]
    intro hwaiting
    rcases hwaiting with ⟨info', hinfo', hwaits⟩
    rw [if_neg (by decide)] at hinfo'
    rw [lookup_setInfo, if_pos rfl] at hinfo'
    rcases Option.map_eq_some_iff.mp hinfo' with ⟨info, _, rfl⟩
    cases hwaits

/-- Some retries: the proxy is not waiting and was not opened. -/
structure Passed (name : Text) (t : Session) (u : Session × List Message) : Prop where
  rephased : Rephased t u.1
  pending : u.1.pending = t.pending
  waiting : ¬ u.1.Waiting name
  sent : forall addr p, .newProxy name addr p ∉ u.2

theorem retryProxy_passed (h : Ended name t) (accepts : Text -> Bool) {u : Session × List Message}
    (hu : Passed name t u) {entry : Text × Text} (hentry : t.Waiting entry.1) :
    Passed name t (retryProxy t.candidates accepts u entry) := by
  have hother : entry.1 ≠ name := by
    intro heq
    rw [heq] at hentry
    exact h.waiting hentry
  unfold retryProxy
  split
  · exact hu
  · rename_i p hp
    split
    · constructor
      · exact hu.rephased.trans (rephased_setInfo u.1 u.1.pending entry.1 _)
      · exact hu.pending
      · exact not_waiting_setInfo hu.waiting fun heq => absurd heq hother
      · intro addr q hmem
        rcases mem_append.mp hmem with hold | hnew
        · exact hu.sent addr q hold
        · cases mem_singleton.mp hnew
          apply hother
          apply h.sole.keys entry.1
          · rcases hentry with ⟨info, hinfo, _⟩
            exact Option.isSome_iff_exists.mpr ⟨info, hinfo⟩
          · unfold Session.opens
            rw [name_of_findProxy hp, hu.rephased.user]
    · exact hu

theorem handleProxyRetryTick_passed (h : Ended name t) (due accepts : Text -> Bool) :
    Passed name t (handleProxyRetryTick t due accepts) := by
  have hfold : forall list : List (Text × Text), (forall entry, entry ∈ list -> t.Waiting entry.1) ->
      forall u, Passed name t u ->
        Passed name t (list.foldl (retryProxy t.candidates accepts) u) := by
    intro list
    induction list with
    | nil =>
      intro _ u hu
      exact hu
    | cons entry rest ih =>
      intro hlist u hu
      rw [forall_mem_cons] at hlist
      exact ih hlist.2 _ (retryProxy_passed h accepts hu hlist.1)
  apply hfold _ fun entry hentry => waiting_of_mem_retryList hentry
  exact ⟨Rephased.refl t, rfl, h.waiting, fun _ _ hmem => absurd hmem not_mem_nil⟩

theorem handleHealthEvent_passed (h : Ended name t) {kind : HealthKind} {n : Text}
    (hunrecovered : kind = .recover -> n = name ->
      t.service.healthProxyConfigs.lookup name = none) (accepted : Bool) :
    Passed name t (handleHealthEvent t kind n accepted) := by
  cases kind with
  | close =>
    constructor
    · exact handleHealthEvent_rephased t .close n accepted
    · rfl
    · apply not_waiting_setInfo h.waiting
      intro _ info hwaits
      cases hwaits
    · intro addr p hmem
      unfold handleHealthEvent at hmem
      dsimp only at hmem
      split at hmem
      · cases mem_singleton.mp hmem
      · cases hmem
  | recover =>
    unfold handleHealthEvent
    dsimp only
    split
    · exact ⟨Rephased.refl t, rfl, h.waiting, fun _ _ hmem => absurd hmem not_mem_nil⟩
    · rename_i p hp
      have hother : n ≠ name := by
        intro heq
        rw [heq, hunrecovered rfl heq] at hp
        cases hp
      constructor
      · exact rephased_setInfo t t.pending n _
      · rfl
      · exact not_waiting_setInfo h.waiting fun heq => absurd heq hother
      · intro addr q hmem
        split at hmem
        · cases mem_singleton.mp hmem
          exact hother (h.sole.configs n p hp rfl)
        · cases hmem

theorem Passed.ended {u : Session × List Message} (h : Ended name t) (hu : Passed name t u) :
    Ended name u.1 :=
  ⟨hu.rephased.sole h.sole, hu.pending.trans h.pending, hu.waiting⟩

/-!
## Runs
-/

theorem step_ended {e : SessionEvent} (h : Ended name t) (huntouched : t.Untouched build name e)
    (hunrecovered : t.Unrecovered name e) :
    Ended name (t.next build e) ∧ t.LeavesClosed build name e := by
  unfold Session.next Session.LeavesClosed Session.step
  split
  · rename_i hreceives
    have hsilent : forall {t' : Session}, Ended name t' ->
        Ended name t' ∧ forall addr p, Message.newProxy name addr p ∉ ([] : List Message) :=
      fun hended => ⟨hended, fun _ _ hmem => absurd hmem not_mem_nil⟩
    cases e with
    | registrationResp n error =>
      simp [Session.receives, h.pending] at hreceives
    | registrationFailed error =>
      simp [Session.receives, h.pending] at hreceives
    | newProxyResp n error => exact hsilent (handleNewProxyResp_ended h n error)
    | closeProxy n => exact hsilent (handleCloseProxy_ended h n)
    | retryTick due accepts =>
      have hpassed := handleProxyRetryTick_passed h due accepts
      exact ⟨hpassed.ended h, hpassed.sent⟩
    | health monitor kind n accepted =>
      have hdeliver : t.deliver (.health monitor kind n accepted) =
          { t with last := t.last.insert (n, monitor) kind } := if_pos hreceives
      rw [hdeliver]
      have hdelivered : Ended name { t with last := t.last.insert (n, monitor) kind } :=
        ⟨⟨h.sole.user, h.sole.keys, h.sole.configs⟩, h.pending, h.waiting⟩
      have hquiet : kind = .recover -> n = name ->
          t.service.healthProxyConfigs.lookup name = none := by
        intro hkind
        rw [hkind] at hunrecovered
        exact hunrecovered
      have hpassed := handleHealthEvent_passed hdelivered hquiet accepted
      exact ⟨hpassed.ended hdelivered, hpassed.sent⟩
    | reload inputs =>
      rcases reload_spares h.sole huntouched with ⟨hsole, hwaiting, hsent⟩
      exact ⟨⟨hsole, h.pending, fun hwaits => h.waiting (hwaiting hwaits)⟩, hsent⟩
  · exact ⟨h, fun _ _ hmem => absurd hmem not_mem_nil⟩

/-- In every session whose reloads do not touch the proxy: once a `CloseProxy` of the server was
processed outside the registration of the proxy, no step opens it again, if no recovery of it is
heard from then on while its configuration is kept. -/
theorem closed_by_server (build : Build) (s : Service) (writeError : Text -> Option Text)
    (name : Text) (before after : List SessionEvent) :
    let t0 := (registerProxies s writeError).1
    let t := Run.run (Session.next build) t0 before
    Sole name ⟨s, s.cfg.user, [], ∅⟩ ->
    Run.Along (Session.next build) (Session.Untouched build name) t0 before ->
    t.receives (.closeProxy name) = true ->
    (forall info, t.service.proxyInfoMap.lookup name = some info ->
      info.phase ≠ .new ∧ info.phase ≠ .waitStart) ->
    Run.Along (Session.next build)
      (fun u e => u.Untouched build name e ∧ u.Unrecovered name e)
      (t.next build (.closeProxy name)) after ->
    Run.Along (Session.next build) (Session.LeavesClosed build name)
      (t.next build (.closeProxy name)) after := by
  intro t0 t hsole hbefore hreceives hphase hafter
  have hstart : Sole name t0 :=
    (foldl_rephased (registerProxy_rephased writeError) _ (⟨s, s.cfg.user, [], ∅⟩, [])).sole hsole
  have hsoleNow : Sole name t :=
    @Run.run_invariant _ _ _ _ (Sole name) (fun _ _ hu he => next_sole hu he) _ _ hstart hbefore
  have hpending : t.pending = [] := isEmpty_iff.mp hreceives
  have hclosed : Ended name (t.next build (.closeProxy name)) := by
    unfold Session.next Session.step
    rw [if_pos hreceives]
    exact handleCloseProxy_ends hsoleNow hpending hphase
  exact Run.along_of_invariant (fun _ _ hu he => step_ended hu he.1 he.2) hclosed hafter

def unhealthyEvents : List SessionEvent :=
  [.health 0 .recover "p".toList true, .newProxyResp "p".toList none,
    .health 0 .close "p".toList true]

def plainBuild : Build :=
  ⟨false, plainPrinting, insertionOrder⟩

/-- After the close the proxy stays closed through a late answer, a retry and a late report. -/
theorem closed_by_server_late :
    Run.Along (Session.next plainBuild) (Session.LeavesClosed plainBuild "p".toList)
      ((Run.run (Session.next plainBuild) (registerProxies probedService fun _ => none).1
        unhealthyEvents).next plainBuild (.closeProxy "p".toList))
      [.newProxyResp "p".toList (some "busy".toList), .health 0 .close "p".toList true,
        .retryTick (fun _ => true) (fun _ => true)] := by
  apply closed_by_server plainBuild probedService (fun _ => none) "p".toList unhealthyEvents
  · constructor
    · rfl
    · intro key _ hkey
      exact hkey
    · intro key p hp hkey
      exact (probedService_ready.configs key p hp).trans hkey
  · exact ⟨trivial, trivial, trivial, trivial⟩
  · rfl
  · intro info hinfo
    cases hinfo
    constructor
    · intro hphase
      cases hphase
    · intro hphase
      cases hphase
  · exact ⟨⟨trivial, trivial⟩, ⟨trivial, trivial⟩, ⟨trivial, trivial⟩, trivial⟩

/-- A recovery that was queued when the server closed the proxy opens it again. -/
theorem queued_recovery_opens :
    let t := Run.run (Session.next plainBuild) (registerProxies probedService fun _ => none).1
      unhealthyEvents
    (t.service.proxyInfoMap.lookup "p".toList).map ProxyRuntimeInfo.phase = some .checkFailed ∧
      ((t.next plainBuild (.closeProxy "p".toList)).service.proxyInfoMap.lookup "p".toList).map
        ProxyRuntimeInfo.phase = some .closed ∧
      ¬ Session.LeavesClosed plainBuild "p".toList (t.next plainBuild (.closeProxy "p".toList))
        (.health 0 .recover "p".toList true) := by
  intro t
  constructor
  · rfl
  · constructor
    · rfl
    · intro hleaves
      exact hleaves "127.0.0.1:80".toList (probedProxy "p".toList) mem_cons_self

end Client
end FrpRs
