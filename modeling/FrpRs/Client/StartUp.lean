import FrpRs.Client.CompanionInjection
import FrpRs.Client.ReloadConvergence

/-!
# Start-up, and reloads of unchanged sources

`Service::with_unsafe_features` in `frp-client/src/service.rs` builds the state of a client from
its configuration file and store.  It filters visitors by the `start` list, but not proxies; a
reload filters both.  A reload of the same sources changes nothing if the list leaves out no
proxy and no relay asks for port 0 by name.

Credentials, channels and TUN devices are left out.
-/

namespace FrpRs
namespace Client

open List

/-!
## Start-up
-/

/-- The `tls2raw` plugin takes the version of the proxy protocol from its proxy. -/
def effectivePlugin (p : ProxyConfig) (pl : PluginConfig) : PluginConfig :=
  if pl.pluginType = "tls2raw".toList && pl.proxyProtocolVersion = [] && p.proxyProtocolVersion ≠ [] then
    { pl with proxyProtocolVersion := p.proxyProtocolVersion }
  else pl

def startedPlugins (start : Text -> PluginConfig -> Option Text) (proxies : List ProxyConfig) :
    Table Text Text :=
  proxies.foldl (fun addrs p =>
    match listenerPlugin p with
    | none => addrs
    | some pl =>
      match start p.name (effectivePlugin p pl) with
      | some addr => addrs.insert p.name addr
      | none => addrs) ∅

def initialInfo (print : Printing) (addrs : Table Text Text) (p : ProxyConfig) :
    ProxyRuntimeInfo where
  localAddr := localAddrOf addrs p
  plugin := (p.plugin.map PluginConfig.pluginType).getD []
  err := []
  configSnapshot := configSnapshot print p
  phase := .new

def initialInfoMap (print : Printing) (addrs : Table Text Text) (user : Text)
    (proxies : List ProxyConfig) : Table Text ProxyRuntimeInfo :=
  proxies.foldl (fun map p => map.insert (wireProxyName user p.name) (initialInfo print addrs p)) ∅

def initialService (print : Printing) (cfg : ClientConfig) (addrs : Table Text Text) : Service where
  cfg := cfg
  proxies := cfg.proxies
  proxyInfoMap := initialInfoMap print addrs cfg.user cfg.proxies
  pluginHandles := addrs
  healthCancels := ∅
  healthProxyConfigs := (cfg.proxies.filter healthCheckMonitored).foldl
    (fun configs p => configs.insert (wireProxyName cfg.user p.name) p) ∅
  nextMonitor := 0
  visitorReloadNeeded := false

/-- The enabled entries of the file and the store, as start-up collects them. -/
def startSources (file : ClientConfig) (store : Option Store) : ClientConfig :=
  let cfg := match store with
    | some store =>
      let merged := mergeClientConfig file (some store)
      { file with proxies := merged.proxies, visitors := merged.visitors }
    | none => file
  onlyEnabled cfg

def startUp (print : Printing) (file : ClientConfig) (store : Option Store) (os : Os)
    (start : Text -> PluginConfig -> Option Text) : Except Text Service :=
  match (injectSocks5UdpCompanions (startSources file store) os).1 with
  | .error e => .error e
  | .ok cfg =>
    let cfg := { cfg with visitors := filterActiveVisitors cfg cfg.visitors }
    .ok (initialService print cfg (startedPlugins start cfg.proxies))

/-!
## Sources
-/

/-- The same entries, as a reload collects them. -/
def sourceConfig (file : ClientConfig) (store : Option Store) : ClientConfig :=
  onlyEnabled (mergedConfig file store)

theorem startSources_eq (file : ClientConfig) (store : Option Store) :
    startSources file store = sourceConfig file store := by
  cases store <;> rfl

variable {store : Option Store} {file : ClientConfig}

theorem startUp_cases {print : Printing} {os : Os} {start : Text -> PluginConfig -> Option Text}
    {s : Service} (h : startUp print file store os start = .ok s) :
    exists cfg, (injectSocks5UdpCompanions (sourceConfig file store) os).1 = .ok cfg ∧
      s = initialService print { cfg with visitors := filterActiveVisitors cfg cfg.visitors }
        (startedPlugins start cfg.proxies) := by
  rw [startUp, startSources_eq] at h
  split at h
  · cases h
  · rename_i cfg hcfg
    cases h
    exact ⟨cfg, hcfg, rfl⟩

theorem insertByKey_perm {α : Type} (key : α -> Text) (a : α) (as : List α) :
    (insertByKey key a as).Perm (a :: as) := by
  induction as with
  | nil => exact List.Perm.refl _
  | cons b bs ih =>
    rw [insertByKey]
    split
    · exact List.Perm.refl _
    · exact (ih.cons b).trans (List.Perm.swap a b bs)

theorem sortByKey_perm {α : Type} (key : α -> Text) (as : List α) : (sortByKey key as).Perm as := by
  induction as with
  | nil => exact List.Perm.refl _
  | cons a as ih => exact (insertByKey_perm key a _).trans (ih.cons a)

theorem overlay_names_nodup {config store : List ProxyConfig} (hconfig : (names config).Nodup)
    (hstore : (names store).Nodup) : (names (overlay ProxyConfig.name config store)).Nodup := by
  have hperm : (names (overlay ProxyConfig.name config store)).Perm
      (names (config.filter fun c => !store.any fun s => s.name = c.name) ++ names store) := by
    rw [names, names, names, ← map_append]
    exact (sortByKey_perm ProxyConfig.name _).map ProxyConfig.name
  rw [hperm.nodup_iff, nodup_append]
  refine ⟨(filter_sublist.map ProxyConfig.name).nodup hconfig, hstore, ?_⟩
  intro a ha b hb hab
  obtain ⟨p, hp, rfl⟩ := mem_map.mp ha
  obtain ⟨q, hq, rfl⟩ := mem_map.mp hb
  have hfree := (mem_filter.mp hp).2
  rw [Bool.not_eq_true', any_eq_false] at hfree
  exact hfree q hq (decide_eq_true hab.symm)

/-- The names in the file and those in the store are distinct. -/
structure ValidSources (file : ClientConfig) (store : Option Store) : Prop where
  file : (names file.proxies).Nodup
  store : forall entries, store = some entries -> (names entries.proxies).Nodup

theorem ValidSources.nodup (h : ValidSources file store) :
    (names (sourceConfig file store).proxies).Nodup := by
  have hfilter : forall {proxies : List ProxyConfig}, (names proxies).Nodup ->
      (names (proxies.filter ProxyConfig.enabled)).Nodup := fun hnodup =>
    (filter_sublist.map ProxyConfig.name).nodup hnodup
  cases store with
  | none => exact hfilter h.file
  | some entries =>
    exact hfilter (overlay_names_nodup (hfilter h.file) (hfilter (h.store entries rfl)))

/-!
## A client in step with its sources
-/

structure InSync (print : Printing) (s : Service) (cfg : ClientConfig) : Prop where
  config : s.cfg = cfg
  proxies : s.proxies = cfg.proxies
  distinct : (names cfg.proxies).Nodup
  registered : forall x, s.Registered x ↔ IsWireName cfg x
  snapshots : forall p info, p ∈ cfg.proxies ->
    s.proxyInfoMap.lookup (wireProxyName cfg.user p.name) = some info ->
    info.configSnapshot = configSnapshot print p

section InSync

variable {print : Printing} {s : Service} {cfg : ClientConfig}

theorem InSync.known_iff (h : InSync print s cfg) (name : Text) :
    s.Known cfg.user name ↔ name ∈ names cfg.proxies := by
  constructor
  · rintro (hwire | ⟨hname, hno⟩)
    · obtain ⟨other, hother, hsame⟩ := (h.registered _).mp hwire
      cases wireProxyName_injective cfg.user hsame
      exact hother
    · obtain ⟨other, _, hsame⟩ := (h.registered _).mp hname
      exact absurd hsame.symm (hno other)
  · intro hname
    exact .inl ((h.registered _).mpr ⟨name, hname, rfl⟩)

theorem mem_of_findProxy {proxies : List ProxyConfig} {name : Text} {p : ProxyConfig}
    (h : findProxy proxies name = some p) : p ∈ proxies :=
  mem_of_find?_eq_some h

theorem InSync.differs (h : InSync print s cfg) (name : Text) :
    differs print s.proxyInfoMap cfg name = false := by
  rw [Client.differs]
  split
  · rename_i info p hinfo hp
    have hname := name_of_findProxy hp
    rw [h.snapshots p info (mem_of_findProxy hp) (hname.symm ▸ hinfo)]
    exact decide_eq_false (not_not.mpr rfl)
  · rfl

theorem InSync.vnetDiffers (h : InSync print s cfg) (name : Text) :
    vnetDiffers s cfg name = false := by
  rw [Client.vnetDiffers]
  cases hfound : findProxy cfg.proxies name with
  | none => rfl
  | some p =>
    rw [Option.any_some, vnetChanged, h.proxies, h.config,
      findProxy_of_mem h.distinct (mem_of_findProxy hfound)]
    simp

theorem InSync.delta_isEmpty (h : InSync print s cfg) (vnet : Bool) (order : HashOrder) :
    (reloadDelta ⟨vnet, print, order⟩ s cfg).isEmpty = true := by
  have hremoved : (reloadDelta ⟨vnet, print, order⟩ s cfg).removed = [] := by
    rw [eq_nil_iff_forall_not_mem]
    intro name hname
    obtain ⟨hknown, hgone⟩ := (mem_removed_iff vnet print order s cfg name).mp hname
    exact hgone ((h.known_iff name).mp hknown)
  have hadded : (reloadDelta ⟨vnet, print, order⟩ s cfg).added = [] := by
    rw [eq_nil_iff_forall_not_mem]
    intro name hname
    obtain ⟨hnew, hunknown⟩ := (mem_added_iff vnet print order s cfg name).mp hname
    exact hunknown ((h.known_iff name).mpr hnew)
  have hchanged : (reloadDelta ⟨vnet, print, order⟩ s cfg).changed = [] := by
    rw [eq_nil_iff_forall_not_mem]
    intro name hname
    have hdiffer := (mem_changed_iff vnet print order s cfg h.distinct name).mp hname
    rw [settingsDiffer, h.differs, h.vnetDiffers, Bool.and_false] at hdiffer
    cases hdiffer
  -- No visitor of the same list is missing in it.
  have hvisitors : forall list : List Text,
      order.visit (list.dedup.filter fun n => !list.contains n) = [] := by
    intro list
    have hnone : (list.dedup.filter fun n => !list.contains n) = [] := by
      rw [filter_eq_nil_iff]
      intro name hname
      rw [contains_iff_mem.mpr (mem_dedup.mp hname)]
      exact Bool.false_ne_true
    rw [hnone]
    exact perm_nil.mp (order.perm [])
  have hold : (doReload print order s.proxyInfoMap s.cfg.visitors cfg).visitorRemoved = [] := by
    rw [h.config]
    exact hvisitors _
  have hnew : (doReload print order s.proxyInfoMap s.cfg.visitors cfg).visitorAdded = [] := by
    rw [h.config]
    exact hvisitors _
  have hbase : (doReload print order s.proxyInfoMap s.cfg.visitors cfg).changed = [] := by
    have hall := hchanged
    rw [changed_eq vnet print order s cfg h.distinct] at hall
    exact (append_eq_nil_iff.mp hall).1
  have hsame : (doReload print order s.proxyInfoMap s.cfg.visitors cfg).visitorChanged = [] := by
    have hcases : (doReload print order s.proxyInfoMap s.cfg.visitors cfg).removed = [] ∧
        (doReload print order s.proxyInfoMap s.cfg.visitors cfg).added = [] := by
      cases vnet <;> exact ⟨hremoved, hadded⟩
    exact if_pos ⟨hcases.1, hcases.2, hbase, hold, hnew⟩
  have hvisitor : (reloadDelta ⟨vnet, print, order⟩ s cfg).visitorRemoved = [] ∧
      (reloadDelta ⟨vnet, print, order⟩ s cfg).visitorAdded = [] ∧
      (reloadDelta ⟨vnet, print, order⟩ s cfg).visitorChanged = [] := by
    cases vnet <;> exact ⟨hold, hnew, hsame⟩
  rw [ReloadDelta.isEmpty, hremoved, hadded, hchanged, hvisitor.1, hvisitor.2.1, hvisitor.2.2]
  rfl

end InSync

/-!
## After start-up
-/

section Initial

variable {V : Type} (user : Text) (f : ProxyConfig -> V)

theorem lookup_foldl_insert_of_ne (proxies : List ProxyConfig) {x : Text} :
    forall map : Table Text V,
      (forall p, p ∈ proxies -> wireProxyName user p.name ≠ x) ->
      (proxies.foldl (fun map p => map.insert (wireProxyName user p.name) (f p)) map).lookup x
        = map.lookup x := by
  induction proxies with
  | nil =>
    intro map _
    rfl
  | cons p ps ih =>
    intro map h
    obtain ⟨hfirst, hrest⟩ := forall_mem_cons.mp h
    rw [foldl_cons, ih _ hrest, Table.lookup_insert_eq, if_neg (Ne.symm hfirst)]

theorem lookup_foldl_insert_of_mem (proxies : List ProxyConfig) {p : ProxyConfig} :
    forall map : Table Text V, (names proxies).Nodup -> p ∈ proxies ->
      (proxies.foldl (fun map p => map.insert (wireProxyName user p.name) (f p)) map).lookup
        (wireProxyName user p.name) = some (f p) := by
  induction proxies with
  | nil =>
    intro map _ hp
    cases hp
  | cons q qs ih =>
    intro map hnodup hp
    obtain ⟨hfirst, hrest⟩ := nodup_cons.mp hnodup
    rw [foldl_cons]
    cases hp with
    | tail _ hp => exact ih _ hrest hp
    | head =>
      rw [lookup_foldl_insert_of_ne, Table.lookup_insert_eq, if_pos rfl]
      intro r hr hsame
      exact hfirst (wireProxyName_injective user hsame ▸ mem_map_of_mem hr)

end Initial

theorem initialService_inSync {print : Printing} {cfg : ClientConfig} (addrs : Table Text Text)
    (hnames : (names cfg.proxies).Nodup) : InSync print (initialService print cfg addrs) cfg := by
  have hlookup : forall p, p ∈ cfg.proxies ->
      (initialService print cfg addrs).proxyInfoMap.lookup (wireProxyName cfg.user p.name) =
        some (initialInfo print addrs p) := fun p hp =>
    lookup_foldl_insert_of_mem cfg.user (initialInfo print addrs) cfg.proxies ∅ hnames hp
  refine ⟨rfl, rfl, hnames, ?_, ?_⟩
  · intro x
    constructor
    · intro hregistered
      by_contra hno
      have hnone : (initialService print cfg addrs).proxyInfoMap.lookup x = none := by
        apply lookup_foldl_insert_of_ne
        intro p hp hsame
        exact hno ⟨p.name, mem_map_of_mem hp, hsame⟩
      rw [Service.Registered, hnone] at hregistered
      cases hregistered
    · rintro ⟨name, hname, rfl⟩
      obtain ⟨p, hp, rfl⟩ := mem_map.mp hname
      rw [Service.Registered, hlookup p hp]
      rfl
  · intro p info hp hinfo
    rw [hlookup p hp] at hinfo
    rw [← Option.some.inj hinfo, initialInfo]

def StartsAll (cfg : ClientConfig) : Prop :=
  cfg.start = [] ∨ forall p, p ∈ cfg.proxies -> p.name ∈ cfg.start

theorem enabled_foldl_patch (additions : List Addition) :
    forall p, (additions.foldl Addition.patch p).enabled = p.enabled := by
  induction additions with
  | nil =>
    intro p
    rfl
  | cons a additions ih =>
    intro p
    rw [foldl_cons, ih, Addition.patch]
    split <;> rfl

/-- The `start` filter of a reload keeps all proxies, the companions too. -/
theorem filterActiveProxies_injected {cfg cfg' : ClientConfig} {os : Os} (hos : os.Sound)
    (hnames : (names cfg.proxies).Nodup) (hstart : StartsAll cfg)
    (henabled : forall p, p ∈ cfg.proxies -> p.enabled = true)
    (h : (injectSocks5UdpCompanions cfg os).1 = .ok cfg') :
    filterActiveProxies cfg' cfg'.proxies = cfg'.proxies := by
  rw [injectSocks5UdpCompanions, injectSocks5UdpCompanionsPreserving] at h
  split at h
  · cases h
  · rename_i additions os' hadditions
    cases h
    have hproxies := injected_proxies hnames hadditions
    have hmade := additionsFor_made cfg.proxies hos hadditions
    have hall : forall p, p ∈ (additions.foldl applyAddition cfg).proxies -> p.enabled = true := by
      intro p hp
      rw [hproxies] at hp
      obtain hparent | hcompanion := mem_append.mp hp
      · obtain ⟨q, hq, rfl⟩ := mem_map.mp hparent
        rw [enabled_foldl_patch]
        exact henabled q hq
      · obtain ⟨a, ha, rfl⟩ := mem_map.mp hcompanion
        obtain ⟨q, plugin, host, port, _, hfor, _⟩ := hmade a ha
        rw [hfor.proxy]
        rfl
    have hstarted : filterStart ProxyConfig.name (additions.foldl applyAddition cfg).start
        (additions.foldl applyAddition cfg).proxies = (additions.foldl applyAddition cfg).proxies := by
      rw [filterStart]
      split
      · rfl
      · rename_i hne
        rw [filter_eq_self]
        intro p hp
        have hcfg : cfg.start ≠ [] := fun hnil =>
          hne (start_foldl_applyAddition_nil additions cfg hnil)
        have hlisted := hstart.resolve_left hcfg
        suffices hmem : p.name ∈ (additions.foldl applyAddition cfg).start from
          any_eq_true.mpr ⟨p.name, hmem, decide_eq_true rfl⟩
        apply mem_start_foldl_applyAddition additions cfg hcfg
        rw [hproxies] at hp
        obtain hparent | hcompanion := mem_append.mp hp
        · obtain ⟨q, hq, rfl⟩ := mem_map.mp hparent
          rw [name_foldl_patch]
          exact .inl (hlisted q hq)
        · obtain ⟨a, ha, rfl⟩ := mem_map.mp hcompanion
          obtain ⟨q, plugin, host, port, hq, hfor, _⟩ := hmade a ha
          exact .inr ⟨a, ha, hfor.parent ▸ hlisted q hq, rfl⟩
    rw [filterActiveProxies, hstarted, filter_eq_self]
    exact hall

theorem eq_of_mem_zip_self {A : Type} {l : List A} {a : A × A} (h : a ∈ l.zip l) :
    a.1 = a.2 := by
  induction l with
  | nil =>
    cases h
  | cons x rest ih =>
    rcases mem_cons.mp h with hhead | htail
    · rw [hhead]
    · exact ih htail

theorem authReloadRefusal_self (auth : Option AuthClientConfig) :
    authReloadRefusal auth auth = none := by
  cases auth with
  | none => rfl
  | some fields =>
    rw [authReloadRefusal]
    rw [filter_eq_nil_iff.mpr]
    · rfl
    · intro a ha
      simp [eq_of_mem_zip_self ha]

/-!
## Reloads of the same sources
-/

/-- A reload that finds the sources of start-up, and a system that still has ports. -/
structure SameSources (file : ClientConfig) (store : Option Store) (inputs : Inputs) : Prop where
  loaded : inputs.loaded = .ok file
  stored : inputs.store = store
  sound : inputs.os.Sound
  enough : (sourceConfig file store).proxies.length ≤ inputs.os.length

/-- The configuration of a reload: merge, refusal, injection and filters. -/
theorem reloadedConfig_eq {s : Service} {inputs : Inputs} {cfg : ClientConfig}
    (hinputs : SameSources file store inputs) (hauth : s.cfg.auth = (sourceConfig file store).auth)
    (h : (injectSocks5UdpCompanionsPreserving (sourceConfig file store) s.proxies inputs.os).1
      = .ok cfg) :
    reloadedConfig s inputs = .ok { cfg with
      proxies := filterActiveProxies cfg cfg.proxies
      visitors := filterActiveVisitors cfg cfg.visitors } := by
  have hrefusal : authReloadRefusal s.cfg.auth (mergedConfig file store).auth = none := by
    rw [hauth]
    exact authReloadRefusal_self _
  rw [sourceConfig] at h
  rw [reloadedConfig, hinputs.loaded, hinputs.stored]
  dsimp only
  rw [hrefusal]
  dsimp only
  rw [h]

/-- After start-up a reload of the same sources compares the client with its own
configuration. -/
theorem reloadedConfig_of_startUp {print : Printing} {os : Os}
    {start : Text -> PluginConfig -> Option Text} {s : Service} (hvalid : ValidSources file store)
    (hos : os.Sound) (hstart : StartsAll (sourceConfig file store))
    (hnamed : PortsNamed (sourceConfig file store)) (h : startUp print file store os start = .ok s) :
    InSync print s s.cfg ∧
      forall inputs, SameSources file store inputs -> reloadedConfig s inputs = .ok s.cfg := by
  obtain ⟨cfg, hcfg, rfl⟩ := startUp_cases h
  have hnames := hvalid.nodup
  have hactive := filterActiveProxies_injected hos hnames hstart
    (fun p hp => (mem_filter.mp hp).2) hcfg
  constructor
  · apply initialService_inSync
    rw [injectSocks5UdpCompanions, injectSocks5UdpCompanionsPreserving] at hcfg
    split at hcfg
    · cases hcfg
    · rename_i additions os' hadditions
      cases hcfg
      exact injected_names_nodup hos hnames hadditions
  · intro inputs hinputs
    have hauth : cfg.auth = (sourceConfig file store).auth := by
      rw [injectSocks5UdpCompanions, injectSocks5UdpCompanionsPreserving] at hcfg
      split at hcfg
      · cases hcfg
      · rename_i additions os' hadditions
        cases hcfg
        obtain ⟨names, proxies, hfields⟩ := fields_foldl_applyAddition additions
          (sourceConfig file store)
        rw [hfields]
    have hagain := inject_again hos hinputs.sound hinputs.enough hnames hnamed hcfg
    rw [reloadedConfig_eq hinputs hauth hagain, hactive]
    rfl

/-- A reload that changes nothing: it succeeds without a difference, sends nothing and leaves the
client as it is. -/
structure ReloadNoop (build : Build) (s : Service) (inputs : Inputs) : Prop where
  delta : exists cfg, reloadedConfig s inputs = .ok cfg ∧ (reloadDelta build s cfg).isEmpty = true
  result : (reloadFromSources build s inputs).result = .ok ()
  sent : (reloadFromSources build s inputs).sent = []
  service : (reloadFromSources build s inputs).service = s

theorem InSync.reload_noop {build : Build} {s : Service} {inputs : Inputs}
    (h : InSync build.print s s.cfg) (hcfg : reloadedConfig s inputs = .ok s.cfg) :
    ReloadNoop build s inputs := by
  have hempty : (reloadDelta build s s.cfg).isEmpty = true := h.delta_isEmpty build.vnet build.order
  have hnew : (reloadDelta build s s.cfg).newConfig = s.cfg :=
    newConfig_reloadDelta build.vnet build.print build.order s s.cfg
  have hsame : reloadFromSources build s inputs = ⟨.ok (), s, []⟩ := by
    rw [reloadFromSources, hcfg]
    dsimp only
    rw [applyDelta, if_pos hempty, hnew, ← h.proxies]
  exact ⟨⟨s.cfg, hcfg, hempty⟩, by rw [hsame], by rw [hsame], by rw [hsame]⟩

def reloadRun (build : Build) (s : Service) (reloads : List Inputs) : Service :=
  reloads.foldl (fun s inputs => (reloadFromSources build s inputs).service) s

/-- If the `start` list leaves out no proxy and no relay asks for port 0 by name, every reload of
the sources of start-up changes nothing, however many came before it. -/
theorem reload_unchanged_noop (build : Build) (file : ClientConfig) (store : Option Store) (os : Os)
    (start : Text -> PluginConfig -> Option Text) (s : Service) (hvalid : ValidSources file store)
    (hos : os.Sound) (hstart : StartsAll (sourceConfig file store))
    (hnamed : PortsNamed (sourceConfig file store))
    (h : startUp build.print file store os start = .ok s) (reloads : List Inputs)
    (hreloads : forall inputs, inputs ∈ reloads -> SameSources file store inputs) :
    reloadRun build s reloads = s ∧
      forall inputs, SameSources file store inputs ->
        ReloadNoop build (reloadRun build s reloads) inputs := by
  obtain ⟨hsync, hreload⟩ := reloadedConfig_of_startUp hvalid hos hstart hnamed h
  have hrun : reloadRun build s reloads = s := by
    induction reloads with
    | nil => rfl
    | cons inputs rest ih =>
      obtain ⟨hfirst, hrest⟩ := forall_mem_cons.mp hreloads
      have hnoop := hsync.reload_noop (hreload inputs hfirst)
      rw [reloadRun, foldl_cons, hnoop.service]
      exact ih hrest
  refine ⟨hrun, ?_⟩
  intro inputs hinputs
  rw [hrun]
  exact hsync.reload_noop (hreload inputs hinputs)

def socksProxy : ProxyConfig :=
  { tcpProxy "s".toList with
    remotePort := 6000
    plugin := some { pluginType := "socks5".toList, udpEnable := true } }

def socksFile : ClientConfig where
  user := "u".toList
  serverAddr := "frps".toList
  proxies := [socksProxy]

def socksInputs : Inputs where
  loaded := .ok socksFile
  store := none
  os := [.ok 40001]
  startPlugin := fun _ _ => some "127.0.0.1:1080".toList
  sends := 8

/-- The relay keeps its port through two reloads. -/
theorem reload_socks_noop :
    exists s, startUp plainPrinting socksFile none [.ok 40000]
        (fun _ _ => some "127.0.0.1:1080".toList) = .ok s ∧
      ReloadNoop ⟨false, plainPrinting, insertionOrder⟩
        (reloadRun ⟨false, plainPrinting, insertionOrder⟩ s [socksInputs]) socksInputs := by
  have hvalid : ValidSources socksFile none :=
    ⟨nodup_singleton _, fun entries h => by cases h⟩
  have hsound : forall port, 0 < port -> port < 65536 -> Os.Sound [.ok port] := by
    intro port hpositive hlt answer hanswer
    exact ⟨port, mem_singleton.mp hanswer, hpositive, hlt⟩
  have hnamed : PortsNamed (sourceConfig socksFile none) := by
    intro p plugin hp hplugin _ hraw
    cases mem_singleton.mp hp
    cases hplugin
    exact absurd rfl hraw
  have hsame : SameSources socksFile none socksInputs :=
    ⟨rfl, rfl, hsound 40001 (by decide) (by decide), Nat.le_refl 1⟩
  refine ⟨_, rfl, (reload_unchanged_noop ⟨false, plainPrinting, insertionOrder⟩ socksFile none
    [.ok 40000] (fun _ _ => some "127.0.0.1:1080".toList) _ hvalid
    (hsound 40000 (by decide) (by decide)) (.inl rfl) hnamed rfl [socksInputs] ?_).2 socksInputs
    hsame⟩
  intro inputs hinputs
  cases mem_singleton.mp hinputs
  exact hsame

def listedFile : ClientConfig where
  start := ["a".toList]
  proxies := [tcpProxy "b".toList]

/-- Start-up registers a proxy that the `start` list leaves out, and a reload of the same file
closes it. -/
theorem reload_closes_unlisted :
    exists s, startUp plainPrinting listedFile none [] (fun _ _ => none) = .ok s ∧
      (reloadFromSources ⟨false, plainPrinting, insertionOrder⟩ s
        { loaded := .ok listedFile, store := none, os := [], startPlugin := fun _ _ => none,
          sends := 8 }).sent = [.closeProxy "b".toList] := by
  exact ⟨_, rfl, rfl⟩

end Client
end FrpRs
