import FrpRs.Client.Companions

/-!
# Reloading the client's configuration

`do_reload` in `frp-client/src/reload.rs` and `reload_from_sources` in
`frp-client/src/service/reload_apply.rs`.  The names of the registered proxies, without the prefix
of the new user, are compared with the names of the new configuration.  Messages close and open
proxies on the server; only when all of them are queued the tables of the client change.

The order in which hash sets are visited, the answers of plugins and of the writer, the ports of
the system and the contents of the sources are inputs.  TUN devices, P2P tokens and log lines are
left out.
-/

namespace FrpRs
namespace Client

def wireProxyName (user name : Text) : Text :=
  if user = [] then name else user ++ '.' :: name

inductive ProxyPhase where
  | new
  | waitStart
  | startErr (error : Text)
  | running
  | checkFailed
  | closed
deriving DecidableEq

structure ProxyRuntimeInfo where
  localAddr : Text
  plugin : Text
  err : Text
  configSnapshot : Text
  phase : ProxyPhase

inductive Message where
  | closeProxy (proxyName : Text)
  | newProxy (proxyName localAddr : Text) (config : ProxyConfig)

def createNewProxyMsg (p : ProxyConfig) (localAddr user : Text) : Message :=
  .newProxy (wireProxyName user p.name) localAddr p

/-- A task that probes a proxy: the number it was started with, and its proxy. -/
structure Monitor where
  id : Nat
  config : ProxyConfig

structure Service where
  cfg : ClientConfig
  proxies : List ProxyConfig
  proxyInfoMap : Table Text ProxyRuntimeInfo
  /-- The address of every running plugin, by the name of its proxy. -/
  pluginHandles : Table Text Text
  /-- The running monitors, by wire name. -/
  healthCancels : Table Text Monitor
  healthProxyConfigs : Table Text ProxyConfig
  /-- The number of the next monitor. -/
  nextMonitor : Nat
  visitorReloadNeeded : Bool

/-!
## The difference
-/

def stripUser (user key : Text) : Text :=
  if user = [] then key else ((user ++ ['.']).isPrefixOf? key).getD key

structure ReloadDelta where
  removed : List Text
  added : List Text
  changed : List Text
  visitorRemoved : List Text
  visitorAdded : List Text
  visitorChanged : List Text
  newConfig : ClientConfig

/-- How the hash sets of names are visited. -/
structure HashOrder where
  visit : List Text -> List Text
  perm : forall names, (visit names).Perm names

def names (proxies : List ProxyConfig) : List Text :=
  proxies.map ProxyConfig.name

def findProxy (proxies : List ProxyConfig) (name : Text) : Option ProxyConfig :=
  proxies.find? fun p => p.name = name

def oldNames (map : Table Text ProxyRuntimeInfo) (user : Text) : List Text :=
  (map.keys.map (stripUser user)).dedup

def differs (print : Printing) (map : Table Text ProxyRuntimeInfo) (cfg : ClientConfig)
    (name : Text) : Bool :=
  match map.lookup (wireProxyName cfg.user name), findProxy cfg.proxies name with
  | some info, some p => info.configSnapshot ≠ configSnapshot print p
  | _, _ => false

def doReload (print : Printing) (order : HashOrder) (map : Table Text ProxyRuntimeInfo)
    (oldVisitors : List VisitorConfig) (newCfg : ClientConfig) : ReloadDelta :=
  let old := oldNames map newCfg.user
  let new := names newCfg.proxies
  let oldVisitorNames := oldVisitors.map VisitorConfig.name
  let newVisitorNames := newCfg.visitors.map VisitorConfig.name
  let removed := order.visit (old.filter fun n => !new.contains n)
  let added := order.visit (new.dedup.filter fun n => !old.contains n)
  let changed := (order.visit (old.filter fun n => new.contains n)).filter
    (differs print map newCfg)
  let visitorRemoved := order.visit
    (oldVisitorNames.dedup.filter fun n => !newVisitorNames.contains n)
  let visitorAdded := order.visit
    (newVisitorNames.dedup.filter fun n => !oldVisitorNames.contains n)
  let visitorChanged :=
    -- Without another difference the visitors of the same name are not compared.
    if removed = [] ∧ added = [] ∧ changed = [] ∧ visitorRemoved = [] ∧ visitorAdded = [] then []
    else (newCfg.visitors.filter fun v => oldVisitors.any fun o => o.name = v.name ∧ o ≠ v).map
      VisitorConfig.name
  { removed := removed
    added := added
    changed := changed
    visitorRemoved := visitorRemoved
    visitorAdded := visitorAdded
    visitorChanged := visitorChanged
    newConfig := newCfg }

def vnetChanged (s : Service) (cfg : ClientConfig) (p : ProxyConfig) : Bool :=
  ((findProxy s.proxies p.name).any fun old => vnetProxySnapshot old ≠ vnetProxySnapshot p) ||
    (s.cfg.virtualNetAddress ≠ cfg.virtualNetAddress &&
      p.plugin.any fun pl => pl.pluginType = "virtual_net".toList)

def addChanged (s : Service) (cfg : ClientConfig) (changed : List Text) (p : ProxyConfig) :
    List Text :=
  if vnetChanged s cfg p && !changed.contains p.name then changed ++ [p.name] else changed

def extendChanged (vnet : Bool) (s : Service) (delta : ReloadDelta) : ReloadDelta :=
  if vnet then
    { delta with
      changed := delta.newConfig.proxies.foldl (addChanged s delta.newConfig) delta.changed }
  else delta

def ReloadDelta.isEmpty (delta : ReloadDelta) : Bool :=
  delta.removed.isEmpty && delta.added.isEmpty && delta.changed.isEmpty &&
    delta.visitorRemoved.isEmpty && delta.visitorAdded.isEmpty && delta.visitorChanged.isEmpty

/-!
## Sources
-/

/-- The errors of `ControlWriter::send`. -/
inductive SendError where
  | failed
  | full
  | closed

def SendError.text : SendError -> Text
  | .failed => "control writer failed".toList
  | .full => "control channel full (peer slow)".toList
  | .closed => "control channel closed".toList

/-- What a reload finds: the configuration file, the store, the ports of the system, the
addresses of started plugins, how many messages the writer takes, and why it refuses the next. -/
structure Inputs where
  loaded : Except Text ClientConfig
  store : Option Store
  os : Os
  startPlugin : Text -> PluginConfig -> Option Text
  sends : Nat
  refusal : SendError := .full

/-- The features the client is built with, and what it uses of its libraries. -/
structure Build where
  vnet : Bool
  print : Printing
  order : HashOrder

/-- Why a new `[auth]` section is refused. -/
def authReloadRefusal (old new : Option AuthClientConfig) : Option Text :=
  let changed : List Text :=
    match old, new with
    | none, none => []
    | some o, some n => ((o.zip n).filter fun (a, b) => a.2 ≠ b.2).map fun (a, _) => a.1
    | none, some _ => ["[auth] section added".toList]
    | some _, none => ["[auth] section removed".toList]
  if changed = [] then none
  else some (", ".toList.intercalate changed ++
    (". auth is read once at startup and applying it needs a new control session with new " ++
      "credentials — restart frpc to apply").toList)

/-- The file with the entries of the store. -/
def mergedConfig (file : ClientConfig) (store : Option Store) : ClientConfig :=
  match store with
  | some store => mergeClientConfig file (some store)
  | none => file

def onlyEnabled (cfg : ClientConfig) : ClientConfig :=
  { cfg with
    proxies := cfg.proxies.filter ProxyConfig.enabled
    visitors := cfg.visitors.filter VisitorConfig.enabled }

/-- The configuration that a reload compares with. -/
def reloadedConfig (s : Service) (inputs : Inputs) : Except Text ClientConfig :=
  match inputs.loaded with
  | .error e => .error ("failed to load config: ".toList ++ e)
  | .ok file =>
    let cfg := mergedConfig file inputs.store
    match authReloadRefusal s.cfg.auth cfg.auth with
    | some reason => .error reason
    | none =>
      match (injectSocks5UdpCompanionsPreserving (onlyEnabled cfg) s.proxies inputs.os).1 with
      | .error e => .error e
      | .ok cfg =>
        .ok { cfg with
          proxies := filterActiveProxies cfg cfg.proxies
          visitors := filterActiveVisitors cfg cfg.visitors }

/-!
## Plugins
-/

def listenerPlugin (p : ProxyConfig) : Option PluginConfig :=
  p.plugin.filter fun pl => pl.pluginType ≠ "virtual_net".toList

/-- The addresses of the plugins that were started.  A changed proxy whose plugin fails to start
stops the reload. -/
def startPlugins (start : Text -> PluginConfig -> Option Text) (delta : ReloadDelta) :
    List Text -> Table Text Text -> Except Text (Table Text Text)
  | [], addrs => .ok addrs
  | name :: rest, addrs =>
    match (findProxy delta.newConfig.proxies name).bind listenerPlugin with
    | none => startPlugins start delta rest addrs
    | some pl =>
      match start name pl with
      | some addr => startPlugins start delta rest (addrs.insert name addr)
      | none =>
        if delta.changed.contains name then
          .error ("plugin '".toList ++ pl.pluginType ++
            "' failed to restart for changed proxy '".toList ++ name ++
            "'; reload aborted, old plugin kept running".toList)
        else startPlugins start delta rest addrs

def localAddrOf (addrs : Table Text Text) (p : ProxyConfig) : Text :=
  (addrs.lookup p.name).getD (p.localIp ++ ':' :: natText p.localPort)

/-!
## Messages
-/

def closeWireNameForReload (map : Table Text ProxyRuntimeInfo) (name user : Text) : Text :=
  if (map.lookup name).isSome then name else wireProxyName user name

structure ReloadMsg where
  label : Text
  msg : Message

def closeMsg (s : Service) (delta : ReloadDelta) (label name : Text) : ReloadMsg where
  label := label ++ " '".toList ++ name ++ "'".toList
  msg := .closeProxy (closeWireNameForReload s.proxyInfoMap name delta.newConfig.user)

/-- Nothing if the new configuration has no proxy of this name. -/
def openMsgs (delta : ReloadDelta) (addrs : Table Text Text) (label name : Text) :
    List ReloadMsg :=
  match findProxy delta.newConfig.proxies name with
  | some p =>
    [{ label := label ++ " '".toList ++ name ++ "'".toList
       msg := createNewProxyMsg p (localAddrOf addrs p) delta.newConfig.user }]
  | none => []

def changedMsgs (s : Service) (delta : ReloadDelta) (addrs : Table Text Text) (name : Text) :
    List ReloadMsg :=
  match findProxy delta.newConfig.proxies name with
  | some _ =>
    closeMsg s delta "send CloseProxy for changed".toList name ::
      openMsgs delta addrs "send NewProxy for changed".toList name
  | none => []

def reloadMsgs (s : Service) (delta : ReloadDelta) (addrs : Table Text Text) : List ReloadMsg :=
  delta.removed.map (closeMsg s delta "send CloseProxy for".toList) ++
    delta.changed.flatMap (changedMsgs s delta addrs) ++
    delta.added.flatMap (openMsgs delta addrs "send NewProxy for added".toList)

/-!
## The commit
-/

def runtimeInfo (print : Printing) (addrs : Table Text Text) (p : ProxyConfig) :
    ProxyRuntimeInfo where
  localAddr := localAddrOf addrs p
  plugin := (p.plugin.map PluginConfig.pluginType).getD []
  err :=
    if (listenerPlugin p).isSome && (addrs.lookup p.name).isNone then
      "plugin '".toList ++ (p.plugin.map PluginConfig.pluginType).getD [] ++
        "' failed to start".toList
    else []
  configSnapshot := configSnapshot print p
  phase := .waitStart

/-- The entry of an added or changed proxy. -/
def insertInfo (print : Printing) (addrs : Table Text Text) (cfg : ClientConfig)
    (map : Table Text ProxyRuntimeInfo) (name : Text) : Table Text ProxyRuntimeInfo :=
  match findProxy cfg.proxies name with
  | some p => map.insert (wireProxyName cfg.user name) (runtimeInfo print addrs p)
  | none => map

def updateHealthConfig (cfg : ClientConfig) (configs : Table Text ProxyConfig) (name : Text) :
    Table Text ProxyConfig :=
  match findProxy cfg.proxies name with
  | some p =>
    if healthCheckMonitored p then configs.insert (wireProxyName cfg.user name) p
    else configs.erase (wireProxyName cfg.user name)
  | none => configs

def probed (p : ProxyConfig) : Bool :=
  healthCheckMonitored p &&
    (p.healthCheckType = "tcp".toList || p.healthCheckType = "http".toList)

def spawnHealthCheck (user : Text) (s : Service) (p : ProxyConfig) : Service :=
  if probed p then
    { s with
      healthCancels := s.healthCancels.insert (wireProxyName user p.name) ⟨s.nextMonitor, p⟩
      nextMonitor := s.nextMonitor + 1 }
  else s

def spawnHealthChecks (user : Text) (proxies : List ProxyConfig) (s : Service) : Service :=
  proxies.foldl (spawnHealthCheck user) s

/-- What a reload changes once its messages are queued. -/
def commitReload (print : Printing) (s : Service) (delta : ReloadDelta) (addrs : Table Text Text) :
    Service :=
  let cfg := delta.newConfig
  let wireKey := fun name => closeWireNameForReload s.proxyInfoMap name cfg.user
  let gone := delta.removed ++ delta.changed
  let fresh := cfg.proxies.filter fun p => delta.added.contains p.name || delta.changed.contains p.name
  let s := { s with
    healthCancels := gone.foldl (fun t name => t.erase (wireKey name)) s.healthCancels
    pluginHandles := addrs.entries.foldl (fun t e => t.insert e.1 e.2)
      (gone.foldl (fun t name => t.erase name) s.pluginHandles)
    proxyInfoMap := (delta.changed ++ delta.added).foldl (insertInfo print addrs cfg)
      (delta.removed.foldl (fun t name => t.erase (wireKey name)) s.proxyInfoMap)
    healthProxyConfigs := (delta.changed ++ delta.added).foldl (updateHealthConfig cfg)
      (delta.removed.foldl (fun t name => t.erase (wireKey name)) s.healthProxyConfigs) }
  let s := spawnHealthChecks cfg.user fresh s
  { s with
    cfg := cfg
    proxies := cfg.proxies
    visitorReloadNeeded := s.visitorReloadNeeded || !delta.visitorRemoved.isEmpty ||
      !delta.visitorAdded.isEmpty || !delta.visitorChanged.isEmpty }

/-- A reload: whether it succeeds, the state after it, and the messages that were queued. -/
structure Reloaded where
  result : Except Text Unit
  service : Service
  sent : List Message

def failedReload (s : Service) (error : Text) (sent : List Message) : Reloaded where
  result := .error error
  service := s
  sent := sent

/-- The reload of a difference. -/
def applyDelta (build : Build) (s : Service) (inputs : Inputs) (delta : ReloadDelta) : Reloaded :=
  if delta.isEmpty then
    { result := .ok ()
      service := { s with cfg := delta.newConfig, proxies := delta.newConfig.proxies }
      sent := [] }
  else
    match startPlugins inputs.startPlugin delta (delta.added ++ delta.changed) ∅ with
    | .error e => failedReload s e []
    | .ok addrs =>
      let msgs := reloadMsgs s delta addrs
      match msgs[inputs.sends]? with
      | some refused =>
        failedReload s (refused.label ++ ": ".toList ++ inputs.refusal.text)
          ((msgs.take inputs.sends).map ReloadMsg.msg)
      | none =>
        { result := .ok ()
          service := commitReload build.print s delta addrs
          sent := msgs.map ReloadMsg.msg }

def reloadDelta (build : Build) (s : Service) (cfg : ClientConfig) : ReloadDelta :=
  extendChanged build.vnet s (doReload build.print build.order s.proxyInfoMap s.cfg.visitors cfg)

def reloadFromSources (build : Build) (s : Service) (inputs : Inputs) : Reloaded :=
  match reloadedConfig s inputs with
  | .error e => failedReload s e []
  | .ok cfg => applyDelta build s inputs (reloadDelta build s cfg)

end Client
end FrpRs
