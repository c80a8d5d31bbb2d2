import FrpRs.Data.Table
import FrpRs.Data.Text
import FrpRs.Udp.NetText

/-!
# The client's configuration

The parts of `ClientConfig`, `ProxyConfig` and `PluginConfig` that a reload reads, from
`frp-core/src/config/client.rs` and `server.rs`; the overlay of the store in
`frp-client/src/store.rs`; the filters of `frp-client/src/service/reload_apply.rs`; and the
snapshot of `frp-client/src/reload.rs` that tells whether a proxy has changed.

Texts are lists of characters.  How lists, maps and secrets are printed is a parameter.
-/

namespace FrpRs
namespace Client

structure PluginConfig where
  pluginType : Text := []
  httpUser : Text := []
  httpPassword : Text := []
  localAddr : Text := []
  localPath : Text := []
  stripPrefix : Text := []
  hostHeaderRewrite : Text := []
  username : Text := []
  password : Text := []
  crtFile : Text := []
  keyFile : Text := []
  serverName : Text := []
  secretKey : Text := []
  bindAddr : Text := []
  bindPort : Int := 0
  proxyProtocolVersion : Text := []
  requestHeaders : Table Text Text := ∅
  enableHttp2 : Option Bool := none
  udpEnable : Bool := false
  udpAutoCompanion : Option Bool := none
  udpBindAddr : Text := []
  udpAdvertiseAddr : Text := []

def PluginConfig.udpAutoCompanionEnabled (plugin : PluginConfig) : Bool :=
  plugin.udpAutoCompanion.getD true

structure ProxyConfig where
  name : Text := []
  proxyType : Text := []
  localIp : Text := []
  localPort : Nat := 0
  remotePort : Nat := 0
  useEncryption : Bool := false
  useCompression : Bool := false
  sk : Text := []
  plugin : Option PluginConfig := none
  customDomains : List Text := []
  subdomain : Text := []
  httpUser : Text := []
  httpPwd : Text := []
  httpPassword : Text := []
  locations : List Text := []
  hostHeaderRewrite : Text := []
  headers : Table Text Text := ∅
  responseHeaders : Table Text Text := ∅
  routeByHttpUser : Text := []
  allowUsers : List Text := []
  bandwidthLimit : Text := []
  bandwidthLimitMode : Text := []
  annotations : Table Text Text := ∅
  metas : Table Text Text := ∅
  multiplexer : Text := []
  group : Text := []
  groupKey : Text := []
  healthCheckType : Text := []
  healthCheckUrl : Text := []
  healthCheckHttpHeaders : List (Text × Text) := []
  healthCheckIntervalSeconds : Nat := 0
  healthCheckTimeoutSeconds : Nat := 0
  healthCheckMaxFailed : Nat := 0
  virtualNet : Text := []
  advertiseSubnet : Text := []
  vnetIp : Text := []
  vnetNetmask : Text := []
  vnetMtu : Nat := 0
  proxyProtocolVersion : Text := []
  enabled : Bool := false
  disableAssistedAddrs : Bool := false

/-- A visitor.  Of the other settings only equality matters. -/
structure VisitorConfig where
  name : Text
  enabled : Bool
  settings : List Text
deriving DecidableEq

/-- The fields of the `[auth]` section, each with its name and its value as it is compared. -/
abbrev AuthClientConfig := List (Text × Text)

structure ClientConfig where
  user : Text := []
  serverAddr : Text := []
  start : List Text := []
  proxies : List ProxyConfig := []
  visitors : List VisitorConfig := []
  auth : Option AuthClientConfig := none
  virtualNetAddress : Text := []

/-!
## Sources
-/

def textLe : Text -> Text -> Bool
  | [], _ => true
  | _ :: _, [] => false
  | a :: as, b :: bs => if a = b then textLe as bs else a < b

def insertByKey {α : Type} (key : α -> Text) (a : α) : List α -> List α
  | [] => [a]
  | b :: bs => if textLe (key a) (key b) then a :: b :: bs else b :: insertByKey key a bs

def sortByKey {α : Type} (key : α -> Text) (as : List α) : List α :=
  as.foldr (insertByKey key) []

/-- The entries of the store. -/
structure Store where
  proxies : List ProxyConfig
  visitors : List VisitorConfig

def overlay {α : Type} (name : α -> Text) (config store : List α) : List α :=
  sortByKey name ((config.filter fun c => !store.any fun s => name s = name c) ++ store)

def mergeStoreItems (cfg : ClientConfig) (proxies : List ProxyConfig)
    (visitors : List VisitorConfig) : ClientConfig :=
  { cfg with
    proxies := overlay ProxyConfig.name cfg.proxies proxies
    visitors := overlay VisitorConfig.name cfg.visitors visitors }

def mergeClientConfig (cfg : ClientConfig) : Option Store -> ClientConfig
  | none =>
    { cfg with
      proxies := cfg.proxies.filter ProxyConfig.enabled
      visitors := cfg.visitors.filter VisitorConfig.enabled }
  | some store =>
    mergeStoreItems
      { cfg with
        proxies := cfg.proxies.filter ProxyConfig.enabled
        visitors := cfg.visitors.filter VisitorConfig.enabled }
      (store.proxies.filter ProxyConfig.enabled) (store.visitors.filter VisitorConfig.enabled)

/-!
## Active entries
-/

/-- The entries that the `start` list allows: all if it is empty. -/
def filterStart {α : Type} (name : α -> Text) (start : List Text) (as : List α) : List α :=
  if start = [] then as else as.filter fun a => start.any fun s => s = name a

def filterActiveProxies (cfg : ClientConfig) (proxies : List ProxyConfig) : List ProxyConfig :=
  (filterStart ProxyConfig.name cfg.start proxies).filter ProxyConfig.enabled

def filterActiveVisitors (cfg : ClientConfig) (visitors : List VisitorConfig) :
    List VisitorConfig :=
  (filterStart VisitorConfig.name cfg.start visitors).filter VisitorConfig.enabled

def healthCheckMonitored (p : ProxyConfig) : Bool :=
  p.healthCheckType ≠ [] && decide (0 < p.localPort)

/-!
## Snapshots
-/

/-- The texts of lists and of sorted maps, and the hash of a secret. -/
structure Printing where
  debugTexts : List Text -> Text
  debugHeaders : List (Text × Text) -> Text
  sortedMap : Table Text Text -> Text
  generateToken : Text -> Text

def natText (n : Nat) : Text :=
  Nat.toDigits 10 n

def intText : Int -> Text
  | .ofNat n => natText n
  | .negSucc n => '-' :: natText (n + 1)

def boolText (b : Bool) : Text :=
  if b then "true".toList else "false".toList

def optionBoolText : Option Bool -> Text
  | none => "None".toList
  | some b => "Some(".toList ++ boolText b ++ ")".toList

def Printing.hashSecret (print : Printing) (s : Text) : Text :=
  if s = [] then [] else print.generateToken s

def pluginFields (print : Printing) (pl : PluginConfig) : List (Text × Text) :=
  [("plugin.type".toList, pl.pluginType),
    ("plugin.http_user".toList, pl.httpUser),
    ("plugin.http_password".toList, print.hashSecret pl.httpPassword),
    ("plugin.local_addr".toList, pl.localAddr),
    ("plugin.local_path".toList, pl.localPath),
    ("plugin.strip_prefix".toList, pl.stripPrefix),
    ("plugin.host_header_rewrite".toList, pl.hostHeaderRewrite),
    ("plugin.username".toList, pl.username),
    ("plugin.password".toList, print.hashSecret pl.password),
    ("plugin.crt_file".toList, pl.crtFile),
    ("plugin.key_file".toList, pl.keyFile),
    ("plugin.server_name".toList, pl.serverName),
    ("plugin.secret_key".toList, print.hashSecret pl.secretKey),
    ("plugin.bind_addr".toList, pl.bindAddr),
    ("plugin.bind_port".toList, intText pl.bindPort),
    ("plugin.proxy_protocol_version".toList, pl.proxyProtocolVersion),
    ("plugin.request_headers".toList, print.sortedMap pl.requestHeaders),
    ("plugin.enable_http2".toList, optionBoolText pl.enableHttp2),
    ("plugin.udp_enable".toList, boolText pl.udpEnable),
    ("plugin.udp_auto_companion".toList, optionBoolText pl.udpAutoCompanion),
    ("plugin.udp_bind_addr".toList, pl.udpBindAddr),
    ("plugin.udp_advertise_addr".toList, pl.udpAdvertiseAddr)]

def snapshotFields (print : Printing) (p : ProxyConfig) : List (Text × Text) :=
  [("type".toList, p.proxyType),
    ("local_ip".toList, p.localIp),
    ("local_port".toList, natText p.localPort),
    ("remote_port".toList, natText p.remotePort),
    ("use_encryption".toList, boolText p.useEncryption),
    ("use_compression".toList, boolText p.useCompression),
    ("sk".toList, print.hashSecret p.sk),
    ("custom_domains".toList, print.debugTexts p.customDomains),
    ("subdomain".toList, p.subdomain),
    ("http_user".toList, p.httpUser),
    ("http_pwd".toList, print.hashSecret p.httpPwd),
    ("host_header_rewrite".toList, p.hostHeaderRewrite),
    ("locations".toList, print.debugTexts p.locations),
    ("bandwidth_limit".toList, p.bandwidthLimit),
    ("bandwidth_limit_mode".toList, p.bandwidthLimitMode),
    ("group".toList, p.group),
    ("group_key".toList, print.hashSecret p.groupKey),
    ("multiplexer".toList, p.multiplexer),
    ("proxy_protocol_version".toList, p.proxyProtocolVersion),
    ("vnet_ip".toList, p.vnetIp),
    ("vnet_netmask".toList, p.vnetNetmask),
    ("vnet_mtu".toList, natText p.vnetMtu),
    ("advertise_subnet".toList, p.advertiseSubnet),
    ("virtual_net".toList, p.virtualNet),
    ("health_check_type".toList, p.healthCheckType),
    ("health_check_url".toList, p.healthCheckUrl),
    ("health_check_http_headers".toList, print.debugHeaders p.healthCheckHttpHeaders),
    ("health_check_interval_seconds".toList, natText p.healthCheckIntervalSeconds),
    ("health_check_timeout_seconds".toList, natText p.healthCheckTimeoutSeconds),
    ("health_check_max_failed".toList, natText p.healthCheckMaxFailed),
    ("headers".toList, print.sortedMap p.headers),
    ("response_headers".toList, print.sortedMap p.responseHeaders),
    ("route_by_http_user".toList, p.routeByHttpUser),
    ("allow_users".toList, print.debugTexts p.allowUsers),
    ("annotations".toList, print.sortedMap p.annotations),
    ("metas".toList, print.sortedMap p.metas),
    ("http_password".toList, print.hashSecret p.httpPassword),
    ("enabled".toList, boolText p.enabled),
    ("disable_assisted_addrs".toList, boolText p.disableAssistedAddrs)] ++
  match p.plugin with
  | some pl => pluginFields print pl
  | none => [("plugin.type".toList, "(none)".toList)]

def configSnapshot (print : Printing) (p : ProxyConfig) : Text :=
  ['|'].intercalate
    ((sortByKey Prod.fst (snapshotFields print p)).map fun field => field.1 ++ '=' :: field.2)

def vnetProxySnapshot (p : ProxyConfig) : Text :=
  ['|'].intercalate [p.proxyType, p.virtualNet, p.advertiseSubnet, p.vnetIp, p.vnetNetmask,
    natText p.vnetMtu, (p.plugin.map PluginConfig.pluginType).getD []]

end Client
end FrpRs
