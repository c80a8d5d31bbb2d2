import FrpRs.Data.Text
import FrpRs.Server.ProxyManager
import FrpRs.Server.RouteTables
import Mathlib.Data.Finset.Insert
import Mathlib.Data.Finset.Erase

/-!
# Proxy registration

`handle_new_proxy` and what it calls under `frp-server/src/control/proxy_ops`: admission,
port allocation, the registry entry, the routes and the listeners, with every rollback.

What the operating system and the plugins answer is data of the request.  The metrics, the
SNI gate count, the VNet routes and the sockets themselves are left out; the verdict of
the VNet route check is data as well.
-/

namespace FrpRs
namespace Server

structure NewProxy where
  proxyName : String
  proxyType : ProxyType
  group : Option String
  groupKey : Option String
  remotePort : Option Int
  sk : Option String
  customDomains : Option (List String)
  subdomain : Option String
  locations : Option (List String)
  httpUser : Option String
  httpPwd : Option String
  hostHeaderRewrite : Option String
  headers : Option (List (String × String))
  routeByHttpUser : Option String
  bandwidthLimit : Option String
  bandwidthLimitMode : Option String
  multiplexer : Option String

/-- `PortsRange` of `frp-core/src/config/server.rs`, with 16-bit ends. -/
structure PortsRange where
  first : UInt16
  last : UInt16
  single : UInt16
deriving DecidableEq, Repr

structure ServerConfig where
  maxPortsPerClient : Nat
  maxProxiesPerClient : Nat
  maxCustomDomainsPerProxy : Int
  sudpPort : UInt16
  subDomainHost : String
  proxyBindAddr : String
  detailedErrorsToClient : Bool
  toLowercase : String -> String

structure BindError where
  addrInUse : Bool
  text : String
deriving DecidableEq, Repr

/-- What a request meets outside the server's tables.  A proxy with an assigned port may
try several ports, and each try asks again. -/
structure Surroundings where
  pluginRejection : Option String
  vnetRejection : Option String
  allowPorts : List PortsRange
  now : Nat
  udpBindable : UInt16 -> Bool
  tcpBindable : Nat -> UInt16 -> Bool
  udpBind : Option BindError
  tcpBind : Nat -> Option BindError

inductive Reply where
  | accepted (port : UInt16)
  | rejected (error : String)
  | panicked
deriving DecidableEq, Repr

structure Reservation where
  port : UInt16
  isUdp : Bool
  reservedAt : Nat
deriving DecidableEq, Repr

/-- The listener task and its cancellation token are the entry itself. -/
structure TcpGroupEntry where
  port : UInt16
  declaredPort : UInt16
  groupKey : String
  bindAddr : String
deriving DecidableEq, Repr

structure AppState where
  pm : ProxyManager
  usedPorts : Finset UInt16
  usedUdpPorts : Finset UInt16
  portReservations : Table String Reservation
  clientPortsUsed : Table String Nat
  skIndex : Table String String
  tcpGroups : Table String TcpGroupEntry
  vhost : VhostTables
  httpGroups : HttpGroups
  tcpmux : TcpMuxTables
  tcpmuxGroups : Table String TcpMuxGroup

inductive PortError where
  | alreadyUsed
  | notAllowed
  | unAvailable
  | noAvailable
deriving DecidableEq, Repr

inductive GroupPortQuery where
  | found (port : UInt16)
  | notFound
  | mismatch (text : String)
deriving DecidableEq, Repr

def PortError.clientText : PortError -> String
  | .alreadyUsed => "port already used"
  | .notAllowed => "port not allowed"
  | .unAvailable => "port unavailable"
  | .noAvailable => "no available port"

namespace PortsRange

def contains (r : PortsRange) (port : UInt16) : Bool :=
  if 0 < r.single then r.single = port else decide (r.first ≤ port ∧ port ≤ r.last)

def iter (r : PortsRange) : List UInt16 :=
  if 0 < r.single then [r.single]
  else (List.range' r.first.toNat (r.last.toNat + 1 - r.first.toNat)).map UInt16.ofNat

end PortsRange

namespace ProxyType

def consumesPort : ProxyType -> Bool
  | .tcp | .udp | .sudp => true
  | _ => false

def isUdp : ProxyType -> Bool
  | .udp | .sudp => true
  | _ => false

def replaceable : ProxyType -> Bool
  | .tcp | .udp | .sudp | .stcp | .xtcp | .vnet => true
  | _ => false

def hasSecretKey : ProxyType -> Bool
  | .stcp | .xtcp | .sudp => true
  | _ => false

def claimsDomains : ProxyType -> Bool
  | .http | .https | .tcpmux => true
  | _ => false

end ProxyType

namespace NewProxy

/-- The declared port, once `validate_new_proxy` has passed. -/
def declaredPort (np : NewProxy) : UInt16 :=
  UInt16.ofNat (np.remotePort.getD 0).toNat

def groupName (np : NewProxy) : Option String :=
  np.group.filter fun g => g ≠ ""

def isTcpGroup (np : NewProxy) : Bool :=
  np.proxyType = .tcp && np.groupName.isSome

def subdomainName (np : NewProxy) : Option String :=
  np.subdomain.filter fun s => s ≠ ""

/-- `build_proxy_info`. -/
def proxyInfo (np : NewProxy) (runId : String) (controlId : Nat) (port : UInt16) : ProxyInfo where
  name := np.proxyName
  proxyType := np.proxyType
  runId := runId
  controlId := controlId
  remotePort := some port
  sk := np.sk
  group := np.group
  groupKey := np.groupKey
  bandwidthLimit := np.bandwidthLimit.getD ""
  bandwidthLimitMode := np.bandwidthLimitMode.getD ""

end NewProxy

namespace ProxyInfo

def isTcpGroup (p : ProxyInfo) : Bool :=
  p.proxyType = .tcp && p.groupName.isSome

/-- `proxy_consumes_client_port`. -/
def consumesClientPort (p : ProxyInfo) : Bool :=
  p.proxyType.consumesPort && p.remotePort.any fun port => 0 < port

end ProxyInfo

/-!
## Validation
-/

def isControl (c : Char) : Bool :=
  c.val < 0x20 || (0x7f ≤ c.val && c.val < 0xa0)

def labels (domain : String) : Nat :=
  domain.toList.count '.' + 1

def duplicateDomain (lower : String -> String) (domains : List String) : Option String :=
  firstRepeated [] (domains.map lower)

def validateNewProxy (np : NewProxy) (subDomainHost : String) : Option String :=
  let port := np.remotePort.getD 0
  let domains := np.customDomains.getD []
  if port < 0 ∨ 65535 < port then
    some ("remote_port " ++ toString port ++ " out of valid range (0-65535)")
  else if 255 < np.proxyName.utf8ByteSize then some "proxy_name exceeds 255 characters"
  else if np.proxyName.toList.any isControl then
    some "proxy_name contains invalid control characters"
  else
    (domains.find? fun d => d = "" || d.toList.any fun c => isControl c || Text.isWhitespace c).map
      (fun d => "custom_domain '" ++ d ++ "' is empty or contains control/whitespace characters")
    |>.or
    ((np.subdomain.filter fun s => s.toList.contains '.' || s.toList.contains '*').map fun s =>
      "invalid subdomain '" ++ s ++
        "' (Go frp parity: '.' and '*' are the only rejected characters)")
    |>.or
    (if subDomainHost = "" then none
    else
      let host := subDomainHost.toLower
      (domains.find? fun d =>
        labels host < labels d.toLower &&
          ("." ++ host).toList.isSuffixOf d.toLower.toList).map fun d =>
        "custom domain '" ++ d ++ "' should not belong to subdomain host '" ++
          subDomainHost ++ "'")

namespace AppState

def new : AppState where
  pm := ProxyManager.new
  usedPorts := ∅
  usedUdpPorts := ∅
  portReservations := ∅
  clientPortsUsed := ∅
  skIndex := ∅
  tcpGroups := ∅
  vhost := VhostTables.new
  httpGroups := HttpGroups.new
  tcpmux := TcpMuxTables.new
  tcpmuxGroups := ∅

/-!
## Marks, counts and reservations
-/

def markTcp (s : AppState) (port : UInt16) : AppState :=
  { s with usedPorts := insert port s.usedPorts }

def unmarkTcp (s : AppState) (port : UInt16) : AppState :=
  { s with usedPorts := s.usedPorts.erase port }

def markUdp (s : AppState) (port : UInt16) : AppState :=
  { s with usedUdpPorts := insert port s.usedUdpPorts }

def unmarkUdp (s : AppState) (port : UInt16) : AppState :=
  { s with usedUdpPorts := s.usedUdpPorts.erase port }

def reserve (s : AppState) (name : String) (port : UInt16) (isUdp : Bool) (now : Nat) :
    AppState :=
  { s with portReservations := s.portReservations.insert name ⟨port, isUdp, now⟩ }

def dropReservation (s : AppState) (name : String) : AppState :=
  { s with portReservations := s.portReservations.erase name }

def portsUsed (s : AppState) (runId : String) : Nat :=
  (s.clientPortsUsed.lookup runId).getD 0

/-- A count that reaches zero is dropped. -/
def releaseClientPorts (s : AppState) (runId : String) (n : Nat) : AppState :=
  match s.clientPortsUsed.lookup runId with
  | none => s
  | some count =>
    { s with
      clientPortsUsed :=
        if count - n = 0 then s.clientPortsUsed.erase runId
        else s.clientPortsUsed.insert runId (count - n) }

def rollbackClientPort (s : AppState) (runId : String) : AppState :=
  match s.clientPortsUsed.lookup runId with
  | none => s
  | some count => { s with clientPortsUsed := s.clientPortsUsed.insert runId (count - 1) }

def countClientPort (s : AppState) (runId : String) : AppState :=
  { s with clientPortsUsed := s.clientPortsUsed.insert runId (s.portsUsed runId + 1) }

def removeEntry (s : AppState) (name : String) : AppState :=
  { s with pm := (s.pm.remove name).1 }

def removeGroup (s : AppState) (group : String) : AppState :=
  { s with tcpGroups := s.tcpGroups.erase group }

def udpPortHasOtherOwner (s : AppState) (port : UInt16) (exclude : List String) : Bool :=
  s.pm.list.any fun info =>
    info.remotePort = some port && info.proxyType.isUdp && !exclude.contains info.name

/-!
## Port allocation
-/

def reservationTime : Nat := 24 * 3600

/-- The port reserved for the name; a reservation that has expired is dropped. -/
def reservedPort (s : AppState) (env : Surroundings) (isUdp : Bool) (name : String) :
    AppState × Option UInt16 :=
  match (s.portReservations.lookup name).filter fun r => r.isUdp = isUdp with
  | none => (s, none)
  | some r =>
    if reservationTime ≤ env.now - r.reservedAt then
      (s.dropReservation name, none)
    else (s, some r.port)

def scanUdpPorts (env : Surroundings) (used : Finset UInt16) : Option UInt16 :=
  (env.allowPorts.flatMap PortsRange.iter).find? fun p => p ∉ used && env.udpBindable p

def allocateUdpPort (env : Surroundings) (s : AppState) (name : String) (isSudp : Bool)
    (remotePort : UInt16) : AppState × Except PortError UInt16 :=
  if 0 < remotePort then
    if remotePort ∈ s.usedUdpPorts then
      (s, if isSudp then .ok remotePort else .error .alreadyUsed)
    else if !env.udpBindable remotePort then (s, .error .unAvailable)
    else (s.markUdp remotePort, .ok remotePort)
  else
    let (s, reserved) := s.reservedPort env true name
    match (reserved.filter fun p => p ∉ s.usedUdpPorts && env.udpBindable p).or
        (scanUdpPorts env s.usedUdpPorts) with
    | some p => (s.markUdp p, .ok p)
    | none => (s, .error .noAvailable)

/-- `pick_tcp_port_candidates` for an assigned port. -/
def pickTcpPortCandidates (used : Finset UInt16) (ranges : List PortsRange) (limit : Nat) :
    List UInt16 :=
  ((ranges.flatMap PortsRange.iter).filter fun p => p ∉ used).take limit

/-- The candidate of a TCP proxy, before the mark is set. -/
def tcpCandidate (env : Surroundings) (attempt : Nat) (s : AppState) (name : String)
    (remotePort : UInt16) : AppState × Except PortError UInt16 :=
  if remotePort = 0 then
    let (s, reserved) := s.reservedPort env false name
    match (reserved.filter fun p => p ∉ s.usedPorts && env.tcpBindable attempt p).or
        ((pickTcpPortCandidates s.usedPorts env.allowPorts 4096).find? (env.tcpBindable attempt))
      with
    | some p => (s, .ok p)
    | none => (s, .error .noAvailable)
  else if remotePort ∈ s.usedPorts then (s, .error .alreadyUsed)
  else if !(env.allowPorts.isEmpty || env.allowPorts.any fun r => r.contains remotePort) then
    (s, .error .notAllowed)
  else if !env.tcpBindable attempt remotePort then (s, .error .unAvailable)
  else (s, .ok remotePort)

/-- The mark is set under the lock, where the candidate is checked once more. -/
def commitTcpPort (env : Surroundings) (attempt : Nat) (s : AppState) (p : UInt16) :
    AppState × Except PortError UInt16 :=
  if p ∈ s.usedPorts then
    match ((pickTcpPortCandidates s.usedPorts env.allowPorts 64).filter
        fun c => c ∉ s.usedPorts).find? (env.tcpBindable attempt) with
    | some p2 => (s.markTcp p2, .ok p2)
    | none => (s, .error .noAvailable)
  else (s.markTcp p, .ok p)

def allocateTcpPort (env : Surroundings) (attempt : Nat) (s : AppState) (name : String)
    (remotePort : UInt16) : AppState × Except PortError UInt16 :=
  match tcpCandidate env attempt s name remotePort with
  | (s, .error e) => (s, .error e)
  | (s, .ok p) => commitTcpPort env attempt s p

def requestedPort (cfg : ServerConfig) (type : ProxyType) (remotePort : UInt16) : UInt16 :=
  if type = .sudp ∧ 0 < cfg.sudpPort then cfg.sudpPort else remotePort

def allocateProxyPort (cfg : ServerConfig) (env : Surroundings) (attempt : Nat) (s : AppState)
    (name : String) (type : ProxyType) (remotePort : UInt16) :
    AppState × Except PortError UInt16 :=
  let remotePort := requestedPort cfg type remotePort
  if !type.consumesPort then (s, .ok remotePort)
  else if type.isUdp then allocateUdpPort env s name (type = .sudp) remotePort
  else allocateTcpPort env attempt s name remotePort

/-!
## The registry entry
-/

def registerSkIndex (s : AppState) (np : NewProxy) : AppState × Bool :=
  match np.sk.filter fun sk => np.proxyType.hasSecretKey && sk ≠ "" with
  | some sk => ({ s with skIndex := s.skIndex.insert np.proxyName sk }, true)
  | none => (s, false)

def rollbackPortAllocation (s : AppState) (name : String) (port : UInt16)
    (isUdp needsSkIndex : Bool) : AppState :=
  let s := if needsSkIndex then { s with skIndex := s.skIndex.erase name } else s
  let s := s.unmarkTcp port
  if isUdp && !s.udpPortHasOtherOwner port [] then s.unmarkUdp port else s

/-- The port of an entry that a newer generation has just replaced. -/
def freeReplacedPort (s : AppState) (now : Nat) (old : ProxyInfo) (newPort : UInt16) :
    AppState :=
  match old.remotePort.filter fun p => 0 < p with
  | none => s
  | some port =>
    if port = newPort then s
    else if old.isTcpGroup then
      let group := old.group.getD ""
      if s.pm.groupLen group = 0 then
        let s := (s.unmarkTcp port).reserve old.name port false now
        if s.pm.groupLen group = 0 then s.removeGroup group else s
      else s
    else if old.proxyType.isUdp then
      if s.udpPortHasOtherOwner port [] then s
      else (s.unmarkUdp port).reserve old.name port true now
    else (s.unmarkTcp port).reserve old.name port false now

def registerInfo (s : AppState) (info : ProxyInfo) :
    Except String (ProxyManager × Option ProxyInfo) :=
  if info.proxyType.replaceable then s.pm.registerOrReplace info
  else (s.pm.register info).map fun pm => (pm, none)

def releaseReplaced (s : AppState) (env : Surroundings) (runId : String) (port : UInt16) :
    Option ProxyInfo -> AppState
  | none => s
  | some old =>
    let s := if old.consumesClientPort then s.releaseClientPorts runId 1 else s
    s.freeReplacedPort env.now old port

/-- The text of the refusal, if the name is taken. -/
def registerProxyEntry (env : Surroundings) (s : AppState) (np : NewProxy) (runId : String)
    (controlId : Nat) (port : UInt16) : AppState × Option String :=
  let (s, needsSkIndex) := s.registerSkIndex np
  match s.registerInfo (np.proxyInfo runId controlId port) with
  | .error e =>
    (s.rollbackPortAllocation np.proxyName port np.proxyType.isUdp needsSkIndex, some e)
  | .ok (pm, replaced) =>
    let s := { s with pm := pm }.releaseReplaced env runId port replaced
    (if np.proxyType.consumesPort && 0 < port then s.countClientPort runId else s, none)

def rollbackUdpBindFailure (s : AppState) (runId : String) (port : UInt16) (name : String) :
    AppState :=
  ((s.unmarkUdp port).rollbackClientPort runId).removeEntry name

def rollbackTcpBindFailure (s : AppState) (runId : String) (port : UInt16) (name : String) :
    AppState :=
  ((s.unmarkTcp port).rollbackClientPort runId).removeEntry name

/-- Every caller passes `false`: the proxies with routes consume no port. -/
def rollbackVhostConflict (s : AppState) (runId : String) (port : UInt16)
    (consumesPort : Bool) : AppState :=
  if consumesPort then (s.unmarkTcp port).rollbackClientPort runId else s

def errMsg (cfg : ServerConfig) (detail generic : String) : String :=
  if cfg.detailedErrorsToClient then detail else generic

/-!
## Routes

Each of these returns the answer, if the proxy is refused.
-/

def rejectRoutes (s : AppState) (np : NewProxy) (runId : String) (port : UInt16)
    (error : String) : AppState × Option Reply :=
  ((s.rollbackVhostConflict runId port false).removeEntry np.proxyName, some (.rejected error))

def buildDomains (cfg : ServerConfig) (np : NewProxy) : Option (List String) :=
  match np.subdomainName with
  | none => some (np.customDomains.getD [])
  | some sub =>
    if cfg.subDomainHost = "" then none
    else some (np.customDomains.getD [] ++ [sub ++ "." ++ cfg.subDomainHost])

def subdomainUnsupported : String :=
  "subdomain is not supported because this feature is not enabled in server"

def vhostRoute (np : NewProxy) (runId : String) (scheme : Scheme) (locations : List String)
    (user group : String) : VhostRoute where
  proxyName := np.proxyName
  runId := runId
  scheme := scheme
  group := group
  locations := locations
  hostHeaderRewrite := np.hostHeaderRewrite.getD ""
  httpUser := np.httpUser.getD ""
  httpPwd := np.httpPwd.getD ""
  routeByHttpUser := user
  headers := np.headers.getD []

/-- The route of a proxy without a group, or the conflict. -/
def registerOwnRoute (cfg : ServerConfig) (s : AppState) (np : NewProxy) (runId : String)
    (port : UInt16) (route : VhostRoute) (domains : List String) : AppState × Option Reply :=
  match s.vhost.register cfg.toLowercase route domains with
  | .ok vhost => ({ s with vhost := vhost }, none)
  | .error conflict =>
    s.rejectRoutes np runId port
      (errMsg cfg conflict.toString "vhost route config conflict")

/-- The first member of a group registers the shared route, and leaves the group again if
that is refused. -/
def registerSharedRoute (cfg : ServerConfig) (s : AppState) (np : NewProxy) (runId : String)
    (port : UInt16) (scheme : Scheme) (group : String) (route : VhostRoute)
    (domains : List String) : Except String (HttpGroups × Bool) -> AppState × Option Reply
  | .error e => s.rejectRoutes np runId port (errMsg cfg e e)
  | .ok (groups, false) => ({ s with httpGroups := groups }, none)
  | .ok (groups, true) =>
    let s := { s with httpGroups := groups }
    match s.vhost.register cfg.toLowercase route domains with
    | .ok vhost => ({ s with vhost := vhost }, none)
    | .error conflict =>
      let s := { s with
        httpGroups := (s.httpGroups.unregisterMember scheme group np.proxyName).1 }
      s.rejectRoutes np runId port
        (errMsg cfg conflict.toString "vhost route config conflict")

/-- What a group proxy with another number of pairs than one is told.  The pairs are compared
by index, which panics if there is no domain. -/
def httpGroupPairsRefusal (cfg : ServerConfig) (np : NewProxy) (domains locations : List String) :
    Reply :=
  match domains with
  | [] => .panicked
  | d :: ds =>
    let first := (d, locations.headD "")
    let second := if 1 < locations.length then (d, locations.getD 1 "")
      else (ds.headD "", locations.headD "")
    if second = first then
      .rejected (errMsg cfg
        ("http group proxy '" ++ np.proxyName ++
          "' repeats the (custom_domain, location) pair ('" ++ first.1 ++ "', '" ++ first.2 ++
          "') — the identical triple re-enters HTTPGroup.Register under the same proxy name " ++
          "(Go: ErrProxyRepeated)")
        "group proxy repeated")
    else
      .rejected (errMsg cfg
        ("http group proxies must configure exactly one custom_domain and one location " ++
          "(Go frp HTTPGroup semantics)")
        "group params invalid")

def registerHttpVhost (cfg : ServerConfig) (s : AppState) (np : NewProxy) (runId : String)
    (port : UInt16) : AppState × Option Reply :=
  match buildDomains cfg np with
  | none => s.rejectRoutes np runId port subdomainUnsupported
  | some domains =>
    let locations := np.locations.getD []
    let user := np.routeByHttpUser.getD ""
    match np.groupName with
    | none =>
      s.registerOwnRoute cfg np runId port (vhostRoute np runId .http locations user "")
        domains
    | some group =>
      let locations := VhostRoute.effectiveLocations locations
      if domains.length ≠ 1 ∨ locations.length ≠ 1 then
        ((s.rejectRoutes np runId port "").1,
          some (httpGroupPairsRefusal cfg np domains locations))
      else
        s.registerSharedRoute cfg np runId port .http group
          (vhostRoute np runId .http locations user group) domains
          (s.httpGroups.registerMember group (np.groupKey.getD "") (domains.headD "")
            (locations.headD "") user np.proxyName)

/-- Repeated domains count once, and the user bucket is always the empty one. -/
def registerHttpsVhost (cfg : ServerConfig) (s : AppState) (np : NewProxy) (runId : String)
    (port : UInt16) : AppState × Option Reply :=
  match buildDomains cfg np with
  | none => s.rejectRoutes np runId port subdomainUnsupported
  | some domains =>
    match np.groupName with
    | none =>
      s.registerOwnRoute cfg np runId port (vhostRoute np runId .https [] "" "") domains
    | some group =>
      let domains := domains.reverse.dedup.reverse
      if domains.length ≠ 1 then
        s.rejectRoutes np runId port
          (errMsg cfg
            ("https group proxies must configure exactly one distinct custom_domain " ++
              "(Go frp HTTPSGroup semantics)")
            "group params invalid")
      else
        s.registerSharedRoute cfg np runId port .https group
          (vhostRoute np runId .https [] "" group) domains
          (s.httpGroups.registerHttpsMember group (np.groupKey.getD "") (domains.headD "")
            np.proxyName)

def tcpMuxRoute (np : NewProxy) (runId group : String) : TcpMuxRoute where
  proxyName := np.proxyName
  runId := runId
  httpUser := np.httpUser.getD ""
  httpPwd := np.httpPwd.getD ""
  routeByHttpUser := np.routeByHttpUser.getD ""
  group := group

/-- The checks of a tcpmux proxy before its routes; the domains that are left. -/
def tcpMuxDomains (cfg : ServerConfig) (np : NewProxy) : Except String (List String) :=
  let multiplexer := np.multiplexer.getD ""
  if multiplexer ≠ "" ∧ multiplexer ≠ "httpconnect" then
    .error ("unknown multiplexer [" ++ multiplexer ++ "]")
  else
    match buildDomains cfg np with
    | none => .error subdomainUnsupported
    | some [] => .error "tcpmux proxy requires custom_domains"
    | some domains =>
      let domains := domains.filter fun d => d ≠ ""
      match duplicateDomain cfg.toLowercase domains with
      | some dup =>
        .error (errMsg cfg
          ("tcpmux proxy custom_domains contains duplicate domain '" ++ dup ++ "'")
          "tcpmux route config conflict")
      | none => .ok domains

def registerTcpMuxRoute (cfg : ServerConfig) (s : AppState) (np : NewProxy) (runId : String)
    (port : UInt16) (group : String) (domains : List String) : AppState × Option Reply :=
  match s.tcpmux.register cfg.toLowercase (tcpMuxRoute np runId group) domains with
  | .ok tcpmux => ({ s with tcpmux := tcpmux }, none)
  | .error conflict =>
    s.rejectRoutes np runId port (errMsg cfg conflict "tcpmux route config conflict")

def registerTcpMuxProxy (cfg : ServerConfig) (s : AppState) (np : NewProxy) (runId : String)
    (port : UInt16) : AppState × Option Reply :=
  match tcpMuxDomains cfg np with
  | .error e => s.rejectRoutes np runId port e
  | .ok domains =>
    match np.groupName with
    | none => s.registerTcpMuxRoute cfg np runId port "" domains
    | some group =>
      if domains.length ≠ 1 then
        s.rejectRoutes np runId port
          (errMsg cfg
            ("tcpmux group proxies must configure exactly one custom_domain " ++
              "(Go frp TCPMuxGroup semantics)")
            "tcpmux group params invalid")
      else
        match TcpMuxGroup.registerMember s.tcpmuxGroups group (np.groupKey.getD "")
            (domains.headD "") (np.routeByHttpUser.getD "") (np.httpUser.getD "")
            (np.httpPwd.getD "") np.proxyName with
        | .error e =>
          s.rejectRoutes np runId port (errMsg cfg e "tcpmux group registration failed")
        | .ok (groups, false) => ({ s with tcpmuxGroups := groups }, none)
        | .ok (groups, true) =>
          match s.tcpmux.register cfg.toLowercase (tcpMuxRoute np runId group) domains with
          | .ok tcpmux => ({ s with tcpmuxGroups := groups, tcpmux := tcpmux }, none)
          | .error conflict =>
            { s with
              tcpmuxGroups := (TcpMuxGroup.unregisterMember groups group np.proxyName).1
            }.rejectRoutes np runId port
              (errMsg cfg conflict "tcpmux route config conflict")

def registerRoutes (cfg : ServerConfig) (env : Surroundings) (s : AppState) (np : NewProxy)
    (runId : String) (port : UInt16) : AppState × Option Reply :=
  match np.proxyType with
  | .vnet =>
    match env.vnetRejection with
    | some text => s.rejectRoutes np runId port (errMsg cfg text "vnet route config conflict")
    | none => (s, none)
  | .http => s.registerHttpVhost cfg np runId port
  | .https => s.registerHttpsVhost cfg np runId port
  | .tcpmux => s.registerTcpMuxProxy cfg np runId port
  | _ => (s, none)

/-!
## TCP groups
-/

def getGroupPort (s : AppState) (group groupKey : String) (declaredPort : UInt16)
    (bindAddr : String) : GroupPortQuery :=
  match s.tcpGroups.lookup group with
  | none => .notFound
  | some entry =>
    if entry.bindAddr ≠ bindAddr then .mismatch "group params invalid"
    else if entry.declaredPort ≠ declaredPort then
      .mismatch "group should have same remote port"
    else if entry.groupKey ≠ groupKey then .mismatch "group auth failed"
    else .found entry.port

/-- `get_group_port` for the group that a message names. -/
def groupQuery (cfg : ServerConfig) (s : AppState) (np : NewProxy) : GroupPortQuery :=
  s.getGroupPort (np.group.getD "") (np.groupKey.getD "") np.declaredPort cfg.proxyBindAddr

def createGroup (s : AppState) (group : String) (entry : TcpGroupEntry) : Except String AppState :=
  if (s.tcpGroups.lookup group).isSome then
    .error ("TCP group '" ++ group ++ "' already exists")
  else .ok { s with tcpGroups := s.tcpGroups.insert group entry }

/-- A replaced entry with any port counts here, whatever its type. -/
def handleTcpGroupMemberRegistration (cfg : ServerConfig) (env : Surroundings) (s : AppState)
    (np : NewProxy) (runId : String) (controlId : Nat) (port : UInt16) : AppState × Reply :=
  match s.pm.registerOrReplace (np.proxyInfo runId controlId port) with
  | .error e =>
    (s.unmarkTcp port,
      .rejected (errMsg cfg e "proxy registration conflict (TCP group)"))
  | .ok (pm, replaced) =>
    let s := { s with pm := pm }
    let s := match replaced with
      | none => s
      | some old =>
        let s := if old.remotePort.any fun p => 0 < p then s.releaseClientPorts runId 1 else s
        s.freeReplacedPort env.now old port
    (s.countClientPort runId, .accepted port)

/-!
## Listeners
-/

def tcpAutoBindMaxAttempts : Nat := 8

/-- The attempt that still has `left` others after it. -/
def attemptNumber (left : Nat) : Nat :=
  tcpAutoBindMaxAttempts - 1 - left

/-- `left` further attempts are allowed if the port was assigned. -/
def bindTcpProxyWithRetry (cfg : ServerConfig) (env : Surroundings) (np : NewProxy)
    (runId : String) (controlId : Nat) : Nat -> AppState -> UInt16 -> AppState × Reply
  | left, s, port =>
    match env.tcpBind (attemptNumber left) with
    | none => (s, .accepted port)
    | some e =>
      let s := s.rollbackTcpBindFailure runId port np.proxyName
      let refused := Reply.rejected (errMsg cfg ("TCP bind failed: " ++ e.text)
        "TCP bind failed")
      match left with
      | 0 => (s, refused)
      | left + 1 =>
        if np.remotePort.getD 0 = 0 ∧ e.addrInUse then
          let s := s.dropReservation np.proxyName
          match s.allocateProxyPort cfg env (attemptNumber left) np.proxyName .tcp 0 with
          | (s, .error pe) => (s, .rejected pe.clientText)
          | (s, .ok p) =>
            match s.registerProxyEntry env np runId controlId p with
            | (s, some text) =>
              (s, .rejected (errMsg cfg text "proxy registration conflict"))
            | (s, none) =>
              bindTcpProxyWithRetry cfg env np runId controlId left s p
        else (s, refused)

/-- The group that the first member could not bind, or found created by another one. -/
def joinInstead (cfg : ServerConfig) (env : Surroundings) (s : AppState) (np : NewProxy)
    (runId : String) (controlId : Nat) (refused : Reply) : AppState × Reply :=
  match s.groupQuery cfg np with
  | .found port =>
    (s.markTcp port).handleTcpGroupMemberRegistration cfg env np runId controlId port
  | .mismatch text => (s, .rejected text)
  | .notFound => (s, refused)

/-- The first member of a group binds the shared listener. -/
def createTcpGroup (cfg : ServerConfig) (env : Surroundings) (s : AppState) (np : NewProxy)
    (runId : String) (controlId : Nat) (port : UInt16) : AppState × Reply :=
  let undone := s.rollbackTcpBindFailure runId port np.proxyName
  match env.tcpBind 0 with
  | some e =>
    let refused := Reply.rejected (errMsg cfg ("TCP group bind failed: " ++ e.text)
      "TCP group bind failed")
    if e.addrInUse then joinInstead cfg env undone np runId controlId refused
    else (undone, refused)
  | none =>
    match s.createGroup (np.group.getD "")
        ⟨port, np.declaredPort, np.groupKey.getD "", cfg.proxyBindAddr⟩ with
    | .ok s => (s, .accepted port)
    | .error e =>
      joinInstead cfg env undone np runId controlId
        (.rejected (errMsg cfg ("TCP group registration failed: " ++ e)
          "TCP group registration failed"))

/-- A SUDP proxy whose port cannot be bound serves its visitors only. -/
def setupProxyListeners (cfg : ServerConfig) (env : Surroundings) (s : AppState) (np : NewProxy)
    (runId : String) (controlId : Nat) (port : UInt16) (tcpGroupCreated : Bool) :
    AppState × Reply :=
  match np.proxyType with
  | .udp =>
    match env.udpBind with
    | none => (s, .accepted port)
    | some e =>
      (s.rollbackUdpBindFailure runId port np.proxyName,
        .rejected (errMsg cfg ("UDP bind failed: " ++ e.text) "UDP bind failed"))
  | .tcp =>
    if tcpGroupCreated then createTcpGroup cfg env s np runId controlId port
    else
      bindTcpProxyWithRetry cfg env np runId controlId (tcpAutoBindMaxAttempts - 1) s port
  | _ => (s, .accepted port)

/-!
## The request
-/

/-- The caps on ports, proxies and route domains, in this order. -/
def overLimit (cfg : ServerConfig) (s : AppState) (np : NewProxy) (runId : String) :
    Option String :=
  let estimate : Nat := (np.customDomains.getD []).length +
    (if np.subdomainName.isSome then 1 else 0) + (np.locations.getD []).length
  if np.proxyType.consumesPort ∧ 0 < cfg.maxPortsPerClient ∧
      cfg.maxPortsPerClient < s.portsUsed runId + 1 then
    some ("maximum number of ports (" ++ toString cfg.maxPortsPerClient ++
      ") reached for this client")
  else if 0 < cfg.maxProxiesPerClient ∧
      cfg.maxProxiesPerClient < s.pm.clientProxyCount runId + 1 then
    some ("maximum number of proxies (" ++ toString cfg.maxProxiesPerClient ++
      ") reached for this client")
  else if 0 < cfg.maxCustomDomainsPerProxy ∧ np.proxyType.claimsDomains ∧
      cfg.maxCustomDomainsPerProxy < estimate then
    some ("proxy '" ++ np.proxyName ++ "' declares " ++ toString estimate ++
      " route-claiming domain(s)/location(s), exceeding the configured maximum of " ++
      toString cfg.maxCustomDomainsPerProxy)
  else none

def notAdmitted (cfg : ServerConfig) (env : Surroundings) (s : AppState) (np : NewProxy)
    (runId : String) : Option String :=
  env.pluginRejection.or ((validateNewProxy np cfg.subDomainHost).or
    (s.overLimit cfg np runId))

/-- The registration of a proxy that joins no group. -/
def registerNew (cfg : ServerConfig) (env : Surroundings) (s : AppState) (np : NewProxy)
    (runId : String) (controlId : Nat) (tcpGroupCreated : Bool) : AppState × Reply :=
  match s.allocateProxyPort cfg env 0 np.proxyName np.proxyType np.declaredPort with
  | (s, .error e) => (s, .rejected e.clientText)
  | (s, .ok port) =>
    match s.registerProxyEntry env np runId controlId port with
    | (s, some e) => (s, .rejected (errMsg cfg e "proxy registration conflict"))
    | (s, none) =>
      match s.registerRoutes cfg env np runId port with
      | (s, some reply) => (s, reply)
      | (s, none) =>
        s.setupProxyListeners cfg env np runId controlId port tcpGroupCreated

def handleNewProxy (cfg : ServerConfig) (env : Surroundings) (s : AppState) (np : NewProxy)
    (runId : String) (controlId : Nat) : AppState × Reply :=
  match s.notAdmitted cfg env np runId with
  | some text => (s, .rejected text)
  | none =>
    if np.isTcpGroup then
      match s.groupQuery cfg np with
      | .found port =>
        (s.markTcp port).handleTcpGroupMemberRegistration cfg env np runId controlId port
      | .mismatch text => (s, .rejected text)
      | .notFound => s.registerNew cfg env np runId controlId true
    else s.registerNew cfg env np runId controlId false

end AppState
end Server
end FrpRs
