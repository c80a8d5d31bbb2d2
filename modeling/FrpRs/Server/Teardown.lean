import FrpRs.Server.Registration

/-!
# Closing proxies

`handle_close_proxy` and `cleanup` of `frp-server/src/control/proxy.rs`, with
`unregister_control` of `proxy_ops/teardown.rs`, and the server as a machine that handles
one request after the other.

The login bookkeeping of `unregister_control` is not part of this state.
-/

namespace FrpRs
namespace Server
namespace AppState

/-- The vhost route of a proxy, or its place in the group that shares one. -/
def releaseVhostRoute (s : AppState) (p : ProxyInfo) : AppState :=
  match (if p.proxyType = .http then some Scheme.http
      else if p.proxyType = .https then some Scheme.https else none), p.groupName with
  | some kind, some group =>
    let (groups, owner) := s.httpGroups.unregisterMember kind group p.name
    { s with
      httpGroups := groups
      vhost := match owner with
        | some owner => s.vhost.unregister owner
        | none => s.vhost }
  | _, _ => { s with vhost := s.vhost.unregister p.name }

def releaseTcpMuxRoute (s : AppState) (p : ProxyInfo) : AppState :=
  match p.groupName.filter fun _ => p.proxyType = .tcpmux with
  | some group =>
    let (groups, owner) := TcpMuxGroup.unregisterMember s.tcpmuxGroups group p.name
    { s with
      tcpmuxGroups := groups
      tcpmux := match owner with
        | some owner => s.tcpmux.unregister owner
        | none => s.tcpmux }
  | none => { s with tcpmux := s.tcpmux.unregister p.name }

def releaseRoutes (s : AppState) (p : ProxyInfo) : AppState :=
  (s.releaseVhostRoute p).releaseTcpMuxRoute p

def releaseSkIndex (s : AppState) (p : ProxyInfo) : AppState :=
  match p.skIndexKey with
  | some key => { s with skIndex := s.skIndex.erase key }
  | none => s

/-!
## `CloseProxy`
-/

def releaseUdpPortWithOwnerCheck (s : AppState) (port : UInt16) (closing : String) : AppState :=
  if s.udpPortHasOtherOwner port [closing] then s else s.unmarkUdp port

def releaseClosedPort (s : AppState) (p : ProxyInfo) : AppState :=
  match p.remotePort with
  | none => s
  | some port =>
    if p.proxyType.isUdp then s.releaseUdpPortWithOwnerCheck port p.name
    else if p.isTcpGroup then s
    else s.unmarkTcp port

/-- `remove_proxy_and_release_client_counts`. -/
def removeProxyAndReleaseClientCounts (s : AppState) (p : ProxyInfo) : AppState :=
  let (pm, removed) := s.pm.remove p.name
  let s := { s with pm := pm }
  if removed.isSome && p.consumesClientPort then s.releaseClientPorts p.runId 1 else s

def releaseEmptyTcpGroup (s : AppState) (p : ProxyInfo) : AppState :=
  let group := p.group.getD ""
  if p.isTcpGroup && s.pm.groupLen group = 0 then
    (match p.remotePort with
      | some port => s.unmarkTcp port
      | none => s).removeGroup group
  else s

def closeProxy (s : AppState) (runId name : String) : AppState :=
  match (s.pm.get name).filter fun p => p.runId = runId with
  | none => s
  | some p =>
    let s := ((s.releaseClosedPort p).releaseSkIndex p).releaseRoutes p
    (s.removeProxyAndReleaseClientCounts p).releaseEmptyTcpGroup p

/-!
## Disconnects
-/

def superseded (pm : ProxyManager) (p : ProxyInfo) : Bool :=
  p.controlId ≠ 0 && (pm.get p.name).any fun cur => decide (p.controlId < cur.controlId)

def swept (pm : ProxyManager) (runId : String) (controlId : Nat) : List ProxyInfo :=
  (pm.listClient runId).filter fun p => controlId = 0 || p.controlId ≤ controlId

def sweptPort (pm : ProxyManager) (p : ProxyInfo) : Option UInt16 :=
  if superseded pm p then none
  else p.remotePort.filter fun _ =>
    if p.isTcpGroup then pm.groupLen (p.group.getD "") ≤ 1 else !p.proxyType.isUdp

def sweptGroup (pm : ProxyManager) (p : ProxyInfo) : Option (String × Nat) :=
  if p.isTcpGroup && (sweptPort pm p).isSome then
    some (p.group.getD "", pm.groupLen (p.group.getD ""))
  else none

def reserveSwept (now : Nat) (s : AppState) (p : ProxyInfo) : AppState :=
  match (sweptPort s.pm p).filter fun port => 0 < port with
  | some port => s.reserve p.name port false now
  | none => s

def removeSweptGroup (s : AppState) (g : String × Nat) : AppState :=
  if s.pm.groupLen g.1 = g.2 then s.removeGroup g.1 else s

def sweepTcpPorts (now : Nat) (s : AppState) (batch : List ProxyInfo) : AppState :=
  let groups := batch.filterMap (sweptGroup s.pm)
  let s := (batch.filterMap (sweptPort s.pm)).foldl unmarkTcp s
  let s := batch.foldl (reserveSwept now) s
  groups.foldl removeSweptGroup s

def sweepSkIndex (s : AppState) (p : ProxyInfo) : AppState :=
  if superseded s.pm p then s else s.releaseSkIndex p

/-- A UDP port is not asked for other owners, and no proxy for a newer generation. -/
def sweepUdpPort (now : Nat) (batch : List ProxyInfo) (s : AppState) (p : ProxyInfo) : AppState :=
  match p.remotePort.filter fun _ => p.proxyType.isUdp with
  | none => s
  | some port =>
    if p.proxyType = .sudp && s.udpPortHasOtherOwner port (batch.map ProxyInfo.name) then s
    else
      let s := s.unmarkUdp port
      if 0 < port then s.reserve p.name port true now else s

def sweepClientPorts (s : AppState) (runId : String) (batch : List ProxyInfo) : AppState :=
  let consumed := batch.countP fun p => !superseded s.pm p && p.consumesClientPort
  if 0 < consumed then s.releaseClientPorts runId consumed else s

def sweepRoutes (s : AppState) (p : ProxyInfo) : AppState :=
  if superseded s.pm p then s else s.releaseRoutes p

def unregisterControl (now : Nat) (s : AppState) (runId : String) (controlId : Nat) : AppState :=
  let batch := swept s.pm runId controlId
  let s := s.sweepTcpPorts now batch
  let s := batch.foldl sweepSkIndex s
  let s := batch.foldl (sweepUdpPort now batch) s
  let s := s.sweepClientPorts runId batch
  batch.foldl sweepRoutes s

def removeSwept (controlId : Nat) (s : AppState) (name : String) : AppState :=
  { s with pm := (s.pm.removeIfControlId name controlId).1 }

/-- `cleanup`: the names are listed before the sweep and removed after it. -/
def cleanup (now : Nat) (s : AppState) (runId : String) (controlId : Nat) : AppState :=
  let names := s.pm.listClientProxyNames runId
  names.foldl (removeSwept controlId) (s.unregisterControl now runId controlId)

/-!
## Runs
-/

/-- A request of a client, or the end of its control connection. -/
inductive Request where
  | newProxy (env : Surroundings) (np : NewProxy) (runId : String) (controlId : Nat)
  | closeProxy (runId name : String)
  | disconnect (now : Nat) (runId : String) (controlId : Nat)

def step (cfg : ServerConfig) (s : AppState) : Request -> AppState
  | .newProxy env np runId controlId => (s.handleNewProxy cfg env np runId controlId).1
  | .closeProxy runId name => s.closeProxy runId name
  | .disconnect now runId controlId => s.cleanup now runId controlId

end AppState
end Server
end FrpRs
