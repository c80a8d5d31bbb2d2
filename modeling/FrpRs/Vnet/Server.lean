import FrpRs.Vnet.Routes

/-!
# Virtual-net messages on the server

The handlers of `frp-server/src/control/nathole.rs`, `control/proxy.rs` and
`control/proxy_ops` that touch the virtual-net tables: registration and closing of
proxies, route advertisements and removals, packets, and the sweep after a control
connection ends.  One message is handled in one step.
-/

namespace FrpRs
namespace Vnet

/-!
## State and messages
-/

/-- The fields of a registered proxy that these handlers read. -/
structure ProxyInfo where
  name : String
  runId : String
  proxyType : String
  virtualNet : Option String
  controlId : Nat
deriving DecidableEq, Repr

/-- The proxy registry, the live control connections with their generation, and the
route table. -/
structure Server where
  proxies : Table String ProxyInfo
  runIdToCtlTx : Table String Nat
  vnetRoutes : VnetRoutes

def Server.new : Server where
  proxies := ∅
  runIdToCtlTx := ∅
  vnetRoutes := VnetRoutes.new

structure NewProxy where
  proxyName : String
  proxyType : String
  virtualNet : Option String
  advertiseSubnet : Option String
deriving DecidableEq, Repr

structure VnetRouteAdvertise where
  proxyName : String
  subnet : String
  virtualNet : Option String
deriving DecidableEq, Repr

structure VnetRouteRemove where
  proxyName : String
  virtualNet : Option String
deriving DecidableEq, Repr

structure VnetPacket where
  proxyName : String
  data : String
deriving DecidableEq, Repr

/-- What one control handler hands to another one. -/
inductive InternalMsg where
  | vnetPacketForward (proxyName data : String)
  | vnetRouteAdvertise (adv : VnetRouteAdvertise)
  | vnetRouteRemove (rem : VnetRouteRemove)
deriving DecidableEq, Repr

/-- An internal message and the run id whose control connection receives it. -/
structure Delivery where
  target : String
  msg : InternalMsg
deriving DecidableEq, Repr

namespace Server

def alive (s : Server) (runId : String) : Bool :=
  (s.runIdToCtlTx.lookup runId).isSome

/-- `proxy_manager.list_client`. -/
def listClient (s : Server) (runId : String) : List ProxyInfo :=
  (s.proxies.entries.map Sigma.snd).filter fun p => p.runId = runId

def controlTxsInVnet (s : Server) (excludeRunId vnet : String) : List String :=
  (s.vnetRoutes.vnetMembersOf vnet).elim [] fun members =>
    (VnetRoutes.ascending members).filter fun runId => runId != excludeRunId && s.alive runId

def broadcast (s : Server) (excludeRunId vnet : String) (msg : InternalMsg) :
    List Delivery :=
  (s.controlTxsInVnet excludeRunId vnet).map fun runId => { target := runId, msg := msg }

/-!
## Claiming a route
-/

def maxVnetRoutesPerClient : Nat := 64

/-- `str::parse::<u8>`: an optional plus sign and decimal digits, at most 255. -/
def parseU8 (text : List Char) : Option Nat :=
  let digits :=
    match text with
    | '+' :: rest => rest
    | _ => text
  if digits.isEmpty || !digits.all Char.isDigit then none
  else
    let n := digits.foldl (fun n c => 10 * n + (c.toNat - '0'.toNat)) 0
    if n ≤ 255 then some n else none

def isRouteHijackPrefix (subnet : String) : Bool :=
  match subnet.toList.dropWhile (fun c => c ≠ '/') with
  | [] => false
  | _ :: lengthText =>
    match parseU8 lengthText with
    | none => false
    | some len => decide (len ≤ 6)

def isHostRoute (subnet : String) : Bool :=
  "/32".toList.isSuffixOf subnet.toList || "/128".toList.isSuffixOf subnet.toList

inductive Refusal where
  | hijackPrefix
  | notAMember
  | routeCap
  | ownedBy (runId proxyName : String)
deriving DecidableEq, Repr

/-- The section under the write lock of the route table, shared by advertisements
and vnet proxies.  The cap is only tested for a subnet nobody owns; a subnet whose
owner has no control connection changes hands. -/
def claimRoute (s : Server) (runId : String) (key : RouteKey) (proxyName : String) :
    Except Refusal VnetRoutes :=
  match s.vnetRoutes.routes.lookup key with
  | none =>
    if maxVnetRoutesPerClient ≤ s.vnetRoutes.runRouteCount runId then .error .routeCap
    else .ok (s.vnetRoutes.insert key (runId, proxyName)).2
  | some owner =>
    if owner.1 ≠ runId ∧ s.alive owner.1 then .error (.ownedBy owner.1 owner.2)
    else .ok (s.vnetRoutes.insert key (runId, proxyName)).2

/-- The advertiser holds a vnet proxy in the net, or it advertises a host route in
the default net and holds no vnet proxy in a named net. -/
def membershipOk (s : Server) (runId vn subnet : String) : Bool :=
  let proxies := s.listClient runId
  let ownsVnetProxy := proxies.any fun p =>
    p.proxyType = "vnet" ∧ p.virtualNet.getD "" = vn
  let ownsNamedNetProxy := proxies.any fun p =>
    p.proxyType = "vnet" ∧ p.virtualNet.getD "" ≠ ""
  ownsVnetProxy || (decide (vn = "") && !ownsNamedNetProxy && isHostRoute subnet)

/-- The route an advertisement claims once it has passed the checks before the lock. -/
def advertisedRoute (s : Server) (runId : String) (adv : VnetRouteAdvertise) :
    Except Refusal RouteKey :=
  let vn := adv.virtualNet.getD ""
  if isRouteHijackPrefix adv.subnet then .error .hijackPrefix
  else if s.membershipOk runId vn adv.subnet then .ok (vn, adv.subnet)
  else .error .notAMember

def handleVnetRouteAdvertise (s : Server) (runId : String) (adv : VnetRouteAdvertise) :
    Except Refusal Server × List Delivery :=
  match s.advertisedRoute runId adv with
  | .error refusal => (.error refusal, [])
  | .ok key =>
    match s.claimRoute runId key adv.proxyName with
    | .error refusal => (.error refusal, [])
    | .ok routes =>
      let s := { s with vnetRoutes := routes }
      (.ok s, s.broadcast runId key.1 (.vnetRouteAdvertise adv))

def handleVnetRouteRemove (order : VnetRoutes.VisitOrder) (s : Server) (runId : String)
    (rem : VnetRouteRemove) : Server × List Delivery :=
  let vn := rem.virtualNet.getD ""
  let existed := s.vnetRoutes.hasRoute runId vn rem.proxyName
  let routes := s.vnetRoutes.retain
    (fun key owner => !(owner.1 = runId && key.1 = vn && owner.2 = rem.proxyName)) order
  let s := { s with vnetRoutes := routes }
  (s, if existed then s.broadcast runId vn (.vnetRouteRemove rem) else [])

/-!
## Packets
-/

/-- The proxy registry decides first; a name without a proxy is a visitor route. -/
def handleVnetPacket (s : Server) (runId : String) (pkt : VnetPacket) : Option Delivery :=
  if s.vnetRoutes.sourceAllowed runId pkt.proxyName then
    match s.proxies.lookup pkt.proxyName with
    | some info =>
      if info.runId ≠ runId ∧ s.alive info.runId then
        some ⟨info.runId, .vnetPacketForward pkt.proxyName pkt.data⟩
      else none
    | none =>
      match s.vnetRoutes.visitorRouteTarget runId pkt.proxyName with
      | none => none
      | some target =>
        if s.alive target then
          some ⟨target, .vnetPacketForward pkt.proxyName pkt.data⟩
        else none
  else none

/-!
## Proxies
-/

def replaceable (proxyType : String) : Bool :=
  proxyType ∈ ["tcp", "udp", "sudp", "stcp", "xtcp", "vnet"]

/-- `register_proxy_entry`: a name is free, or its holder is an older generation of
the same client. -/
def registerProxyEntry (s : Server) (np : NewProxy) (runId : String) (controlId : Nat) :
    Except String Server :=
  let info : ProxyInfo :=
    { name := np.proxyName
      runId := runId
      proxyType := np.proxyType
      virtualNet := np.virtualNet.filter fun vn => vn ≠ ""
      controlId := controlId }
  let registered := { s with proxies := s.proxies.insert np.proxyName info }
  match s.proxies.lookup np.proxyName with
  | none => .ok registered
  | some old =>
    if replaceable np.proxyType ∧ old.runId = runId ∧ old.controlId ≠ 0 ∧
        controlId ≠ 0 ∧ old.controlId < controlId then
      .ok registered
    else .error ("proxy '" ++ np.proxyName ++ "' already registered")

def removeProxy (s : Server) (proxyName : String) : Server :=
  { s with proxies := s.proxies.erase proxyName }

def proxySubnet (np : NewProxy) : Option String :=
  if np.proxyType = "vnet" then np.advertiseSubnet.filter fun subnet => subnet ≠ ""
  else none

def insertProxyRoute (s : Server) (runId : String) (np : NewProxy) (subnet : String) :
    Except Refusal VnetRoutes :=
  if isRouteHijackPrefix subnet then .error .hijackPrefix
  else s.claimRoute runId (np.virtualNet.getD "", subnet) np.proxyName

def rejectionText (np : NewProxy) (subnet : String) : Refusal -> String
  | .hijackPrefix =>
    "vnet proxy '" ++ np.proxyName ++ "' rejected: advertise subnet '" ++ subnet ++
      "' is a hijack prefix (default /0 or its /1 split)"
  | .notAMember => ""
  | .routeCap =>
    "vnet proxy '" ++ np.proxyName ++ "' rejected: per-client route cap (" ++
      toString maxVnetRoutesPerClient ++ ") reached"
  | .ownedBy ownerRunId ownerProxy =>
    "vnet proxy '" ++ np.proxyName ++ "' rejected: subnet '" ++ subnet ++
      "' in virtual_net '" ++ np.virtualNet.getD "" ++ "' already owned by live run_id " ++
      ownerRunId ++ " (proxy '" ++ ownerProxy ++ "')"

/-- A new proxy.  `admitted` stands for the checks before registration that do not
read these tables, `kept` for the listener set up after it; a rejected route or a
failed listener takes the registration back. -/
def handleNewProxy (s : Server) (runId : String) (controlId : Nat) (np : NewProxy)
    (admitted kept : Bool) : Except String Unit × Server :=
  if !admitted then (.error "", s)
  else
    match s.registerProxyEntry np runId controlId with
    | .error e => (.error e, s)
    | .ok registered =>
      match proxySubnet np with
      | none =>
        if kept then (.ok (), registered)
        else (.error "", registered.removeProxy np.proxyName)
      | some subnet =>
        match registered.insertProxyRoute runId np subnet with
        | .error refusal =>
          (.error (rejectionText np subnet refusal), registered.removeProxy np.proxyName)
        | .ok routes =>
          let routed := { registered with vnetRoutes := routes }
          if kept then (.ok (), routed)
          else (.error "", routed.removeProxy np.proxyName)

/-- `remove_proxy_vnet_routes_and_broadcast`: the routes of this client under this
name, with one removal message for each of their nets. -/
def removeProxyVnetRoutes (order : VnetRoutes.VisitOrder) (s : Server)
    (runId proxyName : String) : Server × List Delivery :=
  let removed := (s.vnetRoutes.routes.entries.filter fun e =>
    e.2.1 = runId ∧ e.2.2 = proxyName).map fun e => e.1.1
  let routes := s.vnetRoutes.retain
    (fun _ owner => !(owner.1 = runId && owner.2 = proxyName)) order
  let s := { s with vnetRoutes := routes }
  (s, removed.dedup.flatMap fun vn => s.broadcast runId vn
    (.vnetRouteRemove ⟨proxyName, if vn = "" then none else some vn⟩))

def handleCloseProxy (order : VnetRoutes.VisitOrder) (s : Server)
    (runId proxyName : String) : Server × List Delivery :=
  match s.proxies.lookup proxyName with
  | none => (s, [])
  | some info =>
    if info.runId = runId then
      let swept := s.removeProxyVnetRoutes order runId proxyName
      (swept.1.removeProxy proxyName, swept.2)
    else (s, [])

/-!
## Control connections
-/

def login (s : Server) (runId : String) (controlId : Nat) : Server :=
  { s with runIdToCtlTx := s.runIdToCtlTx.insert runId controlId }

def superseded (s : Server) (p : ProxyInfo) : Bool :=
  match s.proxies.lookup p.name with
  | none => false
  | some cur => decide (p.controlId ≠ 0 ∧ p.controlId < cur.controlId)

def sweepVnetRoutes (order : VnetRoutes.VisitOrder) (runId : String) (s : Server)
    (p : ProxyInfo) : Server :=
  if !s.superseded p && p.proxyType = "vnet" then
    (s.removeProxyVnetRoutes order runId p.name).1
  else s

/-- `remove_if_control_id`. -/
def removeIfControlId (controlId : Nat) (s : Server) (name : String) : Server :=
  match s.proxies.lookup name with
  | none => s
  | some info =>
    if info.controlId = 0 ∨ info.controlId = controlId then s.removeProxy name else s

/-- `control::cleanup` with `unregister_control`: the entry of the control connection
goes when it is still this generation's, then the routes of its vnet proxies and its
proxies. -/
def cleanup (order : VnetRoutes.VisitOrder) (s : Server) (runId : String) (controlId : Nat)
    (skipCtlUnregister : Bool) : Server :=
  let names := (s.listClient runId).map ProxyInfo.name
  let s :=
    if !skipCtlUnregister ∧
        (controlId = 0 ∨ s.runIdToCtlTx.lookup runId = some controlId) then
      { s with runIdToCtlTx := s.runIdToCtlTx.erase runId }
    else s
  let swept := ((s.listClient runId).filter fun p =>
    controlId = 0 ∨ p.controlId ≤ controlId).foldl (sweepVnetRoutes order runId) s
  names.foldl (removeIfControlId controlId) swept

end Server

/-!
## Steps
-/

inductive Event where
  | login (runId : String) (controlId : Nat)
  | newProxy (runId : String) (controlId : Nat) (np : NewProxy) (admitted kept : Bool)
  | closeProxy (runId proxyName : String)
  | advertise (runId : String) (adv : VnetRouteAdvertise)
  | remove (runId : String) (rem : VnetRouteRemove)
  | disconnect (runId : String) (controlId : Nat) (skipCtlUnregister : Bool)

def Event.runId : Event -> String
  | .login runId _ => runId
  | .newProxy runId _ _ _ _ => runId
  | .closeProxy runId _ => runId
  | .advertise runId _ => runId
  | .remove runId _ => runId
  | .disconnect runId _ _ => runId

def step (order : VnetRoutes.VisitOrder) (s : Server) : Event -> Server
  | .login runId controlId => s.login runId controlId
  | .newProxy runId controlId np admitted kept =>
    (s.handleNewProxy runId controlId np admitted kept).2
  | .closeProxy runId proxyName => (s.handleCloseProxy order runId proxyName).1
  | .advertise runId adv =>
    match (s.handleVnetRouteAdvertise runId adv).1 with
    | .ok s => s
    | .error _ => s
  | .remove runId rem => (s.handleVnetRouteRemove order runId rem).1
  | .disconnect runId controlId skip => s.cleanup order runId controlId skip

/-!
## What a step can do to the tables
-/

/-- The route an event puts into the table, if it is accepted. -/
def claimOf (s : Server) : Event -> Option (RouteKey × String)
  | .advertise runId adv =>
    match s.advertisedRoute runId adv with
    | .error _ => none
    | .ok key =>
      match s.claimRoute runId key adv.proxyName with
      | .error _ => none
      | .ok _ => some (key, adv.proxyName)
  | .newProxy runId controlId np admitted _ =>
    if !admitted then none
    else
      match s.registerProxyEntry np runId controlId with
      | .error _ => none
      | .ok registered =>
        match Server.proxySubnet np with
        | none => none
        | some subnet =>
          match registered.insertProxyRoute runId np subnet with
          | .error _ => none
          | .ok _ => some ((np.virtualNet.getD "", subnet), np.proxyName)
  | _ => none

def registrationOf (s : Server) : Event -> Option String
  | .newProxy runId controlId np admitted _ =>
    if !admitted then none
    else
      match s.registerProxyEntry np runId controlId with
      | .error _ => none
      | .ok _ => some np.proxyName
  | _ => none

/-- `t'` holds some of the routes of `t`: all those of other clients than `runId`. -/
structure Shrinks (runId : String) (t t' : VnetRoutes) : Prop where
  sub : forall key owner, t'.routes.lookup key = some owner -> t.routes.lookup key = some owner
  others : forall key owner, owner.1 ≠ runId ->
    t.routes.lookup key = some owner -> t'.routes.lookup key = some owner
  consistent : Consistent t -> Consistent t'

/-- Every proxy of `s'` is a proxy of `s`. -/
def FewerProxies (s s' : Server) : Prop :=
  forall name info, s'.proxies.lookup name = some info -> s.proxies.lookup name = some info

theorem shrinks_refl (runId : String) (t : VnetRoutes) : Shrinks runId t t :=
  ⟨fun _ _ h => h, fun _ _ _ h => h, fun h => h⟩

theorem shrinks_trans {runId : String} {t u v : VnetRoutes} (h : Shrinks runId t u)
    (h' : Shrinks runId u v) : Shrinks runId t v where
  sub key owner hlook := h.sub key owner (h'.sub key owner hlook)
  others key owner hne hlook := h'.others key owner hne (h.others key owner hne hlook)
  consistent hcons := h'.consistent (h.consistent hcons)

theorem shrinks_retain {runId : String} (t : VnetRoutes)
    {keep : RouteKey -> RouteOwner -> Bool} (order : VnetRoutes.VisitOrder)
    (hkeep : forall key owner, owner.1 ≠ runId -> keep key owner = true) :
    Shrinks runId t (t.retain keep order) where
  sub key owner hlook := by
    rw [retain_routes, Table.lookup_retain, Option.filter_eq_some_iff] at hlook
    exact hlook.1
  others key owner hne hlook := by
    rw [retain_routes, Table.lookup_retain, Option.filter_eq_some_iff]
    exact ⟨hlook, hkeep key owner hne⟩
  consistent hcons := consistent_retain hcons keep order

theorem removeProxy_fewer (s : Server) (name : String) : FewerProxies s (s.removeProxy name) := by
  intro other info hlook
  unfold Server.removeProxy at hlook
  rw [Table.lookup_erase_eq] at hlook
  split at hlook
  · cases hlook
  · exact hlook

variable (order : VnetRoutes.VisitOrder)

theorem removeProxyVnetRoutes_shrinks (s : Server) (runId proxyName : String) :
    Shrinks runId s.vnetRoutes (s.removeProxyVnetRoutes order runId proxyName).1.vnetRoutes := by
  apply shrinks_retain
  intro key owner hne
  simp [hne]

theorem sweep_spec (runId : String) (swept : List ProxyInfo) (s : Server) :
    Shrinks runId s.vnetRoutes
        (swept.foldl (Server.sweepVnetRoutes order runId) s).vnetRoutes ∧
      (swept.foldl (Server.sweepVnetRoutes order runId) s).proxies = s.proxies := by
  induction swept generalizing s with
  | nil =>
    exact ⟨shrinks_refl runId s.vnetRoutes, rfl⟩
  | cons p swept ih =>
    have hone : Shrinks runId s.vnetRoutes
          (Server.sweepVnetRoutes order runId s p).vnetRoutes ∧
        (Server.sweepVnetRoutes order runId s p).proxies = s.proxies := by
      unfold Server.sweepVnetRoutes
      split
      · exact ⟨removeProxyVnetRoutes_shrinks order s runId p.name, rfl⟩
      · exact ⟨shrinks_refl runId s.vnetRoutes, rfl⟩
    have hrest := ih (Server.sweepVnetRoutes order runId s p)
    exact ⟨shrinks_trans hone.1 hrest.1, hrest.2.trans hone.2⟩

theorem removeIfControlId_spec (controlId : Nat) (s : Server) (name : String) :
    (Server.removeIfControlId controlId s name).vnetRoutes = s.vnetRoutes ∧
      FewerProxies s (Server.removeIfControlId controlId s name) := by
  unfold Server.removeIfControlId
  split
  · exact ⟨rfl, fun _ _ h => h⟩
  · split
    · exact ⟨rfl, removeProxy_fewer s name⟩
    · exact ⟨rfl, fun _ _ h => h⟩

theorem removeAll_spec (controlId : Nat) (names : List String) (s : Server) :
    (names.foldl (Server.removeIfControlId controlId) s).vnetRoutes = s.vnetRoutes ∧
      FewerProxies s (names.foldl (Server.removeIfControlId controlId) s) := by
  induction names generalizing s with
  | nil =>
    exact ⟨rfl, fun _ _ h => h⟩
  | cons name names ih =>
    have hone := removeIfControlId_spec controlId s name
    have hrest := ih (Server.removeIfControlId controlId s name)
    refine ⟨hrest.1.trans hone.1, ?_⟩
    intro other info hlook
    exact hone.2 other info (hrest.2 other info hlook)

theorem cleanup_spec (s : Server) (runId : String) (controlId : Nat) (skip : Bool) :
    Shrinks runId s.vnetRoutes (s.cleanup order runId controlId skip).vnetRoutes ∧
      FewerProxies s (s.cleanup order runId controlId skip) := by
  unfold Server.cleanup
  generalize hs : (if !skip ∧ (controlId = 0 ∨ s.runIdToCtlTx.lookup runId = some controlId) then
      { s with runIdToCtlTx := s.runIdToCtlTx.erase runId } else s) = s₁
  have hsame : s₁.vnetRoutes = s.vnetRoutes ∧ s₁.proxies = s.proxies := by
    rw [← hs]
    split
    · exact ⟨rfl, rfl⟩
    · exact ⟨rfl, rfl⟩
  have hsweep := sweep_spec order runId ((s₁.listClient runId).filter fun p =>
    controlId = 0 ∨ p.controlId ≤ controlId) s₁
  have hall := removeAll_spec controlId ((s.listClient runId).map ProxyInfo.name)
    (((s₁.listClient runId).filter fun p =>
      controlId = 0 ∨ p.controlId ≤ controlId).foldl (Server.sweepVnetRoutes order runId) s₁)
  constructor
  · rw [hall.1, ← hsame.1]
    exact hsweep.1
  · intro name info hlook
    have hfewer := hall.2 name info hlook
    rw [hsweep.2, hsame.2] at hfewer
    exact hfewer

/-- When a claim is granted: a free subnet below the cap, a subnet of the client
itself, or one whose owner has no control connection. -/
def Granted (s : Server) (runId : String) (key : RouteKey) : Prop :=
  (s.vnetRoutes.routes.lookup key = none ∧
      s.vnetRoutes.runRouteCount runId < Server.maxVnetRoutesPerClient) ∨
    exists owner, s.vnetRoutes.routes.lookup key = some owner ∧
      (owner.1 = runId ∨ s.alive owner.1 = false)

theorem claimRoute_ok {s : Server} {runId proxyName : String} {key : RouteKey}
    {routes : VnetRoutes} (h : s.claimRoute runId key proxyName = .ok routes) :
    routes = (s.vnetRoutes.insert key (runId, proxyName)).2 ∧ Granted s runId key := by
  unfold Server.claimRoute at h
  cases hlook : s.vnetRoutes.routes.lookup key with
  | none =>
    simp only [hlook] at h
    split at h
    · cases h
    · rename_i hcap
      cases h
      exact ⟨rfl, .inl ⟨hlook, Nat.lt_of_not_le hcap⟩⟩
  | some owner =>
    simp only [hlook] at h
    split at h
    · cases h
    · rename_i hfree
      cases h
      refine ⟨rfl, .inr ⟨owner, hlook, ?_⟩⟩
      by_cases howner : owner.1 = runId
      · exact .inl howner
      · refine .inr (Bool.eq_false_iff.mpr ?_)
        intro halive
        exact hfree ⟨howner, halive⟩

theorem registerProxyEntry_ok {s registered : Server} {np : NewProxy} {runId : String}
    {controlId : Nat} (h : s.registerProxyEntry np runId controlId = .ok registered) :
    exists info, registered = { s with proxies := s.proxies.insert np.proxyName info } ∧
      info.runId = runId ∧
      forall old, s.proxies.lookup np.proxyName = some old -> old.runId = runId := by
  unfold Server.registerProxyEntry at h
  cases hlook : s.proxies.lookup np.proxyName with
  | none =>
    simp only [hlook] at h
    cases h
    refine ⟨_, rfl, rfl, ?_⟩
    intro old hold
    cases hold
  | some cur =>
    simp only [hlook] at h
    split at h
    · rename_i hqualified
      cases h
      refine ⟨_, rfl, rfl, ?_⟩
      intro old hold
      cases hold
      exact hqualified.2.1
    · cases h

theorem handleVnetRouteAdvertise_cases (s : Server) (runId : String) (adv : VnetRouteAdvertise) :
    (claimOf s (.advertise runId adv) = none ∧ step order s (.advertise runId adv) = s) ∨
      exists key routes, claimOf s (.advertise runId adv) = some (key, adv.proxyName) ∧
        s.claimRoute runId key adv.proxyName = .ok routes ∧
        step order s (.advertise runId adv) = { s with vnetRoutes := routes } := by
  simp only [claimOf, step, Server.handleVnetRouteAdvertise]
  cases s.advertisedRoute runId adv with
  | error refusal =>
    exact .inl ⟨rfl, rfl⟩
  | ok key =>
    cases hclaim : s.claimRoute runId key adv.proxyName with
    | error refusal =>
      exact .inl ⟨by simp only [hclaim], by simp only [hclaim]⟩
    | ok routes =>
      exact .inr ⟨key, routes, by simp only [hclaim], hclaim, by simp only [hclaim]⟩

theorem step_newProxy (s : Server) (runId : String) (controlId : Nat) (np : NewProxy)
    (admitted kept : Bool) :
    step order s (.newProxy runId controlId np admitted kept) =
      (s.handleNewProxy runId controlId np admitted kept).2 := rfl

/-- A new proxy is not registered, or it is registered and perhaps taken back; the
claim for its subnet is refused or granted. -/
theorem handleNewProxy_cases (s : Server) (runId : String) (controlId : Nat)
    (np : NewProxy) (admitted kept : Bool) :
    let e := Event.newProxy runId controlId np admitted kept
    let s' := (s.handleNewProxy runId controlId np admitted kept).2
    (registrationOf s e = none ∧ claimOf s e = none ∧ s' = s) ∨
      exists registered, s.registerProxyEntry np runId controlId = .ok registered ∧
        registrationOf s e = some np.proxyName ∧ FewerProxies registered s' ∧
        ((claimOf s e = none ∧ s'.vnetRoutes = s.vnetRoutes) ∨
          exists key, claimOf s e = some (key, np.proxyName) ∧
            s.claimRoute runId key np.proxyName = .ok s'.vnetRoutes) := by
  intro e s'
  simp only [e, s', registrationOf, claimOf, Server.handleNewProxy]
  cases admitted with
  | false =>
    exact .inl ⟨rfl, rfl, rfl⟩
  | true =>
    cases hreg : s.registerProxyEntry np runId controlId with
    | error text =>
      exact .inl ⟨rfl, rfl, rfl⟩
    | ok registered =>
      obtain ⟨info, hs, _, _⟩ := registerProxyEntry_ok hreg
      have hroutes : registered.vnetRoutes = s.vnetRoutes := by rw [hs]
      refine .inr ⟨registered, rfl, rfl, ?_⟩
      cases hsub : Server.proxySubnet np with
      | none =>
        cases kept with
        | true => exact ⟨fun _ _ hlook => hlook, .inl ⟨rfl, hroutes⟩⟩
        | false => exact ⟨removeProxy_fewer registered np.proxyName, .inl ⟨rfl, hroutes⟩⟩
      | some subnet =>
        cases hroute : registered.insertProxyRoute runId np subnet with
        | error refusal =>
          simp only [hroute]
          exact ⟨removeProxy_fewer registered np.proxyName, .inl ⟨rfl, hroutes⟩⟩
        | ok routes =>
          have hclaim : s.claimRoute runId (np.virtualNet.getD "", subnet)
              np.proxyName = .ok routes := by
            unfold Server.insertProxyRoute at hroute
            split at hroute
            · cases hroute
            · rw [hs] at hroute
              exact hroute
          simp only [hroute]
          cases kept with
          | true => exact ⟨fun _ _ hlook => hlook, .inr ⟨_, rfl, hclaim⟩⟩
          | false =>
            exact ⟨removeProxy_fewer { registered with vnetRoutes := routes }
              np.proxyName, .inr ⟨_, rfl, hclaim⟩⟩

theorem handleCloseProxy_spec (s : Server) (runId proxyName : String) :
    Shrinks runId s.vnetRoutes (s.handleCloseProxy order runId proxyName).1.vnetRoutes ∧
      FewerProxies s (s.handleCloseProxy order runId proxyName).1 := by
  unfold Server.handleCloseProxy
  split
  · exact ⟨shrinks_refl runId s.vnetRoutes, fun _ _ hlook => hlook⟩
  · split
    · exact ⟨removeProxyVnetRoutes_shrinks order s runId proxyName,
        removeProxy_fewer _ proxyName⟩
    · exact ⟨shrinks_refl runId s.vnetRoutes, fun _ _ hlook => hlook⟩

theorem step_claim {s : Server} {e : Event} {key : RouteKey} {proxyName : String}
    (h : claimOf s e = some (key, proxyName)) :
    (step order s e).vnetRoutes = (s.vnetRoutes.insert key (e.runId, proxyName)).2 ∧
      Granted s e.runId key := by
  cases e with
  | login runId controlId => cases h
  | closeProxy runId name => cases h
  | remove runId rem => cases h
  | disconnect runId controlId skip => cases h
  | advertise runId adv =>
    rcases handleVnetRouteAdvertise_cases order s runId adv with
      ⟨hnone, _⟩ | ⟨k, routes, hsome, hclaim, hstep⟩
    · rw [h] at hnone
      cases hnone
    · rw [h] at hsome
      cases hsome
      rw [hstep]
      exact claimRoute_ok hclaim
  | newProxy runId controlId np admitted kept =>
    rcases handleNewProxy_cases s runId controlId np admitted kept with
      ⟨_, hnone, _⟩ | ⟨registered, _, _, _, ⟨hnone, _⟩ | ⟨k, hsome, hclaim⟩⟩
    · rw [h] at hnone
      cases hnone
    · rw [h] at hnone
      cases hnone
    · rw [h] at hsome
      cases hsome
      exact claimRoute_ok hclaim

theorem step_no_claim {s : Server} {e : Event} (h : claimOf s e = none) :
    Shrinks e.runId s.vnetRoutes (step order s e).vnetRoutes := by
  cases e with
  | login runId controlId => exact shrinks_refl runId s.vnetRoutes
  | newProxy runId controlId np admitted kept =>
    have hsame : (s.handleNewProxy runId controlId np admitted kept).2.vnetRoutes =
        s.vnetRoutes := by
      rcases handleNewProxy_cases s runId controlId np admitted kept with
        ⟨_, _, hs⟩ | ⟨registered, _, _, _, ⟨_, hroutes⟩ | ⟨k, hsome, _⟩⟩
      · rw [hs]
      · exact hroutes
      · rw [h] at hsome
        cases hsome
    rw [step_newProxy, hsame]
    exact shrinks_refl runId s.vnetRoutes
  | closeProxy runId name => exact (handleCloseProxy_spec order s runId name).1
  | advertise runId adv =>
    rcases handleVnetRouteAdvertise_cases order s runId adv with
      ⟨_, hstep⟩ | ⟨k, routes, hsome, _, _⟩
    · rw [hstep]
      exact shrinks_refl runId s.vnetRoutes
    · rw [h] at hsome
      cases hsome
  | remove runId rem =>
    apply shrinks_retain
    intro key owner hne
    simp only [Event.runId] at hne
    simp [hne]
  | disconnect runId controlId skip => exact (cleanup_spec order s runId controlId skip).1

theorem step_proxies (s : Server) (e : Event) {name : String} {info : ProxyInfo}
    (hlook : (step order s e).proxies.lookup name = some info) :
    s.proxies.lookup name = some info ∨
      (registrationOf s e = some name ∧ info.runId = e.runId) := by
  cases e with
  | login runId controlId => exact .inl hlook
  | newProxy runId controlId np admitted kept =>
    rcases handleNewProxy_cases s runId controlId np admitted kept with
      ⟨_, _, hs⟩ | ⟨registered, hreg, hname, hfewer, _⟩
    · rw [step_newProxy, hs] at hlook
      exact .inl hlook
    · obtain ⟨entry, hregistered, hrun, _⟩ := registerProxyEntry_ok hreg
      have hnew := hfewer name info hlook
      rw [hregistered, Table.lookup_insert_eq] at hnew
      split at hnew
      · rename_i heq
        cases hnew
        rw [heq]
        exact .inr ⟨hname, hrun⟩
      · exact .inl hnew
  | closeProxy runId name' =>
    exact .inl ((handleCloseProxy_spec order s runId name').2 name info hlook)
  | advertise runId adv =>
    rcases handleVnetRouteAdvertise_cases order s runId adv with
      ⟨_, hstep⟩ | ⟨k, routes, _, _, hstep⟩
    · rw [hstep] at hlook
      exact .inl hlook
    · rw [hstep] at hlook
      exact .inl hlook
  | remove runId rem => exact .inl hlook
  | disconnect runId controlId skip =>
    exact .inl ((cleanup_spec order s runId controlId skip).2 name info hlook)

end Vnet
end FrpRs
