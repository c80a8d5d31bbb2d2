import FrpRs.Vnet.Server

/-!
# Isolation and ownership of virtual-net routes

The gate for packets asks whether a route of the addressed name lies in a net of the
sender, while the receiver is the client that registered a proxy of that name.  The
two agree as long as a name that is advertised as a route is registered as a proxy
only by the advertiser.  A client never loses a route to another client while it is
connected, and it never holds more routes than the cap unless it takes a subnet over
from a client that is gone.
-/

namespace FrpRs
namespace Vnet

/-!
## Names that belong to their advertisers
-/

/-- The proxy registered under the name of a route, if there is one, belongs to the
owner of the route. -/
def NamesTied (s : Server) : Prop :=
  forall key owner info, s.vnetRoutes.routes.lookup key = some owner ->
    s.proxies.lookup owner.2 = some info -> info.runId = owner.1

/-- An accepted claim uses no name that another client has registered as a proxy,
and a registered proxy no name under which another client owns a route. -/
structure NamesKept (s : Server) (e : Event) : Prop where
  claim : forall key name info, claimOf s e = some (key, name) ->
    s.proxies.lookup name = some info -> info.runId = e.runId
  registration : forall key owner, registrationOf s e = some owner.2 ->
    s.vnetRoutes.routes.lookup key = some owner -> owner.1 = e.runId

def claimKept (s : Server) (e : Event) : Bool :=
  (claimOf s e).all fun claim =>
    (s.proxies.lookup claim.2).all fun info => info.runId = e.runId

def registrationKept (s : Server) (e : Event) : Bool :=
  (registrationOf s e).all fun name =>
    s.vnetRoutes.routes.entries.all fun route => route.2.2 ≠ name || route.2.1 = e.runId

variable {s : Server}

variable {e : Event}

theorem namesKept_iff :
    NamesKept s e ↔ claimKept s e = true ∧ registrationKept s e = true := by
  unfold claimKept registrationKept
  constructor
  · intro h
    constructor
    · cases hclaim : claimOf s e with
      | none => rfl
      | some claim =>
        cases hproxy : s.proxies.lookup claim.2 with
        | none => simp [hproxy]
        | some info => simp [hproxy, h.claim claim.1 claim.2 info hclaim hproxy]
    · cases hreg : registrationOf s e with
      | none => rfl
      | some name =>
        simp only [Option.all_some, List.all_eq_true]
        intro route hmem
        by_cases hname : route.2.2 = name
        · have hrun := h.registration route.1 route.2 (by rw [hname, hreg])
            (AList.mem_lookup_iff.mpr hmem)
          simp [hrun]
        · simp [hname]
  · rintro ⟨hclaims, hregs⟩
    constructor
    · intro key name info hclaim hproxy
      simpa [hclaim, hproxy] using hclaims
    · intro key owner hreg hroute
      simp only [hreg, Option.all_some, List.all_eq_true] at hregs
      have hown := hregs ⟨key, owner⟩ (AList.mem_lookup_iff.mp hroute)
      simpa using hown

instance (s : Server) (e : Event) : Decidable (NamesKept s e) :=
  decidable_of_iff _ namesKept_iff.symm

variable (order : VnetRoutes.VisitOrder)

theorem consistent_step (e : Event) (h : Consistent s.vnetRoutes) :
    Consistent (step order s e).vnetRoutes := by
  cases hclaim : claimOf s e with
  | none =>
    exact (step_no_claim order hclaim).consistent h
  | some claim =>
    rw [(step_claim order hclaim).1]
    exact consistent_insert h claim.1 (e.runId, claim.2)

variable {key : RouteKey}

theorem step_route (s : Server) (e : Event) {owner : RouteOwner}
    (h : (step order s e).vnetRoutes.routes.lookup key = some owner) :
    s.vnetRoutes.routes.lookup key = some owner ∨
      (claimOf s e = some (key, owner.2) ∧ owner.1 = e.runId) := by
  cases hclaim : claimOf s e with
  | none =>
    exact .inl ((step_no_claim order hclaim).sub key owner h)
  | some claim =>
    rw [(step_claim order hclaim).1, insert_routes, Table.lookup_insert_eq] at h
    split at h
    · rename_i heq
      cases h
      rw [heq]
      exact .inr ⟨rfl, rfl⟩
    · exact .inl h

theorem namesTied_step (h : NamesTied s) (hkept : NamesKept s e) :
    NamesTied (step order s e) := by
  intro key owner info hroute hproxy
  rcases step_route order s e hroute with hold | ⟨hclaim, howner⟩
  · rcases step_proxies order s e hproxy with hbefore | ⟨hreg, hrun⟩
    · exact h key owner info hold hbefore
    · rw [hrun, hkept.registration key owner hreg hold]
  · rcases step_proxies order s e hproxy with hbefore | ⟨_, hrun⟩
    · rw [howner]
      exact hkept.claim key owner.2 info hclaim hbefore
    · rw [hrun, howner]

/-- The names are tied to their advertisers and the indexes are exact. -/
structure Tied (s : Server) : Prop where
  names : NamesTied s
  consistent : Consistent s.vnetRoutes

theorem tied_new : Tied Server.new where
  names key owner info hroute := by cases hroute
  consistent := consistent_new

theorem tied_run {es : List Event} (h : Run.Along (step order) NamesKept Server.new es) :
    Tied (Run.run (step order) Server.new es) := by
  apply Run.run_invariant _ tied_new h
  intro s e hs hkept
  exact ⟨namesTied_step order hs.names hkept, consistent_step order e hs.consistent⟩

/-!
## Packets stay inside a net
-/

theorem packet_target (hs : Tied s) {source : String} {pkt : VnetPacket} {d : Delivery}
    (h : s.handleVnetPacket source pkt = some d) :
    exists vnet, Participates s.vnetRoutes.routes source vnet ∧
      Advertises s.vnetRoutes.routes d.target vnet pkt.proxyName := by
  unfold Server.handleVnetPacket at h
  split at h
  · rename_i hallowed
    obtain ⟨vnet, hpart, owner, subnet, hroute⟩ :=
      (sourceAllowed_iff hs.consistent source pkt.proxyName).mp hallowed
    cases hproxy : s.proxies.lookup pkt.proxyName with
    | some info =>
      simp only [hproxy] at h
      split at h
      · cases h
        have hrun := hs.names (vnet, subnet) (owner, pkt.proxyName) info hroute hproxy
        rw [hrun]
        exact ⟨vnet, hpart, subnet, hroute⟩
      · cases h
    | none =>
      simp only [hproxy] at h
      cases htarget : s.vnetRoutes.visitorRouteTarget source pkt.proxyName with
      | none =>
        simp only [htarget] at h
        cases h
      | some target =>
        simp only [htarget] at h
        split at h
        · cases h
          obtain ⟨net, hleast⟩ :=
            (visitorRouteTarget_eq_some hs.consistent source pkt.proxyName target).mp htarget
          exact ⟨net, hleast.1⟩
        · cases h
  · cases h

/-- In every run that keeps route names and proxy names of different clients apart, a
packet reaches a client only if that client itself advertises the addressed name in a
net in which the sender owns a route. -/
theorem vnet_packets_isolated (order : VnetRoutes.VisitOrder) (es : List Event)
    (h : Run.Along (step order) NamesKept Server.new es)
    (source : String) (pkt : VnetPacket) (d : Delivery)
    (hsend : (Run.run (step order) Server.new es).handleVnetPacket source pkt = some d) :
    exists vnet,
      Participates (Run.run (step order) Server.new es).vnetRoutes.routes source vnet ∧
      Advertises (Run.run (step order) Server.new es).vnetRoutes.routes d.target vnet
        pkt.proxyName :=
  packet_target (tied_run order h) hsend

def inOrder : VnetRoutes.VisitOrder where
  arrange l := l
  perm l := List.Perm.refl l

def sharedNet : List Event :=
  [.login "alice" 1,
   .login "bob" 2,
   .newProxy "bob" 2 ⟨"db", "vnet", some "prod", some "10.1.0.0/24"⟩ true true,
   .newProxy "alice" 1 ⟨"web", "vnet", some "prod", some "10.2.0.0/24"⟩ true true]

theorem vnet_packets_isolated_shared :
    Run.Along (step inOrder) NamesKept Server.new sharedNet ∧
      (Run.run (step inOrder) Server.new sharedNet).handleVnetPacket "alice" ⟨"db", "ip"⟩ =
        some ⟨"bob", .vnetPacketForward "db" "ip"⟩ ∧
      exists vnet,
        Participates (Run.run (step inOrder) Server.new sharedNet).vnetRoutes.routes
          "alice" vnet ∧
        Advertises (Run.run (step inOrder) Server.new sharedNet).vnetRoutes.routes
          "bob" vnet "db" := by
  have halong : Run.Along (step inOrder) NamesKept Server.new sharedNet := by decide
  have hsend : (Run.run (step inOrder) Server.new sharedNet).handleVnetPacket "alice"
      ⟨"db", "ip"⟩ = some ⟨"bob", .vnetPacketForward "db" "ip"⟩ := by
    decide +kernel
  exact ⟨halong, hsend, vnet_packets_isolated inOrder sharedNet halong _ _ _ hsend⟩

/-- A client of the net `lab` advertises there the name of a proxy in `prod`. -/
def spoofedName : List Event :=
  [.login "mallory" 1,
   .login "bob" 2,
   .newProxy "bob" 2 ⟨"db", "vnet", some "prod", some "10.1.0.0/24"⟩ true true,
   .newProxy "mallory" 1 ⟨"own", "vnet", some "lab", some "10.9.0.0/24"⟩ true true,
   .advertise "mallory" ⟨"db", "10.9.1.0/24", some "lab"⟩]

theorem spoofed_name_crosses_nets :
    (Run.run (step inOrder) Server.new spoofedName).handleVnetPacket "mallory" ⟨"db", "ip"⟩ =
        some ⟨"bob", .vnetPacketForward "db" "ip"⟩ ∧
      ¬ exists vnet,
        Participates (Run.run (step inOrder) Server.new spoofedName).vnetRoutes.routes
          "mallory" vnet ∧
        Advertises (Run.run (step inOrder) Server.new spoofedName).vnetRoutes.routes
          "bob" vnet "db" := by
  constructor
  · decide +kernel
  · rintro ⟨vnet, ⟨name, subnet, hmallory⟩, subnet', hbob⟩
    have hentries : (Run.run (step inOrder) Server.new spoofedName).vnetRoutes.routes.entries =
        [⟨("lab", "10.9.1.0/24"), ("mallory", "db")⟩,
          ⟨("lab", "10.9.0.0/24"), ("mallory", "own")⟩,
          ⟨("prod", "10.1.0.0/24"), ("bob", "db")⟩] := by
      decide
    have hm := AList.mem_lookup_iff.mp hmallory
    have hb := AList.mem_lookup_iff.mp hbob
    rw [hentries] at hm hb
    have hlab : vnet = "lab" := by
      grind
    have hprod : vnet = "prod" := by
      grind
    rw [hlab] at hprod
    exact absurd hprod (by decide)

/-!
## Ownership
-/

def ownedRoutes (s : Server) (runId : String) : Nat :=
  countOf (routesOf s.vnetRoutes.routes) runId

def WithinCap (s : Server) : Prop :=
  forall runId, ownedRoutes s runId ≤ Server.maxVnetRoutesPerClient

def CapKept (s : Server) (e : Event) : Prop :=
  forall key name owner, claimOf s e = some (key, name) ->
    s.vnetRoutes.routes.lookup key = some owner -> owner.1 ≠ e.runId ->
    ownedRoutes s e.runId < Server.maxVnetRoutesPerClient

theorem runRouteCount_owned (h : Consistent s.vnetRoutes) (runId : String) :
    s.vnetRoutes.runRouteCount runId = ownedRoutes s runId :=
  Sparse.counts_getD h.runRouteCounts runId

variable (flat : Table RouteKey RouteOwner)

theorem countOf_insert_self (key : RouteKey) (runId name : String) :
    countOf (routesOf (flat.insert key (runId, name))) runId =
      countOf (routesOf (flat.erase key)) runId + 1 := by
  exact countOf_cons ⟨key.1, runId, name⟩ (routesOf (flat.erase key))

theorem countOf_insert_other (key : RouteKey) {runId other : String} (name : String)
    (h : other ≠ runId) :
    countOf (routesOf (flat.insert key (runId, name))) other =
      countOf (routesOf (flat.erase key)) other := by
  exact countOf_cons_ne ⟨key.1, runId, name⟩ (routesOf (flat.erase key)) h

theorem countOf_erase_le (key : RouteKey) (runId : String) :
    countOf (routesOf (flat.erase key)) runId ≤ countOf (routesOf flat) runId := by
  cases hlook : flat.lookup key with
  | none =>
    rw [routesOf_erase_of_none hlook]
  | some owner =>
    rw [routesOf_erase_of_some hlook]
    exact Multiset.countP_le_of_le _ (Multiset.le_cons_self _ _)

theorem countOf_entries (runId : String) :
    countOf (routesOf flat) runId = flat.entries.countP fun e => e.2.1 = runId := by
  unfold countOf routesOf
  rw [Multiset.coe_countP, List.countP_map]
  rfl

theorem ownedRoutes_shrinks {runId : String} {s s' : Server}
    (h : Shrinks runId s.vnetRoutes s'.vnetRoutes) (other : String) :
    ownedRoutes s' other ≤ ownedRoutes s other := by
  unfold ownedRoutes
  rw [countOf_entries, countOf_entries]
  apply List.Subperm.countP_le
  apply List.Nodup.subperm s'.vnetRoutes.routes.nodupKeys.nodup
  intro e he
  exact AList.mem_lookup_iff.mp (h.sub e.1 e.2 (AList.mem_lookup_iff.mpr he))

theorem ownedRoutes_claim_other {name : String} (hclaim : claimOf s e = some (key, name))
    {other : String} (hne : other ≠ e.runId) :
    ownedRoutes (step order s e) other ≤ ownedRoutes s other := by
  unfold ownedRoutes
  rw [(step_claim order hclaim).1, insert_routes, countOf_insert_other _ _ _ hne]
  exact countOf_erase_le _ _ _

theorem ownedRoutes_claim_self {name : String} (hclaim : claimOf s e = some (key, name)) :
    ownedRoutes (step order s e) e.runId =
      countOf (routesOf (s.vnetRoutes.routes.erase key)) e.runId + 1 := by
  unfold ownedRoutes
  rw [(step_claim order hclaim).1, insert_routes, countOf_insert_self]

/-- From a state within the cap, a step stays within it exactly when it is no takeover
by a client at the cap. -/
theorem withinCap_step (e : Event) (hcons : Consistent s.vnetRoutes) (hcap : WithinCap s) :
    WithinCap (step order s e) ↔ CapKept s e := by
  cases hclaim : claimOf s e with
  | none =>
    apply iff_of_true
    · intro runId
      exact le_trans (ownedRoutes_shrinks (step_no_claim order hclaim) runId) (hcap runId)
    · intro key name owner hsome
      rw [hclaim] at hsome
      cases hsome
  | some claim =>
    have hself := ownedRoutes_claim_self order hclaim
    have hothers : ownedRoutes (step order s e) e.runId ≤ Server.maxVnetRoutesPerClient ->
        WithinCap (step order s e) := by
      intro hle runId
      by_cases hrun : runId = e.runId
      · rw [hrun]
        exact hle
      · exact le_trans (ownedRoutes_claim_other order hclaim hrun) (hcap runId)
    rcases (step_claim order hclaim).2 with ⟨hfree, hbelow⟩ | ⟨owner, hlook, howner⟩
    · -- a free subnet: the cap was tested
      rw [runRouteCount_owned hcons] at hbelow
      apply iff_of_true
      · apply hothers
        rw [hself, routesOf_erase_of_none hfree]
        exact hbelow
      · intro key name owner hsome hlook
        rw [hclaim] at hsome
        cases hsome
        rw [hfree] at hlook
        cases hlook
    · by_cases hown : owner.1 = e.runId
      · -- an update of the client's own route
        have hcount : ownedRoutes s e.runId =
            countOf (routesOf (s.vnetRoutes.routes.erase claim.1)) e.runId + 1 := by
          unfold ownedRoutes
          rw [routesOf_erase_of_some hlook, ← hown]
          exact countOf_cons ⟨claim.1.1, owner.1, owner.2⟩ _
        apply iff_of_true
        · apply hothers
          rw [hself, ← hcount]
          exact hcap e.runId
        · intro key name owner' hsome hlook' hne
          rw [hclaim] at hsome
          cases hsome
          rw [hlook] at hlook'
          cases hlook'
          exact absurd hown hne
      · -- a takeover: one more route, whatever the count is
        have hcount : ownedRoutes s e.runId =
            countOf (routesOf (s.vnetRoutes.routes.erase claim.1)) e.runId := by
          unfold ownedRoutes
          rw [routesOf_erase_of_some hlook]
          exact countOf_cons_ne ⟨claim.1.1, owner.1, owner.2⟩ _ (Ne.symm hown)
        constructor
        · intro hwithin key name owner' _ _ _
          have hle := hwithin e.runId
          rw [hself, ← hcount] at hle
          exact hle
        · intro hkept
          apply hothers
          rw [hself, ← hcount]
          exact hkept claim.1 claim.2 owner hclaim hlook hown

theorem step_keeps_live_routes {owner : RouteOwner} (hne : owner.1 ≠ e.runId)
    (halive : s.alive owner.1 = true) (h : s.vnetRoutes.routes.lookup key = some owner) :
    (step order s e).vnetRoutes.routes.lookup key = some owner := by
  cases hclaim : claimOf s e with
  | none =>
    exact (step_no_claim order hclaim).others key owner hne h
  | some claim =>
    have hgrant := (step_claim order hclaim).2
    rw [(step_claim order hclaim).1, insert_routes, Table.lookup_insert_eq]
    split
    · rename_i heq
      rw [heq] at h
      rcases hgrant with ⟨hfree, _⟩ | ⟨owner', hlook, howner⟩
      · rw [hfree] at h
        cases h
      · rw [hlook] at h
        cases h
        rcases howner with hself | hdead
        · exact absurd hself hne
        · rw [hdead] at halive
          cases halive
    · exact h

/-- In every run, all states stay within the cap exactly when no client at the cap is
granted the subnet of a client that is gone; and no event of another client replaces
or removes a route of a connected client. -/
theorem vnet_route_ownership (order : VnetRoutes.VisitOrder) (es : List Event) :
    ((forall pre, pre <+: es -> WithinCap (Run.run (step order) Server.new pre)) ↔
      Run.Along (step order) CapKept Server.new es) ∧
    forall pre e, pre ++ [e] <+: es -> forall key owner, owner.1 ≠ e.runId ->
      (Run.run (step order) Server.new pre).alive owner.1 = true ->
      (Run.run (step order) Server.new pre).vnetRoutes.routes.lookup key = some owner ->
      (Run.run (step order) Server.new (pre ++ [e])).vnetRoutes.routes.lookup key =
        some owner := by
  constructor
  · apply @Run.forall_prefix_iff_along _ _ _ _ (fun s => Consistent s.vnetRoutes)
    · intro s e hcons
      exact consistent_step order e hcons
    · intro s e hcons hcap
      exact withinCap_step order e hcons hcap
    · exact consistent_new
    · intro runId
      exact Nat.zero_le _
  · intro pre e _ key owner hne halive hlook
    rw [Run.run_append]
    exact step_keeps_live_routes order hne halive hlook

def hostRoutes (runId : String) (n : Nat) : List Event :=
  (List.range n).map fun k => .advertise runId ⟨"v", toString k ++ ".0.0.1/32", none⟩

def overfullTakeover : List Event :=
  [.login "alice" 1, .login "bob" 2, .advertise "bob" ⟨"v", "99.0.0.1/32", none⟩,
    .disconnect "bob" 2 false] ++
  hostRoutes "alice" 64 ++ [.advertise "alice" ⟨"v", "99.0.0.1/32", none⟩]

theorem takeover_exceeds_cap :
    ownedRoutes (Run.run (step inOrder) Server.new overfullTakeover) "alice" = 65 ∧
      ¬ WithinCap (Run.run (step inOrder) Server.new overfullTakeover) := by
  have hcount : ownedRoutes (Run.run (step inOrder) Server.new overfullTakeover) "alice" =
      65 := by
    decide +kernel
  refine ⟨hcount, ?_⟩
  intro hcap
  have hle := hcap "alice"
  rw [hcount] at hle
  exact absurd hle (by decide)

end Vnet
end FrpRs
