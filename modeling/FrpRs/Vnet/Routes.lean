import FrpRs.Data.Run
import FrpRs.Data.Sparse
import Mathlib.Data.Finset.Sort
import Mathlib.Data.String.Basic

/-!
# The virtual-net route table

`VnetRoutes` of `frp-server/src/state.rs`: a flat map from `(virtual net, subnet)`
to `(run id, proxy name)`, and six indexes derived from it that are updated on every
insertion and removal.  Strings are ordered by code point, which is the order of
their UTF-8 bytes.
-/

namespace FrpRs
namespace Vnet

open List Sparse

abbrev RouteKey := String × String

abbrev RouteOwner := String × String

structure VnetRoutes where
  routes : Table RouteKey RouteOwner
  vnetMembers : Table String (Finset String)
  runVnets : Table String (Finset String)
  runRouteCounts : Table String Nat
  vnetNames : Table String (Table String (Finset String))
  vnetRunCounts : Table (String × String) Nat
  vnetNameCounts : Table (String × String × String) Nat

namespace VnetRoutes

def new : VnetRoutes where
  routes := ∅
  vnetMembers := ∅
  runVnets := ∅
  runRouteCounts := ∅
  vnetNames := ∅
  vnetRunCounts := ∅
  vnetNameCounts := ∅

/-!
## Index maintenance
-/

def index (t : VnetRoutes) (vnet runId proxyName : String) : VnetRoutes :=
  { t with
    vnetMembers := addTo vnet runId t.vnetMembers
    runVnets := addTo runId vnet t.runVnets
    runRouteCounts := bump runId t.runRouteCounts
    vnetNames := addToIn vnet proxyName runId t.vnetNames
    vnetRunCounts := bump (vnet, runId) t.vnetRunCounts
    vnetNameCounts := bump (vnet, proxyName, runId) t.vnetNameCounts }

/-- Member, net and name entries are shared by several routes and leave with the
last of them, which the two counters tell. -/
def unindex (t : VnetRoutes) (vnet runId proxyName : String) : VnetRoutes :=
  let inVnet := release (vnet, runId) t.vnetRunCounts
  let withName := release (vnet, proxyName, runId) t.vnetNameCounts
  { t with
    vnetRunCounts := inVnet.2
    vnetMembers := if inVnet.1 then removeFrom vnet runId t.vnetMembers else t.vnetMembers
    runVnets := if inVnet.1 then removeFrom runId vnet t.runVnets else t.runVnets
    vnetNameCounts := withName.2
    vnetNames :=
      if withName.1 then removeFromIn vnet proxyName runId t.vnetNames else t.vnetNames
    runRouteCounts := (release runId t.runRouteCounts).2 }

/-- Inserts or replaces a route and returns the owner it displaced. -/
def insert (t : VnetRoutes) (key : RouteKey) (value : RouteOwner) :
    Option RouteOwner × VnetRoutes :=
  let old := t.routes.lookup key
  let t :=
    match old with
    | none => t
    | some owner => t.unindex key.1 owner.1 owner.2
  let t := t.index key.1 value.1 value.2
  (old, { t with routes := t.routes.insert key value })

/-- The order in which a hash map visits its entries: any rearrangement. -/
structure VisitOrder where
  arrange : List (Sigma fun _ : RouteKey => RouteOwner) ->
    List (Sigma fun _ : RouteKey => RouteOwner)
  perm : forall l, (arrange l).Perm l

def retain (t : VnetRoutes) (keep : RouteKey -> RouteOwner -> Bool) (order : VisitOrder) :
    VnetRoutes :=
  let removed := order.arrange (t.routes.entries.filter fun e => !keep e.1 e.2)
  removed.foldl (fun t e => t.unindex e.1.1 e.2.1 e.2.2)
    { t with routes := t.routes.retain keep }

/-!
## Queries
-/

/-- The iteration order of a `BTreeSet`. -/
def ascending (s : Finset String) : List String := s.sort (· ≤ ·)

def hasRoute (t : VnetRoutes) (runId vnet proxyName : String) : Bool :=
  match (t.vnetNames.lookup vnet).bind (AList.lookup proxyName) with
  | none => false
  | some owners => decide (runId ∈ owners)

def runRouteCount (t : VnetRoutes) (runId : String) : Nat :=
  (t.runRouteCounts.lookup runId).getD 0

def vnetMembersOf (t : VnetRoutes) (vnet : String) : Option (Finset String) :=
  t.vnetMembers.lookup vnet

/-- Some virtual net holds both a route of `runId` and a route of this name. -/
def sourceAllowed (t : VnetRoutes) (runId proxyName : String) : Bool :=
  match t.runVnets.lookup runId with
  | none => false
  | some vnets =>
    (ascending vnets).any fun vnet =>
      ((t.vnetNames.lookup vnet).bind (AList.lookup proxyName)).isSome

def firstOwner (t : VnetRoutes) (proxyName vnet : String) : Option String :=
  ((t.vnetNames.lookup vnet).bind (AList.lookup proxyName)).bind fun owners =>
    (ascending owners).head?

def betterRoute (owner : String -> Option String) (best : Option (String × String))
    (vnet : String) : Option (String × String) :=
  match owner vnet with
  | none => best
  | some runId =>
    match best with
    | none => some (vnet, runId)
    | some b => if vnet < b.1 then some (vnet, runId) else some b

def visitorRouteTarget (t : VnetRoutes) (sourceRunId proxyName : String) : Option String :=
  match t.runVnets.lookup sourceRunId with
  | none => none
  | some vnets =>
    ((ascending vnets).foldl (betterRoute (t.firstOwner proxyName)) none).map Prod.snd

end VnetRoutes

/-!
## The indexes recomputed from the flat map
-/

/-- What the indexes see of a route. -/
structure Route where
  vnet : String
  runId : String
  proxyName : String
deriving DecidableEq, Repr

def routeOf (e : Sigma fun _ : RouteKey => RouteOwner) : Route :=
  { vnet := e.1.1, runId := e.2.1, proxyName := e.2.2 }

def routesOf (flat : Table RouteKey RouteOwner) : Multiset Route :=
  (flat.entries.map routeOf : List Route)

def membersIn (rs : Multiset Route) (vnet : String) : Finset String :=
  ((rs.filter fun route => route.vnet = vnet).map Route.runId).toFinset

def netsOf (rs : Multiset Route) (runId : String) : Finset String :=
  ((rs.filter fun route => route.runId = runId).map Route.vnet).toFinset

def ownersOf (rs : Multiset Route) (vnet proxyName : String) : Finset String :=
  ((rs.filter fun route => route.vnet = vnet ∧ route.proxyName = proxyName).map
    Route.runId).toFinset

def countOf (rs : Multiset Route) (runId : String) : Nat :=
  rs.countP fun route => route.runId = runId

def countInVnet (rs : Multiset Route) (k : String × String) : Nat :=
  rs.countP fun route => route.vnet = k.1 ∧ route.runId = k.2

def countWithName (rs : Multiset Route) (k : String × String × String) : Nat :=
  rs.countP fun route => route.vnet = k.1 ∧ route.proxyName = k.2.1 ∧ route.runId = k.2.2

/-- Every index of the table is the one recomputed from these routes. -/
structure Exact (t : VnetRoutes) (rs : Multiset Route) : Prop where
  vnetMembers : Sets t.vnetMembers (membersIn rs)
  runVnets : Sets t.runVnets (netsOf rs)
  runRouteCounts : Counts t.runRouteCounts (countOf rs)
  vnetNames : SetTables t.vnetNames (ownersOf rs)
  vnetRunCounts : Counts t.vnetRunCounts (countInVnet rs)
  vnetNameCounts : Counts t.vnetNameCounts (countWithName rs)

variable {vnet runId : String}

theorem mem_membersIn {rs : Multiset Route} :
    runId ∈ membersIn rs vnet ↔
      exists route, route ∈ rs ∧ route.vnet = vnet ∧ route.runId = runId := by
  simp [membersIn, and_assoc]

theorem mem_netsOf {rs : Multiset Route} :
    vnet ∈ netsOf rs runId ↔
      exists route, route ∈ rs ∧ route.vnet = vnet ∧ route.runId = runId := by
  simp [netsOf, and_assoc, and_comm]

theorem mem_ownersOf {rs : Multiset Route} {vnet proxyName runId : String} :
    runId ∈ ownersOf rs vnet proxyName ↔
      exists route, route ∈ rs ∧ route.vnet = vnet ∧ route.proxyName = proxyName ∧
        route.runId = runId := by
  simp [ownersOf, and_assoc]

theorem countInVnet_eq_zero {rs : Multiset Route} :
    countInVnet rs (vnet, runId) = 0 ↔ runId ∉ membersIn rs vnet := by
  rw [countInVnet, Multiset.countP_eq_zero, mem_membersIn]
  constructor
  · rintro h ⟨route, hmem, hv, hr⟩
    exact h route hmem ⟨hv, hr⟩
  · intro h route hmem hroute
    exact h ⟨route, hmem, hroute.1, hroute.2⟩

theorem mem_netsOf_iff {rs : Multiset Route} :
    vnet ∈ netsOf rs runId ↔ runId ∈ membersIn rs vnet := by
  rw [mem_netsOf, mem_membersIn]

theorem countWithName_eq_zero {rs : Multiset Route} {vnet proxyName runId : String} :
    countWithName rs (vnet, proxyName, runId) = 0 ↔
      runId ∉ ownersOf rs vnet proxyName := by
  rw [countWithName, Multiset.countP_eq_zero, mem_ownersOf]
  constructor
  · rintro h ⟨route, hmem, hv, hn, hr⟩
    exact h route hmem ⟨hv, hn, hr⟩
  · intro h route hmem hroute
    exact h ⟨route, hmem, hroute.1, hroute.2.1, hroute.2.2⟩

/-!
## How one route changes the recomputed indexes
-/

section OneRoute

variable (route : Route) (rs : Multiset Route)

theorem membersIn_cons :
    membersIn (route ::ₘ rs) route.vnet = insert route.runId (membersIn rs route.vnet) := by
  simp [membersIn]

theorem membersIn_cons_ne (h : vnet ≠ route.vnet) :
    membersIn (route ::ₘ rs) vnet = membersIn rs vnet := by
  simp [membersIn, Ne.symm h]

theorem netsOf_cons :
    netsOf (route ::ₘ rs) route.runId = insert route.vnet (netsOf rs route.runId) := by
  simp [netsOf]

theorem netsOf_cons_ne (h : runId ≠ route.runId) :
    netsOf (route ::ₘ rs) runId = netsOf rs runId := by
  simp [netsOf, Ne.symm h]

theorem ownersOf_cons :
    ownersOf (route ::ₘ rs) route.vnet route.proxyName =
      insert route.runId (ownersOf rs route.vnet route.proxyName) := by
  simp [ownersOf]

theorem ownersOf_cons_ne {vnet proxyName : String}
    (h : vnet ≠ route.vnet ∨ proxyName ≠ route.proxyName) :
    ownersOf (route ::ₘ rs) vnet proxyName = ownersOf rs vnet proxyName := by
  have hroute : ¬ (route.vnet = vnet ∧ route.proxyName = proxyName) := by
    rintro ⟨hv, hn⟩
    cases h with
    | inl hne => exact hne hv.symm
    | inr hne => exact hne hn.symm
  simp [ownersOf, hroute]

theorem countOf_cons : countOf (route ::ₘ rs) route.runId = countOf rs route.runId + 1 := by
  simp [countOf]

theorem countOf_cons_ne (h : runId ≠ route.runId) :
    countOf (route ::ₘ rs) runId = countOf rs runId := by
  simp [countOf, Ne.symm h]

theorem countInVnet_cons :
    countInVnet (route ::ₘ rs) (route.vnet, route.runId) =
      countInVnet rs (route.vnet, route.runId) + 1 := by
  simp [countInVnet]

theorem countInVnet_cons_ne {k : String × String} (h : k ≠ (route.vnet, route.runId)) :
    countInVnet (route ::ₘ rs) k = countInVnet rs k := by
  apply Multiset.countP_cons_of_neg
  rintro ⟨hv, hr⟩
  exact h (Prod.ext hv.symm hr.symm)

theorem countWithName_cons :
    countWithName (route ::ₘ rs) (route.vnet, route.proxyName, route.runId) =
      countWithName rs (route.vnet, route.proxyName, route.runId) + 1 := by
  simp [countWithName]

theorem countWithName_cons_ne {k : String × String × String}
    (h : k ≠ (route.vnet, route.proxyName, route.runId)) :
    countWithName (route ::ₘ rs) k = countWithName rs k := by
  apply Multiset.countP_cons_of_neg
  rintro ⟨hv, hn, hr⟩
  exact h (Prod.ext hv.symm (Prod.ext hn.symm hr.symm))

end OneRoute

/-!
## The operations keep the indexes exact
-/

theorem exact_new : Exact VnetRoutes.new 0 where
  vnetMembers := tabulates_empty fun _ => rfl
  runVnets := tabulates_empty fun _ => rfl
  runRouteCounts := tabulates_empty fun _ => rfl
  vnetNames := tabulates_empty fun _ _ => rfl
  vnetRunCounts := tabulates_empty fun _ => rfl
  vnetNameCounts := tabulates_empty fun _ => rfl

theorem exact_index {t : VnetRoutes} {rs : Multiset Route} (h : Exact t rs)
    (route : Route) :
    Exact (t.index route.vnet route.runId route.proxyName) (route ::ₘ rs) where
  vnetMembers := sets_addTo h.vnetMembers (membersIn_cons route rs)
    fun _ hne => membersIn_cons_ne route rs hne
  runVnets := sets_addTo h.runVnets (netsOf_cons route rs)
    fun _ hne => netsOf_cons_ne route rs hne
  runRouteCounts := counts_bump h.runRouteCounts (countOf_cons route rs)
    fun _ hne => countOf_cons_ne route rs hne
  vnetNames := setTables_addToIn h.vnetNames (ownersOf_cons route rs)
    (fun _ hne => ownersOf_cons_ne route rs (.inr hne))
    fun _ hne => funext fun _ => ownersOf_cons_ne route rs (.inl hne)
  vnetRunCounts := counts_bump h.vnetRunCounts (countInVnet_cons route rs)
    fun _ hne => countInVnet_cons_ne route rs hne
  vnetNameCounts := counts_bump h.vnetNameCounts (countWithName_cons route rs)
    fun _ hne => countWithName_cons_ne route rs hne

theorem exact_unindex {t : VnetRoutes} {rs : Multiset Route} {route : Route}
    (h : Exact t (route ::ₘ rs)) :
    Exact (t.unindex route.vnet route.runId route.proxyName) rs := by
  have hvr := counts_release h.vnetRunCounts (countInVnet_cons route rs)
    fun _ hne => (countInVnet_cons_ne route rs hne).symm
  have hnk := counts_release h.vnetNameCounts (countWithName_cons route rs)
    fun _ hne => (countWithName_cons_ne route rs hne).symm
  have hcount := counts_release h.runRouteCounts (countOf_cons route rs)
    fun _ hne => (countOf_cons_ne route rs hne).symm
  refine ⟨?_, ?_, hcount.2, ?_, hvr.2, hnk.2⟩
  · unfold VnetRoutes.unindex
    simp only [hvr.1, countInVnet_eq_zero, decide_eq_true_eq]
    exact sets_unless_kept h.vnetMembers (membersIn_cons route rs)
      fun _ hne => (membersIn_cons_ne route rs hne).symm
  · unfold VnetRoutes.unindex
    simp only [hvr.1, countInVnet_eq_zero, ← mem_netsOf_iff, decide_eq_true_eq]
    exact sets_unless_kept h.runVnets (netsOf_cons route rs)
      fun _ hne => (netsOf_cons_ne route rs hne).symm
  · unfold VnetRoutes.unindex
    simp only [hnk.1, countWithName_eq_zero, decide_eq_true_eq]
    exact setTables_unless_kept h.vnetNames (ownersOf_cons route rs)
      (fun _ hne => (ownersOf_cons_ne route rs (.inr hne)).symm)
      fun _ hne => funext fun _ => (ownersOf_cons_ne route rs (.inl hne)).symm

/-!
### Insertion and removal
-/

theorem routesOf_insert (flat : Table RouteKey RouteOwner) (key : RouteKey)
    (value : RouteOwner) :
    routesOf (flat.insert key value) =
      ⟨key.1, value.1, value.2⟩ ::ₘ routesOf (flat.erase key) := rfl

variable {flat : Table RouteKey RouteOwner}

theorem routesOf_erase_of_none {key : RouteKey} (h : flat.lookup key = none) :
    routesOf (flat.erase key) = routesOf flat := by
  unfold routesOf
  rw [Table.entries_erase_of_none h]

theorem routesOf_erase_of_some {key : RouteKey} {owner : RouteOwner}
    (h : flat.lookup key = some owner) :
    routesOf flat = ⟨key.1, owner.1, owner.2⟩ ::ₘ routesOf (flat.erase key) :=
  Multiset.coe_eq_coe.mpr ((Table.entries_erase_of_some h).map routeOf)

theorem routesOf_retain (flat : Table RouteKey RouteOwner)
    (keep : RouteKey -> RouteOwner -> Bool) :
    routesOf flat =
      ((flat.entries.filter fun e => !keep e.1 e.2).map routeOf : List Route) +
        routesOf (flat.retain keep) := by
  have hperm := filter_append_perm (fun e => !keep e.1 e.2) flat.entries
  have hmap := (hperm.map routeOf).symm
  rw [map_append] at hmap
  simp only [Bool.not_not] at hmap
  exact (Multiset.coe_eq_coe.mpr hmap).trans (Multiset.coe_add _ _).symm

def Consistent (t : VnetRoutes) : Prop :=
  Exact t (routesOf t.routes)

theorem exact_with_routes {t : VnetRoutes} {rs : Multiset Route} (h : Exact t rs)
    (flat : Table RouteKey RouteOwner) : Exact { t with routes := flat } rs :=
  ⟨h.vnetMembers, h.runVnets, h.runRouteCounts, h.vnetNames, h.vnetRunCounts,
    h.vnetNameCounts⟩

theorem insert_routes (t : VnetRoutes) (key : RouteKey) (value : RouteOwner) :
    (t.insert key value).2.routes = t.routes.insert key value := by
  unfold VnetRoutes.insert
  cases t.routes.lookup key with
  | none => rfl
  | some owner => rfl

theorem consistent_insert {t : VnetRoutes} (h : Consistent t) (key : RouteKey)
    (value : RouteOwner) : Consistent (t.insert key value).2 := by
  unfold Consistent
  rw [insert_routes, routesOf_insert]
  unfold VnetRoutes.insert
  cases hold : t.routes.lookup key with
  | none =>
    rw [routesOf_erase_of_none hold]
    exact exact_with_routes (exact_index h ⟨key.1, value.1, value.2⟩) _
  | some owner =>
    have hmid : Exact (t.unindex key.1 owner.1 owner.2) (routesOf (t.routes.erase key)) := by
      apply @exact_unindex _ _ ⟨key.1, owner.1, owner.2⟩
      rw [← routesOf_erase_of_some hold]
      exact h
    exact exact_with_routes (exact_index hmid ⟨key.1, value.1, value.2⟩) _

theorem exact_unindex_all {rs : Multiset Route}
    (removed : List (Sigma fun _ : RouteKey => RouteOwner)) {t : VnetRoutes}
    (h : Exact t ((removed.map routeOf : List Route) + rs)) :
    Exact (removed.foldl (fun t e => t.unindex e.1.1 e.2.1 e.2.2) t) rs := by
  induction removed generalizing t with
  | nil =>
    rw [map_nil, Multiset.coe_nil, zero_add] at h
    exact h
  | cons e removed ih =>
    rw [map_cons, ← Multiset.cons_coe, Multiset.cons_add] at h
    exact ih (exact_unindex h)

theorem unindex_all_routes (removed : List (Sigma fun _ : RouteKey => RouteOwner))
    (t : VnetRoutes) :
    (removed.foldl (fun t e => t.unindex e.1.1 e.2.1 e.2.2) t).routes = t.routes := by
  induction removed generalizing t with
  | nil =>
    rfl
  | cons e removed ih =>
    rw [foldl_cons, ih]
    rfl

theorem retain_routes (t : VnetRoutes) (keep : RouteKey -> RouteOwner -> Bool)
    (order : VnetRoutes.VisitOrder) :
    (t.retain keep order).routes = t.routes.retain keep :=
  unindex_all_routes _ _

theorem consistent_retain {t : VnetRoutes} (h : Consistent t)
    (keep : RouteKey -> RouteOwner -> Bool) (order : VnetRoutes.VisitOrder) :
    Consistent (t.retain keep order) := by
  unfold Consistent
  rw [retain_routes]
  apply exact_unindex_all
  have hperm := (order.perm (t.routes.entries.filter fun e => !keep e.1 e.2)).map routeOf
  rw [Multiset.coe_eq_coe.mpr hperm, ← routesOf_retain]
  exact exact_with_routes h _

/-!
## What the queries answer
-/

/-- `runId` owns a route named `proxyName` in `vnet`. -/
def Advertises (flat : Table RouteKey RouteOwner) (runId vnet proxyName : String) : Prop :=
  exists subnet, flat.lookup (vnet, subnet) = some (runId, proxyName)

/-- `runId` owns a route in `vnet`. -/
def Participates (flat : Table RouteKey RouteOwner) (runId vnet : String) : Prop :=
  exists proxyName, Advertises flat runId vnet proxyName

theorem mem_routesOf {route : Route} :
    route ∈ routesOf flat ↔ Advertises flat route.runId route.vnet route.proxyName := by
  unfold routesOf Advertises
  rw [Multiset.mem_coe, mem_map]
  constructor
  · rintro ⟨e, hmem, rfl⟩
    exact ⟨e.1.2, AList.mem_lookup_iff.mpr hmem⟩
  · rintro ⟨subnet, hlook⟩
    exact ⟨⟨(route.vnet, subnet), (route.runId, route.proxyName)⟩,
      AList.mem_lookup_iff.mp hlook, rfl⟩

theorem mem_owners {runId vnet proxyName : String} :
    runId ∈ ownersOf (routesOf flat) vnet proxyName ↔
      Advertises flat runId vnet proxyName := by
  rw [mem_ownersOf]
  constructor
  · rintro ⟨route, hmem, rfl, rfl, rfl⟩
    exact mem_routesOf.mp hmem
  · intro h
    exact ⟨⟨vnet, runId, proxyName⟩, mem_routesOf.mpr h, rfl, rfl, rfl⟩

theorem mem_nets :
    vnet ∈ netsOf (routesOf flat) runId ↔ Participates flat runId vnet := by
  rw [mem_netsOf]
  constructor
  · rintro ⟨route, hmem, rfl, rfl⟩
    exact ⟨route.proxyName, mem_routesOf.mp hmem⟩
  · rintro ⟨proxyName, h⟩
    exact ⟨⟨vnet, runId, proxyName⟩, mem_routesOf.mpr h, rfl, rfl⟩

/-!
### The smallest candidate
-/

variable {s : Finset String}

theorem mem_ascending {a : String} :
    a ∈ VnetRoutes.ascending s ↔ a ∈ s :=
  Finset.mem_sort (· ≤ ·)

theorem ascending_head_eq_some {a : String} :
    (VnetRoutes.ascending s).head? = some a ↔ a ∈ s ∧ forall b, b ∈ s -> a ≤ b := by
  have hsorted : (VnetRoutes.ascending s).Pairwise (· ≤ ·) := Finset.pairwise_sort s (· ≤ ·)
  have hmem : forall b, b ∈ VnetRoutes.ascending s ↔ b ∈ s := fun _ => mem_ascending
  cases hs : VnetRoutes.ascending s with
  | nil =>
    rw [hs] at hmem
    constructor
    · intro hnone
      cases hnone
    · rintro ⟨ha, _⟩
      exact absurd ((hmem a).mpr ha) not_mem_nil
  | cons b rest =>
    rw [hs] at hmem hsorted
    have hleast : forall c, c ∈ s -> b ≤ c := by
      intro c hc
      cases (hmem c).mpr hc with
      | head => exact le_refl b
      | tail _ hrest => exact rel_of_pairwise_cons hsorted hrest
    constructor
    · intro hhead
      rw [← Option.some.inj hhead]
      exact ⟨(hmem b).mp mem_cons_self, hleast⟩
    · rintro ⟨ha, hall⟩
      rw [head?_cons, le_antisymm (hleast a ha) (hall b ((hmem b).mp mem_cons_self))]

theorem ascending_head_eq_none :
    (VnetRoutes.ascending s).head? = none ↔ s = ∅ := by
  rw [head?_eq_none_iff]
  constructor
  · intro hnil
    apply Finset.eq_empty_of_forall_notMem
    intro a ha
    rw [← mem_ascending, hnil] at ha
    exact not_mem_nil ha
  · intro hempty
    rw [hempty]
    exact Finset.sort_empty (· ≤ ·)

/-- After the nets seen so far, `best` is the smallest of them that has an owner. -/
def Leads (owner : String -> Option String) (seen : List String)
    (best : Option (String × String)) : Prop :=
  (best = none -> forall vnet, vnet ∈ seen -> owner vnet = none) ∧
    forall b, best = some b -> b.1 ∈ seen ∧ owner b.1 = some b.2 ∧
      forall vnet, vnet ∈ seen -> owner vnet ≠ none -> b.1 ≤ vnet

theorem leads_betterRoute {owner : String -> Option String} {seen : List String}
    {best : Option (String × String)} (h : Leads owner seen best) (vnet : String) :
    Leads owner (seen ++ [vnet]) (VnetRoutes.betterRoute owner best vnet) := by
  unfold VnetRoutes.betterRoute
  cases howner : owner vnet with
  | none =>
    constructor
    · intro hnone v hv
      cases mem_append.mp hv with
      | inl hseen => exact h.1 hnone v hseen
      | inr hlast => rw [mem_singleton.mp hlast, howner]
    · intro b hb
      obtain ⟨hin, hown, hleast⟩ := h.2 b hb
      refine ⟨mem_append_left _ hin, hown, ?_⟩
      intro v hv hne
      cases mem_append.mp hv with
      | inl hseen => exact hleast v hseen hne
      | inr hlast =>
        rw [mem_singleton.mp hlast] at hne
        exact absurd howner hne
  | some runId =>
    cases hbest : best with
    | none =>
      constructor
      · intro hnone
        cases hnone
      · intro b hb
        cases hb
        refine ⟨mem_append_right _ mem_cons_self, howner, ?_⟩
        intro v hv hne
        cases mem_append.mp hv with
        | inl hseen => exact absurd (h.1 hbest v hseen) hne
        | inr hlast => exact le_of_eq (mem_singleton.mp hlast).symm
    | some b =>
      obtain ⟨hin, hown, hleast⟩ := h.2 b hbest
      by_cases hlt : vnet < b.1
      · simp only [if_pos hlt]
        constructor
        · intro hnone
          cases hnone
        · intro c hc
          cases hc
          refine ⟨mem_append_right _ mem_cons_self, howner, ?_⟩
          intro v hv hne
          cases mem_append.mp hv with
          | inl hseen => exact le_trans (le_of_lt hlt) (hleast v hseen hne)
          | inr hlast => exact le_of_eq (mem_singleton.mp hlast).symm
      · simp only [if_neg hlt]
        constructor
        · intro hnone
          cases hnone
        · intro c hc
          cases hc
          refine ⟨mem_append_left _ hin, hown, ?_⟩
          intro v hv hne
          cases mem_append.mp hv with
          | inl hseen => exact hleast v hseen hne
          | inr hlast =>
            rw [mem_singleton.mp hlast]
            exact le_of_not_gt hlt

theorem leads_foldl {owner : String -> Option String} (vnets : List String)
    {seen : List String} {best : Option (String × String)} (h : Leads owner seen best) :
    Leads owner (seen ++ vnets) (vnets.foldl (VnetRoutes.betterRoute owner) best) := by
  induction vnets generalizing seen best with
  | nil =>
    rw [append_nil]
    exact h
  | cons vnet vnets ih =>
    have hnext := ih (leads_betterRoute h vnet)
    rw [append_assoc, singleton_append] at hnext
    exact hnext

/-- A route named `proxyName` that `source` can reach: it lies in a net in which
`source` owns a route. -/
def Candidate (flat : Table RouteKey RouteOwner) (source proxyName vnet runId : String) :
    Prop :=
  Participates flat source vnet ∧ Advertises flat runId vnet proxyName

section Queries

variable {t : VnetRoutes} (h : Consistent t)
include h

theorem hasRoute_iff (runId vnet proxyName : String) :
    t.hasRoute runId vnet proxyName = true ↔ Advertises t.routes runId vnet proxyName := by
  unfold VnetRoutes.hasRoute
  rw [setTables_lookup h.vnetNames, ← mem_owners]
  by_cases hempty : ownersOf (routesOf t.routes) vnet proxyName = ∅
  · simp [hempty]
  · simp [hempty]

theorem runRouteCount_eq (runId : String) :
    t.runRouteCount runId = t.routes.entries.countP fun e => e.2.1 = runId := by
  unfold VnetRoutes.runRouteCount
  rw [counts_getD h.runRouteCounts]
  unfold countOf routesOf
  rw [Multiset.coe_countP, countP_map]
  rfl

theorem nameIndexed_iff (vnet proxyName : String) :
    ((t.vnetNames.lookup vnet).bind (AList.lookup proxyName)).isSome = true ↔
      exists owner, Advertises t.routes owner vnet proxyName := by
  rw [setTables_lookup h.vnetNames]
  by_cases hempty : ownersOf (routesOf t.routes) vnet proxyName = ∅
  · rw [if_pos hempty]
    constructor
    · intro hsome
      cases hsome
    · rintro ⟨owner, howner⟩
      rw [← mem_owners, hempty] at howner
      exact absurd howner (Finset.notMem_empty owner)
  · rw [if_neg hempty]
    constructor
    · intro _
      obtain ⟨owner, howner⟩ := Finset.nonempty_iff_ne_empty.mpr hempty
      exact ⟨owner, mem_owners.mp howner⟩
    · intro _
      rfl

theorem runVnets_cases (runId : String) :
    (t.runVnets.lookup runId = none ∧ forall vnet, ¬ Participates t.routes runId vnet) ∨
      exists vnets, t.runVnets.lookup runId = some vnets ∧
        forall vnet, vnet ∈ vnets ↔ Participates t.routes runId vnet := by
  cases hlook : t.runVnets.lookup runId with
  | none =>
    refine .inl ⟨rfl, ?_⟩
    intro vnet hpart
    rw [← mem_nets, tabulates_none h.runVnets hlook] at hpart
    exact Finset.notMem_empty vnet hpart
  | some vnets =>
    refine .inr ⟨vnets, rfl, ?_⟩
    intro vnet
    rw [← mem_nets, (tabulates_some h.runVnets hlook).2]

theorem sourceAllowed_iff (runId proxyName : String) :
    t.sourceAllowed runId proxyName = true ↔
      exists vnet, Participates t.routes runId vnet ∧
        exists owner, Advertises t.routes owner vnet proxyName := by
  unfold VnetRoutes.sourceAllowed
  rcases runVnets_cases h runId with ⟨hnone, hout⟩ | ⟨vnets, hsome, hin⟩
  · rw [hnone]
    constructor
    · intro hfalse
      cases hfalse
    · rintro ⟨vnet, hpart, _⟩
      exact absurd hpart (hout vnet)
  · rw [hsome]
    simp only [any_eq_true, mem_ascending, nameIndexed_iff h, hin]

theorem firstOwner_eq_some (proxyName vnet runId : String) :
    t.firstOwner proxyName vnet = some runId ↔
      Advertises t.routes runId vnet proxyName ∧
        forall other, Advertises t.routes other vnet proxyName -> runId ≤ other := by
  unfold VnetRoutes.firstOwner
  rw [setTables_lookup h.vnetNames]
  by_cases hempty : ownersOf (routesOf t.routes) vnet proxyName = ∅
  · rw [if_pos hempty]
    constructor
    · intro hnone
      cases hnone
    · rintro ⟨howner, _⟩
      rw [← mem_owners, hempty] at howner
      exact absurd howner (Finset.notMem_empty runId)
  · rw [if_neg hempty, Option.bind_some, ascending_head_eq_some]
    simp only [mem_owners]

theorem firstOwner_ne_none {proxyName vnet : String} :
    t.firstOwner proxyName vnet ≠ none ↔
      exists owner, Advertises t.routes owner vnet proxyName := by
  rw [← nameIndexed_iff h]
  unfold VnetRoutes.firstOwner
  rw [setTables_lookup h.vnetNames]
  by_cases hempty : ownersOf (routesOf t.routes) vnet proxyName = ∅
  · simp [hempty]
  · rw [if_neg hempty, Option.bind_some, Ne, ascending_head_eq_none]
    simp [hempty]

theorem visitorRouteTarget_best (source proxyName : String) :
    exists vnets best, t.visitorRouteTarget source proxyName = best.map Prod.snd ∧
      Leads (t.firstOwner proxyName) vnets best ∧
      forall vnet, vnet ∈ vnets ↔ Participates t.routes source vnet := by
  unfold VnetRoutes.visitorRouteTarget
  rcases runVnets_cases h source with ⟨hnone, hout⟩ | ⟨vnets, hsome, hin⟩
  · rw [hnone]
    refine ⟨[], none, rfl, ⟨?_, ?_⟩, ?_⟩
    · intro _ vnet hmem
      exact absurd hmem not_mem_nil
    · intro b hb
      cases hb
    · intro vnet
      exact iff_of_false not_mem_nil (hout vnet)
  · rw [hsome]
    have hstart : Leads (t.firstOwner proxyName) [] none := by
      constructor
      · intro _ vnet hmem
        exact absurd hmem not_mem_nil
      · intro b hb
        cases hb
    have hleads := leads_foldl (VnetRoutes.ascending vnets) hstart
    refine ⟨VnetRoutes.ascending vnets, _, rfl, hleads, ?_⟩
    intro vnet
    rw [mem_ascending, hin]

def Least (flat : Table RouteKey RouteOwner) (source proxyName vnet runId : String) : Prop :=
  Candidate flat source proxyName vnet runId ∧
    forall vnet' runId', Candidate flat source proxyName vnet' runId' ->
      vnet < vnet' ∨ (vnet = vnet' ∧ runId ≤ runId')

omit h in
theorem least_unique {source proxyName vnet runId vnet' runId' : String}
    (ha : Least flat source proxyName vnet runId) (hb : Least flat source proxyName vnet' runId') :
    runId = runId' := by
  rcases ha.2 vnet' runId' hb.1 with hlt | ⟨heq, hle⟩
  · rcases hb.2 vnet runId ha.1 with hlt' | ⟨heq', _⟩
    · exact absurd hlt' (lt_asymm hlt)
    · rw [heq'] at hlt
      exact absurd hlt (lt_irrefl vnet)
  · rcases hb.2 vnet runId ha.1 with hlt' | ⟨_, hle'⟩
    · rw [heq] at hlt'
      exact absurd hlt' (lt_irrefl vnet')
    · exact le_antisymm hle hle'

theorem least_of_leads {source proxyName : String} {vnets : List String}
    {b : String × String}
    (hleads : Leads (t.firstOwner proxyName) vnets (some b))
    (hin : forall vnet, vnet ∈ vnets ↔ Participates t.routes source vnet) :
    Least t.routes source proxyName b.1 b.2 := by
  obtain ⟨hmem, howner, hleast⟩ := hleads.2 b rfl
  obtain ⟨hadv, hmin⟩ := (firstOwner_eq_some h proxyName b.1 b.2).mp howner
  refine ⟨⟨(hin b.1).mp hmem, hadv⟩, ?_⟩
  rintro vnet' runId' ⟨hpart, hadv'⟩
  have hle := hleast vnet' ((hin vnet').mpr hpart) ((firstOwner_ne_none h).mpr ⟨runId', hadv'⟩)
  rcases lt_or_eq_of_le hle with hlt | heq
  · exact .inl hlt
  · refine .inr ⟨heq, hmin runId' ?_⟩
    rw [heq]
    exact hadv'

theorem visitorRouteTarget_eq_some (source proxyName runId : String) :
    t.visitorRouteTarget source proxyName = some runId ↔
      exists vnet, Least t.routes source proxyName vnet runId := by
  obtain ⟨vnets, best, htarget, hleads, hin⟩ := visitorRouteTarget_best h source proxyName
  rw [htarget]
  cases hbest : best with
  | none =>
    constructor
    · intro hnone
      cases hnone
    · rintro ⟨vnet, hleast⟩
      have howner := (firstOwner_ne_none h).mpr ⟨runId, hleast.1.2⟩
      exact absurd (hleads.1 hbest vnet ((hin vnet).mpr hleast.1.1)) howner
  | some b =>
    rw [hbest] at hleads
    have hb := least_of_leads h hleads hin
    constructor
    · intro hsome
      rw [← Option.some.inj hsome]
      exact ⟨b.1, hb⟩
    · rintro ⟨vnet, hleast⟩
      rw [Option.map_some, least_unique hb hleast]

theorem sourceAllowed_iff_target (source proxyName : String) :
    t.sourceAllowed source proxyName = true ↔
      (t.visitorRouteTarget source proxyName).isSome = true := by
  obtain ⟨vnets, best, htarget, hleads, hin⟩ := visitorRouteTarget_best h source proxyName
  rw [sourceAllowed_iff h, htarget]
  cases hbest : best with
  | none =>
    apply iff_of_false
    · rintro ⟨vnet, hpart, hadv⟩
      exact (firstOwner_ne_none h).mpr hadv (hleads.1 hbest vnet ((hin vnet).mpr hpart))
    · intro hsome
      cases hsome
  | some b =>
    rw [hbest] at hleads
    have hb := least_of_leads h hleads hin
    exact iff_of_true ⟨b.1, hb.1.1, b.2, hb.1.2⟩ rfl

end Queries

/-!
## Any sequence of operations
-/

inductive Operation where
  | insert (key : RouteKey) (value : RouteOwner)
  | retain (keep : RouteKey -> RouteOwner -> Bool) (order : VnetRoutes.VisitOrder)

def apply (t : VnetRoutes) : Operation -> VnetRoutes
  | .insert key value => (t.insert key value).2
  | .retain keep order => t.retain keep order

theorem consistent_new : Consistent VnetRoutes.new := exact_new

theorem consistent_apply {t : VnetRoutes} (h : Consistent t) (op : Operation) :
    Consistent (apply t op) := by
  cases op with
  | insert key value => exact consistent_insert h key value
  | retain keep order => exact consistent_retain h keep order

theorem consistent_run (ops : List Operation) :
    Consistent (Run.run apply VnetRoutes.new ops) :=
  @Run.run_preserves _ _ apply Consistent (fun _ op h => consistent_apply h op) _ ops
    consistent_new

/-- After any sequence of insertions and removals every index is the one recomputed
from the flat map, and the queries answer what a scan of the flat map answers. -/
theorem routes_refine_flat_map (ops : List Operation) :
    let t := Run.run apply VnetRoutes.new ops
    Exact t (routesOf t.routes) ∧
    (forall runId vnet proxyName, t.hasRoute runId vnet proxyName =
      t.routes.entries.any fun e => e.1.1 = vnet ∧ e.2 = (runId, proxyName)) ∧
    (forall runId, t.runRouteCount runId =
      t.routes.entries.countP fun e => e.2.1 = runId) ∧
    (forall runId proxyName, t.sourceAllowed runId proxyName = true ↔
      exists vnet, Participates t.routes runId vnet ∧
        exists owner, Advertises t.routes owner vnet proxyName) ∧
    (forall source proxyName runId, t.visitorRouteTarget source proxyName = some runId ↔
      exists vnet, Least t.routes source proxyName vnet runId) ∧
    forall source proxyName, t.sourceAllowed source proxyName = true ↔
      (t.visitorRouteTarget source proxyName).isSome = true := by
  intro t
  have h : Consistent t := consistent_run ops
  refine ⟨h, ?_, runRouteCount_eq h, sourceAllowed_iff h, visitorRouteTarget_eq_some h,
    sourceAllowed_iff_target h⟩
  intro runId vnet proxyName
  apply Bool.eq_iff_iff.mpr
  rw [hasRoute_iff h, any_eq_true]
  constructor
  · rintro ⟨subnet, hlook⟩
    exact ⟨_, AList.mem_lookup_iff.mp hlook, by simp⟩
  · rintro ⟨e, hmem, hroute⟩
    obtain ⟨hv, howner⟩ := of_decide_eq_true hroute
    refine ⟨e.1.2, ?_⟩
    rw [← hv, ← howner]
    exact AList.mem_lookup_iff.mpr hmem

end Vnet
end FrpRs
