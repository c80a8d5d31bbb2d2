import FrpRs.Data.Run
import FrpRs.Server.RouteLookup
import FrpRs.Server.VhostRegistrations

/-!
# Routes of CONNECT requests

What the tcpmux tables hold after any calls that register and unregister routes: the routes
of the last accepted registration of each name, and as many wildcards as there are routes
under domains that start with `*.`.
-/

namespace FrpRs
namespace Server
namespace TcpMuxTables

open List

/-!
## The routes under wildcard domains
-/

def wildRoutes (domain : String) (users : Table String TcpMuxRoute) : Nat :=
  if domain.startsWith "*." then users.size else 0

/-- The number of routes whose domain starts with `*.`. -/
def heldWildcards (t : TcpMuxTables) : Nat :=
  t.routes.weight wildRoutes

/-- No domain is kept without a bucket, and the counter agrees with the routes. -/
structure Tidy (t : TcpMuxTables) : Prop where
  nonempty : forall d users, t.routes.lookup d = some users -> users.entries.isEmpty = false
  counted : t.wildcardCount = UInt64.ofNat t.heldWildcards

theorem tidy_new : new.Tidy where
  nonempty d users h := by cases h
  counted := rfl

def Alone (t : TcpMuxTables) (domain user : String) : Prop :=
  forall u, (t.routeAt domain u).isSome = true -> u = user

variable {t : TcpMuxTables} {users : Table String TcpMuxRoute}

variable {d : String}

theorem routeAt_of_lookup (h : t.routes.lookup d = some users) (u : String) :
    t.routeAt d u = users.lookup u := by
  rw [routeAt, h, Option.bind_some]

variable {r : TcpMuxRoute}

theorem Alone.size {d u : String} (h : t.Alone d u) (husers : t.routes.lookup d = some users)
    (hr : users.lookup u = some r) : users.size = 1 := by
  apply Table.size_eq_one hr
  intro u' hu'
  apply h u'
  rw [routeAt_of_lookup husers]
  exact hu'

theorem heldWildcards_erase (h : t.routes.lookup d = some users) :
    t.heldWildcards = wildRoutes d users + Table.weight wildRoutes (t.routes.erase d) := by
  rw [heldWildcards, Table.weight_erase wildRoutes t.routes d, h]
  rfl

theorem ofNat_sub_one (n : Nat) : UInt64.ofNat (1 + n) - 1 = UInt64.ofNat n := by
  rw [Nat.add_comm, UInt64.ofNat_add]
  exact UInt64.add_sub_cancel _ _

/-!
## A domain that is left
-/

theorem routeAt_setUsers (t : TcpMuxTables) (domain : String)
    (users : Table String TcpMuxRoute) (d u : String) :
    (t.setUsers domain users).routeAt d u =
      if d = domain then users.lookup u else t.routeAt d u := by
  unfold setUsers routeAt
  split
  · rename_i hempty
    rw [Table.lookup_erase_eq]
    split
    · rw [Table.isEmpty_iff_lookup.mp hempty u]
      rfl
    · rfl
  · rw [Table.lookup_insert_eq]
    split
    · rfl
    · rfl

theorem routeAt_dropStale (route : TcpMuxRoute) (t : TcpMuxTables) (domain d u : String) :
    (t.dropStale route domain).routeAt d u =
      if d = domain ∧ u = route.routeByHttpUser ∧
          (t.routeAt d u).any (fun r => r.proxyName = route.proxyName) = true then none
      else t.routeAt d u := by
  unfold dropStale
  cases hdomain : t.routes.lookup domain with
  | none =>
    dsimp only
    split
    · rename_i h
      rw [routeAt, h.1, hdomain]
      rfl
    · rfl
  | some users =>
    dsimp only
    split
    · rename_i hany
      rw [routeAt_setUsers, Table.lookup_erase_eq]
      by_cases hd : d = domain
      · rw [if_pos hd, hd, routeAt_of_lookup hdomain]
        by_cases hu : u = route.routeByHttpUser
        · rw [if_pos hu, if_pos ⟨rfl, hu, by rw [hu]; exact hany⟩]
        · rw [if_neg hu, if_neg fun h => hu h.2.1]
      · rw [if_neg hd, if_neg fun h => hd h.1]
    · rename_i hany
      rw [if_neg]
      rintro ⟨hd, hu, hname⟩
      rw [hd, hu, routeAt_of_lookup hdomain] at hname
      exact hany hname

variable {domain : String}

/-- Under a wildcard domain the buckets stay as many, or the only one goes. -/
theorem Tidy.setUsers (h : t.Tidy) {users rest : Table String TcpMuxRoute}
    (hdomain : t.routes.lookup domain = some users) (hwild : domain.startsWith "*." = true ->
      rest.size = users.size ∨ users.size = 1 ∧ rest.entries.isEmpty = true) :
    (t.setUsers domain rest).Tidy := by
  have hheld := heldWildcards_erase hdomain
  have hcounted := h.counted
  unfold TcpMuxTables.setUsers
  split
  · rename_i hempty
    constructor
    · intro d us hus
      rw [Table.lookup_erase_eq] at hus
      split at hus
      · cases hus
      · exact h.nonempty d us hus
    · dsimp only [heldWildcards]
      by_cases hstar : domain.startsWith "*." = true
      · have hone : users.size = 1 := by
          rcases hwild hstar with hsame | hone
          · have hnone := h.nonempty domain users hdomain
            rw [Table.size, isEmpty_iff.mp hempty, Table.size] at hsame
            rw [length_eq_zero_iff.mp hsame.symm] at hnone
            cases hnone
          · exact hone.1
        rw [wildRoutes, if_pos hstar, hone] at hheld
        rw [if_pos hstar, hcounted, hheld, ofNat_sub_one]
      · rw [wildRoutes, if_neg hstar, Nat.zero_add] at hheld
        rw [if_neg hstar, hcounted, hheld]
  · rename_i hempty
    constructor
    · intro d us hus
      rw [Table.lookup_insert_eq] at hus
      split at hus
      · cases hus
        exact Bool.eq_false_iff.mpr hempty
      · exact h.nonempty d us hus
    · dsimp only [heldWildcards]
      rw [hcounted, hheld, Table.weight_insert]
      congr 2
      unfold wildRoutes
      split
      · rename_i hstar
        rcases hwild hstar with hsame | hone
        · exact hsame.symm
        · exact absurd hone.2 hempty
      · rfl

variable {route : TcpMuxRoute}

theorem Tidy.dropStale (h : t.Tidy) (halone : domain.startsWith "*." = true ->
      (t.routeAt domain route.routeByHttpUser).any
        (fun r => r.proxyName = route.proxyName) = true ->
      t.Alone domain route.routeByHttpUser) : (t.dropStale route domain).Tidy := by
  unfold TcpMuxTables.dropStale
  cases hdomain : t.routes.lookup domain with
  | none => exact h
  | some users =>
    dsimp only
    split
    · rename_i hany
      apply h.setUsers hdomain
      intro hstar
      right
      obtain ⟨r, hr, _⟩ := (Option.any_eq_true _ _).mp hany
      rw [routeAt_of_lookup hdomain] at halone
      have hone := (halone hstar hany).size hdomain hr
      refine ⟨hone, ?_⟩
      have hrest := Table.size_erase_of_some hr
      rw [hone, Nat.succ_inj] at hrest
      exact isEmpty_iff.mpr (length_eq_zero_iff.mp hrest)
    · exact h

theorem routeAt_dropStales (route : TcpMuxRoute) (stale : List String) (t : TcpMuxTables)
    (d u : String) :
    (stale.foldl (dropStale route) t).routeAt d u =
      if d ∈ stale ∧ u = route.routeByHttpUser ∧
          (t.routeAt d u).any (fun r => r.proxyName = route.proxyName) = true then none
      else t.routeAt d u := by
  induction stale generalizing t with
  | nil =>
    rw [foldl_nil, if_neg fun h => absurd h.1 not_mem_nil]
  | cons x xs ih =>
    rw [foldl_cons, ih, routeAt_dropStale]
    by_cases hat : d = x ∧ u = route.routeByHttpUser ∧
        (t.routeAt d u).any (fun r => r.proxyName = route.proxyName) = true
    · have hmem : d ∈ x :: xs := by
        rw [hat.1]
        exact mem_cons_self
      rw [if_pos hat, ite_self, if_pos ⟨hmem, hat.2⟩]
    · rw [if_neg hat]
      by_cases hin : d ∈ xs ∧ u = route.routeByHttpUser ∧
          (t.routeAt d u).any (fun r => r.proxyName = route.proxyName) = true
      · rw [if_pos hin, if_pos ⟨mem_cons_of_mem x hin.1, hin.2⟩]
      · rw [if_neg hin, if_neg]
        rintro ⟨hmem, hrest⟩
        rcases mem_cons.mp hmem with heq | hmem
        · exact hat ⟨heq, hrest⟩
        · exact hin ⟨hmem, hrest⟩

theorem Tidy.dropStales {stale : List String} (h : t.Tidy)
    (halone : forall domain, domain ∈ stale -> domain.startsWith "*." = true ->
      (t.routeAt domain route.routeByHttpUser).any
        (fun r => r.proxyName = route.proxyName) = true ->
      t.Alone domain route.routeByHttpUser) :
    (stale.foldl (TcpMuxTables.dropStale route) t).Tidy := by
  induction stale generalizing t with
  | nil =>
    exact h
  | cons x xs ih =>
    apply ih (h.dropStale (halone x mem_cons_self))
    intro domain hmem hstar hany u hu
    rw [routeAt_dropStale] at hany hu
    split at hany
    · cases hany
    · split at hu
      · cases hu
      · exact halone domain (mem_cons_of_mem x hmem) hstar hany u hu

/-!
## A domain that is added
-/

theorem routeAt_addRoute (route : TcpMuxRoute) (t : TcpMuxTables) (domain d u : String) :
    (t.addRoute route domain).routeAt d u =
      if d = domain ∧ u = route.routeByHttpUser then some route else t.routeAt d u := by
  unfold addRoute routeAt
  rw [Table.lookup_insert_eq]
  by_cases hd : d = domain
  · rw [if_pos hd, hd, Option.bind_some, Table.lookup_insert_eq]
    by_cases hu : u = route.routeByHttpUser
    · rw [if_pos hu, if_pos ⟨rfl, hu⟩]
    · rw [if_neg hu, if_neg fun h => hu h.2]
      cases t.routes.lookup domain with
      | none => rfl
      | some users => rfl
  · rw [if_neg hd, if_neg fun h => hd h.1]

def addsWildcard (t : TcpMuxTables) (route : TcpMuxRoute) (domain : String) : Bool :=
  (((t.routes.lookup domain).getD ∅).lookup route.routeByHttpUser).isNone &&
    domain.startsWith "*."

theorem heldWildcards_addRoute (t : TcpMuxTables) (route : TcpMuxRoute) (domain : String) :
    (t.addRoute route domain).heldWildcards =
      t.heldWildcards + if t.addsWildcard route domain then 1 else 0 := by
  have hold : t.heldWildcards = wildRoutes domain ((t.routes.lookup domain).getD ∅) +
      Table.weight wildRoutes (t.routes.erase domain) := by
    rw [heldWildcards, Table.weight_erase wildRoutes t.routes domain]
    cases t.routes.lookup domain with
    | none =>
      have hempty : wildRoutes domain ∅ = 0 := by
        unfold wildRoutes
        split
        · rfl
        · rfl
      rw [Option.map_none, Option.getD_none, Option.getD_none, hempty]
    | some users => rfl
  rw [hold]
  unfold addRoute addsWildcard
  dsimp only [heldWildcards]
  rw [Table.weight_insert]
  unfold wildRoutes
  by_cases hstar : domain.startsWith "*." = true
  · rw [if_pos hstar, if_pos hstar, hstar, Bool.and_true, Table.size_insert]
    cases hbucket : ((t.routes.lookup domain).getD ∅).lookup route.routeByHttpUser with
    | none =>
      rw [Option.isNone_none, if_pos rfl, Table.size_erase_of_none hbucket, Nat.add_right_comm]
    | some r =>
      rw [Table.size_erase_of_some hbucket]
      rfl
  · rw [if_neg hstar, if_neg hstar, Bool.eq_false_iff.mpr hstar, Bool.and_false]
    rfl

theorem nonempty_addRoute
    (h : forall d users, t.routes.lookup d = some users -> users.entries.isEmpty = false)
    (husers : (t.addRoute route domain).routes.lookup d = some users) :
    users.entries.isEmpty = false := by
  unfold addRoute at husers
  rw [Table.lookup_insert_eq] at husers
  split at husers
  · cases husers
    rfl
  · exact h d users husers

theorem Tidy.addRoute (h : t.Tidy) (domain : String) :
    (t.addRoute route domain).Tidy := by
  constructor
  · intro d users husers
    exact nonempty_addRoute h.nonempty husers
  · have hcount : (t.addRoute route domain).wildcardCount =
        if t.addsWildcard route domain then t.wildcardCount + 1 else t.wildcardCount := rfl
    rw [heldWildcards_addRoute, hcount, h.counted]
    split
    · rw [UInt64.ofNat_add _ 1]
      rfl
    · rfl

theorem routeAt_addRoutes (route : TcpMuxRoute) (domains : List String) (t : TcpMuxTables)
    (d u : String) :
    (domains.foldl (addRoute route) t).routeAt d u =
      if d ∈ domains ∧ u = route.routeByHttpUser then some route else t.routeAt d u := by
  induction domains generalizing t with
  | nil =>
    rw [foldl_nil, if_neg fun h => absurd h.1 not_mem_nil]
  | cons x xs ih =>
    rw [foldl_cons, ih, routeAt_addRoute]
    by_cases hin : d ∈ xs ∧ u = route.routeByHttpUser
    · rw [if_pos hin, if_pos ⟨mem_cons_of_mem x hin.1, hin.2⟩]
    · rw [if_neg hin]
      apply if_congr ?_ rfl rfl
      rw [mem_cons]
      constructor
      · intro h
        exact ⟨.inl h.1, h.2⟩
      · rintro ⟨hmem | hmem, hu⟩
        · exact ⟨hmem, hu⟩
        · exact absurd ⟨hmem, hu⟩ hin

theorem Tidy.addRoutes {route : TcpMuxRoute} {t : TcpMuxTables} (h : t.Tidy)
    (domains : List String) : (domains.foldl (TcpMuxTables.addRoute route) t).Tidy := by
  induction domains generalizing t with
  | nil =>
    exact h
  | cons x xs ih =>
    exact ih (h.addRoute x)

/-!
## Unregistering
-/

theorem Tidy.dropRoutes_eq (h : t.Tidy) (name : String)
    (hdomain : t.routes.lookup domain = some users) :
    t.dropRoutes name domain = t.setUsers domain (users.retain fun _ r => r.proxyName ≠ name) := by
  unfold TcpMuxTables.dropRoutes TcpMuxTables.setUsers
  rw [hdomain]
  dsimp only
  rw [h.nonempty domain users hdomain, Bool.not_false, Bool.and_true]

theorem routeAt_dropRoutes (t : TcpMuxTables) (name domain d u : String) :
    (t.dropRoutes name domain).routeAt d u =
      if d = domain then (t.routeAt d u).filter fun r => r.proxyName ≠ name
      else t.routeAt d u := by
  unfold dropRoutes
  cases hdomain : t.routes.lookup domain with
  | none =>
    dsimp only
    split
    · rename_i hd
      rw [routeAt, hd, hdomain]
      rfl
    · rfl
  | some users =>
    have hrest : (t.routeAt domain u).filter (fun r => r.proxyName ≠ name) =
        (users.retain fun _ r => r.proxyName ≠ name).lookup u := by
      rw [Table.lookup_retain, routeAt_of_lookup hdomain]
    dsimp only
    split
    · rename_i hempty
      rw [routeAt, Table.lookup_erase_eq]
      split
      · rename_i hd
        rw [hd, hrest, Table.isEmpty_iff_lookup.mp hempty u]
        rfl
      · rfl
    · rw [routeAt, Table.lookup_insert_eq]
      split
      · rename_i hd
        rw [hd, hrest]
        rfl
      · rfl

theorem routeAt_dropAll (name : String) (domains : List String) (t : TcpMuxTables)
    (d u : String) :
    (domains.foldl (dropRoutes name) t).routeAt d u =
      if d ∈ domains then (t.routeAt d u).filter fun r => r.proxyName ≠ name
      else t.routeAt d u := by
  induction domains generalizing t with
  | nil =>
    rw [foldl_nil, if_neg not_mem_nil]
  | cons x xs ih =>
    rw [foldl_cons, ih, routeAt_dropRoutes]
    by_cases hd : d = x
    · have hmem : d ∈ x :: xs := by
        rw [hd]
        exact mem_cons_self
      split
      · simp
      · rfl
    · have hmem : d ∈ x :: xs ↔ d ∈ xs := by
        rw [mem_cons]
        constructor
        · intro h
          exact h.resolve_left hd
        · exact .inr
      rw [if_neg hd, if_congr hmem rfl rfl]

theorem Tidy.dropRoutes (h : t.Tidy) {name domain : String}
    (halone : domain.startsWith "*." = true -> forall u r, t.routeAt domain u = some r ->
      r.proxyName = name -> t.Alone domain u) : (t.dropRoutes name domain).Tidy := by
  cases hdomain : t.routes.lookup domain with
  | none =>
    unfold TcpMuxTables.dropRoutes
    rw [hdomain]
    exact h
  | some users =>
    rw [h.dropRoutes_eq name hdomain]
    apply h.setUsers hdomain
    intro hstar
    by_cases hheld : exists u r, users.lookup u = some r ∧ r.proxyName = name
    · obtain ⟨u, r, hr, hname⟩ := hheld
      have hat : t.routeAt domain u = some r := by
        rw [routeAt_of_lookup hdomain]
        exact hr
      have honly := halone hstar u r hat hname
      right
      refine ⟨honly.size hdomain hr, ?_⟩
      rw [Table.isEmpty_iff_lookup]
      intro u'
      rw [Table.lookup_retain]
      cases hu' : users.lookup u' with
      | none => rfl
      | some r' =>
        have hsame : u' = u := by
          apply honly
          rw [routeAt_of_lookup hdomain, hu']
          rfl
        rw [hsame, hr] at hu'
        cases hu'
        simp [hname]
    · left
      rw [Table.retain_eq_self]
      intro u r hr
      apply decide_eq_true
      intro hname
      exact hheld ⟨u, r, hr, hname⟩

variable {domains : List String}

theorem Tidy.dropAll {name : String} (h : t.Tidy)
    (halone : forall d u r, d.startsWith "*." = true -> t.routeAt d u = some r ->
      r.proxyName = name -> t.Alone d u) :
    (domains.foldl (TcpMuxTables.dropRoutes name) t).Tidy := by
  induction domains generalizing t with
  | nil =>
    exact h
  | cons x xs ih =>
    have hsub : forall d u r, (t.dropRoutes name x).routeAt d u = some r ->
        t.routeAt d u = some r := by
      intro d u r hr
      rw [routeAt_dropRoutes] at hr
      split at hr
      · exact (Option.filter_eq_some_iff.mp hr).1
      · exact hr
    apply ih (h.dropRoutes fun hstar u r hr hname => halone x u r hstar hr hname)
    intro d u r hstar hr hname u' hu'
    obtain ⟨r', hr'⟩ := Option.isSome_iff_exists.mp hu'
    exact halone d u r hstar (hsub d u r hr) hname u'
      (Option.isSome_iff_exists.mpr ⟨r', hsub d u' r' hr'⟩)

/-!
## Calls
-/

inductive Call where
  | register (route : TcpMuxRoute) (domains : List String)
  | unregister (name : String)

/-- What a name registered last: the route and its domains in lower case. -/
structure MuxRegistration where
  route : TcpMuxRoute
  domains : List String

/-- The tables beside the last accepted registration of every name. -/
structure Tracked where
  table : TcpMuxTables
  last : String -> Option MuxRegistration

def start : Tracked where
  table := new
  last _ := none

/-- A rejected registration leaves the tables. -/
def call (lower : String -> String) (s : Tracked) : Call -> Tracked
  | .register route domains =>
    match s.table.register lower route domains with
    | .error _ => s
    | .ok t =>
      { table := t
        last := Function.update s.last route.proxyName
          (some ⟨route, domains.map lower⟩) }
  | .unregister name =>
    { table := s.table.unregister name
      last := Function.update s.last name none }

/-- The routes are those of the last registrations, and the counter is their number under
wildcard domains. -/
structure Exact (s : Tracked) : Prop where
  routes : forall d u r, s.table.routeAt d u = some r ↔
    exists x, s.last r.proxyName = some x ∧ x.route = r ∧ r.routeByHttpUser = u ∧ d ∈ x.domains
  count : s.table.wildcardCount = UInt64.ofNat s.table.heldWildcards

/-- Registered again, a name keeps its user; a route that goes under a wildcard domain leaves
no other bucket there. -/
def Clear (lower : String -> String) (s : Tracked) : Call -> Prop
  | .register route domains =>
    (s.table.register lower route domains).isOk = true ->
      forall d u r, s.table.routeAt d u = some r -> r.proxyName = route.proxyName ->
        u = route.routeByHttpUser ∧
          (d ∉ domains.map lower -> d.startsWith "*." = true -> s.table.Alone d u)
  | .unregister name =>
    forall d u r, s.table.routeAt d u = some r -> r.proxyName = name ->
      d.startsWith "*." = true -> s.table.Alone d u

/-- What is kept along such calls: the domains of a route are recorded under its name. -/
structure Kept (s : Tracked) : Prop where
  tidy : s.table.Tidy
  exact : Exact s
  recorded : forall d u r, s.table.routeAt d u = some r ->
    exists ds, s.table.byProxy.lookup r.proxyName = some ds ∧ d ∈ ds

theorem kept_start : Kept start where
  tidy := tidy_new
  exact := by
    constructor
    · intro d u r
      constructor
      · intro h
        cases h
      · rintro ⟨x, hx, _⟩
        cases hx
    · rfl
  recorded d u r h := by cases h

theorem byProxy_dropStales (route : TcpMuxRoute) (stale : List String) (t : TcpMuxTables) :
    (stale.foldl (dropStale route) t).byProxy = t.byProxy := by
  induction stale generalizing t with
  | nil =>
    rfl
  | cons x xs ih =>
    rw [foldl_cons, ih]
    unfold dropStale setUsers
    split
    · rfl
    · split
      · split
        · rfl
        · rfl
      · rfl

theorem byProxy_addRoutes (route : TcpMuxRoute) (domains : List String) (t : TcpMuxTables) :
    (domains.foldl (addRoute route) t).byProxy = t.byProxy := by
  induction domains generalizing t with
  | nil =>
    rfl
  | cons x xs ih =>
    rw [foldl_cons, ih]
    rfl

theorem byProxy_dropAll (name : String) (domains : List String) (t : TcpMuxTables) :
    (domains.foldl (dropRoutes name) t).byProxy = t.byProxy := by
  induction domains generalizing t with
  | nil =>
    rfl
  | cons x xs ih =>
    rw [foldl_cons, ih]
    unfold dropRoutes
    split
    · rfl
    · dsimp only
      split
      · rfl
      · rfl

def staleDomains (lower : String -> String) (t : TcpMuxTables) (route : TcpMuxRoute)
    (domains : List String) : List String :=
  ((t.byProxy.lookup route.proxyName).getD []).filter fun d => d ∉ domains.map lower

theorem not_held_of_conflict (h : t.conflict route domains = none) (hd : d ∈ domains)
    (hr : t.routeAt d route.routeByHttpUser = some r) :
    r.proxyName = route.proxyName := by
  have hnone := findSome?_eq_none_iff.mp h d hd
  rw [hr, Option.map_eq_none_iff, Option.filter_some] at hnone
  by_contra hne
  rw [if_pos (decide_eq_true hne)] at hnone
  cases hnone

variable {lower : String -> String}

/-- What an accepted registration does. -/
theorem register_ok {t t' : TcpMuxTables} (h : t.register lower route domains = .ok t') :
    (domains.map lower).Nodup ∧
    t.conflict route (domains.map lower) = none ∧
    t'.routes = ((domains.map lower).foldl (addRoute route)
      ((t.staleDomains lower route domains).foldl (dropStale route) t)).routes ∧
    t'.wildcardCount = ((domains.map lower).foldl (addRoute route)
      ((t.staleDomains lower route domains).foldl (dropStale route) t)).wildcardCount ∧
    t'.byProxy = if domains.map lower = [] then t.byProxy
      else t.byProxy.insert route.proxyName (domains.map lower) := by
  unfold register at h
  dsimp only at h
  split at h
  · cases h
  · rename_i hnone
    obtain ⟨hrepeated, hconflict⟩ := Option.or_eq_none_iff.mp hnone
    have hnodup := (firstRepeated_eq_none (Option.map_eq_none_iff.mp hrepeated)).1
    have hbyProxy := (byProxy_addRoutes route (domains.map lower)
      ((t.staleDomains lower route domains).foldl (dropStale route) t)).trans
        (byProxy_dropStales route _ t)
    split at h
    · rename_i hempty
      cases h
      refine ⟨hnodup, hconflict, rfl, rfl, ?_⟩
      rw [if_pos (isEmpty_iff.mp hempty)]
      exact hbyProxy
    · rename_i hne
      cases h
      refine ⟨hnodup, hconflict, rfl, rfl, ?_⟩
      rw [if_neg fun h => hne (isEmpty_iff.mpr h)]
      exact congrArg (AList.insert route.proxyName (domains.map lower)) hbyProxy

theorem routeAt_register {t t' : TcpMuxTables} (h : t.register lower route domains = .ok t')
    (d u : String) :
    t'.routeAt d u =
      if d ∈ domains.map lower ∧ u = route.routeByHttpUser then some route
      else if d ∈ t.staleDomains lower route domains ∧ u = route.routeByHttpUser ∧
          (t.routeAt d u).any (fun r => r.proxyName = route.proxyName) = true then none
      else t.routeAt d u := by
  obtain ⟨_, _, hroutes, _, _⟩ := register_ok h
  rw [routeAt, hroutes, ← routeAt_dropStales, ← routeAt_addRoutes]
  rfl

/-- Under the condition, the routes of the name are those of the call, and the routes of other
names are left. -/
theorem Kept.routeAt_register {s : Tracked} (h : Kept s)
    (hclear : Clear lower s (.register route domains))
    (hok : s.table.register lower route domains = .ok t) (d u : String) (r : TcpMuxRoute) :
    t.routeAt d u = some r ↔
      if r.proxyName = route.proxyName then
        route = r ∧ route.routeByHttpUser = u ∧ d ∈ domains.map lower
      else s.table.routeAt d u = some r := by
  have hclear := hclear (by rw [hok]; rfl)
  obtain ⟨_, hconflict, _, _, _⟩ := register_ok hok
  rw [TcpMuxTables.routeAt_register hok]
  split
  · rename_i hnew
    constructor
    · intro hr
      cases hr
      rw [if_pos rfl]
      exact ⟨rfl, hnew.2.symm, hnew.1⟩
    · intro hr
      split at hr
      · rw [hr.1]
      · rename_i hname
        rw [hnew.2] at hr
        exact absurd (not_held_of_conflict hconflict hnew.1 hr) hname
  · rename_i hnew
    split
    · rename_i hstale
      constructor
      · intro hr
        cases hr
      · intro hr
        split at hr
        · exact absurd ⟨hr.2.2, hr.2.1.symm⟩ hnew
        · rename_i hname
          have hany := hstale.2.2
          rw [hr, Option.any_some, decide_eq_true_eq] at hany
          exact absurd hany hname
    · rename_i hstale
      by_cases hname : r.proxyName = route.proxyName
      · rw [if_pos hname]
        constructor
        · intro hr
          have huser := (hclear d u r hr hname).1
          obtain ⟨ds, hds, hd⟩ := h.recorded d u r hr
          have hout : d ∉ domains.map lower := fun hin => hnew ⟨hin, huser⟩
          have hin : d ∈ s.table.staleDomains lower route domains := by
            rw [staleDomains, ← hname, hds, Option.getD_some, mem_filter]
            exact ⟨hd, decide_eq_true hout⟩
          have hany : (s.table.routeAt d u).any (fun r => r.proxyName = route.proxyName) = true := by
            rw [hr, Option.any_some, decide_eq_true_eq]
            exact hname
          exact absurd ⟨hin, huser, hany⟩ hstale
        · intro hr
          exact absurd ⟨hr.2.2, hr.2.1.symm⟩ hnew
      · rw [if_neg hname]

theorem Kept.register {s : Tracked} (h : Kept s) (hclear : Clear lower s (.register route domains))
    (hok : s.table.register lower route domains = .ok t) :
    Kept ⟨t, Function.update s.last route.proxyName (some ⟨route, domains.map lower⟩)⟩ := by
  obtain ⟨_, _, hroutes, hcount, hbyProxy⟩ := register_ok hok
  have hheld := h.routeAt_register hclear hok
  have htidy : t.Tidy := by
    have hdropped : ((s.table.staleDomains lower route domains).foldl
        (TcpMuxTables.dropStale route) s.table).Tidy := by
      apply h.tidy.dropStales
      intro d hd hstar hany
      obtain ⟨r, hr, hname⟩ := (Option.any_eq_true _ _).mp hany
      have hout := of_decide_eq_true (mem_filter.mp hd).2
      exact (hclear (by rw [hok]; rfl) d _ r hr (of_decide_eq_true hname)).2 hout hstar
    have hadded := @Tidy.addRoutes route _ hdropped (domains.map lower)
    constructor
    · rw [hroutes]
      exact hadded.nonempty
    · rw [hcount, heldWildcards, hroutes]
      exact hadded.counted
  refine ⟨htidy, ⟨?_, htidy.counted⟩, ?_⟩
  · intro d u r
    dsimp only
    rw [hheld]
    by_cases hname : r.proxyName = route.proxyName
    · rw [if_pos hname, hname, Function.update_self]
      constructor
      · rintro ⟨rfl, hu, hd⟩
        exact ⟨_, rfl, rfl, hu, hd⟩
      · rintro ⟨x, hx, hr, hu, hd⟩
        cases hx
        rw [← hr] at hu
        exact ⟨hr, hu, hd⟩
    · rw [if_neg hname, Function.update_of_ne hname]
      exact h.exact.routes d u r
  · intro d u r hr
    rw [hheld] at hr
    rw [hbyProxy]
    by_cases hname : r.proxyName = route.proxyName
    · rw [if_pos hname] at hr
      have hne : domains.map lower ≠ [] := ne_nil_of_mem hr.2.2
      rw [if_neg hne, hname, AList.lookup_insert]
      exact ⟨_, rfl, hr.2.2⟩
    · rw [if_neg hname] at hr
      obtain ⟨ds, hds, hd⟩ := h.recorded d u r hr
      refine ⟨ds, ?_, hd⟩
      split
      · exact hds
      · rw [AList.lookup_insert_ne hname]
        exact hds

theorem routeAt_unregister (h : forall d u r, t.routeAt d u = some r ->
      exists ds, t.byProxy.lookup r.proxyName = some ds ∧ d ∈ ds) (name d u : String) :
    (t.unregister name).routeAt d u = (t.routeAt d u).filter fun r => r.proxyName ≠ name := by
  have hkept : (exists ds, t.byProxy.lookup name = some ds ∧ d ∈ ds) ∨
      (t.routeAt d u).filter (fun r => r.proxyName ≠ name) = t.routeAt d u := by
    cases hr : t.routeAt d u with
    | none => exact .inr rfl
    | some r =>
      by_cases hname : r.proxyName = name
      · have hrecorded := h d u r hr
        rw [hname] at hrecorded
        exact .inl hrecorded
      · right
        rw [Option.filter_some, if_pos (decide_eq_true hname)]
  unfold unregister
  cases hname : t.byProxy.lookup name with
  | none =>
    rcases hkept with ⟨ds, hds, _⟩ | hkept
    · rw [hname] at hds
      cases hds
    · exact hkept.symm
  | some domains =>
    rw [routeAt_dropAll]
    split
    · rfl
    · rename_i hout
      rcases hkept with ⟨ds, hds, hd⟩ | hkept
      · rw [hname] at hds
        cases hds
        exact absurd hd hout
      · exact hkept.symm

theorem byProxy_unregister (t : TcpMuxTables) (name n : String) :
    (t.unregister name).byProxy.lookup n = if n = name then none else t.byProxy.lookup n := by
  unfold unregister
  cases hname : t.byProxy.lookup name with
  | none =>
    dsimp only
    split
    · rename_i hn
      rw [hn, hname]
    · rfl
  | some domains =>
    rw [byProxy_dropAll, Table.lookup_erase_eq]

theorem Kept.unregister {s : Tracked} (h : Kept s) {name : String}
    (hclear : Clear lower s (.unregister name)) :
    Kept ⟨s.table.unregister name, Function.update s.last name none⟩ := by
  have htidy : (s.table.unregister name).Tidy := by
    unfold TcpMuxTables.unregister
    split
    · exact h.tidy
    · have herased : Tidy { s.table with byProxy := s.table.byProxy.erase name } :=
        ⟨h.tidy.nonempty, h.tidy.counted⟩
      apply herased.dropAll
      intro d u r hstar hr hname
      exact hclear d u r hr hname hstar
  refine ⟨htidy, ⟨?_, htidy.counted⟩, ?_⟩
  · intro d u r
    dsimp only
    rw [routeAt_unregister h.recorded, Option.filter_eq_some_iff, h.exact.routes]
    by_cases hname : r.proxyName = name
    · rw [hname, Function.update_self]
      simp
    · simp [hname]
  · intro d u r hr
    rw [routeAt_unregister h.recorded, Option.filter_eq_some_iff, decide_eq_true_eq] at hr
    rw [byProxy_unregister, if_neg hr.2]
    exact h.recorded d u r hr.1

theorem Kept.call {lower : String -> String} {s : Tracked} (h : Kept s) {c : Call}
    (hclear : Clear lower s c) : Kept (call lower s c) := by
  cases c with
  | register route domains =>
    unfold TcpMuxTables.call
    dsimp only
    split
    · exact h
    · rename_i t hok
      exact h.register hclear hok
  | unregister name => exact h.unregister hclear

/-- Along calls that meet the condition the tables hold what was registered last. -/
theorem holds_last_registrations {lower : String -> String} {calls : List Call}
    (h : Run.Along (call lower) (Clear lower) start calls) {pre : List Call}
    (hpre : pre <+: calls) :
    Exact (Run.run (call lower) start pre) ∧
    (forall name d u r,
      ((Run.run (call lower) start pre).table.unregister name).routeAt d u = some r ->
      r.proxyName ≠ name) ∧
    (forall route domains e,
      (Run.run (call lower) start pre).table.register lower route domains = .error e ->
      Run.run (call lower) start (pre ++ [.register route domains]) =
        Run.run (call lower) start pre) := by
  obtain ⟨rest, rfl⟩ := hpre
  have hkept : Kept (Run.run (call lower) start pre) :=
    Run.run_invariant (fun _ _ hs hc => hs.call hc) kept_start (Run.along_append.mp h).1
  refine ⟨hkept.exact, ?_, ?_⟩
  · intro name d u r hr
    rw [routeAt_unregister hkept.recorded, Option.filter_eq_some_iff, decide_eq_true_eq] at hr
    exact hr.2
  · intro route domains e hrejected
    rw [Run.run_append, Run.run_cons, Run.run_nil, call, hrejected]

def plainRoute (name user : String) : TcpMuxRoute :=
  ⟨name, "run", "", "", user, ""⟩

/-!
## Calls of one user
-/

def OneUser (user : String) (s : Tracked) : Prop :=
  forall d u r, s.table.routeAt d u = some r -> u = user

def Call.OfUser (user : String) : Call -> Prop
  | .register route _ => route.routeByHttpUser = user
  | .unregister _ => True

section OneUser

variable {user : String} {lower : String -> String} {s : Tracked} {c : Call}

theorem OneUser.alone (h : OneUser user s) {d u : String} (hr : s.table.routeAt d u = some r) :
    s.table.Alone d u := by
  intro u' hu'
  obtain ⟨r', hr'⟩ := Option.isSome_iff_exists.mp hu'
  exact (h d u' r' hr').trans (h d u r hr).symm

theorem OneUser.clear (h : OneUser user s) (hc : c.OfUser user) : Clear lower s c := by
  cases c with
  | register route domains =>
    intro _ d u r hr _
    exact ⟨(h d u r hr).trans (Eq.symm hc), fun _ _ => h.alone hr⟩
  | unregister name =>
    intro d u r hr _ _
    exact h.alone hr

theorem OneUser.call (h : OneUser user s) (hkept : Kept s) (hc : c.OfUser user) :
    OneUser user (call lower s c) := by
  cases c with
  | register route domains =>
    unfold TcpMuxTables.call
    dsimp only
    split
    · exact h
    · rename_i t hok
      intro d u r hr
      have hat := routeAt_register hok d u
      rw [show t.routeAt d u = some r from hr] at hat
      split at hat
      · rename_i hnew
        exact hnew.2.trans hc
      · split at hat
        · cases hat
        · exact h d u r hat.symm
  | unregister name =>
    intro d u r hr
    have hat := routeAt_unregister hkept.recorded name d u
    rw [show (s.table.unregister name).routeAt d u = some r from hr, eq_comm,
      Option.filter_eq_some_iff] at hat
    exact h d u r hat.1

theorem clear_of_oneUser {calls : List Call} (h : forall c, c ∈ calls -> c.OfUser user) :
    Run.Along (TcpMuxTables.call lower) (Clear lower) start calls := by
  have hall : Run.Along (TcpMuxTables.call lower) (fun _ c => c.OfUser user) start calls :=
    Run.along_of_forall fun _ c hc => h c hc
  refine @Run.along_of_invariant _ _ _ _ _ (fun s => Kept s ∧ OneUser user s) ?_ _ _
    ⟨kept_start, nofun⟩ hall
  intro s c hs hc
  have hclear : Clear lower s c := hs.2.clear hc
  exact ⟨⟨hs.1.call hclear, hs.2.call hs.1 hc⟩, hclear⟩

end OneUser

/-- A name that moves to other domains, and another one that comes and goes. -/
def sampleCalls : List Call :=
  [.register (plainRoute "p" "u") ["*.X.org", "x.org"], .register (plainRoute "q" "u") ["a.org"],
    .register (plainRoute "p" "u") ["*.y.org"], .unregister "q"]

theorem holds_last_registrations_sample :
    Exact (Run.run (call asciiLower) start sampleCalls) := by
  have hclear : Run.Along (call asciiLower) (Clear asciiLower) start sampleCalls := by
    apply @clear_of_oneUser "u"
    simp [sampleCalls, Call.OfUser, plainRoute]
  exact (holds_last_registrations hclear (prefix_refl _)).1

/-- A wildcard route that goes beside another bucket stays in the counter, and a name that
registers for another user keeps its old routes. -/
theorem registered_again_kept :
    ¬ Exact (Run.run (call asciiLower) start
      [.register (plainRoute "p" "u") ["*.x.org"], .register (plainRoute "q" "v") ["*.x.org"],
        .unregister "p"]) ∧
    ¬ Exact (Run.run (call asciiLower) start
      [.register (plainRoute "p" "u") ["a.org"], .register (plainRoute "p" "v") ["b.org"]]) := by
  constructor
  · intro h
    exact absurd h.count (by decide +kernel)
  · intro h
    obtain ⟨x, hx, _, _, hmem⟩ :=
      (h.routes "a.org" "u" (plainRoute "p" "u")).mp (by decide +kernel)
    have hlast : ((Run.run (call asciiLower) start
        [.register (plainRoute "p" "u") ["a.org"],
          .register (plainRoute "p" "v") ["b.org"]]).last
            (plainRoute "p" "u").proxyName).map MuxRegistration.domains = some ["b.org"] := by
      decide +kernel
    rw [hx, Option.map_some, Option.some_inj] at hlast
    rw [hlast] at hmem
    exact absurd hmem (by decide)

end TcpMuxTables
end Server
end FrpRs
