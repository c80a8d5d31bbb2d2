import FrpRs.Data.Run
import FrpRs.Server.RouteLookup
import FrpRs.Server.VhostRegistrations
import Mathlib.Algebra.BigOperators.Group.Finset.Piecewise
import Mathlib.Algebra.Order.BigOperators.Group.Finset

/-!
# Routing by virtual hosts

What a lookup in the vhost tables finds, after any calls that register and unregister
routes.  The best route is described by its place alone: the name it is stored under, its
bucket, and the longest of its locations that the path starts with.
-/

namespace FrpRs
namespace Server

open List

/-!
## The best route
-/

def VhostRoute.Serves (r : VhostRoute) (scheme : Scheme) (path loc : String) : Prop :=
  r.scheme = scheme ∧ loc ∈ effectiveLocations r.locations ∧ loc.toList <+: path.toList

def BestIn (rs : List VhostRoute) (scheme : Scheme) (path : String) (r : VhostRoute) : Prop :=
  r ∈ rs ∧ exists loc, r.Serves scheme path loc ∧
    forall r' loc', r' ∈ rs -> r'.Serves scheme path loc' -> loc'.length ≤ loc.length

def places (host httpUser : String) : List (String × String) :=
  (candidates host).flatMap fun domain => [(domain, httpUser), (domain, "")]

/-- The best route of the first bucket that has one. -/
def VhostTables.Best (t : VhostTables) (host path httpUser : String) (scheme : Scheme)
    (r : VhostRoute) : Prop :=
  exists before place after, places host httpUser = before ++ place :: after ∧
    (forall p r' loc, p ∈ before -> r' ∈ t.routesAt p.1 p.2 -> ¬ r'.Serves scheme path loc) ∧
    BestIn (t.routesAt place.1 place.2) scheme path r

/-!
## One list
-/

theorem hasPrefix_iff {path loc : String} :
    hasPrefix path loc = true ↔ loc.toList <+: path.toList :=
  isPrefixOf_iff_prefix

theorem lt_iff_length_of_prefix {text a b : List Char} (ha : a <+: text) (hb : b <+: text) :
    a < b ↔ a.length < b.length := by
  induction text generalizing a b with
  | nil =>
    rw [prefix_nil.mp ha, prefix_nil.mp hb]
    simp
  | cons c text ih =>
    cases a with
    | nil =>
      cases b with
      | nil => simp
      | cons d b => simp
    | cons d a =>
      cases b with
      | nil => simp
      | cons e b =>
        obtain ⟨hd, ha⟩ := cons_prefix_cons.mp ha
        obtain ⟨he, hb⟩ := cons_prefix_cons.mp hb
        rw [hd, he, cons_lt_cons_self, ih ha hb, length_cons, length_cons]
        omega

namespace VhostTables

def flattened (rs : List VhostRoute) (scheme : Scheme) : List (VhostRoute × String) :=
  (rs.filter fun r => r.scheme = scheme).flatMap fun r =>
    (VhostRoute.effectiveLocations r.locations).map fun loc => (r, loc)

def betterPair (path : String) (best : Option (VhostRoute × String))
    (pair : VhostRoute × String) : Option (VhostRoute × String) :=
  betterLocation path pair.1 best pair.2

theorem betterRoute_eq (path : String) (scheme : Scheme) (best : Option (VhostRoute × String))
    (route : VhostRoute) :
    betterRoute path scheme best route =
      (flattened [route] scheme).foldl (betterPair path) best := by
  unfold betterRoute flattened
  by_cases hscheme : route.scheme = scheme
  · rw [if_neg (not_not.mpr hscheme), filter_cons_of_pos (by simpa using hscheme),
      filter_nil, flatMap_singleton]
    unfold VhostRoute.effectiveLocations
    by_cases hempty : route.locations.isEmpty = true
    · rw [if_pos hempty, if_pos hempty]
      cases best with
      | none => rfl
      | some b =>
        have hnot : decide (b.2 < "") = false := by
          rw [decide_eq_false_iff_not, String.lt_iff_toList_lt]
          exact not_lt_nil _
        rw [map_singleton, foldl_cons, foldl_nil, betterPair, betterLocation,
          Option.all_some, hnot, Bool.and_false]
        rfl
    · rw [if_neg hempty, if_neg hempty, foldl_map]
      rfl
  · rw [if_pos hscheme, filter_cons_of_neg (by simpa using hscheme)]
    rfl

theorem foldl_betterRoute (path : String) (scheme : Scheme) (rs : List VhostRoute)
    (best : Option (VhostRoute × String)) :
    rs.foldl (betterRoute path scheme) best =
      (flattened rs scheme).foldl (betterPair path) best := by
  induction rs generalizing best with
  | nil =>
    rfl
  | cons r rs ih =>
    have hsplit : flattened (r :: rs) scheme = flattened [r] scheme ++ flattened rs scheme := by
      unfold flattened
      rw [← flatMap_append, ← filter_append]
      rfl
    rw [foldl_cons, ih, betterRoute_eq, hsplit, foldl_append]

def Leads (path : String) (seen : List (VhostRoute × String))
    (best : Option (VhostRoute × String)) : Prop :=
  (forall b, best = some b -> b ∈ seen ∧ hasPrefix path b.2 = true) ∧
  (forall p, p ∈ seen -> hasPrefix path p.2 = true ->
    exists b, best = some b ∧ p.2.length ≤ b.2.length)

variable {path : String}

theorem Leads.next {seen : List (VhostRoute × String)} {best : Option (VhostRoute × String)}
    (h : Leads path seen best) (pair : VhostRoute × String) :
    Leads path (seen ++ [pair]) (betterPair path best pair) := by
  unfold betterPair betterLocation
  split
  · rename_i hbetter
    rw [Bool.and_eq_true] at hbetter
    constructor
    · intro b hb
      cases hb
      exact ⟨mem_append_right seen mem_cons_self, hbetter.1⟩
    · intro p hp hbegins
      refine ⟨_, rfl, ?_⟩
      rcases mem_append.mp hp with hseen | hnew
      · obtain ⟨b, hb, hle⟩ := h.2 p hseen hbegins
        have hlt := hbetter.2
        rw [hb, Option.all_some, decide_eq_true_eq, String.lt_iff_toList_lt,
          lt_iff_length_of_prefix (hasPrefix_iff.mp (h.1 b hb).2)
            (hasPrefix_iff.mp hbetter.1)] at hlt
        exact Nat.le_trans hle (Nat.le_of_lt hlt)
      · rw [mem_singleton.mp hnew]
  · rename_i hworse
    constructor
    · intro b hb
      exact ⟨mem_append_left _ (h.1 b hb).1, (h.1 b hb).2⟩
    · intro p hp hbegins
      rcases mem_append.mp hp with hseen | hnew
      · exact h.2 p hseen hbegins
      · rw [mem_singleton.mp hnew] at hbegins ⊢
        cases best with
        | none => exact absurd (Bool.and_eq_true_iff.mpr ⟨hbegins, rfl⟩) hworse
        | some b =>
          refine ⟨b, rfl, ?_⟩
          apply Nat.le_of_not_lt
          intro hlt
          apply hworse
          rw [Bool.and_eq_true, Option.all_some, decide_eq_true_eq,
            String.lt_iff_toList_lt, lt_iff_length_of_prefix
              (hasPrefix_iff.mp (h.1 b rfl).2) (hasPrefix_iff.mp hbegins)]
          exact ⟨hbegins, hlt⟩

theorem Leads.fold {seen : List (VhostRoute × String)} {best : Option (VhostRoute × String)}
    (h : Leads path seen best) (pairs : List (VhostRoute × String)) :
    Leads path (seen ++ pairs) (pairs.foldl (betterPair path) best) := by
  induction pairs generalizing seen best with
  | nil =>
    rw [append_nil]
    exact h
  | cons pair pairs ih =>
    have hrest := ih (h.next pair)
    rw [append_assoc, singleton_append] at hrest
    exact hrest

variable {scheme : Scheme} {r : VhostRoute} {rs : List VhostRoute}

theorem mem_flattened {loc : String} :
    (r, loc) ∈ flattened rs scheme ↔
      r ∈ rs ∧ r.scheme = scheme ∧ loc ∈ VhostRoute.effectiveLocations r.locations := by
  unfold flattened
  simp [and_assoc]

theorem leads_flattened (rs : List VhostRoute) (path : String) (scheme : Scheme) :
    Leads path (flattened rs scheme) (rs.foldl (betterRoute path scheme) none) := by
  have hstart : Leads path [] none := by
    constructor
    · intro b hb
      cases hb
    · intro p hp
      cases hp
  rw [foldl_betterRoute]
  exact hstart.fold (flattened rs scheme)

def scan (rs : List VhostRoute) (path : String) (scheme : Scheme) : Option VhostRoute :=
  (rs.foldl (betterRoute path scheme) none).map Prod.fst

theorem findMatchingRoute_eq (rs : List VhostRoute) (path : String) (scheme : Scheme) :
    findMatchingRoute rs path scheme = (scan rs path scheme).map VhostRouteMatch.fromRoute := by
  rw [findMatchingRoute, scan, Option.map_map]
  rfl

theorem scan_best (h : scan rs path scheme = some r) : BestIn rs scheme path r := by
  obtain ⟨⟨r', loc⟩, hbest, heq⟩ := Option.map_eq_some_iff.mp h
  dsimp only at heq
  rw [heq] at hbest
  have hleads := leads_flattened rs path scheme
  obtain ⟨hmem, hbegins⟩ := hleads.1 _ hbest
  obtain ⟨hr, hscheme, hloc⟩ := mem_flattened.mp hmem
  refine ⟨hr, loc, ⟨hscheme, hloc, hasPrefix_iff.mp hbegins⟩, ?_⟩
  intro r'' loc' hr'' hserves
  obtain ⟨b, hb, hle⟩ := hleads.2 (r'', loc')
    (mem_flattened.mpr ⟨hr'', hserves.1, hserves.2.1⟩) (hasPrefix_iff.mpr hserves.2.2)
  rw [hbest] at hb
  cases hb
  exact hle

theorem scan_eq_none :
    scan rs path scheme = none ↔ forall r loc, r ∈ rs -> ¬ r.Serves scheme path loc := by
  constructor
  · intro h r loc hr hserves
    obtain ⟨b, hb, _⟩ := (leads_flattened rs path scheme).2 (r, loc)
      (mem_flattened.mpr ⟨hr, hserves.1, hserves.2.1⟩) (hasPrefix_iff.mpr hserves.2.2)
    rw [scan, hb] at h
    cases h
  · intro h
    cases hscan : scan rs path scheme with
    | none => rfl
    | some r =>
      obtain ⟨hr, loc, hserves, _⟩ := scan_best hscan
      exact absurd hserves (h r loc hr)

def Unshared (rs : List VhostRoute) : Prop :=
  forall r r' loc, r ∈ rs -> r' ∈ rs -> r.scheme = r'.scheme ->
    loc ∈ VhostRoute.effectiveLocations r.locations ->
    loc ∈ VhostRoute.effectiveLocations r'.locations -> r = r'

theorem BestIn.unique {r r' : VhostRoute} (hrs : Unshared rs) (h : BestIn rs scheme path r)
    (h' : BestIn rs scheme path r') : r = r' := by
  obtain ⟨hr, loc, hserves, hlongest⟩ := h
  obtain ⟨hr', loc', hserves', hlongest'⟩ := h'
  have hlength : loc.toList.length = loc'.toList.length :=
    Nat.le_antisymm (hlongest' r loc hr hserves) (hlongest r' loc' hr' hserves')
  have hloc : loc = loc' := by
    apply String.toList_injective
    exact List.IsPrefix.eq_of_length (prefix_of_prefix_length_le hserves.2.2 hserves'.2.2
      (Nat.le_of_eq hlength)) hlength
  rw [← hloc] at hserves'
  exact hrs r r' loc hr hr' (hserves.1.trans hserves'.1.symm) hserves.2.1 hserves'.2.1

theorem scan_eq_some (hrs : Unshared rs) :
    scan rs path scheme = some r ↔ BestIn rs scheme path r := by
  constructor
  · exact scan_best
  · intro h
    cases hscan : scan rs path scheme with
    | none =>
      obtain ⟨hr, loc, hserves, _⟩ := h
      exact absurd hserves (scan_eq_none.mp hscan r loc hr)
    | some r' => rw [BestIn.unique hrs h (scan_best hscan)]

/-!
## All places
-/

def lookupPlaces (t : VhostTables) (places : List (String × String)) (path : String)
    (scheme : Scheme) : Option VhostRoute :=
  places.findSome? fun p => scan (t.routesAt p.1 p.2) path scheme

variable {t : VhostTables}

theorem lookupPlaces_eq_some (ht : forall d u, Unshared (t.routesAt d u))
    {host path httpUser : String} :
    t.lookupPlaces (places host httpUser) path scheme = some r ↔
      t.Best host path httpUser scheme r := by
  unfold lookupPlaces Best
  rw [findSome?_eq_some_iff]
  constructor
  · rintro ⟨before, place, after, hplaces, hscan, hbefore⟩
    refine ⟨before, place, after, hplaces, ?_, scan_best hscan⟩
    intro p r' loc hp hr'
    exact scan_eq_none.mp (hbefore p hp) r' loc hr'
  · rintro ⟨before, place, after, hplaces, hbefore, hbest⟩
    refine ⟨before, place, after, hplaces, (scan_eq_some (ht _ _)).mpr hbest, ?_⟩
    intro p hp
    exact scan_eq_none.mpr fun r' loc hr' => hbefore p r' loc hp hr'

theorem lookupPlaces_cons (t : VhostTables) (place : String × String)
    (places : List (String × String)) (path : String) (scheme : Scheme) :
    t.lookupPlaces (place :: places) path scheme =
      (scan (t.routesAt place.1 place.2) path scheme).or (t.lookupPlaces places path scheme) := by
  unfold lookupPlaces
  rw [findSome?_cons]
  cases scan (t.routesAt place.1 place.2) path scheme with
  | none => rfl
  | some r => rfl

theorem lookupPlaces_append (t : VhostTables) (places places' : List (String × String))
    (path : String) (scheme : Scheme) :
    t.lookupPlaces (places ++ places') path scheme =
      (t.lookupPlaces places path scheme).or (t.lookupPlaces places' path scheme) :=
  findSome?_append

theorem bucket_scan {domain : String} {users : Table String (List VhostRoute)}
    (h : t.routes.lookup domain = some users) (user path : String) (scheme : Scheme) :
    ((users.lookup user).bind fun vrs => findMatchingRoute vrs path scheme) =
      (scan (t.routesAt domain user) path scheme).map VhostRouteMatch.fromRoute := by
  have hat : t.routesAt domain user = (users.lookup user).getD [] := by
    rw [routesAt, h, Option.bind_some]
  rw [hat]
  cases users.lookup user with
  | none => rfl
  | some vrs => exact findMatchingRoute_eq vrs path scheme

def buckets (httpUser domain : String) : List (String × String) :=
  [(domain, httpUser), (domain, "")]

theorem places_eq (host httpUser : String) :
    places host httpUser = buckets httpUser (asciiLower host) ++
      ((wildcardHosts (hostLabels (asciiLower host))).flatMap (buckets httpUser) ++
        buckets httpUser "*") := by
  rw [places, candidates, flatMap_cons, flatMap_append, flatMap_singleton]
  rfl

theorem getLocked_eq (lower : String -> String) (t : VhostTables) (path httpUser : String)
    (scheme : Scheme) (host : String) :
    t.getLocked lower path httpUser scheme host =
      (t.lookupPlaces (buckets httpUser (hostKey lower host)) path scheme).map
        VhostRouteMatch.fromRoute := by
  rw [getLocked, buckets, lookupPlaces_cons, lookupPlaces_cons, Option.map_or, Option.map_or]
  cases hdomain : t.routes.lookup (hostKey lower host) with
  | none =>
    have hat : forall user, t.routesAt (hostKey lower host) user = [] := by
      intro user
      rw [routesAt, hdomain]
      rfl
    rw [hat, hat]
    rfl
  | some users =>
    rw [Option.bind_some, bucket_scan hdomain, bucket_scan hdomain]
    congr 1
    exact (Option.or_none).symm

theorem findSome_getLocked (lower : String -> String) (t : VhostTables) (path httpUser : String)
    (scheme : Scheme) (hosts : List String) :
    hosts.findSome? (t.getLocked lower path httpUser scheme) =
      (t.lookupPlaces ((hosts.map (hostKey lower)).flatMap (buckets httpUser)) path scheme).map
        VhostRouteMatch.fromRoute := by
  induction hosts with
  | nil =>
    rfl
  | cons host hosts ih =>
    rw [map_cons, flatMap_cons, lookupPlaces_append, Option.map_or, ← ih,
      ← getLocked_eq, findSome?_cons]
    cases t.getLocked lower path httpUser scheme host with
    | none => rfl
    | some m => rfl

/-- The lookup without the early exit. -/
def lookupLabels (lower : String -> String) (t : VhostTables) (domain path httpUser : String)
    (scheme : Scheme) : Option VhostRouteMatch :=
  ((t.getLocked lower path httpUser scheme domain).or
    ((wildcardHosts (hostLabels domain)).findSome? (t.getLocked lower path httpUser scheme))).or
    (t.getLocked lower path httpUser scheme "*")

variable {lower : String -> String}

variable {host : String}

theorem lookupLabels_eq (hlower : LowersAscii lower) (t : VhostTables)
    (hascii : isAscii host = true) (path httpUser : String) (scheme : Scheme) :
    t.lookupLabels lower host path httpUser scheme =
      (t.lookupPlaces (places host httpUser) path scheme).map VhostRouteMatch.fromRoute := by
  rw [lookupLabels, findSome_getLocked, getLocked_eq, getLocked_eq, hostKey_star,
    hostKey_eq hlower hascii, hostKey_wildcardHosts hlower hascii, places_eq, lookupPlaces_append,
    lookupPlaces_append, Option.map_or, Option.map_or, Option.or_assoc]

/-!
## What every call keeps
-/

def starred (place : String × String) : Bool :=
  place.1.startsWith "*"

/-- No bucket has two routes for one location, every record names a stored route, and the
routes under starred domains are counted. -/
structure Sound (t : VhostTables) : Prop where
  unshared : forall d u, Unshared (t.routesAt d u)
  recorded : forall n entries, t.byProxy.lookup n = some entries -> entries.Nodup ∧
    forall e, e ∈ entries -> exists r, r ∈ t.routesAt e.1 e.2 ∧ r.proxyName = n
  counted : forall s : Finset (String × String), (forall p, p ∈ s -> starred p = true) ->
    (s.sum fun p => (t.routesAt p.1 p.2).length) ≤ t.wildcardCount

theorem sound_new : new.Sound where
  unshared d u r r' loc hr := by cases hr
  recorded n entries h := by cases h
  counted s _ := by
    rw [Finset.sum_eq_zero]
    · exact Nat.le_refl 0
    · intro p _
      rfl

theorem covers_iff {loc : String} :
    r.covers loc = true ↔ loc ∈ VhostRoute.effectiveLocations r.locations := by
  unfold VhostRoute.covers VhostRoute.effectiveLocations
  cases r.locations with
  | nil => simp
  | cons l ls => simp

variable {domains : List String} {route : VhostRoute}

theorem not_served_of_conflict (h : t.conflict route domains = none) {d loc : String}
    (hd : d ∈ domains) (hr : r ∈ t.routesAt d route.routeByHttpUser)
    (hscheme : r.scheme = route.scheme) (hloc : loc ∈ VhostRoute.effectiveLocations route.locations) :
    loc ∉ VhostRoute.effectiveLocations r.locations := by
  intro hshared
  have hnone := findSome?_eq_none_iff.mp (findSome?_eq_none_iff.mp h d hd) loc hloc
  have hfound := find?_eq_none.mp (Option.map_eq_none_iff.mp hnone) r hr
  apply hfound
  rw [Bool.and_eq_true, decide_eq_true_eq]
  exact ⟨hscheme, covers_iff.mpr hshared⟩

theorem wildcardCount_addRoutes (route : VhostRoute) (domains : List String) (t : VhostTables) :
    (domains.foldl (addRoute route) t).wildcardCount = t.wildcardCount := by
  induction domains generalizing t with
  | nil =>
    rfl
  | cons d ds ih =>
    rw [foldl_cons, ih]
    rfl

theorem wildcardCount_sortRoutes (user : String) (domains : List String) (t : VhostTables) :
    (domains.foldl (sortRoutes user) t).wildcardCount = t.wildcardCount := by
  induction domains generalizing t with
  | nil =>
    rfl
  | cons d ds ih =>
    rw [foldl_cons, ih]
    rfl

theorem register_accepts {t t' : VhostTables} (h : t.register lower route domains = .ok t') :
    t.conflict route (storedDomains lower domains) = none ∧
    t'.wildcardCount = t.wildcardCount + wildcards (storedDomains lower domains) := by
  unfold register at h
  dsimp only at h
  split at h
  · cases h
  · rename_i hnone
    refine ⟨(Option.or_eq_none_iff.mp hnone).1, ?_⟩
    split at h
    · cases h
      rw [wildcardCount_sortRoutes, wildcardCount_addRoutes]
    · cases h
      rw [wildcardCount_sortRoutes, wildcardCount_addRoutes]

theorem card_places_le {s : Finset (String × String)} (hs : forall p, p ∈ s -> starred p = true)
    (domains : List String) (user : String) :
    (s.filter fun p => p.1 ∈ domains ∧ p.2 = user).card ≤ wildcards domains := by
  have hcard : (s.filter fun p => p.1 ∈ domains ∧ p.2 = user).card ≤
      (domains.filter fun d => d.startsWith "*").toFinset.card := by
    apply Finset.card_le_card_of_injOn Prod.fst
    · intro p hp
      obtain ⟨hmem, hdomain, _⟩ := Finset.mem_filter.mp hp
      rw [Finset.mem_coe, mem_toFinset, mem_filter]
      exact ⟨hdomain, hs p hmem⟩
    · intro p hp q hq heq
      have hp := (Finset.mem_filter.mp hp).2.2
      have hq := (Finset.mem_filter.mp hq).2.2
      exact Prod.ext heq (hp.trans hq.symm)
  rw [wildcards, countP_eq_length_filter]
  exact Nat.le_trans hcard (toFinset_card_le _)

theorem Sound.register {t t' : VhostTables} (h : t.Sound)
    (hok : t.register lower route domains = .ok t') :
    t'.Sound := by
  obtain ⟨hnodup, hroutes, hbyProxy⟩ := register_ok hok
  obtain ⟨hconflict, hcount⟩ := register_accepts hok
  constructor
  · intro d u r r' loc hr hr' hscheme hloc hloc'
    rw [(hroutes d u).mem_iff] at hr hr'
    split at hr
    · rename_i hat
      rw [if_pos hat] at hr'
      rw [mem_append, mem_singleton] at hr hr'
      rw [hat.2] at hr hr'
      rcases hr with hr | hr
      · rcases hr' with hr' | hr'
        · exact h.unshared d _ r r' loc hr hr' hscheme hloc hloc'
        · rw [hr'] at hscheme hloc'
          exact absurd hloc (not_served_of_conflict hconflict hat.1 hr hscheme hloc')
      · rcases hr' with hr' | hr'
        · rw [hr] at hscheme hloc
          exact absurd hloc' (not_served_of_conflict hconflict hat.1 hr' hscheme.symm hloc)
        · rw [hr, hr']
    · rename_i hat
      rw [if_neg hat] at hr'
      exact h.unshared d u r r' loc hr hr' hscheme hloc hloc'
  · intro n entries hentries
    have hkept : forall e, t.byProxy.lookup n = some e -> e.Nodup ∧
        forall x, x ∈ e -> exists r, r ∈ t'.routesAt x.1 x.2 ∧ r.proxyName = n := by
      intro e he
      obtain ⟨hnodup, hstored⟩ := h.recorded n e he
      refine ⟨hnodup, ?_⟩
      intro x hx
      obtain ⟨r, hr, hname⟩ := hstored x hx
      refine ⟨r, ?_, hname⟩
      rw [(hroutes x.1 x.2).mem_iff]
      split
      · exact mem_append_left _ hr
      · exact hr
    rw [hbyProxy] at hentries
    split at hentries
    · exact hkept entries hentries
    · rw [Table.lookup_insert_eq] at hentries
      split at hentries
      · rename_i hn
        cases hentries
        constructor
        · apply hnodup.map
          intro a b hab
          exact congrArg Prod.fst hab
        · intro e he
          obtain ⟨d, hd, rfl⟩ := mem_map.mp he
          refine ⟨route, ?_, hn.symm⟩
          rw [(hroutes _ _).mem_iff, if_pos ⟨hd, rfl⟩]
          exact mem_append_right _ mem_cons_self
      · exact hkept entries hentries
  · intro s hs
    have hlength : forall p : String × String, (t'.routesAt p.1 p.2).length =
        (t.routesAt p.1 p.2).length +
          if p.1 ∈ storedDomains lower domains ∧ p.2 = route.routeByHttpUser then 1 else 0 := by
      intro p
      rw [(hroutes p.1 p.2).length_eq]
      split
      · rw [length_append, length_singleton]
      · rfl
    rw [Finset.sum_congr rfl fun p _ => hlength p, Finset.sum_add_distrib, hcount,
      ← Finset.card_filter]
    exact Nat.add_le_add (h.counted s hs) (card_places_le hs _ _)

theorem wildcardCount_dropRoutes (name : String) (entries : List (String × String))
    (t : VhostTables) : (entries.foldl (dropRoutes name) t).wildcardCount = t.wildcardCount := by
  induction entries generalizing t with
  | nil =>
    rfl
  | cons e es ih =>
    rw [foldl_cons, ih]
    unfold dropRoutes
    split
    · rfl
    · rfl

variable {entries : List (String × String)}

variable {name : String}

theorem unregister_some (h : t.byProxy.lookup name = some entries) :
    (forall d u, (t.unregister name).routesAt d u =
      if (d, u) ∈ entries then (t.routesAt d u).filter fun r => r.proxyName ≠ name
      else t.routesAt d u) ∧
    (t.unregister name).byProxy = t.byProxy.erase name ∧
    (t.unregister name).wildcardCount =
      t.wildcardCount - wildcards (entries.map Prod.fst) := by
  unfold unregister
  rw [h]
  refine ⟨?_, byProxy_dropRoutes _ _ _, wildcardCount_dropRoutes _ _ _⟩
  intro d u
  rw [routesAt_dropAll]
  rfl

theorem unregister_none (h : t.byProxy.lookup name = none) :
    t.unregister name = t := by
  unfold unregister
  rw [h]

theorem routesAt_unregister (h : forall d u r, r ∈ t.routesAt d u ->
      exists es, t.byProxy.lookup r.proxyName = some es ∧ (d, u) ∈ es) (name d u : String) :
    (t.unregister name).routesAt d u =
      (t.routesAt d u).filter fun r => r.proxyName ≠ name := by
  have hkept : (exists es, t.byProxy.lookup name = some es ∧ (d, u) ∈ es) ∨
      (t.routesAt d u).filter (fun r => r.proxyName ≠ name) = t.routesAt d u := by
    by_cases hheld : exists r, r ∈ t.routesAt d u ∧ r.proxyName = name
    · obtain ⟨r, hr, hname⟩ := hheld
      have hrecorded := h d u r hr
      rw [hname] at hrecorded
      exact .inl hrecorded
    · right
      rw [filter_eq_self]
      intro r hr
      apply decide_eq_true
      intro hname
      exact hheld ⟨r, hr, hname⟩
  cases hname : t.byProxy.lookup name with
  | none =>
    rw [unregister_none hname]
    rcases hkept with ⟨es, hes, _⟩ | hkept
    · rw [hname] at hes
      cases hes
    · exact hkept.symm
  | some entries =>
    rw [(unregister_some hname).1]
    split
    · rfl
    · rename_i hout
      rcases hkept with ⟨es, hes, hmem⟩ | hkept
      · rw [hname] at hes
        cases hes
        exact absurd hmem hout
      · exact hkept.symm

theorem byProxy_unregister (t : VhostTables) (name n : String) :
    (t.unregister name).byProxy.lookup n = if n = name then none else t.byProxy.lookup n := by
  cases hname : t.byProxy.lookup name with
  | none =>
    rw [unregister_none hname]
    split
    · rename_i hn
      rw [hn, hname]
    · rfl
  | some entries => rw [(unregister_some hname).2.1, Table.lookup_erase_eq]

theorem card_starred (h : entries.Nodup) :
    (entries.filter starred).toFinset.card = wildcards (entries.map Prod.fst) := by
  rw [toFinset_card_of_nodup (h.filter _), wildcards, countP_map,
    countP_eq_length_filter]
  rfl

/-- The routes left and the records of the name are counted apart. -/
theorem Sound.spare (h : t.Sound) (hentries : t.byProxy.lookup name = some entries)
    {s : Finset (String × String)} (hs : forall p, p ∈ s -> starred p = true) :
    (s.sum fun p => ((t.unregister name).routesAt p.1 p.2).length) +
      wildcards (entries.map Prod.fst) ≤ t.wildcardCount := by
  obtain ⟨hnodup, hstored⟩ := h.recorded name entries hentries
  obtain ⟨hroutes, _, _⟩ := unregister_some hentries
  have hall : forall p, p ∈ s ∪ (entries.filter starred).toFinset -> starred p = true := by
    intro p hp
    rcases Finset.mem_union.mp hp with hp | hp
    · exact hs p hp
    · exact (mem_filter.mp (mem_toFinset.mp hp)).2
  have hdrop : forall p, p ∈ s ∪ (entries.filter starred).toFinset ->
      ((t.unregister name).routesAt p.1 p.2).length + (if p ∈ entries then 1 else 0) ≤
        (t.routesAt p.1 p.2).length := by
    intro p _
    rw [hroutes]
    split
    · rename_i hmem
      obtain ⟨r, hr, hname⟩ := hstored p hmem
      apply Nat.succ_le_of_lt
      apply Nat.lt_of_le_of_ne (length_filter_le _ _)
      intro heq
      have hkept := length_filter_eq_length_iff.mp heq r hr
      rw [decide_eq_true_eq] at hkept
      exact hkept hname
    · exact Nat.le_refl _
  have hcard : wildcards (entries.map Prod.fst) ≤
      (s ∪ (entries.filter starred).toFinset).sum fun p => if p ∈ entries then 1 else 0 := by
    rw [← Finset.card_filter, ← card_starred hnodup]
    apply Finset.card_le_card
    intro p hp
    rw [Finset.mem_filter]
    exact ⟨Finset.mem_union_right s hp, (mem_filter.mp (mem_toFinset.mp hp)).1⟩
  calc (s.sum fun p => ((t.unregister name).routesAt p.1 p.2).length) +
        wildcards (entries.map Prod.fst)
      ≤ ((s ∪ (entries.filter starred).toFinset).sum fun p =>
          ((t.unregister name).routesAt p.1 p.2).length) +
        (s ∪ (entries.filter starred).toFinset).sum fun p => if p ∈ entries then 1 else 0 :=
          Nat.add_le_add (Finset.sum_le_sum_of_subset Finset.subset_union_left) hcard
    _ ≤ (s ∪ (entries.filter starred).toFinset).sum fun p => (t.routesAt p.1 p.2).length := by
          rw [← Finset.sum_add_distrib]
          exact Finset.sum_le_sum hdrop
    _ ≤ t.wildcardCount := h.counted _ hall

theorem Sound.wildcards_le (h : t.Sound) (hentries : t.byProxy.lookup name = some entries) :
    wildcards (entries.map Prod.fst) ≤ t.wildcardCount := by
  have hspare := h.spare hentries (s := ∅) fun p hp => absurd hp (Finset.notMem_empty p)
  rw [Finset.sum_empty, Nat.zero_add] at hspare
  exact hspare

theorem Sound.unregister (h : t.Sound) (name : String) :
    (t.unregister name).Sound := by
  cases hname : t.byProxy.lookup name with
  | none =>
    rw [unregister_none hname]
    exact h
  | some entries =>
    obtain ⟨hroutes, hbyProxy, hcount⟩ := unregister_some hname
    have hsub : forall d u r, r ∈ (t.unregister name).routesAt d u -> r ∈ t.routesAt d u := by
      intro d u r hr
      rw [hroutes] at hr
      split at hr
      · exact mem_of_mem_filter hr
      · exact hr
    constructor
    · intro d u r r' loc hr hr'
      exact h.unshared d u r r' loc (hsub d u r hr) (hsub d u r' hr')
    · intro n es hes
      rw [hbyProxy, Table.lookup_erase_eq] at hes
      split at hes
      · cases hes
      · rename_i hn
        obtain ⟨hnodup, hstored⟩ := h.recorded n es hes
        refine ⟨hnodup, ?_⟩
        intro e he
        obtain ⟨r, hr, hrn⟩ := hstored e he
        refine ⟨r, ?_, hrn⟩
        rw [hroutes]
        split
        · rw [mem_filter, decide_eq_true_eq, hrn]
          exact ⟨hr, hn⟩
        · exact hr
    · intro s hs
      rw [hcount]
      exact Nat.le_sub_of_add_le (h.spare hname hs)

theorem Sound.routesAt_starred (h : t.Sound) (hcount : t.wildcardCount = 0)
    {place : String × String} (hplace : starred place = true) :
    t.routesAt place.1 place.2 = [] := by
  have hsum := h.counted {place} (fun p hp => by rw [Finset.mem_singleton.mp hp, hplace])
  rw [Finset.sum_singleton, hcount] at hsum
  exact length_eq_zero_iff.mp (Nat.le_zero.mp hsum)

theorem starred_wildcardHosts {parts : List (List Char)} (h : host ∈ wildcardHosts parts) :
    host.startsWith "*" = true := by
  have hdotted := startsWith_wildcardHosts h
  rw [String.startsWith_string_iff] at hdotted ⊢
  exact List.IsPrefix.trans ⟨['.'], rfl⟩ hdotted

theorem lookupPlaces_starred (h : t.Sound) (hcount : t.wildcardCount = 0)
    {places : List (String × String)} (hplaces : forall p, p ∈ places -> starred p = true)
    (path : String) (scheme : Scheme) : t.lookupPlaces places path scheme = none := by
  unfold lookupPlaces
  rw [findSome?_eq_none_iff]
  intro p hp
  rw [h.routesAt_starred hcount (hplaces p hp)]
  rfl

theorem Sound.lookupWildcard_eq (hlower : LowersAscii lower) (h : t.Sound)
    (hascii : isAscii host = true) (path httpUser : String) (scheme : Scheme) :
    t.lookupWildcard lower host path httpUser scheme =
      t.lookupLabels lower host path httpUser scheme := by
  unfold lookupWildcard
  split
  · rename_i hcount
    have hbuckets : forall domain, domain.startsWith "*" = true -> forall p,
        p ∈ buckets httpUser domain -> starred p = true := by
      intro domain hdomain p hp
      rcases mem_cons.mp hp with heq | hp
      · rw [heq]
        exact hdomain
      · rw [mem_singleton.mp hp]
        exact hdomain
    have hwild : t.lookupPlaces ((wildcardHosts (hostLabels (asciiLower host))).flatMap
        (buckets httpUser)) path scheme = none := by
      apply lookupPlaces_starred h hcount
      intro p hp
      obtain ⟨domain, hdomain, hp⟩ := mem_flatMap.mp hp
      exact hbuckets domain (starred_wildcardHosts hdomain) p hp
    have hstar : t.lookupPlaces (buckets httpUser "*") path scheme = none :=
      lookupPlaces_starred h hcount
        (hbuckets "*" (String.startsWith_string_iff.mpr (prefix_refl _))) path scheme
    rw [lookupLabels, findSome_getLocked, getLocked_eq, getLocked_eq, hostKey_star,
      hostKey_wildcardHosts hlower hascii, hwild, hstar, Option.map_none, Option.or_none,
      Option.or_none]
  · rfl

theorem Sound.lookupWildcard_eq_some (hlower : LowersAscii lower) (h : t.Sound)
    (hascii : isAscii host = true) (path httpUser : String) (scheme : Scheme) (m : VhostRouteMatch) :
    t.lookupWildcard lower host path httpUser scheme = some m ↔
      exists r, t.Best host path httpUser scheme r ∧ m = VhostRouteMatch.fromRoute r := by
  rw [h.lookupWildcard_eq hlower hascii, lookupLabels_eq hlower t hascii, Option.map_eq_some_iff]
  constructor
  · rintro ⟨r, hr, hm⟩
    exact ⟨r, (lookupPlaces_eq_some h.unshared).mp hr, hm.symm⟩
  · rintro ⟨r, hr, hm⟩
    exact ⟨r, (lookupPlaces_eq_some h.unshared).mpr hr, hm.symm⟩

/-!
## Calls
-/

inductive Call where
  | register (route : VhostRoute) (domains : List String)
  | unregister (name : String)

def call (lower : String -> String) (t : VhostTables) : Call -> VhostTables
  | .register route domains =>
    match t.register lower route domains with
    | .ok t' => t'
    | .error _ => t
  | .unregister name => t.unregister name

theorem Sound.call {t : VhostTables} (h : t.Sound) (lower : String -> String) (c : Call) :
    (t.call lower c).Sound := by
  cases c with
  | register route domains =>
    unfold VhostTables.call
    dsimp only
    split
    · rename_i t' hresult
      exact h.register hresult
    · exact h
  | unregister name => exact h.unregister name

theorem sound_run (lower : String -> String) (calls : List Call) :
    (Run.run (call lower) new calls).Sound :=
  Run.run_preserves (fun _ c h => h.call lower c) calls sound_new

theorem Best.congr {t t' : VhostTables} (h : forall d u r, r ∈ t.routesAt d u ↔ r ∈ t'.routesAt d u)
    {host path httpUser : String} (hbest : t.Best host path httpUser scheme r) :
    t'.Best host path httpUser scheme r := by
  obtain ⟨before, place, after, hplaces, hbefore, hr, loc, hserves, hlongest⟩ := hbest
  refine ⟨before, place, after, hplaces, ?_, (h _ _ r).mp hr, loc, hserves, ?_⟩
  · intro p r' loc' hp hr'
    exact hbefore p r' loc' hp ((h _ _ r').mpr hr')
  · intro r' loc' hr'
    exact hlongest r' loc' ((h _ _ r').mpr hr')

theorem Sound.lookupWildcard_congr (hlower : LowersAscii lower) {t t' : VhostTables} (ht : t.Sound)
    (ht' : t'.Sound) (h : forall d u r, r ∈ t.routesAt d u ↔ r ∈ t'.routesAt d u)
    (hascii : isAscii host = true) (path httpUser : String) (scheme : Scheme) :
    t.lookupWildcard lower host path httpUser scheme =
      t'.lookupWildcard lower host path httpUser scheme := by
  apply Option.ext
  intro m
  rw [ht.lookupWildcard_eq_some hlower hascii, ht'.lookupWildcard_eq_some hlower hascii]
  constructor
  · rintro ⟨r, hr, hm⟩
    exact ⟨r, hr.congr h, hm⟩
  · rintro ⟨r, hr, hm⟩
    exact ⟨r, hr.congr fun d u r => (h d u r).symm, hm⟩

def Accepts (lower : String -> String) :
    VhostTables -> List (VhostRoute × List String) -> Prop
  | _, [] => True
  | t, x :: xs => exists t', t.register lower x.1 x.2 = .ok t' ∧ Accepts lower t' xs

def registrations (xs : List (VhostRoute × List String)) : List Call :=
  xs.map fun x => .register x.1 x.2

/-- Accepted registrations leave what was there and add their routes. -/
theorem mem_routesAt_registrations {xs : List (VhostRoute × List String)} (h : Accepts lower t xs)
    (d u : String) (r : VhostRoute) :
    r ∈ (Run.run (call lower) t (registrations xs)).routesAt d u ↔
      r ∈ t.routesAt d u ∨ exists x, x ∈ xs ∧ x.1 = r ∧ d ∈ storedDomains lower x.2 ∧
        u = r.routeByHttpUser := by
  induction xs generalizing t with
  | nil =>
    simp [registrations]
  | cons x xs ih =>
    obtain ⟨t', hok, hrest⟩ := h
    have hcall : t.call lower (.register x.1 x.2) = t' := by
      unfold call
      dsimp only
      rw [hok]
    have hmem : r ∈ t'.routesAt d u ↔ r ∈ t.routesAt d u ∨
        (x.1 = r ∧ d ∈ storedDomains lower x.2 ∧ u = r.routeByHttpUser) := by
      rw [((register_ok hok).2.1 d u).mem_iff]
      split
      · rename_i hat
        rw [mem_append, mem_singleton]
        constructor
        · rintro (hr | hr)
          · exact .inl hr
          · exact .inr ⟨hr.symm, hat.1, hr ▸ hat.2⟩
        · rintro (hr | hr)
          · exact .inl hr
          · exact .inr hr.1.symm
      · rename_i hat
        constructor
        · exact .inl
        · rintro (hr | ⟨rfl, hd, hu⟩)
          · exact hr
          · exact absurd ⟨hd, hu⟩ hat
    rw [registrations, map_cons, Run.run_cons, hcall]
    rw [registrations] at ih
    rw [ih hrest, hmem]
    simp only [mem_cons, exists_eq_or_imp, or_assoc]

def after (lower : String -> String) (calls : List Call) : VhostTables :=
  Run.run (call lower) new calls

/-- A lookup answers with the best route of those held. -/
theorem lookup_is_best {lower : String -> String} (hlower : LowersAscii lower)
    (calls : List Call) :
    (forall host path httpUser scheme, isAscii host = true ->
      (forall m, (after lower calls).lookupWildcard lower host path httpUser scheme = some m ↔
        exists r, (after lower calls).Best host path httpUser scheme r ∧
          m = VhostRouteMatch.fromRoute r) ∧
      (forall r r', (after lower calls).Best host path httpUser scheme r ->
        (after lower calls).Best host path httpUser scheme r' -> r = r') ∧
      (forall calls', (forall d u r, r ∈ (after lower calls).routesAt d u ↔
          r ∈ (after lower calls').routesAt d u) ->
        (after lower calls).lookupWildcard lower host path httpUser scheme =
          (after lower calls').lookupWildcard lower host path httpUser scheme) ∧
      (forall xs ys, calls = registrations xs -> xs.Perm ys -> Accepts lower new xs ->
        Accepts lower new ys ->
        (after lower calls).lookupWildcard lower host path httpUser scheme =
          (after lower (registrations ys)).lookupWildcard lower host path httpUser scheme) ∧
      (after lower calls).lookupWildcard lower host path httpUser scheme =
        (after lower calls).lookupLabels lower host path httpUser scheme ∧
      (forall route domains c, (after lower calls).register lower route domains = .error c ->
        (after lower (calls ++ [.register route domains])).lookupWildcard lower host path
            httpUser scheme =
          (after lower calls).lookupWildcard lower host path httpUser scheme)) ∧
    (forall name entries, (after lower calls).byProxy.lookup name = some entries ->
      wildcards (entries.map Prod.fst) ≤ (after lower calls).wildcardCount) := by
  have hsound := sound_run lower calls
  constructor
  · intro host path httpUser scheme hascii
    refine ⟨?_, ?_, ?_, ?_, ?_, ?_⟩
    · exact hsound.lookupWildcard_eq_some hlower hascii path httpUser scheme
    · intro r r' hr hr'
      have hfound := (lookupPlaces_eq_some hsound.unshared).mpr hr
      rw [(lookupPlaces_eq_some hsound.unshared).mpr hr'] at hfound
      cases hfound
      rfl
    · intro calls' hsame
      exact hsound.lookupWildcard_congr hlower (sound_run lower calls') hsame hascii path
        httpUser scheme
    · intro xs ys hcalls hperm hxs hys
      apply hsound.lookupWildcard_congr hlower (sound_run lower _) ?_ hascii
      intro d u r
      rw [hcalls, mem_routesAt_registrations hxs, mem_routesAt_registrations hys]
      simp only [hperm.mem_iff]
    · exact hsound.lookupWildcard_eq hlower hascii path httpUser scheme
    · intro route domains c hrejected
      rw [after, Run.run_append, Run.run_cons, Run.run_nil, call]
      rw [after] at hrejected
      rw [hrejected]
      rfl
  · intro name entries h
    exact hsound.wildcards_le h

def plainRoute (name : String) (locations : List String) : VhostRoute :=
  ⟨name, "run", .http, "", locations, "", "", "", "", []⟩

theorem lookup_is_best_sample :
    exists r, (after asciiLower [.register (plainRoute "p" ["/a", "/"]) ["*.Y.org"],
      .register (plainRoute "q" ["/ab"]) ["*.y.org"], .unregister "none"]).Best "X.y.org" "/abc" "u"
        .http r ∧ VhostRouteMatch.fromRoute (plainRoute "q" ["/ab"]) =
          VhostRouteMatch.fromRoute r :=
  (((lookup_is_best (fun _ _ => rfl) _).1 "X.y.org" "/abc" "u" .http (by decide)).1
    (VhostRouteMatch.fromRoute (plainRoute "q" ["/ab"]))).mp (by decide +kernel)

end VhostTables
end Server
end FrpRs
