import FrpRs.Server.RouteTables
import Mathlib.Logic.Function.Basic

/-!
# Registrations of vhost routes

What `register` adds to the vhost tables and what `unregister` takes away.
-/

namespace FrpRs
namespace Server

open List

theorem firstRepeated_eq_none {α : Type} [DecidableEq α] {seen xs : List α}
    (h : firstRepeated seen xs = none) : xs.Nodup ∧ forall x, x ∈ xs -> x ∉ seen := by
  induction xs generalizing seen with
  | nil => exact ⟨nodup_nil, fun x hx => absurd hx not_mem_nil⟩
  | cons x xs ih =>
    unfold firstRepeated at h
    split at h
    · cases h
    · rename_i hx
      obtain ⟨hnodup, hseen⟩ := ih h
      refine ⟨?_, ?_⟩
      · rw [nodup_cons]
        refine ⟨?_, hnodup⟩
        intro hmem
        exact hseen x hmem mem_cons_self
      · intro y hy
        rcases mem_cons.mp hy with heq | hmem
        · rw [heq]
          exact hx
        · intro hyseen
          exact hseen y hmem (mem_cons_of_mem x hyseen)

theorem firstRepeated_of_nodup {α : Type} [DecidableEq α] {seen xs : List α} (h : xs.Nodup)
    (hseen : forall x, x ∈ xs -> x ∉ seen) : firstRepeated seen xs = none := by
  induction xs generalizing seen with
  | nil => rfl
  | cons x xs ih =>
    obtain ⟨hx, hxs⟩ := nodup_cons.mp h
    unfold firstRepeated
    rw [if_neg (hseen x mem_cons_self)]
    apply ih hxs
    intro y hy hmem
    rcases mem_cons.mp hmem with heq | hmem
    · rw [heq] at hy
      exact hx hy
    · exact hseen y (mem_cons_of_mem x hy) hmem

namespace VhostTables

/-!
## Registering
-/

theorem routesAt_setRoutes (t : VhostTables) (domain user : String) (rs : List VhostRoute)
    (d u : String) :
    (t.setRoutes domain user rs).routesAt d u =
      if d = domain ∧ u = user then rs else t.routesAt d u := by
  unfold setRoutes routesAt
  rw [Table.lookup_insert_eq]
  by_cases hd : d = domain
  · subst hd
    rw [if_pos rfl, Option.bind_some, Table.lookup_insert_eq]
    by_cases hu : u = user
    · rw [if_pos hu, if_pos ⟨rfl, hu⟩]
      rfl
    · rw [if_neg hu, if_neg fun h => hu h.2]
      cases t.routes.lookup d with
      | none => rfl
      | some users => rfl
  · rw [if_neg hd, if_neg fun h => hd h.1]

theorem routesAt_addRoutes (route : VhostRoute) (domains : List String) (t : VhostTables)
    (hnodup : domains.Nodup) (d u : String) :
    (domains.foldl (addRoute route) t).routesAt d u =
      if d ∈ domains ∧ u = route.routeByHttpUser then t.routesAt d u ++ [route]
      else t.routesAt d u := by
  induction domains generalizing t with
  | nil => rw [foldl_nil, if_neg fun h => absurd h.1 not_mem_nil]
  | cons x xs ih =>
    obtain ⟨hx, hxs⟩ := nodup_cons.mp hnodup
    rw [foldl_cons, ih _ hxs, addRoute, routesAt_setRoutes]
    by_cases hu : u = route.routeByHttpUser
    · by_cases hd : d = x
      · subst hd
        simp [hx, hu]
      · simp [hd, hu]
    · simp [hu]

theorem routesAt_sortRoutes (user : String) (domains : List String) (t : VhostTables)
    (d u : String) :
    ((domains.foldl (sortRoutes user) t).routesAt d u).Perm (t.routesAt d u) := by
  induction domains generalizing t with
  | nil => exact List.Perm.refl _
  | cons x xs ih =>
    apply (ih (t.sortRoutes user x)).trans
    rw [sortRoutes, routesAt_setRoutes]
    split
    · rename_i h
      rw [h.1, h.2]
      exact perm_insertionSort _ _
    · exact List.Perm.refl _

theorem byProxy_addRoutes (route : VhostRoute) (domains : List String) (t : VhostTables) :
    (domains.foldl (addRoute route) t).byProxy = t.byProxy := by
  induction domains generalizing t with
  | nil => rfl
  | cons x xs ih =>
    rw [foldl_cons, ih]
    rfl

theorem byProxy_sortRoutes (user : String) (domains : List String) (t : VhostTables) :
    (domains.foldl (sortRoutes user) t).byProxy = t.byProxy := by
  induction domains generalizing t with
  | nil => rfl
  | cons x xs ih =>
    rw [foldl_cons, ih]
    rfl

variable {domains : List String}

theorem nodup_of_selfConflict {route : VhostRoute} (h : selfConflict route domains = none) :
    domains.Nodup := by
  have hnodup := (firstRepeated_eq_none (Option.map_eq_none_iff.mp h)).1
  obtain ⟨loc, hloc⟩ : exists loc, loc ∈ VhostRoute.effectiveLocations route.locations := by
    cases hlocations : route.locations with
    | nil => exact ⟨"", mem_singleton.mpr rfl⟩
    | cons l ls => exact ⟨l, mem_cons_self⟩
  clear h
  induction domains with
  | nil => exact nodup_nil
  | cons d ds ih =>
    rw [flatMap_cons, nodup_append] at hnodup
    obtain ⟨_, hrest, hdisjoint⟩ := hnodup
    rw [nodup_cons]
    refine ⟨?_, ih hrest⟩
    intro hmem
    have hhead : (d, loc) ∈ (VhostRoute.effectiveLocations route.locations).map
        fun loc => (d, loc) := mem_map_of_mem hloc
    exact hdisjoint (d, loc) hhead (d, loc) (mem_flatMap.mpr ⟨d, hmem, hhead⟩) rfl

theorem register_ok {lower : String -> String} {t t' : VhostTables} {route : VhostRoute}
    (h : t.register lower route domains = .ok t') :
    (storedDomains lower domains).Nodup ∧
    (forall d u, (t'.routesAt d u).Perm
      (if d ∈ storedDomains lower domains ∧ u = route.routeByHttpUser then
        t.routesAt d u ++ [route] else t.routesAt d u)) ∧
    t'.byProxy = if storedDomains lower domains = [] then t.byProxy
      else t.byProxy.insert route.proxyName
        ((storedDomains lower domains).map fun d => (d, route.routeByHttpUser)) := by
  unfold register at h
  dsimp only at h
  split at h
  · cases h
  · rename_i hnone
    have hnodup := nodup_of_selfConflict (Option.or_eq_none_iff.mp hnone).2
    have hroutes : forall d u, (((storedDomains lower domains).foldl
        (sortRoutes route.routeByHttpUser) ((storedDomains lower domains).foldl (addRoute route)
          { t with wildcardCount :=
              t.wildcardCount + wildcards (storedDomains lower domains) })).routesAt d u).Perm
        (if d ∈ storedDomains lower domains ∧ u = route.routeByHttpUser then
          t.routesAt d u ++ [route] else t.routesAt d u) := by
      intro d u
      apply (routesAt_sortRoutes _ _ _ d u).trans
      rw [routesAt_addRoutes route _ _ hnodup]
      exact List.Perm.refl _
    have hbyProxy := (byProxy_sortRoutes route.routeByHttpUser (storedDomains lower domains)
      ((storedDomains lower domains).foldl (addRoute route)
        { t with wildcardCount :=
            t.wildcardCount + wildcards (storedDomains lower domains) })).trans
      (byProxy_addRoutes route _ _)
    split at h
    · rename_i hempty
      cases h
      refine ⟨hnodup, hroutes, ?_⟩
      rw [if_pos (isEmpty_iff.mp hempty)]
      exact hbyProxy
    · rename_i hne
      cases h
      refine ⟨hnodup, hroutes, ?_⟩
      rw [if_neg fun h => hne (isEmpty_iff.mpr h)]
      rw [hbyProxy]

/-!
## Unregistering
-/

theorem routesAt_replaced (t : VhostTables) (domain : String)
    (users : Table String (List VhostRoute)) (d u : String) :
    ({ t with routes := if users.entries.isEmpty then t.routes.erase domain
        else t.routes.insert domain users } : VhostTables).routesAt d u =
      if d = domain then (users.lookup u).getD [] else t.routesAt d u := by
  unfold routesAt
  by_cases hempty : users.entries.isEmpty = true
  · rw [if_pos hempty, Table.lookup_erase_eq]
    split
    · have hnone : users.lookup u = none := by
        rw [AList.lookup_eq_none]
        intro hmem
        rw [AList.mem_keys, AList.keys, isEmpty_iff.mp hempty] at hmem
        cases hmem
      rw [hnone]
      rfl
    · rfl
  · rw [if_neg hempty, Table.lookup_insert_eq]
    split
    · rfl
    · rfl

theorem routesAt_dropRoutes (name : String) (t : VhostTables) (entry : String × String)
    (d u : String) :
    (t.dropRoutes name entry).routesAt d u =
      if d = entry.1 ∧ u = entry.2 then (t.routesAt d u).filter fun r => r.proxyName ≠ name
      else t.routesAt d u := by
  unfold dropRoutes
  cases hdomain : t.routes.lookup entry.1 with
  | none =>
    by_cases hat : d = entry.1 ∧ u = entry.2
    · rw [if_pos hat]
      unfold routesAt
      rw [hat.1, hdomain]
      rfl
    · rw [if_neg hat]
  | some users =>
    rw [routesAt_replaced]
    by_cases hd : d = entry.1
    · have hold : t.routesAt d u = (users.lookup u).getD [] := by
        rw [routesAt, hd, hdomain, Option.bind_some]
      rw [if_pos hd, hold]
      by_cases hu : u = entry.2
      · rw [if_pos ⟨hd, hu⟩, hu]
        cases hbucket : users.lookup entry.2 with
        | none =>
          rw [hbucket]
          rfl
        | some rs =>
          dsimp only
          rw [Option.getD_some]
          split
          · rename_i hrest
            rw [AList.lookup_erase, isEmpty_iff.mp hrest]
            rfl
          · rw [AList.lookup_insert]
            rfl
      · rw [if_neg fun h => hu h.2]
        cases hbucket : users.lookup entry.2 with
        | none => rfl
        | some rs =>
          dsimp only
          split
          · rw [AList.lookup_erase_ne hu]
          · rw [AList.lookup_insert_ne hu]
    · rw [if_neg hd, if_neg fun h => hd h.1]

theorem byProxy_dropRoutes (name : String) (entries : List (String × String)) (t : VhostTables) :
    (entries.foldl (dropRoutes name) t).byProxy = t.byProxy := by
  induction entries generalizing t with
  | nil => rfl
  | cons e es ih =>
    rw [foldl_cons, ih]
    unfold dropRoutes
    split
    · rfl
    · rfl

theorem routesAt_dropAll (name : String) (entries : List (String × String)) (t : VhostTables)
    (d u : String) :
    (entries.foldl (dropRoutes name) t).routesAt d u =
      if (d, u) ∈ entries then (t.routesAt d u).filter fun r => r.proxyName ≠ name
      else t.routesAt d u := by
  induction entries generalizing t with
  | nil => rw [foldl_nil, if_neg not_mem_nil]
  | cons e es ih =>
    rw [foldl_cons, ih, routesAt_dropRoutes]
    by_cases he : d = e.1 ∧ u = e.2
    · have hmem : (d, u) ∈ e :: es := by
        rw [he.1, he.2]
        exact mem_cons_self
      split
      · simp
      · rfl
    · have hmem : (d, u) ∈ e :: es ↔ (d, u) ∈ es := by
        rw [mem_cons]
        constructor
        · rintro (heq | h)
          · rw [← heq] at he
            exact absurd ⟨rfl, rfl⟩ he
          · exact h
        · exact Or.inr
      rw [if_neg he, if_congr hmem rfl rfl]

end VhostTables
end Server
end FrpRs
