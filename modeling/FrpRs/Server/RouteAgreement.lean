import FrpRs.Server.TcpMuxRoutes
import FrpRs.Server.VhostRouting

/-!
# Two route tables

The vhost tables and the tcpmux tables under the same calls: HTTPS routes without locations
on one side, CONNECT routes on the other.  A simulation relates them along any calls, and a
host is answered with the same proxy by both.
-/

namespace FrpRs
namespace Server

open List

/-!
## The wildcard counter of the tcpmux tables
-/

namespace TcpMuxTables

/-- The counter covers the routes under wildcard domains, and it has not wrapped. -/
structure Covered (t : TcpMuxTables) (offered : Nat) : Prop where
  nonempty : forall d users, t.routes.lookup d = some users -> users.entries.isEmpty = false
  held_le : t.heldWildcards ≤ t.wildcardCount.toNat
  count_le : t.wildcardCount.toNat ≤ offered

def wildcardDomains (domains : List String) : Nat :=
  domains.countP fun d => d.startsWith "*."

theorem covered_new : new.Covered 0 where
  nonempty d users h := by cases h
  held_le := Nat.le_refl 0
  count_le := Nat.le_refl 0

variable {t : TcpMuxTables}

theorem Covered.mono {n n' : Nat} (h : t.Covered n) (hle : n ≤ n') :
    t.Covered n' :=
  ⟨h.nonempty, h.held_le, Nat.le_trans h.count_le hle⟩

theorem toNat_add_one {c : UInt64} (h : c.toNat + 1 < UInt64.size) :
    (c + 1).toNat = c.toNat + 1 := by
  exact Nat.mod_eq_of_lt h

theorem toNat_sub_one {c : UInt64} (h : 0 < c.toNat) : (c - 1).toNat = c.toNat - 1 := by
  have hle : (1 : UInt64) ≤ c := by
    exact h
  rw [UInt64.toNat_sub_of_le c 1 hle]
  rfl

variable {n : Nat}

theorem Covered.addRoute {route : TcpMuxRoute} {domain : String} (h : t.Covered n)
    (hroom : n + wildcardDomains [domain] < UInt64.size) :
    (t.addRoute route domain).Covered (n + wildcardDomains [domain]) := by
  have hcount : (t.addRoute route domain).wildcardCount =
      if t.addsWildcard route domain then t.wildcardCount + 1 else t.wildcardCount := rfl
  have hheld := heldWildcards_addRoute t route domain
  by_cases hadds : t.addsWildcard route domain = true
  · have hone : wildcardDomains [domain] = 1 := by
      rw [wildcardDomains, countP_singleton, if_pos (Bool.and_eq_true_iff.mp hadds).2]
    rw [hone] at hroom ⊢
    have hnat := toNat_add_one (Nat.lt_of_le_of_lt (Nat.succ_le_succ h.count_le) hroom)
    rw [if_pos hadds] at hcount hheld
    refine ⟨fun d users husers => nonempty_addRoute h.nonempty husers, ?_, ?_⟩
    · rw [hcount, hheld, hnat]
      exact Nat.succ_le_succ h.held_le
    · rw [hcount, hnat]
      exact Nat.succ_le_succ h.count_le
  · rw [if_neg hadds] at hcount hheld
    refine ⟨fun d users husers => nonempty_addRoute h.nonempty husers, ?_, ?_⟩
    · rw [hcount, hheld]
      exact h.held_le
    · rw [hcount]
      exact Nat.le_add_right_of_le h.count_le

theorem Covered.addRoutes {route : TcpMuxRoute} {domains : List String} {t : TcpMuxTables}
    {n : Nat} (h : t.Covered n) (hroom : n + wildcardDomains domains < UInt64.size) :
    (domains.foldl (TcpMuxTables.addRoute route) t).Covered (n + wildcardDomains domains) := by
  induction domains generalizing t n with
  | nil =>
    exact h
  | cons x xs ih =>
    have hsplit : n + wildcardDomains (x :: xs) =
        n + wildcardDomains [x] + wildcardDomains xs := by
      rw [← singleton_append, wildcardDomains, countP_append, Nat.add_assoc]
      rfl
    rw [hsplit] at hroom ⊢
    exact ih (h.addRoute (Nat.lt_of_le_of_lt (Nat.le_add_right _ _) hroom)) hroom

/-- Fewer buckets need no larger counter. -/
theorem Covered.dropRoutes (h : t.Covered n) (name domain : String) :
    (t.dropRoutes name domain).Covered n := by
  unfold TcpMuxTables.dropRoutes
  cases hdomain : t.routes.lookup domain with
  | none => exact h
  | some users =>
    have hheld := heldWildcards_erase hdomain
    have hle := h.held_le
    dsimp only
    split
    · rename_i hempty
      constructor
      · intro d us hus
        rw [Table.lookup_erase_eq] at hus
        split at hus
        · cases hus
        · exact h.nonempty d us hus
      · dsimp only [heldWildcards]
        split
        · rename_i hstar
          have hstar := (Bool.and_eq_true_iff.mp hstar).1
          have hpos : 0 < users.size :=
            length_pos_of_ne_nil (isEmpty_eq_false_iff.mp (h.nonempty _ _ hdomain))
          rw [wildRoutes, if_pos hstar] at hheld
          rw [toNat_sub_one (Nat.lt_of_lt_of_le (by omega) hle)]
          omega
        · omega
      · split
        · rename_i hstar
          have hstar := (Bool.and_eq_true_iff.mp hstar).1
          have hpos : 0 < users.size :=
            length_pos_of_ne_nil (isEmpty_eq_false_iff.mp (h.nonempty _ _ hdomain))
          rw [wildRoutes, if_pos hstar] at hheld
          rw [toNat_sub_one (Nat.lt_of_lt_of_le (by omega) hle)]
          exact Nat.sub_le_of_le_add (Nat.le_add_right_of_le h.count_le)
        · exact h.count_le
    · rename_i hempty
      constructor
      · intro d us hus
        rw [Table.lookup_insert_eq] at hus
        split at hus
        · cases hus
          exact Bool.eq_false_iff.mpr hempty
        · exact h.nonempty d us hus
      · have hsize : wildRoutes domain (users.retain fun _ r => r.proxyName ≠ name) ≤
            wildRoutes domain users := by
          unfold wildRoutes
          split
          · exact length_filter_le _ _
          · exact Nat.le_refl 0
        dsimp only [heldWildcards]
        rw [Table.weight_insert]
        omega
      · exact h.count_le

theorem Covered.dropAll {name : String} {domains : List String} (h : t.Covered n) :
    (domains.foldl (TcpMuxTables.dropRoutes name) t).Covered n := by
  induction domains generalizing t with
  | nil =>
    exact h
  | cons x xs ih =>
    exact ih (h.dropRoutes name x)

theorem Covered.unregister (h : t.Covered n) (name : String) :
    (t.unregister name).Covered n := by
  unfold TcpMuxTables.unregister
  split
  · exact h
  · have herased : Covered { t with byProxy := t.byProxy.erase name } n :=
      ⟨h.nonempty, h.held_le, h.count_le⟩
    exact herased.dropAll

theorem Covered.routeAt_wildcard (h : t.Covered n) (hcount : ¬ 0 < t.wildcardCount) {d : String}
    (hstar : d.startsWith "*." = true) (u : String) : t.routeAt d u = none := by
  have hzero : t.wildcardCount.toNat = 0 := by
    exact Nat.eq_zero_of_not_pos hcount
  rw [routeAt]
  cases hdomain : t.routes.lookup d with
  | none => rfl
  | some users =>
    have hpos : 0 < users.size :=
      length_pos_of_ne_nil (isEmpty_eq_false_iff.mp (h.nonempty _ _ hdomain))
    have hheld := heldWildcards_erase hdomain
    have hle := h.held_le
    rw [wildRoutes, if_pos hstar] at hheld
    omega

/-!
## The lookup of the tcpmux tables
-/

theorem trimTrailingDot_eq {host : List Char} (h : host.getLast? ≠ some '.') :
    trimTrailingDot host = host := by
  rw [trimTrailingDot, if_neg h]

theorem canonicalizeHost_plain {host : String} (hport : host.toList.count ':' ≠ 1)
    (hbracket : '[' ∉ host.toList) (hdot : host.toList.getLast? ≠ some '.') :
    canonicalizeHost host false = some host := by
  have hhead : host.toList.head? ≠ some '[' := by
    intro hhead
    exact hbracket (mem_of_mem_head? hhead)
  rw [canonicalizeHost, if_neg hport, if_neg fun h => hhead h.2.1, trimTrailingDot_eq hdot,
    String.ofList_toList]

theorem tryBuckets_eq (t : TcpMuxTables) (httpUser domain : String) :
    t.tryBuckets httpUser domain =
      (VhostTables.buckets httpUser domain).findSome? fun p => t.routeAt p.1 p.2 := by
  rw [VhostTables.buckets, findSome?_cons, findSome?_singleton, tryBuckets]
  dsimp only [routeAt]
  cases t.routes.lookup domain with
  | none => rfl
  | some users =>
    rw [Option.bind_some, Option.bind_some, Option.bind_some]
    cases users.lookup httpUser with
    | none => rfl
    | some r => rfl

theorem findSome_tryBuckets (t : TcpMuxTables) (httpUser : String) (domains : List String) :
    domains.findSome? (t.tryBuckets httpUser) =
      (domains.flatMap (VhostTables.buckets httpUser)).findSome? fun p => t.routeAt p.1 p.2 := by
  induction domains with
  | nil =>
    rfl
  | cons d ds ih =>
    rw [flatMap_cons, findSome?_append, ← tryBuckets_eq, ← ih, findSome?_cons]
    cases t.tryBuckets httpUser d with
    | none => rfl
    | some r => rfl

theorem Covered.walk_eq (h : t.Covered n) (httpUser : String) (parts : List (List Char)) :
    (if 0 < t.wildcardCount then (wildcardHosts parts).findSome? (t.tryBuckets httpUser)
      else none) = (wildcardHosts parts).findSome? (t.tryBuckets httpUser) := by
  split
  · rfl
  · rename_i hcount
    symm
    rw [findSome?_eq_none_iff]
    intro domain hdomain
    have hnone := h.routeAt_wildcard hcount (startsWith_wildcardHosts hdomain)
    rw [tryBuckets_eq, findSome?_eq_none_iff]
    intro p hp
    rcases mem_cons.mp hp with heq | hp
    · rw [heq]
      exact hnone httpUser
    · rw [mem_singleton.mp hp]
      exact hnone ""

theorem Covered.lookup_eq {lower : String -> String} (hlower : LowersAscii lower)
    (h : t.Covered n) {host : String} (hascii : isAscii host = true)
    (hport : host.toList.count ':' ≠ 1) (hbracket : '[' ∉ host.toList)
    (hdot : host.toList.getLast? ≠ some '.') (httpUser : String) :
    t.lookup lower host httpUser =
      (places host httpUser).findSome? fun p => t.routeAt p.1 p.2 := by
  rw [lookup, canonicalizeHost_plain hport hbracket hdot, Option.bind_some,
    hostKey_eq hlower hascii, h.walk_eq, findSome_tryBuckets, tryBuckets_eq, tryBuckets_eq,
    VhostTables.places_eq, findSome?_append, findSome?_append, Option.or_assoc]

end TcpMuxTables

/-!
## The same calls on both tables
-/

/-- What both managers are called with; there are no locations and the scheme is fixed. -/
structure SharedCall where
  proxyName : String
  runId : String
  group : String
  hostHeaderRewrite : String
  httpUser : String
  httpPwd : String
  routeByHttpUser : String
  headers : List (String × String)
  domains : List String

def SharedCall.vhostRoute (c : SharedCall) : VhostRoute :=
  ⟨c.proxyName, c.runId, .https, c.group, [], c.hostHeaderRewrite, c.httpUser, c.httpPwd,
    c.routeByHttpUser, c.headers⟩

def SharedCall.muxRoute (c : SharedCall) : TcpMuxRoute :=
  ⟨c.proxyName, c.runId, c.httpUser, c.httpPwd, c.routeByHttpUser, c.group⟩

/-- Both tables, the names that are registered, and the wildcard domains offered so far. -/
structure Both where
  vhost : VhostTables
  mux : TcpMuxTables
  registered : String -> Bool
  offered : Nat

namespace Both

inductive Call where
  | register (c : SharedCall)
  | unregister (name : String)

def start : Both where
  vhost := .new
  mux := .new
  registered _ := false
  offered := 0

def vhostVerdict (lower : String -> String) (s : Both) (c : SharedCall) :
    Except RouterConfigConflict VhostTables :=
  s.vhost.register lower c.vhostRoute c.domains

def muxVerdict (lower : String -> String) (s : Both) (c : SharedCall) :
    Except String TcpMuxTables :=
  s.mux.register lower c.muxRoute c.domains

def call (lower : String -> String) (s : Both) : Call -> Both
  | .register c =>
    { vhost := match s.vhostVerdict lower c with
        | .ok t => t
        | .error _ => s.vhost
      mux := match s.muxVerdict lower c with
        | .ok t => t
        | .error _ => s.mux
      registered :=
        if (s.vhostVerdict lower c).isOk || (s.muxVerdict lower c).isOk then
          Function.update s.registered c.proxyName true
        else s.registered
      offered := s.offered + TcpMuxTables.wildcardDomains (c.domains.map lower) }
  | .unregister name =>
    { s with
      vhost := s.vhost.unregister name
      mux := s.mux.unregister name
      registered := fun n => s.registered n && n ≠ name }

/-- A name registers while it is not registered, without an empty domain, and the wildcard
domains offered in all fit the counter. -/
def Fair (lower : String -> String) (s : Both) : Call -> Prop
  | .register c =>
    s.registered c.proxyName = false ∧ "" ∉ c.domains ∧
      s.offered + TcpMuxTables.wildcardDomains (c.domains.map lower) < UInt64.size
  | .unregister _ => True

/-- Both tables hold a route of the same name at the same places. -/
structure Agree (s : Both) : Prop where
  sound : s.vhost.Sound
  covered : s.mux.Covered s.offered
  plain : forall d u r, r ∈ s.vhost.routesAt d u -> r.scheme = .https ∧ r.locations = []
  same : forall d u n, (exists r, r ∈ s.vhost.routesAt d u ∧ r.proxyName = n) ↔
    exists r, s.mux.routeAt d u = some r ∧ r.proxyName = n
  recorded : forall d u r, r ∈ s.vhost.routesAt d u ->
    exists es, s.vhost.byProxy.lookup r.proxyName = some es ∧ (d, u) ∈ es
  recordedMux : forall d u r, s.mux.routeAt d u = some r ->
    exists ds, s.mux.byProxy.lookup r.proxyName = some ds ∧ d ∈ ds
  fresh : forall n, s.registered n = false ->
    s.vhost.byProxy.lookup n = none ∧ s.mux.byProxy.lookup n = none

theorem agree_start : Agree start where
  sound := VhostTables.sound_new
  covered := TcpMuxTables.covered_new
  plain d u r h := by cases h
  same d u n := by
    constructor
    · rintro ⟨r, hr, _⟩
      cases hr
    · rintro ⟨r, hr, _⟩
      cases hr
  recorded d u r h := by cases h
  recordedMux d u r h := by cases h
  fresh _ _ := ⟨rfl, rfl⟩

/-!
## Acceptance
-/

theorem vhostVerdict_isOk (lower : String -> String) (s : Both) (c : SharedCall) :
    (s.vhostVerdict lower c).isOk = true ↔
      s.vhost.conflict c.vhostRoute (VhostTables.storedDomains lower c.domains) = none ∧
      VhostTables.selfConflict c.vhostRoute (VhostTables.storedDomains lower c.domains) =
        none := by
  unfold vhostVerdict VhostTables.register
  dsimp only
  rw [← Option.or_eq_none_iff]
  split
  · rename_i e he
    rw [he]
    constructor
    · intro h
      cases h
    · intro h
      cases h
  · rename_i hnone
    rw [hnone]
    split
    · exact iff_of_true rfl rfl
    · exact iff_of_true rfl rfl

theorem muxVerdict_isOk (lower : String -> String) (s : Both) (c : SharedCall) :
    (s.muxVerdict lower c).isOk = true ↔
      firstRepeated [] (c.domains.map lower) = none ∧
      s.mux.conflict c.muxRoute (c.domains.map lower) = none := by
  unfold muxVerdict TcpMuxTables.register
  dsimp only
  rw [← Option.map_eq_none_iff (f := fun d =>
      "tcpmux duplicate domain '" ++ d ++ "' in registration for proxy '" ++
        c.muxRoute.proxyName ++ "'"), ← Option.or_eq_none_iff]
  split
  · rename_i e he
    rw [he]
    constructor
    · intro h
      cases h
    · intro h
      cases h
  · rename_i hnone
    rw [hnone]
    split
    · exact iff_of_true rfl rfl
    · exact iff_of_true rfl rfl

theorem selfConflict_eq_none (c : SharedCall) (domains : List String) :
    VhostTables.selfConflict c.vhostRoute domains = none ↔
      firstRepeated [] domains = none := by
  constructor
  · intro h
    exact firstRepeated_of_nodup (VhostTables.nodup_of_selfConflict h) fun _ _ => not_mem_nil
  · intro h
    have hflat : (domains.flatMap fun d => (VhostRoute.effectiveLocations
        c.vhostRoute.locations).map fun loc => (d, loc)) = domains.map fun d => (d, "") :=
      flatMap_pure_eq_map _ _
    rw [VhostTables.selfConflict, Option.map_eq_none_iff, hflat]
    apply firstRepeated_of_nodup
    · apply (firstRepeated_eq_none h).1.map
      intro a b hab
      exact congrArg Prod.fst hab
    · intro x _
      exact not_mem_nil

variable {lower : String -> String}

theorem storedDomains_eq {domains : List String} (h : "" ∉ domains) :
    VhostTables.storedDomains lower domains = domains.map lower := by
  rw [VhostTables.storedDomains, filter_eq_self.mpr]
  intro d hd
  apply decide_eq_true
  intro hempty
  rw [hempty] at hd
  exact h hd

variable {s : Both}

theorem Agree.vacant_iff (h : Agree s) (d u : String) :
    s.vhost.routesAt d u = [] ↔ s.mux.routeAt d u = none := by
  rw [eq_nil_iff_forall_not_mem, Option.eq_none_iff_forall_ne_some]
  constructor
  · intro hnone r hr
    obtain ⟨r', hr', _⟩ := (h.same d u r.proxyName).mpr ⟨r, hr, rfl⟩
    exact hnone r' hr'
  · intro hnone r hr
    obtain ⟨r', hr', _⟩ := (h.same d u r.proxyName).mp ⟨r, hr, rfl⟩
    exact hnone r' hr'

theorem Agree.vhost_conflict (h : Agree s) (c : SharedCall) (domains : List String) :
    s.vhost.conflict c.vhostRoute domains = none ↔
      forall d, d ∈ domains -> s.vhost.routesAt d c.routeByHttpUser = [] := by
  constructor
  · intro hnone d hd
    rw [eq_nil_iff_forall_not_mem]
    intro r hr
    obtain ⟨hscheme, hlocations⟩ := h.plain d _ r hr
    have hroot : "" ∈ VhostRoute.effectiveLocations c.vhostRoute.locations := mem_cons_self
    apply VhostTables.not_served_of_conflict hnone hd hr hscheme hroot
    rw [hlocations]
    exact mem_cons_self
  · intro hvacant
    rw [VhostTables.conflict, findSome?_eq_none_iff]
    intro d hd
    rw [findSome?_eq_none_iff]
    intro loc _
    rw [show s.vhost.routesAt d c.vhostRoute.routeByHttpUser = [] from hvacant d hd]
    rfl

variable {c : SharedCall}

theorem Agree.mux_conflict (h : Agree s) (hfresh : s.registered c.proxyName = false)
    (domains : List String) :
    s.mux.conflict c.muxRoute domains = none ↔
      forall d, d ∈ domains -> s.mux.routeAt d c.routeByHttpUser = none := by
  constructor
  · intro hnone d hd
    rw [Option.eq_none_iff_forall_ne_some]
    intro r hr
    have hname := TcpMuxTables.not_held_of_conflict hnone hd hr
    obtain ⟨ds, hds, _⟩ := h.recordedMux d _ r hr
    rw [hname, show c.muxRoute.proxyName = c.proxyName from rfl, (h.fresh _ hfresh).2] at hds
    cases hds
  · intro hvacant
    rw [TcpMuxTables.conflict, findSome?_eq_none_iff]
    intro d hd
    rw [show s.mux.routeAt d c.muxRoute.routeByHttpUser = none from hvacant d hd]
    rfl

theorem Agree.verdicts (h : Agree s) (hfair : Fair lower s (.register c)) :
    (s.vhostVerdict lower c).isOk = (s.muxVerdict lower c).isOk := by
  obtain ⟨hfresh, hnonempty, _⟩ := hfair
  rw [Bool.eq_iff_iff, vhostVerdict_isOk, muxVerdict_isOk, storedDomains_eq hnonempty,
    selfConflict_eq_none, h.vhost_conflict, h.mux_conflict hfresh, and_comm]
  simp only [h.vacant_iff]

/-!
## Steps
-/

theorem Agree.unregister (h : Agree s) (lower : String -> String) (name : String) :
    Agree (s.call lower (.unregister name)) := by
  have hvhost := VhostTables.routesAt_unregister h.recorded name
  have hmux := TcpMuxTables.routeAt_unregister h.recordedMux name
  unfold call
  constructor
  · exact h.sound.unregister name
  · exact h.covered.unregister name
  · intro d u r hr
    rw [hvhost] at hr
    exact h.plain d u r (mem_of_mem_filter hr)
  · intro d u n
    simp only [hvhost, hmux, mem_filter, Option.filter_eq_some_iff, decide_eq_true_eq]
    constructor
    · rintro ⟨r, ⟨hr, hne⟩, rfl⟩
      obtain ⟨r', hr', hname⟩ := (h.same d u r.proxyName).mp ⟨r, hr, rfl⟩
      exact ⟨r', ⟨hr', hname ▸ hne⟩, hname⟩
    · rintro ⟨r, ⟨hr, hne⟩, rfl⟩
      obtain ⟨r', hr', hname⟩ := (h.same d u r.proxyName).mpr ⟨r, hr, rfl⟩
      exact ⟨r', ⟨hr', hname ▸ hne⟩, hname⟩
  · intro d u r hr
    rw [hvhost, mem_filter, decide_eq_true_eq] at hr
    rw [VhostTables.byProxy_unregister, if_neg hr.2]
    exact h.recorded d u r hr.1
  · intro d u r hr
    rw [hmux, Option.filter_eq_some_iff, decide_eq_true_eq] at hr
    rw [TcpMuxTables.byProxy_unregister, if_neg hr.2]
    exact h.recordedMux d u r hr.1
  · intro n hn
    dsimp only at hn ⊢
    rw [VhostTables.byProxy_unregister, TcpMuxTables.byProxy_unregister]
    by_cases hname : n = name
    · rw [if_pos hname, if_pos hname]
      exact ⟨rfl, rfl⟩
    · rw [if_neg hname, if_neg hname]
      rw [decide_eq_true hname, Bool.and_true] at hn
      exact h.fresh n hn

theorem vhostVerdict_ok {v : VhostTables} (hnonempty : "" ∉ c.domains)
    (hv : s.vhostVerdict lower c = .ok v) (hvacant : forall d, d ∈ c.domains.map lower ->
      s.vhost.routesAt d c.routeByHttpUser = []) :
    (forall d u r, r ∈ v.routesAt d u ↔
      if d ∈ c.domains.map lower ∧ u = c.routeByHttpUser then r = c.vhostRoute
      else r ∈ s.vhost.routesAt d u) ∧
    (forall n, v.byProxy.lookup n =
      if c.domains.map lower ≠ [] ∧ n = c.proxyName then
        some ((c.domains.map lower).map fun d => (d, c.routeByHttpUser))
      else s.vhost.byProxy.lookup n) := by
  have hnew := VhostTables.register_ok hv
  rw [storedDomains_eq hnonempty] at hnew
  obtain ⟨_, hroutes, hbyProxy⟩ := hnew
  constructor
  · intro d u r
    have hperm : r ∈ v.routesAt d u ↔
        r ∈ if d ∈ c.domains.map lower ∧ u = c.routeByHttpUser then
          s.vhost.routesAt d u ++ [c.vhostRoute] else s.vhost.routesAt d u :=
      (hroutes d u).mem_iff
    split
    · rename_i hat
      rw [if_pos hat, hat.2, hvacant d hat.1, nil_append, mem_singleton] at hperm
      rw [hat.2]
      exact hperm
    · rename_i hat
      rw [if_neg hat] at hperm
      exact hperm
  · intro n
    rw [hbyProxy]
    by_cases hempty : c.domains.map lower = []
    · rw [if_pos hempty, if_neg fun h => h.1 hempty]
    · rw [if_neg hempty, Table.lookup_insert_eq]
      apply if_congr ?_ rfl rfl
      exact (and_iff_right hempty).symm

theorem muxVerdict_ok {m : TcpMuxTables} (hm : s.muxVerdict lower c = .ok m)
    (hfresh : s.mux.byProxy.lookup c.proxyName = none) :
    (forall d u, m.routeAt d u =
      if d ∈ c.domains.map lower ∧ u = c.routeByHttpUser then some c.muxRoute
      else s.mux.routeAt d u) ∧
    (forall n, m.byProxy.lookup n =
      if c.domains.map lower ≠ [] ∧ n = c.proxyName then some (c.domains.map lower)
      else s.mux.byProxy.lookup n) ∧
    m.routes = ((c.domains.map lower).foldl (TcpMuxTables.addRoute c.muxRoute) s.mux).routes ∧
    m.wildcardCount =
      ((c.domains.map lower).foldl (TcpMuxTables.addRoute c.muxRoute) s.mux).wildcardCount := by
  obtain ⟨_, _, hroutes, hcount, hbyProxy⟩ := TcpMuxTables.register_ok hm
  have hstale : s.mux.staleDomains lower c.muxRoute c.domains = [] := by
    rw [TcpMuxTables.staleDomains, show c.muxRoute.proxyName = c.proxyName from rfl, hfresh]
    rfl
  rw [hstale, foldl_nil] at hroutes hcount
  refine ⟨?_, ?_, hroutes, hcount⟩
  · intro d u
    rw [TcpMuxTables.routeAt, hroutes]
    exact TcpMuxTables.routeAt_addRoutes c.muxRoute (c.domains.map lower) s.mux d u
  · intro n
    rw [hbyProxy]
    by_cases hempty : c.domains.map lower = []
    · rw [if_pos hempty, if_neg fun h => h.1 hempty]
    · rw [if_neg hempty, Table.lookup_insert_eq]
      apply if_congr ?_ rfl rfl
      exact (and_iff_right hempty).symm

theorem Agree.register (h : Agree s) (hfair : Fair lower s (.register c)) {v : VhostTables}
    {m : TcpMuxTables} (hv : s.vhostVerdict lower c = .ok v) (hm : s.muxVerdict lower c = .ok m) :
    Agree ⟨v, m, Function.update s.registered c.proxyName true,
      s.offered + TcpMuxTables.wildcardDomains (c.domains.map lower)⟩ := by
  obtain ⟨hfresh, hnonempty, hroom⟩ := hfair
  have hvacant := (h.vhost_conflict c _).mp ((vhostVerdict_isOk lower s c).mp (by rw [hv]; rfl)).1
  rw [storedDomains_eq hnonempty] at hvacant
  obtain ⟨hvhost, hbyProxy⟩ := vhostVerdict_ok hnonempty hv hvacant
  obtain ⟨hmux, hmuxByProxy, hroutes, hcount⟩ := muxVerdict_ok hm (h.fresh _ hfresh).2
  have hother : forall n es, s.vhost.byProxy.lookup n = some es -> n ≠ c.proxyName := by
    intro n es hes hn
    rw [hn, (h.fresh _ hfresh).1] at hes
    cases hes
  have hotherMux : forall n ds, s.mux.byProxy.lookup n = some ds -> n ≠ c.proxyName := by
    intro n ds hds hn
    rw [hn, (h.fresh _ hfresh).2] at hds
    cases hds
  constructor
  · exact h.sound.register hv
  · have hadded := @TcpMuxTables.Covered.addRoutes c.muxRoute _ _ _ h.covered hroom
    refine ⟨?_, ?_, ?_⟩
    · rw [hroutes]
      exact hadded.nonempty
    · rw [hcount, TcpMuxTables.heldWildcards, hroutes]
      exact hadded.held_le
    · rw [hcount]
      exact hadded.count_le
  · intro d u r hr
    have hr := (hvhost d u r).mp hr
    split at hr
    · rw [hr]
      exact ⟨rfl, rfl⟩
    · exact h.plain d u r hr
  · intro d u n
    rw [hmux]
    simp only [hvhost]
    split
    · constructor
      · rintro ⟨r, hr, hn⟩
        rw [hr] at hn
        exact ⟨c.muxRoute, rfl, hn⟩
      · rintro ⟨r, hr, hn⟩
        cases hr
        exact ⟨c.vhostRoute, rfl, hn⟩
    · exact h.same d u n
  · intro d u r hr
    have hr := (hvhost d u r).mp hr
    rw [hbyProxy]
    split at hr
    · rename_i hat
      rw [hr, if_pos ⟨ne_nil_of_mem hat.1, rfl⟩]
      refine ⟨_, rfl, mem_map.mpr ⟨d, hat.1, ?_⟩⟩
      rw [hat.2]
    · obtain ⟨es, hes, hmem⟩ := h.recorded d u r hr
      rw [if_neg fun h => hother _ _ hes h.2]
      exact ⟨es, hes, hmem⟩
  · intro d u r hr
    rw [hmux] at hr
    rw [hmuxByProxy]
    split at hr
    · rename_i hat
      cases hr
      rw [if_pos ⟨ne_nil_of_mem hat.1, rfl⟩]
      exact ⟨_, rfl, hat.1⟩
    · obtain ⟨ds, hds, hmem⟩ := h.recordedMux d u r hr
      rw [if_neg fun h => hotherMux _ _ hds h.2]
      exact ⟨ds, hds, hmem⟩
  · intro n hn
    dsimp only at hn ⊢
    have hne : n ≠ c.proxyName := by
      intro heq
      rw [heq, Function.update_self] at hn
      cases hn
    rw [Function.update_of_ne hne] at hn
    rw [hbyProxy, hmuxByProxy, if_neg fun h => hne h.2, if_neg fun h => hne h.2]
    exact h.fresh n hn

theorem Agree.call {lower : String -> String} {s : Both} (h : Agree s) {c : Call}
    (hfair : Fair lower s c) : Agree (s.call lower c) := by
  cases c with
  | unregister name => exact h.unregister lower name
  | register c =>
    have hverdicts := h.verdicts hfair
    unfold Both.call
    dsimp only
    cases hv : s.vhostVerdict lower c with
    | ok v =>
      cases hm : s.muxVerdict lower c with
      | ok m => exact h.register hfair hv hm
      | error e =>
        rw [hv, hm] at hverdicts
        cases hverdicts
    | error e =>
      cases hm : s.muxVerdict lower c with
      | ok m =>
        rw [hv, hm] at hverdicts
        cases hverdicts
      | error e =>
        exact ⟨h.sound, h.covered.mono (Nat.le_add_right _ _), h.plain, h.same, h.recorded,
          h.recordedMux, h.fresh⟩

/-!
## Answers
-/

theorem Agree.scan_name (h : Agree s) (d u : String) :
    (VhostTables.scan (s.vhost.routesAt d u) "/" .https).map VhostRoute.proxyName =
      (s.mux.routeAt d u).map TcpMuxRoute.proxyName := by
  have hserves : forall r, r ∈ s.vhost.routesAt d u -> r.Serves .https "/" "" := by
    intro r hr
    obtain ⟨hscheme, hlocations⟩ := h.plain d u r hr
    refine ⟨hscheme, ?_, nil_prefix⟩
    rw [hlocations]
    exact mem_cons_self
  cases hscan : VhostTables.scan (s.vhost.routesAt d u) "/" .https with
  | none =>
    have hvacant : s.vhost.routesAt d u = [] := by
      rw [eq_nil_iff_forall_not_mem]
      intro r hr
      exact VhostTables.scan_eq_none.mp hscan r "" hr (hserves r hr)
    rw [(h.vacant_iff d u).mp hvacant]
    rfl
  | some r =>
    obtain ⟨r', hr', hname⟩ := (h.same d u r.proxyName).mp ⟨r, (VhostTables.scan_best hscan).1, rfl⟩
    rw [hr', Option.map_some, Option.map_some, hname]

theorem Agree.lookup_name (hlower : LowersAscii lower) (h : Agree s) {host : String}
    (hascii : isAscii host = true) (hport : host.toList.count ':' ≠ 1)
    (hbracket : '[' ∉ host.toList)
    (hdot : host.toList.getLast? ≠ some '.') (httpUser : String) :
    (s.mux.lookup lower host httpUser).map TcpMuxRoute.proxyName =
      (s.vhost.lookupWildcard lower host "/" httpUser .https).map VhostRouteMatch.proxyName := by
  rw [h.covered.lookup_eq hlower hascii hport hbracket hdot,
    h.sound.lookupWildcard_eq hlower hascii, VhostTables.lookupLabels_eq hlower _ hascii,
    Option.map_map, VhostTables.lookupPlaces, map_findSome?, map_findSome?]
  congr 1
  funext p
  exact (h.scan_name p.1 p.2).symm

/-- Both tables accept the same registrations and answer with the same proxy. -/
theorem tables_agree {lower : String -> String} (hlower : LowersAscii lower) {calls : List Call}
    (h : Run.Along (call lower) (Fair lower) start calls) :
    (forall pre c rest, calls = pre ++ .register c :: rest ->
      ((Run.run (call lower) start pre).vhostVerdict lower c).isOk =
        ((Run.run (call lower) start pre).muxVerdict lower c).isOk) ∧
    (forall pre, pre <+: calls -> forall host httpUser, isAscii host = true ->
      host.toList.count ':' ≠ 1 -> '[' ∉ host.toList -> host.toList.getLast? ≠ some '.' ->
      ((Run.run (call lower) start pre).mux.lookup lower host httpUser).map
          TcpMuxRoute.proxyName =
        ((Run.run (call lower) start pre).vhost.lookupWildcard lower host "/" httpUser
          .https).map VhostRouteMatch.proxyName) := by
  have hagree : forall pre rest, calls = pre ++ rest -> Agree (Run.run (call lower) start pre) := by
    intro pre rest heq
    rw [heq] at h
    exact Run.run_invariant (fun _ _ hs hc => hs.call hc) agree_start (Run.along_append.mp h).1
  constructor
  · intro pre c rest heq
    apply (hagree pre _ heq).verdicts
    rw [heq] at h
    exact (Run.along_append.mp h).2.1
  · intro pre hpre host httpUser hascii hport hbracket hdot
    obtain ⟨rest, hrest⟩ := hpre
    exact (hagree pre rest hrest.symm).lookup_name hlower hascii hport hbracket hdot httpUser

def plainCall (name : String) (domains : List String) : SharedCall :=
  ⟨name, "run", "", "", "", "", "", [], domains⟩

theorem tables_agree_sample :
    ((Run.run (call asciiLower) start [.register (plainCall "p" ["*.X.org"])]).mux.lookup
        asciiLower "A.x.org" "u").map TcpMuxRoute.proxyName = some "p" ∧
    ((Run.run (call asciiLower) start [.register (plainCall "p" ["*.X.org"])]).mux.lookup
        asciiLower "A.x.org" "u").map TcpMuxRoute.proxyName =
      ((Run.run (call asciiLower) start
        [.register (plainCall "p" ["*.X.org"])]).vhost.lookupWildcard asciiLower "A.x.org" "/" "u"
          .https).map VhostRouteMatch.proxyName := by
  have hfair : Run.Along (call asciiLower) (Fair asciiLower) start
      [.register (plainCall "p" ["*.X.org"])] :=
    ⟨⟨rfl, by decide, by decide +kernel⟩, trivial⟩
  constructor
  · decide +kernel
  · exact (tables_agree (fun _ _ => rfl) hfair).2 _ (prefix_refl _) "A.x.org" "u"
      (by decide) (by decide) (by decide) (by decide)

/-- Only one of the tables drops the empty domain by itself. -/
theorem empty_domain_kept :
    start.registered "p" = false ∧
    ((start.call asciiLower (.register (plainCall "p" [""]))).mux.lookup asciiLower "" "").map
        TcpMuxRoute.proxyName = some "p" ∧
    ((start.call asciiLower (.register (plainCall "p" [""]))).vhost.lookupWildcard asciiLower ""
        "/" "" .https).map VhostRouteMatch.proxyName = none := by
  refine ⟨rfl, ?_, ?_⟩
  · decide +kernel
  · decide +kernel

end Both
end Server
end FrpRs
