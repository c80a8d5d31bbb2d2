import FrpRs.Server.RouteTables
import FrpRs.Data.Lines
import Mathlib.Data.List.MinMax
import Mathlib.Data.String.Basic

/-!
# Route lookup

The lookups of `frp-server/src/vhost/router.rs` and `frp-server/src/tcpmux.rs`.

A host is looked up under its own name, then with its leftmost labels replaced by a star,
then under the star alone; under each name the bucket of the user comes before the bucket of
all users.
-/

namespace FrpRs
namespace Server

open List

/-!
## Hosts
-/

def isAscii (s : String) : Bool :=
  s.toList.all fun c => c.toNat < 128

def asciiLower (s : String) : String :=
  String.ofList (s.toList.map Char.toLower)

def LowersAscii (lower : String -> String) : Prop :=
  forall s, isAscii s = true -> lower s = asciiLower s

def hostKey (lower : String -> String) (host : String) : String :=
  if host.toList.all fun c => !c.isUpper then host else lower host

def hostLabels (host : String) : List (List Char) :=
  host.toList.splitOn '.'

def joinLabels (parts : List (List Char)) : String :=
  String.ofList (intercalate ['.'] parts)

/-- The loop `while parts.len() > 2`. -/
def wildcardHosts : List (List Char) -> List String
  | _ :: second :: third :: rest =>
    joinLabels (['*'] :: second :: third :: rest) :: wildcardHosts (second :: third :: rest)
  | _ => []

def hasPrefix (path loc : String) : Bool :=
  loc.toList.isPrefixOf path.toList

/-!
## Virtual hosts
-/

/-- The pre-sanitized copy of the rewrite value is left out. -/
structure VhostRouteMatch where
  proxyName : String
  runId : String
  group : String
  hostHeaderRewrite : String
  httpUser : String
  httpPwd : String
  routeByHttpUser : String
  headers : List (String × String)
deriving DecidableEq, Repr

def VhostRouteMatch.fromRoute (r : VhostRoute) : VhostRouteMatch where
  proxyName := r.proxyName
  runId := r.runId
  group := r.group
  hostHeaderRewrite := r.hostHeaderRewrite
  httpUser := r.httpUser
  httpPwd := r.httpPwd
  routeByHttpUser := r.routeByHttpUser
  headers := r.headers

namespace VhostTables

def betterLocation (path : String) (route : VhostRoute) (best : Option (VhostRoute × String))
    (loc : String) : Option (VhostRoute × String) :=
  if hasPrefix path loc && best.all fun b => b.2 < loc then some (route, loc) else best

def betterRoute (path : String) (scheme : Scheme) (best : Option (VhostRoute × String))
    (route : VhostRoute) : Option (VhostRoute × String) :=
  if route.scheme ≠ scheme then best
  else if route.locations.isEmpty then if best.isNone then some (route, "") else best
  else route.locations.foldl (betterLocation path route) best

def findMatchingRoute (vrs : List VhostRoute) (path : String) (scheme : Scheme) :
    Option VhostRouteMatch :=
  (vrs.foldl (betterRoute path scheme) none).map fun best => VhostRouteMatch.fromRoute best.1

def getLocked (lower : String -> String) (t : VhostTables) (path httpUser : String)
    (scheme : Scheme) (host : String) : Option VhostRouteMatch :=
  (t.routes.lookup (hostKey lower host)).bind fun users =>
    ((users.lookup httpUser).bind fun vrs => findMatchingRoute vrs path scheme).or
      ((users.lookup "").bind fun vrs => findMatchingRoute vrs path scheme)

def lookupWildcard (lower : String -> String) (t : VhostTables) (domain path httpUser : String)
    (scheme : Scheme) : Option VhostRouteMatch :=
  if t.wildcardCount = 0 then t.getLocked lower path httpUser scheme domain
  else
    ((t.getLocked lower path httpUser scheme domain).or
      ((wildcardHosts (hostLabels domain)).findSome? (t.getLocked lower path httpUser scheme))).or
      (t.getLocked lower path httpUser scheme "*")

end VhostTables

/-!
## CONNECT requests
-/

def trimTrailingDot (host : List Char) : List Char :=
  if host.getLast? = some '.' then host.dropLast else host

def badPort (strictPort : Bool) (port : List Char) : Bool :=
  strictPort && !port.isEmpty && !port.all Char.isDigit

def canonicalizeHost (host : String) (strictPort : Bool) : Option String :=
  let chars := host.toList
  if chars.count ':' = 1 then
    (Lines.cut ':' chars).bind fun parts =>
      if badPort strictPort parts.2 then none
      else some (String.ofList (trimTrailingDot parts.1))
  else if 2 ≤ chars.count ':' ∧ chars.head? = some '[' ∧
      chars.tails.any (fun rest => [']', ':'].isPrefixOf rest) then
    (Lines.cut ']' chars).bind fun parts =>
      if parts.2.head? ≠ some ':' then
        if strictPort then none else some (String.ofList (trimTrailingDot chars))
      else if badPort strictPort (parts.2.drop 1) then none
      else some (String.ofList (trimTrailingDot (parts.1.drop 1)))
  else some (String.ofList (trimTrailingDot chars))

namespace TcpMuxTables

def tryBuckets (t : TcpMuxTables) (httpUser domain : String) : Option TcpMuxRoute :=
  (t.routes.lookup domain).bind fun users =>
    (users.lookup httpUser).or (users.lookup "")

def lookup (lower : String -> String) (t : TcpMuxTables) (host httpUser : String) :
    Option TcpMuxRoute :=
  (canonicalizeHost host false).bind fun hostname =>
    ((t.tryBuckets httpUser (hostKey lower hostname)).or
      (if 0 < t.wildcardCount then
        (wildcardHosts (hostLabels (hostKey lower hostname))).findSome? (t.tryBuckets httpUser)
      else none)).or
      (t.tryBuckets httpUser "*")

end TcpMuxTables

/-!
## Case
-/

theorem toNat_toLower (c : Char) :
    c.toLower.toNat = if 65 ≤ c.toNat ∧ c.toNat ≤ 90 then c.toNat + 32 else c.toNat := by
  have hval : (c.val ≥ 'A'.val ∧ c.val ≤ 'Z'.val) ↔ (65 ≤ c.toNat ∧ c.toNat ≤ 90) := by
    exact Iff.rfl
  unfold Char.toLower
  split
  · rename_i h
    have hbounds := hval.mp h
    have hgap : ('a'.val - 'A'.val).toNat = 32 := by decide
    rw [if_pos hbounds]
    show (c.val + ('a'.val - 'A'.val)).toNat = c.toNat + 32
    rw [UInt32.toNat_add, hgap, Char.toNat_val]
    omega
  · rename_i h
    rw [if_neg fun hbounds => h (hval.mpr hbounds)]

theorem toLower_of_not_upper {c : Char} (h : c.isUpper = false) : c.toLower = c := by
  apply Char.toNat_inj.mp
  rw [toNat_toLower]
  have hnot : ¬ (65 ≤ c.toNat ∧ c.toNat ≤ 90) := by
    intro hbounds
    have hupper : c.isUpper = true := by
      change decide (c.val ≥ 'A'.val ∧ c.val ≤ 'Z'.val) = true
      rw [decide_eq_true_iff, ge_iff_le, UInt32.le_iff_toNat_le, UInt32.le_iff_toNat_le,
        Char.toNat_val]
      exact hbounds
    rw [hupper] at h
    cases h
  rw [if_neg hnot]

theorem toLower_eq_dot (c : Char) : c.toLower = '.' ↔ c = '.' := by
  constructor
  · intro h
    apply Char.toNat_inj.mp
    have hnat := toNat_toLower c
    rw [h] at hnat
    have hdot : '.'.toNat = 46 := by decide
    split at hnat
    · omega
    · exact hnat.symm
  · intro h
    rw [h]
    decide

variable {lower : String -> String} {host : String}

theorem hostKey_eq (hlower : LowersAscii lower) (hascii : isAscii host = true) :
    hostKey lower host = asciiLower host := by
  unfold hostKey
  split
  · rename_i hall
    have hmap : host.toList.map Char.toLower = host.toList := by
      apply map_congr_left (g := id) ?_ |>.trans (map_id _)
      intro c hc
      have hlow := all_eq_true.mp hall c hc
      exact toLower_of_not_upper (by simpa using hlow)
    rw [asciiLower, hmap, String.ofList_toList]
  · exact hlower host hascii

theorem hostLabels_asciiLower (host : String) :
    hostLabels (asciiLower host) = (hostLabels host).map (map Char.toLower) := by
  rw [hostLabels, hostLabels, asciiLower, String.toList_ofList]
  exact Lines.splitOn_map toLower_eq_dot _

theorem asciiLower_joinLabels (parts : List (List Char)) :
    asciiLower (joinLabels parts) = joinLabels (parts.map (map Char.toLower)) := by
  rw [asciiLower, joinLabels, joinLabels, String.toList_ofList]
  congr 1
  induction parts with
  | nil =>
    rfl
  | cons part parts ih =>
    cases parts with
    | nil => simp
    | cons part' parts =>
      rw [map_cons, map_cons, intercalate_cons_cons,
        intercalate_cons_cons, map_append, map_append, ih, map_cons]
      rfl

theorem wildcardHosts_lower (parts : List (List Char)) :
    wildcardHosts (parts.map (map Char.toLower)) = (wildcardHosts parts).map asciiLower := by
  induction parts with
  | nil =>
    rfl
  | cons first rest ih =>
    cases rest with
    | nil => rfl
    | cons second rest =>
      cases rest with
      | nil => rfl
      | cons third rest =>
        have hfirst := asciiLower_joinLabels (['*'] :: second :: third :: rest)
        have hrest : wildcardHosts ((first :: second :: third :: rest).map
            (map Char.toLower)) =
            joinLabels ((['*'] :: second :: third :: rest).map (map Char.toLower)) ::
              wildcardHosts ((second :: third :: rest).map (map Char.toLower)) := rfl
        rw [hrest, ih, ← hfirst]
        rfl

variable {parts : List (List Char)}

theorem isAscii_joinLabels (h : forall part, part ∈ parts -> forall c, c ∈ part -> c.toNat < 128) :
    isAscii (joinLabels parts) = true := by
  rw [isAscii, joinLabels, String.toList_ofList, all_eq_true]
  intro c hc
  rw [decide_eq_true_eq]
  induction parts with
  | nil =>
    cases hc
  | cons part parts ih =>
    cases parts with
    | nil =>
      rw [intercalate_singleton] at hc
      exact h part mem_cons_self c hc
    | cons part' parts =>
      rw [intercalate_cons_cons, mem_append, mem_append] at hc
      rcases hc with (hin | hdot) | hin
      · exact h part mem_cons_self c hin
      · rw [mem_singleton.mp hdot]
        decide
      · exact ih (fun p hp => h p (mem_cons_of_mem part hp)) hin

theorem isAscii_wildcardHosts (h : forall part, part ∈ parts -> forall c, c ∈ part -> c.toNat < 128)
    (hmem : host ∈ wildcardHosts parts) : isAscii host = true := by
  induction parts with
  | nil =>
    cases hmem
  | cons first rest ih =>
    have hrest : forall part, part ∈ rest -> forall c, c ∈ part -> c.toNat < 128 :=
      fun part hpart => h part (mem_cons_of_mem first hpart)
    cases rest with
    | nil => cases hmem
    | cons second rest =>
      cases rest with
      | nil => cases hmem
      | cons third rest =>
        rcases mem_cons.mp hmem with heq | hmem
        · rw [heq]
          apply isAscii_joinLabels
          intro part hpart c hc
          rcases mem_cons.mp hpart with hstar | hpart
          · rw [hstar, mem_singleton] at hc
            rw [hc]
            decide
          · exact hrest part hpart c hc
        · exact ih hrest hmem

theorem startsWith_wildcardHosts (h : host ∈ wildcardHosts parts) :
    host.startsWith "*." = true := by
  induction parts with
  | nil =>
    cases h
  | cons first rest ih =>
    cases rest with
    | nil => cases h
    | cons second rest =>
      cases rest with
      | nil => cases h
      | cons third rest =>
        rcases mem_cons.mp h with heq | hmem
        · have hlist : (joinLabels (['*'] :: second :: third :: rest)).toList =
              ['*', '.'] ++ intercalate ['.'] (second :: third :: rest) := by
            rw [joinLabels, String.toList_ofList, intercalate_cons_cons]
            rfl
          rw [heq, String.startsWith_string_iff, hlist]
          exact prefix_append _ _
        · exact ih hmem

def candidates (host : String) : List String :=
  asciiLower host :: (wildcardHosts (hostLabels (asciiLower host)) ++ ["*"])

theorem hostKey_wildcardHosts (hlower : LowersAscii lower) (hascii : isAscii host = true) :
    (wildcardHosts (hostLabels host)).map (hostKey lower) =
      wildcardHosts (hostLabels (asciiLower host)) := by
  rw [hostLabels_asciiLower, wildcardHosts_lower]
  apply map_congr_left
  intro w hw
  apply hostKey_eq hlower
  refine isAscii_wildcardHosts ?_ hw
  intro part hpart c hc
  have hall := all_eq_true.mp hascii c (Lines.mem_of_mem_splitOn hpart hc)
  simpa using hall

theorem hostKey_star : hostKey lower "*" = "*" := by
  unfold hostKey
  rw [if_pos (by decide)]

end Server
end FrpRs
