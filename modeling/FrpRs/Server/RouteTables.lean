import FrpRs.Data.Table
import Mathlib.Data.List.Sort

/-!
# Route tables

`VhostManager` of `frp-server/src/vhost/router.rs`, `TcpMuxManager` of
`frp-server/src/tcpmux.rs` and the group controllers of `frp-server/src/state.rs`.

A vhost route is stored under its domain and its user bucket, and the pairs of a proxy
are remembered under the proxy's name.  Domains are stored in lower case; the Unicode
case mapping is a parameter.
-/

namespace FrpRs
namespace Server

inductive Scheme where
  | http
  | https
deriving DecidableEq, Repr

/-- The pre-sanitized copy of the rewrite value is left out. -/
structure VhostRoute where
  proxyName : String
  runId : String
  scheme : Scheme
  group : String
  locations : List String
  hostHeaderRewrite : String
  httpUser : String
  httpPwd : String
  routeByHttpUser : String
  headers : List (String × String)
deriving DecidableEq, Repr

structure RouterConfigConflict where
  domain : String
  routeByHttpUser : String
  existingProxy : String
  incomingProxy : String
deriving DecidableEq, Repr

def RouterConfigConflict.toString (c : RouterConfigConflict) : String :=
  "router config conflict for domain '" ++ c.domain ++ "' route_by_http_user '" ++
    c.routeByHttpUser ++ "': proxy '" ++ c.existingProxy ++ "' vs '" ++ c.incomingProxy ++ "'"

namespace VhostRoute

def maxLocation (r : VhostRoute) : String :=
  r.locations.foldl (fun best l => if best < l then l else best) ""

def covers (r : VhostRoute) (location : String) : Bool :=
  (r.locations.isEmpty && location.isEmpty) || r.locations.contains location

/-- An empty list stands for the single location `""`. -/
def effectiveLocations (locations : List String) : List String :=
  if locations.isEmpty then [""] else locations

/-- `sort_by_longest_location`, a stable sort. -/
def sortByLongestLocation (rs : List VhostRoute) : List VhostRoute :=
  rs.insertionSort fun a b => ¬ a.maxLocation < b.maxLocation

end VhostRoute

def firstRepeated {α : Type} [DecidableEq α] : List α -> List α -> Option α
  | _, [] => none
  | seen, x :: xs => if x ∈ seen then some x else firstRepeated (x :: seen) xs

structure VhostTables where
  routes : Table String (Table String (List VhostRoute))
  byProxy : Table String (List (String × String))
  -- a `usize` that counts the stored wildcard domains
  wildcardCount : Nat

namespace VhostTables

def new : VhostTables where
  routes := ∅
  byProxy := ∅
  wildcardCount := 0

/-- `routes[domain][route_by_http_user]`. -/
def routesAt (t : VhostTables) (domain user : String) : List VhostRoute :=
  ((t.routes.lookup domain).bind fun users => users.lookup user).getD []

def wildcards (domains : List String) : Nat :=
  domains.countP fun d => d.startsWith "*"

/-- A triple that another route of the scheme already covers. -/
def conflict (t : VhostTables) (route : VhostRoute) (domains : List String) :
    Option RouterConfigConflict :=
  domains.findSome? fun d =>
    (VhostRoute.effectiveLocations route.locations).findSome? fun loc =>
      ((t.routesAt d route.routeByHttpUser).find? fun vr =>
        vr.scheme = route.scheme && vr.covers loc).map fun vr =>
          ⟨d, route.routeByHttpUser, vr.proxyName, route.proxyName⟩

/-- A pair of domain and location that the call itself repeats. -/
def selfConflict (route : VhostRoute) (domains : List String) : Option RouterConfigConflict :=
  (firstRepeated [] (domains.flatMap fun d =>
    (VhostRoute.effectiveLocations route.locations).map fun loc => (d, loc))).map fun x =>
      ⟨x.1, route.routeByHttpUser, route.proxyName, route.proxyName⟩

def setRoutes (t : VhostTables) (domain user : String) (rs : List VhostRoute) : VhostTables :=
  { t with
    routes := t.routes.insert domain (((t.routes.lookup domain).getD ∅).insert user rs) }

def addRoute (route : VhostRoute) (t : VhostTables) (domain : String) : VhostTables :=
  t.setRoutes domain route.routeByHttpUser (t.routesAt domain route.routeByHttpUser ++ [route])

def sortRoutes (user : String) (t : VhostTables) (domain : String) : VhostTables :=
  t.setRoutes domain user (VhostRoute.sortByLongestLocation (t.routesAt domain user))

def storedDomains (lower : String -> String) (domains : List String) : List String :=
  (domains.filter fun d => d ≠ "").map lower

def register (lower : String -> String) (t : VhostTables) (route : VhostRoute)
    (domains : List String) : Except RouterConfigConflict VhostTables :=
  let domains := storedDomains lower domains
  match (t.conflict route domains).or (selfConflict route domains) with
  | some c => .error c
  | none =>
    let t := { t with wildcardCount := t.wildcardCount + wildcards domains }
    let t := domains.foldl (addRoute route) t
    let t := domains.foldl (sortRoutes route.routeByHttpUser) t
    if domains.isEmpty then .ok t
    else .ok { t with
      byProxy := t.byProxy.insert route.proxyName
        (domains.map fun d => (d, route.routeByHttpUser)) }

/-- The routes of the name in one bucket; empty buckets and domains are dropped. -/
def dropRoutes (name : String) (t : VhostTables) (entry : String × String) : VhostTables :=
  match t.routes.lookup entry.1 with
  | none => t
  | some users =>
    let users := match users.lookup entry.2 with
      | none => users
      | some rs =>
        let rest := rs.filter fun r => r.proxyName ≠ name
        if rest.isEmpty then users.erase entry.2 else users.insert entry.2 rest
    { t with
      routes := if users.entries.isEmpty then t.routes.erase entry.1
        else t.routes.insert entry.1 users }

def unregister (t : VhostTables) (name : String) : VhostTables :=
  match t.byProxy.lookup name with
  | none => t
  | some entries =>
    let t := { t with
      byProxy := t.byProxy.erase name
      wildcardCount := t.wildcardCount - wildcards (entries.map Prod.fst) }
    entries.foldl (dropRoutes name) t

end VhostTables

/-!
## HTTP and HTTPS groups
-/

structure HttpGroup where
  groupKey : String
  domain : String
  location : String
  routeByHttpUser : String
  members : List String
  index : UInt64
  routeOwner : String
deriving DecidableEq, Repr

/-- `HttpGroupController`, which keeps the two kinds apart. -/
structure HttpGroups where
  http : Table String HttpGroup
  https : Table String HttpGroup

namespace HttpGroups

def new : HttpGroups where
  http := ∅
  https := ∅

def kindGroups (c : HttpGroups) : Scheme -> Table String HttpGroup
  | .http => c.http
  | .https => c.https

def setKind (c : HttpGroups) : Scheme -> Table String HttpGroup -> HttpGroups
  | .http, t => { c with http := t }
  | .https, t => { c with https := t }

theorem lookup_setKind (c : HttpGroups) (kind : Scheme) (t : Table String HttpGroup) (k : Scheme)
    (n : String) :
    ((c.setKind kind t).kindGroups k).lookup n =
      if k = kind then t.lookup n else (c.kindGroups k).lookup n := by
  cases kind with
  | http =>
    cases k with
    | http => rfl
    | https => rfl
  | https =>
    cases k with
    | http => rfl
    | https => rfl

/-- Whether the member is the first one is returned as well. -/
def registerMember (c : HttpGroups) (group groupKey domain location user name : String) :
    Except String (HttpGroups × Bool) :=
  match c.http.lookup group with
  | some g =>
    if g.domain ≠ domain ∨ g.location ≠ location ∨ g.routeByHttpUser ≠ user then
      .error "group params invalid"
    else if g.groupKey ≠ groupKey then .error "group auth failed"
    else if name ∈ g.members then .error "group proxy repeated"
    else .ok ({ c with http := c.http.insert group { g with members := g.members ++ [name] } },
      false)
  | none =>
    let g : HttpGroup := ⟨groupKey, domain, location, user, [name], 0, name⟩
    .ok ({ c with http := c.http.insert group g }, true)

/-- Only the domain is compared, and a member may join again. -/
def registerHttpsMember (c : HttpGroups) (group groupKey domain name : String) :
    Except String (HttpGroups × Bool) :=
  match c.https.lookup group with
  | some g =>
    if g.domain ≠ domain then .error "group params invalid"
    else if g.groupKey ≠ groupKey then .error "group auth failed"
    else
      let members := if name ∈ g.members then g.members else g.members ++ [name]
      .ok ({ c with https := c.https.insert group { g with members := members } }, false)
  | none =>
    let g : HttpGroup := ⟨groupKey, domain, "", "", [name], 0, name⟩
    .ok ({ c with https := c.https.insert group g }, true)

/-- The route's owner is returned when the last member leaves. -/
def unregisterMember (c : HttpGroups) (kind : Scheme) (group name : String) :
    HttpGroups × Option String :=
  match (c.kindGroups kind).lookup group with
  | none => (c, none)
  | some g =>
    let rest := g.members.filter fun m => m ≠ name
    if rest.isEmpty then (c.setKind kind ((c.kindGroups kind).erase group), some g.routeOwner)
    else (c.setKind kind ((c.kindGroups kind).insert group { g with members := rest }), none)

end HttpGroups

/-!
## TCPMux routes and groups
-/

structure TcpMuxRoute where
  proxyName : String
  runId : String
  httpUser : String
  httpPwd : String
  routeByHttpUser : String
  group : String
deriving DecidableEq, Repr

/-- The counter is an atomic one, which wraps. -/
structure TcpMuxTables where
  routes : Table String (Table String TcpMuxRoute)
  byProxy : Table String (List String)
  wildcardCount : UInt64

namespace TcpMuxTables

def new : TcpMuxTables where
  routes := ∅
  byProxy := ∅
  wildcardCount := 0

def routeAt (t : TcpMuxTables) (domain user : String) : Option TcpMuxRoute :=
  (t.routes.lookup domain).bind fun users => users.lookup user

def conflict (t : TcpMuxTables) (route : TcpMuxRoute) (domains : List String) : Option String :=
  domains.findSome? fun d =>
    ((t.routeAt d route.routeByHttpUser).filter fun r => r.proxyName ≠ route.proxyName).map
      fun r =>
        "tcpmux route conflict for domain '" ++ d ++ "' (route_by_http_user '" ++
          route.routeByHttpUser ++ "'): proxy '" ++ r.proxyName ++ "' vs '" ++
          route.proxyName ++ "'"

def setUsers (t : TcpMuxTables) (domain : String) (users : Table String TcpMuxRoute) :
    TcpMuxTables :=
  if users.entries.isEmpty then
    { t with
      routes := t.routes.erase domain
      wildcardCount := if domain.startsWith "*." then t.wildcardCount - 1 else t.wildcardCount }
  else { t with routes := t.routes.insert domain users }

/-- A domain that has left the list of a proxy that registers again. -/
def dropStale (route : TcpMuxRoute) (t : TcpMuxTables) (domain : String) : TcpMuxTables :=
  match t.routes.lookup domain with
  | none => t
  | some users =>
    if (users.lookup route.routeByHttpUser).any fun r => r.proxyName = route.proxyName then
      t.setUsers domain (users.erase route.routeByHttpUser)
    else t

def addRoute (route : TcpMuxRoute) (t : TcpMuxTables) (domain : String) : TcpMuxTables :=
  let users := (t.routes.lookup domain).getD ∅
  let fresh := (users.lookup route.routeByHttpUser).isNone
  { t with
    routes := t.routes.insert domain (users.insert route.routeByHttpUser route)
    wildcardCount :=
      if fresh && domain.startsWith "*." then t.wildcardCount + 1 else t.wildcardCount }

def register (lower : String -> String) (t : TcpMuxTables) (route : TcpMuxRoute)
    (domains : List String) : Except String TcpMuxTables :=
  let domains := domains.map lower
  match (firstRepeated [] domains).map (fun d =>
      "tcpmux duplicate domain '" ++ d ++ "' in registration for proxy '" ++
        route.proxyName ++ "'") |>.or (t.conflict route domains) with
  | some text => .error text
  | none =>
    let stale := ((t.byProxy.lookup route.proxyName).getD []).filter fun d => d ∉ domains
    let t := stale.foldl (dropStale route) t
    let t := domains.foldl (addRoute route) t
    if domains.isEmpty then .ok t
    else .ok { t with byProxy := t.byProxy.insert route.proxyName domains }

/-- The buckets of the name in one domain. -/
def dropRoutes (name : String) (t : TcpMuxTables) (domain : String) : TcpMuxTables :=
  match t.routes.lookup domain with
  | none => t
  | some users =>
    let rest := users.retain fun _ r => r.proxyName ≠ name
    if rest.entries.isEmpty then
      { t with
        routes := t.routes.erase domain
        wildcardCount :=
          if domain.startsWith "*." && !users.entries.isEmpty then t.wildcardCount - 1
          else t.wildcardCount }
    else { t with routes := t.routes.insert domain rest }

def unregister (t : TcpMuxTables) (name : String) : TcpMuxTables :=
  match t.byProxy.lookup name with
  | none => t
  | some domains => domains.foldl (dropRoutes name) { t with byProxy := t.byProxy.erase name }

end TcpMuxTables

structure TcpMuxGroup where
  groupKey : String
  domain : String
  routeByHttpUser : String
  httpUser : String
  httpPwd : String
  members : List String
  index : UInt64
  routeOwner : String
deriving DecidableEq, Repr

namespace TcpMuxGroup

/-- `TcpMuxGroupController::register_member`. -/
def registerMember (groups : Table String TcpMuxGroup)
    (group groupKey domain user httpUser httpPwd name : String) :
    Except String (Table String TcpMuxGroup × Bool) :=
  match groups.lookup group with
  | some g =>
    if g.domain ≠ domain ∨ g.routeByHttpUser ≠ user ∨ g.httpUser ≠ httpUser ∨
        g.httpPwd ≠ httpPwd then
      .error "group params invalid"
    else if g.groupKey ≠ groupKey then .error "group auth failed"
    else if name ∈ g.members then
      .error ("proxy [" ++ name ++ "] is already a member of tcpmux group [" ++ group ++ "]")
    else .ok (groups.insert group { g with members := g.members ++ [name] }, false)
  | none =>
    .ok (groups.insert group ⟨groupKey, domain, user, httpUser, httpPwd, [name], 0, name⟩,
      true)

def unregisterMember (groups : Table String TcpMuxGroup) (group name : String) :
    Table String TcpMuxGroup × Option String :=
  match groups.lookup group with
  | none => (groups, none)
  | some g =>
    let rest := g.members.filter fun m => m ≠ name
    if rest.isEmpty then (groups.erase group, some g.routeOwner)
    else (groups.insert group { g with members := rest }, none)

end TcpMuxGroup
end Server
end FrpRs
