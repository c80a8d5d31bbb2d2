import FrpRs.Server.Registration

/-!
# Indexing in the route registration

`register_http_vhost` and `register_https_vhost` with every index they take: `none` stands
for the panic of an index out of bounds, which a release build turns into an abort of the
server.  An `http` group proxy without any domain makes the first of them panic, while it
compares the pairs of the proxy for the text of its refusal.
-/

namespace FrpRs
namespace Server
namespace AppState

/-!
## The two registrations
-/

/-- The first two pairs of domain and location, taken by index. -/
def groupPairs (domains locations : List String) : Option ((String × String) × String × String) :=
  domains[0]?.bind fun domain => locations[0]?.bind fun location =>
    if 1 < locations.length then
      locations[1]?.map fun second => ((domain, location), domain, second)
    else domains[1]?.map fun second => ((domain, location), second, location)

/-- `register_http_vhost`; the log line of an accepted member indexes both lists again. -/
def registerHttpVhostIndexed (cfg : ServerConfig) (s : AppState) (np : NewProxy) (runId : String)
    (port : UInt16) : Option (AppState × Option Reply) :=
  match buildDomains cfg np with
  | none => some (s.rejectRoutes np runId port subdomainUnsupported)
  | some domains =>
    let locations := np.locations.getD []
    let user := np.routeByHttpUser.getD ""
    match np.groupName with
    | none =>
      some (s.registerOwnRoute cfg np runId port
        (vhostRoute np runId .http locations user "") domains)
    | some group =>
      let locations := VhostRoute.effectiveLocations locations
      if domains.length ≠ 1 ∨ locations.length ≠ 1 then
        (groupPairs domains locations).map fun _ =>
          ((s.rejectRoutes np runId port "").1,
            some (httpGroupPairsRefusal cfg np domains locations))
      else
        domains[0]?.bind fun domain => locations[0]?.bind fun location =>
          let result := s.registerSharedRoute cfg np runId port .http group
            (vhostRoute np runId .http locations user group) domains
            (s.httpGroups.registerMember group (np.groupKey.getD "") domain location user
              np.proxyName)
          if result.2.isNone then
            domains[0]?.bind fun _ => locations[0]?.map fun _ => result
          else some result

/-- `register_https_vhost`; the log line indexes the domains with their repetitions. -/
def registerHttpsVhostIndexed (cfg : ServerConfig) (s : AppState) (np : NewProxy) (runId : String)
    (port : UInt16) : Option (AppState × Option Reply) :=
  match buildDomains cfg np with
  | none => some (s.rejectRoutes np runId port subdomainUnsupported)
  | some domains =>
    match np.groupName with
    | none =>
      some (s.registerOwnRoute cfg np runId port (vhostRoute np runId .https [] "" "")
        domains)
    | some group =>
      let groupDomains := domains.reverse.dedup.reverse
      if groupDomains.length ≠ 1 then
        some (s.rejectRoutes np runId port
          (errMsg cfg
            ("https group proxies must configure exactly one distinct custom_domain " ++
              "(Go frp HTTPSGroup semantics)")
            "group params invalid"))
      else
        groupDomains[0]?.bind fun domain =>
          let result := s.registerSharedRoute cfg np runId port .https group
            (vhostRoute np runId .https [] "" group) groupDomains
            (s.httpGroups.registerHttpsMember group (np.groupKey.getD "") domain
              np.proxyName)
          if result.2.isNone then domains[0]?.map fun _ => result
          else some result

/-!
## Lists that are long enough
-/

theorem effectiveLocations_ne_nil (locations : List String) :
    VhostRoute.effectiveLocations locations ≠ [] := by
  unfold VhostRoute.effectiveLocations
  split
  · simp
  · rename_i hlocations
    intro hnil
    rw [hnil] at hlocations
    exact hlocations rfl

theorem groupPairs_eq_none_iff {domains locations : List String} (hlocations : locations ≠ [])
    (h : domains.length ≠ 1 ∨ locations.length ≠ 1) :
    groupPairs domains locations = none ↔ domains = [] := by
  cases domains with
  | nil =>
    simp [groupPairs]
  | cons domain domains =>
    cases locations with
    | nil =>
      exact absurd rfl hlocations
    | cons location locations =>
      cases locations with
      | nil =>
        cases domains with
        | nil => simp at h
        | cons second domains => simp [groupPairs]
      | cons second locations => simp [groupPairs]

theorem headD_of_length_one {l : List String} (h : l.length = 1) : l[0]? = some (l.headD "") := by
  rcases List.length_eq_one_iff.mp h with ⟨x, rfl⟩
  rfl

theorem ne_nil_of_dedup {l : List String} (h : l.reverse.dedup.reverse.length = 1) :
    exists x, l[0]? = some x := by
  cases l with
  | nil => cases h
  | cons x l => exact ⟨x, rfl⟩

/-!
## Completion
-/

def bareGroup (np : NewProxy) : Bool :=
  np.groupName.isSome && (np.customDomains.getD []).isEmpty && np.subdomainName.isNone

variable (cfg : ServerConfig)

theorem bareGroup_iff (np : NewProxy) :
    bareGroup np = true ↔ np.groupName.isSome = true ∧ buildDomains cfg np = some [] := by
  unfold bareGroup buildDomains
  cases np.subdomainName with
  | none => simp
  | some sub =>
    by_cases hhost : cfg.subDomainHost = ""
    · simp [hhost]
    · simp [hhost]

/-- The indexed registration is the other one, apart from the panic. -/
theorem registerHttpVhostIndexed_eq (s : AppState) (np : NewProxy) (runId : String) (port : UInt16) :
    s.registerHttpVhostIndexed cfg np runId port =
      if bareGroup np then none else some (s.registerHttpVhost cfg np runId port) := by
  unfold registerHttpVhostIndexed registerHttpVhost
  have hbare := bareGroup_iff cfg np
  cases hdomains : buildDomains cfg np with
  | none =>
    rw [hdomains] at hbare
    simp [hbare]
  | some domains =>
    rw [hdomains] at hbare
    cases hgroup : np.groupName with
    | none =>
      rw [hgroup] at hbare
      simp [hbare]
    | some group =>
      rw [hgroup] at hbare
      simp only [Option.isSome_some, Option.some.injEq, true_and] at hbare
      have hnonempty := effectiveLocations_ne_nil (np.locations.getD [])
      dsimp only
      generalize VhostRoute.effectiveLocations (np.locations.getD []) = locations at hnonempty ⊢
      split
      · rename_i hpairs
        have hnone := groupPairs_eq_none_iff hnonempty hpairs
        split
        · rename_i hpanic
          rw [hnone.mpr (hbare.mp hpanic)]
          rfl
        · rename_i hcompletes
          cases hfound : groupPairs domains locations with
          | none => exact absurd (hbare.mpr (hnone.mp hfound)) hcompletes
          | some pairs => rfl
      · rename_i hone
        simp only [not_or, not_not] at hone
        rw [if_neg, headD_of_length_one hone.1, headD_of_length_one hone.2]
        · simp
        · rw [hbare]
          intro hnil
          rw [hnil] at hone
          cases hone.1

theorem registerHttpsVhostIndexed_eq (s : AppState) (np : NewProxy) (runId : String) (port : UInt16) :
    s.registerHttpsVhostIndexed cfg np runId port =
      some (s.registerHttpsVhost cfg np runId port) := by
  unfold registerHttpsVhostIndexed registerHttpsVhost
  cases buildDomains cfg np with
  | none => rfl
  | some domains =>
    cases np.groupName with
    | none => rfl
    | some group =>
      simp only
      split
      · rfl
      · rename_i hone
        rw [not_not] at hone
        rcases ne_nil_of_dedup hone with ⟨first, hfirst⟩
        rw [headD_of_length_one hone, hfirst]
        simp

/-- An `https` registration never panics.  An `http` registration runs to its end exactly when
the proxy asks for no group, or names a domain or a subdomain. -/
theorem vhost_registration_completes_iff (cfg : ServerConfig) (s : AppState) (np : NewProxy)
    (runId : String) (port : UInt16) :
    (s.registerHttpsVhostIndexed cfg np runId port).isSome = true ∧
      ((s.registerHttpVhostIndexed cfg np runId port).isSome = true ↔
        (np.groupName = none ∨ np.customDomains.getD [] ≠ [] ∨ np.subdomainName ≠ none)) := by
  constructor
  · rw [registerHttpsVhostIndexed_eq]
    rfl
  · rw [registerHttpVhostIndexed_eq]
    have hcondition : bareGroup np = false ↔
        (np.groupName = none ∨ np.customDomains.getD [] ≠ [] ∨ np.subdomainName ≠ none) := by
      simp only [bareGroup, Bool.and_eq_false_iff, Option.isSome_eq_false_iff, Option.isNone_iff_eq_none,
        Option.isNone_eq_false_iff, Option.isSome_iff_ne_none, List.isEmpty_eq_false_iff, or_assoc]
    rw [← hcondition]
    cases bareGroup np with
    | false => simp
    | true => simp

/-- A group proxy without a domain, as a client may send it. -/
def bareGroupProxy : NewProxy where
  proxyName := "web"
  proxyType := .http
  group := some "g"
  groupKey := none
  remotePort := none
  sk := none
  customDomains := none
  subdomain := none
  locations := none
  httpUser := none
  httpPwd := none
  hostHeaderRewrite := none
  headers := none
  routeByHttpUser := none
  bandwidthLimit := none
  bandwidthLimitMode := none
  multiplexer := none

theorem bare_group_panics :
    exists (cfg : ServerConfig) (s : AppState) (np : NewProxy) (runId : String) (port : UInt16),
      np.proxyType = .http ∧ validateNewProxy np cfg.subDomainHost = none ∧
        s.registerHttpVhostIndexed cfg np runId port = none := by
  have hpanics := registerHttpVhostIndexed_eq ⟨0, 0, 0, 0, "", "", false, id⟩ AppState.new
    bareGroupProxy "run" 0
  exact ⟨_, _, bareGroupProxy, _, _, rfl, by decide +kernel, hpanics⟩

end AppState
end Server
end FrpRs
