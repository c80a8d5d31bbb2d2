import FrpRs.Client.ReloadConvergence

/-!
# What a reload finds and what a failed reload leaves

`do_reload` compares the visitors of the same name only after it has found another difference.
`reload_from_sources` queues its messages one by one; if the queue refuses one of them, those
before it are on their way to the server.
-/

namespace FrpRs
namespace Client

open List

/-!
## The difference
-/

section Exactness

variable (print : Printing) (order : HashOrder) (map : Table Text ProxyRuntimeInfo)
  (old : List VisitorConfig) (cfg : ClientConfig)

def CarriesUser (user : Text) (map : Table Text ProxyRuntimeInfo) : Prop :=
  forall key, key ∈ map.keys -> exists n, key = wireProxyName user n

def ProxyChanged (n : Text) : Prop :=
  exists info p, map.lookup (wireProxyName cfg.user n) = some info ∧ p ∈ cfg.proxies ∧
    p.name = n ∧ info.configSnapshot ≠ configSnapshot print p

def VisitorChanged (n : Text) : Prop :=
  exists o v, o ∈ old ∧ v ∈ cfg.visitors ∧ o.name = n ∧ v.name = n ∧ o ≠ v

structure ExactNames (delta : ReloadDelta) : Prop where
  removed : forall n, n ∈ delta.removed ↔
    wireProxyName cfg.user n ∈ map.keys ∧ n ∉ names cfg.proxies
  added : forall n, n ∈ delta.added ↔
    n ∈ names cfg.proxies ∧ wireProxyName cfg.user n ∉ map.keys
  changed : forall n, n ∈ delta.changed ↔ ProxyChanged print map cfg n
  visitorRemoved : forall n, n ∈ delta.visitorRemoved ↔
    n ∈ old.map VisitorConfig.name ∧ n ∉ cfg.visitors.map VisitorConfig.name
  visitorAdded : forall n, n ∈ delta.visitorAdded ↔
    n ∈ cfg.visitors.map VisitorConfig.name ∧ n ∉ old.map VisitorConfig.name

/-- The six sets of a delta are those of the registered proxies, the old visitors and the new
configuration. -/
structure ExactDelta (delta : ReloadDelta) : Prop extends ExactNames print map old cfg delta where
  visitorChanged : forall n, n ∈ delta.visitorChanged ↔ VisitorChanged old cfg n

/-- The same proxies with the same settings, visitors of the same names, and one of these with
other settings. -/
def OnlyVisitorsChanged : Prop :=
  (forall n, wireProxyName cfg.user n ∈ map.keys ↔ n ∈ names cfg.proxies) ∧
    (forall n, ¬ ProxyChanged print map cfg n) ∧
    (forall n, n ∈ old.map VisitorConfig.name ↔ n ∈ cfg.visitors.map VisitorConfig.name) ∧
    exists n, VisitorChanged old cfg n

def holding : Service where
  cfg := { visitors := old }
  proxies := []
  proxyInfoMap := map
  pluginHandles := ∅
  healthCancels := ∅
  healthProxyConfigs := ∅
  nextMonitor := 0
  visitorReloadNeeded := false

variable {print map old cfg}

theorem known_iff (hkeys : CarriesUser cfg.user map) (n : Text) :
    (holding map old).Known cfg.user n ↔ wireProxyName cfg.user n ∈ map.keys := by
  constructor
  · rintro (hwire | ⟨hname, hno⟩)
    · exact Service.registered_iff_mem_keys.mp hwire
    · obtain ⟨m, hm⟩ := hkeys n (Service.registered_iff_mem_keys.mp hname)
      exact absurd hm (hno m)
  · intro h
    exact Or.inl (Service.registered_iff_mem_keys.mpr h)

theorem differs_iff (hnames : (names cfg.proxies).Nodup) (n : Text) :
    differs print map cfg n = true ↔ ProxyChanged print map cfg n := by
  rw [differs]
  constructor
  · intro h
    split at h
    · rename_i info p hinfo hp
      exact ⟨info, p, hinfo, mem_of_find?_eq_some hp, name_of_findProxy hp,
        of_decide_eq_true h⟩
    · cases h
  · rintro ⟨info, p, hinfo, hp, rfl, hne⟩
    rw [hinfo, findProxy_of_mem hnames hp]
    exact decide_eq_true hne

theorem mem_visitorsChanged (n : Text) :
    n ∈ (cfg.visitors.filter fun v => old.any fun o => o.name = v.name ∧ o ≠ v).map
      VisitorConfig.name ↔ VisitorChanged old cfg n := by
  rw [mem_map]
  constructor
  · rintro ⟨v, hv, rfl⟩
    obtain ⟨hv, hany⟩ := mem_filter.mp hv
    obtain ⟨o, ho, hdiffer⟩ := any_eq_true.mp hany
    obtain ⟨hname, hne⟩ := of_decide_eq_true hdiffer
    exact ⟨o, v, ho, hv, hname, rfl, hne⟩
  · rintro ⟨o, v, ho, hv, hoName, rfl, hne⟩
    refine ⟨v, mem_filter.mpr ⟨hv, ?_⟩, rfl⟩
    exact any_eq_true.mpr ⟨o, ho, decide_eq_true ⟨hoName, hne⟩⟩

theorem mem_difference (names names' : List Text) (n : Text) :
    n ∈ order.visit (names.dedup.filter fun n => !names'.contains n) ↔ n ∈ names ∧ n ∉ names' := by
  rw [(order.perm _).mem_iff, mem_filter, mem_dedup, Bool.not_eq_true',
    ← Bool.not_eq_true, contains_iff_mem]

theorem exactNames_doReload (hkeys : CarriesUser cfg.user map)
    (hnames : (names cfg.proxies).Nodup) :
    ExactNames print map old cfg (doReload print order map old cfg) := by
  refine ⟨fun n => ?_, fun n => ?_, fun n => ?_, ?_, ?_⟩
  · rw [← @known_iff map old cfg hkeys]
    exact mem_removed_iff false print order (holding map old) cfg n
  · rw [← @known_iff map old cfg hkeys]
    exact mem_added_iff false print order (holding map old) cfg n
  · rw [← differs_iff hnames]
    refine (mem_changed_iff false print order (holding map old) cfg hnames n).trans ?_
    rw [settingsDiffer, Bool.false_and, Bool.or_false]
    rfl
  · exact mem_difference order _ _
  · exact mem_difference order _ _

def ReloadDelta.Quiet (delta : ReloadDelta) : Prop :=
  delta.removed = [] ∧ delta.added = [] ∧ delta.changed = [] ∧ delta.visitorRemoved = [] ∧
    delta.visitorAdded = []

instance (delta : ReloadDelta) : Decidable delta.Quiet :=
  inferInstanceAs (Decidable (_ ∧ _ ∧ _ ∧ _ ∧ _))

theorem ExactNames.quiet_iff {delta : ReloadDelta} (h : ExactNames print map old cfg delta) :
    delta.Quiet ↔
      (forall n, wireProxyName cfg.user n ∈ map.keys ↔ n ∈ names cfg.proxies) ∧
      (forall n, ¬ ProxyChanged print map cfg n) ∧
      forall n, n ∈ old.map VisitorConfig.name ↔ n ∈ cfg.visitors.map VisitorConfig.name := by
  simp only [ReloadDelta.Quiet, eq_nil_iff_forall_not_mem, h.removed, h.added, h.changed,
    h.visitorRemoved, h.visitorAdded, not_and, not_not]
  constructor
  · rintro ⟨hremoved, hadded, hchanged, hgone, hnew⟩
    exact ⟨fun n => ⟨hremoved n, hadded n⟩, hchanged, fun n => ⟨hgone n, hnew n⟩⟩
  · rintro ⟨hproxies, hchanged, hvisitors⟩
    exact ⟨fun n => (hproxies n).mp, fun n => (hproxies n).mpr, hchanged,
      fun n => (hvisitors n).mp, fun n => (hvisitors n).mpr⟩

end Exactness

/-- The difference is exact unless nothing but settings of visitors has changed. -/
theorem doReload_exact_iff (print : Printing) (order : HashOrder)
    (map : Table Text ProxyRuntimeInfo) (old : List VisitorConfig) (cfg : ClientConfig)
    (hkeys : CarriesUser cfg.user map) (hnames : (names cfg.proxies).Nodup) :
    ExactDelta print map old cfg (doReload print order map old cfg) ↔
      ¬ OnlyVisitorsChanged print map old cfg := by
  have hexact := @exactNames_doReload print order map old cfg hkeys hnames
  have hquiet := hexact.quiet_iff
  have hvisitors : (doReload print order map old cfg).visitorChanged =
      if (doReload print order map old cfg).Quiet then []
      else (cfg.visitors.filter fun v => old.any fun o => o.name = v.name ∧ o ≠ v).map
        VisitorConfig.name := rfl
  constructor
  · rintro h ⟨hproxies, hchanged, hnames', n, hn⟩
    have hmem := (h.visitorChanged n).mpr hn
    rw [hvisitors, if_pos (hquiet.mpr ⟨hproxies, hchanged, hnames'⟩)] at hmem
    cases hmem
  · intro h
    refine ⟨hexact, fun n => ?_⟩
    rw [hvisitors]
    split
    · rename_i hq
      obtain ⟨hproxies, hchanged, hnames'⟩ := hquiet.mp hq
      constructor
      · intro hmem
        cases hmem
      · intro hn
        exact absurd ⟨hproxies, hchanged, hnames', n, hn⟩ h
    · exact mem_visitorsChanged n

def plainVisitor (name : String) : VisitorConfig :=
  ⟨name.toList, true, []⟩

def editedVisitor (name : String) : VisitorConfig :=
  ⟨name.toList, true, ["bind".toList]⟩

theorem doReload_exact_iff_added :
    CarriesUser [] ∅ ∧
      ExactDelta plainPrinting ∅ [plainVisitor "v"]
        { visitors := [editedVisitor "v", plainVisitor "w"] }
        (doReload plainPrinting insertionOrder ∅ [plainVisitor "v"]
          { visitors := [editedVisitor "v", plainVisitor "w"] }) := by
  have hkeys : CarriesUser [] ∅ := fun key hkey => absurd hkey (AList.notMem_empty key)
  refine ⟨hkeys, (doReload_exact_iff plainPrinting insertionOrder ∅ [plainVisitor "v"]
    { visitors := [editedVisitor "v", plainVisitor "w"] } hkeys nodup_nil).mpr ?_⟩
  rintro ⟨_, _, hvisitors, _⟩
  exact absurd ((hvisitors "w".toList).mpr (by decide)) (by decide)

/-- A visitor that alone has changed is not found. -/
theorem edited_visitor_missed :
    CarriesUser [] ∅ ∧
      ¬ ExactDelta plainPrinting ∅ [plainVisitor "v"] { visitors := [editedVisitor "v"] }
        (doReload plainPrinting insertionOrder ∅ [plainVisitor "v"]
          { visitors := [editedVisitor "v"] }) := by
  refine ⟨fun key hkey => absurd hkey (AList.notMem_empty key), ?_⟩
  intro h
  have hmem := (h.visitorChanged "v".toList).mpr
    ⟨plainVisitor "v", editedVisitor "v", by decide, by decide, by decide, by decide, by decide⟩
  exact absurd hmem (by decide)

/-!
## Failed reloads
-/

/-- A reload that fails has queued no message and has changed nothing. -/
def AllOrNothing (s : Service) (r : Reloaded) : Prop :=
  forall e, r.result = .error e -> r.sent = [] ∧ r.service = s

/-- The reload comes to its messages, and the writer takes the first of them but not all. -/
def RefusedMidway (build : Build) (s : Service) (inputs : Inputs) : Prop :=
  exists cfg addrs, reloadedConfig s inputs = .ok cfg ∧
    (reloadDelta build s cfg).isEmpty = false ∧
    startPlugins inputs.startPlugin (reloadDelta build s cfg)
      ((reloadDelta build s cfg).added ++ (reloadDelta build s cfg).changed) ∅ = .ok addrs ∧
    0 < inputs.sends ∧ inputs.sends < (reloadMsgs s (reloadDelta build s cfg) addrs).length

theorem allOrNothing_failed (s : Service) (e : Text) (sent : List Message) :
    AllOrNothing s (failedReload s e sent) ↔ sent = [] := by
  constructor
  · intro h
    exact (h e rfl).1
  · intro h _ _
    exact ⟨h, rfl⟩

theorem allOrNothing_ok {s : Service} {r : Reloaded} (h : r.result = .ok ()) :
    AllOrNothing s r := by
  intro e he
  rw [h] at he
  cases he

/-- A failed reload leaves everything as it was, unless the queue refuses a message after the
first one. -/
theorem reload_all_or_nothing_iff (build : Build) (s : Service) (inputs : Inputs) :
    AllOrNothing s (reloadFromSources build s inputs) ↔ ¬ RefusedMidway build s inputs := by
  rw [reloadFromSources]
  cases hcfg : reloadedConfig s inputs with
  | error e =>
    refine iff_of_true ((allOrNothing_failed s e []).mpr rfl) ?_
    rintro ⟨cfg, _, hok, _⟩
    rw [hcfg] at hok
    cases hok
  | ok cfg =>
    have hmidway : RefusedMidway build s inputs ↔ exists addrs,
        (reloadDelta build s cfg).isEmpty = false ∧
        startPlugins inputs.startPlugin (reloadDelta build s cfg)
          ((reloadDelta build s cfg).added ++ (reloadDelta build s cfg).changed) ∅ = .ok addrs ∧
        0 < inputs.sends ∧
        inputs.sends < (reloadMsgs s (reloadDelta build s cfg) addrs).length := by
      constructor
      · rintro ⟨cfg', addrs, hok, h⟩
        rw [hcfg] at hok
        cases hok
        exact ⟨addrs, h⟩
      · rintro ⟨addrs, h⟩
        exact ⟨cfg, addrs, hcfg, h⟩
    rw [hmidway]
    dsimp only
    generalize reloadDelta build s cfg = delta
    rw [applyDelta]
    cases hempty : delta.isEmpty with
    | true =>
      refine iff_of_true (allOrNothing_ok rfl) ?_
      rintro ⟨_, h, _⟩
      cases h
    | false =>
      rw [if_neg Bool.false_ne_true]
      cases hstart : startPlugins inputs.startPlugin delta (delta.added ++ delta.changed) ∅ with
      | error e =>
        refine iff_of_true ((allOrNothing_failed s e []).mpr rfl) ?_
        rintro ⟨_, _, h, _⟩
        cases h
      | ok addrs =>
        dsimp only
        cases hrefused : (reloadMsgs s delta addrs)[inputs.sends]? with
        | none =>
          refine iff_of_true (allOrNothing_ok rfl) ?_
          rintro ⟨_, _, h, _, hless⟩
          cases h
          exact absurd (List.getElem?_eq_none_iff.mp hrefused) (Nat.not_le.mpr hless)
        | some refused =>
          have hless : inputs.sends < (reloadMsgs s delta addrs).length :=
            (List.getElem?_eq_some_iff.mp hrefused).1
          rw [allOrNothing_failed, map_eq_nil_iff, take_eq_nil_iff]
          constructor
          · rintro hnone ⟨_, _, h, hpos, _⟩
            cases h
            rcases hnone with hzero | hnil
            · omega
            · rw [hnil] at hless
              exact absurd hless (Nat.not_lt_zero _)
          · intro hmid
            by_contra hnone
            exact hmid ⟨addrs, rfl, rfl, by omega, hless⟩

/-- The queue has room for one message: the old proxy is closed, and the new one is not opened. -/
theorem full_queue_closes_proxy :
    ¬ AllOrNothing (singleService "u".toList "a".toList)
      (reloadFromSources ⟨false, plainPrinting, insertionOrder⟩
        (singleService "u".toList "a".toList)
        { singleInputs "u".toList "b".toList with sends := 1 }) := by
  intro h
  exact absurd (h _ rfl).1 (cons_ne_nil _ _)

end Client
end FrpRs
