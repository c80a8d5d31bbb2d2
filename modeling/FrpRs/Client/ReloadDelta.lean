import Mathlib.Data.List.Dedup
import FrpRs.Client.Reload

/-!
# The difference of a reload

Which names a reload takes for removed, added and changed.  The names of registered proxies are
stripped of the prefix of the new user, so a name stands for its wire name, or for itself if it
is registered without that prefix.

How the hash sets are visited changes the order of the difference, not whether a reload succeeds.
-/

namespace FrpRs
namespace Client

open List

/-!
## Names
-/

theorem wireProxyName_injective (user : Text) : Function.Injective (wireProxyName user) := by
  intro m n h
  rw [wireProxyName, wireProxyName] at h
  split at h
  · exact h
  · exact (cons.inj (append_cancel_left h)).2

theorem wireProxyName_ne {user : Text} (huser : user ≠ []) (name : Text) :
    wireProxyName user name ≠ name := by
  intro h
  rw [wireProxyName, if_neg huser] at h
  have hlength := congrArg length h
  rw [length_append, length_cons] at hlength
  omega

theorem wireProxyName_length {user : Text} (huser : user ≠ []) (name : Text) :
    name.length < (wireProxyName user name).length := by
  rw [wireProxyName, if_neg huser, length_append, length_cons]
  omega

theorem stripUser_eq_iff {user key name : Text} :
    stripUser user key = name ↔
      key = wireProxyName user name ∨ (key = name ∧ forall m, key ≠ wireProxyName user m) := by
  by_cases huser : user = []
  · simp [stripUser, wireProxyName, huser]
  · have hwire : forall m, wireProxyName user m = (user ++ ['.']) ++ m := by
      intro m
      rw [wireProxyName, if_neg huser, append_assoc]
      rfl
    rw [stripUser, if_neg huser]
    cases hstrip : (user ++ ['.']).isPrefixOf? key with
    | none =>
      have hno : forall m, key ≠ wireProxyName user m := by
        intro m hkey
        rw [hkey, hwire, isPrefixOf?_eq_some_iff_append_eq.mpr rfl] at hstrip
        cases hstrip
      constructor
      · intro h
        exact .inr ⟨h, hno⟩
      · rintro (hkey | ⟨hkey, _⟩)
        · exact absurd hkey (hno name)
        · exact hkey
    | some m =>
      have hkey : wireProxyName user m = key :=
        (hwire m).trans (isPrefixOf?_eq_some_iff_append_eq.mp hstrip)
      constructor
      · rintro rfl
        exact .inl hkey.symm
      · rintro (hname | ⟨_, hno⟩)
        · exact wireProxyName_injective user (hkey.trans hname)
        · exact absurd hkey.symm (hno m)

theorem stripUser_wireProxyName (user name : Text) :
    stripUser user (wireProxyName user name) = name :=
  stripUser_eq_iff.mpr (.inl rfl)

def Service.Registered (s : Service) (name : Text) : Prop :=
  (s.proxyInfoMap.lookup name).isSome = true

variable {name : Text}

theorem Service.registered_iff_mem_keys {s : Service} :
    s.Registered name ↔ name ∈ s.proxyInfoMap.keys := by
  rw [Service.Registered, AList.lookup_isSome, AList.mem_keys]

def Service.Known (s : Service) (user name : Text) : Prop :=
  s.Registered (wireProxyName user name) ∨
    (s.Registered name ∧ forall m, name ≠ wireProxyName user m)

theorem mem_oldNames {s : Service} {user name : Text} :
    name ∈ oldNames s.proxyInfoMap user ↔ s.Known user name := by
  rw [oldNames, mem_dedup, mem_map]
  constructor
  · rintro ⟨key, hkey, hstrip⟩
    have hregistered : s.Registered key := Service.registered_iff_mem_keys.mpr hkey
    obtain rfl | ⟨rfl, hno⟩ := stripUser_eq_iff.mp hstrip
    · exact .inl hregistered
    · exact .inr ⟨hregistered, hno⟩
  · rintro (hwire | ⟨hname, hno⟩)
    · exact ⟨_, Service.registered_iff_mem_keys.mp hwire, stripUser_wireProxyName user name⟩
    · exact ⟨name, Service.registered_iff_mem_keys.mp hname, stripUser_eq_iff.mpr (.inr ⟨rfl, hno⟩)⟩

theorem closeWireNameForReload_eq_iff {s : Service} {name user x : Text} :
    closeWireNameForReload s.proxyInfoMap name user = x ↔
      (s.Registered name ∧ name = x) ∨ (¬ s.Registered name ∧ wireProxyName user name = x) := by
  rw [closeWireNameForReload, Service.Registered]
  by_cases h : (s.proxyInfoMap.lookup name).isSome = true <;> simp [h]

/-!
## Proxies by name
-/

variable {proxies : List ProxyConfig}

theorem findProxy_isSome :
    (exists p, findProxy proxies name = some p) ↔ name ∈ names proxies := by
  rw [← Option.isSome_iff_exists, findProxy, find?_isSome, names, mem_map]
  simp

theorem findProxy_of_mem {p : ProxyConfig} (hnames : (names proxies).Nodup) (hp : p ∈ proxies) :
    findProxy proxies p.name = some p := by
  induction proxies with
  | nil => cases hp
  | cons q qs ih =>
    obtain ⟨hfirst, hrest⟩ := nodup_cons.mp hnames
    rw [findProxy, find?_cons]
    cases hp with
    | head => simp
    | tail _ htail =>
      have hne : q.name ≠ p.name := fun h => hfirst (h ▸ mem_map_of_mem htail)
      rw [decide_eq_false hne]
      exact ih hrest htail

theorem name_of_findProxy {p : ProxyConfig} (h : findProxy proxies name = some p) :
    p.name = name := by
  simpa using find?_some h

/-!
## Changed settings
-/

def vnetDiffers (s : Service) (cfg : ClientConfig) (name : Text) : Bool :=
  (findProxy cfg.proxies name).any (vnetChanged s cfg)

def settingsDiffer (vnet : Bool) (print : Printing) (s : Service) (cfg : ClientConfig)
    (name : Text) : Bool :=
  differs print s.proxyInfoMap cfg name || (vnet && vnetDiffers s cfg name)

theorem known_of_differs {print : Printing} {s : Service} {cfg : ClientConfig}
    (h : differs print s.proxyInfoMap cfg name = true) :
    s.Registered (wireProxyName cfg.user name) ∧ name ∈ names cfg.proxies := by
  rw [differs] at h
  split at h
  · rename_i info p hinfo hp
    exact ⟨Option.isSome_iff_exists.mpr ⟨info, hinfo⟩, findProxy_isSome.mp ⟨p, hp⟩⟩
  · cases h

theorem mem_of_vnetDiffers {s : Service} {cfg : ClientConfig} (h : vnetDiffers s cfg name = true) :
    name ∈ names cfg.proxies := by
  rw [vnetDiffers, Option.any_eq_true] at h
  obtain ⟨p, hp, _⟩ := h
  exact findProxy_isSome.mp ⟨p, hp⟩

theorem mem_of_settingsDiffer {vnet : Bool} {print : Printing} {s : Service} {cfg : ClientConfig}
    (h : settingsDiffer vnet print s cfg name = true) : name ∈ names cfg.proxies := by
  rw [settingsDiffer, Bool.or_eq_true, Bool.and_eq_true] at h
  obtain h | ⟨_, h⟩ := h
  · exact (known_of_differs h).2
  · exact mem_of_vnetDiffers h

theorem foldl_addChanged (s : Service) (cfg : ClientConfig) (proxies : List ProxyConfig) :
    forall (changed : List Text), (names proxies).Nodup ->
      proxies.foldl (addChanged s cfg) changed =
        changed ++ names (proxies.filter fun p => vnetChanged s cfg p && !changed.contains p.name) := by
  induction proxies with
  | nil =>
    intro changed _
    exact (append_nil changed).symm
  | cons p ps ih =>
    intro changed hnames
    obtain ⟨hfirst, hrest⟩ := nodup_cons.mp hnames
    rw [foldl_cons, ih _ hrest, addChanged]
    by_cases hadd : (vnetChanged s cfg p && !changed.contains p.name) = true
    · rw [if_pos hadd, filter_cons, if_pos hadd, names, names, map_cons,
        append_assoc, singleton_append]
      congr 3
      apply filter_congr
      intro q hq
      have hne : q.name ≠ p.name := fun h => hfirst (h ▸ mem_map_of_mem hq)
      simp [hne]
    · rw [if_neg hadd, filter_cons, if_neg hadd]

/-!
## The delta
-/

section Delta

variable (vnet : Bool) (print : Printing) (order : HashOrder) (s : Service) (cfg : ClientConfig)

/-- The names with another snapshot come first, then those with other settings of a virtual
network. -/
theorem changed_eq (hnames : (names cfg.proxies).Nodup) :
    (reloadDelta ⟨vnet, print, order⟩ s cfg).changed =
      (order.visit ((oldNames s.proxyInfoMap cfg.user).filter fun n =>
        (names cfg.proxies).contains n)).filter (differs print s.proxyInfoMap cfg) ++
      (names cfg.proxies).filter fun n =>
        vnet && vnetDiffers s cfg n && !differs print s.proxyInfoMap cfg n := by
  cases vnet with
  | false => simp [reloadDelta, extendChanged, doReload]
  | true =>
    change cfg.proxies.foldl (addChanged s cfg) _ = _
    rw [foldl_addChanged s cfg _ _ hnames, names, names, filter_map]
    congr 2
    apply filter_congr
    intro p hp
    have hfound := findProxy_of_mem hnames hp
    have hmem : p.name ∈ names cfg.proxies := mem_map_of_mem hp
    have hcontains : ((order.visit ((oldNames s.proxyInfoMap cfg.user).filter fun n =>
        (names cfg.proxies).contains n)).filter
          (differs print s.proxyInfoMap cfg)).contains p.name
        = differs print s.proxyInfoMap cfg p.name := by
      rw [Bool.eq_iff_iff, contains_iff_mem, mem_filter, (order.perm _).mem_iff,
        mem_filter, contains_iff_mem, mem_oldNames]
      constructor
      · intro h
        exact h.2
      · intro h
        exact ⟨⟨.inl (known_of_differs h).1, hmem⟩, h⟩
    rw [Function.comp_apply, vnetDiffers, hfound]
    rw [← hcontains]
    rfl

theorem mem_changed_iff (hnames : (names cfg.proxies).Nodup) (name : Text) :
    name ∈ (reloadDelta ⟨vnet, print, order⟩ s cfg).changed ↔
      settingsDiffer vnet print s cfg name = true := by
  rw [changed_eq vnet print order s cfg hnames, mem_append, mem_filter,
    (order.perm _).mem_iff, mem_filter, contains_iff_mem, mem_filter, mem_oldNames,
    settingsDiffer]
  constructor
  · rintro (⟨_, h⟩ | ⟨_, h⟩)
    · rw [h, Bool.true_or]
    · rw [Bool.and_eq_true] at h
      rw [h.1, Bool.or_true]
  · intro h
    cases hdiffers : differs print s.proxyInfoMap cfg name with
    | true =>
      obtain ⟨hregistered, hmem⟩ := known_of_differs hdiffers
      exact .inl ⟨⟨.inl hregistered, hmem⟩, rfl⟩
    | false =>
      rw [hdiffers, Bool.false_or] at h
      refine .inr ⟨mem_of_vnetDiffers (Bool.and_eq_true_iff.mp h).2, ?_⟩
      rw [h]
      rfl

theorem nodup_changed (hnames : (names cfg.proxies).Nodup) :
    (reloadDelta ⟨vnet, print, order⟩ s cfg).changed.Nodup := by
  rw [changed_eq vnet print order s cfg hnames, nodup_append]
  refine ⟨?_, hnames.filter _, ?_⟩
  · apply List.Nodup.filter
    rw [(order.perm _).nodup_iff]
    exact (nodup_dedup _).filter _
  · intro a ha b hb hab
    rw [mem_filter] at ha hb
    rw [← hab, ha.2, Bool.not_true, Bool.and_false] at hb
    exact Bool.false_ne_true hb.2

theorem mem_removed_iff (name : Text) :
    name ∈ (reloadDelta ⟨vnet, print, order⟩ s cfg).removed ↔
      s.Known cfg.user name ∧ name ∉ names cfg.proxies := by
  have hremoved : (reloadDelta ⟨vnet, print, order⟩ s cfg).removed =
      order.visit ((oldNames s.proxyInfoMap cfg.user).filter fun n =>
        !(names cfg.proxies).contains n) := by
    cases vnet <;> rfl
  rw [hremoved, (order.perm _).mem_iff, mem_filter, mem_oldNames, Bool.not_eq_true',
    ← Bool.not_eq_true, contains_iff_mem]

theorem mem_added_iff (name : Text) :
    name ∈ (reloadDelta ⟨vnet, print, order⟩ s cfg).added ↔
      name ∈ names cfg.proxies ∧ ¬ s.Known cfg.user name := by
  have hadded : (reloadDelta ⟨vnet, print, order⟩ s cfg).added =
      order.visit ((names cfg.proxies).dedup.filter fun n =>
        !(oldNames s.proxyInfoMap cfg.user).contains n) := by
    cases vnet <;> rfl
  rw [hadded, (order.perm _).mem_iff, mem_filter, mem_dedup, Bool.not_eq_true',
    ← Bool.not_eq_true, contains_iff_mem, mem_oldNames]

theorem newConfig_reloadDelta : (reloadDelta ⟨vnet, print, order⟩ s cfg).newConfig = cfg := by
  cases vnet <;> rfl

end Delta

/-!
## Hash orders
-/

structure SameUpToOrder (a b : ReloadDelta) : Prop where
  removed : a.removed.Perm b.removed
  added : a.added.Perm b.added
  changed : a.changed.Perm b.changed
  visitorRemoved : a.visitorRemoved.Perm b.visitorRemoved
  visitorAdded : a.visitorAdded.Perm b.visitorAdded
  visitorChanged : a.visitorChanged = b.visitorChanged
  newConfig : a.newConfig = b.newConfig

theorem HashOrder.visit_perm (order order' : HashOrder) (names : List Text) :
    (order.visit names).Perm (order'.visit names) :=
  (order.perm names).trans (order'.perm names).symm

theorem nil_iff_of_perm {as bs : List Text} (h : as.Perm bs) : as = [] ↔ bs = [] := by
  constructor
  · rintro rfl
    exact nil_perm.mp h
  · rintro rfl
    exact perm_nil.mp h

theorem doReload_sameUpToOrder (print : Printing) (order order' : HashOrder) (s : Service)
    (cfg : ClientConfig) :
    SameUpToOrder (doReload print order s.proxyInfoMap s.cfg.visitors cfg)
      (doReload print order' s.proxyInfoMap s.cfg.visitors cfg) := by
  have hvisit := HashOrder.visit_perm order order'
  refine ⟨hvisit _, hvisit _, (hvisit _).filter _, hvisit _, hvisit _, ?_, rfl⟩
  rw [doReload, doReload]
  apply if_congr _ rfl rfl
  rw [nil_iff_of_perm (hvisit _), nil_iff_of_perm (hvisit _),
    nil_iff_of_perm ((hvisit _).filter _), nil_iff_of_perm (hvisit _), nil_iff_of_perm (hvisit _)]

theorem reloadDelta_sameUpToOrder (vnet : Bool) (print : Printing) (order order' : HashOrder)
    (s : Service) (cfg : ClientConfig) (hnames : (names cfg.proxies).Nodup) :
    SameUpToOrder (reloadDelta ⟨vnet, print, order⟩ s cfg)
      (reloadDelta ⟨vnet, print, order'⟩ s cfg) := by
  have hsame := doReload_sameUpToOrder print order order' s cfg
  have hchanged : (reloadDelta ⟨vnet, print, order⟩ s cfg).changed.Perm
      (reloadDelta ⟨vnet, print, order'⟩ s cfg).changed := by
    rw [changed_eq vnet print order s cfg hnames, changed_eq vnet print order' s cfg hnames]
    exact ((HashOrder.visit_perm order order' _).filter _).append_right _
  cases vnet with
  | false => exact hsame
  | true =>
    exact ⟨hsame.removed, hsame.added, hchanged, hsame.visitorRemoved, hsame.visitorAdded,
      hsame.visitorChanged, rfl⟩

theorem SameUpToOrder.isEmpty {a b : ReloadDelta} (h : SameUpToOrder a b) :
    a.isEmpty = b.isEmpty := by
  rw [ReloadDelta.isEmpty, ReloadDelta.isEmpty, h.visitorChanged, h.removed.isEmpty_eq,
    h.added.isEmpty_eq, h.changed.isEmpty_eq, h.visitorRemoved.isEmpty_eq,
    h.visitorAdded.isEmpty_eq]

/-!
## Success
-/

def PluginFails (start : Text -> PluginConfig -> Option Text) (delta : ReloadDelta)
    (name : Text) : Prop :=
  name ∈ delta.changed ∧ exists pl,
    (findProxy delta.newConfig.proxies name).bind listenerPlugin = some pl ∧ start name pl = none

theorem startPlugins_isOk (start : Text -> PluginConfig -> Option Text) (delta : ReloadDelta)
    (list : List Text) :
    forall addrs, (exists addrs', startPlugins start delta list addrs = .ok addrs') ↔
      forall name, name ∈ list -> ¬ PluginFails start delta name := by
  induction list with
  | nil =>
    intro addrs
    simp [startPlugins]
  | cons name rest ih =>
    intro addrs
    rw [startPlugins, forall_mem_cons]
    split
    · rename_i hnone
      rw [ih]
      have hstarts : ¬ PluginFails start delta name := by
        rintro ⟨_, pl, hpl, _⟩
        rw [hnone] at hpl
        cases hpl
      exact (and_iff_right hstarts).symm
    · rename_i pl hpl
      split
      · rename_i addr haddr
        rw [ih]
        have hstarts : ¬ PluginFails start delta name := by
          rintro ⟨_, pl', hpl', hnone⟩
          rw [hpl] at hpl'
          cases hpl'
          rw [haddr] at hnone
          cases hnone
        exact (and_iff_right hstarts).symm
      · rename_i hnone
        split
        · rename_i hchanged
          have hfails : PluginFails start delta name :=
            ⟨contains_iff_mem.mp hchanged, pl, hpl, hnone⟩
          constructor
          · rintro ⟨_, h⟩
            cases h
          · intro h
            exact absurd hfails h.1
        · rename_i hchanged
          rw [ih]
          have hstarts : ¬ PluginFails start delta name := fun h =>
            hchanged (contains_iff_mem.mpr h.1)
          exact (and_iff_right hstarts).symm

def ReloadDelta.Complete (delta : ReloadDelta) : Prop :=
  forall name, name ∈ delta.changed ∨ name ∈ delta.added -> name ∈ names delta.newConfig.proxies

theorem reloadDelta_complete {vnet : Bool} {print : Printing} {order : HashOrder} {s : Service}
    {cfg : ClientConfig} (hnames : (names cfg.proxies).Nodup) :
    (reloadDelta ⟨vnet, print, order⟩ s cfg).Complete := by
  rintro name (hchanged | hadded)
  · rw [mem_changed_iff vnet print order s cfg hnames] at hchanged
    rw [newConfig_reloadDelta]
    exact mem_of_settingsDiffer hchanged
  · rw [mem_added_iff] at hadded
    rw [newConfig_reloadDelta]
    exact hadded.1

variable {delta : ReloadDelta}

theorem length_openMsgs (addrs : Table Text Text) (label : Text)
    (h : name ∈ names delta.newConfig.proxies) : (openMsgs delta addrs label name).length = 1 := by
  obtain ⟨p, hp⟩ := findProxy_isSome.mpr h
  rw [openMsgs, hp]
  rfl

theorem length_changedMsgs (s : Service) (addrs : Table Text Text)
    (h : name ∈ names delta.newConfig.proxies) :
    (changedMsgs s delta addrs name).length = 2 := by
  obtain ⟨p, hp⟩ := findProxy_isSome.mpr h
  rw [changedMsgs, hp, length_cons, length_openMsgs addrs _ h]

theorem length_flatMap_const {α β : Type} {f : α -> List β} {as : List α} {n : Nat}
    (h : forall a, a ∈ as -> (f a).length = n) : (as.flatMap f).length = as.length * n := by
  induction as with
  | nil => simp
  | cons a as ih =>
    obtain ⟨hfirst, hrest⟩ := forall_mem_cons.mp h
    rw [flatMap_cons, length_append, hfirst, ih hrest, length_cons, Nat.succ_mul,
      Nat.add_comm]

theorem length_reloadMsgs {s : Service} (addrs : Table Text Text) (h : delta.Complete) :
    (reloadMsgs s delta addrs).length =
      delta.removed.length + delta.changed.length * 2 + delta.added.length := by
  have hchanged : (delta.changed.flatMap (changedMsgs s delta addrs)).length
      = delta.changed.length * 2 :=
    length_flatMap_const fun name hname => length_changedMsgs s addrs (h name (.inl hname))
  have hadded : (delta.added.flatMap
      (openMsgs delta addrs "send NewProxy for added".toList)).length = delta.added.length * 1 :=
    length_flatMap_const fun name hname => length_openMsgs addrs _ (h name (.inr hname))
  rw [reloadMsgs, length_append, length_append, length_map, hchanged, hadded,
    Nat.mul_one]

theorem applyDelta_isOk {build : Build} {s : Service} {inputs : Inputs} (h : delta.Complete) :
    (applyDelta build s inputs delta).result = .ok () ↔
      delta.isEmpty = true ∨
        ((forall name, name ∈ delta.added ++ delta.changed ->
            ¬ PluginFails inputs.startPlugin delta name) ∧
          delta.removed.length + delta.changed.length * 2 + delta.added.length ≤ inputs.sends) := by
  rw [applyDelta]
  by_cases hempty : delta.isEmpty = true
  · rw [if_pos hempty]
    exact iff_of_true rfl (.inl hempty)
  · rw [if_neg hempty, ← startPlugins_isOk inputs.startPlugin delta _ ∅]
    cases hplugins : startPlugins inputs.startPlugin delta (delta.added ++ delta.changed) ∅ with
    | error e => simp [hempty, failedReload]
    | ok addrs =>
      dsimp only
      rw [← length_reloadMsgs addrs h (s := s)]
      cases hrefused : (reloadMsgs s delta addrs)[inputs.sends]? with
      | none =>
        have hall : (reloadMsgs s delta addrs).length ≤ inputs.sends :=
          List.getElem?_eq_none_iff.mp hrefused
        exact iff_of_true rfl (.inr ⟨⟨addrs, rfl⟩, hall⟩)
      | some refused =>
        have hshort : inputs.sends < (reloadMsgs s delta addrs).length :=
          (List.getElem?_eq_some_iff.mp hrefused).1
        have hlength : ¬ (reloadMsgs s delta addrs).length ≤ inputs.sends :=
          Nat.not_le_of_lt hshort
        simp [hempty, failedReload, hlength]

theorem SameUpToOrder.pluginFails {a b : ReloadDelta} (h : SameUpToOrder a b)
    {start : Text -> PluginConfig -> Option Text} (hfails : PluginFails start b name) :
    PluginFails start a name := by
  obtain ⟨hchanged, hplugin⟩ := hfails
  rw [← h.newConfig] at hplugin
  exact ⟨h.changed.mem_iff.mpr hchanged, hplugin⟩

theorem reloadFromSources_isOk {vnet : Bool} {print : Printing} {order : HashOrder} {s : Service}
    {inputs : Inputs} {cfg : ClientConfig} (hcfg : reloadedConfig s inputs = .ok cfg)
    (hnames : (names cfg.proxies).Nodup)
    (hok : (reloadFromSources ⟨vnet, print, order⟩ s inputs).result = .ok ()) (order' : HashOrder) :
    (reloadFromSources ⟨vnet, print, order'⟩ s inputs).result = .ok () := by
  have hsame := reloadDelta_sameUpToOrder vnet print order order' s cfg hnames
  rw [reloadFromSources, hcfg] at hok ⊢
  rw [applyDelta_isOk (reloadDelta_complete hnames)] at hok ⊢
  rw [← hsame.isEmpty, ← hsame.removed.length_eq, ← hsame.changed.length_eq,
    ← hsame.added.length_eq]
  obtain hempty | ⟨hplugins, hsends⟩ := hok
  · exact .inl hempty
  · refine .inr ⟨?_, hsends⟩
    intro name hname hfails
    have hperm := hsame.added.append hsame.changed
    exact hplugins name (hperm.mem_iff.mpr hname) (hsame.pluginFails hfails)

end Client
end FrpRs
