import FrpRs.Client.ReloadDelta
import FrpRs.Data.Replay

/-!
# Convergence of a reload

The server keeps a set of names; a close drops one and an opening adds one.  A reload converges if
the server then holds the wire names of the new proxies, the client's table has the same keys, and
only proxies with a plugin have a running one.

Names are guessed: a name of the difference that is a key of the table is closed under that key.
This is wrong when a key is the name of another proxy as well.  The condition says when no guess
goes wrong, and a reload converges just then.
-/

namespace FrpRs
namespace Client

open List Replay

def applyMessage (server : List Text) : Message -> List Text
  | .closeProxy name => server.filter fun x => x ≠ name
  | .newProxy name _ _ => name :: server

def IsWireName (cfg : ClientConfig) (x : Text) : Prop :=
  exists name, name ∈ names cfg.proxies ∧ wireProxyName cfg.user name = x

def HasPlugin (cfg : ClientConfig) (name : Text) : Prop :=
  exists p, findProxy cfg.proxies name = some p ∧ p.plugin.isSome = true

structure Converged (cfg : ClientConfig) (server : List Text) (r : Reloaded) : Prop where
  server : forall x, x ∈ r.sent.foldl applyMessage server ↔ IsWireName cfg x
  registered : forall x, r.service.Registered x ↔ IsWireName cfg x
  plugins : forall name, (r.service.pluginHandles.lookup name).isSome = true -> HasPlugin cfg name

/-- The second of two changed proxies is opened after the first is closed, however hash sets are
visited: only settings of a virtual network put it later. -/
def Follows (vnet : Bool) (print : Printing) (s : Service) (cfg : ClientConfig)
    (first second : Text) : Prop :=
  differs print s.proxyInfoMap cfg second = false ∧ (vnet && vnetDiffers s cfg second) = true ∧
    (differs print s.proxyInfoMap cfg first = true ∨
      List.Sublist [first, second] (names cfg.proxies))

/-- No name of the new configuration is mistaken for another. -/
structure Unambiguous (vnet : Bool) (print : Printing) (s : Service) (cfg : ClientConfig) :
    Prop where
  /-- A new proxy's bare name is registered only if it is a wire name too. -/
  bare : forall name, name ∈ names cfg.proxies -> s.Registered name ->
    exists m, name = wireProxyName cfg.user m
  /-- The bare name of a proxy that is removed is not registered. -/
  removed : cfg.user ≠ [] -> forall name, s.Registered (wireProxyName cfg.user name) ->
    name ∉ names cfg.proxies -> ¬ s.Registered name
  /-- A registered proxy whose wire name is the bare name of a changed one is opened later. -/
  changed : cfg.user ≠ [] -> forall name, name ∈ names cfg.proxies ->
    s.Registered (wireProxyName cfg.user name) ->
    settingsDiffer vnet print s cfg (wireProxyName cfg.user name) = true ->
    Follows vnet print s cfg (wireProxyName cfg.user name) name
  /-- A running plugin belongs to a proxy that is removed, is changed or keeps a plugin. -/
  plugins : forall name, (s.pluginHandles.lookup name).isSome = true ->
    (s.Known cfg.user name ∧ name ∉ names cfg.proxies) ∨
      settingsDiffer vnet print s cfg name = true ∨ HasPlugin cfg name

/-!
## What a reload did
-/

theorem spawnHealthCheck_tables (user : Text) (s : Service) (p : ProxyConfig) :
    (spawnHealthCheck user s p).proxyInfoMap = s.proxyInfoMap ∧
      (spawnHealthCheck user s p).pluginHandles = s.pluginHandles := by
  rw [spawnHealthCheck]
  split <;> exact ⟨rfl, rfl⟩

theorem spawnHealthChecks_tables (user : Text) (proxies : List ProxyConfig) :
    forall s, (spawnHealthChecks user proxies s).proxyInfoMap = s.proxyInfoMap ∧
      (spawnHealthChecks user proxies s).pluginHandles = s.pluginHandles := by
  induction proxies with
  | nil =>
    intro s
    exact ⟨rfl, rfl⟩
  | cons p ps ih =>
    intro s
    have hfirst := spawnHealthCheck_tables user s p
    have hrest := ih (spawnHealthCheck user s p)
    exact ⟨hrest.1.trans hfirst.1, hrest.2.trans hfirst.2⟩

theorem startPlugins_addrs {start : Text -> PluginConfig -> Option Text} {delta : ReloadDelta}
    (list : List Text) :
    forall {addrs addrs' : Table Text Text},
      (forall name, (addrs.lookup name).isSome = true -> HasPlugin delta.newConfig name) ->
      startPlugins start delta list addrs = .ok addrs' ->
      forall name, (addrs'.lookup name).isSome = true -> HasPlugin delta.newConfig name := by
  induction list with
  | nil =>
    intro addrs addrs' haddrs h
    cases h
    exact haddrs
  | cons name rest ih =>
    intro addrs addrs' haddrs h
    rw [startPlugins] at h
    split at h
    · exact ih haddrs h
    · rename_i pl hpl
      split at h
      · rename_i addr _
        apply ih _ h
        intro other hother
        rw [Table.lookup_insert_eq] at hother
        split at hother
        · rename_i hsame
          obtain ⟨p, hp, hlistener⟩ := Option.bind_eq_some_iff.mp hpl
          have hplugin := (Option.filter_eq_some_iff.mp hlistener).1
          exact ⟨p, hsame ▸ hp, Option.isSome_iff_exists.mpr ⟨pl, hplugin⟩⟩
        · exact haddrs other hother
      · split at h
        · cases h
        · exact ih haddrs h

/-- The messages and the tables of a reload that succeeds. -/
structure Applied (print : Printing) (s : Service) (delta : ReloadDelta) (addrs : Table Text Text)
    (r : Reloaded) : Prop where
  started : forall name, (addrs.lookup name).isSome = true -> HasPlugin delta.newConfig name
  sent : r.sent = (reloadMsgs s delta addrs).map ReloadMsg.msg
  registered : r.service.proxyInfoMap =
    (delta.changed ++ delta.added).foldl (insertInfo print addrs delta.newConfig)
      (delta.removed.foldl (fun t name =>
        t.erase (closeWireNameForReload s.proxyInfoMap name delta.newConfig.user)) s.proxyInfoMap)
  plugins : r.service.pluginHandles = addrs.entries.foldl (fun t e => t.insert e.1 e.2)
    ((delta.removed ++ delta.changed).foldl (fun t name => t.erase name) s.pluginHandles)

theorem applyDelta_applied {build : Build} {s : Service} {inputs : Inputs} {delta : ReloadDelta}
    (hok : (applyDelta build s inputs delta).result = .ok ()) :
    exists addrs, Applied build.print s delta addrs (applyDelta build s inputs delta) := by
  rw [applyDelta] at hok ⊢
  split at hok
  · rename_i hempty
    rw [if_pos hempty]
    simp only [ReloadDelta.isEmpty, Bool.and_eq_true, List.isEmpty_iff] at hempty
    obtain ⟨⟨⟨⟨⟨hremoved, hadded⟩, hchanged⟩, _⟩, _⟩, _⟩ := hempty
    refine ⟨∅, ?_, ?_, ?_, ?_⟩
    · intro name h
      cases h
    · rw [reloadMsgs, hremoved, hadded, hchanged]
      rfl
    · rw [hremoved, hadded, hchanged]
      rfl
    · rw [hremoved, hchanged]
      rfl
  · rename_i hempty
    rw [if_neg hempty]
    split at hok
    · cases hok
    · rename_i addrs hplugins
      dsimp only at hok ⊢
      split at hok
      · cases hok
      · have htables := spawnHealthChecks_tables delta.newConfig.user
        refine ⟨addrs, startPlugins_addrs _ ?_ hplugins, rfl, (htables _ _).1, (htables _ _).2⟩
        intro name h
        cases h

/-!
## Tables and messages
-/

theorem isSome_foldl_erase {V : Type} (key : Text -> Text) (list : List Text) (t : Table Text V)
    (x : Text) :
    ((list.foldl (fun t name => t.erase (key name)) t).lookup x).isSome = true ↔
      (t.lookup x).isSome = true ∧ forall name, name ∈ list -> key name ≠ x := by
  induction list generalizing t with
  | nil => simp
  | cons name rest ih =>
    rw [foldl_cons, ih, Table.lookup_erase_eq, forall_mem_cons, ← and_assoc]
    by_cases hx : x = key name
    · simp [hx]
    · simp [hx, Ne.symm hx]

theorem isSome_foldl_insertInfo (print : Printing) (addrs : Table Text Text) (cfg : ClientConfig)
    (list : List Text) (t : Table Text ProxyRuntimeInfo) (x : Text)
    (hall : forall name, name ∈ list -> name ∈ names cfg.proxies) :
    ((list.foldl (insertInfo print addrs cfg) t).lookup x).isSome = true ↔
      (t.lookup x).isSome = true ∨ exists name, name ∈ list ∧ wireProxyName cfg.user name = x := by
  induction list generalizing t with
  | nil => simp
  | cons name rest ih =>
    obtain ⟨hname, hrest⟩ := forall_mem_cons.mp hall
    obtain ⟨p, hp⟩ := findProxy_isSome.mpr hname
    rw [foldl_cons, ih _ hrest, insertInfo, hp, Table.lookup_insert_eq,
      exists_mem_cons_iff, ← or_assoc]
    by_cases hx : x = wireProxyName cfg.user name
    · simp [hx]
    · simp [hx, Ne.symm hx]

theorem isSome_foldl_insert {V : Type} (entries : List (Sigma fun _ : Text => V))
    (t : Table Text V) (x : Text) :
    ((entries.foldl (fun t e => t.insert e.1 e.2) t).lookup x).isSome = true ↔
      (t.lookup x).isSome = true ∨ x ∈ entries.keys := by
  induction entries generalizing t with
  | nil => simp
  | cons e rest ih =>
    rw [foldl_cons, ih, Table.lookup_insert_eq, keys_cons, mem_cons, ← or_assoc]
    by_cases hx : x = e.1
    · simp [hx]
    · simp [hx]

theorem foldl_changedMsgs (s : Service) (delta : ReloadDelta) (addrs : Table Text Text)
    (list : List Text) (hall : forall name, name ∈ list -> name ∈ names delta.newConfig.proxies) :
    forall held, ((list.flatMap (changedMsgs s delta addrs)).map ReloadMsg.msg).foldl
        applyMessage held =
      replay (fun name => closeWireNameForReload s.proxyInfoMap name delta.newConfig.user)
        (wireProxyName delta.newConfig.user) held list := by
  induction list with
  | nil =>
    intro held
    rfl
  | cons name rest ih =>
    intro held
    obtain ⟨hname, hrest⟩ := forall_mem_cons.mp hall
    obtain ⟨p, hp⟩ := findProxy_isSome.mpr hname
    rw [flatMap_cons, map_append, foldl_append, ih hrest, changedMsgs, openMsgs, hp]
    simp only [map_cons, map_nil, foldl_cons, foldl_nil, closeMsg,
      createNewProxyMsg, applyMessage, name_of_findProxy hp, replay]

theorem foldl_openMsgs (delta : ReloadDelta) (addrs : Table Text Text) (label : Text)
    (list : List Text) (hall : forall name, name ∈ list -> name ∈ names delta.newConfig.proxies) :
    forall held, ((list.flatMap (openMsgs delta addrs label)).map ReloadMsg.msg).foldl
        applyMessage held =
      list.foldl (fun held name => wireProxyName delta.newConfig.user name :: held) held := by
  induction list with
  | nil =>
    intro held
    rfl
  | cons name rest ih =>
    intro held
    obtain ⟨hname, hrest⟩ := forall_mem_cons.mp hall
    obtain ⟨p, hp⟩ := findProxy_isSome.mpr hname
    rw [flatMap_cons, map_append, foldl_append, ih hrest, openMsgs, hp]
    simp only [map_cons, map_nil, foldl_cons, foldl_nil,
      createNewProxyMsg, applyMessage, name_of_findProxy hp]

theorem foldl_closeMsgs (s : Service) (delta : ReloadDelta) (label : Text) (list held : List Text) :
    ((list.map (closeMsg s delta label)).map ReloadMsg.msg).foldl applyMessage held =
      list.foldl (fun held name => held.filter fun y =>
        y ≠ closeWireNameForReload s.proxyInfoMap name delta.newConfig.user) held := by
  rw [map_map, foldl_map]
  rfl

/-!
## Registered names
-/

def Kept (s : Service) (cfg : ClientConfig) (x : Text) : Prop :=
  s.Registered x ∧ forall name, s.Known cfg.user name -> name ∉ names cfg.proxies ->
    closeWireNameForReload s.proxyInfoMap name cfg.user ≠ x

def Opened (vnet : Bool) (print : Printing) (s : Service) (cfg : ClientConfig) (name : Text) :
    Prop :=
  settingsDiffer vnet print s cfg name = true ∨ (name ∈ names cfg.proxies ∧ ¬ s.Known cfg.user name)

variable {name : Text}

theorem mem_of_opened {vnet : Bool} {print : Printing} {s : Service} {cfg : ClientConfig}
    (h : Opened vnet print s cfg name) : name ∈ names cfg.proxies := by
  obtain hchanged | hadded := h
  · exact mem_of_settingsDiffer hchanged
  · exact hadded.1

section Names

variable {s : Service} {cfg : ClientConfig}

theorem kept_of_bare (hname : name ∈ names cfg.proxies) (hregistered : s.Registered name)
    (hbare : forall m, name ≠ wireProxyName cfg.user m) : Kept s cfg name := by
  refine ⟨hregistered, ?_⟩
  intro other _ hother hclosed
  obtain ⟨_, rfl⟩ | ⟨_, hwire⟩ := closeWireNameForReload_eq_iff.mp hclosed
  · exact hother hname
  · exact hbare other hwire.symm

theorem exists_length_bound (keys : List Text) :
    exists bound, forall key, key ∈ keys -> key.length ≤ bound := by
  induction keys with
  | nil => exact ⟨0, fun key h => by cases h⟩
  | cons key rest ih =>
    obtain ⟨bound, hbound⟩ := ih
    refine ⟨max key.length bound, forall_mem_cons.mpr ⟨le_max_left _ _, ?_⟩⟩
    intro other hother
    exact (hbound other hother).trans (le_max_right _ _)

/-- A removed name that is a key itself: the key is closed in its place. -/
structure Misnamed (s : Service) (cfg : ClientConfig) (name : Text) : Prop where
  wire : s.Registered (wireProxyName cfg.user name)
  gone : name ∉ names cfg.proxies
  bare : s.Registered name

theorem Misnamed.next (h : Misnamed s cfg name) (hgone : ¬ Kept s cfg (wireProxyName cfg.user name)) :
    Misnamed s cfg (wireProxyName cfg.user name) := by
  have hcloser : exists other, s.Known cfg.user other ∧ other ∉ names cfg.proxies ∧
      closeWireNameForReload s.proxyInfoMap other cfg.user = wireProxyName cfg.user name := by
    by_contra hnone
    push Not at hnone
    exact hgone ⟨h.wire, hnone⟩
  obtain ⟨other, hknown, hother, hclosed⟩ := hcloser
  obtain ⟨_, rfl⟩ | ⟨hbare, hwire⟩ := closeWireNameForReload_eq_iff.mp hclosed
  · obtain hwire | ⟨_, hno⟩ := hknown
    · exact ⟨hwire, hother, h.wire⟩
    · exact absurd rfl (hno name)
  · cases wireProxyName_injective cfg.user hwire
    exact absurd h.bare hbare

theorem not_misnamed (huser : cfg.user ≠ [])
    (hgone : forall x, Kept s cfg x -> IsWireName cfg x) (name : Text) : ¬ Misnamed s cfg name := by
  obtain ⟨bound, hbound⟩ := exists_length_bound s.proxyInfoMap.keys
  suffices hall : forall fuel name, bound < name.length + fuel -> ¬ Misnamed s cfg name from
    hall (bound + 1) name (by omega)
  intro fuel
  induction fuel with
  | zero =>
    intro name hlength h
    have hle := hbound name (Service.registered_iff_mem_keys.mp h.bare)
    omega
  | succ fuel ih =>
    intro name hlength h
    have hlonger := wireProxyName_length huser name
    refine ih (wireProxyName cfg.user name) (by omega) (h.next ?_)
    intro hkept
    obtain ⟨other, hother, hwire⟩ := hgone _ hkept
    cases wireProxyName_injective cfg.user hwire
    exact h.gone hother

theorem kept_wireProxyName
    (hremoved : cfg.user ≠ [] -> forall name, s.Registered (wireProxyName cfg.user name) ->
      name ∉ names cfg.proxies -> ¬ s.Registered name) (hname : name ∈ names cfg.proxies)
    (hregistered : s.Registered (wireProxyName cfg.user name)) :
    Kept s cfg (wireProxyName cfg.user name) := by
  refine ⟨hregistered, ?_⟩
  intro other hknown hother hclosed
  obtain ⟨hbare, rfl⟩ | ⟨_, hwire⟩ := closeWireNameForReload_eq_iff.mp hclosed
  · by_cases huser : cfg.user = []
    · rw [wireProxyName, if_pos huser] at hother
      exact hother hname
    · obtain hwire | ⟨_, hno⟩ := hknown
      · exact hremoved huser _ hwire hother hbare
      · exact hno name rfl
  · cases wireProxyName_injective cfg.user hwire
    exact hother hname

theorem isWireName_of_kept
    (hbare : forall name, name ∈ names cfg.proxies -> s.Registered name ->
      exists m, name = wireProxyName cfg.user m)
    (hremoved : cfg.user ≠ [] -> forall name, s.Registered (wireProxyName cfg.user name) ->
      name ∉ names cfg.proxies -> ¬ s.Registered name)
    {x : Text} (hkept : Kept s cfg x) : IsWireName cfg x := by
  obtain ⟨hregistered, hclosed⟩ := hkept
  by_cases hwire : exists m, x = wireProxyName cfg.user m
  · obtain ⟨m, rfl⟩ := hwire
    by_contra hno
    have hm : m ∉ names cfg.proxies := fun hmem => hno ⟨m, hmem, rfl⟩
    apply hclosed m (.inl hregistered) hm
    rw [closeWireNameForReload_eq_iff]
    by_cases huser : cfg.user = []
    · have hsame : m = wireProxyName cfg.user m := by rw [wireProxyName, if_pos huser]
      exact .inl ⟨hsame ▸ hregistered, hsame⟩
    · exact .inr ⟨hremoved huser m hregistered hm, rfl⟩
  · have hno : forall m, x ≠ wireProxyName cfg.user m := fun m h => hwire ⟨m, h⟩
    have hx : x ∉ names cfg.proxies := fun hmem => hwire (hbare x hmem hregistered)
    exact absurd (closeWireNameForReload_eq_iff.mpr (.inl ⟨hregistered, rfl⟩))
      (hclosed x (.inr ⟨hregistered, hno⟩) hx)

/-- The keys after a reload are right just if no name is taken for another's key. -/
theorem registered_converged_iff (vnet : Bool) (print : Printing) :
    (forall x, (Kept s cfg x ∨ exists name, Opened vnet print s cfg name ∧
        wireProxyName cfg.user name = x) ↔ IsWireName cfg x) ↔
      (forall name, name ∈ names cfg.proxies -> s.Registered name ->
        exists m, name = wireProxyName cfg.user m) ∧
      (cfg.user ≠ [] -> forall name, s.Registered (wireProxyName cfg.user name) ->
        name ∉ names cfg.proxies -> ¬ s.Registered name) := by
  constructor
  · intro h
    constructor
    · intro name hname hregistered
      by_contra hno
      have hbare : forall m, name ≠ wireProxyName cfg.user m := fun m hm => hno ⟨m, hm⟩
      obtain ⟨m, _, hm⟩ := (h name).mp (.inl (kept_of_bare hname hregistered hbare))
      exact hbare m hm.symm
    · intro huser name hwire hgone hbare
      exact not_misnamed huser (fun x hx => (h x).mp (.inl hx)) name ⟨hwire, hgone, hbare⟩
  · rintro ⟨hbare, hremoved⟩ x
    constructor
    · rintro (hkept | ⟨name, hopened, hx⟩)
      · exact isWireName_of_kept hbare hremoved hkept
      · exact ⟨name, mem_of_opened hopened, hx⟩
    · rintro ⟨name, hname, rfl⟩
      by_cases hknown : s.Known cfg.user name
      · obtain hwire | ⟨hregistered, hno⟩ := hknown
        · exact .inl (kept_wireProxyName hremoved hname hwire)
        · obtain ⟨m, hm⟩ := hbare name hname hregistered
          exact absurd hm (hno m)
      · exact .inr ⟨name, .inr ⟨hname, hknown⟩, rfl⟩

end Names

/-!
## One order
-/

section Order

variable {vnet : Bool} {print : Printing} {order : HashOrder} {s : Service} {cfg : ClientConfig}
variable {addrs : Table Text Text} {r : Reloaded}

theorem Applied.registered_iff (hnames : (names cfg.proxies).Nodup)
    (h : Applied print s (reloadDelta ⟨vnet, print, order⟩ s cfg) addrs r) (x : Text) :
    r.service.Registered x ↔ Kept s cfg x ∨ exists name, Opened vnet print s cfg name ∧
      wireProxyName cfg.user name = x := by
  have hcomplete : (reloadDelta ⟨vnet, print, order⟩ s cfg).Complete := reloadDelta_complete hnames
  rw [Service.Registered, h.registered, isSome_foldl_insertInfo, isSome_foldl_erase]
  · simp only [mem_removed_iff, mem_append, mem_changed_iff _ _ _ _ _ hnames, mem_added_iff,
      newConfig_reloadDelta, and_imp, Kept, Opened, Service.Registered]
  · intro name hname
    exact hcomplete name (mem_append.mp hname)

theorem Applied.mem_server (hnames : (names cfg.proxies).Nodup)
    (h : Applied print s (reloadDelta ⟨vnet, print, order⟩ s cfg) addrs r) {server : List Text}
    (hserver : forall x, x ∈ server ↔ s.Registered x) :
    exists held : List Text, (forall x, x ∈ held ↔ Kept s cfg x) ∧
      forall x, x ∈ r.sent.foldl applyMessage server ↔
        x ∈ replay (fun name => closeWireNameForReload s.proxyInfoMap name cfg.user)
          (wireProxyName cfg.user) held (reloadDelta ⟨vnet, print, order⟩ s cfg).changed ∨
        exists name, (name ∈ names cfg.proxies ∧ ¬ s.Known cfg.user name) ∧
          wireProxyName cfg.user name = x := by
  have hcomplete : (reloadDelta ⟨vnet, print, order⟩ s cfg).Complete := reloadDelta_complete hnames
  refine ⟨(reloadDelta ⟨vnet, print, order⟩ s cfg).removed.foldl (fun held name =>
    held.filter fun y => y ≠ closeWireNameForReload s.proxyInfoMap name cfg.user) server, ?_, ?_⟩
  · intro x
    simp only [mem_foldl_drop, mem_removed_iff, hserver, and_imp, Kept]
  · intro x
    rw [h.sent, reloadMsgs, map_append, map_append, foldl_append, foldl_append,
      foldl_openMsgs _ _ _ _ fun name hname => hcomplete name (.inr hname),
      foldl_changedMsgs _ _ _ _ fun name hname => hcomplete name (.inl hname), foldl_closeMsgs,
      mem_foldl_add, newConfig_reloadDelta]
    simp only [mem_added_iff]

/-- The server's names are right just if no change closes the name of a proxy that is not opened
after it. -/
theorem Applied.server_converged_iff (hnames : (names cfg.proxies).Nodup)
    (h : Applied print s (reloadDelta ⟨vnet, print, order⟩ s cfg) addrs r) {server : List Text}
    (hserver : forall x, x ∈ server ↔ s.Registered x)
    (hbare : forall name, name ∈ names cfg.proxies -> s.Registered name ->
      exists m, name = wireProxyName cfg.user m)
    (hremoved : cfg.user ≠ [] -> forall name, s.Registered (wireProxyName cfg.user name) ->
      name ∉ names cfg.proxies -> ¬ s.Registered name) :
    (forall x, x ∈ r.sent.foldl applyMessage server ↔ IsWireName cfg x) ↔
      (cfg.user ≠ [] -> forall name, name ∈ names cfg.proxies ->
        s.Registered (wireProxyName cfg.user name) ->
        wireProxyName cfg.user name ∈ (reloadDelta ⟨vnet, print, order⟩ s cfg).changed ->
        List.Sublist [wireProxyName cfg.user name, name]
          (reloadDelta ⟨vnet, print, order⟩ s cfg).changed) := by
  obtain ⟨held, hheld, hmem⟩ := h.mem_server hnames hserver
  have hnodup := nodup_changed vnet print order s cfg hnames
  have hinj := wireProxyName_injective cfg.user
  -- A registered proxy that stays is held unless a change closes it.
  have hpair : cfg.user ≠ [] -> forall name, name ∈ names cfg.proxies ->
      s.Registered (wireProxyName cfg.user name) ->
      (wireProxyName cfg.user name ∈
          replay (fun name => closeWireNameForReload s.proxyInfoMap name cfg.user)
            (wireProxyName cfg.user) held (reloadDelta ⟨vnet, print, order⟩ s cfg).changed ↔
        (wireProxyName cfg.user name ∈ (reloadDelta ⟨vnet, print, order⟩ s cfg).changed ->
          List.Sublist [wireProxyName cfg.user name, name]
            (reloadDelta ⟨vnet, print, order⟩ s cfg).changed)) := by
    intro huser name hname hwire
    apply mem_replay_iff_pair hnodup hinj (wireProxyName_ne huser name)
    · exact (hheld _).mpr (kept_wireProxyName hremoved hname hwire)
    · exact closeWireNameForReload_eq_iff.mpr (.inl ⟨hwire, rfl⟩)
    · intro other _ hclosed
      obtain ⟨_, rfl⟩ | ⟨_, hsame⟩ := closeWireNameForReload_eq_iff.mp hclosed
      · exact .inl rfl
      · exact .inr (hinj hsame)
  constructor
  · intro hall huser name hname hwire
    apply (hpair huser name hname hwire).mp
    obtain hreplay | ⟨other, ⟨_, hunknown⟩, hsame⟩ := (hmem _).mp ((hall _).mpr ⟨name, hname, rfl⟩)
    · exact hreplay
    · cases hinj hsame
      exact absurd (.inl hwire) hunknown
  · intro hfollows x
    rw [hmem]
    constructor
    · rintro (hreplay | ⟨name, ⟨hname, _⟩, hx⟩)
      · obtain ⟨hkept, _⟩ | ⟨before, name, after, hchanged, hx, _⟩ :=
          (mem_replay _ _ _ _ _).mp hreplay
        · exact isWireName_of_kept hbare hremoved ((hheld x).mp hkept)
        · have hopened : name ∈ (reloadDelta ⟨vnet, print, order⟩ s cfg).changed := by
            rw [hchanged]
            exact mem_append_right before mem_cons_self
          rw [mem_changed_iff _ _ _ _ _ hnames] at hopened
          exact ⟨name, mem_of_settingsDiffer hopened, hx⟩
      · exact ⟨name, hname, hx⟩
    · rintro ⟨name, hname, rfl⟩
      by_cases hknown : s.Known cfg.user name
      · have hwire : s.Registered (wireProxyName cfg.user name) := by
          obtain hwire | ⟨hregistered, hno⟩ := hknown
          · exact hwire
          · obtain ⟨m, hm⟩ := hbare name hname hregistered
            exact absurd hm (hno m)
        refine .inl ?_
        by_cases huser : cfg.user = []
        · apply mem_replay_of_closed_eq hnodup hinj
          · exact (hheld _).mpr (kept_wireProxyName hremoved hname hwire)
          · intro other
            simp [closeWireNameForReload, wireProxyName, huser]
        · exact (hpair huser name hname hwire).mpr (hfollows huser name hname hwire)
      · exact .inr ⟨name, ⟨hname, hknown⟩, rfl⟩

theorem Applied.plugins_converged_iff (hnames : (names cfg.proxies).Nodup)
    (h : Applied print s (reloadDelta ⟨vnet, print, order⟩ s cfg) addrs r) :
    (forall name, (r.service.pluginHandles.lookup name).isSome = true -> HasPlugin cfg name) ↔
      forall name, (s.pluginHandles.lookup name).isSome = true ->
        (s.Known cfg.user name ∧ name ∉ names cfg.proxies) ∨
          settingsDiffer vnet print s cfg name = true ∨ HasPlugin cfg name := by
  have hhandles : forall name, (r.service.pluginHandles.lookup name).isSome = true ↔
      ((s.pluginHandles.lookup name).isSome = true ∧
        ¬ ((s.Known cfg.user name ∧ name ∉ names cfg.proxies) ∨
          settingsDiffer vnet print s cfg name = true)) ∨ name ∈ addrs.keys := by
    intro name
    rw [h.plugins, isSome_foldl_insert, isSome_foldl_erase (fun name => name)]
    have hgone : (forall other,
        other ∈ (reloadDelta ⟨vnet, print, order⟩ s cfg).removed ++
          (reloadDelta ⟨vnet, print, order⟩ s cfg).changed -> other ≠ name) ↔
        ¬ ((s.Known cfg.user name ∧ name ∉ names cfg.proxies) ∨
          settingsDiffer vnet print s cfg name = true) := by
      rw [← mem_removed_iff vnet print order, ← mem_changed_iff vnet print order s cfg hnames,
        ← mem_append]
      exact ⟨fun hall hmem => hall name hmem rfl, fun hno other hmem heq => hno (heq ▸ hmem)⟩
    rw [hgone]
    rfl
  have hstarted : forall name, name ∈ addrs.keys -> HasPlugin cfg name := by
    intro name hname
    have hplugin := h.started name (AList.lookup_isSome.mpr (AList.mem_keys.mp hname))
    rwa [newConfig_reloadDelta] at hplugin
  constructor
  · intro hall name hname
    by_cases hgone : (s.Known cfg.user name ∧ name ∉ names cfg.proxies) ∨
        settingsDiffer vnet print s cfg name = true
    · exact or_assoc.mp (.inl hgone)
    · exact .inr (.inr (hall name ((hhandles name).mpr (.inl ⟨hname, hgone⟩))))
  · intro hall name hname
    obtain ⟨hold, hstays⟩ | hnew := (hhandles name).mp hname
    · exact (or_assoc.mpr (hall name hold)).resolve_left hstays
    · exact hstarted name hnew

end Order

/-!
## Every order
-/

def HashOrder.first (name : Text) : HashOrder where
  visit := fun names => if name ∈ names then name :: names.erase name else names
  perm := by
    intro names
    split
    · rename_i h
      exact (perm_cons_erase h).symm
    · exact List.Perm.refl names

theorem sublist_changed_iff {vnet : Bool} {print : Printing} {s : Service} {cfg : ClientConfig}
    (hnames : (names cfg.proxies).Nodup) {a b : Text} (hne : a ≠ b)
    (ha : settingsDiffer vnet print s cfg a = true) :
    (forall order, List.Sublist [a, b] (reloadDelta ⟨vnet, print, order⟩ s cfg).changed) ↔
      Follows vnet print s cfg a b := by
  constructor
  · intro h
    have hb : forall order, b ∈ (reloadDelta ⟨vnet, print, order⟩ s cfg).changed := fun order =>
      (h order).subset (mem_cons_of_mem a mem_cons_self)
    have hfirst := h (HashOrder.first b)
    have hnodup := nodup_changed vnet print (HashOrder.first b) s cfg hnames
    have hmem := (mem_changed_iff vnet print (HashOrder.first b) s cfg hnames a).mpr ha
    rw [changed_eq vnet print _ s cfg hnames] at hfirst hnodup hmem
    have hsame : differs print s.proxyInfoMap cfg b = false := by
      cases hdiffers : differs print s.proxyInfoMap cfg b with
      | false => rfl
      | true =>
        obtain ⟨hregistered, hname⟩ := known_of_differs hdiffers
        have hcommon : b ∈ (oldNames s.proxyInfoMap cfg.user).filter fun n =>
            (names cfg.proxies).contains n :=
          mem_filter.mpr ⟨mem_oldNames.mpr (.inl hregistered), contains_iff_mem.mpr hname⟩
        rw [HashOrder.first] at hfirst hnodup hmem
        dsimp only at hfirst hnodup hmem
        rw [if_pos hcommon, filter_cons, if_pos hdiffers, cons_append] at hfirst hnodup hmem
        obtain heq | hlater := mem_cons.mp hmem
        · exact absurd heq hne
        · exact absurd hlater (@not_mem_after _ a b [] _ hnodup hfirst)
    have hvnet : (vnet && vnetDiffers s cfg b) = true := by
      have hdiffer := (mem_changed_iff vnet print (HashOrder.first b) s cfg hnames b).mp
        (hb (HashOrder.first b))
      rwa [settingsDiffer, hsame, Bool.false_or] at hdiffer
    refine ⟨hsame, hvnet, ?_⟩
    cases hdiffers : differs print s.proxyInfoMap cfg a with
    | true => exact .inl rfl
    | false =>
      refine .inr ?_
      obtain ⟨xs, ys, heq, hxs, hys⟩ := sublist_append_iff.mp hfirst
      cases xs with
      | nil =>
        rw [heq]
        exact hys.trans filter_sublist
      | cons x xs =>
        rw [cons_append, cons.injEq] at heq
        rw [← heq.1] at hxs
        have hbase := (mem_filter.mp (hxs.subset mem_cons_self)).2
        rw [hdiffers] at hbase
        cases hbase
  · rintro ⟨hsame, hvnet, hfirst⟩ order
    rw [changed_eq vnet print order s cfg hnames]
    have hlater : forall name, (vnet && vnetDiffers s cfg name) = true ->
        differs print s.proxyInfoMap cfg name = false ->
        (vnet && vnetDiffers s cfg name && !differs print s.proxyInfoMap cfg name) = true := by
      intro name hv hd
      rw [hv, hd]
      rfl
    have hbmem : b ∈ (names cfg.proxies).filter fun n =>
        vnet && vnetDiffers s cfg n && !differs print s.proxyInfoMap cfg n :=
      mem_filter.mpr ⟨mem_of_vnetDiffers (Bool.and_eq_true_iff.mp hvnet).2,
        hlater b hvnet hsame⟩
    cases hdiffers : differs print s.proxyInfoMap cfg a with
    | true =>
      obtain ⟨hregistered, hname⟩ := known_of_differs hdiffers
      have hamem : a ∈ (order.visit ((oldNames s.proxyInfoMap cfg.user).filter fun n =>
          (names cfg.proxies).contains n)).filter (differs print s.proxyInfoMap cfg) := by
        rw [mem_filter, (order.perm _).mem_iff, mem_filter]
        exact ⟨⟨mem_oldNames.mpr (.inl hregistered), contains_iff_mem.mpr hname⟩, hdiffers⟩
      exact List.Sublist.append (singleton_sublist.mpr hamem) (singleton_sublist.mpr hbmem)
    | false =>
      rw [hdiffers] at hfirst
      obtain hfirst | hfirst := hfirst
      · cases hfirst
      · rw [settingsDiffer, hdiffers, Bool.false_or] at ha
        have hfilter := List.Sublist.filter (fun n =>
          vnet && vnetDiffers s cfg n && !differs print s.proxyInfoMap cfg n) hfirst
        have hboth : [a, b].filter (fun n =>
            vnet && vnetDiffers s cfg n && !differs print s.proxyInfoMap cfg n) = [a, b] := by
          rw [filter_cons, if_pos (hlater a ha hdiffers), filter_cons,
            if_pos (hlater b hvnet hsame), filter_nil]
        rw [hboth] at hfilter
        exact hfilter.trans (sublist_append_right _ _)

/-!
## Convergence
-/

/-- A reload that succeeds converges, however hash sets are visited, just if no name of the new
configuration is mistaken for another. -/
theorem reload_converges_iff (vnet : Bool) (print : Printing) (order : HashOrder) (s : Service)
    (inputs : Inputs) (cfg : ClientConfig) (server : List Text)
    (hserver : forall x, x ∈ server ↔ s.Registered x)
    (hcfg : reloadedConfig s inputs = .ok cfg) (hnames : (names cfg.proxies).Nodup)
    (hok : (reloadFromSources ⟨vnet, print, order⟩ s inputs).result = .ok ()) :
    (forall order, Converged cfg server (reloadFromSources ⟨vnet, print, order⟩ s inputs)) ↔
      Unambiguous vnet print s cfg := by
  have happlied : forall order, exists addrs,
      Applied print s (reloadDelta ⟨vnet, print, order⟩ s cfg) addrs
        (reloadFromSources ⟨vnet, print, order⟩ s inputs) := by
    intro order
    have hok := reloadFromSources_isOk hcfg hnames hok order
    rw [reloadFromSources, hcfg] at hok ⊢
    exact applyDelta_applied hok
  have hregistered := fun order =>
    (happlied order).elim fun _ h => h.registered_iff hnames
  constructor
  · intro h
    obtain ⟨addrs, hdone⟩ := happlied order
    obtain ⟨hbare, hremoved⟩ := (registered_converged_iff vnet print).mp fun x =>
      (hregistered order x).symm.trans ((h order).registered x)
    refine ⟨hbare, hremoved, ?_, (hdone.plugins_converged_iff hnames).mp (h order).plugins⟩
    intro huser name hname hwire hdiffer
    apply (sublist_changed_iff hnames (wireProxyName_ne huser name) hdiffer).mp
    intro order
    obtain ⟨addrs, hdone⟩ := happlied order
    exact (hdone.server_converged_iff hnames hserver hbare hremoved).mp (h order).server huser name
      hname hwire ((mem_changed_iff vnet print order s cfg hnames _).mpr hdiffer)
  · intro h order
    obtain ⟨addrs, hdone⟩ := happlied order
    refine ⟨?_, ?_, (hdone.plugins_converged_iff hnames).mpr h.plugins⟩
    · apply (hdone.server_converged_iff hnames hserver h.bare h.removed).mpr
      intro huser name hname hwire hchanged
      have hdiffer := (mem_changed_iff vnet print order s cfg hnames _).mp hchanged
      exact (sublist_changed_iff hnames (wireProxyName_ne huser name) hdiffer).mpr
        (h.changed huser name hname hwire hdiffer) order
    · intro x
      exact (hregistered order x).trans
        ((registered_converged_iff vnet print).mpr ⟨h.bare, h.removed⟩ x)

def tcpProxy (name : Text) : ProxyConfig where
  name := name
  proxyType := "tcp".toList
  localIp := "127.0.0.1".toList
  localPort := 80
  enabled := true

/-- Printing of texts that need no escapes.  Secrets are not set. -/
def plainPrinting : Printing where
  debugTexts := fun texts =>
    '[' :: ", ".toList.intercalate (texts.map fun t => '"' :: t ++ ['"']) ++ [']']
  debugHeaders := fun headers =>
    '[' :: ", ".toList.intercalate (headers.map fun h =>
      "HealthCheckHttpHeader \x7b name: \"".toList ++ h.1 ++ "\", value: \"".toList ++ h.2 ++
        "\" \x7d".toList) ++ [']']
  sortedMap := fun t =>
    '\x7b' :: [','].intercalate ((sortByKey Sigma.fst t.entries).map fun e =>
      '"' :: e.1 ++ "\":\"".toList ++ e.2 ++ ['"']) ++ ['\x7d']
  generateToken := fun s => s

def insertionOrder : HashOrder where
  visit := fun names => names
  perm := fun names => List.Perm.refl names

/-- A client of one user that runs one proxy. -/
def singleService (user name : Text) : Service where
  cfg := { user := user, proxies := [tcpProxy name] }
  proxies := [tcpProxy name]
  proxyInfoMap := (∅ : Table Text ProxyRuntimeInfo).insert (wireProxyName user name)
    (runtimeInfo plainPrinting ∅ (tcpProxy name))
  pluginHandles := ∅
  healthCancels := ∅
  healthProxyConfigs := ∅
  nextMonitor := 0
  visitorReloadNeeded := false

def singleInputs (user name : Text) : Inputs where
  loaded := .ok { user := user, proxies := [tcpProxy name] }
  store := none
  os := []
  startPlugin := fun _ _ => none
  sends := 8

theorem registered_singleService {user name x : Text} :
    (singleService user name).Registered x ↔ x = wireProxyName user name := by
  rw [Service.Registered, singleService, Table.lookup_insert_eq]
  split
  · rename_i h
    exact iff_of_true rfl h
  · rename_i h
    exact iff_of_false (fun hsome => by cases hsome) h

/-- The user stays and one proxy takes the place of another. -/
theorem reload_converges_replaced :
    (reloadFromSources ⟨false, plainPrinting, insertionOrder⟩
        (singleService "u".toList "a".toList) (singleInputs "u".toList "b".toList)).result = .ok () ∧
      Converged { user := "u".toList, proxies := [tcpProxy "b".toList] } ["u.a".toList]
        (reloadFromSources ⟨false, plainPrinting, insertionOrder⟩
          (singleService "u".toList "a".toList) (singleInputs "u".toList "b".toList)) := by
  have hok : (reloadFromSources ⟨false, plainPrinting, insertionOrder⟩
      (singleService "u".toList "a".toList) (singleInputs "u".toList "b".toList)).result = .ok () :=
    rfl
  refine ⟨hok, (reload_converges_iff false plainPrinting insertionOrder
    (singleService "u".toList "a".toList) (singleInputs "u".toList "b".toList)
    { user := "u".toList, proxies := [tcpProxy "b".toList] } ["u.a".toList] ?_ rfl
    (List.nodup_singleton _) hok).mpr ?_ insertionOrder⟩
  · intro x
    rw [registered_singleService, List.mem_singleton]
    rfl
  · refine ⟨?_, ?_, ?_, ?_⟩
    · intro name hname hregistered
      rw [registered_singleService] at hregistered
      exact ⟨_, hregistered⟩
    · intro _ name hwire _ hbare
      rw [registered_singleService] at hwire hbare
      cases wireProxyName_injective _ hwire
      cases hbare
    · intro _ name hname hwire
      rw [registered_singleService] at hwire
      cases wireProxyName_injective _ hwire
      cases List.mem_singleton.mp hname
    · intro name h
      cases h

/-- A proxy is registered without a user.  A reload sets the user: the bare name is a key of the
table, so nothing is said to have changed and the server keeps it. -/
theorem reload_user_orphans_proxy :
    (forall x, x ∈ ["n".toList] ↔ (singleService [] "n".toList).Registered x) ∧
      reloadedConfig (singleService [] "n".toList) (singleInputs "v".toList "n".toList)
        = .ok { user := "v".toList, proxies := [tcpProxy "n".toList] } ∧
      (reloadFromSources ⟨false, plainPrinting, insertionOrder⟩
        (singleService [] "n".toList) (singleInputs "v".toList "n".toList)).result = .ok () ∧
      ¬ Converged { user := "v".toList, proxies := [tcpProxy "n".toList] } ["n".toList]
        (reloadFromSources ⟨false, plainPrinting, insertionOrder⟩
          (singleService [] "n".toList) (singleInputs "v".toList "n".toList)) := by
  refine ⟨?_, rfl, rfl, ?_⟩
  · intro x
    rw [registered_singleService, List.mem_singleton]
    rfl
  · intro h
    have hheld : "n".toList ∈ (reloadFromSources ⟨false, plainPrinting, insertionOrder⟩
        (singleService [] "n".toList) (singleInputs "v".toList "n".toList)).sent.foldl
          applyMessage ["n".toList] := mem_singleton.mpr rfl
    obtain ⟨name, hname, hwire⟩ := (h.server _).mp hheld
    cases mem_singleton.mp hname
    cases hwire

end Client
end FrpRs
