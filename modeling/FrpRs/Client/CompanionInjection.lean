import FrpRs.Client.CompanionNames
import FrpRs.Client.ReloadDelta

/-!
# Injecting companions again

What `inject_socks5_udp_companions_preserving` leaves in a configuration: the parents with their
addresses set, and the companions behind them.  If no proxy asks for port 0 by name, a second
injection into the same sources, given the result of the first, finds the same addresses and
gives the same configuration.
-/

namespace FrpRs
namespace Client

open List Text

/-!
## Additions
-/

def Addition.patch (p : ProxyConfig) (a : Addition) : ProxyConfig :=
  if p.name = a.parent then { p with plugin := p.plugin.map a.setAddresses } else p

theorem Addition.name_patch (p : ProxyConfig) (a : Addition) : (Addition.patch p a).name = p.name := by
  rw [Addition.patch]
  split <;> rfl

theorem name_foldl_patch (additions : List Addition) :
    forall p, (additions.foldl Addition.patch p).name = p.name := by
  induction additions with
  | nil =>
    intro p
    rfl
  | cons a rest ih =>
    intro p
    rw [foldl_cons, ih, Addition.name_patch]

variable {p : ProxyConfig}

theorem foldl_patch_of_ne (additions : List Addition)
    (h : forall a, a ∈ additions -> a.parent ≠ p.name) : additions.foldl Addition.patch p = p := by
  induction additions with
  | nil => rfl
  | cons a rest ih =>
    obtain ⟨hfirst, hrest⟩ := forall_mem_cons.mp h
    rw [foldl_cons, Addition.patch, if_neg (Ne.symm hfirst)]
    exact ih hrest

theorem foldl_patch_of_mem {additions : List Addition} {a : Addition}
    (hnodup : (additions.map Addition.parent).Nodup) (ha : a ∈ additions)
    (hparent : a.parent = p.name) :
    additions.foldl Addition.patch p = { p with plugin := p.plugin.map a.setAddresses } := by
  obtain ⟨before, after, rfl⟩ := append_of_mem ha
  rw [map_append, map_cons, nodup_append] at hnodup
  obtain ⟨_, hafter, hdisjoint⟩ := hnodup
  have hbefore : forall b, b ∈ before -> b.parent ≠ p.name := by
    intro b hb heq
    exact hdisjoint _ (mem_map_of_mem hb) _ mem_cons_self (heq.trans hparent.symm)
  have hlater : forall b, b ∈ after -> b.parent ≠ p.name := by
    intro b hb heq
    exact (nodup_cons.mp hafter).1 (hparent ▸ heq ▸ mem_map_of_mem hb)
  rw [foldl_append, foldl_patch_of_ne before hbefore, foldl_cons, Addition.patch,
    if_pos hparent.symm]
  exact foldl_patch_of_ne after hlater

theorem updateFirst_append {name : Text} (f : ProxyConfig -> ProxyConfig)
    (proxies rest : List ProxyConfig) (hname : name ∈ names proxies)
    (hnodup : (names proxies).Nodup) :
    updateFirst name f (proxies ++ rest) =
      proxies.map (fun p => if p.name = name then f p else p) ++ rest := by
  induction proxies with
  | nil => cases hname
  | cons p ps ih =>
    obtain ⟨hfirst, hps⟩ := nodup_cons.mp hnodup
    rw [cons_append, updateFirst, map_cons, cons_append]
    by_cases heq : p.name = name
    · rw [if_pos heq, if_pos heq]
      have hsame : ps.map (fun p => if p.name = name then f p else p) = ps := by
        have hid : forall q, q ∈ ps -> (if q.name = name then f q else q) = q := by
          intro q hq
          apply if_neg
          intro hqn
          exact hfirst (heq.trans hqn.symm ▸ mem_map_of_mem hq)
        rw [map_congr_left hid, map_id']
      rw [hsame]
    · rw [if_neg heq, if_neg heq]
      obtain hhead | htail := mem_cons.mp hname
      · exact absurd hhead.symm heq
      · rw [ih htail hps]

theorem names_foldl_patch (additions : List Addition) (proxies : List ProxyConfig) :
    names (proxies.map fun p => additions.foldl Addition.patch p) = names proxies := by
  rw [names, names, map_map]
  apply map_congr_left
  intro p _
  exact name_foldl_patch additions p

theorem proxies_foldl_applyAddition (additions : List Addition) :
    forall (cfg : ClientConfig) (proxies rest : List ProxyConfig), cfg.proxies = proxies ++ rest ->
      (names proxies).Nodup -> (forall a, a ∈ additions -> a.parent ∈ names proxies) ->
      (additions.foldl applyAddition cfg).proxies =
        proxies.map (fun p => additions.foldl Addition.patch p) ++
          (rest ++ additions.map Addition.proxy) := by
  induction additions with
  | nil =>
    intro cfg proxies rest hcfg _ _
    rw [foldl_nil, hcfg, map_nil, append_nil]
    congr 1
    exact (map_id _).symm
  | cons a additions ih =>
    intro cfg proxies rest hcfg hnodup hparents
    obtain ⟨hparent, hothers⟩ := forall_mem_cons.mp hparents
    have hnames : names (proxies.map fun p => Addition.patch p a) = names proxies :=
      names_foldl_patch [a] proxies
    have hstep : (applyAddition cfg a).proxies =
        proxies.map (fun p => Addition.patch p a) ++ (rest ++ [a.proxy]) := by
      rw [applyAddition, hcfg, updateFirst_append _ _ _ hparent hnodup, append_assoc]
      rfl
    rw [foldl_cons, ih _ _ _ hstep (hnames.symm ▸ hnodup) (hnames.symm ▸ hothers),
      map_map, map_cons, append_assoc]
    rfl

theorem fields_foldl_applyAddition (additions : List Addition) :
    forall cfg, exists start proxies,
      additions.foldl applyAddition cfg = { cfg with start := start, proxies := proxies } := by
  induction additions with
  | nil =>
    intro cfg
    exact ⟨cfg.start, cfg.proxies, rfl⟩
  | cons a additions ih =>
    intro cfg
    obtain ⟨start, proxies, h⟩ := ih (applyAddition cfg a)
    exact ⟨start, proxies, h⟩

theorem start_foldl_applyAddition_nil (additions : List Addition) :
    forall cfg, cfg.start = [] -> (additions.foldl applyAddition cfg).start = [] := by
  induction additions with
  | nil =>
    intro cfg h
    exact h
  | cons a additions ih =>
    intro cfg h
    apply ih
    rw [applyAddition, h]
    rfl

/-- A companion is started with its parent. -/
theorem mem_start_foldl_applyAddition (additions : List Addition) {name : Text} :
    forall cfg, cfg.start ≠ [] ->
      (name ∈ cfg.start ∨ exists a, a ∈ additions ∧ a.parent ∈ cfg.start ∧ a.proxy.name = name) ->
      name ∈ (additions.foldl applyAddition cfg).start := by
  induction additions with
  | nil =>
    rintro cfg _ (h | ⟨a, ha, _⟩)
    · exact h
    · cases ha
  | cons a additions ih =>
    intro cfg hne h
    have hgrows : forall x, x ∈ cfg.start -> x ∈ (applyAddition cfg a).start := by
      intro x hx
      rw [applyAddition]
      split
      · exact mem_append_left _ hx
      · exact hx
    have hne' : (applyAddition cfg a).start ≠ [] := by
      intro hnil
      obtain ⟨x, hx⟩ := exists_mem_of_ne_nil _ hne
      have hmem := hgrows x hx
      rw [hnil] at hmem
      cases hmem
    apply ih _ hne'
    obtain hmem | ⟨b, hb, hparent, hname⟩ := h
    · exact .inl (hgrows name hmem)
    · cases hb with
      | tail _ hb => exact .inr ⟨b, hb, hgrows _ hparent, hname⟩
      | head =>
        refine .inl ?_
        rw [applyAddition, ← hname]
        split
        · exact mem_append_right _ (mem_singleton.mpr rfl)
        · rename_i hstays
          by_contra hnew
          apply hstays
          have hfresh : (cfg.start.any fun x => x == a.proxy.name) = false := by
            rw [any_eq_false]
            intro x hx hsame
            exact hnew (beq_iff_eq.mp hsame ▸ hx)
          simp [hne, hparent, hfresh]

/-!
## Companions of one proxy
-/

def bindRaw (plugin : PluginConfig) : Text :=
  trim plugin.udpBindAddr

def PortsNamed (cfg : ClientConfig) : Prop :=
  forall p plugin, p ∈ cfg.proxies -> p.plugin = some plugin ->
    skipsCompanion cfg p plugin = false -> bindRaw plugin ≠ [] ->
    (splitHostPort (bindRaw plugin)).map Prod.snd ≠ some 0

def Os.Sound (os : Os) : Prop :=
  forall answer, answer ∈ os -> exists port, answer = .ok port ∧ 0 < port ∧ port < 65536

/-- What an addition was made from. -/
structure MadeFor (cfg : ClientConfig) (p : ProxyConfig) (plugin : PluginConfig) (host : Text)
    (port : Nat) (a : Addition) : Prop where
  configured : p.plugin = some plugin
  follows : skipsCompanion cfg p plugin = false
  parent : a.parent = p.name
  bindAddr : a.bindAddr =
    if bindRaw plugin = [] || (splitHostPort (bindRaw plugin)).map Prod.snd = some 0 then
      some (formatHostPort host port)
    else none
  advertiseAddr : advertised cfg p plugin = .ok (some a.advertiseAddr)
  proxy : a.proxy = companionProxy cfg p host port

variable {previous : List ProxyConfig}

variable {o : Option Addition}

theorem companionFor_cases {cfg : ClientConfig} {os os' : Os}
    (h : companionFor cfg previous os p = (.ok o, os')) :
    (p.plugin = none ∧ o = none ∧ os' = os) ∨ exists plugin, p.plugin = some plugin ∧
      ((skipsCompanion cfg p plugin = true ∧ o = none ∧ os' = os) ∨
        (skipsCompanion cfg p plugin = false ∧ exists host port,
          relayBind os previous p (bindRaw plugin) = (.ok (host, port), os') ∧
            ((advertised cfg p plugin = .ok none ∧ o = none) ∨
              exists a, o = some a ∧ MadeFor cfg p plugin host port a))) := by
  rw [companionFor] at h
  split at h
  · rename_i hplugin
    cases h
    exact .inl ⟨hplugin, rfl, rfl⟩
  · rename_i plugin hplugin
    refine .inr ⟨plugin, hplugin, ?_⟩
    split at h
    · rename_i hskips
      cases h
      exact .inl ⟨hskips, rfl, rfl⟩
    · rename_i hskips
      have hfollows : skipsCompanion cfg p plugin = false := Bool.eq_false_iff.mpr hskips
      refine .inr ⟨hfollows, ?_⟩
      dsimp only at h
      split at h
      · cases h
      · rename_i host port os'' hrelay
        split at h
        · cases h
        · rename_i hadvertised
          cases h
          exact ⟨host, port, hrelay, .inl ⟨hadvertised, rfl⟩⟩
        · rename_i addr hadvertised
          cases h
          exact ⟨host, port, hrelay, .inr ⟨_, rfl, hplugin, hfollows, rfl, rfl, hadvertised, rfl⟩⟩

variable {host : Text} {port : Nat}

theorem relayBind_nil {os os' : Os} (hos : os.Sound)
    (h : relayBind os [] p [] = (.ok (host, port), os')) :
    host = loopback ∧ 0 < port ∧ port < 65536 := by
  have hprevious : previousBind [] p [] = none := rfl
  rw [relayBind, hprevious] at h
  cases os with
  | nil => cases h
  | cons answer rest =>
    obtain ⟨port', rfl, hports⟩ := hos answer mem_cons_self
    have hfirst : (Except.ok (loopback, port'), rest) = ((Except.ok (host, port), os') :
        Except Text (Text × Nat) × Os) := h
    cases hfirst
    exact ⟨rfl, hports⟩

theorem relayBind_named {os os' : Os} {raw : Text} (hraw : raw ≠ [])
    (hnamed : (splitHostPort raw).map Prod.snd ≠ some 0)
    (h : relayBind os previous p raw = (.ok (host, port), os')) :
    splitHostPort raw = some (host, port) := by
  have hprevious : previousBind previous p raw = none := by simp [previousBind, hraw]
  rw [relayBind, hprevious] at h
  dsimp only at h
  rw [if_neg hraw] at h
  split at h
  · cases h
  · rename_i host' port' hsplit
    rw [hsplit] at hnamed
    have hport : port' ≠ 0 := fun hzero => hnamed (by rw [hzero]; rfl)
    rw [if_neg hport] at h
    cases h
    exact hsplit

theorem relayBind_of_split {os : Os} {raw : Text} (hraw : raw ≠ []) (hport : port ≠ 0)
    (hsplit : splitHostPort raw = some (host, port)) :
    relayBind os previous p raw = (.ok (host, port), os) := by
  have hprevious : previousBind previous p raw = none := by simp [previousBind, hraw]
  rw [relayBind, hprevious]
  rw [if_neg hraw, hsplit]
  dsimp only
  rw [if_neg hport]

theorem companionFor_of_made {cfg : ClientConfig} {os os' : Os} {plugin : PluginConfig}
    {a : Addition} (hmade : MadeFor cfg p plugin host port a)
    (hrelay : relayBind os previous p (bindRaw plugin) = (.ok (host, port), os')) :
    companionFor cfg previous os p = (.ok (some a), os') := by
  have hrelay' : relayBind os previous p (trim plugin.udpBindAddr) = (.ok (host, port), os') := hrelay
  rw [companionFor, hmade.configured]
  dsimp only
  rw [hmade.follows, if_neg Bool.false_ne_true, hrelay']
  rw [hmade.advertiseAddr]
  obtain ⟨parent, bindAddr, advertiseAddr, proxy⟩ := a
  obtain ⟨_, _, hparent, hbind, _, hproxy⟩ := hmade
  dsimp only at hparent hbind hproxy ⊢
  rw [hparent, hbind, hproxy]
  rfl

theorem relayBind_isOk {os : Os} (previous : List ProxyConfig) (p : ProxyConfig) (hos : os.Sound)
    (hne : os ≠ []) : exists bind os', relayBind os previous p [] = (.ok bind, os') := by
  rw [relayBind]
  split
  · rename_i bind _
    exact ⟨bind, os, rfl⟩
  · cases os with
    | nil => exact absurd rfl hne
    | cons answer rest =>
      obtain ⟨port, rfl, _⟩ := hos answer mem_cons_self
      exact ⟨(loopback, port), rest, rfl⟩

theorem allocateUdpRelayPort_os (os : Os) (host : Text) :
    (allocateUdpRelayPort os host).2 = os ∨
      exists answer, os = answer :: (allocateUdpRelayPort os host).2 := by
  cases os with
  | nil => exact .inl rfl
  | cons answer rest => cases answer <;> exact .inr ⟨_, rfl⟩

theorem relayBind_os (os : Os) (previous : List ProxyConfig) (p : ProxyConfig) (raw : Text) :
    (relayBind os previous p raw).2 = os ∨
      exists answer, os = answer :: (relayBind os previous p raw).2 := by
  rw [relayBind]
  split
  · exact .inl rfl
  · split
    · have hos := allocateUdpRelayPort_os os "127.0.0.1".toList
      split
      · rename_i hport
        rw [hport] at hos
        exact hos
      · rename_i hport
        rw [hport] at hos
        exact hos
    · split
      · exact .inl rfl
      · rename_i host port _
        split
        · have hos := allocateUdpRelayPort_os os host
          split
          · rename_i hport
            rw [hport] at hos
            exact hos
          · rename_i hport
            rw [hport] at hos
            exact hos
        · exact .inl rfl

theorem companionFor_os {cfg : ClientConfig} {os os' : Os}
    (h : companionFor cfg previous os p = (.ok o, os')) :
    os' = os ∨ exists answer, os = answer :: os' := by
  obtain ⟨_, _, rfl⟩ | ⟨plugin, _, ⟨_, _, rfl⟩ | ⟨_, host, port, hrelay, _⟩⟩ :=
    companionFor_cases h
  · exact .inl rfl
  · exact .inl rfl
  · have hos := relayBind_os os previous p (bindRaw plugin)
    rw [hrelay] at hos
    exact hos

theorem Os.Sound.after {os os' : Os} (hos : os.Sound)
    (h : os' = os ∨ exists answer, os = answer :: os') : os'.Sound := by
  obtain rfl | ⟨answer, rfl⟩ := h
  · exact hos
  · intro other hother
    exact hos other (mem_cons_of_mem answer hother)

/-- The same companion again: its port is found in the earlier proxies. -/
theorem companionFor_again {cfg : ClientConfig} {os os' fresh : Os}
    (hfirst : companionFor cfg [] os p = (.ok o, os')) (hos : os.Sound) (hfresh : fresh.Sound)
    (hne : fresh ≠ []) (hp : p ∈ cfg.proxies) (hnamed : PortsNamed cfg)
    (hprevious : forall a plugin, o = some a -> p.plugin = some plugin -> bindRaw plugin = [] ->
      previousBind previous p [] = some (loopback, a.proxy.localPort)) :
    exists fresh', companionFor cfg previous fresh p = (.ok o, fresh') := by
  obtain ⟨hplugin, rfl, _⟩ | ⟨plugin, hplugin, ⟨hskips, rfl, _⟩ | ⟨hfollows, host, port, hrelay, hdone⟩⟩ :=
    companionFor_cases hfirst
  · rw [companionFor, hplugin]
    exact ⟨fresh, rfl⟩
  · rw [companionFor, hplugin]
    dsimp only
    rw [if_pos hskips]
    exact ⟨fresh, rfl⟩
  · -- The relay has an address again, and the same one if a companion was made.
    have hagain : exists bind fresh', relayBind fresh previous p (bindRaw plugin) = (.ok bind, fresh') ∧
        forall a, o = some a -> MadeFor cfg p plugin host port a -> bind = (host, port) := by
      by_cases hraw : bindRaw plugin = []
      · rw [hraw] at hrelay ⊢
        obtain ⟨hhost, _, _⟩ := relayBind_nil hos hrelay
        obtain ⟨bind, fresh', hbind⟩ := relayBind_isOk previous p hfresh hne
        refine ⟨bind, fresh', hbind, ?_⟩
        intro a ha hmade
        rw [relayBind, hprevious a plugin ha hplugin hraw] at hbind
        cases hbind
        rw [hmade.proxy, hhost]
        rfl
      · have hsplit := relayBind_named hraw (hnamed p plugin hp hplugin hfollows hraw) hrelay
        have hport : port ≠ 0 := by
          intro hzero
          apply hnamed p plugin hp hplugin hfollows hraw
          rw [hsplit, hzero]
          rfl
        exact ⟨(host, port), fresh, relayBind_of_split hraw hport hsplit, fun _ _ _ => rfl⟩
    obtain ⟨bind, fresh', hbind, hsame⟩ := hagain
    obtain ⟨hadvertised, rfl⟩ | ⟨a, rfl, hmade⟩ := hdone
    · have hbind' : relayBind fresh previous p (trim plugin.udpBindAddr) = (.ok bind, fresh') := hbind
      rw [companionFor, hplugin]
      dsimp only
      rw [hfollows, if_neg Bool.false_ne_true, hbind']
      rw [hadvertised]
      exact ⟨fresh', rfl⟩
    · rw [hsame a rfl hmade] at hbind
      exact ⟨fresh', companionFor_of_made hmade hbind⟩

/-!
## All companions
-/

theorem additionsFor_cons {cfg : ClientConfig} {os os' : Os} {ps : List ProxyConfig}
    {additions : List Addition} (h : additionsFor cfg previous os (p :: ps) = (.ok additions, os')) :
    exists o between rest, companionFor cfg previous os p = (.ok o, between) ∧
      additionsFor cfg previous between ps = (.ok rest, os') ∧ additions = o.toList ++ rest := by
  rw [additionsFor] at h
  split at h
  · cases h
  · rename_i o between hfirst
    split at h
    · cases h
    · rename_i rest os'' hrest
      cases h
      exact ⟨o, between, rest, hfirst, hrest, rfl⟩

theorem additionsFor_made {cfg : ClientConfig} (ps : List ProxyConfig) :
    forall {os os' : Os} {additions : List Addition}, os.Sound ->
      additionsFor cfg [] os ps = (.ok additions, os') -> forall a, a ∈ additions ->
        exists p plugin host port, p ∈ ps ∧ MadeFor cfg p plugin host port a ∧
          (bindRaw plugin = [] -> host = loopback ∧ 0 < port ∧ port < 65536) := by
  induction ps with
  | nil =>
    intro os os' additions _ h a ha
    cases h
    cases ha
  | cons p ps ih =>
    intro os os' additions hos h a ha
    obtain ⟨o, between, rest, hfirst, hrest, rfl⟩ := additionsFor_cons h
    obtain hhead | htail := mem_append.mp ha
    · obtain ⟨_, rfl, _⟩ | ⟨plugin, _, ⟨_, rfl, _⟩ | ⟨_, host, port, hrelay, ⟨_, rfl⟩ | ⟨b, rfl, hmade⟩⟩⟩ :=
        companionFor_cases hfirst
      · cases hhead
      · cases hhead
      · cases hhead
      · cases mem_singleton.mp hhead
        refine ⟨p, plugin, host, port, mem_cons_self, hmade, ?_⟩
        intro hraw
        rw [hraw] at hrelay
        exact relayBind_nil hos hrelay
    · obtain ⟨q, plugin, host, port, hq, hmade⟩ := ih (hos.after (companionFor_os hfirst)) hrest a htail
      exact ⟨q, plugin, host, port, mem_cons_of_mem p hq, hmade⟩

theorem parents_sublist {cfg : ClientConfig} (ps : List ProxyConfig) :
    forall {os os' : Os} {additions : List Addition},
      additionsFor cfg previous os ps = (.ok additions, os') ->
      List.Sublist (additions.map Addition.parent) (names ps) := by
  induction ps with
  | nil =>
    intro os os' additions h
    cases h
    exact List.Sublist.refl []
  | cons p ps ih =>
    intro os os' additions h
    obtain ⟨o, between, rest, hfirst, hrest, rfl⟩ := additionsFor_cons h
    obtain ⟨_, rfl, _⟩ | ⟨plugin, _, ⟨_, rfl, _⟩ | ⟨_, host, port, _, ⟨_, rfl⟩ | ⟨a, rfl, hmade⟩⟩⟩ :=
      companionFor_cases hfirst
    · exact (ih hrest).cons _
    · exact (ih hrest).cons _
    · exact (ih hrest).cons _
    · have hparent : a.parent = p.name := hmade.parent
      rw [Option.toList_some, singleton_append, map_cons, hparent]
      exact (ih hrest).cons_cons p.name

theorem additionsFor_again {cfg : ClientConfig} (hnamed : PortsNamed cfg) (ps : List ProxyConfig) :
    forall {os os' fresh : Os} {additions : List Addition},
      additionsFor cfg [] os ps = (.ok additions, os') -> os.Sound -> fresh.Sound ->
      ps.length ≤ fresh.length -> (forall p, p ∈ ps -> p ∈ cfg.proxies) ->
      (forall p a plugin, p ∈ ps -> a ∈ additions -> a.parent = p.name ->
        p.plugin = some plugin -> bindRaw plugin = [] ->
        previousBind previous p [] = some (loopback, a.proxy.localPort)) ->
      exists fresh', additionsFor cfg previous fresh ps = (.ok additions, fresh') := by
  induction ps with
  | nil =>
    intro os os' fresh additions h _ _ _ _ _
    cases h
    exact ⟨fresh, rfl⟩
  | cons p ps ih =>
    intro os os' fresh additions h hos hfresh hlength hmem hprevious
    obtain ⟨o, between, rest, hfirst, hrest, rfl⟩ := additionsFor_cons h
    have hne : fresh ≠ [] := ne_nil_of_length_pos (Nat.lt_of_lt_of_le (Nat.succ_pos _) hlength)
    have hparent : forall a, o = some a -> a.parent = p.name := by
      intro a ha
      obtain ⟨_, rfl, _⟩ | ⟨plugin, _, ⟨_, rfl, _⟩ | ⟨_, host, port, _, ⟨_, rfl⟩ | ⟨b, rfl, hmade⟩⟩⟩ :=
        companionFor_cases hfirst
      · cases ha
      · cases ha
      · cases ha
      · cases ha
        exact hmade.parent
    obtain ⟨left, hagain⟩ := companionFor_again hfirst hos hfresh hne (hmem p mem_cons_self)
      hnamed fun a plugin ha hplugin hraw => hprevious p a plugin mem_cons_self
        (mem_append_left _ (by rw [ha]; exact mem_singleton.mpr rfl)) (hparent a ha)
        hplugin hraw
    have hleft := companionFor_os hagain
    have hshorter : ps.length ≤ left.length := by
      obtain rfl | ⟨answer, rfl⟩ := hleft
      · exact Nat.le_of_succ_le hlength
      · exact Nat.le_of_succ_le_succ hlength
    obtain ⟨fresh', hothers⟩ := ih hrest (hos.after (companionFor_os hfirst)) (hfresh.after hleft)
      hshorter (fun q hq => hmem q (mem_cons_of_mem p hq))
      fun q a plugin hq ha => hprevious q a plugin (mem_cons_of_mem p hq)
        (mem_append_right _ ha)
    rw [additionsFor, hagain]
    dsimp only
    rw [hothers]
    exact ⟨fresh', rfl⟩

/-!
## Injection
-/

theorem autoCompanionParent_companionProxy (cfg : ClientConfig) (p : ProxyConfig) (host : Text)
    (port : Nat) : autoCompanionParent (companionProxy cfg p host port) = some p.name := by
  have hkind : (companionProxy cfg p host port).annotations.lookup autoCompanionAnnotation
      = some "socks5-udp".toList := by
    rw [companionProxy, Table.lookup_insert_eq, if_neg (by decide), Table.lookup_insert_eq,
      if_pos rfl]
  have hparent : (companionProxy cfg p host port).annotations.lookup autoCompanionParentAnnotation
      = some p.name := by
    rw [companionProxy, Table.lookup_insert_eq, if_pos rfl]
  have htype : (companionProxy cfg p host port).proxyType = "udp".toList := rfl
  rw [autoCompanionParent, if_neg (not_not.mpr htype), if_neg (not_not.mpr hkind), hparent]

section Injection

variable {cfg : ClientConfig} {os os' : Os} {additions : List Addition}

theorem injected_proxies (hnames : (names cfg.proxies).Nodup)
    (h : additionsFor cfg [] os cfg.proxies = (.ok additions, os')) :
    (additions.foldl applyAddition cfg).proxies =
      cfg.proxies.map (fun p => additions.foldl Addition.patch p) ++
        additions.map Addition.proxy := by
  have hparents : forall a, a ∈ additions -> a.parent ∈ names cfg.proxies := fun a ha =>
    (parents_sublist cfg.proxies h).subset (mem_map_of_mem ha)
  exact proxies_foldl_applyAddition additions cfg cfg.proxies [] (append_nil _).symm hnames
    hparents

theorem injected_names_nodup (hos : os.Sound) (hnames : (names cfg.proxies).Nodup)
    (h : additionsFor cfg [] os cfg.proxies = (.ok additions, os')) :
    (names (additions.foldl applyAddition cfg).proxies).Nodup := by
  have hname : forall a, a ∈ additions -> a.proxy.name = uniqueCompanionName cfg.proxies a.parent := by
    intro a ha
    obtain ⟨p, plugin, host, port, _, hmade, _⟩ := additionsFor_made cfg.proxies hos h a ha
    rw [hmade.proxy, hmade.parent]
    rfl
  have hcompanions : names (additions.map Addition.proxy) =
      (additions.map Addition.parent).map (uniqueCompanionName cfg.proxies) := by
    rw [names, map_map, map_map]
    exact map_congr_left hname
  have hsplit : names (cfg.proxies.map (fun p => additions.foldl Addition.patch p) ++
      additions.map Addition.proxy) = names cfg.proxies ++
        (additions.map Addition.parent).map (uniqueCompanionName cfg.proxies) := by
    rw [← hcompanions, ← names_foldl_patch additions cfg.proxies]
    exact map_append
  rw [injected_proxies hnames h, hsplit, nodup_append]
  refine ⟨hnames, ?_, ?_⟩
  · exact ((parents_sublist cfg.proxies h).nodup hnames).map (uniqueCompanionName_injective _)
  · intro a ha b hb hab
    obtain ⟨parent, _, rfl⟩ := mem_map.mp hb
    exact uniqueCompanionName_not_mem cfg.proxies parent (hab ▸ ha)

/-- The earlier proxies tell the port of every relay that the system placed. -/
theorem previousBind_injected (hos : os.Sound) (hnames : (names cfg.proxies).Nodup)
    (h : additionsFor cfg [] os cfg.proxies = (.ok additions, os')) {p : ProxyConfig}
    {a : Addition} {plugin : PluginConfig} (hp : p ∈ cfg.proxies) (ha : a ∈ additions)
    (hparent : a.parent = p.name) (hplugin : p.plugin = some plugin) (hraw : bindRaw plugin = []) :
    previousBind (additions.foldl applyAddition cfg).proxies p [] =
      some (loopback, a.proxy.localPort) := by
  obtain ⟨q, plugin', host, port, hq, hmade, hchosen⟩ := additionsFor_made cfg.proxies hos h a ha
  have hsame : q = p := by
    have hfirst := findProxy_of_mem hnames hq
    rw [← hmade.parent, hparent, findProxy_of_mem hnames hp] at hfirst
    exact (Option.some.inj hfirst).symm
  rw [hsame] at hmade
  have hplugins := hmade.configured
  rw [hplugin] at hplugins
  cases hplugins
  obtain ⟨hhost, hpositive, hport⟩ := hchosen hraw
  have hcompanion : ((additions.foldl applyAddition cfg).proxies.any fun q =>
      autoCompanionParent q = some p.name) = true := by
    rw [injected_proxies hnames h, any_append, Bool.or_eq_true, any_eq_true,
      any_eq_true]
    refine .inr ⟨a.proxy, mem_map_of_mem ha, ?_⟩
    rw [hmade.proxy, autoCompanionParent_companionProxy]
    exact decide_eq_true rfl
  have hpatched : findProxy (additions.foldl applyAddition cfg).proxies p.name =
      some { p with plugin := p.plugin.map a.setAddresses } := by
    have hmem : additions.foldl Addition.patch p ∈ (additions.foldl applyAddition cfg).proxies := by
      rw [injected_proxies hnames h]
      exact mem_append_left _ (mem_map_of_mem (f := fun p =>
        additions.foldl Addition.patch p) hp)
    have hfound := findProxy_of_mem (injected_names_nodup hos hnames h) hmem
    rwa [foldl_patch_of_mem ((parents_sublist cfg.proxies h).nodup hnames) ha hparent] at hfound
  have hbind : (a.setAddresses plugin).udpBindAddr = formatHostPort loopback port := by
    rw [Addition.setAddresses, hmade.bindAddr, hraw, hhost]
    rfl
  have hfind : ((additions.foldl applyAddition cfg).proxies.find? fun q => q.name = p.name) =
      some { p with plugin := p.plugin.map a.setAddresses } := hpatched
  have hne : formatHostPort loopback port ≠ [] := cons_ne_nil _ _
  have hnonzero : port ≠ 0 := Nat.ne_of_gt hpositive
  have htrim := trim_formatHostPort_loopback port
  have hsplit := splitHostPort_loopback hport
  have hlocal : a.proxy.localPort = port := by rw [hmade.proxy]; rfl
  generalize formatHostPort loopback port = addr at hbind hne htrim hsplit
  have haddr : Option.filter (fun t => decide (t ≠ [])) (some addr) = some addr :=
    Option.filter_eq_some_iff.mpr ⟨rfl, decide_eq_true hne⟩
  rw [previousBind, hcompanion, hfind, hplugin]
  simp only [decide_true, Bool.and_true, if_true, Option.bind_some, Option.map_some, hbind, htrim]
  rw [haddr, Option.bind_some, hsplit, hlocal]
  exact Option.filter_eq_some_iff.mpr ⟨rfl, decide_eq_true hnonzero⟩

theorem inject_again {fresh : Os} {cfg' : ClientConfig} (hos : os.Sound) (hfresh : fresh.Sound)
    (hlength : cfg.proxies.length ≤ fresh.length) (hnames : (names cfg.proxies).Nodup)
    (hnamed : PortsNamed cfg) (h : (injectSocks5UdpCompanions cfg os).1 = .ok cfg') :
    (injectSocks5UdpCompanionsPreserving cfg cfg'.proxies fresh).1 = .ok cfg' := by
  rw [injectSocks5UdpCompanions, injectSocks5UdpCompanionsPreserving] at h
  split at h
  · cases h
  · rename_i additions os' hadditions
    cases h
    obtain ⟨fresh', hagain⟩ := additionsFor_again hnamed cfg.proxies hadditions hos hfresh hlength
      (fun p hp => hp) fun p a plugin hp ha hparent hplugin hraw =>
        previousBind_injected hos hnames hadditions hp ha hparent hplugin hraw
    rw [injectSocks5UdpCompanionsPreserving, hagain]

end Injection

end Client
end FrpRs
