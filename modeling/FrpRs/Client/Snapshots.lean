import FrpRs.Client.StartUp
import FrpRs.Data.Lines
import Mathlib.Data.Countable.Basic
import Mathlib.Logic.Equiv.List

/-!
# What a snapshot tells apart

`config_snapshot` joins the fields of a proxy into one text with `|` and `=`.  The values are not
escaped: a value may run on with a separator and look like the fields that follow it in another
configuration.
-/

namespace FrpRs
namespace Client

open List

/-!
## Joined fields
-/

def fieldText (field : Text × Text) : Text :=
  field.1 ++ '=' :: field.2

def joined (fields : List (Text × Text)) : Text :=
  ['|'].intercalate (fields.map fieldText)

/-- What follows a field. -/
def followed : List (Text × Text) -> Text
  | [] => []
  | field :: rest => '|' :: joined (field :: rest)

/-- The lists begin alike; then a value of the second goes on with a separator and the fields that
follow in the first. -/
def RunsOver : List (Text × Text) -> List (Text × Text) -> Prop
  | (k, v) :: as, (k', v') :: bs =>
    k = k' ∧ (v = v' ∧ RunsOver as bs ∨
      as ≠ [] ∧ exists w, v' = v ++ '|' :: w ∧ joined as = w ++ followed bs)
  | _, _ => False

def CleanKeys (fields : List (Text × Text)) : Prop :=
  forall field, field ∈ fields -> '=' ∉ field.1

theorem joined_cons (k v : Text) (rest : List (Text × Text)) :
    joined ((k, v) :: rest) = k ++ '=' :: (v ++ followed rest) := by
  cases rest with
  | nil => simp [joined, fieldText, followed, intercalate]
  | cons field rest => simp [joined, fieldText, followed, intercalate]

theorem joined_ne_nil (field : Text × Text) (rest : List (Text × Text)) :
    joined (field :: rest) ≠ [] := by
  rw [joined_cons]
  exact append_ne_nil_of_right_ne_nil _ (cons_ne_nil _ _)

variable {as bs : List (Text × Text)}

theorem followed_inj :
    followed as = followed bs ↔ joined as = joined bs := by
  cases as with
  | nil =>
    cases bs with
    | nil => exact Iff.rfl
    | cons b bs => exact iff_of_false (cons_ne_nil _ _).symm (joined_ne_nil b bs).symm
  | cons a as =>
    cases bs with
    | nil => exact iff_of_false (cons_ne_nil _ _) (joined_ne_nil a as)
    | cons b bs => exact ⟨fun h => (cons.inj h).2, fun h => congrArg (cons '|') h⟩

theorem runsOver_joined (h : RunsOver as bs) :
    joined as = joined bs ∧ as ≠ bs := by
  induction as generalizing bs with
  | nil => exact h.elim
  | cons a as ih =>
    cases bs with
    | nil => exact h.elim
    | cons b bs =>
      obtain ⟨k, v⟩ := a
      obtain ⟨k', v'⟩ := b
      obtain ⟨rfl, ⟨rfl, hrest⟩ | ⟨hne, w, rfl, hw⟩⟩ := h
      · obtain ⟨hjoined, hdiffer⟩ := ih hrest
        rw [joined_cons, joined_cons, followed_inj.mpr hjoined]
        exact ⟨rfl, fun heq => hdiffer (cons.inj heq).2⟩
      · constructor
        · obtain ⟨a, as, rfl⟩ := exists_cons_of_ne_nil hne
          rw [joined_cons, joined_cons, followed, hw, append_assoc, cons_append]
        · intro heq
          have hlength := congrArg length (Prod.mk.inj (cons.inj heq).1).2
          rw [length_append, length_cons] at hlength
          omega

/-- The shorter of two values is followed by what the longer one goes on with. -/
theorem split_value {v c : Text} (h : followed as = c ++ followed bs) :
    c = [] ∧ joined as = joined bs ∨
      as ≠ [] ∧ exists w, v ++ c = v ++ '|' :: w ∧ joined as = w ++ followed bs := by
  cases c with
  | nil => exact .inl ⟨rfl, followed_inj.mp h⟩
  | cons d w =>
    cases as with
    | nil => cases h
    | cons a as =>
      obtain ⟨rfl, hjoined⟩ := cons.inj h
      exact .inr ⟨cons_ne_nil a as, w, rfl, hjoined⟩

theorem joined_eq_iff (has : CleanKeys as) (hbs : CleanKeys bs) :
    joined as = joined bs ↔ as = bs ∨ RunsOver as bs ∨ RunsOver bs as := by
  constructor
  · intro h
    induction as generalizing bs with
    | nil =>
      cases bs with
      | nil => exact .inl rfl
      | cons b bs => exact absurd h.symm (joined_ne_nil b bs)
    | cons a as ih =>
      cases bs with
      | nil => exact absurd h (joined_ne_nil a as)
      | cons b bs =>
        obtain ⟨k, v⟩ := a
        obtain ⟨k', v'⟩ := b
        obtain ⟨hk, hcleanA⟩ := forall_mem_cons.mp has
        obtain ⟨hk', hcleanB⟩ := forall_mem_cons.mp hbs
        rw [joined_cons, joined_cons] at h
        have hsame (heq : v = v') (hjoined : joined as = joined bs) :
            (k, v) :: as = (k, v') :: bs ∨ RunsOver ((k, v) :: as) ((k, v') :: bs) ∨
              RunsOver ((k, v') :: bs) ((k, v) :: as) := by
          subst heq
          rcases ih hcleanA hcleanB hjoined with rfl | hover | hover
          · exact .inl rfl
          · exact .inr (.inl ⟨rfl, .inl ⟨rfl, hover⟩⟩)
          · exact .inr (.inr ⟨rfl, .inl ⟨rfl, hover⟩⟩)
        obtain ⟨hkeys, hvalues⟩ := Lines.append_cut_inj hk hk' h
        change k = k' at hkeys
        subst hkeys
        rcases append_eq_append_iff.mp hvalues with ⟨c, rfl, hc⟩ | ⟨c, rfl, hc⟩
        · rcases split_value hc with ⟨rfl, hjoined⟩ | hover
          · exact hsame (append_nil v).symm hjoined
          · exact .inr (.inl ⟨rfl, .inr hover⟩)
        · rcases split_value hc with ⟨rfl, hjoined⟩ | hover
          · exact hsame (append_nil v') hjoined.symm
          · exact .inr (.inr ⟨rfl, .inr hover⟩)
  · rintro (rfl | hover | hover)
    · rfl
    · exact (runsOver_joined hover).1
    · exact (runsOver_joined hover).1.symm

theorem eq_of_perm_of_keys (hperm : as ~ bs) (hkeys : as.map Prod.fst = bs.map Prod.fst)
    (hnodup : (as.map Prod.fst).Nodup) : as = bs := by
  induction as generalizing bs with
  | nil => exact (nil_perm.mp hperm).symm
  | cons a as ih =>
    cases bs with
    | nil => cases hkeys
    | cons b bs =>
      obtain ⟨hkey, hrest⟩ := cons.inj hkeys
      obtain ⟨hnew, hnodup⟩ := nodup_cons.mp hnodup
      have hfirst : a = b := by
        rcases mem_cons.mp (hperm.mem_iff.mp mem_cons_self) with heq | hlater
        · exact heq
        · exact absurd (hrest ▸ mem_map_of_mem hlater) hnew
      subst hfirst
      rw [ih hperm.cons_inv hrest hnodup]

/-!
## The covered fields
-/

def SameMap (a b : Table Text Text) : Prop :=
  forall key, a.lookup key = b.lookup key

def PluginConfig.Agree (a b : PluginConfig) : Prop :=
  a.pluginType = b.pluginType ∧ a.httpUser = b.httpUser ∧ a.httpPassword = b.httpPassword ∧
    a.localAddr = b.localAddr ∧ a.localPath = b.localPath ∧ a.stripPrefix = b.stripPrefix ∧
    a.hostHeaderRewrite = b.hostHeaderRewrite ∧ a.username = b.username ∧
    a.password = b.password ∧ a.crtFile = b.crtFile ∧ a.keyFile = b.keyFile ∧
    a.serverName = b.serverName ∧ a.secretKey = b.secretKey ∧ a.bindAddr = b.bindAddr ∧
    a.bindPort = b.bindPort ∧ a.proxyProtocolVersion = b.proxyProtocolVersion ∧
    SameMap a.requestHeaders b.requestHeaders ∧ a.enableHttp2 = b.enableHttp2 ∧
    a.udpEnable = b.udpEnable ∧ a.udpAutoCompanion = b.udpAutoCompanion ∧
    a.udpBindAddr = b.udpBindAddr ∧ a.udpAdvertiseAddr = b.udpAdvertiseAddr

/-- The same values in every field of the snapshot. -/
def ProxyConfig.Agree (a b : ProxyConfig) : Prop :=
  a.proxyType = b.proxyType ∧ a.localIp = b.localIp ∧ a.localPort = b.localPort ∧
    a.remotePort = b.remotePort ∧ a.useEncryption = b.useEncryption ∧
    a.useCompression = b.useCompression ∧ a.sk = b.sk ∧ a.customDomains = b.customDomains ∧
    a.subdomain = b.subdomain ∧ a.httpUser = b.httpUser ∧ a.httpPwd = b.httpPwd ∧
    a.hostHeaderRewrite = b.hostHeaderRewrite ∧ a.locations = b.locations ∧
    a.bandwidthLimit = b.bandwidthLimit ∧ a.bandwidthLimitMode = b.bandwidthLimitMode ∧
    a.group = b.group ∧ a.groupKey = b.groupKey ∧ a.multiplexer = b.multiplexer ∧
    a.proxyProtocolVersion = b.proxyProtocolVersion ∧ a.vnetIp = b.vnetIp ∧
    a.vnetNetmask = b.vnetNetmask ∧ a.vnetMtu = b.vnetMtu ∧
    a.advertiseSubnet = b.advertiseSubnet ∧ a.virtualNet = b.virtualNet ∧
    a.healthCheckType = b.healthCheckType ∧ a.healthCheckUrl = b.healthCheckUrl ∧
    a.healthCheckHttpHeaders = b.healthCheckHttpHeaders ∧
    a.healthCheckIntervalSeconds = b.healthCheckIntervalSeconds ∧
    a.healthCheckTimeoutSeconds = b.healthCheckTimeoutSeconds ∧
    a.healthCheckMaxFailed = b.healthCheckMaxFailed ∧ SameMap a.headers b.headers ∧
    SameMap a.responseHeaders b.responseHeaders ∧ a.routeByHttpUser = b.routeByHttpUser ∧
    a.allowUsers = b.allowUsers ∧ SameMap a.annotations b.annotations ∧ SameMap a.metas b.metas ∧
    a.httpPassword = b.httpPassword ∧ a.enabled = b.enabled ∧
    a.disableAssistedAddrs = b.disableAssistedAddrs ∧
    Option.Rel PluginConfig.Agree a.plugin b.plugin

/-- The texts of lists and maps tell them apart, and so does the hash of a secret. -/
structure Printing.Faithful (print : Printing) : Prop where
  texts : Function.Injective print.debugTexts
  headers : Function.Injective print.debugHeaders
  maps : forall a b, print.sortedMap a = print.sortedMap b ↔ SameMap a b
  secrets : Function.Injective print.generateToken
  hashed : forall s, print.generateToken s ≠ []

theorem intText_inj {m n : Int} : intText m = intText n ↔ m = n := by
  have hdash (n : Nat) (rest : Text) : natText n ≠ '-' :: rest := by
    intro h
    have hdigit : '-'.isDigit = true :=
      Nat.isDigit_of_mem_toDigits (by decide) (by decide) (show '-' ∈ natText n by simp [h])
    cases hdigit
  refine ⟨fun h => ?_, congrArg _⟩
  cases m with
  | ofNat m =>
    cases n with
    | ofNat n => exact congrArg Int.ofNat (natText_injective h)
    | negSucc n => exact absurd h (hdash _ _)
  | negSucc m =>
    cases n with
    | ofNat n => exact absurd h.symm (hdash _ _)
    | negSucc n => exact congrArg Int.negSucc (Nat.succ.inj (natText_injective (cons.inj h).2))

theorem boolText_inj {a b : Bool} : boolText a = boolText b ↔ a = b := by
  cases a <;> cases b <;> decide

theorem optionBoolText_inj {a b : Option Bool} : optionBoolText a = optionBoolText b ↔ a = b := by
  rcases a with _ | _ | _ <;> rcases b with _ | _ | _ <;> decide

section Faithful

variable {print : Printing} (hprint : print.Faithful)
include hprint

theorem Printing.Faithful.hashSecret_inj {s s' : Text} :
    print.hashSecret s = print.hashSecret s' ↔ s = s' := by
  refine ⟨?_, congrArg _⟩
  unfold Printing.hashSecret
  split
  · rename_i hs
    split
    · rename_i hs'
      exact fun _ => hs.trans hs'.symm
    · exact fun h => absurd h.symm (hprint.hashed s')
  · split
    · exact fun h => absurd h (hprint.hashed s)
    · exact fun h => hprint.secrets h

theorem pluginFields_eq_iff (a b : PluginConfig) :
    pluginFields print a = pluginFields print b ↔ a.Agree b := by
  simp only [pluginFields, PluginConfig.Agree, cons.injEq, Prod.mk.injEq, true_and, and_true,
    hprint.hashSecret_inj, hprint.maps, intText_inj, boolText_inj, optionBoolText_inj]

theorem snapshotFields_eq_iff (a b : ProxyConfig) :
    snapshotFields print a = snapshotFields print b ↔ a.Agree b := by
  simp only [snapshotFields, ProxyConfig.Agree, cons_append, nil_append, cons.injEq, Prod.mk.injEq,
    true_and, hprint.hashSecret_inj, hprint.maps, boolText_inj, natText_injective.eq_iff,
    hprint.texts.eq_iff, hprint.headers.eq_iff]
  iterate 39 refine and_congr_right fun _ => ?_
  cases a.plugin with
  | none =>
    cases b.plugin with
    | none => exact iff_of_true rfl Option.Rel.none
    | some y => exact iff_of_false (by simp [pluginFields]) fun h => by cases h
  | some x =>
    cases b.plugin with
    | none => exact iff_of_false (by simp [pluginFields]) fun h => by cases h
    | some y => exact (pluginFields_eq_iff hprint x y).trans Option.rel_some_some.symm

end Faithful

def snapshotKeys (plugin : Bool) : List Text :=
  (snapshotFields ⟨fun _ => [], fun _ => [], fun _ => [], id⟩
    { plugin := if plugin then some {} else none }).map Prod.fst

variable (print : Printing)

theorem keys_snapshotFields (p : ProxyConfig) :
    (snapshotFields print p).map Prod.fst = snapshotKeys p.plugin.isSome := by
  rcases p with ⟨_, _, _, _, _, _, _, _, plugin⟩
  cases plugin <;> rfl

theorem snapshotKeys_nodup (plugin : Bool) : (snapshotKeys plugin).Nodup := by
  cases plugin <;> decide +kernel

theorem snapshotKeys_clean (plugin : Bool) {k : Text} (h : k ∈ snapshotKeys plugin) : '=' ∉ k := by
  revert k
  cases plugin <;> decide +kernel

theorem cleanKeys_sorted (p : ProxyConfig) :
    CleanKeys (sortByKey Prod.fst (snapshotFields print p)) := by
  intro field hfield
  have hmem := (sortByKey_perm Prod.fst _).mem_iff.mp hfield
  exact snapshotKeys_clean p.plugin.isSome (keys_snapshotFields print p ▸ mem_map_of_mem hmem)

theorem sorted_eq_iff (a b : ProxyConfig) :
    sortByKey Prod.fst (snapshotFields print a) = sortByKey Prod.fst (snapshotFields print b) ↔
      snapshotFields print a = snapshotFields print b := by
  refine ⟨fun h => ?_, fun h => by rw [h]⟩
  have hperm : snapshotFields print a ~ snapshotFields print b := by
    have hsorted := sortByKey_perm Prod.fst (snapshotFields print b)
    rw [<- h] at hsorted
    exact (sortByKey_perm Prod.fst (snapshotFields print a)).symm.trans hsorted
  have hkeys : snapshotKeys a.plugin.isSome = snapshotKeys b.plugin.isSome := by
    have hlength := (hperm.map Prod.fst).length_eq
    rw [keys_snapshotFields, keys_snapshotFields] at hlength
    generalize a.plugin.isSome = x at hlength ⊢
    generalize b.plugin.isSome = y at hlength ⊢
    cases x <;> cases y <;> first | rfl | cases hlength
  refine eq_of_perm_of_keys hperm ?_ ?_
  · rw [keys_snapshotFields, keys_snapshotFields, hkeys]
  · rw [keys_snapshotFields]
    exact snapshotKeys_nodup _

/-- The fields of `a` and `b`, in the order of the snapshot, where one runs over the other. -/
def Confused (print : Printing) (a b : ProxyConfig) : Prop :=
  RunsOver (sortByKey Prod.fst (snapshotFields print a))
    (sortByKey Prod.fst (snapshotFields print b))

theorem configSnapshot_eq (p : ProxyConfig) :
    configSnapshot print p = joined (sortByKey Prod.fst (snapshotFields print p)) := by
  rw [configSnapshot, joined]
  rfl

theorem snapshot_faithful_iff {print : Printing} (hprint : print.Faithful) (a b : ProxyConfig) :
    (configSnapshot print a = configSnapshot print b ↔ a.Agree b) ↔
      ¬ Confused print a b ∧ ¬ Confused print b a := by
  have hjoined := joined_eq_iff (cleanKeys_sorted print a) (cleanKeys_sorted print b)
  rw [<- snapshotFields_eq_iff hprint, <- sorted_eq_iff, configSnapshot_eq, configSnapshot_eq]
  unfold Confused
  generalize sortByKey Prod.fst (snapshotFields print a) = as at hjoined ⊢
  generalize sortByKey Prod.fst (snapshotFields print b) = bs at hjoined ⊢
  constructor
  · intro h
    constructor
    · intro hover
      obtain ⟨hsame, hdiffer⟩ := runsOver_joined hover
      exact hdiffer (h.mp hsame)
    · intro hover
      obtain ⟨hsame, hdiffer⟩ := runsOver_joined hover
      exact hdiffer (h.mp hsame.symm).symm
  · rintro ⟨hno, hno'⟩
    refine hjoined.trans ⟨fun h => ?_, .inl⟩
    exact h.resolve_right (not_or.mpr ⟨hno, hno'⟩)

theorem exists_text {α : Type} [Countable α] (a : α) {c : Char} (hc : c ≠ 'x') (rest : Text) :
    exists f : α -> Text, Function.Injective f ∧ f a = c :: rest := by
  classical
  obtain ⟨g, hg⟩ := exists_injective_nat α
  refine ⟨fun x => if x = a then c :: rest else 'x' :: natText (g x), ?_, if_pos rfl⟩
  intro x y h
  dsimp only at h
  split at h
  · rename_i hx
    split at h
    · rename_i hy
      exact hx.trans hy.symm
    · exact absurd (cons.inj h).1 hc
  · split at h
    · exact absurd (cons.inj h).1.symm hc
    · exact hg (natText_injective (cons.inj h).2)

def sameMaps : Setoid (Table Text Text) where
  r := SameMap
  iseqv := ⟨fun _ _ => rfl, fun h key => (h key).symm, fun h h' key => (h key).trans (h' key)⟩

def limited (limit mode : String) : ProxyConfig where
  bandwidthLimit := limit.toList
  bandwidthLimitMode := mode.toList

def hosted (domain limit : String) : ProxyConfig :=
  { limited limit "client" with proxyType := "http".toList, customDomains := [domain.toList] }

/-- A faithful printing that prints empty lists and maps as the library does. -/
theorem snapshot_faithful_iff_plain : exists print : Printing, print.Faithful ∧
    print.debugTexts [] = "[]".toList ∧ print.debugHeaders [] = "[]".toList ∧
    print.sortedMap ∅ = "\x7b\x7d".toList ∧
    ((configSnapshot print (hosted "a.org" "1MB") = configSnapshot print (hosted "b.org" "2MB") ↔
        (hosted "a.org" "1MB").Agree (hosted "b.org" "2MB")) ↔
      ¬ Confused print (hosted "a.org" "1MB") (hosted "b.org" "2MB") ∧
        ¬ Confused print (hosted "b.org" "2MB") (hosted "a.org" "1MB")) := by
  have hchars : Countable Char :=
    Function.Injective.countable (f := Char.toNat) fun _ _ h => Char.ext (UInt32.toNat_inj.mp h)
  have hmaps : Countable (Table Text Text) :=
    Function.Injective.countable (f := AList.entries) fun _ _ => AList.ext
  obtain ⟨texts, htexts, hnoTexts⟩ := exists_text ([] : List Text) (c := '[') (by decide) [']']
  obtain ⟨headers, hheaders, hnoHeaders⟩ :=
    exists_text ([] : List (Text × Text)) (c := '[') (by decide) [']']
  obtain ⟨maps, hmaps, hnoMaps⟩ :=
    exists_text (Quotient.mk sameMaps ∅) (c := '\x7b') (by decide) ['\x7d']
  have hfaithful : Printing.Faithful ⟨texts, headers, fun t => maps (Quotient.mk sameMaps t),
      cons 'h'⟩ := by
    refine ⟨htexts, hheaders, fun a b => ?_, cons_injective, fun s => cons_ne_nil 'h' s⟩
    exact hmaps.eq_iff.trans Quotient.eq
  exact ⟨_, hfaithful, hnoTexts, hnoHeaders, hnoMaps, snapshot_faithful_iff hfaithful _ _⟩

/-- Two limits with a separator in them. -/
theorem limits_confused :
    configSnapshot plainPrinting (limited "" "|bandwidth_limit_mode=") =
        configSnapshot plainPrinting (limited "|bandwidth_limit_mode=" "") ∧
      ¬ (limited "" "|bandwidth_limit_mode=").Agree (limited "|bandwidth_limit_mode=" "") := by
  constructor
  · decide +kernel
  · intro h
    exact absurd h.2.2.2.2.2.2.2.2.2.2.2.2.2.1 (by decide)

end Client
end FrpRs
