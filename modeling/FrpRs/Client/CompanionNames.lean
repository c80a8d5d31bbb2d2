import Mathlib.Data.List.Nodup
import FrpRs.Client.Companions

/-!
# Names and addresses of companions

A companion's name is free in the configuration and tells its parent, so all names stay distinct.
The address of a relay on a port that the system chose is read back as it was written.
-/

namespace FrpRs
namespace Client

open List Text

/-!
## Addresses
-/

theorem natText_ne_nil (n : Nat) : natText n ≠ [] :=
  Nat.toDigits_ne_nil

theorem not_isWhitespace_of_mem_natText {n : Nat} {c : Char} (h : c ∈ natText n) :
    isWhitespace c = false :=
  not_isWhitespace_of_isDigit (Nat.isDigit_of_mem_toDigits (by decide) (by decide) h)

theorem natText_injective : Function.Injective natText := by
  intro m n h
  have hm := @Nat.ofDigitChars_ten_toDigits m
  rw [show Nat.toDigits 10 m = Nat.toDigits 10 n from h, Nat.ofDigitChars_ten_toDigits] at hm
  exact hm.symm

theorem readPort_natText {port : Nat} (h : port < 65536) :
    readPort (':' :: natText port) = some port := by
  have hread : IpText.readNumber 10 (natText port).length true 65536 (natText port ++ []) =
      some (port, []) :=
    IpText.readNumber_toDigits true (by decide) (by decide) Nat.length_toDigits_pos
      ((Nat.length_toDigits_le_iff (by decide) Nat.length_toDigits_pos).mp (Nat.le_refl _)) h
      (IpText.endsNumber_nil 10)
  rw [append_nil] at hread
  rw [readPort]
  rw [hread]

def loopback : Text := "127.0.0.1".toList

theorem formatHostPort_loopback (port : Nat) :
    formatHostPort loopback port = loopback ++ ':' :: natText port := rfl

theorem trim_formatHostPort_loopback (port : Nat) :
    trim (formatHostPort loopback port) = formatHostPort loopback port := by
  apply trim_eq_self
  · intro c hc
    cases hc
    decide
  · intro c hc
    rw [formatHostPort_loopback, getLast?_append_of_ne_nil _ (cons_ne_nil _ _),
      getLast?_cons_of_ne_nil (natText_ne_nil port)] at hc
    exact not_isWhitespace_of_mem_natText (mem_of_getLast? hc)

theorem parseSocketAddr_loopback {port : Nat} (h : port < 65536) :
    parseSocketAddr (formatHostPort loopback port) =
      some (.v4 (Udp.ipv4OfOctets [127, 0, 0, 1]), port) := by
  have hip : IpText.readIpv4 (formatHostPort loopback port)
      = some ([127, 0, 0, 1], ':' :: natText port) := rfl
  unfold parseSocketAddr
  rw [hip]
  dsimp only
  rw [readPort_natText h]
  rfl

theorem splitHostPort_loopback {port : Nat} (h : port < 65536) :
    splitHostPort (formatHostPort loopback port) = some (loopback, port) := by
  have hne : formatHostPort loopback port ≠ [] := cons_ne_nil _ _
  unfold splitHostPort
  rw [trim_formatHostPort_loopback, if_neg hne, parseSocketAddr_loopback h]
  rfl

/-!
## Names
-/

def numberedName (base : Text) (n : Nat) : Text :=
  base ++ '_' :: natText n

theorem append_cons_inj_right {a b s t : Text} {c : Char} (hs : c ∉ s) (ht : c ∉ t)
    (h : a ++ c :: s = b ++ c :: t) : a = b ∧ s = t := by
  obtain ⟨mid, hb, hmid⟩ | ⟨mid, ha, hmid⟩ := append_eq_append_iff.mp h
  · cases mid with
    | nil => exact ⟨(append_nil a ▸ hb).symm, (cons.inj hmid).2⟩
    | cons d mid =>
      refine absurd ?_ hs
      rw [(cons.inj hmid).2]
      exact mem_append_right mid mem_cons_self
  · cases mid with
    | nil => exact ⟨append_nil b ▸ ha, (cons.inj hmid).2.symm⟩
    | cons d mid =>
      refine absurd ?_ ht
      rw [(cons.inj hmid).2]
      exact mem_append_right mid mem_cons_self

theorem numberedName_inj {a b : Text} {m n : Nat} (h : numberedName a m = numberedName b n) :
    a = b ∧ m = n := by
  obtain ⟨hbase, hdigits⟩ := append_cons_inj_right Nat.underscore_not_in_toDigits
    Nat.underscore_not_in_toDigits h
  exact ⟨hbase, natText_injective hdigits⟩

theorem numbered_le_length {names : List Text} {base : Text} {start count : Nat}
    (h : forall k, k < count -> numberedName base (start + k) ∈ names) : count ≤ names.length := by
  have hnodup : ((range count).map fun k => numberedName base (start + k)).Nodup := by
    apply List.Nodup.map _ nodup_range
    intro j k hjk
    have hsum := (numberedName_inj hjk).2
    omega
  have hsubset : ((range count).map fun k => numberedName base (start + k)) ⊆ names := by
    intro name hname
    obtain ⟨k, hk, rfl⟩ := mem_map.mp hname
    exact h k (mem_range.mp hk)
  have hlength := (subperm_of_subset hnodup hsubset).length_le
  rwa [length_map, length_range] at hlength

theorem freeName_not_mem (names : List Text) (base : Text) (start : Nat) (fuel : Nat) :
    forall tried, (forall k, k < tried -> numberedName base (start + k) ∈ names) ->
      names.length ≤ tried + fuel -> freeName names base fuel (start + tried) ∉ names := by
  induction fuel with
  | zero =>
    intro tried htried hlength hmem
    have hall : forall k, k < tried + 1 -> numberedName base (start + k) ∈ names := by
      intro k hk
      obtain hlt | rfl := Nat.lt_succ_iff_lt_or_eq.mp hk
      · exact htried k hlt
      · exact hmem
    have hle := numbered_le_length hall
    omega
  | succ fuel ih =>
    intro tried htried hlength
    rw [freeName]
    split
    · rename_i htaken
      have hmem : numberedName base (start + tried) ∈ names := by
        simpa [numberedName] using htaken
      apply ih (tried + 1)
      · intro k hk
        obtain hlt | rfl := Nat.lt_succ_iff_lt_or_eq.mp hk
        · exact htried k hlt
        · exact hmem
      · omega
    · rename_i hfree
      simpa using hfree

theorem freeName_eq (names : List Text) (base : Text) (fuel : Nat) :
    forall n, exists k, freeName names base fuel n = numberedName base k := by
  induction fuel with
  | zero =>
    intro n
    exact ⟨n, rfl⟩
  | succ fuel ih =>
    intro n
    rw [freeName]
    split
    · exact ih (n + 1)
    · exact ⟨n, rfl⟩

variable (proxies : List ProxyConfig)

theorem uniqueCompanionName_not_mem (parent : Text) :
    uniqueCompanionName proxies parent ∉ proxies.map ProxyConfig.name := by
  rw [uniqueCompanionName]
  split
  · exact freeName_not_mem _ _ 2 _ 0 (fun k hk => absurd hk (Nat.not_lt_zero k)) (by simp)
  · rename_i hfree
    simpa using hfree

theorem uniqueCompanionName_cases (parent : Text) :
    uniqueCompanionName proxies parent = parent ++ "__udp".toList ∨
      exists n, uniqueCompanionName proxies parent = numberedName (parent ++ "__udp".toList) n := by
  rw [uniqueCompanionName]
  split
  · exact .inr (freeName_eq _ _ _ _)
  · exact .inl rfl

theorem append_udp_ne_numberedName (a b : Text) (n : Nat) :
    a ++ "__udp".toList ≠ numberedName b n := by
  intro h
  have hlast := congrArg getLast? h
  rw [numberedName, getLast?_append_of_ne_nil _ (cons_ne_nil _ _),
    getLast?_cons_of_ne_nil (natText_ne_nil n),
    getLast?_append_of_ne_nil _ (by decide)] at hlast
  have hmem : 'p' ∈ natText n := mem_of_getLast? hlast.symm
  have hdigit : Char.isDigit 'p' = true := Nat.isDigit_of_mem_toDigits (by decide) (by decide) hmem
  exact absurd hdigit (by decide)

theorem uniqueCompanionName_injective :
    Function.Injective (uniqueCompanionName proxies) := by
  intro a b h
  obtain ha | ⟨m, ha⟩ := uniqueCompanionName_cases proxies a
  · obtain hb | ⟨n, hb⟩ := uniqueCompanionName_cases proxies b
    · rw [ha, hb] at h
      exact append_cancel_right h
    · rw [ha, hb] at h
      exact absurd h (append_udp_ne_numberedName a _ n)
  · obtain hb | ⟨n, hb⟩ := uniqueCompanionName_cases proxies b
    · rw [ha, hb] at h
      exact absurd h.symm (append_udp_ne_numberedName b _ m)
    · rw [ha, hb] at h
      exact append_cancel_right (numberedName_inj h).1

end Client
end FrpRs
