import Mathlib.Tactic.IntervalCases
import FrpRs.Client.CompanionNames
import FrpRs.Data.Calendar

/-!
# Dates of static files

`format_http_date` and `parse_if_modified_since` in `frp-client/src/plugin/static_file.rs`.  Day
numbers count from 1970-01-01; those of a `u64` time are below `2 ^ 48`, so the `i64` arithmetic of
the source does not overflow and the divisions see no negative dividend.
-/

namespace FrpRs
namespace Client
namespace HttpDates

open List Text

/-!
## Day numbers
-/

def civilToDays (year : Int) (month day : Nat) : Int :=
  let y := if month ≤ 2 then year - 1 else year
  let era := y / 400
  let yoe := y - era * 400
  let mp := (month + 9) % 12
  let doy := (153 * (mp : Int) + 2) / 5 + day - 1
  let doe := yoe * 365 + yoe / 4 - yoe / 100 + doy
  era * 146097 + doe - 719468

def civilFromDays (days : Int) : Date :=
  let z := days + 719468
  let era := z / 146097
  let doe := z - era * 146097
  let yoe := (doe - doe / 1460 + doe / 36524 - doe / 146096) / 365
  let y := yoe + era * 400
  let doy := doe - (365 * yoe + yoe / 4 - yoe / 100)
  let mp := (5 * doy + 2) / 153
  let d := (doy - (153 * mp + 2) / 5 + 1).toNat
  let m := (if mp < 10 then mp + 3 else mp - 9).toNat
  ⟨if m ≤ 2 then y + 1 else y, m, d⟩

/-- The year of the era is the one whose days, counted from March, hold day `doe`. -/
theorem yearOfEra_spec {doe yoe : Int} (hpos : 0 ≤ doe) (hlt : doe < 146097)
    (h : yoe = (doe - doe / 1460 + doe / 36524 - doe / 146096) / 365) :
    0 ≤ yoe ∧ yoe ≤ 399 ∧ 365 * yoe + yoe / 4 - yoe / 100 ≤ doe ∧
      doe < 365 * (yoe + 1) + (yoe + 1) / 4 - (yoe + 1) / 100 + (yoe + 1) / 400 := by
  obtain ⟨f, hf⟩ : exists f, f = doe / 36524 - doe / 146096 := ⟨_, rfl⟩
  obtain ⟨k, hk⟩ : exists k, k = yoe - 4 * (doe / 1460) := ⟨_, rfl⟩
  have hfpos : 0 ≤ f := by omega
  have hfle : f ≤ 3 := by omega
  have hkpos : -1 ≤ k := by omega
  have hkle : k ≤ 4 := by omega
  -- the century and the year within its four years are enough to settle the divisions
  interval_cases f <;> interval_cases k <;> omega

theorem civilToDays_eq (era yoe : Int) (month mp : Nat) {year : Int} {day : Nat}
    (hyear : (if month ≤ 2 then year - 1 else year) = yoe + era * 400) (hpos : 0 ≤ yoe)
    (hle : yoe ≤ 399) (hmp : (month + 9) % 12 = mp) :
    civilToDays year month day =
      era * 146097 + (365 * yoe + yoe / 4 - yoe / 100 + ((153 * mp + 2) / 5 + day - 1)) -
        719468 := by
  have hera : (yoe + era * 400) / 400 = era := by omega
  have hyoe : yoe + era * 400 - era * 400 = yoe := by omega
  simp only [civilToDays, hyear, hera, hyoe, hmp]
  omega

theorem yearStart_mono {a b : Int} (h : a ≤ b) :
    365 * a + a / 4 - a / 100 ≤ 365 * b + b / 4 - b / 100 := by
  rcases Int.le_iff_eq_or_lt.mp h with rfl | hlt
  · exact Int.le_refl _
  · omega

theorem yearOfEra_le (doe : Int) {a b : Int} (hb : b ≤ 399) (ha : 0 ≤ a)
    (hble : 365 * b + b / 4 - b / 100 ≤ doe)
    (halt : doe < 365 * (a + 1) + (a + 1) / 4 - (a + 1) / 100 + (a + 1) / 400) : b ≤ a := by
  by_contra hlt
  have hmono := yearStart_mono (a := a + 1) (b := b) (by omega)
  omega

theorem isLeap_era (yoe era : Int) :
    Date.IsLeap (yoe + era * 400 + 1) <->
      (yoe + 1) % 4 = 0 ∧ ((yoe + 1) % 100 ≠ 0 ∨ (yoe + 1) % 400 = 0) := by
  unfold Date.IsLeap
  omega

/-- Day `z` is day `doy` of year `yoe` of its era and stands in month `mp`, counted from March. -/
structure FromMarch (z era yoe doy mp : Int) : Prop where
  day_eq : z = era * 146097 + (365 * yoe + yoe / 4 - yoe / 100 + doy)
  year_pos : 0 ≤ yoe
  year_le : yoe ≤ 399
  month_pos : 0 ≤ mp
  month_le : mp ≤ 11
  month_start : (153 * mp + 2) / 5 ≤ doy
  month_end : mp < 11 -> doy < (153 * (mp + 1) + 2) / 5
  year_end : doy < 365 + ((yoe + 1) / 4 - yoe / 4) - ((yoe + 1) / 100 - yoe / 100) + (yoe + 1) / 400

def marchDate (era yoe doy mp : Int) : Date :=
  ⟨if mp < 10 then yoe + era * 400 else yoe + era * 400 + 1,
    (if mp < 10 then mp + 3 else mp - 9).toNat, (doy - (153 * mp + 2) / 5 + 1).toNat⟩

variable (days : Int)

theorem civilFromDays_spec :
    exists era yoe doy mp, FromMarch (days + 719468) era yoe doy mp ∧
      civilFromDays days = marchDate era yoe doy mp := by
  obtain ⟨era, hera⟩ : exists era, era = (days + 719468) / 146097 := ⟨_, rfl⟩
  obtain ⟨doe, hdoe⟩ : exists doe, doe = days + 719468 - era * 146097 := ⟨_, rfl⟩
  obtain ⟨yoe, hyoe⟩ :
      exists yoe, yoe = (doe - doe / 1460 + doe / 36524 - doe / 146096) / 365 := ⟨_, rfl⟩
  obtain ⟨hpos, hle, hstart, hend⟩ := yearOfEra_spec (by omega) (by omega) hyoe
  obtain ⟨doy, hdoy⟩ : exists doy, doy = doe - (365 * yoe + yoe / 4 - yoe / 100) := ⟨_, rfl⟩
  obtain ⟨mp, hmp⟩ : exists mp, mp = (5 * doy + 2) / 153 := ⟨_, rfl⟩
  have hdoy' : 0 ≤ doy ∧ doy ≤ 365 := by omega
  refine ⟨era, yoe, doy, mp, ⟨by omega, hpos, hle, by omega, by omega, by omega, by omega,
    by omega⟩, ?_⟩
  simp only [civilFromDays, marchDate, ← hera, ← hdoe, ← hyoe, ← hdoy, ← hmp, Date.mk.injEq,
    and_true]
  split_ifs <;> omega

namespace FromMarch

variable {z era yoe doy mp : Int}

theorem day_pos (h : FromMarch z era yoe doy mp) : 0 ≤ z - era * 146097 := by
  have hmono := yearStart_mono h.year_pos
  have hstart := h.month_start
  have hpos := h.month_pos
  have hday := h.day_eq
  omega

theorem day_lt (h : FromMarch z era yoe doy mp) : z - era * 146097 < 146097 := by
  have hmono := yearStart_mono h.year_le
  have hend := h.year_end
  have hle := h.year_le
  have hday := h.day_eq
  omega

theorem unique {era' yoe' doy' mp' : Int} (h : FromMarch z era yoe doy mp)
    (h' : FromMarch z era' yoe' doy' mp') : era = era' ∧ yoe = yoe' ∧ doy = doy' ∧ mp = mp' := by
  have hera : era = era' := by
    have hpos := h.day_pos
    have hlt := h.day_lt
    have hpos' := h'.day_pos
    have hlt' := h'.day_lt
    omega
  subst hera
  obtain ⟨hday, hpos, hle, hmpos, hmle, hstart, hend, hyear⟩ := h
  obtain ⟨hday', hpos', hle', hmpos', hmle', hstart', hend', hyear'⟩ := h'
  have hyoe : yoe = yoe' := by
    apply Int.le_antisymm
    · exact yearOfEra_le (z - era * 146097) hle hpos' (by omega) (by omega)
    · exact yearOfEra_le (z - era * 146097) hle' hpos (by omega) (by omega)
  subst hyoe
  have hdoy : doy = doy' := by omega
  subst hdoy
  exact ⟨rfl, rfl, rfl, by omega⟩

theorem valid (h : FromMarch z era yoe doy mp) : (marchDate era yoe doy mp).Valid := by
  obtain ⟨-, hpos, hle, hmpos, hmle, hstart, hend, hyear⟩ := h
  have hleap : mp = 11 -> Date.IsLeap (yoe + era * 400 + 1) ∨ doy < 365 := by
    unfold Date.IsLeap
    omega
  refine ⟨?_, ?_, ?_, ?_⟩
  · simp only [marchDate]
    split_ifs <;> omega
  · simp only [marchDate]
    split_ifs <;> omega
  · simp only [marchDate]
    omega
  · interval_cases mp <;> simp [marchDate, Date.daysInMonth] at * <;> try omega
    split_ifs with hyes
    · omega
    · have := hleap.resolve_left hyes
      omega

theorem civilToDays_marchDate (h : FromMarch z era yoe doy mp) :
    civilToDays (marchDate era yoe doy mp).year (marchDate era yoe doy mp).month
      (marchDate era yoe doy mp).day = z - 719468 := by
  obtain ⟨hday, hpos, hle, hmpos, hmle, hstart, hend, hyear⟩ := h
  rw [civilToDays_eq era yoe _ mp.toNat _ hpos hle]
  · simp only [marchDate]
    omega
  · simp only [marchDate]
    omega
  · simp only [marchDate]
    split_ifs <;> omega

end FromMarch

theorem civilFromDays_valid : (civilFromDays days).Valid := by
  obtain ⟨era, yoe, doy, mp, h, heq⟩ := civilFromDays_spec days
  rw [heq]
  exact h.valid

theorem civilToDays_civilFromDays :
    civilToDays (civilFromDays days).year (civilFromDays days).month (civilFromDays days).day =
      days := by
  obtain ⟨era, yoe, doy, mp, h, heq⟩ := civilFromDays_spec days
  rw [heq, h.civilToDays_marchDate]
  omega

theorem fromMarch_of_valid {date : Date} (h : date.Valid) :
    exists era yoe doy mp,
      FromMarch (civilToDays date.year date.month date.day + 719468) era yoe doy mp ∧
        date = marchDate era yoe doy mp := by
  obtain ⟨year, month, day⟩ := date
  obtain ⟨hpos, hle, hday, hlast⟩ := h
  obtain ⟨y, hy⟩ : exists y, y = if month ≤ 2 then year - 1 else year := ⟨_, rfl⟩
  obtain ⟨era, hera⟩ : exists era, era = y / 400 := ⟨_, rfl⟩
  obtain ⟨yoe, hyoe⟩ : exists yoe, yoe = y - era * 400 := ⟨_, rfl⟩
  obtain ⟨mp, hmp⟩ : exists mp, mp = (month + 9) % 12 := ⟨_, rfl⟩
  obtain rfl : y = yoe + era * 400 := by omega
  have hypos : 0 ≤ yoe := by omega
  have hyle : yoe ≤ 399 := by omega
  clear hera hyoe
  simp only [] at hpos hle hday hlast ⊢
  rw [civilToDays_eq era yoe month mp hy.symm hypos hyle hmp.symm]
  refine ⟨era, yoe, (153 * mp + 2) / 5 + day - 1, mp, ⟨by omega, hypos, hyle,
    by omega, by omega, ?_, ?_, ?_⟩, ?_⟩
  · show (153 * (mp : Int) + 2) / 5 ≤ (153 * mp + 2) / 5 + day - 1
    omega
  · clear hy
    interval_cases month <;> simp [Date.daysInMonth] at * <;> omega
  · rcases eq_or_ne month 2 with rfl | hne
    · obtain rfl : year = yoe + era * 400 + 1 := by simp at hy; omega
      simp only [Date.daysInMonth, if_true, isLeap_era] at hlast
      clear hy
      split_ifs at hlast <;> omega
    · clear hy
      interval_cases month <;> simp [Date.daysInMonth] at * <;> omega
  · simp only [marchDate, Date.mk.injEq]
    interval_cases month <;> simp at * <;> omega

theorem civilFromDays_civilToDays {date : Date} (h : date.Valid) :
    civilFromDays (civilToDays date.year date.month date.day) = date := by
  obtain ⟨era, yoe, doy, mp, hmarch, hdate⟩ := fromMarch_of_valid h
  obtain ⟨era', yoe', doy', mp', hmarch', hdate'⟩ :=
    civilFromDays_spec (civilToDays date.year date.month date.day)
  obtain ⟨rfl, rfl, rfl, rfl⟩ := hmarch.unique hmarch'
  rw [hdate', ← hdate]

/-- The first of March follows the last day of February. -/
theorem civilToDays_march (year : Int) :
    civilToDays year 3 1 = civilToDays year 2 (Date.daysInMonth year 2) + 1 := by
  obtain ⟨era, hera⟩ : exists era, era = (year - 1) / 400 := ⟨_, rfl⟩
  obtain ⟨yoe, hyoe⟩ : exists yoe, yoe = (year - 1) - era * 400 := ⟨_, rfl⟩
  obtain rfl : year = yoe + era * 400 + 1 := by omega
  have hpos : 0 ≤ yoe := by omega
  have hle : yoe ≤ 399 := by omega
  clear hera hyoe
  rw [civilToDays_eq era yoe 2 11 (by simp) hpos hle (by decide)]
  simp only [Date.daysInMonth, if_true, isLeap_era]
  rcases eq_or_ne yoe 399 with rfl | hne
  · rw [civilToDays_eq (era + 1) 0 3 0 (by omega) (by omega)
      (by omega) (by decide)]
    simp
    omega
  · rw [civilToDays_eq era (yoe + 1) 3 0 (by omega) (by omega)
      (by omega) (by decide)]
    split_ifs <;> omega

theorem civilToDays_next {date : Date} (h : date.Valid) :
    civilToDays date.next.year date.next.month date.next.day =
      civilToDays date.year date.month date.day + 1 := by
  obtain ⟨year, month, day⟩ := date
  obtain ⟨hpos, hle, hday, hlast⟩ := h
  simp only [] at hpos hle hday hlast
  by_cases hinside : day < Date.daysInMonth year month
  · simp only [Date.next, hinside, if_true, civilToDays]
    omega
  · obtain rfl : day = Date.daysInMonth year month := by omega
    simp only [Date.next, Nat.lt_irrefl, if_false]
    rcases eq_or_ne month 2 with rfl | hne
    · exact civilToDays_march year
    · clear hinside hday hlast
      interval_cases month <;> simp [Date.daysInMonth, civilToDays] at * <;> omega

theorem civilFromDays_succ :
    civilFromDays (days + 1) = (civilFromDays days).next := by
  have hnext := civilToDays_next (civilFromDays_valid days)
  rw [civilToDays_civilFromDays] at hnext
  rw [← hnext]
  exact civilFromDays_civilToDays (civilFromDays_valid days).next

/-!
## Texts
-/

def httpWeekdays : List Text :=
  ["Sun", "Mon", "Tue", "Wed", "Thu", "Fri", "Sat"].map String.toList

def httpMonths : List Text :=
  ["Jan", "Feb", "Mar", "Apr", "May", "Jun", "Jul", "Aug", "Sep", "Oct", "Nov", "Dec"].map
    String.toList

/-- A number with leading zeros, as `format!("{:0width$}")` writes it. -/
def padded (width n : Nat) : Text :=
  (natText n).leftpad width '0'

def clockText (secsOfDay : Nat) : Text :=
  padded 2 (secsOfDay / 3600) ++ ':' :: (padded 2 (secsOfDay % 3600 / 60) ++
    ':' :: padded 2 (secsOfDay % 60))

def formatHttpDate (unixSecs : Nat) : Text :=
  let days : Int := (unixSecs / 86400 : Nat)
  let wd := ((days + 4) % 7).toNat
  let date := civilFromDays days
  httpWeekdays.getD wd [] ++ ',' :: ' ' :: (padded 2 date.day ++ ' ' ::
    (httpMonths.getD (date.month - 1) [] ++ ' ' :: (padded 4 date.year.toNat ++ ' ' ::
      (clockText (unixSecs % 86400) ++ ' ' :: "GMT".toList))))

def asciiDigits (s : Text) : Bool :=
  !s.isEmpty && s.all Char.isDigit

def eqIgnoreAsciiCase (s t : Text) : Bool :=
  s.map Char.toLower == t.map Char.toLower

def splitWhitespace (s : Text) : List Text :=
  (s.splitOnP isWhitespace).filter (!·.isEmpty)

/-- `parse` of a text of ASCII digits; one that a `u64` cannot hold is above every bound. -/
def number (s : Text) : Nat :=
  Nat.ofDigitChars 10 s 0

def parseClockDate (year : Int) (month day : Nat) (clock : Text) : Option Nat :=
  if !(1970 ≤ year && year ≤ 9999) || day == 0 || 31 < day then none
  else
    match clock.splitOn ':' with
    | [hourTok, minuteTok, secondTok] =>
      if !asciiDigits hourTok || !asciiDigits minuteTok || !asciiDigits secondTok then none
      else
        let hour := number hourTok
        let minute := number minuteTok
        let second := number secondTok
        if 23 < hour || 59 < minute || 59 < second then none
        else
          let days := civilToDays year month day
          if civilFromDays days ≠ ⟨year, month, day⟩ then none
          else some (days.toNat * 86400 + hour * 3600 + minute * 60 + second)
    | _ => none

def parseImfFixdate (v : Text) : Option Nat :=
  match splitOnce ',' v with
  | none => none
  | some (weekday, rest) =>
    if !httpWeekdays.any (eqIgnoreAsciiCase weekday) then none
    else
      match splitWhitespace rest with
      | [dayTok, monthName, yearTok, clock, zone] =>
        if zone ≠ "GMT".toList then none
        else if yearTok.length ≠ 4 || !asciiDigits yearTok || dayTok.length ≠ 2 ||
            !asciiDigits dayTok then none
        else
          match httpMonths.findIdx? (eqIgnoreAsciiCase monthName) with
          | none => none
          | some i => parseClockDate (number yearTok) (i + 1) (number dayTok) clock
      | _ => none

section Layouts

-- the layouts that are tried when the first one does not fit
variable (parseRfc850 parseAnsic : Text -> Option Nat)

def parseIfModifiedSince (value : Text) : Option Nat :=
  match parseImfFixdate value with
  | some secs => some secs
  | none =>
    match parseRfc850 value with
    | some secs => some secs
    | none => parseAnsic value

end Layouts

/-!
## Reading a date back
-/

variable (width n : Nat)

theorem all_isDigit_padded {c : Char} (h : c ∈ padded width n) :
    c.isDigit = true := by
  rcases mem_append.mp h with hzero | hdigit
  · obtain rfl := eq_of_mem_replicate hzero
    decide
  · exact Nat.isDigit_of_mem_toDigits (by decide) (by decide) hdigit

theorem asciiDigits_padded : asciiDigits (padded width n) = true := by
  have hne : padded width n ≠ [] := by
    intro h
    exact natText_ne_nil n (append_eq_nil_iff.mp h).2
  rw [asciiDigits, Bool.and_eq_true, Bool.not_eq_true', isEmpty_eq_false_iff, all_eq_true]
  exact ⟨hne, fun c => all_isDigit_padded width n⟩

theorem number_padded : number (padded width n) = n := by
  rw [number, padded, leftpad, Nat.ofDigitChars_append, Nat.ofDigitChars_replicate_zero,
    Nat.mul_zero]
  exact Nat.ofDigitChars_ten_toDigits

theorem length_padded {n : Nat} (hpos : 0 < width) (h : n < 10 ^ width) :
    (padded width n).length = width := by
  have hle : (natText n).length ≤ width :=
    (Nat.length_toDigits_le_iff (by decide) hpos).mpr h
  rw [padded, length_leftpad]
  omega

/-- A token of a date: not empty and without whitespace. -/
def Word (w : Text) : Prop :=
  w ≠ [] ∧ forall c, c ∈ w -> isWhitespace c = false

theorem word_padded : Word (padded width n) := by
  refine ⟨?_, fun c h => not_isWhitespace_of_isDigit (all_isDigit_padded width n h)⟩
  intro h
  exact natText_ne_nil n (append_eq_nil_iff.mp h).2

theorem splitWhitespace_word {w : Text} (h : Word w) : splitWhitespace w = [w] := by
  rw [splitWhitespace, splitOnP_eq_singleton h.2]
  simp [h.1]

theorem splitWhitespace_append {w : Text} (h : Word w) (rest : Text) :
    splitWhitespace (w ++ ' ' :: rest) = w :: splitWhitespace rest := by
  rw [splitWhitespace, splitOnP_append_cons_of_forall_mem h.2 _ (by decide), filter_cons_of_pos]
  · rfl
  · simpa using h.1

theorem splitWhitespace_cons (rest : Text) :
    splitWhitespace (' ' :: rest) = splitWhitespace rest := by
  rw [splitWhitespace, splitOnP_cons_eq_if_modifyHead, if_pos (by decide), filter_cons_of_neg]
  · rfl
  · simp

theorem splitOnce_append {c : Char} {s : Text} (h : c ∉ s) (rest : Text) :
    splitOnce c (s ++ c :: rest) = some (s, rest) := by
  induction s with
  | nil => simp [splitOnce]
  | cons a s ih =>
    rw [mem_cons, not_or] at h
    rw [cons_append, splitOnce, if_neg (Ne.symm h.1), ih h.2]
    rfl

theorem not_mem_padded {c : Char} (hc : c.isDigit = false) (width n : Nat) : c ∉ padded width n := by
  intro h
  rw [all_isDigit_padded width n h] at hc
  exact Bool.noConfusion hc

variable (secsOfDay : Nat)

theorem splitOn_clockText :
    (clockText secsOfDay).splitOn ':' =
      [padded 2 (secsOfDay / 3600), padded 2 (secsOfDay % 3600 / 60), padded 2 (secsOfDay % 60)] := by
  have hcolon (n : Nat) : forall c, c ∈ padded 2 n -> (c == ':') = false := by
    intro c hc
    rw [beq_eq_false_iff_ne]
    rintro rfl
    exact not_mem_padded (by decide) 2 n hc
  rw [clockText, splitOn, splitOnP_append_cons_of_forall_mem (hcolon _) _ (by decide),
    splitOnP_append_cons_of_forall_mem (hcolon _) _ (by decide), splitOnP_eq_singleton (hcolon _)]

theorem parseClockDate_clockText {days : Int} (hday : secsOfDay < 86400)
    (hpos : 1970 ≤ (civilFromDays days).year) (hle : (civilFromDays days).year ≤ 9999) :
    parseClockDate (civilFromDays days).year (civilFromDays days).month (civilFromDays days).day
      (clockText secsOfDay) = some (days.toNat * 86400 + secsOfDay) := by
  have hvalid := civilFromDays_valid days
  have hlast := hvalid.day_le.trans (Date.daysInMonth_le _ _)
  have hfirst := hvalid.day_pos
  rw [parseClockDate, if_neg (by simp; omega), splitOn_clockText]
  simp only [asciiDigits_padded, number_padded, civilToDays_civilFromDays, Bool.not_true,
    Bool.or_self, Bool.false_eq_true, if_false, ne_eq, not_true_eq_false]
  rw [if_neg (by simp; omega), Option.some_inj]
  omega

theorem word_httpMonths {i : Nat} (h : i < 12) : Word (httpMonths.getD i []) := by
  have hall : (httpMonths.all fun m => !m.isEmpty && m.all (!isWhitespace ·)) = true := by decide
  have hi : i < httpMonths.length := h
  have hmonth := all_eq_true.mp hall _ (getElem_mem hi)
  rw [getD_eq_getElem _ _ hi]
  simpa [Word] using hmonth

theorem word_zone : Word "GMT".toList := by
  have hall : ("GMT".toList.all (!isWhitespace ·)) = true := by decide
  exact ⟨by decide, fun c hc => Bool.not_eq_true' _ ▸ all_eq_true.mp hall c hc⟩

theorem findIdx_httpMonths {i : Nat} (h : i < 12) :
    httpMonths.findIdx? (eqIgnoreAsciiCase (httpMonths.getD i [])) = some i := by
  interval_cases i <;> rfl

theorem any_httpWeekdays {i : Nat} (h : i < 7) :
    httpWeekdays.any (eqIgnoreAsciiCase (httpWeekdays.getD i [])) = true ∧
      ',' ∉ httpWeekdays.getD i [] := by
  interval_cases i <;> exact ⟨rfl, by decide⟩

theorem word_clockText : Word (clockText secsOfDay) := by
  refine ⟨by simp [clockText], ?_⟩
  intro c hc
  simp only [clockText, mem_append, mem_cons] at hc
  rcases hc with hc | rfl | hc | rfl | hc
  · exact (word_padded _ _).2 c hc
  · decide
  · exact (word_padded _ _).2 c hc
  · decide
  · exact (word_padded _ _).2 c hc

theorem civilFromDays_zero : civilFromDays 0 = ⟨1970, 1, 1⟩ := by decide

theorem le_year_civilFromDays : 1970 ≤ (civilFromDays n).year := by
  induction n with
  | zero => rw [Nat.cast_zero, civilFromDays_zero]
  | succ n ih =>
    rw [Nat.cast_succ, civilFromDays_succ]
    exact ih.trans (Date.le_year_next _)

theorem parseImfFixdate_formatHttpDate {t : Nat}
    (h : (civilFromDays (t / 86400 : Nat)).year ≤ 9999) :
    parseImfFixdate (formatHttpDate t) = some t := by
  have hge := le_year_civilFromDays (t / 86400)
  have hvalid := civilFromDays_valid (t / 86400 : Nat)
  have hmonth : (civilFromDays (t / 86400 : Nat)).month - 1 < 12 := by
    have := hvalid.month_le
    omega
  have hday : (civilFromDays (t / 86400 : Nat)).day < 10 ^ 2 := by
    have := hvalid.day_le.trans (Date.daysInMonth_le _ _)
    omega
  obtain ⟨hany, hcomma⟩ := any_httpWeekdays (i := ((((t / 86400 : Nat) : Int) + 4) % 7).toNat)
    (by omega)
  simp only [formatHttpDate, parseImfFixdate]
  rw [splitOnce_append hcomma]
  simp only [hany, splitWhitespace_cons, splitWhitespace_append (word_padded _ _),
    splitWhitespace_append (word_httpMonths hmonth), splitWhitespace_append (word_clockText _),
    splitWhitespace_word word_zone, asciiDigits_padded,
    number_padded, findIdx_httpMonths hmonth, length_padded 2 (by decide) hday]
  rw [length_padded 4 (by decide) (by omega), Int.toNat_of_nonneg (by omega),
    Nat.sub_add_cancel hvalid.month_pos]
  simp only [Bool.not_true, Bool.false_eq_true, if_false, ne_eq, not_true_eq_false, decide_false,
    Bool.or_self]
  rw [parseClockDate_clockText _ (Nat.mod_lt _ (by decide)) hge h, Option.some_inj]
  omega

theorem httpDates_round_trip (parseRfc850 parseAnsic : Text -> Option Nat) :
    (forall t : Nat, (civilFromDays (t / 86400 : Nat)).year ≤ 9999 ->
      parseIfModifiedSince parseRfc850 parseAnsic (formatHttpDate t) = some t) ∧
    civilFromDays 0 = ⟨1970, 1, 1⟩ ∧
    forall d : Int, 0 ≤ d ->
      (civilFromDays d).Valid ∧
      civilToDays (civilFromDays d).year (civilFromDays d).month (civilFromDays d).day = d ∧
      civilFromDays (d + 1) = (civilFromDays d).next := by
  refine ⟨?_, civilFromDays_zero, ?_⟩
  · intro t h
    rw [parseIfModifiedSince, parseImfFixdate_formatHttpDate h]
  · intro d _
    exact ⟨civilFromDays_valid d, civilToDays_civilFromDays d, civilFromDays_succ d⟩

theorem httpDates_round_trip_leap_day :
    formatHttpDate 951782400 = "Tue, 29 Feb 2000 00:00:00 GMT".toList ∧
      parseIfModifiedSince (fun _ => none) (fun _ => none) (formatHttpDate 951782400) =
        some 951782400 :=
  ⟨by decide, (httpDates_round_trip _ _).1 951782400 (by decide)⟩

end HttpDates
end Client
end FrpRs
