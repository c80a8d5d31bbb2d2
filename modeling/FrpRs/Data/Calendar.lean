import Mathlib.Data.Int.Init
import Mathlib.Tactic.Common

/-!
# The Gregorian calendar
-/

namespace FrpRs

structure Date where
  year : Int
  month : Nat
  day : Nat
deriving DecidableEq

namespace Date

def IsLeap (year : Int) : Prop :=
  year % 4 = 0 ∧ (year % 100 ≠ 0 ∨ year % 400 = 0)

instance (year : Int) : Decidable (IsLeap year) :=
  inferInstanceAs (Decidable (_ ∧ _))

def daysInMonth (year : Int) (month : Nat) : Nat :=
  if month = 2 then (if IsLeap year then 29 else 28)
  else if month = 4 ∨ month = 6 ∨ month = 9 ∨ month = 11 then 30
  else 31

structure Valid (date : Date) : Prop where
  month_pos : 1 ≤ date.month
  month_le : date.month ≤ 12
  day_pos : 1 ≤ date.day
  day_le : date.day ≤ daysInMonth date.year date.month

/-- The calendar day after a date. -/
def next (date : Date) : Date :=
  if date.day < daysInMonth date.year date.month then ⟨date.year, date.month, date.day + 1⟩
  else if date.month < 12 then ⟨date.year, date.month + 1, 1⟩
  else ⟨date.year + 1, 1, 1⟩

theorem daysInMonth_pos (year : Int) (month : Nat) : 1 ≤ daysInMonth year month := by
  unfold daysInMonth
  split_ifs <;> decide

theorem daysInMonth_le (year : Int) (month : Nat) : daysInMonth year month ≤ 31 := by
  unfold daysInMonth
  split_ifs <;> decide

theorem le_year_next (date : Date) : date.year ≤ date.next.year := by
  rw [next]
  split_ifs
  · exact Int.le_refl _
  · exact Int.le_refl _
  · exact Int.le_add_one (Int.le_refl _)

theorem Valid.next {date : Date} (h : date.Valid) : date.next.Valid := by
  obtain ⟨hpos, hle, hday, hlast⟩ := h
  rw [Date.next]
  split_ifs with hinside hmonth
  · exact ⟨hpos, hle, by simp, hinside⟩
  · exact ⟨by simp, hmonth, by simp, daysInMonth_pos _ _⟩
  · exact ⟨by simp, by simp, by simp, daysInMonth_pos _ _⟩

end Date

end FrpRs
