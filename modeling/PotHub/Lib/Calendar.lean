import Mathlib.Tactic.Common
import Mathlib.Order.Nat

/-!
# The Gregorian calendar

Dates of the proleptic Gregorian calendar, and the number of days that have
passed until a date.  Months are counted through, twelve a year, and the day
number is the length of the months in front of the date's own, plus the day.

Every month has 28 days at least.  So two dates that are close are in the same
month or in neighbouring ones.
-/

namespace PotHub.Lib

/-- Has February 29 days? -/
def IsLeapYear (y : ℕ) : Prop := (y % 4 = 0 ∧ y % 100 ≠ 0) ∨ y % 400 = 0

instance : DecidablePred IsLeapYear := fun _ => inferInstanceAs (Decidable (_ ∨ _))

/-- The length of a month; January is 1. -/
def monthLength (y month : ℕ) : ℕ :=
  if month = 2 then if IsLeapYear y then 29 else 28
  else if month = 4 ∨ month = 6 ∨ month = 9 ∨ month = 11 then 30
  else 31

theorem le_monthLength (y month : ℕ) : 28 ≤ monthLength y month := by
  rw [monthLength]
  split_ifs <;> omega

theorem monthLength_le (y month : ℕ) : monthLength y month ≤ 31 := by
  rw [monthLength]
  split_ifs <;> omega

/-- A date. -/
@[ext] structure Date where
  year : ℕ
  month : ℕ
  day : ℕ
  month_pos : 1 ≤ month
  month_le : month ≤ 12
  day_pos : 1 ≤ day
  day_le : day ≤ monthLength year month

/-- The length of a month, by the number of the month. -/
def lengthOf (n : ℕ) : ℕ := monthLength (n / 12) (n % 12 + 1)

/-- The days of all months before a month, since the year 0. -/
def monthStart : ℕ → ℕ
  | 0 => 0
  | n + 1 => monthStart n + lengthOf n

theorem monthStart_mono {n k : ℕ} (h : n ≤ k) : monthStart n ≤ monthStart k := by
  induction k, h using Nat.le_induction with
  | base => exact le_rfl
  | succ k _ ih => exact ih.trans (Nat.le_add_right _ _)

namespace Date

variable (a b : Date)

/-- The number of the date's month. -/
def monthNumber : ℕ := 12 * a.year + (a.month - 1)

/-- The number of days up to the date, itself included. -/
def dayNumber : ℕ := monthStart a.monthNumber + a.day

theorem lengthOf_monthNumber : lengthOf a.monthNumber = monthLength a.year a.month := by
  have h1 := a.month_pos
  have h2 := a.month_le
  have hdiv : a.monthNumber / 12 = a.year := by
    rw [monthNumber]
    omega
  have hmod : a.monthNumber % 12 + 1 = a.month := by
    rw [monthNumber]
    omega
  rw [lengthOf, hdiv, hmod]

theorem day_le_lengthOf : a.day ≤ lengthOf a.monthNumber := by
  rw [lengthOf_monthNumber]
  exact a.day_le

variable {a b}

theorem dayNumber_of_monthNumber_eq (h : b.monthNumber = a.monthNumber) :
    b.dayNumber + a.day = a.dayNumber + b.day := by
  simp only [dayNumber, h]
  omega

theorem dayNumber_of_monthNumber_succ (h : b.monthNumber = a.monthNumber + 1) :
    b.dayNumber + a.day = a.dayNumber + (monthLength a.year a.month + b.day) := by
  simp only [dayNumber, h, monthStart, lengthOf_monthNumber]
  omega

/-- A date two months on or more is 29 days on at least. -/
theorem dayNumber_of_two_le (h : a.monthNumber + 2 ≤ b.monthNumber) :
    a.dayNumber + 29 ≤ b.dayNumber := by
  have hmono := monthStart_mono h
  have ha := a.day_le_lengthOf
  have hb := b.day_pos
  have hlen := le_monthLength ((a.monthNumber + 1) / 12) ((a.monthNumber + 1) % 12 + 1)
  simp only [dayNumber, monthStart, lengthOf] at *
  omega

theorem dayNumber_lt_of_monthNumber_lt (h : a.monthNumber < b.monthNumber) :
    a.dayNumber < b.dayNumber := by
  have hmono := monthStart_mono (Nat.succ_le_of_lt h)
  have ha := a.day_le_lengthOf
  have hb := b.day_pos
  simp only [dayNumber, monthStart] at *
  omega

end Date

end PotHub.Lib
