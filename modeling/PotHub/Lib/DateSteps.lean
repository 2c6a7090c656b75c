import Mathlib.Order.Lattice
import PotHub.Lib.Calendar

/-!
# Steps through the calendar

The order of the dates, the day after a date, and the step by some months,
which keeps the day as far as the month has it.

A date is reached from an earlier one by some months and then some days.  With
as many months as fit, there is one way only.
-/

namespace PotHub.Lib.Date

variable {a b : Date}

/-! ## The order -/

theorem dayNumber_lt_iff : a.dayNumber < b.dayNumber ↔
    a.monthNumber < b.monthNumber ∨ a.monthNumber = b.monthNumber ∧ a.day < b.day := by
  rcases Nat.lt_trichotomy a.monthNumber b.monthNumber with hlt | heq | hgt
  · simp [hlt, dayNumber_lt_of_monthNumber_lt hlt]
  · have hdays := dayNumber_of_monthNumber_eq heq.symm
    omega
  · have hdays := dayNumber_lt_of_monthNumber_lt hgt
    omega

theorem ext_monthNumber (hmonth : a.monthNumber = b.monthNumber) (hday : a.day = b.day) :
    a = b := by
  have ha := a.month_pos
  have ha' := a.month_le
  have hb := b.month_pos
  have hb' := b.month_le
  rw [monthNumber, monthNumber] at hmonth
  ext
  · omega
  · omega
  · exact hday

theorem dayNumber_injective : Function.Injective dayNumber := by
  intro a b h
  have hle : ¬ a.dayNumber < b.dayNumber := h.not_lt
  have hge : ¬ b.dayNumber < a.dayNumber := h.not_gt
  rw [dayNumber_lt_iff] at hle hge
  exact ext_monthNumber (by omega) (by omega)

/-- The earlier date is the smaller one. -/
instance : LinearOrder Date := LinearOrder.lift' dayNumber dayNumber_injective

theorem lt_iff : a < b ↔
    a.monthNumber < b.monthNumber ∨ a.monthNumber = b.monthNumber ∧ a.day < b.day :=
  dayNumber_lt_iff

theorem le_iff : a ≤ b ↔
    a.monthNumber < b.monthNumber ∨ a.monthNumber = b.monthNumber ∧ a.day ≤ b.day := by
  rw [← not_lt, lt_iff]
  omega

/-! ## The steps -/

/-- The date of a month, by the number of the month, with a day. -/
def inMonth (n day : ℕ) (hpos : 1 ≤ day) (hle : day ≤ lengthOf n) : Date where
  year := n / 12
  month := n % 12 + 1
  day := day
  month_pos := by omega
  month_le := by omega
  day_pos := hpos
  day_le := hle

section InMonth

variable {n day : ℕ} (hpos : 1 ≤ day) (hle : day ≤ lengthOf n)

@[simp] theorem monthNumber_inMonth : (inMonth n day hpos hle).monthNumber = n := by
  simp only [inMonth, monthNumber]
  omega

@[simp] theorem dayNumber_inMonth : (inMonth n day hpos hle).dayNumber = monthStart n + day := by
  rw [dayNumber, monthNumber_inMonth]
  rfl

end InMonth

theorem lengthOf_pos (n : ℕ) : 1 ≤ lengthOf n :=
  le_trans (by omega) (le_monthLength (n / 12) (n % 12 + 1))

/-- The day after. -/
def tomorrow (a : Date) : Date :=
  if h : a.day + 1 ≤ lengthOf a.monthNumber then inMonth a.monthNumber (a.day + 1) (by omega) h
  else inMonth (a.monthNumber + 1) 1 le_rfl (lengthOf_pos _)

/-- So many days on. -/
def addDays (a : Date) : ℕ → Date
  | 0 => a
  | n + 1 => (a.addDays n).tomorrow

/-- So many months on: the day is kept, or is the last one of a shorter month. -/
def addMonths (a : Date) (k : ℕ) : Date :=
  inMonth (a.monthNumber + k) (min a.day (lengthOf (a.monthNumber + k)))
    (le_min a.day_pos (lengthOf_pos _)) (min_le_right _ _)

@[simp] theorem dayNumber_tomorrow : a.tomorrow.dayNumber = a.dayNumber + 1 := by
  have hle := a.day_le_lengthOf
  rw [tomorrow]
  split_ifs with h
  · rw [dayNumber_inMonth, dayNumber]
    omega
  · -- The date is the last one of its month.
    rw [dayNumber_inMonth, dayNumber, monthStart]
    omega

@[simp] theorem dayNumber_addDays (n : ℕ) : (a.addDays n).dayNumber = a.dayNumber + n := by
  induction n with
  | zero => rfl
  | succ n ih =>
      rw [addDays, dayNumber_tomorrow, ih]
      omega

/-- Some days on is a date if they are the days between. -/
theorem addDays_eq_iff {n : ℕ} : a.addDays n = b ↔ a.dayNumber + n = b.dayNumber := by
  rw [← dayNumber_injective.eq_iff, dayNumber_addDays]

@[simp] theorem monthNumber_addMonths (k : ℕ) :
    (a.addMonths k).monthNumber = a.monthNumber + k := by
  rw [addMonths, monthNumber_inMonth]

theorem day_addMonths (k : ℕ) :
    (a.addMonths k).day = min a.day (lengthOf (a.monthNumber + k)) := rfl

theorem addMonths_strictMono : StrictMono a.addMonths := by
  intro k l h
  rw [lt_iff, monthNumber_addMonths, monthNumber_addMonths]
  omega

/-- `b` is so many months and then so many days after `a`, and no more months
fit in between. -/
structure Apart (a b : Date) (months days : ℕ) : Prop where
  reached : (a.addMonths months).addDays days = b
  largest : ∀ k, a.addMonths k ≤ b → k ≤ months

/-- No more months fit if the next one passes the date. -/
theorem apart_iff {months days : ℕ} : Apart a b months days ↔
    (a.addMonths months).dayNumber + days = b.dayNumber ∧ b < a.addMonths (months + 1) := by
  constructor
  · rintro ⟨hreached, hlargest⟩
    refine ⟨addDays_eq_iff.1 hreached, ?_⟩
    by_contra hle
    exact absurd (hlargest _ (not_lt.1 hle)) (by omega)
  · rintro ⟨hdays, hnext⟩
    refine ⟨addDays_eq_iff.2 hdays, ?_⟩
    intro k hk
    have hlt := addMonths_strictMono.lt_iff_lt.1 (hk.trans_lt hnext)
    omega

/-- With a day that is not smaller, all months in between fit, and no month's
length comes in. -/
theorem apart_of_day_le {months : ℕ} (hmonths : a.monthNumber + months = b.monthNumber)
    (hday : a.day ≤ b.day) : Apart a b months (b.day - a.day) := by
  have hb := b.day_le_lengthOf
  have hmin : min a.day (lengthOf b.monthNumber) = a.day := min_eq_left (hday.trans hb)
  rw [apart_iff]
  constructor
  · rw [dayNumber, dayNumber, monthNumber_addMonths, day_addMonths, hmonths, hmin]
    omega
  · rw [lt_iff, monthNumber_addMonths]
    omega

/-- With a smaller day, the month in front is counted in days.  That comes out
if the month in front has the day of `a`, and if the next month, in which it
may be a shorter one's last day, passes `b`. -/
theorem apart_iff_of_day_lt {months days : ℕ} (hmonths : a.monthNumber + months + 1 = b.monthNumber)
    (hday : b.day < a.day) (hdays : days + a.day = lengthOf (a.monthNumber + months) + b.day) :
    Apart a b months days ↔
      a.day ≤ lengthOf (a.monthNumber + months) ∧ b.day < lengthOf b.monthNumber := by
  have hreached : (a.addMonths months).dayNumber + days = b.dayNumber ↔
      a.day ≤ lengthOf (a.monthNumber + months) := by
    rw [dayNumber, dayNumber, monthNumber_addMonths, day_addMonths, ← hmonths, monthStart]
    omega
  have hnext : b < a.addMonths (months + 1) ↔ b.day < lengthOf b.monthNumber := by
    rw [lt_iff, monthNumber_addMonths, day_addMonths, ← Nat.add_assoc, hmonths]
    omega
  rw [apart_iff, hreached, hnext]

end PotHub.Lib.Date
