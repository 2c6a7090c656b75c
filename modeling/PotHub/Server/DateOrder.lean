import Mathlib.Data.Prod.Lex
import PotHub.Lib.DateSteps
import PotHub.Server.Dates

/-!
# What the differences of dates say

`getDateDifference` borrows from the month in front and from the year in front,
once each.  From a fixed date on, the differences grow with the other date,
before the fixed date too.

Between a date and a later one they are the years, the months and the days on,
except where a month on the way does not have the day of the first date: nothing
is done about a day that a month does not have.
-/

namespace PotHub.Server

open PotHub.Json PotHub.Lib

/-! ## The order of the differences -/

namespace DateDifference

/-- Years first, then months, then days. -/
def key (δ : DateDifference) : ℤ ×ₗ ℤ ×ₗ ℤ := toLex (δ.year, toLex (δ.month, δ.day))

theorem key_injective : Function.Injective key := by
  rintro ⟨d, m, y⟩ ⟨d', m', y'⟩ h
  simp only [key, EmbeddingLike.apply_eq_iff_eq, Prod.mk.injEq] at h
  obtain ⟨rfl, rfl, rfl⟩ := h
  rfl

instance : LinearOrder DateDifference := LinearOrder.lift' key key_injective

variable {δ ε : DateDifference}

theorem lt_iff : δ < ε ↔ δ.year < ε.year ∨
    δ.year = ε.year ∧ (δ.month < ε.month ∨ δ.month = ε.month ∧ δ.day < ε.day) := by
  have hkey : δ < ε ↔ key δ < key ε := Iff.rfl
  rw [hkey, key, key, Prod.Lex.toLex_lt_toLex, Prod.Lex.toLex_lt_toLex]

theorem eq_mk {d m y : ℤ} (hd : δ.day = d) (hm : δ.month = m) (hy : δ.year = y) :
    δ = ⟨d, m, y⟩ := by
  subst hd hm hy
  rfl

/-- All months of the difference. -/
def months (δ : DateDifference) : ℤ := 12 * δ.year + δ.month

/-- With months from 0 to 11, years and months are in the order of all months. -/
theorem lt_of_months (hδ : 0 ≤ δ.month ∧ δ.month ≤ 11) (hε : 0 ≤ ε.month ∧ ε.month ≤ 11)
    (h : δ.months < ε.months ∨ δ.months = ε.months ∧ δ.day < ε.day) : δ < ε := by
  rw [months, months] at h
  rw [lt_iff]
  omega

end DateDifference

namespace ServedDate

theorem toDate_injective : Function.Injective toDate := by
  rintro ⟨a, _, _⟩ ⟨b, _, _⟩ rfl
  rfl

instance : LinearOrder ServedDate := LinearOrder.lift' toDate toDate_injective

variable (a b : ServedDate)

theorem lt_iff {a b : ServedDate} : a < b ↔
    a.monthNumber < b.monthNumber ∨ a.monthNumber = b.monthNumber ∧ a.day < b.day :=
  Date.lt_iff

/-- What `getDateDifference` writes for two dates that exist. -/
def differenceTo : DateDifference := dateDifference (partsOf a.toDate) (partsOf b.toDate)

theorem differenceTo_day : (a.differenceTo b).day =
    b.day - a.day + borrowed a.toDate b.toDate * lengthOf (b.monthNumber - 1) :=
  dateDifference_day _ _

theorem differenceTo_months : (a.differenceTo b).months =
    b.monthNumber - a.monthNumber - borrowed a.toDate b.toDate :=
  dateDifference_months _ _

theorem differenceTo_month_range :
    0 ≤ (a.differenceTo b).month ∧ (a.differenceTo b).month ≤ 11 :=
  dateDifference_month_range _ _

/-- A borrow is made exactly where the day is too small. -/
theorem borrowed_cases : b.day < a.day ∧ borrowed a.toDate b.toDate = 1 ∨
    a.day ≤ b.day ∧ borrowed a.toDate b.toDate = 0 := by
  rcases Nat.lt_or_ge b.day a.day with hday | hday
  · exact .inl ⟨hday, if_pos hday⟩
  · exact .inr ⟨hday, if_neg (Nat.not_lt.2 hday)⟩

theorem differenceTo_self : a.differenceTo a = ⟨0, 0, 0⟩ := by
  have hborrow : borrowed a.toDate a.toDate = 0 := if_neg (Nat.lt_irrefl _)
  have hday := a.differenceTo_day a
  have hmonths := a.differenceTo_months a
  have hrange := a.differenceTo_month_range a
  rw [hborrow] at hday hmonths
  rw [DateDifference.months] at hmonths
  exact DateDifference.eq_mk (by omega) (by omega) (by omega)

variable {b b' : ServedDate}

/-- In one month the same length is borrowed, if at all. -/
theorem differenceTo_lt_of_day_lt (hmonth : b.monthNumber = b'.monthNumber)
    (hlt : b.day < b'.day) : a.differenceTo b < a.differenceTo b' := by
  have hday := a.differenceTo_day b
  have hday' := a.differenceTo_day b'
  have hmonths := a.differenceTo_months b
  have hmonths' := a.differenceTo_months b'
  refine DateDifference.lt_of_months (a.differenceTo_month_range b)
    (a.differenceTo_month_range b') ?_
  rcases a.borrowed_cases b with ⟨-, hone⟩ | ⟨hge, hzero⟩
  · rcases a.borrowed_cases b' with ⟨-, hone'⟩ | ⟨-, hzero'⟩
    · rw [hone, hmonth] at hday
      rw [hone'] at hday'
      right
      omega
    · left
      omega
  · have hzero' : borrowed a.toDate b'.toDate = 0 := if_neg (by omega)
    rw [hzero] at hday
    rw [hzero'] at hday'
    right
    omega

/-- From month to month the months of the difference are more; or else they are
the same, as the month of the first date is borrowed, and it has the day of that
date. -/
theorem differenceTo_lt_of_month_lt (hmonth : b.monthNumber < b'.monthNumber) :
    a.differenceTo b < a.differenceTo b' := by
  have hday := a.differenceTo_day b
  have hday' := a.differenceTo_day b'
  have hmonths := a.differenceTo_months b
  have hmonths' := a.differenceTo_months b'
  have hle := borrowed_le a.toDate b.toDate
  have hle' := borrowed_le a.toDate b'.toDate
  refine DateDifference.lt_of_months (a.differenceTo_month_range b)
    (a.differenceTo_month_range b') ?_
  by_cases hmore : (a.differenceTo b).months < (a.differenceTo b').months
  · exact .inl hmore
  · have hpred : b'.monthNumber - 1 = b.monthNumber := by omega
    have hzero : borrowed a.toDate b.toDate = 0 := by omega
    have hone : borrowed a.toDate b'.toDate = 1 := by omega
    have hlength := b.day_le_lengthOf
    have hpos := b'.day_pos
    rw [hzero] at hday
    rw [hone, hpred] at hday'
    right
    omega

/-- A later date is further on. -/
theorem differenceTo_strictMono : StrictMono a.differenceTo := by
  intro b b' h
  rcases lt_iff.1 h with hmonth | ⟨hmonth, hday⟩
  · exact a.differenceTo_lt_of_month_lt hmonth
  · exact a.differenceTo_lt_of_day_lt hmonth hday

variable (b)

/-- Years are missing exactly if the date is the earlier one. -/
theorem differenceTo_year_neg_iff : (a.differenceTo b).year < 0 ↔ b < a := by
  have hmonths := a.differenceTo_months b
  have hrange := a.differenceTo_month_range b
  rw [DateDifference.months] at hmonths
  rw [lt_iff]
  rcases a.borrowed_cases b with ⟨hday, hborrow⟩ | ⟨hday, hborrow⟩ <;> rw [hborrow] at hmonths <;>
    omega

/-- **The differences order the dates.**  They grow with the date, are zero at
the date itself, and have a negative year for the dates before it. -/
theorem differences_ordered : ∃ f : ServedDate → DateDifference,
    (∀ b, getDateDifference a.text b.text = .ok (f b)) ∧ StrictMono f ∧
      (∀ b, 0 ≤ (f b).month ∧ (f b).month ≤ 11) ∧ f a = ⟨0, 0, 0⟩ ∧
        ∀ b, (f b).year < 0 ↔ b < a :=
  ⟨a.differenceTo, a.getDateDifference_text, a.differenceTo_strictMono,
    a.differenceTo_month_range, a.differenceTo_self, a.differenceTo_year_neg_iff⟩

/-! ## The days and months on -/

/-- The differences are years, at most eleven months, and days, and the second
date is reached from the first one by as many months as fit and then by days. -/
def IsDecomposed : Prop :=
  ∃ years months days : ℕ,
    getDateDifference a.text b.text = .ok ⟨days, months, years⟩ ∧ months ≤ 11 ∧
      Date.Apart a.toDate b.toDate (12 * years + months) days

variable {a b} in
/-- The years and the months are those of all months between. -/
theorem isDecomposed_iff_apart {k : ℕ}
    (hk : a.monthNumber + k + borrowed a.toDate b.toDate = b.monthNumber) :
    a.IsDecomposed b ↔
      ∃ days : ℕ, (a.differenceTo b).day = days ∧ Date.Apart a.toDate b.toDate k days := by
  have hmonths := a.differenceTo_months b
  have hrange := a.differenceTo_month_range b
  have htext := a.getDateDifference_text b
  rw [DateDifference.months] at hmonths
  constructor
  · rintro ⟨years, months, days, hdiff, hle, hapart⟩
    have heq : a.differenceTo b = ⟨days, months, years⟩ := Except.ok.inj (htext.symm.trans hdiff)
    rw [heq] at hmonths ⊢
    have hnumber : 12 * years + months = k := by
      simp only at hmonths
      omega
    exact ⟨days, rfl, hnumber ▸ hapart⟩
  · rintro ⟨days, hday, hapart⟩
    have hsplit : 12 * (k / 12) + k % 12 = k := Nat.div_add_mod k 12
    refine ⟨k / 12, k % 12, days, ?_, by omega, hsplit.symm ▸ hapart⟩
    have heq : a.differenceTo b = ⟨days, (k % 12 : ℕ), (k / 12 : ℕ)⟩ :=
      DateDifference.eq_mk hday (by omega) (by omega)
    exact htext.trans (congrArg _ heq)

variable {a b} in
/-- **The difference is a decomposition unless a day is missing.**  Either no
month is borrowed, or the month in front has the day of the first date and the
second date is not the last one of its month. -/
theorem isDecomposed_iff (h : a ≤ b) : a.IsDecomposed b ↔
    a.day ≤ b.day ∨
      (a.day ≤ lengthOf (b.monthNumber - 1) ∧ b.day < monthLength b.year b.month) := by
  have hle := Date.le_iff.1 h
  have hday := a.differenceTo_day b
  rw [← b.lengthOf_monthNumber]
  rcases a.borrowed_cases b with ⟨hlt, hborrow⟩ | ⟨hge, hborrow⟩
  · obtain ⟨k, hk⟩ : ∃ k, a.monthNumber + k + 1 = b.monthNumber :=
      ⟨b.monthNumber - a.monthNumber - 1, by omega⟩
    have hpred : b.monthNumber - 1 = a.monthNumber + k := by omega
    rw [hborrow, hpred] at hday
    rw [isDecomposed_iff_apart (hborrow ▸ hk), hpred]
    constructor
    · rintro ⟨days, hdays, hapart⟩
      exact .inr ((Date.apart_iff_of_day_lt hk hlt (by omega)).1 hapart)
    · rintro (hge | hfits)
      · omega
      · obtain ⟨days, hdays⟩ : ∃ days, days + a.day = lengthOf (a.monthNumber + k) + b.day :=
          ⟨lengthOf (a.monthNumber + k) + b.day - a.day, by omega⟩
        exact ⟨days, by omega, (Date.apart_iff_of_day_lt hk hlt hdays).2 hfits⟩
  · obtain ⟨k, hk⟩ := Nat.exists_eq_add_of_le (show a.monthNumber ≤ b.monthNumber by omega)
    rw [hborrow] at hday
    rw [isDecomposed_iff_apart (k := k) (by omega)]
    exact iff_of_true ⟨b.day - a.day, by omega, Date.apart_of_day_le hk.symm hge⟩ (.inl hge)

end ServedDate

/-- A date, with its bounds in one. -/
def servedDate (day month year : ℕ) (h : (1 ≤ month ∧ month ≤ 12) ∧
    (1 ≤ day ∧ day ≤ monthLength year month) ∧ 1800 ≤ year ∧ year ≤ 9999) : ServedDate where
  year := year
  month := month
  day := day
  month_pos := h.1.1
  month_le := h.1.2
  day_pos := h.2.1.1
  day_le := h.2.1.2
  le_year := h.2.2.1
  year_le := h.2.2.2

def endOfJanuary : ServedDate := servedDate 31 1 2023 (by decide)

def midFebruary : ServedDate := servedDate 15 2 2023 (by decide)

def firstOfMarch : ServedDate := servedDate 1 3 2023 (by decide)

theorem isDecomposed_midFebruary : midFebruary.IsDecomposed firstOfMarch :=
  (ServedDate.isDecomposed_iff (Date.le_iff.2 (by decide))).2 (by decide)

/-- The 28 days of February are too few for January 31. -/
theorem not_isDecomposed_endOfJanuary : ¬ endOfJanuary.IsDecomposed firstOfMarch := by
  rintro ⟨years, months, days, hdiff, -, -⟩
  have hvalue : endOfJanuary.differenceTo firstOfMarch = ⟨-2, 1, 0⟩ := by decide
  rw [endOfJanuary.getDateDifference_text, Except.ok.injEq] at hdiff
  have hdays : (days : ℤ) = -2 := congrArg DateDifference.day (hdiff.symm.trans hvalue)
  omega

end PotHub.Server
