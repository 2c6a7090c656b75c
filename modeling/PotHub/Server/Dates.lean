import PotHub.Json.Tree
import PotHub.Lib.Calendar
import PotHub.Lib.CStrings

/-!
# Differences of dates

The date functions of `utilities.c`.  A date is a text dd/MM/yyyy, which
`getDateDifference` takes apart by position.  No day is counted: where the day
of the later date is too small, the length of the month in front of it is
borrowed, and where then the month is too small, a year.

For dates that exist the three differences are what remains of the day numbers
once the months are counted through.
-/

namespace PotHub.Server

open PotHub.Json PotHub.Lib

/-- Why a row or a date is not taken. -/
inductive Fault
  /-- A read outside of a string or of a block, for which C promises nothing. -/
  | outOfBounds
  /-- `getDateDifference` returns 1. -/
  | invalidDate
deriving DecidableEq, Repr

@[simp] theorem ok_bind {α β : Type} (a : α) (f : α → Except Fault β) :
    (Except.ok a >>= f) = f a := rfl

@[simp] theorem pure_eq_ok {α : Type} (a : α) : (pure a : Except Fault α) = .ok a := rfl

theorem bind_eq_ok {α β : Type} {x : Except Fault α} {f : α → Except Fault β} {b : β} :
    (x >>= f) = .ok b ↔ ∃ a, x = .ok a ∧ f a = .ok b := by
  cases x with
  | error e =>
      constructor
      · intro h
        cases h
      · rintro ⟨a, h, -⟩
        cases h
  | ok a => simp

/-! ## The parts of a date -/

/-- The character at an index of a string: the terminator can be read, and
nothing behind it. -/
def charAt (src : Text) (i : ℕ) : Except Fault Char :=
  match (src ++ ['\x00'])[i]? with
  | some c => .ok c
  | none => .error .outOfBounds

/-- The loop of `substr` from an index on, with so many turns left: the
characters that are copied. -/
def substrLoop (src : Text) : ℕ → ℕ → Except Fault Text
  | _, 0 => .ok []
  | i, turns + 1 => do
      let c ← charAt src i
      if c = '\x00' then return []
      else
        let rest ← substrLoop src (i + 1) turns
        return c :: rest

/-- The pointer that `substr` returns: what its block holds, and how far in
front of the block it points. -/
structure Substr where
  block : Text
  back : ℕ
deriving DecidableEq, Repr

/-- `dest` has moved by the characters copied, and goes back by `len`. -/
def substr (src : Text) (m n : ℕ) : Except Fault Substr := do
  let block ← substrLoop src m (n - m)
  return ⟨block, n - m - block.length⟩

/-- The string at the pointer. -/
def Substr.string (p : Substr) : Except Fault Text :=
  if p.back = 0 then .ok p.block else .error .outOfBounds

/-- `atoi(substr(src, m, n))`. -/
def atoiSubstr (src : Text) (m n : ℕ) : Except Fault Int := do
  let p ← substr src m n
  let text ← p.string
  return atoi text

/-- The three parts of a date. -/
structure DateParts where
  day : Int
  mon : Int
  year : Int
deriving DecidableEq, Repr

def dateParts (date : Text) : Except Fault DateParts := do
  let day ← atoiSubstr date 0 2
  let mon ← atoiSubstr date 3 5
  let year ← atoiSubstr date 6 10
  return ⟨day, mon, year⟩

/-! ## The difference -/

/-- The test for leap years that `utilities.c` makes twice. -/
def isLeap (year : Int) : Bool := (year % 4 = 0 && year % 100 ≠ 0) || year % 400 = 0

/-- `valid_date`.  There is no lower bound for the day. -/
def validDate (date : DateParts) : Bool :=
  if 1800 ≤ date.year ∧ date.year ≤ 9999 then
    if 1 ≤ date.mon ∧ date.mon ≤ 12 then
      if date.mon = 2 then
        if isLeap date.year ∧ date.day = 29 then true
        else if 28 < date.day then false
        else true
      else if date.mon = 4 ∨ date.mon = 6 ∨ date.mon = 9 ∨ date.mon = 11 then
        if 30 < date.day then false else true
      else if 31 < date.day then false
      else true
    else false
  else false

/-- The days of the month in front. -/
def borrowedDays (mon year : Int) : Int :=
  if mon = 3 then
    if isLeap year then 29 else 28
  else if mon = 5 ∨ mon = 7 ∨ mon = 10 ∨ mon = 12 then 30
  else 31

/-- The differences that `getDateDifference` writes. -/
structure DateDifference where
  day : Int
  month : Int
  year : Int
deriving DecidableEq, Repr

/-- Where the day is too small, the length of the month in front is added. -/
def borrowMonth (date1 date2 : DateParts) : DateParts :=
  if date2.day < date1.day then
    { date2 with day := date2.day + borrowedDays date2.mon date2.year, mon := date2.mon - 1 }
  else date2

/-- Where the month is too small, a year is added. -/
def borrowYear (date1 date2 : DateParts) : DateParts :=
  if date2.mon < date1.mon then { date2 with mon := date2.mon + 12, year := date2.year - 1 }
  else date2

/-- `getDateDifference` behind the checks. -/
def dateDifference (date1 date2 : DateParts) : DateDifference :=
  let date2 := borrowYear date1 (borrowMonth date1 date2)
  ⟨date2.day - date1.day, date2.mon - date1.mon, date2.year - date1.year⟩

def getDateDifference (date1 date2 : Text) : Except Fault DateDifference := do
  let parts1 ← dateParts date1
  let parts2 ← dateParts date2
  if ¬ validDate parts1 then throw .invalidDate
  else if ¬ validDate parts2 then throw .invalidDate
  else return dateDifference parts1 parts2

/-- The test of the 14-day query. -/
def DateDifference.Within14 (δ : DateDifference) : Prop :=
  δ.day ≤ 14 ∧ δ.month = 0 ∧ δ.year = 0

instance : DecidablePred DateDifference.Within14 :=
  fun _ => inferInstanceAs (Decidable (_ ∧ _))

/-! ## Dates that exist -/

/-- A date in the years that the server takes. -/
structure ServedDate extends Date where
  le_year : 1800 ≤ year
  year_le : year ≤ 9999

namespace ServedDate

variable (a : ServedDate)

/-- The date as dd/MM/yyyy. -/
def text : Text := padded 2 a.day ++ '/' :: (padded 2 a.month ++ '/' :: padded 4 a.year)

end ServedDate

/-- The parts that are read from the text of a date. -/
@[simps] def partsOf (a : Date) : DateParts := ⟨a.day, a.month, a.year⟩

theorem isLeap_iff (y : ℕ) : isLeap y = true ↔ IsLeapYear y := by
  simp only [isLeap, IsLeapYear, Bool.or_eq_true, Bool.and_eq_true, decide_eq_true_eq]
  omega

/-! ### Reading -/

section Reading

variable {src : Text}

theorem charAt_of_lt {i : ℕ} (h : i < src.length) : charAt src i = .ok src[i] := by
  simp [charAt, List.getElem?_append_left h, List.getElem?_eq_getElem h]

theorem charAt_length : charAt src src.length = .ok '\x00' := by
  simp [charAt]

/-- As long as the loop starts inside of the string, it stays inside. -/
theorem substrLoop_eq (hzero : '\x00' ∉ src) {i : ℕ} (hi : i ≤ src.length) (turns : ℕ) :
    substrLoop src i turns = .ok ((src.drop i).take turns) := by
  induction turns generalizing i with
  | zero => simp [substrLoop]
  | succ turns ih =>
      rcases Nat.lt_or_eq_of_le hi with hlt | rfl
      · have hne : src[i] ≠ '\x00' := fun h => hzero (h ▸ List.getElem_mem hlt)
        rw [substrLoop, charAt_of_lt hlt, List.drop_eq_getElem_cons hlt, List.take_succ_cons]
        simp [hne, ih (i := i + 1) hlt]
      · simp [substrLoop, charAt_length]

/-- What stands between two positions of a string is read. -/
theorem atoiSubstr_eq {front part back : Text} {m n : ℕ} (hsrc : src = front ++ (part ++ back))
    (hzero : '\x00' ∉ src) (hm : front.length = m) (hn : m + part.length = n) :
    atoiSubstr src m n = .ok (atoi part) := by
  have hle : m ≤ src.length := by
    rw [hsrc, List.length_append]
    omega
  have hturns : n - m = part.length := by omega
  have hpart : (src.drop m).take part.length = part := by
    rw [hsrc, List.drop_left' hm, List.take_left]
  simp [atoiSubstr, substr, substrLoop_eq hzero hle, hturns, hpart, Substr.string]

/-- dd/MM/yyyy, with numbers that need not be a date. -/
def dateString (day mon year : ℕ) : Text :=
  padded 2 day ++ '/' :: (padded 2 mon ++ '/' :: padded 4 year)

section DateString

variable {day mon year : ℕ}

theorem noZero_dateString : '\x00' ∉ dateString day mon year := by
  have hslash : '\x00' ≠ '/' := by decide
  simp [dateString, not_mem_padded, hslash]

theorem dateParts_dateString (hday : day < 10 ^ 2) (hmon : mon < 10 ^ 2) (hyear : year < 10 ^ 4) :
    dateParts (dateString day mon year) = .ok ⟨day, mon, year⟩ := by
  have hfirst : dateString day mon year =
      [] ++ (padded 2 day ++ '/' :: (padded 2 mon ++ '/' :: padded 4 year)) :=
    rfl
  have hsecond : dateString day mon year =
      (padded 2 day ++ ['/']) ++ (padded 2 mon ++ '/' :: padded 4 year) := by
    simp [dateString]
  have hthird : dateString day mon year =
      (padded 2 day ++ '/' :: (padded 2 mon ++ ['/'])) ++ (padded 4 year ++ []) := by
    simp [dateString]
  simp only [dateParts]
  rw [atoiSubstr_eq hfirst noZero_dateString (by simp) (by simp), atoi_padded hday,
    atoiSubstr_eq hsecond noZero_dateString (by simp) (by simp), atoi_padded hmon,
    atoiSubstr_eq hthird noZero_dateString (by simp) (by simp), atoi_padded hyear]
  rfl

end DateString

end Reading

namespace ServedDate

variable (a : ServedDate)

theorem month_lt : a.month < 10 ^ 2 := by
  have := a.month_le
  omega

theorem day_lt : a.day < 10 ^ 2 := by
  have := a.day_le.trans (monthLength_le _ _)
  omega

theorem year_lt : a.year < 10 ^ 4 := by
  have := a.year_le
  omega

theorem noZero_text : '\x00' ∉ a.text := noZero_dateString

theorem dateParts_text : dateParts a.text = .ok (partsOf a.toDate) :=
  dateParts_dateString a.day_lt a.month_lt a.year_lt

theorem validDate_partsOf : validDate (partsOf a.toDate) = true := by
  have hday := a.day_le
  have hyear : 1800 ≤ (a.year : Int) ∧ (a.year : Int) ≤ 9999 := by
    have := a.le_year
    have := a.year_le
    omega
  have hmon : 1 ≤ (a.month : Int) ∧ (a.month : Int) ≤ 12 := by
    have := a.month_pos
    have := a.month_le
    omega
  simp only [validDate, partsOf, if_pos hyear, if_pos hmon, isLeap_iff]
  rw [monthLength] at hday
  split_ifs at hday ⊢ <;> first | rfl | omega | grind

/-- Dates that exist are not rejected. -/
theorem getDateDifference_text (b : ServedDate) :
    getDateDifference a.text b.text =
      .ok (dateDifference (partsOf a.toDate) (partsOf b.toDate)) := by
  simp [getDateDifference, dateParts_text, validDate_partsOf]

end ServedDate

/-! ### Counting the months through -/

section Counting

variable (a b : Date)

theorem borrowedDays_eq : borrowedDays b.month b.year = lengthOf (b.monthNumber - 1) := by
  have h1 := b.month_pos
  have h2 := b.month_le
  rcases Nat.lt_or_ge 1 b.month with h | h
  · have hdiv : (b.monthNumber - 1) / 12 = b.year := by
      rw [Date.monthNumber]
      omega
    have hmod : (b.monthNumber - 1) % 12 + 1 = b.month - 1 := by
      rw [Date.monthNumber]
      omega
    rw [lengthOf, hdiv, hmod]
    simp only [borrowedDays, monthLength, isLeap_iff]
    split_ifs <;> omega
  · -- In front of January is a December, or nothing.
    have hmod : (b.monthNumber - 1) % 12 = 11 ∨ (b.monthNumber - 1) % 12 = 0 := by
      rw [Date.monthNumber]
      omega
    have hmonth : (b.month : Int) = 1 := by omega
    rcases hmod with hmod | hmod <;> simp [lengthOf, hmod, hmonth, borrowedDays, monthLength]

/-- The month that is borrowed from. -/
def borrowed : ℕ := if b.day < a.day then 1 else 0

theorem borrowMonth_partsOf : borrowMonth (partsOf a) (partsOf b) =
    ⟨b.day + borrowed a b * lengthOf (b.monthNumber - 1), b.month - borrowed a b, b.year⟩ := by
  rw [borrowMonth, borrowed]
  by_cases h : b.day < a.day <;> simp [partsOf, h, borrowedDays_eq]

theorem borrowYear_day (date1 date2 : DateParts) : (borrowYear date1 date2).day = date2.day := by
  rw [borrowYear]
  split_ifs <;> rfl

/-- A year is twelve months. -/
theorem borrowYear_months (date1 date2 : DateParts) :
    12 * (borrowYear date1 date2).year + (borrowYear date1 date2).mon =
      12 * date2.year + date2.mon := by
  rw [borrowYear]
  split_ifs
  · simp only
    omega
  · rfl

theorem borrowYear_mon_range {date1 date2 : DateParts} (h1 : 1 ≤ date1.mon) (h2 : date1.mon ≤ 12)
    (h3 : 0 ≤ date2.mon) (h4 : date2.mon ≤ 12) :
    0 ≤ (borrowYear date1 date2).mon - date1.mon ∧
      (borrowYear date1 date2).mon - date1.mon ≤ 11 := by
  rw [borrowYear]
  split_ifs
  · simp only
    omega
  · omega

theorem dateDifference_day : (dateDifference (partsOf a) (partsOf b)).day =
    b.day - a.day + borrowed a b * lengthOf (b.monthNumber - 1) := by
  simp only [dateDifference, borrowYear_day, borrowMonth_partsOf, partsOf_day]
  omega

/-- The month and the year difference together are the months between. -/
theorem dateDifference_months :
    12 * (dateDifference (partsOf a) (partsOf b)).year +
        (dateDifference (partsOf a) (partsOf b)).month =
      b.monthNumber - a.monthNumber - borrowed a b := by
  have hyear := borrowYear_months (partsOf a) (borrowMonth (partsOf a) (partsOf b))
  have ha := a.month_pos
  have hb := b.month_pos
  simp only [dateDifference, borrowMonth_partsOf, partsOf_mon, partsOf_year,
    Date.monthNumber] at hyear ⊢
  omega

theorem borrowed_le : borrowed a b ≤ 1 := by
  rw [borrowed]
  split_ifs <;> omega

theorem dateDifference_month_range :
    0 ≤ (dateDifference (partsOf a) (partsOf b)).month ∧
      (dateDifference (partsOf a) (partsOf b)).month ≤ 11 := by
  have ha := a.month_pos
  have ha' := a.month_le
  have hb := b.month_pos
  have hb' := b.month_le
  have hle := borrowed_le a b
  refine borrowYear_mon_range ?_ ?_ ?_ ?_ <;>
    simp only [borrowMonth_partsOf, partsOf_mon] <;> omega

theorem within14_iff_borrowed : (dateDifference (partsOf a) (partsOf b)).Within14 ↔
    b.monthNumber = a.monthNumber + borrowed a b ∧
      (b.day : Int) + borrowed a b * lengthOf (b.monthNumber - 1) ≤ a.day + 14 := by
  have hmonths := dateDifference_months a b
  have hrange := dateDifference_month_range a b
  rw [DateDifference.Within14, dateDifference_day]
  constructor
  · rintro ⟨hday, hmon, hyear⟩
    exact ⟨by omega, by omega⟩
  · rintro ⟨hnumber, hday⟩
    exact ⟨by omega, by omega, by omega⟩

/-- **The window is exact.**  The test of the query holds exactly of the dates
that are no more than 14 days back, and not ahead. -/
theorem within14_iff : (dateDifference (partsOf a) (partsOf b)).Within14 ↔
    0 ≤ (b.dayNumber : Int) - a.dayNumber ∧ (b.dayNumber : Int) - a.dayNumber ≤ 14 := by
  have hlength := a.day_le_lengthOf
  rw [within14_iff_borrowed]
  rcases Nat.lt_trichotomy b.monthNumber a.monthNumber with hlt | heq | hgt
  · -- The month is an earlier one, and so is the date.
    have hdays := Date.dayNumber_lt_of_monthNumber_lt hlt
    exact ⟨fun h => by omega, fun h => by omega⟩
  · -- The same month: with a borrow the date is ahead.
    have hdays := Date.dayNumber_of_monthNumber_eq heq
    rcases Nat.lt_or_ge b.day a.day with hday | hday
    · have hborrow : borrowed a b = 1 := if_pos hday
      exact ⟨fun h => by omega, fun h => by omega⟩
    · have hborrow : borrowed a b = 0 := if_neg (by omega)
      rw [hborrow]
      exact ⟨fun h => by omega, fun h => ⟨by omega, by omega⟩⟩
  · rcases Nat.lt_or_ge (a.monthNumber + 1) b.monthNumber with htwo | hone
    · -- A whole month lies between, and a month has 28 days at least.
      have hdays := Date.dayNumber_of_two_le htwo
      have hle := borrowed_le a b
      exact ⟨fun h => by omega, fun h => by omega⟩
    · have hnext : b.monthNumber = a.monthNumber + 1 := by omega
      have hdays := Date.dayNumber_of_monthNumber_succ hnext
      have hpred : b.monthNumber - 1 = a.monthNumber := by omega
      have hlen := le_monthLength a.year a.month
      rw [hpred]
      rw [Date.lengthOf_monthNumber] at hlength ⊢
      rcases Nat.lt_or_ge b.day a.day with hday | hday
      · -- The borrow is the length of the month in front, and the difference is exact.
        have hborrow : borrowed a b = 1 := if_pos hday
        rw [hborrow]
        exact ⟨fun h => by omega, fun h => ⟨by omega, by omega⟩⟩
      · -- A whole month and more has passed.
        have hborrow : borrowed a b = 0 := if_neg (by omega)
        exact ⟨fun h => by omega, fun h => by omega⟩

end Counting

end PotHub.Server
