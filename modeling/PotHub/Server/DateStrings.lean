import PotHub.Server.Dates

/-!
# The strings that are taken for dates

`getDateDifference` gets strings of the client.  It cuts out what stands at the
places of the day, of the month and of the year, and `valid_date` decides on
the numbers.

Strings that are too short for the places are read behind their end, or the
pointer to the part comes out in front of its block.  Of the strings that have
the shape of a date, `valid_date` takes those of the dates that exist, and
those with the day 00.
-/

namespace PotHub.Server

open PotHub.Json PotHub.Lib

/-- Behind the reads, `valid_date` decides on both dates. -/
theorem getDateDifference_of_parts {date1 date2 : Text} {parts1 parts2 : DateParts}
    (h1 : dateParts date1 = .ok parts1) (h2 : dateParts date2 = .ok parts2) :
    getDateDifference date1 date2 =
      if validDate parts1 ∧ validDate parts2 then .ok (dateDifference parts1 parts2)
      else .error .invalidDate := by
  simp only [getDateDifference, h1, h2, ok_bind]
  by_cases hvalid1 : validDate parts1
  · by_cases hvalid2 : validDate parts2
    · simp [hvalid1, hvalid2]
    · simp [hvalid1, hvalid2]
      rfl
  · simp [hvalid1]
    rfl

/-! ## Strings of any length -/

section Bounds

/-- The parts that `getDateDifference` cuts out of a date, from where to where. -/
def dateFields : List (ℕ × ℕ) := [(0, 2), (3, 5), (6, 10)]

/-- No read of the call is behind the terminator, and the call returns the
start of its block, which holds what stands at the places. -/
def CutsOut (src : Text) (m n : ℕ) : Prop := substr src m n = .ok ⟨(src.drop m).take (n - m), 0⟩

variable {src date date1 date2 : Text} {m n : ℕ}

theorem charAt_of_length_lt {i : ℕ} (h : src.length < i) : charAt src i = .error .outOfBounds := by
  have hnone : (src ++ ['\x00'])[i]? = none := by
    rw [List.getElem?_eq_none_iff, List.length_append, List.length_singleton]
    exact h
  rw [charAt, hnone]

/-- Where the string ends in front of the part, the first read is outside of it. -/
theorem substr_of_length_lt (hmn : m < n) (h : src.length < m) :
    substr src m n = .error .outOfBounds := by
  obtain ⟨turns, hturns⟩ := Nat.exists_eq_add_of_lt hmn
  have hsub : n - m = turns + 1 := by omega
  rw [substr, hsub, substrLoop, charAt_of_length_lt h]
  rfl

theorem substr_of_le_length (hzero : '\x00' ∉ src) (h : m ≤ src.length) :
    substr src m n =
      .ok ⟨(src.drop m).take (n - m), n - m - ((src.drop m).take (n - m)).length⟩ := by
  rw [substr, substrLoop_eq hzero h]
  rfl

/-- A part is cut out if the string has all of it. -/
theorem cutsOut_iff (hzero : '\x00' ∉ src) (hmn : m < n) : CutsOut src m n ↔ n ≤ src.length := by
  rw [CutsOut]
  rcases Nat.lt_or_ge src.length m with hlt | hge
  · rw [substr_of_length_lt hmn hlt]
    constructor
    · intro h
      cases h
    · intro h
      omega
  · rw [substr_of_le_length hzero hge]
    simp only [Except.ok.injEq, Substr.mk.injEq, true_and, List.length_take, List.length_drop]
    omega

theorem atoiSubstr_of_le_length (hzero : '\x00' ∉ src) (hmn : m < n) (h : n ≤ src.length) :
    atoiSubstr src m n = .ok (atoi ((src.drop m).take (n - m))) := by
  rw [atoiSubstr, (cutsOut_iff hzero hmn).2 h]
  rfl

/-- The string ends too early: in front of the part, or inside of it, and then
the pointer is in front of its block. -/
theorem atoiSubstr_of_length_lt (hzero : '\x00' ∉ src) (hmn : m < n) (h : src.length < n) :
    atoiSubstr src m n = .error .outOfBounds := by
  rcases Nat.lt_or_ge src.length m with hlt | hge
  · rw [atoiSubstr, substr_of_length_lt hmn hlt]
    rfl
  · have hback : n - m - ((src.drop m).take (n - m)).length ≠ 0 := by
      rw [List.length_take, List.length_drop]
      omega
    simp only [atoiSubstr, substr_of_le_length hzero hge, ok_bind, Substr.string, if_neg hback]
    rfl

theorem dateParts_of_le_length (hzero : '\x00' ∉ date) (h : 10 ≤ date.length) :
    ∃ parts, dateParts date = .ok parts := by
  have h2 : 2 ≤ date.length := by omega
  have h5 : 5 ≤ date.length := by omega
  simp only [dateParts, atoiSubstr_of_le_length hzero (by decide : 0 < 2) h2,
    atoiSubstr_of_le_length hzero (by decide : 3 < 5) h5,
    atoiSubstr_of_le_length hzero (by decide : 6 < 10) h, ok_bind, pure_eq_ok]
  exact ⟨_, rfl⟩

theorem dateParts_of_length_lt (hzero : '\x00' ∉ date) (h : date.length < 10) :
    dateParts date = .error .outOfBounds := by
  rw [dateParts, atoiSubstr_of_length_lt hzero (by decide : 6 < 10) h]
  rcases Nat.lt_or_ge date.length 2 with h2 | h2
  · rw [atoiSubstr_of_length_lt hzero (by decide : 0 < 2) h2]
    rfl
  · rw [atoiSubstr_of_le_length hzero (by decide : 0 < 2) h2, ok_bind]
    rcases Nat.lt_or_ge date.length 5 with h5 | h5
    · rw [atoiSubstr_of_length_lt hzero (by decide : 3 < 5) h5]
      rfl
    · rw [atoiSubstr_of_le_length hzero (by decide : 3 < 5) h5]
      rfl

/-- Every part is cut out of both strings, and nothing outside is read. -/
def HandledWithinBounds (date1 date2 : Text) : Prop :=
  (∀ date ∈ [date1, date2], ∀ field ∈ dateFields, CutsOut date field.1 field.2) ∧
    getDateDifference date1 date2 ≠ .error .outOfBounds

theorem cutsOut_dateFields_iff (hzero : '\x00' ∉ date) :
    (∀ field ∈ dateFields, CutsOut date field.1 field.2) ↔ 10 ≤ date.length := by
  simp only [dateFields, List.forall_mem_cons, cutsOut_iff hzero (by decide : 0 < 2),
    cutsOut_iff hzero (by decide : 3 < 5), cutsOut_iff hzero (by decide : 6 < 10)]
  simp
  omega

/-- A read outside is met where one of the strings is too short. -/
theorem getDateDifference_outOfBounds_iff (hzero1 : '\x00' ∉ date1) (hzero2 : '\x00' ∉ date2) :
    getDateDifference date1 date2 = .error .outOfBounds ↔
      ¬ (10 ≤ date1.length ∧ 10 ≤ date2.length) := by
  rcases Nat.lt_or_ge date1.length 10 with h1 | h1
  · refine iff_of_true ?_ (by omega)
    rw [getDateDifference, dateParts_of_length_lt hzero1 h1]
    rfl
  · obtain ⟨parts1, hparts1⟩ := dateParts_of_le_length hzero1 h1
    rcases Nat.lt_or_ge date2.length 10 with h2 | h2
    · refine iff_of_true ?_ (by omega)
      rw [getDateDifference, hparts1, dateParts_of_length_lt hzero2 h2]
      rfl
    · obtain ⟨parts2, hparts2⟩ := dateParts_of_le_length hzero2 h2
      refine iff_of_false ?_ (by omega)
      rw [getDateDifference_of_parts hparts1 hparts2]
      split_ifs <;> simp

/-- **Strings of ten characters and more are handled within bounds, and no
others.** -/
theorem handledWithinBounds_iff (hzero1 : '\x00' ∉ date1) (hzero2 : '\x00' ∉ date2) :
    HandledWithinBounds date1 date2 ↔ 10 ≤ date1.length ∧ 10 ≤ date2.length := by
  have hcuts : (∀ date ∈ [date1, date2], ∀ field ∈ dateFields, CutsOut date field.1 field.2) ↔
      10 ≤ date1.length ∧ 10 ≤ date2.length := by
    rw [List.forall_mem_cons, List.forall_mem_singleton, cutsOut_dateFields_iff hzero1,
      cutsOut_dateFields_iff hzero2]
  rw [HandledWithinBounds, hcuts, Ne, getDateDifference_outOfBounds_iff hzero1 hzero2, not_not,
    and_self]

theorem handledWithinBounds_leapDay :
    HandledWithinBounds "29/02/2024".toList "14/03/2024".toList :=
  (handledWithinBounds_iff (by decide) (by decide)).2 (by decide)

/-- A year without its first two digits: the pointer is two characters in front
of its block. -/
theorem not_handledWithinBounds_shortYear :
    ¬ HandledWithinBounds "29/02/24".toList "14/03/2024".toList := by
  rintro ⟨hcuts, -⟩
  have hback : substr "29/02/24".toList 6 10 = .ok ⟨"24".toList, 2⟩ := by decide
  have hyear := hcuts _ List.mem_cons_self (6, 10) (by decide)
  rw [CutsOut, hback] at hyear
  cases hyear

end Bounds

/-! ## Strings of the shape of a date -/

/-- Digits, so many. -/
def Digits (k : ℕ) (w : Text) : Prop := w.length = k ∧ ∀ c ∈ w, c.isDigit = true

/-- Two digits, two digits and four, with slashes between. -/
def DateShaped (date : Text) : Prop :=
  ∃ dd mm yyyy, Digits 2 dd ∧ Digits 2 mm ∧ Digits 4 yyyy ∧
    date = dd ++ '/' :: (mm ++ '/' :: yyyy)

/-- The string of a date that exists, in the years that the server takes. -/
def IsRealDate (date : Text) : Prop := ∃ a : ServedDate, a.text = date

/-- The string has the day 00, in a month and a year that are right. -/
def HasZeroDay (date : Text) : Prop :=
  ∃ mon year, 1 ≤ mon ∧ mon ≤ 12 ∧ 1800 ≤ year ∧ year ≤ 9999 ∧ date = dateString 0 mon year

/-- What the caller of `getDateDifference` gets: the return code, and what then
stands behind the three pointers. -/
structure DateReturn where
  code : ℕ
  behind : DateDifference
deriving DecidableEq, Repr

/-- A call of `getDateDifference`, with what stands behind the three pointers
before it. -/
def callGetDateDifference (date1 date2 : Text) (before : DateDifference) :
    Except Fault DateReturn :=
  match getDateDifference date1 date2 with
  | .ok δ => .ok ⟨0, δ⟩
  | .error .invalidDate => .ok ⟨1, before⟩
  | .error .outOfBounds => .error .outOfBounds

/-- Two dates that exist give 0, and all others 1, with nothing written. -/
def OnlyRealDates (date1 date2 : Text) : Prop :=
  ∀ before, ∃ r, callGetDateDifference date1 date2 before = .ok r ∧
    (r.code = 0 ↔ IsRealDate date1 ∧ IsRealDate date2) ∧
    (¬ (IsRealDate date1 ∧ IsRealDate date2) → r = ⟨1, before⟩)

section Shape

variable {date date1 date2 : Text} {day mon year : ℕ}

theorem Digits.exists_padded {k : ℕ} {w : Text} (h : Digits k w) :
    ∃ n, n < 10 ^ k ∧ w = padded k n := by
  obtain ⟨rfl, hdigits⟩ := h
  exact Lib.exists_padded hdigits

theorem DateShaped.exists_dateString (h : DateShaped date) :
    ∃ day mon year, day < 10 ^ 2 ∧ mon < 10 ^ 2 ∧ year < 10 ^ 4 ∧
      date = dateString day mon year := by
  obtain ⟨dd, mm, yyyy, hdd, hmm, hyyyy, rfl⟩ := h
  obtain ⟨day, hday, rfl⟩ := hdd.exists_padded
  obtain ⟨mon, hmon, rfl⟩ := hmm.exists_padded
  obtain ⟨year, hyear, rfl⟩ := hyyyy.exists_padded
  exact ⟨day, mon, year, hday, hmon, hyear, rfl⟩

/-- `valid_date` has both bounds of the year and of the month, and the upper
bound of the day. -/
theorem validDate_iff : validDate ⟨day, mon, year⟩ = true ↔
    (1800 ≤ year ∧ year ≤ 9999) ∧ (1 ≤ mon ∧ mon ≤ 12) ∧ day ≤ monthLength year mon := by
  by_cases hyear : 1800 ≤ (year : Int) ∧ (year : Int) ≤ 9999
  · by_cases hmon : 1 ≤ (mon : Int) ∧ (mon : Int) ≤ 12
    · have hyear' : 1800 ≤ year ∧ year ≤ 9999 := by omega
      have hmon' : 1 ≤ mon ∧ mon ≤ 12 := by omega
      simp only [validDate, if_pos hyear, if_pos hmon, isLeap_iff, monthLength, hyear', hmon',
        true_and]
      split_ifs <;> simp only [true_iff, false_iff] <;> grind
    · simp only [validDate, if_pos hyear, if_neg hmon, Bool.false_eq_true, false_iff]
      omega
  · simp only [validDate, if_neg hyear, Bool.false_eq_true, false_iff]
    omega

/-- Each date of the shape has its own string. -/
theorem parts_of_dateString {a : ServedDate} (hday : day < 10 ^ 2) (hmon : mon < 10 ^ 2)
    (hyear : year < 10 ^ 4) (h : a.text = dateString day mon year) :
    a.day = day ∧ a.month = mon ∧ a.year = year := by
  have hparts := a.dateParts_text
  rw [h, dateParts_dateString hday hmon hyear] at hparts
  simp only [partsOf, Except.ok.injEq, DateParts.mk.injEq] at hparts
  omega

theorem isRealDate_iff (hday : day < 10 ^ 2) (hmon : mon < 10 ^ 2) (hyear : year < 10 ^ 4) :
    IsRealDate (dateString day mon year) ↔ validDate ⟨day, mon, year⟩ = true ∧ 1 ≤ day := by
  constructor
  · rintro ⟨a, ha⟩
    obtain ⟨rfl, rfl, rfl⟩ := parts_of_dateString hday hmon hyear ha
    exact ⟨a.validDate_partsOf, a.day_pos⟩
  · rintro ⟨hvalid, hpos⟩
    obtain ⟨⟨hle, hyear_le⟩, ⟨hmon_pos, hmon_le⟩, hday_le⟩ := validDate_iff.1 hvalid
    exact ⟨⟨⟨year, mon, day, hmon_pos, hmon_le, hpos, hday_le⟩, hle, hyear_le⟩, rfl⟩

theorem hasZeroDay_iff (hday : day < 10 ^ 2) (hmon : mon < 10 ^ 2) (hyear : year < 10 ^ 4) :
    HasZeroDay (dateString day mon year) ↔ validDate ⟨day, mon, year⟩ = true ∧ day = 0 := by
  constructor
  · rintro ⟨mon', year', hmon_pos, hmon_le, hle, hyear_le, heq⟩
    have hparts := dateParts_dateString hday hmon hyear
    rw [heq, dateParts_dateString (by omega) (by omega) (by omega)] at hparts
    simp only [Except.ok.injEq, DateParts.mk.injEq] at hparts
    rw [validDate_iff]
    exact ⟨⟨by omega, by omega, by omega⟩, by omega⟩
  · rintro ⟨hvalid, rfl⟩
    obtain ⟨⟨hle, hyear_le⟩, ⟨hmon_pos, hmon_le⟩, -⟩ := validDate_iff.1 hvalid
    exact ⟨mon, year, hmon_pos, hmon_le, hle, hyear_le, rfl⟩

/-- A string of the shape is read, and taken if it has a date that exists or
the day 00. -/
theorem DateShaped.dateParts (h : DateShaped date) :
    ∃ parts, dateParts date = .ok parts ∧
      (validDate parts = true ↔ IsRealDate date ∨ HasZeroDay date) := by
  obtain ⟨day, mon, year, hday, hmon, hyear, rfl⟩ := h.exists_dateString
  refine ⟨_, dateParts_dateString hday hmon hyear, ?_⟩
  rw [isRealDate_iff hday hmon hyear, hasZeroDay_iff hday hmon hyear]
  constructor
  · intro hvalid
    rcases Nat.eq_zero_or_pos day with hzero | hpos
    · exact .inr ⟨hvalid, hzero⟩
    · exact .inl ⟨hvalid, hpos⟩
  · rintro (⟨hvalid, -⟩ | ⟨hvalid, -⟩) <;> exact hvalid

theorem DateShaped.not_both (h : DateShaped date) : ¬ (IsRealDate date ∧ HasZeroDay date) := by
  obtain ⟨day, mon, year, hday, hmon, hyear, rfl⟩ := h.exists_dateString
  rw [isRealDate_iff hday hmon hyear, hasZeroDay_iff hday hmon hyear]
  omega

theorem callGetDateDifference_of_taken (h1 : DateShaped date1) (h2 : DateShaped date2)
    (ht1 : IsRealDate date1 ∨ HasZeroDay date1) (ht2 : IsRealDate date2 ∨ HasZeroDay date2)
    (before : DateDifference) : ∃ δ, callGetDateDifference date1 date2 before = .ok ⟨0, δ⟩ := by
  obtain ⟨parts1, hparts1, hvalid1⟩ := h1.dateParts
  obtain ⟨parts2, hparts2, hvalid2⟩ := h2.dateParts
  refine ⟨dateDifference parts1 parts2, ?_⟩
  rw [callGetDateDifference, getDateDifference_of_parts hparts1 hparts2,
    if_pos ⟨hvalid1.2 ht1, hvalid2.2 ht2⟩]

theorem callGetDateDifference_of_not_taken (h1 : DateShaped date1) (h2 : DateShaped date2)
    (ht : ¬ ((IsRealDate date1 ∨ HasZeroDay date1) ∧ (IsRealDate date2 ∨ HasZeroDay date2)))
    (before : DateDifference) : callGetDateDifference date1 date2 before = .ok ⟨1, before⟩ := by
  obtain ⟨parts1, hparts1, hvalid1⟩ := h1.dateParts
  obtain ⟨parts2, hparts2, hvalid2⟩ := h2.dateParts
  rw [← hvalid1, ← hvalid2] at ht
  rw [callGetDateDifference, getDateDifference_of_parts hparts1 hparts2, if_neg ht]

/-- **The day 00 is taken for a day.**  Of the strings with the shape of a date,
those with the day 00 are the only ones that are taken although there is no such
date. -/
theorem onlyRealDates_iff (h1 : DateShaped date1) (h2 : DateShaped date2) :
    OnlyRealDates date1 date2 ↔
      (HasZeroDay date1 → ¬ (IsRealDate date2 ∨ HasZeroDay date2)) ∧
        (HasZeroDay date2 → ¬ (IsRealDate date1 ∨ HasZeroDay date1)) := by
  have hnot1 := h1.not_both
  have hnot2 := h2.not_both
  by_cases ht : (IsRealDate date1 ∨ HasZeroDay date1) ∧ (IsRealDate date2 ∨ HasZeroDay date2)
  · -- Both strings are taken, so both dates have to exist.
    have hcall := callGetDateDifference_of_taken h1 h2 ht.1 ht.2
    constructor
    · intro honly
      obtain ⟨r, hr, hcode, -⟩ := honly ⟨0, 0, 0⟩
      obtain ⟨δ, hδ⟩ := hcall ⟨0, 0, 0⟩
      rw [hr] at hδ
      cases hδ
      have hreal := hcode.1 rfl
      tauto
    · intro hcond before
      have hreal : IsRealDate date1 ∧ IsRealDate date2 := by tauto
      obtain ⟨δ, hδ⟩ := hcall before
      exact ⟨_, hδ, iff_of_true rfl hreal, fun h => absurd hreal h⟩
  · have hcond : (HasZeroDay date1 → ¬ (IsRealDate date2 ∨ HasZeroDay date2)) ∧
        (HasZeroDay date2 → ¬ (IsRealDate date1 ∨ HasZeroDay date1)) := by tauto
    have hreal : ¬ (IsRealDate date1 ∧ IsRealDate date2) := by tauto
    refine iff_of_true ?_ hcond
    intro before
    exact ⟨_, callGetDateDifference_of_not_taken h1 h2 ht before,
      iff_of_false Nat.one_ne_zero hreal, fun _ => rfl⟩

theorem dateShaped_dateString (day mon year : ℕ) : DateShaped (dateString day mon year) :=
  ⟨_, _, _, ⟨length_padded, fun _ => isDigit_of_mem_padded⟩,
    ⟨length_padded, fun _ => isDigit_of_mem_padded⟩,
    ⟨length_padded, fun _ => isDigit_of_mem_padded⟩, rfl⟩

/-- A year that is no leap year has no February 29. -/
theorem onlyRealDates_noLeapYear : OnlyRealDates "29/02/2023".toList "01/05/2020".toList := by
  have hfirst : ¬ HasZeroDay (dateString 29 2 2023) := by
    rw [hasZeroDay_iff (by decide) (by decide) (by decide)]
    omega
  have hsecond : ¬ HasZeroDay (dateString 1 5 2020) := by
    rw [hasZeroDay_iff (by decide) (by decide) (by decide)]
    omega
  exact (onlyRealDates_iff (dateShaped_dateString 29 2 2023) (dateShaped_dateString 1 5 2020)).2
    ⟨fun h => absurd h hfirst, fun h => absurd h hsecond⟩

/-- The day in front of May 1 is not May 0. -/
theorem not_onlyRealDates_zeroDay : ¬ OnlyRealDates "00/05/2020".toList "01/05/2020".toList := by
  intro h
  obtain ⟨r, hr, hcode, -⟩ := h ⟨0, 0, 0⟩
  have hcall : callGetDateDifference "00/05/2020".toList "01/05/2020".toList ⟨0, 0, 0⟩ =
      .ok ⟨0, 1, 0, 0⟩ := by decide
  rw [hcall] at hr
  cases hr
  have hreal : IsRealDate (dateString 0 5 2020) := (hcode.1 rfl).1
  rw [isRealDate_iff (by decide) (by decide) (by decide)] at hreal
  omega

end Shape

end PotHub.Server
