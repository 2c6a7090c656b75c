import PotHub.Server.UserQuery

/-!
# The rows of the last 14 days

The answer of the 14-day query over rows that carry a date: the rows from 14
days before the date of the query up to that date, counted in days of the
calendar.
-/

namespace PotHub.Server

open PotHub.Json PotHub.Lib

variable {D : Type}

/-- A row with a date for timestamp, whose texts are no longer than their buffers. -/
structure DatedReport (D : Type) where
  report : PotholeReport D
  date : ServedDate
  timestamp_eq : report.timestamp = date.text
  address_le : report.address.length ≤ addressSize
  user_le : report.user.length ≤ usernameSize

namespace DatedReport

variable (row : DatedReport D) (d : ServedDate)

/-- The row is from one of the last 14 days before `d`, or from `d` itself. -/
def OfLast14Days : Prop :=
  0 ≤ (d.dayNumber : Int) - row.date.dayNumber ∧ (d.dayNumber : Int) - row.date.dayNumber ≤ 14

instance : Decidable (row.OfLast14Days d) := inferInstanceAs (Decidable (_ ∧ _))

/-- The row as an object. -/
def object (m : Doubles D) : CJson D :=
  potholeObject m row.report.latitude row.report.longitude row.report.address row.report.user
    row.report.timestamp row.report.intensity

theorem noZero_timestamp : '\x00' ∉ row.report.timestamp := by
  rw [row.timestamp_eq]
  exact row.date.noZero_text

theorem length_timestamp : row.report.timestamp.length = 10 := by
  simp [row.timestamp_eq, ServedDate.text]

theorem not_truncated : ¬ row.report.Truncated := by
  have h1 := row.address_le
  have h2 := row.user_le
  have h3 := row.length_timestamp
  rw [PotholeReport.Truncated, timestampSize]
  omega

/-- The texts of the row leave room for their terminators, and have none in them. -/
structure Terminated : Prop where
  address_lt : row.report.address.length < addressSize
  user_lt : row.report.user.length < usernameSize
  address_noZero : '\x00' ∉ row.report.address
  user_noZero : '\x00' ∉ row.report.user

/-- The object in the reply is the row where no text ends early. -/
theorem toObject_eq_iff (m : Doubles D) : row.report.toObject m = row.object m ↔
    '\x00' ∉ row.report.address ∧ '\x00' ∉ row.report.user := by
  simp [PotholeReport.toObject, object, potholeObject, cString_eq_self_iff, row.noZero_timestamp]

theorem getDateDifference_eq : getDateDifference (cString row.report.timestamp) d.text =
    .ok (dateDifference (partsOf row.date.toDate) (partsOf d.toDate)) := by
  rw [cString_of_not_mem row.noZero_timestamp, row.timestamp_eq,
    ServedDate.getDateDifference_text]

theorem readable_iff : row.report.Readable d.text ↔ (row.report.Recent d.text →
    row.report.address.length < addressSize ∧ row.report.user.length < usernameSize) := by
  refine ⟨fun h => h.2.2, fun h => ⟨?_, ⟨_, row.getDateDifference_eq d⟩, h⟩⟩
  rw [row.length_timestamp]
  decide

theorem recent_iff : row.report.Recent d.text ↔ row.OfLast14Days d := by
  rw [PotholeReport.Recent, row.getDateDifference_eq, OfLast14Days, ← within14_iff]
  simp

end DatedReport

variable (m : Doubles D)

theorem filter_recent (rows : List (DatedReport D)) (d : ServedDate) :
    ((rows.map DatedReport.report).filter fun row => row.Recent d.text) =
      (rows.filter fun row => row.OfLast14Days d).map DatedReport.report := by
  rw [List.filter_map]
  exact congrArg _ (List.filter_congr fun row _ => decide_eq_decide.2 (row.recent_iff d))

/-- All rows are fetched, and the reply is the recent ones as far as they can be read. -/
theorem rowLoop_of_dated {rows : List (DatedReport D)} {d : ServedDate} {tree : CJson D} :
    rowLoop m d.text (rows.map DatedReport.report) [] = .json tree ↔
      (∀ row ∈ rows, row.report.Readable d.text) ∧
        tree = .array ((rows.filter fun row => row.OfLast14Days d).map fun row =>
          row.report.toObject m) := by
  have hwhole : ∀ row ∈ rows.map DatedReport.report, ¬ row.Truncated := by
    rintro _ hrow
    obtain ⟨row, -, rfl⟩ := List.mem_map.1 hrow
    exact row.not_truncated
  rw [rowLoop_nil_eq_json_iff, fetched_of_whole hwhole, filter_recent, List.map_map,
    List.forall_mem_map]
  rfl

/-- **When the 14-day query is exact.**  The test that the loop makes holds exactly
of the dates of the last 14 days.  Where the user's rows carry dates and have texts
no longer than their buffers, the reply is the rows of the last 14 days, in their
order, exactly when the texts of these leave room for their terminators and have
none in them. -/
theorem getUserPotholesBy14DaysJson_eq_iff (table : List (PotholeReport D))
    (rows : List (DatedReport D)) (username : Text) (d : ServedDate)
    (hrows : selectByUser table username = rows.map DatedReport.report) :
    ((∀ t : ServedDate, ∃ δ, getDateDifference t.text d.text = .ok δ ∧
      (δ.Within14 ↔ 0 ≤ (d.dayNumber : Int) - t.dayNumber ∧
        (d.dayNumber : Int) - t.dayNumber ≤ 14)) ∧
    getUserPotholesBy14DaysJson m table username d.text =
      .json (.array ((rows.filter fun row => row.OfLast14Days d).map fun row => row.object m))) ↔
    ∀ row ∈ rows, row.OfLast14Days d → row.Terminated := by
  have htest : ∀ t : ServedDate, ∃ δ, getDateDifference t.text d.text = .ok δ ∧
      (δ.Within14 ↔ 0 ≤ (d.dayNumber : Int) - t.dayNumber ∧
        (d.dayNumber : Int) - t.dayNumber ≤ 14) :=
    fun t => ⟨_, t.getDateDifference_text d, within14_iff _ _⟩
  rw [getUserPotholesBy14DaysJson, hrows, rowLoop_of_dated, CJson.array.injEq, List.map_inj_left]
  constructor
  -- The row was readable, so it has room for terminators; it is shown whole, so it has none inside.
  · rintro ⟨-, hread, hobjects⟩ row hrow hrecent
    have hlt := (row.readable_iff d).1 (hread row hrow) ((row.recent_iff d).2 hrecent)
    have hzero := (row.toObject_eq_iff m).1
      (hobjects row (List.mem_filter.2 ⟨hrow, decide_eq_true hrecent⟩)).symm
    exact ⟨hlt.1, hlt.2, hzero.1, hzero.2⟩
  · refine fun h => ⟨htest, fun row hrow => ?_, fun row hrow => ?_⟩
    · refine (row.readable_iff d).2 fun hrecent => ?_
      have hterm := h row hrow ((row.recent_iff d).1 hrecent)
      exact ⟨hterm.address_lt, hterm.user_lt⟩
    · obtain ⟨hmem, hrecent⟩ := List.mem_filter.1 hrow
      have hterm := h row hmem (of_decide_eq_true hrecent)
      exact ((row.toObject_eq_iff m).2 ⟨hterm.address_noZero, hterm.user_noZero⟩).symm

/-! A table with a report of the leap day, one of the year before, and one of
another user. -/

def leapDay : ServedDate := ⟨⟨2024, 2, 29, by decide, by decide, by decide, by decide⟩,
  by decide, by decide⟩

def yearBefore : ServedDate := ⟨⟨2023, 3, 10, by decide, by decide, by decide, by decide⟩,
  by decide, by decide⟩

def twoWeeksOn : ServedDate := ⟨⟨2024, 3, 14, by decide, by decide, by decide, by decide⟩,
  by decide, by decide⟩

def reportOf (user : Text) (date : ServedDate) : PotholeReport Int :=
  ⟨41, 14, "Via Roma".toList, user, date.text, 12⟩

def datedReport (date : ServedDate) : DatedReport Int where
  report := reportOf "fab".toList date
  date := date
  timestamp_eq := rfl
  address_le := show "Via Roma".toList.length ≤ addressSize by decide
  user_le := show "fab".toList.length ≤ usernameSize by decide

theorem terminated_datedReport (date : ServedDate) : (datedReport date).Terminated where
  address_lt := show "Via Roma".toList.length < addressSize by decide
  user_lt := show "fab".toList.length < usernameSize by decide
  address_noZero := show '\x00' ∉ "Via Roma".toList by decide
  user_noZero := show '\x00' ∉ "fab".toList by decide

theorem ofLast14Days_leapDay : (datedReport leapDay).OfLast14Days twoWeeksOn := by
  rw [DatedReport.OfLast14Days, ← within14_iff]
  decide

def leapTable : List (PotholeReport Int) :=
  [reportOf "fab".toList yearBefore, reportOf "umb".toList leapDay,
    reportOf "fab".toList leapDay]

theorem getUserPotholesBy14DaysJson_leapTable :
    getUserPotholesBy14DaysJson wholeNumbers leapTable "fab".toList twoWeeksOn.text =
      .json (.array [(datedReport leapDay).object wholeNumbers]) := by
  have hterminated : ∀ row ∈ [datedReport yearBefore, datedReport leapDay],
      row.OfLast14Days twoWeeksOn → row.Terminated := by
    simp only [List.forall_mem_cons]
    exact ⟨fun _ => terminated_datedReport _, fun _ => terminated_datedReport _, by simp⟩
  refine ((getUserPotholesBy14DaysJson_eq_iff wholeNumbers leapTable
    [datedReport yearBefore, datedReport leapDay] "fab".toList twoWeeksOn rfl).2
    hterminated).2.trans ?_
  have hold : ¬ (datedReport yearBefore).OfLast14Days twoWeeksOn := by
    rw [DatedReport.OfLast14Days, ← within14_iff]
    decide
  simp [hold, ofLast14Days_leapDay]

/-- A report of the leap day whose address fills its buffer. -/
def fullAddress : DatedReport Int where
  report := { reportOf "fab".toList leapDay with address := List.replicate addressSize 'a' }
  date := leapDay
  timestamp_eq := rfl
  address_le := (List.length_replicate ..).le
  user_le := show "fab".toList.length ≤ usernameSize by decide

theorem getUserPotholesBy14DaysJson_fullAddress :
    selectByUser [fullAddress.report] "fab".toList = [fullAddress].map DatedReport.report ∧
    fullAddress.OfLast14Days twoWeeksOn ∧
    getUserPotholesBy14DaysJson wholeNumbers [fullAddress.report] "fab".toList twoWeeksOn.text =
      .outOfBounds ∧
    getUserPotholesBy14DaysJson wholeNumbers [fullAddress.report] "fab".toList twoWeeksOn.text ≠
      .json (.array (([fullAddress].filter fun row => row.OfLast14Days twoWeeksOn).map fun row =>
        row.object wholeNumbers)) := by
  have htime : fullAddress.report.timestamp.length < timestampSize := by
    rw [fullAddress.length_timestamp]
    decide
  have hwithin : (dateDifference (partsOf fullAddress.date.toDate)
      (partsOf twoWeeksOn.toDate)).Within14 := by decide
  have hfull : ¬ fullAddress.report.address.length < addressSize := by simp [fullAddress]
  have hrow : readRow wholeNumbers twoWeeksOn.text fullAddress.report = .error .outOfBounds := by
    simp [readRow, bufferString, htime, fullAddress.getDateDifference_eq, hwithin, hfull]
    rfl
  have hfault : getUserPotholesBy14DaysJson wholeNumbers [fullAddress.report] "fab".toList
      twoWeeksOn.text = .outOfBounds := by
    show rowLoop wholeNumbers twoWeeksOn.text [fullAddress.report] [] = _
    rw [rowLoop, if_neg fullAddress.not_truncated, hrow]
  refine ⟨rfl, ofLast14Days_leapDay, hfault, ?_⟩
  rw [hfault]
  exact fun h => by cases h

end PotHub.Server
