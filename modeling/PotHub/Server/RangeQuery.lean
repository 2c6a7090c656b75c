import PotHub.Json.Print
import PotHub.Server.Window

/-!
# The range query

`getPotholesByRangeJson`, over the same table as the 14-day query.  Here a row
comes as texts of any length, one for each column, and the numbers are read back
with `atof` and `atoi`.

Both queries make the same object of a row, where they make one.  But the
14-day query stops at a text that is too long for its buffer, and is lost at a
text that just fills it (`agree_iff`).
-/

namespace PotHub.Server

open PotHub.Json PotHub.Lib

/-! ## The columns as texts -/

/-- `atoi` reads an `INT` column back. -/
theorem atoi_decimal (n : Int) : atoi (decimal n) = n := by
  have hdigits : ∀ {n : ℕ}, ∀ c ∈ Nat.toDigits 10 n, c.isDigit = true :=
    fun c hc => Nat.isDigit_of_mem_toDigits (by decide) (by decide) hc
  cases n with
  | ofNat n =>
      rw [decimal_ofNat, atoi_of_digits hdigits, Nat.ofDigitChars_ten_toDigits]
      rfl
  | negSucc n =>
      have hread : atoi ('-' :: Nat.toDigits 10 (n + 1)) =
          -(digitsValue (Nat.toDigits 10 (n + 1)) : Int) := rfl
      rw [decimal_negSucc, hread, digitsValue_of_digits hdigits, Nat.ofDigitChars_ten_toDigits]
      rfl

/-- A row as `mysql_fetch_row` returns it. -/
structure TextRow where
  latitude : Text
  longitude : Text
  address : Text
  user : Text
  timestamp : Text
  intensity : Text

/-- What the query uses of the type `double`, besides reading it: the text of a
`DOUBLE` column, the arithmetic, and the functions of `math.h`. -/
structure Coordinates (D : Type) where
  text : D → Text
  /-- The value of a whole literal. -/
  ofNat : ℕ → D
  /-- `M_PI`. -/
  pi : D
  add : D → D → D
  sub : D → D → D
  mul : D → D → D
  div : D → D → D
  sin : D → D
  cos : D → D
  sqrt : D → D
  atan2 : D → D → D
  /-- The test `distance <= range`. -/
  le : D → D → Bool

section Distances

variable {D : Type} (c : Coordinates D)

def Coordinates.toRad (x : D) : D := c.div (c.mul x c.pi) (c.ofNat 180)

/-- The distance of two points on the earth. -/
def Coordinates.haversineDistance (latitude1 longitude1 latitude2 longitude2 : D) : D :=
  let earthRadius := c.ofNat 6378137
  let dLat := c.toRad (c.sub latitude2 latitude1)
  let dLong := c.toRad (c.sub longitude2 longitude1)
  let sinLat := c.sin (c.div dLat (c.ofNat 2))
  let sinLong := c.sin (c.div dLong (c.ofNat 2))
  let a := c.add (c.mul sinLat sinLat)
    (c.mul (c.mul (c.mul (c.cos (c.toRad latitude1)) (c.cos (c.toRad latitude2))) sinLong) sinLong)
  let angle := c.mul (c.ofNat 2) (c.atan2 (c.sqrt a) (c.sqrt (c.sub (c.ofNat 1) a)))
  c.mul earthRadius angle

end Distances

variable {D : Type} (m : Doubles D) (c : Coordinates D)

/-- A row of the table, column by column. -/
def PotholeReport.textRow (row : PotholeReport D) : TextRow where
  latitude := c.text row.latitude
  longitude := c.text row.longitude
  address := row.address
  user := row.user
  timestamp := row.timestamp
  intensity := decimal row.intensity

/-- `atof`. -/
def atof (w : Text) : D := (m.strtod w).1

/-! ## The query -/

/-- The row loop, with the objects so far. -/
def rangeLoop (latitude longitude range : D) : List TextRow → List (CJson D) → List (CJson D)
  | [], items => items
  | row :: rows, items =>
      let distance :=
        c.haversineDistance (atof m row.latitude) (atof m row.longitude) latitude longitude
      if c.le distance range then
        let pothole := potholeObject m (atof m row.latitude) (atof m row.longitude)
          (cString row.address) (cString row.user) (cString row.timestamp) (atoi row.intensity)
        rangeLoop latitude longitude range rows (items ++ [pothole])
      else rangeLoop latitude longitude range rows items

/-- `getPotholesByRangeJson`, with allocations that succeed. -/
def getPotholesByRangeJson (table : List (PotholeReport D)) (latitude longitude range : D) :
    CJson D :=
  .array (rangeLoop m c latitude longitude range (table.map (PotholeReport.textRow c)) [])

/-- The coordinates of a row are read back from their texts. -/
def PotholeReport.ReadsBack (row : PotholeReport D) : Prop :=
  atof m (c.text row.latitude) = row.latitude ∧ atof m (c.text row.longitude) = row.longitude

/-- The row is in the range. -/
def PotholeReport.InRange (latitude longitude range : D) (row : PotholeReport D) : Prop :=
  c.le (c.haversineDistance row.latitude row.longitude latitude longitude) range = true

instance (latitude longitude range : D) :
    DecidablePred (PotholeReport.InRange c latitude longitude range) :=
  fun _ => inferInstanceAs (Decidable (_ = _))

instance [DecidableEq D] : DecidablePred (PotholeReport.ReadsBack m c) :=
  fun _ => inferInstanceAs (Decidable (_ ∧ _))

variable {m c}

/-- Rows in the range are shown, whole. -/
theorem rangeLoop_of_inRange {latitude longitude range : D} {rows : List (PotholeReport D)}
    (hback : ∀ row ∈ rows, row.ReadsBack m c)
    (hrange : ∀ row ∈ rows, row.InRange c latitude longitude range) (items : List (CJson D)) :
    rangeLoop m c latitude longitude range (rows.map (PotholeReport.textRow c)) items =
      items ++ rows.map (PotholeReport.toObject m) := by
  induction rows generalizing items with
  | nil => simp [rangeLoop]
  | cons row rows ih =>
      obtain ⟨⟨hlat, hlon⟩, hback⟩ := List.forall_mem_cons.1 hback
      obtain ⟨hrow, hrange⟩ := List.forall_mem_cons.1 hrange
      have hle : c.le (c.haversineDistance (atof m (row.textRow c).latitude)
          (atof m (row.textRow c).longitude) latitude longitude) range = true := by
        rw [PotholeReport.textRow, hlat, hlon]
        exact hrow
      rw [List.map_cons, rangeLoop, if_pos hle, ih hback hrange]
      simp [PotholeReport.textRow, PotholeReport.toObject, hlat, hlon, atoi_decimal]

/-! ## The two queries -/

/-- The row is one of the user's, and recent. -/
def PotholeReport.Wanted (username date : Text) (row : PotholeReport D) : Prop :=
  row.user = username ∧ row.Recent date

instance (username date : Text) : DecidablePred (PotholeReport.Wanted (D := D) username date) :=
  fun _ => inferInstanceAs (Decidable (_ ∧ _))

/-- The objects that the range query makes of the rows which the user query is
to show. -/
def wantedObjects (table : List (PotholeReport D)) (username date : Text)
    (objects : List (CJson D)) : List (CJson D) :=
  ((table.zip objects).filter fun p => p.1.Wanted username date).map Prod.snd

variable (m c)

/-- The range query shows every row, and the user query shows the recent rows of
the user as the same objects. -/
def Agree (table : List (PotholeReport D)) (username date : Text) (latitude longitude range : D) :
    Prop :=
  ∃ objects items, getPotholesByRangeJson m c table latitude longitude range = .array objects ∧
    objects.length = table.length ∧
    getUserPotholesBy14DaysJson m table username date = .json (.array items) ∧
    (wantedObjects table username date objects).Sublist items

/-- The texts of a row leave room for a terminator in their buffers, as far as
the loop looks at them. -/
def PotholeReport.Fits (date : Text) (row : PotholeReport D) : Prop :=
  row.timestamp.length < timestampSize ∧
    (row.Recent date → row.address.length < addressSize ∧ row.user.length < usernameSize)

variable {m c}

theorem wantedObjects_map (table : List (PotholeReport D)) (username date : Text)
    (f : PotholeReport D → CJson D) :
    wantedObjects table username date (table.map f) =
      ((selectByUser table username).filter fun row => row.Recent date).map f := by
  rw [wantedObjects, ← List.map_prod_left_eq_zip, List.filter_map, List.map_map, selectByUser,
    List.filter_filter]
  refine congrArg (List.map f) (List.filter_congr fun row _ => ?_)
  show decide (row.user = username ∧ row.Recent date) = _
  rw [Bool.decide_and, Bool.and_comm]

theorem readable_iff_fits {date : Text} {row : PotholeReport D}
    (h : ∃ δ, getDateDifference (cString row.timestamp) date = .ok δ) :
    row.Readable date ↔ row.Fits date :=
  ⟨fun ⟨htime, _, htexts⟩ => ⟨htime, htexts⟩, fun ⟨htime, htexts⟩ => ⟨htime, h, htexts⟩⟩

/-- The rows from the first one on that is cut short. -/
def unfetched (rows : List (PotholeReport D)) : List (PotholeReport D) :=
  rows.dropWhile fun row => ¬ row.Truncated

theorem fetched_append_unfetched (rows : List (PotholeReport D)) :
    fetched rows ++ unfetched rows = rows := List.takeWhile_append_dropWhile

/-- The recent rows are those fetched and those not fetched. -/
theorem filter_recent_split (date : Text) (rows : List (PotholeReport D)) :
    (rows.filter fun row => row.Recent date) =
      ((fetched rows).filter fun row => row.Recent date) ++
        (unfetched rows).filter fun row => row.Recent date := by
  rw [← List.filter_append, fetched_append_unfetched]

/-- **When the two queries agree.**  Where the user's timestamps are dates, every
recent row of the user appears in the 14-day query as the object that the range
query makes of it exactly when, up to the first row that is cut short, the texts
leave room for a terminator, and from that row on no row is recent. -/
theorem agree_iff (table : List (PotholeReport D)) (username date : Text)
    (latitude longitude range : D) (hback : ∀ row ∈ table, row.ReadsBack m c)
    (hrange : ∀ row ∈ table, row.InRange c latitude longitude range)
    (hdates : ∀ row ∈ selectByUser table username,
      ∃ δ, getDateDifference (cString row.timestamp) date = .ok δ) :
    Agree m c table username date latitude longitude range ↔
      (∀ row ∈ fetched (selectByUser table username), row.Fits date) ∧
        ∀ row ∈ unfetched (selectByUser table username), ¬ row.Recent date := by
  have hobjects : getPotholesByRangeJson m c table latitude longitude range =
      .array (table.map (PotholeReport.toObject m)) :=
    congrArg _ (rangeLoop_of_inRange hback hrange [])
  have hwanted := wantedObjects_map table username date (PotholeReport.toObject m)
  rw [filter_recent_split, List.map_append] at hwanted
  have hfits : (∀ row ∈ fetched (selectByUser table username), row.Readable date) ↔
      ∀ row ∈ fetched (selectByUser table username), row.Fits date :=
    forall₂_congr fun row hrow =>
      readable_iff_fits (hdates row ((List.takeWhile_sublist _).subset hrow))
  constructor
  · rintro ⟨objects, items, hobj, -, hitems, hsub⟩
    obtain ⟨hread, hitems⟩ := getUserPotholesBy14DaysJson_eq_json_iff.1 hitems
    rw [hobjects, CJson.array.injEq] at hobj
    rw [CJson.array.injEq] at hitems
    rw [← hobj, hitems, hwanted] at hsub
    -- a recent row that is not fetched would be one object more
    have hlen := hsub.length_le
    rw [List.length_append] at hlen
    have hnone : ((unfetched (selectByUser table username)).filter fun row =>
        row.Recent date).map (PotholeReport.toObject m) = [] :=
      List.eq_nil_of_length_eq_zero (by omega)
    refine ⟨hfits.1 hread, fun row hrow hrecent => ?_⟩
    exact List.filter_eq_nil_iff.1 (List.map_eq_nil_iff.1 hnone) row hrow (decide_eq_true hrecent)
  · rintro ⟨hfit, hlost⟩
    have hnone : ((unfetched (selectByUser table username)).filter fun row =>
        row.Recent date) = [] := List.filter_eq_nil_iff.2 fun row hrow => by
      simpa using hlost row hrow
    refine ⟨table.map (PotholeReport.toObject m), _, hobjects, List.length_map _,
      getUserPotholesBy14DaysJson_eq_json_iff.2 ⟨hfits.2 hfit, rfl⟩, ?_⟩
    rw [hwanted, hnone, List.map_nil, List.append_nil]

/-! ## A row of 129 characters -/

/-- Whole numbers as coordinates.  The functions are right at zero, and the root at
one, so that the distance of a point from itself is zero. -/
def wholeCoordinates : Coordinates Int where
  text n := Nat.toDigits 10 n.toNat
  ofNat n := n
  pi := 3
  add a b := a + b
  sub a b := a - b
  mul a b := a * b
  div a b := a / b
  sin a := a
  cos a := 1 - a * a / 2
  sqrt a := a
  atan2 a b := a / b
  le a b := a ≤ b

/-- A report of the leap day, with an address of 129 characters. -/
def longAddress : PotholeReport Int :=
  { reportOf "fab".toList leapDay with address := List.replicate 129 'a' }

theorem getDateDifference_leapDay {row : PotholeReport D} (h : row.timestamp = leapDay.text) :
    getDateDifference (cString row.timestamp) twoWeeksOn.text =
      .ok (dateDifference (partsOf leapDay.toDate) (partsOf twoWeeksOn.toDate)) := by
  rw [h, cString_of_not_mem leapDay.noZero_text, ServedDate.getDateDifference_text]

theorem recent_leapDay {row : PotholeReport D} (h : row.timestamp = leapDay.text) :
    row.Recent twoWeeksOn.text := ⟨_, getDateDifference_leapDay h, by decide⟩

theorem not_agree_of_longAddress : ¬ Agree wholeNumbers wholeCoordinates [longAddress]
    "fab".toList twoWeeksOn.text 41 14 20037509 := by
  rintro ⟨objects, items, hobjects, hlen, hitems, hsub⟩
  have hcut : longAddress.Truncated := by decide +kernel
  have hnone : getUserPotholesBy14DaysJson wholeNumbers [longAddress] "fab".toList
      twoWeeksOn.text = .json (.array []) := by
    show rowLoop wholeNumbers twoWeeksOn.text [longAddress] [] = _
    rw [rowLoop, if_pos hcut]
  rw [hnone] at hitems
  obtain rfl : [] = items := by simpa using hitems
  obtain ⟨object, rfl⟩ := List.length_eq_one_iff.1 hlen
  have hwanted : longAddress.Wanted "fab".toList twoWeeksOn.text := ⟨rfl, recent_leapDay rfl⟩
  have hmem : object ∈ wantedObjects [longAddress] "fab".toList twoWeeksOn.text [object] :=
    List.mem_map.2 ⟨(longAddress, object),
      List.mem_filter.2 ⟨List.mem_singleton_self _, decide_eq_true hwanted⟩, rfl⟩
  exact absurd (hsub.subset hmem) List.not_mem_nil

theorem agree_of_leapDay : Agree wholeNumbers wholeCoordinates [reportOf "fab".toList leapDay]
    "fab".toList twoWeeksOn.text 41 14 20037509 := by
  have hrows : selectByUser [reportOf "fab".toList leapDay] "fab".toList =
      [reportOf "fab".toList leapDay] := rfl
  have hwhole : ∀ row ∈ [reportOf "fab".toList leapDay], ¬ row.Truncated := by decide +kernel
  refine (agree_iff _ _ _ _ _ _ (by decide +kernel) (by decide +kernel) ?_).2 ⟨?_, ?_⟩
  · rw [hrows]
    intro row hrow
    obtain rfl := List.mem_singleton.1 hrow
    exact ⟨_, getDateDifference_leapDay rfl⟩
  · rw [hrows, fetched_of_whole hwhole]
    intro row hrow
    obtain rfl := List.mem_singleton.1 hrow
    exact ⟨by decide, fun _ => by decide⟩
  · have hnone : unfetched (selectByUser [reportOf "fab".toList leapDay] "fab".toList) = [] := by
      rw [hrows]
      rfl
    rw [hnone]
    exact fun row hrow => absurd hrow List.not_mem_nil

end PotHub.Server
