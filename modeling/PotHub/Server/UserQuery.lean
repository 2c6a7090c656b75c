import PotHub.Server.Dates
import PotHub.Server.Request

/-!
# The 14-day query

`reportPothole` and `getUserPotholesBy14DaysJson`, with a database that does
what the statements say.  The query fetches the user's rows one after another
into buffers of fixed sizes, and shows those whose timestamp is no more than 14
days back.

Nothing checks the texts that a report stores, and the loop has two early
exits.  A row with a text that is too long for its buffer ends it like the end
of the table.  A row with a date that `getDateDifference` does not take leaves
it before `json_string` has been assigned.
-/

namespace PotHub.Server

open PotHub.Json PotHub.Lib

/-- A row of the table `PotholeReport`. -/
structure PotholeReport (D : Type) where
  latitude : D
  longitude : D
  address : Text
  user : Text
  timestamp : Text
  intensity : Int
deriving DecidableEq

variable {D : Type}

/-- The row that `reportPothole` binds to its statement; `none` is `strlen` of the
null pointer. -/
def boundRow (pothole : Pothole D) : Option (PotholeReport D) := do
  let address ← pothole.address
  let user ← pothole.user
  let timestamp ← pothole.timestamp
  return {
    latitude := pothole.latitude
    longitude := pothole.longitude
    address := cString address
    user := cString user
    timestamp := cString timestamp
    intensity := pothole.intensity }

/-- `reportPothole` stores whatever it is handed. -/
def reportPothole (table : List (PotholeReport D)) (pothole : Pothole D) :
    Option (List (PotholeReport D)) :=
  (boundRow pothole).map fun row => table ++ [row]

/-! ## The row loop -/

section Buffers

/-! The sizes of the buffers that the columns are bound to. -/

def addressSize : ℕ := 128
def usernameSize : ℕ := 64
def timestampSize : ℕ := 32

end Buffers

/-- `mysql_stmt_fetch` cuts a text short, and returns `MYSQL_DATA_TRUNCATED`. -/
def PotholeReport.Truncated (row : PotholeReport D) : Prop :=
  addressSize < row.address.length ∨ usernameSize < row.user.length ∨
    timestampSize < row.timestamp.length

instance : DecidablePred (PotholeReport.Truncated (D := D)) :=
  fun _ => inferInstanceAs (Decidable (_ ∨ _))

/-- The string in a buffer behind a fetch.  A text that fills the buffer has no
terminator. -/
def bufferString (size : ℕ) (column : Text) : Except Fault Text :=
  if column.length < size then .ok (cString column) else .error .outOfBounds

variable (m : Doubles D)

/-- An object of the reply. -/
def potholeObject (latitude longitude : D) (address user timestamp : Text) (intensity : Int) :
    CJson D :=
  .object
    [(latitudeName, .createNumber m latitude),
      (longitudeName, .createNumber m longitude),
      (addressName, .string address),
      (userName, .string user),
      (timestampName, .string timestamp),
      (intensityName, .createNumber m (m.ofInt intensity))]

/-- A turn of the loop: the object that is added, if the row is shown. -/
def readRow (date : Text) (row : PotholeReport D) : Except Fault (Option (CJson D)) := do
  let timestamp ← bufferString timestampSize row.timestamp
  let δ ← getDateDifference timestamp date
  if δ.Within14 then
    let address ← bufferString addressSize row.address
    let user ← bufferString usernameSize row.user
    return some (potholeObject m row.latitude row.longitude address user timestamp row.intensity)
  else return none

/-- What `getUserPotholesBy14DaysJson` returns. -/
inductive QueryReply (D : Type)
  /-- It has read outside of a buffer, and nothing is promised. -/
  | outOfBounds
  /-- The pointer `json_string`, which has not been assigned. -/
  | unassigned
  /-- The text of a tree. -/
  | json (tree : CJson D)

def rowLoop (date : Text) : List (PotholeReport D) → List (CJson D) → QueryReply D
  | [], items => .json (.array items)
  | row :: rows, items =>
      if row.Truncated then .json (.array items)
      else
        match readRow m date row with
        | .error .outOfBounds => .outOfBounds
        | .error .invalidDate => .unassigned
        | .ok item => rowLoop date rows (items ++ item.toList)

/-- `SELECT ... WHERE User = ?`, in table order. -/
def selectByUser (table : List (PotholeReport D)) (username : Text) : List (PotholeReport D) :=
  table.filter fun row => row.user = username

def getUserPotholesBy14DaysJson (table : List (PotholeReport D)) (username date : Text) :
    QueryReply D :=
  rowLoop m date (selectByUser table username) []

/-! ## What the loop returns -/

/-- The rows that the loop gets to: those in front of the first that is cut
short. -/
def fetched (rows : List (PotholeReport D)) : List (PotholeReport D) :=
  rows.takeWhile fun row => ¬ row.Truncated

/-- The row is no more than 14 days back. -/
def PotholeReport.Recent (date : Text) (row : PotholeReport D) : Prop :=
  ∃ δ, getDateDifference (cString row.timestamp) date = .ok δ ∧ δ.Within14

instance (date : Text) : DecidablePred (PotholeReport.Recent (D := D) date) := fun row =>
  match h : getDateDifference (cString row.timestamp) date with
  | .ok δ => decidable_of_iff δ.Within14 (by simp [PotholeReport.Recent, h])
  | .error _ => isFalse (by simp [PotholeReport.Recent, h])

/-- The row can be read: its date is taken, and the texts that are looked at
leave room for their terminator. -/
def PotholeReport.Readable (date : Text) (row : PotholeReport D) : Prop :=
  row.timestamp.length < timestampSize ∧
    (∃ δ, getDateDifference (cString row.timestamp) date = .ok δ) ∧
    (row.Recent date → row.address.length < addressSize ∧ row.user.length < usernameSize)

/-- The objects that a row adds. -/
def shown (date : Text) (row : PotholeReport D) : List (CJson D) :=
  match readRow m date row with
  | .ok item => item.toList
  | .error _ => []

variable {m} {date : Text}

theorem bufferString_of_lt {size : ℕ} {column : Text} (h : column.length < size) :
    bufferString size column = .ok (cString column) := if_pos h

theorem bufferString_eq_ok {size : ℕ} {column text : Text}
    (h : bufferString size column = .ok text) : column.length < size ∧ text = cString column := by
  rw [bufferString] at h
  split_ifs at h with hlt
  exact ⟨hlt, (Except.ok.inj h).symm⟩

/-- The object of a row, with all its texts whole. -/
def PotholeReport.toObject (m : Doubles D) (row : PotholeReport D) : CJson D :=
  potholeObject m row.latitude row.longitude (cString row.address) (cString row.user)
    (cString row.timestamp) row.intensity

theorem readRow_of_readable {row : PotholeReport D} (h : row.Readable date) :
    (row.Recent date ∧ readRow m date row = .ok (some (row.toObject m))) ∨
      (¬ row.Recent date ∧ readRow m date row = .ok none) := by
  obtain ⟨htime, ⟨δ, hδ⟩, htexts⟩ := h
  by_cases hwithin : δ.Within14
  · have hrecent : row.Recent date := ⟨δ, hδ, hwithin⟩
    obtain ⟨haddress, huser⟩ := htexts hrecent
    refine .inl ⟨hrecent, ?_⟩
    simp [readRow, bufferString_of_lt, htime, hδ, hwithin, haddress, huser]
    rfl
  · refine .inr ⟨?_, ?_⟩
    · rintro ⟨δ', hδ', hwithin'⟩
      exact hwithin (Except.ok.inj (hδ.symm.trans hδ') ▸ hwithin')
    · simp [readRow, bufferString_of_lt, htime, hδ, hwithin]

theorem readable_of_readRow {row : PotholeReport D} {item : Option (CJson D)}
    (h : readRow m date row = .ok item) : row.Readable date := by
  simp only [readRow, bind_eq_ok] at h
  obtain ⟨timestamp, htime, δ, hδ, h⟩ := h
  obtain ⟨hroom, rfl⟩ := bufferString_eq_ok htime
  refine ⟨hroom, ⟨δ, hδ⟩, ?_⟩
  rintro ⟨δ', hδ', hwithin⟩
  rw [← Except.ok.inj (hδ.symm.trans hδ')] at hwithin
  simp only [if_pos hwithin, bind_eq_ok] at h
  obtain ⟨address, haddress, user, huser, -⟩ := h
  exact ⟨(bufferString_eq_ok haddress).1, (bufferString_eq_ok huser).1⟩

theorem shown_of_recent {row : PotholeReport D} (h : row.Readable date)
    (hrecent : row.Recent date) :
    shown m date row = [row.toObject m] := by
  rcases readRow_of_readable (m := m) h with ⟨-, hrow⟩ | ⟨hnot, -⟩
  · rw [shown, hrow]
    rfl
  · exact absurd hrecent hnot

theorem shown_of_not_recent {row : PotholeReport D} (h : row.Readable date)
    (hrecent : ¬ row.Recent date) : shown m date row = [] := by
  rcases readRow_of_readable (m := m) h with ⟨hyes, -⟩ | ⟨-, hrow⟩
  · exact absurd hyes hrecent
  · rw [shown, hrow]
    rfl

theorem length_shown_le (row : PotholeReport D) : (shown m date row).length ≤ 1 := by
  rw [shown]
  split
  · rename_i item _
    cases item <;> simp
  · simp

/-- The loop returns a text exactly when it can read all rows that it gets to,
and then the objects of these rows. -/
theorem rowLoop_eq_json_iff {rows : List (PotholeReport D)} {items : List (CJson D)}
    {tree : CJson D} : rowLoop m date rows items = .json tree ↔
      (∀ row ∈ fetched rows, row.Readable date) ∧
        tree = .array (items ++ (fetched rows).flatMap (shown m date)) := by
  induction rows generalizing items with
  | nil => simp [rowLoop, fetched, eq_comm]
  | cons row rows ih =>
      by_cases hcut : row.Truncated
      · simp [rowLoop, fetched, hcut, eq_comm]
      · have hfetched : fetched (row :: rows) = row :: fetched rows := by simp [fetched, hcut]
        rw [rowLoop, if_neg hcut, hfetched, List.forall_mem_cons, List.flatMap_cons]
        cases hrow : readRow m date row with
        | ok item =>
            have hread := readable_of_readRow hrow
            have hshown : shown m date row = item.toList := by rw [shown, hrow]
            simp only [ih, hread, true_and, hshown, List.append_assoc]
        | error fault =>
            have hnot : ¬ row.Readable date := by
              intro hread
              rcases readRow_of_readable (m := m) hread with ⟨-, h⟩ | ⟨-, h⟩ <;> simp [hrow] at h
            cases fault <;> simp [hnot]

theorem flatMap_shown_of_readable {rows : List (PotholeReport D)}
    (h : ∀ row ∈ rows, row.Readable date) :
    rows.flatMap (shown m date) =
      (rows.filter fun row => row.Recent date).map (PotholeReport.toObject m) := by
  induction rows with
  | nil => rfl
  | cons row rows ih =>
      obtain ⟨hrow, hrest⟩ := List.forall_mem_cons.1 h
      rw [List.flatMap_cons, ih hrest]
      by_cases hrecent : row.Recent date
      · simp [shown_of_recent hrow hrecent, hrecent]
      · simp [shown_of_not_recent hrow hrecent, hrecent]

/-- The loop shows the recent rows among those that it gets to. -/
theorem rowLoop_nil_eq_json_iff {rows : List (PotholeReport D)} {tree : CJson D} :
    rowLoop m date rows [] = .json tree ↔ (∀ row ∈ fetched rows, row.Readable date) ∧
      tree = .array (((fetched rows).filter fun row => row.Recent date).map
        (PotholeReport.toObject m)) := by
  rw [rowLoop_eq_json_iff]
  refine and_congr_right fun hread => ?_
  rw [List.nil_append, flatMap_shown_of_readable hread]

/-- The user query shows the recent rows among those that it gets to. -/
theorem getUserPotholesBy14DaysJson_eq_json_iff {table : List (PotholeReport D)}
    {username : Text} {tree : CJson D} :
    getUserPotholesBy14DaysJson m table username date = .json tree ↔
      (∀ row ∈ fetched (selectByUser table username), row.Readable date) ∧
        tree = .array (((fetched (selectByUser table username)).filter fun row =>
          row.Recent date).map (PotholeReport.toObject m)) :=
  rowLoop_nil_eq_json_iff

theorem fetched_append_of_whole {rows others : List (PotholeReport D)}
    (h : ∀ row ∈ rows, ¬ row.Truncated) : fetched (rows ++ others) = rows ++ fetched others :=
  List.takeWhile_append_of_pos (by simpa using h)

theorem fetched_of_whole {rows : List (PotholeReport D)} (h : ∀ row ∈ rows, ¬ row.Truncated) :
    fetched rows = rows := by
  simpa [fetched] using (fetched_append_of_whole h : fetched (rows ++ []) = rows ++ fetched [])

theorem fetched_append_of_truncated {rows others : List (PotholeReport D)}
    (h : ¬ ∀ row ∈ rows, ¬ row.Truncated) : fetched (rows ++ others) = fetched rows := by
  unfold fetched
  rw [List.takeWhile_append, if_neg]
  intro hlen
  have hself := (List.takeWhile_sublist _).eq_of_length hlen
  refine h fun row hrow => ?_
  simpa using List.takeWhile_eq_self_iff.1 hself row hrow

theorem selectByUser_append (table others : List (PotholeReport D)) (username : Text) :
    selectByUser (table ++ others) username =
      selectByUser table username ++ selectByUser others username :=
  List.filter_append ..

theorem selectByUser_cons (row : PotholeReport D) (table : List (PotholeReport D)) :
    selectByUser (row :: table) row.user = row :: selectByUser table row.user :=
  List.filter_cons_of_pos (by simp)

end PotHub.Server
