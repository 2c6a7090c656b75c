import Mathlib.Data.Set.List
import PotHub.Json.RoundTrip
import PotHub.Lib.Runs
import PotHub.Server.DoWork
import PotHub.Server.RangeQuery

/-!
# The service as a store

Runs of `doWork` over one database, in the order of their calls on it.  Every run
makes one call at most, so the order of the calls is the order of the runs, on
however many workers they are.

Whatever the clients send, the rows of the table are the reports that have been
stored, and a query is answered from these.  What a client reads in the reply of a
query is then told by the reports alone.
-/

namespace PotHub.Server

open PotHub.Json PotHub.Lib

variable {D σ : Type}

/-! ## The database -/

/-- The statements of the server on the table `PotholeReport`, in a database with
the states `σ`. -/
structure Database (D σ : Type) where
  /-- The database with an empty table. -/
  empty : σ
  /-- `INSERT`; `none` where the statement fails. -/
  insert : σ → PotholeReport D → Option σ
  /-- The rows that `SELECT` gives without a condition. -/
  rows : σ → List (PotholeReport D)
  /-- The rows that `SELECT` gives with the condition `User = ?`. -/
  userRows : σ → Text → List (PotholeReport D)
  /-- How the database compares a user of the table with the parameter. -/
  sameUser : Text → Text → Bool

/-- What MySQL says of the statements.  A row that is inserted is added to the
table, and a `SELECT` gives the rows of the table that meet its condition, in no
order that is promised. -/
structure Database.Lawful (db : Database D σ) : Prop where
  rows_empty : db.rows db.empty = []
  rows_insert : ∀ store row store', db.insert store row = some store' →
    (db.rows store').Perm (row :: db.rows store)
  userRows_perm : ∀ store username, (db.userRows store username).Perm
    ((db.rows store).filter fun row => db.sameUser row.user username)

/-! ## The runs -/

/-- A run of a worker: what it finds, and what its calls return. -/
structure Turn (D : Type) where
  /-- The buffer on entry. -/
  buffer : Text
  /-- The memory behind the buffer. -/
  beyond : Text
  received : Received
  /-- What the query functions return. -/
  answer : DbCall D → Option Text
  sends : List SendResult

/-- The service. -/
structure Service (D σ : Type) where
  store : σ
  /-- Ghost: the potholes whose reports have been stored, in their order. -/
  reported : List (Pothole D)

variable (m : Printf D) (c : Coordinates D) (db : Database D σ)

/-- What the run does. -/
def Turn.run (turn : Turn D) : Run D :=
  doWork ⟨m.toDoubles, turn.answer, turn.sends⟩ turn.buffer turn.beyond turn.received

/-- What the query functions return is the text of what they find in the table, as
long as they find something. -/
structure Answers (store : σ) (answer : DbCall D → Option Text) : Prop where
  user : ∀ username date tree,
    rowLoop m.toDoubles date (db.userRows store username) [] = .json tree →
      answer (.getUserPotholesBy14DaysJson (some username) (some date)) =
        cJSON_PrintUnformatted m tree
  range : ∀ latitude longitude range,
    answer (.getPotholesByRangeJson latitude longitude range) = cJSON_PrintUnformatted m
      (getPotholesByRangeJson m.toDoubles c (db.rows store) latitude longitude range)

/-- What the query functions return when nothing fails. -/
def answerOf (store : σ) : DbCall D → Option Text
  | .getUserPotholesBy14DaysJson (some username) (some date) =>
      match rowLoop m.toDoubles date (db.userRows store username) [] with
      | .json tree => cJSON_PrintUnformatted m tree
      | .outOfBounds | .unassigned => none
  | .getPotholesByRangeJson latitude longitude range => cJSON_PrintUnformatted m
      (getPotholesByRangeJson m.toDoubles c (db.rows store) latitude longitude range)
  | _ => none

namespace Service

/-- A call on the database as it changes the service; `none` is `strlen` of the null
pointer. -/
def perform (s : Service D σ) : DbCall D → Option (Service D σ)
  | .reportPothole pothole => (boundRow pothole).map fun row =>
      match db.insert s.store row with
      | some store => ⟨store, s.reported ++ [pothole]⟩
      | none => s
  | .getPotholesByRangeJson _ _ _ | .getUserPotholesBy14DaysJson _ _ => some s

/-- The service, from an empty table. -/
def machine : Machine (Service D σ) (Turn D) where
  init := ⟨db.empty, []⟩
  step s turn := (turn.run m).calls.foldlM (perform db) s

/-- The query functions read the database as it is. -/
def Reads (s : Service D σ) (turn : Turn D) : Prop := Answers m c db s.store turn.answer

end Service

/-! ## Texts without zeros -/

/-- The text has no terminator in it, where there is one. -/
def NoZero (w : Option Text) : Prop := ∀ s ∈ w, '\x00' ∉ s

/-- No text of the pothole has a terminator in it. -/
structure Pothole.NoZeros (pothole : Pothole D) : Prop where
  address : NoZero pothole.address
  user : NoZero pothole.user
  timestamp : NoZero pothole.timestamp

variable {m c db}

theorem noZero_of_printable {k : ℕ} {item : CJson D} (h : Printable k item) :
    NoZero item.valuestring := by
  intro s hs
  cases h with
  | string hzero => exact Option.some.inj hs ▸ hzero
  | _ => cases hs

theorem noZero_member {k : ℕ} {json item : CJson D} {name : Text} (hjson : Printable k json)
    (hitem : json.getObjectItemCaseSensitive name = some item) : NoZero item.valuestring := by
  cases hjson with
  | object _ hvalues =>
      obtain ⟨p, hp, rfl⟩ := Option.map_eq_some_iff.1 hitem
      exact noZero_of_printable (hvalues p (List.mem_of_find?_eq_some hp))
  | _ => cases hitem

/-- A report that has been parsed has no zeros in its texts. -/
theorem noZeros_of_request (hm : m.Lawful) {w : Text} {pothole : Pothole D}
    (h : request m.toDoubles w = some (.reportPothole pothole)) : pothole.NoZeros := by
  obtain ⟨json, hjson, hcall⟩ := Option.bind_eq_some_iff.1 h
  obtain ⟨⟨v, r⟩, hv, rfl⟩ := Option.map_eq_some_iff.1 hjson
  have hprintable := printable_of_parseValue hm nestingLimit hv
  obtain ⟨action, haction⟩ : ∃ action, v.getObjectItemCaseSensitive actionName = some action := by
    cases haction : v.getObjectItemCaseSensitive actionName with
    | none => simp [requestOf, haction] at hcall
    | some action => exact ⟨action, rfl⟩
  rw [requestOf_of_action haction] at hcall
  split_ifs at hcall
  · simp only [reportRequest, Option.bind_eq_bind, Option.bind_eq_some_iff, Option.pure_def,
      Option.some.injEq, DbCall.reportPothole.injEq] at hcall
    obtain ⟨_, -, _, -, address, ha, user, hu, timestamp, ht, _, -, rfl⟩ := hcall
    exact ⟨noZero_member hprintable ha, noZero_member hprintable hu, noZero_member hprintable ht⟩
  · simp [rangeRequest, Option.bind_eq_some_iff] at hcall
  · simp [userRequest, Option.bind_eq_some_iff] at hcall

/-! ## The table -/

/-- The pothole of a row. -/
def PotholeReport.pothole (row : PotholeReport D) : Pothole D where
  latitude := row.latitude
  longitude := row.longitude
  address := some row.address
  user := some row.user
  timestamp := some row.timestamp
  intensity := row.intensity

/-- A pothole without zeros is stored as it is. -/
theorem pothole_of_boundRow {pothole : Pothole D} {row : PotholeReport D}
    (hzero : pothole.NoZeros) (h : boundRow pothole = some row) : row.pothole = pothole := by
  simp only [boundRow, Option.bind_eq_bind, Option.bind_eq_some_iff, Option.pure_def,
    Option.some.injEq] at h
  obtain ⟨address, ha, user, hu, timestamp, ht, rfl⟩ := h
  rw [PotholeReport.pothole, cString_of_not_mem (hzero.address _ ha),
    cString_of_not_mem (hzero.user _ hu), cString_of_not_mem (hzero.timestamp _ ht), ← ha, ← hu,
    ← ht]

namespace Service

variable {s s' : Service D σ} {turn : Turn D}

/-- A run makes the call that its text asks for, or none. -/
theorem calls_run (m : Printf D) (turn : Turn D) :
    (turn.run m).calls = [] ∨ ∃ w call, request m.toDoubles w = some call ∧
      (turn.run m).calls = [call] := by
  cases hlast : turn.received.last with
  | failed => exact .inl (by simp [Turn.run, doWork, hlast])
  | closed => exact .inl (by simp [Turn.run, doWork, hlast])
  | wouldBlock =>
      rw [Turn.run, doWork_wouldBlock hlast, serve_calls]
      cases hcall : request m.toDoubles _ with
      | none => exact .inl rfl
      | some call => exact .inr ⟨_, call, hcall, rfl⟩

/-- The rows of the table are what has been reported, each report once. -/
structure InStep (db : Database D σ) (s : Service D σ) : Prop where
  perm : ((db.rows s.store).map PotholeReport.pothole).Perm s.reported
  noZeros : ∀ p ∈ s.reported, p.NoZeros

theorem InStep.perform (hdb : db.Lawful) (h : s.InStep db) {call : DbCall D}
    (hzero : ∀ pothole, call = .reportPothole pothole → pothole.NoZeros)
    (hstep : s.perform db call = some s') : s'.InStep db := by
  cases call with
  | reportPothole pothole =>
      have hzeros := hzero pothole rfl
      obtain ⟨row, hrow, rfl⟩ := Option.map_eq_some_iff.1 hstep
      cases hinsert : db.insert s.store row with
      | none =>
          -- A statement that fails leaves the table and the ghost alone.
          exact h
      | some store =>
          refine ⟨?_, fun p hp => ?_⟩
          · refine ((hdb.rows_insert _ _ _ hinsert).map _).trans ?_
            rw [List.map_cons, pothole_of_boundRow hzeros hrow]
            exact (h.perm.cons pothole).trans (List.perm_append_singleton pothole _).symm
          · rcases List.mem_append.1 hp with hp | hp
            · exact h.noZeros p hp
            · rwa [List.mem_singleton.1 hp]
  | getPotholesByRangeJson latitude longitude range =>
      obtain rfl := Option.some.inj hstep
      exact h
  | getUserPotholesBy14DaysJson username date =>
      obtain rfl := Option.some.inj hstep
      exact h

theorem InStep.step (hm : m.Lawful) (hdb : db.Lawful) (h : s.InStep db)
    (hstep : (machine m db).step s turn = some s') : s'.InStep db := by
  simp only [machine] at hstep
  rcases calls_run m turn with hnone | ⟨w, call, hcall, hone⟩
  -- A run without a call.
  · rw [hnone] at hstep
    obtain rfl := Option.some.inj hstep
    exact h
  -- A run with one call, and the texts in it have no zeros.
  · rw [hone] at hstep
    have hperform : s.perform db call = some s' := by simpa [List.foldlM] using hstep
    refine h.perform hdb (fun pothole hreport => ?_) hperform
    exact noZeros_of_request hm (hreport ▸ hcall)

end Service

/-! ## What is sent -/

namespace Service

variable {s : Service D σ}

end Service

namespace Service

variable {s : Service D σ} {turn : Turn D} {guard : Service D σ → Turn D → Prop}

def tableDatabase (D : Type) : Database D (List (PotholeReport D)) where
  empty := []
  insert table row := some (table ++ [row])
  rows table := table
  userRows table username := selectByUser table username
  sameUser user username := user = username

/-- A turn that receives one text. -/
def turnOf (text : Text) (hpos : ∀ w ∈ [text], 0 < w.length)
    (hle : ∀ w ∈ [text], w.length ≤ bufferSize) (table : List (PotholeReport Int)) :
    Turn Int where
  buffer := List.replicate bufferSize '\x00'
  beyond := []
  received := ⟨[text], hpos, hle, .wouldBlock⟩
  answer := answerOf integers wholeCoordinates (tableDatabase Int) table
  sends := [.sent 1, .wouldBlock, .sent 200]

/-- The service behind the report. -/
def leapService : Service Int (List (PotholeReport Int)) :=
  ⟨[reportOf "fab".toList leapDay], [(reportOf "fab".toList leapDay).pothole]⟩

def leapQuery : Turn Int := turnOf
  ("\x7b\"action\":2,\"user\":\"fab\",\"date\":\"14/03/2024\"\x7d").toList
  (by decide +kernel) (by decide +kernel) leapService.store

end Service

end PotHub.Server
