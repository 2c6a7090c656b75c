import PotHub.Lib.Ledger
import PotHub.Server.RangeQuery
import PotHub.Server.Replies

/-!
# Runs in which calls fail

The three functions on the database and `doWork` once more, now with the outcome
of every call of MySQL and of every allocation of cJSON as an argument, with the
pointer `json_string` as it is where nothing has been assigned to it, and with a
ledger of what is acquired and released on the way.

Behind an error a function goes to its label `end` or returns at once; which of
the two it is decides what is cleaned up.  What hangs on the array is deleted
with it, and nothing else of a row is, but for the timestamp of a row whose date
is not taken.
-/

namespace PotHub.Server

open PotHub.Json PotHub.Lib

/-! ## Outcomes and resources -/

/-- The calls behind which `mysql_stmt_errno` is looked at. -/
inductive StmtCall
  | init
  | prepare
  | bindResult
  | bindParam
  | execute
deriving DecidableEq, Repr

/-- The variables for the nodes of a row. -/
inductive NodeName
  | pothole
  | latitude
  | longitude
  | address
  | user
  | timestamp
  | intensity
deriving DecidableEq, Repr

/-- The nodes that are added to `pothole`, in order. -/
def memberNodes : List NodeName :=
  [.latitude, .longitude, .address, .user, .timestamp, .intensity]

/-- What is acquired in a run of `doWork`. -/
inductive Resource
  /-- The tree of the request. -/
  | request
  | connection
  | statement
  | result
  /-- The array of the reply. -/
  | array
  | node (row : ℕ) (name : NodeName)
  /-- The text of the reply. -/
  | reply
deriving DecidableEq, Repr

/-- The outcomes of the calls; `true` is success. -/
structure Outcomes where
  /-- The allocations of `cJSON_Parse`. -/
  parse : Bool
  init : Bool
  realConnect : Bool
  query : Bool
  storeResult : Bool
  stmtInit : Bool
  stmt : StmtCall → Bool
  /-- The fetch of a row. -/
  fetch : ℕ → Bool
  createArray : Bool
  /-- The creation of a node for a row. -/
  create : ℕ → NodeName → Bool
  /-- The copy of its name, in `cJSON_AddItemToObject`. -/
  addItem : ℕ → NodeName → Bool
  printUnformatted : Bool
  realloc : Bool

/-- What the functions find. -/
structure Surroundings (D : Type) where
  doubles : Doubles D
  coordinates : Coordinates D
  table : List (PotholeReport D)
  /-- The text of a tree; zeros in strings are escaped. -/
  print : CJson D → Text
  print_noZero : ∀ tree, '\x00' ∉ print tree
  /-- What the calls of `send` return. -/
  sends : List SendResult

variable {D : Type}

/-- What a query function returns in `json_string`. -/
inductive Pointer (D : Type)
  | null
  /-- What the variable holds with nothing assigned to it. -/
  | unassigned
  /-- The text of a tree. -/
  | printed (tree : CJson D)

/-- A query function that has returned. -/
structure Returned (D : Type) where
  ledger : Ledger Resource
  value : Pointer D

/-! ## The rows -/

/-- How a row loop, or a turn of it, ends. -/
inductive RowsEnd
  | finished
  /-- With `goto end`. -/
  | left
  /-- With a read outside of a buffer, and nothing is promised. -/
  | outOfBounds
deriving DecidableEq, Repr

/-- What a row loop, or a turn of it, has done. -/
structure Rows (D : Type) where
  created : List Resource
  /-- The nodes deleted in the loop. -/
  deleted : List Resource
  /-- The nodes that hang on the array. -/
  attached : List Resource
  /-- Ghost: the nodes that nothing refers to any more. -/
  detached : List Resource
  items : List (CJson D)
  stop : RowsEnd

namespace Rows

/-- Nothing has been done. -/
def nothing (stop : RowsEnd) : Rows D := ⟨[], [], [], [], [], stop⟩

/-- Another turn, if the loop goes on. -/
def andThen (r r' : Rows D) : Rows D :=
  if r.stop = .finished then
    { created := r.created ++ r'.created
      deleted := r.deleted ++ r'.deleted
      attached := r.attached ++ r'.attached
      detached := r.detached ++ r'.detached
      items := r.items ++ r'.items
      stop := r'.stop }
  else r

/-- The loop over the rows, for the turn that it takes. -/
def loop {α : Type} (turn : α → ℕ → Rows D) : List (α × ℕ) → Rows D
  | [] => .nothing .finished
  | (row, i) :: rows => (turn row i).andThen (loop turn rows)

end Rows

/-- An object with those of its members that are kept. -/
def keepMembers (kept : List Bool) : CJson D → CJson D
  | .object members => .object (((members.zip kept).filter Prod.snd).map Prod.fst)
  | json => json

namespace Outcomes

variable (o : Outcomes)

/-- Every node of a row has been created. -/
def AllCreated (i : ℕ) : Prop := ∀ name ∈ NodeName.pothole :: memberNodes, o.create i name = true

instance (i : ℕ) : Decidable (o.AllCreated i) :=
  inferInstanceAs (Decidable (∀ name ∈ NodeName.pothole :: memberNodes, o.create i name = true))

/-- The part of a turn from `cJSON_CreateObject` on, for the object to be made.
The object hangs on the array before the check for null pointers, and its members
do not. -/
def addRow (i : ℕ) (object : CJson D) : Rows D :=
  let created := (NodeName.pothole :: memberNodes).filter (o.create i)
  if o.AllCreated i then
    { created := created.map (.node i)
      deleted := []
      attached := (NodeName.pothole :: memberNodes.filter (o.addItem i)).map (.node i)
      detached := (memberNodes.filter fun name => !o.addItem i name).map (.node i)
      items := [keepMembers (memberNodes.map (o.addItem i)) object]
      stop := .finished }
  else
    { created := created.map (.node i)
      deleted := []
      attached := ([NodeName.pothole].filter (o.create i)).map (.node i)
      detached := (memberNodes.filter (o.create i)).map (.node i)
      items := []
      stop := .left }

/-- The rows that are fetched, with their numbers. -/
def fetched {α : Type} (rows : List α) : List (α × ℕ) :=
  rows.zipIdx.takeWhile fun p => o.fetch p.2

variable (w : Surroundings D)

/-- A turn of the row loop of `getPotholesByRangeJson`. -/
def rangeRow (latitude longitude range : D) (row : TextRow) (i : ℕ) : Rows D :=
  let distance := w.coordinates.haversineDistance (atof w.doubles row.latitude)
    (atof w.doubles row.longitude) latitude longitude
  if w.coordinates.le distance range then
    o.addRow i (potholeObject w.doubles (atof w.doubles row.latitude)
      (atof w.doubles row.longitude) (cString row.address) (cString row.user)
      (cString row.timestamp) (atoi row.intensity))
  else .nothing .finished

def rangeRows (latitude longitude range : D) : List (TextRow × ℕ) → Rows D :=
  .loop (o.rangeRow w latitude longitude range)

/-- A turn of the row loop of `getUserPotholesBy14DaysJson`.  The node with the
timestamp is there before the row is looked at. -/
def userRow (date : Option Text) (row : PotholeReport D) (i : ℕ) : Rows D :=
  match bufferString timestampSize row.timestamp with
  | .error _ => .nothing .outOfBounds
  | .ok timestamp =>
      if o.create i .timestamp then
        match date with
        | none => .nothing .outOfBounds
        | some date =>
            match getDateDifference timestamp date with
            | .error .outOfBounds => .nothing .outOfBounds
            | .error .invalidDate =>
                { Rows.nothing .left with
                  created := [.node i .timestamp], deleted := [.node i .timestamp] }
            | .ok δ =>
                if δ.Within14 then
                  match bufferString addressSize row.address with
                  | .error _ => .nothing .outOfBounds
                  | .ok address =>
                      match bufferString usernameSize row.user with
                      | .error _ => .nothing .outOfBounds
                      | .ok user =>
                          o.addRow i (potholeObject w.doubles row.latitude row.longitude address
                            user timestamp row.intensity)
                else
                  { Rows.nothing .finished with
                    created := [.node i .timestamp], detached := [.node i .timestamp] }
      else .nothing .left

def userRows (date : Option Text) : List (PotholeReport D × ℕ) → Rows D :=
  .loop (o.userRow w date)

/-- The rows that `mysql_stmt_fetch` fetches whole. -/
def fetchedWhole (rows : List (PotholeReport D)) : List (PotholeReport D × ℕ) :=
  (o.fetched rows).takeWhile fun p => ¬ p.1.Truncated

/-! ## The functions on the database -/

/-- What a row loop leaves to the label `end`: `json_string` is assigned only
behind the loop. -/
def jsonString (rows : Rows D) : Pointer D :=
  if rows.stop = .finished then
    if o.printUnformatted then .printed (.array rows.items) else .null
  else .unassigned

/-- The text of the reply, if one is printed. -/
def replyText (rows : Rows D) : List Resource :=
  if rows.stop = .finished ∧ o.printUnformatted = true then [.reply] else []

/-- From the creation of the array to its deletion. -/
def arrayLedger (ledger : Ledger Resource) (rows : Rows D) : Ledger Resource :=
  let ledger := ((ledger.acquire [.array]).acquire rows.created).release rows.deleted
  (ledger.acquire (o.replyText rows)).release (rows.attached ++ [.array])

/-- `reportPothole`; `none` is a null pointer in the hands of the library. -/
def reportPothole (pothole : Pothole D) : Option (Ledger Resource) :=
  if o.init then
    let ledger := Ledger.empty.acquire [.connection]
    -- the `mysql_close` stands behind the `return`
    if o.realConnect then
      if o.stmtInit then
        let ledger := ledger.acquire [.statement]
        if o.stmt .init then
          if o.stmt .prepare then
            if pothole.address ≠ none ∧ pothole.user ≠ none ∧ pothole.timestamp ≠ none then
              -- behind an error of `mysql_stmt_execute` it goes on
              if o.stmt .bindParam then some (ledger.release [.connection])
              else some ledger
            else none
          else some ledger
        else some ledger
      else none
    else some ledger
  else some .empty

def getPotholesByRangeJson (latitude longitude range : D) : Returned D :=
  if o.init then
    let ledger := Ledger.empty.acquire [.connection]
    if o.realConnect then
      if o.query ∧ o.storeResult then
        let ledger := ledger.acquire [.result]
        if o.createArray then
          let rows := o.rangeRows w latitude longitude range
            (o.fetched (w.table.map (PotholeReport.textRow w.coordinates)))
          ⟨(o.arrayLedger ledger rows).release [.result, .connection], o.jsonString rows⟩
        else ⟨ledger.release [.result, .connection], .unassigned⟩
      else ⟨ledger.release [.connection], .null⟩
    else ⟨ledger.release [.connection], .null⟩
  else ⟨.empty, .null⟩

/-- `getUserPotholesBy14DaysJson`; `none` is a null pointer where there has to be
a text or a statement, or a read outside of a buffer. -/
def getUserPotholesBy14DaysJson (username date : Option Text) : Option (Returned D) :=
  if o.init then
    let ledger := Ledger.empty.acquire [.connection]
    if o.realConnect then
      if o.stmtInit then
        let ledger := ledger.acquire [.statement]
        if o.stmt .init ∧ o.stmt .prepare then
          match username with
          | none => none
          | some username =>
              if o.stmt .bindResult ∧ o.stmt .bindParam ∧ o.stmt .execute then
                if o.createArray then
                  let rows := o.userRows w date (o.fetchedWhole (selectByUser w.table username))
                  if rows.stop = .outOfBounds then none
                  else some ⟨(o.arrayLedger ledger rows).release [.statement, .connection],
                    o.jsonString rows⟩
                else some ⟨ledger.release [.statement, .connection], .unassigned⟩
              else some ⟨ledger, .null⟩
        else some ⟨ledger, .null⟩
      else none
    else some ⟨ledger.release [.connection], .null⟩
  else some ⟨.empty, .null⟩

/-! ## The run -/

/-- A run that has returned. -/
structure Work (D : Type) where
  run : Run D
  ledger : Ledger Resource

/-- The use of `json_message`: without a null pointer the reply is sent, and
nothing is released behind the loop. -/
def answer (call : DbCall D) (r : Returned D) : Option (Work D) :=
  match r.value with
  | .null => some ⟨⟨[call], [], true⟩, r.ledger⟩
  | .unassigned => none
  | .printed tree =>
      if o.realloc then
        let loop := w.sends.foldl ReplyLoop.nextIf (.start (w.print tree ++ ['\x00']))
        if loop.status = .sending then none
        else some ⟨⟨[call], loop.taken, loop.status = .failed⟩, r.ledger⟩
      else none

/-- The case of the `switch` for a call. -/
def perform (call : DbCall D) : Option (Work D) :=
  match call with
  | .reportPothole pothole =>
      (o.reportPothole pothole).map fun ledger => ⟨⟨[call], [], false⟩, ledger⟩
  | .getPotholesByRangeJson latitude longitude range =>
      o.answer w call (o.getPotholesByRangeJson w latitude longitude range)
  | .getUserPotholesBy14DaysJson username date =>
      (o.getUserPotholesBy14DaysJson w username date).bind (o.answer w call)

/-- The tree of the request, if it comes to one. -/
def parsed (buffer beyond : Text) (received : Received) : Option (CJson D) :=
  if received.last = .wouldBlock ∧ o.parse = true then
    cJSON_Parse w.doubles (cString (readLoop buffer received.chunks ++ beyond))
  else none

/-- `doWork`; `none` if it does not return.  Everything under the label `end` is
deleted only where the pointer is null. -/
def doWork (buffer beyond : Text) (received : Received) : Option (Work D) :=
  match o.parsed w buffer beyond received with
  | none => some ⟨⟨[], [], true⟩, .empty⟩
  | some json =>
      let ledger := Ledger.empty.acquire [.request]
      match requestOf w.doubles json with
      | none => some ⟨⟨[], [], true⟩, ledger⟩
      | some call => (o.perform w call).map fun work =>
          { work with ledger := ledger.append work.ledger }

end Outcomes

end PotHub.Server
