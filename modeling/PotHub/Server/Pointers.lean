import PotHub.Server.Arrivals
import PotHub.Server.Outcomes

/-!
# What the query functions return

A query function returns NULL, or the text of its reply, or what `json_string`
holds with nothing assigned to it.  The last is what it returns whenever it goes
to its label `end` in front of `cJSON_PrintUnformatted`: the check in `doWork` is
for NULL only.

With nothing failing the functions are those of the modules before.
-/

namespace PotHub.Server

open PotHub.Json PotHub.Lib

variable {D : Type}

/-- The row is in the range, by the texts of its coordinates. -/
def TextRow.InRange (w : Surroundings D) (latitude longitude range : D) (row : TextRow) : Prop :=
  w.coordinates.le (w.coordinates.haversineDistance (atof w.doubles row.latitude)
    (atof w.doubles row.longitude) latitude longitude) range = true

namespace Outcomes

variable {o : Outcomes} {w : Surroundings D}

/-! ## The row loops -/

theorem stop_andThen_iff {r r' : Rows D} :
    (r.andThen r').stop = .finished ↔ r.stop = .finished ∧ r'.stop = .finished := by
  rw [Rows.andThen]
  split_ifs with h <;> simp [h]

theorem stop_loop_iff {α : Type} {turn : α → ℕ → Rows D} {rows : List (α × ℕ)} :
    (Rows.loop turn rows).stop = .finished ↔ ∀ p ∈ rows, (turn p.1 p.2).stop = .finished := by
  induction rows with
  | nil => simp [Rows.loop, Rows.nothing]
  | cons p rows ih => rw [Rows.loop, stop_andThen_iff, ih, List.forall_mem_cons]

theorem stop_addRow_iff {i : ℕ} {object : CJson D} :
    (o.addRow i object).stop = .finished ↔ o.AllCreated i := by
  rw [addRow]
  split_ifs with h <;> simp [h]

theorem stop_rangeRow_iff {latitude longitude range : D} {row : TextRow} {i : ℕ} :
    (o.rangeRow w latitude longitude range row i).stop = .finished ↔
      (row.InRange w latitude longitude range → o.AllCreated i) := by
  simp only [rangeRow]
  split_ifs with h
  · exact stop_addRow_iff.trans ⟨fun hall _ => hall, fun hall => hall h⟩
  · exact iff_of_true rfl fun hrange => absurd hrange h

theorem stop_rangeRows_iff {latitude longitude range : D} {rows : List (TextRow × ℕ)} :
    (o.rangeRows w latitude longitude range rows).stop = .finished ↔
      ∀ p ∈ rows, p.1.InRange w latitude longitude range → o.AllCreated p.2 :=
  stop_loop_iff.trans (forall₂_congr fun _ _ => stop_rangeRow_iff)

/-- A turn of the row loop of `getUserPotholesBy14DaysJson`, for what `readRow`
makes of the row. -/
def turnOf (o : Outcomes) (i : ℕ) : Except Fault (Option (CJson D)) → Rows D
  | .ok (some object) => o.addRow i object
  | .ok none =>
      { Rows.nothing .finished with
        created := [.node i .timestamp], detached := [.node i .timestamp] }
  | .error .outOfBounds => .nothing .outOfBounds
  | .error .invalidDate =>
      { Rows.nothing .left with
        created := [.node i .timestamp], deleted := [.node i .timestamp] }

theorem bufferString_of_not_lt {size : ℕ} {column : Text} (h : ¬ column.length < size) :
    bufferString size column = .error .outOfBounds := if_neg h

theorem userRow_eq {date : Text} {row : PotholeReport D} {i : ℕ}
    (hcreate : o.create i .timestamp = true) :
    o.userRow w (some date) row i = o.turnOf i (readRow w.doubles date row) := by
  by_cases htime : row.timestamp.length < timestampSize
  swap
  · simp [userRow, readRow, bufferString_of_not_lt htime]
    rfl
  cases hδ : getDateDifference (cString row.timestamp) date with
  | error fault =>
      cases fault <;> simp [userRow, readRow, bufferString_of_lt htime, hcreate, hδ] <;> rfl
  | ok δ =>
      by_cases hwithin : δ.Within14
      swap
      · simp [userRow, readRow, bufferString_of_lt htime, hcreate, hδ, hwithin, turnOf]
      by_cases haddress : row.address.length < addressSize
      swap
      · simp [userRow, readRow, bufferString_of_lt htime, hcreate, hδ, hwithin,
          bufferString_of_not_lt haddress]
        rfl
      by_cases huser : row.user.length < usernameSize
      swap
      · simp [userRow, readRow, bufferString_of_lt htime, hcreate, hδ, hwithin,
          bufferString_of_lt haddress, bufferString_of_not_lt huser]
        rfl
      simp [userRow, readRow, bufferString_of_lt htime, hcreate, hδ, hwithin,
        bufferString_of_lt haddress, bufferString_of_lt huser, turnOf]

variable (o w)

variable {o w}

/-! ## The exits -/

/-- How `getPotholesByRangeJson` returns: in front of the array, without one, and
behind the loop. -/
theorem range_exits (latitude longitude range : D) :
    (¬ (o.init = true ∧ o.realConnect = true ∧ o.query = true ∧ o.storeResult = true) ∧
      (o.getPotholesByRangeJson w latitude longitude range = ⟨.empty, .null⟩ ∨
        o.getPotholesByRangeJson w latitude longitude range =
          ⟨(Ledger.empty.acquire [.connection]).release [.connection], .null⟩)) ∨
    ((o.init = true ∧ o.realConnect = true ∧ o.query = true ∧ o.storeResult = true) ∧
      ((o.createArray = false ∧ o.getPotholesByRangeJson w latitude longitude range =
        ⟨⟨[.connection, .result], [.result, .connection]⟩, .unassigned⟩) ∨
      (o.createArray = true ∧ o.getPotholesByRangeJson w latitude longitude range =
        ⟨(o.arrayLedger ⟨[.connection, .result], []⟩ (o.rangeRows w latitude longitude range
            (o.fetched (w.table.map (PotholeReport.textRow w.coordinates))))).release
              [.result, .connection],
          o.jsonString (o.rangeRows w latitude longitude range
            (o.fetched (w.table.map (PotholeReport.textRow w.coordinates))))⟩))) := by
  by_cases hinit : o.init = true
  swap
  · exact Or.inl ⟨fun h => hinit h.1, Or.inl (by rw [getPotholesByRangeJson, if_neg hinit])⟩
  by_cases hconnect : o.realConnect = true
  swap
  · refine Or.inl ⟨fun h => hconnect h.2.1, Or.inr ?_⟩
    rw [getPotholesByRangeJson, if_pos hinit, if_neg hconnect]
  by_cases hresult : o.query = true ∧ o.storeResult = true
  swap
  · refine Or.inl ⟨fun h => hresult h.2.2, Or.inr ?_⟩
    rw [getPotholesByRangeJson, if_pos hinit, if_pos hconnect, if_neg hresult]
  refine Or.inr ⟨⟨hinit, hconnect, hresult⟩, ?_⟩
  rw [getPotholesByRangeJson, if_pos hinit, if_pos hconnect, if_pos hresult]
  cases harray : o.createArray with
  | false => exact Or.inl ⟨rfl, rfl⟩
  | true => exact Or.inr ⟨rfl, rfl⟩

theorem forall_stmtCall_iff : (∀ call, o.stmt call = true) ↔
    (o.stmt .init = true ∧ o.stmt .prepare = true) ∧
      o.stmt .bindResult = true ∧ o.stmt .bindParam = true ∧ o.stmt .execute = true := by
  constructor
  · intro h
    exact ⟨⟨h _, h _⟩, h _, h _, h _⟩
  · rintro ⟨⟨hinit, hprepare⟩, hresult, hparam, hexecute⟩ (_ | _ | _ | _ | _)
    exacts [hinit, hprepare, hresult, hparam, hexecute]

/-- How `getUserPotholesBy14DaysJson` returns: without a connection, not at all
without a statement, behind an error of the statement, without an array, and
behind the loop. -/
theorem user_exits (username : Text) (date : Option Text) :
    (¬ (o.init = true ∧ o.realConnect = true) ∧
      (o.getUserPotholesBy14DaysJson w (some username) date = some ⟨.empty, .null⟩ ∨
        o.getUserPotholesBy14DaysJson w (some username) date =
          some ⟨(Ledger.empty.acquire [.connection]).release [.connection], .null⟩)) ∨
    ((o.init = true ∧ o.realConnect = true) ∧
      ((o.stmtInit = false ∧ o.getUserPotholesBy14DaysJson w (some username) date = none) ∨
      (o.stmtInit = true ∧ ¬ (∀ call, o.stmt call = true) ∧
        o.getUserPotholesBy14DaysJson w (some username) date =
          some ⟨⟨[.connection, .statement], []⟩, .null⟩) ∨
      (o.stmtInit = true ∧ (∀ call, o.stmt call = true) ∧
        ((o.createArray = false ∧ o.getUserPotholesBy14DaysJson w (some username) date =
          some ⟨⟨[.connection, .statement], [.statement, .connection]⟩, .unassigned⟩) ∨
        (o.createArray = true ∧ o.getUserPotholesBy14DaysJson w (some username) date =
          if (o.userRows w date (o.fetchedWhole (selectByUser w.table username))).stop =
              .outOfBounds then none
          else some ⟨(o.arrayLedger ⟨[.connection, .statement], []⟩ (o.userRows w date
              (o.fetchedWhole (selectByUser w.table username)))).release
                [.statement, .connection],
            o.jsonString (o.userRows w date
              (o.fetchedWhole (selectByUser w.table username)))⟩))))) := by
  by_cases hinit : o.init = true
  swap
  · exact Or.inl ⟨fun h => hinit h.1, Or.inl (by rw [getUserPotholesBy14DaysJson, if_neg hinit])⟩
  by_cases hconnect : o.realConnect = true
  swap
  · refine Or.inl ⟨fun h => hconnect h.2, Or.inr ?_⟩
    rw [getUserPotholesBy14DaysJson, if_pos hinit, if_neg hconnect]
  refine Or.inr ⟨⟨hinit, hconnect⟩, ?_⟩
  rw [getUserPotholesBy14DaysJson, if_pos hinit, if_pos hconnect]
  cases hstmt : o.stmtInit with
  | false => exact Or.inl ⟨rfl, rfl⟩
  | true =>
      refine Or.inr ?_
      by_cases hprepare : o.stmt .init = true ∧ o.stmt .prepare = true
      swap
      · refine Or.inl ⟨rfl, fun h => hprepare (forall_stmtCall_iff.1 h).1, ?_⟩
        simp only [if_true, if_neg hprepare]
        rfl
      by_cases hexecute : o.stmt .bindResult = true ∧ o.stmt .bindParam = true ∧
          o.stmt .execute = true
      swap
      · refine Or.inl ⟨rfl, fun h => hexecute (forall_stmtCall_iff.1 h).2, ?_⟩
        simp only [if_true, if_pos hprepare, if_neg hexecute]
        rfl
      refine Or.inr ⟨rfl, forall_stmtCall_iff.2 ⟨hprepare, hexecute⟩, ?_⟩
      simp only [if_true, if_pos hprepare, if_pos hexecute]
      cases harray : o.createArray with
      | false => exact Or.inl ⟨rfl, rfl⟩
      | true => exact Or.inr ⟨rfl, rfl⟩

/-! ## NULL or a reply, function by function -/

/-- Every call succeeds. -/
def allSucceed : Outcomes where
  parse := true
  init := true
  realConnect := true
  query := true
  storeResult := true
  stmtInit := true
  stmt _ := true
  fetch _ := true
  createArray := true
  create _ _ := true
  addItem _ _ := true
  printUnformatted := true
  realloc := true

/-! ## With nothing failing -/

theorem items_andThen {r : Rows D} (h : r.stop = .finished) (r' : Rows D) :
    (r.andThen r').items = r.items ++ r'.items ∧ (r.andThen r').stop = r'.stop := by
  simp [Rows.andThen, h]

theorem allCreated_allSucceed (i : ℕ) : allSucceed.AllCreated i := fun _ _ => rfl

theorem addRow_allSucceed (i : ℕ) (latitude longitude : D) (address user timestamp : Text)
    (intensity : Int) (m : Doubles D) :
    (allSucceed.addRow i (potholeObject m latitude longitude address user timestamp
        intensity)).items =
      [potholeObject m latitude longitude address user timestamp intensity] ∧
    (allSucceed.addRow i (potholeObject m latitude longitude address user timestamp
        intensity)).stop = .finished := by
  rw [addRow, if_pos (allCreated_allSucceed i)]
  exact ⟨rfl, rfl⟩

theorem fetched_allSucceed {α : Type} (rows : List α) :
    allSucceed.fetched rows = rows.zipIdx := by
  simp [fetched, allSucceed]

theorem rangeRows_cons (latitude longitude range : D) (row : TextRow) (i : ℕ)
    (rows : List (TextRow × ℕ)) :
    o.rangeRows w latitude longitude range ((row, i) :: rows) =
      (o.rangeRow w latitude longitude range row i).andThen
        (o.rangeRows w latitude longitude range rows) := rfl

theorem rangeRows_allSucceed (latitude longitude range : D) (rows : List TextRow) (k : ℕ)
    (items : List (CJson D)) :
    items ++ (allSucceed.rangeRows w latitude longitude range (rows.zipIdx k)).items =
        rangeLoop w.doubles w.coordinates latitude longitude range rows items ∧
      (allSucceed.rangeRows w latitude longitude range (rows.zipIdx k)).stop = .finished := by
  refine ⟨?_, stop_rangeRows_iff.2 fun p _ _ => allCreated_allSucceed p.2⟩
  induction rows generalizing k items with
  | nil => simp [rangeRows, Rows.loop, rangeLoop, Rows.nothing]
  | cons row rows ih =>
      rw [List.zipIdx_cons, rangeRows_cons, rangeLoop]
      simp only [rangeRow]
      split_ifs with h
      · rw [← ih (k + 1), (items_andThen (addRow_allSucceed ..).2 _).1,
          (addRow_allSucceed ..).1, List.append_assoc]
      · rw [← ih (k + 1)]
        simp [Rows.andThen, Rows.nothing]

theorem getPotholesByRangeJson_allSucceed (w : Surroundings D) (latitude longitude range : D) :
    (allSucceed.getPotholesByRangeJson w latitude longitude range).value =
      .printed (Server.getPotholesByRangeJson w.doubles w.coordinates w.table
        latitude longitude range) := by
  obtain ⟨hitems, hstop⟩ := rangeRows_allSucceed (w := w) latitude longitude range
    (w.table.map (PotholeReport.textRow w.coordinates)) 0 []
  show allSucceed.jsonString (allSucceed.rangeRows w latitude longitude range
    (allSucceed.fetched _)) = _
  rw [fetched_allSucceed, jsonString, if_pos hstop, Server.getPotholesByRangeJson, ← hitems]
  rfl

end Outcomes

/-- The reply of the 14-day query, as what is in `json_string`. -/
def QueryReply.pointer : QueryReply D → Option (Pointer D)
  | .outOfBounds => none
  | .unassigned => some .unassigned
  | .json tree => some (.printed tree)

/-- A row loop, behind items that are there already, as a reply. -/
def Rows.reply (items : List (CJson D)) (rows : Rows D) : QueryReply D :=
  match rows.stop with
  | .finished => .json (.array (items ++ rows.items))
  | .left => .unassigned
  | .outOfBounds => .outOfBounds

namespace Outcomes

variable {o : Outcomes} {w : Surroundings D}

theorem userRows_cons (date : Option Text) (row : PotholeReport D) (i : ℕ)
    (rows : List (PotholeReport D × ℕ)) :
    o.userRows w date ((row, i) :: rows) =
      (o.userRow w date row i).andThen (o.userRows w date rows) := rfl

theorem userRows_allSucceed (date : Text) (rows : List (PotholeReport D)) (k : ℕ)
    (items : List (CJson D)) :
    (allSucceed.userRows w (some date)
        ((rows.zipIdx k).takeWhile fun p => ¬ p.1.Truncated)).reply items =
      rowLoop w.doubles date rows items := by
  induction rows generalizing k items with
  | nil => simp [userRows, Rows.loop, Rows.reply, Rows.nothing, rowLoop]
  | cons row rows ih =>
      rw [List.zipIdx_cons, rowLoop]
      by_cases hcut : row.Truncated
      · simp [hcut, userRows, Rows.loop, Rows.reply, Rows.nothing]
      · rw [List.takeWhile_cons_of_pos (by simpa using hcut), if_neg hcut, userRows_cons,
          userRow_eq (by rfl)]
        cases hrow : readRow w.doubles date row with
        | error fault => cases fault <;> rfl
        | ok item =>
            have hturn : (allSucceed.turnOf k (.ok item)).items = item.toList ∧
                (allSucceed.turnOf k (.ok item)).stop = .finished := by
              rcases readRow_of_readable (m := w.doubles) (readable_of_readRow hrow) with
                ⟨-, hobject⟩ | ⟨-, hnone⟩
              · obtain rfl := Except.ok.inj (hrow.symm.trans hobject)
                exact addRow_allSucceed ..
              · obtain rfl := Except.ok.inj (hrow.symm.trans hnone)
                exact ⟨rfl, rfl⟩
            have hstop := items_andThen hturn.2 (allSucceed.userRows w (some date)
              ((rows.zipIdx (k + 1)).takeWhile fun p => ¬ p.1.Truncated))
            simp only [← ih (k + 1), Rows.reply, hstop.1, hstop.2, hturn.1, List.append_assoc]

theorem getUserPotholesBy14DaysJson_allSucceed (w : Surroundings D) (username date : Text) :
    (allSucceed.getUserPotholesBy14DaysJson w (some username) (some date)).map Returned.value =
      (Server.getUserPotholesBy14DaysJson w.doubles w.table username date).pointer := by
  have hrows := userRows_allSucceed (w := w) date (selectByUser w.table username) 0 []
  have hfetched : allSucceed.fetchedWhole (selectByUser w.table username) =
      (selectByUser w.table username).zipIdx.takeWhile fun p => ¬ p.1.Truncated := by
    rw [fetchedWhole, fetched_allSucceed]
  rw [Server.getUserPotholesBy14DaysJson, ← hrows, ← hfetched]
  show (if (allSucceed.userRows w (some date) _).stop = .outOfBounds then none
    else some (⟨_, allSucceed.jsonString _⟩ : Returned D)).map Returned.value = _
  have hprint : allSucceed.printUnformatted = true := rfl
  cases hstop : (allSucceed.userRows w (some date)
      (allSucceed.fetchedWhole (selectByUser w.table username))).stop <;>
    simp [Rows.reply, hstop, QueryReply.pointer, jsonString, hprint]

/-! ## What a run does to others -/

/-- The text that a pointer leads to; `none` is NULL. -/
def textOf (w : Surroundings D) : Pointer D → Option Text
  | .printed tree => some (w.print tree)
  | .null | .unassigned => none

/-- What the functions return, for `doWork`. -/
def answerOf (o : Outcomes) (w : Surroundings D) : DbCall D → Option Text
  | .reportPothole _ => none
  | .getPotholesByRangeJson latitude longitude range =>
      textOf w (o.getPotholesByRangeJson w latitude longitude range).value
  | .getUserPotholesBy14DaysJson username date =>
      (o.getUserPotholesBy14DaysJson w username date).bind fun r => textOf w r.value

/-- The world of the run, with the functions on the database as they turn out. -/
def world (o : Outcomes) (w : Surroundings D) : World D where
  doubles := w.doubles
  answer := o.answerOf w
  sends := w.sends

theorem answer_run {call : DbCall D} {r : Returned D} {work : Work D}
    (h : o.answer w call r = some work) (hanswer : o.answerOf w call = textOf w r.value) :
    work.run = answerQuery (o.world w) call := by
  have hworld : (o.world w).answer call = textOf w r.value := hanswer
  rw [answerQuery, hworld]
  cases hvalue : r.value with
  | null =>
      simp only [answer, hvalue, Option.some.injEq] at h
      rw [← h]
      rfl
  | unassigned => simp [answer, hvalue] at h
  | printed tree =>
      obtain ⟨hsent, hclose⟩ := ReplyLoop.foldl_start_eq (w.print_noZero tree) w.sends
      simp only [answer, hvalue] at h
      split_ifs at h with hrealloc hsending
      rw [← Option.some.inj h]
      simp only [textOf, world, Run.mk.injEq, true_and]
      exact ⟨hsent, by rw [Bool.eq_iff_iff, decide_eq_true_iff]; exact hclose⟩

theorem perform_run {call : DbCall D} {work : Work D} (h : o.perform w call = some work) :
    work.run = match call with
      | .reportPothole pothole => ⟨[.reportPothole pothole], [], false⟩
      | .getPotholesByRangeJson latitude longitude range =>
          answerQuery (o.world w) (.getPotholesByRangeJson latitude longitude range)
      | .getUserPotholesBy14DaysJson username date =>
          answerQuery (o.world w) (.getUserPotholesBy14DaysJson username date) := by
  cases call with
  | reportPothole pothole =>
      obtain ⟨ledger, -, rfl⟩ := Option.map_eq_some_iff.1 h
      rfl
  | getPotholesByRangeJson latitude longitude range => exact answer_run h rfl
  | getUserPotholesBy14DaysJson username date =>
      obtain ⟨r, hr, hanswer⟩ := Option.bind_eq_some_iff.1 h
      exact answer_run hanswer (by simp [answerOf, hr])

/-- **One run, two accounts.**  When the request is parsed without a failure, a
run that returns does to others what `doWork` does for the answers that the
functions give. -/
theorem doWork_run {buffer beyond : Text} {received : Received} {work : Work D}
    (hparse : o.parse = true) (h : o.doWork w buffer beyond received = some work) :
    work.run = Server.doWork (o.world w) buffer beyond received := by
  by_cases hlast : received.last = .wouldBlock
  swap
  · have hparsed : o.parsed w buffer beyond received = none := by simp [parsed, hlast]
    rw [doWork, hparsed] at h
    rw [← Option.some.inj h, doWork_of_ne_wouldBlock _ hlast]
  have hparsed : o.parsed w buffer beyond received =
      cJSON_Parse w.doubles (parsedText buffer beyond received) := by
    rw [parsed, if_pos ⟨hlast, hparse⟩, parsedText]
  have hrequest : request (o.world w).doubles (parsedText buffer beyond received) =
      (o.parsed w buffer beyond received).bind (requestOf w.doubles) := by rw [hparsed]; rfl
  rw [doWork_eq_serve _ _ _ hlast, serve, hrequest]
  cases hjson : o.parsed w buffer beyond received with
  | none =>
      rw [doWork, hjson] at h
      rw [← Option.some.inj h]
      rfl
  | some json =>
      rw [doWork, hjson] at h
      simp only [Option.bind_some]
      cases hcall : requestOf w.doubles json with
      | none =>
          simp only [hcall, Option.some.injEq] at h
          rw [← h]
      | some call =>
          simp only [hcall, Option.map_eq_some_iff] at h
          obtain ⟨work', hperform, rfl⟩ := h
          have hrun := perform_run hperform
          cases call <;> exact hrun

end Outcomes

/-- A table with a report of the leap day. -/
def leapDayReport : Surroundings Int where
  doubles := wholeNumbers
  coordinates := wholeCoordinates
  table := [reportOf "fab".toList leapDay]
  print _ := "[]".toList
  print_noZero _ := by decide
  sends := [.sent 3]

namespace Outcomes

end Outcomes

end PotHub.Server
