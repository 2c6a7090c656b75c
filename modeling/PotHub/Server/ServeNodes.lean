import PotHub.Server.Arrivals
import PotHub.Server.ReplyNodes
import PotHub.Server.Store

/-!
# Runs in memory

`doWork` behind its read loop, with everything that it allocates through cJSON: the
tree of the request, the lookups in it, the query and the reply that is sent.

At the label `end` the test for the null pointer is the wrong way round, so that
nothing is freed there.  Of every run there remain the tree of the request, the reply,
and what the query has left behind.
-/

namespace PotHub.Server

open PotHub.Json PotHub.Lib PotHub.Lib.Heap

variable {D σ : Type}

/-! ## The functions -/

/-- The case `REPORT_POTHOLE`. -/
def reportRequestTo (json : ℕ) : Program (Heap (Block D)) (Option (DbCall D)) := do
  let latitude ← getObjectItem json latitudeName
  let longitude ← getObjectItem json longitudeName
  let address ← getObjectItem json addressName
  let user ← getObjectItem json userName
  let timestamp ← getObjectItem json timestampName
  let intensity ← getObjectItem json intensityName
  match latitude, longitude, address, user, timestamp, intensity with
  | some latitude, some longitude, some address, some user, some timestamp, some intensity => do
      let latitude ← readDouble latitude
      let longitude ← readDouble longitude
      let address ← readText address
      let user ← readText user
      let timestamp ← readText timestamp
      let intensity ← readInt intensity
      pure (some (.reportPothole ⟨latitude, longitude, address, user, timestamp, intensity⟩))
  | _, _, _, _, _, _ => pure none

/-- The case `GET_POTHOLES_BY_RANGE`. -/
def rangeRequestTo (json : ℕ) : Program (Heap (Block D)) (Option (DbCall D)) := do
  let latitude ← getObjectItem json latitudeName
  let longitude ← getObjectItem json longitudeName
  let range ← getObjectItem json rangeName
  match latitude, longitude, range with
  | some latitude, some longitude, some range => do
      let latitude ← readDouble latitude
      let longitude ← readDouble longitude
      let range ← readDouble range
      pure (some (.getPotholesByRangeJson latitude longitude range))
  | _, _, _ => pure none

/-- The case `GET_USER_POTHOLES_BY_DAYS`. -/
def userRequestTo (json : ℕ) : Program (Heap (Block D)) (Option (DbCall D)) := do
  let user ← getObjectItem json userName
  let date ← getObjectItem json dateName
  match user, date with
  | some user, some date => do
      let user ← readText user
      let date ← readText date
      pure (some (.getUserPotholesBy14DaysJson user date))
  | _, _ => pure none

/-- The call that a parsed message asks for; `none` has the connection closed. -/
def requestTo (json : ℕ) : Program (Heap (Block D)) (Option (DbCall D)) := do
  match ← getObjectItem json actionName with
  | none => pure none
  | some action => do
      let valueint ← readInt action
      if valueint = REPORT_POTHOLE then reportRequestTo json
      else if valueint = GET_POTHOLES_BY_RANGE then rangeRequestTo json
      else if valueint = GET_USER_POTHOLES_BY_DAYS then userRequestTo json
      else pure none

variable (alloc : Allocator)

/-- A query behind its call: the text is moved by `realloc`, the endline is put where
the terminator is, and the reply is sent.  `none` is what has no meaning in C: the test
of a pointer that has not been assigned, and the endline behind a `realloc` that has
returned a null pointer. -/
def sendReplyTo (sends : List SendResult) (call : DbCall D) :
    JsonString → Program (Heap (Block D)) (Option (Run D))
  | .unassigned => pure none
  | .assigned none => pure (some ⟨[call], [], true⟩)
  | .assigned (some jsonMessage) => do
      match ← readString (some jsonMessage) with
      | none => Program.fault
      | some message => do
          match ← Heap.alloc alloc.fails fun _ => .bytes (message ++ ['\x00']) with
          | none => pure none
          | some moved => do
              Heap.free jsonMessage
              Heap.write moved (.bytes (message ++ ['\n']))
              let reply := sendLoop (message ++ ['\n']) sends
              pure (some ⟨[call], reply.sent, reply.closeConn⟩)

variable (m : Printf D) (c : Coordinates D) (db : Database D σ)

/-- The call on the database.  A null pointer for a text is passed to `strlen`, or for
the date to the query. -/
def callTo (store : σ) (sends : List SendResult) (call : DbCall D) :
    Program (Heap (Block D)) (Option (Run D)) :=
  match call with
  | .reportPothole pothole =>
      if boundRow pothole = none then Program.fault else pure (some ⟨[call], [], false⟩)
  | .getPotholesByRangeJson latitude longitude range => do
      let jsonMessage ← getPotholesByRangeJsonTo alloc m c
        ((db.rows store).map (PotholeReport.textRow c)) latitude longitude range
      sendReplyTo alloc sends call jsonMessage
  | .getUserPotholesBy14DaysJson none _ => Program.fault
  | .getUserPotholesBy14DaysJson (some username) date => do
      let jsonMessage ← getUserPotholesBy14DaysJsonTo alloc m (db.userRows store username) date
      sendReplyTo alloc sends call jsonMessage

/-- What stands at the label `end` for the tree of the request. -/
def atEnd (json : Option ℕ) : Program (Heap (Block D)) PUnit :=
  if json = none then cJSON_Delete json else pure ⟨⟩

/-- `doWork` behind the read loop, on the text in the buffer. -/
def serveTo (store : σ) (sends : List SendResult) (message : Text) :
    Program (Heap (Block D)) (Option (Run D)) := do
  match ← cJSON_ParseTo alloc m.toDoubles message with
  | none => do
      atEnd none
      pure (some ⟨[], [], true⟩)
  | some json => do
      match ← requestTo json with
      | none => do
          atEnd (some json)
          pure (some ⟨[], [], true⟩)
      | some call => do
          let run ← callTo alloc m c db store sends call
          atEnd (some json)
          pure run

/-- What a run of `doWork` finds, and what the socket gives and takes. -/
structure Visit (σ : Type) where
  store : σ
  /-- The buffer on entry. -/
  buffer : Text
  /-- The memory behind the buffer. -/
  beyond : Text
  received : Received
  sends : List SendResult

/-- What is parsed. -/
def Visit.message (visit : Visit σ) : Text :=
  parsedText visit.buffer visit.beyond visit.received

/-- `doWork`. -/
def doWorkTo (visit : Visit σ) : Program (Heap (Block D)) (Option (Run D)) :=
  match visit.received.last with
  | .wouldBlock => serveTo alloc m c db visit.store visit.sends visit.message
  | .failed | .closed => do
      atEnd none
      pure (some ⟨[], [], true⟩)

/-- One run behind the other. -/
def runsTo : List (Visit σ) → Program (Heap (Block D)) PUnit
  | [] => pure ⟨⟩
  | visit :: visits => do
      let _ ← doWorkTo alloc m c db visit
      runsTo visits

variable {alloc} {m : Doubles D} {failed : Bool} {a : ℕ} {json : CJson D}
  {children : List (Child D)}

/-! ## The request -/

section Request

theorem gives_reportRequestTo (h : children.map Prod.snd = json.children) :
    Gives failed (rootAt m a json children) (reportRequestTo a) (reportRequest m json)
      (rootAt m a json children) := by
  iterate 6 refine (gives_getObjectItem _).seq ?_
  simp only [reportRequest, getObjectItemCaseSensitive_eq h]
  rcases hlat : firstNamed latitudeName children with _ | lat
  · exact Gives.pure le_rfl
  rcases hlon : firstNamed longitudeName children with _ | lon
  · exact Gives.pure le_rfl
  rcases haddress : firstNamed addressName children with _ | address
  · exact Gives.pure le_rfl
  rcases huser : firstNamed userName children with _ | user
  · exact Gives.pure le_rfl
  rcases htimestamp : firstNamed timestampName children with _ | timestamp
  · exact Gives.pure le_rfl
  rcases hintensity : firstNamed intensityName children with _ | intensity
  · exact Gives.pure le_rfl
  refine (gives_child (firstNamed_mem hlat) fun _ _ => gives_readDouble).seq ?_
  refine (gives_child (firstNamed_mem hlon) fun _ _ => gives_readDouble).seq ?_
  refine (gives_child (firstNamed_mem haddress) fun _ _ => gives_readText).seq ?_
  refine (gives_child (firstNamed_mem huser) fun _ _ => gives_readText).seq ?_
  refine (gives_child (firstNamed_mem htimestamp) fun _ _ => gives_readText).seq ?_
  refine (gives_child (firstNamed_mem hintensity) fun _ _ => gives_readInt).seq ?_
  exact Gives.pure le_rfl

theorem gives_rangeRequestTo (h : children.map Prod.snd = json.children) :
    Gives failed (rootAt m a json children) (rangeRequestTo a) (rangeRequest m json)
      (rootAt m a json children) := by
  iterate 3 refine (gives_getObjectItem _).seq ?_
  simp only [rangeRequest, getObjectItemCaseSensitive_eq h]
  rcases hlat : firstNamed latitudeName children with _ | lat
  · exact Gives.pure le_rfl
  rcases hlon : firstNamed longitudeName children with _ | lon
  · exact Gives.pure le_rfl
  rcases hrange : firstNamed rangeName children with _ | range
  · exact Gives.pure le_rfl
  refine (gives_child (firstNamed_mem hlat) fun _ _ => gives_readDouble).seq ?_
  refine (gives_child (firstNamed_mem hlon) fun _ _ => gives_readDouble).seq ?_
  refine (gives_child (firstNamed_mem hrange) fun _ _ => gives_readDouble).seq ?_
  exact Gives.pure le_rfl

theorem gives_userRequestTo (h : children.map Prod.snd = json.children) :
    Gives failed (rootAt m a json children) (userRequestTo a) (userRequest json)
      (rootAt m a json children) := by
  iterate 2 refine (gives_getObjectItem _).seq ?_
  simp only [userRequest, getObjectItemCaseSensitive_eq h]
  rcases huser : firstNamed userName children with _ | user
  · exact Gives.pure le_rfl
  rcases hdate : firstNamed dateName children with _ | date
  · exact Gives.pure le_rfl
  refine (gives_child (firstNamed_mem huser) fun _ _ => gives_readText).seq ?_
  refine (gives_child (firstNamed_mem hdate) fun _ _ => gives_readText).seq ?_
  exact Gives.pure le_rfl

/-- **The request in memory.**  What the lookups find is what the tree asks for, and the
tree stays as it is. -/
theorem gives_requestTo : Gives failed (treeAt m a json) (requestTo a) (requestOf m json)
    (treeAt m a json) := by
  rw [treeAt_eq_iSup]
  refine Triple.iSup fun children => Triple.fact fun h => ?_
  refine Triple.mono (P := rootAt m a json children) (Q := fun f w =>
    .fact (f = failed ∧ w = requestOf m json) * rootAt m a json children) ?_ le_rfl fun f w =>
      mul_le_mul' le_rfl (le_iSup_of_le children (Assn.le_fact_mul h le_rfl))
  refine (gives_getObjectItem _).seq ?_
  simp only [requestOf, getObjectItemCaseSensitive_eq h]
  rcases haction : firstNamed actionName children with _ | action
  · exact Gives.pure le_rfl
  refine (gives_child (firstNamed_mem haction) fun _ _ => gives_readInt).seq ?_
  show Gives _ _ _ (if action.2.valueint = REPORT_POTHOLE then reportRequest m json
    else if action.2.valueint = GET_POTHOLES_BY_RANGE then rangeRequest m json
    else if action.2.valueint = GET_USER_POTHOLES_BY_DAYS then userRequest json
    else none) _
  split_ifs
  · exact gives_reportRequestTo h
  · exact gives_rangeRequestTo h
  · exact gives_userRequestTo h
  · exact Gives.pure le_rfl

end Request

/-! ## The call -/

section Call

variable {alloc : Allocator} {m : Printf D} {c : Coordinates D} {db : Database D σ} {store : σ}
  {sends : List SendResult} {call : DbCall D} {failed failed' : Bool}

/-- What a run does, and what it leaves behind, unless an allocation has failed. -/
def servedAt (run : Run D) (left : Assn (Block D)) (failed f : Bool) (r : Option (Run D)) :
    Assn (Block D) :=
  ⨆ left' : Assn (Block D), .fact (Unless failed f (r = some run ∧ left' = left)) * left'

theorem le_servedAt {run : Run D} {left left' : Assn (Block D)} {f : Bool} {r : Option (Run D)}
    (h : Unless failed f (r = some run ∧ left' = left)) : left' ≤ servedAt run left failed f r :=
  le_iSup_of_le left' (Assn.le_fact_mul h le_rfl)

/-- What is left of a reply: its block, with the endline. -/
def replyLeft : Option Text → Assn (Block D)
  | none => 1
  | some w => ⨆ p, .pointsTo p (.bytes (w ++ ['\n']))

/-- The reply is sent, and its block stays. -/
theorem triple_sendReplyTo (world : World D) {answer : Option (Option Text)}
    {lost lost' : Assn (Block D)} {jsonString : JsonString}
    (hanswer : Unless failed failed' (answer = some (world.answer call) ∧ lost' = lost))
    (hzero : ∀ w, world.answer call = some w → '\x00' ∉ w) :
    Triple failed' (jsonStringAt jsonString answer * lost')
      (sendReplyTo alloc world.sends call jsonString) fun f r =>
        servedAt (answerQuery world call) (replyLeft (world.answer call) * lost) failed f r := by
  have hbot : ∀ {x : Program (Heap (Block D)) (Option (Run D))}
      {Q : Bool → Option (Run D) → Assn (Block D)}, Triple failed' (⊥ * lost') x Q := by
    rw [Quantale.bot_mul]
    exact Triple.bot
  cases jsonString with
  | unassigned =>
      rcases answer with _ | text
      · exact Triple.pure (le_servedAt (hanswer.mono fun h => by cases h.1))
      · exact hbot
  | assigned q =>
      rcases q with _ | p <;> rcases answer with _ | _ | w
      · exact hbot
      · refine Triple.pure (le_servedAt (hanswer.mono ?_))
        rintro ⟨hnone, rfl⟩
        rw [answerQuery, ← Option.some.inj hnone]
        exact ⟨rfl, rfl⟩
      · exact hbot
      · exact hbot
      · exact hbot
      · have hread : Gives failed' (.pointsTo p (.bytes (w ++ ['\x00'])) : Assn (Block D))
            (readString (some p)) (some (cString w)) (.pointsTo p (.bytes (w ++ ['\x00']))) := by
          refine gives_read.seq ?_
          show Gives _ _ (if '\x00' ∈ w ++ ['\x00'] then _ else _) _ _
          rw [if_pos (by simp), cString_append_zero w []]
          exact Gives.pure le_rfl
        refine hread.bind rfl ?_
        -- `realloc` has the text in two blocks for a moment.
        refine Triple.alloc_bind (fun moved => ?_) (Triple.pure (le_servedAt (.inr rfl)))
        refine gives_free.bind_one (show _ = .pointsTo p _ * (.pointsTo moved _ * lost') by ac_rfl)
          ((gives_write _).bind rfl (Triple.pure ?_))
        rcases hanswer with ⟨rfl, hsome, rfl⟩ | rfl
        · have hw : world.answer call = some w := (Option.some.inj hsome).symm
          rw [cString_of_not_mem (hzero w hw), hw]
          refine le_trans (mul_le_mul' ?_ le_rfl) (le_servedAt (.self ⟨?_, rfl⟩))
          · exact le_iSup (fun p => Assn.pointsTo p (Block.bytes (w ++ ['\n']))) moved
          · rw [answerQuery, hw]
        · exact le_servedAt (.inr rfl)

variable (m db store) in
/-- The call has a meaning: none of its texts is a null pointer, the query reads no text
behind its buffer, and it assigns what it returns. -/
def Defined : DbCall D → Prop
  | .reportPothole pothole => boundRow pothole ≠ none
  | .getPotholesByRangeJson _ _ _ => True
  | .getUserPotholesBy14DaysJson (some username) (some date) =>
      ∃ tree, rowLoop m.toDoubles date (db.userRows store username) [] = .json tree
  | .getUserPotholesBy14DaysJson _ _ => False

variable (m c db store) in
/-- What a call leaves behind. -/
def callLeft (call : DbCall D) : Assn (Block D) :=
  replyLeft (answerOf m c db store call) * match call with
    | .getUserPotholesBy14DaysJson (some username) (some date) =>
        strayAt m.toDoubles (strays m.toDoubles date (db.userRows store username))
    | _ => 1

variable (m c db store sends) in
/-- What the functions find when no call of the database fails. -/
def surroundings : World D := ⟨m.toDoubles, answerOf m c db store, sends⟩

theorem serve_of_none {message : Text} (h : request m.toDoubles message = none) :
    serve (surroundings m c db store sends) message = ⟨[], [], true⟩ := by
  have hworld : request (surroundings m c db store sends).doubles message = none := h
  rw [serve, hworld]

/-- A query, and what is sent of its reply. -/
theorem triple_answer (hm : m.Lawful) {query : Program (Heap (Block D)) JsonString}
    {tree : CJson D} {lost : Assn (Block D)}
    (hquery : Triple failed 1 query (answerAt (answerText m (.json tree)) lost failed))
    (hanswer : answerOf m c db store call = cJSON_PrintUnformatted m tree) :
    Triple failed 1 (query >>= sendReplyTo alloc sends call)
      (servedAt (answerQuery (surroundings m c db store sends) call)
        (replyLeft (answerOf m c db store call) * lost) failed) := by
  refine hquery.bind fun f jsonString => Triple.iSup fun answer => Triple.iSup fun lost' =>
    Triple.fact fun h => ?_
  refine triple_sendReplyTo (surroundings m c db store sends) ?_ fun w hw => ?_
  · show Unless failed f (answer = some (answerOf m c db store call) ∧ lost' = lost)
    rw [hanswer]
    exact h
  · exact zero_not_mem_of_printValue hm (hanswer.symm.trans hw)

/-- **The call in memory.**  A call with a meaning does what it does without the heap. -/
theorem triple_callTo (hm : m.Lawful) (hcall : Defined m db store call) {message : Text}
    (hrequest : request m.toDoubles message = some call) :
    Triple failed 1 (callTo alloc m c db store sends call)
      (servedAt (serve (surroundings m c db store sends) message) (callLeft m c db store call)
        failed) := by
  rw [serve, show (surroundings m c db store sends).doubles = m.toDoubles from rfl, hrequest]
  cases call with
  | reportPothole pothole =>
      rw [callTo, if_neg hcall]
      exact Triple.pure (le_servedAt (.self ⟨rfl, (mul_one 1).symm⟩))
  | getPotholesByRangeJson latitude longitude range =>
      exact triple_answer hm (triple_getPotholesByRangeJsonTo _ latitude longitude range) rfl
  | getUserPotholesBy14DaysJson username date =>
      rcases username with _ | username
      · exact hcall.elim
      rcases date with _ | date
      · exact hcall.elim
      obtain ⟨tree, htree⟩ := hcall
      have hdefined : rowLoop m.toDoubles date (db.userRows store username) [] ≠ .outOfBounds := by
        rw [htree]
        exact fun h => by cases h
      refine triple_answer hm ?_ (by rw [answerOf, htree])
      rw [← htree]
      exact triple_getUserPotholesBy14DaysJsonTo _ hdefined

end Call

/-! ## The run -/

section Runs

variable {alloc : Allocator} {m : Printf D} {c : Coordinates D} {db : Database D σ}
  {visit : Visit σ} {failed : Bool}

variable (m db) in
/-- A call that the run makes has a meaning. -/
def Visit.Defined (visit : Visit σ) : Prop :=
  visit.received.last = .wouldBlock → ∀ call, request m.toDoubles visit.message = some call →
    Server.Defined m db visit.store call

variable (m) in
/-- The tree of the request, if there is one. -/
def Visit.tree (visit : Visit σ) : Option (CJson D) :=
  match visit.received.last with
  | .wouldBlock => cJSON_Parse m.toDoubles visit.message
  | .failed | .closed => none

variable (m c db) in
/-- What a run leaves behind: the tree of the request, the reply, and what the query
has left. -/
def Visit.left (visit : Visit σ) : Assn (Block D) :=
  match visit.tree m with
  | none => 1
  | some json => (⨆ a, treeAt m.toDoubles a json) * match requestOf m.toDoubles json with
      | none => 1
      | some call => callLeft m c db visit.store call

variable (m c db) in
/-- What the run does without the heap. -/
def Visit.run (visit : Visit σ) : Run D :=
  doWork (surroundings m c db visit.store visit.sends) visit.buffer visit.beyond visit.received

theorem atEnd_eq (json : Option ℕ) : (atEnd json : Program (Heap (Block D)) PUnit) = pure ⟨⟩ := by
  rw [atEnd]
  split_ifs with hnull
  · rw [hnull, cJSON_Delete_none]
  · rfl

theorem triple_serveTo (hm : m.Lawful) (hlast : visit.received.last = .wouldBlock)
    (hdefined : visit.Defined m db) :
    Triple failed 1 (serveTo alloc m c db visit.store visit.sends visit.message)
      (servedAt (visit.run m c db) (visit.left m c db) failed) := by
  have hrun : visit.run m c db =
      serve (surroundings m c db visit.store visit.sends) visit.message :=
    doWork_eq_serve _ _ _ hlast
  have htree : visit.tree m = cJSON_Parse m.toDoubles visit.message := by rw [Visit.tree, hlast]
  rw [hrun, Visit.left, htree]
  refine (triple_cJSON_ParseTo alloc visit.message).bind fun f p => ?_
  cases p with
  | none =>
      -- Unless an allocation has failed, the text is refused, and there is nothing to free.
      rw [parsed, ← mul_one (Assn.fact _)]
      refine Triple.fact fun hparse => ?_
      simp only [atEnd_eq]
      refine Triple.pure (le_servedAt (hparse.mono fun hnone => ?_))
      rw [hnone, serve_of_none (by rw [request, hnone, Option.bind_none])]
      exact ⟨rfl, rfl⟩
  | some a =>
      refine Triple.iSup fun json => Triple.fact ?_
      rintro ⟨rfl, hparse⟩
      have hrequest : request m.toDoubles visit.message = requestOf m.toDoubles json := by
        rw [request, hparse, Option.bind_some]
      refine gives_requestTo.seq ?_
      simp only [atEnd_eq, hparse]
      cases hcall : requestOf m.toDoubles json with
      | none =>
          -- The connection is closed, and the tree stays.
          rw [serve_of_none (hrequest.trans hcall)]
          refine Triple.pure (le_trans ?_ (le_servedAt (.self ⟨rfl, rfl⟩)))
          rw [mul_one]
          exact le_iSup (fun a => treeAt m.toDoubles a json) a
      | some call =>
          -- The call runs beside the tree, which it does not need.
          have hsome := hrequest.trans hcall
          refine (triple_callTo hm (hdefined hlast call hsome) hsome).bind_frame (one_mul _).symm
            fun f' r => Triple.pure ?_
          rw [servedAt, Quantale.iSup_mul_distrib]
          refine iSup_le fun left => ?_
          rw [mul_assoc]
          refine Assn.fact_mul_le fun h => ?_
          rcases h with ⟨rfl, hr, rfl⟩ | rfl
          · refine le_trans ?_ (le_servedAt (.self ⟨hr, rfl⟩))
            rw [mul_comm]
            exact mul_le_mul' (le_iSup (fun a => treeAt m.toDoubles a json) a) le_rfl
          · exact le_servedAt (.inr rfl)

theorem triple_doWorkTo (hm : m.Lawful) (hdefined : visit.Defined m db) :
    Triple failed 1 (doWorkTo alloc m c db visit)
      (servedAt (visit.run m c db) (visit.left m c db) failed) := by
  have hends : visit.received.last ≠ .wouldBlock → visit.tree m = none →
      Triple failed 1 (do atEnd none; pure (some ⟨[], [], true⟩))
        (servedAt (visit.run m c db) (visit.left m c db) failed) := by
    intro hlast htree
    simp only [atEnd_eq]
    refine Triple.pure (le_servedAt (.self ⟨?_, ?_⟩))
    · rw [Visit.run, doWork_of_ne_wouldBlock _ hlast]
    · rw [Visit.left, htree]
  rw [doWorkTo]
  cases hlast : visit.received.last with
  | wouldBlock => exact triple_serveTo hm hlast hdefined
  | failed => exact hends (by simp [hlast]) (by rw [Visit.tree, hlast])
  | closed => exact hends (by simp [hlast]) (by rw [Visit.tree, hlast])

/-- **A run in memory.**  Whatever the client sends, whatever is in the heap and however
the allocations and the calls of `send` end: as long as it has a meaning, the run has no
fault and leaves alone what it finds in the heap.  Unless an allocation fails, it has
one, it does what it does without the heap, and what it adds to the heap is the tree of
the request, the reply, and the timestamps of the rows that are not shown. -/
theorem doWorkTo_run (alloc : Allocator) (hm : m.Lawful) (hdefined : visit.Defined m db)
    (s : Heap (Block D)) :
    ∃ r s' h, doWorkTo alloc m c db visit s = .done r s' ∧ h.Disjoint s.cells ∧
      s'.cells = h.union s.cells ∧
      (s'.failed = true ∨ r = some (visit.run m c db) ∧ h ∈ visit.left m c db) := by
  have htriple : Triple s.failed 1 (doWorkTo alloc m c db visit) _ := triple_doWorkTo hm hdefined
  obtain ⟨r, s', hrun, hs'⟩ := htriple.run (split_one s)
  obtain ⟨h, hserved, hdisjoint, hcells⟩ := hs'.cells_eq
  obtain ⟨left, hleft⟩ := Assn.mem_iSup.1 hserved
  obtain ⟨hunless, hmem⟩ := Assn.mem_fact_mul.1 hleft
  refine ⟨r, s', h, hrun, hdisjoint, hcells, ?_⟩
  rcases hunless with ⟨-, hr, rfl⟩ | hfailed
  · exact .inr ⟨hr, hmem⟩
  · exact .inl hfailed

/-! ## One run behind the other -/

variable (m) in
/-- The number of nodes in the trees of the requests. -/
def nodesLeft : List (Visit σ) → ℕ
  | [] => 0
  | visit :: visits => (visit.tree m).elim 0 CJson.size + nodesLeft visits

theorem atLeast_left : (visit.left m c db).AtLeast ((visit.tree m).elim 0 CJson.size) := by
  rw [Visit.left]
  cases visit.tree m with
  | none => exact Assn.atLeast_zero _
  | some json =>
      have htree : (⨆ a, treeAt m.toDoubles a json).AtLeast json.size :=
        .iSup fun a => atLeast_size json none a none none
      exact htree.mul (Assn.atLeast_zero _)

/-- What runs add to the heap has a block at least for every node of their requests. -/
theorem triple_runsTo (hm : m.Lawful) (visits : List (Visit σ))
    (hdefined : ∀ visit ∈ visits, visit.Defined m db) :
    Triple failed 1 (runsTo alloc m c db visits) fun f _ => ⨆ left : Assn (Block D),
      .fact (Unless failed f (left.AtLeast (nodesLeft m visits))) * left := by
  induction visits generalizing failed with
  | nil =>
      refine Triple.pure (le_iSup_of_le 1 (Assn.le_fact_mul (.self ?_) le_rfl))
      exact Assn.atLeast_zero 1
  | cons visit visits ih =>
      obtain ⟨hvisit, hvisits⟩ := List.forall_mem_cons.1 hdefined
      refine (triple_doWorkTo hm hvisit).bind fun f r => Triple.iSup fun left =>
        Triple.fact fun hleft => ?_
      -- What the first run has left is the frame of the others.
      refine Triple.mono ((ih hvisits).frame left) (one_mul left).ge fun f' _ => ?_
      rw [Quantale.iSup_mul_distrib]
      refine iSup_le fun left' => le_iSup_of_le (left' * left) ?_
      rw [mul_assoc]
      refine mul_le_mul' (Assn.fact_mono fun hleft' => hleft.trans hleft' ?_) le_rfl
      rintro ⟨-, rfl⟩ hrest
      rw [nodesLeft, Nat.add_comm]
      exact hrest.mul atLeast_left

/-- **The memory of the server grows.**  Runs one behind the other, whatever they receive:
unless an allocation fails, the heap has at least as many blocks more at the end as the
requests had nodes. -/
theorem card_blocks_runsTo (alloc : Allocator) (hm : m.Lawful) {visits : List (Visit σ)}
    (hdefined : ∀ visit ∈ visits, visit.Defined m db) (s : Heap (Block D)) :
    ∃ s', runsTo alloc m c db visits s = .done ⟨⟩ s' ∧
      (s'.failed = true ∨ s.blocks.card + nodesLeft m visits ≤ s'.blocks.card) := by
  have htriple : Triple s.failed 1 (runsTo alloc m c db visits) _ :=
    triple_runsTo hm visits hdefined
  obtain ⟨⟨⟩, s', hrun, hs'⟩ := htriple.run (split_one s)
  refine ⟨s', hrun, ?_⟩
  obtain ⟨h, hmem, hdisjoint, hcells⟩ := hs'.cells_eq
  obtain ⟨left, hleft⟩ := Assn.mem_iSup.1 hmem
  obtain ⟨hunless, hmem⟩ := Assn.mem_fact_mul.1 hleft
  rcases hunless with ⟨-, hnodes⟩ | hfailed
  · have hsplit : Split s'.failed left s.cells s' := ⟨rfl, h, hmem, hdisjoint, hcells⟩
    exact .inr (hsplit.card_blocks_le hnodes)
  · exact .inl hfailed

/-! Two weeks behind the report of the leap day, the query for the user comes twice. -/

def leapVisit : Visit (List (PotholeReport Int)) where
  store := Service.leapService.store
  buffer := Service.leapQuery.buffer
  beyond := []
  received := Service.leapQuery.received
  sends := Service.leapQuery.sends

theorem defined_leapVisit : leapVisit.Defined integers (Service.tableDatabase Int) := by
  intro _ call hcall
  have hrequest : request integers.toDoubles leapVisit.message =
      some (.getUserPotholesBy14DaysJson (some "fab".toList) (some twoWeeksOn.text)) := by
    decide +kernel
  obtain rfl := Option.some.inj (hrequest.symm.trans hcall)
  have hterm := terminated_datedReport leapDay
  have hreadable : ∀ row ∈ [datedReport leapDay], row.report.Readable twoWeeksOn.text :=
    List.forall_mem_singleton.2 <| ((datedReport leapDay).readable_iff twoWeeksOn).2 fun _ =>
      ⟨hterm.address_lt, hterm.user_lt⟩
  exact ⟨_, (rowLoop_of_dated integers.toDoubles).2 ⟨hreadable, rfl⟩⟩

theorem doWorkTo_run_leapVisit :
    ∃ r s' h, doWorkTo steady integers wholeCoordinates (Service.tableDatabase Int) leapVisit
        heapWithBlock = .done r s' ∧
      h.Disjoint (Heaplet.single 0 (Block.bytes "kept".toList)) ∧
      s'.cells = h.union (Heaplet.single 0 (Block.bytes "kept".toList)) ∧
      (s'.failed = true ∨
        r = some (leapVisit.run integers wholeCoordinates (Service.tableDatabase Int)) ∧
        h ∈ leapVisit.left integers wholeCoordinates (Service.tableDatabase Int)) :=
  doWorkTo_run steady integers_lawful defined_leapVisit heapWithBlock

theorem card_blocks_runsTo_leapVisit :
    ∃ s', runsTo steady integers wholeCoordinates (Service.tableDatabase Int)
        [leapVisit, leapVisit] heapWithBlock = .done ⟨⟩ s' ∧
      (s'.failed = true ∨ (heapWithBlock : Heap (Block Int)).blocks.card +
        nodesLeft integers [leapVisit, leapVisit] ≤ s'.blocks.card) := by
  refine card_blocks_runsTo steady integers_lawful ?_ heapWithBlock
  simp only [List.forall_mem_cons]
  exact ⟨defined_leapVisit, defined_leapVisit, by simp⟩

end Runs

end PotHub.Server
