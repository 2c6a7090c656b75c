import PotHub.Lib.CStrings
import PotHub.Server.Request

/-!
# A run of a worker

`doWork` from the first `recv` to the write-back.  What the socket gives and
takes, and what the query functions answer, are arguments; the result is what
the run does to others: its calls on the database, the bytes it sends, and
whether it closes the connection.

Every `recv` writes to the front of the buffer, and nothing clears the buffer
or terminates what has been received.  So the text that is parsed goes on, from
where the received bytes end, with what an earlier request left there.
-/

namespace PotHub.Server

open PotHub.Json PotHub.Lib

/-- The size of the automatic buffer. -/
def bufferSize : ℕ := 1024

/-! ## The socket -/

/-- How the read loop ends. -/
inductive RecvEnd
  /-- `recv` fails with `EWOULDBLOCK`. -/
  | wouldBlock
  /-- `recv` fails with another error. -/
  | failed
  /-- `recv` returns zero: the client has closed the connection. -/
  | closed
deriving DecidableEq, Repr

/-- What the calls of `recv` of one run give. -/
structure Received where
  /-- The bytes of each call that returns some. -/
  chunks : List Text
  chunk_pos : ∀ c ∈ chunks, 0 < c.length
  chunk_le : ∀ c ∈ chunks, c.length ≤ bufferSize
  last : RecvEnd

/-- The buffer behind a call of `recv`. -/
def recvInto (buffer chunk : Text) : Text := chunk ++ buffer.drop chunk.length

/-- The buffer behind the read loop. -/
def readLoop (buffer : Text) (chunks : List Text) : Text := chunks.foldl recvInto buffer

/-- What a call of `send` returns. -/
inductive SendResult
  /-- So many bytes have been taken. -/
  | sent (bytes : ℕ)
  /-- It fails with `EWOULDBLOCK`. -/
  | wouldBlock
  /-- It fails with another error. -/
  | failed
deriving DecidableEq, Repr

/-- What a reply loop has done. -/
structure Reply where
  /-- The bytes taken by the socket. -/
  sent : Text
  closeConn : Bool
deriving DecidableEq, Repr

/-- A reply loop.  At the end of the list the socket takes nothing more. -/
def sendLoop : Text → List SendResult → Reply
  | _, [] => ⟨[], false⟩
  | _, .failed :: _ => ⟨[], true⟩
  | rest, .wouldBlock :: results => sendLoop rest results
  | rest, .sent bytes :: results =>
      if bytes < rest.length then
        let reply := sendLoop (rest.drop bytes) results
        { reply with sent := rest.take bytes ++ reply.sent }
      else ⟨rest, false⟩

/-! ## The run -/

/-- The world around a run. -/
structure World (D : Type) where
  doubles : Doubles D
  /-- What the query functions return; `none` is the null pointer. -/
  answer : DbCall D → Option Text
  /-- What the calls of `send` return. -/
  sends : List SendResult

/-- What a run does. -/
structure Run (D : Type) where
  calls : List (DbCall D)
  sent : Text
  closeConn : Bool
deriving DecidableEq

variable {D : Type} (world : World D)

/-- A query: call, and send what is returned, with an endline behind. -/
def answerQuery (call : DbCall D) : Run D :=
  match world.answer call with
  | none => ⟨[call], [], true⟩
  | some message =>
      let reply := sendLoop (message ++ ['\n']) world.sends
      ⟨[call], reply.sent, reply.closeConn⟩

/-- `doWork` behind the read loop, on the text in the buffer. -/
def serve (message : Text) : Run D :=
  match request world.doubles message with
  | none => ⟨[], [], true⟩
  | some (.reportPothole pothole) => ⟨[.reportPothole pothole], [], false⟩
  | some (.getPotholesByRangeJson latitude longitude range) =>
      answerQuery world (.getPotholesByRangeJson latitude longitude range)
  | some (.getUserPotholesBy14DaysJson username date) =>
      answerQuery world (.getUserPotholesBy14DaysJson username date)

/-- `doWork`, with the buffer as it is on entry and the memory behind it, which the
parser reads where no zero in the buffer ends the text. -/
def doWork (buffer beyond : Text) (received : Received) : Run D :=
  match received.last with
  | .wouldBlock => serve world (cString (readLoop buffer received.chunks ++ beyond))
  | .failed => ⟨[], [], true⟩
  | .closed => ⟨[], [], true⟩

/-! ## The bytes received -/

/-- The bytes that a run receives, as they lie at the front of the buffer. -/
def Received.bytes (received : Received) : Text := readLoop [] received.chunks

theorem recvInto_overlay (front buffer chunk : Text) :
    recvInto (front ++ buffer.drop front.length) chunk =
      recvInto front chunk ++ buffer.drop (recvInto front chunk).length := by
  have hlen : (recvInto front chunk).length = front.length + (chunk.length - front.length) := by
    simp only [recvInto, List.length_append, List.length_drop]
    omega
  rw [hlen, recvInto, recvInto, List.drop_append, List.drop_drop, List.append_assoc]

theorem readLoop_overlay (front buffer : Text) (chunks : List Text) :
    readLoop (front ++ buffer.drop front.length) chunks =
      readLoop front chunks ++ buffer.drop (readLoop front chunks).length := by
  induction chunks generalizing front with
  | nil => rfl
  | cons chunk chunks ih =>
      simp only [readLoop, List.foldl_cons] at ih ⊢
      rw [recvInto_overlay, ih]

/-- Behind the received bytes, the buffer is as it was. -/
theorem readLoop_eq (buffer : Text) (received : Received) :
    readLoop buffer received.chunks = received.bytes ++ buffer.drop received.bytes.length :=
  readLoop_overlay [] buffer received.chunks

theorem Received.length_bytes_le (received : Received) : received.bytes.length ≤ bufferSize := by
  have hloop : ∀ (chunks : List Text) (front : Text), (∀ c ∈ chunks, c.length ≤ bufferSize) →
      front.length ≤ bufferSize → (readLoop front chunks).length ≤ bufferSize := by
    intro chunks
    induction chunks with
    | nil => exact fun _ _ h => h
    | cons chunk chunks ih =>
        intro front hchunks hfront
        refine ih _ (fun c hc => hchunks c (List.mem_cons_of_mem _ hc)) ?_
        have := hchunks chunk List.mem_cons_self
        simp only [recvInto, List.length_append, List.length_drop]
        omega
  exact hloop _ [] received.chunk_le (Nat.zero_le _)

/-! ## What decides a run -/

section Request

variable {m : Doubles D}

/-- Only an object has an action. -/
theorem exists_object_of_action {w : Text}
    (h : ((cJSON_Parse m w).bind fun json => json.getObjectItemCaseSensitive actionName).isSome) :
    ∃ members, cJSON_Parse m w = some (.object members) := by
  obtain ⟨action, haction⟩ := Option.isSome_iff_exists.1 h
  obtain ⟨json, hjson, hmember⟩ := Option.bind_eq_some_iff.1 haction
  cases json with
  | object members => exact ⟨members, hjson⟩
  | _ => cases hmember

theorem request_append {w : Text} {members : List (Text × CJson D)}
    (h : cJSON_Parse m w = some (.object members)) (x : Text) :
    request m (w ++ x) = request m w := by
  rw [request, request, h, cJSON_Parse_append h rfl x]

/-- What makes a call is an object. -/
theorem exists_object_of_request {w : Text} {call : DbCall D} (h : request m w = some call) :
    ∃ members, cJSON_Parse m w = some (.object members) := by
  obtain ⟨json, hjson, hcall⟩ := Option.bind_eq_some_iff.1 h
  obtain ⟨action, haction, -⟩ := Option.bind_eq_some_iff.1 hcall
  exact exists_object_of_action (by rw [hjson, Option.bind_some, haction, Option.isSome_some])

theorem request_append_of_some {w : Text} {call : DbCall D} (h : request m w = some call)
    (x : Text) : request m (w ++ x) = some call := by
  obtain ⟨members, hparse⟩ := exists_object_of_request h
  rw [request_append hparse, h]

end Request

variable {world}

theorem serve_congr {w x : Text} (h : request world.doubles w = request world.doubles x) :
    serve world w = serve world x := by
  rw [serve, serve, h]

theorem serve_calls (message : Text) :
    (serve world message).calls = (request world.doubles message).toList := by
  unfold serve answerQuery
  cases request world.doubles message with
  | none => rfl
  | some call =>
      cases call with
      | reportPothole pothole => rfl
      | getPotholesByRangeJson latitude longitude range =>
          cases h : world.answer (.getPotholesByRangeJson latitude longitude range) <;> simp [h]
      | getUserPotholesBy14DaysJson username date =>
          cases h : world.answer (.getUserPotholesBy14DaysJson username date) <;> simp [h]

/-- What a run does is decided by the bytes it receives: it never gets to the
parser, or they have a zero or hold an object, or no text behind them makes a
request of them. -/
def Received.Decides (received : Received) (m : Doubles D) : Prop :=
  received.last ≠ .wouldBlock ∨ '\x00' ∈ received.bytes ∨
    (∃ members, cJSON_Parse m received.bytes = some (.object members)) ∨
    ∀ x : Text, '\x00' ∉ x → request m (received.bytes ++ x) = none

theorem doWork_wouldBlock {received : Received} (h : received.last = .wouldBlock)
    (buffer beyond : Text) : doWork world buffer beyond received =
      serve world (cString (received.bytes ++
        (buffer.drop received.bytes.length ++ beyond))) := by
  rw [doWork, h, readLoop_eq, List.append_assoc]

/-- In front of a buffer of zeros, or of a zero behind a full one, just the received
bytes are parsed. -/
theorem cString_zeros {w beyond : Text} (hzero : '\x00' ∉ w)
    (hend : w.length < bufferSize ∨ beyond.head? = some '\x00') :
    cString (w ++ ((List.replicate bufferSize '\x00').drop w.length ++ beyond)) = w := by
  rw [cString_append_of_not_mem hzero, List.drop_replicate]
  cases hroom : bufferSize - w.length with
  | zero =>
      obtain ⟨beyond, rfl⟩ := List.head?_eq_some_iff.1 (hend.resolve_left (by omega))
      simp [cString]
  | succ n => simp [cString, List.replicate_succ]

/-- Any text without zeros can follow the received bytes in memory. -/
theorem exists_cString_eq {w x : Text} (hw : w.length ≤ bufferSize) (hzero : '\x00' ∉ w)
    (hx : '\x00' ∉ x) : ∃ buffer beyond : Text, buffer.length = bufferSize ∧
      cString (w ++ (buffer.drop w.length ++ beyond)) = w ++ x := by
  obtain ⟨memory, hmemory⟩ : ∃ memory, memory = x ++ '\x00' :: List.replicate bufferSize '\x00' :=
    ⟨_, rfl⟩
  have hlen : bufferSize ≤ memory.length := by
    rw [hmemory, List.length_append, List.length_cons, List.length_replicate]
    omega
  refine ⟨w ++ memory.take (bufferSize - w.length), memory.drop (bufferSize - w.length), ?_, ?_⟩
  · rw [List.length_append, List.length_take]
    omega
  · rw [List.drop_left, List.take_append_drop, hmemory, cString_append_of_not_mem hzero,
      cString_append_of_not_mem hx]
    simp [cString]

/-- A run whose bytes do not decide does something else in front of zeros than
in front of a text that makes a request of them. -/
theorem decides_of_doWork_eq {received : Received}
    (h : ∀ buffer buffer' beyond beyond' : Text, buffer.length = bufferSize →
      buffer'.length = bufferSize →
      doWork world buffer beyond received = doWork world buffer' beyond' received) :
    received.Decides world.doubles := by
  by_cases hlast : received.last = .wouldBlock
  swap
  · exact Or.inl hlast
  by_cases hzero : '\x00' ∈ received.bytes
  · exact Or.inr (Or.inl hzero)
  by_cases hobject : ∃ members, cJSON_Parse world.doubles received.bytes = some (.object members)
  · exact Or.inr (Or.inr (Or.inl hobject))
  refine Or.inr (Or.inr (Or.inr fun x hx => ?_))
  -- One run has `x` behind the received bytes, the other one nothing.
  obtain ⟨buffer, beyond, hbuffer, htext⟩ := exists_cString_eq received.length_bytes_le hzero hx
  have hrun := h buffer (List.replicate bufferSize '\x00') beyond ['\x00'] hbuffer
    (List.length_replicate ..)
  rw [doWork_wouldBlock hlast, doWork_wouldBlock hlast, htext,
    cString_zeros hzero (.inr rfl)] at hrun
  have hnone : request world.doubles received.bytes = none :=
    Option.eq_none_iff_forall_ne_some.2 fun call hcall =>
      hobject (exists_object_of_request hcall)
  have hcalls := congrArg Run.calls hrun
  rw [serve_calls, serve_calls, hnone, Option.toList_none, Option.toList_eq_nil_iff] at hcalls
  exact hcalls

theorem doWork_eq_of_decides {received : Received} (h : received.Decides world.doubles)
    (buffer buffer' beyond beyond' : Text) :
    doWork world buffer beyond received = doWork world buffer' beyond' received := by
  by_cases hlast : received.last = .wouldBlock
  swap
  · cases hend : received.last with
    | wouldBlock => exact absurd hend hlast
    | failed => simp [doWork, hend]
    | closed => simp [doWork, hend]
  rw [doWork_wouldBlock hlast, doWork_wouldBlock hlast]
  by_cases hzero : '\x00' ∈ received.bytes
  · rw [cString_append_of_mem hzero, cString_append_of_mem hzero]
  refine serve_congr ?_
  rw [cString_append_of_not_mem hzero, cString_append_of_not_mem hzero]
  rcases h with h | h | ⟨members, h⟩ | h
  · exact absurd hlast h
  · exact absurd h hzero
  · rw [request_append h, request_append h]
  · rw [h _ (not_mem_cString _), h _ (not_mem_cString _)]

/-- **The received bytes decide.**  Two runs that receive the same do the same,
whatever the buffer holds on entry and whatever lies behind it, exactly when the
received bytes decide. -/
theorem doWork_eq_iff (received : Received) :
    (∀ buffer buffer' beyond beyond' : Text, buffer.length = bufferSize →
      buffer'.length = bufferSize →
      doWork world buffer beyond received = doWork world buffer' beyond' received) ↔
    received.Decides world.doubles :=
  ⟨decides_of_doWork_eq, fun h _ _ _ _ _ _ => doWork_eq_of_decides h _ _ _ _⟩

/-- Nothing has been received. -/
def nothingReceived : Received := ⟨[], by simp, by simp, .wouldBlock⟩

/-- What an earlier request of somebody else may leave in the buffer. -/
def earlierRequest : Text :=
  ("\x7b\"action\":2,\"user\":\"u\",\"date\":\"01/01/2024\"\x7d").toList

/-- A database without reports. -/
def noReports : World Int := ⟨wholeNumbers, fun _ => some "[]".toList, [.sent 3]⟩

theorem not_decided_of_nothingReceived : ∃ buffer buffer' : Text,
    buffer.length = bufferSize ∧ buffer'.length = bufferSize ∧
    doWork noReports buffer [] nothingReceived =
      ⟨[.getUserPotholesBy14DaysJson (some "u".toList) (some "01/01/2024".toList)],
        "[]\n".toList, false⟩ ∧
    doWork noReports buffer' [] nothingReceived = ⟨[], [], true⟩ ∧
    doWork noReports buffer [] nothingReceived ≠ doWork noReports buffer' [] nothingReceived := by
  refine ⟨earlierRequest ++ List.replicate (bufferSize - earlierRequest.length) '\x00',
    List.replicate bufferSize '\x00', ?_, ?_, ?_, ?_, ?_⟩ <;> decide +kernel

end PotHub.Server
