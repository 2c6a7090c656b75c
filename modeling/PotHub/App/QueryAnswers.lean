import PotHub.App.Connection

/-!
# The answers to the queries

Both queries open a connection of their own, read one line, call the listener,
and close the connection.

A query whose connection is opened and read answers its listener once.  Where
the connection is not opened there is no answer, and a socket that has been
created by then stays open; the query for the potholes of a user ends in an
exception when the server closes without a reply (`answersOnce_iff`).
-/

namespace PotHub.App

open PotHub.Json

variable {K L : Type}

/-- A line with an array of potholes, the end of the stream, or an
`IOException`. -/
def ReadOutcome.Expected (lib : Libraries K) : ReadOutcome → Prop
  | .returns (some line) => ∃ potholes, lib.fromJson (some line) = .ok (some potholes)
  | .returns none => True
  | .ioException _ => True

/-- The server has closed the connection without a line. -/
def ReadOutcome.EndOfStream : ReadOutcome → Prop
  | .returns none => True
  | _ => False

namespace CustomHandler

/-- The query returns, the listener has been called once more, and the
connections that the query has made are closed. -/
def AnswersOnce (h : CustomHandler K L) (listener : L)
    (result : Except JavaException (CustomHandler K L)) : Prop :=
  ∃ h' call, result = .ok h' ∧ h'.calls = h.calls ++ [(listener, call)] ∧
    ∀ c ∈ h'.connections.drop h.connections.length, c.closed = true

/-- The handler behind a query that has been answered. -/
def answered (network : Network) (text : Text) (listener : L) (call : ListenerCall K)
    (h : CustomHandler K L) : CustomHandler K L where
  socket := some h.connections.length
  inputStream := some h.connections.length
  outputStream := some h.connections.length
  connections := h.connections ++ [⟨text, decide (network.onClose ≠ .inputThrows)⟩]
  potholesDetected := h.potholesDetected
  calls := h.calls ++ [(listener, call)]

variable {lib : Libraries K} {network : Network} {h : CustomHandler K L} {listener : L}
  {text : Text} {onNull : Except JavaException (ListenerCall K)}
  {onIOException : Option Text → ListenerCall K}

/-- The last connection is the one that has been opened. -/
theorem modify_last (connections : List Connection) (c : Connection)
    (f : Connection → Connection) :
    (connections ++ [c]).modify connections.length f = connections ++ [f c] := by
  induction connections with
  | nil => rfl
  | cons c' connections ih => simp [ih]

/-- A query behind a connection that is opened. -/
theorem dispatch_of_succeeds (hopen : network.onOpen = .succeeds) :
    h.dispatch lib network text onNull onIOException listener =
      (answer lib onNull onIOException network.onRead).map fun call =>
        h.answered network text listener call := by
  rw [dispatch, hopen]
  simp only [openConnectionWithServer, if_true, write, modify_last]
  cases hanswer : answer lib onNull onIOException network.onRead with
  | error e => simp [Except.bind, Except.map, readLine, hanswer]
  | ok call =>
      cases hclose : network.onClose <;>
        simp [Except.bind, Except.map, readLine, hanswer, tell, closeConnectionWithServer, closed,
          modify_last, answered, hclose]

/-- Where the connection is not opened, nobody is told. -/
theorem dispatch_of_not_succeeds (hopen : network.onOpen ≠ .succeeds) :
    ∃ h', h.dispatch lib network text onNull onIOException listener = .ok h' ∧
      h'.calls = h.calls := by
  rw [dispatch]
  cases houtcome : network.onOpen with
  | connectFails => exact ⟨_, rfl, rfl⟩
  | inputFails => exact ⟨_, rfl, rfl⟩
  | outputFails => exact ⟨_, rfl, rfl⟩
  | succeeds => exact absurd houtcome hopen

/-- A query answers once if it gets a connection, has an answer for what is
read, and can close the connection. -/
theorem dispatch_answersOnce_iff :
    h.AnswersOnce listener (h.dispatch lib network text onNull onIOException listener) ↔
      network.onOpen = .succeeds ∧ network.onClose ≠ .inputThrows ∧
        ∃ call, answer lib onNull onIOException network.onRead = .ok call := by
  by_cases hopen : network.onOpen = .succeeds
  · rw [dispatch_of_succeeds hopen]
    have hclosed (call : ListenerCall K) : (∀ c ∈ (h.answered network text listener
        call).connections.drop h.connections.length, c.closed = true) ↔
          network.onClose ≠ .inputThrows := by
      simp [answered]
    constructor
    · rintro ⟨h', call, hresult, -, hall⟩
      cases hanswer : answer lib onNull onIOException network.onRead with
      | error e =>
          rw [hanswer] at hresult
          cases hresult
      | ok call' =>
          rw [hanswer] at hresult
          cases hresult
          exact ⟨hopen, (hclosed call').1 hall, call', rfl⟩
    · rintro ⟨-, hclose, call, hanswer⟩
      rw [hanswer]
      exact ⟨_, call, rfl, rfl, (hclosed call).2 hclose⟩
  · refine iff_of_false ?_ fun hall => hopen hall.1
    rintro ⟨h', call, hresult, hcalls, -⟩
    obtain ⟨h'', hdispatch, hsame⟩ : ∃ h'',
        h.dispatch lib network text onNull onIOException listener = .ok h'' ∧
          h''.calls = h.calls := dispatch_of_not_succeeds hopen
    rw [hdispatch] at hresult
    cases hresult
    rw [hsame] at hcalls
    simp at hcalls

section Answer

variable (hjson : lib.fromJson none = .ok none)
include hjson

/-- With an answer for a null array there is one for all that is read. -/
theorem exists_answer {read : ReadOutcome} (hread : read.Expected lib)
    (hnull : ∃ call, onNull = .ok call) :
    ∃ call, answer lib onNull onIOException read = .ok call := by
  rcases read with (_ | line) | message
  · rw [answer, hjson]
    exact hnull
  · obtain ⟨potholes, hline⟩ := hread
    rw [answer, hline]
    exact ⟨_, rfl⟩
  · exact ⟨_, rfl⟩

/-- Without one, the end of the stream ends in an exception. -/
theorem exists_answer_iff {read : ReadOutcome} (hread : read.Expected lib) {e : JavaException}
    (hnull : onNull = .error e) :
    (∃ call, answer lib onNull onIOException read = .ok call) ↔ ¬ read.EndOfStream := by
  rcases read with (_ | line) | message
  · refine iff_of_false ?_ fun hend => hend trivial
    rintro ⟨call, hcall⟩
    rw [answer, hjson] at hcall
    rw [hnull] at hcall
    cases hcall
  · obtain ⟨potholes, hline⟩ := hread
    refine iff_of_true ?_ id
    rw [answer, hline]
    exact ⟨_, rfl⟩
  · exact iff_of_true ⟨_, rfl⟩ id

/-- **Which queries answer once.**  Those that get a connection and can close
it; and the query for a user, only if the server does not close without a
reply. -/
theorem answersOnce_iff (hread : network.onRead.Expected lib) (h : CustomHandler K L)
    (listener : L) (username date : Text) (latitude longitude range : K) :
    (h.AnswersOnce listener (h.dispatchUserPotholesByDays lib network username date listener) ↔
      network.onOpen = .succeeds ∧ network.onClose ≠ .inputThrows ∧
        ¬ network.onRead.EndOfStream) ∧
    (h.AnswersOnce listener
        (h.dispatchPotholesByRange lib network latitude longitude range listener) ↔
      network.onOpen = .succeeds ∧ network.onClose ≠ .inputThrows) := by
  constructor
  · rw [dispatchUserPotholesByDays, dispatch_answersOnce_iff, exists_answer_iff hjson hread rfl]
  · rw [dispatchPotholesByRange, dispatch_answersOnce_iff]
    have hanswer : ∃ call, answer lib (.ok (.onError none)) (fun _ => .onError none)
        network.onRead = .ok call := exists_answer hjson hread ⟨_, rfl⟩
    tauto

end Answer

/-! ## A server with one pothole, and one that closes without a reply -/

/-- A pothole of the leap day. -/
def leapPothole : Pothole Int where
  latitude := 41
  longitude := 14
  address := "Via Roma".toList
  user := "fab".toList
  intensity := 12
  timestamp := "29/02/2024".toList

/-- The line with the pothole. -/
def leapLine : Text :=
  ("[\x7b\"latitude\":41,\"longitude\":14,\"address\":\"Via Roma\",\"user\":\"fab\"," ++
    "\"timestamp\":\"29/02/2024\",\"intensity\":12\x7d]").toList

/-- Gson, as far as the line goes. -/
def leapGson : Libraries Int where
  toJson _ _ := "\x7b\x7d".toList
  fromJson
    | none => .ok none
    | some line => if line = leapLine then .ok (some [some leapPothole]) else .error .jsonSyntax
  toText n := (toString n).toList

/-- A server with the pothole. -/
def leapReply : Network := ⟨.succeeds, .returns (some leapLine), .succeeds⟩

theorem answersOnce_leapReply :
    (init : CustomHandler Int Unit).AnswersOnce () (init.dispatchUserPotholesByDays leapGson
      leapReply "fab".toList "14/03/2024".toList ()) := by
  have hread : leapReply.onRead.Expected leapGson := ⟨[some leapPothole], by simp [leapGson]⟩
  have hiff := (answersOnce_iff rfl hread init () "fab".toList "14/03/2024".toList 41 14 1000).1
  exact hiff.2 ⟨rfl, by decide, id⟩

/-- Neither is the listener told that there is no connection, nor does the query
for a user get over a missing reply. -/
theorem not_answersOnce_withoutReply :
    ¬ (init : CustomHandler Int Unit).AnswersOnce () (init.dispatchPotholesByRange leapGson
      ⟨.connectFails, .returns none, .succeeds⟩ 45 9 1000 ()) ∧
    ¬ (init : CustomHandler Int Unit).AnswersOnce () (init.dispatchUserPotholesByDays leapGson
      ⟨.succeeds, .returns none, .succeeds⟩ "fab".toList "14/03/2024".toList ()) := by
  constructor
  · rintro ⟨h', call, hresult, hcalls, -⟩
    have hsame : (init : CustomHandler Int Unit).dispatchPotholesByRange leapGson
      ⟨.connectFails, .returns none, .succeeds⟩ 45 9 1000 () = .ok init := rfl
    rw [hsame] at hresult
    cases hresult
    simp at hcalls
  · rintro ⟨h', call, hresult, -⟩
    have herror : (init : CustomHandler Int Unit).dispatchUserPotholesByDays leapGson
      ⟨.succeeds, .returns none, .succeeds⟩ "fab".toList "14/03/2024".toList () =
        .error .nullPointer := rfl
    rw [herror] at hresult
    cases hresult

end CustomHandler

end PotHub.App
