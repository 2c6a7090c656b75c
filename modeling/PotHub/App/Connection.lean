import PotHub.App.Detector
import PotHub.App.QueryText
import Mathlib.Algebra.Ring.Int.Defs

/-!
# The handler of the connection

`CustomHandler` with its five messages.  What the network does is part of the
message, and a connection is known by its place among those made so far.

`openConnectionWithServer` sets three fields in turn and may fail between them.
The two queries go on only where it returns `true`; `handleMessage` forgets what
it returns.  So a tracking session is free of null pointers when everything has
been opened, and else only where it has nothing to report
(`session_null_free_iff`).
-/

namespace PotHub.App

open PotHub.Json

variable {K L : Type}

/-! ## The network and the libraries -/

/-- Where `openConnectionWithServer` gets to. -/
inductive OpenOutcome
  /-- The `Socket` is not created. -/
  | connectFails
  /-- `getInputStream` throws. -/
  | inputFails
  /-- `getOutputStream` throws. -/
  | outputFails
  | succeeds
deriving DecidableEq, Repr

/-- What `readLine` does. -/
inductive ReadOutcome
  /-- It returns a line, or null at the end of the stream. -/
  | returns (line : Option Text)
  /-- An `IOException` with its message. -/
  | ioException (message : Option Text)

/-- What the calls of `close` do; the one of the output stream never throws. -/
inductive CloseOutcome
  | inputThrows
  | socketThrows
  | succeeds
deriving DecidableEq, Repr

/-- What the network does while a message is handled. -/
structure Network where
  onOpen : OpenOutcome
  onRead : ReadOutcome
  onClose : CloseOutcome

/-- What the handler uses of the libraries. -/
structure Libraries (K : Type) where
  /-- `gson.toJson`, for the field `action` and the others. -/
  toJson : ℕ → Pothole K → Text
  /-- `gson.fromJson` for an array of potholes; an entry may be null. -/
  fromJson : Option Text → Except JavaException (Option (List (Option (Pothole K))))
  /-- The text of a `double`. -/
  toText : K → Text

/-- The constant `REPORT_POTHOLE`. -/
def reportPotholeAction : ℕ := 1

/-! ## The handler -/

/-- A connection with the server. -/
structure Connection where
  /-- What has been written to it. -/
  written : Text
  closed : Bool
deriving DecidableEq

/-- A call of the listener of a query. -/
inductive ListenerCall (K : Type)
  | onPotholesLoaded (potholes : List (Option (Pothole K)))
  | onError (message : Option Text)

/-- The fields of the handler, `none` where they are null, and what it has done.
A socket and a stream are those of the connection with the number. -/
structure CustomHandler (K L : Type) where
  socket : Option ℕ
  inputStream : Option ℕ
  outputStream : Option ℕ
  /-- The connections so far. -/
  connections : List Connection
  /-- The static `LiveMapActivity.potholesDetected`. -/
  potholesDetected : ℕ
  /-- The calls of the listeners so far. -/
  calls : List (L × ListenerCall K)

/-- The messages, with what they carry. -/
inductive Message (K L : Type)
  | openConnectionWithServer
  | reportPothole (pothole : Pothole K)
  | closeConnectionWithServer
  | getUserPotholesByDays (username date : Text) (listener : L)
  | getPotholesByRange (latitude longitude meters : K) (listener : L)

/-- What `dispatchPotholesByRange` writes. -/
def rangeQueryText (lib : Libraries K) (latitude longitude range : K) : Text :=
  "\x7b\"action\":3,\"latitude\":".toList ++ lib.toText latitude ++ ",\"longitude\":".toList ++
    lib.toText longitude ++ ",\"range\":".toList ++ lib.toText range ++ "\x7d".toList

namespace CustomHandler

/-- A new handler. -/
def init : CustomHandler K L := ⟨none, none, none, [], 0, []⟩

/-- What it returns, and the fields as far as they have been set. -/
def openConnectionWithServer (outcome : OpenOutcome) (h : CustomHandler K L) :
    Bool × CustomHandler K L :=
  let number := h.connections.length
  let created :=
    { h with connections := h.connections ++ [⟨[], false⟩], socket := some number }
  match outcome with
  | .connectFails => (false, h)
  | .inputFails => (false, created)
  | .outputFails => (false, { created with inputStream := some number })
  | .succeeds =>
      (true, { created with inputStream := some number, outputStream := some number })

/-- `output_stream.write` and `output_stream.flush`. -/
def write (text : Text) (h : CustomHandler K L) : Except JavaException (CustomHandler K L) :=
  match h.outputStream with
  | none => .error .nullPointer
  | some number => .ok { h with
      connections := h.connections.modify number fun c =>
        if c.closed then c else { c with written := c.written ++ text } }

def reportPotHole (lib : Libraries K) (pothole : Pothole K) (h : CustomHandler K L) :
    Except JavaException (CustomHandler K L) :=
  { h with potholesDetected := h.potholesDetected + 1 }.write
    (lib.toJson reportPotholeAction pothole)

/-- The connection with the number is closed. -/
def closed (number : ℕ) (h : CustomHandler K L) : CustomHandler K L :=
  { h with connections := h.connections.modify number fun c => { c with closed := true } }

/-- A socket that has been created stays connected, also when it is closed. -/
def closeConnectionWithServer (outcome : CloseOutcome) (h : CustomHandler K L) :
    Except JavaException (CustomHandler K L) :=
  match h.socket with
  | none => .ok h
  | some socket =>
      match h.inputStream with
      | none => .error .nullPointer
      | some input =>
          -- the first exception leaves out the other calls
          if outcome = .inputThrows then .ok h
          else
            match h.outputStream with
            | none => .error .nullPointer
            | some output =>
                if outcome = .socketThrows then .ok ((h.closed input).closed output)
                else .ok (((h.closed input).closed output).closed socket)

/-- `input_stream.readLine`; a null input stream ends in an exception. -/
def readLine (outcome : ReadOutcome) (h : CustomHandler K L) : Except JavaException ReadOutcome :=
  match h.inputStream with
  | none => .error .nullPointer
  | some _ => .ok outcome

/-- What the listener is told of a line: `onNull` is what is done with a null
array, `onIOException` what it is told of an `IOException`. -/
def answer (lib : Libraries K) (onNull : Except JavaException (ListenerCall K))
    (onIOException : Option Text → ListenerCall K) :
    ReadOutcome → Except JavaException (ListenerCall K)
  | .returns json => (lib.fromJson json).bind fun
      | some potholes => .ok (.onPotholesLoaded potholes)
      | none => onNull
  | .ioException message => .ok (onIOException message)

/-- The listener is called. -/
def tell (listener : L) (call : ListenerCall K) (h : CustomHandler K L) : CustomHandler K L :=
  { h with calls := h.calls ++ [(listener, call)] }

/-- What the two queries have in common. -/
def dispatch (lib : Libraries K) (network : Network) (text : Text)
    (onNull : Except JavaException (ListenerCall K)) (onIOException : Option Text → ListenerCall K)
    (listener : L) (h : CustomHandler K L) : Except JavaException (CustomHandler K L) :=
  let opened := h.openConnectionWithServer network.onOpen
  if opened.1 then
    (opened.2.write text).bind fun h =>
      (h.readLine network.onRead).bind fun read =>
        (answer lib onNull onIOException read).bind fun call =>
          (h.tell listener call).closeConnectionWithServer network.onClose
  else .ok opened.2

/-- The length of the array is read without a check for null. -/
def dispatchUserPotholesByDays (lib : Libraries K) (network : Network) (username date : Text) :
    L → CustomHandler K L → Except JavaException (CustomHandler K L) :=
  dispatch lib network (userQueryText username date) (.error .nullPointer) .onError

def dispatchPotholesByRange (lib : Libraries K) (network : Network) (latitude longitude range : K) :
    L → CustomHandler K L → Except JavaException (CustomHandler K L) :=
  dispatch lib network (rangeQueryText lib latitude longitude range) (.ok (.onError none))
    fun _ => .onError none

/-- The result of `openConnectionWithServer` is not used here. -/
def handleMessage (lib : Libraries K) (network : Network) (message : Message K L)
    (h : CustomHandler K L) : Except JavaException (CustomHandler K L) :=
  match message with
  | .openConnectionWithServer => .ok (h.openConnectionWithServer network.onOpen).2
  | .reportPothole pothole => h.reportPotHole lib pothole
  | .getUserPotholesByDays username date listener =>
      h.dispatchUserPotholesByDays lib network username date listener
  | .closeConnectionWithServer => h.closeConnectionWithServer network.onClose
  | .getPotholesByRange latitude longitude meters listener =>
      h.dispatchPotholesByRange lib network latitude longitude meters listener

/-- The messages of a queue one after the other, up to the first exception. -/
def handleMessages (lib : Libraries K) :
    List (Network × Message K L) → CustomHandler K L → Except JavaException (CustomHandler K L)
  | [], h => .ok h
  | (network, message) :: queue, h =>
      (h.handleMessage lib network message).bind (handleMessages lib queue)

/-! ## Which messages meet a null pointer -/

variable {lib : Libraries K} {network : Network} {h h' : CustomHandler K L}

/-- The two have the same socket and the same streams. -/
structure SameFields (h h' : CustomHandler K L) : Prop where
  socket : h'.socket = h.socket
  inputStream : h'.inputStream = h.inputStream
  outputStream : h'.outputStream = h.outputStream

theorem SameFields.trans {h'' : CustomHandler K L} (hf : SameFields h h')
    (hf' : SameFields h' h'') : SameFields h h'' :=
  ⟨hf'.socket.trans hf.socket, hf'.inputStream.trans hf.inputStream,
    hf'.outputStream.trans hf.outputStream⟩

theorem write_of_null {text : Text} (hnull : h.outputStream = none) :
    h.write text = .error .nullPointer := by
  simp only [write, hnull]

theorem write_of_output (text : Text) {number : ℕ} (houtput : h.outputStream = some number) :
    ∃ h', h.write text = .ok h' ∧ SameFields h h' := by
  simp only [write, houtput]
  exact ⟨_, rfl, rfl, rfl, houtput.symm⟩

/-- The socket is checked for null, the streams are not; a failure of the first
`close` leaves the output stream alone. -/
theorem closeConnectionWithServer_null_iff {outcome : CloseOutcome} :
    h.closeConnectionWithServer outcome = .error .nullPointer ↔
      h.socket ≠ none ∧
        (h.inputStream = none ∨ outcome ≠ .inputThrows ∧ h.outputStream = none) := by
  rw [closeConnectionWithServer]
  cases h.socket with
  | none => simp
  | some socket =>
      cases h.inputStream with
      | none => simp
      | some input => cases outcome <;> cases h.outputStream <;> simp

theorem reportPotHole_of_null {pothole : Pothole K} (hnull : h.outputStream = none) :
    h.reportPotHole lib pothole = .error .nullPointer :=
  write_of_null hnull

theorem reportPotHole_of_output (lib : Libraries K) (pothole : Pothole K) {number : ℕ}
    (houtput : h.outputStream = some number) :
    ∃ h', h.reportPotHole lib pothole = .ok h' ∧ SameFields h h' := by
  obtain ⟨h', hwrite, hf⟩ :=
    write_of_output (h := { h with potholesDetected := h.potholesDetected + 1 })
      (lib.toJson reportPotholeAction pothole) houtput
  exact ⟨h', hwrite, hf.socket, hf.inputStream, hf.outputStream⟩

/-- Where `openConnectionWithServer` returns `true`, everything is open. -/
theorem openConnectionWithServer_true {outcome : OpenOutcome}
    (hopen : (h.openConnectionWithServer outcome).1 = true) :
    ∃ number, (h.openConnectionWithServer outcome).2.socket = some number ∧
      (h.openConnectionWithServer outcome).2.inputStream = some number ∧
      (h.openConnectionWithServer outcome).2.outputStream = some number := by
  cases outcome with
  | connectFails => cases hopen
  | inputFails => cases hopen
  | outputFails => cases hopen
  | succeeds => exact ⟨h.connections.length, rfl, rfl, rfl⟩

/-- What is free of null pointers, continued without one. -/
theorem bind_null_free {α β : Type} {x : Except JavaException α} {f : α → Except JavaException β}
    (hx : x ≠ .error .nullPointer) (hf : ∀ a, x = .ok a → f a ≠ .error .nullPointer) :
    x.bind f ≠ .error .nullPointer := by
  cases x with
  | ok a => exact hf a rfl
  | error e => simpa [Except.bind] using hx

/-- The queries look at what `openConnectionWithServer` returns, and find the
streams open. -/
theorem dispatch_null_free {text : Text} {onNull : Except JavaException (ListenerCall K)}
    {onIOException : Option Text → ListenerCall K} {listener : L}
    (hjson : ∀ json, lib.fromJson json ≠ .error .nullPointer)
    (hnull : onNull ≠ .error .nullPointer) :
    h.dispatch lib network text onNull onIOException listener ≠ .error .nullPointer := by
  rw [dispatch]
  by_cases hopen : (h.openConnectionWithServer network.onOpen).1 = true
  · obtain ⟨number, hsocket, hinput, houtput⟩ := openConnectionWithServer_true hopen
    obtain ⟨h₁, hwrite, hf⟩ := write_of_output text houtput
    have hread : h₁.readLine network.onRead = .ok network.onRead := by
      rw [readLine, hf.inputStream, hinput]
    have hanswer : answer lib onNull onIOException network.onRead ≠ .error .nullPointer := by
      cases network.onRead with
      | ioException message => simp [answer]
      | returns json =>
          refine bind_null_free (hjson json) fun array _ => ?_
          cases array with
          | none => exact hnull
          | some potholes => simp
    simp only [hopen, if_true, hwrite]
    -- from here on the streams are those that have been opened
    show (h₁.readLine network.onRead).bind _ ≠ _
    rw [hread]
    show (answer lib onNull onIOException network.onRead).bind _ ≠ _
    refine bind_null_free hanswer fun call _ => ?_
    rw [Ne, closeConnectionWithServer_null_iff]
    show ¬ (_ ∧ (h₁.inputStream = none ∨ _ ∧ h₁.outputStream = none))
    rw [hf.inputStream, hf.outputStream, hinput, houtput]
    simp
  · simp [hopen]

/-- The query that handles a null array answers in every case. -/
theorem dispatchPotholesByRange_null_free {latitude longitude range : K} {listener : L}
    (hjson : ∀ json, lib.fromJson json ≠ .error .nullPointer) :
    h.dispatchPotholesByRange lib network latitude longitude range listener ≠
      .error .nullPointer :=
  dispatch_null_free hjson (by simp)

/-- The reports of a session. -/
def reporting (reports : List (Network × Pothole K)) : List (Network × Message K L) :=
  reports.map fun r => (r.1, .reportPothole r.2)

/-- With an output stream every report is written. -/
theorem handleMessages_reporting (lib : Libraries K) (reports : List (Network × Pothole K))
    {number : ℕ} (houtput : h.outputStream = some number) (queue : List (Network × Message K L)) :
    ∃ h', SameFields h h' ∧
      handleMessages lib (reporting reports ++ queue) h = handleMessages lib queue h' := by
  induction reports generalizing h with
  | nil => exact ⟨h, ⟨rfl, rfl, rfl⟩, rfl⟩
  | cons report reports ih =>
      obtain ⟨h₁, hreport, hf₁⟩ := reportPotHole_of_output lib report.2 houtput
      obtain ⟨h₂, hf₂, heq⟩ := ih (hf₁.outputStream.trans houtput)
      refine ⟨h₂, hf₁.trans hf₂, ?_⟩
      show (h.reportPotHole lib report.2).bind _ = _
      rw [hreport]
      exact heq

/-- Without one the first report ends the run. -/
theorem handleMessages_reporting_null {reports : List (Network × Pothole K)}
    (hnull : h.outputStream = none) (hreports : reports ≠ [])
    (queue : List (Network × Message K L)) :
    handleMessages lib (reporting reports ++ queue) h = .error .nullPointer := by
  obtain ⟨report, reports, rfl⟩ := List.exists_cons_of_ne_nil hreports
  show (h.reportPotHole lib report.2).bind _ = _
  rw [reportPotHole_of_null hnull]
  rfl

/-! ## A tracking session -/

/-- The messages of a tracking session: the connection is opened, the potholes
are reported, and the connection is closed. -/
def trackingSession (atOpen atClose : Network) (reports : List (Network × Pothole K)) :
    List (Network × Message K L) :=
  (atOpen, .openConnectionWithServer) ::
    (reporting reports ++ [(atClose, .closeConnectionWithServer)])

/-- The messages without what the network does. -/
def sessionMessages (reports : List (Pothole K)) : List (Message K L) :=
  .openConnectionWithServer :: (reports.map .reportPothole ++ [.closeConnectionWithServer])

theorem trackingSession_map_snd (atOpen atClose : Network)
    (reports : List (Network × Pothole K)) :
    (trackingSession atOpen atClose reports : List (Network × Message K L)).map Prod.snd =
      sessionMessages (reports.map Prod.snd) := by
  simp [trackingSession, reporting, sessionMessages, Function.comp_def]

/-- No null pointer is met in the session. -/
def NullFree (lib : Libraries K) (session : List (Network × Message K L)) : Prop :=
  handleMessages lib session init ≠ .error .nullPointer

/-- The last message of a session. -/
theorem handleMessages_close (lib : Libraries K) (atClose : Network) :
    handleMessages lib [(atClose, .closeConnectionWithServer)] h =
      h.closeConnectionWithServer atClose.onClose := by
  show (h.closeConnectionWithServer atClose.onClose).bind _ = _
  cases h.closeConnectionWithServer atClose.onClose <;> rfl

/-- Without an output stream there must be nothing to report, and nothing to
close, or closing fails at once. -/
theorem nullFree_iff_of_null {atOpen atClose : Network} {reports : List (Network × Pothole K)}
    (hnull : ((init : CustomHandler K L).openConnectionWithServer
      atOpen.onOpen).2.outputStream = none) :
    NullFree (L := L) lib (trackingSession atOpen atClose reports) ↔
      reports = [] ∧ ((init : CustomHandler K L).openConnectionWithServer
        atOpen.onOpen).2.closeConnectionWithServer atClose.onClose ≠ .error .nullPointer := by
  by_cases hreports : reports = []
  · subst hreports
    rw [← handleMessages_close lib, eq_self, true_and]
    rfl
  · have herror : handleMessages lib (trackingSession atOpen atClose reports)
        (init : CustomHandler K L) = .error .nullPointer :=
      handleMessages_reporting_null hnull hreports _
    simp [NullFree, herror, hreports]

/-- **Null pointers in a tracking session.**  None is met exactly when the
connection and its streams are opened, or there is nothing to report and
nothing to close, or closing fails before the output stream is looked at. -/
theorem session_null_free_iff (lib : Libraries K) (atOpen atClose : Network)
    (reports : List (Network × Pothole K)) :
    NullFree (L := L) lib (trackingSession atOpen atClose reports) ↔
      atOpen.onOpen = .succeeds ∨
      reports = [] ∧ (atOpen.onOpen = .connectFails ∨
        atOpen.onOpen = .outputFails ∧ atClose.onClose = .inputThrows) := by
  cases hopen : atOpen.onOpen with
  | succeeds =>
      have houtput : ((init : CustomHandler K L).openConnectionWithServer
          .succeeds).2.outputStream = some 0 := rfl
      obtain ⟨h', hf, heq⟩ :=
        handleMessages_reporting lib reports houtput [(atClose, .closeConnectionWithServer)]
      have hsession : handleMessages lib (trackingSession atOpen atClose reports) init =
          h'.closeConnectionWithServer atClose.onClose := by
        rw [← handleMessages_close lib, ← heq]
        show handleMessages lib _ (init.openConnectionWithServer atOpen.onOpen).2 = _
        rw [hopen]
      rw [NullFree, hsession, Ne, closeConnectionWithServer_null_iff, hf.inputStream,
        hf.outputStream]
      simp [openConnectionWithServer]
  | connectFails =>
      rw [nullFree_iff_of_null (by rw [hopen]; rfl), hopen, Ne, closeConnectionWithServer_null_iff]
      simp [openConnectionWithServer, init]
  | inputFails =>
      rw [nullFree_iff_of_null (by rw [hopen]; rfl), hopen, Ne, closeConnectionWithServer_null_iff]
      simp [openConnectionWithServer, init]
  | outputFails =>
      rw [nullFree_iff_of_null (by rw [hopen]; rfl), hopen, Ne, closeConnectionWithServer_null_iff]
      simp [openConnectionWithServer, init]

/-- The server is not there, and a pothole is reported. -/
theorem not_session_null_free_of_connectFails :
    ¬ NullFree (L := Unit)
      { toJson := fun _ _ => [], fromJson := fun _ => .ok none, toText := fun _ => [] }
      (trackingSession ⟨.connectFails, .returns none, .succeeds⟩
        ⟨.connectFails, .returns none, .succeeds⟩
        [(⟨.connectFails, .returns none, .succeeds⟩,
          (⟨45, 9, "Milano#IT".toList, "ann".toList, 1, "01/01/2022".toList⟩ : Pothole ℤ))]) :=
  fun h => h rfl

end CustomHandler

end PotHub.App
