import PotHub.Server.Session

/-!
# How a message arrives

A message in several pieces, and a message with the close of the connection
right behind it.

Every piece is put to the front of the buffer, over what has come before it; so
only a message in one piece is there when the parser is called.  And when
`recv` tells that the client has closed, or fails, the run ends without a look
at the buffer.
-/

namespace PotHub.Server

open PotHub.Json PotHub.Lib

variable {D : Type}

/-- The text that `doWork` hands to `cJSON_Parse`. -/
def parsedText (buffer beyond : Text) (received : Received) : Text :=
  cString (readLoop buffer received.chunks ++ beyond)

theorem doWork_eq_serve (world : World D) (buffer beyond : Text) {received : Received}
    (h : received.last = .wouldBlock) :
    doWork world buffer beyond received = serve world (parsedText buffer beyond received) := by
  rw [doWork, h, parsedText]

theorem parsedText_eq (buffer beyond : Text) {received : Received}
    (h : '\x00' ∉ received.bytes) : parsedText buffer beyond received =
      received.bytes ++ cString (buffer.drop received.bytes.length ++ beyond) := by
  rw [parsedText, readLoop_eq, List.append_assoc, cString_append_of_not_mem h]

/-! ## The bytes of several chunks -/

theorem length_recvInto (buffer chunk : Text) :
    (recvInto buffer chunk).length = max buffer.length chunk.length := by
  simp only [recvInto, List.length_append, List.length_drop]
  omega

/-- Every chunk loses a byte at least. -/
theorem length_readLoop_add_le {front : Text} {chunks : List Text} (hfront : 0 < front.length)
    (hchunks : ∀ c ∈ chunks, 0 < c.length) :
    (readLoop front chunks).length + chunks.length ≤ front.length + chunks.flatten.length := by
  induction chunks generalizing front with
  | nil => simp [readLoop]
  | cons chunk chunks ih =>
      obtain ⟨hchunk, hrest⟩ := List.forall_mem_cons.1 hchunks
      have hlen := length_recvInto front chunk
      have := @ih (recvInto front chunk) (by omega) hrest
      simp only [readLoop, List.foldl_cons, List.length_cons, List.flatten_cons,
        List.length_append] at this ⊢
      omega

theorem mem_readLoop {front : Text} {chunks : List Text} {c : Char}
    (h : c ∈ readLoop front chunks) : c ∈ front ∨ c ∈ chunks.flatten := by
  induction chunks generalizing front with
  | nil => exact Or.inl h
  | cons chunk chunks ih =>
      rw [List.flatten_cons, List.mem_append]
      rcases @ih (recvInto front chunk) h with h | h
      · rcases List.mem_append.1 h with h | h
        · exact Or.inr (Or.inl h)
        · exact Or.inl (List.mem_of_mem_drop h)
      · exact Or.inr (Or.inr h)

/-! ## A message in pieces -/

/-- A message, and the chunks in which the calls of `recv` return it. -/
structure ChunkedMessage where
  message : Text
  noZero : '\x00' ∉ message
  length_lt : message.length < 1024
  chunks : List Text
  chunks_ne_nil : chunks ≠ []
  chunk_pos : ∀ c ∈ chunks, 0 < c.length
  flatten_eq : chunks.flatten = message

namespace ChunkedMessage

variable (d : ChunkedMessage)

theorem length_chunk_le {c : Text} (hc : c ∈ d.chunks) : c.length ≤ d.message.length := by
  rw [← d.flatten_eq]
  exact (List.sublist_flatten_of_mem hc).length_le

/-- What the calls of `recv` give, the last one included. -/
def received (last : RecvEnd) : Received where
  chunks := d.chunks
  chunk_pos := d.chunk_pos
  chunk_le _ hc := (d.length_chunk_le hc).trans d.length_lt.le
  last := last

theorem message_pos : 0 < d.message.length := by
  obtain ⟨c, rest, h⟩ := List.exists_cons_of_ne_nil d.chunks_ne_nil
  have hc : c ∈ d.chunks := h ▸ List.mem_cons_self
  exact (d.chunk_pos c hc).trans_le (d.length_chunk_le hc)

/-- A message in one chunk. -/
def single (message : Text) (hzero : '\x00' ∉ message) (hlt : message.length < 1024)
    (hpos : 0 < message.length) : ChunkedMessage where
  message := message
  noZero := hzero
  length_lt := hlt
  chunks := [message]
  chunks_ne_nil := List.cons_ne_nil _ _
  chunk_pos _ hc := List.mem_singleton.1 hc ▸ hpos
  flatten_eq := by simp

/-- The same message in one chunk. -/
def whole : ChunkedMessage := single d.message d.noZero d.length_lt d.message_pos

variable {d}

theorem chunks_eq_of_length (h : d.chunks.length = 1) : d.chunks = [d.message] := by
  obtain ⟨c, hc⟩ := List.length_eq_one_iff.1 h
  rw [← d.flatten_eq, hc]
  simp

theorem received_eq_whole (h : d.chunks.length = 1) (last : RecvEnd) :
    d.received last = d.whole.received last := by
  simp [received, whole, single, chunks_eq_of_length h]

theorem bytes_single {message : Text} (hzero : '\x00' ∉ message) (hlt : message.length < 1024)
    (hpos : 0 < message.length) (last : RecvEnd) :
    ((single message hzero hlt hpos).received last).bytes = message := by
  simp [Received.bytes, received, single, readLoop, recvInto]

/-- A message in one chunk is followed by what was behind it in the buffer. -/
theorem parsedText_single {message : Text} (hzero : '\x00' ∉ message)
    (hlt : message.length < 1024) (hpos : 0 < message.length) (buffer beyond : Text)
    (last : RecvEnd) : parsedText buffer beyond ((single message hzero hlt hpos).received last) =
      message ++ cString (buffer.drop message.length ++ beyond) := by
  have hbytes := bytes_single hzero hlt hpos last
  rw [parsedText_eq _ _ (by rwa [hbytes]), hbytes]

theorem noZero_bytes (last : RecvEnd) : '\x00' ∉ (d.received last).bytes := by
  intro h
  rcases mem_readLoop h with h | h
  · exact absurd h List.not_mem_nil
  · exact d.noZero (d.flatten_eq ▸ h)

theorem length_bytes_add_le (last : RecvEnd) :
    (d.received last).bytes.length + d.chunks.length ≤ d.message.length + 1 := by
  obtain ⟨c, rest, h⟩ := List.exists_cons_of_ne_nil d.chunks_ne_nil
  have hpos := d.chunk_pos
  have hfirst : recvInto [] c = c := by simp [recvInto]
  have hflat := d.flatten_eq
  rw [h] at hpos hflat
  have hlen := length_readLoop_add_le (hpos c List.mem_cons_self)
    fun x hx => hpos x (List.mem_cons_of_mem _ hx)
  rw [← hflat]
  simp only [Received.bytes, received, h, readLoop, List.foldl_cons, hfirst, List.flatten_cons,
    List.length_append, List.length_cons] at hlen ⊢
  omega

/-- In front of a buffer of zeros, no more than the received bytes are parsed. -/
theorem parsedText_zeros (beyond : Text) (last : RecvEnd) :
    parsedText (List.replicate bufferSize '\x00') beyond (d.received last) =
      (d.received last).bytes := by
  have hlen := length_bytes_add_le (d := d) last
  have hlt := d.length_lt
  have hchunks := List.length_pos_iff.2 d.chunks_ne_nil
  have hroom : (d.received last).bytes.length < bufferSize := by
    show _ < 1024
    omega
  rw [parsedText, readLoop_eq, List.append_assoc, cString_zeros (noZero_bytes last) (.inl hroom)]

/-- **One piece.**  Whatever the buffer holds on entry, the parsed text begins
with the message, and the run does what it does when the message comes in one
chunk, exactly when it comes in one chunk. -/
theorem reassembled_iff (world : World D) (d : ChunkedMessage) :
    (∀ buffer beyond : Text, buffer.length = bufferSize →
      d.message <+: parsedText buffer beyond (d.received .wouldBlock) ∧
      doWork world buffer beyond (d.received .wouldBlock) =
        doWork world buffer beyond (d.whole.received .wouldBlock)) ↔
    d.chunks.length = 1 := by
  constructor
  · intro h
    have hprefix := (h (List.replicate bufferSize '\x00') [] (List.length_replicate ..)).1
    rw [parsedText_zeros] at hprefix
    have hle := hprefix.length_le
    have hlen := length_bytes_add_le (d := d) .wouldBlock
    have hpos := List.length_pos_iff.2 d.chunks_ne_nil
    omega
  · intro h buffer beyond _
    rw [received_eq_whole h]
    refine ⟨?_, rfl⟩
    rw [whole, parsedText_single]
    exact List.prefix_append _ _

end ChunkedMessage

/-- A request of the 14 days, in two pieces. -/
def inTwoPieces : ChunkedMessage where
  message := earlierRequest
  noZero := by decide +kernel
  length_lt := by decide +kernel
  chunks := [earlierRequest.take 11, earlierRequest.drop 11]
  chunks_ne_nil := List.cons_ne_nil _ _
  chunk_pos := by decide +kernel
  flatten_eq := by simp

theorem not_reassembled_of_inTwoPieces : ∃ buffer : Text, buffer.length = bufferSize ∧
    ¬ inTwoPieces.message <+: parsedText buffer [] (inTwoPieces.received .wouldBlock) ∧
    (doWork noReports buffer [] (inTwoPieces.received .wouldBlock)).calls = [] ∧
    (doWork noReports buffer [] (inTwoPieces.whole.received .wouldBlock)).calls =
      [.getUserPotholesBy14DaysJson (some "u".toList) (some "01/01/2024".toList)] := by
  refine ⟨List.replicate bufferSize '\x00', List.length_replicate .., ?_, ?_, ?_⟩ <;>
    decide +kernel

/-! ## A message in front of a close -/

/-- A complete request: the text of an object. -/
structure RequestText (m : Doubles D) where
  text : Text
  noZero : '\x00' ∉ text
  length_lt : text.length < 1024
  isObject : ∃ members, cJSON_Parse m text = some (.object members)

variable {m : Doubles D}

theorem RequestText.text_pos (r : RequestText m) : 0 < r.text.length := by
  refine List.length_pos_iff.2 ?_
  intro h
  obtain ⟨members, hparse⟩ := r.isObject
  simp [h, cJSON_Parse_nil] at hparse

/-- The request, in one chunk. -/
def RequestText.delivery (r : RequestText m) : ChunkedMessage :=
  .single r.text r.noZero r.length_lt r.text_pos

variable (world : World D)

theorem doWork_of_ne_wouldBlock {received : Received} (h : received.last ≠ .wouldBlock)
    (buffer beyond : Text) : doWork world buffer beyond received = ⟨[], [], true⟩ := by
  cases hlast : received.last with
  | wouldBlock => exact absurd hlast h
  | failed => simp [doWork, hlast]
  | closed => simp [doWork, hlast]

theorem doWork_calls_of_wouldBlock (r : RequestText world.doubles) (buffer beyond : Text) :
    (doWork world buffer beyond (r.delivery.received .wouldBlock)).calls =
      (request world.doubles r.text).toList := by
  obtain ⟨members, hparse⟩ := r.isObject
  rw [doWork_eq_serve _ _ _ rfl, serve_calls, RequestText.delivery,
    ChunkedMessage.parsedText_single, request_append hparse]

/-- **A message in front of a close.**  When the client closes right behind a
request, or `recv` fails there, the run makes the calls that it makes otherwise,
and closes, exactly when the request asks for no call. -/
theorem calls_at_close_iff (r : RequestText world.doubles) (buffer beyond : Text)
    {last : RecvEnd} (hlast : last ≠ .wouldBlock) :
    ((doWork world buffer beyond (r.delivery.received last)).calls =
        (doWork world buffer beyond (r.delivery.received .wouldBlock)).calls ∧
      (doWork world buffer beyond (r.delivery.received last)).closeConn = true) ↔
    request world.doubles r.text = none := by
  have hne : (r.delivery.received last).last ≠ .wouldBlock := hlast
  rw [doWork_of_ne_wouldBlock world hne, doWork_calls_of_wouldBlock]
  constructor
  · rintro ⟨hcalls, -⟩
    exact Option.toList_eq_nil_iff.1 hcalls.symm
  · intro hnone
    exact ⟨(Option.toList_eq_nil_iff.2 hnone).symm, rfl⟩

/-- The last report of a session. -/
def lastReport : RequestText noReports.doubles where
  text := plainReport.text
  noZero := plainReport.noZero
  length_lt := by decide +kernel
  isObject := exists_object_of_request plainReport.reads

theorem calls_of_lastReport : ∃ buffer : Text, buffer.length = bufferSize ∧
    (doWork noReports buffer [] (lastReport.delivery.received .wouldBlock)).calls =
      [.reportPothole plainReport.pothole] ∧
    (doWork noReports buffer [] (lastReport.delivery.received .closed)).calls = [] ∧
    (doWork noReports buffer [] (lastReport.delivery.received .failed)).calls = [] := by
  refine ⟨List.replicate bufferSize '\x00', List.length_replicate .., ?_, rfl, rfl⟩
  have hreads : request noReports.doubles lastReport.text =
      some (.reportPothole plainReport.pothole) := plainReport.reads
  rw [doWork_calls_of_wouldBlock, hreads]
  rfl

/-- A request of the 14 days without a date. -/
def withoutDate : RequestText noReports.doubles where
  text := "\x7b\"action\":2,\"user\":\"u\"\x7d".toList
  noZero := by decide
  length_lt := by decide
  isObject := exists_object_of_action (by decide +kernel)

theorem calls_at_close_of_withoutDate : ∃ buffer : Text, buffer.length = bufferSize ∧
    (doWork noReports buffer [] (withoutDate.delivery.received .closed)).calls =
      (doWork noReports buffer [] (withoutDate.delivery.received .wouldBlock)).calls ∧
    (doWork noReports buffer [] (withoutDate.delivery.received .closed)).closeConn = true :=
  ⟨List.replicate bufferSize '\x00', List.length_replicate ..,
    (calls_at_close_iff noReports withoutDate _ [] (by decide)).2 (by decide +kernel)⟩

end PotHub.Server
