import PotHub.App.Connection
import PotHub.Json.PrintBuffer
import PotHub.Server.Replies

/-!
# A reply on its way

From the block that the printer returns to the line that the client reads: the
reply loop of the server, the bytes on their way, and the one call of `readLine`
that a query makes.

The client goes by the first endline, or by the end of the stream.  The text of a
tree has no endline in it, so what ends with one is the whole reply; what ends
with the stream is a part of it that is no JSON text, unless the endline is all
that is missing.
-/

namespace PotHub.Server.ReplyLoop

open PotHub.Json

variable {message : Text} {s : ReplyLoop}

/-- What a call of `send` takes. -/
def bytesTaken (s : ReplyLoop) : SendResult → Text
  | .sent bytes => (s.block.drop s.offset).take bytes
  | .wouldBlock | .failed => []

theorem taken_next (s : ReplyLoop) (r : SendResult) :
    (s.next r).taken = s.taken ++ s.bytesTaken r := by
  cases r <;> simp [next, again, bytesTaken]

theorem Sent.taken_of_remaining (h : s.Sent message) (hzero : s.bytesRemaining = 0) :
    s.taken = message ++ ['\n'] := by
  have hadd := h.offset_add
  rw [h.taken, List.take_of_length_le]
  simp only [List.length_append, List.length_singleton]
  omega

theorem Sent.taken_of_done (h : s.Sent message) (hdone : s.status = .done) :
    s.taken = message ++ ['\n'] := h.taken_of_remaining (h.done hdone)

theorem Sent.taken_prefix (h : s.Sent message) : s.taken <+: message ++ ['\n'] :=
  h.taken ▸ List.take_prefix _ _

end PotHub.Server.ReplyLoop

namespace PotHub.App

open PotHub.Json PotHub.Lib PotHub.Server

/-- The characters that end a line for `readLine`. -/
def endsLine (c : Char) : Bool := c = '\n' || c = '\r'

/-- What `readLine` returns for the bytes that have been received; `none` while it
waits for more. -/
def lineOf (received : Text) (atEnd : Bool) : Option (Option Text) :=
  if received.any endsLine then some (some (received.takeWhile fun c => !endsLine c))
  else if atEnd then some (if received = [] then none else some received)
  else none

/-- A reply on its way. -/
structure Exchange where
  /-- The server's side. -/
  loop : ReplyLoop
  /-- The server has closed the connection. -/
  closed : Bool
  /-- The bytes that the client has not received. -/
  inFlight : Text
  /-- The bytes in the buffer of the client's reader. -/
  received : Text
  /-- What `readLine` has done, if it has returned. -/
  read : Option ReadOutcome

/-- Who moves. -/
inductive Move
  /-- The server calls `send`. -/
  | send (result : SendResult)
  /-- The server closes the connection, behind the loop. -/
  | close
  /-- The client receives bytes. -/
  | deliver (bytes : ℕ)
  /-- `readLine` returns. -/
  | readLine
  /-- The connection breaks down. -/
  | reset (message : Option Text)

/-- The moves of an exchange in which nothing fails. -/
def Move.Regular : Move → Prop
  | .send (.sent _) | .deliver _ | .readLine => True
  | _ => False

namespace Exchange

/-- The client has received all that it will receive. -/
def atEnd (s : Exchange) : Bool := s.closed && s.inFlight.isEmpty

/-- A move, where it is possible. -/
def step (s : Exchange) : Move → Option Exchange
  | .send result =>
      if s.loop.status = .sending then
        some { s with
          loop := s.loop.next result
          inFlight := s.inFlight ++ s.loop.bytesTaken result }
      else none
  | .close => if s.loop.status = .sending then none else some { s with closed := true }
  | .deliver bytes =>
      some { s with
        received := s.received ++ s.inFlight.take bytes
        inFlight := s.inFlight.drop bytes }
  | .readLine =>
      if s.read.isSome then none
      else (lineOf s.received s.atEnd).map fun line => { s with read := some (.returns line) }
  | .reset message =>
      if s.read.isSome then none else some { s with read := some (.ioException message) }

/-- The exchange, for the block that the server sends. -/
def machine (block : Text) : Machine Exchange Move where
  init := { loop := .start block, closed := false, inFlight := [], received := [], read := none }
  step := step

/-- `send` takes no more than it is offered. -/
def Allowed (s : Exchange) : Move → Prop
  | .send result => s.loop.Offered result
  | _ => True

instance (s : Exchange) : DecidablePred s.Allowed
  | .send result => inferInstanceAs (Decidable (s.loop.Offered result))
  | .close | .deliver _ | .readLine | .reset _ => inferInstanceAs (Decidable True)

/-- What the client may have read of the message. -/
def Explained (s : Exchange) (message : Text) : ReadOutcome → Prop
  | .returns (some line) =>
      line = message ∨ s.loop.status = .failed ∧ line <+: message
  | .returns none => s.loop.status = .failed ∧ s.loop.taken = []
  | .ioException _ => True

/-- No byte gets lost or comes out of order, and the client has read what the
server has sent. -/
structure InOrder (message : Text) (s : Exchange) : Prop where
  sent : s.loop.Sent message
  taken : s.loop.taken = s.received ++ s.inFlight
  closed : s.closed = true → s.loop.status ≠ .sending
  read : ∀ outcome ∈ s.read, s.Explained message outcome

/-- The text has no character that ends a line. -/
def OneLine (message : Text) : Prop := ∀ c ∈ message, endsLine c = false

variable {message received : Text} {s s' : Exchange}

theorem any_endsLine_of_oneLine (h : OneLine message) : message.any endsLine = false := by
  rw [List.any_eq_false]
  intro c hc
  simp [h c hc]

theorem takeWhile_of_oneLine (h : OneLine message) (rest : Text) :
    (message ++ '\n' :: rest).takeWhile (fun c => !endsLine c) = message := by
  rw [List.takeWhile_append_of_pos fun c hc => by simp [h c hc],
    List.takeWhile_cons_of_neg (by decide), List.append_nil]

/-- A line that has been received is the whole message. -/
theorem lineOf_of_any (h : OneLine message) (hpart : received <+: message ++ ['\n'])
    (hany : received.any endsLine = true) (atEnd : Bool) :
    lineOf received atEnd = some (some message) := by
  rcases List.prefix_concat_iff.1 hpart with rfl | hpart
  · rw [lineOf, if_pos hany, takeWhile_of_oneLine h]
  · have hnone : OneLine received := fun c hc => h c (hpart.subset hc)
    rw [any_endsLine_of_oneLine hnone] at hany
    exact absurd hany (by simp)

theorem prefix_of_not_any (hpart : received <+: message ++ ['\n'])
    (hany : received.any endsLine = false) : received <+: message := by
  refine (List.prefix_concat_iff.1 hpart).resolve_left ?_
  rintro rfl
  simp [endsLine] at hany

theorem InOrder.received_prefix (h : s.InOrder message) : s.received <+: message ++ ['\n'] :=
  (h.taken ▸ List.prefix_append _ _ : s.received <+: s.loop.taken).trans h.sent.taken_prefix

theorem inOrder_init (hzero : '\x00' ∉ message) :
    (machine (message ++ ['\x00'])).init.InOrder message where
  sent := .start hzero
  taken := rfl
  closed := by simp [machine]
  read := by simp [machine]

/-- What `readLine` returns is explained by what has been sent. -/
theorem InOrder.explained (h : s.InOrder message) (hone : OneLine message) {line : Option Text}
    (hline : lineOf s.received s.atEnd = some line) : s.Explained message (.returns line) := by
  by_cases hany : s.received.any endsLine = true
  · rw [lineOf_of_any hone h.received_prefix hany] at hline
    obtain rfl := Option.some.inj hline
    exact .inl rfl
  · rw [Bool.not_eq_true] at hany
    rw [lineOf, if_neg (by simp [hany])] at hline
    split_ifs at hline with hend hempty
    all_goals
      simp only [atEnd, Bool.and_eq_true, List.isEmpty_iff] at hend
      obtain ⟨hclosed, hflight⟩ := hend
      have htaken : s.loop.taken = s.received := by rw [h.taken, hflight, List.append_nil]
      -- the loop has not been left behind its last byte, which is an endline
      have hfailed : s.loop.status = .failed := by
        cases hstatus : s.loop.status with
        | sending => exact absurd hstatus (h.closed hclosed)
        | failed => rfl
        | done =>
            have hall := h.sent.taken_of_done hstatus
            rw [htaken] at hall
            rw [hall] at hany
            simp [endsLine] at hany
      obtain rfl := Option.some.inj hline
    · exact ⟨hfailed, htaken.trans hempty⟩
    · exact .inr ⟨hfailed, prefix_of_not_any h.received_prefix hany⟩

theorem InOrder.step (h : s.InOrder message) (hone : OneLine message) {move : Move}
    (hallowed : s.Allowed move) (hstep : s.step move = some s') : s'.InOrder message := by
  cases move with
  | send result =>
      simp only [Exchange.step] at hstep
      split_ifs at hstep with hsending
      obtain rfl := Option.some.inj hstep
      refine ⟨h.sent.next hallowed, ?_, fun hclosed => absurd hsending (h.closed hclosed), ?_⟩
      · show (s.loop.next result).taken = s.received ++ (s.inFlight ++ s.loop.bytesTaken result)
        rw [ReplyLoop.taken_next, h.taken, List.append_assoc]
      · intro outcome houtcome
        have hread := h.read outcome houtcome
        have hne : s.loop.status ≠ .failed := by simp [hsending]
        cases outcome with
        | ioException message => trivial
        | returns line =>
            cases line with
            | none => exact absurd hread.1 hne
            | some line => exact .inl (hread.resolve_right fun hfailed => hne hfailed.1)
  | close =>
      simp only [Exchange.step] at hstep
      split_ifs at hstep with hsending
      obtain rfl := Option.some.inj hstep
      exact ⟨h.sent, h.taken, fun _ => hsending, h.read⟩
  | deliver bytes =>
      obtain rfl := Option.some.inj hstep
      refine ⟨h.sent, ?_, h.closed, h.read⟩
      show s.loop.taken = s.received ++ s.inFlight.take bytes ++ s.inFlight.drop bytes
      rw [List.append_assoc, List.take_append_drop, h.taken]
  | readLine =>
      simp only [Exchange.step] at hstep
      split_ifs at hstep
      obtain ⟨line, hline, rfl⟩ := Option.map_eq_some_iff.1 hstep
      refine ⟨h.sent, h.taken, h.closed, ?_⟩
      rintro outcome houtcome
      obtain rfl := Option.some.inj houtcome
      exact h.explained hone hline
  | reset text =>
      simp only [Exchange.step] at hstep
      split_ifs at hstep
      obtain rfl := Option.some.inj hstep
      refine ⟨h.sent, h.taken, h.closed, ?_⟩
      rintro outcome houtcome
      obtain rfl := Option.some.inj houtcome
      trivial

theorem inOrder_of_reach (hzero : '\x00' ∉ message) (hone : OneLine message)
    (h : (machine (message ++ ['\x00'])).Reach Allowed s) : s.InOrder message := by
  refine h.invariant (I := InOrder message) (inOrder_init hzero) ?_
  intro s move s' _ hallowed hI hstep
  exact hI.step hone hallowed hstep

/-! ## The reply of a query -/

section Reply

variable {D : Type} {m : Printf D} {alloc : Allocator} {tree : CJson D} {result : Printed}
  {block w : Text}

/-- No character of a tree's text ends a line. -/
theorem oneLine_of_print (hm : m.Lawful) (hw : printValue m false 0 tree = some w) :
    OneLine w := by
  intro c hc
  have hvisible : 32 ≤ c.toNat := by simpa [Visible] using visible_printValue hm tree 0 w hw c hc
  rw [endsLine, Bool.or_eq_false_iff]
  constructor <;> refine decide_eq_false ?_ <;> rintro rfl <;> exact absurd hvisible (by decide)

/-- The block of the reply is the text with its terminator. -/
theorem block_of_print (hm : m.Lawful) (hw : printValue m false 0 tree = some w)
    (hprint : print alloc m false tree = some result) (hblock : result.printed = some block) :
    block = w ++ ['\x00'] := by
  obtain ⟨result', hprint', hresult⟩ := print_spec alloc hm hw
  obtain rfl := Option.some.inj (hprint.symm.trans hprint')
  rcases hresult with hnull | htext
  · rw [hnull.null] at hblock
    cases hblock
  · exact (Option.some.inj (htext.text.symm.trans hblock)).symm

theorem inOrder_of_print (hm : m.Lawful) (hw : printValue m false 0 tree = some w)
    (hprint : print alloc m false tree = some result) (hblock : result.printed = some block)
    (h : (machine block).Reach Allowed s) : s.InOrder w := by
  rw [block_of_print hm hw hprint hblock] at h
  exact inOrder_of_reach (zero_not_mem_of_printValue hm hw) (oneLine_of_print hm hw) h

/-- **The client reads the reply or no reply.**  However the bytes of a reply are
sent and received, and whenever the connection is closed: a line that the client
reads is the whole text of the tree, and the tree is in it; or the server's loop
has failed, and the line is no JSON text.  It reads the end of the stream only
where nothing has been sent. -/
theorem line_of_reach (hm : m.Lawful) (ht : Printable nestingLimit tree)
    (hkind : tree.isNumber = false) (hprint : print alloc m false tree = some result)
    (hblock : result.printed = some block) (h : (machine block).Reach Allowed s) :
    ∃ reply t', cJSON_PrintUnformatted m tree = some reply ∧ Agrees m tree t' ∧
      cJSON_Parse m.toDoubles reply = some t' ∧
      (∀ line, s.read = some (.returns (some line)) → line = reply ∨
        s.loop.status = .failed ∧ cJSON_Parse m.toDoubles line = none) ∧
      (s.read = some (.returns none) → s.loop.status = .failed ∧ s.loop.taken = []) := by
  obtain ⟨w, hw, hreads, hparse⟩ := exists_text hm false ht
  have hI := inOrder_of_print hm hw hprint hblock h
  refine ⟨w, tree.reread m, hw, agrees_reread hm ht, hparse, ?_, fun hread => ?_⟩
  · intro line hread
    rcases hI.read _ hread with rfl | ⟨hfailed, x, rfl⟩
    · exact .inl rfl
    · by_cases hx : x = []
      · exact .inl (by rw [hx, List.append_nil])
      · exact .inr ⟨hfailed, cJSON_Parse_of_reads (isNumber_reread hkind) hreads hx⟩
  · exact hI.read _ hread

end Reply

deriving instance DecidableEq for ReadOutcome

/-- The text of a tree. -/
def replyText : Text := "[\x7b\"a\\n\":3000000000,\"b\":null\x7d,[]]".toList

theorem print_replyText :
    print steady integers false reportTree = some ⟨some (replyText ++ ['\x00']), 1, 2⟩ := by
  decide +kernel

/-- Of this reply, the client gets five bytes. -/
theorem line_of_reach_cut : ∃ s, (machine (replyText ++ ['\x00'])).Reach Allowed s ∧
    s.read = some (.returns (some (replyText.take 5))) ∧ s.loop.status = .failed ∧
    cJSON_Parse integers.toDoubles (replyText.take 5) = none := by
  have hrun : ∃ s, (machine (replyText ++ ['\x00'])).Reach Allowed s ∧
      s.read = some (.returns (some (replyText.take 5))) :=
    Machine.exists_reach_of_tryRun [.send (.sent 5), .deliver 3, .send .wouldBlock,
      .send .failed, .close, .deliver 9, .readLine] (by decide +kernel)
  obtain ⟨s, hs, hread⟩ := hrun
  obtain ⟨reply, t', hreply, -, -, hline, -⟩ := line_of_reach integers_lawful
    (printable_reportTree 998) rfl print_replyText rfl hs
  have hlong : replyText.take 5 ≠ reply := by
    rintro rfl
    exact absurd hreply (by decide +kernel)
  exact ⟨s, hs, hread, (hline _ hread).resolve_left hlong⟩

/-! ## A reply that gets through -/

theorem tryRun_cons {move : Move} {moves : List Move} (block : Text) (hallowed : s.Allowed move)
    (hstep : s.step move = some s') : (machine block).tryRun Allowed s (move :: moves) =
      (machine block).tryRun Allowed s' moves := by
  rw [Machine.tryRun, if_pos hallowed]
  show (s.step move).bind _ = _
  rw [hstep, Option.bind_some]

/-- Behind the loop, the rest of the bytes makes up the line. -/
theorem InOrder.deliver_readLine (h : s.InOrder message) (hone : OneLine message)
    (hall : s.loop.taken = message ++ ['\n']) (hread : s.read = none) (block : Text) :
    ∃ s', (machine block).tryRun Allowed s [.deliver s.inFlight.length, .readLine] = some s' ∧
      s'.read = some (.returns (some message)) := by
  let s₁ : Exchange :=
    { s with
      received := s.received ++ s.inFlight.take s.inFlight.length
      inFlight := s.inFlight.drop s.inFlight.length }
  have hreceived : s₁.received = message ++ ['\n'] := by
    show s.received ++ s.inFlight.take s.inFlight.length = _
    rw [List.take_length, ← h.taken, hall]
  have hline : lineOf s₁.received s₁.atEnd = some (some message) :=
    lineOf_of_any hone (hreceived ▸ List.prefix_rfl) (by rw [hreceived]; simp [endsLine]) _
  have hstep : s₁.step .readLine = some { s₁ with read := some (.returns (some message)) } := by
    have hnone : s₁.read.isSome = false := by
      show s.read.isSome = false
      rw [hread]
      rfl
    simp only [Exchange.step, hnone, hline, Option.map_some]
    rfl
  refine ⟨{ s₁ with read := some (.returns (some message)) }, ?_, rfl⟩
  have hdeliver : s.step (.deliver s.inFlight.length) = some s₁ := rfl
  have hallowed : s.Allowed (.deliver s.inFlight.length) := trivial
  have hallowed' : s₁.Allowed .readLine := trivial
  rw [tryRun_cons block hallowed hdeliver, tryRun_cons block hallowed' hstep]
  rfl

/-- While nothing has failed, the moves that are left lead to the line. -/
theorem InOrder.exists_run (h : s.InOrder message) (hone : OneLine message)
    (hstatus : s.loop.status ≠ .failed) (hread : s.read = none) (block : Text) :
    ∃ moves s', (∀ move ∈ moves, move.Regular) ∧
      (machine block).tryRun Allowed s moves = some s' ∧
      s'.read = some (.returns (some message)) := by
  have hlast : ∀ n, ∀ move ∈ [Move.deliver n, .readLine], move.Regular := by
    intro n move hmove
    simp only [List.mem_cons, List.not_mem_nil, or_false] at hmove
    rcases hmove with rfl | rfl <;> trivial
  cases hsend : s.loop.status with
  | failed => exact absurd hsend hstatus
  | done =>
      obtain ⟨s', hrun, hs'⟩ := h.deliver_readLine hone (h.sent.taken_of_done hsend) hread block
      exact ⟨_, s', hlast _, hrun, hs'⟩
  | sending =>
      -- one call of `send` takes all the rest
      have hpos := h.sent.sending hsend
      let result := SendResult.sent s.loop.bytesRemaining.toNat
      have hoffered : s.Allowed (.send result) := by
        show ((s.loop.bytesRemaining.toNat : ℕ) : Int) ≤ s.loop.bytesRemaining
        omega
      let s₁ : Exchange :=
        { s with loop := s.loop.next result, inFlight := s.inFlight ++ s.loop.bytesTaken result }
      have hstep : s.step (.send result) = some s₁ := if_pos hsend
      have h₁ : s₁.InOrder message := h.step hone hoffered hstep
      have hzero : s₁.loop.bytesRemaining = 0 := by
        show s.loop.bytesRemaining - (s.loop.bytesRemaining.toNat : ℕ) = 0
        omega
      obtain ⟨s', hrun, hs'⟩ := h₁.deliver_readLine hone (h₁.sent.taken_of_remaining hzero)
        hread block
      refine ⟨[.send result, .deliver s₁.inFlight.length, .readLine], s',
        List.forall_mem_cons.2 ⟨trivial, hlast _⟩, ?_, hs'⟩
      rw [tryRun_cons block hoffered hstep, hrun]

section Progress

variable {D : Type} {m : Printf D} {alloc : Allocator} {tree : CJson D} {result : Printed}
  {block : Text}

/-- **The reply can get through.**  Wherever an exchange has got to without a failure
of the server's loop, moves without a failure are left that make the client read the
whole text of the tree. -/
theorem exists_run_of_reach {k : ℕ} (hm : m.Lawful) (ht : Printable k tree)
    (hprint : print alloc m false tree = some result) (hblock : result.printed = some block)
    (h : (machine block).Reach Allowed s) (hstatus : s.loop.status ≠ .failed)
    (hread : s.read = none) :
    ∃ reply moves s', cJSON_PrintUnformatted m tree = some reply ∧
      (∀ move ∈ moves, move.Regular) ∧ (machine block).tryRun Allowed s moves = some s' ∧
      s'.read = some (.returns (some reply)) := by
  obtain ⟨w, hw, -⟩ := readBack_of_printable hm false ht 0
  obtain ⟨moves, s', hmoves, hrun, hs'⟩ := (inOrder_of_print hm hw hprint hblock h).exists_run
    (oneLine_of_print hm hw) hstatus hread block
  exact ⟨w, moves, s', hw, hmoves, hrun, hs'⟩

end Progress

theorem exists_run_of_reach_part : ∃ s, (machine (replyText ++ ['\x00'])).Reach Allowed s ∧
    s.received = replyText.take 3 ∧
    ∃ reply moves s', cJSON_PrintUnformatted integers reportTree = some reply ∧
      (∀ move ∈ moves, move.Regular) ∧
      (machine (replyText ++ ['\x00'])).tryRun Allowed s moves = some s' ∧
      s'.read = some (.returns (some reply)) := by
  have hrun : ∃ s, (machine (replyText ++ ['\x00'])).Reach Allowed s ∧
      (s.received = replyText.take 3 ∧ s.loop.status ≠ .failed ∧ s.read = none) :=
    Machine.exists_reach_of_tryRun [.send (.sent 5), .deliver 3] (by decide +kernel)
  obtain ⟨s, hs, hreceived, hstatus, hread⟩ := hrun
  exact ⟨s, hs, hreceived, exists_run_of_reach integers_lawful (printable_reportTree 998)
    print_replyText rfl hs hstatus hread⟩

end Exchange

end PotHub.App
