import PotHub.Server.DoWork
import PotHub.Lib.Refinement

/-!
# The reply loops

The loop in which `doWork` sends a reply, with a step for every call of `send`.
It is the same at both of its places.  The terminator of the reply has been
overwritten with an endline, so that only `bytes_remaining` tells where the
reply ends, while `json_message` itself moves.

What `sendLoop` makes of a whole list of results is what the steps make of it
one by one (`foldl_next_eq`).
-/

namespace PotHub.Server

open PotHub.Json PotHub.Lib

/-- Where a reply loop is. -/
inductive ReplyStatus
  /-- At the call of `send`. -/
  | sending
  /-- Behind the loop. -/
  | done
  /-- At the label `end`, behind an error. -/
  | failed
deriving DecidableEq, Repr

/-- A reply loop. -/
structure ReplyLoop where
  /-- The block that `json_message` points into. -/
  block : Text
  /-- How far `json_message` has moved. -/
  offset : ℕ
  bytesRemaining : Int
  status : ReplyStatus
  /-- Ghost: the bytes that the socket has taken. -/
  taken : Text
deriving DecidableEq

namespace ReplyLoop

/-- In front of the loop, with the memory behind `json_message` as the query
function returns it: `strlen`, a `realloc` to the same size, and an endline for
the terminator. -/
def start (memory : Text) : ReplyLoop :=
  let buffLen := (cString memory).length
  { block := (memory.take (buffLen + 1)).set buffLen '\n'
    offset := 0
    bytesRemaining := buffLen + 1
    status := .sending
    taken := [] }

/-- The loop condition. -/
def again (s : ReplyLoop) : ReplyLoop :=
  { s with status := if 0 < s.bytesRemaining then .sending else .done }

/-- A turn of the loop, with what `send` returns. -/
def next (s : ReplyLoop) : SendResult → ReplyLoop
  | .failed => { s with status := .failed }
  | .wouldBlock => s.again
  | .sent bytes =>
      { s with
        taken := s.taken ++ (s.block.drop s.offset).take bytes
        bytesRemaining := s.bytesRemaining - bytes
        offset := s.offset + bytes }.again

/-- `send` takes no more than it is offered. -/
def Offered (s : ReplyLoop) : SendResult → Prop
  | .sent bytes => (bytes : Int) ≤ s.bytesRemaining
  | _ => True

instance (s : ReplyLoop) : DecidablePred s.Offered
  | .sent _ => inferInstanceAs (Decidable (_ ≤ _))
  | .wouldBlock | .failed => inferInstanceAs (Decidable True)

/-- The loop as a machine, for the reply in the memory. -/
def machine (memory : Text) : Machine ReplyLoop SendResult where
  init := start memory
  step s r := if s.status = .sending then some (s.next r) else none

theorem machine_step_iff {memory : Text} {s s' : ReplyLoop} {r : SendResult} :
    (machine memory).step s r = some s' ↔ s.status = .sending ∧ s.next r = s' := by
  simp [machine]

/-- The loop has sent a part of the message, and the rest lies in front of it. -/
structure Sent (message : Text) (s : ReplyLoop) : Prop where
  block : s.block = message ++ ['\n']
  /-- The pointer and the count are in step. -/
  offset_add : (s.offset : Int) + s.bytesRemaining = message.length + 1
  remaining_nonneg : 0 ≤ s.bytesRemaining
  taken : s.taken = (message ++ ['\n']).take s.offset
  sending : s.status = .sending → 0 < s.bytesRemaining
  done : s.status = .done → s.bytesRemaining = 0

variable {message : Text} {s s' : ReplyLoop}

theorem length_cString_terminated (h : '\x00' ∉ message) :
    (cString (message ++ ['\x00'])).length = message.length := by
  rw [cString_append_of_not_mem h]
  simp [cString]

/-- The endline takes the place of the terminator. -/
theorem start_block (h : '\x00' ∉ message) :
    (start (message ++ ['\x00'])).block = message ++ ['\n'] := by
  simp only [start, length_cString_terminated h]
  rw [List.take_of_length_le (by simp), List.set_append_right _ _ le_rfl, Nat.sub_self]
  rfl

theorem Sent.start (h : '\x00' ∉ message) : (start (message ++ ['\x00'])).Sent message := by
  refine ⟨start_block h, ?_, ?_, rfl, fun _ => ?_, by simp [ReplyLoop.start]⟩ <;>
    simp only [ReplyLoop.start, length_cString_terminated h] <;> omega

/-- The loop condition leaves everything else alone. -/
theorem Sent.again (hblock : s.block = message ++ ['\n'])
    (hoffset : (s.offset : Int) + s.bytesRemaining = message.length + 1)
    (hnonneg : 0 ≤ s.bytesRemaining) (htaken : s.taken = (message ++ ['\n']).take s.offset) :
    s.again.Sent message where
  block := hblock
  offset_add := hoffset
  remaining_nonneg := hnonneg
  taken := htaken
  sending hstatus := by
    show 0 < s.bytesRemaining
    by_cases hpos : 0 < s.bytesRemaining
    · exact hpos
    · simp [ReplyLoop.again, hpos] at hstatus
  done hstatus := by
    show s.bytesRemaining = 0
    by_cases hpos : 0 < s.bytesRemaining
    · simp [ReplyLoop.again, hpos] at hstatus
    · omega

theorem Sent.next (h : s.Sent message) {r : SendResult} (hr : s.Offered r) :
    (s.next r).Sent message := by
  cases r with
  | failed => exact ⟨h.block, h.offset_add, h.remaining_nonneg, h.taken, by simp [ReplyLoop.next],
      by simp [ReplyLoop.next]⟩
  | wouldBlock => exact .again h.block h.offset_add h.remaining_nonneg h.taken
  | sent bytes =>
      have hbytes : (bytes : Int) ≤ s.bytesRemaining := hr
      have hadd := h.offset_add
      refine .again h.block ?_ ?_ ?_
      · show ((s.offset + bytes : ℕ) : Int) + (s.bytesRemaining - bytes) = message.length + 1
        omega
      · show 0 ≤ s.bytesRemaining - bytes
        omega
      · show s.taken ++ (s.block.drop s.offset).take bytes =
          (message ++ ['\n']).take (s.offset + bytes)
        rw [h.taken, h.block, List.take_add]

theorem sent_of_reach (hzero : '\x00' ∉ message)
    (h : (machine (message ++ ['\x00'])).Reach Offered s) : s.Sent message := by
  refine h.invariant (I := Sent message) (.start hzero) ?_
  intro s r s' _ hr hI hstep
  obtain ⟨-, rfl⟩ := machine_step_iff.1 hstep
  exact hI.next hr

/-- **The reply is sent exactly.**  However the socket takes it, what it has
taken is the front of the reply with an endline; the loop reads inside the
block; and it ends without an error only when all has been taken. -/
theorem exact_of_reach (hzero : '\x00' ∉ message)
    (h : (machine (message ++ ['\x00'])).Reach Offered s) :
    s.taken = (message ++ ['\n']).take s.offset ∧ s.taken <+: message ++ ['\n'] ∧
      (s.status = .sending → 0 < s.bytesRemaining ∧
        (s.offset : Int) + s.bytesRemaining ≤ message.length + 1) ∧
      s.block.length = message.length + 1 ∧
      (s.status = .done → s.taken = message ++ ['\n']) := by
  have hsent := sent_of_reach hzero h
  have hadd := hsent.offset_add
  refine ⟨hsent.taken, hsent.taken ▸ List.take_prefix _ _, ?_, by simp [hsent.block], ?_⟩
  · intro hs
    exact ⟨hsent.sending hs, by omega⟩
  · intro hdone
    have hrem := hsent.done hdone
    rw [hsent.taken, List.take_of_length_le]
    simp only [List.length_append, List.length_singleton]
    omega

/-! ## A whole list of results -/

/-- A turn, unless the loop has been left. -/
def nextIf (s : ReplyLoop) (r : SendResult) : ReplyLoop :=
  if s.status = .sending then s.next r else s

theorem foldl_nextIf_of_ne (h : s.status ≠ .sending) (rs : List SendResult) :
    rs.foldl nextIf s = s := by
  induction rs with
  | nil => rfl
  | cons r rs ih => rwa [List.foldl_cons, nextIf, if_neg h]

/-- What is left to be sent lies at the pointer. -/
structure Rest (rest : Text) (s : ReplyLoop) : Prop where
  drop_eq : s.block.drop s.offset = rest
  length_eq : s.bytesRemaining = rest.length
  sending : s.status = .sending

theorem Rest.start (h : '\x00' ∉ message) :
    (ReplyLoop.start (message ++ ['\x00'])).Rest (message ++ ['\n']) := by
  have hsent := Sent.start h
  have hadd := hsent.offset_add
  have h0 : (ReplyLoop.start (message ++ ['\x00'])).offset = 0 := rfl
  refine ⟨by rw [start_block h, h0, List.drop_zero], ?_, rfl⟩
  rw [h0] at hadd
  simp only [List.length_append, List.length_singleton]
  omega

theorem Rest.again {rest : Text} (h : s.Rest rest) (hpos : 0 < rest.length) :
    s.again.Rest rest := by
  refine ⟨h.drop_eq, h.length_eq, ?_⟩
  have := h.length_eq
  simp [ReplyLoop.again, show 0 < s.bytesRemaining by omega]

theorem Rest.taken_sent {rest : Text} (h : s.Rest rest) (bytes : ℕ) :
    (s.next (.sent bytes)).taken = s.taken ++ rest.take bytes := by
  rw [← h.drop_eq]
  rfl

/-- Behind a part of the rest. -/
theorem Rest.sent {rest : Text} (h : s.Rest rest) {bytes : ℕ} (hlt : bytes < rest.length) :
    (s.next (.sent bytes)).Rest (rest.drop bytes) := by
  have hlen := h.length_eq
  refine ⟨?_, ?_, ?_⟩
  · show s.block.drop (s.offset + bytes) = rest.drop bytes
    rw [← h.drop_eq, List.drop_drop]
  · show s.bytesRemaining - bytes = ((rest.drop bytes).length : Int)
    rw [List.length_drop]
    omega
  · simp [next, ReplyLoop.again]
    omega

/-- Behind all of it. -/
theorem Rest.done {rest : Text} (h : s.Rest rest) {bytes : ℕ} (hle : rest.length ≤ bytes) :
    (s.next (.sent bytes)).status = .done := by
  have hlen := h.length_eq
  simp [next, ReplyLoop.again]
  omega

/-- **Step by step or all at once.**  The steps of the loop, as far as a list of
results leads, do what `sendLoop` does. -/
theorem foldl_next_eq {rest : Text} (hpos : 0 < rest.length) (h : s.Rest rest)
    (rs : List SendResult) :
    (rs.foldl nextIf s).taken = s.taken ++ (sendLoop rest rs).sent ∧
      ((rs.foldl nextIf s).status = .failed ↔ (sendLoop rest rs).closeConn = true) := by
  induction rs generalizing s rest with
  | nil => simp [sendLoop, h.sending]
  | cons r rs ih =>
      rw [List.foldl_cons, nextIf, if_pos h.sending]
      cases r with
      | failed =>
          rw [foldl_nextIf_of_ne (by simp [next])]
          simp [next, sendLoop]
      | wouldBlock => exact ih hpos (h.again hpos)
      | sent bytes =>
          rw [sendLoop]
          by_cases hlt : bytes < rest.length
          · obtain ⟨htaken, hstatus⟩ := ih (by rw [List.length_drop]; omega) (h.sent hlt)
            rw [if_pos hlt, htaken, h.taken_sent, List.append_assoc]
            exact ⟨rfl, hstatus⟩
          · have hdone := h.done (not_lt.1 hlt)
            rw [if_neg hlt, foldl_nextIf_of_ne (by simp [hdone]), h.taken_sent, hdone,
              List.take_of_length_le (not_lt.1 hlt)]
            simp

/-- The reply of a query, in a run of `doWork`. -/
theorem foldl_start_eq (hzero : '\x00' ∉ message) (rs : List SendResult) :
    (rs.foldl nextIf (start (message ++ ['\x00']))).taken =
        (sendLoop (message ++ ['\n']) rs).sent ∧
      ((rs.foldl nextIf (start (message ++ ['\x00']))).status = .failed ↔
        (sendLoop (message ++ ['\n']) rs).closeConn = true) :=
  foldl_next_eq (by simp) (.start hzero) rs

theorem exact_of_three_sends : ∃ s, (machine "[]\x00".toList).Reach Offered s ∧
    s.status = .done ∧ s.taken = "[]\n".toList ∧
    s.taken = ("[]".toList ++ ['\n']).take s.offset := by
  have hrun : ∃ s, (machine ("[]".toList ++ ['\x00'])).Reach Offered s ∧ s.status = .done :=
    Machine.exists_reach_of_tryRun [.sent 1, .wouldBlock, .sent 0, .sent 2] (by decide +kernel)
  obtain ⟨s, hs, hdone⟩ := hrun
  have hexact := exact_of_reach (by decide) hs
  exact ⟨s, hs, hdone, hexact.2.2.2.2 hdone, hexact.1⟩

end ReplyLoop

end PotHub.Server
