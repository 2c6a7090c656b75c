import PotHub.Server.Ownership

/-!
# The hand-off of a task

A task carries the address of the variable `info` of the loop body, and its
worker reads the two fields through it some time later.  All dispatches use the
same storage.  When every task has been read before the next one is dispatched,
each call of `doWork` works on the pair of its own dispatch; a dispatch in
between changes the pair under the eyes of the workers that come after.
-/

namespace PotHub.Server

open PotHub.Lib

namespace State

variable {W : Type}

/-- Each call of `doWork` works on the pair that the dispatch of its task wrote,
and each dispatched task is taken up by one call, or still to be taken up. -/
structure HandedOver (s : State W) : Prop where
  pair : ∀ id info, (id, info) ∈ s.served → s.dispatched[id]? = some info
  once : (s.served.map Prod.fst).Nodup
  all : ∀ id < s.dispatched.length, s.Unread id ↔ ¬ s.Served id

/-- No task is still to be read. -/
def Idle (s : State W) : Prop := s.queue = [] ∧ ∀ w, (s.worker w).task = none

/-- A dispatch finds no task that is still to be read. -/
def InTurn (s : State W) : Event W → Prop
  | .dispatch => s.Idle
  | _ => True

instance [Fintype W] (s : State W) : Decidable s.Idle := inferInstanceAs (Decidable (_ ∧ _))

instance [Fintype W] (s : State W) : DecidablePred s.InTurn
  | .dispatch => inferInstanceAs (Decidable s.Idle)
  | .poll _ | .pollFails | .flag | .endScan | .skip | .hangUp | .unexpected | .listening
  | .accept _ | .shutDown | .dequeue .. | .begin .. | .readOldFd .. | .readFd .. | .finish ..
  | .leave _ => isTrue trivial

theorem Idle.unreadAt {s : State W} (h : s.Idle) (p : Place W) : s.unreadAt p = none := by
  match p with
  | .cell i => rfl
  | .queued k => simp [State.unreadAt, heldAt, h.1]
  | .worker w => exact h.2 w

/-- The variable `info` still holds the pair of every task to be read. -/
structure InfoCurrent (s : State W) : Prop where
  ref : ∀ p t, s.unreadAt p = some t → t.args = .ref ∧ s.dispatched[t.id]? = some s.info
  reading : ∀ w t oldFd, s.worker w = .reading t oldFd → oldFd = s.info.oldFd
  served : ∀ id info, (id, info) ∈ s.served → s.dispatched[id]? = some info

variable [DecidableEq W] {s : State W} {listenSd : ℕ} {d : Delivery}

theorem info_next (s : State W) (e : Event W) : e = .dispatch ∨
    ((s.next d e).info = s.info ∧ (s.next d e).dispatched = s.dispatched) := by
  cases e with
  | dispatch => exact Or.inl rfl
  | _ => exact Or.inr ⟨rfl, rfl⟩

theorem InfoCurrent.dispatch (h : s.InfoCurrent) (hidle : s.Idle)
    (he : s.Enabled listenSd .dispatch) : (s.next .byReference .dispatch).InfoCurrent := by
  refine ⟨fun p t hp => ?_, fun w t oldFd hw => ?_, fun id info hid => ?_⟩
  · rcases unreadAt_next he hp with hp' | ⟨-, -, rfl⟩
    · exact absurd hp' (by simp [hidle.unreadAt])
    · exact ⟨rfl, by simp [State.next, readTask]⟩
  · have := hidle.2 w
    have hw : s.worker w = .reading t oldFd := hw
    simp [hw, WorkerPc.task] at this
  · have hold := h.served id info hid
    have hlt := (List.getElem?_eq_some_iff.1 hold).1
    simpa [State.next, List.getElem?_append_left hlt] using hold

theorem InfoCurrent.next {e : Event W} (h : s.InfoCurrent) (he : s.Enabled listenSd e)
    (hg : s.InTurn e) : (s.next .byReference e).InfoCurrent := by
  rcases info_next (d := .byReference) s e with rfl | ⟨hinfo, hdisp⟩
  · exact h.dispatch hg he
  refine ⟨fun p t hp => ?_, fun w t oldFd hw => ?_, fun id info hid => ?_⟩
  · rw [hinfo, hdisp]
    rcases unreadAt_next he hp with hp' | ⟨rfl, -, rfl⟩
    · exact h.ref _ t hp'
    · simp [State.next] at hdisp
  · -- the worker has read `old_fd` before, or reads it now
    rw [hinfo]
    have hm := moves_next (d := .byReference) he w
    rw [hw] at hm
    generalize hpc : s.worker w = pc at hm
    cases hm with
    | stay => exact h.reading w t oldFd hpc
    | readOldFd =>
        have ht := (h.ref (.worker w) t (by simp [unreadAt, heldAt, hpc, WorkerPc.task])).1
        simp [deref, ht]
  · rw [hdisp]
    rcases Classical.em (∃ w t oldFd, e = .readFd w t oldFd) with ⟨w, t, oldFd, rfl⟩ | hne
    · rcases List.mem_append.1 hid with hid | hid
      · exact h.served id info hid
      · obtain ⟨rfl, rfl⟩ := Prod.mk.inj (List.mem_singleton.1 hid)
        obtain ⟨href, hd⟩ := h.ref (.worker w) t (by simp [unreadAt, heldAt, he.2, WorkerPc.task])
        rw [hd, h.reading w t oldFd he.2, deref, href]
    · cases e with
      | readFd w t oldFd => exact absurd ⟨w, t, oldFd, rfl⟩ hne
      | _ => exact h.served id info hid

/-- **The hand-off.**  In every run in which a dispatch finds no task that is
still to be read, each call of `doWork` works on the pair that the dispatch of
its task wrote, and each dispatched task is taken up once. -/
theorem handedOver_of_inTurn (h : (machine W .byReference listenSd).Reach InTurn s) :
    s.HandedOver := by
  have hinfo : s.InfoCurrent := by
    refine h.invariant (I := InfoCurrent) ⟨?_, ?_, ?_⟩ ?_
    · rintro (i | k | w) t ht <;> simp [machine, init, unreadAt, heldAt, WorkerPc.task] at ht
    · simp [machine, init]
    · simp [machine, init]
    · intro s e s' _ hg hI hstep
      obtain ⟨he, rfl⟩ := machine_step_iff.1 hstep
      exact hI.next he hg
  have hacc := accounted_of_reach h
  exact ⟨hinfo.served, hacc.nodup, fun id hid =>
    ⟨hacc.apart id, fun hs => (hacc.all id hid).resolve_right hs⟩⟩

/-- A worker takes the task with the given number and reads its `PollInfo`. -/
def takesUp (id oldFd : ℕ) : List (Event Unit) :=
  [.dequeue () ⟨.ref, id⟩, .begin () ⟨.ref, id⟩, .readOldFd () ⟨.ref, id⟩,
    .readFd () ⟨.ref, id⟩ oldFd]

theorem handedOver_oneSends : ∃ s, (machine Unit .byReference 3).Reach InTurn s ∧
    s.served = [(0, ⟨1, 4⟩)] ∧ s.HandedOver := by
  have hrun : ∃ s, (machine Unit .byReference 3).Reach InTurn s ∧ s.served = [(0, ⟨1, 4⟩)] :=
    Machine.exists_reach_of_tryRun (twoConnect ++ oneSends ++ takesUp 0 1) (by decide +kernel)
  obtain ⟨s, hs, hserved⟩ := hrun
  exact ⟨s, hs, hserved, handedOver_of_inTurn hs⟩

/-- Both clients send, and both tasks are in the queue before a worker looks:
the calls of `doWork` serve the second client twice and the first one never. -/
def bothSend : List (Event Unit) :=
  twoConnect ++ [reports [0, POLLIN, POLLIN], .flag, .skip, .dispatch, .dispatch] ++
    takesUp 0 2 ++ [.finish () 0 ⟨2, 5⟩ false, .leave ()] ++ takesUp 1 2

theorem not_handedOver_of_bothSend : ∃ s, (machine Unit .byReference 3).Reach KernelOk s ∧
    s.dispatched = [⟨1, 4⟩, ⟨2, 5⟩] ∧ s.served = [(0, ⟨2, 5⟩), (1, ⟨2, 5⟩)] ∧
    ¬ s.HandedOver := by
  have hrun : ∃ s, (machine Unit .byReference 3).Reach KernelOk s ∧
      s.dispatched = [⟨1, 4⟩, ⟨2, 5⟩] ∧ s.served = [(0, ⟨2, 5⟩), (1, ⟨2, 5⟩)] :=
    Machine.exists_reach_of_tryRun bothSend (by decide +kernel)
  obtain ⟨s, hs, hd, hserved⟩ := hrun
  refine ⟨s, hs, hd, hserved, fun h => ?_⟩
  have := h.pair 0 ⟨2, 5⟩ (by simp [hserved])
  simp [hd] at this

end State

end PotHub.Server
