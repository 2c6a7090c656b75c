import PotHub.Server.System
import Mathlib.Logic.Relation

/-!
# The server, cell by cell

The main loop and the workers with a step for every access to what they share:
a cell of `fds`, `compress_array`, `num_threads_executing`, the variable `info`
and the task queue.  So a worker may write between any two accesses of main, in
the middle of a compaction too, and it may read an `info` that a later dispatch
has overwritten in part or in full.

The array keeps its shape (`Cells.shaped_of_reach`): there is room for it, the
listening socket stays in front, and nobody leaves the array.
-/

namespace PotHub.Server

open PotHub.Lib

/-! ## The compaction loop -/

/-- Where the compaction loop is. -/
inductive CompactPc
  /-- At the test `i < nfds`. -/
  | test (i : Int)
  /-- In front of the comparison of `fds[i].fd` with `-1`. -/
  | isFree (i : Int)
  /-- In front of the comparison with `-2`. -/
  | isStopped (i : Int)
  /-- At the test `j < nfds - 1`. -/
  | shift (i j : Int)
  /-- With `fds[j + 1].fd` read, in front of the assignment. -/
  | assign (i j v : Int)
  /-- Behind the loop. -/
  | done
deriving DecidableEq, Repr

/-- One access of the compaction loop. -/
def compactStep (a : PollArray) : CompactPc → PollArray × CompactPc
  | .test i => (a, if i < a.nfds then .isFree i else .done)
  | .isFree i => (a, if a.fd i.toNat = -1 then .shift i i else .isStopped i)
  | .isStopped i => (a, if a.fd i.toNat = -2 then .shift i i else .test (i + 1))
  | .shift i j =>
      if j < a.nfds - 1 then (a, .assign i j (a.fd (j + 1).toNat))
      -- `i--`, `nfds--`, and the `i++` of the loop
      else ({ a with nfds := a.nfds - 1 }, .test (i - 1 + 1))
  | .assign i j v => (a.setFd j.toNat v, .shift i (j + 1))
  | .done => (a, .done)

/-- The indices of the cells that an access uses. -/
def compactIndices (a : PollArray) : CompactPc → List Int
  | .isFree i | .isStopped i => [i]
  | .shift _ j => if j < a.nfds - 1 then [j + 1] else []
  | .assign _ j _ => [j]
  | _ => []

/-! ## The machine -/

/-- The two places of the compaction loop. -/
inductive Site
  /-- Behind the test of the flag. -/
  | flagged
  /-- In the branch of a hang-up. -/
  | hangUp
deriving DecidableEq, Repr

/-- Where main is. -/
inductive CellsPc
  /-- At the call of `poll`. -/
  | polling
  /-- In front of `compress_array == TRUE`. -/
  | testFlag
  /-- In front of `num_threads_executing == 0`. -/
  | testThreads
  /-- In front of `compress_array = FALSE`. -/
  | clearFlag
  | compacting (site : Site) (c : CompactPc)
  /-- Behind the flag-guarded compaction. -/
  | packed
  /-- At the head of the scan loop. -/
  | scanning
  /-- Behind the `close` of a hang-up. -/
  | hangingUp
  /-- In front of a call of `accept`. -/
  | accepting
  /-- In front of the initialization of `info.old_fd`. -/
  | setOldFd
  /-- In front of the initialization of `info.fd`. -/
  | setFd
  /-- In front of `fds[i].fd = FD_STOP_POLLING`. -/
  | stopPolling
  /-- At the call of `addTask`. -/
  | adding
  /-- Behind the main loop. -/
  | closing
  | exited
deriving DecidableEq, Repr

/-- Where a worker is.  All tasks are the same: each holds `&info`. -/
inductive CellsWorker
  /-- In front of the critical section of `threadStarter`. -/
  | waiting
  | dequeued
  /-- In `executeTask`, in front of `doWork`. -/
  | executing
  /-- In `doWork`, with `old_fd` read. -/
  | reading (oldFd : ℕ)
  /-- In `doWork`, with both fields read. -/
  | working (info : PollInfo)
  /-- Behind `*old_fd = -1`, in front of `compress_array = TRUE`. -/
  | freed
  /-- Behind `doWork`, still counted as executing. -/
  | returned
deriving DecidableEq, Repr

/-- The state of the server, with workers named by `W`. -/
structure Cells (W : Type) where
  array : PollArray
  compressArray : Bool
  numThreadsExecuting : Int
  pollErr : ℕ
  currentSize : ℕ
  /-- The index of the scan loop. -/
  i : ℕ
  endServer : Bool
  pc : CellsPc
  /-- The variable `info` of the loop body. -/
  info : PollInfo
  taskCount : ℕ
  worker : W → CellsWorker

/-- The steps. -/
inductive CellsEvent (W : Type)
  /-- `poll` returns with these events. -/
  | poll (revents : ℕ → Mask)
  /-- `poll` returns a negative value. -/
  | pollFails
  /-- A round of the accept loop. -/
  | accept (r : AcceptResult)
  /-- Any other step of main. -/
  | main
  /-- The critical section of `threadStarter`. -/
  | dequeue (w : W)
  /-- `num_threads_executing++`. -/
  | begin (w : W)
  | readOldFd (w : W)
  | readFd (w : W) (oldFd : ℕ)
  /-- `*old_fd = -1` or `*old_fd = fd`. -/
  | writeBack (w : W) (info : PollInfo) (closeConn : Bool)
  /-- `compress_array = TRUE`. -/
  | setFlag (w : W)
  /-- `num_threads_executing--`. -/
  | leave (w : W)

namespace Cells

variable {W : Type}

/-- The state in front of the first call of `poll`. -/
def init (W : Type) (listenSd : ℕ) : Cells W where
  array := .init listenSd
  compressArray := false
  numThreadsExecuting := 0
  pollErr := 0
  currentSize := 0
  i := 0
  endServer := false
  pc := .polling
  info := ⟨0, 0⟩
  taskCount := 0
  worker _ := .waiting

/-- The steps of main that the kernel has no say in. -/
def MainEnabled (s : Cells W) : Prop :=
  s.pc ≠ .polling ∧ s.pc ≠ .accepting ∧ s.pc ≠ .exited ∧
    (s.pc = .adding → s.taskCount ≠ MAX_TASK_NUM)

instance (s : Cells W) : Decidable s.MainEnabled :=
  inferInstanceAs (Decidable (_ ∧ _ ∧ _ ∧ (_ → _)))

/-- When is an event possible? -/
def Enabled (s : Cells W) : CellsEvent W → Prop
  | .poll _ | .pollFails => s.pc = .polling
  | .accept _ => s.pc = .accepting
  | .main => s.MainEnabled
  | .dequeue w => s.pc ≠ .exited ∧ s.worker w = .waiting ∧ s.taskCount ≠ 0
  | .begin w => s.pc ≠ .exited ∧ s.worker w = .dequeued
  | .readOldFd w => s.pc ≠ .exited ∧ s.worker w = .executing
  | .readFd w oldFd => s.pc ≠ .exited ∧ s.worker w = .reading oldFd
  | .writeBack w info _ => s.pc ≠ .exited ∧ s.worker w = .working info
  | .setFlag w => s.pc ≠ .exited ∧ s.worker w = .freed
  | .leave w => s.pc ≠ .exited ∧ s.worker w = .returned

instance (s : Cells W) : DecidablePred s.Enabled
  | .poll _ | .pollFails | .accept _ => inferInstanceAs (Decidable (_ = _))
  | .main => inferInstanceAs (Decidable s.MainEnabled)
  | .dequeue _ => inferInstanceAs (Decidable (_ ∧ _ ∧ _))
  | .begin _ | .readOldFd _ | .readFd _ _ | .writeBack _ _ _ | .setFlag _ | .leave _ =>
      inferInstanceAs (Decidable (_ ∧ _))

/-- Back to the loop condition `while (!end_server)`. -/
def loopEnd (s : Cells W) : Cells W := { s with pc := if s.endServer then .closing else .polling }

/-- The scan loop at its head. -/
def scanNext (listenSd : ℕ) (s : Cells W) : Cells W :=
  if s.i < s.currentSize ∧ 0 < s.pollErr then
    match verdict listenSd s.array s.i with
    | .skip => { s with i := s.i + 1 }
    | .hangUp => { s with pc := .hangingUp }
    | .unexpected => { s with endServer := true, pc := .closing }
    | .listening => { s with pollErr := s.pollErr - 1, pc := .accepting }
    | .readable => { s with pollErr := s.pollErr - 1, pc := .setOldFd }
  else s.loopEnd

/-- A step of main that the kernel has no say in. -/
def mainNext (listenSd : ℕ) (s : Cells W) : Cells W :=
  match s.pc with
  | .testFlag => { s with pc := if s.compressArray then .testThreads else .packed }
  | .testThreads => { s with pc := if s.numThreadsExecuting = 0 then .clearFlag else .packed }
  | .clearFlag => { s with compressArray := false, pc := .compacting .flagged (.test 0) }
  | .compacting .flagged .done => { s with pc := .packed }
  | .compacting .hangUp .done => { s with i := s.i + 1, pc := .scanning }
  | .compacting site c =>
      { s with
        array := (compactStep s.array c).1
        pc := .compacting site (compactStep s.array c).2 }
  | .packed =>
      if s.pollErr = 0 then s.loopEnd
      else { s with currentSize := s.array.nfds, i := 0, pc := .scanning }
  | .scanning => s.scanNext listenSd
  | .hangingUp =>
      { s with array := s.array.setFd s.i (-1), pc := .compacting .hangUp (.test 0) }
  | .setOldFd => { s with info := { s.info with oldFd := s.i }, pc := .setFd }
  | .setFd => { s with info := { s.info with fd := s.array.fd s.i }, pc := .stopPolling }
  | .stopPolling => { s with array := s.array.setFd s.i FD_STOP_POLLING, pc := .adding }
  | .adding => { s with taskCount := s.taskCount + 1, i := s.i + 1, pc := .scanning }
  | .closing => { s with pc := .exited }
  | .polling | .accepting | .exited => s

/-- A round of the accept loop. -/
def acceptNext (s : Cells W) (r : AcceptResult) : Cells W :=
  let step := acceptOne s.array r
  { s with
    array := step.array
    endServer := s.endServer || step.endServer
    i := if step.next = .leave then s.i + 1 else s.i
    pc := match step.next with
      | .again => .accepting
      | .leave => .scanning
      | .exit => .exited }

variable [DecidableEq W]

/-- The state after an event. -/
def next (listenSd : ℕ) (s : Cells W) : CellsEvent W → Cells W
  | .poll revents =>
      { s with
        array := { s.array with
          revents := fun i => if i < s.array.nfds then revents i else s.array.revents i }
        pollErr := (List.range s.array.nfds).countP fun i => revents i ≠ 0
        pc := .testFlag }
  | .pollFails => { s with pc := .closing }
  | .accept r => s.acceptNext r
  | .main => s.mainNext listenSd
  | .dequeue w =>
      { s with taskCount := s.taskCount - 1, worker := Function.update s.worker w .dequeued }
  | .begin w =>
      { s with
        numThreadsExecuting := s.numThreadsExecuting + 1
        worker := Function.update s.worker w .executing }
  | .readOldFd w => { s with worker := Function.update s.worker w (.reading s.info.oldFd) }
  | .readFd w oldFd =>
      { s with worker := Function.update s.worker w (.working ⟨oldFd, s.info.fd⟩) }
  | .writeBack w info closeConn =>
      { s with
        array := s.array.setFd info.oldFd (if closeConn then -1 else info.fd)
        worker := Function.update s.worker w (if closeConn then .freed else .returned) }
  | .setFlag w =>
      { s with compressArray := true, worker := Function.update s.worker w .returned }
  | .leave w =>
      { s with
        numThreadsExecuting := s.numThreadsExecuting - 1
        worker := Function.update s.worker w .waiting }

/-- The indices of the cells that a step of main reads, writes or points to. -/
def mainIndices (s : Cells W) : List Int :=
  match s.pc with
  | .compacting _ c => compactIndices s.array c
  | .scanning => if s.i < s.currentSize ∧ 0 < s.pollErr then [(s.i : Int)] else []
  | .hangingUp | .setOldFd | .setFd | .stopPolling => [(s.i : Int)]
  | .closing => (List.range s.array.nfds).map Int.ofNat
  | _ => []

/-- The indices of the cells that an event reads, writes or points to. -/
def indices (s : Cells W) : CellsEvent W → List Int
  | .poll _ => (List.range s.array.nfds).map Int.ofNat
  | .accept r => if (acceptOne s.array r).next = .again then [(s.array.nfds : Int)] else []
  | .main => s.mainIndices
  | .writeBack _ info _ => [(info.oldFd : Int)]
  | _ => []

/-- The kernel reports no `POLLHUP` for the listening socket, and `accept` does
not return it. -/
def KernelKeeps (listenSd : ℕ) (s : Cells W) : CellsEvent W → Prop
  | .poll revents => ∀ i < s.array.nfds, s.array.fd i = listenSd → ¬ HungUp (revents i)
  | .accept (.accepted newSd _ _) => newSd ≠ listenSd
  | _ => True

instance (listenSd : ℕ) (s : Cells W) : DecidablePred (s.KernelKeeps listenSd)
  | .poll _ => inferInstanceAs (Decidable (∀ i < s.array.nfds, _ → ¬ _))
  | .accept (.accepted _ _ _) => inferInstanceAs (Decidable (_ ≠ _))
  | .accept (.failed _) => inferInstanceAs (Decidable True)
  | .pollFails | .main | .dequeue _ | .begin _ | .readOldFd _ | .readFd _ _ | .writeBack _ _ _
  | .setFlag _ | .leave _ => inferInstanceAs (Decidable True)

end Cells

/-- The server, cell by cell, as a machine. -/
def cellsMachine (W : Type) [DecidableEq W] (listenSd : ℕ) : Machine (Cells W) (CellsEvent W) where
  init := .init W listenSd
  step s e := if s.Enabled e then some (s.next listenSd e) else none

theorem cellsMachine_step_iff {W : Type} [DecidableEq W] {listenSd : ℕ} {s s' : Cells W}
    {e : CellsEvent W} :
    (cellsMachine W listenSd).step s e = some s' ↔ s.Enabled e ∧ s.next listenSd e = s' := by
  simp [cellsMachine]

/-! ## The compaction without interference -/

/-- One access of the compaction loop leads to the next, with nobody between. -/
def CompactGoes (x y : PollArray × CompactPc) : Prop := compactStep x.1 x.2 = y

section Uninterrupted

variable (events revents : ℕ → Mask)

theorem shiftDown_goes (fd : ℕ → Int) (i : Int) (j n : ℕ) :
    Relation.ReflTransGen CompactGoes (⟨fd, events, revents, n⟩, .shift i j)
      (⟨shiftDown fd j n, events, revents, n - 1⟩, .test i) := by
  fun_induction shiftDown fd j n with
  | case1 fd j hj ih =>
      have hlt : (j : Int) < n - 1 := by omega
      refine .head (b := (⟨fd, events, revents, n⟩, .assign i j (fd (j + 1)))) ?_
        (.head ?_ ih)
      · simp [CompactGoes, compactStep, hlt]
      · simp [CompactGoes, compactStep, PollArray.setFd]
  | case2 fd j hj =>
      have hnlt : ¬ (j : Int) < n - 1 := by omega
      exact .single (by simp [CompactGoes, compactStep, hnlt])

theorem removeFrom_goes (fd : ℕ → Int) (i n : ℕ) :
    Relation.ReflTransGen CompactGoes (⟨fd, events, revents, n⟩, .test i)
      (⟨(removeFrom Unused fd i n).1, events, revents, (removeFrom Unused fd i n).2⟩, .done) := by
  fun_induction removeFrom Unused fd i n with
  | case1 fd i n hi hp ih =>
      have hshift := (shiftDown_goes events revents fd i i n).trans ih
      refine .head (b := (⟨fd, events, revents, n⟩, .isFree i))
        (by simp [CompactGoes, compactStep, hi]) ?_
      by_cases hfree : fd i = -1
      · exact .head (by simp [CompactGoes, compactStep, hfree]) hshift
      · have hstop : fd i = -2 := hp.resolve_left hfree
        refine .head (b := (⟨fd, events, revents, n⟩, .isStopped i))
          (by simp [CompactGoes, compactStep, hfree]) ?_
        exact .head (by simp [CompactGoes, compactStep, hstop]) hshift
  | case2 fd i n hi hp ih =>
      obtain ⟨hfree, hstop⟩ := not_or.1 hp
      refine .head (b := (⟨fd, events, revents, n⟩, .isFree i))
        (by simp [CompactGoes, compactStep, hi]) ?_
      refine .head (b := (⟨fd, events, revents, n⟩, .isStopped i))
        (by simp [CompactGoes, compactStep, hfree]) ?_
      exact .head (by simp [CompactGoes, compactStep, hstop]) ih
  | case3 fd i n hi =>
      exact .single (by simp [CompactGoes, compactStep, hi])

/-- When nobody interferes, the loop does what `compact` does in one step. -/
theorem compact_goes (a : PollArray) :
    Relation.ReflTransGen CompactGoes (a, .test 0) (a.compact, .done) :=
  removeFrom_goes a.events a.revents a.fd 0 a.nfds

end Uninterrupted

end PotHub.Server
