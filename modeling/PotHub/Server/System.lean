import PotHub.Lib.Runs
import PotHub.Server.MainLoop
import Mathlib.Data.Fintype.Basic

/-!
# The main thread and the workers

The server as a machine.  The main thread polls, compacts, scans, accepts and
dispatches; each worker takes a task off the queue, raises the number of
executing threads, reads the two fields of its `PollInfo`, works and writes the
cell back, and lowers the number.  Every event is one atomic step; the kernel's
answers and the outcome of `doWork` are part of the event.

How a worker gets at its `PollInfo` is a parameter: as coded, every task holds
the address of the one variable `info` of the loop body, whose storage each
later dispatch reuses; by value, the task holds the pair itself.

The fields `dispatched`, `served` and `mark` are ghost state.
-/

namespace PotHub.Server

open PotHub.Lib

/-- The capacity of the task queue. -/
def MAX_TASK_NUM : ℕ := 1000

/-- How the `PollInfo` of a task reaches the worker. -/
inductive Delivery
  /-- Through the address of the loop variable `info`. -/
  | byReference
  /-- As a copy. -/
  | byValue
deriving DecidableEq, Repr

/-- The field `args` of a task. -/
inductive Args
  /-- `&info`. -/
  | ref
  | val (info : PollInfo)
deriving DecidableEq, Repr

/-- A task of the queue; its function is always `doWork`. -/
structure Task where
  args : Args
  /-- Ghost: the number of tasks added before this one. -/
  id : ℕ
deriving DecidableEq, Repr

/-- Where a worker is in `threadStarter`. -/
inductive WorkerPc
  /-- In front of the critical section. -/
  | waiting
  /-- Behind it, with a task. -/
  | dequeued (t : Task)
  /-- In `executeTask`, counted as executing, in front of `doWork`. -/
  | executing (t : Task)
  /-- In `doWork`, with `old_fd` read. -/
  | reading (t : Task) (oldFd : ℕ)
  /-- In `doWork`, with both fields read and the cell not written back yet. -/
  | working (id : ℕ) (info : PollInfo)
  /-- Behind the write-back, still counted as executing. -/
  | returned
deriving DecidableEq, Repr

/-- The task of a worker that still has to read a field of its `PollInfo`. -/
def WorkerPc.task : WorkerPc → Option Task
  | .dequeued t => some t
  | .executing t => some t
  | .reading t _ => some t
  | _ => none

/-- Where the main thread is. -/
inductive MainPc
  /-- At the call of `poll`. -/
  | polling
  /-- Behind it, in front of the flag-guarded compaction. -/
  | polled
  /-- At the head of the scan loop. -/
  | scanning
  /-- In front of a call of `accept`. -/
  | accepting
  /-- Behind the main loop. -/
  | closing
  | exited
deriving DecidableEq, Repr

/-- The state of the server, with workers named by `W`. -/
structure State (W : Type) where
  array : PollArray
  compressArray : Bool
  numThreadsExecuting : Int
  pollErr : ℕ
  currentSize : ℕ
  /-- The index of the scan loop. -/
  i : ℕ
  endServer : Bool
  pc : MainPc
  /-- The variable `info` of the loop body. -/
  info : PollInfo
  /-- `task_queue[0..task_count)`. -/
  queue : List Task
  worker : W → WorkerPc
  /-- The open socket descriptors of the process. -/
  opened : Int → Bool
  /-- Ghost: what each dispatch wrote, in order. -/
  dispatched : List PollInfo
  /-- Ghost: the calls of `doWork`, each with its task and the pair it read. -/
  served : List (ℕ × PollInfo)
  /-- Ghost: the dispatch that put the present value into the cell, if any. -/
  mark : ℕ → Option ℕ

namespace State

variable {W : Type}

/-- The state in front of the first call of `poll`. -/
def init (W : Type) (listenSd : ℕ) : State W where
  array := .init listenSd
  compressArray := false
  numThreadsExecuting := 0
  pollErr := 0
  currentSize := 0
  i := 0
  endServer := false
  pc := .polling
  info := ⟨0, 0⟩
  queue := []
  worker _ := .waiting
  opened fd := fd == listenSd
  dispatched := []
  served := []
  mark _ := none

/-- What a worker finds through the `args` of a task. -/
def deref (s : State W) (t : Task) : PollInfo :=
  match t.args with
  | .ref => s.info
  | .val info => info

/-- The `PollInfo` that a dispatch builds. -/
def readInfo (s : State W) : PollInfo := ⟨s.i, s.array.fd s.i⟩

/-- The task that a dispatch adds. -/
def readTask (d : Delivery) (s : State W) : Task where
  args := match d with
    | .byReference => .ref
    | .byValue => .val s.readInfo
  id := s.dispatched.length

/-- The kernel's side of `poll`: a negative descriptor gets no events, a closed
one `POLLNVAL`. -/
def KernelPoll (s : State W) (revents : ℕ → Mask) : Prop :=
  ∀ i < s.array.nfds, (s.array.fd i < 0 → revents i = 0) ∧
    (0 ≤ s.array.fd i → s.opened (s.array.fd i) = false → revents i = POLLNVAL)

/-- The kernel's side of `accept`: the descriptor is a new one, and `fcntl`
fails on a closed one. -/
def KernelAccept (s : State W) : AcceptResult → Prop
  | .failed _ => True
  | .accepted newSd keepalive nonblock =>
      s.opened newSd = false ∧ (keepalive = false → nonblock = false)

/-- The scan loop goes into its body. -/
def Examines (s : State W) : Prop := s.pc = .scanning ∧ s.i < s.currentSize ∧ 0 < s.pollErr

instance (s : State W) (revents : ℕ → Mask) : Decidable (s.KernelPoll revents) :=
  inferInstanceAs (Decidable (∀ i < s.array.nfds, _ ∧ _))

instance (s : State W) : DecidablePred s.KernelAccept
  | .failed _ => inferInstanceAs (Decidable True)
  | .accepted _ _ _ => inferInstanceAs (Decidable (_ ∧ _))

instance (s : State W) : Decidable s.Examines := inferInstanceAs (Decidable (_ ∧ _ ∧ _))

end State

/-- The atomic steps. -/
inductive Event (W : Type)
  /-- `poll` returns with these events. -/
  | poll (revents : ℕ → Mask)
  /-- `poll` returns a negative value. -/
  | pollFails
  /-- The flag-guarded compaction, and the test of `poll_err`. -/
  | flag
  /-- The scan loop ends, and with it the iteration. -/
  | endScan
  /-- The cell has no events. -/
  | skip
  /-- `POLLHUP`: close, give the cell up, compact. -/
  | hangUp
  /-- An unexpected event. -/
  | unexpected
  /-- The listening socket is readable. -/
  | listening
  /-- An accepted socket is readable: its task is built and added. -/
  | dispatch
  /-- A round of the accept loop. -/
  | accept (r : AcceptResult)
  /-- The closing loop and the exit of the process. -/
  | shutDown
  /-- The critical section of `threadStarter`. -/
  | dequeue (w : W) (t : Task)
  /-- `num_threads_executing++`. -/
  | begin (w : W) (t : Task)
  /-- `doWork` reads `old_fd`. -/
  | readOldFd (w : W) (t : Task)
  /-- `doWork` reads `fd`. -/
  | readFd (w : W) (t : Task) (oldFd : ℕ)
  /-- The end of `doWork`: the optional close and the write-back. -/
  | finish (w : W) (id : ℕ) (info : PollInfo) (closeConn : Bool)
  /-- `num_threads_executing--`. -/
  | leave (w : W)

namespace State

variable {W : Type}

/-- When is an event possible? -/
def Enabled (listenSd : ℕ) (s : State W) : Event W → Prop
  | .poll revents => s.pc = .polling ∧ s.KernelPoll revents
  | .pollFails => s.pc = .polling
  | .flag => s.pc = .polled
  | .endScan => s.pc = .scanning ∧ ¬ (s.i < s.currentSize ∧ 0 < s.pollErr)
  | .skip => s.Examines ∧ verdict listenSd s.array s.i = .skip
  | .hangUp => s.Examines ∧ verdict listenSd s.array s.i = .hangUp
  | .unexpected => s.Examines ∧ verdict listenSd s.array s.i = .unexpected
  | .listening => s.Examines ∧ verdict listenSd s.array s.i = .listening
  | .dispatch => s.Examines ∧ verdict listenSd s.array s.i = .readable ∧
      s.queue.length < MAX_TASK_NUM
  | .accept r => s.pc = .accepting ∧ s.KernelAccept r
  | .shutDown => s.pc = .closing
  | .dequeue w t => s.pc ≠ .exited ∧ s.worker w = .waiting ∧ s.queue.head? = some t
  | .begin w t => s.pc ≠ .exited ∧ s.worker w = .dequeued t
  | .readOldFd w t => s.pc ≠ .exited ∧ s.worker w = .executing t
  | .readFd w t oldFd => s.pc ≠ .exited ∧ s.worker w = .reading t oldFd
  | .finish w id info _ => s.pc ≠ .exited ∧ s.worker w = .working id info
  | .leave w => s.pc ≠ .exited ∧ s.worker w = .returned

/-- Back to the loop condition `while (!end_server)`. -/
def loopEnd (endServer : Bool) : MainPc := if endServer then .closing else .polling

/-- The marks after a compaction: they move with the descriptors. -/
def compactMark (a : PollArray) (mark : ℕ → Option ℕ) (i : ℕ) : Option ℕ :=
  ((removeFrom (fun v : Int × Option ℕ => Unused v.1) (fun j => (a.fd j, mark j)) 0 a.nfds).1 i).2

/-- The descriptors open after a round of the accept loop. -/
def acceptOpened (s : State W) : AcceptResult → Int → Bool
  | .failed _ => s.opened
  | .accepted newSd keepalive nonblock =>
      Function.update s.opened newSd
        (newSd ∉ (acceptOne s.array (.accepted newSd keepalive nonblock)).closed : Bool)

variable [DecidableEq W]

/-- The state after an event. -/
def next (d : Delivery) (s : State W) : Event W → State W
  | .poll revents =>
      { s with
        array := { s.array with
          revents := fun i => if i < s.array.nfds then revents i else s.array.revents i }
        pollErr := (List.range s.array.nfds).countP fun i => revents i ≠ 0
        pc := .polled }
  | .pollFails => { s with pc := .closing }
  | .flag =>
      let packing := compressing s.compressArray s.numThreadsExecuting
      let array := compactIf s.compressArray s.numThreadsExecuting s.array
      { s with
        array := array
        compressArray := s.compressArray && !packing
        mark := if packing then compactMark s.array s.mark else s.mark
        currentSize := if s.pollErr = 0 then s.currentSize else array.nfds
        i := 0
        pc := if s.pollErr = 0 then loopEnd s.endServer else .scanning }
  | .endScan => { s with pc := loopEnd s.endServer }
  | .skip => { s with i := s.i + 1 }
  | .hangUp =>
      { s with
        opened := Function.update s.opened (s.array.fd s.i) false
        array := s.array.hangUp s.i
        mark := compactMark (s.array.setFd s.i (-1)) (Function.update s.mark s.i none)
        i := s.i + 1 }
  | .unexpected => { s with endServer := true, pc := .closing }
  | .listening => { s with pollErr := s.pollErr - 1, pc := .accepting }
  | .dispatch =>
      { s with
        pollErr := s.pollErr - 1
        info := s.readInfo
        array := s.array.setFd s.i FD_STOP_POLLING
        queue := s.queue ++ [s.readTask d]
        dispatched := s.dispatched ++ [s.readInfo]
        mark := Function.update s.mark s.i (some s.dispatched.length)
        i := s.i + 1 }
  | .accept r =>
      let step := acceptOne s.array r
      { s with
        array := step.array
        endServer := s.endServer || step.endServer
        opened := if step.next = .exit then fun _ => false else s.acceptOpened r
        mark := if step.next = .again then Function.update s.mark s.array.nfds none else s.mark
        i := if step.next = .leave then s.i + 1 else s.i
        pc := match step.next with
          | .again => .accepting
          | .leave => .scanning
          | .exit => .exited }
  | .shutDown => { s with opened := fun _ => false, pc := .exited }
  | .dequeue w t =>
      { s with queue := s.queue.tail, worker := Function.update s.worker w (.dequeued t) }
  | .begin w t =>
      { s with
        numThreadsExecuting := s.numThreadsExecuting + 1
        worker := Function.update s.worker w (.executing t) }
  | .readOldFd w t =>
      { s with worker := Function.update s.worker w (.reading t (s.deref t).oldFd) }
  | .readFd w t oldFd =>
      let info : PollInfo := ⟨oldFd, (s.deref t).fd⟩
      { s with
        worker := Function.update s.worker w (.working t.id info)
        served := s.served ++ [(t.id, info)] }
  | .finish w _ info closeConn =>
      { s with
        opened := if closeConn then Function.update s.opened info.fd false else s.opened
        array := s.array.setFd info.oldFd (if closeConn then -1 else info.fd)
        compressArray := s.compressArray || closeConn
        mark := Function.update s.mark info.oldFd none
        worker := Function.update s.worker w .returned }
  | .leave w =>
      { s with
        numThreadsExecuting := s.numThreadsExecuting - 1
        worker := Function.update s.worker w .waiting }

instance (listenSd : ℕ) (s : State W) : DecidablePred (s.Enabled listenSd) := fun e => by
  cases e <;> unfold Enabled <;> infer_instance

/-- An uneventful kernel: `poll` does not fail and reports nothing but input and
hang-ups, `accept` fails only because nobody waits, and a new socket can be set
up. -/
def KernelOk (s : State W) : Event W → Prop
  | .poll revents => ∀ i < s.array.nfds, s.opened (s.array.fd i) = true →
      revents i = 0 ∨ revents i = POLLIN ∨ HungUp (revents i)
  | .pollFails => False
  | .accept (.failed wouldBlock) => wouldBlock = true
  | .accept (.accepted _ keepalive nonblock) => keepalive = true ∧ nonblock = true
  | _ => True

instance (s : State W) : DecidablePred s.KernelOk
  | .poll _ => inferInstanceAs (Decidable (∀ i < s.array.nfds, _ → _))
  | .pollFails => inferInstanceAs (Decidable False)
  | .accept (.failed _) => inferInstanceAs (Decidable (_ = true))
  | .accept (.accepted _ _ _) => inferInstanceAs (Decidable (_ ∧ _))
  | .flag | .endScan | .skip | .hangUp | .unexpected | .listening | .dispatch | .shutDown
  | .dequeue _ _ | .begin _ _ | .readOldFd _ _ | .readFd _ _ _ | .finish _ _ _ _ | .leave _ =>
      inferInstanceAs (Decidable True)

end State

/-- The server as a machine. -/
def machine (W : Type) [DecidableEq W] (d : Delivery) (listenSd : ℕ) :
    Machine (State W) (Event W) where
  init := .init W listenSd
  step s e := if s.Enabled listenSd e then some (s.next d e) else none

theorem machine_step_iff {W : Type} [DecidableEq W] {d : Delivery} {listenSd : ℕ}
    {s s' : State W} {e : Event W} :
    (machine W d listenSd).step s e = some s' ↔ s.Enabled listenSd e ∧ s.next d e = s' := by
  simp [machine]

end PotHub.Server
