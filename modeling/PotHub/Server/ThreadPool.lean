import PotHub.Lib.Fifo
import PotHub.Lib.Holders
import PotHub.Lib.InPlace
import PotHub.Server.System

/-!
# The task queue

The array `task_queue` of `thread-pool.c` with its counter, and the counter of
the executing threads.  The critical sections of `addTask` and `threadStarter`
and the two of `executeTask` are atomic steps; any number of workers takes
tasks of any kind.

The array is shifted down by one when a task is taken, and the cells at and
behind `task_count` keep stale copies.  Nevertheless the array is a bounded
queue: every step is one of `Fifo`, or leaves the queue alone.
-/

namespace PotHub.Server

open PotHub.Lib

/-- Where a worker is in `threadStarter`, as far as its task is concerned. -/
inductive PoolWorker (T : Type)
  /-- In front of the critical section, or waiting in it. -/
  | waiting
  /-- Behind it, with a task. -/
  | dequeued (t : T)
  /-- In `executeTask`, between the increment and the decrement. -/
  | executing (t : T)
deriving DecidableEq, Repr

/-- The worker stands between the increment and the decrement. -/
def PoolWorker.IsExecuting {T : Type} (pc : PoolWorker T) : Prop := ∃ t, pc = .executing t

instance {T : Type} : DecidablePred (PoolWorker.IsExecuting (T := T))
  | .waiting => isFalse (by simp [PoolWorker.IsExecuting])
  | .dequeued _ => isFalse (by simp [PoolWorker.IsExecuting])
  | .executing t => isTrue ⟨t, rfl⟩

/-- The shared variables of `thread-pool.c`, and the workers. -/
structure ThreadPool (W T : Type) where
  /-- The array `task_queue`. -/
  taskQueue : ℕ → T
  taskCount : Int
  numThreadsExecuting : Int
  worker : W → PoolWorker T
  /-- Ghost: the tasks given to `addTask`, in order. -/
  added : List T
  /-- Ghost: the tasks taken by workers, in order. -/
  dequeued : List T

/-- The atomic steps. -/
inductive PoolEvent (W T : Type)
  /-- The critical section of `addTask`, behind its wait. -/
  | addTask (t : T)
  /-- The critical section of `threadStarter`, behind its wait. -/
  | dequeue (w : W)
  /-- `num_threads_executing++`. -/
  | begin (w : W) (t : T)
  /-- `num_threads_executing--`, after the task has returned. -/
  | leave (w : W) (t : T)

namespace ThreadPool

variable {W T : Type}

/-- The pool in front of the first task; the array holds what it held. -/
def init (W : Type) (taskQueue : ℕ → T) : ThreadPool W T where
  taskQueue := taskQueue
  taskCount := 0
  numThreadsExecuting := 0
  worker _ := .waiting
  added := []
  dequeued := []

/-- When is an event possible?  The waits of the critical sections end when the
counter is not the capacity, and not zero. -/
def Enabled (s : ThreadPool W T) : PoolEvent W T → Prop
  | .addTask _ => s.taskCount ≠ MAX_TASK_NUM
  | .dequeue w => s.worker w = .waiting ∧ s.taskCount ≠ 0
  | .begin w t => s.worker w = .dequeued t
  | .leave w t => s.worker w = .executing t

/-- The indices of `task_queue` that an event uses. -/
def indices (s : ThreadPool W T) : PoolEvent W T → List Int
  | .addTask _ => [s.taskCount]
  | .dequeue _ => 0 :: (shiftIndices 0 s.taskCount.toNat).map Int.ofNat
  | _ => []

/-- The tasks of `task_queue[0..task_count)`. -/
def tasks (s : ThreadPool W T) : List T := (List.range s.taskCount.toNat).map s.taskQueue

/-- The pool as a queue with its history. -/
def fifo (s : ThreadPool W T) : Fifo T := ⟨s.tasks, s.added, s.dequeued⟩

variable [DecidableEq W]

/-- The state after an event. -/
def next (s : ThreadPool W T) : PoolEvent W T → ThreadPool W T
  | .addTask t =>
      { s with
        taskQueue := Function.update s.taskQueue s.taskCount.toNat t
        taskCount := s.taskCount + 1
        added := s.added ++ [t] }
  | .dequeue w =>
      { s with
        taskQueue := shiftDown s.taskQueue 0 s.taskCount.toNat
        taskCount := s.taskCount - 1
        worker := Function.update s.worker w (.dequeued (s.taskQueue 0))
        dequeued := s.dequeued ++ [s.taskQueue 0] }
  | .begin w t =>
      { s with
        numThreadsExecuting := s.numThreadsExecuting + 1
        worker := Function.update s.worker w (.executing t) }
  | .leave w _ =>
      { s with
        numThreadsExecuting := s.numThreadsExecuting - 1
        worker := Function.update s.worker w .waiting }

instance [DecidableEq T] (s : ThreadPool W T) : DecidablePred s.Enabled
  | .addTask _ => inferInstanceAs (Decidable (_ ≠ _))
  | .dequeue _ => inferInstanceAs (Decidable (_ ∧ _))
  | .begin _ _ => inferInstanceAs (Decidable (_ = _))
  | .leave _ _ => inferInstanceAs (Decidable (_ = _))

end ThreadPool

/-- The pool as a machine. -/
def poolMachine (W : Type) {T : Type} [DecidableEq W] [DecidableEq T] (taskQueue : ℕ → T) :
    Machine (ThreadPool W T) (PoolEvent W T) where
  init := .init W taskQueue
  step s e := if s.Enabled e then some (s.next e) else none

theorem poolMachine_step_iff {W T : Type} [DecidableEq W] [DecidableEq T] {taskQueue : ℕ → T}
    {s s' : ThreadPool W T} {e : PoolEvent W T} :
    (poolMachine W taskQueue).step s e = some s' ↔ s.Enabled e ∧ s.next e = s' := by
  simp [poolMachine]

namespace ThreadPool

variable {W T : Type} {s s' : ThreadPool W T}

/-! ## The queue -/

/-- The counter is within the array, and the array in front of it is the
content of the queue. -/
structure Holds (s : ThreadPool W T) (q : Fifo T) : Prop where
  nonneg : 0 ≤ s.taskCount
  le : s.taskCount ≤ MAX_TASK_NUM
  fifo_eq : s.fifo = q

theorem length_tasks (h : 0 ≤ s.taskCount) : (s.tasks.length : Int) = s.taskCount := by
  simp [tasks, h]

variable [DecidableEq W]

/-- A task is appended behind the last one. -/
theorem tasks_addTask (h : 0 ≤ s.taskCount) (t : T) :
    (s.next (.addTask t)).tasks = s.tasks ++ [t] := by
  obtain ⟨n, hn⟩ := Int.eq_ofNat_of_zero_le h
  have hcount : (s.next (.addTask t)).taskCount.toNat = n + 1 := by
    show (s.taskCount + 1).toNat = n + 1
    omega
  have hold : ∀ i ∈ List.range n, Function.update s.taskQueue n t i = s.taskQueue i :=
    fun i hi => Function.update_of_ne (List.mem_range.1 hi).ne _ _
  rw [tasks, tasks, hcount, hn, Int.toNat_natCast, List.range_succ, List.map_append]
  simp [next, hn, List.map_congr_left hold]

/-- The first task is taken, and the others move up. -/
theorem tasks_dequeue (h : 0 < s.taskCount) (w : W) :
    s.tasks = s.taskQueue 0 :: (s.next (.dequeue w)).tasks := by
  obtain ⟨n, hn⟩ : ∃ n : ℕ, s.taskCount = n + 1 := ⟨(s.taskCount - 1).toNat, by omega⟩
  have hcount : (s.next (.dequeue w)).taskCount.toNat = n := by
    show (s.taskCount - 1).toNat = n
    omega
  have hn' : s.taskCount.toNat = n + 1 := by omega
  rw [tasks, tasks, hcount, hn', List.range_succ_eq_map, List.map_cons, List.map_map]
  refine congrArg _ (List.map_congr_left fun i hi => ?_)
  show s.taskQueue (i + 1) = shiftDown s.taskQueue 0 s.taskCount.toNat i
  rw [shiftDown_of_le (Nat.zero_le i) (by have := List.mem_range.1 hi; omega)]

variable [DecidableEq T] {taskQueue : ℕ → T}

/-- The array refines the bounded queue. -/
theorem refines_fifo : (poolMachine W taskQueue).Refines (Fifo.machine T MAX_TASK_NUM) Holds := by
  refine ⟨⟨le_rfl, Int.natCast_nonneg _, rfl⟩, ?_⟩
  rintro s s' q e ⟨hnonneg, hle, rfl⟩ hstep
  obtain ⟨he, rfl⟩ := poolMachine_step_iff.1 hstep
  cases e with
  | addTask t =>
      have he : s.taskCount ≠ MAX_TASK_NUM := he
      have hlen := length_tasks hnonneg
      have hlt : s.tasks.length < MAX_TASK_NUM := by omega
      refine Or.inr ⟨.add t, _, if_pos hlt, ?_, ?_, ?_⟩
      · show 0 ≤ s.taskCount + 1
        omega
      · show s.taskCount + 1 ≤ MAX_TASK_NUM
        omega
      · rw [fifo, tasks_addTask hnonneg]
        rfl
  | dequeue w =>
      have hpos : 0 < s.taskCount := lt_of_le_of_ne hnonneg he.2.symm
      refine Or.inr ⟨.remove, (s.next (.dequeue w)).fifo, ?_, ?_, ?_, rfl⟩
      · rw [fifo, tasks_dequeue hpos w]
        rfl
      · show 0 ≤ s.taskCount - 1
        omega
      · show s.taskCount - 1 ≤ MAX_TASK_NUM
        omega
  | begin w t => exact Or.inl ⟨hnonneg, hle, rfl⟩
  | leave w t => exact Or.inl ⟨hnonneg, hle, rfl⟩

omit [DecidableEq W] [DecidableEq T] in
/-- The indices that an event uses are within the array. -/
theorem indices_lt {q : Fifo T} (h : s.Holds q) {e : PoolEvent W T} (he : s.Enabled e) :
    ∀ k ∈ s.indices e, 0 ≤ k ∧ k < MAX_TASK_NUM := by
  have hnonneg := h.nonneg
  have hle := h.le
  intro k hk
  cases e with
  | addTask t =>
      have he : s.taskCount ≠ MAX_TASK_NUM := he
      rw [List.mem_singleton.1 hk]
      omega
  | dequeue w =>
      have he : s.taskCount ≠ 0 := he.2
      rcases List.mem_cons.1 hk with rfl | hk
      · omega
      · obtain ⟨i, hi, rfl⟩ := List.mem_map.1 hk
        have := lt_of_mem_shiftIndices hi
        simp only [Int.ofNat_eq_natCast]
        omega
  | begin w t => exact absurd hk List.not_mem_nil
  | leave w t => exact absurd hk List.not_mem_nil

/-! ## The executing threads -/

/-- The counter of the executing threads counts them. -/
def Counted [Fintype W] (s : ThreadPool W T) : Prop :=
  s.numThreadsExecuting = numberOf PoolWorker.IsExecuting s.worker

omit [DecidableEq T] in
theorem Counted.next [Fintype W] (h : s.Counted) {e : PoolEvent W T} (he : s.Enabled e) :
    (s.next e).Counted := by
  unfold Counted at h ⊢
  cases e with
  | addTask t => exact h
  | dequeue w =>
      show s.numThreadsExecuting = numberOf _ (Function.update s.worker w _)
      rw [numberOf_update, he.1]
      simp [PoolWorker.IsExecuting, h]
  | begin w t =>
      have he : s.worker w = .dequeued t := he
      show s.numThreadsExecuting + 1 = numberOf _ (Function.update s.worker w _)
      rw [numberOf_update, he]
      simp [PoolWorker.IsExecuting, h]
  | leave w t =>
      have he : s.worker w = .executing t := he
      show s.numThreadsExecuting - 1 = numberOf _ (Function.update s.worker w _)
      rw [numberOf_update, he]
      simp [PoolWorker.IsExecuting, h]

end ThreadPool

end PotHub.Server
