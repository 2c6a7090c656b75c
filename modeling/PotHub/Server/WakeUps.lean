import PotHub.Lib.Monitor
import PotHub.Server.ThreadPool
import Mathlib.Data.Fintype.Option

/-!
# The waits of the thread pool

`addTask` and `threadStarter` step by step: the mutex `thread_pool_mutex`, the
waits on the two condition variables, and the signals, which are issued behind
the unlock.  Main is the one producer; there is at least one worker.  The two
functions are the two sides of a monitor: `addTask` waits while the queue is
full, `threadStarter` while it is empty.
-/

namespace PotHub.Server

open PotHub.Lib

/-- The threads that use the queue. -/
inductive PoolThread (W : Type)
  | main
  | worker (w : W)
deriving DecidableEq

instance {W : Type} [Fintype W] [DecidableEq W] : Fintype (PoolThread W) :=
  .ofSurjective (fun x : Option W => x.elim .main .worker) fun
    | .main => ⟨none, rfl⟩
    | .worker w => ⟨some w, rfl⟩

/-- What the threads share, with the argument of the call of `addTask` that has
not been added yet. -/
structure PoolShared (W T : Type) where
  pool : ThreadPool W T
  task : Option T

/-- The steps outside of the two functions. -/
inductive PoolWork (T : Type)
  /-- Main calls `addTask`. -/
  | call (t : T)
  /-- A worker goes into `executeTask`. -/
  | begin (t : T)
  /-- `executeTask` returns. -/
  | leave (t : T)
deriving DecidableEq

section Monitor

variable {W T : Type}

/-- The condition of the wait: in `addTask` the queue is full, in
`threadStarter` it is empty. -/
def poolBlocked : Bool → PoolShared W T → Prop
  | false, r => r.pool.taskCount = MAX_TASK_NUM
  | true, r => r.pool.taskCount = 0

/-- Main is ready for `addTask` with an argument, a worker without a task. -/
def poolReady : PoolThread W → PoolShared W T → Prop
  | .main, r => r.task.isSome
  | .worker w, r => r.pool.worker w = .waiting

variable [DecidableEq W]

/-- The critical sections, behind the waits. -/
def poolAct : PoolThread W → PoolShared W T → PoolShared W T
  | .main, r =>
      match r.task with
      | some t => ⟨r.pool.next (.addTask t), none⟩
      | none => r
  | .worker w, r => { r with pool := r.pool.next (.dequeue w) }

theorem poolAct_main_worker (r : PoolShared W T) :
    (poolAct .main r).pool.worker = r.pool.worker := by
  cases ht : r.task with
  | none => rw [poolAct, ht]
  | some t =>
      rw [poolAct, ht]
      rfl

variable [DecidableEq T]

/-- The steps of a thread outside of the two functions. -/
def poolOutside : PoolThread W → PoolWork T → PoolShared W T → Option (PoolShared W T)
  | .main, .call t, r => if r.task = none then some { r with task := some t } else none
  | .worker w, .begin t, r =>
      if r.pool.Enabled (.begin w t) then some { r with pool := r.pool.next (.begin w t) } else none
  | .worker w, .leave t, r =>
      if r.pool.Enabled (.leave w t) then some { r with pool := r.pool.next (.leave w t) } else none
  | _, _, _ => none

/-- What an outside step does: a call brings an argument, a step of a worker is
one of the pool. -/
theorem poolOutside_cases {x : PoolThread W} {a : PoolWork T} {r r' : PoolShared W T}
    (h : poolOutside x a r = some r') :
    (∃ t, x = .main ∧ r.task = none ∧ r' = { r with task := some t }) ∨
      ∃ w t, x = .worker w ∧ ∃ e : PoolEvent W T, (e = .begin w t ∨ e = .leave w t) ∧
        r.pool.Enabled e ∧ r' = { r with pool := r.pool.next e } := by
  cases x with
  | main =>
      cases a with
      | call t =>
          simp only [poolOutside, Option.ite_none_right_eq_some, Option.some.injEq] at h
          exact Or.inl ⟨t, rfl, h.1, h.2.symm⟩
      | begin t => simp [poolOutside] at h
      | leave t => simp [poolOutside] at h
  | worker w =>
      cases a with
      | call t => simp [poolOutside] at h
      | begin t =>
          simp only [poolOutside, Option.ite_none_right_eq_some, Option.some.injEq] at h
          exact Or.inr ⟨w, t, rfl, _, Or.inl rfl, h.1, h.2.symm⟩
      | leave t =>
          simp only [poolOutside, Option.ite_none_right_eq_some, Option.some.injEq] at h
          exact Or.inr ⟨w, t, rfl, _, Or.inr rfl, h.1, h.2.symm⟩

/-- `addTask` and `threadStarter` as a monitor. -/
def poolMonitor (W T : Type) [Nonempty W] [DecidableEq W] [DecidableEq T] :
    Monitor (PoolThread W) (PoolShared W T) (PoolWork T) where
  side
    | .main => false
    | .worker _ => true
  manned
    | false => ⟨.main, rfl⟩
    | true => (Nonempty.elim ‹_› fun w => ⟨.worker w, rfl⟩)
  blocked := poolBlocked
  act := poolAct
  ready := poolReady
  outside := poolOutside
  outside_blocked := by
    intro x a r r' h b
    rcases poolOutside_cases h with ⟨t, -, -, rfl⟩ | ⟨w, t, -, e, rfl | rfl, -, rfl⟩ <;>
      cases b <;> exact Iff.rfl
  act_ready := by
    intro x y r hxy hx
    cases x with
    | main =>
        cases y with
        | main => exact absurd rfl hxy
        | worker w => exact hx
    | worker v =>
        cases y with
        | main =>
            show (poolAct .main r).pool.worker v = .waiting
            rw [poolAct_main_worker]
            exact hx
        | worker w =>
            have hvw : v ≠ w := fun h => hxy (congrArg _ h)
            show Function.update r.pool.worker w _ v = .waiting
            rw [Function.update_of_ne hvw]
            exact hx
  outside_ready := by
    intro x y a r r' hxy h hx
    rcases poolOutside_cases h with ⟨t, rfl, -, rfl⟩ | ⟨w, t, rfl, e, he, -, rfl⟩
    · cases x with
      | main => exact absurd rfl hxy
      | worker v => exact hx
    · cases x with
      | main => exact hx
      | worker v =>
          have hvw : v ≠ w := fun h => hxy (congrArg _ h)
          rcases he with rfl | rfl
          · show Function.update r.pool.worker w _ v = .waiting
            rw [Function.update_of_ne hvw]
            exact hx
          · show Function.update r.pool.worker w _ v = .waiting
            rw [Function.update_of_ne hvw]
            exact hx

end Monitor

namespace ThreadPool

variable {W T : Type} [Nonempty W] [DecidableEq W] [DecidableEq T]

instance : ∀ b (r : PoolShared W T), Decidable ((poolMonitor W T).blocked b r)
  | false, _ => inferInstanceAs (Decidable (_ = _))
  | true, _ => inferInstanceAs (Decidable (_ = _))

instance : ∀ x (r : PoolShared W T), Decidable ((poolMonitor W T).ready x r)
  | .main, _ => inferInstanceAs (Decidable (_ = _))
  | .worker _, _ => inferInstanceAs (Decidable (_ = _))

end ThreadPool

section Waits

variable {W T : Type} [Fintype W] [Nonempty W] [DecidableEq W] [DecidableEq T]

/-- The pool with its waits as a machine, in front of the first call. -/
def waitsMachine (W : Type) {T : Type} [Fintype W] [Nonempty W] [DecidableEq W] [DecidableEq T]
    (taskQueue : ℕ → T) :
    Machine (Monitor.State (PoolThread W) (PoolShared W T))
      (Monitor.Event (PoolThread W) (PoolWork T)) :=
  (poolMonitor W T).machine ⟨.init W taskQueue, none⟩

variable {taskQueue : ℕ → T} {s : Monitor.State (PoolThread W) (PoolShared W T)}

/-- With its waits, the pool does what it does without them. -/
theorem waits_refine_pool : (waitsMachine W taskQueue).Refines (poolMachine W taskQueue)
    fun s p => (poolMonitor W T).Ready s ∧ s.resource.pool = p := by
  refine ⟨⟨Monitor.ready_of_reach (.init : (waitsMachine W taskQueue).Reach Machine.anyStep _),
    rfl⟩, ?_⟩
  rintro s s' p e ⟨hready, rfl⟩ hstep
  obtain ⟨he, rfl⟩ := Monitor.machine_step_iff.1 hstep
  have hready' := hready.next he
  cases e with
  | outside x a =>
      obtain ⟨r, hr⟩ := Option.isSome_iff_exists.1 he.2
      have hres : ((poolMonitor W T).next s (.outside x a)).resource = r := by
        simp [Monitor.next, hr]
      rcases poolOutside_cases hr with ⟨t, -, -, rfl⟩ | ⟨w, t, -, e, -, hen, rfl⟩
      · exact Or.inl ⟨hready', by rw [hres]⟩
      · exact Or.inr ⟨e, _, poolMachine_step_iff.2 ⟨hen, rfl⟩, hready', by rw [hres]⟩
  | act x =>
      have hx : poolReady x s.resource := hready x (Or.inr (Or.inl he.1))
      cases x with
      | main =>
          obtain ⟨t, ht⟩ := Option.isSome_iff_exists.1 hx
          refine Or.inr ⟨.addTask t, _, poolMachine_step_iff.2 ⟨he.2, rfl⟩, hready', ?_⟩
          show (poolAct .main s.resource).pool = _
          simp [poolAct, ht]
      | worker w =>
          exact Or.inr ⟨.dequeue w, _, poolMachine_step_iff.2 ⟨⟨hx, he.2⟩, rfl⟩, hready', rfl⟩
  | enter x => exact Or.inl ⟨hready', rfl⟩
  | lock x => exact Or.inl ⟨hready', rfl⟩
  | wait x => exact Or.inl ⟨hready', rfl⟩
  | spurious x => exact Or.inl ⟨hready', rfl⟩
  | relock x => exact Or.inl ⟨hready', rfl⟩
  | unlock x => exact Or.inl ⟨hready', rfl⟩
  | signal x woken => exact Or.inl ⟨hready', rfl⟩

/-- Its queue is a bounded queue, too. -/
theorem ordered_of_waits {guard : _ → _ → Prop} (h : (waitsMachine W taskQueue).Reach guard s) :
    s.resource.pool.fifo.Ordered MAX_TASK_NUM := by
  obtain ⟨q, ⟨p, ⟨-, rfl⟩, hold⟩, hordered⟩ :=
    (waits_refine_pool.comp ThreadPool.refines_fifo).invariant (fun _ => Fifo.ordered_of_reach) h
  exact hold.fifo_eq ▸ hordered

/-- Main is in `addTask`, in front of the critical section. -/
def HasTask (s : Monitor.State (PoolThread W) (PoolShared W T)) : Prop :=
  s.resource.task.isSome

/-- The steps that need neither a new call nor luck. -/
def Works : Monitor.Event (PoolThread W) (PoolWork T) → Prop
  | .spurious _ | .outside _ (.call _) => False
  | _ => True

omit [Fintype W] [Nonempty W] [DecidableEq W] [DecidableEq T] in
theorem works_of_progress {e : Monitor.Event (PoolThread W) (PoolWork T)} (h : e.Progress) :
    Works e := by
  cases e with
  | outside x a => exact absurd h id
  | spurious x => exact absurd h id
  | _ => trivial

omit [Fintype W] in
/-- A worker that is away has a step. -/
theorem exists_works_of_away {w : W} (h : s.phase (.worker w) = .away) :
    ∃ e, Works e ∧ (poolMonitor W T).Enabled s e := by
  cases hw : s.resource.pool.worker w with
  | waiting => exact ⟨.enter (.worker w), trivial, h, hw⟩
  | dequeued t =>
      refine ⟨.outside (.worker w) (.begin t), trivial, h, ?_⟩
      simp [poolMonitor, poolOutside, ThreadPool.Enabled, hw]
  | executing t =>
      refine ⟨.outside (.worker w) (.leave t), trivial, h, ?_⟩
      simp [poolMonitor, poolOutside, ThreadPool.Enabled, hw]

/-- When all workers are asleep, the queue is empty or main has a signal to
issue. -/
theorem watched_workers (h : (waitsMachine W taskQueue).Reach Machine.anyStep s)
    (hasleep : ∀ w, s.phase (.worker w) = .asleep) :
    s.resource.pool.taskCount = 0 ∨ (s.phase .main).Owes := by
  have hside : ∀ x, (poolMonitor W T).side x = true → s.phase x = .asleep := by
    intro x hx
    cases x with
    | main => exact absurd hx (by simp [poolMonitor])
    | worker w => exact hasleep w
  refine (Monitor.watched_of_reach h true hside).imp_right ?_
  rintro ⟨y, hy, howes⟩
  cases y with
  | main => exact howes
  | worker w => exact absurd rfl hy

/-- When main is asleep, the queue is full or a worker has a signal to issue. -/
theorem watched_main (h : (waitsMachine W taskQueue).Reach Machine.anyStep s)
    (hasleep : s.phase .main = .asleep) :
    s.resource.pool.taskCount = MAX_TASK_NUM ∨ ∃ w, (s.phase (.worker w)).Owes := by
  have hside : ∀ x, (poolMonitor W T).side x = false → s.phase x = .asleep := by
    intro x hx
    cases x with
    | main => exact hasleep
    | worker w => exact absurd hx (by simp [poolMonitor])
  refine (Monitor.watched_of_reach h false hside).imp_right ?_
  rintro ⟨y, hy, howes⟩
  cases y with
  | main => exact absurd rfl hy
  | worker w => exact ⟨w, howes⟩

/-- Work is pending, so some thread has a step: otherwise all workers would
sleep in front of an empty queue, and main in front of a full one. -/
theorem exists_works (h : (waitsMachine W taskQueue).Reach Machine.anyStep s)
    (hpending : 0 < s.resource.pool.taskCount ∨ HasTask s) :
    ∃ e, Works e ∧ (poolMonitor W T).Enabled s e := by
  by_cases hmoving : ∃ x, s.phase x ≠ .away ∧ s.phase x ≠ .asleep
  · obtain ⟨x, haway, hsleep⟩ := hmoving
    obtain ⟨e, hp, he⟩ := Monitor.exists_progress (Monitor.locked_of_reach h) haway hsleep
    exact ⟨e, works_of_progress hp, he⟩
  have hrest : ∀ x, s.phase x = .away ∨ s.phase x = .asleep := by
    intro x
    by_contra hx
    exact hmoving ⟨x, not_or.1 hx⟩
  have howes : ∀ x, ¬ (s.phase x).Owes := by
    intro x
    rcases hrest x with hx | hx <;> simp [hx, Phase.Owes]
  by_cases hworker : ∃ w, s.phase (.worker w) = .away
  · obtain ⟨w, hw⟩ := hworker
    exact exists_works_of_away hw
  have hasleep : ∀ w, s.phase (.worker w) = .asleep := fun w =>
    (hrest (.worker w)).resolve_left fun hw => hworker ⟨w, hw⟩
  have hempty : s.resource.pool.taskCount = 0 :=
    (watched_workers h hasleep).resolve_right (howes .main)
  have htask : HasTask s := hpending.resolve_left (by omega)
  rcases hrest .main with hmain | hmain
  · exact ⟨.enter .main, trivial, hmain, htask⟩
  · have hfull : s.resource.pool.taskCount = MAX_TASK_NUM := by
      refine (watched_main h hmain).resolve_right ?_
      rintro ⟨w, hw⟩
      exact howes (.worker w) hw
    simp [hempty, MAX_TASK_NUM] at hfull

/-- **No lost wake-up.**  With tasks in the queue and all workers asleep, main
has a signal to issue; with room in the queue and main asleep, a worker has;
and while work is pending, some thread has a step. -/
theorem wakeUps_of_reach (h : (waitsMachine W taskQueue).Reach Machine.anyStep s) :
    (0 < s.resource.pool.taskCount → (∀ w, s.phase (.worker w) = .asleep) →
        (s.phase .main).Owes) ∧
      (s.resource.pool.taskCount < MAX_TASK_NUM → s.phase .main = .asleep →
        ∃ w, (s.phase (.worker w)).Owes) ∧
      (0 < s.resource.pool.taskCount ∨ HasTask s →
        ∃ e, Works e ∧ (poolMonitor W T).Enabled s e) := by
  refine ⟨fun hpos hasleep => ?_, fun hlt hmain => ?_, exists_works h⟩
  · exact (watched_workers h hasleep).resolve_left hpos.ne'
  · exact (watched_main h hmain).resolve_left hlt.ne

end Waits

/-- The one worker falls asleep, and main adds a task. -/
def addsBehindSleeper : List (Monitor.Event (PoolThread (Fin 1)) (PoolWork ℕ)) :=
  [.enter (.worker 0), .lock (.worker 0), .wait (.worker 0), .outside .main (.call 5),
    .enter .main, .lock .main, .act .main]

theorem wakeUps_of_addsBehindSleeper :
    ∃ s, (waitsMachine (Fin 1) fun _ => 0).Reach Machine.anyStep s ∧
      0 < s.resource.pool.taskCount ∧ (∀ w, s.phase (.worker w) = .asleep) ∧
      (s.phase .main).Owes := by
  have hrun : ∃ s, (waitsMachine (Fin 1) fun _ => 0).Reach Machine.anyStep s ∧
      0 < s.resource.pool.taskCount ∧ ∀ w, s.phase (.worker w) = .asleep :=
    Machine.exists_reach_of_tryRun addsBehindSleeper (by decide +kernel)
  obtain ⟨s, hs, hpos, hasleep⟩ := hrun
  exact ⟨s, hs, hpos, hasleep, (wakeUps_of_reach hs).1 hpos hasleep⟩

end PotHub.Server
