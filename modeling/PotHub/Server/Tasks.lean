import PotHub.Lib.Fifo
import PotHub.Lib.Holders
import PotHub.Server.System

/-!
# The life of a task

A task is outstanding from its dispatch to the write-back of its worker: it is
in the queue, or a worker has it.  Tasks are told apart by their number.  For
either delivery and in every run, a task is outstanding at one place at most,
and each dispatched task is still to be read by a worker or has been read by
one call of `doWork`, never both and never twice.
-/

namespace PotHub.Server

open PotHub.Lib

/-- The places where the steps of the server move descriptors and tasks. -/
inductive Place (W : Type)
  /-- A polled cell. -/
  | cell (i : ℕ)
  /-- A task of the queue, by its position. -/
  | queued (k : ℕ)
  /-- A worker with an outstanding task. -/
  | worker (w : W)
deriving DecidableEq

/-- The places of the outstanding tasks. -/
def Place.Outstanding {W : Type} : Place W → Prop
  | .cell _ => False
  | .queued _ => True
  | .worker _ => True

theorem Place.eq_cell_of_not_outstanding {W : Type} {p : Place W} (h : ¬ p.Outstanding) :
    ∃ i, p = .cell i := by
  cases p with
  | cell i => exact ⟨i, rfl⟩
  | queued k => exact absurd trivial h
  | worker w => exact absurd trivial h

/-- The number of a worker's outstanding task. -/
def WorkerPc.taskId : WorkerPc → Option ℕ
  | .dequeued t => some t.id
  | .executing t => some t.id
  | .reading t _ => some t.id
  | .working id _ => some id
  | _ => none

namespace State

variable {W : Type}

/-- What the tasks are read as: by `g` in the queue, by `f` at the workers. -/
def heldAt {β : Type} (g : Task → β) (f : WorkerPc → Option β) (s : State W) : Place W → Option β
  | .cell _ => none
  | .queued k => s.queue[k]?.map g
  | .worker w => f (s.worker w)

/-- The number of the outstanding task at a place. -/
def idAt (s : State W) : Place W → Option ℕ := s.heldAt Task.id WorkerPc.taskId

/-- The task at a place that still has to be read. -/
def unreadAt (s : State W) : Place W → Option Task := s.heldAt id WorkerPc.task

/-- A worker's outstanding task: its number and the `PollInfo` that the worker
has read or would read now. -/
def carried (s : State W) : WorkerPc → Option (ℕ × PollInfo)
  | .dequeued t => some (t.id, s.deref t)
  | .executing t => some (t.id, s.deref t)
  | .reading t oldFd => some (t.id, ⟨oldFd, (s.deref t).fd⟩)
  | .working id info => some (id, info)
  | _ => none

/-- The outstanding task at a place, with its number and its `PollInfo`. -/
def taskAt (s : State W) : Place W → Option (ℕ × PollInfo) :=
  s.heldAt (fun t => (t.id, s.deref t)) s.carried

theorem idAt_eq_taskAt (s : State W) (p : Place W) : s.idAt p = (s.taskAt p).map Prod.fst := by
  match p with
  | .cell i => rfl
  | .queued k => simp [idAt, taskAt, heldAt, Function.comp_def]
  | .worker w => cases h : s.worker w <;> simp [idAt, taskAt, heldAt, carried, WorkerPc.taskId, h]

theorem idAt_of_unreadAt {s : State W} {p : Place W} {t : Task} (h : s.unreadAt p = some t) :
    s.idAt p = some t.id := by
  match p with
  | .cell i => simp [unreadAt, heldAt] at h
  | .queued k =>
      simp only [unreadAt, heldAt, Option.map_id_fun, id_eq] at h
      simp [idAt, heldAt, h]
  | .worker w =>
      simp only [unreadAt, heldAt] at h
      cases hw : s.worker w <;> simp_all [idAt, heldAt, WorkerPc.task, WorkerPc.taskId]

end State

/-! ## Where a task comes from -/

variable {W : Type} [DecidableEq W]

/-- The place in front of a step of the task that is at a place behind it:
tasks move in the critical section of `threadStarter` only. -/
def Event.origin : Event W → Place W → Place W
  | .dequeue _ _, .queued k => .queued (k + 1)
  | .dequeue w _, .worker v => if v = w then .queued 0 else .worker v
  | _, p => p

theorem Event.origin_cell (e : Event W) (i : ℕ) : e.origin (.cell i) = .cell i := by
  cases e <;> rfl

theorem Event.origin_injective (e : Event W) : Function.Injective e.origin := by
  cases e with
  | dequeue w t => rintro (j | k | v) (j' | k' | v') h <;> grind [Event.origin]
  | _ => exact fun _ _ h => h

/-- What an event does to a worker, from and to where it brings it. -/
inductive Event.Moves (s : State W) (w : W) : Event W → WorkerPc → WorkerPc → Prop
  /-- The event is none of this worker's. -/
  | stay {e : Event W} (pc : WorkerPc) : Moves s w e pc pc
  | dequeue {t : Task} (h : s.queue.head? = some t) :
      Moves s w (.dequeue w t) .waiting (.dequeued t)
  | begin {t : Task} : Moves s w (.begin w t) (.dequeued t) (.executing t)
  | readOldFd {t : Task} :
      Moves s w (.readOldFd w t) (.executing t) (.reading t (s.deref t).oldFd)
  | readFd {t : Task} {oldFd : ℕ} :
      Moves s w (.readFd w t oldFd) (.reading t oldFd) (.working t.id ⟨oldFd, (s.deref t).fd⟩)
  | finish {id : ℕ} {info : PollInfo} {closeConn : Bool} :
      Moves s w (.finish w id info closeConn) (.working id info) .returned
  | leave : Moves s w (.leave w) .returned .waiting

namespace State

variable {d : Delivery} {listenSd : ℕ} {s : State W} {e : Event W}

theorem moves_next (he : s.Enabled listenSd e) (w : W) :
    e.Moves s w (s.worker w) ((s.next d e).worker w) := by
  have hupdate : ∀ {v : W} {pc : WorkerPc}, (v = w → e.Moves s w (s.worker w) pc) →
      e.Moves s w (s.worker w) (Function.update s.worker v pc w) := by
    intro v pc h
    by_cases hv : v = w
    · subst hv
      rw [Function.update_self]
      exact h rfl
    · rw [Function.update_of_ne (Ne.symm hv)]
      exact .stay _
  cases e with
  | dequeue v t =>
      refine hupdate fun hv => ?_
      rw [← hv, he.2.1]
      exact .dequeue he.2.2
  | begin v t =>
      refine hupdate fun hv => ?_
      rw [← hv, he.2]
      exact .begin
  | readOldFd v t =>
      refine hupdate fun hv => ?_
      rw [← hv, he.2]
      exact .readOldFd
  | readFd v t oldFd =>
      refine hupdate fun hv => ?_
      rw [← hv, he.2]
      exact .readFd
  | finish v id info closeConn =>
      refine hupdate fun hv => ?_
      rw [← hv, he.2]
      exact .finish
  | leave v =>
      refine hupdate fun hv => ?_
      rw [← hv, he.2]
      exact .leave
  | _ => exact .stay _

/-- What an event does to the queue. -/
theorem queue_next (he : s.Enabled listenSd e) :
    (e = .dispatch ∧ (s.next d e).queue = s.queue ++ [s.readTask d]) ∨
      (∃ w t, e = .dequeue w t ∧ s.queue = t :: (s.next d e).queue) ∨
      ((∀ p, e.origin p = p) ∧ (s.next d e).queue = s.queue) := by
  cases e with
  | dispatch => exact Or.inl ⟨rfl, rfl⟩
  | dequeue w t => exact Or.inr (Or.inl ⟨w, t, rfl, List.eq_cons_of_mem_head? he.2.2⟩)
  | _ => exact Or.inr (Or.inr ⟨fun _ => rfl, rfl⟩)

/-- The queue of the server is a bounded queue. -/
theorem queue_refines_fifo : (machine W d listenSd).Refines (Fifo.machine Task MAX_TASK_NUM)
    fun s q => s.queue = q.content := by
  refine ⟨rfl, ?_⟩
  rintro s s' ⟨content, added, removed⟩ e hq hstep
  obtain ⟨he, rfl⟩ := machine_step_iff.1 hstep
  have hq : s.queue = content := hq
  rcases queue_next (d := d) he with ⟨rfl, hnext⟩ | ⟨w, t, rfl, hnext⟩ | ⟨-, hnext⟩
  · have hlt : content.length < MAX_TASK_NUM := hq ▸ he.2.2
    exact Or.inr ⟨.add (s.readTask d), _, if_pos hlt, by rw [hnext, hq]⟩
  · rw [hnext] at hq
    subst hq
    exact Or.inr ⟨.remove, _, rfl, rfl⟩
  · exact Or.inl (hnext.trans hq)

section Held

variable {β : Type} {g : Task → β} {f : WorkerPc → Option β}

/-- A task behind a step was in front of it at its origin, unless the step is
its dispatch. -/
theorem heldAt_next (he : s.Enabled listenSd e) (hdeq : ∀ t, f (.dequeued t) = some (g t))
    (hf : ∀ w pc pc' x, e.Moves s w pc pc' → (∀ t, e ≠ .dequeue w t) → f pc' = some x →
      f pc = some x) {p : Place W} {x : β} (h : (s.next d e).heldAt g f p = some x) :
    s.heldAt g f (e.origin p) = some x ∨
      (e = .dispatch ∧ p = .queued s.queue.length ∧ x = g (s.readTask d)) := by
  match p with
  | .cell i => exact absurd h (by simp [heldAt])
  | .queued k =>
      rcases queue_next (d := d) he with ⟨rfl, hq⟩ | ⟨w, t, rfl, hq⟩ | ⟨horigin, hq⟩
      · rw [heldAt, hq, List.getElem?_append] at h
        split_ifs at h with hk
        · exact Or.inl h
        · obtain ⟨t, ht, rfl⟩ := Option.map_eq_some_iff.1 h
          obtain ⟨hlt, ht⟩ := List.getElem?_eq_some_iff.1 ht
          rw [List.length_singleton] at hlt
          have hk : k = s.queue.length := by omega
          refine Or.inr ⟨rfl, hk ▸ rfl, ?_⟩
          rw [← ht, List.getElem_singleton]
      · refine Or.inl ?_
        rw [Event.origin, heldAt, hq, List.getElem?_cons_succ]
        exact h
      · refine Or.inl ?_
        rw [horigin, heldAt, ← hq]
        exact h
  | .worker v =>
      have hm := moves_next (d := d) he v
      by_cases hdv : ∃ t, e = .dequeue v t
      · obtain ⟨t, rfl⟩ := hdv
        refine Or.inl ?_
        rw [heldAt, show (s.next d (.dequeue v t)).worker v = .dequeued t from
          Function.update_self .., hdeq] at h
        rw [Event.origin, if_pos rfl, heldAt, List.eq_cons_of_mem_head? he.2.2]
        exact h
      · have horigin : e.origin (.worker v) = .worker v := by
          cases e with
          | dequeue w t => exact if_neg fun hv => hdv ⟨t, by rw [hv]⟩
          | _ => rfl
        refine Or.inl ?_
        rw [horigin]
        exact hf v _ _ x hm (fun t ht => hdv ⟨t, ht⟩) h

/-- A task in front of a step is behind it at the place that it is the origin
of, unless its worker lets go of it. -/
theorem heldAt_back (he : s.Enabled listenSd e) (hwait : f .waiting = none)
    (hdeq : ∀ t, f (.dequeued t) = some (g t)) {q : Place W} {x : β}
    (h : s.heldAt g f q = some x) :
    (∃ p, e.origin p = q ∧ (s.next d e).heldAt g f p = some x) ∨
      ∃ w, q = .worker w ∧ f (s.worker w) = some x ∧ f ((s.next d e).worker w) ≠ some x := by
  match q with
  | .cell i => exact absurd h (by simp [heldAt])
  | .queued k =>
      left
      rcases queue_next (d := d) he with ⟨rfl, hq⟩ | ⟨w, t, rfl, hq⟩ | ⟨horigin, hq⟩
      · refine ⟨.queued k, rfl, ?_⟩
        obtain ⟨t, ht, -⟩ := Option.map_eq_some_iff.1 h
        rw [heldAt, hq, List.getElem?_append_left (List.getElem?_eq_some_iff.1 ht).1]
        exact h
      · rw [heldAt, hq] at h
        match k with
        | 0 =>
            refine ⟨.worker w, if_pos rfl, ?_⟩
            rw [heldAt, show (s.next d (.dequeue w t)).worker w = .dequeued t from
              Function.update_self .., hdeq]
            exact h
        | k + 1 => exact ⟨.queued k, rfl, h⟩
      · refine ⟨.queued k, horigin _, ?_⟩
        rw [heldAt, hq]
        exact h
  | .worker v =>
      by_cases hx : f ((s.next d e).worker v) = some x
      · refine Or.inl ⟨.worker v, ?_, hx⟩
        cases e with
        | dequeue w t =>
            refine if_neg fun hv => ?_
            rw [heldAt, hv, he.2.1, hwait] at h
            exact absurd h (by simp)
        | _ => rfl
      · exact Or.inr ⟨v, rfl, h, hx⟩

end Held

theorem idAt_next (he : s.Enabled listenSd e) {p : Place W} {id : ℕ}
    (h : (s.next d e).idAt p = some id) : s.idAt (e.origin p) = some id ∨
      (e = .dispatch ∧ p = .queued s.queue.length ∧ id = s.dispatched.length) := by
  refine heldAt_next (g := Task.id) (f := WorkerPc.taskId) he (fun _ => rfl)
    (fun w pc pc' x hm hd hx => ?_) h
  cases hm with
  | dequeue _ => exact absurd rfl (hd _)
  | finish => exact absurd hx (by simp [WorkerPc.taskId])
  | leave => exact absurd hx (by simp [WorkerPc.taskId])
  | _ => exact hx

theorem unreadAt_next (he : s.Enabled listenSd e) {p : Place W} {t : Task}
    (h : (s.next d e).unreadAt p = some t) : s.unreadAt (e.origin p) = some t ∨
      (e = .dispatch ∧ p = .queued s.queue.length ∧ t = s.readTask d) := by
  refine heldAt_next (g := id) (f := WorkerPc.task) he (fun _ => rfl)
    (fun w pc pc' x hm hd hx => ?_) h
  cases hm with
  | dequeue _ => exact absurd rfl (hd _)
  | readFd => exact absurd hx (by simp [WorkerPc.task])
  | finish => exact absurd hx (by simp [WorkerPc.task])
  | leave => exact absurd hx (by simp [WorkerPc.task])
  | _ => exact hx

/-! ## Tasks with a copy -/

/-- Every task still to be read holds its `PollInfo` itself. -/
def Copied (s : State W) : Prop := ∀ p t, s.unreadAt p = some t → ∃ info, t.args = .val info

omit [DecidableEq W] in
theorem deref_eq_of_val (s s' : State W) {t : Task} (h : ∃ info, t.args = .val info) :
    s.deref t = s'.deref t := by
  obtain ⟨info, h⟩ := h
  simp [deref, h]

/-- A step adds no task but the copied one of a dispatch. -/
theorem Copied.next (h : s.Copied) (he : s.Enabled listenSd e) :
    (s.next .byValue e).Copied := by
  intro p t ht
  rcases unreadAt_next he ht with ht | ⟨-, -, rfl⟩
  · exact h _ _ ht
  · exact ⟨_, rfl⟩

/-- By value, every task of a reached state is a copy. -/
theorem copied_of_reach {guard : State W → Event W → Prop}
    (h : (machine W .byValue listenSd).Reach guard s) : s.Copied := by
  refine h.invariant (I := Copied) ?_ ?_
  · rintro (i | k | w) t ht <;> simp [machine, init, unreadAt, heldAt, WorkerPc.task] at ht
  · intro s e s' _ _ hI hstep
    obtain ⟨he, rfl⟩ := machine_step_iff.1 hstep
    exact hI.next he

omit [DecidableEq W] in
/-- What copied tasks are read as does not depend on the variable `info`. -/
theorem taskAt_eq_heldAt {s' : State W} (h : s'.Copied) (s : State W) (p : Place W) :
    s'.taskAt p = s'.heldAt (fun t => (t.id, s.deref t)) s.carried p := by
  match p with
  | .cell i => rfl
  | .queued k =>
      simp only [taskAt, heldAt]
      cases ht : s'.queue[k]? with
      | none => rfl
      | some t =>
          rw [Option.map_some, Option.map_some,
            deref_eq_of_val s' s (h (.queued k) t (by simp [unreadAt, heldAt, ht]))]
  | .worker w =>
      have hw := h (.worker w)
      simp only [unreadAt, heldAt] at hw
      simp only [taskAt, heldAt]
      cases hpc : s'.worker w with
      | dequeued t => simp [carried, deref_eq_of_val s' s (hw t (by simp [hpc, WorkerPc.task]))]
      | executing t => simp [carried, deref_eq_of_val s' s (hw t (by simp [hpc, WorkerPc.task]))]
      | reading t oldFd =>
          simp [carried, deref_eq_of_val s' s (hw t (by simp [hpc, WorkerPc.task]))]
      | _ => rfl

theorem taskAt_next (hc : s.Copied) (he : s.Enabled listenSd e) {p : Place W} {x : ℕ × PollInfo}
    (h : (s.next .byValue e).taskAt p = some x) : s.taskAt (e.origin p) = some x ∨
      (e = .dispatch ∧ p = .queued s.queue.length ∧ x = (s.dispatched.length, s.readInfo)) := by
  rw [taskAt_eq_heldAt (hc.next he) s] at h
  refine heldAt_next (f := s.carried) he (fun _ => rfl) (fun w pc pc' x hm hd hx => ?_) h
  cases hm with
  | dequeue _ => exact absurd rfl (hd _)
  | finish => exact absurd hx (by simp [carried])
  | leave => exact absurd hx (by simp [carried])
  | _ => exact hx

theorem taskAt_back (hc : s.Copied) (he : s.Enabled listenSd e) {q : Place W} {x : ℕ × PollInfo}
    (h : s.taskAt q = some x) : (∃ p, (s.next .byValue e).taskAt p = some x) ∨
      ∃ w closeConn, e = .finish w x.1 x.2 closeConn ∧ q = .worker w := by
  have hback := heldAt_back (d := .byValue) (g := fun t => (t.id, s.deref t)) (f := s.carried) he
    rfl (fun _ => rfl) h
  rcases hback with ⟨p, -, hp⟩ | ⟨w, rfl, hw, hw'⟩
  · exact Or.inl ⟨p, by rw [taskAt_eq_heldAt (hc.next he) s, hp]⟩
  · right
    have hm := moves_next (d := .byValue) he w
    generalize s.worker w = pc at hm hw
    generalize (s.next .byValue e).worker w = pc' at hm hw'
    cases hm with
    | finish => exact ⟨w, _, by rw [← Option.some.inj hw], rfl⟩
    | stay => exact absurd hw hw'
    | begin => exact absurd hw hw'
    | readOldFd => exact absurd hw hw'
    | readFd => exact absurd hw hw'
    | dequeue => exact absurd hw (by simp [carried])
    | leave => exact absurd hw (by simp [carried])

/-! ## Every dispatch counts once -/

/-- Outstanding tasks have different numbers, all of them given out. -/
structure Numbered (s : State W) : Prop where
  once : ∀ id, HeldOnce s.idAt id
  lt : ∀ p id, s.idAt p = some id → id < s.dispatched.length

theorem length_dispatched_next (s : State W) (e : Event W) :
    s.dispatched.length ≤ (s.next d e).dispatched.length := by
  cases e with
  | dispatch => simp [State.next]
  | _ => exact le_rfl

theorem Numbered.next (h : s.Numbered) (he : s.Enabled listenSd e) : (s.next d e).Numbered := by
  have hlen := s.length_dispatched_next (d := d) e
  refine ⟨fun id p q hp hq => ?_, fun p id hp => ?_⟩
  · rcases idAt_next he hp with hp' | ⟨-, hpn, hid⟩ <;>
      rcases idAt_next he hq with hq' | ⟨-, hqn, hid'⟩
    · exact e.origin_injective (h.once id _ _ hp' hq')
    · exact absurd (h.lt _ _ hp') (by omega)
    · exact absurd (h.lt _ _ hq') (by omega)
    · rw [hpn, hqn]
  · rcases idAt_next he hp with hp' | ⟨rfl, -, rfl⟩
    · exact lt_of_lt_of_le (h.lt _ _ hp') hlen
    · simp [State.next]

theorem numbered_of_reach {guard : State W → Event W → Prop}
    (h : (machine W d listenSd).Reach guard s) : s.Numbered := by
  refine h.invariant (I := Numbered) ?_ ?_
  · have hnone : ∀ p, (State.init W listenSd).idAt p = none := by
      rintro (i | k | w) <;> simp [init, idAt, heldAt, WorkerPc.taskId]
    exact ⟨fun id => .of_not_held (by simp [machine, hnone]), by simp [machine, hnone]⟩
  · intro s e s' _ _ hI hstep
    obtain ⟨he, rfl⟩ := machine_step_iff.1 hstep
    exact hI.next he

/-- The tasks that a call of `doWork` has read. -/
def Served (s : State W) (id : ℕ) : Prop := id ∈ s.served.map Prod.fst

/-- The tasks that are still to be read. -/
def Unread (s : State W) (id : ℕ) : Prop := ∃ p t, s.unreadAt p = some t ∧ t.id = id

/-- Each dispatched task is still to be read or has been read by one call of
`doWork`. -/
structure Accounted (s : State W) : Prop where
  nodup : (s.served.map Prod.fst).Nodup
  lt : ∀ id, s.Served id → id < s.dispatched.length
  apart : ∀ id, s.Unread id → ¬ s.Served id
  all : ∀ id < s.dispatched.length, s.Unread id ∨ s.Served id

theorem served_next (s : State W) (e : Event W) {id : ℕ} : (s.next d e).Served id ↔
    s.Served id ∨ ∃ w t oldFd, e = .readFd w t oldFd ∧ t.id = id := by
  cases e with
  | readFd w t oldFd => simp [State.next, Served, eq_comm]
  | _ => simp [State.next, Served]

theorem unread_next (hn : s.Numbered) (he : s.Enabled listenSd e) {id : ℕ} :
    (s.next d e).Unread id ↔ (s.Unread id ∧ ¬ ∃ w t oldFd, e = .readFd w t oldFd ∧ t.id = id) ∨
      (e = .dispatch ∧ id = s.dispatched.length) := by
  constructor
  · rintro ⟨p, t, hp, rfl⟩
    rcases unreadAt_next he hp with hp' | ⟨he, -, rfl⟩
    · refine Or.inl ⟨⟨_, t, hp', rfl⟩, ?_⟩
      rintro ⟨w, t', oldFd, rfl, hid⟩
      -- the reader is the one place of its task, and has read it
      have hw : s.idAt (.worker w) = some t.id := by
        simp [idAt, heldAt, he.2, WorkerPc.taskId, hid]
      have hpw : p = .worker w := hn.once _ _ _ (idAt_of_unreadAt hp') hw
      subst hpw
      simp [unreadAt, heldAt, State.next, WorkerPc.task] at hp
    · exact Or.inr ⟨he, rfl⟩
  · rintro (⟨⟨q, t, hq, rfl⟩, hne⟩ | ⟨rfl, rfl⟩)
    · rcases heldAt_back (d := d) (g := id) (f := WorkerPc.task) he rfl (fun _ => rfl) hq with
        ⟨p, -, hp⟩ | ⟨w, -, hw, hw'⟩
      · exact ⟨p, t, hp, rfl⟩
      · -- the one move that takes the task off a worker is the read
        have hm := moves_next (d := d) he w
        generalize s.worker w = pc at hm hw
        generalize (s.next d e).worker w = pc' at hm hw'
        cases hm with
        | readFd => exact absurd ⟨w, _, _, rfl, by rw [Option.some.inj hw]⟩ hne
        | stay => exact absurd hw hw'
        | begin => exact absurd hw hw'
        | readOldFd => exact absurd hw hw'
        | dequeue => exact absurd hw (by simp [WorkerPc.task])
        | finish => exact absurd hw (by simp [WorkerPc.task])
        | leave => exact absurd hw (by simp [WorkerPc.task])
    · exact ⟨.queued s.queue.length, s.readTask d, by simp [unreadAt, heldAt, State.next], rfl⟩

theorem Accounted.next (h : s.Accounted) (hn : s.Numbered) (he : s.Enabled listenSd e) :
    (s.next d e).Accounted := by
  have hread : ∀ {w t oldFd}, e = .readFd w t oldFd → s.Unread t.id := by
    rintro w t oldFd rfl
    exact ⟨.worker w, t, by simp [unreadAt, heldAt, he.2, WorkerPc.task], rfl⟩
  have hlen := s.length_dispatched_next (d := d) e
  refine ⟨?_, fun id hid => ?_, fun id hid hid' => ?_, fun id hid => ?_⟩
  · cases e with
    | readFd w t oldFd =>
        simp only [State.next, List.map_append, List.map_cons, List.map_nil]
        exact h.nodup.append (List.nodup_singleton _)
          (List.disjoint_singleton.2 (h.apart _ (hread rfl)))
    | _ => exact h.nodup
  · rcases (served_next s e).1 hid with hid | ⟨w, t, oldFd, he', rfl⟩
    · exact lt_of_lt_of_le (h.lt id hid) hlen
    · obtain ⟨p, t', hp, ht'⟩ := hread he'
      exact lt_of_lt_of_le (hn.lt p _ (ht' ▸ idAt_of_unreadAt hp)) hlen
  · rcases (unread_next hn he).1 hid with ⟨hid, hne⟩ | ⟨-, rfl⟩
    · rcases (served_next s e).1 hid' with hid' | hr
      · exact h.apart id hid hid'
      · exact hne hr
    · rcases (served_next s e).1 hid' with hid' | ⟨w, t, oldFd, he', ht⟩
      · exact absurd (h.lt _ hid') (lt_irrefl _)
      · obtain ⟨p, t', hp, ht'⟩ := hread he'
        have := hn.lt p _ (idAt_of_unreadAt hp)
        omega
  · by_cases hr : ∃ w t oldFd, e = .readFd w t oldFd ∧ t.id = id
    · exact Or.inr ((served_next s e).2 (Or.inr hr))
    · by_cases hlt : id < s.dispatched.length
      · rcases h.all id hlt with hu | hs
        · exact Or.inl ((unread_next hn he).2 (Or.inl ⟨hu, hr⟩))
        · exact Or.inr ((served_next s e).2 (Or.inl hs))
      · refine Or.inl ((unread_next hn he).2 (Or.inr ?_))
        cases e with
        | dispatch =>
            simp only [State.next, List.length_append, List.length_singleton] at hid
            exact ⟨rfl, by omega⟩
        | _ => exact absurd hid hlt

/-- **Every dispatch is taken up once.**  For either delivery, in every run. -/
theorem accounted_of_reach {guard : State W → Event W → Prop}
    (h : (machine W d listenSd).Reach guard s) : s.Accounted := by
  refine h.invariant (I := Accounted) ⟨?_, ?_, ?_, ?_⟩ ?_
  · simp [machine, init]
  · simp [machine, init, Served]
  · simp [machine, init, Served]
  · simp [machine, init]
  · intro s e s' hr _ hI hstep
    obtain ⟨he, rfl⟩ := machine_step_iff.1 hstep
    exact hI.next (numbered_of_reach hr) he

end State

end PotHub.Server
