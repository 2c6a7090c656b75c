import PotHub.Server.Ownership

/-!
# The write-back of a worker

A dispatch marks its cell with `FD_STOP_POLLING`, and the worker of the task
writes the cell back at the end, through an address taken at the dispatch.  The
cells of outstanding tasks must therefore stay where they are.  Both
compactions remove marked cells.  The one that the flag asks for waits until no
thread is executing, but a task may be in the queue, or with a worker that is
not counted yet; the one at a hang-up does not wait at all.
-/

namespace PotHub.Server

open PotHub.Lib

namespace State

variable {W : Type}

/-- The cell of every outstanding task is below `nfds` and holds the mark that
the task's own dispatch put there. -/
def Intact (s : State W) : Prop :=
  ∀ p id info, s.taskAt p = some (id, info) → info.oldFd < s.array.nfds ∧
    s.array.fd info.oldFd = FD_STOP_POLLING ∧ s.mark info.oldFd = some id

/-- Every open descriptor is in the array or with an outstanding task. -/
def Kept (s : State W) : Prop := ∀ fd, s.opened fd = true → ∃ p, s.fdAt p = some fd

/-- No task is outstanding. -/
def AllBack (s : State W) : Prop := s.queue = [] ∧ ∀ w, (s.worker w).taskId = none

/-- No compaction happens while a task is outstanding, and the scan dispatches
from a cell below `nfds`. -/
def PacksAllBack (s : State W) : Event W → Prop
  | .flag => compressing s.compressArray s.numThreadsExecuting = true → s.AllBack
  | .hangUp => s.AllBack
  | .dispatch => s.i < s.array.nfds
  | _ => True

instance [Fintype W] (s : State W) : Decidable s.AllBack := inferInstanceAs (Decidable (_ ∧ _))

instance [Fintype W] (s : State W) : DecidablePred s.PacksAllBack
  | .flag => inferInstanceAs (Decidable (_ → s.AllBack))
  | .hangUp => inferInstanceAs (Decidable s.AllBack)
  | .dispatch => Nat.decLt _ _
  | .poll _ | .pollFails | .endScan | .skip | .unexpected | .listening | .accept _ | .shutDown
  | .dequeue .. | .begin .. | .readOldFd .. | .readFd .. | .finish .. | .leave _ => isTrue trivial

theorem allBack_iff {s : State W} : s.AllBack ↔ ∀ p, s.taskAt p = none := by
  have hid : (∀ p, s.taskAt p = none) ↔ ∀ p, s.idAt p = none := by
    simp [idAt_eq_taskAt]
  rw [hid]
  constructor
  · rintro ⟨hq, hw⟩ (i | k | w)
    · rfl
    · simp [idAt, heldAt, hq]
    · exact hw w
  · intro h
    refine ⟨?_, fun w => h (.worker w)⟩
    have h0 := h (.queued 0)
    simpa [idAt, heldAt] using h0

/-- The rest of the iteration does nothing to the cell `c`. -/
def Spares (s : State W) (c : ℕ) : Prop :=
  match s.pc with
  | .polled => s.array.revents c = 0
  | .scanning => c < s.i ∨ s.array.revents c = 0
  | .accepting => c < s.i ∨ s.array.revents c = 0
  | _ => True

/-- The invariant: the marked cells stay and are spared, and no descriptor is
lost. -/
structure Settled (s : State W) : Prop where
  intact : s.Intact
  spares : ∀ p id info, s.taskAt p = some (id, info) → s.Spares info.oldFd
  kept : s.Kept
  nonneg : ∀ fd, s.opened fd = true → 0 ≤ fd

variable [DecidableEq W] {s : State W} {listenSd : ℕ}

/-! ## The cells of outstanding tasks -/

/-- The cell `c` is kept for the task `id`, and the rest of the iteration does
nothing to it. -/
structure Reserved (s : State W) (id c : ℕ) : Prop where
  lt : c < s.array.nfds
  stop : s.array.fd c = FD_STOP_POLLING
  mark : s.mark c = some id
  spared : s.Spares c

omit [DecidableEq W] in
theorem Settled.reserved (h : s.Settled) {p : Place W} {id : ℕ} {info : PollInfo}
    (hp : s.taskAt p = some (id, info)) : s.Reserved id info.oldFd :=
  ⟨(h.intact _ _ _ hp).1, (h.intact _ _ _ hp).2.1, (h.intact _ _ _ hp).2.2, h.spares _ _ _ hp⟩

section Reserved

variable {id c : ℕ}

theorem Reserved.poll {revents : ℕ → Mask} (h : s.Reserved id c) (hk : s.KernelPoll revents) :
    (s.next .byValue (.poll revents)).Reserved id c := by
  refine ⟨h.lt, h.stop, h.mark, ?_⟩
  have h0 := (hk c h.lt).1 (by rw [h.stop]; decide)
  simp [Spares, State.next, h.lt, h0]

/-- A flag that does not compact. -/
theorem Reserved.flag (h : s.Reserved id c) (hpc : s.pc = .polled)
    (hno : compressing s.compressArray s.numThreadsExecuting = false) :
    (s.next .byValue .flag).Reserved id c := by
  have harr : (s.next .byValue .flag).array = s.array := by simp [State.next, compactIf, hno]
  have hmarks : (s.next .byValue .flag).mark = s.mark := by simp [State.next, hno]
  have hsp := h.spared
  refine ⟨by rw [harr]; exact h.lt, by rw [harr]; exact h.stop, by rw [hmarks]; exact h.mark, ?_⟩
  simp only [Spares, hpc] at hsp
  simp only [Spares, harr]
  by_cases h0 : s.pollErr = 0 <;> cases hend : s.endServer <;>
    simp [State.next, h0, hend, loopEnd, hsp]

theorem Reserved.endScan (h : s.Reserved id c) : (s.next .byValue .endScan).Reserved id c := by
  refine ⟨h.lt, h.stop, h.mark, ?_⟩
  cases hend : s.endServer <;> simp [Spares, State.next, hend, loopEnd]

theorem Reserved.skip (h : s.Reserved id c) (hpc : s.pc = .scanning) :
    (s.next .byValue .skip).Reserved id c := by
  have hsp := h.spared
  refine ⟨h.lt, h.stop, h.mark, ?_⟩
  simp only [Spares, hpc] at hsp
  simp only [Spares, State.next, hpc]
  exact hsp.imp_left fun hi => Nat.lt_succ_of_lt hi

theorem Reserved.listening (h : s.Reserved id c) (hpc : s.pc = .scanning) :
    (s.next .byValue .listening).Reserved id c := by
  have hsp := h.spared
  exact ⟨h.lt, h.stop, h.mark, by simpa [Spares, State.next, hpc] using hsp⟩

/-- The dispatch of another cell. -/
theorem Reserved.dispatch (h : s.Reserved id c) (he : s.Enabled listenSd .dispatch) :
    (s.next .byValue .dispatch).Reserved id c := by
  obtain ⟨⟨hpc, -, -⟩, hv, -⟩ := he
  have hsp := h.spared
  simp only [Spares, hpc] at hsp
  -- the cell examined reports input, a spared cell ahead of the scan nothing
  have hne : c ≠ s.i := by
    intro hi
    rcases hsp with hlt | h0
    · omega
    · rw [hi, (verdict_readable_iff.1 hv).1] at h0
      exact zero_ne_POLLIN h0.symm
  refine ⟨h.lt, by simpa [State.next, hne] using h.stop,
    by simpa [State.next, hne] using h.mark, ?_⟩
  simp only [Spares, State.next, hpc]
  exact hsp.imp_left fun hi => Nat.lt_succ_of_lt hi

theorem Reserved.accept {r : AcceptResult} (h : s.Reserved id c) (hpc : s.pc = .accepting) :
    (s.next .byValue (.accept r)).Reserved id c := by
  have hsp := h.spared
  have hlt := h.lt
  simp only [Spares, hpc] at hsp
  have hrev : (acceptOne s.array r).array.revents = s.array.revents := by
    rcases acceptOne_cases s.array r with ha | ⟨sd, k, -, -, ha⟩ <;> simp [ha]
  refine ⟨?_, ?_, ?_, ?_⟩
  · rcases acceptOne_cases s.array r with ha | ⟨sd, k, -, -, ha⟩ <;>
      simp only [State.next, ha, PollArray.push_nfds] <;> omega
  · rcases acceptOne_cases s.array r with ha | ⟨sd, k, -, -, ha⟩
    · simpa [State.next, ha] using h.stop
    · simpa [State.next, ha, hlt.ne] using h.stop
  · simp only [State.next]
    split_ifs
    · rw [Function.update_of_ne hlt.ne, h.mark]
    · exact h.mark
  · cases hnext : (acceptOne s.array r).next <;> simp only [Spares, State.next, hnext, hrev]
    · simpa using hsp
    · simpa using hsp.imp_left fun hi => Nat.lt_succ_of_lt hi

/-- The write-back to another cell. -/
theorem Reserved.finish {w : W} {id' : ℕ} {info : PollInfo} {closeConn : Bool}
    (h : s.Reserved id c) (hne : c ≠ info.oldFd) :
    (s.next .byValue (.finish w id' info closeConn)).Reserved id c :=
  ⟨h.lt, by simpa [State.next, hne] using h.stop, by simpa [State.next, hne] using h.mark,
    by simpa [Spares, State.next] using h.spared⟩

/-- A dispatch from a cell below `nfds` reserves it. -/
theorem reserved_dispatch (he : s.Enabled listenSd .dispatch) (hg : s.i < s.array.nfds) :
    (s.next .byValue .dispatch).Reserved s.dispatched.length s.i :=
  ⟨hg, by simp [State.next], by simp [State.next], by simp [Spares, State.next, he.1.1]⟩

end Reserved

omit [DecidableEq W] in
/-- Two outstanding tasks with the same cell would have the same mark. -/
theorem Settled.oldFd_ne (h : s.Settled) (hn : s.Numbered) {p q : Place W} {id id' : ℕ}
    {info info' : PollInfo} (hp : s.taskAt p = some (id, info))
    (hq : s.taskAt q = some (id', info')) (hpq : p ≠ q) : info.oldFd ≠ info'.oldFd := by
  intro hcell
  have hmark := (h.reserved hp).mark
  rw [hcell, (h.reserved hq).mark] at hmark
  obtain rfl := Option.some.inj hmark
  exact hpq (hn.once id' p q (by rw [idAt_eq_taskAt, hp, Option.map_some])
    (by rw [idAt_eq_taskAt, hq, Option.map_some]))

/-- The cell of an outstanding task, behind a step that neither compacts nor
dispatches it. -/
theorem Settled.reserved_next (h : s.Settled) (hn : s.Numbered) {e : Event W}
    (he : s.Enabled listenSd e) (hg : s.PacksAllBack e) {p : Place W} {id : ℕ} {info : PollInfo}
    (hold : s.taskAt (e.origin p) = some (id, info))
    (hp : (s.next .byValue e).taskAt p = some (id, info)) :
    (s.next .byValue e).Reserved id info.oldFd := by
  have hres := h.reserved hold
  -- the task is outstanding, so the condition forbids both compactions
  have hback : ¬ s.AllBack := fun hb => by
    rw [allBack_iff.1 hb] at hold
    exact absurd hold (by simp)
  cases e with
  | poll revents => exact hres.poll he.2
  | flag =>
      refine hres.flag he ?_
      by_contra hb
      exact hback (hg (by simpa using hb))
  | hangUp => exact absurd hg hback
  | skip => exact hres.skip he.1.1
  | listening => exact hres.listening he.1.1
  | dispatch => exact hres.dispatch he
  | accept r => exact hres.accept he.1
  | finish w id' info' closeConn =>
      have hw : s.taskAt (.worker w) = some (id', info') := by
        simp [taskAt, heldAt, he.2, carried]
      refine hres.finish (h.oldFd_ne hn hold hw ?_)
      rintro rfl
      simp [taskAt, heldAt, State.next, carried] at hp
  | endScan => exact hres.endScan
  | pollFails => exact ⟨hres.lt, hres.stop, hres.mark, trivial⟩
  | unexpected => exact ⟨hres.lt, hres.stop, hres.mark, trivial⟩
  | shutDown => exact ⟨hres.lt, hres.stop, hres.mark, trivial⟩
  | dequeue w t => exact ⟨hres.lt, hres.stop, hres.mark, hres.spared⟩
  | begin w t => exact ⟨hres.lt, hres.stop, hres.mark, hres.spared⟩
  | readOldFd w t => exact ⟨hres.lt, hres.stop, hres.mark, hres.spared⟩
  | readFd w t oldFd => exact ⟨hres.lt, hres.stop, hres.mark, hres.spared⟩
  | leave w => exact ⟨hres.lt, hres.stop, hres.mark, hres.spared⟩

/-! ## The open descriptors -/

/-- A descriptor in an outstanding task stays in one, until the write-back. -/
theorem fdAt_back (hc : s.Copied) {e : Event W} (he : s.Enabled listenSd e) {q : Place W}
    (hq : q.Outstanding) {fd : Int} (h : s.fdAt q = some fd) :
    (∃ p, (s.next .byValue e).fdAt p = some fd) ∨
      ∃ w id info closeConn, e = .finish w id info closeConn ∧ info.fd = fd := by
  rw [fdAt_eq_taskAt hq, Option.map_eq_some_iff] at h
  obtain ⟨x, hx, rfl⟩ := h
  rcases taskAt_back hc he hx with ⟨p, hp⟩ | ⟨w, closeConn, rfl, -⟩
  · have hout : p.Outstanding := by
      cases p with
      | cell i => simp [taskAt, heldAt] at hp
      | queued k => trivial
      | worker w => trivial
    exact Or.inl ⟨p, by rw [fdAt_eq_taskAt hout, hp, Option.map_some]⟩
  · exact Or.inr ⟨w, _, _, closeConn, rfl, rfl⟩

/-- A compaction keeps every descriptor. -/
theorem exists_cell_of_squeeze {a a' : ℕ → Int} {n n' : ℕ} {src : ℕ → ℕ}
    (hsq : Squeeze Unused a n a' n' src) {j : ℕ} (hj : j < n) (hpos : 0 ≤ a j) :
    ∃ k < n', a' k = a j := by
  obtain ⟨k, hk, hkj⟩ := hsq.onto j hj (not_unused_of_nonneg hpos)
  exact ⟨k, hk, by rw [hsq.apply_eq k hk, hkj]⟩

/-- Where an open descriptor was, and where it has got to: it has kept its
holder, it was in a cell, or it is just written back. -/
theorem Kept.holder (h : s.Kept) (hc : s.Copied) {e : Event W} (he : s.Enabled listenSd e)
    {fd : Int} (hfd : s.opened fd = true) : (∃ p, (s.next .byValue e).fdAt p = some fd) ∨
      (∃ j < s.array.nfds, s.array.fd j = fd) ∨
        ∃ w id info closeConn, e = .finish w id info closeConn ∧ info.fd = fd := by
  obtain ⟨p, hp⟩ := h fd hfd
  by_cases hout : p.Outstanding
  · exact (fdAt_back hc he hout hp).imp_right Or.inr
  · obtain ⟨j, rfl⟩ := Place.eq_cell_of_not_outstanding hout
    exact Or.inr (Or.inl ⟨j, fdAt_cell_eq_some.1 hp⟩)

omit [DecidableEq W] in
/-- With all tasks back, the open descriptors are in the cells. -/
theorem Kept.cell (h : s.Kept) (hb : s.AllBack) {fd : Int} (hfd : s.opened fd = true) :
    ∃ j < s.array.nfds, s.array.fd j = fd := by
  obtain ⟨p, hp⟩ := h fd hfd
  by_cases hout : p.Outstanding
  · rw [fdAt_eq_taskAt hout, allBack_iff.1 hb] at hp
    exact absurd hp (by simp)
  · obtain ⟨j, rfl⟩ := Place.eq_cell_of_not_outstanding hout
    exact ⟨j, fdAt_cell_eq_some.1 hp⟩

/-- A step that leaves the cells alone and opens nothing. -/
theorem Kept.next_of_same (h : s.Kept) (hc : s.Copied) {e : Event W} (he : s.Enabled listenSd e)
    (hcells : ∀ i, (s.next .byValue e).fdAt (.cell i) = s.fdAt (.cell i))
    (hopen : ∀ fd, (s.next .byValue e).opened fd = true → s.opened fd = true)
    (hne : ∀ w id info closeConn, e ≠ .finish w id info closeConn) : (s.next .byValue e).Kept := by
  intro fd hfd
  rcases h.holder hc he (hopen fd hfd) with hp | ⟨j, hj, hjfd⟩ | ⟨w, id, info, c, he', -⟩
  · exact hp
  · exact ⟨.cell j, by rw [hcells, fdAt_cell_eq_some.2 ⟨hj, hjfd⟩]⟩
  · exact absurd he' (hne w id info c)

theorem Settled.kept_flag (h : s.Settled) (hc : s.Copied) (he : s.Enabled listenSd .flag)
    (hg : s.PacksAllBack .flag) : (s.next .byValue .flag).Kept := by
  by_cases hp : compressing s.compressArray s.numThreadsExecuting
  · -- all tasks are back, so every open descriptor is in a cell, and cells are kept
    intro fd hfd
    obtain ⟨j, hj, rfl⟩ := h.kept.cell (hg hp) hfd
    obtain ⟨src, hsq⟩ := s.array.compact_squeeze
    obtain ⟨k, hk, hkj⟩ := exists_cell_of_squeeze hsq hj (h.nonneg _ hfd)
    have harr : (s.next .byValue .flag).array = s.array.compact := by
      simp [State.next, compactIf, hp]
    exact ⟨.cell k, fdAt_cell_eq_some.2 (by rw [harr]; exact ⟨hk, hkj⟩)⟩
  · have harr : (s.next .byValue .flag).array = s.array := by simp [State.next, compactIf, hp]
    exact h.kept.next_of_same hc he (fun i => by simp only [fdAt, harr]) (fun _ h => h) (by simp)

theorem Settled.kept_hangUp (h : s.Settled) (hg : s.AllBack) :
    (s.next .byValue .hangUp).Kept := by
  intro fd hfd
  have hne : fd ≠ s.array.fd s.i := by
    rintro rfl
    simp [State.next] at hfd
  have hfd : s.opened fd = true := by simpa [State.next, hne] using hfd
  obtain ⟨j, hj, rfl⟩ := h.kept.cell hg hfd
  have hji : j ≠ s.i := fun hji => hne (by rw [hji])
  have hset : (s.array.setFd s.i (-1)).fd j = s.array.fd j := by simp [hji]
  obtain ⟨src, hsq⟩ := (s.array.setFd s.i (-1)).compact_squeeze
  obtain ⟨k, hk, hkj⟩ := exists_cell_of_squeeze hsq hj (by rw [hset]; exact h.nonneg _ hfd)
  exact ⟨.cell k, fdAt_cell_eq_some.2 ⟨hk, hkj.trans hset⟩⟩

/-- A dispatch moves the descriptor of its cell to the queue. -/
theorem Kept.dispatch (h : s.Kept) (hc : s.Copied) (he : s.Enabled listenSd .dispatch) :
    (s.next .byValue .dispatch).Kept := by
  intro fd hfd
  rcases h.holder hc he hfd with hp | ⟨j, hj, hjfd⟩ | ⟨w, id, info, c, he', -⟩
  · exact hp
  · by_cases hji : j = s.i
    · refine ⟨.queued s.queue.length, ?_⟩
      simp [fdAt, taskAt, heldAt, State.next, readTask, readInfo, deref, ← hji, hjfd]
    · exact ⟨.cell j, fdAt_cell_eq_some.2 ⟨hj, by simpa [State.next, hji] using hjfd⟩⟩
  · exact absurd he' (by simp)

theorem Kept.accept (h : s.Kept) (hc : s.Copied) {r : AcceptResult}
    (he : s.Enabled listenSd (.accept r)) : (s.next .byValue (.accept r)).Kept := by
  intro fd hfd
  have hold : s.opened fd = true → ∃ p, (s.next .byValue (.accept r)).fdAt p = some fd := by
    intro hfd
    rcases h.holder hc he hfd with hp | ⟨j, hj, hjfd⟩ | ⟨w, id, info, c, he', -⟩
    · exact hp
    · refine ⟨.cell j, fdAt_cell_eq_some.2 ?_⟩
      rcases acceptOne_cases s.array r with ha | ⟨sd, k, -, -, ha⟩
      · exact ⟨by simpa [State.next, ha] using hj, by simpa [State.next, ha] using hjfd⟩
      · refine ⟨?_, by simpa [State.next, ha, hj.ne] using hjfd⟩
        simp only [State.next, ha, PollArray.push_nfds]
        omega
    · exact absurd he' (by simp)
  rcases r with wouldBlock | ⟨newSd, keepalive, nonblock⟩
  · exact hold (by simpa [State.next, acceptOne, acceptOpened] using hfd)
  cases nonblock with
  | false => simp [State.next, acceptOne] at hfd
  | true =>
      by_cases hfn : fd = newSd
      · subst hfn
        by_cases hfull : s.array.nfds = MAX_CONNECTIONS
        · simp [State.next, acceptOne, hfull, acceptOpened] at hfd
        · refine ⟨.cell s.array.nfds, fdAt_cell_eq_some.2 ?_⟩
          simp [State.next, acceptOne, hfull]
      · refine hold ?_
        by_cases hfull : s.array.nfds = MAX_CONNECTIONS <;>
          simpa [State.next, acceptOne, hfull, acceptOpened, hfn] using hfd

/-- A write-back overwrites a mark, and no descriptor. -/
theorem Settled.kept_finish (h : s.Settled) (hc : s.Copied) {w : W} {id : ℕ} {info : PollInfo}
    {closeConn : Bool} (he : s.Enabled listenSd (.finish w id info closeConn)) :
    (s.next .byValue (.finish w id info closeConn)).Kept := by
  intro fd hfd
  have hw : s.taskAt (.worker w) = some (id, info) := by simp [taskAt, heldAt, he.2, carried]
  obtain ⟨hlt, hmarked, -⟩ := h.intact _ _ _ hw
  have hfd' : s.opened fd = true ∧ (closeConn = true → fd ≠ info.fd) := by
    cases closeConn with
    | true =>
        by_cases hfi : fd = info.fd
        · simp [State.next, hfi] at hfd
        · exact ⟨by simpa [State.next, hfi] using hfd, fun _ => hfi⟩
    | false => exact ⟨hfd, by simp⟩
  rcases h.kept.holder hc he hfd'.1 with hp | ⟨j, hj, hjfd⟩ | ⟨w', id', info', c, he', hfi⟩
  · exact hp
  · have hji : j ≠ info.oldFd := by
      rintro rfl
      have := h.nonneg fd hfd'.1
      rw [hmarked] at hjfd
      rw [← hjfd] at this
      exact absurd this (by decide)
    exact ⟨.cell j, fdAt_cell_eq_some.2 ⟨hj, by simpa [State.next, hji] using hjfd⟩⟩
  · -- the descriptor that is written back is found in its cell
    obtain ⟨-, -, rfl, -⟩ := Event.finish.inj he'
    have hopen : closeConn = false := by
      by_contra hx
      exact hfd'.2 (by simpa using hx) hfi.symm
    exact ⟨.cell info.oldFd, fdAt_cell_eq_some.2 ⟨hlt, by simp [State.next, hopen, hfi]⟩⟩

theorem Settled.kept_next (h : s.Settled) (hc : s.Copied) {e : Event W}
    (he : s.Enabled listenSd e) (hg : s.PacksAllBack e) : (s.next .byValue e).Kept := by
  cases e with
  | flag => exact h.kept_flag hc he hg
  | hangUp => exact h.kept_hangUp hg
  | dispatch => exact h.kept.dispatch hc he
  | accept r => exact h.kept.accept hc he
  | finish w id info closeConn => exact h.kept_finish hc he
  | shutDown => exact fun fd hfd => absurd hfd (by simp [State.next])
  | _ => exact h.kept.next_of_same hc he (fun _ => rfl) (fun _ h => h) (by simp)

theorem Settled.nonneg_next (h : s.Settled) (e : Event W) {fd : Int}
    (hfd : (s.next .byValue e).opened fd = true) : 0 ≤ fd := by
  have hupdate : ∀ v : Int, Function.update s.opened v false fd = true → 0 ≤ fd := by
    intro v hv
    by_cases hfv : fd = v
    · simp [hfv] at hv
    · exact h.nonneg fd (by simpa [hfv] using hv)
  cases e with
  | hangUp => exact hupdate _ hfd
  | finish w id info closeConn =>
      cases closeConn with
      | true => exact hupdate _ hfd
      | false => exact h.nonneg fd hfd
  | accept r =>
      cases r with
      | failed wouldBlock =>
          exact h.nonneg fd (by simpa [State.next, acceptOne, acceptOpened] using hfd)
      | accepted newSd keepalive nonblock =>
          by_cases hfn : fd = newSd
          · omega
          · refine h.nonneg fd ?_
            simp only [State.next, acceptOpened] at hfd
            split_ifs at hfd
            rwa [Function.update_of_ne hfn] at hfd
  | shutDown => exact absurd hfd (by simp [State.next])
  | _ => exact h.nonneg fd hfd

theorem Settled.next (h : s.Settled) (hn : s.Numbered) (hc : s.Copied) {e : Event W}
    (he : s.Enabled listenSd e) (hg : s.PacksAllBack e) : (s.next .byValue e).Settled := by
  have htask : ∀ p id info, (s.next .byValue e).taskAt p = some (id, info) →
      (s.next .byValue e).Reserved id info.oldFd := by
    intro p id info hp
    rcases taskAt_next hc he hp with hold | ⟨rfl, -, hnew⟩
    · exact h.reserved_next hn he hg hold hp
    · obtain ⟨rfl, rfl⟩ := Prod.mk.inj hnew
      exact reserved_dispatch he hg
  refine ⟨fun p id info hp => ?_, fun p id info hp => (htask p id info hp).spared,
    h.kept_next hc he hg, fun fd => h.nonneg_next e⟩
  exact ⟨(htask p id info hp).lt, (htask p id info hp).stop, (htask p id info hp).mark⟩

theorem settled_of_reach (h : (machine W .byValue listenSd).Reach PacksAllBack s) :
    s.Settled := by
  refine h.invariant (I := Settled) ?_ ?_
  · have hnone : ∀ p, (State.init W listenSd).taskAt p = none := by
      rintro (i | k | w) <;> simp [init, taskAt, heldAt, carried]
    refine ⟨fun p id info hp => absurd hp (by simp [machine, hnone]),
      fun p id info hp => absurd hp (by simp [machine, hnone]), fun fd hfd => ?_, fun fd hfd => ?_⟩
    · have hfd : fd = listenSd := by simpa [machine, init] using hfd
      exact ⟨.cell 0, by simp [hfd, machine, init, fdAt, PollArray.init]⟩
    · have hfd : fd = listenSd := by simpa [machine, init] using hfd
      omega
  · intro s e s' hr hg hI hstep
    obtain ⟨he, rfl⟩ := machine_step_iff.1 hstep
    exact hI.next (numbered_of_reach hr) (copied_of_reach hr) he hg

/-- A step against the condition takes the cell of some outstanding task away. -/
theorem packsAllBack_of_intact_next (hc : s.Copied) {e : Event W} (he : s.Enabled listenSd e)
    (h : (s.next .byValue e).Intact) : s.PacksAllBack e := by
  have hpack : ∀ {a : ℕ → Int} {n : ℕ} {src : ℕ → ℕ},
      Squeeze Unused a n (s.next .byValue e).array.fd (s.next .byValue e).array.nfds src →
      (∀ w id info closeConn, e ≠ .finish w id info closeConn) → s.AllBack := by
    intro a n src hsq hne
    refine allBack_iff.2 fun q => ?_
    by_contra hq
    obtain ⟨x, hx⟩ := Option.ne_none_iff_exists'.1 hq
    rcases taskAt_back hc he hx with ⟨p, hp⟩ | ⟨w, c, he', -⟩
    · obtain ⟨hlt, hfd, -⟩ := h p _ _ hp
      exact hsq.kept' hlt (by rw [hfd]; exact Or.inr rfl)
    · exact hne _ _ _ _ he'
  cases e with
  | flag =>
      intro hp
      obtain ⟨src, hsq⟩ := s.array.compact_squeeze
      have harr : (s.next .byValue .flag).array = s.array.compact := by
        simp [State.next, compactIf, hp]
      exact hpack (by rw [harr]; exact hsq) (by simp)
  | hangUp =>
      obtain ⟨src, hsq⟩ := (s.array.setFd s.i (-1)).compact_squeeze
      exact hpack hsq (by simp)
  | dispatch =>
      have hnew : (s.next .byValue .dispatch).taskAt (.queued s.queue.length) =
          some (s.dispatched.length, s.readInfo) := by
        simp [taskAt, heldAt, State.next, deref, readTask]
      exact (h _ _ _ hnew).1
  | _ => trivial

/-- **The write-back.**  With the `PollInfo` delivered by value, in every run in
which no compaction happens while a task is outstanding and the scan dispatches
from cells below `nfds`, the cell of each outstanding task stays where it is
with its own mark, and no open descriptor is lost.  Any other step breaks
this. -/
theorem intact_of_packsAllBack (h : (machine W .byValue listenSd).Reach PacksAllBack s) :
    s.Intact ∧ s.Kept ∧ ∀ e, s.Enabled listenSd e →
      ((s.next .byValue e).Intact ↔ s.PacksAllBack e) := by
  have hs := settled_of_reach h
  have hc := copied_of_reach h
  exact ⟨hs.intact, hs.kept, fun e he => ⟨packsAllBack_of_intact_next hc he,
    fun hg => (hs.next (numbered_of_reach h) hc he hg).intact⟩⟩

/-- A worker takes a copied task up to the point of its write-back. -/
def worksOn (id : ℕ) (info : PollInfo) : List (Event Unit) :=
  [.dequeue () ⟨.val info, id⟩, .begin () ⟨.val info, id⟩, .readOldFd () ⟨.val info, id⟩,
    .readFd () ⟨.val info, id⟩ info.oldFd]

theorem intact_oneSends : ∃ s, (machine Unit .byValue 3).Reach PacksAllBack s ∧
    s.worker () = .working 0 ⟨1, 4⟩ ∧ s.Intact ∧ s.Kept ∧ ∀ e, s.Enabled 3 e →
      ((s.next .byValue e).Intact ↔ s.PacksAllBack e) := by
  have hrun : ∃ s, (machine Unit .byValue 3).Reach PacksAllBack s ∧
      s.worker () = .working 0 ⟨1, 4⟩ :=
    Machine.exists_reach_of_tryRun (twoConnect ++ oneSends ++ worksOn 0 ⟨1, 4⟩)
      (by decide +kernel)
  obtain ⟨s, hs, hw⟩ := hrun
  exact ⟨s, hs, hw, intact_of_packsAllBack hs⟩

/-- The first client sends, and the second one hangs up before a worker has
looked: the cell of the first one is compacted away. -/
def hangUpBehindRequest : List (Event Unit) :=
  twoConnect ++ [reports [0, POLLIN, POLLHUP], .flag, .skip, .dispatch, .hangUp] ++
    worksOn 0 ⟨1, 4⟩

/-- Both clients send, the worker closes the first connection, and the flagged
compaction finds no thread executing and the second task in the queue. -/
def closeBesideRequest : List (Event Unit) :=
  twoConnect ++ [reports [0, POLLIN, POLLIN], .flag, .skip, .dispatch, .dispatch] ++
    worksOn 0 ⟨1, 4⟩ ++ [.finish () 0 ⟨1, 4⟩ true, .leave (), .endScan, reports [], .flag] ++
    worksOn 1 ⟨2, 5⟩ ++ [.finish () 1 ⟨2, 5⟩ false]

theorem not_intact_of_compaction :
    (∃ s, (machine Unit .byValue 3).Reach KernelOk s ∧ s.worker () = .working 0 ⟨1, 4⟩ ∧
      s.array.nfds ≤ 1 ∧ ¬ s.Intact) ∧
    ∃ s, (machine Unit .byValue 3).Reach KernelOk s ∧ s.opened 5 = true ∧ ¬ s.Kept := by
  constructor
  · have hrun : ∃ s, (machine Unit .byValue 3).Reach KernelOk s ∧
        s.worker () = .working 0 ⟨1, 4⟩ ∧ s.array.nfds ≤ 1 ∧
        s.taskAt (.worker ()) = some (0, ⟨1, 4⟩) :=
      Machine.exists_reach_of_tryRun hangUpBehindRequest (by decide +kernel)
    obtain ⟨s, hs, hw, hn, ht⟩ := hrun
    refine ⟨s, hs, hw, hn, fun h => ?_⟩
    have : 1 < s.array.nfds := (h _ _ _ ht).1
    omega
  · have hrun : ∃ s, (machine Unit .byValue 3).Reach KernelOk s ∧ s.opened 5 = true ∧
        s.array.nfds = 1 ∧ s.array.fd 0 = 3 ∧ s.queue = [] ∧ s.worker () = .returned :=
      Machine.exists_reach_of_tryRun closeBesideRequest (by decide +kernel)
    obtain ⟨s, hs, h5, hn, h0, hq, hw⟩ := hrun
    refine ⟨s, hs, h5, fun h => ?_⟩
    obtain ⟨p, hp⟩ := h 5 h5
    cases p with
    | cell i =>
        obtain ⟨hi, hfd⟩ := fdAt_cell_eq_some.1 hp
        have hi : i = 0 := by omega
        rw [hi, h0] at hfd
        exact absurd hfd (by decide)
    | queued k => simp [fdAt, taskAt, heldAt, hq] at hp
    | worker w => simp [fdAt, taskAt, heldAt, carried, hw] at hp

end State

end PotHub.Server
