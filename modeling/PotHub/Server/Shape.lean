import PotHub.Server.Compaction

/-!
# The shape of the poll array

What holds of `fds` and `nfds` between any two accesses: the listening socket
stays in cell 0, which no compaction removes and no worker points to, so that
`nfds` never falls below 1; a socket is appended only in front of the end of the
array.  The indices of the loops and the pointers of the workers, stale ones
too, stay inside.
-/

namespace PotHub.Server

open PotHub.Lib

/-! ## The array -/

/-- The shape of the array. -/
structure PollArray.Shaped (listenSd : ℕ) (a : PollArray) : Prop where
  one_le : 1 ≤ a.nfds
  le : a.nfds ≤ MAX_CONNECTIONS
  fd_zero : a.fd 0 = listenSd
  events : ∀ i < a.nfds, a.events i = POLLIN

/-- A cell that may be dispatched: not the one of the listening socket. -/
def ClientCell (k : ℕ) : Prop := 1 ≤ k ∧ k < MAX_CONNECTIONS

namespace PollArray.Shaped

variable {listenSd : ℕ} {a : PollArray}

theorem init (listenSd : ℕ) : (PollArray.init listenSd).Shaped listenSd where
  one_le := le_rfl
  le := (by decide : 1 ≤ MAX_CONNECTIONS)
  fd_zero := by simp [PollArray.init]
  events i hi := by
    have hi0 : i = 0 := by
      have : i < 1 := hi
      omega
    simp [PollArray.init, hi0]

/-- An assignment to another cell than the first. -/
theorem setFd (h : a.Shaped listenSd) {k : ℕ} (hk : 1 ≤ k) (v : Int) :
    (a.setFd k v).Shaped listenSd where
  one_le := h.one_le
  le := h.le
  fd_zero := by
    rw [setFd_fd, Function.update_of_ne (by omega)]
    exact h.fd_zero
  events := h.events

theorem push (h : a.Shaped listenSd) (hroom : a.nfds ≠ MAX_CONNECTIONS) (newSd : ℕ) :
    (a.push newSd).Shaped listenSd where
  one_le := Nat.le_add_left 1 _
  le := by
    have := h.le
    rw [push_nfds]
    omega
  fd_zero := by
    have := h.one_le
    rw [push_fd, Function.update_of_ne (by omega)]
    exact h.fd_zero
  events i hi := by
    show Function.update a.events a.nfds POLLIN i = POLLIN
    by_cases hin : i = a.nfds
    · rw [hin, Function.update_self]
    · rw [Function.update_of_ne hin]
      rw [push_nfds] at hi
      exact h.events i (by omega)

/-- The last cell is given up. -/
theorem pop (h : a.Shaped listenSd) (h2 : 2 ≤ a.nfds) :
    ({ a with nfds := a.nfds - 1 } : PollArray).Shaped listenSd where
  one_le := by
    show 1 ≤ a.nfds - 1
    omega
  le := le_trans (Nat.sub_le _ _) h.le
  fd_zero := h.fd_zero
  events i hi := h.events i (lt_of_lt_of_le hi (Nat.sub_le _ _))

theorem acceptOne (h : a.Shaped listenSd) (r : AcceptResult) :
    (acceptOne a r).array.Shaped listenSd := by
  rcases acceptOne_cases a r with ha | ⟨newSd, k, -, hroom, ha⟩
  · rw [ha]
    exact h
  · rw [ha]
    exact h.push hroom newSd

theorem fd_zero_ne (h : a.Shaped listenSd) {v : Int} (hv : v < 0) : a.fd 0 ≠ v := by
  rw [h.fd_zero]
  omega

end PollArray.Shaped

/-! ## The compaction loop -/

/-- The indices of the compaction loop, for a given length of the array.  The
cell that is removed is not the first. -/
def CompactPc.Inside (nfds : ℕ) : CompactPc → Prop
  | .test i => 0 ≤ i
  | .isFree i | .isStopped i => 0 ≤ i ∧ i < nfds
  | .shift i j => 1 ≤ i ∧ i ≤ j ∧ i < nfds
  | .assign i j _ => 1 ≤ i ∧ i ≤ j ∧ j + 1 < nfds
  | .done => True

section Compaction

variable {listenSd : ℕ} {a : PollArray} {c : CompactPc}

theorem compactStep_revents (a : PollArray) (c : CompactPc) :
    (compactStep a c).1.revents = a.revents := by
  cases c with
  | shift i j =>
      by_cases hj : j < a.nfds - 1 <;> simp [compactStep, hj]
  | _ => rfl

theorem inside_iff {nfds : ℕ} : c.Inside nfds ↔ c.Within 1 nfds := by
  cases c <;> exact Iff.rfl

theorem compactStep_shaped (h : a.Shaped listenSd) (hc : c.Inside a.nfds) :
    (compactStep a c).1.Shaped listenSd := by
  cases c with
  | shift i j =>
      obtain ⟨hi, hij, hlt⟩ : 1 ≤ i ∧ i ≤ j ∧ i < a.nfds := hc
      by_cases hj : j < a.nfds - 1
      · simpa only [compactStep, hj, if_true] using h
      · simp only [compactStep, hj, if_false]
        exact h.pop (by omega)
  | assign i j v =>
      obtain ⟨hi, hij, hlt⟩ : 1 ≤ i ∧ i ≤ j ∧ j + 1 < a.nfds := hc
      exact h.setFd (by omega) v
  | _ => exact h

theorem compactStep_inside (h : a.Shaped listenSd) (hc : c.Inside a.nfds) :
    (compactStep a c).1.Shaped listenSd ∧
      (compactStep a c).2.Inside (compactStep a c).1.nfds := by
  refine ⟨compactStep_shaped h hc, inside_iff.2 ?_⟩
  refine compactStep_within (by decide) (fun i hi hi' hunused => ?_) (inside_iff.1 hc)
  -- the first cell is not free, the listening socket is in it
  obtain rfl : i = 0 := by omega
  exact h.fd_zero_ne hunused.neg rfl

/-- The indices of a loop over the array. -/
theorem mem_range_lt (hle : a.nfds ≤ MAX_CONNECTIONS) {k : Int}
    (hk : k ∈ (List.range a.nfds).map Int.ofNat) : 0 ≤ k ∧ k < MAX_CONNECTIONS := by
  obtain ⟨i, hi, rfl⟩ := List.mem_map.1 hk
  have := List.mem_range.1 hi
  simp only [Int.ofNat_eq_natCast]
  omega

theorem compactIndices_lt (hle : a.nfds ≤ MAX_CONNECTIONS) (hc : c.Inside a.nfds) :
    ∀ k ∈ compactIndices a c, 0 ≤ k ∧ k < MAX_CONNECTIONS := by
  intro k hk
  have hlt := compactIndices_within (by decide) (inside_iff.1 hc) k hk
  omega

end Compaction

/-! ## The run -/

/-- The indices that main works with. -/
def CellsPc.Inside (nfds i : ℕ) : CellsPc → Prop
  | .compacting _ c => c.Inside nfds
  | .hangingUp | .setOldFd | .setFd | .stopPolling | .adding => ClientCell i
  | _ => True

/-- Main has started to fill `info`, and its task is not added yet. -/
def CellsPc.Building (p : CellsPc) : Prop := p = .setFd ∨ p = .stopPolling ∨ p = .adding

/-- Main works with no index and no task. -/
def CellsPc.Idle : CellsPc → Prop
  | .compacting _ _ | .hangingUp | .setOldFd | .setFd | .stopPolling | .adding => False
  | _ => True

theorem CellsPc.Idle.inside {nfds i : ℕ} {p : CellsPc} (h : p.Idle) : p.Inside nfds i := by
  cases p <;> first | exact trivial | exact absurd h id

theorem CellsPc.Idle.not_building {p : CellsPc} (h : p.Idle) : ¬ p.Building := by
  rintro (rfl | rfl | rfl) <;> exact h

/-- The pointer that a worker has read. -/
def CellsWorker.Inside : CellsWorker → Prop
  | .reading oldFd => ClientCell oldFd
  | .working info => ClientCell info.oldFd
  | _ => True

namespace Cells

variable {W : Type} {listenSd : ℕ} {s s' : Cells W}

theorem mainNext_compacting {site : Site} {c : CompactPc} (hp : s.pc = .compacting site c)
    (hdone : c ≠ .done) :
    s.mainNext listenSd =
      { s with
        array := (compactStep s.array c).1
        pc := .compacting site (compactStep s.array c).2 } := by
  cases c with
  | done => exact absurd rfl hdone
  | _ => simp only [mainNext, hp]

/-- No dispatch so far. -/
structure NoTask (s : Cells W) : Prop where
  taskCount : s.taskCount = 0
  worker : ∀ w, s.worker w = .waiting
  pc : ¬ s.pc.Building

/-- The invariant of the runs. -/
structure Inv (listenSd : ℕ) (s : Cells W) : Prop where
  shaped : s.array.Shaped listenSd
  revents_zero : ¬ HungUp (s.array.revents 0)
  size_le : s.currentSize ≤ MAX_CONNECTIONS
  pc : s.pc.Inside s.array.nfds s.i
  info : ClientCell s.info.oldFd ∨ s.NoTask
  worker : ∀ w, (s.worker w).Inside

namespace Inv

/-- While main fills `info`, its pointer is one to the cell of a client. -/
theorem info_of_building (h : s.Inv listenSd) (hpc : s.pc.Building) :
    ClientCell s.info.oldFd := h.info.resolve_right fun hno => hno.pc hpc

/-- So it is while a worker has a task. -/
theorem info_of_worker (h : s.Inv listenSd) {w : W} (hw : s.worker w ≠ .waiting) :
    ClientCell s.info.oldFd := h.info.resolve_right fun hno => hw (hno.worker w)

/-- A worker holds a pointer to the cell of a client. -/
theorem working (h : s.Inv listenSd) {w : W} {info : PollInfo}
    (hw : s.worker w = .working info) : ClientCell info.oldFd := by
  have hinside := h.worker w
  rwa [hw] at hinside

/-- So it does between its two reads. -/
theorem reading (h : s.Inv listenSd) {w : W} {oldFd : ℕ} (hw : s.worker w = .reading oldFd) :
    ClientCell oldFd := by
  have hinside := h.worker w
  rwa [hw] at hinside

/-- A step of main. -/
theorem of_main (h : s.Inv listenSd) (hshaped : s'.array.Shaped listenSd)
    (hrevents : ¬ HungUp (s'.array.revents 0)) (hsize : s'.currentSize ≤ MAX_CONNECTIONS)
    (hpc : s'.pc.Inside s'.array.nfds s'.i) (hworker : s'.worker = s.worker)
    (hinfo : ClientCell s'.info.oldFd ∨
      s'.info = s.info ∧ s'.taskCount = s.taskCount ∧ ¬ s'.pc.Building) :
    s'.Inv listenSd where
  shaped := hshaped
  revents_zero := hrevents
  size_le := hsize
  pc := hpc
  info := by
    rcases hinfo with hinfo | ⟨hinfo, hcount, hbuild⟩
    · exact Or.inl hinfo
    · refine h.info.imp (fun hi => hinfo ▸ hi) fun hno => ⟨hcount.trans hno.taskCount, ?_, hbuild⟩
      rw [hworker]
      exact hno.worker
  worker := by
    rw [hworker]
    exact h.worker

/-- A step of main that leaves the array alone. -/
theorem of_move (h : s.Inv listenSd) (harray : s'.array = s.array)
    (hsize : s'.currentSize ≤ MAX_CONNECTIONS) (hpc : s'.pc.Inside s.array.nfds s'.i)
    (hbuild : ¬ s'.pc.Building) (hworker : s'.worker = s.worker) (hinfo : s'.info = s.info)
    (hcount : s'.taskCount = s.taskCount) : s'.Inv listenSd := by
  refine h.of_main ?_ ?_ hsize ?_ hworker (Or.inr ⟨hinfo, hcount, hbuild⟩)
  · rw [harray]
    exact h.shaped
  · rw [harray]
    exact h.revents_zero
  · rw [harray]
    exact hpc

/-- A step of main to a place without indices. -/
theorem of_idle (h : s.Inv listenSd) (harray : s'.array = s.array)
    (hsize : s'.currentSize ≤ MAX_CONNECTIONS) (hidle : s'.pc.Idle)
    (hworker : s'.worker = s.worker) (hinfo : s'.info = s.info)
    (hcount : s'.taskCount = s.taskCount) : s'.Inv listenSd :=
  h.of_move harray hsize hidle.inside hidle.not_building hworker hinfo hcount

theorem loopEnd (h : s.Inv listenSd) : s.loopEnd.Inv listenSd := by
  refine h.of_idle rfl h.size_le ?_ rfl rfl rfl
  cases he : s.endServer <;> simp [Cells.loopEnd, he, CellsPc.Idle]

theorem scanNext (h : s.Inv listenSd) (hp : s.pc = .scanning) :
    (s.scanNext listenSd).Inv listenSd := by
  by_cases hex : s.i < s.currentSize ∧ 0 < s.pollErr
  · have hlt := lt_of_lt_of_le hex.1 h.size_le
    rw [Cells.scanNext, if_pos hex]
    cases hv : verdict listenSd s.array s.i with
    | skip => exact h.of_idle rfl h.size_le (by simp [hp, CellsPc.Idle]) rfl rfl rfl
    | hangUp =>
        -- the kernel reports no hang-up for the listening socket
        have hne : s.i ≠ 0 := by
          intro h0
          rw [verdict_hangUp_iff, h0] at hv
          exact h.revents_zero hv
        exact h.of_move rfl h.size_le ⟨Nat.pos_of_ne_zero hne, hlt⟩
          (by simp [CellsPc.Building]) rfl rfl rfl
    | unexpected => exact h.of_idle rfl h.size_le trivial rfl rfl rfl
    | listening => exact h.of_idle rfl h.size_le trivial rfl rfl rfl
    | readable =>
        -- what is read from is not the listening socket
        have hne : s.i ≠ 0 := by
          intro h0
          rw [verdict_readable_iff, h0] at hv
          exact hv.2 h.shaped.fd_zero
        exact h.of_move rfl h.size_le ⟨Nat.pos_of_ne_zero hne, hlt⟩
          (by simp [CellsPc.Building]) rfl rfl rfl
  · rw [Cells.scanNext, if_neg hex]
    exact h.loopEnd

theorem compacting (h : s.Inv listenSd) {site : Site} {c : CompactPc}
    (hp : s.pc = .compacting site c) : (s.mainNext listenSd).Inv listenSd := by
  have hc : c.Inside s.array.nfds := by
    have := h.pc
    rwa [hp] at this
  by_cases hdone : c = .done
  · subst hdone
    cases site with
    | flagged =>
        simp only [mainNext, hp]
        exact h.of_idle rfl h.size_le trivial rfl rfl rfl
    | hangUp =>
        simp only [mainNext, hp]
        exact h.of_idle rfl h.size_le trivial rfl rfl rfl
  · obtain ⟨hshaped, hinside⟩ := compactStep_inside h.shaped hc
    rw [mainNext_compacting hp hdone]
    refine h.of_main hshaped ?_ h.size_le hinside rfl (Or.inr ⟨rfl, rfl, ?_⟩)
    · show ¬ HungUp ((compactStep s.array c).1.revents 0)
      rw [compactStep_revents]
      exact h.revents_zero
    · simp [CellsPc.Building]

theorem mainNext (h : s.Inv listenSd) : (s.mainNext listenSd).Inv listenSd := by
  have hpc := h.pc
  cases hp : s.pc with
  | polling => simpa only [Cells.mainNext, hp] using h
  | accepting => simpa only [Cells.mainNext, hp] using h
  | exited => simpa only [Cells.mainNext, hp] using h
  | compacting site c => exact h.compacting hp
  | testFlag =>
      simp only [Cells.mainNext, hp]
      refine h.of_idle rfl h.size_le ?_ rfl rfl rfl
      cases hc : s.compressArray <;> simp [CellsPc.Idle]
  | testThreads =>
      simp only [Cells.mainNext, hp]
      refine h.of_idle rfl h.size_le ?_ rfl rfl rfl
      by_cases hn : s.numThreadsExecuting = 0 <;> simp [hn, CellsPc.Idle]
  | clearFlag =>
      simp only [Cells.mainNext, hp]
      exact h.of_move rfl h.size_le le_rfl (by simp [CellsPc.Building]) rfl rfl rfl
  | packed =>
      simp only [Cells.mainNext, hp]
      by_cases hn : s.pollErr = 0
      · rw [if_pos hn]
        exact h.loopEnd
      · rw [if_neg hn]
        exact h.of_idle rfl h.shaped.le trivial rfl rfl rfl
  | scanning =>
      simp only [Cells.mainNext, hp]
      exact h.scanNext hp
  | hangingUp =>
      have hi : ClientCell s.i := by rwa [hp] at hpc
      simp only [Cells.mainNext, hp]
      exact h.of_main (h.shaped.setFd hi.1 _) h.revents_zero h.size_le le_rfl rfl
        (Or.inr ⟨rfl, rfl, by simp [CellsPc.Building]⟩)
  | setOldFd =>
      have hi : ClientCell s.i := by rwa [hp] at hpc
      simp only [Cells.mainNext, hp]
      exact h.of_main h.shaped h.revents_zero h.size_le hi rfl (Or.inl hi)
  | setFd =>
      have hi : ClientCell s.i := by rwa [hp] at hpc
      have hinfo := h.info_of_building (Or.inl hp)
      simp only [Cells.mainNext, hp]
      exact h.of_main h.shaped h.revents_zero h.size_le hi rfl (Or.inl hinfo)
  | stopPolling =>
      have hi : ClientCell s.i := by rwa [hp] at hpc
      have hinfo := h.info_of_building (Or.inr (Or.inl hp))
      simp only [Cells.mainNext, hp]
      exact h.of_main (h.shaped.setFd hi.1 _) h.revents_zero h.size_le hi rfl (Or.inl hinfo)
  | adding =>
      have hinfo := h.info_of_building (Or.inr (Or.inr hp))
      simp only [Cells.mainNext, hp]
      exact h.of_main h.shaped h.revents_zero h.size_le trivial rfl (Or.inl hinfo)
  | closing =>
      simp only [Cells.mainNext, hp]
      exact h.of_idle rfl h.size_le trivial rfl rfl rfl

theorem acceptNext (h : s.Inv listenSd) (r : AcceptResult) : (s.acceptNext r).Inv listenSd := by
  have hrevents : (acceptOne s.array r).array.revents = s.array.revents := by
    rcases acceptOne_cases s.array r with ha | ⟨newSd, k, -, -, ha⟩ <;> simp [ha]
  have hidle : (s.acceptNext r).pc.Idle := by
    cases hn : (acceptOne s.array r).next <;> simp [Cells.acceptNext, hn, CellsPc.Idle]
  refine h.of_main (h.shaped.acceptOne r) ?_ h.size_le hidle.inside rfl
    (Or.inr ⟨rfl, rfl, hidle.not_building⟩)
  show ¬ HungUp ((acceptOne s.array r).array.revents 0)
  rw [hrevents]
  exact h.revents_zero

/-- A step of a worker with a task. -/
theorem of_worker [DecidableEq W] (h : s.Inv listenSd) {w : W} {p : CellsWorker}
    (hinfo : ClientCell s.info.oldFd) (hp : p.Inside) (hshaped : s'.array.Shaped listenSd)
    (hnfds : s'.array.nfds = s.array.nfds) (hrevents : s'.array.revents = s.array.revents)
    (hmain : s'.pc = s.pc ∧ s'.i = s.i ∧ s'.currentSize = s.currentSize ∧ s'.info = s.info)
    (hworker : s'.worker = Function.update s.worker w p) : s'.Inv listenSd := by
  obtain ⟨hpc, hi, hsize, hinfo'⟩ := hmain
  refine ⟨hshaped, hrevents ▸ h.revents_zero, hsize ▸ h.size_le, ?_, Or.inl (hinfo' ▸ hinfo), ?_⟩
  · rw [hpc, hnfds, hi]
    exact h.pc
  · intro v
    rw [hworker]
    by_cases hv : v = w
    · rw [hv, Function.update_self]
      exact hp
    · rw [Function.update_of_ne hv]
      exact h.worker v

theorem next [DecidableEq W] (h : s.Inv listenSd) {e : CellsEvent W}
    (hk : s.KernelKeeps listenSd e) (he : s.Enabled e) : (s.next listenSd e).Inv listenSd := by
  cases e with
  | poll revents =>
      have hone : 0 < s.array.nfds := h.shaped.one_le
      refine h.of_main ⟨hone, h.shaped.le, h.shaped.fd_zero, h.shaped.events⟩ ?_ h.size_le trivial
        rfl (Or.inr ⟨rfl, rfl, by simp [Cells.next, CellsPc.Building]⟩)
      show ¬ HungUp (if 0 < s.array.nfds then revents 0 else s.array.revents 0)
      rw [if_pos hone]
      exact hk 0 hone h.shaped.fd_zero
  | pollFails => exact h.of_idle rfl h.size_le trivial rfl rfl rfl
  | accept r => exact h.acceptNext r
  | main => exact h.mainNext
  | dequeue w =>
      -- there is a task in the queue, so there has been a dispatch
      have hinfo : ClientCell s.info.oldFd := h.info.resolve_right fun hno => he.2.2 hno.taskCount
      exact h.of_worker (p := .dequeued) hinfo trivial h.shaped rfl rfl ⟨rfl, rfl, rfl, rfl⟩ rfl
  | begin w =>
      have hinfo := h.info_of_worker (w := w) (by simp [he.2])
      exact h.of_worker (p := .executing) hinfo trivial h.shaped rfl rfl ⟨rfl, rfl, rfl, rfl⟩ rfl
  | readOldFd w =>
      have hinfo := h.info_of_worker (w := w) (by simp [he.2])
      exact h.of_worker (p := .reading _) hinfo hinfo h.shaped rfl rfl ⟨rfl, rfl, rfl, rfl⟩ rfl
  | readFd w oldFd =>
      have hinfo := h.info_of_worker (w := w) (by simp [he.2])
      exact h.of_worker (p := .working ⟨oldFd, s.info.fd⟩) hinfo (h.reading he.2) h.shaped rfl rfl
        ⟨rfl, rfl, rfl, rfl⟩ rfl
  | writeBack w info closeConn =>
      have hinfo := h.info_of_worker (w := w) (by simp [he.2])
      have hwork := h.working he.2
      refine h.of_worker hinfo ?_ (h.shaped.setFd hwork.1 _) rfl rfl ⟨rfl, rfl, rfl, rfl⟩ rfl
      cases closeConn <;> trivial
  | setFlag w =>
      have hinfo := h.info_of_worker (w := w) (by simp [he.2])
      exact h.of_worker (p := .returned) hinfo trivial h.shaped rfl rfl ⟨rfl, rfl, rfl, rfl⟩ rfl
  | leave w =>
      have hinfo := h.info_of_worker (w := w) (by simp [he.2])
      exact h.of_worker (p := .waiting) hinfo trivial h.shaped rfl rfl ⟨rfl, rfl, rfl, rfl⟩ rfl

theorem mainIndices_lt (h : s.Inv listenSd) :
    ∀ k ∈ s.mainIndices, 0 ≤ k ∧ k < MAX_CONNECTIONS := by
  have hpc := h.pc
  have hcell : ClientCell s.i → ∀ k ∈ [(s.i : Int)], 0 ≤ k ∧ k < MAX_CONNECTIONS := by
    rintro ⟨-, hlt⟩ k hk
    rw [List.mem_singleton.1 hk]
    omega
  intro k hk
  cases hp : s.pc with
  | compacting site c =>
      rw [hp] at hpc
      rw [mainIndices, hp] at hk
      exact compactIndices_lt h.shaped.le hpc k hk
  | scanning =>
      rw [mainIndices, hp] at hk
      by_cases hex : s.i < s.currentSize ∧ 0 < s.pollErr
      · simp only [if_pos hex] at hk
        have := h.size_le
        rw [List.mem_singleton.1 hk]
        omega
      · simp [hex] at hk
  | closing =>
      rw [mainIndices, hp] at hk
      exact mem_range_lt h.shaped.le hk
  | hangingUp | setOldFd | setFd | stopPolling =>
      rw [hp] at hpc
      rw [mainIndices, hp] at hk
      exact hcell hpc k hk
  | _ =>
      rw [mainIndices, hp] at hk
      exact absurd hk List.not_mem_nil

/-- The indices that an event uses are inside the array. -/
theorem indices_lt (h : s.Inv listenSd) {e : CellsEvent W} (he : s.Enabled e) :
    ∀ k ∈ s.indices e, 0 ≤ k ∧ k < MAX_CONNECTIONS := by
  have hle := h.shaped.le
  intro k hk
  cases e with
  | poll revents => exact mem_range_lt hle hk
  | accept r =>
      by_cases hagain : (acceptOne s.array r).next = .again
      · have hroom := acceptOne_again hagain
        rw [indices, if_pos hagain] at hk
        rw [List.mem_singleton.1 hk]
        omega
      · rw [indices, if_neg hagain] at hk
        exact absurd hk List.not_mem_nil
  | main => exact h.mainIndices_lt k hk
  | writeBack w info closeConn =>
      have hlt := (h.working he.2).2
      rw [List.mem_singleton.1 hk]
      omega
  | _ => exact absurd hk List.not_mem_nil

end Inv

variable [DecidableEq W]

theorem inv_of_reach (h : (cellsMachine W listenSd).Reach (KernelKeeps listenSd) s) :
    s.Inv listenSd := by
  refine h.invariant (I := Inv listenSd) ?_ fun s e s' _ hk hI hstep => ?_
  · exact ⟨.init listenSd, not_hungUp_zero, Nat.zero_le _, trivial,
      Or.inr ⟨rfl, fun _ => rfl, by simp [cellsMachine, init, CellsPc.Building]⟩, fun _ => trivial⟩
  · obtain ⟨he, rfl⟩ := cellsMachine_step_iff.1 hstep
    exact hI.next hk he

/-- **The shape of the poll array.**  In every run, whatever stale pointers the
workers hold, the array has between 1 and 200 cells, the listening socket is in
front, every cell waits for input, and all indices are inside; and no worker
writes cell 0. -/
theorem shaped_of_reach (h : (cellsMachine W listenSd).Reach (KernelKeeps listenSd) s) :
    (1 ≤ s.array.nfds ∧ s.array.nfds ≤ 200) ∧ s.array.fd 0 = listenSd ∧
      (∀ i < s.array.nfds, s.array.events i = POLLIN) ∧
      (∀ e, s.Enabled e → ∀ k ∈ s.indices e, 0 ≤ k ∧ k < 200) ∧
      ∀ w info closeConn, s.Enabled (.writeBack w info closeConn) → info.oldFd ≠ 0 := by
  have hinv := inv_of_reach h
  refine ⟨⟨hinv.shaped.one_le, hinv.shaped.le⟩, hinv.shaped.fd_zero, hinv.shaped.events,
    fun e he => hinv.indices_lt he, fun w info closeConn he => ?_⟩
  exact Nat.one_le_iff_ne_zero.1 (hinv.working he.2).1

/-- Two clients are accepted and dispatched, and the worker with the first task
finds the `info` of the second. -/
def readsOverwritten : List (CellsEvent (Fin 2)) :=
  [.poll fun i => if i = 0 then POLLIN else 0, .main, .main, .main,
    .accept (.accepted 5 true true), .accept (.accepted 6 true true), .accept (.failed true),
    .main, .poll fun i => if i = 0 then 0 else POLLIN, .main, .main, .main,
    .main, .main, .main, .main, .main, .main, .main, .main, .main, .main,
    .dequeue 0, .begin 0, .readOldFd 0, .readFd 0 2]

theorem shaped_of_readsOverwritten : ∃ s : Cells (Fin 2),
    (cellsMachine (Fin 2) 3).Reach (KernelKeeps 3) s ∧ s.worker 0 = .working ⟨2, 6⟩ ∧
      (1 ≤ s.array.nfds ∧ s.array.nfds ≤ 200) ∧ s.array.fd 0 = (3 : ℕ) := by
  have hrun : ∃ s : Cells (Fin 2), (cellsMachine (Fin 2) 3).Reach (KernelKeeps 3) s ∧
      s.worker 0 = .working ⟨2, 6⟩ :=
    Machine.exists_reach_of_tryRun readsOverwritten (by decide +kernel)
  obtain ⟨s, hs, hw⟩ := hrun
  obtain ⟨hnfds, hfd, -⟩ := shaped_of_reach hs
  exact ⟨s, hs, hw, hnfds, hfd⟩

end Cells

end PotHub.Server
