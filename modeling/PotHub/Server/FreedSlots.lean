import PotHub.Server.Compaction
import PotHub.Server.Shape

/-!
# Freed cells and the flag

A worker that closes its connection writes -1 to a cell and then sets
`compress_array`; main clears the flag and then looks for such cells, while
workers write further ones in front of its index and behind it.  A cell behind
the index is only found by the next compaction, so there has to be one.

As long as neither the flag is set nor a worker is about to set it, the cells
with -1 are all in front of the index of the compaction that is going on.
-/

namespace PotHub.Server

open PotHub.Lib

/-- The compaction loop still gets to index `k`. -/
def CompactPc.Ahead (k : ℕ) : CompactPc → Prop
  | .test i | .isFree i | .shift i _ | .assign i _ _ => i ≤ k
  -- the cell has been compared with -1 already
  | .isStopped i => i < k
  | .done => False

theorem compactStep_ahead {a : PollArray} {c : CompactPc} (hc : c.Within 0 a.nfds)
    (h : ∀ k < a.nfds, a.fd k = -1 → c.Ahead k) :
    ∀ k < (compactStep a c).1.nfds, (compactStep a c).1.fd k = -1 →
      (compactStep a c).2.Ahead k := by
  intro k hk hfd
  cases c with
  | test i =>
      have hik : i ≤ k := h k hk hfd
      have hk' : (k : Int) < a.nfds := Int.ofNat_lt.2 hk
      simpa [compactStep, show i < a.nfds by omega, CompactPc.Ahead] using hik
  | isFree i =>
      obtain ⟨hi, -⟩ : 0 ≤ i ∧ i < a.nfds := hc
      have hik : i ≤ k := h k hk hfd
      by_cases hfree : a.fd i.toNat = -1
      · simpa [compactStep, hfree, CompactPc.Ahead] using hik
      · have hne : k ≠ i.toNat := fun hki => hfree (hki ▸ hfd)
        simp only [compactStep, hfree, if_false, CompactPc.Ahead]
        omega
  | isStopped i =>
      have hik : i < k := h k hk hfd
      by_cases hstop : a.fd i.toNat = -2
      · simp only [compactStep, hstop, if_true, CompactPc.Ahead]
        omega
      · simp only [compactStep, hstop, if_false, CompactPc.Ahead]
        omega
  | shift i j =>
      by_cases hj : j < a.nfds - 1
      · simp only [compactStep, hj, if_true] at hk hfd ⊢
        exact h k hk hfd
      · simp only [compactStep, hj, if_false] at hk hfd ⊢
        have hik : i ≤ k := h k (by omega) hfd
        show i - 1 + 1 ≤ (k : Int)
        omega
  | assign i j v =>
      obtain ⟨hi, hij, -⟩ : 0 ≤ i ∧ i ≤ j ∧ j + 1 < a.nfds := hc
      show i ≤ (k : Int)
      by_cases hkj : k = j.toNat
      · omega
      · have hfd' : Function.update a.fd j.toNat v k = -1 := hfd
        rw [Function.update_of_ne hkj] at hfd'
        exact h k hk hfd'
  | done => exact h k hk hfd

/-- The compaction loop of main, if it is in one, still gets to index `k`. -/
def CellsPc.Ahead (k : ℕ) : CellsPc → Prop
  | .compacting _ c => c.Ahead k
  | _ => False

namespace Cells

variable {W : Type} {listenSd : ℕ} {s s' : Cells W}

/-- `recv` fails for a negative descriptor, and the worker closes. -/
def RecvFails (_ : Cells W) : CellsEvent W → Prop
  | .writeBack _ info closeConn => info.fd < 0 → closeConn = true
  | _ => True

instance (s : Cells W) : DecidablePred s.RecvFails
  | .writeBack _ _ _ => inferInstanceAs (Decidable (_ → _))
  | .poll _ | .pollFails | .accept _ | .main | .dequeue _ | .begin _ | .readOldFd _ | .readFd _ _
  | .setFlag _ | .leave _ => inferInstanceAs (Decidable True)

/-- The flag is set, or a worker is about to set it. -/
def Noted (s : Cells W) : Prop := s.compressArray = true ∨ ∃ w, s.worker w = .freed

/-- The invariant: cells that nobody has noted lie ahead of the compaction. -/
structure Remembered (s : Cells W) : Prop where
  within : ∀ site c, s.pc = .compacting site c → c.Within 0 s.array.nfds
  ahead : s.Noted ∨ ∀ k < s.array.nfds, s.array.fd k = -1 → s.pc.Ahead k

/-- No freed cell below `nfds` goes without a note. -/
def AllNoted (s : Cells W) : Prop := s.Noted ∨ ∀ k < s.array.nfds, s.array.fd k ≠ -1

namespace Remembered

/-- Outside of a compaction. -/
theorem of_allNoted (hpc : ∀ site c, s.pc ≠ .compacting site c) (h : s.AllNoted) :
    s.Remembered where
  within site c hc := absurd hc (hpc site c)
  ahead := h.imp_right fun hne k hk hfd => absurd hfd (hne k hk)

theorem allNoted (h : s.Remembered) (hpc : ∀ k, ¬ s.pc.Ahead k) : s.AllNoted :=
  h.ahead.imp_right fun hahead k hk hfd => hpc k (hahead k hk hfd)

/-- At the start of a compaction everything is ahead. -/
theorem of_start {site : Site} (hpc : s.pc = .compacting site (.test 0)) : s.Remembered where
  within site' c hc := by
    rw [hpc] at hc
    cases hc
    exact le_rfl
  ahead := Or.inr fun k _ _ => by
    rw [hpc]
    exact Int.natCast_nonneg k

end Remembered

theorem AllNoted.of_eq (h : s.AllNoted) (hflag : s'.compressArray = s.compressArray)
    (hworker : s'.worker = s.worker) (hnfds : s'.array.nfds = s.array.nfds)
    (hfd : s'.array.fd = s.array.fd) : s'.AllNoted := by
  rwa [AllNoted, Noted, hflag, hworker, hnfds, hfd]

/-! ## The steps of main -/

/-- A step of main from outside of a compaction to outside. -/
theorem Remembered.of_move (h : s.Remembered) (hahead : ∀ k, ¬ s.pc.Ahead k)
    (hpc : ∀ site c, s'.pc ≠ .compacting site c) (hflag : s'.compressArray = s.compressArray)
    (hworker : s'.worker = s.worker) (hnfds : s'.array.nfds = s.array.nfds)
    (hfd : s'.array.fd = s.array.fd) : s'.Remembered :=
  .of_allNoted hpc ((h.allNoted hahead).of_eq hflag hworker hnfds hfd)

theorem loopEnd_pc_ne (s : Cells W) (site : Site) (c : CompactPc) :
    s.loopEnd.pc ≠ .compacting site c := by
  cases he : s.endServer <;> simp [loopEnd, he]

theorem Remembered.scanNext (h : s.Remembered) (hp : s.pc = .scanning) :
    (s.scanNext listenSd).Remembered := by
  have hahead : ∀ k, ¬ s.pc.Ahead k := by simp [hp, CellsPc.Ahead]
  rw [Cells.scanNext]
  split_ifs with hex
  · cases verdict listenSd s.array s.i with
    | skip => exact h.of_move hahead (by simp [hp]) rfl rfl rfl rfl
    | hangUp => exact h.of_move hahead (by simp) rfl rfl rfl rfl
    | unexpected => exact h.of_move hahead (by simp) rfl rfl rfl rfl
    | listening => exact h.of_move hahead (by simp) rfl rfl rfl rfl
    | readable => exact h.of_move hahead (by simp) rfl rfl rfl rfl
  · exact h.of_move hahead s.loopEnd_pc_ne rfl rfl rfl rfl

theorem Remembered.compacting (h : s.Remembered) {site : Site} {c : CompactPc}
    (hp : s.pc = .compacting site c) : (s.mainNext listenSd).Remembered := by
  by_cases hdone : c = .done
  · subst hdone
    have hahead : ∀ k, ¬ s.pc.Ahead k := by simp [hp, CellsPc.Ahead, CompactPc.Ahead]
    cases site with
    | flagged =>
        simp only [mainNext, hp]
        exact h.of_move hahead (by simp) rfl rfl rfl rfl
    | hangUp =>
        simp only [mainNext, hp]
        exact h.of_move hahead (by simp) rfl rfl rfl rfl
  · have hc := h.within site c hp
    rw [mainNext_compacting hp hdone]
    refine ⟨?_, h.ahead.imp_right ?_⟩
    · intro site' c' hc'
      cases hc'
      exact compactStep_within_zero hc
    · intro hahead
      rw [hp] at hahead
      exact compactStep_ahead hc hahead

theorem Remembered.mainNext (h : s.Remembered) : (s.mainNext listenSd).Remembered := by
  cases hp : s.pc with
  | polling => simpa only [Cells.mainNext, hp] using h
  | accepting => simpa only [Cells.mainNext, hp] using h
  | exited => simpa only [Cells.mainNext, hp] using h
  | compacting site c => exact h.compacting hp
  | clearFlag =>
      simp only [Cells.mainNext, hp]
      exact .of_start rfl
  | hangingUp =>
      simp only [Cells.mainNext, hp]
      exact .of_start rfl
  | scanning =>
      simp only [Cells.mainNext, hp]
      exact h.scanNext hp
  | stopPolling =>
      simp only [Cells.mainNext, hp]
      refine .of_allNoted (by simp) ((h.allNoted (by simp [hp, CellsPc.Ahead])).imp_right ?_)
      intro hne k hk
      show Function.update s.array.fd s.i FD_STOP_POLLING k ≠ -1
      by_cases hki : k = s.i
      · rw [hki, Function.update_self]
        decide
      · rw [Function.update_of_ne hki]
        exact hne k hk
  | packed =>
      have hahead : ∀ k, ¬ s.pc.Ahead k := by simp [hp, CellsPc.Ahead]
      simp only [Cells.mainNext, hp]
      split_ifs
      · exact h.of_move hahead s.loopEnd_pc_ne rfl rfl rfl rfl
      · exact h.of_move hahead (by simp) rfl rfl rfl rfl
  | testFlag =>
      simp only [Cells.mainNext, hp]
      refine h.of_move (by simp [hp, CellsPc.Ahead]) ?_ rfl rfl rfl rfl
      cases hc : s.compressArray <;> simp
  | testThreads =>
      simp only [Cells.mainNext, hp]
      refine h.of_move (by simp [hp, CellsPc.Ahead]) ?_ rfl rfl rfl rfl
      by_cases hn : s.numThreadsExecuting = 0 <;> simp [hn]
  | setOldFd =>
      simp only [Cells.mainNext, hp]
      exact h.of_move (by simp [hp, CellsPc.Ahead]) (by simp) rfl rfl rfl rfl
  | setFd =>
      simp only [Cells.mainNext, hp]
      exact h.of_move (by simp [hp, CellsPc.Ahead]) (by simp) rfl rfl rfl rfl
  | adding =>
      simp only [Cells.mainNext, hp]
      exact h.of_move (by simp [hp, CellsPc.Ahead]) (by simp) rfl rfl rfl rfl
  | closing =>
      simp only [Cells.mainNext, hp]
      exact h.of_move (by simp [hp, CellsPc.Ahead]) (by simp) rfl rfl rfl rfl

theorem Remembered.acceptNext (h : s.Remembered) (hp : s.pc = .accepting) (r : AcceptResult) :
    (s.acceptNext r).Remembered := by
  refine .of_allNoted ?_ ((h.allNoted (by simp [hp, CellsPc.Ahead])).imp_right ?_)
  · intro site c
    cases hn : (acceptOne s.array r).next <;> simp [Cells.acceptNext, hn]
  · intro hne k hk
    have hk' : k < (acceptOne s.array r).array.nfds := hk
    show (acceptOne s.array r).array.fd k ≠ -1
    rcases acceptOne_cases s.array r with ha | ⟨newSd, keepalive, -, -, ha⟩
    · rw [ha] at hk' ⊢
      exact hne k hk'
    · rw [ha, PollArray.push_nfds] at hk'
      rw [ha, PollArray.push_fd]
      by_cases hkn : k = s.array.nfds
      · rw [hkn, Function.update_self]
        omega
      · rw [Function.update_of_ne hkn]
        exact hne k (by omega)

/-! ## The steps of the workers -/

/-- A step behind which there is a note. -/
theorem Remembered.of_noted (h : s.Remembered) (hpc : s'.pc = s.pc)
    (hnfds : s'.array.nfds = s.array.nfds) (hnoted : s'.Noted) : s'.Remembered where
  within site c hc := by
    rw [hnfds]
    exact h.within site c (hpc ▸ hc)
  ahead := Or.inl hnoted

variable [DecidableEq W]

/-- A note stays when another worker moves. -/
theorem Noted.update (h : s.Noted) {w : W} {p : CellsWorker} (hw : s.worker w ≠ .freed)
    (hflag : s'.compressArray = s.compressArray)
    (hworker : s'.worker = Function.update s.worker w p) : s'.Noted := by
  rcases h with h | ⟨v, hv⟩
  · exact Or.inl (hflag.trans h)
  · refine Or.inr ⟨v, ?_⟩
    have hvw : v ≠ w := fun hvw => hw (hvw ▸ hv)
    rw [hworker, Function.update_of_ne hvw]
    exact hv

/-- A step of a worker that frees no cell. -/
theorem Remembered.of_worker (h : s.Remembered) {w : W} {p : CellsWorker}
    (hw : s.worker w ≠ .freed) (hpc : s'.pc = s.pc) (hflag : s'.compressArray = s.compressArray)
    (hnfds : s'.array.nfds = s.array.nfds)
    (hfd : ∀ k, s'.array.fd k = -1 → s.array.fd k = -1)
    (hworker : s'.worker = Function.update s.worker w p) : s'.Remembered where
  within site c hc := by
    rw [hnfds]
    exact h.within site c (hpc ▸ hc)
  ahead := by
    rcases h.ahead with hnoted | hahead
    · exact Or.inl (hnoted.update hw hflag hworker)
    · refine Or.inr ?_
      intro k hk hk1
      rw [hpc]
      exact hahead k (hnfds ▸ hk) (hfd k hk1)

theorem Remembered.next (h : s.Remembered) {e : CellsEvent W} (hr : s.RecvFails e)
    (he : s.Enabled e) : (s.next listenSd e).Remembered := by
  cases e with
  | poll revents =>
      have hp : s.pc = .polling := he
      exact h.of_move (by simp [hp, CellsPc.Ahead]) (by simp [Cells.next]) rfl rfl rfl rfl
  | pollFails =>
      have hp : s.pc = .polling := he
      exact h.of_move (by simp [hp, CellsPc.Ahead]) (by simp [Cells.next]) rfl rfl rfl rfl
  | accept r => exact h.acceptNext he r
  | main => exact h.mainNext
  | dequeue w => exact h.of_worker (by simp [he.2.1]) rfl rfl rfl (fun _ hk => hk) rfl
  | begin w => exact h.of_worker (by simp [he.2]) rfl rfl rfl (fun _ hk => hk) rfl
  | readOldFd w => exact h.of_worker (by simp [he.2]) rfl rfl rfl (fun _ hk => hk) rfl
  | readFd w oldFd => exact h.of_worker (by simp [he.2]) rfl rfl rfl (fun _ hk => hk) rfl
  | leave w => exact h.of_worker (by simp [he.2]) rfl rfl rfl (fun _ hk => hk) rfl
  | setFlag w => exact h.of_noted rfl rfl (Or.inl rfl)
  | writeBack w info closeConn =>
      cases closeConn with
      | true => exact h.of_noted rfl rfl (Or.inr ⟨w, Function.update_self ..⟩)
      | false =>
          -- with nothing closed, what is written back is a descriptor
          have hnonneg : ¬ info.fd < 0 := fun hneg => absurd (hr hneg) (by decide)
          refine h.of_worker (by simp [he.2]) rfl rfl rfl ?_ rfl
          intro k hk
          have hk' : Function.update s.array.fd info.oldFd info.fd k = -1 := hk
          by_cases hki : k = info.oldFd
          · rw [hki, Function.update_self] at hk'
            omega
          · rwa [Function.update_of_ne hki] at hk'

theorem remembered_of_reach (h : (cellsMachine W listenSd).Reach RecvFails s) : s.Remembered := by
  refine h.invariant (I := Remembered) ?_ ?_
  · refine .of_allNoted (by simp [cellsMachine, init]) (Or.inr ?_)
    intro k hk
    have hk0 : k = 0 := Nat.lt_one_iff.1 hk
    have hfd : (init W listenSd).array.fd k = (listenSd : Int) := by
      simp [init, PollArray.init, hk0]
    show (init W listenSd).array.fd k ≠ -1
    rw [hfd]
    omega
  · intro s e s' _ hr hI hstep
    obtain ⟨he, rfl⟩ := cellsMachine_step_iff.1 hstep
    exact hI.next hr he

/-- **Freed cells are not forgotten.**  Whenever main is at its call of `poll`
and a cell below `nfds` holds -1, the flag is set or a worker is about to set
it. -/
theorem noted_of_freed (h : (cellsMachine W listenSd).Reach RecvFails s)
    (hpc : s.pc = .polling) {k : ℕ} (hk : k < s.array.nfds) (hfd : s.array.fd k = -1) :
    s.compressArray = true ∨ ∃ w, s.worker w = .freed :=
  ((remembered_of_reach h).allNoted (by simp [hpc, CellsPc.Ahead])).resolve_right
    fun hne => hne k hk hfd

/-- A worker serves the only client and frees its cell, with main at `poll`. -/
def freesAtPoll : List (CellsEvent Bool) :=
  [.poll fun i => if i = 0 then POLLIN else 0, .main, .main, .main,
    .accept (.accepted 5 true true), .accept (.failed true), .main,
    .poll fun i => if i = 0 then 0 else POLLIN, .main, .main, .main, .main, .main, .main, .main,
    .main, .main, .dequeue true, .begin true, .readOldFd true, .readFd true 1,
    .writeBack true ⟨1, 5⟩ true]

theorem noted_of_freesAtPoll : ∃ s : Cells Bool,
    (cellsMachine Bool 3).Reach RecvFails s ∧ s.compressArray = false ∧
      (s.pc = .polling ∧ 1 < s.array.nfds ∧ s.array.fd 1 = -1) ∧
      (s.compressArray = true ∨ ∃ w, s.worker w = .freed) := by
  have hrun : ∃ s : Cells Bool, (cellsMachine Bool 3).Reach RecvFails s ∧
      s.compressArray = false ∧ s.pc = .polling ∧ 1 < s.array.nfds ∧ s.array.fd 1 = -1 :=
    Machine.exists_reach_of_tryRun freesAtPoll (by decide +kernel)
  obtain ⟨s, hs, hflag, hpc, hlt, hfd⟩ := hrun
  exact ⟨s, hs, hflag, ⟨hpc, hlt, hfd⟩, noted_of_freed hs hpc hlt hfd⟩

end Cells

end PotHub.Server
