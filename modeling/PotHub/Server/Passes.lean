import PotHub.Server.EventDispatch
import PotHub.Server.System

/-!
# An iteration, step by step

The main loop is modelled twice, as a function from the return of `poll` to the
loop condition and as steps of the machine.  Here the steps of the main thread,
with no step of a worker between them, are shown to do what the function says.
-/

namespace PotHub.Server

open PotHub.Lib Wakeup

variable {W : Type}

/-- The steps of the main thread. -/
def Event.OfMain : Event W → Prop
  | .dequeue .. | .begin .. | .readOldFd .. | .readFd .. | .finish .. | .leave _ => False
  | _ => True

namespace State

/-- From `s` to `s'` the main thread has done what the iteration `r` does, and
is back at the loop condition. -/
structure Completes (s s' : State W) (r : Pass) : Prop where
  array : s'.array = r.array
  dispatched : s'.dispatched = s.dispatched ++ r.tasks
  closed : ∀ v ∈ r.closed, s'.opened v = false
  endServer : s'.endServer = (s.endServer || r.endServer)
  pc : s'.pc = loopEnd s'.endServer

variable [DecidableEq W] {d : Delivery} {listenSd : ℕ}

theorem path_head {s s' : State W} (e : Event W) (he : s.Enabled listenSd e) (hmain : e.OfMain)
    (h : (machine W d listenSd).Path Event.OfMain (s.next d e) s') :
    (machine W d listenSd).Path Event.OfMain s s' :=
  .head hmain (machine_step_iff.2 ⟨he, rfl⟩) h

variable (listenSd) in
/-- The accept loop over sockets that can all be set up. -/
theorem exists_path_of_acceptLoop {sds : List ℕ} (hnodup : sds.Nodup) {s : State W}
    (hpc : s.pc = .accepting) (hfresh : ∀ sd ∈ sds, s.opened sd = false) :
    ∃ s', (machine W d listenSd).Path Event.OfMain s s' ∧
      s'.array = (acceptLoop (sds.map (.accepted · true true)) s.array).array ∧
      s'.pc = .scanning ∧ s'.i = s.i + 1 ∧ s'.pollErr = s.pollErr ∧
      s'.currentSize = s.currentSize ∧ s'.queue = s.queue ∧ s'.dispatched = s.dispatched ∧
      s'.endServer =
        (s.endServer || (acceptLoop (sds.map (.accepted · true true)) s.array).endServer) := by
  induction sds generalizing s with
  | nil =>
      refine ⟨s.next d (.accept (.failed true)),
        path_head (.accept (.failed true)) ⟨hpc, trivial⟩ trivial (.refl _), ?_⟩
      simp [State.next, acceptLoop, acceptOne]
  | cons sd sds ih =>
      have he : s.Enabled listenSd (.accept (.accepted sd true true)) :=
        ⟨hpc, hfresh sd List.mem_cons_self, by simp⟩
      rw [List.map_cons, acceptLoop]
      by_cases hfull : s.array.nfds = MAX_CONNECTIONS
      · refine ⟨_, path_head _ he trivial (.refl _), ?_⟩
        simp [State.next, acceptOne_full hfull]
      · obtain ⟨hsd, hnodup⟩ := List.nodup_cons.1 hnodup
        have hfresh' : ∀ sd' ∈ sds,
            (s.next d (.accept (.accepted sd true true))).opened sd' = false := by
          intro sd' hsd'
          have hne : (sd' : Int) ≠ sd := fun h => hsd (Int.ofNat_inj.1 h ▸ hsd')
          simp [State.next, acceptOne_accepted hfull, acceptOpened, hne,
            hfresh sd' (List.mem_cons_of_mem _ hsd')]
        obtain ⟨s', hpath, h⟩ := ih hnodup (s := s.next d (.accept (.accepted sd true true)))
          (by simp [State.next, acceptOne_accepted hfull]) hfresh'
        refine ⟨s', path_head _ he trivial hpath, ?_⟩
        simpa [State.next, acceptOne_accepted hfull] using h

/-- The scan behind the listening socket.  What is closed stays closed. -/
theorem exists_path_of_scan {w : Wakeup listenSd} {cs : ℕ} (a : PollArray) (pollErr i : ℕ)
    (hi : 1 ≤ i) (hahead : w.Ahead a cs i) {s : State W} (hpc : s.pc = .scanning)
    (harray : s.array = a) (herr : s.pollErr = pollErr) (hidx : s.i = i) (hcs : s.currentSize = cs)
    (hroom : s.queue.length + (scan listenSd w.answers cs a pollErr i).tasks.length ≤
      MAX_TASK_NUM) :
    ∃ s', (machine W d listenSd).Path Event.OfMain s s' ∧
      s.Completes s' (scan listenSd w.answers cs a pollErr i) ∧
      ∀ v, s.opened v = false → s'.opened v = false := by
  fun_induction scan listenSd w.answers cs a pollErr i generalizing s with
  | case1 a pollErr i hlt hv ih =>
      subst harray herr hidx hcs
      obtain ⟨s', hpath, h, hopen⟩ := ih (by omega) hahead.succ (s := s.next d .skip) hpc rfl rfl
        rfl rfl hroom
      exact ⟨s', path_head .skip ⟨⟨hpc, hlt⟩, hv⟩ trivial hpath,
        ⟨h.array, h.dispatched, h.closed, h.endServer, h.pc⟩, hopen⟩
  | case2 a pollErr i hlt hv r ih =>
      -- the close is the one step that changes what is open
      subst harray herr hidx hcs
      obtain ⟨s', hpath, h, hopen⟩ := ih (by omega) hahead.hangUp (s := s.next d .hangUp) hpc rfl
        rfl rfl rfl hroom
      refine ⟨s', path_head .hangUp ⟨⟨hpc, hlt⟩, hv⟩ trivial hpath,
        ⟨h.array, h.dispatched, fun v hv => ?_, h.endServer, h.pc⟩, fun v hv => hopen v ?_⟩
      · rcases List.mem_cons.1 hv with rfl | hv
        · exact hopen _ (by simp [State.next])
        · exact h.closed v hv
      · simp only [State.next, Function.update_apply]
        split_ifs
        · rfl
        · exact hv
  | case3 a pollErr i hlt hv =>
      subst harray herr hidx hcs
      refine ⟨_, path_head .unexpected ⟨⟨hpc, hlt⟩, hv⟩ trivial (.refl _), ?_, fun v hv => hv⟩
      exact ⟨rfl, by simp [State.next], by simp, by simp [State.next], rfl⟩
  | case4 a pollErr i hlt hv b hb => exact absurd hv (hahead.ne_listening hi hlt.1)
  | case5 a pollErr i hlt hv b hb r ih => exact absurd hv (hahead.ne_listening hi hlt.1)
  | case6 a pollErr i hlt hv r ih =>
      subst harray herr hidx hcs
      have hlen : s.queue.length + (r.tasks.length + 1) ≤ MAX_TASK_NUM := hroom
      have he : s.Enabled listenSd .dispatch := ⟨⟨hpc, hlt⟩, hv, by omega⟩
      have hroom' : (s.next d .dispatch).queue.length + r.tasks.length ≤ MAX_TASK_NUM := by
        simp only [State.next, List.length_append, List.length_singleton]
        omega
      obtain ⟨s', hpath, h, hopen⟩ := ih (by omega) hahead.setFd (s := s.next d .dispatch) hpc rfl
        rfl rfl rfl hroom'
      refine ⟨s', path_head _ he trivial hpath,
        ⟨h.array, ?_, h.closed, h.endServer, h.pc⟩, hopen⟩
      rw [h.dispatched]
      simp [State.next, readInfo, r]
  | case7 a pollErr i hlt =>
      subst harray herr hidx hcs
      refine ⟨_, path_head .endScan ⟨hpc, hlt⟩ trivial (.refl _), ?_, fun v hv => hv⟩
      exact ⟨rfl, by simp [State.next], by simp, by simp [State.next], rfl⟩

/-- The scan from the front: the batch of `accept` calls, if there is one, and
the scan behind it. -/
theorem exists_path_of_scanned {w : Wakeup listenSd} {c : Bool} {n : Int} {s : State W}
    (hpc : s.pc = .scanning) (harray : s.array = w.scanned c n) (herr : 0 < s.pollErr)
    (hidx : s.i = 0) (hcs : s.currentSize = s.array.nfds) (hnodup : w.pending.Nodup)
    (hfresh : ∀ sd ∈ w.pending, s.opened sd = false)
    (hroom : s.queue.length +
      (scan listenSd w.answers s.array.nfds s.array s.pollErr 0).tasks.length ≤ MAX_TASK_NUM) :
    ∃ s', (machine W d listenSd).Path Event.OfMain s s' ∧
      s.Completes s' (scan listenSd w.answers s.array.nfds s.array s.pollErr 0) := by
  have hahead : w.Ahead (w.accepted c n) (w.scanned c n).nfds 1 := accepted_ahead
  obtain ⟨hpos, hlisten⟩ : 1 ≤ (w.scanned c n).nfds ∧ (w.scanned c n).fd 0 = listenSd :=
    scanned_front
  have hrev : (w.scanned c n).revents = w.array.revents := scanned_revents
  rw [← harray] at hahead hpos hlisten hrev
  have hlt : s.i < s.currentSize ∧ 0 < s.pollErr := ⟨by omega, herr⟩
  rcases w.listen_events with hev | hev
  · have hacc : w.accepted c n = s.array := by
      rw [accepted, if_neg (hev ▸ zero_ne_POLLIN), harray]
    have hv : verdict listenSd s.array 0 = .skip := verdict_skip_iff.2 (hrev ▸ hev)
    rw [scan_skip hpos herr hv] at hroom ⊢
    obtain ⟨s', hpath, h, -⟩ := exists_path_of_scan s.array s.pollErr 1 le_rfl (hacc ▸ hahead)
      (s := s.next d .skip) hpc rfl rfl (by simp [State.next, hidx]) hcs hroom
    exact ⟨s', path_head .skip ⟨⟨hpc, hlt⟩, hidx ▸ hv⟩ trivial hpath,
      ⟨h.array, h.dispatched, h.closed, h.endServer, h.pc⟩⟩
  · have hacc : w.accepted c n = (acceptLoop (w.answers 0) s.array).array := by
      rw [accepted, if_pos hev, harray]
    have hv : verdict listenSd s.array 0 = .listening :=
      verdict_listening_iff.2 ⟨hrev ▸ hev, hlisten⟩
    rw [scan_listening hpos herr hv (acceptLoop_next_of_ok _ _)] at hroom ⊢
    obtain ⟨s₁, hpath₁, harray₁, hpc₁, hidx₁, herr₁, hcs₁, hqueue₁, hdispatched₁, hend₁⟩ :=
      exists_path_of_acceptLoop (d := d) listenSd hnodup (s := s.next d .listening) rfl hfresh
    obtain ⟨s', hpath, h, -⟩ := exists_path_of_scan (acceptLoop (w.answers 0) s.array).array
      (s.pollErr - 1) 1 le_rfl (hacc ▸ hahead) (s := s₁) hpc₁ harray₁ herr₁
      (by rw [hidx₁]; simp [State.next, hidx]) (hcs₁.trans hcs)
      (by rw [hqueue₁]; exact hroom)
    refine ⟨s', path_head .listening ⟨⟨hpc, hlt⟩, hidx ▸ hv⟩ trivial (hpath₁.trans hpath),
      ⟨h.array, ?_, h.closed, ?_, h.pc⟩⟩
    · rw [h.dispatched, hdispatched₁]
      rfl
    · rw [h.endServer, hend₁, Bool.or_assoc]
      rfl

/-- **The machine runs the iteration.**  From the return of `poll`, with new
sockets only and with room in the queue, the main thread has a run of its own
steps to the loop condition, and it does what `Wakeup.pass` computes. -/
theorem exists_path_of_pass {w : Wakeup listenSd} {s : State W} (hpc : s.pc = .polled)
    (harray : s.array = w.array) (herr : s.pollErr = w.array.ready) (hnodup : w.pending.Nodup)
    (hfresh : ∀ sd ∈ w.pending, s.opened sd = false)
    (hroom : s.queue.length + (w.pass s.compressArray s.numThreadsExecuting).tasks.length ≤
      MAX_TASK_NUM) :
    ∃ s', (machine W d listenSd).Path Event.OfMain s s' ∧
      s.Completes s' (w.pass s.compressArray s.numThreadsExecuting) := by
  by_cases h0 : w.array.ready = 0
  · have hpass : w.pass s.compressArray s.numThreadsExecuting =
        { array := w.scanned s.compressArray s.numThreadsExecuting } := if_pos h0
    refine ⟨s.next d .flag, path_head .flag hpc trivial (.refl _), ?_⟩
    rw [hpass]
    refine ⟨by simp [State.next, harray, scanned], by simp [State.next], by simp,
      by simp [State.next], by simp [State.next, herr, h0]⟩
  · have hpass : w.pass s.compressArray s.numThreadsExecuting =
        scan listenSd w.answers (w.scanned s.compressArray s.numThreadsExecuting).nfds
          (w.scanned s.compressArray s.numThreadsExecuting) w.array.ready 0 := if_neg h0
    have hscanned : (s.next d .flag).array = w.scanned s.compressArray s.numThreadsExecuting := by
      simp [State.next, harray, scanned]
    rw [hpass, ← hscanned, ← herr] at hroom ⊢
    rw [← herr] at h0
    obtain ⟨s', hpath, h⟩ := exists_path_of_scanned (d := d) (s := s.next d .flag)
      (by simp [State.next, h0]) hscanned (Nat.pos_of_ne_zero h0) rfl (by simp [State.next, h0])
      hnodup hfresh hroom
    exact ⟨s', path_head .flag hpc trivial hpath,
      ⟨h.array, h.dispatched, h.closed, h.endServer, h.pc⟩⟩

end State

end PotHub.Server
