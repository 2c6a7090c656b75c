import PotHub.Server.Ownership

/-!
# No client shuts the server down

The scan sets `end_server` at an event that is neither input nor a hang-up.
With an uneventful kernel only a polled cell with a closed descriptor has such
an event, and as long as the scan stays in front of `nfds` there is no such
cell.  A scan that goes behind closes a connection through a stale cell and
leaves its descriptor in the array; the next `poll` then ends the server.
-/

namespace PotHub.Server

open PotHub.Lib

namespace State

variable {W : Type}

/-- No polled cell holds a closed descriptor. -/
def PollsOpen (s : State W) : Prop :=
  ∀ i < s.array.nfds, 0 ≤ s.array.fd i → s.opened (s.array.fd i) = true

/-- The steps of a run with an uneventful kernel whose scan stays in front of
`nfds`. -/
def Quiet (s : State W) (e : Event W) : Prop := s.KernelOk e ∧ s.ScanInside e

instance (s : State W) : DecidablePred s.Quiet := fun _ => inferInstanceAs (Decidable (_ ∧ _))

/-- The cells whose `revents` the rest of the iteration looks at. -/
def scope (s : State W) : ℕ :=
  match s.pc with
  | .polled => s.array.nfds
  | .scanning => s.currentSize
  | .accepting => s.currentSize
  | _ => 0

/-- The server runs, and what it still has to look at is input or a hang-up. -/
structure Calm (s : State W) : Prop where
  running : s.pc ≠ .closing ∧ s.pc ≠ .exited
  endServer : s.endServer = false
  expected : ∀ i < s.scope, s.array.revents i = 0 ∨ s.array.revents i = POLLIN ∨
    HungUp (s.array.revents i)

variable [DecidableEq W] {s : State W} {listenSd : ℕ}

omit [DecidableEq W] in
theorem Calm.loopEnd (h : s.Calm) : State.loopEnd s.endServer = .polling := by
  simp [h.endServer, State.loopEnd]

theorem Calm.poll {revents : ℕ → Mask} (h : s.Calm) (howned : s.Owned)
    (he : s.Enabled listenSd (.poll revents)) (hk : s.KernelOk (.poll revents)) :
    (s.next .byValue (.poll revents)).Calm := by
  refine ⟨by simp [State.next], h.endServer, fun i hi => ?_⟩
  have hi : i < s.array.nfds := hi
  simp only [State.next, if_pos hi]
  rcases lt_or_ge (s.array.fd i) 0 with hneg | hpos
  · exact Or.inl ((he.2 i hi).1 hneg)
  · exact hk i hi (howned.live (by simp [he.1]) (.cell i) _ hpos
      (fdAt_cell_eq_some.2 ⟨hi, rfl⟩))

theorem Calm.flag (h : s.Calm) (hpc : s.pc = .polled) : (s.next .byValue .flag).Calm := by
  have hloop := h.loopEnd
  by_cases hp : s.pollErr = 0
  · refine ⟨by simp [State.next, hp, hloop], h.endServer, fun i hi => ?_⟩
    simp [State.next, scope, hp, hloop] at hi
  · have hrev : (s.next .byValue .flag).array.revents = s.array.revents := by
      simp only [State.next, compactIf]
      split_ifs <;> rfl
    have hle : (s.next .byValue .flag).scope ≤ s.scope := by
      simp only [State.next, scope, hp, hpc, if_false, compactIf]
      split_ifs
      · exact s.array.compact_nfds_le
      · exact le_rfl
    refine ⟨by simp [State.next, hp], h.endServer, fun i hi => ?_⟩
    rw [hrev]
    exact h.expected i (lt_of_lt_of_le hi hle)

omit [DecidableEq W] in
/-- What is to be looked at is expected, so the scan does not stop. -/
theorem Calm.not_unexpected (h : s.Calm) : ¬ s.Enabled listenSd .unexpected := by
  rintro ⟨⟨hpc, hi, -⟩, hv⟩
  have hexp := h.expected s.i (by simpa [scope, hpc] using hi)
  obtain ⟨h0, h1, h2⟩ := verdict_unexpected_iff.1 hv
  rcases hexp with hx | hx | hx
  · exact h0 hx
  · exact h1 hx
  · exact h2 hx

theorem Calm.accept {r : AcceptResult} (h : s.Calm) (hpc : s.pc = .accepting)
    (hk : s.KernelOk (.accept r)) : (s.next .byValue (.accept r)).Calm := by
  obtain ⟨hrev, hend, hexit⟩ : (acceptOne s.array r).array.revents = s.array.revents ∧
      (acceptOne s.array r).endServer = false ∧ (acceptOne s.array r).next ≠ .exit := by
    rcases r with wouldBlock | ⟨newSd, keepalive, nonblock⟩
    · obtain rfl : wouldBlock = true := hk
      exact ⟨rfl, rfl, by simp [acceptOne]⟩
    · obtain ⟨rfl, rfl⟩ : keepalive = true ∧ nonblock = true := hk
      by_cases hfull : s.array.nfds = MAX_CONNECTIONS
      · simp [acceptOne_full hfull]
      · simp [acceptOne_accepted hfull]
  refine ⟨?_, ?_, fun i hi => ?_⟩
  · cases hn : (acceptOne s.array r).next <;> simp_all [State.next]
  · simp [State.next, h.endServer, hend]
  · have hi : i < s.scope := by
      cases hn : (acceptOne s.array r).next <;> simp_all [State.next, scope]
    exact hrev ▸ h.expected i hi

omit [DecidableEq W] in
/-- The workers leave the main thread where it is, and write no events. -/
theorem Calm.of_worker {s' : State W} (h : s.Calm) (hpc : s'.pc = s.pc)
    (hend : s'.endServer = s.endServer) (hrev : s'.array.revents = s.array.revents)
    (hn : s'.array.nfds = s.array.nfds) (hsize : s'.currentSize = s.currentSize) : s'.Calm := by
  refine ⟨hpc ▸ h.running, hend.trans h.endServer, ?_⟩
  rw [hrev, show s'.scope = s.scope by simp [scope, hpc, hn, hsize]]
  exact h.expected

theorem Calm.next {e : Event W} (h : s.Calm) (howned : s.Owned) (he : s.Enabled listenSd e)
    (hk : s.KernelOk e) : (s.next .byValue e).Calm := by
  have hloop := h.loopEnd
  cases e with
  | poll revents => exact h.poll howned he hk
  | pollFails => exact absurd hk id
  | flag => exact h.flag he
  | endScan =>
      refine ⟨by simp [State.next, hloop], h.endServer, fun i hi => ?_⟩
      simp [State.next, scope, hloop] at hi
  | skip => exact ⟨h.running, h.endServer, h.expected⟩
  | hangUp =>
      refine ⟨h.running, h.endServer, fun i hi => h.expected i ?_⟩
      have hi : i < s.currentSize := by simpa [State.next, scope, he.1.1] using hi
      simpa [scope, he.1.1] using hi
  -- the only event that sets `end_server` in such a kernel
  | unexpected => exact absurd he h.not_unexpected
  | listening =>
      refine ⟨by simp [State.next], h.endServer, fun i hi => h.expected i ?_⟩
      have hi : i < s.currentSize := hi
      simpa [scope, he.1.1] using hi
  | dispatch =>
      refine ⟨h.running, h.endServer, fun i hi => h.expected i ?_⟩
      have hi : i < s.currentSize := by simpa [State.next, scope, he.1.1] using hi
      simpa [scope, he.1.1] using hi
  | accept r => exact h.accept he.1 hk
  | shutDown => exact absurd he h.running.1
  | dequeue w t => exact h.of_worker rfl rfl rfl rfl rfl
  | begin w t => exact h.of_worker rfl rfl rfl rfl rfl
  | readOldFd w t => exact h.of_worker rfl rfl rfl rfl rfl
  | readFd w t oldFd => exact h.of_worker rfl rfl rfl rfl rfl
  | finish w id info closeConn => exact h.of_worker rfl rfl rfl rfl rfl
  | leave w => exact h.of_worker rfl rfl rfl rfl rfl

omit [DecidableEq W] in
theorem calm_init : (State.init W listenSd).Calm :=
  ⟨by simp [init], rfl, fun i hi => absurd hi (Nat.not_lt_zero i)⟩

theorem calm_of_reach (h : (machine W .byValue listenSd).Reach Quiet s) : s.Calm := by
  refine h.invariant calm_init ?_
  intro s e s' hr hg hI hstep
  obtain ⟨he, rfl⟩ := machine_step_iff.1 hstep
  exact hI.next (owned_of_reach (hr.mono fun _ _ hq => hq.2)) he hg.1

/-- **No client shuts the server down.**  With an uneventful kernel and the
`PollInfo` delivered by value, in every run in which the scan stays in front of
`nfds`, `end_server` stays false and no polled cell holds a closed
descriptor. -/
theorem survives_of_quiet (h : (machine W .byValue listenSd).Reach Quiet s) :
    s.endServer = false ∧ s.PollsOpen := by
  have hcalm := calm_of_reach h
  have howned := owned_of_reach (h.mono fun _ _ hq => hq.2)
  exact ⟨hcalm.endServer, fun i hi hpos =>
    howned.live hcalm.running.2 (.cell i) _ hpos (fdAt_cell_eq_some.2 ⟨hi, rfl⟩)⟩

/-- A client hangs up, and the server polls again. -/
def oneHangsUp : List (Event Unit) :=
  [reports [0, 0, POLLHUP], .flag, .skip, .skip, .hangUp, .endScan, reports [0, POLLIN], .flag]

theorem survives_oneHangsUp : ∃ s, (machine Unit .byValue 3).Reach Quiet s ∧
    s.opened 5 = false ∧ s.endServer = false ∧ s.PollsOpen := by
  have hrun : ∃ s, (machine Unit .byValue 3).Reach Quiet s ∧ s.opened 5 = false :=
    Machine.exists_reach_of_tryRun (twoConnect ++ oneHangsUp) (by decide +kernel)
  obtain ⟨s, hs, h5⟩ := hrun
  exact ⟨s, hs, h5, survives_of_quiet hs⟩

/-- Both clients hang up: the second one is closed through its stale cell, and
polled again. -/
def bothHangUp : List (Event Unit) :=
  twoConnect ++ [reports [0, POLLHUP, POLLHUP], .flag, .skip, .hangUp, .hangUp, .endScan,
    reports [0, POLLNVAL], .flag, .skip, .unexpected]

theorem not_survives_of_bothHangUp : ∃ s, (machine Unit .byValue 3).Reach KernelOk s ∧
    s.endServer = true ∧ ¬ s.PollsOpen := by
  have hrun : ∃ s, (machine Unit .byValue 3).Reach KernelOk s ∧ s.endServer = true ∧
      1 < s.array.nfds ∧ s.array.fd 1 = 5 ∧ s.opened 5 = false :=
    Machine.exists_reach_of_tryRun bothHangUp (by decide +kernel)
  obtain ⟨s, hs, hend, hn, hfd, h5⟩ := hrun
  refine ⟨s, hs, hend, fun hpolls => ?_⟩
  have := hpolls 1 hn (by omega)
  rw [hfd, h5] at this
  exact absurd this (by simp)

end State

end PotHub.Server
