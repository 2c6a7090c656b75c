import PotHub.Server.Tasks

/-!
# Who holds a descriptor

A descriptor is held by a polled cell, by a queued task, or by a worker with a
task that it has not written back.  With the `PollInfo` delivered by value, this
file shows that every open descriptor has at most one holder and that every
holder's descriptor is open, in every run in which the scan leaves the cells
behind `nfds` alone; and that in such a run no client can shut the server down.

The scan does go behind `nfds`: a compaction at a hang-up lowers `nfds` below
the bound of the scan, and the cells left behind keep copies of a descriptor
that is still polled.
-/

namespace PotHub.Server

open PotHub.Lib

variable {W : Type}

/-- The place whose holder is here, once the array has been squeezed. -/
def Place.squeezed (src : ℕ → ℕ) : Place W → Place W
  | .cell j => .cell (src j)
  | .queued k => .queued k
  | .worker w => .worker w

/-- The place whose holder is here, once a worker has written back. -/
def Place.writtenBack (w : W) (oldFd : ℕ) : Place W → Place W
  | .cell j => if j = oldFd then .worker w else .cell j
  | .queued k => .queued k
  | .worker v => .worker v

namespace State

/-- The descriptor held at a place. -/
def fdAt (s : State W) : Place W → Option Int
  | .cell i => if i < s.array.nfds then some (s.array.fd i) else none
  | .queued k => (s.taskAt (.queued k)).map fun x => x.2.fd
  | .worker w => (s.taskAt (.worker w)).map fun x => x.2.fd

theorem fdAt_cell_eq_some {s : State W} {i : ℕ} {fd : Int} :
    s.fdAt (.cell i) = some fd ↔ i < s.array.nfds ∧ s.array.fd i = fd := by
  simp [fdAt]

theorem fdAt_eq_taskAt {s : State W} {p : Place W} (hp : p.Outstanding) :
    s.fdAt p = (s.taskAt p).map fun x => x.2.fd := by
  match p with
  | .queued k => rfl
  | .worker w => rfl

/-- Each open client descriptor is held at most once among the polled cells and
the outstanding tasks. -/
def Exclusive (s : State W) (listenSd : ℕ) : Prop :=
  ∀ fd, s.opened fd = true → fd ≠ listenSd → HeldOnce s.fdAt fd

/-- No two outstanding tasks carry the same descriptor. -/
def TasksApart (s : State W) : Prop :=
  ∀ p q fd, 0 ≤ fd → p.Outstanding → q.Outstanding → s.fdAt p = some fd → s.fdAt q = some fd →
    p = q

/-- The scan goes behind `nfds` for nothing but a descriptor that is closed, if
it closes, or negative, if it dispatches. -/
def ScanInside (s : State W) : Event W → Prop
  | .hangUp => s.i < s.array.nfds ∨ s.opened (s.array.fd s.i) = false
  | .dispatch => s.i < s.array.nfds ∨ s.array.fd s.i < 0
  | _ => True

instance (s : State W) : DecidablePred s.ScanInside
  | .hangUp => inferInstanceAs (Decidable (_ ∨ _))
  | .dispatch => inferInstanceAs (Decidable (_ ∨ _))
  | .poll _ | .pollFails | .flag | .endScan | .skip | .unexpected | .listening | .accept _
  | .shutDown | .dequeue .. | .begin .. | .readOldFd .. | .readFd .. | .finish .. | .leave _ =>
      isTrue trivial

variable [DecidableEq W]

/-! ## The invariant -/

/-- Every descriptor has at most one holder, and a holder's descriptor is
open. -/
structure Owned (s : State W) : Prop where
  once : ∀ fd, 0 ≤ fd → HeldOnce s.fdAt fd
  live : s.pc ≠ .exited → ∀ p fd, 0 ≤ fd → s.fdAt p = some fd → s.opened fd = true
  nonneg : ∀ fd, s.opened fd = true → 0 ≤ fd
  gone : s.pc = .exited → ∀ fd, s.opened fd = false

variable {s : State W} {listenSd : ℕ}

omit [DecidableEq W] in
/-- A step carries the invariant along when every holder after it comes from a
holder in front of it, no two from the same one. -/
theorem Owned.of_map {s' : State W} (h : s.Owned) (hpc : s.pc ≠ .exited) (hpc' : s'.pc ≠ .exited)
    (f : Place W → Place W)
    (hf : ∀ p fd, 0 ≤ fd → s'.fdAt p = some fd → s.fdAt (f p) = some fd)
    (hinj : ∀ p q fd, 0 ≤ fd → s'.fdAt p = some fd → s'.fdAt q = some fd → f p = f q → p = q)
    (hopen : ∀ fd, s'.opened fd = true → s.opened fd = true)
    (hlive : ∀ p fd, 0 ≤ fd → s'.fdAt p = some fd → s.opened fd = true → s'.opened fd = true) :
    s'.Owned where
  once fd hfd := (h.once fd hfd).of_map f (fun p => hf p fd hfd) fun p q => hinj p q fd hfd
  live _ p fd hfd hp := hlive p fd hfd hp (h.live hpc _ fd hfd (hf p fd hfd hp))
  nonneg fd hfd := h.nonneg fd (hopen fd hfd)
  gone hx := absurd hx hpc'

/-- A descriptor in an outstanding task behind a step was in it in front of the
step, unless the step is its dispatch. -/
theorem fdAt_next (hc : s.Copied) {e : Event W} (he : s.Enabled listenSd e) {p : Place W}
    (hp : p.Outstanding) {fd : Int} (h : (s.next .byValue e).fdAt p = some fd) :
    (s.fdAt (e.origin p) = some fd ∧ (e.origin p).Outstanding) ∨
      (e = .dispatch ∧ p = .queued s.queue.length ∧ fd = s.array.fd s.i) := by
  rw [fdAt_eq_taskAt hp, Option.map_eq_some_iff] at h
  obtain ⟨x, hx, rfl⟩ := h
  rcases taskAt_next hc he hx with hx | ⟨he, hp, rfl⟩
  · have hout : (e.origin p).Outstanding := by
      cases ho : e.origin p with
      | cell i => simp [ho, taskAt, heldAt] at hx
      | queued k => trivial
      | worker w => trivial
    exact Or.inl ⟨by rw [fdAt_eq_taskAt hout, hx, Option.map_some], hout⟩
  · exact Or.inr ⟨he, hp, rfl⟩

/-- A step that leaves the cells and the open descriptors as they are. -/
theorem Owned.of_same_cells (h : s.Owned) (hc : s.Copied) {e : Event W}
    (he : s.Enabled listenSd e) (hpc : s.pc ≠ .exited) (hpc' : (s.next .byValue e).pc ≠ .exited)
    (hne : e ≠ .dispatch)
    (hcells : ∀ i, (s.next .byValue e).fdAt (.cell i) = s.fdAt (.cell i))
    (hopen : (s.next .byValue e).opened = s.opened) : (s.next .byValue e).Owned := by
  refine h.of_map hpc hpc' e.origin (fun p fd _ hp => ?_)
    (fun p q _ _ _ _ hpq => e.origin_injective hpq) (fun _ => by simp [hopen])
    (fun _ _ _ _ => by simp [hopen])
  by_cases hout : p.Outstanding
  · exact ((fdAt_next hc he hout hp).resolve_right fun hd => hne hd.1).1
  · obtain ⟨i, rfl⟩ := Place.eq_cell_of_not_outstanding hout
    rw [Event.origin_cell, ← hcells, hp]

omit [DecidableEq W] in
/-- A compaction, in front of which the cell `i` may have been given up. -/
theorem Owned.of_squeeze {s' : State W} (h : s.Owned) (hpc : s.pc ≠ .exited)
    (hpc' : s'.pc ≠ .exited) {a : ℕ → Int} {src : ℕ → ℕ}
    (hsq : Squeeze Unused a s.array.nfds s'.array.fd s'.array.nfds src)
    (ha : ∀ k, ¬ Unused (a k) → a k = s.array.fd k)
    (hqueued : ∀ k, s'.fdAt (.queued k) = s.fdAt (.queued k))
    (hworker : ∀ w, s'.fdAt (.worker w) = s.fdAt (.worker w))
    (hopen : ∀ fd, s'.opened fd = true → s.opened fd = true)
    (hlive : ∀ p fd, 0 ≤ fd → s'.fdAt p = some fd → s.opened fd = true → s'.opened fd = true) :
    s'.Owned := by
  have hcell : ∀ j fd, s'.fdAt (.cell j) = some fd →
      j < s'.array.nfds ∧ s.fdAt (.cell (src j)) = some fd := by
    intro j fd hj
    obtain ⟨hlt, rfl⟩ := fdAt_cell_eq_some.1 hj
    refine ⟨hlt, fdAt_cell_eq_some.2 ⟨hsq.src_lt j hlt, ?_⟩⟩
    rw [hsq.apply_eq j hlt, ha _ (hsq.kept j hlt)]
  refine h.of_map hpc hpc' (Place.squeezed src) ?_ ?_ hopen hlive
  · rintro (j | k | w) fd - hp
    · exact (hcell j fd hp).2
    · exact (hqueued k).symm.trans hp
    · exact (hworker w).symm.trans hp
  · rintro (j | k | w) (j' | k' | w') fd - hp hq heq <;>
      simp only [Place.squeezed, reduceCtorEq] at heq
    · rw [hsq.src_inj (hcell j fd hp).1 (hcell j' fd hq).1 (Place.cell.inj heq)]
    · exact heq
    · exact heq

theorem Owned.flag (h : s.Owned) (hc : s.Copied) (he : s.Enabled listenSd .flag) :
    (s.next .byValue .flag).Owned := by
  have hpc : s.pc ≠ .exited := by simp [show s.pc = .polled from he]
  have hpc' : (s.next .byValue .flag).pc ≠ .exited := by
    simp only [State.next, loopEnd]
    split_ifs <;> simp
  by_cases hp : compressing s.compressArray s.numThreadsExecuting
  · obtain ⟨src, hsq⟩ := s.array.compact_squeeze
    have harr : (s.next .byValue .flag).array = s.array.compact := by
      simp [State.next, compactIf, hp]
    exact h.of_squeeze hpc hpc' (by rw [harr]; exact hsq) (fun _ _ => rfl) (fun _ => rfl)
      (fun _ => rfl) (fun _ h => h) (fun _ _ _ _ h => h)
  · have harr : (s.next .byValue .flag).array = s.array := by
      simp [State.next, compactIf, hp]
    exact h.of_same_cells hc he hpc hpc' (by simp) (fun i => by simp only [fdAt, harr]) rfl

theorem Owned.hangUp (h : s.Owned) (he : s.Enabled listenSd .hangUp)
    (hg : s.i < s.array.nfds ∨ s.opened (s.array.fd s.i) = false) :
    (s.next .byValue .hangUp).Owned := by
  have hpc : s.pc ≠ .exited := by simp [he.1.1]
  obtain ⟨src, hsq⟩ := (s.array.setFd s.i (-1)).compact_squeeze
  have ha : ∀ k, ¬ Unused ((s.array.setFd s.i (-1)).fd k) →
      (s.array.setFd s.i (-1)).fd k = s.array.fd k ∧ k ≠ s.i := by
    intro k hk
    by_cases hki : k = s.i
    · exact absurd (by simp [hki, Unused]) hk
    · exact ⟨by simp [hki], hki⟩
  refine h.of_squeeze hpc hpc hsq (fun k hk => (ha k hk).1) (fun _ => rfl) (fun _ => rfl) ?_ ?_
  · intro fd hfd
    by_cases hfi : fd = s.array.fd s.i
    · simp [State.next, hfi] at hfd
    · simpa [State.next, hfi] using hfd
  · intro p fd hfd0 hp hfd
    -- the descriptor that was closed has lost its holder, or had none
    have hne : fd ≠ s.array.fd s.i := by
      rintro rfl
      rcases hg with hlt | hclosed
      · have hi : s.fdAt (.cell s.i) = some (s.array.fd s.i) := fdAt_cell_eq_some.2 ⟨hlt, rfl⟩
        cases p with
        | cell j =>
            obtain ⟨hj, hjfd⟩ := fdAt_cell_eq_some.1 hp
            have hkept := ha _ (hsq.kept j hj)
            have hsrc : s.fdAt (.cell (src j)) = some (s.array.fd s.i) := by
              refine fdAt_cell_eq_some.2 ⟨hsq.src_lt j hj, ?_⟩
              rw [← hkept.1, ← hsq.apply_eq j hj]
              exact hjfd
            exact hkept.2 (Place.cell.inj (h.once _ hfd0 _ _ hsrc hi))
        | queued k => exact absurd (h.once _ hfd0 (.queued k) _ hp hi) (by simp)
        | worker w => exact absurd (h.once _ hfd0 (.worker w) _ hp hi) (by simp)
      · rw [hclosed] at hfd
        exact absurd hfd (by simp)
    simpa [State.next, hne] using hfd

theorem Owned.dispatch (h : s.Owned) (hc : s.Copied) (he : s.Enabled listenSd .dispatch)
    (hg : s.i < s.array.nfds ∨ s.array.fd s.i < 0) : (s.next .byValue .dispatch).Owned := by
  have hpc : s.pc ≠ .exited := by simp [he.1.1]
  have hcell : ∀ j fd, 0 ≤ fd → (s.next .byValue .dispatch).fdAt (.cell j) = some fd →
      j ≠ s.i ∧ s.fdAt (.cell j) = some fd := by
    intro j fd hfd hj
    obtain ⟨hlt, hjfd⟩ := fdAt_cell_eq_some.1 hj
    by_cases hji : j = s.i
    · subst hji
      simp only [State.next, PollArray.setFd_fd, Function.update_self] at hjfd
      rw [← hjfd] at hfd
      exact absurd hfd (by decide)
    · simp only [State.next, PollArray.setFd_fd, Function.update_of_ne hji] at hjfd
      exact ⟨hji, fdAt_cell_eq_some.2 ⟨hlt, hjfd⟩⟩
  have htask : ∀ p fd, 0 ≤ fd → p.Outstanding → (s.next .byValue .dispatch).fdAt p = some fd →
      (s.fdAt p = some fd ∧ p ≠ .queued s.queue.length) ∨
        (p = .queued s.queue.length ∧ s.fdAt (.cell s.i) = some fd) := by
    intro p fd hfd hout hp
    rcases fdAt_next hc he hout hp with ⟨hp, -⟩ | ⟨-, rfl, rfl⟩
    · refine Or.inl ⟨hp, ?_⟩
      rintro rfl
      simp [Event.origin, fdAt, taskAt, heldAt] at hp
    · exact Or.inr ⟨rfl, fdAt_cell_eq_some.2 ⟨hg.resolve_right (by omega), rfl⟩⟩
  refine h.of_map hpc hpc
    (fun p => if p = .queued s.queue.length then .cell s.i else p) ?_ ?_ (fun _ h => h)
    (fun _ _ _ _ h => h)
  · intro p fd hfd hp
    by_cases hout : p.Outstanding
    · rcases htask p fd hfd hout hp with ⟨hp, hne⟩ | ⟨rfl, hp⟩
      · rwa [if_neg hne]
      · rwa [if_pos rfl]
    · obtain ⟨j, rfl⟩ := Place.eq_cell_of_not_outstanding hout
      rw [if_neg (by simp)]
      exact (hcell j fd hfd hp).2
  · intro p q fd hfd hp hq heq
    -- no holder but the new task comes from the cell
    have hnot : ∀ r, (s.next .byValue .dispatch).fdAt r = some fd → r ≠ .cell s.i := by
      rintro r hr rfl
      exact (hcell _ fd hfd hr).1 rfl
    split_ifs at heq with hp' hq' hq'
    · rw [hp', hq']
    · exact absurd heq.symm (hnot q hq)
    · exact absurd heq (hnot p hp)
    · exact heq

/-- A new socket is held by the cell it is appended at, and by no other place. -/
theorem Owned.accept_push {newSd : ℕ} (h : s.Owned) (hpc : s.pc ≠ .exited)
    (hnew : s.opened newSd = false) (hroom : s.array.nfds ≠ MAX_CONNECTIONS) :
    (s.next .byValue (.accept (.accepted newSd true true))).Owned := by
  set s' := s.next .byValue (.accept (.accepted newSd true true)) with hs'
  have hpush : s'.array = s.array.push newSd := by simp [hs', next, acceptOne_accepted hroom]
  have hpc' : s'.pc = .accepting := by simp [hs', next, acceptOne_accepted hroom]
  have hopen : s'.opened = Function.update s.opened newSd true := by
    simp [hs', next, acceptOne_accepted hroom, acceptOpened]
  have hold : ∀ p fd, s'.fdAt p = some fd →
      (p = .cell s.array.nfds ∧ fd = newSd) ∨ s.fdAt p = some fd := by
    rintro (j | k | w) fd hp
    · obtain ⟨hlt, hjfd⟩ := fdAt_cell_eq_some.1 hp
      rw [hpush] at hlt hjfd
      by_cases hj : j = s.array.nfds
      · subst hj
        exact Or.inl ⟨rfl, by simpa using hjfd.symm⟩
      · rw [PollArray.push_nfds] at hlt
        rw [PollArray.push_fd, Function.update_of_ne hj] at hjfd
        exact Or.inr (fdAt_cell_eq_some.2 ⟨by omega, hjfd⟩)
    · exact Or.inr hp
    · exact Or.inr hp
  -- nothing holds the new descriptor yet, since what is held is open
  have hfresh : ∀ p, s.fdAt p ≠ some (newSd : Int) := fun p hp => by
    rw [h.live hpc p _ (by omega) hp] at hnew
    exact absurd hnew (by simp)
  refine ⟨fun fd hfd => ?_, fun _ p fd hfd hp => ?_, fun fd hfd => ?_, fun hx => ?_⟩
  · by_cases hfn : fd = newSd
    · subst hfn
      exact .of_unique (.cell s.array.nfds) fun p hp =>
        ((hold p _ hp).resolve_right (hfresh p)).1
    · exact (h.once fd hfd).of_map id
        (fun p hp => (hold p fd hp).resolve_left fun hx => hfn hx.2) fun _ _ _ _ hpq => hpq
  · rw [hopen]
    rcases hold p fd hp with ⟨-, rfl⟩ | hp
    · simp
    · by_cases hfn : fd = newSd
      · simp [hfn]
      · simpa [hfn] using h.live hpc p fd hfd hp
  · rw [hopen] at hfd
    by_cases hfn : fd = newSd
    · omega
    · exact h.nonneg fd (by simpa [hfn] using hfd)
  · rw [hpc'] at hx
    exact absurd hx (by simp)

theorem Owned.accept {r : AcceptResult} (h : s.Owned) (hc : s.Copied)
    (he : s.Enabled listenSd (.accept r)) :
    (s.next .byValue (.accept r)).Owned := by
  have hpc : s.pc ≠ .exited := by simp [he.1]
  have hk := he.2
  match r with
  | .failed wouldBlock =>
      exact h.of_same_cells hc he hpc (by simp [next, acceptOne]) (by simp) (fun _ => rfl)
        (by simp [next, acceptOne, acceptOpened])
  | .accepted newSd keepalive false =>
      refine ⟨fun fd hfd => ?_, ?_, ?_, ?_⟩
      · refine (h.once fd hfd).of_map id (fun p hp => ?_) fun _ _ _ _ hpq => hpq
        rw [← hp]
        cases p <;> rfl
      all_goals simp [next, acceptOne]
  | .accepted newSd keepalive true =>
      obtain ⟨hnew, hkeep⟩ := hk
      -- a socket whose keep-alive cannot be set is closed, and `fcntl` fails on it
      have hkeep : keepalive = true := by
        cases keepalive with
        | true => rfl
        | false => exact absurd (hkeep rfl) (by simp)
      subst hkeep
      by_cases hfull : s.array.nfds = MAX_CONNECTIONS
      · refine h.of_same_cells hc he hpc (by simp [next, acceptOne_full hfull]) (by simp)
          (fun i => by simp [fdAt, next, acceptOne_full hfull]) ?_
        funext fd
        by_cases hfd : fd = newSd <;> simp [next, acceptOpened, acceptOne_full hfull, hfd, hnew]
      · exact h.accept_push hpc hnew hfull

section Finish

variable {w : W} {id : ℕ} {info : PollInfo} {closeConn : Bool}

/-- The worker that finishes has no task any more. -/
theorem fdAt_finish_of_outstanding (hc : s.Copied)
    (he : s.Enabled listenSd (.finish w id info closeConn)) {p : Place W} (hp : p.Outstanding)
    {fd : Int} (h : (s.next .byValue (.finish w id info closeConn)).fdAt p = some fd) :
    p ≠ .worker w ∧ s.fdAt p = some fd := by
  refine ⟨?_, ((fdAt_next hc he hp h).resolve_right (by simp)).1⟩
  rintro rfl
  simp [fdAt, taskAt, heldAt, next, carried] at h

theorem fdAt_finish_cell {j : ℕ} {fd : Int} (hfd : 0 ≤ fd)
    (h : (s.next .byValue (.finish w id info closeConn)).fdAt (.cell j) = some fd) :
    if j = info.oldFd then closeConn = false ∧ fd = info.fd else s.fdAt (.cell j) = some fd := by
  obtain ⟨hlt, hjfd⟩ := fdAt_cell_eq_some.1 h
  split_ifs with hji
  · subst hji
    cases closeConn with
    | true =>
        simp only [next, PollArray.setFd_fd, Function.update_self, if_true] at hjfd
        omega
    | false => exact ⟨rfl, by simpa [next] using hjfd.symm⟩
  · simp only [next, PollArray.setFd_fd, Function.update_of_ne hji] at hjfd
    exact fdAt_cell_eq_some.2 ⟨hlt, hjfd⟩

theorem fdAt_finish (hc : s.Copied) (he : s.Enabled listenSd (.finish w id info closeConn))
    {p : Place W} {fd : Int} (hfd : 0 ≤ fd)
    (h : (s.next .byValue (.finish w id info closeConn)).fdAt p = some fd) :
    s.fdAt (p.writtenBack w info.oldFd) = some fd := by
  cases p with
  | cell j =>
      have hw : s.fdAt (.worker w) = some info.fd := by simp [fdAt, taskAt, heldAt, he.2, carried]
      have hcell := fdAt_finish_cell hfd h
      simp only [Place.writtenBack]
      split_ifs at hcell ⊢ with hj
      · rw [hw, hcell.2]
      · exact hcell
  | queued k => exact (fdAt_finish_of_outstanding (p := .queued k) hc he trivial h).2
  | worker v => exact (fdAt_finish_of_outstanding (p := .worker v) hc he trivial h).2

/-- Only the cell that is written back comes from the worker. -/
theorem writtenBack_inj (hc : s.Copied) (he : s.Enabled listenSd (.finish w id info closeConn))
    {p q : Place W} {fd : Int}
    (hp : (s.next .byValue (.finish w id info closeConn)).fdAt p = some fd)
    (hq : (s.next .byValue (.finish w id info closeConn)).fdAt q = some fd)
    (hpq : p.writtenBack w info.oldFd = q.writtenBack w info.oldFd) : p = q := by
  have hne : ∀ v, (s.next .byValue (.finish w id info closeConn)).fdAt (.worker v) = some fd →
      Place.worker v ≠ .worker w := fun v hv =>
    (fdAt_finish_of_outstanding (p := .worker v) hc he trivial hv).1
  rcases p with j | k | v <;> rcases q with j' | k' | v' <;> dsimp only [Place.writtenBack] at hpq
  · grind
  · split_ifs at hpq
  · split_ifs at hpq
    exact absurd hpq.symm (hne v' hq)
  · split_ifs at hpq
  · exact hpq
  · exact hpq
  · split_ifs at hpq
    exact absurd hpq (hne v hp)
  · exact hpq
  · exact hpq

/-- A worker that closes was the one holder. -/
theorem Owned.ne_of_closing (h : s.Owned) (hc : s.Copied)
    (he : s.Enabled listenSd (.finish w id info true)) {p : Place W} {fd : Int} (hfd : 0 ≤ fd)
    (hp : (s.next .byValue (.finish w id info true)).fdAt p = some fd) : fd ≠ info.fd := by
  rintro rfl
  have hw : s.fdAt (.worker w) = some info.fd := by simp [fdAt, taskAt, heldAt, he.2, carried]
  have hback := h.once _ hfd _ _ (fdAt_finish hc he hfd hp) hw
  cases p with
  | cell j =>
      have hcell := fdAt_finish_cell hfd hp
      split_ifs at hcell with hj
      · simp at hcell
      · simp [Place.writtenBack, hj] at hback
  | queued k => simp [Place.writtenBack] at hback
  | worker v =>
      exact (fdAt_finish_of_outstanding (p := .worker v) hc he trivial hp).1 hback

theorem Owned.finish (h : s.Owned) (hc : s.Copied)
    (he : s.Enabled listenSd (.finish w id info closeConn)) :
    (s.next .byValue (.finish w id info closeConn)).Owned := by
  refine h.of_map he.1 he.1 (Place.writtenBack w info.oldFd)
    (fun p fd hfd hp => fdAt_finish hc he hfd hp)
    (fun p q fd _ hp hq hpq => writtenBack_inj hc he hp hq hpq) ?_ ?_
  · intro fd hfd
    cases closeConn with
    | true =>
        by_cases hfi : fd = info.fd
        · simp [next, hfi] at hfd
        · simpa [next, hfi] using hfd
    | false => exact hfd
  · intro p fd hfd0 hp hfd
    cases closeConn with
    | true => simpa [next, h.ne_of_closing hc he hfd0 hp] using hfd
    | false => exact hfd

end Finish

/-- One step keeps the invariant, whoever takes it. -/
theorem Owned.next {e : Event W} (h : s.Owned) (hc : s.Copied) (he : s.Enabled listenSd e)
    (hg : s.ScanInside e) : (s.next .byValue e).Owned := by
  have hloop : ∀ b, loopEnd b ≠ .exited := by decide
  have hsame := h.of_same_cells hc he
  cases e with
  | poll revents => exact hsame (by simp [he.1]) (by simp [State.next]) (by simp) (fun _ => rfl) rfl
  | pollFails =>
      have hpc : s.pc = .polling := he
      exact hsame (by simp [hpc]) (by simp [State.next]) (by simp) (fun _ => rfl) rfl
  | flag => exact h.flag hc he
  | endScan => exact hsame (by simp [he.1]) (hloop _) (by simp) (fun _ => rfl) rfl
  | skip =>
      exact hsame (by simp [he.1.1]) (by simp [State.next, he.1.1]) (by simp) (fun _ => rfl) rfl
  | hangUp => exact h.hangUp he hg
  | unexpected => exact hsame (by simp [he.1.1]) (by simp [State.next]) (by simp) (fun _ => rfl) rfl
  | listening => exact hsame (by simp [he.1.1]) (by simp [State.next]) (by simp) (fun _ => rfl) rfl
  | dispatch => exact h.dispatch hc he hg
  | accept r => exact h.accept hc he
  | shutDown =>
      refine ⟨fun fd hfd => ?_, by simp [State.next], by simp [State.next], by simp [State.next]⟩
      refine (h.once fd hfd).of_map id (fun p hp => ?_) fun _ _ _ _ hpq => hpq
      rw [← hp]
      cases p <;> rfl
  | dequeue w t => exact hsame he.1 he.1 (by simp) (fun _ => rfl) rfl
  | begin w t => exact hsame he.1 he.1 (by simp) (fun _ => rfl) rfl
  | readOldFd w t => exact hsame he.1 he.1 (by simp) (fun _ => rfl) rfl
  | readFd w t oldFd => exact hsame he.1 he.1 (by simp) (fun _ => rfl) rfl
  | finish w id info closeConn => exact h.finish hc he
  | leave w => exact hsame he.1 he.1 (by simp) (fun _ => rfl) rfl

omit [DecidableEq W] in
theorem owned_init : (State.init W listenSd).Owned := by
  have hheld : ∀ p fd, (State.init W listenSd).fdAt p = some fd → p = .cell 0 ∧ fd = listenSd := by
    rintro (j | k | w) fd hp
    · obtain ⟨hj, hfd⟩ := fdAt_cell_eq_some.1 hp
      have hj : j = 0 := Nat.lt_one_iff.1 hj
      subst hj
      exact ⟨rfl, by simpa [init, PollArray.init] using hfd.symm⟩
    · simp [fdAt, taskAt, heldAt, init] at hp
    · simp [fdAt, taskAt, heldAt, init, carried] at hp
  refine ⟨fun fd _ => .of_unique (.cell 0) fun p hp => (hheld p fd hp).1, fun _ p fd _ hp => ?_,
    fun fd hfd => ?_, fun hx => by simp [init] at hx⟩
  · simp [init, (hheld p fd hp).2]
  · have : fd = listenSd := by simpa [init] using hfd
    omega

/-- The run lemma of this file. -/
theorem owned_of_reach (h : (machine W .byValue listenSd).Reach ScanInside s) : s.Owned := by
  refine h.invariant owned_init ?_
  intro s e s' hr hg hI hstep
  obtain ⟨he, rfl⟩ := machine_step_iff.1 hstep
  exact hI.next (copied_of_reach hr) he hg

/-- **Exclusive ownership.**  With the `PollInfo` delivered by value, in every
run in which the scan stays in front of `nfds`, each open client descriptor is
held at most once among the polled cells and the outstanding tasks, and no two
outstanding tasks carry the same descriptor. -/
theorem exclusive_of_scanInside (h : (machine W .byValue listenSd).Reach ScanInside s) :
    s.Exclusive listenSd ∧ s.TasksApart := by
  have howned := owned_of_reach h
  exact ⟨fun fd hfd _ => howned.once fd (howned.nonneg fd hfd),
    fun p q fd hfd _ _ => howned.once fd hfd p q⟩

/-- What `poll` reports, cell by cell. -/
def reports (masks : List Mask) : Event Unit := .poll fun i => masks.getD i 0

/-- Two clients connect to a server that listens on descriptor 3. -/
def twoConnect : List (Event Unit) :=
  [reports [POLLIN], .flag, .listening, .accept (.accepted 4 true true),
    .accept (.accepted 5 true true), .accept (.failed true), .endScan]

/-- One client sends a request, which is taken up. -/
def oneSends : List (Event Unit) := [reports [0, POLLIN, 0], .flag, .skip, .dispatch]

theorem exclusive_of_oneSends : ∃ s, (machine Unit .byValue 3).Reach ScanInside s ∧
    s.fdAt (.queued 0) = some 4 ∧ s.Exclusive 3 ∧ s.TasksApart := by
  have hrun : ∃ s, (machine Unit .byValue 3).Reach ScanInside s ∧ s.fdAt (.queued 0) = some 4 :=
    Machine.exists_reach_of_tryRun (twoConnect ++ oneSends) (by decide +kernel)
  obtain ⟨s, hs, hq⟩ := hrun
  exact ⟨s, hs, hq, exclusive_of_scanInside hs⟩

/-- The first client hangs up while the second one sends: the scan takes the
second one from its stale cell, and again after the next `poll`. -/
def hangUpBesideRequest : List (Event Unit) :=
  twoConnect ++ [reports [0, POLLHUP, POLLIN], .flag, .skip, .hangUp, .dispatch, .endScan,
    reports [0, POLLIN], .flag, .skip, .dispatch]

theorem not_exclusive_of_hangUp : ∃ s, (machine Unit .byValue 3).Reach KernelOk s ∧
    ¬ s.Exclusive 3 ∧ ¬ s.TasksApart := by
  have hrun : ∃ s, (machine Unit .byValue 3).Reach KernelOk s ∧ s.opened 5 = true ∧
      s.fdAt (.queued 0) = some 5 ∧ s.fdAt (.queued 1) = some 5 :=
    Machine.exists_reach_of_tryRun hangUpBesideRequest (by decide +kernel)
  obtain ⟨s, hs, h5, h0, h1⟩ := hrun
  refine ⟨s, hs, fun hx => ?_, fun hx => ?_⟩
  · exact absurd (hx 5 h5 (by decide) _ _ h0 h1) (by decide)
  · exact absurd (hx (.queued 0) (.queued 1) 5 (by decide) trivial trivial h0 h1) (by decide)

end State

end PotHub.Server
