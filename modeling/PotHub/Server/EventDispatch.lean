import PotHub.Server.MainLoop
import Mathlib.Order.MinMax

/-!
# Which descriptor is judged by which events

The descriptors of the poll array move in both compactions while the `revents`
stay, so the scan may pair a descriptor with the events of another one.  This
file determines when it does not: the tasks and closes of an iteration are the
ones that `poll` reported exactly when no reporting cell lies behind a cell that
the flag-guarded compaction removes, and no cell but the very last one reports
behind a hang-up.

The argument follows the values that can still be met.  Descriptors only ever
move towards the front, so what is found at an index was polled there or behind
it (`Wakeup.Ahead`); a reported descriptor that is not at its own index when the
scan gets there is never met again.
-/

namespace PotHub.Server

open PotHub.Lib

/-- What `poll` may leave to an iteration: an array with the listening socket in
front and otherwise unused cells and pairwise distinct client descriptors, the
events the kernel reports for it, and the sockets waiting to be accepted. -/
structure Wakeup (listenSd : ℕ) where
  array : PollArray
  /-- The descriptors that `accept` will return before `EWOULDBLOCK`. -/
  pending : List ℕ
  nfds_pos : 1 ≤ array.nfds
  nfds_le : array.nfds ≤ MAX_CONNECTIONS
  listen_cell : array.fd 0 = listenSd
  cell : ∀ i, 0 < i → i < array.nfds → Unused (array.fd i) ∨ 0 ≤ array.fd i
  distinct : ∀ i j, i < array.nfds → j < array.nfds → 0 ≤ array.fd i → array.fd i = array.fd j →
    i = j
  unused_quiet : ∀ i < array.nfds, array.fd i < 0 → array.revents i = 0
  client_events : ∀ i, 0 < i → i < array.nfds →
    array.revents i = 0 ∨ array.revents i = POLLIN ∨ HungUp (array.revents i)
  listen_events : array.revents 0 = 0 ∨ array.revents 0 = POLLIN
  fresh : ∀ sd ∈ pending, ∀ i < array.nfds, array.fd i ≠ sd

/-- The descriptors of `T` are, each once, those of the cells from `i` to `n`
with `POLLIN`, and the descriptors of `C` are those of the cells with a
hang-up. -/
structure JudgedFrom (fd : ℕ → Int) (revents : ℕ → Mask) (n i : ℕ) (T C : List Int) : Prop where
  dispatched : ∀ d, 0 ≤ d → (d ∈ T ↔ ∃ j, i ≤ j ∧ j < n ∧ revents j = POLLIN ∧ fd j = d)
  once : ∀ d, 0 ≤ d → T.count d ≤ 1
  closed : ∀ d, 0 ≤ d → (d ∈ C ↔ ∃ j, i ≤ j ∧ j < n ∧ HungUp (revents j) ∧ fd j = d)

namespace JudgedFrom

variable {fd : ℕ → Int} {revents : ℕ → Mask} {n i : ℕ} {T C : List Int} {v : Int}

/-- A cell for which the predicate fails contributes nothing. -/
theorem exists_from_succ {P : ℕ → Prop} (hi : ¬ P i) :
    (∃ j, i ≤ j ∧ P j) ↔ ∃ j, i + 1 ≤ j ∧ P j := by
  constructor
  · rintro ⟨j, hij, hj⟩
    have hne : i ≠ j := fun h => hi (h ▸ hj)
    exact ⟨j, by omega, hj⟩
  · rintro ⟨j, hij, hj⟩
    exact ⟨j, by omega, hj⟩

theorem skip_iff (hi : revents i = 0) :
    JudgedFrom fd revents n i T C ↔ JudgedFrom fd revents n (i + 1) T C := by
  have hin : ∀ d, (∃ j, i ≤ j ∧ j < n ∧ revents j = POLLIN ∧ fd j = d) ↔
      ∃ j, i + 1 ≤ j ∧ j < n ∧ revents j = POLLIN ∧ fd j = d := fun d =>
    exists_from_succ fun h => zero_ne_POLLIN (hi.symm.trans h.2.1)
  have hhup : ∀ d, (∃ j, i ≤ j ∧ j < n ∧ HungUp (revents j) ∧ fd j = d) ↔
      ∃ j, i + 1 ≤ j ∧ j < n ∧ HungUp (revents j) ∧ fd j = d := fun d =>
    exists_from_succ fun h => by
      rw [hi] at h
      exact not_hungUp_zero h.2.1
  constructor
  · rintro ⟨h1, h2, h3⟩
    exact ⟨fun d hd => (h1 d hd).trans (hin d), h2, fun d hd => (h3 d hd).trans (hhup d)⟩
  · rintro ⟨h1, h2, h3⟩
    exact ⟨fun d hd => (h1 d hd).trans (hin d).symm, h2, fun d hd => (h3 d hd).trans (hhup d).symm⟩

/-- Membership after the front value, when the front value is the one of cell
`i` and is not met again. -/
theorem mem_cons_iff {P : ℕ → Prop} {L : List Int} (hin : i < n) (hP : P i) (hfd : 0 ≤ fd i)
    (hinj : ∀ j, i < j → j < n → fd j ≠ fd i) (hL : fd i ∉ L) :
    (∀ d, 0 ≤ d → (d ∈ v :: L ↔ ∃ j, i ≤ j ∧ j < n ∧ P j ∧ fd j = d)) ↔
      v = fd i ∧ ∀ d, 0 ≤ d → (d ∈ L ↔ ∃ j, i + 1 ≤ j ∧ j < n ∧ P j ∧ fd j = d) := by
  constructor
  · intro h
    have hv : v = fd i := by
      rcases List.mem_cons.1 ((h (fd i) hfd).2 ⟨i, le_rfl, hin, hP, rfl⟩) with hv | hv
      · exact hv.symm
      · exact absurd hv hL
    refine ⟨hv, fun d hd => ⟨fun hdL => ?_, ?_⟩⟩
    · obtain ⟨j, hij, hjn, hPj, hj⟩ := (h d hd).1 (List.mem_cons_of_mem _ hdL)
      have hne : i ≠ j := by
        rintro rfl
        exact hL (hj ▸ hdL)
      exact ⟨j, by omega, hjn, hPj, hj⟩
    · rintro ⟨j, hij, hjn, hPj, hj⟩
      rcases List.mem_cons.1 ((h d hd).2 ⟨j, by omega, hjn, hPj, hj⟩) with hdv | hdL
      · exact absurd (hj.trans (hdv.trans hv)) (hinj j (by omega) hjn)
      · exact hdL
  · rintro ⟨rfl, h⟩ d hd
    rw [List.mem_cons, h d hd]
    constructor
    · rintro (rfl | ⟨j, hij, hj⟩)
      · exact ⟨i, le_rfl, hin, hP, rfl⟩
      · exact ⟨j, by omega, hj⟩
    · rintro ⟨j, hij, hjn, hPj, hj⟩
      rcases Nat.eq_or_lt_of_le hij with rfl | hlt
      · exact Or.inl hj.symm
      · exact Or.inr ⟨j, hlt, hjn, hPj, hj⟩

theorem task_iff (hi : revents i = POLLIN) (hin : i < n) (hfd : 0 ≤ fd i)
    (hinj : ∀ j, i < j → j < n → fd j ≠ fd i) (hT : fd i ∉ T) :
    JudgedFrom fd revents n i (v :: T) C ↔ v = fd i ∧ JudgedFrom fd revents n (i + 1) T C := by
  have hhup : ∀ d, (∃ j, i ≤ j ∧ j < n ∧ HungUp (revents j) ∧ fd j = d) ↔
      ∃ j, i + 1 ≤ j ∧ j < n ∧ HungUp (revents j) ∧ fd j = d := fun d =>
    exists_from_succ fun h => not_hungUp_POLLIN (hi ▸ h.2.1)
  have hmem := mem_cons_iff (v := v) (P := fun j => revents j = POLLIN) hin hi hfd hinj hT
  constructor
  · rintro ⟨h1, h2, h3⟩
    obtain ⟨hv, h1⟩ := hmem.1 h1
    refine ⟨hv, h1, fun d hd => ?_, fun d hd => (h3 d hd).trans (hhup d)⟩
    exact le_trans List.count_le_count_cons (h2 d hd)
  · rintro ⟨hv, h1, h2, h3⟩
    refine ⟨hmem.2 ⟨hv, h1⟩, fun d hd => ?_, fun d hd => (h3 d hd).trans (hhup d).symm⟩
    by_cases hd' : d = v
    · rw [hd', List.count_cons_self, List.count_eq_zero.2 (hv ▸ hT)]
    · rw [List.count_cons_of_ne (Ne.symm hd')]
      exact h2 d hd

theorem close_iff (hi : HungUp (revents i)) (hin : i < n) (hfd : 0 ≤ fd i)
    (hinj : ∀ j, i < j → j < n → fd j ≠ fd i) (hC : fd i ∉ C) :
    JudgedFrom fd revents n i T (v :: C) ↔ v = fd i ∧ JudgedFrom fd revents n (i + 1) T C := by
  have hpollin : ∀ d, (∃ j, i ≤ j ∧ j < n ∧ revents j = POLLIN ∧ fd j = d) ↔
      ∃ j, i + 1 ≤ j ∧ j < n ∧ revents j = POLLIN ∧ fd j = d := fun d =>
    exists_from_succ fun h => not_hungUp_POLLIN (h.2.1 ▸ hi)
  have hmem := mem_cons_iff (v := v) (P := fun j => HungUp (revents j)) hin hi hfd hinj hC
  constructor
  · rintro ⟨h1, h2, h3⟩
    obtain ⟨hv, h3⟩ := hmem.1 h3
    exact ⟨hv, fun d hd => (h1 d hd).trans (hpollin d), h2, h3⟩
  · rintro ⟨hv, h1, h2, h3⟩
    exact ⟨fun d hd => (h1 d hd).trans (hpollin d).symm, h2, hmem.2 ⟨hv, h3⟩⟩

end JudgedFrom

namespace Wakeup

variable {listenSd : ℕ} (w : Wakeup listenSd)

/-- The answers to the accept loop: every pending socket, all set up with
success. -/
def answers : ℕ → List AcceptResult := fun _ => w.pending.map (.accepted · true true)

/-- The iteration that follows. -/
def pass (compressArray : Bool) (numThreadsExecuting : Int) : Pass :=
  iteration listenSd w.answers compressArray numThreadsExecuting w.array w.array.ready

/-- Each descriptor is judged by its own events: the iteration hands exactly
the clients reported with `POLLIN` to `addTask`, each once, and closes exactly
the clients reported with `POLLHUP`. -/
def Judged (compressArray : Bool) (numThreadsExecuting : Int) : Prop :=
  JudgedFrom w.array.fd w.array.revents w.array.nfds 1
    ((w.pass compressArray numThreadsExecuting).tasks.map PollInfo.fd)
    (w.pass compressArray numThreadsExecuting).closed

theorem nonneg_of_event {i : ℕ} (hi : i < w.array.nfds) (h : w.array.revents i ≠ 0) :
    0 ≤ w.array.fd i := by
  by_contra hneg
  exact h (w.unused_quiet i hi (by omega))

/-- A value that can be met at index `i` or behind it: not a descriptor, a
newly accepted one, or one that was polled there. -/
def Behind (i : ℕ) (v : Int) : Prop :=
  v < 0 ∨ (∃ sd ∈ w.pending, v = (sd : Int)) ∨ ∃ j, i ≤ j ∧ j < w.array.nfds ∧ v = w.array.fd j

variable {w}

theorem Behind.mono {i i' : ℕ} {v : Int} (hi : i ≤ i') (h : w.Behind i' v) : w.Behind i v := by
  rcases h with h | h | ⟨j, hj, hjn, rfl⟩
  · exact Or.inl h
  · exact Or.inr (Or.inl h)
  · exact Or.inr (Or.inr ⟨j, by omega, hjn, rfl⟩)

/-- What can be met behind index `i` is not the descriptor polled there. -/
theorem Behind.ne {i : ℕ} {v : Int} (h : w.Behind (i + 1) v) (hi : i < w.array.nfds)
    (hfd : 0 ≤ w.array.fd i) : v ≠ w.array.fd i := by
  rcases h with h | ⟨sd, hsd, rfl⟩ | ⟨j, hj, hjn, rfl⟩
  · omega
  · exact fun h => w.fresh sd hsd i hi h.symm
  · intro h
    have := w.distinct i j hi hjn hfd h.symm
    omega

theorem fd_ne_of_lt {i j : ℕ} (hij : i < j) (hj : j < w.array.nfds) (hfd : 0 ≤ w.array.fd i) :
    w.array.fd j ≠ w.array.fd i := fun h => by
  have := w.distinct i j (by omega) hj hfd h.symm
  omega

/-- In the current array `a`, every cell that the scan of `cs` cells can still
read holds a value from its index or behind. -/
def Ahead (w : Wakeup listenSd) (a : PollArray) (cs i : ℕ) : Prop :=
  ∀ j, i ≤ j → j < max cs a.nfds → w.Behind j (a.fd j)

theorem Ahead.succ {a : PollArray} {cs i : ℕ} (h : w.Ahead a cs i) : w.Ahead a cs (i + 1) :=
  fun j hij hj => h j (by omega) hj

theorem Ahead.setFd {a : PollArray} {cs i : ℕ} {v : Int} (h : w.Ahead a cs i) :
    w.Ahead (a.setFd i v) cs (i + 1) := by
  intro j hij hj
  rw [PollArray.setFd_fd, Function.update_of_ne (by omega)]
  exact h j (by omega) hj

theorem Ahead.hangUp {a : PollArray} {cs i : ℕ} (h : w.Ahead a cs i) :
    w.Ahead (a.hangUp i) cs (i + 1) := by
  intro j hij hj
  have hle := a.hangUp_nfds_le i
  by_cases hjn : j < a.nfds
  · obtain ⟨j', hjj', hj'n, heq⟩ :=
      removeFrom_ge (p := Unused) (a.setFd i (-1)).fd 0 a.nfds hjn
    have hval : (a.hangUp i).fd j = a.fd j' := by
      rw [PollArray.hangUp, PollArray.compact_fd, PollArray.setFd_nfds, heq, PollArray.setFd_fd,
        Function.update_of_ne (by omega)]
    rw [hval]
    exact (h j' (by omega) (by omega)).mono hjj'
  · have hval : (a.hangUp i).fd j = a.fd j := by
      rw [PollArray.hangUp, PollArray.compact_fd, PollArray.setFd_nfds,
        removeFrom_of_last _ _ _ (by omega), PollArray.setFd_fd, Function.update_of_ne (by omega)]
    rw [hval]
    exact h j (by omega) (by omega)

/-- The reporting cells from `i` on are within the scan and still hold what was
polled there, and none but the last cell reports behind a hang-up. -/
structure Aligned (w : Wakeup listenSd) (a : PollArray) (cs i : ℕ) : Prop where
  own : ∀ k, i ≤ k → k < w.array.nfds → w.array.revents k ≠ 0 → k < cs ∧ a.fd k = w.array.fd k
  last : ∀ h k, i ≤ h → h < k → k < w.array.nfds → HungUp (w.array.revents h) →
    w.array.revents k ≠ 0 → a.nfds ≤ k + 1

theorem aligned_skip_iff {a : PollArray} {cs i : ℕ} (hi : w.array.revents i = 0) :
    w.Aligned a cs i ↔ w.Aligned a cs (i + 1) := by
  constructor
  · rintro ⟨hown, hlast⟩
    exact ⟨fun k hik => hown k (by omega), fun h k hih => hlast h k (by omega)⟩
  · rintro ⟨hown, hlast⟩
    refine ⟨fun k hik hkn hk => ?_, fun h k hih hhk hkn hup hk => ?_⟩
    · rcases Nat.eq_or_lt_of_le hik with rfl | hlt
      · exact absurd hi hk
      · exact hown k hlt hkn hk
    · rcases Nat.eq_or_lt_of_le hih with rfl | hlt
      · rw [hi] at hup
        exact absurd hup not_hungUp_zero
      · exact hlast h k hlt hhk hkn hup hk

theorem aligned_task_iff {a : PollArray} {cs i : ℕ} {v : Int} (hi : w.array.revents i = POLLIN)
    (hics : i < cs) (hin : i < w.array.nfds) :
    w.Aligned a cs i ↔ a.fd i = w.array.fd i ∧ w.Aligned (a.setFd i v) cs (i + 1) := by
  have hi0 : w.array.revents i ≠ 0 := by
    rw [hi]
    exact zero_ne_POLLIN.symm
  have hval : ∀ k, i + 1 ≤ k → (a.setFd i v).fd k = a.fd k := fun k hk => by
    rw [PollArray.setFd_fd, Function.update_of_ne (by omega)]
  constructor
  · rintro ⟨hown, hlast⟩
    refine ⟨(hown i le_rfl hin hi0).2, fun k hik hkn hk => ?_, fun h k hih => hlast h k (by omega)⟩
    rw [hval k hik]
    exact hown k (by omega) hkn hk
  · rintro ⟨hfd, hown, hlast⟩
    refine ⟨fun k hik hkn hk => ?_, fun h k hih hhk hkn hup hk => ?_⟩
    · rcases Nat.eq_or_lt_of_le hik with rfl | hlt
      · exact ⟨hics, hfd⟩
      · rw [← hval k hlt]
        exact hown k hlt hkn hk
    · rcases Nat.eq_or_lt_of_le hih with rfl | hlt
      · rw [hi] at hup
        exact absurd hup not_hungUp_POLLIN
      · exact hlast h k hlt hhk hkn hup hk

/-- Behind a hang-up only the last cell keeps its descriptor. -/
theorem hangUp_fd_eq_iff {a : PollArray} {cs i k : ℕ} (hahead : w.Ahead a cs i) (hik : i < k)
    (hkn : k < w.array.nfds) (hk : w.array.revents k ≠ 0) :
    (a.hangUp i).fd k = w.array.fd k ↔ a.fd k = w.array.fd k ∧ a.nfds ≤ k + 1 := by
  have hlast : a.nfds ≤ k + 1 → (a.hangUp i).fd k = a.fd k := fun h => by
    rw [PollArray.hangUp, PollArray.compact_fd, PollArray.setFd_nfds, removeFrom_of_last _ _ _ h,
      PollArray.setFd_fd, Function.update_of_ne (by omega)]
  constructor
  · intro h
    have hle : a.nfds ≤ k + 1 := by
      by_contra hlt
      -- the cell given up lies in front, so the value comes from strictly behind `k`
      obtain ⟨j', hkj', hj'n, heq⟩ :=
        removeFrom_later (p := Unused) (a.setFd i (-1)).fd 0 a.nfds (Nat.zero_le i)
          (Nat.le_of_lt hik) (by omega) (by simp [Unused])
      have hval : (a.hangUp i).fd k = a.fd j' := by
        rw [PollArray.hangUp, PollArray.compact_fd, PollArray.setFd_nfds, heq, PollArray.setFd_fd,
          Function.update_of_ne (by omega)]
      have hbehind : w.Behind (k + 1) (a.fd j') :=
        (hahead j' (by omega) (by omega)).mono (by omega)
      exact hbehind.ne hkn (w.nonneg_of_event hkn hk) (hval.symm.trans h)
    exact ⟨(hlast hle).symm.trans h, hle⟩
  · rintro ⟨h, hle⟩
    exact (hlast hle).trans h

theorem aligned_hangUp_iff {a : PollArray} {cs i : ℕ} (hahead : w.Ahead a cs i)
    (hi : HungUp (w.array.revents i)) (hics : i < cs) (hin : i < w.array.nfds) :
    w.Aligned a cs i ↔ a.fd i = w.array.fd i ∧ w.Aligned (a.hangUp i) cs (i + 1) := by
  have hi0 : w.array.revents i ≠ 0 := fun h0 => by
    rw [h0] at hi
    exact not_hungUp_zero hi
  constructor
  · rintro ⟨hown, hlast⟩
    refine ⟨(hown i le_rfl hin hi0).2, fun k hik hkn hk => ?_, fun h k hih hhk hkn hup hk => ?_⟩
    · obtain ⟨hkcs, hfd⟩ := hown k (by omega) hkn hk
      refine ⟨hkcs, (hangUp_fd_eq_iff hahead hik hkn hk).2 ⟨hfd, ?_⟩⟩
      exact hlast i k le_rfl hik hkn hi hk
    · exact le_trans (a.hangUp_nfds_le i) (hlast h k (by omega) hhk hkn hup hk)
  · rintro ⟨hfd, hown, hlast⟩
    have hback : ∀ k, i < k → k < w.array.nfds → w.array.revents k ≠ 0 →
        k < cs ∧ a.fd k = w.array.fd k ∧ a.nfds ≤ k + 1 := fun k hik hkn hk => by
      obtain ⟨hkcs, hown⟩ := hown k hik hkn hk
      exact ⟨hkcs, (hangUp_fd_eq_iff hahead hik hkn hk).1 hown⟩
    refine ⟨fun k hik hkn hk => ?_, fun h k hih hhk hkn _ hk => (hback k (by omega) hkn hk).2.2⟩
    rcases Nat.eq_or_lt_of_le hik with rfl | hlt
    · exact ⟨hics, hfd⟩
    · exact ⟨(hback k hlt hkn hk).1, (hback k hlt hkn hk).2.1⟩

/-! ### The scan behind the listening socket -/

theorem Behind.ne_listen {i : ℕ} {v : Int} (hi : 1 ≤ i) (h : w.Behind i v) : v ≠ listenSd := by
  rw [← w.listen_cell]
  exact (h.mono hi).ne w.nfds_pos (by rw [w.listen_cell]; exact Int.natCast_nonneg _)

theorem Ahead.ne_listening {a : PollArray} {cs i : ℕ} (h : w.Ahead a cs i) (hi : 1 ≤ i)
    (hics : i < cs) : verdict listenSd a i ≠ .listening := fun hv =>
  ((h i le_rfl (lt_max_of_lt_left hics)).ne_listen hi) (verdict_listening_iff.1 hv).2

/-- What the scan hands on or closes was to be met from its index on. -/
theorem scan_behind {cs : ℕ} (a : PollArray) (pollErr i : ℕ) (hi : 1 ≤ i)
    (hahead : w.Ahead a cs i) :
    (∀ v ∈ (scan listenSd w.answers cs a pollErr i).tasks.map PollInfo.fd, w.Behind i v) ∧
      ∀ v ∈ (scan listenSd w.answers cs a pollErr i).closed, w.Behind i v := by
  fun_induction scan listenSd w.answers cs a pollErr i with
  | case1 a pollErr i hlt hv ih =>
      obtain ⟨ih1, ih2⟩ := ih (by omega) hahead.succ
      exact ⟨fun v hv => (ih1 v hv).mono (by omega), fun v hv => (ih2 v hv).mono (by omega)⟩
  | case2 a pollErr i hlt hv r ih =>
      obtain ⟨ih1, ih2⟩ := ih (by omega) hahead.hangUp
      refine ⟨fun v hv => (ih1 v hv).mono (by omega), fun v hv => ?_⟩
      rcases List.mem_cons.1 hv with rfl | hv
      · exact hahead i le_rfl (lt_max_of_lt_left hlt.1)
      · exact (ih2 v hv).mono (by omega)
  | case3 a pollErr i hlt hv => simp
  | case4 a pollErr i hlt hv b hb => exact absurd hv (hahead.ne_listening hi hlt.1)
  | case5 a pollErr i hlt hv b hb r ih => exact absurd hv (hahead.ne_listening hi hlt.1)
  | case6 a pollErr i hlt hv r ih =>
      obtain ⟨ih1, ih2⟩ := ih (by omega) hahead.setFd
      refine ⟨fun v hv => ?_, fun v hv => (ih2 v hv).mono (by omega)⟩
      rcases List.mem_cons.1 hv with rfl | hv
      · exact hahead i le_rfl (lt_max_of_lt_left hlt.1)
      · exact (ih1 v hv).mono (by omega)
  | case7 a pollErr i hlt => simp

/-- The number of reporting cells from `i` to `m`. -/
def readyIn (revents : ℕ → Mask) (i m : ℕ) : ℕ :=
  (List.range' i (m - i)).countP fun k => revents k ≠ 0

theorem readyIn_of_lt {revents : ℕ → Mask} {i m : ℕ} (h : i < m) :
    readyIn revents i m = readyIn revents (i + 1) m + if revents i ≠ 0 then 1 else 0 := by
  have hm : m - i = (m - (i + 1)) + 1 := by omega
  rw [readyIn, hm, List.range'_succ, List.countP_cons, readyIn]
  simp

theorem quiet_of_readyIn_eq_zero {revents : ℕ → Mask} {i m : ℕ} (h : readyIn revents i m = 0)
    {k : ℕ} (hik : i ≤ k) (hkm : k < m) : revents k = 0 := by
  have hmem : k ∈ List.range' i (m - i) := List.mem_range'_1.2 ⟨hik, by omega⟩
  simpa using List.countP_eq_zero.1 h k hmem

theorem judged_nil_iff {a : PollArray} {cs i : ℕ} (hi : 1 ≤ i)
    (hquiet : ∀ k, i ≤ k → k < cs → w.array.revents k = 0) :
    JudgedFrom w.array.fd w.array.revents w.array.nfds i [] [] ↔ w.Aligned a cs i := by
  constructor
  · rintro ⟨h1, -, h3⟩
    have hall : ∀ k, i ≤ k → k < w.array.nfds → w.array.revents k = 0 := by
      intro k hik hkn
      by_contra hk
      have hfd := w.nonneg_of_event hkn hk
      rcases w.client_events k (by omega) hkn with h | h | h
      · exact hk h
      · exact List.not_mem_nil ((h1 _ hfd).2 ⟨k, hik, hkn, h, rfl⟩)
      · exact List.not_mem_nil ((h3 _ hfd).2 ⟨k, hik, hkn, h, rfl⟩)
    exact ⟨fun k hik hkn hk => absurd (hall k hik hkn) hk,
      fun h k hih hhk hkn _ hk => absurd (hall k (by omega) hkn) hk⟩
  · rintro ⟨hown, -⟩
    have hall : ∀ k, i ≤ k → k < w.array.nfds → w.array.revents k = 0 := by
      intro k hik hkn
      by_contra hk
      exact hk (hquiet k hik (hown k hik hkn hk).1)
    refine ⟨fun d _ => ⟨fun h => absurd h List.not_mem_nil, ?_⟩, by simp,
      fun d _ => ⟨fun h => absurd h List.not_mem_nil, ?_⟩⟩
    · rintro ⟨k, hik, hkn, hk, -⟩
      exact absurd ((hall k hik hkn).symm.trans hk) zero_ne_POLLIN
    · rintro ⟨k, hik, hkn, hk, -⟩
      rw [hall k hik hkn] at hk
      exact absurd hk not_hungUp_zero

/-- **The scan behind the listening socket.**  It judges every descriptor by its
own events exactly when the reporting cells are aligned. -/
theorem scan_judged_iff {cs : ℕ} (a : PollArray) (pollErr i : ℕ) (hi : 1 ≤ i)
    (hrev : a.revents = w.array.revents) (hcs : cs ≤ w.array.nfds) (hahead : w.Ahead a cs i)
    (hready : readyIn w.array.revents i cs ≤ pollErr) :
    JudgedFrom w.array.fd w.array.revents w.array.nfds i
      ((scan listenSd w.answers cs a pollErr i).tasks.map PollInfo.fd)
      (scan listenSd w.answers cs a pollErr i).closed ↔ w.Aligned a cs i := by
  fun_induction scan listenSd w.answers cs a pollErr i with
  | case1 a pollErr i hlt hv ih =>
      have h0 : w.array.revents i = 0 := hrev ▸ verdict_skip_iff.1 hv
      rw [readyIn_of_lt hlt.1, if_neg (not_not.2 h0)] at hready
      rw [JudgedFrom.skip_iff h0, aligned_skip_iff h0]
      exact ih (by omega) hrev hahead.succ hready
  | case2 a pollErr i hlt hv r ih =>
      have hup : HungUp (w.array.revents i) := hrev ▸ verdict_hangUp_iff.1 hv
      have hin : i < w.array.nfds := lt_of_lt_of_le hlt.1 hcs
      have h0 : w.array.revents i ≠ 0 := fun h0 => by
        rw [h0] at hup
        exact not_hungUp_zero hup
      have hfd := w.nonneg_of_event hin h0
      rw [readyIn_of_lt hlt.1] at hready
      -- what is closed further on was polled further on
      have hfar : w.array.fd i ∉ r.closed := fun hmem =>
        ((scan_behind _ _ _ (by omega) hahead.hangUp).2 _ hmem).ne hin hfd rfl
      rw [aligned_hangUp_iff hahead hup hlt.1 hin]
      rw [JudgedFrom.close_iff hup hin hfd (fun j hij hjn => fd_ne_of_lt hij hjn hfd) hfar]
      rw [ih (by omega) hrev hahead.hangUp (by omega)]
  | case3 a pollErr i hlt hv =>
      -- the events are those of cell `i` still, and `poll` reports nothing else for a client
      obtain ⟨h0, hin, hup⟩ := verdict_unexpected_iff.1 hv
      rw [hrev] at h0 hin hup
      rcases w.client_events i (by omega) (by omega) with h | h | h
      · exact absurd h h0
      · exact absurd h hin
      · exact absurd h hup
  | case4 a pollErr i hlt hv b hb => exact absurd hv (hahead.ne_listening hi hlt.1)
  | case5 a pollErr i hlt hv b hb r ih => exact absurd hv (hahead.ne_listening hi hlt.1)
  | case6 a pollErr i hlt hv r ih =>
      have hpollin : w.array.revents i = POLLIN := hrev ▸ (verdict_readable_iff.1 hv).1
      have hin : i < w.array.nfds := lt_of_lt_of_le hlt.1 hcs
      have h0 : w.array.revents i ≠ 0 := by
        rw [hpollin]
        exact zero_ne_POLLIN.symm
      have hfd := w.nonneg_of_event hin h0
      rw [readyIn_of_lt hlt.1, if_pos h0] at hready
      have hfar : w.array.fd i ∉ r.tasks.map PollInfo.fd := fun hmem =>
        ((scan_behind _ _ _ (by omega) hahead.setFd).1 _ hmem).ne hin hfd rfl
      rw [aligned_task_iff (v := FD_STOP_POLLING) hpollin hlt.1 hin, List.map_cons]
      rw [JudgedFrom.task_iff hpollin hin hfd (fun j hij hjn => fd_ne_of_lt hij hjn hfd) hfar]
      rw [ih (by omega) hrev hahead.setFd (by omega)]
  | case7 a pollErr i hlt =>
      -- whether the bound or `poll_err` ends the scan, nothing below the bound reports
      refine judged_nil_iff hi fun k hik hkcs => ?_
      exact quiet_of_readyIn_eq_zero (i := i) (m := cs) (by omega) hik hkcs

/-! ### The whole iteration -/

section Iteration

variable (w) (compressArray : Bool) (numThreadsExecuting : Int)

/-- The array that the iteration scans. -/
def scanned : PollArray := compactIf compressArray numThreadsExecuting w.array

/-- The scanned array after the batch of `accept` calls. -/
def accepted : PollArray :=
  if w.array.revents 0 = POLLIN then
    (acceptLoop (w.answers 0) (w.scanned compressArray numThreadsExecuting)).array
  else w.scanned compressArray numThreadsExecuting

/-- The condition under which an iteration judges each descriptor by its own
events: with the flag-guarded compaction no cell behind an unused one reports,
and the only cell that may report behind a hang-up is the last one, provided no
socket is appended to the array. -/
structure InStep : Prop where
  front : compressing compressArray numThreadsExecuting = true →
    ∀ i k, i < k → k < w.array.nfds → Unused (w.array.fd i) → w.array.revents k = 0
  last : ∀ h k, h < k → k < w.array.nfds → HungUp (w.array.revents h) → w.array.revents k ≠ 0 →
    k + 1 = (w.scanned compressArray numThreadsExecuting).nfds ∧
      (w.array.revents 0 ≠ POLLIN ∨ w.pending = [] ∨
        (w.scanned compressArray numThreadsExecuting).nfds = MAX_CONNECTIONS)

variable {w compressArray numThreadsExecuting}

theorem scanned_revents :
    (w.scanned compressArray numThreadsExecuting).revents = w.array.revents := by
  rw [scanned, compactIf]
  split_ifs <;> rfl

theorem scanned_nfds_le :
    (w.scanned compressArray numThreadsExecuting).nfds ≤ w.array.nfds := by
  rw [scanned, compactIf]
  split_ifs
  · exact w.array.compact_nfds_le
  · exact le_rfl

/-- The listening socket stays in front. -/
theorem scanned_front :
    1 ≤ (w.scanned compressArray numThreadsExecuting).nfds ∧
      (w.scanned compressArray numThreadsExecuting).fd 0 = listenSd := by
  have hkeep : ∀ k, 0 ≤ k → k ≤ 0 → ¬ Unused (w.array.fd k) := fun k _ hk => by
    rw [Nat.le_zero.1 hk, w.listen_cell]
    exact not_unused_of_nonneg (Int.natCast_nonneg _)
  rw [scanned, compactIf]
  split_ifs
  · refine ⟨lt_removeFrom_length _ (Nat.zero_le _) w.nfds_pos hkeep, ?_⟩
    rw [PollArray.compact_fd, removeFrom_of_kept _ _ _ fun k hk hk0 _ => hkeep k hk hk0]
    exact w.listen_cell
  · exact ⟨w.nfds_pos, w.listen_cell⟩

theorem scanned_ahead :
    w.Ahead (w.scanned compressArray numThreadsExecuting)
      (w.scanned compressArray numThreadsExecuting).nfds 0 := by
  intro j _ hj
  rw [max_self] at hj
  have hjn : j < w.array.nfds := lt_of_lt_of_le hj scanned_nfds_le
  rw [scanned, compactIf]
  split_ifs
  · obtain ⟨j', hjj', hj'n, heq⟩ := removeFrom_ge (p := Unused) w.array.fd 0 w.array.nfds hjn
    exact Or.inr (Or.inr ⟨j', hjj', hj'n, heq⟩)
  · exact Or.inr (Or.inr ⟨j, le_rfl, hjn, rfl⟩)

/-- A reporting cell is scanned with its own descriptor exactly when the
flag-guarded compaction removes nothing in front of it. -/
theorem scanned_own_iff {k : ℕ} (hkn : k < w.array.nfds) (hk : w.array.revents k ≠ 0) :
    (k < (w.scanned compressArray numThreadsExecuting).nfds ∧
        (w.scanned compressArray numThreadsExecuting).fd k = w.array.fd k) ↔
      (compressing compressArray numThreadsExecuting = true →
        ∀ i < k, ¬ Unused (w.array.fd i)) := by
  have hfd := w.nonneg_of_event hkn hk
  rw [scanned, compactIf]
  split_ifs with hc
  · simp only [PollArray.compact_nfds, PollArray.compact_fd]
    constructor
    · rintro ⟨hlt, heq⟩ - i hik hunused
      have hlen := removeFrom_length_lt (p := Unused) w.array.fd (Nat.zero_le i)
        (lt_trans hik hkn) hunused
      obtain ⟨j', hkj', hj'n, hj'⟩ := removeFrom_later (p := Unused) w.array.fd 0 w.array.nfds
        (Nat.zero_le i) hik.le (by omega) hunused
      exact fd_ne_of_lt hkj' hj'n hfd (hj'.symm.trans heq)
    · intro hfront
      have hkeep : ∀ j, j ≤ k → ¬ Unused (w.array.fd j) := by
        intro j hjk
        rcases Nat.eq_or_lt_of_le hjk with rfl | hlt
        · exact not_unused_of_nonneg hfd
        · exact hfront hc j hlt
      exact ⟨lt_removeFrom_length _ (Nat.zero_le _) hkn fun j _ hj => hkeep j hj,
        removeFrom_of_kept _ _ _ fun j _ hj _ => hkeep j hj⟩
  · simp [hc, hkn]

theorem accepted_revents :
    (w.accepted compressArray numThreadsExecuting).revents = w.array.revents := by
  rw [accepted]
  split_ifs
  · exact (acceptLoop_frame _ _).1.trans scanned_revents
  · exact scanned_revents

theorem accepted_fd_of_lt {j : ℕ} (hj : j < (w.scanned compressArray numThreadsExecuting).nfds) :
    (w.accepted compressArray numThreadsExecuting).fd j =
      (w.scanned compressArray numThreadsExecuting).fd j := by
  rw [accepted]
  split_ifs
  · exact (acceptLoop_frame _ _).2.2 j hj
  · rfl

/-- The array grows in the batch exactly when a socket waits and there is
room. -/
theorem accepted_nfds_le_iff :
    (w.accepted compressArray numThreadsExecuting).nfds ≤
        (w.scanned compressArray numThreadsExecuting).nfds ↔
      (w.array.revents 0 ≠ POLLIN ∨ w.pending = [] ∨
        (w.scanned compressArray numThreadsExecuting).nfds = MAX_CONNECTIONS) := by
  rw [accepted]
  split_ifs with h0
  · rw [answers, acceptLoop_nfds_le_iff]
    simp [h0]
  · simp [h0]

theorem accepted_ahead :
    w.Ahead (w.accepted compressArray numThreadsExecuting)
      (w.scanned compressArray numThreadsExecuting).nfds 1 := by
  intro j hj1 hj
  by_cases hjs : j < (w.scanned compressArray numThreadsExecuting).nfds
  · rw [accepted_fd_of_lt hjs]
    exact scanned_ahead j (Nat.zero_le _) (lt_max_of_lt_left hjs)
  · have hj' : j < (w.accepted compressArray numThreadsExecuting).nfds := by
      rcases lt_max_iff.1 hj with h | h
      · exact absurd h hjs
      · exact h
    unfold accepted at hj' ⊢
    split_ifs at hj' ⊢ with h0
    · obtain ⟨sd, k, hmem, hsd⟩ := acceptLoop_new _ _ (not_lt.1 hjs) hj'
      obtain ⟨sd', hsd', heq⟩ := List.mem_map.1 hmem
      cases heq
      exact Or.inr (Or.inl ⟨sd, hsd', hsd⟩)
    · exact absurd hj' hjs

/-- Alignment behind the listening socket, read off the array that `poll`
left. -/
theorem aligned_iff_inStep :
    w.Aligned (w.accepted compressArray numThreadsExecuting)
        (w.scanned compressArray numThreadsExecuting).nfds 1 ↔
      w.InStep compressArray numThreadsExecuting := by
  have hown : ∀ k, k < w.array.nfds → w.array.revents k ≠ 0 →
      ((k < (w.scanned compressArray numThreadsExecuting).nfds ∧
        (w.accepted compressArray numThreadsExecuting).fd k = w.array.fd k) ↔
      (compressing compressArray numThreadsExecuting = true →
        ∀ i < k, ¬ Unused (w.array.fd i))) := fun k hkn hk => by
    rw [← scanned_own_iff hkn hk]
    exact and_congr_right fun hlt => by rw [accepted_fd_of_lt hlt]
  constructor
  · rintro ⟨hal, hlast⟩
    refine ⟨fun hc i k hik hkn hunused => ?_, fun h k hhk hkn hup hk => ?_⟩
    · by_contra hk
      exact (hown k hkn hk).1 (hal k (by omega) hkn hk) hc i hik hunused
    · have hh : h ≠ 0 := by
        rintro rfl
        rcases w.listen_events with h0 | h0
        · rw [h0] at hup
          exact not_hungUp_zero hup
        · rw [h0] at hup
          exact not_hungUp_POLLIN hup
      have hlt := (hal k (by omega) hkn hk).1
      have hle := hlast h k (by omega) hhk hkn hup hk
      refine ⟨?_, accepted_nfds_le_iff.1 (by omega)⟩
      have hge : (w.scanned compressArray numThreadsExecuting).nfds ≤
          (w.accepted compressArray numThreadsExecuting).nfds := by
        rw [accepted]
        split_ifs
        · exact (acceptLoop_frame _ _).2.1
        · exact le_rfl
      omega
  · rintro ⟨hfront, hlast⟩
    refine ⟨fun k hk1 hkn hk => (hown k hkn hk).2 fun hc i hik hunused => ?_,
      fun h k _ hhk hkn hup hk => ?_⟩
    · exact hk (hfront hc i k hik hkn hunused)
    · obtain ⟨heq, hroom⟩ := hlast h k hhk hkn hup hk
      exact heq ▸ accepted_nfds_le_iff.2 hroom

theorem readyIn_mono {revents : ℕ → Mask} {i m m' : ℕ} (h : m ≤ m') :
    readyIn revents i m ≤ readyIn revents i m' := by
  rw [readyIn]
  refine List.Sublist.countP_le ?_
  exact List.range'_sublist_right.2 (by omega)

/-- The iteration behind the listening socket is the scan from index `1`. -/
theorem judged_iff_aligned :
    w.Judged compressArray numThreadsExecuting ↔
      w.Aligned (w.accepted compressArray numThreadsExecuting)
        (w.scanned compressArray numThreadsExecuting).nfds 1 := by
  set cs := (w.scanned compressArray numThreadsExecuting).nfds with hcs
  obtain ⟨hpos, hlisten⟩ : 1 ≤ cs ∧ (w.scanned compressArray numThreadsExecuting).fd 0 = listenSd :=
    scanned_front
  have hcsn : cs ≤ w.array.nfds := scanned_nfds_le
  have hready : readyIn w.array.revents 0 cs ≤ w.array.ready := by
    have hall : readyIn w.array.revents 0 w.array.nfds = w.array.ready := by
      rw [readyIn, Nat.sub_zero, ← List.range_eq_range', PollArray.ready]
    exact hall ▸ readyIn_mono hcsn
  have hpass : w.pass compressArray numThreadsExecuting =
      if w.array.ready = 0 then { array := w.scanned compressArray numThreadsExecuting }
      else scan listenSd w.answers cs (w.scanned compressArray numThreadsExecuting)
        w.array.ready 0 := rfl
  rw [Judged]
  rw [hpass]
  by_cases h0 : w.array.ready = 0
  · rw [if_pos h0]
    exact judged_nil_iff le_rfl fun k _ hk =>
      quiet_of_readyIn_eq_zero (i := 0) (m := cs) (by omega) (Nat.zero_le k) hk
  · have hp := Nat.pos_of_ne_zero h0
    rw [if_neg h0]
    rw [readyIn_of_lt hpos, Nat.zero_add] at hready
    rcases w.listen_events with hev | hev
    · have hacc : w.accepted compressArray numThreadsExecuting =
          w.scanned compressArray numThreadsExecuting := by
        rw [accepted, if_neg]
        rw [hev]
        exact zero_ne_POLLIN
      rw [scan_skip hpos hp (verdict_skip_iff.2 (scanned_revents ▸ hev))]
      rw [← hacc]
      exact scan_judged_iff _ _ 1 le_rfl accepted_revents hcsn accepted_ahead (by omega)
    · have hacc : w.accepted compressArray numThreadsExecuting =
          (acceptLoop (w.answers 0) (w.scanned compressArray numThreadsExecuting)).array := by
        rw [accepted, if_pos hev]
      have hne : w.array.revents 0 ≠ 0 := by
        rw [hev]
        exact zero_ne_POLLIN.symm
      rw [if_pos hne] at hready
      rw [scan_listening hpos hp (verdict_listening_iff.2 ⟨scanned_revents ▸ hev, hlisten⟩)
        (acceptLoop_next_of_ok _ _)]
      rw [← hacc]
      exact scan_judged_iff _ _ 1 le_rfl accepted_revents hcsn accepted_ahead (by omega)

end Iteration

/-- **Event dispatch agrees with `poll` exactly when the iteration is in
step.** -/
theorem judged_iff_inStep (w : Wakeup listenSd) (compressArray : Bool) (numThreadsExecuting : Int) :
    w.Judged compressArray numThreadsExecuting ↔ w.InStep compressArray numThreadsExecuting :=
  judged_iff_aligned.trans aligned_iff_inStep

/-- Three clients, of which the first hangs up while the second is ready. -/
def hangUpArray : PollArray where
  fd i := [3, 4, 5, 6].getD i 0
  events _ := POLLIN
  revents i := [0, POLLHUP, POLLIN, 0].getD i 0
  nfds := 4

def hangUpThenReady : Wakeup 3 where
  array := hangUpArray
  pending := []
  nfds_pos := by decide
  nfds_le := by decide
  listen_cell := rfl
  cell i _ := (by decide : ∀ i < 4, Unused (hangUpArray.fd i) ∨ 0 ≤ hangUpArray.fd i) i
  distinct i j hi hj _ :=
    (by decide : ∀ i < 4, ∀ j < 4, hangUpArray.fd i = hangUpArray.fd j → i = j) i hi j hj
  unused_quiet := by decide
  client_events i _ := (by decide : ∀ i < 4, hangUpArray.revents i = 0 ∨
    hangUpArray.revents i = POLLIN ∨ HungUp (hangUpArray.revents i)) i
  listen_events := Or.inl rfl
  fresh := by simp

/-- The hang-up of descriptor 4 shifts 6 to the index of 5, so that 6 is handed
on with the events of 5. -/
theorem not_judged_of_hangUp :
    ¬ ∀ (listenSd : ℕ) (w : Wakeup listenSd) (compressArray : Bool) (numThreadsExecuting : Int),
      w.Judged compressArray numThreadsExecuting := by
  intro h
  have htasks : (hangUpThenReady.pass false 0).tasks = [⟨2, 6⟩] := by decide +kernel
  have hj := (h 3 hangUpThenReady false 0).dispatched 5 (by decide)
  rw [htasks] at hj
  exact absurd (hj.2 ⟨2, by decide, by decide, rfl, rfl⟩) (by decide)

end Wakeup

end PotHub.Server
