import PotHub.Server.PollArray

/-!
# One iteration of the main loop

The loop of `main` between two calls of `poll`, as a function: the flag-guarded
compaction, the scan of the array, the batch of `accept` calls and the dispatch
of readable sockets.  What the kernel answers to `accept`, `setsockopt` and
`fcntl` is an argument; what the iteration does to other parties, the tasks it
hands to `addTask` and the descriptors it closes, is part of the result.
-/

namespace PotHub.Server

/-- The argument of a task: the cell `old_fd` points to and the descriptor. -/
structure PollInfo where
  /-- The index of the cell whose field `fd` is pointed to. -/
  oldFd : ℕ
  /-- The descriptor to serve. -/
  fd : Int
deriving DecidableEq, Repr

/-! ## The accept loop -/

/-- What `accept` and the two calls that set the new socket up return. -/
inductive AcceptResult
  /-- `accept` fails, with `errno == EWOULDBLOCK` or with another error. -/
  | failed (wouldBlock : Bool)
  /-- `accept` returns `newSd`; `setsockopt` and `fcntl` succeed or not. -/
  | accepted (newSd : ℕ) (keepalive nonblock : Bool)
deriving DecidableEq, Repr

/-- How the accept loop goes on after one round. -/
inductive AcceptNext
  | again
  | leave
  | exit
deriving DecidableEq, Repr

/-- The effect of a round of the accept loop, or of the whole loop. -/
structure AcceptStep where
  array : PollArray
  /-- The accepted sockets that were closed. -/
  closed : List ℕ
  next : AcceptNext
  /-- `end_server` has been set. -/
  endServer : Bool

/-- One round of the accept loop. -/
def acceptOne (a : PollArray) : AcceptResult → AcceptStep
  | .failed wouldBlock => ⟨a, [], .leave, !wouldBlock⟩
  | .accepted newSd keepalive nonblock =>
      -- a failed `setsockopt` closes the socket and goes on with it
      let closed := if keepalive then [] else [newSd]
      if nonblock = false then ⟨a, closed, .exit, false⟩
      else if a.nfds = MAX_CONNECTIONS then ⟨a, closed ++ [newSd], .leave, false⟩
      else ⟨a.push newSd, closed, .again, false⟩

/-- The accept loop.  At the end of the list the backlog is empty, so that
`accept` fails with `EWOULDBLOCK`. -/
def acceptLoop : List AcceptResult → PollArray → AcceptStep
  | [], a => acceptOne a (.failed true)
  | r :: rest, a =>
      let s := acceptOne a r
      if s.next = .again then
        let t := acceptLoop rest s.array
        { t with closed := s.closed ++ t.closed }
      else s

/-- A round leaves the array as it is or appends the socket it accepted. -/
theorem acceptOne_cases (a : PollArray) (r : AcceptResult) :
    (acceptOne a r).array = a ∨ ∃ newSd keepalive, r = .accepted newSd keepalive true ∧
      a.nfds ≠ MAX_CONNECTIONS ∧ (acceptOne a r).array = a.push newSd := by
  rcases r with wouldBlock | ⟨newSd, keepalive, nonblock⟩
  · exact Or.inl rfl
  · by_cases hn : nonblock = false
    · exact Or.inl (by simp [acceptOne, hn])
    · rw [Bool.not_eq_false] at hn
      subst hn
      by_cases hfull : a.nfds = MAX_CONNECTIONS
      · exact Or.inl (by simp [acceptOne, hfull])
      · exact Or.inr ⟨newSd, keepalive, rfl, hfull, by simp [acceptOne, hfull]⟩

theorem acceptOne_accepted {a : PollArray} {newSd : ℕ} (h : a.nfds ≠ MAX_CONNECTIONS) :
    acceptOne a (.accepted newSd true true) = ⟨a.push newSd, [], .again, false⟩ := by
  simp [acceptOne, h]

theorem acceptOne_full {a : PollArray} {newSd : ℕ} (h : a.nfds = MAX_CONNECTIONS) :
    acceptOne a (.accepted newSd true true) = ⟨a, [newSd], .leave, false⟩ := by
  simp [acceptOne, h]

/-- The loop goes on only behind a socket that has found room. -/
theorem acceptOne_again {a : PollArray} {r : AcceptResult} (h : (acceptOne a r).next = .again) :
    a.nfds ≠ MAX_CONNECTIONS := by
  intro hfull
  rcases r with wouldBlock | ⟨newSd, keepalive, nonblock⟩
  · simp [acceptOne] at h
  · cases nonblock <;> simp [acceptOne, hfull] at h

section AcceptLoop

variable (rs : List AcceptResult) (a : PollArray)

/-- The accept loop only appends: its frame. -/
theorem acceptLoop_frame :
    (acceptLoop rs a).array.revents = a.revents ∧ a.nfds ≤ (acceptLoop rs a).array.nfds ∧
      ∀ j < a.nfds, (acceptLoop rs a).array.fd j = a.fd j := by
  have hone : ∀ (a : PollArray) (r : AcceptResult),
      (acceptOne a r).array.revents = a.revents ∧ a.nfds ≤ (acceptOne a r).array.nfds ∧
        ∀ j < a.nfds, (acceptOne a r).array.fd j = a.fd j := by
    intro a r
    rcases acceptOne_cases a r with h | ⟨sd, k, -, -, h⟩
    · simp [h]
    · rw [h]
      refine ⟨rfl, by simp, fun j hj => ?_⟩
      rw [PollArray.push_fd, Function.update_of_ne (by omega)]
  induction rs generalizing a with
  | nil => exact hone a _
  | cons r rest ih =>
      obtain ⟨hrev, hge, hfd⟩ := hone a r
      rw [acceptLoop]
      split_ifs with hnext
      · obtain ⟨h1, h2, h3⟩ := ih (acceptOne a r).array
        exact ⟨h1.trans hrev, le_trans hge h2, fun j hj =>
          (h3 j (lt_of_lt_of_le hj hge)).trans (hfd j hj)⟩
      · exact ⟨hrev, hge, hfd⟩

/-- What the accept loop appends are sockets it accepted. -/
theorem acceptLoop_new {j : ℕ} (hj : a.nfds ≤ j) (hj' : j < (acceptLoop rs a).array.nfds) :
    ∃ (sd : ℕ) (keepalive : Bool), .accepted sd keepalive true ∈ rs ∧
      (acceptLoop rs a).array.fd j = sd := by
  have hone : ∀ (a : PollArray) (r : AcceptResult), a.nfds ≤ j → j < (acceptOne a r).array.nfds →
      ∃ (sd : ℕ) (keepalive : Bool), r = .accepted sd keepalive true ∧
        (acceptOne a r).array.fd j = sd := by
    intro a r hj hj'
    rcases acceptOne_cases a r with h | ⟨sd, k, hr, -, h⟩
    · rw [h] at hj'
      omega
    · rw [h] at hj' ⊢
      have hja : j = a.nfds := by
        rw [PollArray.push_nfds] at hj'
        omega
      exact ⟨sd, k, hr, by rw [PollArray.push_fd, hja, Function.update_self]⟩
  induction rs generalizing a with
  | nil =>
      obtain ⟨sd, k, hr, -⟩ := hone a _ hj hj'
      exact absurd hr (by simp)
  | cons r rest ih =>
      rw [acceptLoop] at hj' ⊢
      split_ifs at hj' ⊢ with hnext
      · by_cases hlt : j < (acceptOne a r).array.nfds
        · obtain ⟨sd, k, rfl, hsd⟩ := hone a r hj hlt
          refine ⟨sd, k, List.mem_cons_self, ?_⟩
          exact ((acceptLoop_frame rest _).2.2 j hlt).trans hsd
        · obtain ⟨sd, k, hmem, hsd⟩ := ih (acceptOne a r).array (by omega) hj'
          exact ⟨sd, k, List.mem_cons_of_mem _ hmem, hsd⟩
      · obtain ⟨sd, k, rfl, hsd⟩ := hone a r hj hj'
        exact ⟨sd, k, List.mem_cons_self, hsd⟩

/-- Sockets set up with success never make the process exit. -/
theorem acceptLoop_next_of_ok (sds : List ℕ) :
    (acceptLoop (sds.map (.accepted · true true)) a).next ≠ .exit := by
  induction sds generalizing a with
  | nil => simp [acceptLoop, acceptOne]
  | cons sd sds ih =>
      rw [List.map_cons, acceptLoop]
      by_cases hfull : a.nfds = MAX_CONNECTIONS
      · simp [acceptOne_full hfull]
      · simp only [acceptOne_accepted hfull, if_true]
        exact ih _

/-- Nothing is appended exactly when nobody waits or the array is full. -/
theorem acceptLoop_nfds_le_iff (sds : List ℕ) :
    (acceptLoop (sds.map (.accepted · true true)) a).array.nfds ≤ a.nfds ↔
      sds = [] ∨ a.nfds = MAX_CONNECTIONS := by
  cases sds with
  | nil => simp [acceptLoop, acceptOne]
  | cons sd sds =>
      rw [List.map_cons, acceptLoop]
      by_cases hfull : a.nfds = MAX_CONNECTIONS
      · simp [acceptOne_full hfull, hfull]
      · have hge := (acceptLoop_frame (sds.map (.accepted · true true)) (a.push sd)).2.1
        rw [PollArray.push_nfds] at hge
        simp only [acceptOne_accepted hfull, if_true, reduceCtorEq, hfull, or_self, iff_false]
        omega

end AcceptLoop

/-! ## The scan -/

/-- What an iteration has done when it ends. -/
structure Pass where
  array : PollArray
  /-- The arguments of the tasks given to `addTask`, in order. -/
  tasks : List PollInfo := []
  /-- The descriptors closed at a hang-up, in order. -/
  closed : List Int := []
  endServer : Bool := false
  /-- The process has exited inside the iteration. -/
  exited : Bool := false

/-- The scan of the array from index `i` on, up to `current_size` and as long
as `poll_err` is positive.  `answers i` is what the kernel answers to the
accept loop when it is entered at index `i`. -/
def scan (listenSd : ℕ) (answers : ℕ → List AcceptResult) (currentSize : ℕ)
    (a : PollArray) (pollErr i : ℕ) : Pass :=
  if i < currentSize ∧ 0 < pollErr then
    match verdict listenSd a i with
    | .skip => scan listenSd answers currentSize a pollErr (i + 1)
    | .hangUp =>
        -- `poll_err` is not lowered here, and `i` moves past the cell shifted in
        let r := scan listenSd answers currentSize (a.hangUp i) pollErr (i + 1)
        { r with closed := a.fd i :: r.closed }
    | .unexpected => { array := a, endServer := true }
    | .listening =>
        let b := acceptLoop (answers i) a
        if b.next = .exit then { array := b.array, exited := true }
        else
          let r := scan listenSd answers currentSize b.array (pollErr - 1) (i + 1)
          { r with endServer := b.endServer || r.endServer }
    | .readable =>
        let r := scan listenSd answers currentSize (a.setFd i FD_STOP_POLLING) (pollErr - 1) (i + 1)
        { r with tasks := ⟨i, a.fd i⟩ :: r.tasks }
  else { array := a }
termination_by currentSize - i

section Scan

variable {listenSd : ℕ} {answers : ℕ → List AcceptResult} {currentSize : ℕ} {a : PollArray}
  {pollErr i : ℕ}

theorem scan_skip (hi : i < currentSize) (hp : 0 < pollErr) (hv : verdict listenSd a i = .skip) :
    scan listenSd answers currentSize a pollErr i =
      scan listenSd answers currentSize a pollErr (i + 1) := by
  rw [scan, if_pos ⟨hi, hp⟩, hv]

theorem scan_listening (hi : i < currentSize) (hp : 0 < pollErr)
    (hv : verdict listenSd a i = .listening) (hb : (acceptLoop (answers i) a).next ≠ .exit) :
    scan listenSd answers currentSize a pollErr i =
      { scan listenSd answers currentSize (acceptLoop (answers i) a).array (pollErr - 1)
          (i + 1) with
        endServer := (acceptLoop (answers i) a).endServer ||
          (scan listenSd answers currentSize (acceptLoop (answers i) a).array (pollErr - 1)
            (i + 1)).endServer } := by
  rw [scan, if_pos ⟨hi, hp⟩, hv]
  simp only [if_neg hb]

end Scan

/-- Does the guard of the first compaction hold? -/
def compressing (compressArray : Bool) (numThreadsExecuting : Int) : Bool :=
  compressArray && numThreadsExecuting == 0

/-- The array after the flag-guarded compaction. -/
def compactIf (compressArray : Bool) (numThreadsExecuting : Int) (a : PollArray) : PollArray :=
  if compressing compressArray numThreadsExecuting then a.compact else a

/-- The main loop from the return of `poll` to the loop condition. -/
def iteration (listenSd : ℕ) (answers : ℕ → List AcceptResult) (compressArray : Bool)
    (numThreadsExecuting : Int) (a : PollArray) (pollErr : ℕ) : Pass :=
  let a' := compactIf compressArray numThreadsExecuting a
  if pollErr = 0 then { array := a' }
  else scan listenSd answers a'.nfds a' pollErr 0

end PotHub.Server
