import PotHub.Lib.InPlace
import Mathlib.Data.List.Basic

/-!
# The poll array

The array `fds` of `main` in `server.c`, with its length `nfds`.  A cell is read
and written through its three fields, kept here as three functions on indices;
both compactions move the descriptors only, so `events` and `revents` stay with
the index.
-/

namespace PotHub.Server

open PotHub.Lib

/-- A value of the `short` fields `events` and `revents`. -/
abbrev Mask : Type := BitVec 16

def POLLIN : Mask := 0x001
def POLLHUP : Mask := 0x010
def POLLNVAL : Mask := 0x020

/-- The number of cells of `fds`. -/
def MAX_CONNECTIONS : ℕ := 200

/-- The descriptor value of a cell whose connection a worker is serving. -/
def FD_STOP_POLLING : Int := -2

/-- `revents & POLLHUP`, as a condition. -/
def HungUp (m : Mask) : Prop := m &&& POLLHUP ≠ 0

instance (m : Mask) : Decidable (HungUp m) := inferInstanceAs (Decidable (_ ≠ _))

theorem not_hungUp_zero : ¬ HungUp 0#16 := by decide

theorem not_hungUp_POLLIN : ¬ HungUp POLLIN := by decide

theorem zero_ne_POLLIN : 0#16 ≠ POLLIN := by decide

/-- The descriptors that both compactions remove. -/
def Unused (fd : Int) : Prop := fd = -1 ∨ fd = -2

instance : DecidablePred Unused := fun _ => inferInstanceAs (Decidable (_ ∨ _))

theorem Unused.neg {fd : Int} (h : Unused fd) : fd < 0 := by
  rcases h with rfl | rfl <;> decide

theorem not_unused_of_nonneg {fd : Int} (h : 0 ≤ fd) : ¬ Unused fd := fun hu => by
  have := hu.neg
  omega

/-- The array `fds` and the number `nfds` of its cells in use. -/
structure PollArray where
  /-- The field `fd` of each cell. -/
  fd : ℕ → Int
  /-- The field `events` of each cell. -/
  events : ℕ → Mask
  /-- The field `revents` of each cell. -/
  revents : ℕ → Mask
  /-- The number of cells in use. -/
  nfds : ℕ

namespace PollArray

/-- The array `main` starts with: all zero but for the listening socket. -/
def init (listenSd : ℕ) : PollArray where
  fd := Function.update (fun _ => 0) 0 (listenSd : Int)
  events := Function.update (fun _ => 0) 0 POLLIN
  revents := fun _ => 0
  nfds := 1

/-- An assignment to `fds[i].fd`. -/
def setFd (a : PollArray) (i : ℕ) (v : Int) : PollArray :=
  { a with fd := Function.update a.fd i v }

@[simp] theorem setFd_fd (a : PollArray) (i : ℕ) (v : Int) :
    (a.setFd i v).fd = Function.update a.fd i v := rfl
@[simp] theorem setFd_revents (a : PollArray) (i : ℕ) (v : Int) :
    (a.setFd i v).revents = a.revents := rfl
@[simp] theorem setFd_nfds (a : PollArray) (i : ℕ) (v : Int) : (a.setFd i v).nfds = a.nfds := rfl

/-- The compaction loop, the same at both of its places: every `-1` and `-2`
below `nfds` is removed by shifting the descriptors behind it. -/
def compact (a : PollArray) : PollArray :=
  { a with fd := (removeFrom Unused a.fd 0 a.nfds).1, nfds := (removeFrom Unused a.fd 0 a.nfds).2 }

@[simp] theorem compact_fd (a : PollArray) :
    a.compact.fd = (removeFrom Unused a.fd 0 a.nfds).1 := rfl
@[simp] theorem compact_revents (a : PollArray) : a.compact.revents = a.revents := rfl
@[simp] theorem compact_nfds (a : PollArray) :
    a.compact.nfds = (removeFrom Unused a.fd 0 a.nfds).2 := rfl

theorem compact_squeeze (a : PollArray) :
    ∃ src, Squeeze Unused a.fd a.nfds a.compact.fd a.compact.nfds src :=
  removeFrom_squeeze a.fd a.nfds

theorem compact_nfds_le (a : PollArray) : a.compact.nfds ≤ a.nfds :=
  removeFrom_length_le _ _ _

/-- An accepted socket is appended to the array. -/
def push (a : PollArray) (newSd : ℕ) : PollArray where
  fd := Function.update a.fd a.nfds newSd
  events := Function.update a.events a.nfds POLLIN
  revents := a.revents
  nfds := a.nfds + 1

@[simp] theorem push_fd (a : PollArray) (newSd : ℕ) :
    (a.push newSd).fd = Function.update a.fd a.nfds (newSd : Int) := rfl
@[simp] theorem push_revents (a : PollArray) (newSd : ℕ) :
    (a.push newSd).revents = a.revents := rfl
@[simp] theorem push_nfds (a : PollArray) (newSd : ℕ) : (a.push newSd).nfds = a.nfds + 1 := rfl

/-- The branch of a hang-up at index `i`, after `close(fds[i].fd)`: the cell is
given up and the array compacted. -/
def hangUp (a : PollArray) (i : ℕ) : PollArray := (a.setFd i (-1)).compact

@[simp] theorem hangUp_revents (a : PollArray) (i : ℕ) : (a.hangUp i).revents = a.revents := rfl

theorem hangUp_nfds_le (a : PollArray) (i : ℕ) : (a.hangUp i).nfds ≤ a.nfds :=
  compact_nfds_le _

/-- The number of cells below `nfds` with an event: what `poll` returns. -/
def ready (a : PollArray) : ℕ := (List.range a.nfds).countP fun i => a.revents i ≠ 0

end PollArray

/-- What the scan of `main` does with a cell. -/
inductive Verdict
  /-- `revents == 0`. -/
  | skip
  /-- Something else than `POLLIN`, with the bit `POLLHUP`. -/
  | hangUp
  /-- Something else than `POLLIN`, without the bit. -/
  | unexpected
  /-- `POLLIN` at the listening socket. -/
  | listening
  /-- `POLLIN` at an accepted socket. -/
  | readable
deriving DecidableEq, Repr

/-- The tests that the scan makes at index `i`. -/
def verdict (listenSd : ℕ) (a : PollArray) (i : ℕ) : Verdict :=
  if a.revents i = 0 then .skip
  else if a.revents i ≠ POLLIN then
    if HungUp (a.revents i) then .hangUp else .unexpected
  else if a.fd i = listenSd then .listening
  else .readable

section Verdict

variable {listenSd : ℕ} {a : PollArray} {i : ℕ}

theorem verdict_skip_iff : verdict listenSd a i = .skip ↔ a.revents i = 0 := by
  rw [verdict]
  split_ifs <;> simp_all

theorem verdict_hangUp_iff :
    verdict listenSd a i = .hangUp ↔ HungUp (a.revents i) := by
  rw [verdict]
  split_ifs with h0 h1 h2 h3
  · simp [h0, not_hungUp_zero]
  · simp [h2]
  · simp [h2]
  · simp [not_not.1 h1, not_hungUp_POLLIN]
  · simp [not_not.1 h1, not_hungUp_POLLIN]

theorem verdict_listening_iff :
    verdict listenSd a i = .listening ↔ a.revents i = POLLIN ∧ a.fd i = listenSd := by
  rw [verdict]
  split_ifs <;> simp_all [zero_ne_POLLIN]

theorem verdict_readable_iff :
    verdict listenSd a i = .readable ↔ a.revents i = POLLIN ∧ a.fd i ≠ listenSd := by
  rw [verdict]
  split_ifs <;> simp_all [zero_ne_POLLIN]

theorem verdict_unexpected_iff :
    verdict listenSd a i = .unexpected ↔
      a.revents i ≠ 0 ∧ a.revents i ≠ POLLIN ∧ ¬ HungUp (a.revents i) := by
  rw [verdict]
  split_ifs <;> simp_all

end Verdict

end PotHub.Server
