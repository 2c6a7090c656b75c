import PotHub.Server.MainLoop

/-!
# A batch of connections

The accept loop over a backlog of connections, and what is to become of each:
it finds a cell, or it is closed, and nothing that happens to it concerns the
others.

A connection for which `setsockopt` fails is closed, and then put in
non-blocking mode all the same.  For a descriptor that is closed this fails,
and a failure of `fcntl` takes the process down.
-/

namespace PotHub.Server

/-- A connection of the backlog, with what its two calls return. -/
structure Connection where
  newSd : ℕ
  /-- `setsockopt` succeeds. -/
  keepalive : Bool
  /-- `fcntl` succeeds. -/
  nonblock : Bool
  /-- `fcntl` fails for a descriptor that has been closed. -/
  nonblock_of_closed : keepalive = false → nonblock = false

namespace Connection

/-- What the accept loop sees of the connection. -/
def result (c : Connection) : AcceptResult := .accepted c.newSd c.keepalive c.nonblock

/-- Both calls succeed. -/
def SetUp (c : Connection) : Prop := c.keepalive = true ∧ c.nonblock = true

instance (c : Connection) : Decidable c.SetUp := inferInstanceAs (Decidable (_ ∧ _))

end Connection

/-- The accept loop on a backlog, behind which `accept` fails with
`EWOULDBLOCK`. -/
def acceptBatch (batch : List Connection) (a : PollArray) : AcceptStep :=
  acceptLoop (batch.map Connection.result) a

/-- The connections that the loop gets to. -/
def reached : List Connection → PollArray → List Connection
  | [], _ => []
  | c :: rest, a =>
      let s := acceptOne a c.result
      c :: if s.next = .again then reached rest s.array else []

/-- The descriptors to be stored and those to be closed, with room for so many
to be stored. -/
def settle : ℕ → List Connection → List ℕ × List ℕ
  | _, [] => ([], [])
  | room, c :: rest =>
      if c.SetUp ∧ 0 < room then
        let s := settle (room - 1) rest
        (c.newSd :: s.1, s.2)
      else
        let s := settle room rest
        (s.1, c.newSd :: s.2)

/-- The descriptors in the cells that the loop has appended. -/
def appended (batch : List Connection) (a : PollArray) : List Int :=
  (List.range' a.nfds ((acceptBatch batch a).array.nfds - a.nfds)).map
    (acceptBatch batch a).array.fd

/-- The connections of a batch are separate. -/
structure Separate (a : PollArray) (batch : List Connection) : Prop where
  /-- Failures of `setsockopt` alone do not end the process. -/
  survives : (∀ c ∈ reached batch a, c.keepalive = true → c.nonblock = true) →
    (acceptBatch batch a).next ≠ .exit
  /-- Just the connections that are set up and find room are stored, in order. -/
  stored : appended batch a =
    (settle (MAX_CONNECTIONS - a.nfds) (reached batch a)).1.map Int.ofNat
  /-- All others are closed, each once. -/
  closed : (acceptBatch batch a).closed =
    (settle (MAX_CONNECTIONS - a.nfds) (reached batch a)).2

section Batch

variable {a : PollArray} {c : Connection} {batch : List Connection}

theorem Connection.result_of_setUp (h : c.SetUp) : c.result = .accepted c.newSd true true := by
  rw [result, h.1, h.2]

theorem acceptBatch_cons_of_room (h : c.SetUp) (hroom : a.nfds ≠ MAX_CONNECTIONS) :
    acceptBatch (c :: batch) a = acceptBatch batch (a.push c.newSd) := by
  simp [acceptBatch, acceptLoop, Connection.result_of_setUp h, acceptOne_accepted hroom]

theorem reached_cons_of_room (h : c.SetUp) (hroom : a.nfds ≠ MAX_CONNECTIONS) :
    reached (c :: batch) a = c :: reached batch (a.push c.newSd) := by
  simp [reached, Connection.result_of_setUp h, acceptOne_accepted hroom]

theorem acceptBatch_cons_of_full (h : c.SetUp) (hfull : a.nfds = MAX_CONNECTIONS) :
    acceptBatch (c :: batch) a = ⟨a, [c.newSd], .leave, false⟩ := by
  simp [acceptBatch, acceptLoop, Connection.result_of_setUp h, acceptOne_full hfull]

theorem reached_cons_of_full (h : c.SetUp) (hfull : a.nfds = MAX_CONNECTIONS) :
    reached (c :: batch) a = [c] := by
  simp [reached, Connection.result_of_setUp h, acceptOne_full hfull]

/-- A connection that is not set up is the last one. -/
theorem acceptOne_of_not_setUp (h : ¬ c.SetUp) : acceptOne a c.result =
    ⟨a, if c.keepalive then [] else [c.newSd], .exit, false⟩ := by
  have hblock : c.nonblock = false := by
    cases hk : c.keepalive with
    | false => exact c.nonblock_of_closed hk
    | true => simpa [Connection.SetUp, hk] using h
  simp [Connection.result, acceptOne, hblock]

theorem appended_cons_of_room (h : c.SetUp) (hroom : a.nfds ≠ MAX_CONNECTIONS) :
    appended (c :: batch) a = (c.newSd : Int) :: appended batch (a.push c.newSd) := by
  obtain ⟨-, hge, hfd⟩ := acceptLoop_frame (batch.map Connection.result) (a.push c.newSd)
  have hlt : a.nfds < (acceptBatch batch (a.push c.newSd)).array.nfds := hge
  have hnew : (acceptBatch batch (a.push c.newSd)).array.fd a.nfds = (c.newSd : Int) := by
    refine (hfd a.nfds (Nat.lt_succ_self _)).trans ?_
    rw [PollArray.push_fd, Function.update_self]
  rw [appended, acceptBatch_cons_of_room h hroom, Lib.range'_eq_cons hlt, List.map_cons, hnew,
    appended, PollArray.push_nfds]

/-- A connection that finds room does not bear on the rest. -/
theorem separate_cons_iff (h : c.SetUp) (hroom : a.nfds < MAX_CONNECTIONS) :
    Separate a (c :: batch) ↔ Separate (a.push c.newSd) batch := by
  have hne := hroom.ne
  have hsub : MAX_CONNECTIONS - (a.push c.newSd).nfds = MAX_CONNECTIONS - a.nfds - 1 := by
    rw [PollArray.push_nfds]
    omega
  have hsettle : settle (MAX_CONNECTIONS - a.nfds) (c :: reached batch (a.push c.newSd)) =
      (c.newSd :: (settle (MAX_CONNECTIONS - (a.push c.newSd).nfds)
          (reached batch (a.push c.newSd))).1,
        (settle (MAX_CONNECTIONS - (a.push c.newSd).nfds)
          (reached batch (a.push c.newSd))).2) := by
    rw [settle, if_pos ⟨h, by omega⟩, hsub]
  constructor
  · rintro ⟨hsurv, hstored, hclosed⟩
    rw [reached_cons_of_room h hne] at hsurv hstored hclosed
    rw [acceptBatch_cons_of_room h hne] at hsurv hclosed
    rw [hsettle] at hstored hclosed
    rw [appended_cons_of_room h hne, List.map_cons] at hstored
    exact ⟨fun hok => hsurv (List.forall_mem_cons.2 ⟨fun _ => h.2, hok⟩),
      (List.cons.inj hstored).2, hclosed⟩
  · rintro ⟨hsurv, hstored, hclosed⟩
    refine ⟨?_, ?_, ?_⟩
    · intro hok
      rw [reached_cons_of_room h hne] at hok
      rw [acceptBatch_cons_of_room h hne]
      exact hsurv (List.forall_mem_cons.1 hok).2
    · rw [appended_cons_of_room h hne, reached_cons_of_room h hne, hsettle, hstored]
      rfl
    · rw [acceptBatch_cons_of_room h hne, reached_cons_of_room h hne, hsettle, hclosed]

theorem separate_nil : Separate a [] where
  survives _ := by simp [acceptBatch, acceptLoop, acceptOne]
  stored := by simp [appended, acceptBatch, acceptLoop, acceptOne, reached, settle]
  closed := rfl

/-- Behind a full array one more connection is closed, and the loop is left. -/
theorem separate_of_full (h : c.SetUp) (hfull : a.nfds = MAX_CONNECTIONS) :
    Separate a (c :: batch) where
  survives _ := by simp [acceptBatch_cons_of_full h hfull]
  stored := by
    simp [appended, acceptBatch_cons_of_full h hfull, reached_cons_of_full h hfull, settle, hfull]
  closed := by
    simp [acceptBatch_cons_of_full h hfull, reached_cons_of_full h hfull, settle, hfull]

/-- A connection that is not set up ends the process, and closed or not, that is
not what is to become of it. -/
theorem not_separate_of_not_setUp (h : ¬ c.SetUp) : ¬ Separate a (c :: batch) := by
  have hreached : reached (c :: batch) a = [c] := by
    simp [reached, acceptOne_of_not_setUp h]
  have hbatch : acceptBatch (c :: batch) a =
      ⟨a, if c.keepalive then [] else [c.newSd], .exit, false⟩ := by
    simp [acceptBatch, acceptLoop, acceptOne_of_not_setUp h]
  rintro ⟨hsurv, -, hclosed⟩
  cases hk : c.keepalive with
  | false =>
      refine hsurv ?_ (by rw [hbatch])
      intro d hd hd'
      rw [hreached, List.mem_singleton] at hd
      rw [hd, hk] at hd'
      cases hd'
  | true => simp [hbatch, hreached, hk, settle, h] at hclosed

end Batch

/-- **One connection at a time.**  The connections of a batch are separate
exactly when both calls succeed for all those that find room, and for the one
behind them that finds none. -/
theorem separate_iff {a : PollArray} (hle : a.nfds ≤ MAX_CONNECTIONS) (batch : List Connection) :
    Separate a batch ↔ ∀ c ∈ batch.take (MAX_CONNECTIONS - a.nfds + 1), c.SetUp := by
  induction batch generalizing a with
  | nil => simp [separate_nil]
  | cons c batch ih =>
      rw [List.take_succ_cons, List.forall_mem_cons]
      by_cases h : c.SetUp
      · rcases hle.eq_or_lt with hfull | hroom
        · simp [separate_of_full h hfull, h, hfull]
        · have hsub : MAX_CONNECTIONS - (a.push c.newSd).nfds + 1 = MAX_CONNECTIONS - a.nfds := by
            rw [PollArray.push_nfds]
            omega
          rw [separate_cons_iff h hroom, ih (a := a.push c.newSd) hroom, hsub]
          exact (and_iff_right h).symm
      · exact iff_of_false (not_separate_of_not_setUp h) fun hall => h hall.1

/-- Three connections, and `setsockopt` fails for the first. -/
def firstFails : List Connection :=
  [⟨5, false, false, fun _ => rfl⟩, ⟨6, true, true, by decide⟩, ⟨7, true, true, by decide⟩]

theorem not_separate_of_firstFails : (∀ c ∈ firstFails, c.keepalive = true → c.nonblock = true) ∧
    (acceptBatch firstFails (.init 3)).next = .exit ∧ ¬ Separate (.init 3) firstFails :=
  ⟨by decide, by decide, not_separate_of_not_setUp (by decide)⟩

theorem separate_of_two : appended firstFails.tail (.init 3) = [6, 7] ∧
    Separate (.init 3) firstFails.tail := by
  refine ⟨by decide +kernel, (separate_iff ?_ _).2 ?_⟩ <;> decide +kernel

end PotHub.Server
