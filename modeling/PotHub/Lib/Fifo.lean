import PotHub.Lib.Refinement

/-!
# Queues

A queue of bounded capacity, first in and first out, with the history of what
has been put in and taken out; and a register that is written through a queue,
with the value that it takes once everything in the queue is delivered.
-/

namespace PotHub.Lib

universe u

/-- A queue with its history. -/
structure Fifo (α : Type u) where
  /-- What is in the queue, the next to go in front. -/
  content : List α
  /-- What has been added, in order. -/
  added : List α
  /-- What has been removed, in order. -/
  removed : List α

/-- The operations on a queue. -/
inductive FifoOp (α : Type u)
  | add (a : α)
  | remove

namespace Fifo

variable {α : Type u}

/-- The queue of capacity `n`: nothing is added to a full queue or removed from
an empty one. -/
def machine (α : Type u) (n : ℕ) : Machine (Fifo α) (FifoOp α) where
  init := ⟨[], [], []⟩
  step
    | ⟨content, added, removed⟩, .add a =>
        if content.length < n then some ⟨content ++ [a], added ++ [a], removed⟩ else none
    | ⟨a :: content, added, removed⟩, .remove => some ⟨content, added, removed ++ [a]⟩
    | ⟨[], _, _⟩, .remove => none

/-- The queue is within its capacity, and it holds what has been added and not
yet removed, in order. -/
structure Ordered (n : ℕ) (q : Fifo α) : Prop where
  length_le : q.content.length ≤ n
  history : q.removed ++ q.content = q.added

variable {n : ℕ} {q q' : Fifo α}

theorem Ordered.step {op : FifoOp α} (h : q.Ordered n)
    (hstep : (machine α n).step q op = some q') : q'.Ordered n := by
  obtain ⟨content, added, removed⟩ := q
  obtain ⟨hle, hhist⟩ := h
  match op, content with
  | .add a, content =>
      simp only [machine, Option.ite_none_right_eq_some, Option.some.injEq] at hstep
      obtain ⟨hlt, rfl⟩ := hstep
      have hadded : removed ++ content = added := hhist
      refine ⟨?_, ?_⟩
      · show (content ++ [a]).length ≤ n
        rw [List.length_append]
        exact hlt
      · show removed ++ (content ++ [a]) = added ++ [a]
        rw [← List.append_assoc, hadded]
  | .remove, [] => simp [machine] at hstep
  | .remove, a :: content =>
      simp only [machine, Option.some.injEq] at hstep
      subst hstep
      have hadded : removed ++ a :: content = added := hhist
      refine ⟨Nat.le_of_succ_le hle, ?_⟩
      show removed ++ [a] ++ content = added
      rw [← hadded, List.append_assoc, List.singleton_append]

/-- Nothing is lost, duplicated or reordered. -/
theorem ordered_of_reach (h : (machine α n).Reach Machine.anyStep q) : q.Ordered n :=
  h.invariant (I := Ordered n) ⟨Nat.zero_le _, rfl⟩ fun _ _ _ _ _ hI hstep => hI.step hstep

end Fifo

/-! ## Deferred writes -/

/-- A register with the writes that are still to be delivered, the next one in
front. -/
structure Deferred (α : Type u) where
  value : α
  pending : List α

namespace Deferred

variable {α : Type u} {d d' : Deferred α}

def write (d : Deferred α) (a : α) : Deferred α := { d with pending := d.pending ++ [a] }

def deliver : Deferred α → Option (Deferred α)
  | ⟨_, []⟩ => none
  | ⟨_, a :: pending⟩ => some ⟨a, pending⟩

/-- The value once everything is delivered. -/
def eventual (d : Deferred α) : α := d.pending.getLastD d.value

theorem eventual_of_settled (h : d.pending = []) : d.eventual = d.value := by
  rw [eventual, h, List.getLastD_nil]

/-- The last write decides. -/
theorem eventual_write (d : Deferred α) (a : α) : (d.write a).eventual = a := by
  show (d.pending ++ [a]).getLastD d.value = a
  rw [List.getLastD_concat]

/-- A delivery changes nothing in the end. -/
theorem eventual_deliver (h : d.deliver = some d') : d'.eventual = d.eventual := by
  obtain ⟨value, pending⟩ := d
  cases pending with
  | nil => cases h
  | cons a pending =>
      cases h
      show pending.getLastD a = (a :: pending).getLastD value
      rw [List.getLastD_cons]

end Deferred

end PotHub.Lib
