import Mathlib.Data.List.Nodup

/-!
# Ledgers

What a program has acquired and what it has released.  Every resource is to have
a name of its own, and then all is well when the two lists are the same up to
order; in general some resources are left, and a ledger of distinct resources is
settled exactly when it leaves nothing.
-/

namespace PotHub.Lib

universe u

/-- The resources acquired and those released, in order. -/
structure Ledger (ρ : Type u) where
  acquired : List ρ
  released : List ρ
deriving DecidableEq

namespace Ledger

variable {ρ : Type u}

/-- Nothing has been acquired. -/
def empty : Ledger ρ := ⟨[], []⟩

def acquire (l : Ledger ρ) (rs : List ρ) : Ledger ρ := { l with acquired := l.acquired ++ rs }

def release (l : Ledger ρ) (rs : List ρ) : Ledger ρ := { l with released := l.released ++ rs }

/-- One ledger behind another. -/
def append (k l : Ledger ρ) : Ledger ρ := ⟨k.acquired ++ l.acquired, k.released ++ l.released⟩

/-- Whatever has been acquired has been acquired once and released once, and
nothing else has been released. -/
def Settled (l : Ledger ρ) : Prop := l.acquired.Nodup ∧ l.released.Perm l.acquired

instance [DecidableEq ρ] (l : Ledger ρ) : Decidable l.Settled :=
  inferInstanceAs (Decidable (_ ∧ List.Perm _ _))

/-- Whatever has been acquired has been released, once, but for the resources
that are still held. -/
def Leaves (l : Ledger ρ) (held : List ρ) : Prop := (l.released ++ held).Perm l.acquired

variable {k l : Ledger ρ} {held held' rs : List ρ}

theorem leaves_empty : (empty : Ledger ρ).Leaves [] := List.Perm.refl []

theorem Leaves.perm (h : l.Leaves held) (hperm : held.Perm held') : l.Leaves held' :=
  (List.Perm.append_left _ hperm.symm).trans h

theorem Leaves.acquire (h : l.Leaves held) (rs : List ρ) : (l.acquire rs).Leaves (held ++ rs) := by
  show (l.released ++ (held ++ rs)).Perm (l.acquired ++ rs)
  rw [← List.append_assoc]
  exact h.append_right rs

theorem Leaves.release (h : l.Leaves (rs ++ held)) : (l.release rs).Leaves held := by
  show (l.released ++ rs ++ held).Perm l.acquired
  rw [List.append_assoc]
  exact h

/-- Release what is held, in whatever order. -/
theorem Leaves.release_perm (h : l.Leaves held) (hperm : held.Perm (rs ++ held')) :
    (l.release rs).Leaves held' := (h.perm hperm).release

theorem Leaves.append (hk : k.Leaves held) (hl : l.Leaves held') :
    (k.append l).Leaves (held ++ held') := by
  show (k.released ++ l.released ++ (held ++ held')).Perm (k.acquired ++ l.acquired)
  refine List.Perm.trans ?_ (List.Perm.append hk hl)
  rw [List.append_assoc, List.append_assoc, ← List.append_assoc l.released,
    ← List.append_assoc held]
  exact (List.perm_append_comm.append_right _).append_left _

/-- Of distinct resources, none is released twice. -/
theorem Leaves.nodup_released (h : l.Leaves held) (hnodup : l.acquired.Nodup) :
    l.released.Nodup := (h.nodup_iff.2 hnodup).of_append_left

/-- Only what has been acquired is released. -/
theorem Leaves.released_subset (h : l.Leaves held) : l.released ⊆ l.acquired :=
  fun _ hr => h.mem_iff.1 (List.mem_append_left _ hr)

/-- A settled ledger leaves nothing. -/
theorem Leaves.eq_nil (h : l.Leaves held) (hs : l.Settled) : held = [] := by
  have hlen := h.length_eq.trans hs.2.length_eq.symm
  rw [List.length_append] at hlen
  exact List.eq_nil_of_length_eq_zero (by omega)

theorem Leaves.settled_iff (h : l.Leaves held) (hnodup : l.acquired.Nodup) :
    l.Settled ↔ held = [] := by
  constructor
  · exact h.eq_nil
  · rintro rfl
    refine ⟨hnodup, ?_⟩
    simpa [Leaves] using h

end Ledger

end PotHub.Lib
