import Mathlib.Algebra.BigOperators.Group.Finset.Piecewise
import Mathlib.Data.Fintype.Card
import Mathlib.Tactic.Common

/-!
# Values held at places

A family of places, each of which holds at most one value.  A value is held
once when no two places hold it.  Steps of a system move values between places;
being held once is carried along any such move that merges no two holders.

Where there are finitely many places, those whose value is of some kind can be
counted.
-/

namespace PotHub.Lib

universe u v w

variable {P : Type u} {Q : Type v} {V : Type w}

/-- No two places hold the value. -/
def HeldOnce (held : P → Option V) (v : V) : Prop :=
  ∀ p q, held p = some v → held q = some v → p = q

variable {held : P → Option V} {held' : Q → Option V} {v : V}

theorem HeldOnce.of_not_held (h : ∀ p, held p ≠ some v) : HeldOnce held v :=
  fun p _ hp _ => absurd hp (h p)

theorem HeldOnce.of_unique (p₀ : P) (h : ∀ p, held p = some v → p = p₀) : HeldOnce held v :=
  fun p q hp hq => (h p hp).trans (h q hq).symm

/-- Holders that come from different holders are different. -/
theorem HeldOnce.of_map (h : HeldOnce held v) (f : Q → P)
    (hf : ∀ q, held' q = some v → held (f q) = some v)
    (hinj : ∀ q r, held' q = some v → held' r = some v → f q = f r → q = r) :
    HeldOnce held' v :=
  fun q r hq hr => hinj q r hq hr (h _ _ (hf q hq) (hf r hr))

section Counting

variable [Fintype P] [DecidableEq P] (kind : V → Prop) [DecidablePred kind]

/-- The number of places whose value is of the kind. -/
def numberOf (f : P → V) : ℕ := (Finset.univ.filter fun p => kind (f p)).card

/-- A change at one place changes the number by at most that place. -/
theorem numberOf_update (f : P → V) (p : P) (v : V) :
    (numberOf kind (Function.update f p v) : Int) =
      numberOf kind f - (if kind (f p) then 1 else 0) + if kind v then 1 else 0 := by
  have hsplit : ∀ g : P → V, numberOf kind g =
      (if kind (g p) then 1 else 0) +
        ∑ q ∈ Finset.univ.erase p, if kind (g q) then 1 else 0 := by
    intro g
    rw [numberOf, Finset.card_filter,
      Finset.add_sum_erase _ (fun q => if kind (g q) then 1 else 0) (Finset.mem_univ p)]
  have hrest : ∑ q ∈ Finset.univ.erase p, (if kind (Function.update f p v q) then 1 else 0) =
      ∑ q ∈ Finset.univ.erase p, if kind (f q) then 1 else 0 := by
    refine Finset.sum_congr rfl fun q hq => ?_
    rw [Function.update_of_ne (Finset.ne_of_mem_erase hq)]
  rw [hsplit, hsplit f, hrest, Function.update_self]
  split_ifs <;> push_cast <;> omega

end Counting

end PotHub.Lib
