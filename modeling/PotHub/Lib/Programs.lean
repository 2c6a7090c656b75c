import Mathlib.Tactic.Common

/-!
# Programs that may stop

A program changes a state.  It runs to its end with a value, or it stops early
and leaves the state as it is then, as a C function does that returns false to
callers who do the same; or it does something that has no meaning, such as a
write outside of a block.

A triple rules out the last of the three.  It has a condition for the end, and
one for the states in which the program may stop.
-/

namespace PotHub.Lib

universe u

/-- How a program ends. -/
inductive Outcome (σ α : Type u)
  | done (value : α) (s : σ)
  | stopped (s : σ)
  | fault

/-- The program has run to its end with `Q`, or stopped with `R`. -/
def Outcome.Meets {σ α : Type u} (Q : α → σ → Prop) (R : σ → Prop) : Outcome σ α → Prop
  | .done a s => Q a s
  | .stopped s => R s
  | .fault => False

theorem Outcome.Meets.mono {σ α : Type u} {Q Q' : α → σ → Prop} {R R' : σ → Prop}
    {o : Outcome σ α} (h : o.Meets Q R) (hQ : ∀ a s, Q a s → Q' a s) (hR : ∀ s, R s → R' s) :
    o.Meets Q' R' := by
  cases o with
  | done a s => exact hQ a s h
  | stopped s => exact hR s h
  | fault => exact h

/-- A program over the states `σ`. -/
def Program (σ α : Type u) : Type u := σ → Outcome σ α

namespace Program

variable {σ α β : Type u}

instance : Monad (Program σ) where
  pure a := fun s => .done a s
  bind x f := fun s =>
    match x s with
    | .done a s => f a s
    | .stopped s => .stopped s
    | .fault => .fault

/-- A change of the state. -/
def modify (f : σ → σ) : Program σ PUnit := fun s => .done ⟨⟩ (f s)

/-- The state. -/
def get : Program σ σ := fun s => .done s s

/-- Nothing can be said of what it does. -/
def fault : Program σ α := fun _ => .fault

/-- From every state with `P`. -/
def Triple (P : σ → Prop) (x : Program σ α) (Q : α → σ → Prop) (R : σ → Prop) : Prop :=
  ∀ s, P s → (x s).Meets Q R

variable {P P' : σ → Prop} {Q Q' : α → σ → Prop} {R R' : σ → Prop} {x : Program σ α}

theorem Triple.pure {a : α} (h : ∀ s, P s → Q a s) : Triple P (Pure.pure a) Q R := h

theorem Triple.modify {Q : PUnit → σ → Prop} {f : σ → σ} (h : ∀ s, P s → Q ⟨⟩ (f s)) :
    Triple P (modify f) Q R := h

theorem Triple.get {Q : σ → σ → Prop} (h : ∀ s, P s → Q s s) : Triple P get Q R := h

/-- One program behind another. -/
theorem Triple.bind {f : α → Program σ β} {Q' : β → σ → Prop} (hx : Triple P x Q R)
    (hf : ∀ a, Triple (Q a) (f a) Q' R) : Triple P (x >>= f) Q' R := by
  intro s hs
  have h := hx s hs
  show Outcome.Meets Q' R (match x s with
    | .done a s => f a s
    | .stopped s => .stopped s
    | .fault => .fault)
  cases hrun : x s with
  | done a s' =>
      rw [hrun] at h
      exact hf a s' h
  | stopped s' =>
      rw [hrun] at h
      exact h
  | fault =>
      rw [hrun] at h
      exact h

theorem Triple.mono (hx : Triple P x Q R) (hP : ∀ s, P' s → P s) (hQ : ∀ a s, Q a s → Q' a s)
    (hR : ∀ s, R s → R' s) : Triple P' x Q' R' :=
  fun s hs => (hx s (hP s hs)).mono hQ hR

/-- A fact that the condition has besides the state. -/
theorem Triple.fact {p : Prop} (h : p → Triple P x Q R) : Triple (fun s => p ∧ P s) x Q R :=
  fun s hs => h hs.1 s hs.2

/-- A weaker condition for stopping. -/
theorem Triple.weaken (hx : Triple P x Q R) (hR : ∀ s, R s → R' s) : Triple P x Q R' :=
  hx.mono (fun _ h => h) (fun _ _ h => h) hR

end Program

end PotHub.Lib
