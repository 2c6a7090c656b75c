import Mathlib.Tactic.Common

/-!
# Runs of a machine with partial steps

A machine has one initial state and a partial step function: a label says who
moves and what the environment answers, and the step is undefined when the
move is not possible in the state.  A run may further be restricted by a guard
on the state and the label, such as an assumption on the environment or a
condition under which a property is claimed.

The invariant rule is stated once, for guarded runs.  `tryRun` executes a list
of labels and checks the guard on the way, so that a concrete run is a
computation.
-/

namespace PotHub.Lib

universe u v

/-- A machine: an initial state and a partial step function. -/
structure Machine (σ : Type u) (ℓ : Type v) where
  /-- The initial state. -/
  init : σ
  /-- The step taken under a label, if the label is possible in the state. -/
  step : σ → ℓ → Option σ

namespace Machine

variable {σ : Type u} {ℓ : Type v} (M : Machine σ ℓ)

/-- The states reached by the runs of `M` all of whose steps satisfy the
guard. -/
inductive Reach (guard : σ → ℓ → Prop) : σ → Prop
  /-- The empty run. -/
  | init : Reach guard M.init
  /-- One more step. -/
  | step {s s' : σ} {l : ℓ} : Reach guard s → guard s l → M.step s l = some s' → Reach guard s'

variable {M} {guard guard' : σ → ℓ → Prop}

/-- A run under a guard is a run under any weaker one. -/
theorem Reach.mono (h : ∀ s l, guard s l → guard' s l) {s : σ} (hs : M.Reach guard s) :
    M.Reach guard' s := by
  induction hs with
  | init => exact .init
  | step _ hg hstep ih => exact .step ih (h _ _ hg) hstep

/-- The invariant rule.  The step case may use that its state is reached, so
invariants proved before are at hand. -/
theorem Reach.invariant {I : σ → Prop} (hinit : I M.init)
    (hstep : ∀ s l s', M.Reach guard s → guard s l → I s → M.step s l = some s' → I s')
    {s : σ} (hs : M.Reach guard s) : I s := by
  induction hs with
  | init => exact hinit
  | step hr hg hst ih => exact hstep _ _ _ hr hg ih hst

variable (M) in
/-- Steps with labels of one kind lead from the first state to the second. -/
inductive Path (kind : ℓ → Prop) : σ → σ → Prop
  /-- No step. -/
  | refl (s : σ) : Path kind s s
  /-- One step in front. -/
  | head {s s' s'' : σ} {l : ℓ} : kind l → M.step s l = some s' → Path kind s' s'' → Path kind s s''

theorem Path.trans {kind : ℓ → Prop} {s s' s'' : σ} (h : M.Path kind s s')
    (h' : M.Path kind s' s'') : M.Path kind s s'' := by
  induction h with
  | refl s => exact h'
  | head hl hstep _ ih => exact .head hl hstep (ih h')

variable (M) (guard) [∀ s l, Decidable (guard s l)]

/-- Run a list of labels, giving up at a label that the guard forbids or that
is not possible. -/
def tryRun : σ → List ℓ → Option σ
  | s, [] => some s
  | s, l :: ls => if guard s l then (M.step s l).bind fun s' => tryRun s' ls else none

variable {M} {guard}

/-- What `tryRun` computes from a reached state is reached. -/
theorem Reach.tryRun {ls : List ℓ} {s s' : σ} (hs : M.Reach guard s)
    (h : M.tryRun guard s ls = some s') : M.Reach guard s' := by
  induction ls generalizing s with
  | nil =>
      simp only [Machine.tryRun, Option.some.injEq] at h
      exact h ▸ hs
  | cons l ls ih =>
      by_cases hg : guard s l
      · simp only [Machine.tryRun, if_pos hg, Option.bind_eq_some_iff] at h
        obtain ⟨s₁, hs₁, hrest⟩ := h
        exact ih (hs.step hg hs₁) hrest
      · simp [Machine.tryRun, hg] at h

/-- A run that can be computed reaches a state with the property computed of
its end. -/
theorem exists_reach_of_tryRun {P : σ → Prop} [DecidablePred P] (ls : List ℓ)
    (h : (M.tryRun guard M.init ls).any (P ·) = true) : ∃ s, M.Reach guard s ∧ P s := by
  obtain ⟨s, hs, hP⟩ := (Option.any_eq_true _ _).1 h
  exact ⟨s, Reach.init.tryRun hs, of_decide_eq_true hP⟩

end Machine

end PotHub.Lib
