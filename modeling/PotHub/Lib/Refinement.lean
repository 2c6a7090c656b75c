import PotHub.Lib.Runs

/-!
# Refinement of machines

A machine `M` refines a machine `N` through a relation between their states
when every step of `M` is matched by one step of `N`, or by none.  Then
whatever `M` reaches is related to something that `N` reaches, so that the
invariants of `N` can be read in the states of `M`.
-/

namespace PotHub.Lib.Machine

universe u v w

variable {σ τ υ : Type u} {ℓ κ μ : Type v}

/-- A step that is always allowed. -/
def anyStep (_ : σ) (_ : ℓ) : Prop := True

instance (s : σ) (l : ℓ) : Decidable (anyStep s l) := inferInstanceAs (Decidable True)

/-- The steps of `M` are steps of `N`, or pauses, through the relation `R`. -/
structure Refines (M : Machine σ ℓ) (N : Machine τ κ) (R : σ → τ → Prop) : Prop where
  /-- The initial states are related. -/
  init : R M.init N.init
  /-- A step is matched by a pause or by a step. -/
  step : ∀ {s s' : σ} {t : τ} {l : ℓ}, R s t → M.step s l = some s' →
    R s' t ∨ ∃ k t', N.step t k = some t' ∧ R s' t'

namespace Refines

variable {M : Machine σ ℓ} {N : Machine τ κ} {K : Machine υ μ} {R : σ → τ → Prop}

/-- What `M` reaches is related to something that `N` reaches. -/
theorem reach (h : M.Refines N R) {guard : σ → ℓ → Prop} {s : σ} (hs : M.Reach guard s) :
    ∃ t, N.Reach anyStep t ∧ R s t := by
  induction hs with
  | init => exact ⟨N.init, .init, h.init⟩
  | step _ _ hstep ih =>
      obtain ⟨t, ht, hrel⟩ := ih
      rcases h.step hrel hstep with hrel' | ⟨k, t', hk, hrel'⟩
      · exact ⟨t, ht, hrel'⟩
      · exact ⟨t', ht.step trivial hk, hrel'⟩

/-- An invariant of `N`, read through the relation, is one of `M`. -/
theorem invariant (h : M.Refines N R) {guard : σ → ℓ → Prop} {I : τ → Prop}
    (hI : ∀ t, N.Reach anyStep t → I t) {s : σ} (hs : M.Reach guard s) :
    ∃ t, R s t ∧ I t := by
  obtain ⟨t, ht, hrel⟩ := h.reach hs
  exact ⟨t, hrel, hI t ht⟩

/-- Refinements compose. -/
theorem comp {S : τ → υ → Prop} (h : M.Refines N R) (h' : N.Refines K S) :
    M.Refines K fun s u => ∃ t, R s t ∧ S t u := by
  refine ⟨⟨N.init, h.init, h'.init⟩, ?_⟩
  rintro s s' u l ⟨t, hst, htu⟩ hstep
  rcases h.step hst hstep with hst' | ⟨k, t', hk, hst'⟩
  · exact Or.inl ⟨t, hst', htu⟩
  · rcases h'.step htu hk with htu' | ⟨j, u', hj, htu'⟩
    · exact Or.inl ⟨t', hst', htu'⟩
    · exact Or.inr ⟨j, u', hj, t', hst', htu'⟩

end Refines

end PotHub.Lib.Machine
