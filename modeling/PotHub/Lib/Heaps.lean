import Mathlib.Algebra.Order.Quantale
import Mathlib.Data.Finset.Card
import Mathlib.Data.Set.Lattice
import Mathlib.Order.CompletePartialOrder
import PotHub.Lib.Programs

/-!
# Programs on a heap

Assertions on pieces of a heap, with the separating conjunction as their product:
they are a commutative monoid and a quantale, so that the order is entailment, a
supremum is an existential quantifier, and the product distributes over it.

A heap hands out a new address at every allocation.  So an access to a block that
has been freed is a fault, and so is freeing it once more.  A triple of a program
is about the piece of the heap that the program is given; the rest of the heap is
as it was, whatever it is (`Triple.frame`).
-/

namespace PotHub.Lib

/-- A piece of a heap: what lies at which address. -/
def Heaplet (β : Type) : Type := ℕ → Option β

namespace Heaplet

variable {β : Type} {h h₁ h₂ h₃ : Heaplet β}

/-- There is nothing. -/
def empty : Heaplet β := fun _ => none

/-- One block. -/
def single (a : ℕ) (b : β) : Heaplet β := fun x => if x = a then some b else none

/-- Two pieces together. -/
def union (h₁ h₂ : Heaplet β) : Heaplet β := fun x => (h₁ x).or (h₂ x)

/-- No address is in both pieces. -/
def Disjoint (h₁ h₂ : Heaplet β) : Prop := ∀ a, h₁ a = none ∨ h₂ a = none

@[ext]
theorem ext (h : ∀ a, h₁ a = h₂ a) : h₁ = h₂ := funext h

theorem Disjoint.symm (h : h₁.Disjoint h₂) : h₂.Disjoint h₁ := fun a => (h a).symm

theorem disjoint_empty (h : Heaplet β) : h.Disjoint empty := fun _ => .inr rfl

theorem union_empty (h : Heaplet β) : h.union empty = h := by
  ext a
  simp [union, empty]

theorem union_comm (h : h₁.Disjoint h₂) : h₁.union h₂ = h₂.union h₁ := by
  ext a
  rcases h a with h | h <;> simp [union, h]

theorem union_assoc (h₁ h₂ h₃ : Heaplet β) :
    (h₁.union h₂).union h₃ = h₁.union (h₂.union h₃) := by
  ext a
  simp [union, Option.or_assoc]

theorem disjoint_union_left :
    (h₁.union h₂).Disjoint h₃ ↔ h₁.Disjoint h₃ ∧ h₂.Disjoint h₃ := by
  constructor
  · intro h
    constructor <;> intro a <;> rcases h a with h | h <;> simp_all [union]
  · rintro ⟨h₁₃, h₂₃⟩ a
    rcases h₁₃ a with h | h <;> rcases h₂₃ a with h' | h' <;> simp [union, h, h']

theorem disjoint_union_right :
    h₁.Disjoint (h₂.union h₃) ↔ h₁.Disjoint h₂ ∧ h₁.Disjoint h₃ := by
  constructor
  · intro h
    obtain ⟨h₂₁, h₃₁⟩ := disjoint_union_left.1 h.symm
    exact ⟨h₂₁.symm, h₃₁.symm⟩
  · rintro ⟨h₁₂, h₁₃⟩
    exact (disjoint_union_left.2 ⟨h₁₂.symm, h₁₃.symm⟩).symm

end Heaplet

/-! ## Assertions -/

/-- An assertion on a piece of a heap. -/
def Assn (β : Type) : Type := Set (Heaplet β)

namespace Assn

variable {β : Type}

instance : CompleteLattice (Assn β) := inferInstanceAs (CompleteLattice (Set (Heaplet β)))

instance : Membership (Heaplet β) (Assn β) :=
  inferInstanceAs (Membership (Heaplet β) (Set (Heaplet β)))

variable {P Q R : Assn β} {h : Heaplet β}

theorem le_iff : P ≤ Q ↔ ∀ h ∈ P, h ∈ Q := Iff.rfl

theorem mem_iSup {ι : Sort*} {P : ι → Assn β} : h ∈ ⨆ i, P i ↔ ∃ i, h ∈ P i := Set.mem_iUnion

/-- The piece falls into two, one for each of the assertions. -/
def sep (P Q : Assn β) : Assn β :=
  {h : Heaplet β | ∃ h₁ ∈ P, ∃ h₂ ∈ Q, h₁.Disjoint h₂ ∧ h = h₁.union h₂}

/-- A fact about no piece at all. -/
def fact (p : Prop) : Assn β := {h : Heaplet β | p ∧ h = .empty}

/-- One block. -/
def pointsTo (a : ℕ) (b : β) : Assn β := {h : Heaplet β | h = .single a b}

theorem sep_comm (P Q : Assn β) : sep P Q = sep Q P := by
  have hle : ∀ P Q : Assn β, sep P Q ≤ sep Q P := by
    rintro P Q _ ⟨h₁, hP, h₂, hQ, hdisjoint, rfl⟩
    exact ⟨h₂, hQ, h₁, hP, hdisjoint.symm, Heaplet.union_comm hdisjoint⟩
  exact le_antisymm (hle P Q) (hle Q P)

theorem sep_assoc_le (P Q R : Assn β) : sep (sep P Q) R ≤ sep P (sep Q R) := by
  rintro _ ⟨_, ⟨h₁, hP, h₂, hQ, h₁₂, rfl⟩, h₃, hR, h₁₂₃, rfl⟩
  obtain ⟨h₁₃, h₂₃⟩ := Heaplet.disjoint_union_left.1 h₁₂₃
  exact ⟨h₁, hP, h₂.union h₃, ⟨h₂, hQ, h₃, hR, h₂₃, rfl⟩,
    Heaplet.disjoint_union_right.2 ⟨h₁₂, h₁₃⟩, Heaplet.union_assoc h₁ h₂ h₃⟩

theorem sep_assoc (P Q R : Assn β) : sep (sep P Q) R = sep P (sep Q R) := by
  refine le_antisymm (sep_assoc_le P Q R) ?_
  rw [sep_comm P, sep_comm Q, sep_comm (sep P Q), sep_comm P]
  exact sep_assoc_le R Q P

theorem fact_sep (p : Prop) (P : Assn β) : h ∈ sep (fact p) P ↔ p ∧ h ∈ P := by
  constructor
  · rintro ⟨_, ⟨hp, rfl⟩, h, hP, hdisjoint, rfl⟩
    rw [Heaplet.union_comm hdisjoint, Heaplet.union_empty]
    exact ⟨hp, hP⟩
  · rintro ⟨hp, hP⟩
    refine ⟨.empty, ⟨hp, rfl⟩, h, hP, (Heaplet.disjoint_empty h).symm, ?_⟩
    rw [Heaplet.union_comm (Heaplet.disjoint_empty h).symm, Heaplet.union_empty]

theorem one_sep (P : Assn β) : sep (fact True) P = P := by
  refine le_antisymm (fun h hP => ((fact_sep True P).1 hP).2) fun h hP => ?_
  exact (fact_sep True P).2 ⟨trivial, hP⟩

instance : CommMonoid (Assn β) where
  mul := sep
  mul_assoc := sep_assoc
  one := fact True
  one_mul := one_sep
  mul_one P := (sep_comm P _).trans (one_sep P)
  mul_comm := sep_comm

theorem mem_one : h ∈ (1 : Assn β) ↔ h = .empty := by
  show True ∧ h = .empty ↔ _
  rw [true_and]

theorem mem_fact_mul {p : Prop} : h ∈ fact p * P ↔ p ∧ h ∈ P := fact_sep p P

theorem sSup_sep (S : Set (Assn β)) (Q : Assn β) : sSup S * Q = ⨆ P ∈ S, P * Q := by
  refine le_antisymm ?_ (iSup₂_le fun P hP => ?_)
  · rintro _ ⟨h₁, ⟨P, hP, h₁P⟩, h₂, hQ, hdisjoint, rfl⟩
    exact mem_iSup.2 ⟨P, mem_iSup.2 ⟨hP, h₁, h₁P, h₂, hQ, hdisjoint, rfl⟩⟩
  · rintro _ ⟨h₁, h₁P, h₂, hQ, hdisjoint, rfl⟩
    exact ⟨h₁, ⟨P, hP, h₁P⟩, h₂, hQ, hdisjoint, rfl⟩

instance : IsQuantale (Assn β) where
  sSup_mul_distrib := sSup_sep
  mul_sSup_distrib P S := by
    rw [mul_comm, sSup_sep]
    exact iSup_congr fun Q => iSup_congr fun _ => mul_comm Q P

theorem fact_mul_le {p : Prop} (h : p → P ≤ Q) : fact p * P ≤ Q := by
  intro x hx
  obtain ⟨hp, hP⟩ := mem_fact_mul.1 hx
  exact h hp hP

theorem le_fact_mul {p : Prop} (hp : p) (h : P ≤ Q) : P ≤ fact p * Q :=
  fun _ hx => mem_fact_mul.2 ⟨hp, h hx⟩

theorem fact_mul_fact (p q : Prop) : (fact p * fact q : Assn β) = fact (p ∧ q) := by
  refine le_antisymm (fact_mul_le fun hp x hx => ⟨⟨hp, hx.1⟩, hx.2⟩) fun x hx => ?_
  exact mem_fact_mul.2 ⟨hx.1.1, hx.1.2, hx.2⟩

theorem fact_mono {p q : Prop} (h : p → q) : (fact p : Assn β) ≤ fact q :=
  fun _ hx => ⟨h hx.1, hx.2⟩

theorem fact_mul_of {p : Prop} (hp : p) (P : Assn β) : fact p * P = P :=
  le_antisymm (fact_mul_le fun _ => le_rfl) (le_fact_mul hp le_rfl)

/-! ### Counting blocks -/

/-- There are so many blocks. -/
def AtLeast (n : ℕ) (P : Assn β) : Prop :=
  ∀ h ∈ P, ∃ S : Finset ℕ, S.card = n ∧ ∀ a ∈ S, h a ≠ none

variable {n k : ℕ}

theorem atLeast_zero (P : Assn β) : P.AtLeast 0 := fun _ _ => ⟨∅, rfl, by simp⟩

theorem atLeast_pointsTo (a : ℕ) (b : β) : (pointsTo a b).AtLeast 1 := by
  rintro _ rfl
  exact ⟨{a}, rfl, by simp [Heaplet.single]⟩

theorem AtLeast.mul (hP : P.AtLeast n) (hQ : Q.AtLeast k) : (P * Q).AtLeast (n + k) := by
  rintro _ ⟨h₁, h₁P, h₂, h₂Q, hdisjoint, rfl⟩
  obtain ⟨S, rfl, hS⟩ := hP h₁ h₁P
  obtain ⟨T, rfl, hT⟩ := hQ h₂ h₂Q
  refine ⟨S ∪ T, ?_, ?_⟩
  · refine Finset.card_union_of_disjoint (Finset.disjoint_left.2 fun a ha ha' => ?_)
    exact (hdisjoint a).elim (hS a ha) (hT a ha')
  · intro a ha
    rcases Finset.mem_union.1 ha with ha | ha
    · simp [Heaplet.union, hS a ha]
    · simp [Heaplet.union, hT a ha]

theorem AtLeast.iSup {ι : Sort*} {P : ι → Assn β} (h : ∀ i, (P i).AtLeast n) :
    (⨆ i, P i).AtLeast n := fun x hx =>
  let ⟨i, hi⟩ := mem_iSup.1 hx
  h i x hi

theorem AtLeast.fact {p : Prop} (h : p → P.AtLeast n) : (fact p * P).AtLeast n := fun x hx =>
  let ⟨hp, hP⟩ := mem_fact_mul.1 hx
  h hp x hP

/-! ### Two blocks -/

/-- There is a block at the address. -/
def Has (P : Assn β) (a : ℕ) : Prop := ∀ h ∈ P, h a ≠ none

theorem has_pointsTo (a : ℕ) (b : β) : (pointsTo a b).Has a := by
  rintro _ rfl
  simp [Heaplet.single]

theorem Has.mul {a : ℕ} (h : P.Has a) (Q : Assn β) : (P * Q).Has a := by
  rintro _ ⟨h₁, h₁P, h₂, -, -, rfl⟩ hnone
  exact h h₁ h₁P (Option.or_eq_none_iff.1 hnone).1

theorem Has.iSup {ι : Sort*} {P : ι → Assn β} {a : ℕ} (h : ∀ i, (P i).Has a) : (⨆ i, P i).Has a :=
  fun x hx =>
    let ⟨i, hi⟩ := mem_iSup.1 hx
    h i x hi

/-- Two blocks lie at two addresses. -/
theorem Has.mul_le {a b : ℕ} (hP : P.Has a) (hQ : Q.Has b) : P * Q ≤ fact (a ≠ b) * (P * Q) := by
  rintro x ⟨h₁, h₁P, h₂, h₂Q, hdisjoint, rfl⟩
  refine mem_fact_mul.2 ⟨?_, h₁, h₁P, h₂, h₂Q, hdisjoint, rfl⟩
  rintro rfl
  exact (hdisjoint a).elim (hP h₁ h₁P) (hQ h₂ h₂Q)

end Assn

/-! ## Heaps -/

/-- A heap.  The number of allocations so far is the next address. -/
structure Heap (β : Type) where
  cells : Heaplet β
  calls : ℕ
  fresh : ∀ a, calls ≤ a → cells a = none
  /-- Ghost: an allocation has failed. -/
  failed : Bool

namespace Heap

variable {α β : Type}

/-- A new block, or a null pointer.  What is in the block may depend on the call. -/
def alloc (fails : ℕ → Bool) (b : ℕ → β) : Program (Heap β) (Option ℕ) := fun s =>
  if fails s.calls then
    .done none
      { s with
        calls := s.calls + 1
        fresh := fun a ha => s.fresh a (Nat.le_of_succ_le ha)
        failed := true }
  else
    .done (some s.calls)
      { s with
        cells := fun x => if x = s.calls then some (b x) else s.cells x
        calls := s.calls + 1
        fresh := fun a ha => (if_neg (Nat.ne_of_gt ha)).trans (s.fresh a (Nat.le_of_succ_le ha)) }

/-- What lies at the address. -/
def read (a : ℕ) : Program (Heap β) β := fun s =>
  match s.cells a with
  | none => .fault
  | some b => .done b s

/-- Another content for a block. -/
def write (a : ℕ) (b : β) : Program (Heap β) PUnit := fun s =>
  match h : s.cells a with
  | none => .fault
  | some _ =>
      .done ⟨⟩
        { s with
          cells := fun x => if x = a then some b else s.cells x
          fresh := fun x hx => by
            have hne : x ≠ a := by
              rintro rfl
              rw [s.fresh x hx] at h
              exact absurd h (by simp)
            rw [if_neg hne, s.fresh x hx] }

/-- The block is no longer there. -/
def free (a : ℕ) : Program (Heap β) PUnit := fun s =>
  match s.cells a with
  | none => .fault
  | some _ =>
      .done ⟨⟩
        { s with
          cells := fun x => if x = a then none else s.cells x
          fresh := fun x hx => by rw [s.fresh x hx, ite_self] }

/-- The heap is a piece with `P` and the frame. -/
structure Split (failed : Bool) (P : Assn β) (frame : Heaplet β) (s : Heap β) : Prop where
  failed_eq : s.failed = failed
  cells_eq : ∃ h ∈ P, h.Disjoint frame ∧ s.cells = h.union frame

/-- The program has no fault, makes `Q` of `P`, and leaves the rest of the heap as
it is.  The flag tells whether an allocation has failed. -/
def Triple (failed : Bool) (P : Assn β) (x : Program (Heap β) α) (Q : Bool → α → Assn β) :
    Prop :=
  ∀ frame, Program.Triple (Split failed P frame) x
    (fun a s => Split s.failed (Q s.failed a) frame s) fun _ => False

variable {failed : Bool} {P P' R : Assn β} {x : Program (Heap β) α} {Q Q' : Bool → α → Assn β}
  {a : ℕ} {b : β}

theorem Triple.mono (h : Triple failed P x Q) (hP : P' ≤ P) (hQ : ∀ f a, Q f a ≤ Q' f a) :
    Triple failed P' x Q' := fun frame =>
  (h frame).mono
    (fun _ hs => ⟨hs.failed_eq, hs.cells_eq.imp fun _ ⟨hmem, hrest⟩ => ⟨hP hmem, hrest⟩⟩)
    (fun a s hs => ⟨rfl, hs.cells_eq.imp fun _ ⟨hmem, hrest⟩ => ⟨hQ s.failed a hmem, hrest⟩⟩)
    fun _ h => h

/-- What the program does not touch stays. -/
theorem Triple.frame (h : Triple failed P x Q) (R : Assn β) :
    Triple failed (P * R) x fun f a => Q f a * R := by
  intro frame s hs
  obtain ⟨_, ⟨h₁, hP, h₂, hR, h₁₂, rfl⟩, hdisjoint, hcells⟩ := hs.cells_eq
  obtain ⟨h₁f, h₂f⟩ := Heaplet.disjoint_union_left.1 hdisjoint
  have hrun := h (h₂.union frame) s ⟨hs.failed_eq, h₁, hP,
    Heaplet.disjoint_union_right.2 ⟨h₁₂, h₁f⟩, by rw [hcells, Heaplet.union_assoc]⟩
  refine hrun.mono (fun a s' hs' => ?_) fun _ h => h
  obtain ⟨h₁', hQ, hdisjoint', hcells'⟩ := hs'.cells_eq
  obtain ⟨h₁₂', h₁f'⟩ := Heaplet.disjoint_union_right.1 hdisjoint'
  exact ⟨rfl, h₁'.union h₂, ⟨h₁', hQ, h₂, hR, h₁₂', rfl⟩,
    Heaplet.disjoint_union_left.2 ⟨h₁f', h₂f⟩, by rw [hcells', Heaplet.union_assoc]⟩

theorem Triple.pure {v : α} (h : P ≤ Q failed v) : Triple failed P (Pure.pure v) Q := by
  intro frame s hs
  obtain ⟨h₁, hP, hrest⟩ := hs.cells_eq
  show Split s.failed (Q s.failed v) frame s
  rw [hs.failed_eq]
  exact ⟨hs.failed_eq, h₁, h hP, hrest⟩

theorem Triple.bind {γ : Type} {f : α → Program (Heap β) γ} {Q' : Bool → γ → Assn β}
    (hx : Triple failed P x Q) (hf : ∀ b v, Triple b (Q b v) (f v) Q') :
    Triple failed P (x >>= f) Q' := by
  intro frame
  refine (hx frame).bind fun v s hs => ?_
  exact hf s.failed v frame s hs

/-- Another program behind one that leaves a part of the heap alone. -/
theorem Triple.bind_frame {γ : Type} {f : α → Program (Heap β) γ} {Q' : Bool → γ → Assn β}
    (hx : Triple failed P x Q) (hP : P' = P * R)
    (hf : ∀ b v, Triple b (Q b v * R) (f v) Q') : Triple failed P' (x >>= f) Q' := by
  rw [hP]
  exact (hx.frame R).bind hf

theorem Triple.iSup {ι : Sort*} {P : ι → Assn β} (h : ∀ i, Triple failed (P i) x Q) :
    Triple failed (⨆ i, P i) x Q := by
  intro frame s hs
  obtain ⟨h₁, hP, hrest⟩ := hs.cells_eq
  obtain ⟨i, hi⟩ := Assn.mem_iSup.1 hP
  exact h i frame s ⟨hs.failed_eq, h₁, hi, hrest⟩

theorem Triple.fact {p : Prop} (h : p → Triple failed P x Q) :
    Triple failed (Assn.fact p * P) x Q := by
  intro frame s hs
  obtain ⟨h₁, hP, hrest⟩ := hs.cells_eq
  obtain ⟨hp, hP⟩ := Assn.mem_fact_mul.1 hP
  exact h hp frame s ⟨hs.failed_eq, h₁, hP, hrest⟩

theorem Triple.iSup_mul {ι : Type*} {P : ι → Assn β} (h : ∀ i, Triple failed (P i * R) x Q) :
    Triple failed ((⨆ i, P i) * R) x Q := by
  rw [Quantale.iSup_mul_distrib]
  exact Triple.iSup h

theorem Triple.bot : Triple failed ⊥ x Q := fun _ _ hs =>
  let ⟨_, hbot, _⟩ := hs.cells_eq
  absurd hbot (Set.notMem_empty _)

/-- A program that takes as many turns as there have been allocations has turns for
all blocks. -/
theorem Triple.turns {y : ℕ → Program (Heap β) α} {n : ℕ} (hP : P.AtLeast n)
    (h : ∀ k, n ≤ k → Triple failed P (y k) Q) : Triple failed P (fun s => y s.calls s) Q := by
  intro frame s hs
  refine h s.calls ?_ frame s hs
  obtain ⟨h₁, h₁P, -, hcells⟩ := hs.cells_eq
  obtain ⟨S, rfl, hS⟩ := hP h₁ h₁P
  have hsub : S ⊆ Finset.range s.calls := by
    intro a ha
    refine Finset.mem_range.2 (Nat.lt_of_not_le fun hle => ?_)
    have hnone := s.fresh a hle
    rw [hcells, Heaplet.union, Option.or_eq_none_iff] at hnone
    exact hS a ha hnone.1
  simpa using Finset.card_le_card hsub

/-- The program returns this value, and no allocation fails in it. -/
def Gives (failed : Bool) (P : Assn β) (x : Program (Heap β) α) (v : α) (P' : Assn β) : Prop :=
  Triple failed P x fun f w => .fact (f = failed ∧ w = v) * P'

section Gives

variable {v : α} {γ : Type} {f : α → Program (Heap β) γ} {Q : Bool → γ → Assn β}

theorem Gives.pure (h : P ≤ P') : Gives failed P (Pure.pure v) v P' :=
  Triple.pure (Assn.le_fact_mul ⟨rfl, rfl⟩ h)

/-- Another program behind it, with the rest of the heap. -/
theorem Gives.bind {P₀ : Assn β} (h : Gives failed P x v P') (hP : P₀ = P * R)
    (hf : Triple failed (P' * R) (f v) Q) : Triple failed P₀ (x >>= f) Q := by
  refine Triple.bind_frame h hP fun f' w => ?_
  rw [mul_assoc]
  refine .fact ?_
  rintro ⟨rfl, rfl⟩
  exact hf

/-- With the rest of the heap. -/
theorem Gives.framed {P₀ P₁ : Assn β} (h : Gives failed P x v P') (hP : P₀ ≤ P * R)
    (hP' : P' * R ≤ P₁) : Gives failed P₀ x v P₁ := by
  refine Triple.mono (h.frame R) hP fun f w => ?_
  rw [mul_assoc]
  exact mul_le_mul' le_rfl hP'

/-- Another program behind it, with no more of the heap. -/
theorem Gives.seq (h : Gives failed P x v P') (hf : Triple failed P' (f v) Q) :
    Triple failed P (x >>= f) Q := h.bind (mul_one P).symm (by rwa [mul_one])

/-- Another program behind one that uses its part of the heap up. -/
theorem Gives.bind_one {P₀ : Assn β} (h : Gives failed P x v 1) (hP : P₀ = P * R)
    (hf : Triple failed R (f v) Q) : Triple failed P₀ (x >>= f) Q :=
  h.bind hP (by rwa [one_mul])

end Gives

/-! ## The four operations -/

theorem gives_read : Gives failed (.pointsTo a b) (read a) b (.pointsTo a b) := by
  intro frame s hs
  obtain ⟨_, rfl, hdisjoint, hcells⟩ := hs.cells_eq
  have hat : s.cells a = some b := by simp [hcells, Heaplet.union, Heaplet.single]
  simp only [read, hat]
  exact ⟨rfl, _, Assn.mem_fact_mul.2 ⟨⟨hs.failed_eq, rfl⟩, rfl⟩, hdisjoint, hcells⟩

/-- At the address there is nothing but the block. -/
theorem none_of_disjoint_single {frame : Heaplet β}
    (h : (Heaplet.single a b).Disjoint frame) : frame a = none := by
  simpa [Heaplet.single] using h a

theorem gives_write (b' : β) :
    Gives failed (.pointsTo a b) (write a b') ⟨⟩ (.pointsTo a b') := by
  intro frame s hs
  obtain ⟨_, rfl, hdisjoint, hcells⟩ := hs.cells_eq
  have hframe := none_of_disjoint_single hdisjoint
  have hat : s.cells a = some b := by simp [hcells, Heaplet.union, Heaplet.single]
  rw [write]
  split
  · next h => rw [hat] at h; cases h
  · refine ⟨rfl, .single a b', Assn.mem_fact_mul.2 ⟨⟨hs.failed_eq, rfl⟩, rfl⟩, ?_, ?_⟩
    · intro x
      by_cases hx : x = a
      · exact .inr (hx ▸ hframe)
      · exact .inl (if_neg hx)
    · ext x
      by_cases hx : x = a <;> simp [hx, hcells, Heaplet.union, Heaplet.single]

theorem gives_free : Gives failed (.pointsTo a b) (free a) ⟨⟩ 1 := by
  intro frame s hs
  obtain ⟨_, rfl, hdisjoint, hcells⟩ := hs.cells_eq
  have hframe := none_of_disjoint_single hdisjoint
  have hat : s.cells a = some b := by simp [hcells, Heaplet.union, Heaplet.single]
  simp only [free, hat]
  refine ⟨rfl, .empty, Assn.mem_fact_mul.2 ⟨⟨hs.failed_eq, trivial⟩, Assn.mem_one.2 rfl⟩,
    (Heaplet.disjoint_empty frame).symm, ?_⟩
  ext x
  by_cases hx : x = a <;> simp [hx, hcells, hframe, Heaplet.union, Heaplet.single, Heaplet.empty]

/-! ## New blocks -/

/-- The address of something new, or a null pointer because an allocation has
failed. -/
def made (failed : Bool) (A : ℕ → Assn β) (f : Bool) : Option ℕ → Assn β
  | some a => .fact (f = failed) * A a
  | none => .fact (f = true)

/-- The program makes something new. -/
def Makes (failed : Bool) (x : Program (Heap β) (Option ℕ)) (A : ℕ → Assn β) : Prop :=
  Triple failed 1 x (made failed A)

theorem makes_alloc (fails : ℕ → Bool) (b : ℕ → β) :
    Makes failed (alloc fails b) fun a => .pointsTo a (b a) := by
  intro frame s hs
  obtain ⟨_, hone, hdisjoint, hcells⟩ := hs.cells_eq
  obtain rfl := Assn.mem_one.1 hone
  have hcells' : s.cells = frame := by
    rw [hcells, Heaplet.union_comm hdisjoint, Heaplet.union_empty]
  rw [alloc]
  split_ifs
  · exact ⟨rfl, .empty, ⟨rfl, rfl⟩, hdisjoint, hcells⟩
  · have hframe : frame s.calls = none := hcells' ▸ s.fresh s.calls le_rfl
    refine ⟨rfl, .single s.calls (b s.calls), Assn.mem_fact_mul.2 ⟨hs.failed_eq, rfl⟩, ?_, ?_⟩
    · intro x
      by_cases hx : x = s.calls
      · exact .inr (hx ▸ hframe)
      · exact .inl (if_neg hx)
    · ext x
      by_cases hx : x = s.calls <;> simp [hx, hcells', Heaplet.union, Heaplet.single]

section Makes

variable {A : ℕ → Assn β} {γ : Type} {Q : Bool → γ → Assn β} {y : Program (Heap β) (Option ℕ)}

/-- Another program behind it, with the rest of the heap. -/
theorem Makes.bind {f : Option ℕ → Program (Heap β) γ} (h : Makes failed y A)
    (hsome : ∀ a, Triple failed (A a * P) (f (some a)) Q) (hnone : Triple true P (f none) Q) :
    Triple failed P (y >>= f) Q := by
  refine Triple.bind_frame h (one_mul P).symm fun f' v => ?_
  cases v with
  | none =>
      refine .fact ?_
      rintro rfl
      exact hnone
  | some a =>
      rw [made, mul_assoc]
      refine .fact ?_
      rintro rfl
      exact hsome a

theorem Makes.pure {a : ℕ} (h : P ≤ A a) : Triple failed P (Pure.pure (some a)) (made failed A) :=
  Triple.pure (Assn.le_fact_mul rfl h)

theorem made_none (failed : Bool) (A : ℕ → Assn β) : 1 ≤ made failed A true none :=
  fun _ hx => ⟨rfl, Assn.mem_one.1 hx⟩

end Makes

theorem Triple.alloc_bind {γ : Type} {Q : Bool → γ → Assn β} {f : Option ℕ → Program (Heap β) γ}
    {fails : ℕ → Bool} {b : ℕ → β}
    (hsome : ∀ a, Triple failed (.pointsTo a (b a) * P) (f (some a)) Q)
    (hnone : Triple true P (f none) Q) : Triple failed P (alloc fails b >>= f) Q :=
  (makes_alloc fails b).bind hsome hnone

/-- What is expected, unless an allocation fails. -/
def Unless (failed f : Bool) (p : Prop) : Prop := f = failed ∧ p ∨ f = true

theorem Unless.self {p : Prop} (hp : p) : Unless failed failed p := .inl ⟨rfl, hp⟩

theorem Unless.mono {f : Bool} {p r : Prop} (hp : Unless failed f p) (h : p → r) :
    Unless failed f r := hp.imp_left fun hp => ⟨hp.1, h hp.2⟩

theorem Unless.trans {f f' : Bool} {p q r : Prop} (hp : Unless failed f p) (hq : Unless f f' q)
    (h : p → q → r) : Unless failed f' r := by
  rcases hq with ⟨rfl, hq⟩ | hq
  · exact hp.mono fun hp => h hp hq
  · exact .inr hq

/-- Everything is the rest of the heap. -/
theorem split_one (s : Heap β) : Split s.failed 1 s.cells s :=
  ⟨rfl, .empty, Assn.mem_one.2 rfl, (Heaplet.disjoint_empty s.cells).symm, by
    rw [Heaplet.union_comm (Heaplet.disjoint_empty s.cells).symm, Heaplet.union_empty]⟩

theorem Split.cells_of_one {frame : Heaplet β} {s : Heap β} (h : Split failed 1 frame s) :
    s.cells = frame := by
  obtain ⟨_, hone, hdisjoint, hcells⟩ := h.cells_eq
  obtain rfl := Assn.mem_one.1 hone
  rw [hcells, Heaplet.union_comm hdisjoint, Heaplet.union_empty]

/-- What a triple says of a run. -/
theorem Triple.run (h : Triple failed P x Q) {frame : Heaplet β} {s : Heap β}
    (hs : Split failed P frame s) :
    ∃ v s', x s = .done v s' ∧ Split s'.failed (Q s'.failed v) frame s' := by
  have hrun := h frame s hs
  cases hx : x s with
  | done v s' =>
      rw [hx] at hrun
      exact ⟨v, s', rfl, hrun⟩
  | stopped s' =>
      rw [hx] at hrun
      exact hrun.elim
  | fault =>
      rw [hx] at hrun
      exact hrun.elim

/-! ## The number of blocks -/

/-- The addresses at which there is a block. -/
def blocks (s : Heap β) : Finset ℕ := (Finset.range s.calls).filter fun a => (s.cells a).isSome

theorem mem_blocks {s : Heap β} : a ∈ s.blocks ↔ s.cells a ≠ none := by
  rw [blocks, Finset.mem_filter, Finset.mem_range, Option.isSome_iff_ne_none]
  refine ⟨fun h => h.2, fun h => ⟨?_, h⟩⟩
  exact Nat.lt_of_not_le fun hle => h (s.fresh a hle)

/-- What has been added to a heap. -/
theorem Split.card_blocks_le {s s' : Heap β} {n : ℕ} (h : Split failed P s.cells s')
    (hP : P.AtLeast n) : s.blocks.card + n ≤ s'.blocks.card := by
  obtain ⟨h₁, h₁P, hdisjoint, hcells⟩ := h.cells_eq
  obtain ⟨S, rfl, hS⟩ := hP h₁ h₁P
  rw [← Finset.card_union_of_disjoint]
  · refine Finset.card_le_card fun a ha => mem_blocks.2 ?_
    rw [hcells, Heaplet.union, ne_eq, Option.or_eq_none_iff, not_and_or]
    exact (Finset.mem_union.1 ha).symm.imp (hS a) mem_blocks.1
  · refine Finset.disjoint_left.2 fun a ha haS => ?_
    exact (hdisjoint a).elim (hS a haS) (mem_blocks.1 ha)

end Heap

end PotHub.Lib
