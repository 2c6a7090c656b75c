import PotHub.Server.Cells

/-!
# The compaction loop, access by access

The two nested loops run with nobody between their accesses.  The inner loop
moves the bound of the outer one and holds its index back, so neither of them
measures how far the whole has come.  It comes to its end all the same, and what
is then below `nfds` is the array without its free cells.
-/

namespace PotHub.Server

open PotHub.Lib

/-- The loop after so many accesses. -/
def compactAfter (a : PollArray) (n : ℕ) : PollArray × CompactPc :=
  (fun x : PollArray × CompactPc => compactStep x.1 x.2)^[n] (a, .test 0)

theorem compactAfter_succ (a : PollArray) (n : ℕ) :
    compactAfter a (n + 1) = compactStep (compactAfter a n).1 (compactAfter a n).2 :=
  Function.iterate_succ_apply' ..

/-- The loop gets to where `CompactGoes` leads. -/
theorem exists_compactAfter {a : PollArray} {x : PollArray × CompactPc}
    (h : Relation.ReflTransGen CompactGoes (a, .test 0) x) : ∃ n, compactAfter a n = x := by
  induction h with
  | refl => exact ⟨0, rfl⟩
  | tail _ hstep ih =>
      obtain ⟨n, hn⟩ := ih
      refine ⟨n + 1, ?_⟩
      rw [compactAfter_succ, hn]
      exact hstep

/-! ## The indices -/

/-- The indices of the two loops, for a given length of the array, when no cell
below `low` is removed. -/
def CompactPc.Within (low : Int) (nfds : ℕ) : CompactPc → Prop
  | .test i => 0 ≤ i
  | .isFree i | .isStopped i => 0 ≤ i ∧ i < nfds
  | .shift i j => low ≤ i ∧ i ≤ j ∧ i < nfds
  | .assign i j _ => low ≤ i ∧ i ≤ j ∧ j + 1 < nfds
  | .done => True

section Step

variable {a : PollArray} {c : CompactPc} {low : Int}

theorem compactStep_nfds_le (a : PollArray) (c : CompactPc) :
    (compactStep a c).1.nfds ≤ a.nfds := by
  cases c with
  | shift i j => by_cases hj : j < a.nfds - 1 <;> simp [compactStep, hj]
  | _ => exact le_rfl

theorem compactStep_within (hlow : 0 ≤ low)
    (hkept : ∀ i : Int, 0 ≤ i → i < low → ¬ Unused (a.fd i.toNat)) (hc : c.Within low a.nfds) :
    (compactStep a c).2.Within low (compactStep a c).1.nfds := by
  cases c with
  | test i =>
      by_cases hi : i < a.nfds
      · simpa [compactStep, hi, CompactPc.Within] using hc
      · simp [compactStep, hi, CompactPc.Within]
  | isFree i =>
      obtain ⟨hi, hlt⟩ : 0 ≤ i ∧ i < a.nfds := hc
      by_cases hfree : a.fd i.toNat = -1
      · have hge : low ≤ i := not_lt.1 fun hil => hkept i hi hil (Or.inl hfree)
        simp only [compactStep, hfree, if_true, CompactPc.Within]
        exact ⟨hge, le_rfl, hlt⟩
      · simp only [compactStep, hfree, if_false, CompactPc.Within]
        exact ⟨hi, hlt⟩
  | isStopped i =>
      obtain ⟨hi, hlt⟩ : 0 ≤ i ∧ i < a.nfds := hc
      by_cases hstop : a.fd i.toNat = -2
      · have hge : low ≤ i := not_lt.1 fun hil => hkept i hi hil (Or.inr hstop)
        simp only [compactStep, hstop, if_true, CompactPc.Within]
        exact ⟨hge, le_rfl, hlt⟩
      · simp only [compactStep, hstop, if_false, CompactPc.Within]
        omega
  | shift i j =>
      obtain ⟨hi, hij, hlt⟩ : low ≤ i ∧ i ≤ j ∧ i < a.nfds := hc
      by_cases hj : j < a.nfds - 1
      · simp only [compactStep, hj, if_true, CompactPc.Within]
        omega
      · simp only [compactStep, hj, if_false, CompactPc.Within]
        omega
  | assign i j v =>
      obtain ⟨hi, hij, hlt⟩ : low ≤ i ∧ i ≤ j ∧ j + 1 < a.nfds := hc
      show low ≤ i ∧ i ≤ j + 1 ∧ i < a.nfds
      omega
  | done => trivial

/-- An access stays below the length. -/
theorem compactIndices_within (hlow : 0 ≤ low) (hc : c.Within low a.nfds) :
    ∀ k ∈ compactIndices a c, 0 ≤ k ∧ k < a.nfds := by
  intro k hk
  cases c with
  | test i => exact absurd hk List.not_mem_nil
  | done => exact absurd hk List.not_mem_nil
  | isFree i => exact List.mem_singleton.1 hk ▸ hc
  | isStopped i => exact List.mem_singleton.1 hk ▸ hc
  | shift i j =>
      obtain ⟨hi, hij, hlt⟩ : low ≤ i ∧ i ≤ j ∧ i < a.nfds := hc
      by_cases hj : j < a.nfds - 1
      · rw [compactIndices, if_pos hj] at hk
        rw [List.mem_singleton.1 hk]
        omega
      · rw [compactIndices, if_neg hj] at hk
        exact absurd hk List.not_mem_nil
  | assign i j v =>
      obtain ⟨hi, hij, hlt⟩ : low ≤ i ∧ i ≤ j ∧ j + 1 < a.nfds := hc
      rw [List.mem_singleton.1 hk]
      omega

/-- With cells of any kind. -/
theorem compactStep_within_zero (hc : c.Within 0 a.nfds) :
    (compactStep a c).2.Within 0 (compactStep a c).1.nfds :=
  compactStep_within le_rfl (fun i hi hi' => by omega) hc

end Step

theorem compactAfter_within (a : PollArray) (n : ℕ) :
    (compactAfter a n).2.Within 0 (compactAfter a n).1.nfds ∧
      (compactAfter a n).1.nfds ≤ a.nfds := by
  induction n with
  | zero => exact ⟨le_rfl, le_rfl⟩
  | succ n ih =>
      rw [compactAfter_succ]
      exact ⟨compactStep_within_zero ih.1, (compactStep_nfds_le _ _).trans ih.2⟩

/-! ## The array it leaves -/

theorem compact_filter (a : PollArray) :
    (List.range a.compact.nfds).map a.compact.fd =
      ((List.range a.nfds).map a.fd).filter fun fd => ¬ Unused fd :=
  removeFrom_filter a.fd a.nfds

theorem compact_nfds_eq (a : PollArray) :
    a.compact.nfds = (List.range a.nfds).countP fun i => ¬ Unused (a.fd i) := by
  have h := congrArg List.length (compact_filter a)
  rwa [List.length_map, List.length_range, ← List.countP_eq_length_filter, List.countP_map] at h

/-- **In-place compaction is filtering.**  The loop comes to its end, never
gets to a cell at or behind the old `nfds`, and leaves the descriptors that are
neither -1 nor -2, in their order. -/
theorem compaction_eq_filter (a : PollArray) :
    (∀ n, ∀ k ∈ compactIndices (compactAfter a n).1 (compactAfter a n).2, 0 ≤ k ∧ k < a.nfds) ∧
    ∃ n a', compactAfter a n = (a', .done) ∧
      a'.nfds = ((List.range a.nfds).countP fun i => a.fd i ≠ -1 ∧ a.fd i ≠ -2) ∧
      (List.range a'.nfds).map a'.fd =
        ((List.range a.nfds).map a.fd).filter fun fd => fd ≠ -1 ∧ fd ≠ -2 := by
  constructor
  · intro n k hk
    obtain ⟨hwithin, hle⟩ := compactAfter_within a n
    have hlt := compactIndices_within le_rfl hwithin k hk
    omega
  · obtain ⟨n, hn⟩ := exists_compactAfter (compact_goes a)
    have hunused : ∀ fd, (¬ Unused fd) ↔ (fd ≠ -1 ∧ fd ≠ -2) := fun fd => not_or
    refine ⟨n, a.compact, hn, ?_, ?_⟩
    · simpa only [hunused] using compact_nfds_eq a
    · simpa only [hunused] using compact_filter a

end PotHub.Server
