import Mathlib.Logic.Function.Basic
import Mathlib.Order.Nat
import Mathlib.Tactic.Common

/-!
# In-place removal from an array

An array is a function on indices together with a length kept elsewhere.  The
removal loop runs an index up to the length; at an element to be removed it
shifts the elements behind it down by one, lowers the length and looks at the
same index again.  Nothing at or behind the old length is written, so the cells
between the new length and the old one keep stale copies.

The main results describe the array that the loop leaves: below the new length
it lists the elements that stay, in order (`removeFrom_squeeze`, and as lists
`removeFrom_filter`); at any index it holds an element that was there or behind
it, and strictly behind it once an element at or before the index has gone
(`removeFrom_later`).
-/

namespace PotHub.Lib

universe u

variable {α : Type u}

/-- The shifting loop: `for (j = i; j < n - 1; j++) a[j] = a[j + 1]`. -/
def shiftDown (a : ℕ → α) (j n : ℕ) : ℕ → α :=
  if j + 1 < n then shiftDown (Function.update a j (a (j + 1))) (j + 1) n else a
termination_by n - j

theorem shiftDown_apply (a : ℕ → α) (j n k : ℕ) :
    shiftDown a j n k = if j ≤ k ∧ k + 1 < n then a (k + 1) else a k := by
  fun_induction shiftDown a j n with
  | case1 a j hj ih =>
      rw [ih]
      by_cases hk : k = j
      · subst hk
        simp [hj]
      · have hle : (j + 1 ≤ k ∧ k + 1 < n) ↔ (j ≤ k ∧ k + 1 < n) := by omega
        by_cases h : j ≤ k ∧ k + 1 < n
        · have hkj : k + 1 ≠ j := by omega
          rw [if_pos (hle.2 h), if_pos h, Function.update_of_ne hkj]
        · rw [if_neg (fun h' => h (hle.1 h')), if_neg h, Function.update_of_ne hk]
  | case2 a j hj =>
      rw [if_neg (by omega)]

theorem shiftDown_of_le {a : ℕ → α} {j n k : ℕ} (hjk : j ≤ k) (hk : k + 1 < n) :
    shiftDown a j n k = a (k + 1) := by
  rw [shiftDown_apply, if_pos ⟨hjk, hk⟩]

theorem shiftDown_of_lt {a : ℕ → α} {j n k : ℕ} (hkj : k < j) : shiftDown a j n k = a k := by
  rw [shiftDown_apply, if_neg (by omega)]

theorem shiftDown_of_ge {a : ℕ → α} {j n k : ℕ} (hk : n ≤ k + 1) : shiftDown a j n k = a k := by
  rw [shiftDown_apply, if_neg (by omega)]

/-- From its start on, the shifted array lists what was behind the start. -/
theorem map_shiftDown (a : ℕ → α) {i n : ℕ} (hi : i < n) :
    (List.range' i (n - 1 - i)).map (shiftDown a i n) =
      (List.range' (i + 1) (n - (i + 1))).map a := by
  refine List.ext_getElem ?_ fun k hk hk' => ?_
  · simp only [List.length_map, List.length_range']
    omega
  · simp only [List.length_map, List.length_range'] at hk
    simp only [List.getElem_map, List.getElem_range', Nat.one_mul]
    rw [shiftDown_of_le (by omega) (by omega), Nat.add_right_comm]

theorem range'_eq_cons {i n : ℕ} (h : i < n) :
    List.range' i (n - i) = i :: List.range' (i + 1) (n - (i + 1)) := by
  rw [← List.range'_succ]
  congr 1
  omega

/-- The indices that the shifting loop reads and writes. -/
def shiftIndices (j n : ℕ) : List ℕ :=
  if j + 1 < n then (j + 1) :: j :: shiftIndices (j + 1) n else []
termination_by n - j

theorem lt_of_mem_shiftIndices {j n k : ℕ} (hk : k ∈ shiftIndices j n) : k < n := by
  fun_induction shiftIndices j n with
  | case1 j hj ih =>
      rcases List.mem_cons.1 hk with rfl | hk
      · exact hj
      · rcases List.mem_cons.1 hk with rfl | hk
        · omega
        · exact ih hk
  | case2 j hj => simp at hk

section Removal

variable (p : α → Prop)

/-- `a'` of length `n'` lists, in order, the elements of `a` of length `n` that
do not satisfy `p`; `src j` is the old index of the new element at `j`. -/
structure Squeeze (a : ℕ → α) (n : ℕ) (a' : ℕ → α) (n' : ℕ) (src : ℕ → ℕ) : Prop where
  src_lt : ∀ j < n', src j < n
  src_mono : ∀ j k, j < k → k < n' → src j < src k
  apply_eq : ∀ j < n', a' j = a (src j)
  kept : ∀ j < n', ¬ p (a (src j))
  onto : ∀ k < n, ¬ p (a k) → ∃ j < n', src j = k

namespace Squeeze

variable {p} {a a' : ℕ → α} {n n' : ℕ} {src : ℕ → ℕ}

theorem src_inj (h : Squeeze p a n a' n' src) {j k : ℕ} (hj : j < n') (hk : k < n')
    (hjk : src j = src k) : j = k := by
  rcases lt_trichotomy j k with hlt | rfl | hlt
  · exact absurd hjk (h.src_mono j k hlt hk).ne
  · rfl
  · exact absurd hjk.symm (h.src_mono k j hlt hj).ne

theorem le_src (h : Squeeze p a n a' n' src) {j : ℕ} (hj : j < n') : j ≤ src j := by
  induction j with
  | zero => exact Nat.zero_le _
  | succ j ih =>
      have h1 := ih (by omega)
      have h2 := h.src_mono j (j + 1) (by omega) hj
      omega

theorem kept' (h : Squeeze p a n a' n' src) {j : ℕ} (hj : j < n') : ¬ p (a' j) := by
  rw [h.apply_eq j hj]
  exact h.kept j hj

/-- An array without elements to remove is left as it is. -/
theorem refl (hkeep : ∀ k < n, ¬ p (a k)) : Squeeze p a n a n id :=
  ⟨fun _ h => h, fun _ _ h _ => h, fun _ _ => rfl, hkeep, fun k hk _ => ⟨k, hk, rfl⟩⟩

end Squeeze

variable [DecidablePred p]

/-- The removal loop from index `i` on, for an array of length `n`: the array
and the length it leaves. -/
def removeFrom (a : ℕ → α) (i n : ℕ) : (ℕ → α) × ℕ :=
  if i < n then
    if p (a i) then removeFrom (shiftDown a i n) i (n - 1) else removeFrom a (i + 1) n
  else (a, n)
termination_by n - i

variable {p}

theorem removeFrom_length_le (a : ℕ → α) (i n : ℕ) : (removeFrom p a i n).2 ≤ n := by
  fun_induction removeFrom p a i n with
  | case1 a i n hi hp ih => omega
  | case2 a i n hi hp ih => exact ih
  | case3 a i n hi => exact le_rfl

theorem le_removeFrom_length (a : ℕ → α) {i n : ℕ} (h : i ≤ n) : i ≤ (removeFrom p a i n).2 := by
  fun_induction removeFrom p a i n with
  | case1 a i n hi hp ih => exact ih (by omega)
  | case2 a i n hi hp ih => exact Nat.le_of_succ_le (ih hi)
  | case3 a i n hi => exact h

/-- The elements in front of the first one to be removed stay below the new
length. -/
theorem lt_removeFrom_length (a : ℕ → α) {i n k : ℕ} (hi : i ≤ n) (hk : k < n)
    (hkeep : ∀ j, i ≤ j → j ≤ k → ¬ p (a j)) : k < (removeFrom p a i n).2 := by
  fun_induction removeFrom p a i n with
  | case1 a i n hin hp ih =>
      by_cases hik : i ≤ k
      · exact absurd hp (hkeep i le_rfl hik)
      · exact lt_of_lt_of_le (by omega) (le_removeFrom_length _ (show i ≤ n - 1 by omega))
  | case2 a i n hin hp ih => exact ih hin hk fun j hij hjk => hkeep j (by omega) hjk
  | case3 a i n hin => exact hk

theorem removeFrom_length_lt (a : ℕ → α) {i n k : ℕ} (hik : i ≤ k) (hk : k < n) (hpk : p (a k)) :
    (removeFrom p a i n).2 < n := by
  fun_induction removeFrom p a i n with
  | case1 a i n hin hp ih =>
      have := removeFrom_length_le (p := p) (shiftDown a i n) i (n - 1)
      omega
  | case2 a i n hin hp ih =>
      have hne : i ≠ k := fun h => hp (h ▸ hpk)
      exact ih (by omega) hk hpk
  | case3 a i n hin => omega

/-- Removal does not touch the cells in front of the index it starts from. -/
theorem removeFrom_of_lt (a : ℕ → α) (i n : ℕ) {j : ℕ} (hj : j < i) :
    (removeFrom p a i n).1 j = a j := by
  fun_induction removeFrom p a i n with
  | case1 a i n hi hp ih => rw [ih hj, shiftDown_of_lt hj]
  | case2 a i n hi hp ih => exact ih (by omega)
  | case3 a i n hi => rfl

/-- Removal never writes the last cell, nor anything behind it. -/
theorem removeFrom_of_last (a : ℕ → α) (i n : ℕ) {j : ℕ} (hj : n ≤ j + 1) :
    (removeFrom p a i n).1 j = a j := by
  fun_induction removeFrom p a i n with
  | case1 a i n hi hp ih => rw [ih (by omega), shiftDown_of_ge hj]
  | case2 a i n hi hp ih => exact ih hj
  | case3 a i n hi => rfl

/-- Up to the first element to be removed nothing changes. -/
theorem removeFrom_of_kept (a : ℕ → α) (i n : ℕ) {j : ℕ}
    (hkeep : ∀ k, i ≤ k → k ≤ j → k < n → ¬ p (a k)) : (removeFrom p a i n).1 j = a j := by
  fun_induction removeFrom p a i n with
  | case1 a i n hi hp ih =>
      by_cases hij : i ≤ j
      · exact absurd hp (hkeep i le_rfl hij hi)
      · have hji : j < i := by omega
        rw [removeFrom_of_lt _ _ _ hji, shiftDown_of_lt hji]
  | case2 a i n hi hp ih =>
      exact ih fun k hik hkj hkn => hkeep k (by omega) hkj hkn
  | case3 a i n hi => rfl

/-- At every index there is an element that was there or behind it. -/
theorem removeFrom_ge (a : ℕ → α) (i n : ℕ) {j : ℕ} (hj : j < n) :
    ∃ j', j ≤ j' ∧ j' < n ∧ (removeFrom p a i n).1 j = a j' := by
  fun_induction removeFrom p a i n with
  | case1 a i n hi hp ih =>
      by_cases hlast : n ≤ j + 1
      · exact ⟨j, le_rfl, hj, by rw [removeFrom_of_last _ _ _ (by omega), shiftDown_of_ge hlast]⟩
      · obtain ⟨j', hjj', hj'n, heq⟩ := ih (by omega)
        by_cases hij : i ≤ j'
        · exact ⟨j' + 1, by omega, by omega, by rw [heq, shiftDown_of_le hij (by omega)]⟩
        · exact ⟨j', hjj', by omega, by rw [heq, shiftDown_of_lt (by omega)]⟩
  | case2 a i n hi hp ih => exact ih hj
  | case3 a i n hi => exact ⟨j, le_rfl, hj, rfl⟩

/-- Once an element at or in front of an index has been removed, the cell at
the index, unless it is the last one, holds an element from strictly behind. -/
theorem removeFrom_later (a : ℕ → α) (i n : ℕ) {j k : ℕ} (hik : i ≤ k) (hkj : k ≤ j)
    (hj : j + 1 < n) (hpk : p (a k)) :
    ∃ j', j < j' ∧ j' < n ∧ (removeFrom p a i n).1 j = a j' := by
  fun_induction removeFrom p a i n with
  | case1 a i n hi hp ih =>
      obtain ⟨j', hjj', hj'n, heq⟩ :=
        removeFrom_ge (p := p) (shiftDown a i n) i (n - 1) (j := j) (by omega)
      refine ⟨j' + 1, by omega, by omega, ?_⟩
      rw [heq, shiftDown_of_le (by omega) (by omega)]
  | case2 a i n hi hp ih =>
      have hne : i ≠ k := fun h => hp (h ▸ hpk)
      exact ih (by omega) hj hpk
  | case3 a i n hi => omega

/-- The removal loop from `i` on, when the elements in front of `i` stay. -/
theorem removeFrom_squeeze_from (a : ℕ → α) (i n : ℕ) (hin : i ≤ n)
    (hkeep : ∀ k < i, ¬ p (a k)) :
    ∃ src, Squeeze p a n (removeFrom p a i n).1 (removeFrom p a i n).2 src := by
  fun_induction removeFrom p a i n with
  | case1 a i n hi hp ih =>
      obtain ⟨src, hsrc⟩ := ih (by omega) fun k hk => by
        rw [shiftDown_of_lt hk]
        exact hkeep k hk
      -- an index of the shifted array is the index behind it in the array itself
      have hval : ∀ k < n - 1,
          shiftDown a i n k = a (if k < i then k else k + 1) := by
        intro k hk
        by_cases hki : k < i
        · rw [if_pos hki, shiftDown_of_lt hki]
        · rw [if_neg hki, shiftDown_of_le (by omega) (by omega)]
      refine ⟨fun j => if src j < i then src j else src j + 1, ?_, ?_, ?_, ?_, ?_⟩
      · intro j hj
        have := hsrc.src_lt j hj
        split <;> omega
      · intro j k hjk hk
        have := hsrc.src_mono j k hjk hk
        split <;> split <;> omega
      · intro j hj
        rw [hsrc.apply_eq j hj, hval _ (hsrc.src_lt j hj)]
      · intro j hj
        have := hsrc.kept j hj
        rwa [hval _ (hsrc.src_lt j hj)] at this
      · intro k hk hpk
        have hki : k ≠ i := fun h => hpk (h ▸ hp)
        obtain ⟨k', hk', hk'n⟩ : ∃ k', (if k' < i then k' else k' + 1) = k ∧ k' < n - 1 := by
          by_cases hlt : k < i
          · exact ⟨k, if_pos hlt, by omega⟩
          · exact ⟨k - 1, by rw [if_neg (by omega)]; omega, by omega⟩
        obtain ⟨j, hj, hjk⟩ := hsrc.onto k' hk'n (by rw [hval k' hk'n, hk']; exact hpk)
        exact ⟨j, hj, by rw [hjk]; exact hk'⟩
  | case2 a i n hi hp ih =>
      refine ih (by omega) fun k hk => ?_
      rcases Nat.lt_succ_iff_lt_or_eq.1 hk with hlt | rfl
      · exact hkeep k hlt
      · exact hp
  | case3 a i n hi =>
      exact ⟨id, Squeeze.refl fun k hk => hkeep k (by omega)⟩

/-- **In-place removal is filtering.**  Below the new length the loop leaves
the elements that stay, in order and without omission. -/
theorem removeFrom_squeeze (a : ℕ → α) (n : ℕ) :
    ∃ src, Squeeze p a n (removeFrom p a 0 n).1 (removeFrom p a 0 n).2 src :=
  removeFrom_squeeze_from a 0 n (Nat.zero_le n) fun _ hk => absurd hk (Nat.not_lt_zero _)

/-- The removal loop from `i` on, as a filter of the list from `i` on. -/
theorem removeFrom_filter_from (a : ℕ → α) {i n : ℕ} (hi : i ≤ n) :
    (List.range' i ((removeFrom p a i n).2 - i)).map (removeFrom p a i n).1 =
      ((List.range' i (n - i)).map a).filter fun x => ¬ p x := by
  fun_induction removeFrom p a i n with
  | case1 a i n hin hp ih =>
      rw [ih (by omega), map_shiftDown a hin, range'_eq_cons hin, List.map_cons,
        List.filter_cons_of_neg (by simpa using hp)]
  | case2 a i n hin hp ih =>
      have hle : i < (removeFrom p a (i + 1) n).2 := le_removeFrom_length (p := p) a hin
      rw [range'_eq_cons hle, range'_eq_cons hin, List.map_cons, List.map_cons,
        List.filter_cons_of_pos (by simpa using hp), ih hin,
        removeFrom_of_lt _ _ _ (Nat.lt_succ_self i)]
  | case3 a i n hin =>
      have h0 : n - i = 0 := by omega
      simp [h0]

theorem removeFrom_filter (a : ℕ → α) (n : ℕ) :
    (List.range (removeFrom p a 0 n).2).map (removeFrom p a 0 n).1 =
      ((List.range n).map a).filter fun x => ¬ p x := by
  simpa only [List.range_eq_range', Nat.sub_zero] using
    removeFrom_filter_from (p := p) a (Nat.zero_le n)

end Removal

end PotHub.Lib
