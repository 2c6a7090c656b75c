import Mathlib.Tactic.Common
import Mathlib.Algebra.Group.Nat.Defs
import Mathlib.Data.List.TakeWhile
import Mathlib.Data.List.Induction

/-!
# The strings of C

A string is what stands in front of the first zero in the memory.  `atoi` reads
the decimal number at its front, behind white space and a sign.

A number written with a fixed count of digits, filled up with zeros, is read
back by `atoi`.
-/

namespace PotHub.Lib

/-- The C string at the front of the memory. -/
def cString (memory : List Char) : List Char := memory.takeWhile fun c => c ≠ '\x00'

theorem cString_append_of_mem {w : List Char} (h : '\x00' ∈ w) (x : List Char) :
    cString (w ++ x) = cString w := by
  have hne : (w.takeWhile fun c => c ≠ '\x00').length ≠ w.length := by
    intro hlen
    have hself := (List.takeWhile_sublist fun c => c ≠ '\x00').eq_of_length hlen
    have := List.all_eq_true.1 List.all_takeWhile _ (hself ▸ h)
    simp at this
  rw [cString, List.takeWhile_append, if_neg hne, cString]

theorem cString_append_of_not_mem {w : List Char} (h : '\x00' ∉ w) (x : List Char) :
    cString (w ++ x) = w ++ cString x := by
  have hall : ∀ c ∈ w, (decide (c ≠ '\x00')) = true := by
    intro c hc
    have hne : c ≠ '\x00' := fun hx => h (hx ▸ hc)
    simpa using hne
  rw [cString, List.takeWhile_append_of_pos hall, cString]

theorem cString_cons {c : Char} (h : c ≠ '\x00') (w : List Char) :
    cString (c :: w) = c :: cString w := List.takeWhile_cons_of_pos (by simpa using h)

theorem not_mem_cString (w : List Char) : '\x00' ∉ cString w := fun h => by
  simpa using List.mem_takeWhile_imp h

theorem cString_of_not_mem {w : List Char} (h : '\x00' ∉ w) : cString w = w := by
  simpa [cString] using cString_append_of_not_mem h []

theorem cString_eq_self_iff {w : List Char} : cString w = w ↔ '\x00' ∉ w :=
  ⟨fun h => h ▸ not_mem_cString w, cString_of_not_mem⟩

/-! ## Numbers -/

/-- White space, as `isspace` has it. -/
def isSpace (c : Char) : Bool := c == ' ' || ('\t' ≤ c && c ≤ '\r')

/-- The number that the digits at the front of a text make. -/
def digitsValue (w : List Char) : ℕ := Nat.ofDigitChars 10 (w.takeWhile Char.isDigit) 0

/-- `atoi`, for numbers in the range of `int`. -/
def atoi (w : List Char) : Int :=
  match w.dropWhile isSpace with
  | '-' :: w => -(digitsValue w : Int)
  | '+' :: w => digitsValue w
  | w => digitsValue w

/-- A number in decimal, with zeros in front: the last digits, `k` of them. -/
def padded : ℕ → ℕ → List Char
  | 0, _ => []
  | k + 1, n => padded k (n / 10) ++ [(n % 10).digitChar]

variable {k n : ℕ}

@[simp] theorem length_padded : (padded k n).length = k := by
  induction k generalizing n with
  | zero => rfl
  | succ k ih => simp [padded, ih]

theorem isDigit_of_mem_padded {c : Char} (h : c ∈ padded k n) : c.isDigit = true := by
  induction k generalizing n with
  | zero => simp [padded] at h
  | succ k ih =>
      rcases List.mem_append.1 h with h | h
      · exact ih h
      · rw [List.mem_singleton.1 h, Nat.isDigit_digitChar]
        simpa using Nat.mod_lt n (by omega)

theorem ofDigitChars_padded (h : n < 10 ^ k) : Nat.ofDigitChars 10 (padded k n) 0 = n := by
  induction k generalizing n with
  | zero =>
      rw [Nat.pow_zero] at h
      simpa [padded] using (by omega : 0 = n)
  | succ k ih =>
      have hdiv : n / 10 < 10 ^ k := Nat.div_lt_of_lt_mul (by rwa [Nat.pow_succ'] at h)
      have hmod : n % 10 < 10 := Nat.mod_lt n (by omega)
      rw [padded, Nat.ofDigitChars_append, ih hdiv,
        Nat.ofDigitChars_cons_digitChar_of_lt_ten hmod, Nat.ofDigitChars_nil]
      omega

/-- Digits are a number, padded to their count. -/
theorem exists_padded {w : List Char} (h : ∀ c ∈ w, c.isDigit = true) :
    ∃ n, n < 10 ^ w.length ∧ w = padded w.length n := by
  induction w using List.reverseRecOn with
  | nil => exact ⟨0, by simp, rfl⟩
  | append_singleton w c ih =>
      obtain ⟨n, hn, hw⟩ := ih fun d hd => h d (List.mem_append_left _ hd)
      obtain ⟨hlow, hhigh⟩ := Char.isDigit_iff_toNat.1 (h c (by simp))
      simp only [Char.reduceToNat] at hlow hhigh
      have hc : (c.toNat - 48).digitChar = c := by
        rw [← Char.toNat_inj, Nat.toNat_digitChar_of_lt_ten (by omega)]
        omega
      have hdiv : (10 * n + (c.toNat - 48)) / 10 = n := by omega
      have hmod : (10 * n + (c.toNat - 48)) % 10 = c.toNat - 48 := by omega
      refine ⟨10 * n + (c.toNat - 48), ?_, ?_⟩
      · rw [List.length_append, List.length_singleton, Nat.pow_succ]
        omega
      · rw [List.length_append, List.length_singleton, padded, hdiv, hmod, ← hw, hc]

theorem digitsValue_of_digits {w : List Char} (h : ∀ c ∈ w, c.isDigit = true) :
    digitsValue w = Nat.ofDigitChars 10 w 0 := by
  rw [digitsValue, List.takeWhile_eq_self_iff.2 h]

/-- A digit is neither white space nor a sign. -/
theorem digit_cases {c : Char} (h : c.isDigit = true) :
    isSpace c = false ∧ c ≠ '-' ∧ c ≠ '+' := by
  have hle : '0'.val ≤ c.val := by
    simp only [Char.isDigit, Bool.and_eq_true, decide_eq_true_eq] at h
    exact h.1
  have hge : 48 ≤ c.toNat := hle
  refine ⟨?_, ?_, ?_⟩
  · have hsp : c ≠ ' ' := by rintro rfl; simp at hge
    have hr : ¬ c ≤ '\r' := fun hr => absurd (show c.toNat ≤ 13 from hr) (by omega)
    simp [isSpace, hsp, hr]
  · rintro rfl
    simp at hge
  · rintro rfl
    simp at hge

theorem atoi_of_digits {w : List Char} (h : ∀ c ∈ w, c.isDigit = true) :
    atoi w = Nat.ofDigitChars 10 w 0 := by
  rw [← digitsValue_of_digits h]
  cases w with
  | nil => rfl
  | cons c w =>
      obtain ⟨hspace, hminus, hplus⟩ := digit_cases (h c List.mem_cons_self)
      rw [atoi, List.dropWhile_cons_of_neg (by simp [hspace])]
      split
      · rename_i heq
        exact absurd (List.cons.inj heq).1 hminus
      · rename_i heq
        exact absurd (List.cons.inj heq).1 hplus
      · rfl

/-- A padded number is read back. -/
theorem atoi_padded (h : n < 10 ^ k) : atoi (padded k n) = n := by
  rw [atoi_of_digits fun _ => isDigit_of_mem_padded, ofDigitChars_padded h]

theorem not_mem_padded : '\x00' ∉ padded k n := fun h =>
  absurd (isDigit_of_mem_padded h) (by decide)

end PotHub.Lib
