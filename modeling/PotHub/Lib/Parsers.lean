import Mathlib.Tactic.Common
import Mathlib.Data.List.Basic

/-!
# Parsers of a prefix

A parser reads a value from the front of a list of symbols and returns the
rest.  It is stable when symbols put behind its input stay in the rest and
change nothing else; a parser that reads as far as it can is stable only when
something in the rest has stopped it.

The bracketed list is the one recursive form here: items between separators, up
to a closing symbol, with blanks in between.  A list that is printed item by
item is read item by item (`Reads.cons`, `Reads.last`).
-/

namespace PotHub.Lib

universe u v

variable {χ : Type u} {β : Type v}

/-- A parser: the value read and the rest. -/
abbrev Parser (χ : Type u) (β : Type v) := List χ → Option (β × List χ)

namespace Parser

/-- The parser reads one symbol at least. -/
def Consumes (p : Parser χ β) : Prop := ∀ w v r, p w = some (v, r) → r.length < w.length

theorem Consumes.nil {p : Parser χ β} (h : p.Consumes) : p [] = none := by
  cases hp : p [] with
  | none => rfl
  | some q => exact absurd (h _ _ _ hp) (Nat.not_lt_zero _)

/-- Symbols put behind the input stay in the rest, whenever the rest has a
symbol that stops the parser. -/
def StableAt (stop : χ → Prop) (p : Parser χ β) : Prop :=
  ∀ w v r x, p w = some (v, r) → (∃ c ∈ r, stop c) → p (w ++ x) = some (v, r ++ x)

/-- Symbols put behind the input stay in the rest. -/
def Stable (p : Parser χ β) : Prop := ∀ w v r x, p w = some (v, r) → p (w ++ x) = some (v, r ++ x)

end Parser

/-! ## Blanks -/

theorem dropWhile_append_of_cons {ws : χ → Bool} {w x r : List χ} {c : χ}
    (h : w.dropWhile ws = c :: r) : (w ++ x).dropWhile ws = c :: (r ++ x) := by
  rw [List.dropWhile_append, h]
  rfl

theorem length_dropWhile_le (ws : χ → Bool) (w : List χ) : (w.dropWhile ws).length ≤ w.length :=
  (List.dropWhile_sublist ws).length_le

theorem mem_of_dropWhile_eq_cons {ws : χ → Bool} {w r : List χ} {c : χ}
    (h : w.dropWhile ws = c :: r) : c ∈ w :=
  (List.dropWhile_sublist ws).mem (h ▸ List.mem_cons_self)

/-! ## Lists -/

section Lists

variable [DecidableEq χ] (ws : χ → Bool) (sep close : χ)

/-- Items between separators up to the closing symbol, `n` of them at most. -/
def sepBy (item : Parser χ β) : ℕ → Parser χ (List β)
  | 0, _ => none
  | n + 1, w =>
      match item (w.dropWhile ws) with
      | none => none
      | some (v, r) =>
          match r.dropWhile ws with
          | [] => none
          | c :: r' =>
              if c = sep then (sepBy item n r').map fun p => (v :: p.1, p.2)
              else if c = close then some ([v], r')
              else none

/-- What stands behind an opening symbol: nothing or some items, and the
closing symbol. -/
def listIn (item : Parser χ β) : Parser χ (List β) := fun w =>
  match w.dropWhile ws with
  | [] => none
  | c :: r => if c = close then some ([], r) else sepBy ws sep close item w.length w

variable {ws sep close} {item : Parser χ β}

/-- The shape of a successful round. -/
theorem sepBy_succ_eq_some {n : ℕ} {w r : List χ} {vs : List β}
    (h : sepBy ws sep close item (n + 1) w = some (vs, r)) :
    ∃ v r₁ c r₂, item (w.dropWhile ws) = some (v, r₁) ∧ r₁.dropWhile ws = c :: r₂ ∧
      ((c = sep ∧ ∃ vs', sepBy ws sep close item n r₂ = some (vs', r) ∧ vs = v :: vs') ∨
        (c ≠ sep ∧ c = close ∧ r₂ = r ∧ vs = [v])) := by
  rw [sepBy] at h
  cases hv : item (w.dropWhile ws) with
  | none => simp [hv] at h
  | some p =>
      obtain ⟨v, r₁⟩ := p
      cases hr : r₁.dropWhile ws with
      | nil => simp [hv, hr] at h
      | cons c r₂ =>
          refine ⟨v, r₁, c, r₂, rfl, hr, ?_⟩
          simp only [hv, hr] at h
          split_ifs at h with hsep hclose
          · obtain ⟨⟨vs', r'⟩, hrest, heq⟩ := Option.map_eq_some_iff.1 h
            obtain ⟨rfl, rfl⟩ := Prod.mk.inj heq
            exact Or.inl ⟨hsep, vs', hrest, rfl⟩
          · obtain ⟨rfl, rfl⟩ := Prod.mk.inj (Option.some.inj h)
            exact Or.inr ⟨hsep, hclose, rfl, rfl⟩

omit [DecidableEq χ] in
/-- A round takes an item and the symbol behind it. -/
theorem length_round_lt (hitem : item.Consumes) {w r r' : List χ} {v : β} {c : χ}
    (hv : item (w.dropWhile ws) = some (v, r)) (hr : r.dropWhile ws = c :: r') :
    r'.length + 1 < w.length := by
  have h₁ := hitem _ _ _ hv
  have h₂ := length_dropWhile_le ws w
  have h₃ := length_dropWhile_le ws r
  rw [hr, List.length_cons] at h₃
  omega

theorem sepBy_length_lt {n : ℕ} {w r : List χ} {vs : List β} (hitem : item.Consumes)
    (h : sepBy ws sep close item n w = some (vs, r)) : r.length < w.length := by
  induction n generalizing w vs with
  | zero => simp [sepBy] at h
  | succ n ih =>
      obtain ⟨v, r₁, c, r₂, hv, hr, hc⟩ := sepBy_succ_eq_some h
      have hlt := length_round_lt hitem hv hr
      rcases hc with ⟨-, vs', hrest, -⟩ | ⟨-, -, rfl, -⟩
      · have := ih hrest
        omega
      · omega

/-- The number of rounds is no limit: every round takes a symbol. -/
theorem sepBy_rounds (hitem : item.Consumes) {n : ℕ} {w : List χ} (hn : w.length ≤ n) :
    sepBy ws sep close item n w = sepBy ws sep close item w.length w := by
  have hnil := hitem.nil
  -- on the number of rounds; the rest of a round is shorter than its input
  induction n using Nat.strongRecOn generalizing w with
  | ind n ih =>
      match n, w with
      | 0, w => rw [Nat.le_zero.1 hn]
      | n + 1, [] => simp [sepBy, hnil]
      | n + 1, b :: w =>
          rw [List.length_cons, sepBy, sepBy]
          cases hv : item ((b :: w).dropWhile ws) with
          | none => rfl
          | some p =>
              obtain ⟨v, r⟩ := p
              cases hr : r.dropWhile ws with
              | nil => simp only [hr]
              | cons c r' =>
                  have hlt := length_round_lt hitem hv hr
                  rw [List.length_cons] at hlt hn
                  have hle : r'.length ≤ w.length := by omega
                  simp only [hr]
                  rw [ih n (by omega) (by omega), ih w.length (by omega) hle]

/-- One round, where the item and the symbol behind it are known. -/
theorem sepBy_round (hitem : item.Consumes) {w r r' : List χ} {v : β} {c : χ}
    (hv : item (w.dropWhile ws) = some (v, r)) (hr : r.dropWhile ws = c :: r') :
    sepBy ws sep close item w.length w =
      if c = sep then (sepBy ws sep close item r'.length r').map fun p => (v :: p.1, p.2)
      else if c = close then some ([v], r')
      else none := by
  have hlt := length_round_lt hitem hv hr
  obtain ⟨n, hn⟩ : ∃ n, w.length = n + 1 := ⟨w.length - 1, by omega⟩
  have hround : sepBy ws sep close item n r' = sepBy ws sep close item r'.length r' :=
    sepBy_rounds hitem (by omega)
  rw [hn, sepBy, hv]
  simp only [hr, hround]

theorem sepBy_round_eq_some (hitem : item.Consumes) {w r : List χ} {vs : List β}
    (h : sepBy ws sep close item w.length w = some (vs, r)) :
    ∃ v r₁ c r₂, item (w.dropWhile ws) = some (v, r₁) ∧ r₁.dropWhile ws = c :: r₂ ∧
      ((c = sep ∧ ∃ vs', sepBy ws sep close item r₂.length r₂ = some (vs', r) ∧ vs = v :: vs') ∨
        (c = close ∧ r₂ = r ∧ vs = [v])) := by
  obtain ⟨n, hn⟩ : ∃ n, w.length = n + 1 := by
    cases hw : w.length with
    | zero => simp [hw, sepBy] at h
    | succ n => exact ⟨n, rfl⟩
  obtain ⟨v, r₁, c, r₂, hv, hr, hc⟩ := sepBy_succ_eq_some (hn ▸ h)
  have hlt := length_round_lt hitem hv hr
  refine ⟨v, r₁, c, r₂, hv, hr, hc.imp ?_ And.right⟩
  rintro ⟨hsep, vs', hrest, rfl⟩
  exact ⟨hsep, vs', sepBy_rounds hitem (by omega : r₂.length ≤ n) ▸ hrest, rfl⟩

/-- More input changes nothing about what has been read. -/
theorem sepBy_append {stop : χ → Prop} (hread : item.Consumes) (hitem : item.StableAt stop)
    (hsep : stop sep) (hclose : stop close) {n : ℕ} {w r : List χ} {vs : List β} (x : List χ)
    (h : sepBy ws sep close item n w = some (vs, r)) :
    sepBy ws sep close item n (w ++ x) = some (vs, r ++ x) := by
  induction n generalizing w vs with
  | zero => simp [sepBy] at h
  | succ n ih =>
      obtain ⟨v, r₁, c, r₂, hv, hr, hc⟩ := sepBy_succ_eq_some h
      have hstop : stop c := by
        rcases hc with ⟨rfl, -⟩ | ⟨-, rfl, -⟩
        · exact hsep
        · exact hclose
      have hv' := hitem _ _ _ x hv ⟨c, mem_of_dropWhile_eq_cons hr, hstop⟩
      have hw : (w ++ x).dropWhile ws = w.dropWhile ws ++ x := by
        cases hd : w.dropWhile ws with
        | nil => exact absurd (hd ▸ hv) (by simp [hread.nil])
        | cons c r => rw [dropWhile_append_of_cons hd, List.cons_append]
      rw [sepBy, hw, hv']
      simp only [dropWhile_append_of_cons hr]
      rcases hc with ⟨rfl, vs', hrest, rfl⟩ | ⟨hne, rfl, rfl, rfl⟩
      · rw [if_pos rfl, ih hrest, Option.map_some]
      · rw [if_neg hne, if_pos rfl]

/-- What holds of everything that the items are read as holds of all that are
read. -/
theorem forall_of_sepBy {P : β → Prop} (hitem : ∀ w v r, item w = some (v, r) → P v) {n : ℕ}
    {w r : List χ} {vs : List β} (h : sepBy ws sep close item n w = some (vs, r)) :
    ∀ v ∈ vs, P v := by
  induction n generalizing w vs with
  | zero => simp [sepBy] at h
  | succ n ih =>
      obtain ⟨v, r₁, c, r₂, hv, -, hc⟩ := sepBy_succ_eq_some h
      have hP := hitem _ _ _ hv
      rcases hc with ⟨-, vs', hrest, rfl⟩ | ⟨-, -, -, rfl⟩
      · exact List.forall_mem_cons.2 ⟨hP, ih hrest⟩
      · exact List.forall_mem_cons.2 ⟨hP, by simp⟩

theorem forall_of_listIn {P : β → Prop} (hitem : ∀ w v r, item w = some (v, r) → P v)
    {w r : List χ} {vs : List β} (h : listIn ws sep close item w = some (vs, r)) :
    ∀ v ∈ vs, P v := by
  rw [listIn] at h
  split at h
  · simp at h
  · split_ifs at h
    · obtain ⟨rfl, -⟩ := Prod.mk.inj (Option.some.inj h)
      simp
    · exact forall_of_sepBy hitem h

theorem listIn_consumes (hread : item.Consumes) : (listIn ws sep close item).Consumes := by
  intro w vs r h
  have hle := length_dropWhile_le ws w
  rw [listIn] at h
  cases hw : w.dropWhile ws with
  | nil => simp [hw] at h
  | cons c r₁ =>
      simp only [hw] at h
      split_ifs at h with hc
      · obtain ⟨-, rfl⟩ := Prod.mk.inj (Option.some.inj h)
        rw [hw, List.length_cons] at hle
        omega
      · exact sepBy_length_lt hread h

/-- A bracketed list ends with its closing symbol, whatever stands behind. -/
theorem listIn_stable {stop : χ → Prop} (hread : item.Consumes) (hitem : item.StableAt stop)
    (hsep : stop sep) (hclose : stop close) : (listIn ws sep close item).Stable := by
  intro w vs r x h
  rw [listIn] at h ⊢
  cases hw : w.dropWhile ws with
  | nil => simp [hw] at h
  | cons c r₁ =>
      rw [dropWhile_append_of_cons hw]
      simp only [hw] at h ⊢
      split_ifs at h ⊢ with hc
      · obtain ⟨rfl, rfl⟩ := Prod.mk.inj (Option.some.inj h)
        rfl
      · -- the longer input has more rounds, which does not matter for the shorter one
        rw [← sepBy_rounds hread (n := (w ++ x).length) (by simp)] at h
        exact sepBy_append hread hitem hsep hclose x h

end Lists

/-! ## Printed lists -/

/-- The parser reads the text as the value, in front of everything that may
stand behind it, and no blank at the front of the text is lost. -/
structure Reads (ws : χ → Bool) (p : Parser χ β) (ok : List χ → Prop) (w : List χ) (v : β) :
    Prop where
  start : ∃ c w', w = c :: w' ∧ ws c = false
  read : ∀ r, ok r → p (w ++ r) = some (v, r)

section Printed

variable [DecidableEq χ] {ws : χ → Bool} {sep close : χ} {item : Parser χ β}
  {ok : List χ → Prop} {w : List χ} {v : β}

omit [DecidableEq χ] in
theorem Reads.dropWhile (h : Reads ws item ok w v) {b : List χ} (hb : ∀ c ∈ b, ws c = true)
    (r : List χ) : (b ++ (w ++ r)).dropWhile ws = w ++ r := by
  obtain ⟨c, w', rfl, hc⟩ := h.start
  rw [List.dropWhile_append_of_pos hb, List.cons_append, List.dropWhile_cons_of_neg (by simp [hc])]

/-- Blanks in front of the items make no difference. -/
theorem sepBy_blanks (hitem : item.Consumes) {b : List χ} (hb : ∀ c ∈ b, ws c = true)
    (w : List χ) : sepBy ws sep close item (b ++ w).length (b ++ w) =
      sepBy ws sep close item w.length w := by
  have hround : ∀ n, sepBy ws sep close item n (b ++ w) = sepBy ws sep close item n w := by
    intro n
    cases n with
    | zero => rfl
    | succ n => rw [sepBy, sepBy, List.dropWhile_append_of_pos hb]
  rw [hround, sepBy_rounds hitem (by simp)]

/-- The last item of a printed list. -/
theorem Reads.last (h : Reads ws item ok w v) (hitem : item.Consumes) (hne : close ≠ sep)
    (hclose : ws close = false) (trail : List χ) (htrail : ∀ c ∈ trail, ws c = true) (r : List χ)
    (hok : ok (trail ++ close :: r)) :
    sepBy ws sep close item (w ++ (trail ++ close :: r)).length (w ++ (trail ++ close :: r)) =
      some ([v], r) := by
  have hdrop := h.dropWhile (b := []) (by simp) (trail ++ close :: r)
  have hv : item ((w ++ (trail ++ close :: r)).dropWhile ws) = some (v, trail ++ close :: r) := by
    rw [show (w ++ (trail ++ close :: r)).dropWhile ws = w ++ (trail ++ close :: r) from hdrop,
      h.read _ hok]
  have hr : (trail ++ close :: r).dropWhile ws = close :: r := by
    rw [List.dropWhile_append_of_pos htrail, List.dropWhile_cons_of_neg (by simp [hclose])]
  rw [sepBy_round hitem hv hr, if_neg hne, if_pos rfl]

/-- An item of a printed list with more items behind it. -/
theorem Reads.cons (h : Reads ws item ok w v) (hitem : item.Consumes) (hsep : ws sep = false)
    (x : List χ) (hok : ok (sep :: x)) :
    sepBy ws sep close item (w ++ sep :: x).length (w ++ sep :: x) =
      (sepBy ws sep close item x.length x).map fun p => (v :: p.1, p.2) := by
  have hdrop := h.dropWhile (b := []) (by simp) (sep :: x)
  have hv : item ((w ++ sep :: x).dropWhile ws) = some (v, sep :: x) := by
    rw [show (w ++ sep :: x).dropWhile ws = w ++ sep :: x from hdrop, h.read _ hok]
  have hr : (sep :: x).dropWhile ws = sep :: x := List.dropWhile_cons_of_neg (by simp [hsep])
  rw [sepBy_round hitem hv hr, if_pos rfl]

/-- An empty list. -/
theorem listIn_nil {b : List χ} (hb : ∀ c ∈ b, ws c = true) (hclose : ws close = false)
    (r : List χ) : listIn ws sep close item (b ++ close :: r) = some ([], r) := by
  rw [listIn, List.dropWhile_append_of_pos hb, List.dropWhile_cons_of_neg (by simp [hclose])]
  exact if_pos rfl

/-- A list with items in it, where no item starts with the closing symbol. -/
theorem listIn_of_sepBy (hitem : item.Consumes) (hclose : ∀ w, item (close :: w) = none)
    {b w r : List χ} {vs : List β} (hb : ∀ c ∈ b, ws c = true)
    (h : sepBy ws sep close item w.length w = some (vs, r)) :
    listIn ws sep close item (b ++ w) = some (vs, r) := by
  obtain ⟨v, r₁, -, -, hv, -⟩ := sepBy_round_eq_some hitem h
  rw [listIn, List.dropWhile_append_of_pos hb]
  cases hw : w.dropWhile ws with
  | nil =>
      rw [hw, hitem.nil] at hv
      exact absurd hv (by simp)
  | cons c w' =>
      have hne : c ≠ close := by
        rintro rfl
        rw [hw, hclose] at hv
        exact absurd hv (by simp)
      simp only [if_neg hne]
      rw [sepBy_blanks hitem hb, h]

end Printed

end PotHub.Lib
