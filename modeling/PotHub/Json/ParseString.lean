import PotHub.Json.Nodes
import PotHub.Json.Strings

/-!
# The strings of the parser in memory

`parse_string` as it writes to memory.  Its first loop has found the closing quote
and counted the backslashes, and the block is allocated for what the literal is
then at most; the second loop writes into it.

The two loops do not always agree: behind a `\u` the second loop takes four
characters whatever they are, and one of them may be the first of a pair for the
first loop.  The literal may then end in a single backslash, and the second loop
reads the closing quote as an escaped one.  It never writes behind the block, which
was counted by the first loop.
-/

namespace PotHub.Json

open PotHub.Lib PotHub.Lib.Heap

variable {D : Type}

/-! ## The functions -/

/-- `skipped_bytes`, behind the first loop. -/
def skippedBytes : Text → ℕ
  | [] => 0
  | '\\' :: _ :: r => 1 + skippedBytes r
  | _ :: r => skippedBytes r

/-- `utf16_literal_to_utf8`, behind `\u`: the bytes that are written, and what is
left of the literal. -/
def utf16LiteralToUtf8 : Text → Option (Text × Text)
  | a :: b :: c :: d :: r =>
      let firstCode := parseHex4 a b c d
      if 0xDC00 ≤ firstCode ∧ firstCode ≤ 0xDFFF then none
      else if 0xD800 ≤ firstCode ∧ firstCode ≤ 0xDBFF then
        match r with
        | '\\' :: 'u' :: e :: f :: g :: h :: r =>
            let secondCode := parseHex4 e f g h
            if secondCode < 0xDC00 ∨ 0xDFFF < secondCode then none
            else
              some (utf8 (0x10000 + (((firstCode &&& 0x3FF) <<< 10) ||| (secondCode &&& 0x3FF))),
                r)
        | _ => none
      else some (utf8 firstCode, r)
  | _ => none

/-- A turn of the second loop: the bytes that are written, and what is left of the
literal.  Behind the literal is the closing quote. -/
def decodeTurn : Char → Text → Option (Text × Text)
  | '\\', 'u' :: r => utf16LiteralToUtf8 r
  | '\\', c :: r => (unescaped c).map fun o => ([o], r)
  | '\\', [] => some (['"'], [])
  | c, r => some ([c], r)

theorem suffix_utf16LiteralToUtf8 {r r' w : Text} (h : utf16LiteralToUtf8 r = some (w, r')) :
    r' <:+ r := by
  unfold utf16LiteralToUtf8 at h
  split at h
  · next a b c d r =>
    simp only at h
    split_ifs at h
    · split at h
      · next e f g h' r =>
        split_ifs at h
        obtain ⟨-, rfl⟩ := Prod.mk.inj (Option.some.inj h)
        exact ⟨[a, b, c, d, '\\', 'u', e, f, g, h'], rfl⟩
      · simp at h
    · obtain ⟨-, rfl⟩ := Prod.mk.inj (Option.some.inj h)
      exact ⟨[a, b, c, d], rfl⟩
  · simp at h

theorem suffix_decodeTurn {c : Char} {r r' w : Text} (h : decodeTurn c r = some (w, r')) :
    r' <:+ r := by
  unfold decodeTurn at h
  split at h
  · exact (suffix_utf16LiteralToUtf8 h).trans (List.suffix_cons _ _)
  · obtain ⟨o, -, heq⟩ := Option.map_eq_some_iff.1 h
    obtain ⟨-, rfl⟩ := Prod.mk.inj heq
    exact List.suffix_cons _ _
  · obtain ⟨-, rfl⟩ := Prod.mk.inj (Option.some.inj h)
    exact List.suffix_refl _
  · obtain ⟨-, rfl⟩ := Prod.mk.inj (Option.some.inj h)
    exact List.suffix_refl _

/-- Bytes written one behind the other. -/
def putBytes (a i : ℕ) (w : Text) : Program (Heap (Block D)) PUnit := do
  match ← Heap.read a with
  | .bytes memory =>
      if i + w.length ≤ memory.length then Heap.write a (.bytes (overwrite memory i w))
      else Program.fault
  | .node _ => Program.fault

/-- The second loop, from the place `i` of the block on, and the terminator. -/
def decodeTo (output i : ℕ) : Text → Program (Heap (Block D)) Bool
  | [] => do
      putBytes output i ['\x00']
      pure true
  | c :: r =>
      match h : decodeTurn c r with
      | none => pure false
      | some (w, r') =>
          have := (suffix_decodeTurn h).length_le
          do
            putBytes output i w
            decodeTo output (i + w.length) r'
termination_by literal => literal.length

variable (alloc : Allocator)

/-- `parse_string`: what is left of the input, if it succeeds. -/
def parseStringTo (item : ℕ) : Text → Program (Heap (Block D)) (Option Text)
  | '"' :: r =>
      match scanString r with
      | none => pure none
      | some (literal, r) => do
          let size := literal.length + 2 - skippedBytes literal
          match ← Heap.alloc alloc.fails fun call => .bytes (alloc.fresh call size) with
          | none => pure none
          | some output =>
              if ← decodeTo output 0 literal then
                modifyItem item fun i => { i with kind := .string, valuestring := some output }
                pure (some r)
              else
                Heap.free output
                pure none
  | _ => pure none

/-! ## The loop in turns -/

theorem unescape_utf16 (r : Text) : unescape ('\\' :: 'u' :: r) =
    (utf16LiteralToUtf8 r).bind fun p => (unescape p.2).map fun s => p.1 ++ s := by
  match r with
  | [] => rfl
  | [a] => rfl
  | [a, b] => rfl
  | [a, b, c] => rfl
  | a :: b :: c :: d :: r =>
      rw [unescape.eq_def, utf16LiteralToUtf8.eq_def]
      simp only
      split_ifs
      · rfl
      · split
        · next e f g h r =>
          by_cases hsecond : parseHex4 e f g h < 0xDC00 ∨ 0xDFFF < parseHex4 e f g h
          · simp only [if_pos hsecond, Option.bind_none]
          · simp only [if_neg hsecond, Option.bind_some]
        · simp
      · rfl

/-- The text that a literal stands for, by the first turn of the loop. -/
theorem unescape_cons (c : Char) (r : Text) :
    unescape (c :: r) = (decodeTurn c r).bind fun p => (unescape p.2).map fun s => p.1 ++ s := by
  by_cases hc : c = '\\'
  · subst hc
    cases r with
    | nil => rfl
    | cons d r =>
        by_cases hd : d = 'u'
        · subst hd
          rw [unescape_utf16, decodeTurn]
        · rw [decodeTurn]
          · rw [unescape]
            · cases unescaped d <;> rfl
            all_goals simp [hd]
          · simpa using hd
  · rw [decodeTurn, unescape]
    · rfl
    all_goals simp [hc]

section Turns

variable {output i : ℕ} {c : Char} {r r' w : Text}

theorem decodeTo_of_none (h : decodeTurn c r = none) :
    (decodeTo output i (c :: r) : Program (Heap (Block D)) Bool) = pure false := by
  rw [decodeTo]
  split
  · rfl
  · next h' => rw [h] at h'; cases h'

theorem decodeTo_of_some (h : decodeTurn c r = some (w, r')) :
    (decodeTo output i (c :: r) : Program (Heap (Block D)) Bool) =
      putBytes output i w >>= fun _ => decodeTo output (i + w.length) r' := by
  rw [decodeTo]
  split
  · next h' => rw [h] at h'; cases h'
  · next h' =>
    obtain ⟨rfl, rfl⟩ := Prod.mk.inj (Option.some.inj (h.symm.trans h'))
    rfl

end Turns

/-! ## The size of the block -/

theorem hexDigit_lt {c : Char} {n : ℕ} (h : hexDigit c = some n) : n < 16 := by
  have hle : ∀ x y : Char, x ≤ y ↔ x.toNat ≤ y.toNat := fun x y => Iff.rfl
  simp only [hexDigit, hle] at h
  split_ifs at h <;> obtain rfl := Option.some.inj h <;> simp_all <;> omega

theorem parseHex4_lt (a b c d : Char) : parseHex4 a b c d < 0x10000 := by
  rw [parseHex4]
  split
  · next ha hb hc hd =>
    have := hexDigit_lt ha
    have := hexDigit_lt hb
    have := hexDigit_lt hc
    have := hexDigit_lt hd
    omega
  · omega

/-- Four hexadecimal digits are three bytes at most. -/
theorem length_utf8_of_lt {codepoint : ℕ} (h : codepoint < 0x10000) :
    (utf8 codepoint).length ≤ 3 := by
  rw [utf8]
  split_ifs <;> simp

theorem skippedBytes_of_ne {c : Char} (h : c ≠ '\\') (r : Text) :
    skippedBytes (c :: r) = skippedBytes r := by
  rw [skippedBytes]
  simp [h]

theorem skippedBytes_backslash (c : Char) (r : Text) :
    skippedBytes ('\\' :: c :: r) = 1 + skippedBytes r := by
  rw [skippedBytes]

/-- A character in front changes the count by one at most. -/
theorem skippedBytes_cons (c : Char) (r : Text) :
    skippedBytes r ≤ skippedBytes (c :: r) ∧ skippedBytes (c :: r) ≤ 1 + skippedBytes r := by
  induction r generalizing c with
  | nil => simp [skippedBytes]
  | cons d r ih =>
      by_cases hc : c = '\\'
      · obtain ⟨hle, hge⟩ := ih d
        rw [hc, skippedBytes_backslash]
        omega
      · rw [skippedBytes_of_ne hc]
        omega

theorem skippedBytes_cons_cons (c d : Char) (r : Text) :
    skippedBytes (c :: d :: r) ≤ 1 + skippedBytes r := by
  by_cases hc : c = '\\'
  · rw [hc, skippedBytes_backslash]
  · rw [skippedBytes_of_ne hc]
    exact (skippedBytes_cons d r).2

theorem skippedBytes_le_length (w : Text) : skippedBytes w ≤ w.length := by
  induction w with
  | nil => exact le_rfl
  | cons c w ih =>
      have := (skippedBytes_cons c w).2
      rw [List.length_cons]
      omega

theorem room_utf16LiteralToUtf8 {r r' w : Text} (h : utf16LiteralToUtf8 r = some (w, r')) :
    w.length + r'.length + skippedBytes r + 1 ≤ r.length + 2 + skippedBytes r' := by
  unfold utf16LiteralToUtf8 at h
  split at h
  · next a b c d r =>
    have hab := skippedBytes_cons_cons a b (c :: d :: r)
    have hcd := skippedBytes_cons_cons c d r
    simp only at h
    split_ifs at h
    · split at h
      · next e f g h' r =>
        split_ifs at h
        obtain ⟨rfl, rfl⟩ := Prod.mk.inj (Option.some.inj h)
        -- A pair of surrogates: twelve characters for four bytes at most.
        have hef := skippedBytes_cons_cons e f (g :: h' :: r)
        have hgh := skippedBytes_cons_cons g h' r
        have hu := skippedBytes_backslash 'u' (e :: f :: g :: h' :: r)
        refine Nat.le_trans (Nat.add_le_add_right (Nat.add_le_add_right (Nat.add_le_add_right
          (length_utf8_le _) _) _) _) ?_
        simp only [List.length_cons]
        omega
      · simp at h
    · -- One sequence: six characters for three bytes at most.
      obtain ⟨rfl, rfl⟩ := Prod.mk.inj (Option.some.inj h)
      have hlen := length_utf8_of_lt (parseHex4_lt a b c d)
      simp only [List.length_cons]
      omega
  · simp at h

/-- A turn leaves room in the block for what is left of the literal. -/
theorem room_decodeTurn {c : Char} {r r' w : Text} (h : decodeTurn c r = some (w, r')) :
    w.length + r'.length + skippedBytes (c :: r) ≤ (c :: r).length + skippedBytes r' := by
  unfold decodeTurn at h
  split at h
  · have := room_utf16LiteralToUtf8 h
    rw [skippedBytes_backslash]
    simp only [List.length_cons]
    omega
  · obtain ⟨o, -, heq⟩ := Option.map_eq_some_iff.1 h
    obtain ⟨rfl, rfl⟩ := Prod.mk.inj heq
    rw [skippedBytes_backslash]
    simp only [List.length_cons, List.length_nil]
    omega
  · obtain ⟨rfl, rfl⟩ := Prod.mk.inj (Option.some.inj h)
    simp [skippedBytes]
  · next hu hback hend =>
    obtain ⟨rfl, rfl⟩ := Prod.mk.inj (Option.some.inj h)
    have hc : c ≠ '\\' := by
      rintro rfl
      cases r with
      | nil => exact hend rfl rfl
      | cons d r => exact hback d r rfl rfl
    rw [skippedBytes_of_ne hc]
    simp only [List.length_cons, List.length_nil]
    omega

/-! ## The second loop -/

variable {alloc} {failed : Bool} {a : ℕ} {memory front rest w literal : Text}

theorem gives_putBytes {i : ℕ} (h : i + w.length ≤ memory.length) :
    Gives failed (.pointsTo a (.bytes memory : Block D)) (putBytes a i w) ⟨⟩
      (.pointsTo a (.bytes (overwrite memory i w))) := by
  refine gives_read.seq ?_
  show Triple failed _ (if i + w.length ≤ memory.length then _ else _) _
  rw [if_pos h]
  exact gives_write _

theorem gives_decodeTo {i : ℕ} (hi : i = front.length)
    (hroom : literal.length + 1 ≤ rest.length + skippedBytes literal) :
    Gives failed (.pointsTo a (.bytes (front ++ rest) : Block D))
      (decodeTo a i literal) (unescape literal).isSome
      (⨆ memory, .fact (∀ s, unescape literal = some s →
        ∃ rest', memory = front ++ s ++ '\x00' :: rest') * .pointsTo a (.bytes memory)) := by
  induction i, literal using decodeTo.induct generalizing front rest with
  | case1 i =>
      -- The literal is at its end, and the terminator is written.
      rw [decodeTo, hi]
      have hroom : 1 ≤ rest.length := by simpa [skippedBytes] using hroom
      refine (gives_putBytes (by simpa using hroom)).seq ?_
      rw [overwrite_append, unescape]
      refine Gives.pure (le_iSup_of_le _ (Assn.le_fact_mul ?_ le_rfl))
      rintro s hs
      obtain rfl := Option.some.inj hs
      exact ⟨rest.drop 1, by simp⟩
  | case2 i c r h =>
      rw [decodeTo_of_none h, unescape_cons, h]
      refine Gives.pure (le_iSup_of_le _ (Assn.le_fact_mul ?_ le_rfl))
      simp
  | case3 i c r w r' h this ih =>
      -- The bytes of this turn fit, and what they leave is room for the other turns.
      have hturn := room_decodeTurn h
      have hskipped := skippedBytes_le_length r'
      rw [decodeTo_of_some h, unescape_cons, h, hi]
      refine (gives_putBytes ?_).seq ?_
      · rw [List.length_append]
        omega
      · rw [overwrite_append, Option.bind_some, Option.isSome_map, ← hi]
        refine Triple.mono (ih ?_ ?_) le_rfl fun f v => ?_
        · rw [hi, List.length_append]
        · rw [List.length_drop]
          omega
        · gcongr with memory
          refine Assn.fact_mono fun hmemory s hs => ?_
          obtain ⟨s', hs', rfl⟩ := Option.map_eq_some_iff.1 hs
          obtain ⟨rest', hrest'⟩ := hmemory s' hs'
          exact ⟨rest', by rw [hrest', List.append_assoc front]⟩

theorem cString_append_zero (s r : Text) : cString (s ++ '\x00' :: r) = cString s := by
  by_cases hs : '\x00' ∈ s
  · exact cString_append_of_mem hs _
  · rw [cString_append_of_not_mem hs, cString_of_not_mem hs]
    simp [cString]

/-- A block of its own for the literal. -/
theorem gives_decodeTo_zero
    (hroom : literal.length + 1 ≤ memory.length + skippedBytes literal) :
    Gives failed (.pointsTo a (.bytes memory : Block D)) (decodeTo a 0 literal)
      (unescape literal).isSome (⨆ memory, .fact (∀ s, unescape literal = some s →
        '\x00' ∈ memory ∧ cString memory = cString s) * .pointsTo a (.bytes memory)) := by
  have hdecode : Gives failed (.pointsTo a (.bytes ([] ++ memory) : Block D))
      (decodeTo a 0 literal) _ _ := gives_decodeTo rfl hroom
  refine Triple.mono hdecode le_rfl fun f v => mul_le_mul' le_rfl (iSup_mono fun memory' => ?_)
  refine mul_le_mul' (Assn.fact_mono fun h s hs => ?_) le_rfl
  obtain ⟨rest, rfl⟩ := h s hs
  exact ⟨by simp, cString_append_zero s rest⟩

/-! ## The function -/

section Outcome

variable {β : Type}

variable (m : Doubles D)

/-- A node without a value, as a function of the parser leaves it when it fails. -/
def unread (a : ℕ) (next prev : Option ℕ) : Assn (Block D) :=
  ⨆ name, nodeAt a next prev (blankBody m name)

/-- What a function of the parser leaves at its node. -/
def outcome (p : Parser Char β) (after : β → Body D) (a : ℕ) (next prev : Option ℕ) (w : Text)
    (failed f : Bool) : Option Text → Assn (Block D)
  | none => .fact (Unless failed f (p w = none)) * unread m a next prev
  | some r =>
      ⨆ v, .fact (f = failed ∧ p w = some (v, r) ∧ r <:+ w ∧ r.length < w.length) *
        nodeAt a next prev (after v)

end Outcome

variable {m : Doubles D} {next prev : Option ℕ} {name : Option Text} {r : Text}

theorem triple_parseStringTo : Triple failed (nodeAt a next prev (blankBody m name))
    (parseStringTo alloc a w) (outcome m parseString (fun s => valueBody m name (.string s))
      a next prev w failed) := by
  have hunread : nodeAt a next prev (blankBody m name) ≤ unread m a next prev :=
    le_iSup_of_le _ le_rfl
  unfold parseStringTo
  split
  · next r =>
    cases hscan : scanString r with
    | none =>
        refine Triple.pure (Assn.le_fact_mul (.self ?_) hunread)
        rw [parseString, hscan]
        rfl
    | some p =>
        obtain ⟨literal, rest⟩ := p
        have hlength := congrArg List.length (scanString_eq_append hscan)
        simp only [List.length_append, List.length_cons] at hlength
        refine Triple.alloc_bind (fun output => ?_)
          (Triple.pure (Assn.le_fact_mul (.inr rfl) hunread))
        have hroom : literal.length + 1 ≤
            (alloc.fresh output (literal.length + 2 - skippedBytes literal)).length +
              skippedBytes literal := by
          rw [length_fresh]
          omega
        refine (gives_decodeTo_zero hroom).bind rfl (Triple.iSup_mul fun memory => ?_)
        rw [mul_assoc]
        refine Triple.fact fun hmemory => ?_
        cases hs : unescape literal with
        | none =>
            refine gives_free.bind_one rfl (Triple.pure (Assn.le_fact_mul (.self ?_) hunread))
            rw [parseString, hscan, Option.bind_some, hs]
            rfl
        | some s =>
            rw [mul_comm]
            refine (gives_modifyItem_value (t := .string (cString s)) ?_).seq ?_
            · intro item hblank
              refine ⟨⟨rfl, hblank.valueint, hblank.valuedouble⟩, rfl, ?_⟩
              rw [mul_comm]
              show _ ≤ siblings [] item.child * _
              rw [siblings_nil]
              exact Assn.le_fact_mul hblank.child
                (le_iSup_of_le _ (Assn.le_fact_mul (hmemory s hs) le_rfl))
            · refine Triple.pure (le_iSup_of_le (cString s) (Assn.le_fact_mul ?_ le_rfl))
              refine ⟨rfl, ?_, ⟨'"' :: literal ++ ['"'], ?_⟩, ?_⟩
              · rw [parseString, hscan, Option.bind_some, hs]
                rfl
              · rw [scanString_eq_append hscan]
                simp
              · rw [List.length_cons]
                omega
  · next hquote =>
    refine Triple.pure (Assn.le_fact_mul (.self ?_) hunread)
    rw [parseString]
    simpa using hquote

end PotHub.Json
