import PotHub.Json.Parse
import PotHub.Lib.CStrings

/-!
# What a string literal stands for

A literal without quotes and backslashes stands for itself.  Any other text
behind an opening quote is cut short or rewritten: every escape sequence is
longer than what it stands for, so that a literal with a backslash stands for a
shorter text.
-/

namespace PotHub.Json

open PotHub.Lib

/-- No character of the text means something else inside of a literal. -/
def Plain (w : Text) : Prop := ∀ c ∈ w, c ≠ '"' ∧ c ≠ '\\'

instance : DecidablePred Plain := List.decidableBAll _

variable {w r literal s : Text}

/-! ## The first loop -/

theorem scanString_of_plain (h : Plain w) (r : Text) :
    scanString (w ++ '"' :: r) = some (w, r) := by
  induction w with
  | nil => rfl
  | cons c w ih =>
      obtain ⟨⟨hquote, hback⟩, hw⟩ := List.forall_mem_cons.1 h
      rw [List.cons_append, scanString_cons hquote hback, ih hw, Option.map_some]

/-- The literal is followed by its closing quote. -/
theorem scanString_eq_append (h : scanString w = some (literal, r)) : w = literal ++ '"' :: r := by
  fun_induction scanString w generalizing literal with
  | case1 => simp at h
  | case2 r' =>
      obtain ⟨rfl, rfl⟩ := Prod.mk.inj (Option.some.inj h)
      rfl
  | case3 c w ih =>
      obtain ⟨⟨rest, r'⟩, hrest, heq⟩ := Option.map_eq_some_iff.1 h
      obtain ⟨rfl, rfl⟩ := Prod.mk.inj heq
      rw [ih hrest]
      rfl
  | case4 c w hquote hback ih =>
      obtain ⟨⟨rest, r'⟩, hrest, heq⟩ := Option.map_eq_some_iff.1 h
      obtain ⟨rfl, rfl⟩ := Prod.mk.inj heq
      rw [ih hrest]
      rfl

/-- A backslash in the literal is read with the character behind it. -/
theorem pair_of_scanString (h : scanString w = some (literal, r)) (hmem : '\\' ∈ literal) :
    ∃ c, ['\\', c] <:+: literal := by
  fun_induction scanString w generalizing literal with
  | case1 => simp at h
  | case2 r' =>
      obtain ⟨rfl, -⟩ := Prod.mk.inj (Option.some.inj h)
      simp at hmem
  | case3 c w ih =>
      obtain ⟨⟨rest, r'⟩, -, heq⟩ := Option.map_eq_some_iff.1 h
      obtain ⟨rfl, rfl⟩ := Prod.mk.inj heq
      exact ⟨c, [], rest, rfl⟩
  | case4 c w hquote hback ih =>
      obtain ⟨⟨rest, r'⟩, hrest, heq⟩ := Option.map_eq_some_iff.1 h
      obtain ⟨rfl, rfl⟩ := Prod.mk.inj heq
      rcases List.mem_cons.1 hmem with rfl | hmem
      · -- a single backslash is the last character, and there is no closing quote
        cases w with
        | nil => simp [scanString] at hrest
        | cons c' w => exact absurd rfl (hback c' w rfl)
      · obtain ⟨c', hc'⟩ := ih hrest hmem
        exact ⟨c', List.infix_cons hc'⟩

/-- A quote inside of the literal stands behind a backslash. -/
theorem backslash_of_scanString (h : scanString w = some (literal, r)) {front back : Text}
    (hfront : literal = front ++ '"' :: back) : ∃ front', front = front' ++ ['\\'] := by
  fun_induction scanString w generalizing literal front with
  | case1 => simp at h
  | case2 r' =>
      obtain ⟨rfl, -⟩ := Prod.mk.inj (Option.some.inj h)
      simp at hfront
  | case3 c w ih =>
      obtain ⟨⟨rest, r'⟩, hrest, heq⟩ := Option.map_eq_some_iff.1 h
      obtain ⟨rfl, rfl⟩ := Prod.mk.inj heq
      rcases front with _ | ⟨c', _ | ⟨c'', front⟩⟩
      · simp at hfront
      · simp only [List.cons_append, List.cons.injEq] at hfront
        exact ⟨[], by rw [← hfront.1]; rfl⟩
      · simp only [List.cons_append, List.cons.injEq] at hfront
        obtain ⟨front', rfl⟩ := ih hrest hfront.2.2
        exact ⟨_ :: _ :: front', rfl⟩
  | case4 c w hquote hback ih =>
      obtain ⟨⟨rest, r'⟩, hrest, heq⟩ := Option.map_eq_some_iff.1 h
      obtain ⟨rfl, rfl⟩ := Prod.mk.inj heq
      cases front with
      | nil => exact absurd (List.cons.inj hfront).1 hquote
      | cons c' front =>
          simp only [List.cons_append, List.cons.injEq] at hfront
          obtain ⟨front', rfl⟩ := ih hrest hfront.2
          exact ⟨_ :: front', rfl⟩

/-! ## The second loop -/

theorem unescape_of_plain (h : Plain w) : unescape w = some w := by
  induction w with
  | nil => rfl
  | cons c w ih =>
      obtain ⟨⟨-, hback⟩, hw⟩ := List.forall_mem_cons.1 h
      rw [unescape]
      · rw [ih hw, Option.map_some]
      all_goals simp [hback]

theorem length_utf8_le (codepoint : ℕ) : (utf8 codepoint).length ≤ 4 := by
  rw [utf8]
  split_ifs <;> simp

theorem length_utf8_append {codepoint n : ℕ} {rest r : Text} {p : Char → Prop}
    (h : rest.length ≤ r.length) (hn : r.length + 4 < n) :
    (utf8 codepoint ++ rest).length ≤ n ∧ ∀ c, p c → (utf8 codepoint ++ rest).length < n := by
  have hutf8 := length_utf8_le codepoint
  rw [List.length_append]
  exact ⟨by omega, fun _ _ => by omega⟩

/-- What a literal stands for is no longer than the literal, and shorter if there
is a backslash in it in front of another character. -/
theorem length_unescape (h : unescape literal = some s) :
    s.length ≤ literal.length ∧ ∀ c, ['\\', c] <:+: literal → s.length < literal.length := by
  fun_induction unescape literal generalizing s with
  | case1 =>
      obtain rfl := Option.some.inj h
      simp
  | case2 => simp at h
  | case3 => simp at h
  | case4 =>
      -- a pair of `\u` sequences, for four bytes at most
      rename_i ih
      obtain ⟨rest, hrest, rfl⟩ := Option.map_eq_some_iff.1 h
      exact length_utf8_append (ih hrest).1 (by simp)
  | case5 => simp at h
  | case6 =>
      rename_i ih
      obtain ⟨rest, hrest, rfl⟩ := Option.map_eq_some_iff.1 h
      exact length_utf8_append (ih hrest).1 (by simp)
  | case7 c r _ ih =>
      obtain ⟨o, -, h⟩ := Option.bind_eq_some_iff.1 h
      obtain ⟨rest, hrest, rfl⟩ := Option.map_eq_some_iff.1 h
      have hlen := (ih hrest).1
      simp only [List.length_cons]
      exact ⟨by omega, fun _ _ => by omega⟩
  | case8 =>
      obtain rfl := Option.some.inj h
      exact ⟨le_rfl, fun c hc => absurd hc.length_le (by simp)⟩
  | case9 c r _ hcons hnil ih =>
      obtain ⟨rest, hrest, rfl⟩ := Option.map_eq_some_iff.1 h
      obtain ⟨hle, hlt⟩ := ih hrest
      refine ⟨Nat.succ_le_succ hle, fun c' hc' => Nat.succ_lt_succ (hlt c' ?_)⟩
      refine (List.infix_cons_iff.1 hc').resolve_left fun hfront => ?_
      obtain ⟨hc, r', rfl⟩ := List.cons_prefix_cons.1 hfront
      exact hcons c' r' hc.symm rfl

/-! ## Both loops -/

theorem parseString_of_plain (h : Plain w) (hzero : '\x00' ∉ w) (r : Text) :
    parseString ('"' :: (w ++ '"' :: r)) = some (w, r) := by
  rw [parseString, scanString_of_plain h, Option.bind_some, unescape_of_plain h, Option.map_some]
  exact congrArg (fun s => some (s, r)) (cString_of_not_mem hzero)

/-- A literal that stands for as many characters as it has is plain. -/
theorem plain_of_unescape (hscan : scanString w = some (literal, r))
    (hs : unescape literal = some s) (hlen : literal.length ≤ s.length) : Plain literal := by
  have hback : '\\' ∉ literal := fun hmem => by
    obtain ⟨c, hc⟩ := pair_of_scanString hscan hmem
    exact Nat.not_lt.2 hlen ((length_unescape hs).2 c hc)
  refine fun c hc => ⟨?_, fun h => hback (h ▸ hc)⟩
  rintro rfl
  obtain ⟨front, back, hfront⟩ := List.append_of_mem hc
  obtain ⟨front', rfl⟩ := backslash_of_scanString hscan hfront
  exact hback (by simp [hfront])

/-- The text of a literal is one without zeros. -/
theorem not_mem_of_parseString (h : parseString w = some (s, r)) : '\x00' ∉ s := by
  obtain ⟨w', literal, -, -, hs⟩ := parseString_eq_some h
  obtain ⟨s', -, rfl⟩ := Option.map_eq_some_iff.1 hs
  exact fun hmem => by simpa using List.mem_takeWhile_imp hmem

/-- **When a text survives between quotes.**  If the text that is read is the
one that was put between the quotes, then the text was plain, or it has run into
what follows, past a closing quote behind a backslash. -/
theorem plain_or_overrun (h : parseString ('"' :: (s ++ '"' :: w)) = some (s, r)) :
    (Plain s ∧ r = w) ∨ ∃ skipped, w = skipped ++ '"' :: r ∧
      ∀ front back, skipped = front ++ '"' :: back → ∃ front', front = front' ++ ['\\'] := by
  obtain ⟨w', literal, hw', hscan, hs⟩ := parseString_eq_some h
  obtain ⟨s', hs', hcut⟩ := Option.map_eq_some_iff.1 hs
  obtain rfl : s ++ '"' :: w = w' := List.cons.inj hw' |>.2
  have hsplit := scanString_eq_append hscan
  have hle : s.length ≤ s'.length := by
    rw [← hcut]
    exact (List.takeWhile_sublist _).length_le
  have hle' := (length_unescape hs').1
  rcases Nat.eq_or_lt_of_le (Nat.le_trans hle hle') with heq | hlt
  · obtain ⟨rfl, hrest⟩ := List.append_inj hsplit heq
    exact Or.inl ⟨plain_of_unescape hscan hs' hle, (List.cons.inj hrest).2.symm⟩
  · -- the literal goes on behind the closing quote
    obtain ⟨rest, rfl, hrest⟩ : ∃ rest, literal = s ++ rest ∧ '"' :: w = rest ++ '"' :: r := by
      refine (List.append_eq_append_iff.1 hsplit).resolve_right ?_
      rintro ⟨rest, rfl, -⟩
      rw [List.length_append] at hlt
      omega
    cases rest with
    | nil => simp at hlt
    | cons c skipped =>
        obtain ⟨rfl, hover⟩ := List.cons.inj hrest
        refine Or.inr ⟨skipped, hover, fun front back hfront => ?_⟩
        have hliteral : s ++ '"' :: skipped = (s ++ '"' :: front) ++ '"' :: back := by
          rw [hfront, List.append_assoc, List.cons_append]
        obtain ⟨front', hlast⟩ := backslash_of_scanString hscan hliteral
        rcases List.eq_nil_or_concat front with rfl | ⟨front, c, rfl⟩
        · have := (List.append_inj' hlast rfl).2
          simp at this
        · rw [List.concat_eq_append, ← List.cons_append, ← List.append_assoc] at hlast
          exact ⟨front, by rw [List.concat_eq_append, (List.append_inj' hlast rfl).2]⟩

/-! ## Members -/

variable {D : Type} (m : Doubles D)

/-- The members of an object, up to the closing brace. -/
def parseMembers (k : ℕ) : Parser Char (List (Text × CJson D)) := fun w =>
  sepBy isBlank ',' '}' (parseMember (parseValue m k)) w.length w

/-- An object with a member in it. -/
theorem cJSON_Parse_object (w : Text) :
    cJSON_Parse m ('{' :: '"' :: w) =
      (parseMembers m 999 ('"' :: w)).map fun p => .object p.1 := by
  have hbom : skipUtf8Bom ('{' :: '"' :: w) = '{' :: '"' :: w :=
    if_neg (by simp [List.cons_prefix_cons])
  have hlist : listIn isBlank ',' '}' (parseMember (parseValue m 999)) ('"' :: w) =
      parseMembers m 999 ('"' :: w) := by
    rw [listIn, List.dropWhile_cons_of_neg (by decide)]
    rfl
  have hvalue : parseValue m nestingLimit ('{' :: '"' :: w) =
      (parseMembers m 999 ('"' :: w)).map fun p => (.object p.1, p.2) := by
    show parseValueWith m (some (parseValue m 999)) _ = _
    simp [parseValueWith, parseByFirst, List.cons_prefix_cons, hlist]
  rw [cJSON_Parse, hbom, List.dropWhile_cons_of_neg (by decide), hvalue, Option.map_map]
  rfl

variable {m}

theorem parseMember_of_plain {value : Parser Char (CJson D)} {name : Text} (hname : Plain name)
    (hzero : '\x00' ∉ name) (w : Text) :
    parseMember value ('"' :: (name ++ '"' :: ':' :: w)) =
      (value (w.dropWhile isBlank)).map fun p => ((name, p.1), p.2) := by
  rw [parseMember, parseString_of_plain hname hzero]
  rfl

/-- One member, where the value and the symbol behind it are known. -/
theorem parseMembers_round {k : ℕ} {name w r r' : Text} {v : CJson D} {c : Char}
    (hname : Plain name) (hzero : '\x00' ∉ name)
    (hv : parseValue m k (w.dropWhile isBlank) = some (v, r)) (hr : r.dropWhile isBlank = c :: r') :
    parseMembers m k ('"' :: (name ++ '"' :: ':' :: w)) =
      if c = ',' then (parseMembers m k r').map fun p => ((name, v) :: p.1, p.2)
      else if c = '}' then some ([(name, v)], r')
      else none := by
  refine sepBy_round (parseMember_consumes (parseValue_consumes k)) ?_ hr
  rw [List.dropWhile_cons_of_neg (by decide), parseMember_of_plain hname hzero, hv, Option.map_some]

/-- The first member of a list of members, and what stands behind it. -/
theorem parseMembers_eq_some {k : ℕ} {name w r : Text} {members : List (Text × CJson D)}
    (hname : Plain name) (hzero : '\x00' ∉ name)
    (h : parseMembers m k ('"' :: (name ++ '"' :: ':' :: w)) = some (members, r)) :
    ∃ v r₁ c r₂, parseValue m k (w.dropWhile isBlank) = some (v, r₁) ∧
      r₁.dropWhile isBlank = c :: r₂ ∧
      ((c = ',' ∧ ∃ rest, parseMembers m k r₂ = some (rest, r) ∧ members = (name, v) :: rest) ∨
        (c = '}' ∧ r₂ = r ∧ members = [(name, v)])) := by
  obtain ⟨p, r₁, c, r₂, hp, hr, hc⟩ :=
    sepBy_round_eq_some (parseMember_consumes (parseValue_consumes k)) h
  rw [List.dropWhile_cons_of_neg (by decide), parseMember_of_plain hname hzero] at hp
  obtain ⟨⟨v, r'⟩, hv, heq⟩ := Option.map_eq_some_iff.1 hp
  obtain ⟨rfl, rfl⟩ := Prod.mk.inj heq
  exact ⟨v, r', c, r₂, hv, hr, hc⟩

theorem parseValue_quote (k : ℕ) (w : Text) :
    parseValue m k ('"' :: w) = (parseString ('"' :: w)).map fun p => (.string p.1, p.2) := by
  cases k <;> simp [parseValue, parseValueWith, parseByFirst, List.cons_prefix_cons]

/-- One member whose value is a plain text. -/
theorem parseMembers_plain {k : ℕ} {name r : Text} {c : Char} (hname : Plain name)
    (hzero : '\x00' ∉ name) (hs : Plain s) (hszero : '\x00' ∉ s) (hc : ¬ isBlank c) :
    parseMembers m k ('"' :: (name ++ '"' :: ':' :: '"' :: (s ++ '"' :: c :: r))) =
      if c = ',' then (parseMembers m k r).map fun p => ((name, .string s) :: p.1, p.2)
      else if c = '}' then some ([(name, .string s)], r)
      else none := by
  refine parseMembers_round hname hzero ?_ (List.dropWhile_cons_of_neg hc)
  rw [List.dropWhile_cons_of_neg (by decide), parseValue_quote, parseString_of_plain hs hszero,
    Option.map_some]

end PotHub.Json
