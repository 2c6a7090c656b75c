import PotHub.Json.Tree

/-!
# The parser of cJSON

`cJSON_Parse` and the functions under it.  The input is a text without its
terminating zero, which the parser sees as one more blank at the end.  Every
item is allocated.

The parser returns the first value of the text and does not look at what
follows.  So the value that it returns depends on nothing behind it, with one
exception: a number at the end of the text goes on with what follows.
-/

namespace PotHub.Json

open PotHub.Lib

/-! ## Strings -/

/-- `buffer_skip_whitespace` skips these. -/
def isBlank (c : Char) : Bool := c.toNat ≤ 32

/-- A digit of `parse_hex4`; `none` if it is not one. -/
def hexDigit (c : Char) : Option ℕ :=
  if '0' ≤ c ∧ c ≤ '9' then some (c.toNat - '0'.toNat)
  else if 'A' ≤ c ∧ c ≤ 'F' then some (10 + c.toNat - 'A'.toNat)
  else if 'a' ≤ c ∧ c ≤ 'f' then some (10 + c.toNat - 'a'.toNat)
  else none

/-- `parse_hex4`: zero if one of the four is no digit. -/
def parseHex4 (a b c d : Char) : ℕ :=
  match hexDigit a, hexDigit b, hexDigit c, hexDigit d with
  | some a, some b, some c, some d => ((a * 16 + b) * 16 + c) * 16 + d
  | _, _, _, _ => 0

/-- A byte `10xxxxxx` with the last six bits. -/
def continuationByte (codepoint : ℕ) : Char := Char.ofNat ((codepoint ||| 0x80) &&& 0xBF)

/-- The UTF-8 bytes of a code point up to `0x10FFFF`, as
`utf16_literal_to_utf8` writes them. -/
def utf8 (codepoint : ℕ) : Text :=
  if codepoint < 0x80 then [Char.ofNat (codepoint &&& 0x7F)]
  else if codepoint < 0x800 then
    [Char.ofNat ((codepoint >>> 6 ||| 0xC0) &&& 0xFF), continuationByte codepoint]
  else if codepoint < 0x10000 then
    [Char.ofNat ((codepoint >>> 12 ||| 0xE0) &&& 0xFF), continuationByte (codepoint >>> 6),
      continuationByte codepoint]
  else
    [Char.ofNat ((codepoint >>> 18 ||| 0xF0) &&& 0xFF), continuationByte (codepoint >>> 12),
      continuationByte (codepoint >>> 6), continuationByte codepoint]

/-- The character of an escape sequence other than `\u`. -/
def unescaped : Char → Option Char
  | 'b' => some '\x08'
  | 'f' => some '\x0c'
  | 'n' => some '\n'
  | 'r' => some '\r'
  | 't' => some '\t'
  | '"' => some '"'
  | '\\' => some '\\'
  | '/' => some '/'
  | _ => none

/-- The first loop of `parse_string`, behind the opening quote: the literal up
to the closing one. -/
def scanString : Parser Char Text
  | [] => none
  | '"' :: r => some ([], r)
  | '\\' :: c :: r => (scanString r).map fun p => ('\\' :: c :: p.1, p.2)
  | c :: r => (scanString r).map fun p => (c :: p.1, p.2)

/-- The second loop: the text that the literal stands for.  The four characters
behind a `\u` are taken as they are, and the first loop may have read one of them
with the next.  So a literal may end in a single backslash, and what is read behind
it is the closing quote. -/
def unescape : Text → Option Text
  | [] => some []
  | '\\' :: 'u' :: a :: b :: c :: d :: r =>
      let firstCode := parseHex4 a b c d
      if 0xDC00 ≤ firstCode ∧ firstCode ≤ 0xDFFF then none
      else if 0xD800 ≤ firstCode ∧ firstCode ≤ 0xDBFF then
        match r with
        | '\\' :: 'u' :: e :: f :: g :: h :: r =>
            let secondCode := parseHex4 e f g h
            if secondCode < 0xDC00 ∨ 0xDFFF < secondCode then none
            else
              (unescape r).map fun s =>
                utf8 (0x10000 + (((firstCode &&& 0x3FF) <<< 10) ||| (secondCode &&& 0x3FF))) ++ s
        | _ => none
      else (unescape r).map fun s => utf8 firstCode ++ s
  | '\\' :: c :: r => (unescaped c).bind fun o => (unescape r).map fun s => o :: s
  | ['\\'] => some ['"']
  | c :: r => (unescape r).map fun s => c :: s

/-- `parse_string`.  The output is used as a C string and ends at a zero. -/
def parseString : Parser Char Text
  | '"' :: r =>
      (scanString r).bind fun p =>
        (unescape p.1).map fun s => (s.takeWhile fun c => c ≠ '\x00', p.2)
  | _ => none

/-! ## Numbers -/

/-- The characters that `parse_number` copies. -/
def isNumberChar (c : Char) : Bool := c.isDigit || c ∈ ['+', '-', 'e', 'E', '.']

/-- The size of the buffer `number_c_string`. -/
def numberBufferSize : ℕ := 64

/-- What `parse_number` copies from the front of a text. -/
def numberToken (w : Text) : Text := (w.take (numberBufferSize - 1)).takeWhile isNumberChar

variable {D : Type} (m : Doubles D)

/-- `parse_number`. -/
def parseNumber : Parser Char (CJson D) := fun w =>
  let number := m.strtod (numberToken w)
  if number.2 = 0 then none else some (.number number.1 (m.toInt number.1), w.drop number.2)

/-! ## Values -/

/-- A round of `parse_object`: the name, the colon and the value. -/
def parseMember (value : Parser Char (CJson D)) : Parser Char (Text × CJson D) := fun w =>
  match parseString w with
  | none => none
  | some (name, r) =>
      match r.dropWhile isBlank with
      | ':' :: r => (value (r.dropWhile isBlank)).map fun p => ((name, p.1), p.2)
      | _ => none

/-- `parse_value` behind its test for the three words: a string, a number, an
array or an object, by the first character.  There is no parser of the values
inside when the nesting is too deep. -/
def parseByFirst (inner : Option (Parser Char (CJson D))) : Parser Char (CJson D) := fun w =>
  match w with
  | [] => none
  | c :: r =>
      if c = '"' then (parseString w).map fun p => (.string p.1, p.2)
      else if c = '-' ∨ c.isDigit then parseNumber m w
      else if c = '[' then inner.bind fun value =>
        (listIn isBlank ',' ']' value r).map fun p => (.array p.1, p.2)
      else if c = '{' then inner.bind fun value =>
        (listIn isBlank ',' '}' (parseMember value) r).map fun p => (.object p.1, p.2)
      else none

/-- `parse_value`. -/
def parseValueWith (inner : Option (Parser Char (CJson D))) : Parser Char (CJson D) := fun w =>
  if "null".toList <+: w then some (.null, w.drop 4)
  else if "false".toList <+: w then some (.false, w.drop 5)
  else if "true".toList <+: w then some (.true, w.drop 4)
  else parseByFirst m inner w

/-- `parse_value`, with the number of levels still to go. -/
def parseValue : ℕ → Parser Char (CJson D)
  | 0 => parseValueWith m none
  | k + 1 => parseValueWith m (some (parseValue k))

/-- `CJSON_NESTING_LIMIT`. -/
def nestingLimit : ℕ := 1000

/-- `skip_utf8_bom`. -/
def skipUtf8Bom (w : Text) : Text :=
  if 4 ≤ w.length ∧ ['\xEF', '\xBB', '\xBF'] <+: w then w.drop 3 else w

/-- `cJSON_Parse`; `none` is the null pointer. -/
def cJSON_Parse (value : Text) : Option (CJson D) :=
  (parseValue m nestingLimit ((skipUtf8Bom value).dropWhile isBlank)).map Prod.fst

/-! ## What follows a value does not matter -/

theorem scanString_consumes : Parser.Consumes scanString := by
  intro w
  fun_induction scanString w with
  | case1 => simp
  | case2 r => simp
  | case3 c r ih =>
      intro v r' h
      obtain ⟨⟨v', r''⟩, hr, heq⟩ := Option.map_eq_some_iff.1 h
      obtain ⟨-, rfl⟩ := Prod.mk.inj heq
      have := ih _ _ hr
      simp only [List.length_cons]
      omega
  | case4 c r _ _ ih =>
      intro v r' h
      obtain ⟨⟨v', r''⟩, hr, heq⟩ := Option.map_eq_some_iff.1 h
      obtain ⟨-, rfl⟩ := Prod.mk.inj heq
      have := ih _ _ hr
      simp only [List.length_cons]
      omega

theorem scanString_cons {c : Char} (hquote : c ≠ '"') (hback : c ≠ '\\') (r : Text) :
    scanString (c :: r) = (scanString r).map fun p => (c :: p.1, p.2) := by
  rw [scanString]
  · simpa using hquote
  · simp [hback]

theorem scanString_stable : Parser.Stable scanString := by
  intro w
  fun_induction scanString w with
  | case1 => simp
  | case2 r =>
      intro v r' x h
      obtain ⟨rfl, rfl⟩ := Prod.mk.inj (Option.some.inj h)
      rfl
  | case3 c r ih =>
      intro v r' x h
      obtain ⟨⟨v', r''⟩, hr, heq⟩ := Option.map_eq_some_iff.1 h
      obtain ⟨rfl, rfl⟩ := Prod.mk.inj heq
      simp [scanString, ih _ _ x hr]
  | case4 c r hquote hback ih =>
      intro v r' x h
      obtain ⟨⟨v', r''⟩, hr, heq⟩ := Option.map_eq_some_iff.1 h
      obtain ⟨rfl, rfl⟩ := Prod.mk.inj heq
      -- a backslash would have the next character with it, or none at all
      have hne : c ≠ '\\' := by
        rintro rfl
        match r with
        | [] => simp [scanString] at hr
        | c' :: r => exact hback c' r rfl rfl
      rw [List.cons_append, scanString_cons hquote hne, ih _ _ x hr, Option.map_some]

theorem parseString_eq_some {w s r : Text} (h : parseString w = some (s, r)) :
    ∃ w' literal, w = '"' :: w' ∧ scanString w' = some (literal, r) ∧
      (unescape literal).map (fun s => s.takeWhile fun c => c ≠ '\x00') = some s := by
  unfold parseString at h
  split at h
  · obtain ⟨⟨literal, r'⟩, hscan, h⟩ := Option.bind_eq_some_iff.1 h
    obtain ⟨s', hs', heq⟩ := Option.map_eq_some_iff.1 h
    obtain ⟨rfl, rfl⟩ := Prod.mk.inj heq
    exact ⟨_, literal, rfl, hscan, by rw [hs', Option.map_some]⟩
  · simp at h

theorem parseString_consumes : Parser.Consumes parseString := by
  intro w s r h
  obtain ⟨w', literal, rfl, hscan, -⟩ := parseString_eq_some h
  have := scanString_consumes _ _ _ hscan
  simp only [List.length_cons]
  omega

theorem parseString_stable : Parser.Stable parseString := by
  intro w s r x h
  obtain ⟨w', literal, rfl, hscan, hs⟩ := parseString_eq_some h
  obtain ⟨s', hs', rfl⟩ := Option.map_eq_some_iff.1 hs
  simp [parseString, scanString_stable _ _ _ x hscan, hs']

/-- A character that stops `parse_number`. -/
def StopsNumber (c : Char) : Prop := isNumberChar c = false

instance : DecidablePred StopsNumber := fun _ => inferInstanceAs (Decidable (_ = _))

theorem length_numberToken_le (w : Text) : (numberToken w).length ≤ w.length :=
  ((List.takeWhile_sublist _).trans (List.take_sublist _ _)).length_le

/-- With a character in the text that stops a number, what follows the text is
no part of the number. -/
theorem numberToken_append {w : Text} (hstop : ∃ c ∈ w, StopsNumber c) (x : Text) :
    numberToken (w ++ x) = numberToken w := by
  obtain ⟨c, hc, hstop⟩ := hstop
  have hne : (w.takeWhile isNumberChar).length ≠ w.length := by
    intro hlen
    have hself := (List.takeWhile_sublist isNumberChar).eq_of_length hlen
    have hall : isNumberChar c = true := List.all_eq_true.1 List.all_takeWhile c (hself ▸ hc)
    rw [hstop] at hall
    exact absurd hall (by simp)
  simp only [numberToken, ← List.take_takeWhile]
  rw [List.takeWhile_append, if_neg hne]

variable {m}

theorem parseNumber_eq_some {w r : Text} {v : CJson D} (h : parseNumber m w = some (v, r)) :
    0 < (m.strtod (numberToken w)).2 ∧ r = w.drop (m.strtod (numberToken w)).2 := by
  simp only [parseNumber] at h
  split_ifs at h with h0
  obtain ⟨-, rfl⟩ := Prod.mk.inj (Option.some.inj h)
  exact ⟨Nat.pos_of_ne_zero h0, rfl⟩

theorem used_le_length (w : Text) : (m.strtod (numberToken w)).2 ≤ w.length :=
  Nat.le_trans (m.strtod_le _) (length_numberToken_le w)

theorem parseNumber_consumes : Parser.Consumes (parseNumber m) := by
  intro w v r h
  obtain ⟨hpos, rfl⟩ := parseNumber_eq_some h
  have := used_le_length (m := m) w
  rw [List.length_drop]
  omega

theorem parseNumber_stableAt : Parser.StableAt StopsNumber (parseNumber m) := by
  intro w v r x h hstop
  obtain ⟨-, rfl⟩ := parseNumber_eq_some h
  obtain ⟨c, hc, hstop⟩ := hstop
  have htoken := numberToken_append ⟨c, List.mem_of_mem_drop hc, hstop⟩ x
  simp only [parseNumber] at h ⊢
  rw [htoken, List.drop_append_of_le_length (used_le_length w)]
  split_ifs at h ⊢
  obtain ⟨rfl, -⟩ := Prod.mk.inj (Option.some.inj h)
  rfl

section Member

variable {value : Parser Char (CJson D)}

theorem parseMember_eq_some {w r : Text} {p : Text × CJson D}
    (h : parseMember value w = some (p, r)) : ∃ r₁ r₂, parseString w = some (p.1, r₁) ∧
      r₁.dropWhile isBlank = ':' :: r₂ ∧ value (r₂.dropWhile isBlank) = some (p.2, r) := by
  rw [parseMember] at h
  split at h
  · simp at h
  · next name r₁ hname =>
    split at h
    · next r₂ hcolon =>
      obtain ⟨⟨v, r'⟩, hv, heq⟩ := Option.map_eq_some_iff.1 h
      obtain ⟨rfl, rfl⟩ := Prod.mk.inj heq
      exact ⟨r₁, r₂, hname, hcolon, hv⟩
    · simp at h

theorem parseMember_consumes (hvalue : value.Consumes) : (parseMember value).Consumes := by
  intro w p r h
  obtain ⟨r₁, r₂, hname, hcolon, hv⟩ := parseMember_eq_some h
  have h₁ := parseString_consumes _ _ _ hname
  have h₂ := length_dropWhile_le isBlank r₁
  have h₃ := length_dropWhile_le isBlank r₂
  have h₄ := hvalue _ _ _ hv
  rw [hcolon, List.length_cons] at h₂
  omega

theorem parseMember_stableAt {stop : Char → Prop} (hread : value.Consumes)
    (hvalue : value.StableAt stop) : (parseMember value).StableAt stop := by
  intro w p r x h hstop
  obtain ⟨r₁, r₂, hname, hcolon, hv⟩ := parseMember_eq_some h
  have hr₂ : (r₂ ++ x).dropWhile isBlank = r₂.dropWhile isBlank ++ x := by
    cases hd : r₂.dropWhile isBlank with
    | nil => exact absurd (hd ▸ hv) (by simp [hread.nil])
    | cons c r => rw [dropWhile_append_of_cons hd, List.cons_append]
  rw [parseMember]
  simp only [parseString_stable _ _ _ x hname, dropWhile_append_of_cons hcolon, hr₂,
    hvalue _ _ _ x hv hstop, Option.map_some]

end Member

section Value

variable {inner : Option (Parser Char (CJson D))}

/-- The words start with other characters than the values of the other kinds. -/
theorem parseByFirst_eq_some {w r : Text} {v : CJson D}
    (h : parseByFirst m inner w = some (v, r)) (x : Text) :
    parseValueWith m inner (w ++ x) = parseByFirst m inner (w ++ x) := by
  match w with
  | [] => simp [parseByFirst] at h
  | c :: t =>
      have hne : c ≠ 'n' ∧ c ≠ 'f' ∧ c ≠ 't' := by
        refine ⟨?_, ?_, ?_⟩ <;> rintro rfl <;> simp [parseByFirst] at h
      simp [parseValueWith, List.cons_prefix_cons, hne.1.symm, hne.2.1.symm, hne.2.2.symm]

theorem parseByFirst_consumes (hinner : ∀ p ∈ inner, p.Consumes) :
    Parser.Consumes (parseByFirst m inner) := by
  intro w v r h
  match w with
  | [] => simp [parseByFirst] at h
  | c :: t =>
      simp only [parseByFirst] at h
      split_ifs at h
      · obtain ⟨p, hp, heq⟩ := Option.map_eq_some_iff.1 h
        obtain ⟨-, rfl⟩ := Prod.mk.inj heq
        exact parseString_consumes _ _ _ hp
      · exact parseNumber_consumes _ _ _ h
      all_goals
        obtain ⟨value, hvalue, h⟩ := Option.bind_eq_some_iff.1 h
        obtain ⟨p, hp, heq⟩ := Option.map_eq_some_iff.1 h
        obtain ⟨-, rfl⟩ := Prod.mk.inj heq
        rw [List.length_cons]
      · exact Nat.lt_succ_of_lt (listIn_consumes (hinner value hvalue) _ _ _ hp)
      · exact Nat.lt_succ_of_lt
          (listIn_consumes (parseMember_consumes (hinner value hvalue)) _ _ _ hp)

theorem parseValueWith_consumes (hinner : ∀ p ∈ inner, p.Consumes) :
    Parser.Consumes (parseValueWith m inner) := by
  intro w v r h
  rw [parseValueWith] at h
  split_ifs at h with hnull hfalse htrue
  · obtain ⟨t, rfl⟩ := hnull
    obtain ⟨-, rfl⟩ := Prod.mk.inj (Option.some.inj h)
    simp
    omega
  · obtain ⟨t, rfl⟩ := hfalse
    obtain ⟨-, rfl⟩ := Prod.mk.inj (Option.some.inj h)
    simp
    omega
  · obtain ⟨t, rfl⟩ := htrue
    obtain ⟨-, rfl⟩ := Prod.mk.inj (Option.some.inj h)
    simp
    omega
  · exact parseByFirst_consumes hinner _ _ _ h

/-- A value of any kind is stable in front of a character that stops a number,
and a value that is no number is stable anywhere. -/
theorem parseByFirst_append (hread : ∀ p ∈ inner, p.Consumes)
    (hinner : ∀ p ∈ inner, p.StableAt StopsNumber) {w r : Text} {v : CJson D}
    (h : parseByFirst m inner w = some (v, r))
    (hstop : v.isNumber = false ∨ ∃ c ∈ r, StopsNumber c) (x : Text) :
    parseByFirst m inner (w ++ x) = some (v, r ++ x) := by
  match w with
  | [] => simp [parseByFirst] at h
  | c :: t =>
      simp only [parseByFirst, List.cons_append] at h ⊢
      split_ifs at h ⊢ with hquote hnumber harray hobject
      · obtain ⟨p, hp, heq⟩ := Option.map_eq_some_iff.1 h
        obtain ⟨rfl, rfl⟩ := Prod.mk.inj heq
        rw [← List.cons_append, parseString_stable _ _ _ x hp, Option.map_some]
      · -- only a number could have gone on into what follows
        rcases hstop with hv | hstop
        · simp only [parseNumber] at h
          split_ifs at h
          obtain ⟨rfl, -⟩ := Prod.mk.inj (Option.some.inj h)
          simp [CJson.isNumber] at hv
        · exact parseNumber_stableAt _ _ _ x h hstop
      · obtain ⟨value, hvalue, h⟩ := Option.bind_eq_some_iff.1 h
        obtain ⟨p, hp, heq⟩ := Option.map_eq_some_iff.1 h
        obtain ⟨rfl, rfl⟩ := Prod.mk.inj heq
        have hlist := listIn_stable (hread value hvalue)
          (hinner value hvalue) (by decide) (by decide) _ _ _ x hp
        rw [hvalue, Option.bind_some, hlist, Option.map_some]
      · obtain ⟨value, hvalue, h⟩ := Option.bind_eq_some_iff.1 h
        obtain ⟨p, hp, heq⟩ := Option.map_eq_some_iff.1 h
        obtain ⟨rfl, rfl⟩ := Prod.mk.inj heq
        have hlist := listIn_stable (parseMember_consumes (hread value hvalue))
          (parseMember_stableAt (hread value hvalue) (hinner value hvalue)) (by decide) (by decide)
          _ _ _ x hp
        rw [hvalue, Option.bind_some, hlist, Option.map_some]

theorem parseValueWith_append (hread : ∀ p ∈ inner, p.Consumes)
    (hinner : ∀ p ∈ inner, p.StableAt StopsNumber) {w r : Text} {v : CJson D}
    (h : parseValueWith m inner w = some (v, r))
    (hstop : v.isNumber = false ∨ ∃ c ∈ r, StopsNumber c) (x : Text) :
    parseValueWith m inner (w ++ x) = some (v, r ++ x) := by
  rw [parseValueWith] at h
  split_ifs at h with hnull hfalse htrue
  · obtain ⟨t, rfl⟩ := hnull
    obtain ⟨rfl, rfl⟩ := Prod.mk.inj (Option.some.inj h)
    simp [parseValueWith, List.cons_prefix_cons]
  · obtain ⟨t, rfl⟩ := hfalse
    obtain ⟨rfl, rfl⟩ := Prod.mk.inj (Option.some.inj h)
    simp [parseValueWith, List.cons_prefix_cons]
  · obtain ⟨t, rfl⟩ := htrue
    obtain ⟨rfl, rfl⟩ := Prod.mk.inj (Option.some.inj h)
    simp [parseValueWith, List.cons_prefix_cons]
  · rw [parseByFirst_eq_some h]
    exact parseByFirst_append hread hinner h hstop x

end Value

theorem parseValue_consumes (k : ℕ) : Parser.Consumes (parseValue m k) := by
  induction k with
  | zero => exact parseValueWith_consumes (by simp)
  | succ k ih => exact parseValueWith_consumes (by simpa using ih)

theorem parseValue_append (k : ℕ) {w r : Text} {v : CJson D} (h : parseValue m k w = some (v, r))
    (hstop : v.isNumber = false ∨ ∃ c ∈ r, StopsNumber c) (x : Text) :
    parseValue m k (w ++ x) = some (v, r ++ x) := by
  induction k generalizing w r v x with
  | zero => exact parseValueWith_append (by simp) (by simp) h hstop x
  | succ k ih =>
      refine parseValueWith_append (by simpa using parseValue_consumes k) ?_ h hstop x
      simp only [Option.mem_def, Option.some.injEq, forall_eq']
      exact fun w v r x h hstop => ih h (Or.inr hstop) x

/-- A byte order mark is skipped in the longer text if and only if it is in the
text itself: no value starts with a piece of one. -/
theorem skipUtf8Bom_append {w : Text} {k : ℕ}
    (h : (parseValue m k ((skipUtf8Bom w).dropWhile isBlank)).isSome) (x : Text) :
    skipUtf8Bom (w ++ x) = skipUtf8Bom w ++ x := by
  by_cases hbom : 4 ≤ w.length ∧ ['\xEF', '\xBB', '\xBF'] <+: w
  · have hbom' : 4 ≤ (w ++ x).length ∧ ['\xEF', '\xBB', '\xBF'] <+: w ++ x :=
      ⟨by rw [List.length_append]; omega, hbom.2.trans (List.prefix_append w x)⟩
    rw [skipUtf8Bom, skipUtf8Bom, if_pos hbom, if_pos hbom',
      List.drop_append_of_le_length (by omega)]
  · have hw : skipUtf8Bom w = w := if_neg hbom
    rw [hw] at h ⊢
    refine if_neg fun hbom' => ?_
    match w with
    | [] => simp [(parseValue_consumes k).nil] at h
    | c :: t =>
        obtain ⟨rfl, -⟩ := List.cons_prefix_cons.1 hbom'.2
        rw [List.dropWhile_cons_of_neg (by decide)] at h
        cases k <;>
          simp [parseValue, parseValueWith, parseByFirst, List.cons_prefix_cons] at h

/-- **The first value decides.**  Unless it is a number, what follows the value
in the text makes no difference. -/
theorem cJSON_Parse_append {w : Text} {v : CJson D} (h : cJSON_Parse m w = some v)
    (hv : v.isNumber = false) (x : Text) : cJSON_Parse m (w ++ x) = some v := by
  obtain ⟨⟨v', r⟩, hp, rfl⟩ := Option.map_eq_some_iff.1 h
  have hne : (skipUtf8Bom w).dropWhile isBlank ≠ [] := fun hnil => by
    rw [hnil, (parseValue_consumes nestingLimit).nil] at hp
    exact absurd hp (by simp)
  obtain ⟨c, t, hct⟩ := List.exists_cons_of_ne_nil hne
  have hbom := skipUtf8Bom_append (m := m) (k := nestingLimit) (by rw [hp]; rfl) x
  rw [cJSON_Parse, hbom, dropWhile_append_of_cons hct, ← List.cons_append, ← hct,
    parseValue_append nestingLimit hp (Or.inl hv) x, Option.map_some]

theorem cJSON_Parse_nil : cJSON_Parse m [] = none := by
  have hnil := (parseValue_consumes (m := m) nestingLimit).nil
  simp [cJSON_Parse, skipUtf8Bom, hnil]

end PotHub.Json
