import PotHub.Json.Strings

/-!
# The printer of cJSON

The text that `cJSON_PrintUnformatted` and `cJSON_Print` write for a tree, as
`print_value` and the functions under it compose it.  The buffer that they write
it to is left out here.

The formatted text has the members of an object on lines of their own, indented
with tabs, and a blank behind every comma of an array.
-/

namespace PotHub.Json

/-- What the printer uses of the C library and of the type `double`. -/
structure Printf (D : Type) extends Doubles D where
  isnan : D → Bool
  isinf : D → Bool
  /-- The test `a == b`. -/
  eq : D → D → Bool
  /-- The test `a > b`. -/
  gt : D → D → Bool
  /-- The test `a <= b`. -/
  le : D → D → Bool
  fabs : D → D
  sub : D → D → D
  mul : D → D → D
  /-- `DBL_EPSILON`. -/
  epsilon : D
  /-- What `sprintf` writes for `%1.15g`. -/
  general15 : D → Text
  /-- What `sprintf` writes for `%1.17g`. -/
  general17 : D → Text

variable {D : Type} (m : Printf D)

/-! ## Numbers -/

/-- `compare_double`. -/
def compareDouble (a b : D) : Bool :=
  let maxVal := if m.gt (m.fabs a) (m.fabs b) then m.fabs a else m.fabs b
  m.le (m.fabs (m.sub a b)) (m.mul maxVal m.epsilon)

/-- What `sprintf` writes for `%d`. -/
def decimal (n : Int) : Text := n.repr.toList

/-- The 15 digits are not enough: `sscanf` reads no number, or one that is too
far from the one printed. -/
def NeedsMoreDigits (d : D) : Prop :=
  (m.strtod (m.general15 d)).2 = 0 ∨ compareDouble m (m.strtod (m.general15 d)).1 d = false

instance : DecidablePred (NeedsMoreDigits m) := fun _ => inferInstanceAs (Decidable (_ ∨ _))

/-- What `print_number` has in `number_buffer`. -/
def numberText (d : D) (valueint : Int) : Text :=
  if m.isnan d ∨ m.isinf d then "null".toList
  else if m.eq d (m.ofInt valueint) then decimal valueint
  else if NeedsMoreDigits m d then m.general17 d
  else m.general15 d

/-- The size of `number_buffer`. -/
def numberTextSize : ℕ := 26

/-- `print_number`. -/
def printNumber (d : D) (valueint : Int) : Option Text :=
  if numberTextSize - 1 < (numberText m d valueint).length then none
  else some (numberText m d valueint)

/-! ## Strings -/

/-- What `sprintf` writes for `%04x`. -/
def hex4 (n : ℕ) : Text := [n / 4096 % 16, n / 256 % 16, n / 16 % 16, n % 16].map Nat.digitChar

/-- A character in a literal. -/
def escape : Char → Text
  | '"' => ['\\', '"']
  | '\\' => ['\\', '\\']
  | '\x08' => ['\\', 'b']
  | '\x0c' => ['\\', 'f']
  | '\n' => ['\\', 'n']
  | '\r' => ['\\', 'r']
  | '\t' => ['\\', 't']
  | c => if c.toNat < 32 then '\\' :: 'u' :: hex4 c.toNat else [c]

/-- `print_string_ptr`. -/
def printString (input : Text) : Text := '"' :: (input.flatMap escape ++ ['"'])

/-! ## Values -/

/-- Indentation. -/
def tabs (depth : ℕ) : Text := List.replicate depth '\t'

/-- A piece of text that only the formatted text has. -/
def ifFormat (format : Bool) (w : Text) : Text := if format then w else []

mutual

/-- `print_value`, inside of so many arrays and objects. -/
def printValue (format : Bool) (depth : ℕ) : CJson D → Option Text
  | .null => some "null".toList
  | .false => some "false".toList
  | .true => some "true".toList
  | .number d n => printNumber m d n
  | .string s => some (printString s)
  | .array items => (printItems format (depth + 1) items).map fun w => '[' :: (w ++ [']'])
  | .object members => (printMembers format (depth + 1) members).map fun w =>
      '{' :: (ifFormat format ['\n'] ++ w ++ ifFormat format (tabs depth) ++ ['}'])

/-- The loop of `print_array`. -/
def printItems (format : Bool) (depth : ℕ) : List (CJson D) → Option Text
  | [] => some []
  | item :: items => do
      let w ← printValue format depth item
      let rest ← printItems format depth items
      return w ++ (if items.isEmpty then [] else ',' :: ifFormat format [' ']) ++ rest

/-- The loop of `print_object`. -/
def printMembers (format : Bool) (depth : ℕ) : List (Text × CJson D) → Option Text
  | [] => some []
  | (name, value) :: members => do
      let w ← printValue format depth value
      let rest ← printMembers format depth members
      return ifFormat format (tabs depth) ++ printString name ++ ':' :: ifFormat format ['\t'] ++
        w ++ (if members.isEmpty then [] else [',']) ++ ifFormat format ['\n'] ++ rest

end

/-- `cJSON_Print`. -/
def cJSON_Print (item : CJson D) : Option Text := printValue m true 0 item

/-- `cJSON_PrintUnformatted`. -/
def cJSON_PrintUnformatted (item : CJson D) : Option Text := printValue m false 0 item

/-! ## What the C library promises -/

/-- A value of the type `int`. -/
def IsInt (n : Int) : Prop := -2147483648 ≤ n ∧ n ≤ 2147483647

instance : DecidablePred IsInt := fun _ => inferInstanceAs (Decidable (_ ∧ _))

/-- A number as `sprintf` writes it: it starts with a digit or a minus sign, and
there is room for it in `number_buffer`. -/
structure NumberText (w : Text) : Prop where
  start : ∃ c w', w = c :: w' ∧ (c = '-' ∨ c.isDigit = true)
  chars : ∀ c ∈ w, isNumberChar c = true
  fits : w.length ≤ numberTextSize - 1

/-- Neither infinite nor "not a number". -/
def Printf.Finite (d : D) : Prop := m.isnan d = false ∧ m.isinf d = false

instance : DecidablePred m.Finite := fun _ => inferInstanceAs (Decidable (_ ∧ _))

/-- What the C library says of its conversions.  The text of a number is read to
its end; that of an `int` and that with 17 digits are read back as they were. -/
structure Printf.Lawful : Prop where
  general15_number : ∀ d, m.Finite d → NumberText (m.general15 d)
  general17_number : ∀ d, m.Finite d → NumberText (m.general17 d)
  strtod_decimal : ∀ n, IsInt n → m.strtod (decimal n) = (m.ofInt n, (decimal n).length)
  strtod_general15 : ∀ d, m.Finite d → (m.strtod (m.general15 d)).2 = (m.general15 d).length
  strtod_general17 : ∀ d, m.Finite d →
    m.strtod (m.general17 d) = (d, (m.general17 d).length)
  toInt_isInt : ∀ d, IsInt (m.toInt d)

theorem decimal_ofNat (n : ℕ) : decimal (.ofNat n) = Nat.toDigits 10 n := Nat.toList_repr

theorem decimal_negSucc (n : ℕ) : decimal (.negSucc n) = '-' :: Nat.toDigits 10 (n + 1) := by
  simp [decimal, Int.repr]

theorem isNumberChar_of_mem_decimal {n : Int} {c : Char} (h : c ∈ decimal n) :
    isNumberChar c = true := by
  cases n with
  | ofNat n =>
      rw [decimal_ofNat] at h
      rw [isNumberChar, Nat.isDigit_of_mem_toDigits (by decide) (by decide) h, Bool.true_or]
  | negSucc n =>
      rw [decimal_negSucc] at h
      rcases List.mem_cons.1 h with rfl | h
      · rfl
      · rw [isNumberChar, Nat.isDigit_of_mem_toDigits (by decide) (by decide) h, Bool.true_or]

theorem numberText_decimal {n : Int} (h : n.natAbs < 10 ^ 24) : NumberText (decimal n) := by
  have hlen : ∀ k < 10 ^ 24, (Nat.toDigits 10 k).length ≤ 24 := fun k hk =>
    (Nat.length_toDigits_le_iff (by decide) (by decide)).2 hk
  cases n with
  | ofNat n =>
      obtain ⟨c, w, hw⟩ := List.exists_cons_of_ne_nil (Nat.toDigits_ne_nil (n := n) (b := 10))
      refine ⟨⟨c, w, by rw [decimal_ofNat, hw], .inr ?_⟩, fun c => isNumberChar_of_mem_decimal, ?_⟩
      · exact Nat.isDigit_of_mem_toDigits (by decide) (by decide) (hw ▸ List.mem_cons_self)
      · rw [decimal_ofNat]
        exact Nat.le_trans (hlen n h) (by decide)
  | negSucc n =>
      refine ⟨⟨'-', _, decimal_negSucc n, .inl rfl⟩, fun c => isNumberChar_of_mem_decimal, ?_⟩
      rw [decimal_negSucc, List.length_cons]
      exact Nat.succ_le_succ (hlen (n + 1) h)

theorem IsInt.natAbs_lt {n : Int} (h : IsInt n) : n.natAbs < 10 ^ 24 := by
  obtain ⟨hmin, hmax⟩ := h
  omega

/-- Whole numbers as doubles, infinite from 10^15 on. -/
def integers : Printf Int where
  zero := 0
  strtod w :=
    let digits := (if w.head? = some '-' then w.tail else w).takeWhile Char.isDigit
    let value := Nat.ofDigitChars 10 digits 0
    if w.head? = some '-' then (-value, if digits = [] then 0 else digits.length + 1)
    else (value, digits.length)
  strtod_le w := by
    have hle := (List.takeWhile_sublist Char.isDigit (l := w)).length_le
    have hle' := (List.takeWhile_sublist Char.isDigit (l := w.tail)).length_le
    cases w with
    | nil => simp
    | cons c w =>
        simp only [List.length_cons, List.tail_cons] at hle' ⊢
        split_ifs <;> simp_all
  toInt d := max (-2147483648) (min d 2147483647)
  ofInt n := n
  isnan _ := false
  isinf d := 10 ^ 15 ≤ d.natAbs
  eq a b := a = b
  gt a b := b < a
  le a b := a ≤ b
  fabs d := d.natAbs
  sub a b := a - b
  mul a b := a * b
  epsilon := 0
  general15 := decimal
  general17 := decimal

theorem integers_strtod (n : Int) : integers.strtod (decimal n) = (n, (decimal n).length) := by
  have hall : ∀ k, (Nat.toDigits 10 k).takeWhile Char.isDigit = Nat.toDigits 10 k := fun k =>
    List.takeWhile_eq_self_iff.2 fun c => Nat.isDigit_of_mem_toDigits (by decide) (by decide)
  cases n with
  | ofNat n =>
      have hhead : (Nat.toDigits 10 n).head? ≠ some '-' := by
        intro h
        exact absurd (Nat.isDigit_of_mem_toDigits (by decide) (by decide)
          (List.mem_of_head? h)) (by decide)
      rw [decimal_ofNat]
      simp [integers, hhead, hall, Nat.ofDigitChars_ten_toDigits]
  | negSucc n =>
      rw [decimal_negSucc]
      simp [-List.takeWhile_eq_nil_iff, integers, hall, Nat.ofDigitChars_ten_toDigits,
        Nat.toDigits_ne_nil]
      omega

theorem integers_lawful : integers.Lawful := by
  have hfinite : ∀ d, integers.Finite d → d.natAbs < 10 ^ 24 := by
    intro d hd
    have hlt : d.natAbs < 10 ^ 15 := by simpa [integers] using hd.2
    exact Nat.lt_trans hlt (by decide)
  have hread : ∀ d, (integers.strtod (decimal d)).2 = (decimal d).length := fun d => by
    rw [integers_strtod]
  have htext : ∀ d, integers.Finite d → NumberText (decimal d) := fun d hd =>
    numberText_decimal (hfinite d hd)
  refine ⟨htext, htext, fun n _ => integers_strtod n, fun d _ => hread d,
    fun d _ => integers_strtod d, fun d => ?_⟩
  simp only [integers, IsInt]
  omega

/-! ## The characters of a printed text -/

/-- The characters of a text that is not formatted are no control characters;
formatting brings in endlines and tabs. -/
def Visible (format : Bool) (c : Char) : Prop :=
  32 ≤ c.toNat ∨ (format = true ∧ (c = '\n' ∨ c = '\t'))

instance (format : Bool) : DecidablePred (Visible format) :=
  fun _ => inferInstanceAs (Decidable (_ ∨ _))

variable {m} {format : Bool}

theorem visible_word {w : Text} (hw : w.all fun c => 32 ≤ c.toNat) :
    ∀ c ∈ w, Visible format c :=
  fun c hc => .inl (of_decide_eq_true (List.all_eq_true.1 hw c hc))

theorem visible_of_isNumberChar {c : Char} (h : isNumberChar c = true) : Visible format c := by
  rw [isNumberChar, Bool.or_eq_true] at h
  refine .inl ?_
  rcases h with h | h
  · exact Nat.le_trans (by decide) (Char.isDigit_iff_toNat.1 h).1
  · simp only [decide_eq_true_eq, List.mem_cons, List.not_mem_nil, or_false] at h
    rcases h with rfl | rfl | rfl | rfl | rfl <;> decide

theorem visible_numberText (hm : m.Lawful) (d : D) (n : Int) :
    ∀ c ∈ numberText m d n, Visible format c := by
  intro c hc
  rw [numberText] at hc
  split_ifs at hc with hfin
  · exact visible_word (by decide) c hc
  · exact visible_of_isNumberChar (isNumberChar_of_mem_decimal hc)
  all_goals
    have hd : m.Finite d := by simpa [not_or, Printf.Finite] using hfin
  · exact visible_of_isNumberChar ((hm.general17_number d hd).chars c hc)
  · exact visible_of_isNumberChar ((hm.general15_number d hd).chars c hc)

theorem visible_escape (c : Char) : ∀ c' ∈ escape c, Visible format c' := by
  have hdigit : ∀ d < 16, 32 ≤ d.digitChar.toNat := by decide
  have hhex : ∀ n, ∀ c' ∈ hex4 n, 32 ≤ c'.toNat := by
    intro n c' hc'
    simp only [hex4, List.map_cons, List.map_nil, List.mem_cons, List.not_mem_nil,
      or_false] at hc'
    rcases hc' with rfl | rfl | rfl | rfl <;> exact hdigit _ (Nat.mod_lt _ (by decide))
  unfold escape
  split
  case h_8 =>
    split_ifs with hlow
    · intro c' hc'
      rcases List.mem_cons.1 hc' with rfl | hc'
      · exact .inl (by decide)
      rcases List.mem_cons.1 hc' with rfl | hc'
      · exact .inl (by decide)
      · exact .inl (hhex _ c' hc')
    · intro c' hc'
      rw [List.mem_singleton.1 hc']
      exact .inl (Nat.not_lt.1 hlow)
  all_goals exact visible_word (by decide)

theorem visible_ifFormat {w : Text} (hw : ∀ c ∈ w, Visible true c) :
    ∀ c ∈ ifFormat format w, Visible format c := by
  cases format
  · simp [ifFormat]
  · exact hw

theorem visible_printString (s : Text) : ∀ c ∈ printString s, Visible format c := by
  intro c hc
  rcases List.mem_cons.1 hc with rfl | hc
  · exact .inl (by decide)
  rcases List.mem_append.1 hc with hc | hc
  · obtain ⟨c', -, hc⟩ := List.mem_flatMap.1 hc
    exact visible_escape c' c hc
  · rw [List.mem_singleton.1 hc]
    exact .inl (by decide)

theorem visible_tabs (depth : ℕ) : ∀ c ∈ tabs depth, Visible true c := by
  intro c hc
  rw [List.eq_of_mem_replicate hc]
  decide

section Loops

variable {depth : ℕ} {w : Text}

theorem visible_printItems {items : List (CJson D)}
    (h : ∀ t ∈ items, ∀ depth w, printValue m format depth t = some w →
      ∀ c ∈ w, Visible format c) (hw : printItems m format depth items = some w) :
    ∀ c ∈ w, Visible format c := by
  induction items generalizing w with
  | nil =>
      obtain rfl := Option.some.inj hw
      simp
  | cons item items ih =>
      obtain ⟨hitem, hitems⟩ := List.forall_mem_cons.1 h
      simp only [printItems, Option.bind_eq_bind, Option.bind_eq_some_iff, Option.pure_def,
        Option.some.injEq] at hw
      obtain ⟨first, hfirst, rest, hrest, rfl⟩ := hw
      have hcomma : ∀ c ∈ (if items.isEmpty then [] else ',' :: ifFormat format [' ']),
          Visible format c := by
        split_ifs
        · simp
        · exact List.forall_mem_cons.2 ⟨.inl (by decide), visible_ifFormat (by simp [Visible])⟩
      simp only [List.forall_mem_append]
      exact ⟨⟨hitem _ _ hfirst, hcomma⟩, ih hitems hrest⟩

theorem visible_printMembers {members : List (Text × CJson D)}
    (h : ∀ p ∈ members, ∀ depth w, printValue m format depth p.2 = some w →
      ∀ c ∈ w, Visible format c) (hw : printMembers m format depth members = some w) :
    ∀ c ∈ w, Visible format c := by
  induction members generalizing w with
  | nil =>
      obtain rfl := Option.some.inj hw
      simp
  | cons p members ih =>
      obtain ⟨name, value⟩ := p
      obtain ⟨hvalue, hmembers⟩ := List.forall_mem_cons.1 h
      simp only [printMembers, Option.bind_eq_bind, Option.bind_eq_some_iff, Option.pure_def,
        Option.some.injEq] at hw
      obtain ⟨first, hfirst, rest, hrest, rfl⟩ := hw
      have hcomma : ∀ c ∈ (if members.isEmpty then [] else [',']), Visible format c := by
        split_ifs
        · simp
        · exact List.forall_mem_cons.2 ⟨.inl (by decide), by simp⟩
      simp only [List.forall_mem_append, List.forall_mem_cons]
      exact ⟨⟨⟨⟨⟨⟨visible_ifFormat (visible_tabs depth), visible_printString name⟩,
        .inl (by decide), visible_ifFormat (by simp [Visible])⟩, hvalue _ _ hfirst⟩, hcomma⟩,
        visible_ifFormat (by simp [Visible])⟩, ih hmembers hrest⟩

end Loops

/-- **No control characters.**  The text of a tree has none, besides the endlines
and tabs of the formatting. -/
theorem visible_printValue (hm : m.Lawful) (t : CJson D) (depth : ℕ) (w : Text)
    (hw : printValue m format depth t = some w) : ∀ c ∈ w, Visible format c := by
  induction t using CJson.induct generalizing depth w with
  | null =>
      obtain rfl := Option.some.inj hw
      exact visible_word (by decide)
  | false =>
      obtain rfl := Option.some.inj hw
      exact visible_word (by decide)
  | true =>
      obtain rfl := Option.some.inj hw
      exact visible_word (by decide)
  | number d n =>
      rw [printValue, printNumber] at hw
      split_ifs at hw
      exact Option.some.inj hw ▸ visible_numberText hm d n
  | string s =>
      obtain rfl := Option.some.inj hw
      exact visible_printString s
  | array items ih =>
      rw [printValue] at hw
      obtain ⟨x, hx, rfl⟩ := Option.map_eq_some_iff.1 hw
      simp only [List.forall_mem_append, List.forall_mem_cons]
      exact ⟨.inl (by decide), visible_printItems ih hx, .inl (by decide), by simp⟩
  | object members ih =>
      rw [printValue] at hw
      obtain ⟨x, hx, rfl⟩ := Option.map_eq_some_iff.1 hw
      simp only [List.forall_mem_append, List.forall_mem_cons]
      exact ⟨.inl (by decide), ⟨⟨visible_ifFormat (by simp [Visible]), visible_printMembers ih hx⟩,
        visible_ifFormat (visible_tabs depth)⟩, .inl (by decide), by simp⟩

end PotHub.Json
