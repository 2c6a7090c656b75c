import Mathlib.Data.List.Forall2
import PotHub.Json.Print

/-!
# What is printed is read back

The parser reads the text of a tree back as that tree, whether it is formatted or
not.  Its numbers come back as they were or as `compare_double` tells them from
their 15 digits, and a number that is not finite comes back as null.

A string is undone one character at a time, by each of the two loops of
`parse_string`.  A value is read back in front of anything that does not go on with
a number; for the values inside of it that is a comma, a bracket or a blank.
-/

namespace PotHub.Json

open PotHub.Lib

variable {s w r : Text} {c : Char}

/-! ## Strings -/

theorem scanString_append_of_plain (h : Plain w) (x : Text) :
    scanString (w ++ x) = (scanString x).map fun p => (w ++ p.1, p.2) := by
  induction w with
  | nil => simp
  | cons c w ih =>
      obtain ⟨⟨hquote, hback⟩, hw⟩ := List.forall_mem_cons.1 h
      rw [List.cons_append, scanString_cons hquote hback, ih hw, Option.map_map]
      rfl

theorem plain_hex4 (n : ℕ) : Plain (hex4 n) := by
  have hdigit : ∀ d < 16, d.digitChar ≠ '"' ∧ d.digitChar ≠ '\\' := by decide
  intro c hc
  simp only [hex4, List.map_cons, List.map_nil, List.mem_cons, List.not_mem_nil, or_false] at hc
  rcases hc with rfl | rfl | rfl | rfl <;> exact hdigit _ (Nat.mod_lt _ (by decide))

/-- The first loop of `parse_string` takes an escaped character as it stands. -/
theorem scanString_escape (c : Char) (x : Text) :
    scanString (escape c ++ x) = (scanString x).map fun p => (escape c ++ p.1, p.2) := by
  unfold escape
  split
  case h_8 hquote hback _ _ _ _ _ =>
    split_ifs with hlow
    · rw [List.cons_append, List.cons_append, scanString, scanString_append_of_plain (plain_hex4 _),
        Option.map_map]
      rfl
    · exact scanString_append_of_plain (w := [c]) (by simpa [Plain] using ⟨hquote, hback⟩) x
  all_goals simp [scanString]

theorem scanString_flatMap_escape (s r : Text) :
    scanString (s.flatMap escape ++ '"' :: r) = some (s.flatMap escape, r) := by
  induction s with
  | nil => rfl
  | cons c s ih =>
      rw [List.flatMap_cons, List.append_assoc, scanString_escape, ih, Option.map_some]

/-- A control character, as the second loop of `parse_string` decodes it. -/
theorem unescape_control {n : ℕ} (h : n < 32) (x : Text) :
    unescape ('\\' :: 'u' :: (hex4 n ++ x)) = (unescape x).map fun s => Char.ofNat n :: s := by
  have hcode : ∀ n < 32, parseHex4 (n / 4096 % 16).digitChar (n / 256 % 16).digitChar
      (n / 16 % 16).digitChar (n % 16).digitChar = n ∧ utf8 n = [Char.ofNat n] := by
    decide
  obtain ⟨hhex, hutf8⟩ := hcode n h
  have hsurrogate : ¬ (0xDC00 ≤ n ∧ n ≤ 0xDFFF) ∧ ¬ (0xD800 ≤ n ∧ n ≤ 0xDBFF) := by omega
  simp only [hex4, List.map_cons, List.map_nil, List.cons_append, List.nil_append]
  rw [unescape.eq_def]
  simp only [hhex, if_neg hsurrogate.1, if_neg hsurrogate.2, hutf8, List.singleton_append]

/-- The second loop of `parse_string` undoes the escapes. -/
theorem unescape_escape (c : Char) (x : Text) :
    unescape (escape c ++ x) = (unescape x).map fun s => c :: s := by
  unfold escape
  split
  case h_8 hquote hback _ _ _ _ _ =>
    split_ifs with hlow
    · rw [List.cons_append, List.cons_append, unescape_control hlow, Char.ofNat_toNat]
    · have hne : c ≠ '\\' := hback
      rw [List.singleton_append, unescape]
      all_goals simp [hne]
  all_goals simp [unescape, unescaped]

theorem unescape_flatMap_escape (s : Text) : unescape (s.flatMap escape) = some s := by
  induction s with
  | nil => rfl
  | cons c s ih => rw [List.flatMap_cons, unescape_escape, ih, Option.map_some]

/-- **A printed string is read back**, and nothing that stands behind it. -/
theorem parseString_printString (hzero : '\x00' ∉ s) (r : Text) :
    parseString (printString s ++ r) = some (s, r) := by
  rw [printString, List.cons_append, List.append_assoc, parseString, List.singleton_append,
    scanString_flatMap_escape, Option.bind_some, unescape_flatMap_escape, Option.map_some]
  exact congrArg (fun s => some (s, r)) (cString_of_not_mem hzero)

/-! ## Numbers -/

variable {D : Type} {m : Printf D}

/-- What may stand behind a number. -/
def Ends (r : Text) : Prop := ∀ c ∈ r.head?, StopsNumber c

theorem ends_nil : Ends [] := by simp [Ends]

theorem ends_cons (h : StopsNumber c) (r : Text) : Ends (c :: r) := by simpa [Ends] using h

/-- No number goes on across a blank. -/
theorem stopsNumber_of_isBlank (h : isBlank c = true) : StopsNumber c := by
  have hle : c.toNat ≤ 32 := by simpa [isBlank] using h
  have hdigit : c.isDigit = false := by
    refine Bool.eq_false_iff.2 fun hd => ?_
    exact absurd (Nat.le_trans (Char.isDigit_iff_toNat.1 hd).1 hle) (by decide)
  have hother : c ∉ ['+', '-', 'e', 'E', '.'] := by
    intro hmem
    simp only [List.mem_cons, List.not_mem_nil, or_false] at hmem
    rcases hmem with rfl | rfl | rfl | rfl | rfl <;> exact absurd hle (by decide)
  rw [StopsNumber, isNumberChar, hdigit, decide_eq_false hother, Bool.false_or]

theorem ends_blanks (hw : ∀ c ∈ w, isBlank c = true) (h : StopsNumber c) (r : Text) :
    Ends (w ++ c :: r) := by
  cases w with
  | nil => exact ends_cons h r
  | cons c' w => exact ends_cons (stopsNumber_of_isBlank (hw c' List.mem_cons_self)) _

/-- The number is cut off where it ends. -/
theorem numberToken_of_numberText (hw : NumberText w) (hr : Ends r) : numberToken (w ++ r) = w := by
  have hlen : w.length ≤ numberBufferSize - 1 := Nat.le_trans hw.fits (by decide)
  have hstop : (r.take (numberBufferSize - 1 - w.length)).takeWhile isNumberChar = [] := by
    cases r with
    | nil => simp
    | cons c r =>
        have hc : isNumberChar c = false := hr c rfl
        cases numberBufferSize - 1 - w.length with
        | zero => rfl
        | succ n => rw [List.take_succ_cons, List.takeWhile_cons_of_neg (by simp [hc])]
  rw [numberToken, List.take_append, List.take_of_length_le hlen,
    List.takeWhile_append_of_pos hw.chars, hstop, List.append_nil]

theorem parseValueWith_of_byFirst {inner : Option (Parser Char (CJson D))} {v : CJson D}
    (h : parseByFirst m.toDoubles inner w = some (v, r)) :
    parseValueWith m.toDoubles inner w = some (v, r) := by
  simpa [h] using parseByFirst_eq_some h []

/-- A value that is neither an array nor an object. -/
theorem parseValue_of_leaf {v : CJson D}
    (h : ∀ inner, parseByFirst m.toDoubles inner w = some (v, r)) (k : ℕ) :
    parseValue m.toDoubles k w = some (v, r) := by
  cases k <;> exact parseValueWith_of_byFirst (h _)

/-- A text that is a number all through is read as that number. -/
theorem reads_number (hw : NumberText w) (hread : (m.strtod w).2 = w.length) (k : ℕ) :
    Reads isBlank (parseValue m.toDoubles k) Ends w
      (.createNumber m.toDoubles (m.strtod w).1) := by
  obtain ⟨c, w', rfl, hc⟩ := hw.start
  have hfirst : '0'.toNat ≤ c.toNat ∨ c = '-' := by
    exact hc.symm.imp_left fun h => (Char.isDigit_iff_toNat.1 h).1
  have hne : c ≠ '"' := by
    rintro rfl
    exact absurd hc (by decide)
  refine ⟨⟨c, w', rfl, ?_⟩, fun r hr => parseValue_of_leaf (fun inner => ?_) k⟩
  · rcases hfirst with h | rfl
    · exact decide_eq_false (Nat.not_le.2 (Nat.lt_of_lt_of_le (by decide) h))
    · rfl
  · have hnumber : parseNumber m.toDoubles (c :: w' ++ r) = some
        (.createNumber m.toDoubles (m.strtod (c :: w')).1, r) := by
      simp only [parseNumber, numberToken_of_numberText hw hr, hread]
      rw [if_neg (by simp), List.drop_left]
      rfl
    rw [List.cons_append] at hnumber ⊢
    simp only [parseByFirst, if_neg hne, if_pos hc, hnumber]

/-! ## The three words -/

theorem reads_null (k : ℕ) :
    Reads isBlank (parseValue m.toDoubles k) Ends "null".toList .null := by
  refine ⟨⟨'n', _, rfl, rfl⟩, fun r _ => ?_⟩
  cases k <;> simp [parseValue, parseValueWith]

theorem reads_false (k : ℕ) :
    Reads isBlank (parseValue m.toDoubles k) Ends "false".toList .false := by
  refine ⟨⟨'f', _, rfl, rfl⟩, fun r _ => ?_⟩
  cases k <;> simp [parseValue, parseValueWith, List.cons_prefix_cons]

theorem reads_true (k : ℕ) :
    Reads isBlank (parseValue m.toDoubles k) Ends "true".toList .true := by
  refine ⟨⟨'t', _, rfl, rfl⟩, fun r _ => ?_⟩
  cases k <;> simp [parseValue, parseValueWith, List.cons_prefix_cons]

/-! ## Values -/

/-- A number behind a round trip. -/
def rereadNumber (m : Printf D) (d : D) (valueint : Int) : CJson D :=
  if m.isnan d ∨ m.isinf d then .null
  else .createNumber m.toDoubles (m.strtod (numberText m d valueint)).1

theorem numberText_of_finite (hm : m.Lawful) {d : D} (hd : m.Finite d) {n : Int} (hn : IsInt n) :
    NumberText (numberText m d n) ∧
      (m.strtod (numberText m d n)).2 = (numberText m d n).length := by
  have hfin : ¬ (m.isnan d ∨ m.isinf d) := by simp [hd.1, hd.2]
  rw [numberText, if_neg hfin]
  split_ifs
  · exact ⟨numberText_decimal hn.natAbs_lt, by rw [hm.strtod_decimal n hn]⟩
  · exact ⟨hm.general17_number d hd, by rw [hm.strtod_general17 d hd]⟩
  · exact ⟨hm.general15_number d hd, hm.strtod_general15 d hd⟩

theorem exists_printNumber (hm : m.Lawful) {n : Int} (hn : IsInt n) (d : D) (k : ℕ) :
    ∃ w, printNumber m d n = some w ∧
      Reads isBlank (parseValue m.toDoubles k) Ends w (rereadNumber m d n) := by
  by_cases hfin : m.isnan d ∨ m.isinf d
  · have htext : numberText m d n = "null".toList := if_pos hfin
    refine ⟨"null".toList, ?_, ?_⟩
    · rw [printNumber, htext]
      rfl
    · rw [rereadNumber, if_pos hfin]
      exact reads_null k
  · have hd : m.Finite d := by simpa [not_or, Printf.Finite] using hfin
    obtain ⟨hw, hread⟩ := numberText_of_finite hm hd hn
    refine ⟨numberText m d n, ?_, ?_⟩
    · rw [printNumber, if_neg (Nat.not_lt.2 hw.fits)]
    · rw [rereadNumber, if_neg hfin]
      exact reads_number hw hread k

mutual

/-- The tree that is read where this one has been printed. -/
def CJson.reread (m : Printf D) : CJson D → CJson D
  | .null => .null
  | .false => .false
  | .true => .true
  | .number d n => rereadNumber m d n
  | .string s => .string s
  | .array items => .array (rereadItems m items)
  | .object members => .object (rereadMembers m members)

def CJson.rereadItems (m : Printf D) : List (CJson D) → List (CJson D)
  | [] => []
  | item :: items => item.reread m :: rereadItems m items

def CJson.rereadMembers (m : Printf D) : List (Text × CJson D) → List (Text × CJson D)
  | [] => []
  | (name, value) :: members => (name, value.reread m) :: rereadMembers m members

end

theorem CJson.rereadItems_eq (items : List (CJson D)) :
    rereadItems m items = items.map (reread m) := by
  induction items with
  | nil => rfl
  | cons item items ih => rw [rereadItems, ih, List.map_cons]

theorem CJson.rereadMembers_eq (members : List (Text × CJson D)) :
    rereadMembers m members = members.map fun p => (p.1, p.2.reread m) := by
  induction members with
  | nil => rfl
  | cons p members ih => rw [rereadMembers, ih, List.map_cons]

/-- A tree that can be printed and read back: its integers are of the type
`int`, its texts are strings of C, and it has no more than so many levels of
arrays and objects. -/
inductive Printable : ℕ → CJson D → Prop
  | null {k : ℕ} : Printable k .null
  | false {k : ℕ} : Printable k .false
  | true {k : ℕ} : Printable k .true
  | number {k : ℕ} {d : D} {n : Int} (hn : IsInt n) : Printable k (.number d n)
  | string {k : ℕ} {s : Text} (hs : '\x00' ∉ s) : Printable k (.string s)
  | array {k : ℕ} {items : List (CJson D)} (hitems : ∀ t ∈ items, Printable k t) :
      Printable (k + 1) (.array items)
  | object {k : ℕ} {members : List (Text × CJson D)} (hnames : ∀ p ∈ members, '\x00' ∉ p.1)
      (hvalues : ∀ p ∈ members, Printable k p.2) : Printable (k + 1) (.object members)

/-- The text of the value is read back, at whatever depth it is printed. -/
def ReadBack (m : Printf D) (format : Bool) (k : ℕ) (t : CJson D) : Prop :=
  ∀ depth, ∃ w, printValue m format depth t = some w ∧
    Reads isBlank (parseValue m.toDoubles k) Ends w (t.reread m)

theorem readBack_string (hs : '\x00' ∉ s) (format : Bool) (k : ℕ) :
    ReadBack m format k (.string s) := by
  intro depth
  refine ⟨printString s, rfl, ⟨'"', _, rfl, rfl⟩, fun r _ => ?_⟩
  refine parseValue_of_leaf (fun inner => ?_) k
  have hparse := parseString_printString hs r
  rw [printString, List.cons_append] at hparse ⊢
  simp only [parseByFirst, if_true, hparse, Option.map_some]
  rfl

/-- The items of an array are read back, up to its closing bracket. -/
theorem readBack_items {format : Bool} {k : ℕ} {items : List (CJson D)} (hne : items ≠ [])
    (hitems : ∀ t ∈ items, ReadBack m format k t) (depth : ℕ) :
    ∃ w, printItems m format depth items = some w ∧ ∀ r,
      sepBy isBlank ',' ']' (parseValue m.toDoubles k) (w ++ ']' :: r).length (w ++ ']' :: r) =
        some (CJson.rereadItems m items, r) := by
  induction items with
  | nil => exact absurd rfl hne
  | cons item items ih =>
      obtain ⟨hitem, hrest⟩ := List.forall_mem_cons.1 hitems
      obtain ⟨w, hw, hread⟩ := hitem depth
      have hconsumes := parseValue_consumes (m := m.toDoubles) k
      cases items with
      | nil =>
          refine ⟨w, by simp [printItems, hw], fun r => ?_⟩
          exact hread.last hconsumes (by decide) (by decide) [] (by simp) r
            (ends_cons (by decide) r)
      | cons item' items =>
          obtain ⟨rest, hprint, hreads⟩ := ih (by simp) hrest
          refine ⟨w ++ ',' :: (ifFormat format [' '] ++ rest), by
            rw [printItems, hw, hprint]; simp, fun r => ?_⟩
          have hblank : ∀ c ∈ ifFormat format [' '], isBlank c = true := by
            cases format <;> simp [ifFormat, isBlank]
          rw [List.append_assoc, List.cons_append, List.append_assoc,
            hread.cons hconsumes (by decide) _ (ends_cons (by decide) _),
            sepBy_blanks hconsumes hblank, hreads]
          rfl

theorem isBlank_of_mem_ifFormat {format : Bool} (h : ∀ c ∈ w, isBlank c = true) :
    ∀ c ∈ ifFormat format w, isBlank c = true := by
  cases format
  · simp [ifFormat]
  · exact h

theorem isBlank_of_mem_tabs {depth : ℕ} : ∀ c ∈ tabs depth, isBlank c = true := by
  intro c hc
  rw [List.eq_of_mem_replicate hc]
  rfl

/-- The text of a member. -/
theorem reads_member (format : Bool) {k : ℕ} {name : Text} {t : CJson D} (hname : '\x00' ∉ name)
    (h : Reads isBlank (parseValue m.toDoubles k) Ends w t) :
    Reads isBlank (parseMember (parseValue m.toDoubles k)) Ends
      (printString name ++ ':' :: (ifFormat format ['\t'] ++ w)) (name, t) := by
  have htab : ∀ c ∈ ifFormat format ['\t'], isBlank c = true :=
    isBlank_of_mem_ifFormat (by simp [isBlank])
  refine ⟨⟨'"', _, rfl, by decide⟩, fun r hr => ?_⟩
  rw [parseMember, List.append_assoc, parseString_printString hname]
  simp only [List.cons_append, List.append_assoc]
  rw [List.dropWhile_cons_of_neg (by decide)]
  simp only [h.dropWhile htab r, h.read r hr, Option.map_some]

/-- The members of an object are read back, up to its closing brace. -/
theorem readBack_members {format : Bool} {k : ℕ} {members : List (Text × CJson D)}
    (hne : members ≠ []) (hnames : ∀ p ∈ members, '\x00' ∉ p.1)
    (hvalues : ∀ p ∈ members, ReadBack m format k p.2) (depth : ℕ) :
    ∃ w, printMembers m format depth members = some w ∧ ∀ trail r,
      (∀ c ∈ trail, isBlank c = true) →
      sepBy isBlank ',' '}' (parseMember (parseValue m.toDoubles k))
          (w ++ (trail ++ '}' :: r)).length (w ++ (trail ++ '}' :: r)) =
        some (CJson.rereadMembers m members, r) := by
  induction members with
  | nil => exact absurd rfl hne
  | cons p members ih =>
      obtain ⟨name, value⟩ := p
      obtain ⟨hname, hnames⟩ := List.forall_mem_cons.1 hnames
      obtain ⟨hvalue, hvalues⟩ := List.forall_mem_cons.1 hvalues
      obtain ⟨w, hw, hread⟩ := hvalue depth
      have hmember := reads_member format hname hread
      generalize hu : printString name ++ ':' :: (ifFormat format ['\t'] ++ w) = u at hmember
      have hconsumes := parseMember_consumes (parseValue_consumes (m := m.toDoubles) k)
      have htabs : ∀ c ∈ ifFormat format (tabs depth), isBlank c = true :=
        isBlank_of_mem_ifFormat isBlank_of_mem_tabs
      have hline : ∀ c ∈ ifFormat format ['\n'], isBlank c = true :=
        isBlank_of_mem_ifFormat (by simp [isBlank])
      cases members with
      | nil =>
          refine ⟨ifFormat format (tabs depth) ++ (u ++ ifFormat format ['\n']), by
            simp [printMembers, hw, ← hu], fun trail r htrail => ?_⟩
          have hblank : ∀ c ∈ ifFormat format ['\n'] ++ trail, isBlank c = true := fun c hc =>
            (List.mem_append.1 hc).elim (hline c) (htrail c)
          have hend := ends_blanks hblank (c := '}') (by decide) r
          rw [List.append_assoc, List.append_assoc, ← List.append_assoc _ trail,
            sepBy_blanks hconsumes htabs,
            hmember.last hconsumes (by decide) (by decide) _ hblank r hend]
          rfl
      | cons p' members =>
          obtain ⟨rest, hprint, hreads⟩ := ih (by simp) hnames hvalues
          refine ⟨ifFormat format (tabs depth) ++ (u ++ ',' :: (ifFormat format ['\n'] ++ rest)), by
            rw [printMembers, hw, hprint]; simp [← hu], fun trail r htrail => ?_⟩
          rw [List.append_assoc, List.append_assoc, List.cons_append, List.append_assoc,
            sepBy_blanks hconsumes htabs,
            hmember.cons hconsumes (by decide) _ (ends_cons (by decide) _),
            sepBy_blanks hconsumes hline, hreads trail r htrail]
          rfl

theorem parseValue_bracket (k : ℕ) (w : Text) : parseValue m.toDoubles k (']' :: w) = none := by
  cases k <;> simp [parseValue, parseValueWith, parseByFirst, List.cons_prefix_cons]

theorem parseMember_brace (value : Parser Char (CJson D)) (w : Text) :
    parseMember value ('}' :: w) = none := by
  simp [parseMember, parseString]

theorem readBack_array {format : Bool} {k : ℕ} {items : List (CJson D)}
    (h : ∀ t ∈ items, ReadBack m format k t) : ReadBack m format (k + 1) (.array items) := by
  intro depth
  -- between the brackets there is nothing, or a list of items
  obtain ⟨w, hw, hlist⟩ : ∃ w, printItems m format (depth + 1) items = some w ∧
      ∀ r, listIn isBlank ',' ']' (parseValue m.toDoubles k) (w ++ ']' :: r) =
        some (CJson.rereadItems m items, r) := by
    cases items with
    | nil => exact ⟨[], rfl, fun r => listIn_nil (b := []) (by simp) (by decide) r⟩
    | cons item items =>
        obtain ⟨w, hw, hread⟩ := readBack_items (by simp) h (depth + 1)
        exact ⟨w, hw, fun r => listIn_of_sepBy (parseValue_consumes k)
          (fun w => parseValue_bracket k w) (b := []) (by simp) (hread r)⟩
  refine ⟨'[' :: (w ++ [']']), by rw [printValue, hw]; rfl, ⟨'[', _, rfl, by decide⟩,
    fun r _ => parseValueWith_of_byFirst ?_⟩
  have hr := hlist r
  simp only [List.cons_append, List.append_assoc, List.nil_append, parseByFirst, if_true,
    Option.bind_some] at hr ⊢
  rw [if_neg (by decide), if_neg (by decide), hr]
  rfl

theorem readBack_object {format : Bool} {k : ℕ} {members : List (Text × CJson D)}
    (hnames : ∀ p ∈ members, '\x00' ∉ p.1) (h : ∀ p ∈ members, ReadBack m format k p.2) :
    ReadBack m format (k + 1) (.object members) := by
  intro depth
  have hline : ∀ c ∈ ifFormat format ['\n'], isBlank c = true :=
    isBlank_of_mem_ifFormat (by simp [isBlank])
  have htabs : ∀ c ∈ ifFormat format (tabs depth), isBlank c = true :=
    isBlank_of_mem_ifFormat isBlank_of_mem_tabs
  have hconsumes := parseMember_consumes (parseValue_consumes (m := m.toDoubles) k)
  obtain ⟨w, hw, hlist⟩ : ∃ w, printMembers m format (depth + 1) members = some w ∧
      ∀ r, listIn isBlank ',' '}' (parseMember (parseValue m.toDoubles k))
        (ifFormat format ['\n'] ++ (w ++ (ifFormat format (tabs depth) ++ '}' :: r))) =
          some (CJson.rereadMembers m members, r) := by
    cases members with
    | nil =>
        refine ⟨[], rfl, fun r => ?_⟩
        have hblank : ∀ c ∈ ifFormat format ['\n'] ++ ifFormat format (tabs depth),
            isBlank c = true := fun c hc => (List.mem_append.1 hc).elim (hline c) (htabs c)
        rw [List.nil_append, ← List.append_assoc]
        exact listIn_nil hblank (by decide) r
    | cons p members =>
        obtain ⟨w, hw, hread⟩ := readBack_members (by simp) hnames h (depth + 1)
        exact ⟨w, hw, fun r => listIn_of_sepBy hconsumes
          (fun w => parseMember_brace _ w) hline (hread _ r htabs)⟩
  refine ⟨'{' :: (ifFormat format ['\n'] ++ w ++ ifFormat format (tabs depth) ++ ['}']), by
    rw [printValue, hw]; rfl, ⟨'{', _, rfl, by decide⟩, fun r _ => parseValueWith_of_byFirst ?_⟩
  have hr := hlist r
  simp only [List.cons_append, List.append_assoc, List.nil_append, parseByFirst, if_true,
    Option.bind_some] at hr ⊢
  rw [if_neg (by decide), if_neg (by decide), if_neg (by decide), hr]
  rfl

/-- Every value that can be printed is read back, in front of anything that does
not go on with a number. -/
theorem readBack_of_printable (hm : m.Lawful) (format : Bool) {k : ℕ} {t : CJson D}
    (ht : Printable k t) : ReadBack m format k t := by
  induction ht with
  | null => exact fun _ => ⟨_, rfl, reads_null _⟩
  | false => exact fun _ => ⟨_, rfl, reads_false _⟩
  | true => exact fun _ => ⟨_, rfl, reads_true _⟩
  | number hn => exact fun _ => exists_printNumber hm hn _ _
  | string hs => exact readBack_string hs format _
  | array _ ih => exact readBack_array ih
  | object hnames _ ih => exact readBack_object hnames ih

/-! ## Whole texts -/

/-- The second tree is the first, but for the numbers.  A number is equal, or one
that `compare_double` takes for equal; one that is not finite has become null. -/
inductive Agrees (m : Printf D) : CJson D → CJson D → Prop
  | null : Agrees m .null .null
  | false : Agrees m .false .false
  | true : Agrees m .true .true
  | number {d v : D} {n : Int} (hd : m.Finite d)
      (hv : m.eq d v = true ∨ compareDouble m v d = true ∨ v = d) :
      Agrees m (.number d n) (.createNumber m.toDoubles v)
  | notFinite {d : D} {n : Int} (hd : ¬ m.Finite d) : Agrees m (.number d n) .null
  | string (s : Text) : Agrees m (.string s) (.string s)
  | array {items items' : List (CJson D)} (h : List.Forall₂ (Agrees m) items items') :
      Agrees m (.array items) (.array items')
  | object {members members' : List (Text × CJson D)}
      (hnames : members.map Prod.fst = members'.map Prod.fst)
      (hvalues : List.Forall₂ (Agrees m) (members.map Prod.snd) (members'.map Prod.snd)) :
      Agrees m (.object members) (.object members')

theorem agrees_rereadNumber (hm : m.Lawful) {n : Int} (hn : IsInt n) (d : D) :
    Agrees m (.number d n) (rereadNumber m d n) := by
  by_cases hfin : m.isnan d ∨ m.isinf d
  · rw [rereadNumber, if_pos hfin]
    refine .notFinite fun hd => ?_
    simp [hd.1, hd.2] at hfin
  · have hd : m.Finite d := by simpa [not_or, Printf.Finite] using hfin
    rw [rereadNumber, if_neg hfin]
    refine .number hd ?_
    rw [numberText, if_neg hfin]
    split_ifs with heq hmore
    · rw [hm.strtod_decimal n hn]
      exact .inl heq
    · rw [hm.strtod_general17 d hd]
      exact .inr (.inr rfl)
    · simp only [NeedsMoreDigits, not_or, Bool.not_eq_false] at hmore
      exact .inr (.inl hmore.2)

theorem agrees_reread (hm : m.Lawful) {k : ℕ} {t : CJson D} (ht : Printable k t) :
    Agrees m t (t.reread m) := by
  induction ht with
  | null => exact .null
  | false => exact .false
  | true => exact .true
  | number hn => exact agrees_rereadNumber hm hn _
  | string hs => exact .string _
  | array _ ih =>
      refine .array ?_
      rw [CJson.rereadItems_eq, List.forall₂_map_right_iff, List.forall₂_same]
      exact ih
  | object _ _ ih =>
      refine .object ?_ ?_
      · rw [CJson.rereadMembers_eq, List.map_map]
        rfl
      · rw [CJson.rereadMembers_eq, List.map_map, List.forall₂_map_right_iff,
          List.forall₂_map_left_iff, List.forall₂_same]
        exact ih

/-- No value starts with a byte order mark. -/
theorem ne_bom_of_parseValue {k : ℕ} {c : Char} {v : CJson D}
    (h : parseValue m.toDoubles k (c :: w) = some (v, r)) : c ≠ '\xEF' := by
  rintro rfl
  cases k <;> simp [parseValue, parseValueWith, parseByFirst, List.cons_prefix_cons] at h

theorem skipUtf8Bom_cons {c : Char} (hc : c ≠ '\xEF') (w : Text) :
    skipUtf8Bom (c :: w) = c :: w :=
  if_neg fun h => hc (List.cons_prefix_cons.1 h.2).1.symm

/-- The text of a tree, as the parser sees it. -/
theorem exists_text (hm : m.Lawful) (format : Bool) {t : CJson D} (ht : Printable nestingLimit t) :
    ∃ w, printValue m format 0 t = some w ∧
      Reads isBlank (parseValue m.toDoubles nestingLimit) Ends w (t.reread m) ∧
      cJSON_Parse m.toDoubles w = some (t.reread m) := by
  obtain ⟨w, hw, hreads⟩ := readBack_of_printable hm format ht 0
  refine ⟨w, hw, hreads, ?_⟩
  have hread := hreads.read [] ends_nil
  rw [List.append_nil] at hread
  obtain ⟨c, w', rfl, hc⟩ := hreads.start
  rw [cJSON_Parse, skipUtf8Bom_cons (ne_bom_of_parseValue hread),
    List.dropWhile_cons_of_neg (by simp [hc]), hread]
  rfl

/-- **The round trip.**  The two texts of a tree are read back as one tree, which
agrees with the one that was printed. -/
theorem cJSON_Parse_print (hm : m.Lawful) {t : CJson D} (ht : Printable nestingLimit t) :
    ∃ unformatted formatted t', cJSON_PrintUnformatted m t = some unformatted ∧
      cJSON_Print m t = some formatted ∧ Agrees m t t' ∧
      cJSON_Parse m.toDoubles unformatted = some t' ∧
      cJSON_Parse m.toDoubles formatted = some t' := by
  obtain ⟨unformatted, hprint, -, hparse⟩ := exists_text hm false ht
  obtain ⟨formatted, hprint', -, hparse'⟩ := exists_text hm true ht
  exact ⟨unformatted, formatted, t.reread m, hprint, hprint', agrees_reread hm ht, hparse, hparse'⟩

/-- A tree with a number that is no `int`, and with an endline in a name. -/
def reportTree : CJson Int :=
  .array [.object [("a\n".toList, .number 3000000000 2147483647), ("b".toList, .null)], .array []]

theorem printable_reportTree (k : ℕ) : Printable (k + 2) reportTree := by
  have hobject : Printable (k + 1)
      (.object [("a\n".toList, .number (3000000000 : Int) 2147483647), ("b".toList, .null)]) := by
    refine .object (by decide) ?_
    simp only [List.forall_mem_cons]
    exact ⟨.number (by decide), .null, by simp⟩
  refine .array ?_
  simp only [List.forall_mem_cons]
  exact ⟨hobject, .array (by simp), by simp⟩

theorem cJSON_Parse_print_reportTree :
    ∃ unformatted formatted t', cJSON_PrintUnformatted integers reportTree = some unformatted ∧
      cJSON_Print integers reportTree = some formatted ∧ Agrees integers reportTree t' ∧
      cJSON_Parse integers.toDoubles unformatted = some t' ∧
      cJSON_Parse integers.toDoubles formatted = some t' :=
  cJSON_Parse_print integers_lawful (printable_reportTree 998)

/-! ## What the parser returns -/

theorem printable_of_parseByFirst (hm : m.Lawful) {k : ℕ}
    {inner : Option (Parser Char (CJson D))} {v : CJson D}
    (hinner : ∀ p ∈ inner, ∃ j, k = j + 1 ∧ ∀ w v r, p w = some (v, r) → Printable j v)
    (h : parseByFirst m.toDoubles inner w = some (v, r)) : Printable k v := by
  match w with
  | [] => simp [parseByFirst] at h
  | c :: w =>
      simp only [parseByFirst] at h
      split_ifs at h
      · obtain ⟨⟨s, r'⟩, hs, heq⟩ := Option.map_eq_some_iff.1 h
        obtain ⟨rfl, -⟩ := Prod.mk.inj heq
        exact .string (not_mem_of_parseString hs)
      · simp only [parseNumber] at h
        split_ifs at h
        obtain ⟨rfl, -⟩ := Prod.mk.inj (Option.some.inj h)
        exact .number (hm.toInt_isInt _)
      · obtain ⟨value, hvalue, h⟩ := Option.bind_eq_some_iff.1 h
        obtain ⟨j, rfl, hprintable⟩ := hinner value hvalue
        obtain ⟨⟨items, r'⟩, hitems, heq⟩ := Option.map_eq_some_iff.1 h
        obtain ⟨rfl, -⟩ := Prod.mk.inj heq
        exact .array (forall_of_listIn hprintable hitems)
      · obtain ⟨value, hvalue, h⟩ := Option.bind_eq_some_iff.1 h
        obtain ⟨j, rfl, hprintable⟩ := hinner value hvalue
        obtain ⟨⟨members, r'⟩, hmembers, heq⟩ := Option.map_eq_some_iff.1 h
        obtain ⟨rfl, -⟩ := Prod.mk.inj heq
        have hmember : ∀ p ∈ members, '\x00' ∉ p.1 ∧ Printable j p.2 := by
          refine forall_of_listIn (fun w p r hp => ?_) hmembers
          obtain ⟨r₁, r₂, hname, -, hv⟩ := parseMember_eq_some hp
          exact ⟨not_mem_of_parseString hname, hprintable _ _ _ hv⟩
        exact .object (fun p hp => (hmember p hp).1) fun p hp => (hmember p hp).2

theorem printable_of_parseValueWith (hm : m.Lawful) {k : ℕ}
    {inner : Option (Parser Char (CJson D))} {v : CJson D}
    (hinner : ∀ p ∈ inner, ∃ j, k = j + 1 ∧ ∀ w v r, p w = some (v, r) → Printable j v)
    (h : parseValueWith m.toDoubles inner w = some (v, r)) : Printable k v := by
  rw [parseValueWith] at h
  split_ifs at h
  · obtain ⟨rfl, -⟩ := Prod.mk.inj (Option.some.inj h)
    exact .null
  · obtain ⟨rfl, -⟩ := Prod.mk.inj (Option.some.inj h)
    exact .false
  · obtain ⟨rfl, -⟩ := Prod.mk.inj (Option.some.inj h)
    exact .true
  · exact printable_of_parseByFirst hm hinner h

theorem printable_of_parseValue (hm : m.Lawful) (k : ℕ) {v : CJson D}
    (h : parseValue m.toDoubles k w = some (v, r)) : Printable k v := by
  induction k generalizing w v r with
  | zero => exact printable_of_parseValueWith hm (by simp) h
  | succ k ih =>
      refine printable_of_parseValueWith hm ?_ h
      simp only [Option.mem_def, Option.some.injEq, forall_eq']
      exact ⟨k, rfl, fun w v r => ih⟩

/-- **What has been read can be printed and read again.**  No text that the parser
accepts gives a tree that the printer refuses, or that the parser refuses when it
has been printed. -/
theorem cJSON_Parse_print_of_parse (hm : m.Lawful) {t : CJson D}
    (h : cJSON_Parse m.toDoubles w = some t) :
    ∃ unformatted formatted t', cJSON_PrintUnformatted m t = some unformatted ∧
      cJSON_Print m t = some formatted ∧ Agrees m t t' ∧
      cJSON_Parse m.toDoubles unformatted = some t' ∧
      cJSON_Parse m.toDoubles formatted = some t' := by
  obtain ⟨⟨v, r⟩, hv, rfl⟩ := Option.map_eq_some_iff.1 h
  have ht : Printable nestingLimit v := printable_of_parseValue hm nestingLimit hv
  obtain ⟨unformatted, hprint, -, hparse⟩ := exists_text hm false ht
  obtain ⟨formatted, hprint', -, hparse'⟩ := exists_text hm true ht
  exact ⟨unformatted, formatted, v.reread m, hprint, hprint', agrees_reread hm ht, hparse, hparse'⟩

theorem cJSON_Parse_print_of_parse_text :
    ∃ t, cJSON_Parse integers.toDoubles "[\"\\u0022\", 7]".toList = some t ∧
      ∃ unformatted formatted t', cJSON_PrintUnformatted integers t = some unformatted ∧
        cJSON_Print integers t = some formatted ∧ Agrees integers t t' ∧
        cJSON_Parse integers.toDoubles unformatted = some t' ∧
        cJSON_Parse integers.toDoubles formatted = some t' := by
  have hparse : (cJSON_Parse integers.toDoubles "[\"\\u0022\", 7]".toList).isSome = true := by
    decide +kernel
  obtain ⟨t, ht⟩ := Option.isSome_iff_exists.1 hparse
  exact ⟨t, ht, cJSON_Parse_print_of_parse integers_lawful ht⟩

/-! ## Texts that are cut short -/

theorem isNumber_reread {t : CJson D} (h : t.isNumber = false) : (t.reread m).isNumber = false := by
  cases t with
  | number d n => simp [CJson.isNumber] at h
  | _ => rfl

/-- A number is known by its first character. -/
theorem isNumber_iff_of_parseValue {k : ℕ} {c : Char} {v : CJson D}
    (h : parseValue m.toDoubles k (c :: w) = some (v, r)) :
    v.isNumber = true ↔ c = '-' ∨ c.isDigit = true := by
  have hword : ∀ c', c' = '-' ∨ c'.isDigit = true → c' ≠ 'n' ∧ c' ≠ 'f' ∧ c' ≠ 't' ∧ c' ≠ '"' := by
    intro c' hc'
    refine ⟨?_, ?_, ?_, ?_⟩ <;> rintro rfl <;> exact absurd hc' (by decide)
  obtain ⟨inner, hinner⟩ :
      ∃ inner, parseValue m.toDoubles k = parseValueWith m.toDoubles inner := by
    cases k <;> exact ⟨_, rfl⟩
  rw [hinner, parseValueWith] at h
  split_ifs at h with hnull hfalse htrue
  · obtain ⟨rfl, -⟩ := Prod.mk.inj (Option.some.inj h)
    refine ⟨by simp [CJson.isNumber], fun hc => ?_⟩
    exact absurd (List.cons_prefix_cons.1 hnull).1.symm (hword c hc).1
  · obtain ⟨rfl, -⟩ := Prod.mk.inj (Option.some.inj h)
    refine ⟨by simp [CJson.isNumber], fun hc => ?_⟩
    exact absurd (List.cons_prefix_cons.1 hfalse).1.symm (hword c hc).2.1
  · obtain ⟨rfl, -⟩ := Prod.mk.inj (Option.some.inj h)
    refine ⟨by simp [CJson.isNumber], fun hc => ?_⟩
    exact absurd (List.cons_prefix_cons.1 htrue).1.symm (hword c hc).2.2.1
  · simp only [parseByFirst] at h
    split_ifs at h with hquote hnumber
    · obtain ⟨p, -, heq⟩ := Option.map_eq_some_iff.1 h
      obtain ⟨rfl, -⟩ := Prod.mk.inj heq
      exact ⟨by simp [CJson.isNumber], fun hc => absurd hquote (hword c hc).2.2.2⟩
    · simp only [parseNumber] at h
      split_ifs at h
      obtain ⟨rfl, -⟩ := Prod.mk.inj (Option.some.inj h)
      exact ⟨fun _ => hnumber, fun _ => rfl⟩
    all_goals
      obtain ⟨value, -, h⟩ := Option.bind_eq_some_iff.1 h
      obtain ⟨p, -, heq⟩ := Option.map_eq_some_iff.1 h
      obtain ⟨rfl, -⟩ := Prod.mk.inj heq
      exact ⟨by simp [CJson.isNumber], fun hc => absurd hc hnumber⟩

/-- What is read to its end is not read where it has been cut off. -/
theorem cJSON_Parse_of_reads {t : CJson D} (hkind : t.isNumber = false) {w x : Text}
    (h : Reads isBlank (parseValue m.toDoubles nestingLimit) Ends (w ++ x) t) (hx : x ≠ []) :
    cJSON_Parse m.toDoubles w = none := by
  have hread := h.read [] ends_nil
  rw [List.append_nil] at hread
  obtain ⟨c, rest, hfirst, hblank⟩ := h.start
  cases w with
  | nil => exact cJSON_Parse_nil
  | cons c' w =>
      obtain ⟨rfl, -⟩ := List.cons.inj hfirst
      rw [List.cons_append] at hread
      have hcut : cJSON_Parse m.toDoubles (c' :: w) =
          (parseValue m.toDoubles nestingLimit (c' :: w)).map Prod.fst := by
        rw [cJSON_Parse, skipUtf8Bom_cons (ne_bom_of_parseValue hread),
          List.dropWhile_cons_of_neg (by simp [hblank])]
      rw [hcut, Option.map_eq_none_iff]
      cases hparse : parseValue m.toDoubles nestingLimit (c' :: w) with
      | none => rfl
      | some p =>
          -- what has been read of the part would have been read of the whole
          have hnumber : p.1.isNumber = false := by
            rw [Bool.eq_false_iff, ne_eq, isNumber_iff_of_parseValue hparse,
              ← isNumber_iff_of_parseValue hread, hkind]
            simp
          have happend := parseValue_append nestingLimit hparse (.inl hnumber) x
          rw [List.cons_append, hread] at happend
          have hnil := (Prod.mk.inj (Option.some.inj happend)).2
          exact absurd (List.append_eq_nil_iff.1 hnil.symm).2 hx

/-- **No part passes for the whole.**  The parser refuses the text of a tree that
is no number, wherever it has been cut off. -/
theorem cJSON_Parse_of_cut (hm : m.Lawful) {format : Bool} {t : CJson D}
    (ht : Printable nestingLimit t) (hkind : t.isNumber = false) {w x : Text}
    (hprint : printValue m format 0 t = some (w ++ x)) (hx : x ≠ []) :
    cJSON_Parse m.toDoubles w = none := by
  obtain ⟨whole, hwhole, hreads, -⟩ := exists_text hm format ht
  obtain rfl : whole = w ++ x := Option.some.inj (hwhole.symm.trans hprint)
  exact cJSON_Parse_of_reads (isNumber_reread hkind) hreads hx

theorem cJSON_Parse_of_cut_reportTree :
    cJSON_Parse integers.toDoubles "[\x7b\"a\\n\":3000000000,\"b\":null\x7d".toList = none :=
  cJSON_Parse_of_cut (t := reportTree) (x := ",[]]".toList) integers_lawful
    (printable_reportTree 998) rfl
    (show printValue integers false 0 reportTree = _ by decide +kernel) (by decide)

end PotHub.Json
