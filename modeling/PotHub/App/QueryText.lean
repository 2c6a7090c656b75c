import PotHub.Json.Strings
import PotHub.Server.Request

/-!
# The text of the user query

`dispatchUserPotholesByDays` puts the username and the date between quotes as
they are, and the server decodes the text with `cJSON_Parse` and looks its
members up.  The server finds what was meant exactly when neither of the two has
a quote, a backslash or a zero in it (`decodedAsMeant_iff`).
-/

namespace PotHub.App

open PotHub.Json PotHub.Lib PotHub.Server

/-- What `dispatchUserPotholesByDays` writes. -/
def userQueryText (username date : Text) : Text :=
  "\x7b\"action\":2,\"user\":\"".toList ++ username ++ "\",\"date\":".toList ++ "\"".toList ++
    date ++ "\"\x7d".toList

variable {D : Type} (m : Doubles D)

/-- The server finds the action and the two texts that were meant. -/
def DecodedAsMeant (username date : Text) : Prop :=
  request m (cString (userQueryText username date)) =
    some (.getUserPotholesBy14DaysJson (some username) (some date))

/-- `strtod` reads the number 2. -/
def ReadsTwo : Prop := (m.strtod ['2']).2 = 1 ∧ m.toInt (m.strtod ['2']).1 = 2

theorem readsTwo_wholeNumbers : ReadsTwo wholeNumbers := ⟨rfl, rfl⟩

variable {m}

/-! ## The pieces of the text -/

/-- The text behind the username. -/
def userTail (date : Text) : Text :=
  ',' :: '"' :: (dateName ++ '"' :: ':' :: '"' :: (date ++ ['"', '}']))

theorem userQueryText_eq (username date : Text) :
    userQueryText username date =
      '{' :: '"' :: (actionName ++ '"' :: ':' :: '2' :: ',' :: '"' ::
        (userName ++ '"' :: ':' :: '"' :: (username ++ '"' :: userTail date))) := by
  have hhead : "\x7b\"action\":2,\"user\":\"".toList =
      '{' :: '"' :: (actionName ++ '"' :: ':' :: '2' :: ',' :: '"' ::
        (userName ++ ['"', ':', '"'])) := by decide
  have hdate : "\",\"date\":".toList = '"' :: ',' :: '"' :: (dateName ++ ['"', ':']) := by decide
  have hquote : "\"".toList = ['"'] := by decide
  have hend : "\"\x7d".toList = ['"', '}'] := by decide
  unfold userQueryText userTail
  rw [hhead, hdate, hquote, hend]
  simp only [List.cons_append, List.append_assoc, List.nil_append]

/-- The text as the server has it in its buffer. -/
theorem cString_userQueryText (username date : Text) :
    cString (userQueryText username date) =
      '{' :: '"' :: (actionName ++ '"' :: ':' :: '2' :: ',' :: '"' ::
        (userName ++ '"' :: ':' :: '"' :: cString (username ++ '"' :: userTail date))) := by
  have haction : '\x00' ∉ actionName := by decide
  have huser : '\x00' ∉ userName := by decide
  rw [userQueryText_eq]
  simp (disch := decide) only [cString_cons, cString_append_of_not_mem haction,
    cString_append_of_not_mem huser]

/-- The text behind the username, as the server has it. -/
theorem cString_userTail (date : Text) :
    cString (userTail date) =
      ',' :: '"' :: (dateName ++ '"' :: ':' :: '"' :: cString (date ++ ['"', '}'])) := by
  have hname : '\x00' ∉ dateName := by decide
  unfold userTail
  simp (disch := decide) only [cString_cons, cString_append_of_not_mem hname]

theorem plain_actionName : Plain actionName ∧ '\x00' ∉ actionName := by decide
theorem plain_userName : Plain userName ∧ '\x00' ∉ userName := by decide
theorem plain_dateName : Plain dateName ∧ '\x00' ∉ dateName := by decide

theorem parseValue_two (h2 : ReadsTwo m) (k : ℕ) (w : Text) :
    parseValue m k ('2' :: ',' :: w) = some (.number (m.strtod ['2']).1 2, ',' :: w) := by
  have htoken : numberToken ('2' :: ',' :: w) = ['2'] := rfl
  have hnumber : parseNumber m ('2' :: ',' :: w) =
      some (.number (m.strtod ['2']).1 2, ',' :: w) := by
    simp [parseNumber, htoken, h2.1, h2.2]
  cases k <;> simp [parseValue, parseValueWith, parseByFirst, List.cons_prefix_cons, hnumber]

/-- The member `action` is read, and the members behind it are still to be
read. -/
theorem cJSON_Parse_action (h2 : ReadsTwo m) (w : Text) :
    cJSON_Parse m ('{' :: '"' :: (actionName ++ '"' :: ':' :: '2' :: ',' :: w)) =
      (parseMembers m 999 w).map fun p =>
        .object ((actionName, .number (m.strtod ['2']).1 2) :: p.1) := by
  have hround : parseMembers m 999 ('"' :: (actionName ++ '"' :: ':' :: '2' :: ',' :: w)) =
      (parseMembers m 999 w).map fun p =>
        ((actionName, .number (m.strtod ['2']).1 2) :: p.1, p.2) := by
    rw [parseMembers_round (c := ',') plain_actionName.1 plain_actionName.2
      (parseValue_two h2 999 w) rfl, if_pos rfl]
  rw [cJSON_Parse_object, hround, Option.map_map]
  rfl

/-- The request of an object with the three members. -/
theorem requestOf_members (d : D) (u : Text) (members : List (Text × CJson D)) :
    requestOf m (.object ((actionName, .number d 2) :: (userName, .string u) :: members)) =
      ((CJson.object members).getObjectItemCaseSensitive dateName).map fun date =>
        .getUserPotholesBy14DaysJson (some u) date.valuestring := by
  have haction : (CJson.object ((actionName, .number d 2) :: (userName, .string u) ::
      members)).getObjectItemCaseSensitive actionName = some (.number d 2) := by
    simp [CJson.getObjectItemCaseSensitive]
  have hdate : (CJson.object ((actionName, .number d 2) :: (userName, .string u) ::
      members)).getObjectItemCaseSensitive dateName =
        (CJson.object members).getObjectItemCaseSensitive dateName := by
    simp [CJson.getObjectItemCaseSensitive, (by decide : actionName ≠ dateName),
      (by decide : userName ≠ dateName)]
  have huser : (CJson.object ((actionName, .number d 2) :: (userName, .string u) ::
      members)).getObjectItemCaseSensitive userName = some (.string u) := by
    simp [CJson.getObjectItemCaseSensitive, (by decide : actionName ≠ userName)]
  rw [requestOf_of_action haction]
  show userRequest _ = _
  rw [userRequest, huser, hdate]
  cases (CJson.object members).getObjectItemCaseSensitive dateName <;> rfl

/-- The members as they are read, whatever stands in the text behind the
opening quote of the username. -/
theorem request_eq_some (h2 : ReadsTwo m) {w : Text} {call : DbCall D}
    (h : request m ('{' :: '"' :: (actionName ++ '"' :: ':' :: '2' :: ',' :: '"' ::
      (userName ++ '"' :: ':' :: '"' :: w))) = some call) :
    ∃ u r c r' members rest, parseString ('"' :: w) = some (u, r) ∧ r.dropWhile isBlank = c :: r' ∧
      ((c = ',' ∧ parseMembers m 999 r' = some (members, rest)) ∨ (c = '}' ∧ members = [])) ∧
      ((CJson.object members).getObjectItemCaseSensitive dateName).map
        (fun date => .getUserPotholesBy14DaysJson (some u) date.valuestring) = some call := by
  rw [request, cJSON_Parse_action h2] at h
  obtain ⟨json, hjson, hcall⟩ := Option.bind_eq_some_iff.1 h
  obtain ⟨⟨members, rest⟩, hmembers, rfl⟩ := Option.map_eq_some_iff.1 hjson
  obtain ⟨v, r, c, r', hv, hr, hc⟩ :=
    parseMembers_eq_some plain_userName.1 plain_userName.2 hmembers
  rw [List.dropWhile_cons_of_neg (by decide), parseValue_quote] at hv
  obtain ⟨⟨u, r₁⟩, hu, heq⟩ := Option.map_eq_some_iff.1 hv
  obtain ⟨rfl, rfl⟩ := Prod.mk.inj heq
  rcases hc with ⟨rfl, tail, htail, rfl⟩ | ⟨rfl, rfl, rfl⟩
  · rw [requestOf_members] at hcall
    exact ⟨u, r₁, ',', r', tail, rest, hu, hr, Or.inl ⟨rfl, htail⟩, hcall⟩
  · rw [requestOf_members] at hcall
    exact ⟨u, r₁, '}', r', [], r', hu, hr, Or.inr ⟨rfl, rfl⟩, hcall⟩

/-! ## The two texts -/

/-- A username that ends with an open backslash runs into the name of the next
member, and leaves no comma behind. -/
theorem not_overrun_date {skipped r w : Text} (hover : ',' :: '"' :: 'd' :: w = skipped ++ '"' :: r)
    (hback : ∀ front back, skipped = front ++ '"' :: back → ∃ front', front = front' ++ ['\\']) :
    r = 'd' :: w := by
  match skipped with
  | [] => simp at hover
  | [c] =>
      simp only [List.cons_append, List.nil_append, List.cons.injEq] at hover
      exact hover.2.2.symm
  | c :: c' :: skipped =>
      simp only [List.cons_append, List.cons.injEq] at hover
      obtain ⟨rfl, rfl, -⟩ := hover
      obtain ⟨front, hfront⟩ := hback [','] skipped rfl
      cases front <;> simp at hfront

/-- The date is read behind the username. -/
theorem date_of_parseMembers {members : List (Text × CJson D)} {w rest : Text} {date : Option Text}
    (h : parseMembers m 999 ('"' :: (dateName ++ '"' :: ':' :: '"' :: w)) = some (members, rest))
    (hdate : ((CJson.object members).getObjectItemCaseSensitive dateName).map
      CJson.valuestring = some date) :
    ∃ d r, parseString ('"' :: w) = some (d, r) ∧ date = some d := by
  obtain ⟨v, r, c, r', hv, -, hc⟩ := parseMembers_eq_some plain_dateName.1 plain_dateName.2 h
  rw [List.dropWhile_cons_of_neg (by decide), parseValue_quote] at hv
  obtain ⟨⟨d, r₁⟩, hd, heq⟩ := Option.map_eq_some_iff.1 hv
  obtain ⟨rfl, rfl⟩ := Prod.mk.inj heq
  refine ⟨d, r₁, hd, ?_⟩
  rcases hc with ⟨-, tail, -, rfl⟩ | ⟨-, -, rfl⟩ <;>
    simpa [CJson.getObjectItemCaseSensitive, CJson.valuestring, eq_comm] using hdate

theorem plain_of_decodedAsMeant (h2 : ReadsTwo m) {username date : Text}
    (h : DecodedAsMeant m username date) :
    (Plain username ∧ '\x00' ∉ username) ∧ Plain date ∧ '\x00' ∉ date := by
  rw [DecodedAsMeant, cString_userQueryText] at h
  obtain ⟨u, r, c, r', members, rest, hu, hr, hc, hcall⟩ := request_eq_some h2 h
  obtain ⟨item, hitem, hcall⟩ := Option.map_eq_some_iff.1 hcall
  obtain ⟨hname, hdate⟩ := DbCall.getUserPotholesBy14DaysJson.inj hcall
  obtain rfl : u = username := Option.some.inj hname
  have hzero := not_mem_of_parseString hu
  rw [cString_append_of_not_mem hzero, cString_cons (by decide), cString_userTail] at hu
  have hplain : Plain u ∧ r = ',' :: '"' :: (dateName ++ '"' :: ':' :: '"' ::
      cString (date ++ ['"', '}'])) := by
    refine (plain_or_overrun hu).resolve_right ?_
    rintro ⟨skipped, hover, hback⟩
    rw [not_overrun_date hover hback, List.dropWhile_cons_of_neg (by decide)] at hr
    obtain ⟨rfl, -⟩ := List.cons.inj hr
    rcases hc with ⟨hc, -⟩ | ⟨hc, -⟩ <;> simp at hc
  obtain ⟨hplain, rfl⟩ := hplain
  rw [List.dropWhile_cons_of_neg (by decide)] at hr
  obtain ⟨rfl, rfl⟩ := List.cons.inj hr
  have hmembers := (hc.resolve_right fun hc => absurd hc.1 (by decide)).2
  obtain ⟨d, r, hd, heq⟩ := date_of_parseMembers hmembers (by rw [hitem, Option.map_some, hdate])
  obtain rfl : date = d := Option.some.inj heq
  have hdzero := not_mem_of_parseString hd
  rw [cString_append_of_not_mem hdzero] at hd
  refine ⟨⟨hplain, hzero⟩, ?_, hdzero⟩
  refine ((plain_or_overrun hd).resolve_right ?_).1
  -- no quote follows the last one
  rintro ⟨skipped, hover, -⟩
  match skipped with
  | [] => simp at hover
  | [c] => simp at hover
  | c :: c' :: skipped => simp at hover

theorem decodedAsMeant_of_plain (h2 : ReadsTwo m) {username date : Text}
    (huser : Plain username) (hzero : '\x00' ∉ username) (hdate : Plain date)
    (hdzero : '\x00' ∉ date) : DecodedAsMeant m username date := by
  have hend : cString (date ++ ['"', '}']) = date ++ ['"', '}'] := by
    rw [cString_append_of_not_mem hdzero]
    rfl
  have hlast : parseMembers m 999 ('"' :: (dateName ++ '"' :: ':' :: '"' :: (date ++ ['"', '}']))) =
      some ([(dateName, .string date)], []) := by
    rw [parseMembers_plain plain_dateName.1 plain_dateName.2 hdate hdzero (by decide),
      if_neg (by decide), if_pos rfl]
  have hmembers : parseMembers m 999 ('"' :: (userName ++ '"' :: ':' :: '"' ::
      (username ++ '"' :: cString (userTail date)))) =
        some ([(userName, .string username), (dateName, .string date)], []) := by
    rw [cString_userTail, hend, parseMembers_plain plain_userName.1 plain_userName.2 huser hzero
      (by decide), if_pos rfl, hlast, Option.map_some]
  rw [DecodedAsMeant, cString_userQueryText, cString_append_of_not_mem hzero,
    cString_cons (by decide), request, cJSON_Parse_action h2, hmembers, Option.map_some,
    Option.bind_some, requestOf_members]
  simp [CJson.getObjectItemCaseSensitive, CJson.valuestring]

/-- **When the user query is decoded as it was meant.**  Exactly when neither
the username nor the date has a quote, a backslash or a zero in it. -/
theorem decodedAsMeant_iff (h2 : ReadsTwo m) (username date : Text) :
    DecodedAsMeant m username date ↔
      (Plain username ∧ '\x00' ∉ username) ∧ Plain date ∧ '\x00' ∉ date :=
  ⟨plain_of_decodedAsMeant h2, fun ⟨⟨huser, hzero⟩, hdate, hdzero⟩ =>
    decodedAsMeant_of_plain h2 huser hzero hdate hdzero⟩

theorem decodedAsMeant_fab :
    DecodedAsMeant wholeNumbers "fab".toList "14/03/2024".toList :=
  (decodedAsMeant_iff readsTwo_wholeNumbers _ _).2 (by decide)

/-- A username with a quote in it. -/
def quotedUsername : Text := "a\"b".toList

theorem not_decodedAsMeant_quotedUsername :
    ¬ DecodedAsMeant wholeNumbers quotedUsername "14/03/2024".toList := by
  have hnone : request wholeNumbers (cString (userQueryText quotedUsername
      "14/03/2024".toList)) = none := by decide +kernel
  rw [DecodedAsMeant, hnone]
  simp

end PotHub.App
