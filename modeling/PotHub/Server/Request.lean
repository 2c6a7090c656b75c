import PotHub.Json.Parse

/-!
# What a request asks for

The part of `doWork` between `cJSON_Parse` and the calls of the three database
functions: a request either names a call, with its arguments taken from the
members of the tree, or has the connection closed.

The checks are for presence only.  A member of another type than expected has
no `valuestring`, and the null pointer goes into the call.
-/

namespace PotHub.Server

open PotHub.Json

def REPORT_POTHOLE : Int := 1
def GET_POTHOLES_BY_RANGE : Int := 3
def GET_USER_POTHOLES_BY_DAYS : Int := 2

/-- The structure `Pothole`; a text is `none` where the pointer is null. -/
structure Pothole (D : Type) where
  latitude : D
  longitude : D
  address : Option Text
  user : Option Text
  timestamp : Option Text
  intensity : Int
deriving DecidableEq

/-- A call of one of the three functions on the database. -/
inductive DbCall (D : Type)
  | reportPothole (pothole : Pothole D)
  | getPotholesByRangeJson (latitude longitude range : D)
  | getUserPotholesBy14DaysJson (username date : Option Text)
deriving DecidableEq

/-- Every text that the function passes to `strlen`, to `substr` or to a bind
buffer is there. -/
def DbCall.NonNull {D : Type} : DbCall D → Prop
  | .reportPothole p => p.address ≠ none ∧ p.user ≠ none ∧ p.timestamp ≠ none
  | .getPotholesByRangeJson _ _ _ => True
  | .getUserPotholesBy14DaysJson username date => username ≠ none ∧ date ≠ none

section Names

/-! The members that `doWork` looks up. -/

def actionName : Text := "action".toList
def latitudeName : Text := "latitude".toList
def longitudeName : Text := "longitude".toList
def addressName : Text := "address".toList
def userName : Text := "user".toList
def timestampName : Text := "timestamp".toList
def intensityName : Text := "intensity".toList
def rangeName : Text := "range".toList
def dateName : Text := "date".toList

end Names

variable {D : Type} (m : Doubles D) (json : CJson D)

/-- The case `REPORT_POTHOLE`. -/
def reportRequest : Option (DbCall D) := do
  let latitude ← json.getObjectItemCaseSensitive latitudeName
  let longitude ← json.getObjectItemCaseSensitive longitudeName
  let address ← json.getObjectItemCaseSensitive addressName
  let user ← json.getObjectItemCaseSensitive userName
  let timestamp ← json.getObjectItemCaseSensitive timestampName
  let intensity ← json.getObjectItemCaseSensitive intensityName
  return .reportPothole
    { latitude := latitude.valuedouble m
      longitude := longitude.valuedouble m
      address := address.valuestring
      user := user.valuestring
      timestamp := timestamp.valuestring
      intensity := intensity.valueint }

/-- The case `GET_POTHOLES_BY_RANGE`. -/
def rangeRequest : Option (DbCall D) := do
  let latitude ← json.getObjectItemCaseSensitive latitudeName
  let longitude ← json.getObjectItemCaseSensitive longitudeName
  let range ← json.getObjectItemCaseSensitive rangeName
  return .getPotholesByRangeJson (latitude.valuedouble m) (longitude.valuedouble m)
    (range.valuedouble m)

/-- The case `GET_USER_POTHOLES_BY_DAYS`. -/
def userRequest : Option (DbCall D) := do
  let user ← json.getObjectItemCaseSensitive userName
  let date ← json.getObjectItemCaseSensitive dateName
  return .getUserPotholesBy14DaysJson user.valuestring date.valuestring

/-- The call that a parsed message asks for; `none` has the connection
closed. -/
def requestOf : Option (DbCall D) := do
  let action ← json.getObjectItemCaseSensitive actionName
  if action.valueint = REPORT_POTHOLE then reportRequest m json
  else if action.valueint = GET_POTHOLES_BY_RANGE then rangeRequest m json
  else if action.valueint = GET_USER_POTHOLES_BY_DAYS then userRequest json
  else none

/-- The call that a message asks for. -/
def request (message : Text) : Option (DbCall D) := (cJSON_Parse m message).bind (requestOf m)

/-! ## Null pointers -/

/-- The member is there and is a string. -/
def StringMember (name : Text) : Prop :=
  ∃ s, json.getObjectItemCaseSensitive name = some (.string s)

/-- The members are there. -/
def HasMembers (names : List Text) : Prop :=
  ∀ name ∈ names, json.getObjectItemCaseSensitive name ≠ none

/-- A request in which no member is missing has strings where texts belong. -/
def TextsAreStrings (action : CJson D) : Prop :=
  (action.valueint = REPORT_POTHOLE →
    HasMembers json
      [latitudeName, longitudeName, addressName, userName, timestampName, intensityName] →
    StringMember json addressName ∧ StringMember json userName ∧
      StringMember json timestampName) ∧
  (action.valueint = GET_USER_POTHOLES_BY_DAYS → HasMembers json [userName, dateName] →
    StringMember json userName ∧ StringMember json dateName)

variable {m json}

theorem valuestring_ne_none_iff {item : CJson D} :
    item.valuestring ≠ none ↔ ∃ s, item = .string s := by
  cases item <;> simp [CJson.valuestring]

theorem stringMember_iff {name : Text} {item : CJson D}
    (h : json.getObjectItemCaseSensitive name = some item) :
    StringMember json name ↔ item.valuestring ≠ none := by
  rw [valuestring_ne_none_iff, StringMember, h]
  simp

theorem reportRequest_eq_some {call : DbCall D} (h : reportRequest m json = some call) :
    HasMembers json
      [latitudeName, longitudeName, addressName, userName, timestampName, intensityName] ∧
    (call.NonNull ↔ StringMember json addressName ∧ StringMember json userName ∧
      StringMember json timestampName) := by
  simp only [reportRequest, Option.bind_eq_bind, Option.bind_eq_some_iff, Option.pure_def,
    Option.some.injEq] at h
  obtain ⟨latitude, hlat, longitude, hlon, address, ha, user, hu, timestamp, ht, intensity, hi,
    rfl⟩ := h
  refine ⟨by simp [HasMembers, hlat, hlon, ha, hu, ht, hi], ?_⟩
  rw [stringMember_iff ha, stringMember_iff hu, stringMember_iff ht]
  rfl

theorem exists_reportRequest (h : HasMembers json
    [latitudeName, longitudeName, addressName, userName, timestampName, intensityName]) :
    ∃ call, reportRequest m json = some call := by
  simp only [HasMembers, List.forall_mem_cons, Option.ne_none_iff_exists'] at h
  obtain ⟨⟨_, hlat⟩, ⟨_, hlon⟩, ⟨_, ha⟩, ⟨_, hu⟩, ⟨_, ht⟩, ⟨_, hi⟩, -⟩ := h
  exact Option.isSome_iff_exists.1 (by simp [reportRequest, hlat, hlon, ha, hu, ht, hi])

theorem userRequest_eq_some {call : DbCall D} (h : userRequest json = some call) :
    HasMembers json [userName, dateName] ∧
    (call.NonNull ↔ StringMember json userName ∧ StringMember json dateName) := by
  simp only [userRequest, Option.bind_eq_bind, Option.bind_eq_some_iff, Option.pure_def,
    Option.some.injEq] at h
  obtain ⟨user, hu, date, hd, rfl⟩ := h
  refine ⟨by simp [HasMembers, hu, hd], ?_⟩
  rw [stringMember_iff hu, stringMember_iff hd]
  rfl

theorem exists_userRequest (h : HasMembers json [userName, dateName]) :
    ∃ call, userRequest json = some call := by
  simp only [HasMembers, List.forall_mem_cons, Option.ne_none_iff_exists'] at h
  obtain ⟨⟨_, hu⟩, ⟨_, hd⟩, -⟩ := h
  exact Option.isSome_iff_exists.1 (by simp [userRequest, hu, hd])

theorem rangeRequest_nonNull {call : DbCall D} (h : rangeRequest m json = some call) :
    call.NonNull := by
  simp only [rangeRequest, Option.bind_eq_bind, Option.bind_eq_some_iff, Option.pure_def,
    Option.some.injEq] at h
  obtain ⟨_, _, _, _, _, _, rfl⟩ := h
  trivial

theorem requestOf_of_action {action : CJson D}
    (h : json.getObjectItemCaseSensitive actionName = some action) : requestOf m json =
      if action.valueint = REPORT_POTHOLE then reportRequest m json
      else if action.valueint = GET_POTHOLES_BY_RANGE then rangeRequest m json
      else if action.valueint = GET_USER_POTHOLES_BY_DAYS then userRequest json
      else none := by
  simp [requestOf, h]

theorem requestOf_nonNull_iff : (∀ call, requestOf m json = some call → call.NonNull) ↔
    ∀ action, json.getObjectItemCaseSensitive actionName = some action →
      TextsAreStrings json action := by
  cases ha : json.getObjectItemCaseSensitive actionName with
  | none => simp [requestOf, ha]
  | some action =>
      simp only [requestOf_of_action ha, Option.some.injEq, forall_eq']
      constructor
      · refine fun h => ⟨fun hact hmem => ?_, fun hact hmem => ?_⟩
        · obtain ⟨call, hcall⟩ := exists_reportRequest (m := m) hmem
          exact (reportRequest_eq_some hcall).2.1 (h call (by rw [if_pos hact, hcall]))
        · obtain ⟨call, hcall⟩ := exists_userRequest hmem
          refine (userRequest_eq_some hcall).2.1 (h call ?_)
          rw [if_neg (by rw [hact]; decide), if_neg (by rw [hact]; decide), if_pos hact, hcall]
      · intro h call hcall
        split_ifs at hcall with hreport hrange huser
        · obtain ⟨hmem, hiff⟩ := reportRequest_eq_some hcall
          exact hiff.2 (h.1 hreport hmem)
        · exact rangeRequest_nonNull hcall
        · obtain ⟨hmem, hiff⟩ := userRequest_eq_some hcall
          exact hiff.2 (h.2 huser hmem)

/-- **No null pointer.**  A message makes every call with all its texts exactly
when the request in it, unless a member is missing, has strings where texts
belong. -/
theorem request_nonNull_iff (message : Text) :
    (∀ call, request m message = some call → call.NonNull) ↔
      ∀ json action, cJSON_Parse m message = some json →
        json.getObjectItemCaseSensitive actionName = some action → TextsAreStrings json action := by
  cases hp : cJSON_Parse m message with
  | none => simp [request, hp]
  | some json =>
      simp only [request, hp, Option.bind_some, Option.some.injEq]
      rw [requestOf_nonNull_iff]
      exact ⟨fun h _ action hj => hj ▸ h action, fun h action => h json action rfl⟩

/-- Whole numbers as doubles, for messages that have no others. -/
def wholeNumbers : Doubles Int where
  zero := 0
  strtod w :=
    ((w.takeWhile Char.isDigit).foldl (fun n c => 10 * n + (c.toNat - '0'.toNat : ℕ)) 0,
      (w.takeWhile Char.isDigit).length)
  strtod_le _ := (List.takeWhile_sublist _).length_le
  toInt d := d
  ofInt n := n

/-- A report whose address is a number. -/
def numberAddress : Text :=
  ("\x7b\"action\":1,\"latitude\":0,\"longitude\":0,\"address\":5,\"user\":\"u\"," ++
    "\"timestamp\":\"01/01/2024\",\"intensity\":1\x7d").toList

theorem not_nonNull_of_numberAddress :
    ∃ call, request wholeNumbers numberAddress = some call ∧ ¬ call.NonNull := by
  refine ⟨.reportPothole ⟨0, 0, none, some "u".toList, some "01/01/2024".toList, 1⟩,
    by decide +kernel, ?_⟩
  simp [DbCall.NonNull]

end PotHub.Server
