import PotHub.Lib.Parsers

/-!
# The trees of cJSON

The data model of `cJSON.c` as far as the server looks at it.  An item has a
type and the three value fields `valuestring`, `valueint` and `valuedouble`; a
field that does not belong to the type is what the allocation leaves there,
a null pointer or zero.

A text is a list of characters, one for each byte.  The arithmetic of doubles
is a parameter: `strtod`, and the saturating conversion to `int`.
-/

namespace PotHub.Json

/-- A text without its terminating zero. -/
abbrev Text : Type := List Char

/-- What `cJSON.c` uses of the C library and of the type `double`. -/
structure Doubles (D : Type) where
  zero : D
  /-- The number at the front of a text, and how many characters it takes: none
  if there is no number. -/
  strtod : Text → D × ℕ
  strtod_le : ∀ w, (strtod w).2 ≤ w.length
  /-- The conversion to `int`, which saturates. -/
  toInt : D → Int
  ofInt : Int → D

/-- An item of cJSON. -/
inductive CJson (D : Type)
  | null
  | false
  | true
  | number (valuedouble : D) (valueint : Int)
  | string (valuestring : Text)
  | array (items : List (CJson D))
  | object (members : List (Text × CJson D))

namespace CJson

variable {D : Type}

/-- `cJSON_CreateNumber`. -/
def createNumber (m : Doubles D) (num : D) : CJson D := .number num (m.toInt num)

/-- The field `valuestring`; `none` is the null pointer. -/
def valuestring : CJson D → Option Text
  | .string s => some s
  | _ => none

/-- The field `valueint`. -/
def valueint : CJson D → Int
  | .true => 1
  | .number _ n => n
  | _ => 0

/-- The field `valuedouble`. -/
def valuedouble (m : Doubles D) : CJson D → D
  | .number d _ => d
  | _ => m.zero

/-- `cJSON_GetObjectItemCaseSensitive`: the first member of the name.  The
children of an array have no name, which ends the search. -/
def getObjectItemCaseSensitive (json : CJson D) (name : Text) : Option (CJson D) :=
  match json with
  | .object members => (members.find? fun p => p.1 = name).map Prod.snd
  | _ => none

/-- Is the item of type `cJSON_Number`? -/
def isNumber : CJson D → Bool
  | .number _ _ => Bool.true
  | _ => Bool.false

/-- Induction on trees, where what holds of all items holds of the array. -/
@[elab_as_elim]
theorem induct {P : CJson D → Prop} (null : P .null) (false : P .false) (true : P .true)
    (number : ∀ d n, P (.number d n)) (string : ∀ s, P (.string s))
    (array : ∀ items, (∀ t ∈ items, P t) → P (.array items))
    (object : ∀ members, (∀ p ∈ members, P p.2) → P (.object members)) (t : CJson D) : P t :=
  @CJson.rec D P (fun items => ∀ t ∈ items, P t) (fun members => ∀ p ∈ members, P p.2)
    (fun p => P p.2) null false true number string array object (by simp)
    (fun _ _ h hs => List.forall_mem_cons.2 ⟨h, hs⟩) (by simp)
    (fun _ _ h hs => List.forall_mem_cons.2 ⟨h, hs⟩) (fun _ _ h => h) t

end CJson

end PotHub.Json
