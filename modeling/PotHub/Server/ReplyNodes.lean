import PotHub.Json.ReadNodes
import PotHub.Server.RangeQuery

/-!
# The replies in memory

The row loops of the two queries, with the nodes that they make.  An object is put
into the array first and filled there; a turn whose allocations have not all
succeeded leaves the loop, and the array with it.

The 14-day query makes the node of the timestamp in front of the test whether the
row is shown.  So a row that is not shown leaves this node behind, which no pointer
leads to any more.
-/

namespace PotHub.Server

open PotHub.Json PotHub.Lib PotHub.Lib.Heap

variable {D : Type} (alloc : Allocator)

/-! ## The functions -/

/-- The calls of `cJSON_AddItemToObject`, one for each column. -/
def addColumns (pothole : Option ℕ) :
    List (Text × Option ℕ) → Program (Heap (Block D)) PUnit
  | [] => pure ⟨⟩
  | (name, item) :: columns => do
      let _ ← addItemToObject alloc pothole name item
      addColumns pothole columns

/-- The end of a turn, behind the calls that make the nodes; `false` is
`goto end`. -/
def fillPothole (pothole : Option ℕ) (columns : List (Text × Option ℕ)) :
    Program (Heap (Block D)) Bool :=
  if pothole.isNone || columns.any fun column => column.2.isNone then pure false
  else do
    addColumns alloc pothole columns
    pure true

/-- An object of the reply, which is in the array at once. -/
def addPothole (m : Doubles D) (json : ℕ) : Program (Heap (Block D)) (Option ℕ) := do
  let pothole ← cJSON_CreateObject alloc m
  let _ ← addItemToArray (some json) pothole
  pure pothole

/-- A turn of the range query, for a row in the range. -/
def rangeTurn (m : Doubles D) (json : ℕ) (row : TextRow) : Program (Heap (Block D)) Bool := do
  let pothole ← addPothole alloc m json
  let lat ← cJSON_CreateNumber alloc m (atof m row.latitude)
  let lon ← cJSON_CreateNumber alloc m (atof m row.longitude)
  let address ← cJSON_CreateString alloc m row.address
  let user ← cJSON_CreateString alloc m row.user
  let timestamp ← cJSON_CreateString alloc m row.timestamp
  let intensity ← cJSON_CreateNumber alloc m (m.ofInt (atoi row.intensity))
  fillPothole alloc pothole [(latitudeName, lat), (longitudeName, lon), (addressName, address),
    (userName, user), (timestampName, timestamp), (intensityName, intensity)]

/-- The row loop of the range query; `false` is `goto end`. -/
def rangeLoopTo (m : Doubles D) (c : Coordinates D) (latitude longitude range : D) (json : ℕ) :
    List TextRow → Program (Heap (Block D)) Bool
  | [] => pure true
  | row :: rows => do
      let distance :=
        c.haversineDistance (atof m row.latitude) (atof m row.longitude) latitude longitude
      if c.le distance range then
        if ← rangeTurn alloc m json row then rangeLoopTo m c latitude longitude range json rows
        else pure false
      else rangeLoopTo m c latitude longitude range json rows

/-- A turn of the 14-day query for a row that is shown, with the node of the
timestamp. -/
def showRow (m : Doubles D) (json : ℕ) (row : PotholeReport D) (timestamp : ℕ) :
    Program (Heap (Block D)) Bool :=
  match bufferString addressSize row.address, bufferString usernameSize row.user with
  | .ok address_, .ok username_ => do
      let pothole ← addPothole alloc m json
      let lat ← cJSON_CreateNumber alloc m row.latitude
      let lon ← cJSON_CreateNumber alloc m row.longitude
      let address ← cJSON_CreateString alloc m address_
      let user ← cJSON_CreateString alloc m username_
      let intensity ← cJSON_CreateNumber alloc m (m.ofInt row.intensity)
      fillPothole alloc pothole [(latitudeName, lat), (longitudeName, lon),
        (addressName, address), (userName, user), (timestampName, some timestamp),
        (intensityName, intensity)]
  | _, _ => Program.fault

/-- A turn of the 14-day query, with the node of the timestamp.  A null pointer for
the date is read here. -/
def userTurnWith (m : Doubles D) (date : Option Text) (json : ℕ) (row : PotholeReport D)
    (timestamp : ℕ) : Program (Heap (Block D)) Bool := do
  match ← readText timestamp, date with
  | some text, some date =>
      match getDateDifference text date with
      | .error .outOfBounds => Program.fault
      | .error .invalidDate => do
          cJSON_Delete (some timestamp)
          pure false
      | .ok δ => if δ.Within14 then showRow alloc m json row timestamp else pure true
  | _, _ => Program.fault

/-- A turn of the 14-day query. -/
def userTurn (m : Doubles D) (date : Option Text) (json : ℕ) (row : PotholeReport D) :
    Program (Heap (Block D)) Bool :=
  match bufferString timestampSize row.timestamp with
  | .error _ => Program.fault
  | .ok timestamp_ => do
      match ← cJSON_CreateString alloc m timestamp_ with
      | none => pure false
      | some timestamp => userTurnWith alloc m date json row timestamp

/-- The row loop of the 14-day query; `false` is `goto end`. -/
def userLoopTo (m : Doubles D) (date : Option Text) (json : ℕ) :
    List (PotholeReport D) → Program (Heap (Block D)) Bool
  | [] => pure true
  | row :: rows =>
      if row.Truncated then pure true
      else do
        if ← userTurn alloc m date json row then userLoopTo m date json rows else pure false

/-- The pointer `json_string`. -/
inductive JsonString
  /-- It has not been assigned. -/
  | unassigned
  | assigned (p : Option ℕ)

/-- Both queries around their loops. -/
def replyTo (m : Printf D) (loop : ℕ → Program (Heap (Block D)) Bool) :
    Program (Heap (Block D)) JsonString := do
  match ← cJSON_CreateArray alloc m.toDoubles with
  | none => do
      cJSON_Delete none
      pure .unassigned
  | some json => do
      if ← loop json then do
        let jsonString ← printTo alloc m false json
        cJSON_Delete (some json)
        pure (.assigned jsonString)
      else do
        cJSON_Delete (some json)
        pure .unassigned

/-- `getPotholesByRangeJson`, on what the database returns. -/
def getPotholesByRangeJsonTo (m : Printf D) (c : Coordinates D) (rows : List TextRow)
    (latitude longitude range : D) : Program (Heap (Block D)) JsonString :=
  replyTo alloc m fun json => rangeLoopTo alloc m.toDoubles c latitude longitude range json rows

/-- `getUserPotholesBy14DaysJson`, on what the database returns. -/
def getUserPotholesBy14DaysJsonTo (m : Printf D) (rows : List (PotholeReport D))
    (date : Option Text) : Program (Heap (Block D)) JsonString :=
  replyTo alloc m fun json => userLoopTo alloc m.toDoubles date json rows

variable {alloc} {m : Doubles D} {failed : Bool} {json p : ℕ} {q next prev : Option ℕ}
  {name : Option Text} {items : List (CJson D)}

/-! ## An object -/

/-- A column: its name, its node, if there is one, and its value. -/
abbrev Column (D : Type) : Type := Text × Option ℕ × CJson D

variable (m) in
/-- The nodes of the columns. -/
def columnsAt : List (Column D) → Assn (Block D)
  | [] => 1
  | column :: columns => optTreeAt m column.2.1 column.2.2 * columnsAt columns

/-- The columns as arguments. -/
def arguments (columns : List (Column D)) : List (Text × Option ℕ) :=
  columns.map fun column => (column.1, column.2.1)

/-- The columns as members. -/
def members (columns : List (Column D)) : List (Text × CJson D) :=
  columns.map fun column => (cString column.1, column.2.2)

theorem triple_addColumns {columns : List (Column D)} (hall : ∀ c ∈ columns, c.2.1 ≠ none)
    (front : List (Text × CJson D)) :
    Triple failed (nodeAt p next prev (valueBody m name (.object front)) * columnsAt m columns)
      (addColumns alloc (some p) (arguments columns)) fun f _ =>
        objectAt m p next prev name (front ++ members columns) failed f := by
  induction columns generalizing failed front with
  | nil =>
      refine Triple.pure (le_iSup₂_of_le front 1 (Assn.le_fact_mul (.self ⟨?_, rfl⟩) le_rfl))
      rw [members, List.map_nil, List.append_nil]
  | cons column columns ih =>
      obtain ⟨key, item, t⟩ := column
      obtain ⟨hitem, hrest⟩ := List.forall_mem_cons.1 hall
      obtain ⟨item, rfl⟩ := Option.ne_none_iff_exists'.1 hitem
      refine (triple_addItemToObject front).bind_frame (mul_assoc _ _ _).symm fun f _ => ?_
      refine Triple.iSup_mul fun front' => Triple.iSup_mul fun lost => ?_
      rw [mul_assoc]
      refine Triple.fact fun hf => ?_
      -- What this call has lost stays beside the calls that follow.
      rw [mul_right_comm]
      refine Triple.mono ((ih hrest front').frame lost) le_rfl fun f' _ => ?_
      rw [objectAt, Quantale.iSup_mul_distrib]
      refine iSup_le fun front'' => ?_
      rw [Quantale.iSup_mul_distrib]
      refine iSup_le fun lost' => le_iSup₂_of_le front'' (lost' * lost) ?_
      rw [mul_assoc, mul_assoc]
      refine mul_le_mul' (Assn.fact_mono fun hf' => hf.trans hf' ?_) le_rfl
      rintro ⟨rfl, rfl⟩ ⟨rfl, rfl⟩
      exact ⟨by simp [members], mul_one 1⟩

variable (m) in
/-- The array, and what else there is: items as expected, and this lost, unless an
allocation has failed. -/
def replyAt (json : ℕ) (expected : List (CJson D) → Prop) (lost : Assn (Block D))
    (failed f : Bool) : Assn (Block D) :=
  ⨆ (items : List (CJson D)) (lost' : Assn (Block D)),
    .fact (Unless failed f (expected items ∧ lost' = lost)) *
      (treeAt m json (.array items) * lost')

variable (m) in
/-- The array with a new object, if there is one, which is still empty. -/
def growing (json : ℕ) (items : List (CJson D)) : Option ℕ → Assn (Block D)
  | none => treeAt m json (.array items)
  | some p =>
      ⨆ q, openAt m json none none none (.array items) (items.map (valueBody m none)) p q *
        nodeAt p none q (valueBody m none (.object []))

theorem growing_le (pothole : Option ℕ) :
    growing m json items pothole ≤ ⨆ items', treeAt m json (.array items') := by
  cases pothole with
  | none => exact le_iSup_of_le items le_rfl
  | some p =>
      exact iSup_le fun q => le_iSup_of_le (items ++ [CJson.object []])
        (collects_array.close items (CJson.object []))

theorem triple_addPothole : Triple failed (treeAt m json (.array items)) (addPothole alloc m json)
    fun f pothole => .fact (Unless failed f (pothole ≠ none)) * growing m json items pothole := by
  refine makes_createObject.bind (fun p => ?_) (Triple.pure (Assn.le_fact_mul (.inr rfl) le_rfl))
  rw [mul_comm]
  refine (collects_array.gives_addItemToArray items).seq (Triple.pure ?_)
  exact Assn.le_fact_mul (.self (by simp)) le_rfl

section ReplyAt

variable {expected expected' : List (CJson D) → Prop} {lost lost' before : Assn (Block D)}

theorem le_replyAt_of_failed : treeAt m json (.array items) * before ≤
    replyAt m json expected lost failed true :=
  le_iSup₂_of_le items before (Assn.le_fact_mul (.inr rfl) le_rfl)

theorem le_replyAt (h : expected items) : treeAt m json (.array items) * lost ≤
    replyAt m json expected lost failed failed :=
  le_iSup₂_of_le items lost (Assn.le_fact_mul (.self ⟨h, rfl⟩) le_rfl)

/-- A turn behind another, with what has been lost before. -/
theorem replyAt_mul_le {f f' : Bool}
    (h : Unless failed f ((∀ items, expected items → expected' items) ∧ lost' * before = lost)) :
    replyAt m json expected lost' f f' * before ≤ replyAt m json expected' lost failed f' := by
  rw [replyAt, Quantale.iSup_mul_distrib]
  refine iSup_le fun found => ?_
  rw [Quantale.iSup_mul_distrib]
  refine iSup_le fun left => le_iSup₂_of_le found (left * before) ?_
  rw [mul_assoc, mul_assoc]
  refine mul_le_mul' (Assn.fact_mono fun hf => h.trans hf ?_) le_rfl
  rintro ⟨hexpected, rfl⟩ ⟨hfound, rfl⟩
  exact ⟨hexpected found hfound, rfl⟩

end ReplyAt

theorem incomplete_iff {columns : List (Column D)} {pothole : Option ℕ} :
    (pothole.isNone || (arguments columns).any fun column => column.2.isNone) = true ↔
      ¬ (pothole ≠ none ∧ ∀ c ∈ columns, c.2.1 ≠ none) := by
  rw [Bool.or_eq_true, not_and_or, Option.isNone_iff_eq_none, not_not, arguments, List.any_map,
    List.any_eq_true]
  simp

/-- The turn ends with the columns in the object, and the object in the array. -/
theorem triple_fillPothole {columns : List (Column D)} {pothole : Option ℕ} {f₀ : Bool}
    (hall : Unless f₀ failed (pothole ≠ none ∧ ∀ c ∈ columns, c.2.1 ≠ none)) :
    Triple failed (growing m json items pothole * columnsAt m columns)
      (fillPothole alloc pothole (arguments columns)) fun f r =>
        replyAt m json (fun items' => r = true ∧ items' = items ++ [.object (members columns)]) 1
          f₀ f := by
  rw [fillPothole]
  split_ifs with hnone
  · -- A node is missing, so an allocation has failed.
    obtain rfl : failed = true := hall.resolve_left fun h => incomplete_iff.1 hnone h.2
    refine Triple.pure ((mul_le_mul' (growing_le pothole) le_rfl).trans ?_)
    rw [Quantale.iSup_mul_distrib]
    exact iSup_le fun items' => le_replyAt_of_failed
  · obtain ⟨hpothole, hcolumns⟩ := not_not.1 (mt incomplete_iff.2 hnone)
    obtain ⟨p, rfl⟩ := Option.ne_none_iff_exists'.1 hpothole
    refine Triple.iSup_mul fun q => ?_
    rw [mul_assoc]
    refine (triple_addColumns hcolumns []).bind_frame (mul_comm _ _) fun f _ => Triple.pure ?_
    rw [objectAt, mul_comm, Quantale.mul_iSup_distrib]
    refine iSup_le fun front => ?_
    rw [Quantale.mul_iSup_distrib]
    refine iSup_le fun lost => ?_
    rw [mul_left_comm, ← mul_assoc (openAt _ _ _ _ _ _ _ _ _)]
    refine Assn.fact_mul_le fun hf => ?_
    refine le_iSup₂_of_le (items ++ [CJson.object front]) lost ?_
    refine Assn.le_fact_mul (hall.trans hf ?_)
      (mul_le_mul' (collects_array.close items (CJson.object front)) le_rfl)
    rintro - ⟨rfl, rfl⟩
    exact ⟨⟨rfl, by rw [List.nil_append]⟩, rfl⟩

/-- The nodes of the six columns. -/
structure ColumnNodes where
  latitude : Option ℕ
  longitude : Option ℕ
  address : Option ℕ
  user : Option ℕ
  timestamp : Option ℕ
  intensity : Option ℕ

variable (m) in
/-- The six columns. -/
def potholeColumns (nodes : ColumnNodes) (latitude longitude : D) (address user timestamp : Text)
    (intensity : Int) : List (Column D) :=
  [(latitudeName, nodes.latitude, .createNumber m latitude),
    (longitudeName, nodes.longitude, .createNumber m longitude),
    (addressName, nodes.address, .string address), (userName, nodes.user, .string user),
    (timestampName, nodes.timestamp, .string timestamp),
    (intensityName, nodes.intensity, .createNumber m (m.ofInt intensity))]

theorem object_members_potholeColumns (nodes : ColumnNodes) (latitude longitude : D)
    (address user timestamp : Text) (intensity : Int) :
    .object (members (potholeColumns m nodes latitude longitude address user timestamp intensity)) =
      potholeObject m latitude longitude address user timestamp intensity := by
  have hnames : ∀ key ∈ [latitudeName, longitudeName, addressName, userName, timestampName,
      intensityName], cString key = key := by decide +kernel
  simp only [List.forall_mem_cons] at hnames
  obtain ⟨h₁, h₂, h₃, h₄, h₅, h₆, -⟩ := hnames
  simp only [members, potholeColumns, List.map_cons, List.map_nil, h₁, h₂, h₃, h₄, h₅, h₆,
    potholeObject]

/-- The end of a turn with six columns. -/
theorem triple_fillPothole_potholeColumns (nodes : ColumnNodes) {pothole : Option ℕ} {f₀ : Bool}
    {latitude longitude : D} {address user timestamp : Text} {intensity : Int}
    (hall : Unless f₀ failed (pothole ≠ none ∧
      ∀ c ∈ potholeColumns m nodes latitude longitude address user timestamp intensity,
        c.2.1 ≠ none)) {P : Assn (Block D)}
    (hP : P = growing m json items pothole * columnsAt m
      (potholeColumns m nodes latitude longitude address user timestamp intensity)) :
    Triple failed P (fillPothole alloc pothole (arguments
      (potholeColumns m nodes latitude longitude address user timestamp intensity))) fun f r =>
        replyAt m json (fun items' => r = true ∧ items' = items ++
          [potholeObject m latitude longitude address user timestamp intensity]) 1 f₀ f := by
  rw [hP, ← object_members_potholeColumns nodes]
  exact triple_fillPothole hall

/-! ## The range query -/

/-- How a loop ends, for what its query returns. -/
def LoopEnds (reply : QueryReply D) (r : Bool) (items : List (CJson D)) : Prop :=
  match reply with
  | .json tree => r = true ∧ tree = .array items
  | .unassigned => r = false
  | .outOfBounds => False

/-- A row in the range is shown. -/
theorem triple_rangeTurn (row : TextRow) :
    Triple failed (treeAt m json (.array items)) (rangeTurn alloc m json row) fun f r =>
      replyAt m json (fun items' => r = true ∧ items' = items ++
        [potholeObject m (atof m row.latitude) (atof m row.longitude) (cString row.address)
          (cString row.user) (cString row.timestamp) (atoi row.intensity)]) 1 failed f := by
  refine triple_addPothole.bind fun _ pothole => Triple.fact fun h₀ => ?_
  refine bind_optTreeAt (makes_createNumber (atof m row.latitude)) fun _ lat h₁ => ?_
  refine bind_optTreeAt (makes_createNumber (atof m row.longitude)) fun _ lon h₂ => ?_
  refine bind_optTreeAt (makes_createString row.address) fun _ address h₃ => ?_
  refine bind_optTreeAt (makes_createString row.user) fun _ user h₄ => ?_
  refine bind_optTreeAt (makes_createString row.timestamp) fun _ timestamp h₅ => ?_
  refine bind_optTreeAt (makes_createNumber (m.ofInt (atoi row.intensity))) fun _ intensity h₆ => ?_
  refine triple_fillPothole_potholeColumns ⟨lat, lon, address, user, timestamp, intensity⟩ ?_ ?_
  · refine ((((((h₀.trans h₁ And.intro).trans h₂ And.intro).trans h₃ And.intro).trans h₄
      And.intro).trans h₅ And.intro).trans h₆ And.intro).mono ?_
    rintro ⟨⟨⟨⟨⟨⟨hpothole, hlat⟩, hlon⟩, haddress⟩, huser⟩, htimestamp⟩, hintensity⟩
    simp [potholeColumns, *]
  · simp only [columnsAt, potholeColumns]
    ac_rfl

/-- The loop shows the rows in the range. -/
theorem triple_rangeLoopTo {c : Coordinates D} {latitude longitude range : D}
    (rows : List TextRow) :
    Triple failed (treeAt m json (.array items))
      (rangeLoopTo alloc m c latitude longitude range json rows) fun f r =>
        replyAt m json
          (LoopEnds (.json (.array (rangeLoop m c latitude longitude range rows items))) r) 1
          failed f := by
  induction rows generalizing failed items with
  | nil => exact Triple.pure ((mul_one _).ge.trans (le_replyAt ⟨rfl, rfl⟩))
  | cons row rows ih =>
      rw [rangeLoopTo, rangeLoop]
      dsimp only
      split_ifs
      · refine (triple_rangeTurn row).bind fun f r => Triple.iSup fun items' =>
          Triple.iSup fun lost => Triple.fact fun hf => ?_
        split_ifs with hr
        · refine Triple.mono (ih.frame lost) le_rfl fun f' r' => replyAt_mul_le (hf.mono ?_)
          rintro ⟨⟨-, rfl⟩, rfl⟩
          exact ⟨fun _ h => h, mul_one 1⟩
        · obtain rfl : f = true := hf.resolve_left fun h => hr h.2.1.1
          exact Triple.pure le_replyAt_of_failed
      · exact ih

/-! ## The 14-day query -/

variable {date : Text} {row : PotholeReport D}

variable (m) in
/-- The nodes of strings to which no pointer leads. -/
def strayAt : List Text → Assn (Block D)
  | [] => 1
  | s :: strays => (⨆ a, treeAt m a (.string s)) * strayAt strays

theorem treeAt_le_strayAt {a : ℕ} {s : Text} : treeAt m a (.string s) ≤ strayAt m [s] :=
  (le_iSup (fun a => treeAt m a (.string s)) a).trans (mul_one _).ge

/-- The strings that a turn leaves behind. -/
def turnStrays (timestamp : Text) : Option (CJson D) → List Text
  | none => [timestamp]
  | some _ => []

/-- A row that is shown, behind the date. -/
theorem triple_showRow {timestamp : ℕ} {time address_ username_ : Text}
    (haddress : bufferString addressSize row.address = .ok address_)
    (huser : bufferString usernameSize row.user = .ok username_) :
    Triple failed (treeAt m timestamp (.string time) * treeAt m json (.array items))
      (showRow alloc m json row timestamp) fun f r =>
        replyAt m json (fun items' => r = true ∧ items' = items ++
          [potholeObject m row.latitude row.longitude address_ username_ time row.intensity]) 1
          failed f := by
  have haddress' : cString address_ = address_ := by
    rw [(bufferString_eq_ok haddress).2, cString_of_not_mem (not_mem_cString _)]
  have huser' : cString username_ = username_ := by
    rw [(bufferString_eq_ok huser).2, cString_of_not_mem (not_mem_cString _)]
  simp only [showRow, haddress, huser]
  refine triple_addPothole.bind_frame (mul_comm _ _) fun _ pothole => ?_
  rw [mul_assoc]
  refine Triple.fact fun h₀ => ?_
  refine bind_optTreeAt (makes_createNumber row.latitude) fun _ lat h₁ => ?_
  refine bind_optTreeAt (makes_createNumber row.longitude) fun _ lon h₂ => ?_
  refine bind_optTreeAt (makes_createString address_) fun _ address h₃ => ?_
  refine bind_optTreeAt (makes_createString username_) fun _ user h₄ => ?_
  refine bind_optTreeAt (makes_createNumber (m.ofInt row.intensity)) fun _ intensity h₅ => ?_
  refine triple_fillPothole_potholeColumns ⟨lat, lon, address, user, timestamp, intensity⟩ ?_ ?_
  · refine (((((h₀.trans h₁ And.intro).trans h₂ And.intro).trans h₃ And.intro).trans h₄
      And.intro).trans h₅ And.intro).mono ?_
    rintro ⟨⟨⟨⟨⟨hpothole, hlat⟩, hlon⟩, haddress⟩, huser⟩, hintensity⟩
    simp [potholeColumns, *]
  · simp only [columnsAt, potholeColumns, optTreeAt, haddress', huser']
    ac_rfl

theorem bufferString_eq_error {size : ℕ} {column : Text} {fault : Fault}
    (h : bufferString size column = .error fault) : fault = .outOfBounds := by
  rw [bufferString] at h
  split_ifs at h
  exact (Except.error.inj h).symm

/-- What a turn has read. -/
theorem readRow_eq_ok {item : Option (CJson D)} (h : readRow m date row = .ok item) :
    ∃ time δ, bufferString timestampSize row.timestamp = .ok time ∧
      getDateDifference time date = .ok δ ∧
      (δ.Within14 ∧ (∃ address_ username_, bufferString addressSize row.address = .ok address_ ∧
          bufferString usernameSize row.user = .ok username_ ∧ item = some (potholeObject m
            row.latitude row.longitude address_ username_ time row.intensity)) ∨
        ¬ δ.Within14 ∧ item = none) := by
  simp only [readRow, bind_eq_ok] at h
  obtain ⟨time, htime, δ, hδ, h⟩ := h
  refine ⟨time, δ, htime, hδ, ?_⟩
  split_ifs at h with hwithin
  · obtain ⟨address_, haddress, h⟩ := bind_eq_ok.1 h
    obtain ⟨username_, huser, h⟩ := bind_eq_ok.1 h
    exact .inl ⟨hwithin, address_, username_, haddress, huser, (Except.ok.inj h).symm⟩
  · exact .inr ⟨hwithin, (Except.ok.inj h).symm⟩

theorem bind_eq_error {α β : Type} {x : Except Fault α} {f : α → Except Fault β} {e : Fault}
    (h : (x >>= f) = .error e) : x = .error e ∨ ∃ a, x = .ok a ∧ f a = .error e := by
  cases x with
  | error e' => exact .inl (congrArg Except.error (Except.error.inj h))
  | ok a => exact .inr ⟨a, rfl, h⟩

theorem readRow_eq_invalidDate (h : readRow m date row = .error .invalidDate) :
    ∃ time, bufferString timestampSize row.timestamp = .ok time ∧
      getDateDifference time date = .error .invalidDate := by
  have hbuffer : ∀ size column, bufferString size column ≠ .error .invalidDate :=
    fun size column h => by cases bufferString_eq_error h
  obtain ⟨time, htime, h⟩ := (bind_eq_error h).resolve_left (hbuffer _ _)
  refine ⟨time, htime, ?_⟩
  rcases bind_eq_error h with h | ⟨δ, -, h⟩
  · exact h
  · split_ifs at h
    · obtain ⟨address_, -, h⟩ := (bind_eq_error h).resolve_left (hbuffer _ _)
      obtain ⟨username_, -, h⟩ := (bind_eq_error h).resolve_left (hbuffer _ _)
      cases h
    · cases h

/-- A turn that the row does not end. -/
theorem triple_userTurn {item : Option (CJson D)} (h : readRow m date row = .ok item) :
    Triple failed (treeAt m json (.array items)) (userTurn alloc m (some date) json row) fun f r =>
      replyAt m json (fun items' => r = true ∧ items' = items ++ item.toList)
        (strayAt m (turnStrays (cString row.timestamp) item)) failed f := by
  obtain ⟨time, δ, htime, hδ, h⟩ := readRow_eq_ok h
  obtain ⟨-, rfl⟩ := bufferString_eq_ok htime
  simp only [userTurn, htime]
  refine (makes_createString _).bind (fun timestamp => ?_)
    (Triple.pure ((mul_one _).ge.trans le_replyAt_of_failed))
  rw [cString_of_not_mem (not_mem_cString row.timestamp)]
  refine gives_readText.bind rfl ?_
  simp only [CJson.valuestring, hδ]
  rcases h with ⟨hwithin, address_, username_, haddress, huser, rfl⟩ | ⟨hwithin, rfl⟩
  · rw [if_pos hwithin]
    exact triple_showRow haddress huser
  · -- The row is not shown: no pointer leads to its timestamp any more.
    rw [if_neg hwithin, mul_comm]
    refine Triple.pure ((mul_le_mul' le_rfl treeAt_le_strayAt).trans (le_replyAt ⟨rfl, ?_⟩))
    exact (List.append_nil items).symm

/-- A turn that finds a date which is not taken. -/
theorem triple_userTurn_invalidDate (h : readRow m date row = .error .invalidDate) :
    Triple failed (treeAt m json (.array items)) (userTurn alloc m (some date) json row) fun f r =>
      .fact (r = false) * replyAt m json (fun items' => items' = items) 1 failed f := by
  obtain ⟨time, htime, hdiff⟩ := readRow_eq_invalidDate h
  obtain ⟨-, rfl⟩ := bufferString_eq_ok htime
  simp only [userTurn, htime]
  refine (makes_createString _).bind (fun timestamp => ?_)
    (Triple.pure (Assn.le_fact_mul rfl ((mul_one _).ge.trans le_replyAt_of_failed)))
  rw [cString_of_not_mem (not_mem_cString row.timestamp)]
  refine gives_readText.bind rfl ?_
  simp only [CJson.valuestring, hdiff]
  refine gives_cJSON_Delete_treeAt.bind_one rfl (Triple.pure (Assn.le_fact_mul rfl ?_))
  exact (mul_one _).ge.trans (le_replyAt rfl)

theorem strayAt_append (strays strays' : List Text) :
    strayAt m (strays ++ strays') = strayAt m strays * strayAt m strays' := by
  induction strays with
  | nil => exact (one_mul _).symm
  | cons s strays ih => rw [List.cons_append, strayAt, strayAt, ih, mul_assoc]

variable (m) in
/-- The timestamps of the rows that the loop reads and does not show. -/
def strays (date : Text) : List (PotholeReport D) → List Text
  | [] => []
  | row :: rows =>
      if row.Truncated then []
      else
        match readRow m date row with
        | .ok item => turnStrays (cString row.timestamp) item ++ strays date rows
        | .error _ => []

/-- Where the query returns a text, these are the rows that are not recent. -/
theorem strays_of_json {rows : List (PotholeReport D)} {tree : CJson D}
    (h : rowLoop m date rows items = .json tree) :
    strays m date rows = ((fetched rows).filter fun row => ¬ row.Recent date).map fun row =>
      cString row.timestamp := by
  obtain ⟨hread, -⟩ := rowLoop_eq_json_iff.1 h
  clear h
  induction rows with
  | nil => rfl
  | cons row rows ih =>
      rw [strays, fetched] at *
      by_cases hcut : row.Truncated
      · simp [hcut]
      · rw [List.takeWhile_cons_of_pos (by simpa using hcut)] at hread ⊢
        obtain ⟨hrow, hrows⟩ := List.forall_mem_cons.1 hread
        rw [if_neg hcut]
        rcases readRow_of_readable (m := m) hrow with ⟨hrecent, hok⟩ | ⟨hrecent, hok⟩
        · rw [hok, List.filter_cons_of_neg (by simpa using hrecent)]
          exact ih hrows
        · rw [hok, List.filter_cons_of_pos (by simpa using hrecent), List.map_cons]
          exact congrArg (cString row.timestamp :: ·) (ih hrows)

/-- Whether the loop reads outside of a buffer does not depend on the items so far. -/
theorem rowLoop_ne_outOfBounds {rows : List (PotholeReport D)} {items : List (CJson D)}
    (h : rowLoop m date rows items ≠ .outOfBounds) (items' : List (CJson D)) :
    rowLoop m date rows items' ≠ .outOfBounds := by
  induction rows generalizing items items' with
  | nil => simp [rowLoop]
  | cons row rows ih =>
      rw [rowLoop] at h ⊢
      by_cases hcut : row.Truncated
      · simp [hcut]
      · rw [if_neg hcut] at h ⊢
        cases hread : readRow m date row with
        | ok item =>
            rw [hread] at h
            exact ih h _
        | error fault =>
            rw [hread] at h
            cases fault with
            | outOfBounds => exact absurd rfl h
            | invalidDate => simp

/-- The loop, and what it leaves behind. -/
theorem triple_userLoopTo (rows : List (PotholeReport D))
    (h : rowLoop m date rows items ≠ .outOfBounds) :
    Triple failed (treeAt m json (.array items)) (userLoopTo alloc m (some date) json rows)
      fun f r => replyAt m json (LoopEnds (rowLoop m date rows items) r)
        (strayAt m (strays m date rows)) failed f := by
  induction rows generalizing failed items with
  | nil => exact Triple.pure ((mul_one _).ge.trans (le_replyAt ⟨rfl, rfl⟩))
  | cons row rows ih =>
      rw [rowLoop] at h ⊢
      rw [userLoopTo, strays]
      by_cases hcut : row.Truncated
      · -- The fetch does not return 0, which ends the loop like the end of the rows.
        simp only [if_pos hcut]
        exact Triple.pure ((mul_one _).ge.trans (le_replyAt ⟨rfl, rfl⟩))
      · simp only [if_neg hcut] at h ⊢
        cases hread : readRow m date row with
        | ok item =>
            rw [hread] at h
            refine (triple_userTurn hread).bind fun f r => Triple.iSup fun items' =>
              Triple.iSup fun lost => Triple.fact fun hf => ?_
            simp only [strayAt_append]
            split_ifs with hr
            · refine Triple.mono ((ih (rowLoop_ne_outOfBounds h items')).frame lost) le_rfl
                fun f' r' => replyAt_mul_le (hf.mono ?_)
              rintro ⟨⟨-, rfl⟩, rfl⟩
              exact ⟨fun _ hends => hends, mul_comm _ _⟩
            · obtain rfl : f = true := hf.resolve_left fun h => hr h.2.1.1
              exact Triple.pure le_replyAt_of_failed
        | error fault =>
            rw [hread] at h
            cases fault with
            | outOfBounds => exact absurd rfl h
            | invalidDate =>
                -- `goto end`, with the timestamp deleted.
                refine (triple_userTurn_invalidDate hread).bind fun f r => Triple.fact fun hr => ?_
                rw [hr, if_neg (by simp)]
                refine Triple.pure ((mul_one _).ge.trans (replyAt_mul_le (.inl ⟨rfl, ?_⟩)))
                exact ⟨fun _ _ => rfl, mul_one 1⟩

/-! ## The replies -/

/-- The pointer `json_string` and the block that it points to; the text is `none`
where nothing has been assigned. -/
def jsonStringAt : JsonString → Option (Option Text) → Assn (Block D)
  | .unassigned, none => 1
  | .assigned none, some none => 1
  | .assigned (some p), some (some w) => .pointsTo p (.bytes (w ++ ['\x00']))
  | _, _ => ⊥

/-- What the query returns. -/
def answerText (m : Printf D) : QueryReply D → Option (Option Text)
  | .json tree => some (cJSON_PrintUnformatted m tree)
  | .unassigned | .outOfBounds => none

/-- The reply, and what else there is: that text, and this lost, unless an allocation
has failed. -/
def answerAt (text : Option (Option Text)) (lost : Assn (Block D)) (failed f : Bool)
    (jsonString : JsonString) : Assn (Block D) :=
  ⨆ (text' : Option (Option Text)) (lost' : Assn (Block D)),
    .fact (Unless failed f (text' = text ∧ lost' = lost)) * (jsonStringAt jsonString text' * lost')

theorem le_answerAt {text text' : Option (Option Text)} {lost lost' : Assn (Block D)} {f : Bool}
    {jsonString : JsonString} (h : Unless failed f (text' = text ∧ lost' = lost)) :
    jsonStringAt jsonString text' * lost' ≤ answerAt text lost failed f jsonString :=
  le_iSup₂_of_le text' lost' (Assn.le_fact_mul h le_rfl)

theorem le_answerAt_one (text' : Option (Option Text)) {text : Option (Option Text)}
    {lost lost' : Assn (Block D)} {f : Bool} {jsonString : JsonString}
    (hone : jsonStringAt jsonString text' = (1 : Assn (Block D)))
    (h : Unless failed f (text' = text ∧ lost' = lost)) :
    lost' ≤ answerAt text lost failed f jsonString := by
  rw [← one_mul lost', ← hone]
  exact le_answerAt h

/-- The text of the array, for a loop that ends as the query does. -/
theorem answerText_of_loopEnds {m : Printf D} {reply : QueryReply D}
    (h : LoopEnds reply true items) :
    some (printValue m false 0 (.array items)) = answerText m reply := by
  cases reply with
  | json tree =>
      obtain ⟨-, rfl⟩ := h
      rfl
  | unassigned => cases h
  | outOfBounds => exact h.elim

/-- The reply is printed, and the array is deleted. -/
theorem triple_replyTo {m : Printf D} {loop : ℕ → Program (Heap (Block D)) Bool}
    {reply : QueryReply D} {lost : Assn (Block D)}
    (hloop : ∀ json, Triple failed (treeAt m.toDoubles json (.array [])) (loop json) fun f r =>
      replyAt m.toDoubles json (LoopEnds reply r) lost failed f) :
    Triple failed 1 (replyTo alloc m loop) fun f r =>
      answerAt (answerText m reply) lost failed f r := by
  refine makes_createArray.bind (fun json => ?_) ?_
  · rw [mul_one]
    refine (hloop json).bind fun f r => Triple.iSup fun items => Triple.iSup fun lost' =>
      Triple.fact fun hf => ?_
    cases r with
    | true =>
        -- All rows have been read: the array is printed, and then deleted.
        refine (triple_printTo alloc (.array items)).bind_frame rfl fun f' jsonString => ?_
        refine gives_cJSON_Delete_treeAt.bind_one (show _ = treeAt m.toDoubles json (.array items) *
          (printedAt m false (.array items) f f' jsonString * lost') by ac_rfl) (Triple.pure ?_)
        cases jsonString with
        | none =>
            refine Assn.fact_mul_le fun hprint => le_answerAt_one (some none) rfl ?_
            rcases hprint with hprint | ⟨rfl, hprint⟩
            · exact .inr hprint
            · refine hf.mono fun h => ⟨?_, h.2⟩
              rw [← answerText_of_loopEnds h.1, hprint]
        | some p =>
            rw [printedAt, Quantale.iSup_mul_distrib]
            refine iSup_le fun w => ?_
            rw [mul_assoc]
            refine Assn.fact_mul_le ?_
            rintro ⟨rfl, hprint⟩
            show jsonStringAt (.assigned (some p)) (some (some w)) * lost' ≤ _
            refine le_answerAt (hf.mono fun h => ⟨?_, h.2⟩)
            rw [← answerText_of_loopEnds h.1, hprint]
    | false =>
        -- `goto end`: nothing is assigned to `json_string`.
        refine gives_cJSON_Delete_treeAt.bind_one rfl (Triple.pure ?_)
        refine le_answerAt_one none rfl (hf.mono fun h => ⟨?_, h.2⟩)
        cases reply with
        | json tree => cases h.1.1
        | unassigned => rfl
        | outOfBounds => exact h.1.elim
  · rw [cJSON_Delete_none]
    exact Triple.pure (le_answerAt_one none rfl (.inr rfl))

/-- **The reply of the range query in memory.** -/
theorem triple_getPotholesByRangeJsonTo {m : Printf D} {c : Coordinates D} (rows : List TextRow)
    (latitude longitude range : D) :
    Triple failed 1 (getPotholesByRangeJsonTo alloc m c rows latitude longitude range) fun f r =>
      answerAt (answerText m (.json (.array (rangeLoop m.toDoubles c latitude longitude range rows
        [])))) 1 failed f r :=
  triple_replyTo fun _ => triple_rangeLoopTo rows

/-- **The reply of the 14-day query in memory.** -/
theorem triple_getUserPotholesBy14DaysJsonTo {m : Printf D} (rows : List (PotholeReport D))
    (h : rowLoop m.toDoubles date rows [] ≠ .outOfBounds) :
    Triple failed 1 (getUserPotholesBy14DaysJsonTo alloc m rows (some date)) fun f r =>
      answerAt (answerText m (rowLoop m.toDoubles date rows []))
        (strayAt m.toDoubles (strays m.toDoubles date rows)) failed f r :=
  triple_replyTo fun _ => triple_userLoopTo rows h

end PotHub.Server
