import PotHub.Json.ParseNodes

/-!
# Trees that are built

The functions of `cJSON.c` that make nodes and hang them on others.  A new item is
put behind the last one, which the first one knows.  So an item of a list can go on
growing while it hangs there: the list is a list with a hole, and the item fills it.

`cJSON_AddItemToObject` copies the name.  Where that fails it returns false, and the
item hangs nowhere.
-/

namespace PotHub.Json

open PotHub.Lib PotHub.Lib.Heap

variable {D : Type} (alloc : Allocator) (m : Doubles D)

/-! ## The functions -/

/-- `cJSON_strdup`, of the string in a buffer. -/
def strdup (string : Text) : Program (Heap (Block D)) (Option ℕ) := do
  match ← Heap.alloc alloc.fails fun call =>
      .bytes (alloc.fresh call ((cString string).length + 1)) with
  | none => pure none
  | some copy => do
      Heap.write copy (.bytes (cString string ++ ['\x00']))
      pure (some copy)

/-- A new node with assignments to its fields. -/
def newItemWith (f : Item D → Item D) : Program (Heap (Block D)) (Option ℕ) := do
  match ← newItem alloc m with
  | none => pure none
  | some item => do
      modifyItem item f
      pure (some item)

/-- `cJSON_CreateArray`. -/
def cJSON_CreateArray : Program (Heap (Block D)) (Option ℕ) :=
  newItemWith alloc m fun i => { i with kind := .array }

/-- `cJSON_CreateObject`. -/
def cJSON_CreateObject : Program (Heap (Block D)) (Option ℕ) :=
  newItemWith alloc m fun i => { i with kind := .object }

/-- `cJSON_CreateNumber`. -/
def cJSON_CreateNumber (num : D) : Program (Heap (Block D)) (Option ℕ) :=
  newItemWith alloc m fun i =>
    { i with kind := .number, valuedouble := num, valueint := m.toInt num }

/-- `cJSON_CreateString`. -/
def cJSON_CreateString (string : Text) : Program (Heap (Block D)) (Option ℕ) := do
  match ← newItem alloc m with
  | none => pure none
  | some item => do
      modifyItem item fun i => { i with kind := .string }
      let copy ← strdup alloc string
      modifyItem item fun i => { i with valuestring := copy }
      match copy with
      | none => do
          cJSON_Delete (some item)
          pure none
      | some _ => pure (some item)

/-- `suffix_object`. -/
def suffixObject (prev item : ℕ) : Program (Heap (Block D)) PUnit := do
  modifyNode prev fun n => { n with next := some item }
  modifyNode item fun n => { n with prev := some prev }

/-- The end of `add_item_to_array`, for a list that is not empty. -/
def appendTo (child item : ℕ) : Program (Heap (Block D)) Bool := do
  let first ← readNode child
  match first.prev with
  | none => pure true
  | some last => do
      suffixObject last item
      modifyNode child fun n => { n with prev := some item }
      pure true

/-- `cJSON_AddItemToArray`. -/
def addItemToArray : (array item : Option ℕ) → Program (Heap (Block D)) Bool
  | some array, some item =>
      if array = item then pure false
      else do
        let node ← readNode array
        match node.item.child with
        | none => do
            modifyItem array fun i => { i with child := some item }
            modifyNode item fun n => { n with prev := some item, next := none }
            pure true
        | some child => appendTo child item
  | _, _ => pure false

/-- `cJSON_AddItemToObject`. -/
def addItemToObject (object : Option ℕ) (string : Text) (item : Option ℕ) :
    Program (Heap (Block D)) Bool :=
  match object, item with
  | some object, some item =>
      if object = item then pure false
      else do
        match ← strdup alloc string with
        | none => pure false
        | some newKey => do
            let node ← readNode item
            freeString node.item.string
            modifyItem item fun i => { i with string := some newKey }
            addItemToArray (some object) (some item)
  | _, _ => pure false

variable {alloc m} {failed : Bool} {a p : ℕ} {next prev q : Option ℕ} {name : Option Text}
  {string : Text} {t : CJson D}

/-! ## New nodes -/

theorem valueBody_eq (name : Option Text) (t : CJson D) (item : Item D) :
    valueBody m name t item = .fact (Fields m (some t) item) * (stringAt item.string name *
      (stringAt item.valuestring t.valuestring * siblings (childBodies m t) item.child)) := rfl

/-- A node with what belongs to it. -/
theorem pointsTo_mul_le_nodeAt {item : Item D} {children : List (Body D)} {S : Assn (Block D)}
    (h : Fields m (some t) item)
    (hS : S ≤ stringAt item.string name *
      (stringAt item.valuestring t.valuestring * siblings children item.child)) :
    .pointsTo a (.node ⟨next, prev, item⟩) * S ≤
      nodeAt a next prev (body m name (some t) children) :=
  le_iSup_of_le item (mul_le_mul' le_rfl (Assn.le_fact_mul h hS))

theorem pointsTo_le_nodeAt {item : Item D} (h : item.Blank m) (hname : item.string = none) :
    .pointsTo a (.node ⟨next, prev, item⟩) ≤ nodeAt a next prev (blankBody m none) := by
  refine le_iSup_of_le item ?_
  rw [blankBody_eq, hname, mul_left_comm]
  exact Assn.le_fact_mul h (mul_one _).ge

theorem makes_strdup (string : Text) : Makes failed (strdup alloc string)
    fun a => (stringAt (some a) (some (cString string)) : Assn (Block D)) := by
  refine Triple.alloc_bind (fun copy => ?_) (Triple.pure (made_none _ _))
  rw [mul_one]
  refine (gives_write _).seq (Makes.pure (le_iSup_of_le _ (Assn.le_fact_mul ⟨by simp, ?_⟩ le_rfl)))
  rw [cString_append_of_not_mem (not_mem_cString string)]
  exact List.append_nil _

theorem makes_newItemWith {f : Item D → Item D} (hstring : t.valuestring = none)
    (hchildren : childBodies m t = [])
    (hf : ∀ item : Item D, item.Blank m → Fields m (some t) (f item) ∧
      (f item).string = item.string ∧ (f item).valuestring = none ∧ (f item).child = none) :
    Makes failed (newItemWith alloc m f) fun a => treeAt m a t := by
  refine Triple.alloc_bind (fun item => ?_) (Triple.pure (made_none _ _))
  rw [mul_one]
  refine Triple.mono ?_ pointsTo_newItem_le fun _ _ => le_rfl
  exact (gives_modifyItem_leaf hstring hchildren hf).seq (Makes.pure le_rfl)

theorem makes_createArray : Makes failed (cJSON_CreateArray alloc m)
    fun a => treeAt m a (.array []) :=
  makes_newItemWith rfl rfl fun _ h =>
    ⟨⟨rfl, h.valueint, h.valuedouble⟩, rfl, h.valuestring, h.child⟩

theorem makes_createObject : Makes failed (cJSON_CreateObject alloc m)
    fun a => treeAt m a (.object []) :=
  makes_newItemWith rfl rfl fun _ h =>
    ⟨⟨rfl, h.valueint, h.valuedouble⟩, rfl, h.valuestring, h.child⟩

theorem makes_createNumber (num : D) : Makes failed (cJSON_CreateNumber alloc m num)
    fun a => treeAt m a (.createNumber m num) :=
  makes_newItemWith rfl rfl fun _ h => ⟨⟨rfl, rfl, rfl⟩, rfl, h.valuestring, h.child⟩

theorem makes_createString (string : Text) : Makes failed (cJSON_CreateString alloc m string)
    fun a => treeAt m a (.string (cString string)) := by
  refine Triple.alloc_bind (fun item => ?_) (Triple.pure (made_none _ _))
  rw [mul_one]
  refine (gives_modifyItem _).seq ((makes_strdup string).bind (fun copy => ?_) ?_)
  · refine (gives_modifyItem _).bind (mul_comm _ _) (Makes.pure ?_)
    refine pointsTo_mul_le_nodeAt ⟨rfl, rfl, rfl⟩ ?_
    rw [stringAt_none, show childBodies m (.string (cString string)) = [] from rfl, siblings_nil]
    refine Assn.le_fact_mul rfl ?_
    rw [mul_comm]
    exact Assn.le_fact_mul rfl le_rfl
  · -- There is no memory for the copy, so the node is deleted again.
    have hdeletable : Deletable [blankBody m none] :=
      deletable_of_forall (m := m) fun b hb => List.mem_singleton.1 hb ▸ isNode_blankBody none
    refine (gives_modifyItem _).seq (Triple.mono ?_
      ((pointsTo_le_nodeAt ⟨rfl, rfl, rfl, rfl⟩ rfl).trans nodeAt_le_chain) fun _ _ => le_rfl)
    exact (gives_cJSON_Delete hdeletable).bind_one (mul_one _).symm (Triple.pure (made_none _ _))

variable (m) in
/-- A tree, where there is one. -/
def optTreeAt : Option ℕ → CJson D → Assn (Block D)
  | none, _ => 1
  | some a, t => treeAt m a t

/-- A node that may not be there, with the rest of the heap. -/
theorem bind_optTreeAt {x : Program (Heap (Block D)) (Option ℕ)} {γ : Type}
    {f : Option ℕ → Program (Heap (Block D)) γ} {P : Assn (Block D)}
    {Q : Bool → γ → Assn (Block D)} (h : Makes failed x fun a => treeAt m a t)
    (hf : ∀ f' item, Unless failed f' (item ≠ none) →
      Triple f' (optTreeAt m item t * P) (f item) Q) : Triple failed P (x >>= f) Q := by
  refine h.bind (fun a => hf failed (some a) (.self (by simp))) ?_
  rw [← one_mul P]
  exact hf true none (.inr rfl)

/-! ## Items of a list -/

variable (m) in
/-- A node whose list of children goes on at `p`, behind the node at `q`. -/
def openAt (a : ℕ) (next prev : Option ℕ) (name : Option Text) (t : CJson D)
    (bodies : List (Body D)) (p : ℕ) (q : Option ℕ) : Assn (Block D) :=
  ⨆ item, .pointsTo a (.node ⟨next, prev, item⟩) * (.fact (Fields m (some t) item) *
    (stringAt item.string name * (stringAt item.valuestring t.valuestring *
      chain bodies (some p) item.child q (some p))))

/-- The node at `p` fills the hole. -/
theorem openAt_mul_nodeAt_le {t' : CJson D} {bodies : List (Body D)} {b : Body D}
    (hfields : ∀ item, Fields m (some t) item → Fields m (some t') item)
    (hstring : t.valuestring = t'.valuestring) (hbodies : bodies ++ [b] = childBodies m t') :
    openAt m a next prev name t bodies p q * nodeAt p none q b ≤
      nodeAt a next prev (valueBody m name t') := by
  rw [openAt, Quantale.iSup_mul_distrib]
  refine iSup_le fun item => ?_
  rw [show ∀ X F S V C N : Assn (Block D), X * (F * (S * (V * C))) * N =
    F * (X * (S * (V * (C * N)))) by intros; ac_rfl]
  refine Assn.fact_mul_le fun h => pointsTo_mul_le_nodeAt (hfields item h) ?_
  rw [hstring, ← hbodies]
  exact mul_le_mul' le_rfl (mul_le_mul' le_rfl (le_iSup_of_le (some p) chain_mul_nodeAt_le))

theorem has_nodeAt {b : Body D} : (nodeAt a next prev b).Has a :=
  .iSup fun _ => (Assn.has_pointsTo a _).mul _

/-- The first node of a list is read. -/
theorem triple_readNode_first {b : Body D} {bodies : List (Body D)} {last : Option ℕ} :
    Triple failed (chain (b :: bodies) prev (some a) last next) (readNode a) fun f n =>
      .fact (f = failed ∧ n.prev = prev) * chain (b :: bodies) prev (some a) last next := by
  refine Triple.iSup fun a' => Triple.iSup fun q => Triple.fact fun heq => ?_
  obtain rfl := Option.some.inj heq
  refine Triple.iSup_mul fun item => ?_
  refine Triple.mono ((gives_readNode.frame _).frame _) le_rfl fun f n => ?_
  rw [mul_assoc, mul_assoc]
  refine Assn.fact_mul_le ?_
  rintro ⟨rfl, rfl⟩
  refine Assn.le_fact_mul ⟨rfl, rfl⟩ (le_iSup₂_of_le a q (Assn.le_fact_mul rfl ?_))
  rw [← mul_assoc]
  exact mul_le_mul' (le_iSup_of_le item le_rfl) le_rfl

theorem siblings_none_le (bodies : List (Body D)) :
    siblings bodies none ≤ .fact (bodies = []) := by
  cases bodies with
  | nil => exact (siblings_nil none).le.trans (Assn.fact_mono fun _ => rfl)
  | cons b bodies =>
      refine iSup_le fun last => iSup₂_le fun a q => Assn.fact_mul_le fun h => ?_
      cases h

/-- Two neighbours. -/
theorem gives_suffixObject {b c : Body D} :
    Gives failed (nodeAt a none prev b * nodeAt p none none c) (suffixObject a p) ⟨⟩
      (nodeAt a (some p) prev b * nodeAt p none (some a) c) := by
  refine (gives_modifyNode_links fun _ => rfl).bind rfl ?_
  rw [mul_comm]
  exact (gives_modifyNode_links fun _ => rfl).framed le_rfl (mul_comm _ _).le

/-- A node behind the last one of a list. -/
theorem gives_appendTo {bodies : List (Body D)} {c : Body D} :
    Gives failed (siblings bodies (some a) * nodeAt p none none c) (appendTo a p) true
      (⨆ q, chain bodies (some p) (some a) q (some p) * nodeAt p none q c) := by
  cases bodies with
  | nil =>
      rw [siblings_nil]
      exact Triple.fact fun h => by cases h
  | cons b bodies =>
      obtain ⟨front, d, hfront⟩ := (List.eq_nil_or_concat' (b :: bodies)).resolve_left (by simp)
      have hlast : ∀ (q : Option ℕ) (x : ℕ), chain front (some x) (some a) q (some x) *
          nodeAt x (some p) q d ≤ chain (b :: bodies) (some x) (some a) (some x) (some p) := by
        intro q x
        rw [hfront]
        exact chain_mul_nodeAt_le
      refine Triple.iSup_mul fun last => triple_readNode_first.bind_frame rfl fun f first => ?_
      rw [mul_assoc]
      refine Triple.fact ?_
      rintro ⟨rfl, rfl⟩
      rw [hfront, chain_concat, ← hfront]
      refine Triple.iSup_mul fun last => Triple.iSup_mul fun q => ?_
      rw [mul_assoc]
      refine Triple.fact fun heq => ?_
      simp only [heq]
      refine gives_suffixObject.bind (show _ = nodeAt last none q d * nodeAt p none none c *
        chain front (some last) (some a) q (some last) by ac_rfl) ?_
      rw [show ∀ N B C : Assn (Block D), N * B * C = C * N * B by intros; ac_rfl]
      refine Triple.mono ?_ (mul_le_mul' (hlast q last) (le_refl (nodeAt p none (some last) c)))
        fun _ _ => le_rfl
      refine (gives_modifyNode_prev (some p)).bind rfl (Triple.pure ?_)
      exact Assn.le_fact_mul ⟨rfl, rfl⟩ (le_iSup_of_le (some last) le_rfl)

/-! ## The two functions -/

section Add

variable {β : Type} {kind : Kind} {after : β → Body D} {make : List β → CJson D} {c : Body D}

/-- The fields of a list do not tell how long it is. -/
theorem Collects.fields_iff (h : Collects m kind after make) (vs : List β) (item : Item D) :
    Fields m (some (make vs)) item ↔
      item.kind = kind ∧ item.valueint = 0 ∧ item.valuedouble = m.zero := by
  rw [Fields, h.kind, h.valueint, h.valuedouble]

/-- An item in the hole of a list. -/
theorem Collects.close (h : Collects m kind after make) (vs : List β) (v : β) :
    openAt m a next prev name (make vs) (vs.map after) p q * nodeAt p none q (after v) ≤
      nodeAt a next prev (valueBody m name (make (vs ++ [v]))) := by
  refine openAt_mul_nodeAt_le (fun item => ?_) ?_ ?_
  · rw [h.fields_iff, h.fields_iff]
    exact id
  · rw [h.valuestring, h.valuestring]
  · rw [h.children, List.map_append, List.map_singleton]

/-- A new item behind the others, which may go on growing there. -/
theorem Collects.gives_addItemToArray (h : Collects m kind after make) (vs : List β) :
    Gives failed (nodeAt a next prev (valueBody m name (make vs)) * nodeAt p none none c)
      (addItemToArray (some a) (some p)) true
      (⨆ q, openAt m a next prev name (make vs) (vs.map after) p q * nodeAt p none q c) := by
  refine Triple.mono ?_ (has_nodeAt.mul_le has_nodeAt) fun _ _ => le_rfl
  refine Triple.fact fun hne => ?_
  simp only [addItemToArray, if_neg hne]
  refine Triple.iSup_mul fun item => gives_readNode.bind (mul_assoc _ _ _) ?_
  rw [valueBody_eq, h.children, show ∀ X F S V C N : Assn (Block D), X * (F * (S * (V * C)) * N) =
    F * (C * (X * (S * (V * N)))) by intros; ac_rfl]
  refine Triple.fact fun hfields => ?_
  cases hchild : item.child with
  | none =>
      -- The first item is the last one as well, so its `prev` is itself.
      refine Triple.mono ?_ (mul_le_mul' (siblings_none_le _) le_rfl) fun _ _ => le_rfl
      refine Triple.fact fun hnil => (gives_modifyItem _).bind rfl ?_
      rw [show ∀ X S V N : Assn (Block D), X * (S * (V * N)) = N * (X * (S * V)) by
        intros; ac_rfl, hnil]
      refine (gives_modifyNode_links fun _ => rfl).bind rfl (Triple.pure ?_)
      refine Assn.le_fact_mul ⟨rfl, rfl⟩ (le_iSup_of_le (some p) ?_)
      rw [mul_comm]
      refine mul_le_mul' (le_iSup_of_le _ (mul_le_mul' le_rfl (Assn.le_fact_mul hfields ?_))) le_rfl
      refine mul_le_mul' le_rfl ((mul_one _).symm.le.trans (mul_le_mul' le_rfl ?_))
      exact Assn.le_fact_mul ⟨rfl, rfl⟩ le_rfl
  | some child =>
      -- The last item is found through the `prev` of the first.
      rw [show ∀ C X S V N : Assn (Block D), C * (X * (S * (V * N))) = C * N * (X * (S * V)) by
        intros; ac_rfl]
      refine gives_appendTo.framed le_rfl ?_
      rw [Quantale.iSup_mul_distrib]
      refine iSup_mono fun q => ?_
      rw [show ∀ C N X S V : Assn (Block D), C * N * (X * (S * V)) = X * (S * (V * C)) * N by
        intros; ac_rfl, ← hchild]
      exact mul_le_mul' (le_iSup_of_le item (mul_le_mul' le_rfl
        (Assn.le_fact_mul hfields le_rfl))) le_rfl

variable (m) in
/-- An object, and what else there is: with nothing lost, unless an allocation has
failed. -/
def objectAt (a : ℕ) (next prev : Option ℕ) (name : Option Text)
    (expected : List (Text × CJson D)) (failed f : Bool) : Assn (Block D) :=
  ⨆ (members : List (Text × CJson D)) (lost : Assn (Block D)),
    .fact (Unless failed f (members = expected ∧ lost = 1)) *
      (nodeAt a next prev (valueBody m name (.object members)) * lost)

theorem triple_addItemToObject (members : List (Text × CJson D)) :
    Triple failed (nodeAt a next prev (valueBody m name (.object members)) * treeAt m p t)
      (addItemToObject alloc (some a) string (some p)) fun f _ =>
        objectAt m a next prev name (members ++ [(cString string, t)]) failed f := by
  refine Triple.mono ?_ (has_nodeAt.mul_le has_nodeAt) fun _ _ => le_rfl
  refine Triple.fact fun hne => ?_
  simp only [addItemToObject, if_neg hne]
  refine (makes_strdup string).bind (fun newKey => ?_) (Triple.pure ?_)
  · rw [show ∀ K O T : Assn (Block D), K * (O * T) = T * (K * O) by intros; ac_rfl]
    refine Triple.iSup_mul fun item => ?_
    rw [valueBody_eq, show ∀ X F S R K O : Assn (Block D),
      X * (F * (S * R)) * (K * O) = F * (X * (S * (K * (R * O)))) by intros; ac_rfl]
    refine Triple.fact fun hfields => gives_readNode.bind rfl ?_
    rw [mul_left_comm]
    refine gives_freeString.bind_one rfl ((gives_modifyItem _).bind rfl ?_)
    rw [show ∀ X K R O : Assn (Block D), X * (K * (R * O)) = O * (X * (K * R)) by
      intros; ac_rfl]
    have hitem : .pointsTo p (.node ⟨none, none, { item with string := some newKey }⟩) *
        (stringAt (some newKey) (some (cString string)) *
          (stringAt item.valuestring ((some t).bind CJson.valuestring) *
            siblings (childBodies m t) item.child)) ≤
        nodeAt p none none (valueBody m (some (cString string)) t) :=
      pointsTo_mul_le_nodeAt hfields le_rfl
    refine Triple.mono (collects_object.gives_addItemToArray members) (mul_le_mul' le_rfl hitem)
      fun f v => ?_
    refine Assn.fact_mul_le ?_
    rintro ⟨rfl, -⟩
    refine iSup_le fun q => (collects_object.close members (cString string, t)).trans ?_
    refine le_iSup₂_of_le (members ++ [(cString string, t)]) 1 ?_
    rw [mul_one]
    exact Assn.le_fact_mul (.self ⟨rfl, rfl⟩) le_rfl
  · -- Without a copy of the name the item is in no list, and is lost.
    exact le_iSup₂_of_le members _ (Assn.le_fact_mul (.inr rfl) le_rfl)

end Add

end PotHub.Json
