import PotHub.Json.PrintBuffer
import PotHub.Lib.Heaps

/-!
# Trees in memory

The nodes of `cJSON.c` and their strings, as they lie in the heap: every node has
the addresses of its neighbours in the list and of its first child, and the node
that is the first of a list has the last one as its neighbour in front.

`cJSON_Delete` frees the nodes and the strings of a list and nothing else, so that
what has been there before the list is what is there behind it.
-/

namespace PotHub.Json

open PotHub.Lib PotHub.Lib.Heap

variable {D : Type}

/-! ## Nodes -/

/-- The field `type`. -/
inductive Kind
  | invalid
  | false
  | true
  | null
  | number
  | string
  | array
  | object
deriving DecidableEq

/-- The fields of a node besides the links of its list. -/
structure Item (D : Type) where
  child : Option ℕ
  kind : Kind
  valuestring : Option ℕ
  valueint : Int
  valuedouble : D
  string : Option ℕ

/-- The structure `cJSON`, with addresses for pointers. -/
structure Node (D : Type) where
  next : Option ℕ
  prev : Option ℕ
  item : Item D

/-- What is allocated. -/
inductive Block (D : Type)
  | node (n : Node D)
  | bytes (memory : Text)

/-- The node at an address. -/
def readNode (a : ℕ) : Program (Heap (Block D)) (Node D) := do
  match ← Heap.read a with
  | .node n => pure n
  | .bytes _ => Program.fault

/-- Assignments to the fields of a node. -/
def modifyNode (a : ℕ) (f : Node D → Node D) : Program (Heap (Block D)) PUnit := do
  let n ← readNode a
  Heap.write a (.node (f n))

/-- Assignments to the fields besides the links. -/
def modifyItem (a : ℕ) (f : Item D → Item D) : Program (Heap (Block D)) PUnit :=
  modifyNode a fun n => { n with item := f n.item }

/-- The fields of a node that `cJSON_New_Item` has set to zero. -/
def Item.zero (m : Doubles D) : Item D :=
  { child := none, kind := .invalid, valuestring := none, valueint := 0, valuedouble := m.zero
    string := none }

/-- `cJSON_New_Item`. -/
def newItem (alloc : Allocator) (m : Doubles D) : Program (Heap (Block D)) (Option ℕ) :=
  Heap.alloc alloc.fails fun _ => .node ⟨none, none, .zero m⟩

/-- The deallocation of a string, where there is one. -/
def freeString : Option ℕ → Program (Heap (Block D)) PUnit
  | none => pure ⟨⟩
  | some a => Heap.free a

/-- `cJSON_Delete`, with a bound for its turns and calls. -/
def delete : ℕ → Option ℕ → Program (Heap (Block D)) PUnit
  | _, none => pure ⟨⟩
  | 0, some _ => Program.fault
  | turns + 1, some item => do
      let node ← readNode item
      delete turns node.item.child
      freeString node.item.valuestring
      freeString node.item.string
      Heap.free item
      delete turns node.next

/-- `cJSON_Delete`.  There are no more nodes than there have been allocations. -/
def cJSON_Delete (item : Option ℕ) : Program (Heap (Block D)) PUnit :=
  fun s => delete s.calls item s

theorem cJSON_Delete_none : (cJSON_Delete none : Program (Heap (Block D)) PUnit) = pure ⟨⟩ := by
  funext s
  rw [cJSON_Delete, delete]

/-! ## What lies at an address -/

/-- A string, in a block of its own; none at the null pointer. -/
def stringAt : Option ℕ → Option Text → Assn (Block D)
  | none, none => 1
  | some a, some s =>
      ⨆ memory, .fact ('\x00' ∈ memory ∧ cString memory = s) * .pointsTo a (.bytes memory)
  | _, _ => ⊥

/-- What belongs to a node besides its own block. -/
abbrev Body (D : Type) : Type := Item D → Assn (Block D)

/-- A node with what belongs to it. -/
def nodeAt (a : ℕ) (next prev : Option ℕ) (body : Body D) : Assn (Block D) :=
  ⨆ item, .pointsTo a (.node ⟨next, prev, item⟩) * body item

/-- A part of a list, from the node at `p` to the one at `last`.  In front of it is
`prev`, behind it `next`. -/
def chain : List (Body D) → (prev p last next : Option ℕ) → Assn (Block D)
  | [], prev, p, last, next => .fact (p = next ∧ last = prev) * 1
  | body :: bodies, prev, p, last, next =>
      ⨆ (a : ℕ) (q : Option ℕ), .fact (p = some a) *
        (nodeAt a q prev body * chain bodies (some a) q last next)

/-- A whole list, whose first node knows the last. -/
def siblings (bodies : List (Body D)) (p : Option ℕ) : Assn (Block D) :=
  ⨆ last, chain bodies last p last none

variable (m : Doubles D)

namespace CJson

/-- The type of the node of a value. -/
def kind : CJson D → Kind
  | .null => .null
  | .false => .false
  | .true => .true
  | .number _ _ => .number
  | .string _ => .string
  | .array _ => .array
  | .object _ => .object

end CJson

/-- The fields of a node with this value, or with none yet. -/
def Fields (value : Option (CJson D)) (item : Item D) : Prop :=
  match value with
  | none => item.valueint = 0 ∧ item.valuedouble = m.zero
  | some t =>
      item.kind = t.kind ∧ item.valueint = t.valueint ∧ item.valuedouble = t.valuedouble m

/-- A node's name, its value and its children. -/
def body (name : Option Text) (value : Option (CJson D)) (children : List (Body D)) : Body D :=
  fun item => .fact (Fields m value item) *
    (stringAt item.string name * (stringAt item.valuestring (value.bind CJson.valuestring) *
      siblings children item.child))

mutual

/-- The children of a value. -/
def childBodies : CJson D → List (Body D)
  | .array items => itemBodies items
  | .object members => memberBodies members
  | _ => []

/-- The nodes of an array. -/
def itemBodies : List (CJson D) → List (Body D)
  | [] => []
  | t :: items => body m none (some t) (childBodies t) :: itemBodies items

/-- The nodes of an object. -/
def memberBodies : List (Text × CJson D) → List (Body D)
  | [] => []
  | (name, t) :: members => body m (some name) (some t) (childBodies t) :: memberBodies members

end

/-- A node with its name and its value. -/
def valueBody (name : Option Text) (t : CJson D) : Body D := body m name (some t) (childBodies m t)

/-- A node whose value is not there yet. -/
def blankBody (name : Option Text) : Body D := body m name none []

/-- A tree. -/
def treeAt (a : ℕ) (t : CJson D) : Assn (Block D) := nodeAt a none none (valueBody m none t)

variable {m} {failed : Bool} {a : ℕ} {n : Node D} {P R : Assn (Block D)} {γ : Type}
  {Q : Bool → γ → Assn (Block D)}

/-! ## The rules -/

theorem gives_readNode :
    Gives failed (.pointsTo a (.node n)) (readNode a) n (.pointsTo a (.node n)) :=
  gives_read.seq (Gives.pure le_rfl)

theorem gives_modifyNode (f : Node D → Node D) :
    Gives failed (.pointsTo a (.node n)) (modifyNode a f) ⟨⟩ (.pointsTo a (.node (f n))) :=
  gives_readNode.seq (gives_write _)

theorem gives_modifyItem {next prev : Option ℕ} {item : Item D} (f : Item D → Item D) :
    Gives failed (.pointsTo a (.node ⟨next, prev, item⟩)) (modifyItem a f) ⟨⟩
      (.pointsTo a (.node ⟨next, prev, f item⟩)) := gives_modifyNode _

theorem gives_freeString {p : Option ℕ} {s : Option Text} :
    Gives failed (stringAt p s) (freeString p) ⟨⟩ (1 : Assn (Block D)) := by
  match p, s with
  | none, none => exact .pure le_rfl
  | some a, some s => exact Triple.iSup fun memory => Triple.fact fun _ => gives_free
  | none, some s => exact Triple.bot
  | some a, none => exact Triple.bot

/-! ## Values -/

theorem stringAt_none (p : Option ℕ) : (stringAt p none : Assn (Block D)) = .fact (p = none) := by
  cases p with
  | none => exact (Assn.fact_mul_of rfl 1).symm.trans (mul_one _)
  | some a => exact le_antisymm bot_le fun _ hx => absurd hx.1 (by simp)

theorem siblings_nil (p : Option ℕ) : (siblings [] p : Assn (Block D)) = .fact (p = none) := by
  refine le_antisymm (iSup_le fun last => ?_) (le_iSup_of_le none ?_)
  · exact (mul_one _).le.trans (Assn.fact_mono And.left)
  · exact (Assn.fact_mono fun h => ⟨h, rfl⟩).trans (mul_one _).ge

/-- The fields of a node without a value. -/
structure Item.Blank (m : Doubles D) (item : Item D) : Prop where
  valueint : item.valueint = 0
  valuedouble : item.valuedouble = m.zero
  valuestring : item.valuestring = none
  child : item.child = none

theorem blankBody_eq (name : Option Text) (item : Item D) :
    blankBody m name item = .fact (item.Blank m) * stringAt item.string name := by
  have hfact : item.Blank m ↔
      Fields m none item ∧ item.valuestring = none ∧ item.child = none :=
    ⟨fun h => ⟨⟨h.valueint, h.valuedouble⟩, h.valuestring, h.child⟩,
      fun h => ⟨h.1.1, h.1.2, h.2.1, h.2.2⟩⟩
  rw [blankBody, body, siblings_nil, Option.bind_none, stringAt_none, Assn.fact_mul_fact,
    mul_left_comm, Assn.fact_mul_fact, ← hfact, mul_comm]

/-- Assignments that give a node its value. -/
theorem gives_modifyItem_value {name : Option Text} {next prev : Option ℕ} {t : CJson D}
    {f : Item D → Item D} {S : Assn (Block D)}
    (hf : ∀ item : Item D, item.Blank m →
      Fields m (some t) (f item) ∧ (f item).string = item.string ∧
        S ≤ stringAt (f item).valuestring t.valuestring *
          siblings (childBodies m t) (f item).child) :
    Gives failed (nodeAt a next prev (blankBody m name) * S) (modifyItem a f) ⟨⟩
      (nodeAt a next prev (valueBody m name t)) := by
  refine Triple.iSup_mul fun item => ?_
  rw [blankBody_eq, show ∀ X F N : Assn (Block D), X * (F * N) * S = F * (X * (N * S)) by
    intros; ac_rfl]
  refine Triple.fact fun hblank => ?_
  obtain ⟨hfields, hstring, hS⟩ := hf item hblank
  refine Triple.mono ((gives_modifyItem f).frame _) le_rfl fun f' v => ?_
  rw [mul_assoc]
  gcongr
  refine le_iSup_of_le (f item) ?_
  rw [valueBody, body, hstring]
  exact mul_le_mul' le_rfl (Assn.le_fact_mul hfields (mul_le_mul' le_rfl hS))

/-- Assignments that give a node a value without a string and without children. -/
theorem gives_modifyItem_leaf {name : Option Text} {next prev : Option ℕ} {t : CJson D}
    {f : Item D → Item D} (hstring : t.valuestring = none) (hchildren : childBodies m t = [])
    (hf : ∀ item : Item D, item.Blank m → Fields m (some t) (f item) ∧
      (f item).string = item.string ∧ (f item).valuestring = none ∧ (f item).child = none) :
    Gives failed (nodeAt a next prev (blankBody m name)) (modifyItem a f) ⟨⟩
      (nodeAt a next prev (valueBody m name t)) := by
  rw [← mul_one (nodeAt a next prev (blankBody m name))]
  refine gives_modifyItem_value fun item hblank => ?_
  obtain ⟨hfields, hname, hvaluestring, hchild⟩ := hf item hblank
  refine ⟨hfields, hname, ?_⟩
  rw [hstring, hchildren, hvaluestring, hchild, stringAt_none, siblings_nil, Assn.fact_mul_fact]
  exact (Assn.le_fact_mul ⟨rfl, rfl⟩ le_rfl).trans (mul_one _).le

/-! ## Lists -/

section Lists

variable {bodies : List (Body D)} {b : Body D} {prev p last next : Option ℕ}

/-- The last node of a list. -/
theorem chain_concat : chain (bodies ++ [b]) prev p last next =
    ⨆ (a : ℕ) (q : Option ℕ), .fact (last = some a) *
      (chain bodies prev p q (some a) * nodeAt a next q b) := by
  induction bodies generalizing prev p with
  | nil =>
      simp only [List.nil_append, chain, mul_one]
      refine le_antisymm (iSup₂_le fun a q => ?_) (iSup₂_le fun a q => ?_)
      · rw [mul_comm (nodeAt a q prev b)]
        refine Assn.fact_mul_le fun hp => Assn.fact_mul_le ?_
        rintro ⟨rfl, hlast⟩
        exact le_iSup₂_of_le a prev (Assn.le_fact_mul hlast (Assn.le_fact_mul ⟨hp, rfl⟩ le_rfl))
      · refine Assn.fact_mul_le fun hlast => Assn.fact_mul_le ?_
        rintro ⟨hp, rfl⟩
        refine le_iSup₂_of_le a next (Assn.le_fact_mul hp ?_)
        rw [mul_comm (nodeAt a next q b)]
        exact Assn.le_fact_mul ⟨rfl, hlast⟩ le_rfl
  | cons body bodies ih =>
      simp only [List.cons_append, chain, ih, Quantale.mul_iSup_distrib, Quantale.iSup_mul_distrib]
      have hswap : ∀ P N L C X : Assn (Block D), P * (N * (L * (C * X))) =
          L * (P * (N * C) * X) := by
        intros
        ac_rfl
      simp only [hswap]
      refine le_antisymm ?_ ?_
      · exact iSup₂_le fun a q => iSup₂_mono fun a' q' => le_iSup₂_of_le a q le_rfl
      · exact iSup₂_le fun a' q' => iSup₂_le fun a q =>
          le_iSup₂_of_le a q (le_iSup₂_of_le a' q' le_rfl)

/-- A node behind a list. -/
theorem chain_mul_nodeAt_le {q : Option ℕ} : chain bodies prev p q (some a) * nodeAt a next q b ≤
    chain (bodies ++ [b]) prev p (some a) next := by
  rw [chain_concat]
  exact le_iSup₂_of_le a q (Assn.le_fact_mul rfl le_rfl)

theorem nodeAt_le_chain : nodeAt a next prev b ≤ chain [b] prev (some a) (some a) next := by
  refine le_iSup₂_of_le a next (Assn.le_fact_mul rfl ?_)
  rw [mul_comm]
  exact (Assn.le_fact_mul ⟨rfl, rfl⟩ le_rfl).trans (mul_le_mul' (mul_one _).ge le_rfl)

/-- A node gets other neighbours. -/
theorem gives_modifyNode_links {next' prev' : Option ℕ} {f : Node D → Node D}
    (hf : ∀ item, f ⟨next, prev, item⟩ = ⟨next', prev', item⟩) :
    Gives failed (nodeAt a next prev b) (modifyNode a f) ⟨⟩ (nodeAt a next' prev' b) := by
  refine Triple.iSup fun item => ?_
  refine Triple.mono ((gives_modifyNode f).frame _) le_rfl fun f' v => ?_
  rw [hf, mul_assoc]
  exact mul_le_mul' le_rfl (le_iSup_of_le item le_rfl)

/-- The first node of a list gets another neighbour in front. -/
theorem gives_modifyNode_prev (prev' : Option ℕ) :
    Gives failed (chain (b :: bodies) prev (some a) last next)
      (modifyNode a fun n => { n with prev := prev' }) ⟨⟩
      (chain (b :: bodies) prev' (some a) last next) := by
  refine Triple.iSup fun a' => Triple.iSup fun q => Triple.fact ?_
  rintro heq
  obtain rfl := Option.some.inj heq
  refine Triple.mono ((gives_modifyNode_links fun _ => rfl).frame _) le_rfl fun f v => ?_
  rw [mul_assoc]
  exact mul_le_mul' le_rfl (le_iSup₂_of_le a q (Assn.le_fact_mul rfl le_rfl))

end Lists

/-! ## Deletion -/

/-- A list that `cJSON_Delete` frees, in as many turns as it has nodes. -/
def Deletable (bodies : List (Body D)) : Prop :=
  ∃ count, ∀ prev p last, (chain bodies prev p last none).AtLeast count ∧
    ∀ failed turns, count ≤ turns →
      Gives failed (chain bodies prev p last none) (delete turns p) ⟨⟩ 1

theorem deletable_nil : Deletable ([] : List (Body D)) := by
  refine ⟨0, fun prev p last => ⟨Assn.atLeast_zero _, fun failed turns _ => Triple.fact ?_⟩⟩
  rintro ⟨rfl, -⟩
  rw [delete]
  exact Gives.pure le_rfl

theorem deletable_cons {name : Option Text} {value : Option (CJson D)}
    {children bodies : List (Body D)} (hchildren : Deletable children)
    (hbodies : Deletable bodies) : Deletable (body m name value children :: bodies) := by
  obtain ⟨below, hbelow⟩ := hchildren
  obtain ⟨behind, hbehind⟩ := hbodies
  refine ⟨1 + below + behind, fun prev p last => ⟨?_, fun failed turns hturns => ?_⟩⟩
  · refine .iSup fun a => .iSup fun q => .fact fun _ => ?_
    refine Assn.AtLeast.mul (.iSup fun item => ?_) (hbehind (some a) q last).1
    have hsiblings : (siblings children item.child).AtLeast below :=
      .iSup fun last' => (hbelow last' item.child last').1
    refine (Assn.atLeast_pointsTo a _).mul (.fact fun _ => ?_)
    simpa using (Assn.atLeast_zero _).mul ((Assn.atLeast_zero _).mul hsiblings)
  · obtain ⟨turns, rfl⟩ : ∃ k, turns = k + 1 := ⟨turns - 1, by omega⟩
    refine Triple.iSup fun a => Triple.iSup fun q => Triple.fact ?_
    rintro rfl
    rw [delete]
    refine Triple.iSup_mul fun item => gives_readNode.bind (mul_assoc _ _ _) ?_
    rw [body, show ∀ F N V S C X : Assn (Block D), X * (F * (N * (V * S)) * C) =
      F * (S * (V * (N * (X * C)))) by intros; ac_rfl]
    refine Triple.fact fun _ => Triple.iSup_mul fun last' => ?_
    refine ((hbelow last' item.child last').2 failed turns (by omega)).bind_one rfl ?_
    refine gives_freeString.bind_one rfl (gives_freeString.bind_one rfl ?_)
    exact gives_free.bind_one rfl ((hbehind (some a) q last).2 failed turns (by omega))

variable (m) in
/-- What belongs to a node, with children that can be deleted. -/
def IsNode (b : Body D) : Prop :=
  ∃ name value children, b = body m name value children ∧ Deletable children

theorem deletable_of_forall {bodies : List (Body D)} (h : ∀ b ∈ bodies, IsNode m b) :
    Deletable bodies := by
  induction bodies with
  | nil => exact deletable_nil
  | cons b bodies ih =>
      obtain ⟨⟨name, value, children, rfl, hchildren⟩, hbodies⟩ := List.forall_mem_cons.1 h
      exact deletable_cons hchildren (ih hbodies)

theorem deletable_childBodies (t : CJson D) : Deletable (childBodies m t) := by
  induction t using CJson.induct with
  | null => exact deletable_nil
  | false => exact deletable_nil
  | true => exact deletable_nil
  | number d n => exact deletable_nil
  | string s => exact deletable_nil
  | array items ih =>
      show Deletable (itemBodies m items)
      induction items with
      | nil => exact deletable_nil
      | cons t items ihs =>
          obtain ⟨ht, hitems⟩ := List.forall_mem_cons.1 ih
          exact deletable_cons ht (ihs hitems)
  | object members ih =>
      show Deletable (memberBodies m members)
      induction members with
      | nil => exact deletable_nil
      | cons p members ihs =>
          obtain ⟨hp, hmembers⟩ := List.forall_mem_cons.1 ih
          exact deletable_cons hp (ihs hmembers)

theorem isNode_valueBody (name : Option Text) (t : CJson D) : IsNode m (valueBody m name t) :=
  ⟨name, some t, _, rfl, deletable_childBodies t⟩

theorem isNode_blankBody (name : Option Text) : IsNode m (blankBody m name) :=
  ⟨name, none, [], rfl, deletable_nil⟩

/-- **Deletion.**  Of a list, nothing is left, and nothing else is touched. -/
theorem gives_cJSON_Delete {bodies : List (Body D)} (h : Deletable bodies)
    {prev p last : Option ℕ} :
    Gives failed (chain bodies prev p last none) (cJSON_Delete p) ⟨⟩ 1 := by
  obtain ⟨count, hcount⟩ := h
  exact Triple.turns (hcount prev p last).1 fun turns hturns =>
    (hcount prev p last).2 failed turns hturns

end PotHub.Json
