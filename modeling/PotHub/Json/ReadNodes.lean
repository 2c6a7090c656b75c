import PotHub.Json.BuildNodes

/-!
# Trees that are read

`cJSON_GetObjectItemCaseSensitive` and the printer, as they go from node to node.
Both follow `child` and `next` and change nothing.  What they return is told by the
tree alone: the member that is looked up, and the text of the tree.

A lookup returns an address.  So the nodes of a list are followed here with their
addresses, which stay the same for the next lookups.
-/

namespace PotHub.Json

open PotHub.Lib PotHub.Lib.Heap

variable {D : Type}

/-! ## The functions -/

/-- The string at a pointer, up to its terminator. -/
def readString : Option ℕ → Program (Heap (Block D)) (Option Text)
  | none => pure none
  | some a => do
      match ← Heap.read a with
      | .bytes memory => if '\x00' ∈ memory then pure (some (cString memory)) else Program.fault
      | .node _ => Program.fault

/-- The loop of `get_object_item`, with a bound for its turns. -/
def findItem (name : Text) : ℕ → Option ℕ → Program (Heap (Block D)) (Option ℕ)
  | _, none => pure none
  | 0, some _ => Program.fault
  | turns + 1, some currentElement => do
      let node ← readNode currentElement
      match ← readString node.item.string with
      | none => pure none
      | some string =>
          if name = string then pure (some currentElement) else findItem name turns node.next

/-- `cJSON_GetObjectItemCaseSensitive`.  There are no more nodes than there have been
allocations. -/
def getObjectItem (object : ℕ) (name : Text) : Program (Heap (Block D)) (Option ℕ) := do
  let node ← readNode object
  fun s => findItem name s.calls node.item.child s

/-- The field `valueint`. -/
def readInt (item : ℕ) : Program (Heap (Block D)) Int := do
  let node ← readNode item
  pure node.item.valueint

/-- The field `valuedouble`. -/
def readDouble (item : ℕ) : Program (Heap (Block D)) D := do
  let node ← readNode item
  pure node.item.valuedouble

/-- The string at the field `valuestring`. -/
def readText (item : ℕ) : Program (Heap (Block D)) (Option Text) := do
  let node ← readNode item
  readString node.item.valuestring

/-- The loops of `print_array` and `print_object`, with a bound for their turns. -/
def printList (entry : ℕ → Program (Heap (Block D)) (Option Text)) (separator behind : Text) :
    ℕ → Option ℕ → Program (Heap (Block D)) (Option Text)
  | _, none => pure (some [])
  | 0, some _ => Program.fault
  | turns + 1, some currentElement => do
      match ← entry currentElement with
      | none => pure none
      | some w => do
          let node ← readNode currentElement
          match ← printList entry separator behind turns node.next with
          | none => pure none
          | some rest =>
              pure (some (w ++ (if node.next.isNone then [] else separator) ++ behind ++ rest))

/-- A round of `print_object`, up to the value. -/
def printMember (format : Bool) (depth : ℕ) (value : ℕ → Program (Heap (Block D)) (Option Text))
    (currentItem : ℕ) : Program (Heap (Block D)) (Option Text) := do
  let node ← readNode currentItem
  let string ← readString node.item.string
  match ← value currentItem with
  | none => pure none
  | some w =>
      pure (some (ifFormat format (tabs depth) ++ printString (string.getD []) ++
        ':' :: ifFormat format ['\t'] ++ w))

/-- `print_value`, with bounds for its calls and for the turns of the loops. -/
def printNode (m : Printf D) (format : Bool) (turns : ℕ) :
    ℕ → ℕ → ℕ → Program (Heap (Block D)) (Option Text)
  | 0, _, _ => Program.fault
  | calls + 1, depth, item => do
      let node ← readNode item
      match node.item.kind with
      | .null => pure (some "null".toList)
      | .false => pure (some "false".toList)
      | .true => pure (some "true".toList)
      | .number => pure (printNumber m node.item.valuedouble node.item.valueint)
      | .string => do
          let string ← readString node.item.valuestring
          pure (some (printString (string.getD [])))
      | .array => do
          match ← printList (printNode m format turns calls (depth + 1))
              (',' :: ifFormat format [' ']) [] turns node.item.child with
          | none => pure none
          | some w => pure (some ('[' :: (w ++ [']'])))
      | .object => do
          match ← printList (printMember format (depth + 1)
                (printNode m format turns calls (depth + 1)))
              [','] (ifFormat format ['\n']) turns node.item.child with
          | none => pure none
          | some w =>
              pure (some ('{' :: (ifFormat format ['\n'] ++ w ++ ifFormat format (tabs depth) ++
                ['}'])))
      | .invalid => pure none

/-- `print`: the text in a block of its own, which is what its buffer comes to.  There
are no more nodes than there have been allocations.  Where `ensure` refuses a length,
that is counted as an allocation that fails. -/
def printTo (alloc : Allocator) (m : Printf D) (format : Bool) (item : ℕ) :
    Program (Heap (Block D)) (Option ℕ) := do
  match ← (fun s => printNode m format s.calls s.calls 0 item s) with
  | none => pure none
  | some w =>
      Heap.alloc (fun call => alloc.fails call || decide (INT_MAX < w.length + 2)) fun _ =>
        .bytes (w ++ ['\x00'])

/-! ## Nodes and strings -/

section Nodes

variable {m : Doubles D} {failed : Bool} {a : ℕ} {p q next prev last : Option ℕ}
  {name : Option Text} {t : CJson D} {γ : Type} {v : γ}

theorem gives_readString {s : Option Text} :
    Gives failed (stringAt p s) (readString p) s (stringAt p s : Assn (Block D)) := by
  cases p with
  | none =>
      cases s with
      | none => exact Gives.pure le_rfl
      | some s => exact Triple.bot
  | some a =>
      cases s with
      | none => exact Triple.bot
      | some s =>
          refine Triple.iSup fun memory => Triple.fact ?_
          rintro ⟨hzero, rfl⟩
          refine gives_read.seq ?_
          simp only [if_pos hzero]
          exact Gives.pure (le_iSup_of_le memory (Assn.le_fact_mul ⟨hzero, rfl⟩ le_rfl))

/-- What is read in a node leaves it as it is. -/
theorem gives_readNode_bind {f : Node D → Program (Heap (Block D)) γ}
    (h : ∀ item, Fields m (some t) item →
      Gives failed (stringAt item.string name * (stringAt item.valuestring t.valuestring *
          siblings (childBodies m t) item.child)) (f ⟨next, prev, item⟩) v
        (stringAt item.string name * (stringAt item.valuestring t.valuestring *
          siblings (childBodies m t) item.child))) :
    Gives failed (nodeAt a next prev (valueBody m name t)) (readNode a >>= f) v
      (nodeAt a next prev (valueBody m name t)) := by
  refine Triple.iSup fun item => gives_readNode.bind rfl ?_
  rw [valueBody_eq, mul_left_comm]
  refine Triple.fact fun hfields => ?_
  refine (h item hfields).framed (mul_comm _ _).le ?_
  rw [mul_comm]
  exact pointsTo_mul_le_nodeAt hfields le_rfl

/-- The last node of a list is the one with nothing behind it. -/
theorem chain_le_isNone (bodies : List (Body D)) :
    chain bodies prev p last none ≤
      .fact (p.isNone = bodies.isEmpty) * chain bodies prev p last none := by
  cases bodies with
  | nil =>
      refine Assn.fact_mul_le fun h => Assn.le_fact_mul (by simp [h.1]) ?_
      exact Assn.le_fact_mul h le_rfl
  | cons b bodies =>
      refine iSup₂_le fun a q => Assn.fact_mul_le fun h => Assn.le_fact_mul (by simp [h]) ?_
      exact le_iSup₂_of_le a q (Assn.le_fact_mul h le_rfl)

end Nodes

/-! ## Sizes -/

mutual

/-- The number of nodes. -/
def CJson.size : CJson D → ℕ
  | .array items => itemsSize items + 1
  | .object members => membersSize members + 1
  | _ => 1

/-- The number of nodes in an array. -/
def itemsSize : List (CJson D) → ℕ
  | [] => 0
  | t :: items => t.size + itemsSize items

/-- The number of nodes in an object. -/
def membersSize : List (Text × CJson D) → ℕ
  | [] => 0
  | (_, t) :: members => t.size + membersSize members

end

section Sizes

variable {m : Doubles D} {a : ℕ} {next prev p last : Option ℕ} {name : Option Text}

theorem atLeast_chain_cons {b : Body D} {bodies : List (Body D)} {n k : ℕ}
    (hb : ∀ a q, (nodeAt a q prev b).AtLeast n)
    (hbodies : ∀ prev q, (chain bodies prev q last next).AtLeast k) :
    (chain (b :: bodies) prev p last next).AtLeast (n + k) :=
  .iSup fun a => .iSup fun q => .fact fun _ => (hb a q).mul (hbodies (some a) q)

theorem atLeast_nodeAt {t : CJson D} {n : ℕ}
    (h : ∀ prev p last, (chain (childBodies m t) prev p last none).AtLeast n) :
    (nodeAt a next prev (valueBody m name t)).AtLeast (n + 1) := by
  refine .iSup fun item => ?_
  have hsiblings : (siblings (childBodies m t) item.child).AtLeast n :=
    .iSup fun last => h last item.child last
  have hbelow : (valueBody m name t item).AtLeast (0 + (0 + n)) :=
    .fact fun _ => (Assn.atLeast_zero _).mul ((Assn.atLeast_zero _).mul hsiblings)
  rw [Nat.add_comm, ← Nat.zero_add n, ← Nat.zero_add (0 + n)]
  exact (Assn.atLeast_pointsTo a _).mul hbelow

theorem atLeast_size (t : CJson D) : ∀ (name : Option Text) (a : ℕ) (next prev : Option ℕ),
    (nodeAt a next prev (valueBody m name t)).AtLeast t.size := by
  have hleaf : ∀ {t : CJson D}, childBodies m t = [] → ∀ name a next prev,
      (nodeAt a next prev (valueBody m name t)).AtLeast 1 := by
    intro t h name a next prev
    exact atLeast_nodeAt fun _ _ _ => h ▸ Assn.atLeast_zero _
  induction t using CJson.induct with
  | null => exact hleaf rfl
  | false => exact hleaf rfl
  | true => exact hleaf rfl
  | number d n => exact hleaf rfl
  | string s => exact hleaf rfl
  | array items ih =>
      refine fun name a next prev => atLeast_nodeAt (n := itemsSize items) ?_
      show ∀ prev p last, (chain (itemBodies m items) prev p last none).AtLeast (itemsSize items)
      induction items with
      | nil => exact fun _ _ _ => Assn.atLeast_zero _
      | cons t items ihs =>
          obtain ⟨ht, hitems⟩ := List.forall_mem_cons.1 ih
          exact fun prev p last => atLeast_chain_cons (fun a q => ht none a q prev)
            fun prev q => ihs hitems prev q last
  | object members ih =>
      refine fun name a next prev => atLeast_nodeAt (n := membersSize members) ?_
      show ∀ prev p last,
        (chain (memberBodies m members) prev p last none).AtLeast (membersSize members)
      induction members with
      | nil => exact fun _ _ _ => Assn.atLeast_zero _
      | cons p members ihs =>
          obtain ⟨hp, hmembers⟩ := List.forall_mem_cons.1 ih
          exact fun prev _ last => atLeast_chain_cons (fun a q => hp (some p.1) a q prev)
            fun prev q => ihs hmembers prev q last

end Sizes

/-! ## The printer -/

/-- The texts of a list, with what stands between them and what stands behind each. -/
def joined (separator behind : Text) : List (Option Text) → Option Text
  | [] => some []
  | w :: ws => do
      let w ← w
      let rest ← joined separator behind ws
      return w ++ (if ws.isEmpty then [] else separator) ++ behind ++ rest

section Print

variable {m : Printf D} {failed : Bool} {a : ℕ} {p next prev last : Option ℕ}
  {name : Option Text} {format : Bool} {turns calls depth : ℕ} {separator behind : Text}

theorem gives_printList {entry : ℕ → Program (Heap (Block D)) (Option Text)}
    {l : List (Body D × Option Text)}
    (h : ∀ e ∈ l, ∀ a next prev,
      Gives failed (nodeAt a next prev e.1) (entry a) e.2 (nodeAt a next prev e.1))
    (hturns : l.length ≤ turns) :
    Gives failed (chain (l.map Prod.fst) prev p last none)
      (printList entry separator behind turns p) (joined separator behind (l.map Prod.snd))
      (chain (l.map Prod.fst) prev p last none) := by
  induction l generalizing turns prev p with
  | nil =>
      refine Triple.fact ?_
      rintro ⟨rfl, rfl⟩
      rw [printList]
      exact Gives.pure (Assn.le_fact_mul ⟨rfl, rfl⟩ le_rfl)
  | cons e l ih =>
      obtain ⟨he, hl⟩ := List.forall_mem_cons.1 h
      cases turns with
      | zero => exact absurd hturns (Nat.not_succ_le_zero _)
      | succ turns =>
          refine Triple.iSup fun a => Triple.iSup fun q => Triple.fact ?_
          rintro rfl
          rw [printList]
          refine (he a q prev).bind rfl ?_
          have hclose : nodeAt a q prev e.1 * chain (l.map Prod.fst) (some a) q last none ≤
              chain ((e :: l).map Prod.fst) prev (some a) last none :=
            le_iSup₂_of_le a q (Assn.le_fact_mul rfl le_rfl)
          rw [List.map_cons (f := Prod.snd), joined]
          cases he₂ : e.2 with
          | none => exact Gives.pure hclose
          | some w =>
              -- The node is read again for its `next`: behind the last one there is no separator.
              refine Triple.mono (P := .fact (q.isNone = (l.map Prod.fst).isEmpty) *
                (nodeAt a q prev e.1 * chain (l.map Prod.fst) (some a) q last none)) ?_ ?_
                fun _ _ => le_rfl
              · refine Triple.fact fun hlast => Triple.iSup_mul fun item => ?_
                refine gives_readNode.bind (mul_assoc _ _ _) ?_
                rw [← mul_assoc, mul_comm]
                refine (ih hl (Nat.le_of_succ_le_succ hturns)).bind rfl ?_
                rw [hlast, List.isEmpty_map, ← List.isEmpty_map (f := Prod.snd)]
                have hnode : chain (l.map Prod.fst) (some a) q last none *
                    (.pointsTo a (.node ⟨q, prev, item⟩) * e.1 item) ≤
                    chain ((e :: l).map Prod.fst) prev (some a) last none := by
                  rw [mul_comm]
                  exact (mul_le_mul' (le_iSup_of_le item le_rfl) le_rfl).trans hclose
                cases joined separator behind (l.map Prod.snd) with
                | none => exact Gives.pure hnode
                | some rest => exact Gives.pure hnode
              · rw [mul_left_comm]
                exact mul_le_mul' le_rfl (chain_le_isNone _)

theorem printItems_eq_joined (items : List (CJson D)) : printItems m format depth items =
    joined (',' :: ifFormat format [' ']) [] (items.map (printValue m format depth)) := by
  induction items with
  | nil => rw [printItems, List.map_nil, joined]
  | cons item items ih =>
      rw [printItems, List.map_cons, joined, ih]
      simp

/-- A member up to its value. -/
def memberText (m : Printf D) (format : Bool) (depth : ℕ) (member : Text × CJson D) :
    Option Text :=
  (printValue m format depth member.2).map fun w =>
    ifFormat format (tabs depth) ++ printString member.1 ++ ':' :: ifFormat format ['\t'] ++ w

theorem printMembers_eq_joined (members : List (Text × CJson D)) :
    printMembers m format depth members =
      joined [','] (ifFormat format ['\n']) (members.map (memberText m format depth)) := by
  induction members with
  | nil => rw [printMembers, List.map_nil, joined]
  | cons member members ih =>
      obtain ⟨name, t⟩ := member
      rw [printMembers, List.map_cons, joined, ih, memberText]
      cases printValue m format depth t <;> simp

/-- A member is printed, if its value is. -/
theorem gives_printMember {value : ℕ → Program (Heap (Block D)) (Option Text)}
    {member : Text × CJson D}
    (h : Gives failed (nodeAt a next prev (valueBody m.toDoubles (some member.1) member.2))
      (value a) (printValue m format depth member.2)
      (nodeAt a next prev (valueBody m.toDoubles (some member.1) member.2))) :
    Gives failed (nodeAt a next prev (valueBody m.toDoubles (some member.1) member.2))
      (printMember format depth value a) (memberText m format depth member)
      (nodeAt a next prev (valueBody m.toDoubles (some member.1) member.2)) := by
  refine Triple.iSup fun item => gives_readNode.bind rfl ?_
  rw [valueBody_eq, show ∀ X F S R : Assn (Block D), X * (F * (S * R)) = F * (S * (X * R)) by
    intros; ac_rfl]
  refine Triple.fact fun hfields => gives_readString.bind rfl ?_
  rw [mul_left_comm]
  refine Triple.mono ?_ (pointsTo_mul_le_nodeAt hfields le_rfl) fun _ _ => le_rfl
  refine h.seq ?_
  rw [memberText]
  cases printValue m format depth member.2 with
  | none => exact Gives.pure le_rfl
  | some w => exact Gives.pure le_rfl

theorem itemBodies_eq (items : List (CJson D)) (f : CJson D → Option Text) :
    itemBodies m.toDoubles items =
      (items.map fun t => (valueBody m.toDoubles none t, f t)).map Prod.fst := by
  rw [List.map_map]
  exact collects_array.children items

theorem memberBodies_eq (members : List (Text × CJson D)) (f : Text × CJson D → Option Text) :
    memberBodies m.toDoubles members =
      (members.map fun v => (valueBody m.toDoubles (some v.1) v.2, f v)).map Prod.fst := by
  rw [List.map_map]
  exact collects_object.children members

theorem size_pos (t : CJson D) : 0 < t.size := by cases t <;> simp [CJson.size]

theorem size_le_itemsSize {items : List (CJson D)} {t : CJson D} (h : t ∈ items) :
    t.size ≤ itemsSize items := by
  induction items with
  | nil => cases h
  | cons t' items ih =>
      rw [itemsSize]
      rcases List.mem_cons.1 h with rfl | h
      · omega
      · have := ih h
        omega

theorem length_le_itemsSize (items : List (CJson D)) : items.length ≤ itemsSize items := by
  induction items with
  | nil => exact Nat.zero_le _
  | cons t items ih =>
      have := size_pos t
      rw [itemsSize, List.length_cons]
      omega

theorem membersSize_eq (members : List (Text × CJson D)) :
    membersSize members = itemsSize (members.map Prod.snd) := by
  induction members with
  | nil => rfl
  | cons p members ih =>
      obtain ⟨name, t⟩ := p
      rw [membersSize, List.map_cons, itemsSize, ih]

/-- The list of an array or object is printed. -/
theorem gives_printList_siblings {entry : ℕ → Program (Heap (Block D)) (Option Text)}
    {l : List (Body D × Option Text)} {P : Assn (Block D)}
    {f : Option Text → Program (Heap (Block D)) (Option Text)} {w : Option Text}
    (h : ∀ e ∈ l, ∀ a next prev,
      Gives failed (nodeAt a next prev e.1) (entry a) e.2 (nodeAt a next prev e.1))
    (hturns : l.length ≤ turns) (hf : f (joined separator behind (l.map Prod.snd)) = pure w) :
    Gives failed (P * siblings (l.map Prod.fst) p)
      (printList entry separator behind turns p >>= f) w (P * siblings (l.map Prod.fst) p) := by
  rw [mul_comm]
  refine Triple.iSup_mul fun last => (gives_printList h hturns).bind rfl ?_
  rw [hf]
  exact Gives.pure (mul_le_mul' (le_iSup_of_le last le_rfl) le_rfl)

theorem map_snd_pairs {β : Type} (l : List β) (g : β → Body D) (f : β → Option Text) :
    (l.map fun v => (g v, f v)).map Prod.snd = l.map f := List.map_map ..

/-- The printer, from node to node. -/
theorem gives_printNode (t : CJson D) (hcalls : t.size ≤ calls) (hturns : t.size ≤ turns) :
    Gives failed (nodeAt a next prev (valueBody m.toDoubles name t))
      (printNode m format turns calls depth a) (printValue m format depth t)
      (nodeAt a next prev (valueBody m.toDoubles name t)) := by
  -- On the calls that are left.  Every call goes down one level, so the nodes bound them.
  induction calls generalizing t depth name a next prev with
  | zero => exact absurd hcalls (Nat.not_le_of_gt (size_pos t))
  | succ calls ih =>
      rw [printNode]
      refine gives_readNode_bind fun item hfields => ?_
      have hkind : item.kind = t.kind := hfields.1
      cases t with
      | null =>
          simp only [hkind, CJson.kind]
          exact Gives.pure le_rfl
      | false =>
          simp only [hkind, CJson.kind]
          exact Gives.pure le_rfl
      | true =>
          simp only [hkind, CJson.kind]
          exact Gives.pure le_rfl
      | number d n =>
          obtain ⟨-, hint, hdouble⟩ := hfields
          simp only [hkind, CJson.kind, hint, hdouble]
          exact Gives.pure le_rfl
      | string s =>
          simp only [hkind, CJson.kind]
          rw [mul_left_comm]
          exact gives_readString.bind rfl (Gives.pure le_rfl)
      | array items =>
          simp only [hkind, CJson.kind]
          rw [CJson.size] at hcalls hturns
          rw [← mul_assoc, childBodies, itemBodies_eq items (printValue m format (depth + 1))]
          refine gives_printList_siblings ?_ ?_ ?_
          · intro e he a next prev
            obtain ⟨t, ht, rfl⟩ := List.mem_map.1 he
            have hsize := size_le_itemsSize ht
            exact ih t (by omega) (by omega)
          · have := length_le_itemsSize items
            rw [List.length_map]
            omega
          · rw [map_snd_pairs, printValue, printItems_eq_joined]
            cases joined (',' :: ifFormat format [' ']) []
              (items.map (printValue m format (depth + 1))) <;> rfl
      | object members =>
          simp only [hkind, CJson.kind]
          rw [CJson.size, membersSize_eq] at hcalls hturns
          rw [← mul_assoc, childBodies, memberBodies_eq members (memberText m format (depth + 1))]
          refine gives_printList_siblings ?_ ?_ ?_
          · intro e he a next prev
            obtain ⟨member, hmember, rfl⟩ := List.mem_map.1 he
            have hsize := size_le_itemsSize (List.mem_map_of_mem (f := Prod.snd) hmember)
            exact gives_printMember (ih member.2 (by omega) (by omega))
          · have := length_le_itemsSize (members.map Prod.snd)
            rw [List.length_map] at this ⊢
            omega
          · rw [map_snd_pairs, printValue, printMembers_eq_joined]
            cases joined [','] (ifFormat format ['\n'])
              (members.map (memberText m format (depth + 1))) <;> rfl

variable (m) in
/-- What `print` returns. -/
def printedAt (format : Bool) (t : CJson D) (failed f : Bool) : Option ℕ → Assn (Block D)
  | none => .fact (f = true ∨ f = failed ∧ printValue m format 0 t = none)
  | some a => ⨆ w, .fact (f = failed ∧ printValue m format 0 t = some w) *
      .pointsTo a (.bytes (w ++ ['\x00']))

/-- **Printing.**  The text is that of the tree, which stays as it is. -/
theorem triple_printTo (alloc : Allocator) (t : CJson D) :
    Triple failed (treeAt m.toDoubles a t) (printTo alloc m format a) fun f r =>
      printedAt m format t failed f r * treeAt m.toDoubles a t := by
  have hprint : Gives failed (treeAt m.toDoubles a t)
      (fun s => printNode m format s.calls s.calls 0 a s) (printValue m format 0 t)
      (treeAt m.toDoubles a t) :=
    Triple.turns (atLeast_size t none a none none) fun k hk => gives_printNode t hk hk
  refine hprint.seq ?_
  cases hw : printValue m format 0 t with
  | none => exact Triple.pure (Assn.le_fact_mul (.inr ⟨rfl, hw⟩) le_rfl)
  | some w =>
      refine Triple.mono ((makes_alloc _ _).frame (treeAt m.toDoubles a t)) (one_mul _).ge
        fun f r => mul_le_mul' ?_ le_rfl
      cases r with
      | none => exact Assn.fact_mono .inl
      | some p => exact le_iSup_of_le w (mul_le_mul' (Assn.fact_mono fun h => ⟨h, hw⟩) le_rfl)

end Print

/-! ## Members -/

/-- A child: its address, its name and its value. -/
abbrev Child (D : Type) : Type := ℕ × Option Text × CJson D

/-- The children of a value, with their names. -/
def CJson.children : CJson D → List (Option Text × CJson D)
  | .array items => items.map fun t => (none, t)
  | .object members => members.map fun v => (some v.1, v.2)
  | _ => []

/-- The loop of `get_object_item`. -/
def firstNamed (name : Text) : List (Child D) → Option (ℕ × CJson D)
  | [] => none
  | (_, none, _) :: _ => none
  | (a, some string, t) :: children =>
      if name = string then some (a, t) else firstNamed name children

section Members

variable {m : Doubles D} {failed : Bool} {a : ℕ} {p next prev last : Option ℕ}
  {name : Option Text} {t : CJson D} {children : List (Child D)} {γ : Type} {v : γ}

variable (m) in
/-- A part of a list, at these addresses. -/
def chainAt : List (Child D) → (prev p last next : Option ℕ) → Assn (Block D)
  | [], prev, p, last, next => .fact (p = next ∧ last = prev) * 1
  | (a, name, t) :: children, prev, p, last, next =>
      ⨆ q, .fact (p = some a) *
        (nodeAt a q prev (valueBody m name t) * chainAt children (some a) q last next)

theorem childBodies_eq (t : CJson D) :
    childBodies m t = t.children.map fun c => valueBody m c.1 c.2 := by
  cases t with
  | array items =>
      rw [CJson.children, List.map_map]
      exact collects_array.children items
  | object members =>
      rw [CJson.children, List.map_map]
      exact collects_object.children members
  | _ => rfl

/-- The nodes of a list lie somewhere. -/
theorem chain_eq_iSup (l : List (Option Text × CJson D)) :
    chain (l.map fun c => valueBody m c.1 c.2) prev p last next =
      ⨆ children : List (Child D), .fact (children.map Prod.snd = l) *
        chainAt m children prev p last next := by
  induction l generalizing prev p with
  | nil =>
      refine le_antisymm (le_iSup_of_le [] (Assn.le_fact_mul rfl le_rfl)) ?_
      refine iSup_le fun children => Assn.fact_mul_le fun h => ?_
      rw [List.map_eq_nil_iff.1 h]
      exact le_rfl
  | cons c l ih =>
      rw [List.map_cons, chain]
      refine le_antisymm (iSup₂_le fun a q => ?_) (iSup_le fun children => ?_)
      · rw [ih]
        simp only [Quantale.mul_iSup_distrib]
        refine iSup_le fun children => le_iSup_of_le ((a, c) :: children) ?_
        rw [mul_left_comm (nodeAt _ _ _ _), mul_left_comm]
        refine Assn.fact_mul_le fun hl => Assn.le_fact_mul (by rw [List.map_cons, hl]) ?_
        exact le_iSup_of_le q le_rfl
      · refine Assn.fact_mul_le fun h => ?_
        obtain ⟨⟨a, c'⟩, children, rfl, rfl, hl⟩ := List.map_eq_cons_iff.1 h
        refine iSup_le fun q => le_iSup₂_of_le a q (mul_le_mul' le_rfl (mul_le_mul' le_rfl ?_))
        rw [ih]
        exact le_iSup_of_le children (Assn.le_fact_mul hl le_rfl)

/-- What is read in the nodes of a list leaves them as they are. -/
theorem gives_of_mem {x : Program (Heap (Block D)) γ} (hmem : (a, name, t) ∈ children)
    (h : ∀ next prev, Gives failed (nodeAt a next prev (valueBody m name t)) x v
      (nodeAt a next prev (valueBody m name t))) :
    Gives failed (chainAt m children prev p last next) x v
      (chainAt m children prev p last next) := by
  induction children generalizing prev p with
  | nil => cases hmem
  | cons c children ih =>
      obtain ⟨a', name', t'⟩ := c
      refine Triple.iSup fun q => Triple.fact fun hp => ?_
      have hclose : nodeAt a' q prev (valueBody m name' t') *
          chainAt m children (some a') q last next ≤
          chainAt m ((a', name', t') :: children) prev p last next :=
        le_iSup_of_le q (Assn.le_fact_mul hp le_rfl)
      rcases List.mem_cons.1 hmem with heq | hmem
      · obtain ⟨rfl, rfl, rfl⟩ : a = a' ∧ name = name' ∧ t = t' := by simpa using heq
        exact (h q prev).framed le_rfl hclose
      · exact (ih hmem).framed (mul_comm _ _).le ((mul_comm _ _).le.trans hclose)

theorem gives_findItem {key : Text} {turns : ℕ} (hturns : children.length ≤ turns) :
    Gives failed (chainAt m children prev p last none) (findItem key turns p)
      ((firstNamed key children).map Prod.fst) (chainAt m children prev p last none) := by
  induction children generalizing turns prev p with
  | nil =>
      refine Triple.fact ?_
      rintro ⟨rfl, rfl⟩
      rw [findItem]
      exact Gives.pure (Assn.le_fact_mul ⟨rfl, rfl⟩ le_rfl)
  | cons c children ih =>
      obtain ⟨a, name, t⟩ := c
      cases turns with
      | zero => exact absurd hturns (Nat.not_succ_le_zero _)
      | succ turns =>
          refine Triple.iSup fun q => Triple.fact ?_
          rintro rfl
          rw [findItem]
          refine Triple.iSup_mul fun item => gives_readNode.bind (mul_assoc _ _ _) ?_
          rw [valueBody_eq, show ∀ X F S R C : Assn (Block D),
            X * (F * (S * R) * C) = F * (S * (X * R * C)) by intros; ac_rfl]
          refine Triple.fact fun hfields => gives_readString.bind rfl ?_
          rw [show ∀ X S R C : Assn (Block D), S * (X * R * C) = X * (S * R) * C by
            intros; ac_rfl]
          refine Triple.mono ?_ (mul_le_mul' (pointsTo_mul_le_nodeAt hfields le_rfl) le_rfl)
            fun _ _ => le_rfl
          have hclose : nodeAt a q prev (valueBody m name t) *
              chainAt m children (some a) q last none ≤
              chainAt m ((a, name, t) :: children) prev (some a) last none :=
            le_iSup_of_le q (Assn.le_fact_mul rfl le_rfl)
          cases name with
          | none =>
              -- An item of an array ends the search.
              exact Gives.pure hclose
          | some string =>
              simp only [firstNamed]
              split_ifs
              · exact Gives.pure hclose
              · exact (ih (Nat.le_of_succ_le_succ hturns)).framed (mul_comm _ _).le
                  ((mul_comm _ _).le.trans hclose)

theorem gives_readInt : Gives failed (nodeAt a next prev (valueBody m name t)) (readInt a)
    t.valueint (nodeAt a next prev (valueBody m name t)) :=
  gives_readNode_bind fun _ hfields => hfields.2.1 ▸ Gives.pure le_rfl

theorem gives_readDouble : Gives failed (nodeAt a next prev (valueBody m name t)) (readDouble a)
    (t.valuedouble m) (nodeAt a next prev (valueBody m name t)) :=
  gives_readNode_bind fun _ hfields => hfields.2.2 ▸ Gives.pure le_rfl

theorem gives_readText : Gives failed (nodeAt a next prev (valueBody m name t)) (readText a)
    t.valuestring (nodeAt a next prev (valueBody m name t)) := by
  refine gives_readNode_bind fun item _ => ?_
  rw [mul_left_comm]
  exact gives_readString.framed le_rfl le_rfl

variable (m) in
/-- A tree whose first level is at these addresses. -/
def rootAt (a : ℕ) (t : CJson D) (children : List (Child D)) : Assn (Block D) :=
  ⨆ (item : Item D) (last : Option ℕ), .pointsTo a (.node ⟨none, none, item⟩) *
    (.fact (Fields m (some t) item) * (stringAt item.string none *
      (stringAt item.valuestring t.valuestring *
        chainAt m children last item.child last none)))

theorem treeAt_eq_iSup : treeAt m a t =
    ⨆ children : List (Child D), .fact (children.map Prod.snd = t.children) *
      rootAt m a t children := by
  have hswap : ∀ X F S V L C : Assn (Block D), X * (F * (S * (V * (L * C)))) =
      L * (X * (F * (S * (V * C)))) := by
    intros
    ac_rfl
  simp only [treeAt, nodeAt, valueBody_eq, childBodies_eq, siblings, chain_eq_iSup, rootAt,
    Quantale.mul_iSup_distrib, hswap]
  refine le_antisymm (iSup_le fun item => iSup₂_le fun last children => ?_)
    (iSup_le fun children => iSup₂_le fun item last => ?_)
  · exact le_iSup_of_le children (le_iSup₂_of_le item last le_rfl)
  · exact le_iSup_of_le item (le_iSup₂_of_le last children le_rfl)

/-- What is read in the root and in the list below leaves the tree as it is. -/
theorem gives_rootAt {x : Program (Heap (Block D)) γ}
    (h : ∀ item last, Gives failed
      (.pointsTo a (.node ⟨none, none, item⟩) * chainAt m children last item.child last none) x v
      (.pointsTo a (.node ⟨none, none, item⟩) * chainAt m children last item.child last none)) :
    Gives failed (rootAt m a t children) x v (rootAt m a t children) := by
  refine Triple.iSup fun item => Triple.iSup fun last => ?_
  have hswap : ∀ X F S V C : Assn (Block D), X * (F * (S * (V * C))) =
      X * C * (F * (S * V)) := by
    intros
    ac_rfl
  refine (h item last).framed (hswap _ _ _ _ _).le ?_
  rw [← hswap]
  exact le_iSup₂_of_le item last le_rfl

theorem atLeast_chainAt : (chainAt m children prev p last next).AtLeast children.length := by
  induction children generalizing prev p with
  | nil => exact Assn.atLeast_zero _
  | cons c children ih =>
      refine .iSup fun q => .fact fun _ => ?_
      rw [List.length_cons, Nat.add_comm]
      refine Assn.AtLeast.mul (.iSup fun item => ?_) ih
      exact (Assn.atLeast_pointsTo c.1 _).mul (Assn.atLeast_zero _)

/-- **Lookup.**  The address of the first child of the name. -/
theorem gives_getObjectItem (key : Text) : Gives failed (rootAt m a t children)
    (getObjectItem a key) ((firstNamed key children).map Prod.fst) (rootAt m a t children) := by
  refine gives_rootAt fun item last => gives_readNode.bind rfl ?_
  have hfind : Gives failed (chainAt m children last item.child last none)
      (fun s => findItem key s.calls item.child s) ((firstNamed key children).map Prod.fst)
      (chainAt m children last item.child last none) :=
    Triple.turns atLeast_chainAt fun k hk => gives_findItem hk
  exact hfind.framed (mul_comm _ _).le (mul_comm _ _).le

/-- What is read in a child. -/
theorem gives_child {b : ℕ} {x : Program (Heap (Block D)) γ} {t' : CJson D}
    (hmem : (b, name, t') ∈ children)
    (h : ∀ next prev, Gives failed (nodeAt b next prev (valueBody m name t')) x v
      (nodeAt b next prev (valueBody m name t'))) :
    Gives failed (rootAt m a t children) x v (rootAt m a t children) :=
  gives_rootAt fun _ _ => (gives_of_mem hmem h).framed (mul_comm _ _).le (mul_comm _ _).le

theorem firstNamed_mem {key : Text} (h : firstNamed key children = some (a, t)) :
    (a, some key, t) ∈ children := by
  induction children with
  | nil => cases h
  | cons c children ih =>
      obtain ⟨a', name', t'⟩ := c
      cases name' with
      | none => cases h
      | some string =>
          rw [firstNamed] at h
          split_ifs at h with hkey
          · obtain ⟨rfl, rfl⟩ := Prod.mk.inj (Option.some.inj h)
            exact hkey ▸ List.mem_cons_self
          · exact List.mem_cons_of_mem _ (ih h)

/-- The lookup in memory and the lookup in the tree. -/
theorem getObjectItemCaseSensitive_eq (h : children.map Prod.snd = t.children) (key : Text) :
    t.getObjectItemCaseSensitive key = (firstNamed key children).map Prod.snd := by
  cases t with
  | object members =>
      rw [CJson.getObjectItemCaseSensitive]
      rw [CJson.children] at h
      induction members generalizing children with
      | nil =>
          rw [List.map_eq_nil_iff.1 h]
          rfl
      | cons member members ih =>
          obtain ⟨⟨a, c⟩, children, rfl, rfl, hrest⟩ := List.map_eq_cons_iff.1 h
          rw [firstNamed, List.find?_cons]
          by_cases hkey : key = member.1
          · simp [hkey]
          · simp only [if_neg hkey, Ne.symm hkey, decide_false]
            exact ih hrest
  | array items =>
      cases items with
      | nil =>
          rw [List.map_eq_nil_iff.1 h]
          rfl
      | cons item items =>
          obtain ⟨⟨a, c⟩, children, rfl, rfl, -⟩ := List.map_eq_cons_iff.1 h
          rfl
  | _ =>
      rw [List.map_eq_nil_iff.1 h]
      rfl

end Members

end PotHub.Json
