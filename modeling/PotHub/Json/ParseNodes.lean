import PotHub.Json.ParseString

/-!
# The parser in memory

`cJSON_Parse` with its allocations: every value is read into a node that is there
already, the loops of `parse_array` and `parse_object` allocate the next node, hang
it on the list and go on with it, and what fails frees the list that it has so far.

Every allocation may fail.  The parser then returns a null pointer, and the heap is
as it was before the call; and so it is where the text is refused.  Otherwise the
tree of the text is in the heap, and the rest of the heap is as it was.
-/

namespace PotHub.Json

open PotHub.Lib PotHub.Lib.Heap

variable {D : Type}

/-! ## The functions -/

/-- A function that reads the front of a text into a node, and returns what is left
of the text; `none` is `false`. -/
abbrev NodeParser (D : Type) : Type := ℕ → Text → Program (Heap (Block D)) (Option Text)

variable (alloc : Allocator) (m : Doubles D)

/-- `parse_number`. -/
def parseNumberTo : NodeParser D := fun item w =>
  let number := m.strtod (numberToken w)
  if number.2 = 0 then pure none
  else do
    modifyItem item fun i =>
      { i with valuedouble := number.1, valueint := m.toInt number.1, kind := .number }
    pure (some (w.drop number.2))

/-- A new node at the end of a list, which has a head and a current item. -/
def attach (list : Option (ℕ × ℕ)) (newItem : ℕ) : Program (Heap (Block D)) ℕ :=
  match list with
  | none => pure newItem
  | some (head, currentItem) => do
      modifyNode currentItem fun n => { n with next := some newItem }
      modifyNode newItem fun n => { n with prev := some currentItem }
      pure head

/-- The label `fail` of `parse_array` and `parse_object`. -/
def failWith {α : Type} (head : Option ℕ) : Program (Heap (Block D)) (Option α) := do
  cJSON_Delete head
  pure none

/-- The loop of `parse_array` and `parse_object`, in rounds: the head and the last
node of the list, and what is left of the text. -/
def parseEntriesTo (close : Char) (entry : NodeParser D) :
    ℕ → Option (ℕ × ℕ) → Text → Program (Heap (Block D)) (Option (ℕ × ℕ × Text))
  | 0, _, _ => Program.fault
  | rounds + 1, list, w => do
      match ← newItem alloc m with
      | none => failWith (list.map Prod.fst)
      | some currentItem => do
          let head ← attach list currentItem
          match ← entry currentItem (w.dropWhile isBlank) with
          | none => failWith (some head)
          | some r =>
              match r.dropWhile isBlank with
              | [] => failWith (some head)
              | c :: r =>
                  if c = ',' then parseEntriesTo close entry rounds (some (head, currentItem)) r
                  else if c = close then pure (some (head, currentItem, r))
                  else failWith (some head)

/-- `parse_array` and `parse_object`, behind the bracket. -/
def parseListTo (kind : Kind) (close : Char) (entry : NodeParser D) : NodeParser D := fun item r =>
  if (r.dropWhile isBlank).head? = some close then do
    modifyItem item fun i => { i with kind := kind, child := none }
    pure (some (r.dropWhile isBlank).tail)
  else do
    match ← parseEntriesTo alloc m close entry (r.length + 1) none r with
    | none => pure none
    | some (head, currentItem, r) => do
        modifyNode head fun n => { n with prev := some currentItem }
        modifyItem item fun i => { i with kind := kind, child := some head }
        pure (some r)

/-- A round of `parse_object`: the name, which is moved, the colon and the value. -/
def parseMemberTo (value : NodeParser D) : NodeParser D := fun item w => do
  match ← parseStringTo alloc item w with
  | none => pure none
  | some r => do
      modifyItem item fun i => { i with string := i.valuestring, valuestring := none }
      match r.dropWhile isBlank with
      | ':' :: r => value item (r.dropWhile isBlank)
      | _ => pure none

/-- `parse_value` behind its test for the three words. -/
def parseByFirstTo (inner : Option (NodeParser D)) : NodeParser D := fun item w =>
  match w with
  | [] => pure none
  | c :: r =>
      if c = '"' then parseStringTo alloc item w
      else if c = '-' ∨ c.isDigit then parseNumberTo m item w
      else if c = '[' then
        match inner with
        | none => pure none
        | some value => parseListTo alloc m .array ']' value item r
      else if c = '{' then
        match inner with
        | none => pure none
        | some value => parseListTo alloc m .object '}' (parseMemberTo alloc value) item r
      else pure none

/-- One of the three words. -/
def parseWordTo (item : ℕ) (f : Item D → Item D) (r : Text) :
    Program (Heap (Block D)) (Option Text) := do
  modifyItem item f
  pure (some r)

/-- `parse_value`. -/
def parseValueToWith (inner : Option (NodeParser D)) : NodeParser D := fun item w =>
  if "null".toList <+: w then parseWordTo item (fun i => { i with kind := .null }) (w.drop 4)
  else if "false".toList <+: w then
    parseWordTo item (fun i => { i with kind := .false }) (w.drop 5)
  else if "true".toList <+: w then
    parseWordTo item (fun i => { i with kind := .true, valueint := 1 }) (w.drop 4)
  else parseByFirstTo alloc m inner item w

/-- `parse_value`, with the number of levels still to go. -/
def parseValueTo : ℕ → NodeParser D
  | 0 => parseValueToWith alloc m none
  | k + 1 => parseValueToWith alloc m (some (parseValueTo k))

/-- `cJSON_Parse`: the address of the root, or a null pointer. -/
def cJSON_ParseTo (value : Text) : Program (Heap (Block D)) (Option ℕ) := do
  match ← newItem alloc m with
  | none => pure none
  | some item => do
      match ← parseValueTo alloc m nestingLimit item ((skipUtf8Bom value).dropWhile isBlank) with
      | none => failWith (some item)
      | some _ => pure (some item)

/-! ## What a function leaves -/

/-- A function reads values as the parser does, into a node without a value. -/
def ReadsInto {β : Type} (p : Parser Char β) (name : Option Text) (after : β → Body D)
    (v : NodeParser D) : Prop :=
  ∀ failed a next prev w, Triple failed (nodeAt a next prev (blankBody m name)) (v a w)
    (outcome m p after a next prev w failed)

variable {alloc m} {failed : Bool} {a : ℕ} {next prev : Option ℕ} {name : Option Text}
  {w r : Text} {β : Type} {p : Parser Char β} {after : β → Body D}

theorem unread_of_blank : nodeAt a next prev (blankBody m name) ≤ unread m a next prev :=
  le_iSup_of_le name le_rfl

variable (after) in
/-- A node with a value that has been read. -/
theorem outcome_some {v : β} (hp : p w = some (v, r)) (hr : r <:+ w) (hlt : r.length < w.length) :
    nodeAt a next prev (after v) ≤ outcome m p after a next prev w failed failed (some r) :=
  le_iSup_of_le v (Assn.le_fact_mul ⟨rfl, hp, hr, hlt⟩ le_rfl)

theorem outcome_none (hp : p w = none) :
    nodeAt a next prev (blankBody m name) ≤ outcome m p after a next prev w failed failed none :=
  Assn.le_fact_mul (.self hp) unread_of_blank

theorem triple_parseWordTo {t : CJson D} {f : Item D → Item D} {p : Parser Char (CJson D)}
    (hp : p w = some (t, r)) (hstring : t.valuestring = none) (hchildren : childBodies m t = [])
    (hf : ∀ item : Item D, item.Blank m → Fields m (some t) (f item) ∧
      (f item).string = item.string ∧ (f item).valuestring = none ∧ (f item).child = none)
    (hr : r <:+ w) (hlt : r.length < w.length) :
    Triple failed (nodeAt a next prev (blankBody m name)) (parseWordTo a f r)
      (outcome m p (valueBody m name) a next prev w failed) :=
  (gives_modifyItem_leaf hstring hchildren hf).seq (Triple.pure (outcome_some _ hp hr hlt))

theorem readsInto_number : ReadsInto m (parseNumber m) name (valueBody m name)
    (parseNumberTo m) := by
  intro failed a next prev w
  rw [parseNumberTo]
  split_ifs with hzero
  · exact Triple.pure (outcome_none (by simp [parseNumber, hzero]))
  · have hp : parseNumber m w = some (.number (m.strtod (numberToken w)).1
        (m.toInt (m.strtod (numberToken w)).1), w.drop (m.strtod (numberToken w)).2) :=
      if_neg hzero
    refine triple_parseWordTo hp rfl rfl (fun item hblank => ?_) (List.drop_suffix _ _)
      (parseNumber_consumes _ _ _ hp)
    exact ⟨⟨rfl, rfl, rfl⟩, rfl, hblank.valuestring, hblank.child⟩

/-- Another parser that reads the same behind some text. -/
theorem outcome_map {β' : Type} (p : Parser Char β) {p' : Parser Char β'}
    (after' : β' → Body D) (g : β → β') {w' : Text}
    (hp : p' w' = (p w).map fun x => (g x.1, x.2)) (hw : w <:+ w') (f : Bool)
    (r : Option Text) :
    outcome m p (fun v => after' (g v)) a next prev w failed f r ≤
      outcome m p' after' a next prev w' failed f r := by
  cases r with
  | none =>
      refine mul_le_mul' (Assn.fact_mono fun h => h.mono fun hnone => ?_) le_rfl
      rw [hp, hnone, Option.map_none]
  | some r =>
      refine iSup_le fun v => le_iSup_of_le (g v) (mul_le_mul' (Assn.fact_mono ?_) le_rfl)
      rintro ⟨hfailed, hsome, hr, hlt⟩
      exact ⟨hfailed, by rw [hp, hsome, Option.map_some], hr.trans hw,
        Nat.lt_of_lt_of_le hlt hw.length_le⟩

/-! ## Members -/

/-- The name is moved. -/
theorem gives_swap {s : Text} :
    Gives failed (nodeAt a next prev (valueBody m none (.string s)))
      (modifyItem a fun i => { i with string := i.valuestring, valuestring := none }) ⟨⟩
      (nodeAt a next prev (blankBody m (some s))) := by
  refine Triple.iSup fun item => ?_
  rw [valueBody, body, stringAt_none]
  show Triple failed (_ * (_ * (_ * (stringAt item.valuestring (some s) *
    siblings [] item.child)))) _ _
  rw [siblings_nil, show ∀ X F N V C : Assn (Block D), X * (F * (N * (V * C))) =
    F * (N * (C * (X * V))) by intros; ac_rfl]
  refine Triple.fact fun hfields => Triple.fact fun _ => Triple.fact fun hchild => ?_
  refine Triple.mono ((gives_modifyItem _).frame _) le_rfl fun f v => ?_
  rw [mul_assoc]
  refine mul_le_mul' le_rfl (le_iSup_of_le _ (mul_le_mul' le_rfl ?_))
  rw [blankBody_eq]
  exact Assn.le_fact_mul ⟨hfields.2.1, hfields.2.2, rfl, hchild⟩ le_rfl

/-- A member behind its name. -/
theorem parseMember_of_colon (value : Parser Char (CJson D)) {s r₁ : Text}
    (h : parseString w = some (s, r)) (hcolon : r.dropWhile isBlank = ':' :: r₁) :
    parseMember value w = (value (r₁.dropWhile isBlank)).map fun x => ((s, x.1), x.2) := by
  simp only [parseMember, h, hcolon]

theorem parseMember_of_not_colon (value : Parser Char (CJson D)) {s : Text}
    (h : parseString w = some (s, r)) (hcolon : ∀ r₁, r.dropWhile isBlank ≠ ':' :: r₁) :
    parseMember value w = none := by
  cases hw : parseMember value w with
  | none => rfl
  | some x =>
      obtain ⟨r₁, r₂, hs, hr, -⟩ := parseMember_eq_some hw
      obtain ⟨-, rfl⟩ := Prod.mk.inj (Option.some.inj (h.symm.trans hs))
      exact absurd hr (hcolon r₂)

theorem readsInto_member {value : NodeParser D} {p : Parser Char (CJson D)}
    (h : ∀ s, ReadsInto m p (some s) (valueBody m (some s)) value) :
    ReadsInto m (parseMember p) none (fun v => valueBody m (some v.1) v.2)
      (parseMemberTo alloc value) := by
  intro failed a next prev w
  refine triple_parseStringTo.bind fun f r => ?_
  cases r with
  | none =>
      refine Triple.pure (mul_le_mul' (Assn.fact_mono fun hnone => hnone.mono fun hs => ?_)
        le_rfl)
      rw [parseMember, hs]
  | some r =>
      refine Triple.iSup fun s => Triple.fact ?_
      rintro ⟨rfl, hs, hr, hlt⟩
      refine gives_swap.seq ?_
      split
      · next r₁ hcolon =>
        have hsuffix : r₁.dropWhile isBlank <:+ w := by
          refine (List.dropWhile_suffix _).trans (List.IsSuffix.trans ?_ hr)
          exact (List.suffix_cons ':' r₁).trans (hcolon ▸ List.dropWhile_suffix _)
        refine Triple.mono (h s f a next prev _) le_rfl fun f' r' => ?_
        exact outcome_map p (fun v : Text × CJson D => valueBody m (some v.1) v.2)
          (fun t => (s, t)) (parseMember_of_colon p hs hcolon) hsuffix f' r'
      · next hcolon => exact Triple.pure (outcome_none (parseMember_of_not_colon p hs hcolon))

/-! ## Lists -/

/-- The list so far. -/
def built (bodies : List (Body D)) (list : Option (ℕ × ℕ)) : Assn (Block D) :=
  chain bodies none (list.map Prod.fst) (list.map Prod.snd) none

/-- The head of the list with another node. -/
def headWith (list : Option (ℕ × ℕ)) (item : ℕ) : ℕ := (list.map Prod.fst).getD item

theorem gives_attach {bodies : List (Body D)} {list : Option (ℕ × ℕ)} {b : Body D} :
    Gives failed (built bodies list * nodeAt a none none b) (attach list a) (headWith list a)
      (⨆ q, chain bodies none (some (headWith list a)) q (some a) * nodeAt a none q b) := by
  match list with
  | none =>
      refine Gives.pure (le_iSup_of_le none (mul_le_mul' ?_ le_rfl))
      cases bodies with
      | nil => exact mul_le_mul' (Assn.fact_mono fun _ => ⟨rfl, rfl⟩) le_rfl
      | cons body bodies =>
          refine iSup₂_le fun a' q => Assn.fact_mul_le fun h => ?_
          cases h
  | some (head, currentItem) =>
      rcases List.eq_nil_or_concat' bodies with rfl | ⟨bodies, body, rfl⟩
      · rw [built, chain, mul_assoc]
        exact Triple.fact fun h => by cases h.1
      · rw [built, chain_concat]
        refine Triple.iSup_mul fun a' => Triple.iSup_mul fun q => ?_
        rw [mul_assoc]
        refine Triple.fact ?_
        rintro heq
        obtain rfl := Option.some.inj heq
        refine (gives_modifyNode_links fun _ => rfl).bind
          (show _ = nodeAt currentItem none q body * (chain bodies _ _ _ _ * nodeAt a none none b)
            by ac_rfl) ?_
        refine (gives_modifyNode_links fun _ => rfl).bind
          (show _ = nodeAt a none none b * (chain bodies _ _ _ _ * nodeAt currentItem _ q body)
            by ac_rfl) ?_
        refine Gives.pure (le_iSup_of_le (some currentItem) ?_)
        rw [mul_comm]
        exact mul_le_mul' chain_mul_nodeAt_le le_rfl

theorem pointsTo_newItem_le :
    Assn.pointsTo a (Block.node ⟨none, none, .zero m⟩) ≤
      nodeAt a none none (blankBody m none) := by
  refine le_iSup_of_le (.zero m) ?_
  rw [blankBody_eq, mul_left_comm]
  exact Assn.le_fact_mul ⟨rfl, rfl, rfl, rfl⟩ (mul_one _).ge

theorem triple_failWith {α : Type} {bodies : List (Body D)} (h : Deletable bodies)
    {prev q last : Option ℕ} {Q : Bool → Option α → Assn (Block D)} (hQ : 1 ≤ Q failed none) :
    Triple failed (chain bodies prev q last none) (failWith q) Q :=
  (gives_cJSON_Delete h).bind_one (mul_one _).symm (Triple.pure hQ)

section Loop

variable (p) (after)

/-- What the loop leaves. -/
def entriesOutcome (close : Char) (rounds : ℕ) (done : List β) (w : Text) (failed f : Bool) :
    Option (ℕ × ℕ × Text) → Assn (Block D)
  | none => .fact (Unless failed f (sepBy isBlank ',' close p rounds w = none))
  | some (head, currentItem, r) =>
      ⨆ vs, .fact (f = failed ∧ sepBy isBlank ',' close p rounds w = some (vs, r) ∧
        r <:+ w ∧ r.length < w.length) *
          built ((done ++ vs).map after) (some (head, currentItem))

variable {p after} {close : Char} {rounds : ℕ} {done : List β}

variable (close rounds) in
/-- A round behind its value. -/
theorem sepBy_of_some {v : β} (h : p (w.dropWhile isBlank) = some (v, r)) :
    sepBy isBlank ',' close p (rounds + 1) w = match r.dropWhile isBlank with
      | [] => none
      | c :: r' =>
          if c = ',' then (sepBy isBlank ',' close p rounds r').map fun x => (v :: x.1, x.2)
          else if c = close then some ([v], r')
          else none := by
  rw [sepBy, h]
  cases hr : r.dropWhile isBlank <;> simp only [hr]

/-- A list with one more value goes on. -/
theorem entriesOutcome_cons {v : β} {r' : Text}
    (hp : sepBy isBlank ',' close p (rounds + 1) w =
      (sepBy isBlank ',' close p rounds r').map fun x => (v :: x.1, x.2))
    (hr : r' <:+ w) (f : Bool) (x : Option (ℕ × ℕ × Text)) :
    entriesOutcome p after close rounds (done ++ [v]) r' failed f x ≤
      entriesOutcome p after close (rounds + 1) done w failed f x := by
  match x with
  | none =>
      refine Assn.fact_mono fun h => h.mono fun hnone => ?_
      rw [hp, hnone, Option.map_none]
  | some (head, currentItem, r) =>
      refine iSup_le fun vs => le_iSup_of_le (v :: vs) ?_
      rw [List.append_assoc, List.singleton_append]
      refine mul_le_mul' (Assn.fact_mono ?_) le_rfl
      rintro ⟨hfailed, hsome, hsuffix, hlt⟩
      exact ⟨hfailed, by rw [hp, hsome, Option.map_some], hsuffix.trans hr,
        Nat.lt_of_lt_of_le hlt hr.length_le⟩

/-- The list is freed, with a node at its end that has no value. -/
theorem triple_failWith_concat {α : Type} {head item : ℕ} {q : Option ℕ}
    {bodies : List (Body D)} {b : Body D}
    (hbodies : ∀ b ∈ bodies, IsNode m b) (hb : IsNode m b)
    {Q : Bool → Option α → Assn (Block D)} (hQ : 1 ≤ Q failed none) :
    Triple failed (chain bodies none (some head) q (some item) * nodeAt item none q b)
      (failWith (some head)) Q := by
  have hdeletable : Deletable (bodies ++ [b]) := by
    refine deletable_of_forall (m := m) fun b' hb' => ?_
    rcases List.mem_append.1 hb' with hb' | hb'
    · exact hbodies b' hb'
    · rwa [List.mem_singleton.1 hb']
  exact Triple.mono (triple_failWith hdeletable hQ) chain_mul_nodeAt_le fun _ _ => le_rfl

theorem triple_parseEntriesTo (done : List β) {entry : NodeParser D}
    (hentry : ReadsInto m p none after entry) (hafter : ∀ v, IsNode m (after v))
    {list : Option (ℕ × ℕ)} (hrounds : w.length < rounds) :
    Triple failed (built (done.map after) list)
      (parseEntriesTo alloc m close entry rounds list w)
      (entriesOutcome p after close rounds done w failed) := by
  induction rounds generalizing failed done list w with
  | zero => exact absurd hrounds (Nat.not_lt_zero _)
  | succ rounds ih =>
      have hnodes : ∀ vs : List β, ∀ b ∈ vs.map after, IsNode m b := by
        intro vs b hb
        obtain ⟨v, -, rfl⟩ := List.mem_map.1 hb
        exact hafter v
      have hnone : ∀ {f : Bool},
          Unless failed f (sepBy isBlank ',' close p (rounds + 1) w = none) →
          1 ≤ entriesOutcome p after close (rounds + 1) done w failed f none :=
        fun h x hx => ⟨h, Assn.mem_one.1 hx⟩
      refine Triple.alloc_bind (fun item => ?_)
        (triple_failWith (deletable_of_forall (hnodes done)) (hnone (.inr rfl)))
      refine Triple.mono ?_ ((mul_le_mul' pointsTo_newItem_le le_rfl).trans (mul_comm _ _).le)
        fun f x => le_rfl
      refine gives_attach.seq (Triple.iSup fun q => ?_)
      refine (hentry failed item none q (w.dropWhile isBlank)).bind_frame (mul_comm _ _)
        fun f r => ?_
      cases r with
      | none =>
          -- The value is refused.  Its node is in the list already and is freed with it.
          rw [outcome, mul_assoc]
          refine Triple.fact fun h => Triple.iSup_mul fun name => ?_
          rw [mul_comm]
          refine triple_failWith_concat (hnodes done) (isNode_blankBody name) (hnone ?_)
          refine h.mono fun hp => ?_
          rw [sepBy, hp]
      | some r =>
          refine Triple.iSup_mul fun v => ?_
          rw [mul_assoc, mul_comm (nodeAt _ _ _ _)]
          refine Triple.fact ?_
          rintro ⟨rfl, hv, hr, hlt⟩
          have hp := sepBy_of_some close rounds hv
          have hfail : sepBy isBlank ',' close p (rounds + 1) w = none →
              Triple f (chain (done.map after) none (some (headWith list item)) q (some item) *
                nodeAt item none q (after v)) (failWith (some (headWith list item)))
                (entriesOutcome p after close (rounds + 1) done w f) := fun h =>
            triple_failWith_concat (hnodes done) (hafter v) (hnone (.self h))
          dsimp only
          cases hrest : r.dropWhile isBlank with
          | nil =>
              -- The text ends inside of the list.
              rw [hrest] at hp
              exact hfail hp
          | cons c r' =>
              rw [hrest] at hp
              have hsuffix : c :: r' <:+ r := hrest ▸ List.dropWhile_suffix _
              have hr' : r' <:+ w := (List.suffix_cons c r').trans
                (hsuffix.trans (hr.trans (List.dropWhile_suffix _)))
              have hlt' : r'.length < w.length := by
                have h₁ := hsuffix.length_le
                have h₂ := (List.dropWhile_suffix (l := w) isBlank).length_le
                rw [List.length_cons] at h₁
                omega
              simp only at hp ⊢
              split_ifs at hp ⊢ with hsep hclose
              · -- A comma: one round more, with one value more.
                refine Triple.mono (ih (done ++ [v]) (w := r') (by omega)) ?_
                  (entriesOutcome_cons hp hr')
                rw [built, List.map_append]
                exact chain_mul_nodeAt_le
              · have hbuilt : chain (done.map after) none (some (headWith list item)) q
                    (some item) * nodeAt item none q (after v) ≤
                    built ((done ++ [v]).map after) (some (headWith list item, item)) := by
                  rw [built, List.map_append]
                  exact chain_mul_nodeAt_le
                exact Triple.pure (le_iSup_of_le [v] (Assn.le_fact_mul ⟨rfl, hp, hr', hlt'⟩ hbuilt))
              · exact hfail hp

/-- Values that are made of lists, with a node of its own for each item. -/
structure Collects (m : Doubles D) (kind : Kind) (after : β → Body D)
    (make : List β → CJson D) : Prop where
  kind : ∀ vs, (make vs).kind = kind
  valuestring : ∀ vs, (make vs).valuestring = none
  valueint : ∀ vs, (make vs).valueint = 0
  valuedouble : ∀ vs, (make vs).valuedouble m = m.zero
  children : ∀ vs, childBodies m (make vs) = vs.map after

theorem collects_array : Collects m .array (valueBody m none) (CJson.array (D := D)) where
  kind _ := rfl
  valuestring _ := rfl
  valueint _ := rfl
  valuedouble _ := rfl
  children items := by
    show itemBodies m items = _
    induction items with
    | nil => rfl
    | cons t items ih => rw [itemBodies, ih, List.map_cons, valueBody]

theorem collects_object :
    Collects m .object (fun v => valueBody m (some v.1) v.2) (CJson.object (D := D)) where
  kind _ := rfl
  valuestring _ := rfl
  valueint _ := rfl
  valuedouble _ := rfl
  children members := by
    show memberBodies m members = _
    induction members with
    | nil => rfl
    | cons v members ih =>
        obtain ⟨s, t⟩ := v
        rw [memberBodies, ih, List.map_cons, valueBody]

theorem Collects.fields {kind : Kind} {make : List β → CJson D} (h : Collects m kind after make)
    (vs : List β) {item : Item D} (hblank : item.Blank m) (child : Option ℕ) :
    Fields m (some (make vs)) { item with kind := kind, child := child } :=
  ⟨(h.kind vs).symm, hblank.valueint.trans (h.valueint vs).symm,
    hblank.valuedouble.trans (h.valuedouble vs).symm⟩

theorem built_nil : built ([] : List (Body D)) none = 1 :=
  (mul_one _).trans ((mul_one _).symm.trans (Assn.fact_mul_of ⟨rfl, rfl⟩ 1))

/-- A list that does not end at once. -/
theorem listIn_eq_sepBy (hp : p.Consumes) (h : (r.dropWhile isBlank).head? ≠ some close) :
    listIn isBlank ',' close p r = sepBy isBlank ',' close p (r.length + 1) r := by
  rw [sepBy_rounds hp (Nat.le_succ _), listIn]
  cases hr : r.dropWhile isBlank with
  | nil =>
      cases hlen : r.length with
      | zero => rfl
      | succ n => rw [sepBy, hr, hp.nil]
  | cons c r' =>
      have hne : c ≠ close := fun heq => h (by rw [hr, heq]; rfl)
      simp only [if_neg hne]

/-- The list becomes the value of the node. -/
theorem triple_closeList {kind : Kind} {make : List β → CJson D} (h : Collects m kind after make)
    {vs : List β} {head currentItem : ℕ} {r' : Text} {Q : Bool → Option Text → Assn (Block D)}
    (hQ : nodeAt a next prev (valueBody m name (make vs)) ≤ Q failed (some r')) :
    Triple failed
      (built (vs.map after) (some (head, currentItem)) * nodeAt a next prev (blankBody m name))
      (do
        modifyNode head fun n => { n with prev := some currentItem }
        modifyItem a fun i => { i with kind := kind, child := some head }
        pure (some r')) Q := by
  cases vs with
  | nil =>
      rw [built, List.map_nil, chain, mul_assoc]
      exact Triple.fact fun hnil => by cases hnil.1
  | cons v vs =>
      refine (gives_modifyNode_prev (some currentItem)).bind rfl ?_
      refine Triple.mono ?_ (mul_comm _ _).le fun _ _ => le_rfl
      refine (gives_modifyItem_value (t := make (v :: vs)) fun item hblank => ?_).seq
        (Triple.pure hQ)
      refine ⟨h.fields _ hblank _, rfl, ?_⟩
      rw [h.valuestring, h.children, stringAt_none]
      exact Assn.le_fact_mul hblank.valuestring (le_iSup_of_le _ le_rfl)

theorem readsInto_list {kind : Kind} {make : List β → CJson D} {entry : NodeParser D}
    (h : Collects m kind after make) (hp : p.Consumes)
    (hentry : ReadsInto m p none after entry) (hafter : ∀ v, IsNode m (after v)) :
    ReadsInto m (listIn isBlank ',' close p) name (fun vs => valueBody m name (make vs))
      (parseListTo alloc m kind close entry) := by
  intro failed a next prev r
  rw [parseListTo]
  split_ifs with hclose
  · obtain ⟨r', hr'⟩ := List.head?_eq_some_iff.1 hclose
    have hsuffix : close :: r' <:+ r := hr' ▸ List.dropWhile_suffix _
    have hnil : listIn isBlank ',' close p r = some ([], r') := by
      rw [listIn, hr']
      exact if_pos rfl
    rw [hr', List.tail_cons]
    refine (gives_modifyItem_leaf (t := make []) (h.valuestring []) (h.children [])
      fun item hblank => ?_).seq (Triple.pure (outcome_some
        (fun vs => valueBody m name (make vs)) hnil ((List.suffix_cons _ _).trans hsuffix)
        hsuffix.length_le))
    exact ⟨h.fields [] hblank none, rfl, hblank.valuestring, rfl⟩
  · have hlist := listIn_eq_sepBy hp hclose
    refine (triple_parseEntriesTo [] hentry hafter (Nat.lt_succ_self _)).bind_frame
      (R := nodeAt a next prev (blankBody m name)) ?_ fun f x => ?_
    · rw [List.map_nil, built_nil, one_mul]
    · cases x with
      | none =>
          refine Triple.pure (mul_le_mul' (Assn.fact_mono fun hnone => ?_) unread_of_blank)
          rwa [hlist]
      | some x =>
          obtain ⟨head, currentItem, r'⟩ := x
          refine Triple.iSup_mul fun vs => ?_
          rw [mul_assoc]
          refine Triple.fact ?_
          rintro ⟨rfl, hvs, hr, hlt⟩
          exact triple_closeList h
            (outcome_some (fun vs => valueBody m name (make vs)) (hlist.trans hvs) hr hlt)

end Loop

/-! ## Values -/

section Values

variable {inner : Option (Parser Char (CJson D))} {innerTo : Option (NodeParser D)}

variable (m) in
/-- A function that reads values as the parser does. -/
def ReadsValues (p : Parser Char (CJson D)) (v : NodeParser D) : Prop :=
  p.Consumes ∧ ∀ name, ReadsInto m p name (valueBody m name) v

theorem readsInto_byFirst (h : Option.Rel (ReadsValues m) inner innerTo) :
    ReadsInto m (parseByFirst m inner) name (valueBody m name)
      (parseByFirstTo alloc m innerTo) := by
  intro failed a next prev w
  match w with
  | [] => exact Triple.pure (outcome_none rfl)
  | c :: r =>
      simp only [parseByFirstTo]
      split_ifs with hquote hnumber harray hobject
      · refine Triple.mono triple_parseStringTo le_rfl
          (outcome_map parseString (valueBody m name) CJson.string ?_ (List.suffix_refl _))
        simp only [parseByFirst, if_pos hquote]
      · refine Triple.mono (readsInto_number failed a next prev _) le_rfl
          (outcome_map (parseNumber m) (valueBody m name) id ?_ (List.suffix_refl _))
        simp [parseByFirst, hquote, hnumber]
      · have harrays : ∀ {inner : Option (Parser Char (CJson D))}, parseByFirst m inner (c :: r) =
            inner.bind fun value =>
              (listIn isBlank ',' ']' value r).map fun x => (.array x.1, x.2) := by
          simp [parseByFirst, harray]
        cases h with
        | none => exact Triple.pure (outcome_none harrays)
        | some hvalue =>
            exact Triple.mono (readsInto_list collects_array hvalue.1 (hvalue.2 none)
              (isNode_valueBody none) failed a next prev r) le_rfl
              (outcome_map _ (valueBody m name) CJson.array harrays (List.suffix_cons _ _))
      · have hobjects : ∀ {inner : Option (Parser Char (CJson D))}, parseByFirst m inner (c :: r) =
            inner.bind fun value =>
              (listIn isBlank ',' '}' (parseMember value) r).map fun x => (.object x.1, x.2) := by
          simp [parseByFirst, hobject]
        cases h with
        | none => exact Triple.pure (outcome_none hobjects)
        | some hvalue =>
            exact Triple.mono (readsInto_list collects_object (parseMember_consumes hvalue.1)
              (readsInto_member fun s => hvalue.2 (some s)) (fun v => isNode_valueBody _ _)
              failed a next prev r) le_rfl
              (outcome_map _ (valueBody m name) CJson.object hobjects (List.suffix_cons _ _))
      · refine Triple.pure (outcome_none ?_)
        simp [parseByFirst, hquote, hnumber, harray, hobject]

theorem readsInto_valueWith (h : Option.Rel (ReadsValues m) inner innerTo) :
    ReadsInto m (parseValueWith m inner) name (valueBody m name)
      (parseValueToWith alloc m innerTo) := by
  have hconsumes : ∀ q ∈ inner, q.Consumes := by
    cases h with
    | none => exact fun q hq => by cases hq
    | some hvalue =>
        rintro q hq
        obtain rfl := Option.some.inj hq
        exact hvalue.1
  have hword : ∀ {w r : Text} {t : CJson D}, parseValueWith m inner w = some (t, r) →
      r.length < w.length := fun h => parseValueWith_consumes hconsumes _ _ _ h
  intro failed a next prev w
  rw [parseValueToWith]
  split_ifs with hnull hfalse htrue
  · have hp : parseValueWith m inner w = some (.null, w.drop 4) := if_pos hnull
    refine triple_parseWordTo hp rfl rfl (fun item hblank => ?_) (List.drop_suffix _ _) (hword hp)
    exact ⟨⟨rfl, hblank.valueint, hblank.valuedouble⟩, rfl, hblank.valuestring, hblank.child⟩
  · have hp : parseValueWith m inner w = some (.false, w.drop 5) := by
      rw [parseValueWith, if_neg hnull, if_pos hfalse]
    refine triple_parseWordTo hp rfl rfl (fun item hblank => ?_) (List.drop_suffix _ _) (hword hp)
    exact ⟨⟨rfl, hblank.valueint, hblank.valuedouble⟩, rfl, hblank.valuestring, hblank.child⟩
  · have hp : parseValueWith m inner w = some (.true, w.drop 4) := by
      rw [parseValueWith, if_neg hnull, if_neg hfalse, if_pos htrue]
    refine triple_parseWordTo hp rfl rfl (fun item hblank => ?_) (List.drop_suffix _ _) (hword hp)
    exact ⟨⟨rfl, rfl, hblank.valuedouble⟩, rfl, hblank.valuestring, hblank.child⟩
  · refine Triple.mono (readsInto_byFirst h failed a next prev w) le_rfl
      (outcome_map _ (valueBody m name) id ?_ (List.suffix_refl _))
    rw [parseValueWith, if_neg hnull, if_neg hfalse, if_neg htrue]
    exact (congrFun Option.map_id _).symm

theorem readsValues_parseValueTo (alloc : Allocator) (k : ℕ) :
    ReadsValues m (parseValue m k) (parseValueTo alloc m k) := by
  induction k with
  | zero => exact ⟨parseValue_consumes 0, fun name => readsInto_valueWith .none⟩
  | succ k ih => exact ⟨parseValue_consumes (k + 1), fun name => readsInto_valueWith (.some ih)⟩

end Values

/-! ## The call -/

variable (m) in
/-- What a call leaves: a tree, or nothing. -/
def parsed (w : Text) (failed f : Bool) : Option ℕ → Assn (Block D)
  | none => .fact (Unless failed f (cJSON_Parse m w = none))
  | some a => ⨆ t, .fact (f = failed ∧ cJSON_Parse m w = some t) * treeAt m a t

theorem triple_cJSON_ParseTo (alloc : Allocator) (w : Text) :
    Triple failed 1 (cJSON_ParseTo alloc m w) (parsed m w failed) := by
  refine Triple.alloc_bind (fun item => ?_) (Triple.pure fun x hx => ⟨.inr rfl, Assn.mem_one.1 hx⟩)
  rw [mul_one]
  refine Triple.mono ?_ pointsTo_newItem_le fun _ _ => le_rfl
  refine ((readsValues_parseValueTo alloc nestingLimit).2 none failed item none none _).bind
    fun f r => ?_
  cases r with
  | none =>
      refine Triple.fact fun h => Triple.iSup fun name => ?_
      have hdeletable : Deletable [blankBody m name] :=
        deletable_of_forall (m := m) fun b hb => List.mem_singleton.1 hb ▸ isNode_blankBody name
      refine Triple.mono (triple_failWith hdeletable ?_) nodeAt_le_chain fun _ _ => le_rfl
      refine fun x hx => ⟨h.mono fun hnone => ?_, Assn.mem_one.1 hx⟩
      rw [cJSON_Parse, hnone]
      rfl
  | some r =>
      refine Triple.iSup fun t => Triple.fact ?_
      rintro ⟨rfl, hsome, -, -⟩
      refine Triple.pure (le_iSup_of_le t (Assn.le_fact_mul ⟨rfl, ?_⟩ le_rfl))
      rw [cJSON_Parse, hsome]
      rfl

/-- **Parsing.**  Whatever the allocator does and whatever is in the heap: the call
returns a tree in blocks of its own, which is the tree of the text, or a null pointer
with the heap as it was, and then an allocation of its own has failed or the text is
refused. -/
theorem cJSON_ParseTo_run (alloc : Allocator) (m : Doubles D) (w : Text) {s : Heap (Block D)}
    (hs : s.failed = false) :
    ∃ p s', cJSON_ParseTo alloc m w s = .done p s' ∧ match p with
      | none => s'.cells = s.cells ∧ (s'.failed = true ∨ cJSON_Parse m w = none)
      | some a => s'.failed = false ∧ ∃ t, ∃ h ∈ treeAt m a t, h.Disjoint s.cells ∧
          s'.cells = h.union s.cells ∧ cJSON_Parse m w = some t := by
  obtain ⟨p, s', hrun, hs'⟩ := (triple_cJSON_ParseTo alloc w).run (split_one s)
  refine ⟨p, s', hrun, ?_⟩
  obtain ⟨h, hparsed, hdisjoint, hcells⟩ := hs'.cells_eq
  cases p with
  | none =>
      obtain ⟨hwhy, rfl⟩ := hparsed
      refine ⟨?_, hwhy.elim (fun h => .inr h.2) .inl⟩
      rw [hcells, Heaplet.union_comm hdisjoint, Heaplet.union_empty]
  | some a =>
      obtain ⟨t, ht⟩ := Assn.mem_iSup.1 hparsed
      obtain ⟨⟨hfailed, hsome⟩, htree⟩ := Assn.mem_fact_mul.1 ht
      exact ⟨hfailed.trans hs, t, h, htree, hdisjoint, hcells, hsome⟩

/-- A heap with one block in it. -/
def heapWithBlock : Heap (Block D) :=
  { cells := .single 0 (.bytes "kept".toList), calls := 1,
    fresh := fun _ ha => if_neg (Nat.ne_of_gt ha), failed := false }

theorem cJSON_ParseTo_run_heapWithBlock :
    ∃ p s', cJSON_ParseTo steady integers.toDoubles "\x7b\"user\":\"mario\"\x7d".toList
        heapWithBlock = .done p s' ∧
      match p with
      | none => s'.cells = Heaplet.single 0 (Block.bytes "kept".toList) ∧ (s'.failed = true ∨
          cJSON_Parse integers.toDoubles "\x7b\"user\":\"mario\"\x7d".toList = none)
      | some a => s'.failed = false ∧ ∃ t, ∃ h ∈ treeAt integers.toDoubles a t,
          h.Disjoint (Heaplet.single 0 (Block.bytes "kept".toList)) ∧
          s'.cells = h.union (Heaplet.single 0 (Block.bytes "kept".toList)) ∧
          cJSON_Parse integers.toDoubles "\x7b\"user\":\"mario\"\x7d".toList = some t :=
  cJSON_ParseTo_run steady integers.toDoubles "\x7b\"user\":\"mario\"\x7d".toList
    (s := heapWithBlock) rfl

/-- A tree is deleted. -/
theorem gives_cJSON_Delete_treeAt {t : CJson D} :
    Gives failed (treeAt m a t) (cJSON_Delete (some a)) ⟨⟩ 1 := by
  have hdeletable : Deletable [valueBody m none t] :=
    deletable_of_forall (m := m) fun b hb => List.mem_singleton.1 hb ▸ isNode_valueBody none t
  exact Triple.mono (gives_cJSON_Delete hdeletable) nodeAt_le_chain fun _ _ => le_rfl

/-- **Nothing is left.**  A tree that has been parsed and is deleted leaves the heap
as it was, whatever the text and whatever the allocator does. -/
theorem cJSON_Delete_ParseTo (alloc : Allocator) (m : Doubles D) (w : Text)
    (s : Heap (Block D)) :
    ∃ s', (cJSON_ParseTo alloc m w >>= cJSON_Delete) s = .done ⟨⟩ s' ∧ s'.cells = s.cells := by
  have htriple : Triple s.failed 1 (cJSON_ParseTo alloc m w >>= cJSON_Delete) fun _ _ => 1 := by
    refine (triple_cJSON_ParseTo alloc w).bind fun f p => ?_
    cases p with
    | none =>
        rw [cJSON_Delete_none]
        refine Triple.pure fun x hx => ?_
        exact Assn.mem_one.2 hx.2
    | some a =>
        refine Triple.iSup fun t => Triple.fact fun _ => ?_
        exact Triple.mono gives_cJSON_Delete_treeAt le_rfl fun _ _ =>
          Assn.fact_mul_le fun _ => le_rfl
  obtain ⟨v, s', hrun, hs'⟩ := htriple.run (split_one s)
  exact ⟨s', hrun, hs'.cells_of_one⟩

end PotHub.Json
