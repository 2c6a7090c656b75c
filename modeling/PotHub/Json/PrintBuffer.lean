import PotHub.Lib.Programs
import PotHub.Json.RoundTrip

/-!
# The buffer of the printer

The printing functions of `cJSON.c` as they write to memory: into a block of 256
bytes at first, which `ensure` has reallocated whenever it is too small.  Some
of them move the offset behind what they have written, others leave that to
`update_offset`, which looks for the terminator.

Every `realloc` may fail, and what a new block holds behind the bytes that have
been copied is unknown.  A write that is not inside of the block is a fault.
-/

namespace PotHub.Json

open PotHub.Lib

/-- `INT_MAX`. -/
def INT_MAX : ℕ := 2147483647

/-- What the allocator does at its calls, which are numbered. -/
structure Allocator where
  /-- The call returns a null pointer. -/
  fails : ℕ → Bool
  /-- What a new block holds. -/
  fill : ℕ → ℕ → Char

/-- A block of so many bytes, as the call finds it. -/
def Allocator.fresh (alloc : Allocator) (call size : ℕ) : Text :=
  (List.range size).map (alloc.fill call)

/-- A block behind a call of `realloc` that succeeds. -/
def Allocator.realloc (alloc : Allocator) (call : ℕ) (block : Text) (size : ℕ) : Text :=
  block.take size ++ (alloc.fresh call size).drop (block.take size).length

/-- The structure `printbuffer`, and the allocator's books. -/
structure PrintBuffer where
  /-- The block; `none` is the null pointer. -/
  buffer : Option Text
  length : ℕ
  offset : ℕ
  depth : ℕ
  /-- How many calls of the allocator there have been. -/
  calls : ℕ
  /-- Ghost: how many blocks are allocated. -/
  live : ℕ

variable (alloc : Allocator)

/-- The size that `ensure` asks for. -/
def newSize (needed : ℕ) : Option ℕ :=
  if INT_MAX / 2 < needed then if needed ≤ INT_MAX then some INT_MAX else none
  else some (needed * 2)

/-- `ensure`: where to write in the block.  The callers stop at a null pointer. -/
def ensure (needed : ℕ) : Program PrintBuffer ℕ := fun p =>
  match p.buffer with
  | none => .stopped p
  | some block =>
      if 0 < p.length ∧ p.length ≤ p.offset then .stopped p
      else if INT_MAX < needed then .stopped p
      else if needed + p.offset + 1 ≤ p.length then .done p.offset p
      else
        match newSize (needed + p.offset + 1) with
        | none => .stopped p
        | some size =>
            if alloc.fails p.calls then
              -- the block is freed
              .stopped
                { p with buffer := none, length := 0, calls := p.calls + 1, live := p.live - 1 }
            else
              .done p.offset
                { p with
                  buffer := some (alloc.realloc p.calls block size)
                  length := size
                  calls := p.calls + 1 }

/-- The block with a text written over it. -/
def overwrite (block : Text) (i : ℕ) (w : Text) : Text :=
  block.take i ++ w ++ block.drop (i + w.length)

/-- Writes one behind the other. -/
def put (i : ℕ) (w : Text) : Program PrintBuffer PUnit := fun p =>
  match p.buffer with
  | none => .fault
  | some block =>
      if i + w.length ≤ block.length then .done ⟨⟩ { p with buffer := some (overwrite block i w) }
      else .fault

/-- `update_offset`.  `strlen` has to find a terminator. -/
def updateOffset : Program PrintBuffer PUnit := fun p =>
  match p.buffer with
  | none => .done ⟨⟩ p
  | some block =>
      if '\x00' ∈ block.drop p.offset then
        .done ⟨⟩ { p with offset := p.offset + (cString (block.drop p.offset)).length }
      else .fault

/-- An assignment to the offset. -/
def advance (n : ℕ) : Program PrintBuffer PUnit :=
  Program.modify fun p => { p with offset := p.offset + n }

/-! ## Strings and numbers -/

/-- What `print_string_ptr` adds to `escape_characters`. -/
def extraCharacters : Char → ℕ
  | '"' | '\\' | '\x08' | '\x0c' | '\n' | '\r' | '\t' => 1
  | c => if c.toNat < 32 then 5 else 0

/-- `escape_characters`, behind the counting loop of `print_string_ptr`. -/
def escapeCharacters : Text → ℕ
  | [] => 0
  | c :: input => extraCharacters c + escapeCharacters input

/-- What the copying loop of `print_string_ptr` writes behind a backslash.
`sprintf` writes a terminator as well, and the pointer stops in front of it. -/
def escaped : Char → Text
  | '\\' => ['\\']
  | '"' => ['"']
  | '\x08' => ['b']
  | '\x0c' => ['f']
  | '\n' => ['n']
  | '\r' => ['r']
  | '\t' => ['t']
  | c => 'u' :: (hex4 c.toNat ++ ['\x00'])

/-- The copying loop of `print_string_ptr`. -/
def copyEscaped : ℕ → Text → Program PrintBuffer PUnit
  | _, [] => pure ⟨⟩
  | i, c :: input =>
      if 31 < c.toNat ∧ c ≠ '"' ∧ c ≠ '\\' then do
        put i [c]
        copyEscaped (i + 1) input
      else do
        put i ['\\']
        put (i + 1) (escaped c)
        copyEscaped (i + (escape c).length) input

/-- `print_string_ptr`, for a string that is there. -/
def printStringTo (input : Text) : Program PrintBuffer PUnit := do
  let outputLength := input.length + escapeCharacters input
  let output ← ensure alloc (outputLength + 3)
  if escapeCharacters input = 0 then
    put output ['"']
    put (output + 1) input
    put (output + outputLength + 1) ['"', '\x00']
  else
    put output ['"']
    copyEscaped (output + 1) input
    put (output + outputLength + 1) ['"', '\x00']

variable {D : Type} (m : Printf D)

/-- `print_number`.  Behind an overrun of `number_buffer` its check comes too
late. -/
def printNumberTo (d : D) (valueint : Int) : Program PrintBuffer PUnit :=
  let w := numberText m d valueint
  if numberTextSize - 1 < w.length then Program.fault
  else do
    let output ← ensure alloc (w.length + 1)
    put output (w ++ ['\x00'])
    advance w.length

/-- One of the three words. -/
def printWordTo (w : Text) : Program PrintBuffer PUnit := do
  let output ← ensure alloc (w.length + 1)
  put output (w ++ ['\x00'])

/-! ## Values -/

/-- `depth++`. -/
def enter : Program PrintBuffer PUnit :=
  Program.modify fun p => { p with depth := p.depth + 1 }

/-- `depth--`. -/
def leave : Program PrintBuffer PUnit :=
  Program.modify fun p => { p with depth := p.depth - 1 }

/-- Punctuation that goes on without a terminator. -/
def printPunctuation (needed : ℕ) (w : Text) : Program PrintBuffer PUnit := do
  let output ← ensure alloc needed
  put output w
  advance w.length

/-- Punctuation with a terminator behind it. -/
def printTerminated (w : Text) : Program PrintBuffer PUnit := do
  let output ← ensure alloc (w.length + 1)
  put output (w ++ ['\x00'])
  advance w.length

/-- The comma behind an item of an array that is not the last. -/
def printComma (format last : Bool) : Program PrintBuffer PUnit :=
  if last then pure ⟨⟩ else printTerminated alloc (',' :: ifFormat format [' '])

/-- The tabs in front of a member. -/
def printTabs (format : Bool) : Program PrintBuffer PUnit := do
  if format then
    let p ← Program.get
    printPunctuation alloc p.depth (tabs p.depth)

/-- The last bracket of an array. -/
def closeArray : Program PrintBuffer PUnit := do
  let output ← ensure alloc 2
  put output [']', '\x00']
  leave

/-- The last brace of an object. -/
def closeObject (format : Bool) : Program PrintBuffer PUnit := do
  let p ← Program.get
  let output ← ensure alloc (if format then p.depth + 1 else 2)
  put output (ifFormat format (tabs (p.depth - 1)) ++ ['}', '\x00'])
  leave

mutual

/-- `print_value`. -/
def printValueTo (format : Bool) : CJson D → Program PrintBuffer PUnit
  | .null => printWordTo alloc "null".toList
  | .false => printWordTo alloc "false".toList
  | .true => printWordTo alloc "true".toList
  | .number d n => printNumberTo alloc m d n
  | .string s => printStringTo alloc s
  | .array items => do
      printPunctuation alloc 1 ['[']
      enter
      printItemsTo format items
      closeArray alloc
  | .object members => do
      printPunctuation alloc (if format then 3 else 2) ('{' :: ifFormat format ['\n'])
      enter
      printMembersTo format members
      closeObject alloc format

/-- The loop of `print_array`. -/
def printItemsTo (format : Bool) : List (CJson D) → Program PrintBuffer PUnit
  | [] => pure ⟨⟩
  | item :: items => do
      printValueTo format item
      updateOffset
      printComma alloc format items.isEmpty
      printItemsTo format items

/-- The loop of `print_object`. -/
def printMembersTo (format : Bool) : List (Text × CJson D) → Program PrintBuffer PUnit
  | [] => pure ⟨⟩
  | (name, value) :: members => do
      printTabs alloc format
      printStringTo alloc name
      updateOffset
      printPunctuation alloc (if format then 2 else 1) (':' :: ifFormat format ['\t'])
      printValueTo format value
      updateOffset
      printTerminated alloc ((if members.isEmpty then [] else [',']) ++ ifFormat format ['\n'])
      printMembersTo format members

end

/-- The size of the first block. -/
def defaultBufferSize : ℕ := 256

/-- What the function `print` starts with, when its first allocation succeeds. -/
def firstBuffer : PrintBuffer :=
  { buffer := some (alloc.fresh 0 defaultBufferSize), length := defaultBufferSize, offset := 0
    depth := 0, calls := 1, live := 1 }

/-- What a call leaves: the pointer that is returned, how many blocks are allocated
behind the call, and how often the allocator has been called. -/
structure Printed where
  printed : Option Text
  live : ℕ
  calls : ℕ
deriving DecidableEq

/-- The function `print`; `none` is a fault. -/
def print (format : Bool) (item : CJson D) : Option Printed :=
  if alloc.fails 0 then some ⟨none, 0, 1⟩
  else
    let text : Program PrintBuffer PUnit := do
      printValueTo alloc m format item
      updateOffset
    match text (firstBuffer alloc) with
    | .fault => none
    | .stopped p => some ⟨none, if p.buffer.isSome then p.live - 1 else p.live, p.calls⟩
    | .done _ p =>
        match p.buffer with
        | none => none
        | some block =>
            if alloc.fails p.calls then some ⟨none, p.live - 1, p.calls + 1⟩
            else some ⟨some (alloc.realloc p.calls block (p.offset + 1)), p.live, p.calls + 1⟩

/-! ## Writing -/

/-- The buffer is a block with these bytes. -/
structure Holds (block : Text) (p : PrintBuffer) : Prop where
  buffer : p.buffer = some block
  length : p.length = block.length
  le : p.length ≤ INT_MAX
  live : p.live = 1

/-- The text so far, and behind the offset what has been written since, with
room for so many bytes. -/
structure Written (front w : Text) (room depth : ℕ) (p : PrintBuffer) : Prop where
  offset : p.offset = front.length
  depth : p.depth = depth
  holds : ∃ rest, room ≤ rest.length ∧ Holds (front ++ w ++ rest) p

/-- A program has stopped for lack of memory, and freed the block; or because
there would have been too many bytes, with the block as it was. -/
def Stopped (bound : ℕ) (p : PrintBuffer) : Prop :=
  (p.buffer = none ∧ p.live = 0 ∧ ∃ call < p.calls, alloc.fails call = true) ∨
    (p.buffer.isSome = true ∧ p.live = 1 ∧ INT_MAX < bound)

variable {alloc} {front w v : Text} {room depth n k : ℕ} {p : PrintBuffer}

theorem Stopped.mono (h : Stopped alloc n p) (hle : n ≤ k) : Stopped alloc k p :=
  h.imp_right fun ⟨hsome, hlive, hlt⟩ => ⟨hsome, hlive, Nat.lt_of_lt_of_le hlt hle⟩

theorem length_fresh (alloc : Allocator) (call size : ℕ) :
    (alloc.fresh call size).length = size := by
  simp [Allocator.fresh]

theorem length_realloc (alloc : Allocator) (call size : ℕ) (block : Text) :
    (alloc.realloc call block size).length = size := by
  simp only [Allocator.realloc, List.length_append, List.length_drop, length_fresh,
    List.length_take]
  omega

/-- What is in front of the offset survives a reallocation. -/
theorem exists_realloc (alloc : Allocator) (call : ℕ) (rest : Text) {size : ℕ}
    (hsize : front.length ≤ size) :
    ∃ rest', alloc.realloc call (front ++ rest) size = front ++ rest' ∧
      rest'.length = size - front.length := by
  have hlen := length_realloc alloc call size (front ++ rest)
  have hfront : front <+: alloc.realloc call (front ++ rest) size := by
    rw [Allocator.realloc, List.take_append, List.take_of_length_le hsize, List.append_assoc]
    exact List.prefix_append ..
  obtain ⟨rest', hrest⟩ := hfront
  refine ⟨rest', hrest.symm, ?_⟩
  rw [← hrest, List.length_append] at hlen
  omega

theorem newSize_eq_some {size : ℕ} (h : newSize n = some size) : n ≤ size ∧ size ≤ INT_MAX := by
  unfold newSize at h
  split_ifs at h with hhalf hle
  · obtain rfl := Option.some.inj h
    exact ⟨hle, le_rfl⟩
  · obtain rfl := Option.some.inj h
    simp only [INT_MAX] at hhalf ⊢
    omega

theorem newSize_eq_none (h : newSize n = none) : INT_MAX < n := by
  unfold newSize at h
  split_ifs at h with hhalf hle
  exact Nat.not_le.1 hle

/-- `ensure` makes room for one byte more than it has been asked for. -/
theorem ensure_spec (needed : ℕ) : Program.Triple (Written front [] 1 depth) (ensure alloc needed)
    (fun i p => i = front.length ∧ Written front [] (needed + 1) depth p)
    (Stopped alloc (front.length + needed + 1)) := by
  intro p hp
  obtain ⟨rest, hroom, hholds⟩ := hp.holds
  have hlen := hholds.length
  simp only [List.append_nil, List.length_append] at hlen
  have hoffset := hp.offset
  simp only [ensure, hholds.buffer]
  rw [if_neg (by omega)]
  by_cases hmax : INT_MAX < needed
  · rw [if_pos hmax]
    exact .inr ⟨by rw [hholds.buffer]; rfl, hholds.live, by omega⟩
  by_cases hfits : needed + p.offset + 1 ≤ p.length
  · rw [if_neg hmax, if_pos hfits]
    exact ⟨hp.offset, hp.offset, hp.depth, rest, by omega, hholds⟩
  rw [if_neg hmax, if_neg hfits]
  cases hsize : newSize (needed + p.offset + 1) with
  | none =>
      have := newSize_eq_none hsize
      exact .inr ⟨by rw [hholds.buffer]; rfl, hholds.live, by omega⟩
  | some size =>
      obtain ⟨hle, hmax⟩ := newSize_eq_some hsize
      by_cases hfails : alloc.fails p.calls = true
      · simp only [if_pos hfails]
        exact .inl ⟨rfl, by simp [hholds.live], p.calls, Nat.lt_succ_self _, hfails⟩
      · simp only [if_neg hfails]
        obtain ⟨rest', hrest, hlen'⟩ := exists_realloc alloc p.calls rest
          (show front.length ≤ size by omega)
        refine ⟨hp.offset, hp.offset, hp.depth, rest', by omega, ⟨?_, ?_, hmax, hholds.live⟩⟩
        · simp only [List.append_nil, hrest]
        · simp only [List.append_nil, List.length_append]
          omega

theorem overwrite_append (x rest : Text) :
    overwrite (x ++ rest) x.length v = x ++ v ++ rest.drop v.length := by
  rw [overwrite, List.take_left, List.drop_append, List.drop_of_length_le (by omega),
    List.nil_append, Nat.add_sub_cancel_left]

theorem put_spec {i : ℕ} {R : PrintBuffer → Prop} (hi : i = (front ++ w).length)
    (hroom : v.length + k ≤ room) :
    Program.Triple (Written front w room depth) (put i v)
      (fun _ p => Written front (w ++ v) k depth p) R := by
  intro p hp
  obtain ⟨rest, hrest, hholds⟩ := hp.holds
  have hfits : i + v.length ≤ (front ++ w ++ rest).length := by
    rw [List.length_append, hi]
    omega
  simp only [put, hholds.buffer, if_pos hfits]
  refine ⟨hp.offset, hp.depth, rest.drop v.length, by rw [List.length_drop]; omega, ?_, ?_,
    hholds.le, hholds.live⟩
  · simp only [hi, overwrite_append]
    rw [← List.append_assoc front]
  · have := hholds.length
    simp only [List.length_append, List.length_drop] at this ⊢
    omega

/-- What has been written last may be overwritten. -/
theorem Written.forget (h : Written front (w ++ v) room depth p) :
    Written front w (v.length + room) depth p := by
  obtain ⟨rest, hrest, hholds⟩ := h.holds
  refine ⟨h.offset, h.depth, v ++ rest, by rw [List.length_append]; omega, ?_⟩
  rwa [← List.append_assoc, List.append_assoc front]

theorem advance_spec {R : PrintBuffer → Prop} (hn : n = w.length) :
    Program.Triple (Written front w room depth) (advance n)
      (fun _ p => Written (front ++ w) [] room depth p) R := by
  refine .modify fun p hp => ?_
  obtain ⟨rest, hrest, hholds⟩ := hp.holds
  refine ⟨?_, hp.depth, rest, hrest, ?_⟩
  · simp [hp.offset, hn]
  · rw [List.append_nil]
    exact ⟨hholds.buffer, hholds.length, hholds.le, hholds.live⟩

theorem Written.mono (h : Written front w room depth p) (hle : k ≤ room) :
    Written front w k depth p := by
  obtain ⟨rest, hrest, hholds⟩ := h.holds
  exact ⟨h.offset, h.depth, rest, Nat.le_trans hle hrest, hholds⟩

/-- A value has been written with a terminator, and the offset is somewhere in
it. -/
structure Behind (front w : Text) (depth : ℕ) (p : PrintBuffer) : Prop where
  offset_ge : front.length ≤ p.offset
  offset_le : p.offset ≤ (front ++ w).length
  depth : p.depth = depth
  holds : ∃ rest, 1 ≤ rest.length ∧ Holds (front ++ w ++ '\x00' :: rest) p

theorem Written.behind (h : Written front (w ++ ['\x00']) 1 depth p) : Behind front w depth p := by
  obtain ⟨rest, hrest, hholds⟩ := h.holds
  refine ⟨h.offset.ge, ?_, h.depth, rest, hrest, ?_⟩
  · rw [h.offset, List.length_append]
    omega
  · simpa [List.append_assoc] using hholds

/-- The terminator is where the text ends. -/
theorem updateOffset_run (hw : '\x00' ∉ w) (hp : Behind front w depth p) :
    updateOffset p = .done ⟨⟩ { p with offset := (front ++ w).length } := by
  obtain ⟨rest, hrest, hholds⟩ := hp.holds
  obtain ⟨j, hj⟩ := Nat.exists_eq_add_of_le hp.offset_ge
  have hle := hp.offset_le
  rw [List.length_append] at hle
  have hdrop : (front ++ w ++ '\x00' :: rest).drop p.offset = w.drop j ++ '\x00' :: rest := by
    rw [hj, List.append_assoc, List.drop_append, List.drop_of_length_le (by omega),
      List.nil_append, Nat.add_sub_cancel_left, List.drop_append_of_le_length (by omega)]
  have hzero : '\x00' ∉ w.drop j := fun h => hw (List.mem_of_mem_drop h)
  have hlen : p.offset + (cString (w.drop j ++ '\x00' :: rest)).length = (front ++ w).length := by
    rw [cString_append_of_not_mem hzero]
    simp [cString]
    omega
  simp only [updateOffset, hholds.buffer, hdrop, hlen]
  exact if_pos (by simp)

theorem updateOffset_spec {R : PrintBuffer → Prop} (hw : '\x00' ∉ w) :
    Program.Triple (Behind front w depth) updateOffset
      (fun _ p => Written (front ++ w) [] 1 depth p) R := by
  intro p hp
  rw [updateOffset_run hw hp]
  obtain ⟨rest, hrest, hholds⟩ := hp.holds
  refine ⟨rfl, hp.depth, '\x00' :: rest, by simp, ?_⟩
  rw [List.append_nil]
  exact ⟨hholds.buffer, hholds.length, hholds.le, hholds.live⟩

/-! ## Pieces -/

variable (alloc)

/-- The program writes the text and goes behind it. -/
def Moves (x : Program PrintBuffer PUnit) (depth depth' : ℕ) (w : Text) : Prop :=
  ∀ front, Program.Triple (Written front [] 1 depth) x
    (fun _ p => Written (front ++ w) [] 1 depth' p) (Stopped alloc ((front ++ w).length + 2))

/-- The program writes the text and a terminator. -/
def Prints (x : Program PrintBuffer PUnit) (depth depth' : ℕ) (w : Text) : Prop :=
  ∀ front, Program.Triple (Written front [] 1 depth) x
    (fun _ p => Behind front w depth' p) (Stopped alloc ((front ++ w).length + 2))

variable {alloc} {x y : Program PrintBuffer PUnit} {depth' depth'' : ℕ}

theorem Moves.bind (hx : Moves alloc x depth depth' w) (hy : Moves alloc y depth' depth'' v) :
    Moves alloc (x >>= fun _ => y) depth depth'' (w ++ v) := by
  intro front
  refine ((hx front).weaken fun p h => h.mono ?_).bind fun _ => ?_
  · simp only [List.length_append]
    omega
  · rw [← List.append_assoc]
    exact hy _

theorem Moves.bind_prints (hx : Moves alloc x depth depth' w)
    (hy : Prints alloc y depth' depth'' v) :
    Prints alloc (x >>= fun _ => y) depth depth'' (w ++ v) := by
  intro front
  refine ((hx front).weaken fun p h => h.mono ?_).bind fun _ => ?_
  · simp only [List.length_append]
    omega
  · refine ((hy (front ++ w)).mono (fun _ h => h) (fun _ p h => ?_) fun p h => ?_)
    · obtain ⟨hge, hle, hdepth, rest, hrest, hholds⟩ := h
      rw [List.length_append] at hge
      rw [List.append_assoc front] at hle hholds
      exact ⟨by omega, hle, hdepth, rest, hrest, hholds⟩
    · rwa [← List.append_assoc]

/-- A value, and what comes behind it. -/
theorem Prints.bind (hx : Prints alloc x depth depth' w) (hw : '\x00' ∉ w)
    (hy : Moves alloc y depth' depth'' v) :
    Moves alloc (x >>= fun _ => updateOffset >>= fun _ => y) depth depth'' (w ++ v) := by
  intro front
  refine ((hx front).weaken fun p h => h.mono ?_).bind fun _ => ?_
  · simp only [List.length_append]
    omega
  · refine (updateOffset_spec hw).bind fun _ => ?_
    rw [← List.append_assoc]
    exact hy _

theorem moves_pure : Moves alloc (pure ⟨⟩) depth depth [] := by
  intro front
  rw [List.append_nil]
  exact .pure fun _ h => h

theorem moves_enter : Moves alloc enter depth (depth + 1) [] := by
  intro front
  refine .modify fun p h => ?_
  obtain ⟨rest, hrest, hholds⟩ := h.holds
  refine ⟨?_, by rw [← h.depth], rest, hrest, ?_⟩
  · simp [h.offset]
  · rw [List.append_nil]
    exact ⟨hholds.buffer, hholds.length, hholds.le, hholds.live⟩

theorem moves_punctuation {needed : ℕ} (hle : w.length ≤ needed) (hneeded : needed ≤ w.length + 1) :
    Moves alloc (printPunctuation alloc needed w) depth depth w := by
  intro front
  refine ((ensure_spec needed).weaken fun p h => h.mono ?_).bind fun i => .fact ?_
  · rw [List.length_append]
    omega
  · rintro rfl
    refine (put_spec (k := 1) (by simp) (by omega)).bind fun _ => ?_
    rw [List.nil_append]
    exact advance_spec rfl

theorem moves_terminated : Moves alloc (printTerminated alloc w) depth depth w := by
  intro front
  refine ((ensure_spec (w.length + 1)).weaken fun p h => h.mono ?_).bind fun i => .fact ?_
  · rw [List.length_append]
    omega
  · rintro rfl
    refine (put_spec (k := 1) (by simp) (by simp)).bind fun _ => ?_
    rw [List.nil_append]
    exact (advance_spec rfl).mono (fun p h => h.forget) (fun _ p h => h.mono (by omega))
      fun _ h => h

theorem prints_word : Prints alloc (printWordTo alloc w) depth depth w := by
  intro front
  refine ((ensure_spec (w.length + 1)).weaken fun p h => h.mono ?_).bind fun i => .fact ?_
  · rw [List.length_append]
    omega
  · rintro rfl
    exact (put_spec (k := 1) (by simp) (by simp)).mono (fun _ h => h) (fun _ p h => h.behind)
      fun _ h => h

/-! ## Strings -/

/-- The sizes that are counted first are those that are written then. -/
theorem length_escape (c : Char) : (escape c).length = 1 + extraCharacters c := by
  unfold escape
  split
  case h_8 hquote hback hb hf hn hr ht =>
    rw [extraCharacters]
    · split_ifs <;> simp [hex4]
    all_goals assumption
  all_goals rfl

theorem length_flatMap_escape (input : Text) :
    (input.flatMap escape).length = input.length + escapeCharacters input := by
  induction input with
  | nil => rfl
  | cons c input ih =>
      rw [List.flatMap_cons, List.length_append, length_escape, ih, escapeCharacters,
        List.length_cons]
      omega

theorem escape_of_visible {c : Char} (h : 31 < c.toNat ∧ c ≠ '"' ∧ c ≠ '\\') : escape c = [c] := by
  unfold escape
  split
  case h_8 => exact if_neg (by omega)
  all_goals simp_all

/-- Behind the backslash the code writes the rest of the escape sequence, and at
most a terminator that does not stay. -/
theorem exists_escaped {c : Char} (h : ¬ (31 < c.toNat ∧ c ≠ '"' ∧ c ≠ '\\')) :
    ∃ z, ['\\'] ++ escaped c = escape c ++ z ∧ z.length ≤ 1 := by
  unfold escape
  split
  case h_8 hquote hback hb hf hn hr ht =>
    have hlow : c.toNat < 32 := by
      by_contra hge
      exact h ⟨by omega, hquote, hback⟩
    refine ⟨['\x00'], ?_, by simp⟩
    rw [if_pos hlow, escaped]
    · simp
    all_goals assumption
  all_goals exact ⟨[], rfl, by simp⟩

theorem escape_of_extraCharacters {c : Char} (h : extraCharacters c = 0) : escape c = [c] := by
  have hlen := length_escape c
  rw [h] at hlen
  revert hlen
  unfold escape
  split
  case h_8 => split_ifs <;> simp [hex4]
  all_goals simp

theorem flatMap_escape_of_zero {input : Text} (h : escapeCharacters input = 0) :
    input.flatMap escape = input := by
  induction input with
  | nil => rfl
  | cons c input ih =>
      rw [escapeCharacters, Nat.add_eq_zero_iff] at h
      rw [List.flatMap_cons, escape_of_extraCharacters h.1, ih h.2, List.singleton_append]

theorem copyEscaped_spec {R : PrintBuffer → Prop} {input : Text} {i : ℕ}
    (hi : i = (front ++ w).length) : Program.Triple
      (Written front w ((input.flatMap escape).length + (k + 1)) depth) (copyEscaped i input)
      (fun _ p => Written front (w ++ input.flatMap escape) (k + 1) depth p) R := by
  induction input generalizing w i with
  | nil =>
      refine .pure fun p h => ?_
      simpa using h
  | cons c input ih =>
      rw [copyEscaped, List.flatMap_cons, List.length_append, ← List.append_assoc]
      split_ifs with hvisible
      · rw [escape_of_visible hvisible]
        refine (put_spec (k := (input.flatMap escape).length + (k + 1)) hi (by simp; omega)).bind
          fun _ => ih ?_
        simp only [hi, List.length_append, List.length_singleton, Nat.add_assoc]
      · -- the escape sequence, with a terminator behind it that is written over
        obtain ⟨z, hz, hzlen⟩ := exists_escaped hvisible
        have hzlen' : (escaped c).length + 1 = (escape c).length + z.length := by
          rw [← List.length_append, ← hz]
          simp [Nat.add_comm]
        let j := (input.flatMap escape).length + (k + 1) - z.length
        refine (put_spec (k := (escaped c).length + j) hi (by simp [j]; omega)).bind fun _ => ?_
        refine (put_spec (k := j) (by simp [hi]; omega) le_rfl).bind fun _ => ?_
        refine (ih (w := w ++ escape c) ?_).mono (fun p h => ?_) (fun _ _ h => h) fun _ h => h
        · simp only [hi, List.length_append, Nat.add_assoc]
        · rw [List.append_assoc, hz, ← List.append_assoc] at h
          exact h.forget.mono (by omega)

theorem prints_string (s : Text) :
    Prints alloc (printStringTo alloc s) depth depth (printString s) := by
  have hlen := length_flatMap_escape s
  have htext : ['"'] ++ s.flatMap escape ++ ['"', '\x00'] = printString s ++ ['\x00'] := by
    simp [printString]
  intro front
  refine ((ensure_spec _).weaken fun p h => h.mono ?_).bind fun i => .fact ?_
  · simp only [printString, List.length_append, List.length_cons, List.length_nil]
    omega
  · rintro rfl
    split_ifs with hsum
    · -- Nothing to escape: the text is copied at once.
      have hplain := flatMap_escape_of_zero hsum
      rw [hplain] at hlen htext
      refine (put_spec (v := ['"']) (k := s.length + 3) (by simp) (by simp; omega)).bind fun _ => ?_
      refine (put_spec (v := s) (k := 3) (by simp) le_rfl).bind fun _ => ?_
      refine (put_spec (k := 1) (by simp; omega) le_rfl).mono (fun _ h => h)
        (fun _ p h => ?_) fun _ h => h
      rw [List.nil_append, htext] at h
      exact h.behind
    · refine (put_spec (v := ['"']) (k := (s.flatMap escape).length + 3) (by simp)
        (by rw [hlen, List.length_singleton]; omega)).bind fun _ => ?_
      refine (copyEscaped_spec (k := 2) (by simp)).bind fun _ => ?_
      have hend : front.length + (s.length + escapeCharacters s) + 1 =
          (front ++ ([] ++ ['"'] ++ s.flatMap escape)).length := by
        simp only [List.length_append, List.length_nil, List.length_singleton]
        omega
      refine (put_spec (k := 1) hend le_rfl).mono (fun _ h => h) (fun _ p h => ?_) fun _ h => h
      rw [List.nil_append, htext] at h
      exact h.behind

variable {D : Type} {m : Printf D} {format : Bool}

theorem advance_behind {R : PrintBuffer → Prop} :
    Program.Triple (Written front (w ++ ['\x00']) 1 depth) (advance w.length)
      (fun _ p => Behind front w depth p) R := by
  refine .modify fun p h => ?_
  obtain ⟨rest, hrest, hholds⟩ := h.holds
  refine ⟨?_, ?_, h.depth, rest, hrest, ?_⟩
  · show front.length ≤ p.offset + w.length
    rw [h.offset]
    omega
  · show p.offset + w.length ≤ _
    rw [h.offset, List.length_append]
  · rw [← List.append_assoc, List.append_assoc _ ['\x00']] at hholds
    exact ⟨hholds.buffer, hholds.length, hholds.le, hholds.live⟩

theorem prints_number {d : D} {n : Int} (hw : printNumber m d n = some w) :
    Prints alloc (printNumberTo alloc m d n) depth depth w := by
  rw [printNumber] at hw
  split_ifs at hw with hfits
  obtain rfl := Option.some.inj hw
  intro front
  rw [printNumberTo, if_neg hfits]
  refine ((ensure_spec _).weaken fun p h => h.mono ?_).bind fun i => .fact ?_
  · rw [List.length_append]
    omega
  · rintro rfl
    exact (put_spec (k := 1) (by simp) (by simp)).bind fun _ => advance_behind

/-! ## Arrays and objects -/

theorem moves_tabs :
    Moves alloc (printTabs alloc format) depth depth (ifFormat format (tabs depth)) := by
  cases format with
  | false => exact moves_pure
  | true =>
      intro front
      refine Program.Triple.bind (Q := fun q p => q.depth = depth ∧ Written front [] 1 depth p)
        (.get fun p h => ⟨h.depth, h⟩) fun q => .fact fun hq => ?_
      rw [hq]
      exact moves_punctuation (by simp [tabs]) (by simp [tabs]) front

/-- The depth goes back. -/
theorem leave_behind {R : PrintBuffer → Prop} :
    Program.Triple (Behind front w (depth + 1)) leave (fun _ p => Behind front w depth p) R := by
  refine .modify fun p h => ?_
  obtain ⟨rest, hrest, hholds⟩ := h.holds
  refine ⟨h.offset_ge, h.offset_le, ?_, rest, hrest, hholds.buffer, hholds.length, hholds.le,
    hholds.live⟩
  simp [h.depth]

theorem prints_closeArray : Prints alloc (closeArray alloc) (depth + 1) depth [']'] := by
  intro front
  refine ((ensure_spec 2).weaken fun p h => h.mono ?_).bind fun i => .fact ?_
  · simp
  · rintro rfl
    refine Program.Triple.bind (Q := fun _ => Behind front [']'] (depth + 1)) ?_
      fun _ => leave_behind
    exact (put_spec (k := 1) (by simp) (by simp)).mono (fun _ h => h)
      (fun _ p h => Written.behind h) fun _ h => h

theorem prints_closeObject : Prints alloc (closeObject alloc format) (depth + 1) depth
    (ifFormat format (tabs depth) ++ ['}']) := by
  intro front
  refine Program.Triple.bind
    (Q := fun q p => q.depth = depth + 1 ∧ Written front [] 1 (depth + 1) p)
    (.get fun p h => ⟨h.depth, h⟩) fun q => .fact fun hq => ?_
  rw [hq, Nat.add_sub_cancel]
  have hsize :
      (if format then depth + 1 + 1 else 2) = (ifFormat format (tabs depth)).length + 2 := by
    cases format <;> simp [ifFormat, tabs]
  rw [hsize]
  refine ((ensure_spec _).weaken fun p h => h.mono ?_).bind fun i => .fact ?_
  · simp only [List.length_append, List.length_singleton]
    omega
  · rintro rfl
    refine Program.Triple.bind (Q := fun _ => Behind front
      (ifFormat format (tabs depth) ++ ['}']) (depth + 1)) ?_ fun _ => leave_behind
    refine (put_spec (k := 1) (by simp) (by simp)).mono (fun _ h => h) (fun _ p h => ?_)
      fun _ h => h
    rw [List.nil_append] at h
    exact Written.behind (by simpa using h)

theorem moves_comma (last : Bool) : Moves alloc (printComma alloc format last) depth depth
    (if last then [] else ',' :: ifFormat format [' ']) := by
  cases last with
  | true => exact moves_pure
  | false => exact moves_terminated

/-- The printed text of a value has no terminator inside. -/
theorem zero_not_mem_of_printValue (hm : m.Lawful) {t : CJson D}
    (hw : printValue m format depth t = some w) : '\x00' ∉ w := fun h => by
  have := visible_printValue hm t depth w hw _ h
  revert this
  cases format <;> decide

theorem zero_not_mem_printString (s : Text) : '\x00' ∉ printString s := fun h => by
  have hvisible : Visible true '\x00' := visible_printString s _ h
  revert hvisible
  decide

theorem moves_items (hm : m.Lawful) {items : List (CJson D)}
    (h : ∀ t ∈ items, ∀ depth w, printValue m format depth t = some w →
      Prints alloc (printValueTo alloc m format t) depth depth w)
    (hw : printItems m format depth items = some w) :
    Moves alloc (printItemsTo alloc m format items) depth depth w := by
  induction items generalizing w with
  | nil =>
      obtain rfl := Option.some.inj hw
      exact moves_pure
  | cons item items ih =>
      obtain ⟨hitem, hitems⟩ := List.forall_mem_cons.1 h
      simp only [printItems, Option.bind_eq_bind, Option.bind_eq_some_iff, Option.pure_def,
        Option.some.injEq] at hw
      obtain ⟨first, hfirst, rest, hrest, rfl⟩ := hw
      rw [printItemsTo, List.append_assoc]
      exact (hitem _ _ hfirst).bind (zero_not_mem_of_printValue hm hfirst)
        ((moves_comma _).bind (ih hitems hrest))

theorem moves_members (hm : m.Lawful) {members : List (Text × CJson D)}
    (h : ∀ p ∈ members, ∀ depth w, printValue m format depth p.2 = some w →
      Prints alloc (printValueTo alloc m format p.2) depth depth w)
    (hw : printMembers m format depth members = some w) :
    Moves alloc (printMembersTo alloc m format members) depth depth w := by
  induction members generalizing w with
  | nil =>
      obtain rfl := Option.some.inj hw
      exact moves_pure
  | cons p members ih =>
      obtain ⟨name, value⟩ := p
      obtain ⟨hvalue, hmembers⟩ := List.forall_mem_cons.1 h
      simp only [printMembers, Option.bind_eq_bind, Option.bind_eq_some_iff, Option.pure_def,
        Option.some.injEq] at hw
      obtain ⟨first, hfirst, rest, hrest, rfl⟩ := hw
      have hcolon : Moves alloc (printPunctuation alloc (if format then 2 else 1)
          (':' :: ifFormat format ['\t'])) depth depth (':' :: ifFormat format ['\t']) := by
        refine moves_punctuation ?_ ?_ <;> cases format <;> simp [ifFormat]
      have hend : Moves alloc (printTerminated alloc
          ((if members.isEmpty then [] else [',']) ++ ifFormat format ['\n'])) depth depth
          ((if members.isEmpty then [] else [',']) ++ ifFormat format ['\n']) := moves_terminated
      rw [printMembersTo]
      simp only [List.append_assoc]
      refine moves_tabs.bind ((prints_string name).bind (zero_not_mem_printString name)
        (hcolon.bind ((hvalue _ _ hfirst).bind (zero_not_mem_of_printValue hm hfirst) ?_)))
      rw [← List.append_assoc]
      exact hend.bind (ih hmembers hrest)

/-- **The text in memory.**  Every tree that can be printed is written to the
buffer as its text. -/
theorem prints_value (alloc : Allocator) (hm : m.Lawful) (t : CJson D) (depth : ℕ) (w : Text)
    (hw : printValue m format depth t = some w) :
    Prints alloc (printValueTo alloc m format t) depth depth w := by
  induction t using CJson.induct generalizing depth w with
  | null =>
      obtain rfl := Option.some.inj hw
      exact prints_word
  | false =>
      obtain rfl := Option.some.inj hw
      exact prints_word
  | true =>
      obtain rfl := Option.some.inj hw
      exact prints_word
  | number d n => exact prints_number hw
  | string s =>
      obtain rfl := Option.some.inj hw
      exact prints_string s
  | array items ih =>
      rw [printValue] at hw
      obtain ⟨x, hx, rfl⟩ := Option.map_eq_some_iff.1 hw
      have hbracket : Moves alloc (printPunctuation alloc 1 ['[']) depth depth ['['] :=
        moves_punctuation (by simp) (by simp)
      exact hbracket.bind_prints (moves_enter.bind_prints
        ((moves_items hm ih hx).bind_prints prints_closeArray))
  | object members ih =>
      rw [printValue] at hw
      obtain ⟨x, hx, rfl⟩ := Option.map_eq_some_iff.1 hw
      have hbrace : Moves alloc (printPunctuation alloc (if format then 3 else 2)
          ('{' :: ifFormat format ['\n'])) depth depth ('{' :: ifFormat format ['\n']) := by
        refine moves_punctuation ?_ ?_ <;> cases format <;> simp [ifFormat]
      have htext : '{' :: (ifFormat format ['\n'] ++ x ++ ifFormat format (tabs depth) ++ ['}']) =
          '{' :: ifFormat format ['\n'] ++
            ([] ++ (x ++ (ifFormat format (tabs depth) ++ ['}']))) := by
        simp
      rw [printValueTo, htext]
      exact hbrace.bind_prints (moves_enter.bind_prints
        ((moves_members hm ih hx).bind_prints prints_closeObject))

/-! ## The call -/

/-- The first block, with nothing in it. -/
theorem written_firstBuffer (alloc : Allocator) : Written [] [] 1 0 (firstBuffer alloc) := by
  have hmax : defaultBufferSize ≤ INT_MAX := by decide
  refine ⟨rfl, rfl, alloc.fresh 0 defaultBufferSize, ?_, rfl, ?_, hmax, rfl⟩
  · rw [length_fresh]
    decide
  · simp [firstBuffer, length_fresh]

/-- The last `realloc` cuts the block off behind the terminator. -/
theorem realloc_text {call : ℕ} {rest : Text} :
    alloc.realloc call (w ++ '\x00' :: rest) (w.length + 1) = w ++ ['\x00'] := by
  have htake : (w ++ '\x00' :: rest).take (w.length + 1) = w ++ ['\x00'] := by
    rw [List.take_append, List.take_of_length_le (by omega), Nat.add_sub_cancel_left]
    rfl
  rw [Allocator.realloc, htake, List.drop_of_length_le, List.append_nil]
  simp [length_fresh]

/-- A call that returns a null pointer has freed its blocks, and has a reason. -/
structure NotPrinted (alloc : Allocator) (w : Text) (result : Printed) : Prop where
  null : result.printed = none
  freed : result.live = 0
  why : (∃ call < result.calls, alloc.fails call = true) ∨ INT_MAX < w.length + 2

/-- A call that returns the text, in a block of its size. -/
structure WholeText (w : Text) (result : Printed) : Prop where
  text : result.printed = some (w ++ ['\x00'])
  one : result.live = 1
  fits : w.length + 2 ≤ INT_MAX

theorem print_spec (alloc : Allocator) (hm : m.Lawful) {t : CJson D}
    (hw : printValue m format 0 t = some w) :
    ∃ result, print alloc m format t = some result ∧
      (NotPrinted alloc w result ∨ WholeText w result) := by
  -- The first block.
  by_cases h0 : alloc.fails 0 = true
  · exact ⟨_, if_pos h0, .inl ⟨rfl, rfl, .inl ⟨0, Nat.one_pos, h0⟩⟩⟩
  have hrun := prints_value alloc hm t 0 w hw [] _ (written_firstBuffer alloc)
  rw [print, if_neg h0]
  cases hx : printValueTo alloc m format t (firstBuffer alloc) with
  | fault =>
      rw [hx] at hrun
      exact hrun.elim
  | stopped p =>
      rw [hx] at hrun
      simp only [bind, hx]
      refine ⟨_, rfl, .inl ⟨rfl, ?_, ?_⟩⟩
      · rcases hrun with ⟨hnone, hlive, -⟩ | ⟨hsome, hlive, -⟩
        · simp [hnone, hlive]
        · simp [hsome, hlive]
      · exact hrun.imp (fun h => h.2.2) fun h => h.2.2
  | done _ p =>
      rw [hx] at hrun
      have hbehind : Behind [] w 0 p := hrun
      simp only [bind, hx, updateOffset_run (zero_not_mem_of_printValue hm hw) hbehind]
      obtain ⟨rest, hrest, hholds⟩ := hbehind.holds
      rw [List.nil_append] at hholds ⊢
      have hlen := hholds.length
      have hmax := hholds.le
      rw [List.length_append, List.length_cons] at hlen
      simp only [hholds.buffer, hholds.live, realloc_text]
      -- The last `realloc`, to the size of the text.
      by_cases hlast : alloc.fails p.calls = true
      · exact ⟨_, if_pos hlast, .inl ⟨rfl, rfl, .inl ⟨p.calls, Nat.lt_succ_self _, hlast⟩⟩⟩
      · exact ⟨_, if_neg hlast, .inr ⟨rfl, rfl, by omega⟩⟩

/-- **Whatever the allocator does.**  A call of the printer never writes outside
of its block.  It returns the text of the tree, in a block of its own size, and
leaves no other block behind; or it returns a null pointer and leaves none at
all, and then one of its allocations has failed or the text is too long. -/
theorem print_of_printable (hm : m.Lawful) {t : CJson D} (ht : Printable k t) :
    ∃ w result, printValue m format 0 t = some w ∧ print alloc m format t = some result ∧
      (NotPrinted alloc w result ∨ WholeText w result) := by
  obtain ⟨w, hw, -⟩ := readBack_of_printable hm format ht 0
  obtain ⟨result, hrun, hresult⟩ := print_spec alloc hm hw
  exact ⟨w, result, hw, hrun, hresult⟩

/-- An allocator that fails at its second call. -/
def failsOnce : Allocator where
  fails call := call = 1
  fill _ _ := '\xFF'

theorem print_of_printable_reportTree :
    ∃ w result, printValue integers true 0 reportTree = some w ∧
      print failsOnce integers true reportTree = some result ∧
      (NotPrinted failsOnce w result ∨ WholeText w result) :=
  print_of_printable integers_lawful (printable_reportTree 0)

/-- **Long texts.**  With allocations that succeed, a text is returned exactly when
it is two bytes shorter than `INT_MAX` at least. -/
theorem print_isSome_iff (hm : m.Lawful) {t : CJson D} (ht : Printable k t)
    (halloc : ∀ call, alloc.fails call = false) :
    ∃ w result, printValue m format 0 t = some w ∧ print alloc m format t = some result ∧
      (result.printed = some (w ++ ['\x00']) ∧ result.live = 1 ↔ w.length + 2 ≤ INT_MAX) ∧
      (result.printed = none ∧ result.live = 0 ↔ INT_MAX < w.length + 2) := by
  obtain ⟨w, hw, -⟩ := readBack_of_printable hm format ht 0
  obtain ⟨result, hrun, hresult⟩ := print_spec alloc hm hw
  refine ⟨w, result, hw, hrun, ?_⟩
  rcases hresult with h | h
  · have hlong : INT_MAX < w.length + 2 := by
      refine h.why.resolve_left ?_
      rintro ⟨call, -, hcall⟩
      rw [halloc call] at hcall
      exact absurd hcall (by simp)
    simp [h.null, h.freed, hlong]
  · simp [h.text, h.one, h.fits]

/-- An allocator that never fails. -/
def steady : Allocator := ⟨fun _ => false, fun _ _ => '\xFF'⟩

theorem print_isSome_iff_reportTree :
    ∃ w result, printValue integers false 0 reportTree = some w ∧
      print steady integers false reportTree = some result ∧
      (result.printed = some (w ++ ['\x00']) ∧ result.live = 1 ↔ w.length + 2 ≤ INT_MAX) ∧
      (result.printed = none ∧ result.live = 0 ↔ INT_MAX < w.length + 2) :=
  print_isSome_iff integers_lawful (printable_reportTree 0) fun _ => rfl

end PotHub.Json
