/-
Opcodes on the main stack under guard.

Each opcode is put together from guarded operations, as it is from the machine's: what is taken is
taken with its name, what results is pushed with one, and several slots are dropped or copied one
after the other.

* **`shuffle_faithful`**, **`spliceOp_faithful`** — on an aligned stack, the opcodes that move slots
  and those on bytes do the same under guard;
* **`unary_faithful`**, **`binary_faithful`**, **`within_faithful`** — and so do those on numbers.
-/
import Utxo.Proofs.Machine.Guarded.Stack

namespace Utxo.Machine.Guarded

/-! ### Operands -/

/-- The top value. -/
def popValue (s : Stack) : Guarded (Bytes × Stack) := do
  let (slot, s) ← popSlot s
  return (slot.1, s)

/-- The top value as a number of at most `limit` bytes. -/
def popNumber (limit : Nat) (s : Stack) : Guarded (Int × Stack) := do
  let (value, s) ← popValue s
  let n ← lift (number limit value)
  return (n, s)

/-- The top value as a truth value. -/
def popTruth (s : Stack) : Guarded (Bool × Stack) := do
  let (value, s) ← popValue s
  return (Number.truth value, s)

/-- The top value as a count of slots below it. -/
def popIndex (limit : Nat) (s : Stack) : Guarded (Nat × Stack) := do
  let (n, s) ← popNumber limit s
  if 0 ≤ n ∧ n < s.depth then return (n.toNat, s) else throw (.invalidIndex n s.depth)

/-- The top value as a count that a 64 bit word can hold. -/
def popCount (limit : Nat) (outOfRange : Int → Fault) (s : Stack) : Guarded (Nat × Stack) := do
  let (n, s) ← popNumber limit s
  if 0 ≤ n ∧ n < UInt64.size then return (n.toNat, s) else throw (outOfRange n)

/-- The condition on top of the stack. -/
def popCondition (rules : Rules) (s : Stack) : Guarded (Bool × Stack) := do
  let (value, s) ← popValue s
  if rules.minimalIf && 1 < value.length then throw .longCondition
  else if rules.minimalIf && value.length = 1 && value ≠ [1] then throw .oddCondition
  else return (Number.truth value, s)

/-- Fails unless the top value is true, which it takes. -/
def verifyTop (v : Verification) (s : Stack) : Guarded Stack := do
  let (holds, s) ← popTruth s
  if holds then return s else throw (.verificationFailed v)

section Operands

variable {s : Stack}

theorem popValue_faithful (h : s.IsAligned) :
    Faithful (·.2.IsAligned) (popValue s) (Machine.popValue s) :=
  (popSlot_faithful h).bind fun _ h => .ok h

theorem popNumber_faithful (limit : Nat) (h : s.IsAligned) :
    Faithful (·.2.IsAligned) (popNumber limit s) (Machine.popNumber limit s) :=
  (popValue_faithful h).bind fun _ h => (Faithful.lift (.any _)).bind fun _ _ => .ok h

theorem popTruth_faithful (h : s.IsAligned) :
    Faithful (·.2.IsAligned) (popTruth s) (Machine.popTruth s) :=
  (popValue_faithful h).bind fun _ h => .ok h

theorem popIndex_faithful (limit : Nat) (h : s.IsAligned) :
    Faithful (·.2.IsAligned) (popIndex limit s) (Machine.popIndex limit s) :=
  (popNumber_faithful limit h).bind fun _ h => .ite (fun _ => .ok h) fun _ => .error _

theorem popCount_faithful (limit : Nat) (outOfRange : Int → Fault) (h : s.IsAligned) :
    Faithful (·.2.IsAligned) (popCount limit outOfRange s) (Machine.popCount limit outOfRange s) :=
  (popNumber_faithful limit h).bind fun _ h => .ite (fun _ => .ok h) fun _ => .error _

theorem popCondition_faithful (rules : Rules) (h : s.IsAligned) :
    Faithful (·.2.IsAligned) (popCondition rules s) (Machine.popCondition rules s) :=
  (popValue_faithful h).bind fun _ h =>
    .ite (fun _ => .error _) fun _ => .ite (fun _ => .error _) fun _ => .ok h

theorem verifyTop_faithful (v : Verification) (h : s.IsAligned) :
    Faithful Stack.IsAligned (verifyTop v s) (Machine.verifyTop v s) :=
  (popTruth_faithful h).bind fun _ h => .ite (fun _ => .ok h) fun _ => .error _

end Operands

/-! ### Copying, moving and dropping -/

/-- Drops the `n` top slots, one after the other. -/
def dropTop (n : Nat) (s : Stack) : Guarded Stack := do
  need n s
  dropTimes n s

/-- Copies the `n` top slots, in order, one after the other. -/
def copyTop (n : Nat) (s : Stack) : Guarded Stack := do
  let slots ← peekDown s n
  pushSlots s slots

/-- Copies the slot with `n` slots above it to the top. -/
def copyUp (n : Nat) (s : Stack) : Guarded Stack := do
  let slot ← peek n s
  pushSlot s slot

/-- Moves the slot with `n` slots above it to the top. -/
def moveUp (n : Nat) (s : Stack) : Guarded Stack := do
  let (slot, s) ← takeOut n s
  pushSlot s slot

/-- Copies two neighbours to the top, the upper of which has `n` slots above it. -/
def copyPairUp (n : Nat) (s : Stack) : Guarded Stack := do
  let lower ← peek (n + 1) s
  let upper ← peek n s
  pushSlots s [lower, upper]

/-- Moves two neighbours to the top, the upper of which has `n` slots above it. -/
def movePairUp (n : Nat) (s : Stack) : Guarded Stack := do
  need (n + 2) s
  let (lower, s) ← takeOut (n + 1) s
  let (upper, s) ← takeOut n s
  pushSlots s [lower, upper]

/-- What a shuffle makes of the main stack. -/
def shuffle (limit : Nat) (op : Shuffle) (s : Stack) : Guarded Stack :=
  match op with
  | .drop => dropTop 1 s
  | .drop2 => dropTop 2 s
  | .dup => copyTop 1 s
  | .dup2 => copyTop 2 s
  | .dup3 => copyTop 3 s
  | .copyOver => copyUp 1 s
  | .copyOver2 => copyPairUp 2 s
  | .rot => moveUp 2 s
  | .rot2 => movePairUp 4 s
  | .swap => moveUp 1 s
  | .swap2 => movePairUp 2 s
  | .nip => do
    let (_, s) ← takeOut 1 s
    return s
  | .tuck => do
    need 2 s
    let slot ← peek 0 s
    insertBelow 2 slot s
  | .pick => do
    let (n, s) ← popIndex limit s
    copyUp n s
  | .roll => do
    let (n, s) ← popIndex limit s
    moveUp n s
  | .ifDup => do
    let slot ← peek 0 s
    if Number.truth slot.1 then pushSlot s slot else return s
  | .depth => push s (Number.encode s.depth)

section Shuffles

variable {s : Stack} {n : Nat}

theorem dropTop_faithful (hn : 0 < n) (h : s.IsAligned) :
    Faithful Stack.IsAligned (dropTop n s) (Machine.dropTop n s) :=
  (need_faithful hn s).bind fun _ hle => dropTimes_faithful h hle

theorem copyTop_faithful (hn : 0 < n) (h : s.IsAligned) :
    Faithful Stack.IsAligned (copyTop n s) (Machine.copyTop n s) := by
  refine ⟨?_, copyTop_isAligned n h⟩
  by_cases hle : n ≤ s.depth
  · have hslots : n ≤ s.slots.length := by
      rw [Stack.slots, List.length_zip, ← (h : s.values.length = s.names.length), Nat.min_self]
      exact hle
    rw [copyTop, bind_run (peekDown_run h hslots), (pushSlots_faithful h _).run_eq,
      pushSlots_take h, Machine.copyTop, Machine.need, if_pos hle]
    rfl
  · -- The first slot that is looked at is the lowest one.
    obtain ⟨k, rfl⟩ : ∃ k, n = k + 1 := ⟨n - 1, by omega⟩
    rw [copyTop, peekDown, peek, if_pos (by omega), Machine.copyTop, Machine.need, if_neg hle]
    rfl

theorem copyUp_faithful (n : Nat) (h : s.IsAligned) :
    Faithful Stack.IsAligned (copyUp n s) (Machine.copyUp n s) :=
  (peek_faithful h n).bind fun slot _ => pushSlot_faithful h slot

theorem moveUp_faithful (n : Nat) (h : s.IsAligned) :
    Faithful Stack.IsAligned (moveUp n s) (Machine.moveUp n s) :=
  (takeOut_faithful h n).bind fun _ h => pushSlot_faithful h _

theorem copyPairUp_faithful (n : Nat) (h : s.IsAligned) :
    Faithful Stack.IsAligned (copyPairUp n s) (Machine.copyPairUp n s) :=
  (peek_faithful h (n + 1)).bind fun _ _ => (peek_faithful h n).bind fun _ _ =>
    pushSlots_faithful h _

theorem movePairUp_faithful (n : Nat) (h : s.IsAligned) :
    Faithful Stack.IsAligned (movePairUp n s) (Machine.movePairUp n s) :=
  (need_faithful (Nat.succ_pos _) s).bind fun _ _ =>
    (takeOut_faithful h (n + 1)).bind fun _ h => (takeOut_faithful h n).bind fun _ h =>
      pushSlots_faithful h _

theorem shuffle_faithful (limit : Nat) (op : Shuffle) (h : s.IsAligned) :
    Faithful Stack.IsAligned (shuffle limit op s) (op.run limit s) := by
  cases op with
  | drop | drop2 => exact dropTop_faithful (Nat.succ_pos _) h
  | dup | dup2 | dup3 => exact copyTop_faithful (Nat.succ_pos _) h
  | copyOver => exact copyUp_faithful 1 h
  | copyOver2 => exact copyPairUp_faithful 2 h
  | rot | swap => exact moveUp_faithful _ h
  | rot2 | swap2 => exact movePairUp_faithful _ h
  | nip => exact (takeOut_faithful h 1).bind fun _ h => .ok h
  | tuck =>
    exact (need_faithful (Nat.succ_pos 1) s).bind fun _ hle => (peek_faithful h 0).bind fun slot _ =>
      insertBelow_faithful h hle slot
  | pick => exact (popIndex_faithful limit h).bind fun r h => copyUp_faithful r.1 h
  | roll => exact (popIndex_faithful limit h).bind fun r h => moveUp_faithful r.1 h
  | ifDup =>
    refine (peek_faithful h 0).bind fun slot _ => ?_
    split_ifs
    · exact pushSlot_faithful h slot
    · exact .ok h
  | depth => exact push_faithful h _

end Shuffles

/-! ### Byte strings and numbers -/

/-- What an opcode on byte strings makes of the main stack. -/
def spliceOp (limits : Limits) (op : Splice) (s : Stack) : Guarded Stack :=
  match op with
  | .cat => do
    let (b, s) ← popValue s
    let (a, s) ← popValue s
    let total := a.length + b.length
    if limits.elementSize < total then throw (.joinTooBig total limits.elementSize)
    else push s (a ++ b)
  | .split => do
    let (n, s) ← popNumber limits.numberLength s
    let (data, s) ← popValue s
    if 0 ≤ n ∧ n ≤ data.length then do
      let s ← push s (data.take n.toNat)
      push s (data.drop n.toNat)
    else throw (.splitOutside n data.length)
  | .pad => do
    let (width, s) ← popCount limits.numberLength .paddingOutOfRange s
    if limits.elementSize < width then throw (.paddedTooBig width limits.elementSize)
    else do
      let (value, s) ← popValue s
      let number := Number.minimal value
      if width < number.length then throw (.doesNotFit number.length width)
      else if number.length < width ∧ maxCapacity < width then throw .capacityOverflow
      else push s (padNumber number width)
  | .shorten => do
    let (value, s) ← popValue s
    let number := Number.minimal value
    if limits.numberLength < number.length then
      throw (.resultTooBig number.length limits.numberLength)
    else push s number
  | .size => do
    let slot ← peek 0 s
    push s (Number.encode slot.1.length)
  | .invert => do
    let (value, s) ← popValue s
    push s (value.map (~~~·))
  | .bitwise f => do
    let (b, s) ← popValue s
    let (a, s) ← popValue s
    if a.length = b.length then push s (List.zipWith f.apply a b)
    else throw (.operandSizes a.length b.length)
  | .equal => do
    let (b, s) ← popValue s
    let (a, s) ← popValue s
    push s (Number.ofBool (a = b))
  | .shiftLeft => do
    let (n, s) ← popCount limits.numberLength .shiftOutOfRange s
    let (value, s) ← popValue s
    push s (Machine.shiftLeft value n)
  | .shiftRight => do
    let (n, s) ← popCount limits.numberLength .shiftOutOfRange s
    let (value, s) ← popValue s
    push s (Machine.shiftRight value n)
  | .digest f => do
    let (value, s) ← popValue s
    push s (f.apply value)

/-- Replaces the top number by a result. -/
def unary (limit : Nat) (op : Unary) (s : Stack) : Guarded Stack := do
  let (n, s) ← popNumber limit s
  push s (Number.encode (op.apply n))

/-- Replaces the two top numbers by a result. -/
def binary (limit : Nat) (op : Binary) (s : Stack) : Guarded Stack := do
  let (b, s) ← popNumber limit s
  let (a, s) ← popNumber limit s
  let n ← lift (op.apply a b)
  push s (Number.encode n)

/-- Replaces a number and two bounds by whether it is in between. -/
def within (limit : Nat) (s : Stack) : Guarded Stack := do
  let (upper, s) ← popNumber limit s
  let (lower, s) ← popNumber limit s
  let (n, s) ← popNumber limit s
  push s (Number.encode (truthNumber (lower ≤ n && n < upper)))

section Values

variable {s : Stack}

theorem spliceOp_faithful (limits : Limits) (op : Splice) (h : s.IsAligned) :
    Faithful Stack.IsAligned (spliceOp limits op s) (op.run limits s) := by
  cases op with
  | cat =>
    exact (popValue_faithful h).bind fun _ h => (popValue_faithful h).bind fun _ h =>
      .ite (fun _ => .error _) fun _ => push_faithful h _
  | split =>
    exact (popNumber_faithful _ h).bind fun _ h => (popValue_faithful h).bind fun r h =>
      .ite (fun _ => (push_faithful h _).bind fun _ h => push_faithful h _) fun _ => .error _
  | pad =>
    exact (popCount_faithful _ _ h).bind fun _ h => .ite (fun _ => .error _) fun _ =>
      (popValue_faithful h).bind fun _ h => .ite (fun _ => .error _) fun _ =>
        .ite (fun _ => .error _) fun _ => push_faithful h _
  | shorten =>
    exact (popValue_faithful h).bind fun _ h =>
      .ite (fun _ => .error _) fun _ => push_faithful h _
  | size => exact (peek_faithful h 0).bind fun _ _ => push_faithful h _
  | invert | digest => exact (popValue_faithful h).bind fun _ h => push_faithful h _
  | bitwise f =>
    exact (popValue_faithful h).bind fun _ h => (popValue_faithful h).bind fun _ h =>
      .ite (fun _ => push_faithful h _) fun _ => .error _
  | equal =>
    exact (popValue_faithful h).bind fun _ h => (popValue_faithful h).bind fun _ h =>
      push_faithful h _
  | shiftLeft | shiftRight =>
    exact (popCount_faithful _ _ h).bind fun _ h => (popValue_faithful h).bind fun _ h =>
      push_faithful h _

theorem unary_faithful (limit : Nat) (op : Unary) (h : s.IsAligned) :
    Faithful Stack.IsAligned (unary limit op s) (op.run limit s) :=
  (popNumber_faithful limit h).bind fun _ h => push_faithful h _

theorem binary_faithful (limit : Nat) (op : Binary) (h : s.IsAligned) :
    Faithful Stack.IsAligned (binary limit op s) (op.run limit s) :=
  (popNumber_faithful limit h).bind fun _ h => (popNumber_faithful limit h).bind fun _ h =>
    (Faithful.lift (.any _)).bind fun _ _ => push_faithful h _

theorem within_faithful (limit : Nat) (h : s.IsAligned) :
    Faithful Stack.IsAligned (within limit s) (runWithin limit s) :=
  (popNumber_faithful limit h).bind fun _ h => (popNumber_faithful limit h).bind fun _ h =>
    (popNumber_faithful limit h).bind fun _ h => push_faithful h _

end Values

end Utxo.Machine.Guarded
