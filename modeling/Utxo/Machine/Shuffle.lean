/-
Opcodes that copy, move and drop slots.

A slot keeps its name when it moves, and a copy has the name of what it is a copy of.
-/
import Utxo.Machine.Operand

namespace Utxo.Machine

/-- The opcodes on the main stack alone that look at no value but a condition or an index. -/
inductive Shuffle where
  | drop
  | drop2
  | dup
  | dup2
  | dup3
  | copyOver
  | copyOver2
  | rot
  | rot2
  | swap
  | swap2
  | nip
  | tuck
  | pick
  | roll
  | ifDup
  | depth
deriving DecidableEq

/-- Drops the `n` top slots. -/
def dropTop (n : Nat) (s : Stack) : Except Fault Stack := do
  need n s
  return ⟨s.values.drop n, s.names.drop n⟩

/-- Copies the `n` top slots, in order. -/
def copyTop (n : Nat) (s : Stack) : Except Fault Stack := do
  need n s
  return ⟨s.values.take n ++ s.values, s.names.take n ++ s.names⟩

/-- Copies the slot with `n` slots above it to the top. -/
def copyUp (n : Nat) (s : Stack) : Except Fault Stack := do
  let slot ← peek n s
  return s.pushSlot slot

/-- Moves the slot with `n` slots above it to the top. -/
def moveUp (n : Nat) (s : Stack) : Except Fault Stack := do
  let (slot, s) ← takeOut n s
  return s.pushSlot slot

/-- Copies two neighbours to the top, the upper of which has `n` slots above it. -/
def copyPairUp (n : Nat) (s : Stack) : Except Fault Stack := do
  let lower ← peek (n + 1) s
  let upper ← peek n s
  return s.pushSlots [lower, upper]

/-- Moves two neighbours to the top, the upper of which has `n` slots above it. -/
def movePairUp (n : Nat) (s : Stack) : Except Fault Stack := do
  need (n + 2) s
  let (lower, s) ← takeOut (n + 1) s
  let (upper, s) ← takeOut n s
  return s.pushSlots [lower, upper]

/-- What a shuffle makes of the main stack, numbers having at most `limit` bytes. -/
def Shuffle.run (limit : Nat) (op : Shuffle) (s : Stack) : Except Fault Stack :=
  match op with
  | drop => dropTop 1 s
  | drop2 => dropTop 2 s
  | dup => copyTop 1 s
  | dup2 => copyTop 2 s
  | dup3 => copyTop 3 s
  | copyOver => copyUp 1 s
  | copyOver2 => copyPairUp 2 s
  | rot => moveUp 2 s
  | rot2 => movePairUp 4 s
  | swap => moveUp 1 s
  | swap2 => movePairUp 2 s
  | nip => do
    let (_, s) ← takeOut 1 s
    return s
  | tuck => do
    need 2 s
    let slot ← peek 0 s
    return s.insertBelow 2 slot
  | pick => do
    let (n, s) ← popIndex limit s
    copyUp n s
  | roll => do
    let (n, s) ← popIndex limit s
    moveUp n s
  | ifDup => do
    let slot ← peek 0 s
    return if Number.truth slot.1 then s.pushSlot slot else s
  | depth => return s.push (Number.encode s.depth)

end Utxo.Machine
