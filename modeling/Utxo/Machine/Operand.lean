/-
Operands: what opcodes take from the main stack.
-/
import Utxo.Machine.Fault
import Utxo.Machine.Stack
import Utxo.Script.Number

namespace Utxo.Machine

/-- The top slot. -/
def popSlot (s : Stack) : Except Fault (Slot × Stack) :=
  match s.pop? with
  | some r => .ok r
  | none => .error (.invalidIndex 0 s.depth)

/-- The top value. -/
def popValue (s : Stack) : Except Fault (Bytes × Stack) := do
  let (slot, s) ← popSlot s
  return (slot.1, s)

/-- The number that a value of at most `limit` bytes stands for. -/
def number (limit : Nat) (value : Bytes) : Except Fault Int :=
  match Number.decode? value limit with
  | some n => .ok n
  | none => .error (.numberTooBig value.length limit)

/-- The top value as a number of at most `limit` bytes. -/
def popNumber (limit : Nat) (s : Stack) : Except Fault (Int × Stack) := do
  let (value, s) ← popValue s
  let n ← number limit value
  return (n, s)

/-- The top value as a truth value. -/
def popTruth (s : Stack) : Except Fault (Bool × Stack) := do
  let (value, s) ← popValue s
  return (Number.truth value, s)

/-- The slot with `n` slots above it. -/
def peek (n : Nat) (s : Stack) : Except Fault Slot :=
  match s.slot? n with
  | some slot => .ok slot
  | none => .error (.invalidIndex n s.depth)

/-- The slot with `n` slots above it, taken out. -/
def takeOut (n : Nat) (s : Stack) : Except Fault (Slot × Stack) :=
  match s.remove? n with
  | some r => .ok r
  | none => .error (.invalidIndex n s.depth)

/-- Fails unless there are `n` slots. -/
def need (n : Nat) (s : Stack) : Except Fault Unit :=
  if n ≤ s.depth then .ok () else .error (.invalidIndex (n - 1 : Nat) s.depth)

/-- The top value as a count of slots below it. -/
def popIndex (limit : Nat) (s : Stack) : Except Fault (Nat × Stack) := do
  let (n, s) ← popNumber limit s
  if 0 ≤ n ∧ n < s.depth then .ok (n.toNat, s) else .error (.invalidIndex n s.depth)

/-- Fails unless the top value is true, which it takes. -/
def verifyTop (v : Verification) (s : Stack) : Except Fault Stack := do
  let (holds, s) ← popTruth s
  if holds then .ok s else .error (.verificationFailed v)

end Utxo.Machine
