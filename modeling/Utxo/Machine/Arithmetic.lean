/-
Opcodes that compute with numbers.

Operands are read as integers and results written in their shortest form, so only the integers
matter. A truth value is the number one or zero.
-/
import Utxo.Machine.Operand

namespace Utxo.Machine

/-- The opcodes of one number. -/
inductive Unary where
  | increment
  | decrement
  | negate
  | abs
  | not
  | isNonzero
deriving DecidableEq

/-- The opcodes of two numbers. -/
inductive Binary where
  | add
  | sub
  | mul
  | div
  | mod
  | boolAnd
  | boolOr
  | equal
  | notEqual
  | less
  | greater
  | lessOrEqual
  | greaterOrEqual
  | min
  | max
deriving DecidableEq

/-- A truth value as a number. -/
def truthNumber (b : Bool) : Int := if b then 1 else 0

/-- The result for a number. -/
def Unary.apply : Unary → Int → Int
  | increment, n => n + 1
  | decrement, n => n - 1
  | negate, n => -n
  | abs, n => n.natAbs
  | not, n => truthNumber (n = 0)
  | isNonzero, n => truthNumber (n ≠ 0)

/-- The result for two numbers. Division drops the fraction, and a remainder has the sign of the
dividend. -/
def Binary.apply : Binary → Int → Int → Except Fault Int
  | add, a, b => .ok (a + b)
  | sub, a, b => .ok (a - b)
  | mul, a, b => .ok (a * b)
  | div, a, b => if b = 0 then .error .divideByZero else .ok (a.tdiv b)
  | mod, a, b => if b = 0 then .error .divideByZero else .ok (a.tmod b)
  | boolAnd, a, b => .ok (truthNumber (a ≠ 0 && b ≠ 0))
  | boolOr, a, b => .ok (truthNumber (a ≠ 0 || b ≠ 0))
  | equal, a, b => .ok (truthNumber (a = b))
  | notEqual, a, b => .ok (truthNumber (a ≠ b))
  | less, a, b => .ok (truthNumber (a < b))
  | greater, a, b => .ok (truthNumber (b < a))
  | lessOrEqual, a, b => .ok (truthNumber (a ≤ b))
  | greaterOrEqual, a, b => .ok (truthNumber (b ≤ a))
  | min, a, b => .ok (if a ≤ b then a else b)
  | max, a, b => .ok (if a ≤ b then b else a)

/-- Replaces the top number by a result. -/
def Unary.run (limit : Nat) (op : Unary) (s : Stack) : Except Fault Stack := do
  let (n, s) ← popNumber limit s
  return s.push (Number.encode (op.apply n))

/-- Replaces the two top numbers by a result; the top one is the second operand. -/
def Binary.run (limit : Nat) (op : Binary) (s : Stack) : Except Fault Stack := do
  let (b, s) ← popNumber limit s
  let (a, s) ← popNumber limit s
  let n ← op.apply a b
  return s.push (Number.encode n)

/-- Replaces a number and two bounds by whether it is in between, the upper bound excluded. -/
def runWithin (limit : Nat) (s : Stack) : Except Fault Stack := do
  let (upper, s) ← popNumber limit s
  let (lower, s) ← popNumber limit s
  let (n, s) ← popNumber limit s
  return s.push (Number.encode (truthNumber (lower ≤ n && n < upper)))

end Utxo.Machine
