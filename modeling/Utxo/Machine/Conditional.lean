/-
Opcodes of conditionals.

A conditional takes its condition from the stack only if it is executed itself. After the Genesis
upgrade it has at most one `OP_ELSE`.
-/
import Utxo.Machine.Operand
import Utxo.Machine.State

namespace Utxo.Machine

/-- The opcodes that open, turn and close conditionals. -/
inductive Conditional where
  /-- Opens a conditional that is taken unless the condition equals `negated`. -/
  | opening (negated : Bool)
  | turn
  | closing
deriving DecidableEq

/-- The condition on top of the stack. -/
def popCondition (rules : Rules) (s : Stack) : Except Fault (Bool × Stack) := do
  let (value, s) ← popValue s
  if rules.minimalIf && 1 < value.length then .error .longCondition
  else if rules.minimalIf && value.length = 1 && value ≠ [1] then .error .oddCondition
  else .ok (Number.truth value, s)

/-- The state with one more open conditional. -/
def State.openBranch (s : State) (b : Branch) : State :=
  { s with branches := b :: s.branches, elses := false :: s.elses }

/-- What a conditional opcode makes of the state. -/
def Conditional.run (rules : Rules) (op : Conditional) (s : State) : Except Fault State :=
  match op with
  | opening negated =>
    if s.isExecuting then do
      let (holds, main) ← popCondition rules s.main
      return { s with main }.openBranch (if holds ≠ negated then .taken else .passed)
    else .ok (s.openBranch .skipped)
  | turn =>
    match s.branches, s.elses with
    | b :: branches, seen :: elses =>
      if seen && rules.afterGenesis then .error (.unbalanced .secondElse)
      else .ok { s with branches := b.flip :: branches, elses := true :: elses }
    | _, _ => .error (.unbalanced .strayElse)
  | closing =>
    match s.branches with
    | _ :: branches => .ok { s with branches, elses := s.elses.tail }
    | [] => .error (.unbalanced .strayEndIf)

end Utxo.Machine
