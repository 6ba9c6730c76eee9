/-
The state of an evaluation.

A `State` is what changes from one chunk to the next: two stacks, the open conditionals, the place in
the script, and the signature checks asked for so far. A `Setting` is what stays as it is. When a
script is over, only the main stack and the checks are handed on (`State.handOver`).
-/
import Utxo.Machine.Fault
import Utxo.Machine.Rules
import Utxo.Machine.Stack
import Utxo.Script.Basic

namespace Utxo.Machine

/-- A question whether a signature is valid. -/
structure Call where
  /-- The signature, with the flag at its end. -/
  signature : Bytes
  publicKey : Bytes
  /-- The part of the script that the signature commits to. -/
  scriptCode : Script
  inputIndex : Nat
  flag : UInt8
deriving DecidableEq

/-- What answers the questions, given those asked before. It may be unable to tell, and says so in a
text. No evaluation looks at this text (`askChecker`), so it stands for any error there may be. -/
structure Checker where
  answer : List Call → Call → Except String Bool

/-- What stays as it is during an evaluation. -/
structure Setting where
  rules : Rules
  limits : Limits
  checker : Option Checker
  inputIndex : Nat

/-- What an open conditional does with the chunks inside it. -/
inductive Branch where
  /-- The chunks are executed. -/
  | taken
  /-- The chunks are passed over, until `OP_ELSE`. -/
  | passed
  /-- The chunks are passed over, because the conditional itself is. -/
  | skipped
deriving DecidableEq

/-- What an `OP_ELSE` makes of a conditional. -/
def Branch.flip : Branch → Branch
  | taken => passed
  | passed => taken
  | skipped => skipped

/-- The state between two chunks. -/
structure State where
  main : Stack
  alt : Stack
  /-- The open conditionals, innermost first. -/
  branches : List Branch
  /-- Whether each open conditional has had its `OP_ELSE`. -/
  elses : List Bool
  /-- How many chunks of the script are behind. -/
  offset : Nat
  /-- Where the script code of a signature check starts. -/
  codeStart : Nat
  /-- How many operations the script has had. -/
  operations : Nat
  /-- Whether an `OP_RETURN` has been executed inside a conditional. -/
  returned : Bool
  /-- The questions asked so far. -/
  calls : List Call
deriving DecidableEq

namespace State

/-- The state before a script, given a main stack and the questions asked. -/
def atStart (main : Stack) (calls : List Call) : State where
  main := main
  alt := .empty
  branches := []
  elses := []
  offset := 0
  codeStart := 0
  operations := 0
  returned := false
  calls := calls

/-- The state before the first script. -/
def initial : State := atStart .empty []

/-- The state before the script that follows. -/
def handOver (s : State) : State := atStart s.main s.calls

/-- Whether the next chunk is executed: nothing has returned, and every conditional is taken. -/
def isExecuting (s : State) : Bool := !s.returned && s.branches.all (· = .taken)

/-- The items on both stacks together. -/
def depth (s : State) : Nat := s.main.depth + s.alt.depth

end State

/-- How the evaluation of a script ends. -/
inductive Ending where
  | completed (s : State)
  /-- The evaluation fails, after these questions. -/
  | failed (fault : Fault) (calls : List Call)
deriving DecidableEq

/-- What a chunk leads to. -/
inductive Move where
  | next (s : State)
  | stop (e : Ending)
deriving DecidableEq

namespace Move

/-- The move to a new state, or the end with a fault and no new question. -/
def ofExcept (s : State) : Except Fault State → Move
  | .ok s' => next s'
  | .error fault => stop (.failed fault s.calls)

/-- A move and then another. -/
def andThen : Move → (State → Move) → Move
  | next s, f => f s
  | stop e, _ => stop e

end Move

/-- A chunk about to be evaluated, with the state before it. -/
structure Step where
  role : Role
  chunk : Chunk
  before : State
deriving DecidableEq

end Utxo.Machine
