/-
Failure sites: where a failing evaluation stopped.

A tracker is told of every chunk before it is evaluated and remembers the last one that matters. A
chunk matters if it is executed or belongs to a conditional. Conditional opcodes and `OP_RETURN` only
change the opcode remembered, so the place stays at the last ordinary chunk.
-/
import Utxo.Json.Printer
import Utxo.Json.Value
import Utxo.Machine.State

namespace Utxo

/-- What a tracker is told of a chunk. -/
structure Visit where
  /-- 0 for the unlocking script, 1 for the locking script. -/
  scriptIndex : Nat
  offset : Nat
  opcode : Opcode
  executed : Bool
deriving DecidableEq

/-- A place in a script, of which nothing need be known. -/
structure Site where
  scriptIndex : Option Nat
  offset : Option Nat
  opcode : Option Opcode
  executed : Option Bool
deriving DecidableEq

namespace Machine

/-- The place of a role in an evaluation. -/
def Role.index : Role → Nat
  | .unlocking => 0
  | .locking => 1

/-- What a tracker is told of a step. -/
def Step.visit (s : Step) : Visit :=
  ⟨Role.index s.role, s.before.offset, s.chunk.op, s.before.isExecuting⟩

end Machine

namespace Site

/-- Nothing is known. -/
def empty : Site := ⟨none, none, none, none⟩

/-- Whether nothing is known. -/
def isEmpty (s : Site) : Bool := s = empty

/-- The place of a chunk. -/
def ofVisit (v : Visit) : Site := ⟨v.scriptIndex, v.offset, v.opcode, v.executed⟩

/-- The site after one more chunk. -/
def track (s : Site) (v : Visit) : Site :=
  if !v.executed && !v.opcode.isConditional then s
  else if v.opcode.isConditional || v.opcode = Opcode.ret then { s with opcode := v.opcode }
  else ofVisit v

/-- The site after chunks. -/
def ofVisits (vs : List Visit) : Site := vs.foldl track empty

/-! ### JSON -/

/-- The site as an object of what is known. -/
def toJson (s : Site) : String :=
  Json.printObject <| List.flatten
    [(s.scriptIndex.map fun n => ("scriptIndex", toString n)).toList,
      (s.offset.map fun n => ("offset", toString n)).toList,
      (s.opcode.map fun op => ("opcode", toString op.toNat)).toList,
      (s.executed.map fun b => ("executed", Json.printBool b)).toList]

/-- The site that a value stands for. -/
def ofJson? (j : Json) : Option Site := do
  match ← Json.record? ["scriptIndex", "offset", "opcode", "executed"] 0 j with
  | [scriptIndex, offset, opcode, executed] =>
    return {
      scriptIndex := ← Json.optional? (Json.asNat? UInt64.size) scriptIndex
      offset := ← Json.optional? (Json.asNat? UInt64.size) offset
      opcode := (← Json.optional? (Json.asNat? 256) opcode).map UInt8.ofNat
      executed := ← Json.optional? Json.asBool? executed }
  | _ => none

end Site

end Utxo
