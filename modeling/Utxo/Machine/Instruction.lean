/-
Instructions: what opcodes mean.

`Instruction.ofOpcode` sorts the opcodes that push no bytes into families, and `Instruction.run` says
what each does when it is executed.
-/
import Utxo.Machine.Arithmetic
import Utxo.Machine.CheckSig
import Utxo.Machine.Conditional
import Utxo.Machine.Shuffle
import Utxo.Machine.Splice

namespace Utxo.Machine

/-- What an opcode that pushes no bytes means. -/
inductive Instruction where
  | constant (n : Int)
  | nop
  /-- Kept for a later upgrade. -/
  | upgradableNop (n : Nat)
  | conditional (op : Conditional)
  | verify
  | ret
  | toAlt
  | fromAlt
  | shuffle (op : Shuffle)
  | splice (op : Splice)
  | equalVerify
  | unary (op : Unary)
  | binary (op : Binary)
  | numEqualVerify
  | within
  | codeSeparator
  | checkSig
  | checkSigVerify
  /-- Never executed. -/
  | disabled
  /-- Never executed, and before the Genesis upgrade not even passed over. -/
  | reservedConditional
  | reserved
  | unsupported
  | invalid
deriving DecidableEq

namespace Instruction

/-- What an opcode means that pushes no bytes. -/
def ofOpcode (op : Opcode) : Instruction :=
  match op with
  | 0x4f => constant (-1)
  | 0x50 => reserved
  | 0x51 => constant 1
  | 0x52 => constant 2
  | 0x53 => constant 3
  | 0x54 => constant 4
  | 0x55 => constant 5
  | 0x56 => constant 6
  | 0x57 => constant 7
  | 0x58 => constant 8
  | 0x59 => constant 9
  | 0x5a => constant 10
  | 0x5b => constant 11
  | 0x5c => constant 12
  | 0x5d => constant 13
  | 0x5e => constant 14
  | 0x5f => constant 15
  | 0x60 => constant 16
  | 0x61 => nop
  | 0x62 => reserved
  | 0x63 => conditional (.opening false)
  | 0x64 => conditional (.opening true)
  | 0x65 => reservedConditional
  | 0x66 => reservedConditional
  | 0x67 => conditional .turn
  | 0x68 => conditional .closing
  | 0x69 => verify
  | 0x6a => ret
  | 0x6b => toAlt
  | 0x6c => fromAlt
  | 0x6d => shuffle .drop2
  | 0x6e => shuffle .dup2
  | 0x6f => shuffle .dup3
  | 0x70 => shuffle .copyOver2
  | 0x71 => shuffle .rot2
  | 0x72 => shuffle .swap2
  | 0x73 => shuffle .ifDup
  | 0x74 => shuffle .depth
  | 0x75 => shuffle .drop
  | 0x76 => shuffle .dup
  | 0x77 => shuffle .nip
  | 0x78 => shuffle .copyOver
  | 0x79 => shuffle .pick
  | 0x7a => shuffle .roll
  | 0x7b => shuffle .rot
  | 0x7c => shuffle .swap
  | 0x7d => shuffle .tuck
  | 0x7e => splice .cat
  | 0x7f => splice .split
  | 0x80 => splice .pad
  | 0x81 => splice .shorten
  | 0x82 => splice .size
  | 0x83 => splice .invert
  | 0x84 => splice (.bitwise .and)
  | 0x85 => splice (.bitwise .or)
  | 0x86 => splice (.bitwise .xor)
  | 0x87 => splice .equal
  | 0x88 => equalVerify
  | 0x89 => reserved
  | 0x8a => reserved
  | 0x8b => unary .increment
  | 0x8c => unary .decrement
  | 0x8d => disabled
  | 0x8e => disabled
  | 0x8f => unary .negate
  | 0x90 => unary .abs
  | 0x91 => unary .not
  | 0x92 => unary .isNonzero
  | 0x93 => binary .add
  | 0x94 => binary .sub
  | 0x95 => binary .mul
  | 0x96 => binary .div
  | 0x97 => binary .mod
  | 0x98 => splice .shiftLeft
  | 0x99 => splice .shiftRight
  | 0x9a => binary .boolAnd
  | 0x9b => binary .boolOr
  | 0x9c => binary .equal
  | 0x9d => numEqualVerify
  | 0x9e => binary .notEqual
  | 0x9f => binary .less
  | 0xa0 => binary .greater
  | 0xa1 => binary .lessOrEqual
  | 0xa2 => binary .greaterOrEqual
  | 0xa3 => binary .min
  | 0xa4 => binary .max
  | 0xa5 => within
  | 0xa6 => splice (.digest .ripemd160)
  | 0xa7 => splice (.digest .sha1)
  | 0xa8 => splice (.digest .sha256)
  | 0xa9 => splice (.digest .hash160)
  | 0xaa => splice (.digest .sha256d)
  | 0xab => codeSeparator
  | 0xac => checkSig
  | 0xad => checkSigVerify
  | 0xae => unsupported
  | 0xaf => unsupported
  | 0xb0 => upgradableNop 1
  | 0xb1 => upgradableNop 2
  | 0xb2 => upgradableNop 3
  | 0xb3 => upgradableNop 4
  | 0xb4 => upgradableNop 5
  | 0xb5 => upgradableNop 6
  | 0xb6 => upgradableNop 7
  | 0xb7 => upgradableNop 8
  | 0xb8 => upgradableNop 9
  | 0xb9 => upgradableNop 10
  | _ => invalid

/-- Whether an instruction acts even when it is passed over. -/
def isConditional : Instruction → Bool
  | conditional _ => true
  | _ => false

/-- What an instruction on the main stack alone makes of it. Any other leaves it as it is. -/
def runOnMain (setting : Setting) (instr : Instruction) (s : Stack) : Except Fault Stack :=
  let limit := setting.limits.numberLength
  match instr with
  | constant n => .ok (s.push (Number.encode n))
  | verify => verifyTop .plain s
  | shuffle op => op.run limit s
  | splice op => op.run setting.limits s
  | equalVerify => do
    let s ← Splice.equal.run setting.limits s
    verifyTop .equal s
  | unary op => op.run limit s
  | binary op => op.run limit s
  | numEqualVerify => do
    let s ← Binary.equal.run limit s
    verifyTop .numEqual s
  | within => runWithin limit s
  | _ => .ok s

/-- The state with the top slot moved to the alt stack. -/
def moveToAlt (s : State) : Except Fault State := do
  let (slot, main) ← popSlot s.main
  return { s with main, alt := s.alt.pushSlot slot }

/-- The state with the top slot of the alt stack moved back. -/
def moveFromAlt (s : State) : Except Fault State :=
  match s.alt.pop? with
  | some (slot, alt) => .ok { s with main := s.main.pushSlot slot, alt }
  | none => .error .emptyAltStack

/-- An executed `OP_RETURN`. After the Genesis upgrade it ends the script, or if conditionals are
open has the rest passed over. -/
def runReturn (rules : Rules) (s : State) : Move :=
  if !rules.afterGenesis then .stop (.failed .returned s.calls)
  else if s.branches.isEmpty then .stop (.completed s)
  else .next { s with returned := true }

/-- What an instruction does; `op` is its opcode and `script` the script it is in. -/
def run (setting : Setting) (script : List Chunk) (op : Opcode) (instr : Instruction) (s : State) :
    Move :=
  match instr with
  | nop => .next s
  | upgradableNop n =>
    if setting.rules.discourageUpgradableNops then .stop (.failed (.discouragedNop n) s.calls)
    else .next s
  | conditional c => .ofExcept s (c.run setting.rules s)
  | ret => runReturn setting.rules s
  | toAlt => .ofExcept s (moveToAlt s)
  | fromAlt => .ofExcept s (moveFromAlt s)
  | codeSeparator => .next { s with codeStart := s.offset + 1 }
  | checkSig => runCheckSig setting script s
  | checkSigVerify =>
    (runCheckSig setting script s).andThen fun s =>
      .ofExcept s ((verifyTop .checkSig s.main).map fun main => { s with main })
  | disabled => .stop (.failed (.disabledOpcode op) s.calls)
  | reservedConditional | reserved => .stop (.failed (.reservedOpcode op) s.calls)
  | unsupported => .stop (.failed (.unsupportedOpcode op) s.calls)
  | invalid => .stop (.failed (.invalidOpcode op) s.calls)
  | instr =>
    .ofExcept s ((instr.runOnMain setting s.main).map fun main => { s with main })

end Instruction

end Utxo.Machine
