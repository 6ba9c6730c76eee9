/-
Faults: why an evaluation fails.

Each fault belongs to a class, `Fault.code`, and has a text of its own, `Fault.message`.
-/
import Utxo.Ecdsa.Signature
import Utxo.Script.Opcode

namespace Utxo

/-- The classes of faults. -/
inductive Fault.Code where
  | invalidParams
  | malformedPush
  | earlyReturn
  | emptyStack
  | evalFalse
  | scriptTooBig
  | elementTooBig
  | tooManyOperations
  | stackOverflow
  | numberTooBig
  | invalidNumberRange
  | divideByZero
  | verify
  | equalVerify
  | numEqualVerify
  | checkSigVerify
  | disabledOpcode
  | reservedOpcode
  | unsupportedOpcode
  | invalidStackOperation
  | invalidAltStackOperation
  | unbalancedConditional
  | invalidSplitRange
  | invalidOperandSize
  | impossibleEncoding
  | minimalIf
  | invalidSigHashType
  | sigDer
  | sigHighS
  | notPushOnly
  | pubKeyType
  | cleanStack
  | nullFail
  | discourageUpgradableNops
  | illegalForkId
  /-- No class of failing scripts: the evaluation itself breaks off. -/
  | capacityOverflow
deriving DecidableEq

/-- The two scripts of an evaluation. -/
inductive Role where
  | unlocking
  | locking
deriving DecidableEq

/-- What a role is called. -/
def Role.label : Role → String
  | unlocking => "unlocking"
  | locking => "locking"

/-- The opcodes that fail unless the top of the stack is true. -/
inductive Verification where
  | plain
  | equal
  | numEqual
  | checkSig
deriving DecidableEq

/-- The class of the fault that a verification raises. -/
def Verification.code : Verification → Fault.Code
  | plain => .verify
  | equal => .equalVerify
  | numEqual => .numEqualVerify
  | checkSig => .checkSigVerify

/-- What a verification is called. -/
def Verification.label : Verification → String
  | plain => "OP_VERIFY"
  | equal => "OP_EQUALVERIFY"
  | numEqual => "OP_NUMEQUALVERIFY"
  | checkSig => "OP_CHECKSIGVERIFY"

/-- Ways for conditionals not to nest. -/
inductive Imbalance where
  /-- A script ends inside a conditional. -/
  | openAtEnd
  | strayElse
  | strayEndIf
  /-- A second `OP_ELSE` in one conditional. -/
  | secondElse
deriving DecidableEq

/-- What an imbalance is called. -/
def Imbalance.message : Imbalance → String
  | openAtEnd => "end of script reached in conditional execution"
  | strayElse =>
    "encountered opcode OP_ELSE with no matching opcode to begin conditional execution"
  | strayEndIf =>
    "encountered opcode OP_ENDIF with no matching opcode to begin conditional execution"
  | secondElse => "encountered duplicate OP_ELSE"

/-- Why an evaluation fails. -/
inductive Fault where
  | scriptTooBig (role : Role) (size limit : Nat)
  /-- Both scripts are empty. -/
  | nothingToRun
  | notPushOnly
  /-- A push of which the script holds only a part. -/
  | truncatedPush (op : Opcode) (declared present : Nat)
  /-- A push is too long. -/
  | pushTooBig (size limit : Nat)
  /-- A concatenation is too long. -/
  | joinTooBig (size limit : Nat)
  /-- A padded number is too long. -/
  | paddedTooBig (size limit : Nat)
  | disabledOpcode (op : Opcode)
  | reservedOpcode (op : Opcode)
  | invalidOpcode (op : Opcode)
  | unsupportedOpcode (op : Opcode)
  | discouragedNop (n : Nat)
  | tooManyOperations (limit : Nat)
  | stackOverflow (size limit : Nat)
  /-- The stack has no slot with `n` slots above it. -/
  | invalidIndex (n : Int) (depth : Nat)
  | emptyAltStack
  /-- An operand is too long for a number. -/
  | numberTooBig (size limit : Nat)
  /-- A shortened number is still too long. -/
  | resultTooBig (size limit : Nat)
  | splitOutside (position : Int) (size : Nat)
  | paddingOutOfRange (size : Int)
  | shiftOutOfRange (count : Int)
  | operandSizes (first second : Nat)
  /-- A number does not fit the size asked for. -/
  | doesNotFit (needed size : Nat)
  | divideByZero
  | verificationFailed (v : Verification)
  | unbalanced (how : Imbalance)
  /-- A condition of more than one byte. -/
  | longCondition
  /-- A condition of one byte other than one. -/
  | oddCondition
  | returned
  | signatureType (flag : UInt8)
  | forkIdMissing
  | forkIdUnexpected
  | signatureForm (e : Signature.Error)
  | highS
  | publicKeyForm
  /-- There is nothing to check a signature with. -/
  | noChecker
  /-- A signature that is not valid is not empty. -/
  | signatureNotEmpty
  | emptyStack
  /-- More than one item is left. -/
  | uncleanStack (extra : Nat)
  /-- The item left is false. -/
  | falseResult
  /-- There cannot be a buffer as large as the one asked for. -/
  | capacityOverflow
deriving DecidableEq

namespace Fault

/-- The class of a fault. -/
def code : Fault → Code
  | scriptTooBig .. => .scriptTooBig
  | nothingToRun | falseResult => .evalFalse
  | notPushOnly => .notPushOnly
  | truncatedPush .. => .malformedPush
  | pushTooBig .. | joinTooBig .. | paddedTooBig .. => .elementTooBig
  | disabledOpcode _ => .disabledOpcode
  | reservedOpcode _ | invalidOpcode _ => .reservedOpcode
  | unsupportedOpcode _ => .unsupportedOpcode
  | discouragedNop _ => .discourageUpgradableNops
  | tooManyOperations _ => .tooManyOperations
  | stackOverflow .. => .stackOverflow
  | invalidIndex .. => .invalidStackOperation
  | emptyAltStack => .invalidAltStackOperation
  | numberTooBig .. | resultTooBig .. => .numberTooBig
  | splitOutside .. => .invalidSplitRange
  | paddingOutOfRange _ | shiftOutOfRange _ => .invalidNumberRange
  | operandSizes .. => .invalidOperandSize
  | doesNotFit .. => .impossibleEncoding
  | divideByZero => .divideByZero
  | verificationFailed v => v.code
  | unbalanced _ => .unbalancedConditional
  | longCondition | oddCondition => .minimalIf
  | returned => .earlyReturn
  | signatureType _ => .invalidSigHashType
  | forkIdMissing | forkIdUnexpected => .illegalForkId
  | signatureForm _ => .sigDer
  | highS => .sigHighS
  | publicKeyForm => .pubKeyType
  | noChecker => .invalidParams
  | signatureNotEmpty => .nullFail
  | emptyStack => .emptyStack
  | uncleanStack _ => .cleanStack
  | capacityOverflow => .capacityOverflow

/-- What a fault says. -/
def message : Fault → String
  | scriptTooBig role size limit =>
    s!"{role.label} script size {size} is larger than the max allowed size {limit}"
  | nothingToRun | falseResult => "false stack entry at end of script execution"
  | notPushOnly => "signature script is not push only"
  | truncatedPush op declared present =>
    s!"opcode {op.label} requires {declared} bytes, but script only has {present} remaining"
  | pushTooBig size limit => s!"element size {size} exceeds max allowed size {limit}"
  | joinTooBig size limit => s!"concatenated size {size} exceeds max allowed size {limit}"
  | paddedTooBig size limit => s!"num2bin size {size} exceeds max allowed size {limit}"
  | disabledOpcode op => s!"attempt to execute disabled opcode {op.label}"
  | reservedOpcode op => s!"attempt to execute reserved opcode {op.label}"
  | invalidOpcode op => s!"attempt to execute invalid opcode {op.label}"
  | unsupportedOpcode op => s!"{op.label} is not supported"
  | discouragedNop n => s!"OP_NOP{n} reserved for soft-fork upgrades"
  | tooManyOperations limit => s!"exceeded max operation limit of {limit}"
  | stackOverflow size limit => s!"combined stack size {size} > max allowed {limit}"
  | invalidIndex n depth => s!"index {n} is invalid for stack size {depth}"
  | emptyAltStack => "attempt to pop from an empty alt stack"
  | numberTooBig size limit =>
    s!"numeric value is {size} bytes which exceeds the max allowed of {limit}"
  | resultTooBig size limit =>
    s!"bin2num result of {size} bytes exceeds max number length {limit}"
  | splitOutside position size => s!"split position {position} is outside 0..={size}"
  | paddingOutOfRange size => s!"num2bin size {size} is out of range"
  | shiftOutOfRange count => s!"shift count {count} is out of range"
  | operandSizes first second => s!"operands have different sizes {first} and {second}"
  | doesNotFit needed size => s!"cannot fit {needed} byte number into {size} bytes"
  | divideByZero => "divide by zero"
  | verificationFailed v => s!"{v.label} failed"
  | unbalanced how => how.message
  | longCondition => "conditional has data of length greater than 1"
  | oddCondition => "conditional failed minimal check"
  | returned => "script returned early"
  | signatureType flag => s!"invalid hash type 0x{Opcode.hexDigits flag}"
  | forkIdMissing => "fork id sighash must be used"
  | forkIdUnexpected => "fork id sighash set without flag"
  | signatureForm e => e.message
  | highS => "signature is not canonical due to unnecessarily high S value"
  | publicKeyForm => "unsupported public key type"
  | noChecker => "no transaction context for OP_CHECKSIG"
  | signatureNotEmpty => "signature not empty on failed checksig"
  | emptyStack => "stack empty at end of script execution"
  | uncleanStack extra => s!"stack contains {extra} unexpected items"
  | capacityOverflow => "capacity overflow"

end Fault

end Utxo
