/-
Opcodes and their mnemonics.

One table gives the mnemonics, so each of them that is written can be read. The first entry of an
opcode is the one written; later entries are other names for it.
-/
import Utxo.Bytes.Hex

namespace Utxo

/-- The first byte of a chunk of a script. -/
abbrev Opcode := UInt8

namespace Opcode

/-- Pushes with a length of one, two and four bytes; any opcode below them is its own length. -/
abbrev pushData1 : Opcode := 0x4c
@[inherit_doc pushData1] abbrev pushData2 : Opcode := 0x4d
@[inherit_doc pushData1] abbrev pushData4 : Opcode := 0x4e

/-- Pushes minus one. -/
abbrev negativeOne : Opcode := 0x4f

/-- Pushes one. The opcodes from here to `sixteen` push the numbers 1 to 16. -/
abbrev one : Opcode := 0x51

/-- Pushes 16, and is the last opcode that does not count as an operation. -/
abbrev sixteen : Opcode := 0x60

/-- Opens a conditional. -/
abbrev ifTrue : Opcode := 0x63

/-- Closes a conditional. The opcodes from `ifTrue` to here are the conditional ones. -/
abbrev endIf : Opcode := 0x68

/-- Ends a script. -/
abbrev ret : Opcode := 0x6a

/-- Copies the top of the stack. -/
abbrev dup : Opcode := 0x76

/-- Fails unless the two top items are equal. -/
abbrev equalVerify : Opcode := 0x88

/-- Replaces the top of the stack by its digest of 20 bytes. -/
abbrev hash160 : Opcode := 0xa9

/-- Marks where the script code of the next signature check starts. -/
abbrev codeSeparator : Opcode := 0xab

/-- Checks a signature. -/
abbrev checkSig : Opcode := 0xac

/-- The opcodes that have mnemonics. -/
def mnemonics : List (Opcode × String) :=
  [(0x00, "OP_0"), (0x00, "OP_FALSE"), (0x4c, "OP_PUSHDATA1"), (0x4d, "OP_PUSHDATA2"),
   (0x4e, "OP_PUSHDATA4"), (0x4f, "OP_1NEGATE"), (0x50, "OP_RESERVED"), (0x51, "OP_1"),
   (0x51, "OP_TRUE"), (0x52, "OP_2"), (0x53, "OP_3"), (0x54, "OP_4"), (0x55, "OP_5"),
   (0x56, "OP_6"), (0x57, "OP_7"), (0x58, "OP_8"), (0x59, "OP_9"), (0x5a, "OP_10"),
   (0x5b, "OP_11"), (0x5c, "OP_12"), (0x5d, "OP_13"), (0x5e, "OP_14"), (0x5f, "OP_15"),
   (0x60, "OP_16"), (0x61, "OP_NOP"), (0x62, "OP_VER"), (0x63, "OP_IF"), (0x64, "OP_NOTIF"),
   (0x65, "OP_VERIF"), (0x66, "OP_VERNOTIF"), (0x67, "OP_ELSE"), (0x68, "OP_ENDIF"),
   (0x69, "OP_VERIFY"), (0x6a, "OP_RETURN"), (0x6b, "OP_TOALTSTACK"), (0x6c, "OP_FROMALTSTACK"),
   (0x6d, "OP_2DROP"), (0x6e, "OP_2DUP"), (0x6f, "OP_3DUP"), (0x70, "OP_2OVER"),
   (0x71, "OP_2ROT"), (0x72, "OP_2SWAP"), (0x73, "OP_IFDUP"), (0x74, "OP_DEPTH"),
   (0x75, "OP_DROP"), (0x76, "OP_DUP"), (0x77, "OP_NIP"), (0x78, "OP_OVER"), (0x79, "OP_PICK"),
   (0x7a, "OP_ROLL"), (0x7b, "OP_ROT"), (0x7c, "OP_SWAP"), (0x7d, "OP_TUCK"), (0x7e, "OP_CAT"),
   (0x7f, "OP_SPLIT"), (0x80, "OP_NUM2BIN"), (0x81, "OP_BIN2NUM"), (0x82, "OP_SIZE"),
   (0x83, "OP_INVERT"), (0x84, "OP_AND"), (0x85, "OP_OR"), (0x86, "OP_XOR"), (0x87, "OP_EQUAL"),
   (0x88, "OP_EQUALVERIFY"), (0x89, "OP_RESERVED1"), (0x8a, "OP_RESERVED2"), (0x8b, "OP_1ADD"),
   (0x8c, "OP_1SUB"), (0x8d, "OP_2MUL"), (0x8e, "OP_2DIV"), (0x8f, "OP_NEGATE"),
   (0x90, "OP_ABS"), (0x91, "OP_NOT"), (0x92, "OP_0NOTEQUAL"), (0x93, "OP_ADD"),
   (0x94, "OP_SUB"), (0x95, "OP_MUL"), (0x96, "OP_DIV"), (0x97, "OP_MOD"), (0x98, "OP_LSHIFT"),
   (0x99, "OP_RSHIFT"), (0x9a, "OP_BOOLAND"), (0x9b, "OP_BOOLOR"), (0x9c, "OP_NUMEQUAL"),
   (0x9d, "OP_NUMEQUALVERIFY"), (0x9e, "OP_NUMNOTEQUAL"), (0x9f, "OP_LESSTHAN"),
   (0xa0, "OP_GREATERTHAN"), (0xa1, "OP_LESSTHANOREQUAL"), (0xa2, "OP_GREATERTHANOREQUAL"),
   (0xa3, "OP_MIN"), (0xa4, "OP_MAX"), (0xa5, "OP_WITHIN"), (0xa6, "OP_RIPEMD160"),
   (0xa7, "OP_SHA1"), (0xa8, "OP_SHA256"), (0xa9, "OP_HASH160"), (0xaa, "OP_HASH256"),
   (0xab, "OP_CODESEPARATOR"), (0xac, "OP_CHECKSIG"), (0xad, "OP_CHECKSIGVERIFY"),
   (0xae, "OP_CHECKMULTISIG"), (0xaf, "OP_CHECKMULTISIGVERIFY"), (0xb0, "OP_NOP1"),
   (0xb1, "OP_CHECKLOCKTIMEVERIFY"), (0xb1, "OP_NOP2"), (0xb2, "OP_CHECKSEQUENCEVERIFY"),
   (0xb2, "OP_NOP3"), (0xb3, "OP_NOP4"), (0xb4, "OP_NOP5"), (0xb5, "OP_NOP6"), (0xb6, "OP_NOP7"),
   (0xb7, "OP_NOP8"), (0xb8, "OP_NOP9"), (0xb9, "OP_NOP10"), (0xff, "OP_INVALIDOPCODE")]

/-- The mnemonic of an opcode. -/
def mnemonic? (op : Opcode) : Option String := mnemonics.lookup op

/-- The opcode that a mnemonic names. -/
def ofMnemonic? (name : String) : Option Opcode :=
  (mnemonics.find? (·.2 = name)).map (·.1)

/-- The two hexadecimal digits of an opcode. -/
def hexDigits (op : Opcode) : String := Hex.encode [op]

/-- The mnemonic of an opcode, or its digits. -/
def text (op : Opcode) : String := (mnemonic? op).getD (hexDigits op)

/-- The mnemonic of an opcode, or its digits after `0x`, as messages name it. -/
def label (op : Opcode) : String := (mnemonic? op).getD ("0x" ++ hexDigits op)

/-- Whether an opcode pushes the bytes that follow it. -/
def isPush (op : Opcode) : Bool := op ≤ pushData4

/-- Whether an opcode pushes a small number. -/
def isSmallInt (op : Opcode) : Bool := op = negativeOne || (one ≤ op && op ≤ sixteen)

/-- Whether an opcode belongs to conditionals. -/
def isConditional (op : Opcode) : Bool := ifTrue ≤ op && op ≤ endIf

end Opcode

end Utxo
