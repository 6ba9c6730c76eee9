/-
Scripts: byte strings read as chunks.

A script is written in hexadecimal digits or as assembly text, one word a chunk.
-/
import Utxo.Json.Printer
import Utxo.Json.Value
import Utxo.Script.Chunk
import Utxo.Text.Blank

namespace Utxo

/-- A script, as it is written. -/
structure Script where
  bytes : Bytes
deriving DecidableEq

namespace Script

instance : Inhabited Script := ⟨⟨[]⟩⟩

/-- The script without chunks. -/
def empty : Script := ⟨[]⟩

/-- Whether the script has no byte. -/
def isEmpty (s : Script) : Bool := s.bytes.isEmpty

/-- The number of bytes. -/
def length (s : Script) : Nat := s.bytes.length

/-- The chunks of a script. -/
def chunks (s : Script) : List Chunk := Chunk.decode s.bytes

/-- The script made of chunks. -/
def ofChunks (cs : List Chunk) : Script := ⟨cs.flatMap Chunk.encode⟩

/-- The script written in hexadecimal digits. -/
def ofHex (text : String) : Except Error Script :=
  match Hex.decodeLenient text with
  | .ok bs => .ok ⟨bs⟩
  | .error e => .error (.hex e)

/-- The script in hexadecimal digits. -/
def toHex (s : Script) : String := Hex.encode s.bytes

/-! ### JSON -/

/-- The script as a JSON string of its digits. -/
def toJson (s : Script) : String := Json.printText s.toHex

/-- The script that a JSON text stands for. -/
def ofJson? (text : Bytes) : Option Script := do
  let digits ← (← Json.parse text).asText?
  (ofHex digits).toOption

/-! ### Assembly text -/

/-- The bytes that a word of assembly text stands for. -/
def encodeWord (word : String) : Except Error Bytes :=
  if word = "0" then .ok [0]
  else if word = "-1" then .ok [Opcode.negativeOne]
  else match Opcode.ofMnemonic? word with
    | some op => .ok [op]
    | none =>
      match Hex.decodeLenient word with
      | .ok data => Push.encode data
      | .error e => .error (.hex e)

/-- The script that a list of words stands for. -/
def ofWords (words : List String) : Except Error Script :=
  (words.mapM encodeWord).map fun parts => ⟨parts.flatten⟩

/-- The script that an assembly text stands for. -/
def ofAsm (text : String) : Except Error Script := ofWords (Text.words text)

/-- The script as assembly text. -/
def toAsm (s : Script) : String := String.intercalate " " (s.chunks.map Chunk.asm)

/-- The script as assembly text in a frame that tells it from other values. -/
def describe (s : Script) : String := s!"Script({s.toAsm})"

/-! ### Classes of scripts -/

/-- Whether the script is `OP_DUP OP_HASH160 <20 bytes> OP_EQUALVERIFY OP_CHECKSIG`. -/
def isP2pkh (s : Script) : Bool :=
  s.length = 25 && s.bytes.take 3 = [Opcode.dup, Opcode.hash160, 20] &&
    s.bytes.drop 23 = [Opcode.equalVerify, Opcode.checkSig]

/-- Whether every chunk pushes bytes or a small number, and none is truncated. -/
def isPushOnly (s : Script) : Bool :=
  s.chunks.all fun c => (c.isPush && !c.isTruncated) || c.op.isSmallInt

/-! ### Building -/

/-- The script with one more push. -/
def pushData (s : Script) (data : Bytes) : Except Error Script :=
  (Push.encode data).map fun p => ⟨s.bytes ++ p⟩

/-- The script with more opcodes, none of which a length or data has to follow. -/
def pushOpcodes (s : Script) (ops : Bytes) : Except Error Script :=
  match ops.find? fun op => 0 < op && op ≤ Opcode.pushData4 with
  | some op => .error (.needsData op)
  | none => .ok ⟨s.bytes ++ ops⟩

end Script

end Utxo
