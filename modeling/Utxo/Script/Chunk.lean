/-
Chunks: the opcodes and pushes that a script is made of.

Reading never fails. A push that the script ends inside of keeps the bytes that are there and is
*truncated*; every chunk remembers how much of its length was written, so its bytes can be written
again as they were.

* **`Chunk.length_rest_le`** — reading a chunk leaves less than there was.
-/
import Utxo.Bytes.Sink
import Utxo.Script.Error

namespace Utxo

namespace Push

/-- The largest number of bytes that one push can hold. -/
def maxLength : Nat := 0xffffffff

/-- How many bytes of length follow a push opcode. -/
def lengthWidth (op : Opcode) : Nat :=
  if op = Opcode.pushData1 then 1 else if op = Opcode.pushData2 then 2
  else if op = Opcode.pushData4 then 4 else 0

/-- The shortest opcode that pushes `n` bytes. -/
def opcode (n : Nat) : Except Script.Error Opcode :=
  if n ≤ 0x4b then .ok (UInt8.ofNat n)
  else if n ≤ 0xff then .ok Opcode.pushData1
  else if n ≤ 0xffff then .ok Opcode.pushData2
  else if n ≤ maxLength then .ok Opcode.pushData4
  else .error (.dataTooLarge n)

/-- What is written before `n` bytes to push. -/
def header (n : Nat) : Except Script.Error Bytes :=
  (opcode n).map fun op => op :: littleEndian (lengthWidth op) n

/-- The push of a byte string. -/
def encode (data : Bytes) : Except Script.Error Bytes :=
  (header data.length).map (· ++ data)

/-- The pushes of several byte strings, one after the other. -/
def encodeAll (parts : List Bytes) : Except Script.Error Bytes :=
  (parts.mapM encode).map List.flatten

/-- A sink with one more push. -/
def writeTo (sink : Sink) (data : Bytes) : Except Script.Error Sink :=
  (header data.length).map fun h => (sink.write h).write data

end Push

/-- A piece of a script. -/
structure Chunk where
  op : Opcode
  /-- The bytes pushed, if the opcode pushes. -/
  data : Option Bytes
  /-- The number of bytes that the push announces. -/
  declaredLength : Nat
  /-- How many bytes of the announcement are written. -/
  lengthWidth : Nat
deriving DecidableEq

namespace Chunk

/-- An opcode that pushes no bytes. -/
def ofOpcode (op : Opcode) : Chunk := ⟨op, none, 0, 0⟩

/-- The shortest push of a byte string. -/
def push (data : Bytes) : Except Script.Error Chunk :=
  (Push.opcode data.length).map fun op => ⟨op, some data, data.length, Push.lengthWidth op⟩

/-- Whether the chunk pushes bytes. -/
def isPush (c : Chunk) : Bool := c.data.isSome

/-- Whether the script ends inside the chunk. -/
def isTruncated (c : Chunk) : Bool :=
  match c.data with
  | some data => data.length < c.declaredLength || c.lengthWidth < Push.lengthWidth c.op
  | none => false

/-- The number of bytes pushed. -/
def dataLength (c : Chunk) : Nat := (c.data.getD []).length

/-- The chunk as it is written. -/
def encode (c : Chunk) : Bytes :=
  c.op :: (littleEndian 4 c.declaredLength).take c.lengthWidth ++ c.data.getD []

/-- The word that stands for the chunk in assembly text. -/
def asm (c : Chunk) : String :=
  match c.data with
  | some [] => "0"
  | some data => Hex.encode data
  | none => if c.op = Opcode.negativeOne then "-1" else c.op.text

/-- The chunk that starts with an opcode, and what follows it. -/
def read (op : Opcode) (rest : Bytes) : Chunk × Bytes :=
  if !op.isPush then (ofOpcode op, rest)
  else
    let width := Push.lengthWidth op
    let written := rest.take width
    let n := if width = 0 then op.toNat else ofLittleEndian written
    let body := rest.drop width
    (⟨op, some (body.take n), n, written.length⟩, body.drop n)

theorem length_rest_le (op : Opcode) (rest : Bytes) : (read op rest).2.length ≤ rest.length := by
  unfold read
  split
  · exact Nat.le_refl _
  · simp only [List.length_drop]
    omega

/-- At most `n` chunks of a script. -/
def decodeUpTo : Nat → Bytes → List Chunk
  | 0, _ => []
  | _, [] => []
  | n + 1, op :: rest => (read op rest).1 :: decodeUpTo n (read op rest).2

/-- The chunks of a script. There are no more of them than bytes. -/
def decode (script : Bytes) : List Chunk := decodeUpTo script.length script

/-- More chunks are not found by looking for more. -/
theorem decodeUpTo_eq {n m : Nat} {script : Bytes} (hn : script.length ≤ n)
    (hm : script.length ≤ m) : decodeUpTo n script = decodeUpTo m script := by
  induction n generalizing m script with
  | zero =>
    cases script with
    | nil => cases m <;> rfl
    | cons op rest => simp at hn
  | succ n ih =>
    cases script with
    | nil => cases m <;> rfl
    | cons op rest =>
      cases m with
      | zero => simp at hm
      | succ m =>
        have h := length_rest_le op rest
        simp only [List.length_cons] at hn hm
        simp only [decodeUpTo]
        rw [ih (m := m) (by omega) (by omega)]

@[simp] theorem decode_nil : decode [] = [] := rfl

theorem decode_cons (op : Opcode) (rest : Bytes) :
    decode (op :: rest) = (read op rest).1 :: decode (read op rest).2 := by
  rw [decode, List.length_cons, decodeUpTo, decode]
  rw [decodeUpTo_eq (length_rest_le op rest) (Nat.le_refl _)]

/-- What holds of no bytes, and of a script if it holds of what its first chunk leaves, holds of every
script. -/
theorem decode_induction {motive : Bytes → Prop} (nil : motive [])
    (cons : ∀ op rest, motive (read op rest).2 → motive (op :: rest)) :
    ∀ script, motive script
  | [] => nil
  | op :: rest => cons op rest (decode_induction nil cons (read op rest).2)
termination_by script => script.length
decreasing_by exact Nat.lt_succ_of_le (length_rest_le op rest)

end Chunk

end Utxo
