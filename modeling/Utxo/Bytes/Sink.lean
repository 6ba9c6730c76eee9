/-
A growing buffer with room to spare.

The first `length` bytes of the buffer have been written; what lies behind them is spare room with
whatever it held before. A write that does not fit first grows the buffer to twice the length then
needed.

* **`Sink.length_le_capacity`** — what is written always fits the buffer;
* **`Sink.bytes_write`** — a write puts its bytes behind those written before.
-/
import Utxo.Bytes.CompactSize

namespace Utxo

/-- A buffer whose first `length` bytes have been written. -/
structure Sink where
  buffer : Bytes
  length : Nat
  length_le : length ≤ buffer.length := by simp
deriving DecidableEq

/-- Why a sink refuses. -/
inductive Sink.Error where
  /-- More bytes are said to be written than the buffer has. -/
  | shortBuffer (length size : Nat)
  /-- An integer needs more than 64 bits. -/
  | wideInteger (n : Nat)
deriving DecidableEq

/-- What the error says. -/
def Sink.Error.message : Sink.Error → String
  | shortBuffer length size =>
    s!"value out of range: length {length} exceeds buffer size {size}"
  | wideInteger n => s!"value out of range: {n} does not fit in 64 bits"

namespace Sink

/-- A sink without a buffer. -/
def empty : Sink := ⟨[], 0, Nat.le_refl 0⟩

/-- An empty sink with room for `n` bytes. -/
def withCapacity (n : Nat) : Sink := ⟨List.replicate n 0, 0, Nat.zero_le _⟩

/-- A sink over a buffer of which `length` bytes count as written. -/
def ofBuffer (buffer : Bytes) (length : Nat) : Except Error Sink :=
  if h : length ≤ buffer.length then .ok ⟨buffer, length, h⟩
  else .error (.shortBuffer length buffer.length)

/-- The size of the buffer. -/
def capacity (s : Sink) : Nat := s.buffer.length

/-- The bytes written. -/
def bytes (s : Sink) : Bytes := s.buffer.take s.length

/-- Whether nothing has been written. -/
def isEmpty (s : Sink) : Bool := s.length = 0

theorem length_le_capacity (s : Sink) : s.length ≤ s.capacity := s.length_le

/-- The buffer, grown to twice the length needed if `extra` bytes do not fit. -/
def grown (s : Sink) (extra : Nat) : Bytes :=
  if s.length + extra ≤ s.buffer.length then s.buffer
  else s.buffer ++ List.replicate (2 * (s.length + extra) - s.buffer.length) 0

theorem le_length_grown (s : Sink) (extra : Nat) : s.length + extra ≤ (s.grown extra).length := by
  unfold grown
  split
  · assumption
  · rw [List.length_append, List.length_replicate]
    omega

/-- Writes bytes over the spare room. -/
def write (s : Sink) (bs : Bytes) : Sink where
  buffer :=
    (s.grown bs.length).take s.length ++ bs ++ (s.grown bs.length).drop (s.length + bs.length)
  length := s.length + bs.length
  length_le := by
    have h := s.le_length_grown bs.length
    simp only [List.length_append, List.length_take, List.length_drop]
    omega

theorem take_grown (s : Sink) (extra : Nat) : (s.grown extra).take s.length = s.bytes := by
  unfold grown
  split
  · rfl
  · exact List.take_append_of_le_length s.length_le

/-- A write puts its bytes behind those written before. -/
@[simp] theorem bytes_write (s : Sink) (bs : Bytes) : (s.write bs).bytes = s.bytes ++ bs := by
  have hlength : (s.bytes ++ bs).length = s.length + bs.length := by
    rw [List.length_append, bytes, List.length_take_of_le s.length_le]
  show ((s.grown bs.length).take s.length ++ bs ++ _).take (s.length + bs.length) = _
  rw [take_grown]
  exact List.take_left' hlength

/-- Writes bytes, last byte first. -/
def writeReversed (s : Sink) (bs : Bytes) : Sink := s.write bs.reverse

/-- Writes one byte. -/
def writeByte (s : Sink) (b : UInt8) : Sink := s.write [b]

/-- Writes `w` bytes of an integer, least significant byte first. -/
def writeLE (s : Sink) (w n : Nat) : Sink := s.write (littleEndian w n)

/-- Writes `w` bytes of an integer, most significant byte first. -/
def writeBE (s : Sink) (w n : Nat) : Sink := s.write (bigEndian w n)

/-- Writes a signed 32 bit integer, least significant byte first. -/
def writeI32 (s : Sink) (v : Int32) : Sink := s.writeLE 4 v.toUInt32.toNat

/-- Writes an integer of any size in 64 bits, least significant byte first. -/
def writeWideLE (s : Sink) (n : Nat) : Except Error Sink :=
  if n < UInt64.size then .ok (s.writeLE 8 n) else .error (.wideInteger n)

/-- Writes an integer of any size in 64 bits, most significant byte first. -/
def writeWideBE (s : Sink) (n : Nat) : Except Error Sink :=
  if n < UInt64.size then .ok (s.writeBE 8 n) else .error (.wideInteger n)

/-- Writes a compact size. -/
def writeCompactSize (s : Sink) (v : UInt64) : Sink := s.write (CompactSize.encode v)

end Sink

end Utxo
