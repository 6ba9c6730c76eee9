/-
A cursor over a byte string.

Every read is a `Read`: it either gives a value or fails, and the cursor is what it is afterwards
in both cases. A read of a fixed width that fails does not move. A compact size is a marker and
then what the marker announces, so if only the second part is missing the cursor stays behind the
marker.

* **`bytes_run`** — a fixed read takes its bytes or leaves the cursor alone.
-/
import Utxo.Bytes.CompactSize

namespace Utxo

/-- Why a read fails. -/
inductive ReadError where
  /-- The data ends before the value does. -/
  | endOfData
  /-- A count or length above `CompactSize.maxLength`. -/
  | tooLarge (v : UInt64)
deriving DecidableEq

/-- What the error says. -/
def ReadError.message : ReadError → String
  | endOfData => "unexpected end of data"
  | tooLarge v => s!"varint too large: {v} exceeds 2^53-1"

/-- A place in a byte string: how many bytes are behind it, and those ahead. -/
structure Cursor where
  position : Nat
  rest : Bytes
deriving DecidableEq

/-- A read leaves the cursor somewhere whether or not it gives a value. -/
abbrev Read := ExceptT ReadError (StateM Cursor)

namespace Cursor

/-- The start of a byte string. -/
def start (data : Bytes) : Cursor := ⟨0, data⟩

/-- How many bytes are ahead. -/
def remaining (c : Cursor) : Nat := c.rest.length

/-- Whether no byte is ahead. -/
def isFinished (c : Cursor) : Bool := c.rest.isEmpty

/-- The cursor `n` bytes further on. -/
def advance (c : Cursor) (n : Nat) : Cursor := ⟨c.position + n, c.rest.drop n⟩

end Cursor

namespace Read

/-- The next `n` bytes. -/
def bytes (n : Nat) : Read Bytes := fun c =>
  if n ≤ c.remaining then (.ok (c.rest.take n), c.advance n) else (.error .endOfData, c)

/-- A fixed read takes its bytes or leaves the cursor alone. -/
theorem bytes_run (n : Nat) (c : Cursor) :
    (bytes n).run c =
      if n ≤ c.remaining then (.ok (c.rest.take n), c.advance n) else (.error .endOfData, c) := rfl

/-- The next `n` bytes, last byte first. -/
def reversed (n : Nat) : Read Bytes := return (← bytes n).reverse

/-- The integer in the next `w` bytes, least significant byte first. -/
def natLE (w : Nat) : Read Nat := return ofLittleEndian (← bytes w)

/-- The next byte. -/
def u8 : Read UInt8 := return UInt8.ofNat (← natLE 1)

/-- The 16 bit integer that is next. -/
def u16 : Read UInt16 := return UInt16.ofNat (← natLE 2)

/-- The 32 bit integer that is next. -/
def u32 : Read UInt32 := return UInt32.ofNat (← natLE 4)

/-- The signed 32 bit integer that is next. -/
def i32 : Read Int32 := return (← u32).toInt32

/-- The 64 bit integer that is next. -/
def u64 : Read UInt64 := return UInt64.ofNat (← natLE 8)

/-- The compact size that is next, in any of its forms. -/
def compactSize : Read UInt64 := do
  let marker ← u8
  match CompactSize.announced marker with
  | 0 => return marker.toUInt64
  | w => return UInt64.ofNat (← natLE w)

/-- The compact size that is next, if a count or length may be that large. -/
def length : Read UInt64 := do
  let v ← compactSize
  if CompactSize.maxLength < v then throw (.tooLarge v) else return v

end Read

/-- The value of the compact size at the start of a byte string, and how many bytes it takes. -/
def CompactSize.decode (data : Bytes) : Except ReadError (UInt64 × Nat) :=
  match Read.compactSize.run (.start data) with
  | (.ok v, c) => .ok (v, c.position)
  | (.error e, _) => .error e

end Utxo
