/-
Compact sizes: the counts and lengths of the wire format.

A value below 253 is its own byte. Above that a marker byte announces two, four or eight bytes.
-/
import Utxo.Bytes.Basic

namespace Utxo.CompactSize

/-- How many bytes a value takes. -/
def size (v : UInt64) : Nat :=
  if v < 0xfd then 1 else if v ≤ 0xffff then 3 else if v ≤ 0xffffffff then 5 else 9

/-- The shortest form of a value. -/
def encode (v : UInt64) : Bytes :=
  if v < 0xfd then [v.toUInt8]
  else if v ≤ 0xffff then 0xfd :: littleEndian 2 v.toNat
  else if v ≤ 0xffffffff then 0xfe :: littleEndian 4 v.toNat
  else 0xff :: littleEndian 8 v.toNat

/-- The form of a length. -/
def ofLength (n : Nat) : Bytes := encode (UInt64.ofNat n)

/-- A value written over the start of a buffer, with the number of bytes written. -/
def overwrite (v : UInt64) (buffer : Bytes) : Nat × Bytes :=
  ((encode v).length, encode v ++ buffer.drop (encode v).length)

/-- The largest value that a count or a length may have: every integer up to it is exact in
double precision. -/
def maxLength : UInt64 := 0x1fffffffffffff

/-- How many bytes follow a marker, if the byte is one. -/
def announced (marker : UInt8) : Nat :=
  if marker = 0xff then 8 else if marker = 0xfe then 4 else if marker = 0xfd then 2 else 0

@[simp] theorem length_encode (v : UInt64) : (encode v).length = size v := by
  unfold encode size
  repeat' split
  all_goals simp

end Utxo.CompactSize
