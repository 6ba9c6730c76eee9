/-
Byte strings and the integers written in them.

A byte string is a list of bytes. A width that never varies is carried by the type
`FixedBytes n`, so digests and transaction ids are never measured. Integers are written with
`littleEndian` and `bigEndian` and read with `ofLittleEndian` and `ofBigEndian`:

* **`length_littleEndian`**, **`length_bigEndian`** — the width asked for is the width written.
-/

namespace Utxo

/-- A byte string, first byte first. -/
abbrev Bytes := List UInt8

/-- The `w` low bytes of `n`, least significant first. -/
def littleEndian : Nat → Nat → Bytes
  | 0, _ => []
  | w + 1, n => UInt8.ofNat n :: littleEndian w (n / 256)

/-- The `w` low bytes of `n`, most significant first. -/
def bigEndian (w n : Nat) : Bytes := (littleEndian w n).reverse

/-- The integer whose least significant byte comes first. -/
def ofLittleEndian (bs : Bytes) : Nat := bs.foldr (fun b n => b.toNat + 256 * n) 0

/-- The integer whose most significant byte comes first. -/
def ofBigEndian (bs : Bytes) : Nat := bs.foldl (fun n b => 256 * n + b.toNat) 0

@[simp] theorem length_littleEndian (w n : Nat) : (littleEndian w n).length = w := by
  induction w generalizing n with
  | zero => rfl
  | succ w ih => simp [littleEndian, ih]

@[simp] theorem length_bigEndian (w n : Nat) : (bigEndian w n).length = w := by
  simp [bigEndian]

@[simp] theorem ofLittleEndian_nil : ofLittleEndian [] = 0 := rfl

@[simp] theorem ofLittleEndian_cons (b : UInt8) (bs : Bytes) :
    ofLittleEndian (b :: bs) = b.toNat + 256 * ofLittleEndian bs := rfl

theorem ofBigEndian_eq_reverse (bs : Bytes) : ofBigEndian bs = ofLittleEndian bs.reverse := by
  simp [ofBigEndian, ofLittleEndian, Nat.add_comm]

/-- A byte string of exactly `n` bytes. -/
structure FixedBytes (n : Nat) where
  bytes : Bytes
  length_bytes : bytes.length = n
deriving DecidableEq

namespace FixedBytes

/-- The `n` bytes of `bs`, if it has that many. -/
def ofBytes? (n : Nat) (bs : Bytes) : Option (FixedBytes n) :=
  if h : bs.length = n then some ⟨bs, h⟩ else none

/-- `n` zero bytes. -/
def zero (n : Nat) : FixedBytes n := ⟨List.replicate n 0, List.length_replicate⟩

/-- The same bytes, last byte first. -/
def reverse {n : Nat} (b : FixedBytes n) : FixedBytes n :=
  ⟨b.bytes.reverse, by rw [List.length_reverse, b.length_bytes]⟩

/-- `k` written most significant byte first. -/
def ofNat (n k : Nat) : FixedBytes n := ⟨bigEndian n k, length_bigEndian n k⟩

/-- The integer whose most significant byte comes first. -/
def toNat {n : Nat} (b : FixedBytes n) : Nat := ofBigEndian b.bytes

instance (n : Nat) : Inhabited (FixedBytes n) := ⟨zero n⟩

@[ext] theorem ext {n : Nat} {a b : FixedBytes n} (h : a.bytes = b.bytes) : a = b := by
  cases a; cases b; cases h; rfl

end FixedBytes

/-- A digest of 32 bytes. -/
abbrev Hash256 := FixedBytes 32

/-- A digest of 20 bytes. -/
abbrev Hash160 := FixedBytes 20

end Utxo
