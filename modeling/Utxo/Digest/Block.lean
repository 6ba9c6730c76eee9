/-
What the block digests have in common: padding and cutting.

A message is padded to a whole number of 64 byte blocks by a one bit, zeros and its length in
bits, and cut into 32 bit words.
-/
import Utxo.Bytes.Basic

namespace Utxo.Digest

/-- Bytes in a block. -/
def blockSize : Nat := 64

/-- The padding of a message of `len` bytes, `length` writing its bit count in eight bytes. -/
def padding (length : Nat → Bytes) (len : Nat) : Bytes :=
  0x80 :: List.replicate ((119 - len % blockSize) % blockSize) 0 ++ length (8 * len)

/-- The first `count` pieces of `n` items each. -/
def pieces {α : Type} (n : Nat) : Nat → List α → List (List α)
  | 0, _ => []
  | count + 1, xs => xs.take n :: pieces n count (xs.drop n)

/-- The blocks of a padded message, `word` reading four bytes. -/
def blocks (length : Nat → Bytes) (word : Bytes → Nat) (message : Bytes) : List (List UInt32) :=
  let padded := message ++ padding length message.length
  (pieces blockSize (padded.length / blockSize) padded).map fun block =>
    (pieces 4 16 block).map fun bs => UInt32.ofNat (word bs)

/-- `x` turned left by `n` bits. -/
def rotateLeft (x n : UInt32) : UInt32 := (x <<< n) ||| (x >>> (32 - n))

/-- `x` turned right by `n` bits. -/
def rotateRight (x n : UInt32) : UInt32 := (x >>> n) ||| (x <<< (32 - n))

end Utxo.Digest
