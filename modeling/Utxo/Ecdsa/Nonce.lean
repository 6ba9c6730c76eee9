/-
Nonces that depend on the key and the digest alone.

A generator of byte strings is seeded with the key and the digest (RFC 6979 with HMAC-SHA256), and
the first of its outputs that is a scalar other than zero is the nonce.
-/
import Utxo.Digest.Hmac
import Utxo.Ecdsa.Key

namespace Utxo.Nonce

/-- The generator: its key and its value. -/
structure Generator where
  key : Hash256
  value : Hash256

/-- Mixes in a byte and a seed. -/
def Generator.mix (g : Generator) (tag : UInt8) (seed : Bytes) : Generator :=
  let key := Digest.hmacSha256 g.key.bytes (g.value.bytes ++ tag :: seed)
  ⟨key, Digest.hmacSha256 key.bytes g.value.bytes⟩

/-- The generator seeded with a key and a digest. -/
def Generator.seeded (key : PrivateKey) (digest : Hash256) : Generator :=
  let seed := key.toBytes.bytes ++ digest.bytes
  let start : Generator := ⟨.zero 32, ⟨List.replicate 32 1, List.length_replicate⟩⟩
  (start.mix 0 seed).mix 1 seed

/-- The first usable output among the next `attempts`. -/
def search : Nat → Generator → Option Nat
  | 0, _ => none
  | attempts + 1, g =>
    let value := Digest.hmacSha256 g.key.bytes g.value.bytes
    let k := value.toNat
    if 0 < k ∧ k < Curve.order then some k
    else search attempts ({ g with value }.mix 0 [])

/-- How many outputs are tried. One fails with a chance below `2 ^ -127`. -/
def attempts : Nat := 64

/-- The nonce for a key and a digest. -/
def find? (key : PrivateKey) (digest : Hash256) : Option Nat :=
  search attempts (.seeded key digest)

end Utxo.Nonce
