/-
Signing and verifying.

A `SignatureScheme` is what the rest of the library needs to know of ECDSA: the public key of a
private key, the raw components of a signature, the check of a signature, and the keys that bytes
stand for. `secp256k1` is the scheme on the curve of that name.

* **`SignatureScheme.sign`** — components in the lower half whatever the scheme returns.
-/
import Utxo.Ecdsa.Nonce
import Utxo.Ecdsa.Signature

namespace Utxo

/-- The operations of a signature scheme. -/
structure SignatureScheme where
  /-- The public key of a private key. -/
  publicKey : PrivateKey → PublicKey
  /-- The components of a signature of a digest, if there is one. -/
  components? : PrivateKey → Hash256 → Option (Nat × Nat)
  /-- Whether a signature of a digest is valid. -/
  verify : PublicKey → Bytes → Signature → Bool
  /-- The key in one of its written forms. -/
  readKey : Bytes → Except PublicKey.Error PublicKey

namespace SignatureScheme

/-- The signature of a digest, its second component in the lower half. -/
def sign (scheme : SignatureScheme) (key : PrivateKey) (digest : Hash256) :
    Except Signature.Error Signature :=
  match scheme.components? key digest with
  | some (r, s) => .ok (.ofScalars r s)
  | none => .error .noSignature

/-- The signature of bytes that have to be a digest. -/
def signBytes (scheme : SignatureScheme) (key : PrivateKey) (digest : Bytes) :
    Except Signature.Error Signature :=
  match FixedBytes.ofBytes? 32 digest with
  | some h => scheme.sign key h
  | none => .error (.digestLength digest.length)

end SignatureScheme

namespace Secp256k1

/-- The public key of a private key. -/
def publicKey (key : PrivateKey) : PublicKey :=
  match (Curve.Jacobian.generator.smul key.scalar).toAffine? with
  | some (x, y) => ⟨x, y⟩
  | none => ⟨0, 0⟩

/-- The components that a nonce gives, unless one of them is zero. -/
def componentsWith? (key : PrivateKey) (digest : Hash256) (k : Nat) : Option (Nat × Nat) :=
  match (Curve.Jacobian.generator.smul k).toAffine? with
  | none => none
  | some (x, _) =>
    let r := x % Curve.order
    let s := Curve.invMod Curve.order k * (digest.toNat + r * key.scalar) % Curve.order
    if r = 0 || s = 0 then none else some (r, s)

/-- The components of a signature of a digest. -/
def components? (key : PrivateKey) (digest : Hash256) : Option (Nat × Nat) :=
  (Nonce.find? key digest).bind (componentsWith? key digest)

/-- The integer that a digest stands for: its first 32 bytes. Less than 16 are too few. -/
def digestInteger? (digest : Bytes) : Option Nat :=
  if digest.length < 16 then none else some (ofBigEndian (digest.take 32) % Curve.order)

/-- Whether a component is a scalar other than zero. -/
def isScalar (n : Nat) : Bool := 0 < n && n < Curve.order

/-- Whether a signature of a digest is valid. One whose second component is in the upper half never
is. -/
def verify (key : PublicKey) (digest : Bytes) (sig : Signature) : Bool :=
  let r := sig.r.toNat
  let s := sig.s.toNat
  match digestInteger? digest with
  | none => false
  | some z =>
    if isScalar r && isScalar s && s ≤ Curve.order / 2 then
      let w := Curve.invMod Curve.order s
      let p := (Curve.Jacobian.generator.smul (z * w % Curve.order)).add
        ((Curve.Jacobian.ofAffine key.x key.y).smul (r * w % Curve.order))
      match p.toAffine? with
      | some (x, _) => x % Curve.order = r
      | none => false
    else false

end Secp256k1

/-- ECDSA on secp256k1, with nonces that depend on the key and the digest alone. -/
def secp256k1 : SignatureScheme where
  publicKey := Secp256k1.publicKey
  components? := Secp256k1.components?
  verify := Secp256k1.verify
  readKey := PublicKey.ofBytes

end Utxo
