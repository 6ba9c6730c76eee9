/-
Signing inputs.

An input is signed against the output that it spends, which has to be known. The lock time of a
transaction can be moved on until the digest that is signed has low first and last bytes.
-/
import Utxo.Ecdsa.Scheme
import Utxo.Tx.Sighash

namespace Utxo.Tx

/-- A signature of an input and what it is a signature of. -/
structure SignatureRecord where
  publicKey : PublicKey
  outpoint : Outpoint
  inputIndex : Nat
  signature : Signature
  sighashType : UInt32
deriving DecidableEq

/-- The signature as signature checks take it, with the low byte of its type at the end. -/
def SignatureRecord.toCheckSig (r : SignatureRecord) : Bytes :=
  r.signature.toDer ++ [r.sighashType.toUInt8]

/-- A preimage and the lock time that it commits to. -/
structure Preimage where
  bytes : Bytes
  /-- How far the lock time was moved on. -/
  lockTimeOffset : UInt32
  lockTime : UInt32
deriving DecidableEq

namespace Preimage

/-- The digest that is signed. -/
def digest (p : Preimage) : Hash256 := Digest.sha256d p.bytes

/-- The transaction with the lock time that the preimage commits to. -/
def applyTo (p : Preimage) (tx : Transaction) : Transaction := { tx with lockTime := p.lockTime }

/-- Whether the first and the last byte of a digest are below 128. -/
def isLow (h : Hash256) : Bool :=
  h.bytes.head?.all (· < 0x80) && h.bytes.getLast?.all (· < 0x80)

end Preimage

namespace Input

/-- What a signature of an input commits to beside the transaction. -/
def signedPart (index : Nat) (type : UInt32) (output : Output) : SignedPart :=
  ⟨index, output.lockingScript.bytes, type, output.satoshis⟩

/-- Signs once for each key and type, with the digests computed so far in the cache. -/
def signAll (scheme : SignatureScheme) (i : Input) (output : Output) (tx : Transaction)
    (index : Nat) : List (PrivateKey × Option UInt32) → DigestCache →
    Except Error (List SignatureRecord)
  | [], _ => .ok []
  | (key, type) :: keys, cache => do
    let type := type.getD Sighash.all
    let (bytes, cache) ← preimage tx (signedPart index type output) cache
    let signature ← (scheme.sign key (Digest.sha256d bytes)).mapError .signature
    let records ← signAll scheme i output tx index keys cache
    return ⟨scheme.publicKey key, i.outpoint, index, signature, type⟩ :: records

/-- The signatures of an input, one for each key and type. Without a type, everything is fixed. -/
def signatures (scheme : SignatureScheme) (i : Input) (tx : Transaction)
    (keys : List (PrivateKey × Option UInt32)) (index : Nat) :
    Except Error (List SignatureRecord) :=
  match i.spent with
  | none => .error .missingPrevOutput
  | some output => signAll scheme i output tx index keys .empty

/-- The preimage with the lock time moved on by an offset. The one under the lock time itself is
there already. -/
def moved (tx : Transaction) (part : SignedPart) (unmoved : Bytes) (cache : DigestCache)
    (offset : Nat) : Except Error Bytes :=
  if 0 < offset then
    (preimageAt tx part (tx.lockTime + UInt32.ofNat offset) cache).map (·.1)
  else .ok unmoved

/-- The first of the next `n` lock times from an offset on whose preimage has a low digest. -/
def grind (tx : Transaction) (part : SignedPart) (unmoved : Bytes) (cache : DigestCache) :
    Nat → Nat → Except Error Preimage
  | 0, _ => .error .grindExhausted
  | n + 1, offset => do
    let bytes ← moved tx part unmoved cache offset
    if Preimage.isLow (Digest.sha256d bytes) then
      return ⟨bytes, UInt32.ofNat offset, tx.lockTime + UInt32.ofNat offset⟩
    else grind tx part unmoved cache n (offset + 1)

/-- The preimage of an input, with the lock time moved on as far as it takes for a low digest if
that is asked for. -/
def preimage (i : Input) (tx : Transaction) (index : Nat) (type : Option UInt32) (low : Bool) :
    Except Error Preimage :=
  match i.spent with
  | none => .error .missingPrevOutput
  | some output => do
    let part := signedPart index (type.getD Sighash.all) output
    let (bytes, cache) ← Tx.preimage tx part .empty
    if low then grind tx part bytes cache (UInt32.size - tx.lockTime.toNat) 0
    else return ⟨bytes, 0, tx.lockTime⟩

end Input

/-- A way to make unlocking scripts. -/
structure Template where
  /-- The unlocking script of an input. -/
  sign : Transaction → Nat → Except Error Script
  /-- How long the script is expected to be. -/
  estimatedLength : Nat

/-- The transaction with the unlocking script of an input made by a template. -/
def signInput (tx : Transaction) (index : Nat) (template : Template) : Except Error Transaction :=
  if tx.inputs.length ≤ index then .error (.inputIndex index tx.inputs.length)
  else do
    let script ← template.sign tx index
    return { tx with inputs := tx.inputs.modify index (·.setScript script) }

end Utxo.Tx
