/-
What a signature commits to.

The sighash type says which parts of a transaction a signature fixes. The preimage holds the input
that is signed, digests of the other parts as far as they are fixed, and the type itself.
-/
import Utxo.Tx.Cache

namespace Utxo.Tx

namespace Sighash

/-- Fixes no output. -/
def none : UInt32 := 0x02

/-- Fixes the output at the index of the input that is signed. -/
def single : UInt32 := 0x03

/-- Set in every type. -/
def forkId : UInt32 := 0x40

/-- Fixes no other input. -/
def anyoneCanPay : UInt32 := 0x80

/-- The type that fixes everything. -/
def all : UInt32 := 0x41

/-- The part of a type that says which outputs are fixed. -/
def base (type : UInt32) : UInt32 := type &&& 0x1f

/-- Whether a bit is set in a type. -/
def has (type bit : UInt32) : Bool := type &&& bit ≠ 0

/-- Whether a type fixes all outputs. -/
def fixesOutputs (type : UInt32) : Bool := base type ≠ single && base type ≠ none

/-- Whether a type fixes all outpoints. -/
def fixesInputs (type : UInt32) : Bool := !has type anyoneCanPay

end Sighash

/-- What is signed beside the transaction. -/
structure SignedPart where
  inputIndex : Nat
  /-- The script code. -/
  script : Bytes
  sighashType : UInt32
  /-- The value of the output that is spent. -/
  satoshis : UInt64
deriving DecidableEq

/-- The digest of outpoints in a preimage, and the cache with it. -/
def prevoutsDigest (tx : Transaction) (type : UInt32) (cache : DigestCache) :
    Hash256 × DigestCache :=
  if Sighash.fixesInputs type then
    let h := cache.prevouts.getD (prevoutsHash tx)
    (h, { cache with prevouts := some h })
  else (.zero 32, cache)

/-- The digest of sequence numbers in a preimage, and the cache with it. -/
def sequenceDigest (tx : Transaction) (type : UInt32) (cache : DigestCache) :
    Hash256 × DigestCache :=
  if Sighash.fixesInputs type && Sighash.fixesOutputs type then
    let h := cache.sequence.getD (sequenceHash tx)
    (h, { cache with sequence := some h })
  else (.zero 32, cache)

/-- The digest of outputs in a preimage, and the cache with it. That of a single output is of one
input only and not kept. -/
def outputsDigest (tx : Transaction) (index : Nat) (type : UInt32) (cache : DigestCache) :
    Hash256 × DigestCache :=
  if Sighash.fixesOutputs type then
    let h := cache.outputs.getD (outputsHash tx)
    (h, { cache with outputs := some h })
  else if Sighash.base type = Sighash.single then
    match tx.outputs[index]? with
    | some o => (Digest.sha256d o.encode, cache)
    | none => (.zero 32, cache)
  else (.zero 32, cache)

/-- The preimage of an input under a lock time, and the cache with the digests that it needed. A
digest in the cache is not computed again. -/
def preimageAt (tx : Transaction) (part : SignedPart) (lockTime : UInt32) (cache : DigestCache) :
    Except Error (Bytes × DigestCache) :=
  match tx.inputs[part.inputIndex]? with
  | none => .error (.inputIndex part.inputIndex tx.inputs.length)
  | some input =>
    let type := part.sighashType
    if !Sighash.has type Sighash.forkId then .error (.unsupportedSighash type)
    else
      let (prevouts, cache) := prevoutsDigest tx type cache
      let (sequence, cache) := sequenceDigest tx type cache
      let (outputs, cache) := outputsDigest tx part.inputIndex type cache
      .ok (littleEndian 4 tx.version.toNat ++ prevouts.bytes ++ sequence.bytes ++
        input.outpoint.encode ++ encodeScript part.script ++
        littleEndian 8 part.satoshis.toNat ++ littleEndian 4 input.sequence.toNat ++
        outputs.bytes ++ littleEndian 4 lockTime.toNat ++ littleEndian 4 type.toNat, cache)

/-- The preimage of an input, and the cache with the digests that it needed. -/
def preimage (tx : Transaction) (part : SignedPart) (cache : DigestCache) :
    Except Error (Bytes × DigestCache) := preimageAt tx part tx.lockTime cache

/-- The digest that is signed. -/
def signatureHash (tx : Transaction) (part : SignedPart) : Except Error Hash256 :=
  (preimage tx part .empty).map fun (bytes, _) => Digest.sha256d bytes

end Utxo.Tx
