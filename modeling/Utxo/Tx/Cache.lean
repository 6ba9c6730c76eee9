/-
The digests of a transaction that all its signatures share.

A digest that is absent has not been computed. The cache is written as JSON, absent digests as null,
and also as the hexadecimal digits of that text.
-/
import Utxo.Json.Printer
import Utxo.Json.Value
import Utxo.Tx.Basic

namespace Utxo.Tx

/-- The digests of all outpoints, all sequence numbers and all outputs, as far as computed. -/
structure DigestCache where
  prevouts : Option Hash256
  sequence : Option Hash256
  outputs : Option Hash256
deriving DecidableEq

/-- The digest of the outpoints of all inputs. -/
def prevoutsHash (tx : Transaction) : Hash256 :=
  Digest.sha256d (tx.inputs.flatMap (·.outpoint.encode))

/-- The digest of the sequence numbers of all inputs. -/
def sequenceHash (tx : Transaction) : Hash256 :=
  Digest.sha256d (tx.inputs.flatMap (littleEndian 4 ·.sequence.toNat))

/-- The digest of all outputs. -/
def outputsHash (tx : Transaction) : Hash256 := Digest.sha256d (tx.outputs.flatMap Output.encode)

namespace DigestCache

/-- No digest is computed. -/
def empty : DigestCache := ⟨none, none, none⟩

/-- All digests of a transaction. -/
def ofTransaction (tx : Transaction) : DigestCache :=
  ⟨some (prevoutsHash tx), some (sequenceHash tx), some (outputsHash tx)⟩

/-- The names of the digests. -/
def fieldNames : List String := ["prevoutsHashBuf", "sequenceHashBuf", "outputsHashBuf"]

/-- A digest as JSON. -/
def printDigest : Option Hash256 → String
  | some h => Json.printText (Hex.encode h.bytes)
  | none => "null"

/-- The cache as JSON. -/
def toJson (c : DigestCache) : String :=
  Json.printObject (fieldNames.zip ([c.prevouts, c.sequence, c.outputs].map printDigest))

/-- The hexadecimal digits of the JSON. -/
def toHex (c : DigestCache) : String := Hex.encode c.toJson.toUTF8.toList

/-- The digest that a value stands for. -/
def readDigest (j : Json) : Option Hash256 := do
  let bs ← (Hex.decode (← j.asText?)).toOption
  FixedBytes.ofBytes? 32 bs

/-- The cache that a JSON text stands for. -/
def ofJson (text : Bytes) : Except Error DigestCache :=
  match (do
    match ← Json.record? fieldNames 0 (← Json.parse text) with
    | [prevouts, sequence, outputs] =>
      return (⟨← Json.optional? readDigest prevouts, ← Json.optional? readDigest sequence,
        ← Json.optional? readDigest outputs⟩ : DigestCache)
    | _ => none) with
  | some c => .ok c
  | none => .error .cacheJson

/-- The cache whose JSON is written in hexadecimal digits. -/
def ofHex (text : String) : Except Error DigestCache :=
  match Hex.decode text with
  | .error e => .error (.cacheHex e)
  | .ok bs => ofJson bs

end DigestCache

end Utxo.Tx
