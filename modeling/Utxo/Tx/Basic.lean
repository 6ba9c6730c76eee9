/-
Transactions and their wire format.
-/
import Utxo.Digest.Sha256
import Utxo.Tx.Input

namespace Utxo

/-- A transaction. -/
structure Transaction where
  version : UInt32
  inputs : List Tx.Input
  outputs : List Tx.Output
  lockTime : UInt32
deriving DecidableEq

namespace Transaction

open Tx

/-- The transaction without inputs and outputs. -/
def empty : Transaction := ⟨1, [], [], 0⟩

/-- The transaction as it is written. -/
def encode (tx : Transaction) : Bytes :=
  littleEndian 4 tx.version.toNat ++
    CompactSize.ofLength tx.inputs.length ++ tx.inputs.flatMap Input.encode ++
    CompactSize.ofLength tx.outputs.length ++ tx.outputs.flatMap Output.encode ++
    littleEndian 4 tx.lockTime.toNat

/-- Reads a transaction. -/
def read : ReadTx Transaction := do
  let version ← readField .version .u32
  let inputCount ← readField .inputCount .length
  let inputs ← readMany Input.read inputCount.toNat
  let outputCount ← readField .outputCount .length
  let outputs ← readMany Output.read outputCount.toNat
  let lockTime ← readField .lockTime .u32
  return ⟨version, inputs, outputs, lockTime⟩

/-- The transaction that bytes stand for, with none left. -/
def decode (bs : Bytes) : Except Error Transaction :=
  match read.run (.start bs) with
  | (.error e, _) => .error e
  | (.ok tx, c) => if c.isFinished then .ok tx else .error (.trailing c.remaining)

/-- The transaction in hexadecimal digits. -/
def toHex (tx : Transaction) : String := Hex.encode tx.encode

/-- The transaction written in hexadecimal digits. -/
def ofHex (text : String) : Except Error Transaction :=
  match Hex.decodeLenient text with
  | .error e => .error (.hex e)
  | .ok bs => decode bs

/-- The digest of the transaction. -/
def hash (tx : Transaction) : Hash256 := Digest.sha256d tx.encode

/-- The id of the transaction, as it is shown: its digest, last byte first. -/
def id (tx : Transaction) : String := Hex.encode tx.hash.reverse.bytes

/-- The transaction with one more input. -/
def addInput (tx : Transaction) (i : Input) : Transaction := { tx with inputs := tx.inputs ++ [i] }

/-- The transaction with one more output. -/
def addOutput (tx : Transaction) (o : Output) : Transaction :=
  { tx with outputs := tx.outputs ++ [o] }

end Transaction

end Utxo
