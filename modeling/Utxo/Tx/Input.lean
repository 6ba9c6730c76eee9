/-
Inputs: spends of earlier outputs.

The unlocking script is kept in the form it was given in, as bytes or as a script; the two forms
differ in nothing but `InputScript` itself.
-/
import Utxo.Tx.Output

namespace Utxo.Tx

/-- An unlocking script in the form it was given in. -/
inductive InputScript where
  | raw (bytes : Bytes)
  | parsed (script : Script)
deriving DecidableEq

/-- The bytes of an unlocking script in either form. -/
def InputScript.bytes : InputScript → Bytes
  | raw bs => bs
  | parsed s => s.bytes

/-- An output of an earlier transaction. -/
structure Outpoint where
  /-- The id of the transaction, as it is shown. -/
  txId : FixedBytes 32
  index : UInt32
deriving DecidableEq

/-- The outpoint as it is written, its id last byte first. -/
def Outpoint.encode (p : Outpoint) : Bytes := p.txId.bytes.reverse ++ littleEndian 4 p.index.toNat

/-- A spend of an earlier output. -/
structure Input where
  outpoint : Outpoint
  sequence : UInt32
  script : InputScript
  /-- The output that is spent, if it is known. -/
  spent : Option Output
deriving DecidableEq

namespace Input

/-- The sequence number of an input that is final. -/
def finalSequence : UInt32 := 0xffffffff

/-- The output index of an input that spends nothing. -/
def nullIndex : UInt32 := 0xffffffff

/-- A final input with a script and no known output. -/
def ofScript (outpoint : Outpoint) (script : Script) : Input :=
  ⟨outpoint, finalSequence, .parsed script, none⟩

/-- An input whose script is given in one of two forms. A script goes before bytes. -/
def ofParts (outpoint : Outpoint) (sequence : Option UInt32) (script : Option Script)
    (bytes : Option Bytes) (spent : Option Output) : Except Error Input :=
  let input := fun s => ⟨outpoint, sequence.getD finalSequence, s, spent⟩
  match script, bytes with
  | some s, _ => .ok (input (.parsed s))
  | none, some bs => .ok (input (.raw bs))
  | none, none => .error .missingScript

/-- Whether the input has the outpoint of a coinbase. -/
def isNull (i : Input) : Bool := i.outpoint.txId = .zero 32 && i.outpoint.index = nullIndex

/-- Whether the input is final. -/
def isFinal (i : Input) : Bool := i.sequence = finalSequence

/-- The bytes of the unlocking script. -/
def scriptBytes (i : Input) : Bytes := i.script.bytes

/-- The unlocking script. -/
def unlockingScript (i : Input) : Script := ⟨i.script.bytes⟩

/-- The input with its unlocking script in the form of a script. -/
def parseScript (i : Input) : Input := { i with script := .parsed i.unlockingScript }

/-- The input with another unlocking script. -/
def setScript (i : Input) (s : Script) : Input := { i with script := .parsed s }

/-- The input with another unlocking script, given as bytes. -/
def setScriptBytes (i : Input) (bs : Bytes) : Input := { i with script := .raw bs }

/-- The input as it is written. -/
def encode (i : Input) : Bytes :=
  i.outpoint.encode ++ encodeScript i.scriptBytes ++ littleEndian 4 i.sequence.toNat

/-- Reads the id of a transaction, which is written last byte first. -/
def readTxId : Read (FixedBytes 32) := do
  let bs ← Read.reversed 32
  return (FixedBytes.ofBytes? 32 bs).getD default

/-- Reads an input. -/
def read : ReadTx Input := do
  let txId ← readField .prevTxId readTxId
  let index ← readField .outputIndex .u32
  let script ← readScript .unlockingScript
  let sequence ← readField .sequence .u32
  return ⟨⟨txId, index⟩, sequence, .raw script, none⟩

end Input

end Utxo.Tx
