/-
Outputs: coins and the scripts that lock them.
-/
import Utxo.Script.Basic
import Utxo.Tx.Error

namespace Utxo.Tx

/-- A read of a part of a transaction. -/
abbrev ReadTx := ExceptT Error (StateM Cursor)

/-- Reads a field, which an error names. -/
def readField {α : Type} (field : Field) (r : Read α) : ReadTx α :=
  ExceptT.adapt (Error.unreadable field) r

/-- Reads `n` parts of one kind. -/
def readMany {α : Type} (r : ReadTx α) : Nat → ReadTx (List α)
  | 0 => return []
  | n + 1 => do
    let x ← r
    let xs ← readMany r n
    return x :: xs

/-- Reads a script after its length. -/
def readScript (field : Field) : ReadTx Bytes := do
  let n ← readField .scriptLength .length
  readField field (.bytes n.toNat)

/-- A script after its length. -/
def encodeScript (bs : Bytes) : Bytes := CompactSize.ofLength bs.length ++ bs

/-- A number of satoshis and the script that locks them. -/
structure Output where
  satoshis : UInt64
  lockingScript : Script
deriving DecidableEq

namespace Output

/-- The output as it is written. -/
def encode (o : Output) : Bytes :=
  littleEndian 8 o.satoshis.toNat ++ encodeScript o.lockingScript.bytes

/-- Reads an output. -/
def read : ReadTx Output := do
  let satoshis ← readField .satoshis .u64
  let script ← readScript .lockingScript
  return ⟨satoshis, ⟨script⟩⟩

end Output

end Utxo.Tx
