/-
What goes wrong with transactions.
-/
import Utxo.Bytes.Cursor
import Utxo.Ecdsa.Signature
import Utxo.Script.Error

namespace Utxo.Tx

/-- The fields of the wire format. -/
inductive Field where
  | version
  | inputCount
  | prevTxId
  | outputIndex
  | scriptLength
  | unlockingScript
  | sequence
  | outputCount
  | satoshis
  | lockingScript
  | lockTime
deriving DecidableEq

/-- What a field is called. -/
def Field.label : Field → String
  | version => "version"
  | inputCount => "input count"
  | prevTxId => "previous tx id"
  | outputIndex => "output index"
  | scriptLength => "script length"
  | unlockingScript => "unlocking script"
  | sequence => "sequence number"
  | outputCount => "output count"
  | satoshis => "satoshis"
  | lockingScript => "locking script"
  | lockTime => "lock time"

/-- Why a transaction cannot be read, signed or verified. -/
inductive Error where
  /-- Bytes are left behind the transaction. -/
  | trailing (n : Nat)
  /-- A field cannot be read. -/
  | unreadable (field : Field) (cause : ReadError)
  | hex (e : Hex.Error)
  /-- The text of a digest cache is not hexadecimal. -/
  | cacheHex (e : Hex.Error)
  /-- A text is not the JSON of a digest cache. -/
  | cacheJson
  | missingScript
  | missingPrevOutput
  | inputIndex (index count : Nat)
  /-- The sighash type lacks the fork id. -/
  | unsupportedSighash (type : UInt32)
  | grindExhausted
  | noSignature
  /-- An evaluation breaks off. -/
  | capacityOverflow
  | script (e : Script.Error)
  | signature (e : Signature.Error)
deriving DecidableEq

/-- What the error says. -/
def Error.message : Error → String
  | trailing n => s!"invalid transaction: trailing {n} bytes after transaction"
  | unreadable field cause =>
    s!"serialization error: reading {field.label}: {cause.message}"
  | hex e => s!"serialization error: invalid hex: invalid hex: {e.message}"
  | cacheHex e => s!"serialization error: invalid hash cache hex: {e.message}"
  | cacheJson => "json error"
  | missingScript => "missing script: one of script or script_buffer is required"
  | missingPrevOutput => "missing previous output"
  | inputIndex index count => s!"input index {index} out of range (tx has {count} inputs)"
  | unsupportedSighash type =>
    s!"unsupported sighash type 0x{Text.hexDigits type.toNat}: SIGHASH_FORKID is required"
  | grindExhausted => "low-S grinding exhausted the lock time range"
  | noSignature => "invalid transaction: no signature produced"
  | capacityOverflow => "capacity overflow"
  | script e => s!"script error: {e.message}"
  | signature e => s!"primitives error: {e.message}"

end Utxo.Tx
