/-
What goes wrong when scripts and stacks are built.
-/
import Utxo.Script.Opcode

namespace Utxo

/-- Why a script or a stack cannot be built. -/
inductive Script.Error where
  /-- A push holds more than `2 ^ 32 - 1` bytes. -/
  | dataTooLarge (n : Nat)
  | hex (e : Hex.Error)
  /-- An opcode that a length or data has to follow. -/
  | needsData (op : Opcode)
  /-- More names are given than there are slots. -/
  | tooManyNames (names depth : Nat)
deriving DecidableEq

/-- What the error says. -/
def Script.Error.message : Script.Error → String
  | dataTooLarge n => s!"data too large: {n} bytes"
  | hex e => s!"invalid hex: invalid hex: {e.message}"
  | needsData op => s!"use append_push_data for push data opcode 0x{op.hexDigits}"
  | tooManyNames names depth => s!"inconsistent stack: {names} names for {depth} slots"

end Utxo
