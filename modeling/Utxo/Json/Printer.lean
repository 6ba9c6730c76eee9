/-
JSON text without white space.

A string is written with escapes for the quotation mark, the backslash and the control characters
below the space; every other character is written as it is. These are the escapes that the compact
printer of `serde_json` documents.
-/
import Utxo.Text.Quoted

namespace Utxo.Json

/-- A character inside a string. -/
def escape (c : Char) : List Char :=
  if c = '"' || c = '\\' then ['\\', c]
  else if c = '\x08' then ['\\', 'b']
  else if c = '\x0c' then ['\\', 'f']
  else if c = '\n' then ['\\', 'n']
  else if c = '\r' then ['\\', 'r']
  else if c = '\t' then ['\\', 't']
  else if c.toNat < 0x20 then
    ['\\', 'u', '0', '0', Nat.digitChar (c.toNat / 16), Nat.digitChar (c.toNat % 16)]
  else [c]

/-- A text as a string. -/
def printText (s : String) : String := String.ofList ('"' :: s.toList.flatMap escape ++ ['"'])

/-- A truth value. -/
def printBool (b : Bool) : String := if b then "true" else "false"

/-- An object, given its names and written values. -/
def printObject (members : List (String × String)) : String :=
  "\x7b" ++ String.intercalate "," (members.map fun (k, v) => printText k ++ ":" ++ v) ++ "\x7d"

end Utxo.Json
