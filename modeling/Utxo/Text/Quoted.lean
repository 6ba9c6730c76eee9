/-
Quoted texts and characters, as messages show them.

The quotation mark in use, the backslash, tab, line feed, carriage return and NUL have escapes of
their own, and any other character that does not show by itself is written as its code point.
-/
import Utxo.Text.Printable

namespace Utxo.Text

/-- The lower-case hexadecimal digits of `n`, without leading zeros. -/
def hexDigits (n : Nat) : String := String.ofList (Nat.toDigits 16 n)

/-- One character inside quotation marks `mark`. -/
def quotedChar (mark c : Char) : String :=
  if c = mark || c = '\\' then String.ofList ['\\', c]
  else if c = '\t' then "\\t"
  else if c = '\n' then "\\n"
  else if c = '\r' then "\\r"
  else if c = '\x00' then "\\0"
  else if isShown c then String.singleton c
  else "\\u\x7b" ++ hexDigits c.toNat ++ "\x7d"

/-- A character between single quotation marks. -/
def quoteChar (c : Char) : String := "'" ++ quotedChar '\'' c ++ "'"

/-- A text between double quotation marks. -/
def quote (s : String) : String := "\"" ++ String.join (s.toList.map (quotedChar '"')) ++ "\""

end Utxo.Text
