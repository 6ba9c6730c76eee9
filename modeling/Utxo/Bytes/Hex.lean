/-
Hexadecimal text.

`encode` writes two lower-case digits a byte. `decode` reads exactly that, in either case of
letters, and counts in bytes of the text. These two, with the errors of the second, behave as the
functions of the same names in the library `hex` document it. `decodeLenient` also takes one leading
`0x` or `0X` and an odd number of digits, and counts in characters.
-/
import Utxo.Bytes.Basic
import Utxo.Text.Quoted

namespace Utxo.Hex

/-- Why a text is not hexadecimal. -/
inductive Error where
  /-- The text has an odd number of bytes. -/
  | oddLength
  /-- The byte at a position is not a digit. -/
  | badByte (byte : UInt8) (position : Nat)
  /-- A character of the whole text is not a digit. -/
  | badChar (c : Char) (text : String)
deriving DecidableEq

/-- What the error says. -/
def Error.message : Error → String
  | oddLength => "Odd number of digits"
  | badByte byte position =>
    s!"Invalid character {Text.quoteChar (Char.ofNat byte.toNat)} at position {position}"
  | badChar c text => s!"invalid character {Text.quoteChar c} in {Text.quote text}"

/-- The digit of a value below 16. -/
def digit (n : Nat) : Char := if n < 10 then Char.ofNat (48 + n) else Char.ofNat (87 + n)

/-- The two digits of a byte. -/
def digits (b : UInt8) : List Char := [digit (b.toNat / 16), digit (b.toNat % 16)]

/-- A byte string in lower-case digits. -/
def encode (bs : Bytes) : String := String.ofList (bs.flatMap digits)

/-- The value of a digit, given its code point. -/
def digitValue? (n : Nat) : Option Nat :=
  if 48 ≤ n ∧ n ≤ 57 then some (n - 48)
  else if 97 ≤ n ∧ n ≤ 102 then some (n - 87)
  else if 65 ≤ n ∧ n ≤ 70 then some (n - 55)
  else none

/-- Reads two digits a byte; `i` is the position of the first. -/
def decodeFrom (i : Nat) : Bytes → Except Error Bytes
  | hi :: lo :: rest =>
    match digitValue? hi.toNat, digitValue? lo.toNat with
    | none, _ => .error (.badByte hi i)
    | some _, none => .error (.badByte lo (i + 1))
    | some h, some l => (decodeFrom (i + 2) rest).map (UInt8.ofNat (16 * h + l) :: ·)
  | _ => .ok []

/-- Reads a text of two digits a byte. -/
def decode (text : String) : Except Error Bytes :=
  let bs := text.toUTF8.toList
  if bs.length % 2 = 1 then .error .oddLength else decodeFrom 0 bs

/-- Whether a character is a digit. -/
def isDigit (c : Char) : Bool := (digitValue? c.toNat).isSome

/-- The value of a character that is a digit. -/
def value (c : Char) : Nat := (digitValue? c.toNat).getD 0

/-- The text less one leading `0x` or `0X`. -/
def dropMarker : List Char → List Char
  | '0' :: 'x' :: cs => cs
  | '0' :: 'X' :: cs => cs
  | cs => cs

/-- The bytes of an even number of digits. -/
def pairs : List Char → Bytes
  | hi :: lo :: rest => UInt8.ofNat (16 * value hi + value lo) :: pairs rest
  | _ => []

/-- Reads a text that may carry a marker; an odd first digit is a byte of its own. -/
def decodeLenient (text : String) : Except Error Bytes :=
  let cs := dropMarker text.toList
  match cs.find? (fun c => !isDigit c) with
  | some c => .error (.badChar c text)
  | none => .ok (pairs (if cs.length % 2 = 1 then '0' :: cs else cs))

end Utxo.Hex
