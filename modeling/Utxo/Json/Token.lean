/-
The tokens of JSON text.

A text is read byte by byte. The bodies of strings are kept as written, with their escapes; only
their grammar is checked here, so a body may still stand for no text (`Json.text?`). What is a token
is what the strict parser of `serde_json` documents as one: no comments, no comma before a closing
bracket, no leading zeros, no control characters in strings.

* **`Token.scan`** — the tokens of a text, if it has no other bytes than tokens and white space.
-/
import Utxo.Bytes.Hex

namespace Utxo.Json

/-- A token. -/
inductive Token where
  | openObject
  | closeObject
  | openArray
  | closeArray
  | colon
  | comma
  | null
  | bool (b : Bool)
  /-- A number, as written. -/
  | number (digits : Bytes)
  /-- A string, as written between its quotation marks. -/
  | string (body : Bytes)
deriving DecidableEq

namespace Token

/-- Whether a byte is white space between tokens. -/
def isSpace (b : UInt8) : Bool := b = 0x20 || b = 0x0a || b = 0x0d || b = 0x09

/-- Whether a byte is a decimal digit. -/
def isDigit (b : UInt8) : Bool := 0x30 ≤ b && b ≤ 0x39

/-- Whether a byte is a hexadecimal digit. -/
def isHexDigit (b : UInt8) : Bool := (Hex.digitValue? b.toNat).isSome

/-- Whether a byte makes an escape with the backslash before it, with nothing after it. -/
def isPlainEscape (b : UInt8) : Bool :=
  [0x22, 0x5c, 0x2f, 0x62, 0x66, 0x6e, 0x72, 0x74].contains b

/-- The body of a string behind its opening quotation mark, and what follows the closing one. -/
def takeBody : Bytes → Option (Bytes × Bytes)
  | 0x22 :: rest => some ([], rest)
  | 0x5c :: 0x75 :: a :: b :: c :: d :: rest =>
    if [a, b, c, d].all isHexDigit then
      (takeBody rest).map fun (body, rest) => (0x5c :: 0x75 :: a :: b :: c :: d :: body, rest)
    else none
  | 0x5c :: b :: rest =>
    if isPlainEscape b then
      (takeBody rest).map fun (body, rest) => (0x5c :: b :: body, rest)
    else none
  | b :: rest =>
    if b < 0x20 || b = 0x5c then none
    else (takeBody rest).map fun (body, rest) => (b :: body, rest)
  | [] => none

/-- One or more digits, and what follows them. -/
def takeDigits (bs : Bytes) : Option (Bytes × Bytes) :=
  if (bs.takeWhile isDigit).isEmpty then none
  else some (bs.takeWhile isDigit, bs.dropWhile isDigit)

/-- The digits before the point: a zero stands alone. -/
def takeWhole : Bytes → Option (Bytes × Bytes)
  | 0x30 :: rest => some ([0x30], rest)
  | bs => takeDigits bs

/-- The part of a number after the point, if there is one. -/
def takeFraction : Bytes → Option (Bytes × Bytes)
  | 0x2e :: rest => (takeDigits rest).map fun (ds, rest) => (0x2e :: ds, rest)
  | bs => some ([], bs)

/-- The exponent of a number, if there is one. -/
def takeExponent : Bytes → Option (Bytes × Bytes)
  | e :: rest =>
    if e = 0x65 || e = 0x45 then
      match rest with
      | sign :: more =>
        if sign = 0x2b || sign = 0x2d then
          (takeDigits more).map fun (ds, rest) => (e :: sign :: ds, rest)
        else (takeDigits rest).map fun (ds, rest) => (e :: ds, rest)
      | [] => none
    else some ([], e :: rest)
  | [] => some ([], [])

/-- A number without its sign. -/
def takeMagnitude (bs : Bytes) : Option (Bytes × Bytes) := do
  let (whole, bs) ← takeWhole bs
  let (fraction, bs) ← takeFraction bs
  let (exponent, bs) ← takeExponent bs
  return (whole ++ fraction ++ exponent, bs)

/-- The token that starts with a byte, and what follows it. -/
def take (b : UInt8) (rest : Bytes) : Option (Token × Bytes) :=
  match b, rest with
  | 0x7b, _ => some (openObject, rest)
  | 0x7d, _ => some (closeObject, rest)
  | 0x5b, _ => some (openArray, rest)
  | 0x5d, _ => some (closeArray, rest)
  | 0x3a, _ => some (colon, rest)
  | 0x2c, _ => some (comma, rest)
  | 0x22, _ => (takeBody rest).map fun (body, rest) => (string body, rest)
  | 0x2d, _ => (takeMagnitude rest).map fun (ds, rest) => (number (0x2d :: ds), rest)
  | 0x6e, 0x75 :: 0x6c :: 0x6c :: rest => some (null, rest)
  | 0x74, 0x72 :: 0x75 :: 0x65 :: rest => some (bool true, rest)
  | 0x66, 0x61 :: 0x6c :: 0x73 :: 0x65 :: rest => some (bool false, rest)
  | _, _ => (takeMagnitude (b :: rest)).map fun (ds, rest) => (number ds, rest)

/-- The tokens of a text, if they are no more than `n` with the white space. -/
def scanUpTo : Nat → Bytes → Option (List Token)
  | _, [] => some []
  | 0, _ :: _ => none
  | n + 1, b :: rest =>
    if isSpace b then scanUpTo n rest
    else do
      let (token, rest) ← take b rest
      return token :: (← scanUpTo n rest)

/-- The tokens of a text. -/
def scan (text : Bytes) : Option (List Token) := scanUpTo text.length text

end Token

end Utxo.Json
