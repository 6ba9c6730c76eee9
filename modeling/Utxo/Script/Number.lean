/-
Numbers on the stack.

A number is written least significant byte first, with the top bit of the last byte for its sign.
Zero is the empty string. The same number has longer forms, with zeros before the sign.

* **`encode`** writes the shortest form, and **`value`** reads every form;
* **`minimal`** shortens a form without reading it;
* **`truth`** is whether the number is not zero.
-/
import Utxo.Bytes.Basic

namespace Utxo.Number

/-- How many bytes the shortest form takes: room for every bit and the sign. -/
def width (n : Int) : Nat := if n = 0 then 0 else (n.natAbs.log2 + 1) / 8 + 1

/-- The weight of the sign bit of a form of `w` bytes. -/
def signWeight (w : Nat) : Nat := 1 <<< (8 * w - 1)

/-- The shortest form of a number. -/
def encode (n : Int) : Bytes :=
  let w := width n
  littleEndian w (n.natAbs + if n < 0 then signWeight w else 0)

/-- The number that a byte string stands for. -/
def value (bs : Bytes) : Int :=
  if bs.isEmpty then 0
  else
    let raw := ofLittleEndian bs
    let sign := signWeight bs.length
    if raw < sign then raw else -((raw - sign : Nat) : Int)

/-- The number that a byte string of at most `limit` bytes stands for. -/
def decode? (bs : Bytes) (limit : Nat) : Option Int :=
  if bs.length ≤ limit then some (value bs) else none

/-- The bytes of a magnitude, most significant first and without leading zeros, with a sign bit. -/
def attachSign (sign : UInt8) : Bytes → Bytes
  | [] => []
  | b :: rest => if b ≥ 0x80 then sign :: b :: rest else (b ||| sign) :: rest

/-- The shortest form of the number that a byte string stands for. -/
def minimal (bs : Bytes) : Bytes :=
  match bs.reverse with
  | [] => []
  | last :: rest =>
    if last &&& 0x7f ≠ 0 then bs
    else (attachSign last (rest.dropWhile (· = 0))).reverse

/-- Whether a byte string stands for a number other than zero. A sign alone does not. -/
def truth : Bytes → Bool
  | [] => false
  | [b] => b ≠ 0 && b ≠ 0x80
  | b :: rest => b ≠ 0 || truth rest

/-- The form of a truth value. -/
def ofBool (b : Bool) : Bytes := if b then [1] else []

end Utxo.Number
