/-
Signatures and their DER form.

A signature is a pair of 32 byte integers. The DER form writes each without leading zeros, with one
zero byte in front if the integer would otherwise look negative; reading accepts nothing else.
-/
import Utxo.Bytes.Basic
import Utxo.Ecdsa.Curve

namespace Utxo

/-- A signature. -/
structure Signature where
  r : FixedBytes 32
  s : FixedBytes 32
deriving DecidableEq

/-- Why a signature cannot be read or made. -/
inductive Signature.Error where
  | badSize
  | noHeader
  | badLength
  | badR
  | badS
  | trailingBytes
  /-- An integer needs more than 32 bytes. -/
  | wideInteger
  | zeroComponent
  /-- The digest to sign is not 32 bytes long. -/
  | digestLength (n : Nat)
  /-- No nonce gives a signature. -/
  | noSignature
deriving DecidableEq

/-- What the error says. -/
def Signature.Error.message (e : Signature.Error) : String :=
  "invalid signature: " ++ match e with
    | badSize => "malformed signature: bad size"
    | noHeader => "malformed signature: no header magic"
    | badLength => "malformed signature: bad length"
    | badR => "malformed signature: bogus R"
    | badS => "malformed signature: bogus S"
    | trailingBytes => "malformed signature: trailing bytes"
    | wideInteger => "integer value too large for 32 bytes"
    | zeroComponent => "signature component is zero"
    | digestLength n => s!"digest must be 32 bytes, got {n}"
    | noSignature => "signature error"

namespace Signature

/-- The content of a DER integer with these bytes: no leading zeros, but one zero before a set
high bit. -/
def canonical (bs : Bytes) : Bytes :=
  match bs.dropWhile (· = 0) with
  | [] => [0]
  | b :: rest => if b ≥ 0x80 then 0 :: b :: rest else b :: rest

/-- A DER integer with this content. -/
def derInteger (content : Bytes) : Bytes := 0x02 :: UInt8.ofNat content.length :: content

/-- The DER form. -/
def toDer (sig : Signature) : Bytes :=
  let body := derInteger (canonical sig.r.bytes) ++ derInteger (canonical sig.s.bytes)
  0x30 :: UInt8.ofNat body.length :: body

/-- The content of the DER integer that comes first, and what follows it. A content is not empty,
not negative and has no zero byte to spare. -/
def takeInteger? : Bytes → Option (Bytes × Bytes)
  | tag :: len :: rest =>
    if tag ≠ 0x02 || len = 0 || rest.length < len.toNat then none
    else match rest.take len.toNat with
      | first :: more =>
        if first ≥ 0x80 then none
        else match more with
          | second :: _ =>
            if first = 0 && second < 0x80 then none
            else some (first :: more, rest.drop len.toNat)
          | [] => some ([first], rest.drop len.toNat)
      | [] => none
  | _ => none

/-- An integer written in exactly 32 bytes. -/
def widen (bs : Bytes) : Except Error (FixedBytes 32) :=
  let significant := bs.dropWhile (· = 0)
  if h : significant.length ≤ 32 then
    .ok ⟨List.replicate (32 - significant.length) 0 ++ significant, by
      rw [List.length_append, List.length_replicate]; omega⟩
  else .error .wideInteger

/-- The two contents of a DER signature. -/
def derContents (bs : Bytes) : Except Error (Bytes × Bytes) :=
  if bs.length < 8 || 72 < bs.length then .error .badSize
  else if bs.head? ≠ some 0x30 then .error .noHeader
  else if bs.tail.head? ≠ some (UInt8.ofNat (bs.length - 2)) then .error .badLength
  else match takeInteger? (bs.drop 2) with
    | none => .error .badR
    | some (r, rest) =>
      match takeInteger? rest with
      | none => .error .badS
      | some (s, rest) => if rest.isEmpty then .ok (r, s) else .error .trailingBytes

/-- Reads the DER form of a signature whose components are not zero. -/
def ofDer (bs : Bytes) : Except Error Signature := do
  let (r, s) ← derContents bs
  let r ← widen r
  let s ← widen s
  if r = .zero 32 || s = .zero 32 then .error .zeroComponent else .ok ⟨r, s⟩

/-- Half the order of the curve, rounded down. -/
def halfOrder : Bytes :=
  [0x7f, 0xff, 0xff, 0xff, 0xff, 0xff, 0xff, 0xff, 0xff, 0xff, 0xff, 0xff, 0xff, 0xff, 0xff, 0xff,
   0x5d, 0x57, 0x6e, 0x73, 0x57, 0xa4, 0x50, 0x1d, 0xdf, 0xe9, 0x2f, 0x46, 0x68, 0x1b, 0x20, 0xa0]

/-- Whether the second component is in the lower half, compared byte by byte. -/
def hasLowS (sig : Signature) : Bool := sig.s.bytes ≤ halfOrder

/-- The signature with two scalars as components, the second one replaced by its negative if it is
in the upper half. -/
def ofScalars (r s : Nat) : Signature :=
  ⟨.ofNat 32 r, .ofNat 32 (if Curve.order / 2 < s then Curve.order - s else s)⟩

end Signature

end Utxo
