/-
Private and public keys.

A private key is a scalar between zero and the order of the curve, both excluded. A public key is a
finite point; it is written with both coordinates (65 bytes) or with the first one and the parity
of the second (33 bytes).
-/
import Utxo.Bytes.Hex
import Utxo.Digest.Ripemd160
import Utxo.Ecdsa.Curve

namespace Utxo

/-- A scalar that can sign. -/
structure PrivateKey where
  scalar : Nat
  pos : 0 < scalar
  lt_order : scalar < Curve.order
deriving DecidableEq

/-- Why bytes or a text are not a private key. -/
inductive PrivateKey.Error where
  | emptyText
  | hex (e : Hex.Error)
  | wrongLength (n : Nat)
  /-- The scalar is zero or not below the order. -/
  | notScalar
deriving DecidableEq

/-- What the error says. -/
def PrivateKey.Error.message : PrivateKey.Error → String
  | emptyText => "invalid private key: private key hex is empty"
  | hex e => s!"invalid hex: {e.message}"
  | wrongLength n => s!"invalid private key: expected 32 bytes, got {n}"
  | notScalar => "invalid private key: signature error"

namespace PrivateKey

/-- The key whose scalar is written most significant byte first in 32 bytes. -/
def ofBytes (bs : Bytes) : Except Error PrivateKey :=
  if bs.length ≠ 32 then .error (.wrongLength bs.length)
  else
    let n := ofBigEndian bs
    if h : 0 < n ∧ n < Curve.order then .ok ⟨n, h.1, h.2⟩ else .error .notScalar

/-- The key written in 64 hexadecimal digits. -/
def ofHex (text : String) : Except Error PrivateKey :=
  if text.isEmpty then .error .emptyText
  else match Hex.decode text with
    | .error e => .error (.hex e)
    | .ok bs => ofBytes bs

/-- The scalar, most significant byte first. -/
def toBytes (k : PrivateKey) : FixedBytes 32 := .ofNat 32 k.scalar

/-- The scalar in hexadecimal digits. -/
def toHex (k : PrivateKey) : String := Hex.encode k.toBytes.bytes

end PrivateKey

/-- A finite point of the curve. -/
structure PublicKey where
  x : Nat
  y : Nat
deriving DecidableEq

/-- Why bytes or a text are not a public key. -/
inductive PublicKey.Error where
  | emptyBytes
  | hex (e : Hex.Error)
  /-- The bytes are no written form of a point. -/
  | notPoint
deriving DecidableEq

/-- What the error says. -/
def PublicKey.Error.message : PublicKey.Error → String
  | emptyBytes => "invalid public key: pubkey bytes are empty"
  | hex e => s!"invalid hex: {e.message}"
  | notPoint => "invalid public key: signature error"

namespace PublicKey

/-- The key with first coordinate `x` and a second coordinate of the parity asked for. -/
def lift? (x : Nat) (odd : Bool) : Option PublicKey :=
  if x < Curve.fieldSize then (Curve.lift? x odd).map (⟨x, ·⟩) else none

/-- The point that a tag byte and coordinates stand for. The tag 5 means the same as 2. -/
def point? (tag : UInt8) (coordinates : Bytes) : Option PublicKey :=
  if coordinates.length = 32 then
    if tag = 2 || tag = 5 then lift? (ofBigEndian coordinates) false
    else if tag = 3 then lift? (ofBigEndian coordinates) true
    else none
  else if coordinates.length = 64 && tag = 4 then
    let x := ofBigEndian (coordinates.take 32)
    let y := ofBigEndian (coordinates.drop 32)
    if Curve.isPoint x y then some ⟨x, y⟩ else none
  else none

/-- The key in one of its written forms. -/
def ofBytes : Bytes → Except Error PublicKey
  | [] => .error .emptyBytes
  | tag :: coordinates =>
    match point? tag coordinates with
    | some k => .ok k
    | none => .error .notPoint

/-- The key in one of its written forms, in hexadecimal digits. -/
def ofHex (text : String) : Except Error PublicKey :=
  match Hex.decode text with
  | .error e => .error (.hex e)
  | .ok bs => ofBytes bs

/-- The first coordinate and the parity of the second. -/
def compressed (k : PublicKey) : FixedBytes 33 :=
  ⟨(if k.y % 2 = 1 then 3 else 2) :: bigEndian 32 k.x, by simp⟩

/-- Both coordinates. -/
def uncompressed (k : PublicKey) : FixedBytes 65 :=
  ⟨4 :: (bigEndian 32 k.x ++ bigEndian 32 k.y), by simp⟩

/-- The compressed form in hexadecimal digits. -/
def toHex (k : PublicKey) : String := Hex.encode k.compressed.bytes

/-- The digest that coins are locked to. -/
def hash160 (k : PublicKey) : Hash160 := Digest.hash160 k.compressed.bytes

end PublicKey

end Utxo
