/-
The curve y² = x³ + 7 over the prime field of secp256k1.

Points are added and doubled in Jacobian coordinates, where (x, y, z) stands for the point
(x / z², y / z³) and z = 0 for the point at infinity, so only the last step divides.
-/

namespace Utxo.Curve

/-- The size of the field. -/
def fieldSize : Nat := 0xfffffffffffffffffffffffffffffffffffffffffffffffffffffffefffffc2f

/-- The number of points, a prime. -/
def order : Nat := 0xfffffffffffffffffffffffffffffffebaaedce6af48a03bbfd25e8cd0364141

/-- The binary digits of `n`, most significant first. -/
def bits (n : Nat) : List Bool := (List.range (n.log2 + 1)).reverse.map n.testBit

/-- `b ^ e` modulo `m`. -/
def powMod (m b e : Nat) : Nat :=
  (bits e).foldl (fun acc bit => if bit then acc * acc % m * b % m else acc * acc % m) 1

/-- The inverse of `a` modulo a prime `m`, by Fermat's theorem. -/
def invMod (m a : Nat) : Nat := powMod m a (m - 2)

/-- The difference of two field elements. -/
def sub (a b : Nat) : Nat := (a + (fieldSize - b)) % fieldSize

/-- The product of two field elements. -/
def mul (a b : Nat) : Nat := a * b % fieldSize

/-- A point in Jacobian coordinates. -/
structure Jacobian where
  x : Nat
  y : Nat
  z : Nat
deriving DecidableEq

namespace Jacobian

/-- The point at infinity. -/
def infinity : Jacobian := ⟨1, 1, 0⟩

/-- A point given by its two coordinates. -/
def ofAffine (x y : Nat) : Jacobian := ⟨x, y, 1⟩

/-- The two coordinates of a finite point. -/
def toAffine? (p : Jacobian) : Option (Nat × Nat) :=
  if p.z = 0 then none
  else
    let w := invMod fieldSize p.z
    let ww := mul w w
    some (mul p.x ww, mul p.y (mul ww w))

/-- Twice a point. -/
def double (p : Jacobian) : Jacobian :=
  let a := mul p.x p.x
  let b := mul p.y p.y
  let c := mul b b
  let d := mul 2 (sub (sub (mul (p.x + b) (p.x + b)) a) c)
  let e := mul 3 a
  let x := sub (mul e e) (mul 2 d)
  ⟨x, sub (mul e (sub d x)) (mul 8 c), mul 2 (mul p.y p.z)⟩

/-- The sum of two points. -/
def add (p q : Jacobian) : Jacobian :=
  if p.z = 0 then q
  else if q.z = 0 then p
  else
    let pp := mul p.z p.z
    let qq := mul q.z q.z
    let u := mul p.x qq
    let s := mul p.y (mul q.z qq)
    let h := sub (mul q.x pp) u
    let r := sub (mul q.y (mul p.z pp)) s
    if h = 0 then if r = 0 then p.double else infinity
    else
      let hh := mul h h
      let hhh := mul h hh
      let v := mul u hh
      let x := sub (sub (mul r r) hhh) (mul 2 v)
      ⟨x, sub (mul r (sub v x)) (mul s hhh), mul (mul p.z q.z) h⟩

/-- `k` times a point. -/
def smul (k : Nat) (p : Jacobian) : Jacobian :=
  (bits k).foldl (fun acc bit => if bit then acc.double.add p else acc.double) infinity

/-- The generator of the group. -/
def generator : Jacobian :=
  ofAffine 0x79be667ef9dcbbac55a06295ce870b07029bfcdb2dce28d959f2815b16f81798
    0x483ada7726a3c4655da4fbfc0e1108a8fd17b448a68554199c47d08ffb10d4b8

end Jacobian

/-- Whether two coordinates are those of a point. -/
def isPoint (x y : Nat) : Bool :=
  x < fieldSize && y < fieldSize && mul y y = (mul x (mul x x) + 7) % fieldSize

/-- The second coordinate, odd or even, of the point with first coordinate `x`, if there is one.
A square has its root at exponent `(fieldSize + 1) / 4`, since the field size leaves 3 modulo 4. -/
def lift? (x : Nat) (odd : Bool) : Option Nat :=
  let root := powMod fieldSize ((mul x (mul x x) + 7) % fieldSize) ((fieldSize + 1) / 4)
  let y := if (root % 2 = 1) = (odd = true) then root else fieldSize - root
  if isPoint x y then some y else none

end Utxo.Curve
