/-
Opcodes that compute with byte strings.
-/
import Utxo.Digest.Ripemd160
import Utxo.Digest.Sha1
import Utxo.Machine.Operand
import Utxo.Machine.Rules

namespace Utxo.Machine

/-- The operations on two byte strings of equal length. -/
inductive Bitwise where
  | and
  | or
  | xor
deriving DecidableEq

/-- The result for two bytes. -/
def Bitwise.apply : Bitwise → UInt8 → UInt8 → UInt8
  | and, a, b => a &&& b
  | or, a, b => a ||| b
  | xor, a, b => a ^^^ b

/-- The digests that opcodes take. -/
inductive Digesting where
  | ripemd160
  | sha1
  | sha256
  | hash160
  | sha256d
deriving DecidableEq

/-- The digest of a byte string. -/
def Digesting.apply : Digesting → Bytes → Bytes
  | ripemd160, bs => (Digest.ripemd160 bs).bytes
  | sha1, bs => (Digest.sha1 bs).bytes
  | sha256, bs => (Digest.sha256 bs).bytes
  | hash160, bs => (Digest.hash160 bs).bytes
  | sha256d, bs => (Digest.sha256d bs).bytes

/-- The opcodes on byte strings. -/
inductive Splice where
  | cat
  | split
  | pad
  | shorten
  | size
  | invert
  | bitwise (op : Bitwise)
  | equal
  | shiftLeft
  | shiftRight
  | digest (op : Digesting)
deriving DecidableEq

/-! ### Shifts -/

/-- The bytes turned left by `n` bits, `0 < n < 8`, each filled from the byte after it. -/
def carryLeft (n : UInt8) : Bytes → Bytes
  | [] => []
  | [b] => [b <<< n]
  | b :: c :: rest => ((b <<< n) ||| (c >>> (8 - n))) :: carryLeft n (c :: rest)

/-- The bytes turned right by `n` bits, `0 < n < 8`, each filled from the byte before it. -/
def carryRight (n before : UInt8) : Bytes → Bytes
  | [] => []
  | b :: rest => ((b >>> n) ||| (before <<< (8 - n))) :: carryRight n b rest

/-- A byte string moved left by `n` bits as one row of bits, zeros coming in. -/
def shiftLeft (bs : Bytes) (n : Nat) : Bytes :=
  let kept := bs.drop (n / 8)
  let moved := if n % 8 = 0 then kept else carryLeft (UInt8.ofNat (n % 8)) kept
  moved ++ List.replicate (bs.length - kept.length) 0

/-- A byte string moved right by `n` bits as one row of bits, zeros coming in. -/
def shiftRight (bs : Bytes) (n : Nat) : Bytes :=
  let kept := bs.take (bs.length - n / 8)
  let moved := if n % 8 = 0 then kept else carryRight (UInt8.ofNat (n % 8)) 0 kept
  List.replicate (bs.length - kept.length) 0 ++ moved

/-! ### Padding -/

/-- The last byte with its sign bit cleared, after the other bytes, and the sign bit. -/
def splitSign (bs : Bytes) : Bytes × UInt8 :=
  match bs.reverse with
  | [] => ([], 0)
  | last :: rest => (((last &&& 0x7f) :: rest).reverse, last &&& 0x80)

/-- The largest number of bytes that a buffer can have. -/
def maxCapacity : Nat := 0x7fffffffffffffff

/-- A number in its shortest form, written in `size` bytes if that is more. -/
def padNumber (bs : Bytes) (size : Nat) : Bytes :=
  if bs.length < size then
    let (magnitude, sign) := splitSign bs
    magnitude ++ List.replicate (size - 1 - magnitude.length) 0 ++ [sign]
  else bs

/-- The top value as a count that a 64 bit word can hold. -/
def popCount (limit : Nat) (outOfRange : Int → Fault) (s : Stack) : Except Fault (Nat × Stack) := do
  let (n, s) ← popNumber limit s
  if 0 ≤ n ∧ n < UInt64.size then .ok (n.toNat, s) else .error (outOfRange n)

/-! ### The opcodes -/

/-- What an opcode on byte strings makes of the main stack. -/
def Splice.run (limits : Limits) (op : Splice) (s : Stack) : Except Fault Stack :=
  match op with
  | cat => do
    let (b, s) ← popValue s
    let (a, s) ← popValue s
    let total := a.length + b.length
    if limits.elementSize < total then .error (.joinTooBig total limits.elementSize)
    else return s.push (a ++ b)
  | split => do
    let (n, s) ← popNumber limits.numberLength s
    let (data, s) ← popValue s
    if 0 ≤ n ∧ n ≤ data.length then
      return (s.push (data.take n.toNat)).push (data.drop n.toNat)
    else .error (.splitOutside n data.length)
  | pad => do
    let (width, s) ← popCount limits.numberLength .paddingOutOfRange s
    if limits.elementSize < width then .error (.paddedTooBig width limits.elementSize)
    else
      let (value, s) ← popValue s
      let number := Number.minimal value
      if width < number.length then .error (.doesNotFit number.length width)
      else if number.length < width ∧ maxCapacity < width then .error .capacityOverflow
      else return s.push (padNumber number width)
  | shorten => do
    let (value, s) ← popValue s
    let number := Number.minimal value
    if limits.numberLength < number.length then
      .error (.resultTooBig number.length limits.numberLength)
    else return s.push number
  | size => do
    let slot ← peek 0 s
    return s.push (Number.encode slot.1.length)
  | invert => do
    let (value, s) ← popValue s
    return s.push (value.map (~~~·))
  | bitwise f => do
    let (b, s) ← popValue s
    let (a, s) ← popValue s
    if a.length = b.length then return s.push (List.zipWith f.apply a b)
    else .error (.operandSizes a.length b.length)
  | equal => do
    let (b, s) ← popValue s
    let (a, s) ← popValue s
    return s.push (Number.ofBool (a = b))
  | shiftLeft => do
    let (n, s) ← popCount limits.numberLength .shiftOutOfRange s
    let (value, s) ← popValue s
    return s.push (Machine.shiftLeft value n)
  | shiftRight => do
    let (n, s) ← popCount limits.numberLength .shiftOutOfRange s
    let (value, s) ← popValue s
    return s.push (Machine.shiftRight value n)
  | digest f => do
    let (value, s) ← popValue s
    return s.push (f.apply value)

end Utxo.Machine
