/-
RIPEMD-160, and the hash160 that public keys are locked to.

Every block runs through two lines of 80 steps that differ in the order of the words, the amounts
of the turns, the order of the mixing functions and the constants.

* **`ripemd160`**, **`hash160`** — digests whose width of 20 bytes is in their type.
-/
import Utxo.Digest.Sha256

namespace Utxo.Digest

namespace Ripemd160

/-- The five chaining words. -/
structure State where
  a : UInt32
  b : UInt32
  c : UInt32
  d : UInt32
  e : UInt32

/-- The chaining words before the first block. -/
def State.initial : State := ⟨0x67452301, 0xefcdab89, 0x98badcfe, 0x10325476, 0xc3d2e1f0⟩

/-- The word and the turn of each step of the left line. -/
def leftSteps : List (Nat × UInt32) :=
  [(0, 11), (1, 14), (2, 15), (3, 12), (4, 5), (5, 8), (6, 7), (7, 9),
   (8, 11), (9, 13), (10, 14), (11, 15), (12, 6), (13, 7), (14, 9), (15, 8),
   (7, 7), (4, 6), (13, 8), (1, 13), (10, 11), (6, 9), (15, 7), (3, 15),
   (12, 7), (0, 12), (9, 15), (5, 9), (2, 11), (14, 7), (11, 13), (8, 12),
   (3, 11), (10, 13), (14, 6), (4, 7), (9, 14), (15, 9), (8, 13), (1, 15),
   (2, 14), (7, 8), (0, 13), (6, 6), (13, 5), (11, 12), (5, 7), (12, 5),
   (1, 11), (9, 12), (11, 14), (10, 15), (0, 14), (8, 15), (12, 9), (4, 8),
   (13, 9), (3, 14), (7, 5), (15, 6), (14, 8), (5, 6), (6, 5), (2, 12),
   (4, 9), (0, 15), (5, 5), (9, 11), (7, 6), (12, 8), (2, 13), (10, 12),
   (14, 5), (1, 12), (3, 13), (8, 14), (11, 11), (6, 8), (15, 5), (13, 6)]

/-- The word and the turn of each step of the right line. -/
def rightSteps : List (Nat × UInt32) :=
  [(5, 8), (14, 9), (7, 9), (0, 11), (9, 13), (2, 15), (11, 15), (4, 5),
   (13, 7), (6, 7), (15, 8), (8, 11), (1, 14), (10, 14), (3, 12), (12, 6),
   (6, 9), (11, 13), (3, 15), (7, 7), (0, 12), (13, 8), (5, 9), (10, 11),
   (14, 7), (15, 7), (8, 12), (12, 7), (4, 6), (9, 15), (1, 13), (2, 11),
   (15, 9), (5, 7), (1, 15), (3, 11), (7, 8), (14, 6), (6, 6), (9, 14),
   (11, 12), (8, 13), (12, 5), (2, 14), (10, 13), (0, 13), (4, 7), (13, 5),
   (8, 15), (6, 5), (4, 8), (1, 11), (3, 14), (11, 14), (15, 6), (0, 14),
   (5, 6), (12, 9), (2, 12), (13, 9), (9, 12), (7, 5), (10, 15), (14, 8),
   (12, 8), (15, 5), (10, 12), (4, 9), (1, 12), (5, 5), (8, 14), (7, 6),
   (6, 8), (2, 13), (13, 6), (14, 5), (0, 15), (3, 13), (9, 11), (11, 11)]

/-- The five mixing functions, in the order of the left line. -/
def mix (i : Nat) (x y z : UInt32) : UInt32 :=
  match i with
  | 0 => x ^^^ y ^^^ z
  | 1 => (x &&& y) ||| (~~~x &&& z)
  | 2 => (x ||| ~~~y) ^^^ z
  | 3 => (x &&& z) ||| (y &&& ~~~z)
  | _ => x ^^^ (y ||| ~~~z)

/-- The constants of the left line, one for every 16 steps. -/
def leftConstants : List UInt32 := [0x00000000, 0x5a827999, 0x6ed9eba1, 0x8f1bbcdc, 0xa953fd4e]

/-- The constants of the right line, one for every 16 steps. -/
def rightConstants : List UInt32 := [0x50a28be6, 0x5c4dd124, 0x6d703ef3, 0x7a6d76e9, 0x00000000]

/-- One step: `mixed` is the mixing function's value, `n` the turn. -/
def step (s : State) (mixed word constant n : UInt32) : State :=
  ⟨s.e, rotateLeft (s.a + mixed + word + constant) n + s.e, s.b, rotateLeft s.c 10, s.d⟩

/-- The left line over one block. -/
def leftLine (s : State) (block : List UInt32) : State :=
  leftSteps.zipIdx.foldl (fun s ((word, turn), t) =>
    step s (mix (t / 16) s.b s.c s.d) (block.getD word 0) (leftConstants.getD (t / 16) 0) turn) s

/-- The right line over one block, with the mixing functions in the opposite order. -/
def rightLine (s : State) (block : List UInt32) : State :=
  rightSteps.zipIdx.foldl (fun s ((word, turn), t) =>
    step s (mix (4 - t / 16) s.b s.c s.d) (block.getD word 0) (rightConstants.getD (t / 16) 0)
      turn) s

/-- The chaining words after one more block. -/
def compress (s : State) (block : List UInt32) : State :=
  let l := leftLine s block
  let r := rightLine s block
  ⟨s.b + l.c + r.d, s.c + l.d + r.e, s.d + l.e + r.a, s.e + l.a + r.b, s.a + l.b + r.c⟩

/-- The chaining words, least significant byte first. -/
def State.toHash (s : State) : Hash160 :=
  ⟨[s.a, s.b, s.c, s.d, s.e].flatMap fun w => littleEndian 4 w.toNat, by simp⟩

end Ripemd160

/-- The RIPEMD-160 digest of a message. -/
def ripemd160 (message : Bytes) : Hash160 :=
  ((blocks (littleEndian 8) ofLittleEndian message).foldl Ripemd160.compress .initial).toHash

/-- The RIPEMD-160 digest of the SHA-256 digest. -/
def hash160 (message : Bytes) : Hash160 := ripemd160 (sha256 message).bytes

end Utxo.Digest
