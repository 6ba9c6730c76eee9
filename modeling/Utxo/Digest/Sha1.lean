/-
SHA-1.

* **`sha1`** — a digest whose width of 20 bytes is in its type.
-/
import Utxo.Digest.Block

namespace Utxo.Digest

namespace Sha1

/-- The five chaining words. -/
structure State where
  a : UInt32
  b : UInt32
  c : UInt32
  d : UInt32
  e : UInt32

/-- The chaining words before the first block. -/
def State.initial : State := ⟨0x67452301, 0xefcdab89, 0x98badcfe, 0x10325476, 0xc3d2e1f0⟩

/-- The 80 words of a block's schedule; the fold keeps the newest word first. -/
def schedule (block : List UInt32) : List UInt32 :=
  ((List.range 64).foldl (fun ws _ => next ws :: ws) block.reverse).reverse
where
  /-- The word that follows the words already made. -/
  next (ws : List UInt32) : UInt32 :=
    rotateLeft (ws.getD 2 0 ^^^ ws.getD 7 0 ^^^ ws.getD 13 0 ^^^ ws.getD 15 0) 1

/-- The mixing function and constant of round `t`. -/
def mix (t : Nat) (b c d : UInt32) : UInt32 :=
  if t < 20 then ((b &&& c) ||| (~~~b &&& d)) + 0x5a827999
  else if t < 40 then (b ^^^ c ^^^ d) + 0x6ed9eba1
  else if t < 60 then ((b &&& c) ||| (b &&& d) ||| (c &&& d)) + 0x8f1bbcdc
  else (b ^^^ c ^^^ d) + 0xca62c1d6

/-- Round `t`, with its scheduled word. -/
def round (s : State) (wt : UInt32 × Nat) : State :=
  ⟨rotateLeft s.a 5 + mix wt.2 s.b s.c s.d + s.e + wt.1, s.a, rotateLeft s.b 30, s.c, s.d⟩

/-- The chaining words after one more block. -/
def compress (s : State) (block : List UInt32) : State :=
  let t := (schedule block).zipIdx.foldl round s
  ⟨s.a + t.a, s.b + t.b, s.c + t.c, s.d + t.d, s.e + t.e⟩

/-- The chaining words, most significant byte first. -/
def State.toHash (s : State) : Hash160 :=
  ⟨[s.a, s.b, s.c, s.d, s.e].flatMap fun w => bigEndian 4 w.toNat, by simp⟩

end Sha1

/-- The SHA-1 digest of a message. -/
def sha1 (message : Bytes) : Hash160 :=
  ((blocks (bigEndian 8) ofBigEndian message).foldl Sha1.compress .initial).toHash

end Utxo.Digest
