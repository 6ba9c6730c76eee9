/-
How long an unlocking script gets.

The script is two short pushes, so its length is settled by that of the two DER integers, and a DER
integer is as long as the number of its bits demands, with one bit to spare for the sign.  Up to half
the order a second component has a bit less than 32 bytes can hold; that bit makes room for its sign,
and the script that much shorter than it could be.

* **`Signature.length_canonical`** — the bytes of a DER integer, from the bits of the integer;
* **`P2pkh.length_pushes`** — the bytes of an unlocking script, from the bits of both components;
* **`P2pkh.unlock_isTight`** — so a signature in the lower half takes no more bytes than are
  estimated, and takes them all if the first component is high enough and the second not too low.
-/
import Mathlib.Data.Nat.Size
import Utxo.Proofs.P2pkh.Unlocking

namespace Utxo

/-! ### DER integers -/

namespace Signature

/-- Leading zeros do not count. -/
theorem ofBigEndian_significant (bs : Bytes) : ofBigEndian (significant bs) = ofBigEndian bs := by
  have h := congrArg ofBigEndian (replicate_append_significant bs)
  rwa [ofBigEndian_append, ofBigEndian_replicate_zero, Nat.zero_mul, Nat.zero_add] at h

/-- How many bytes the bits of an integer fill, less one bit: those behind its first byte, and that one
too if it is high. -/
theorem size_ofBigEndian_cons_div {b : UInt8} (hb : b ≠ 0) (rest : Bytes) :
    (ofBigEndian (b :: rest)).size / 8 = rest.length + if b ≥ 0x80 then 1 else 0 := by
  have hrest := ofBigEndian_lt rest
  have hpos : 1 ≤ b.toNat := Nat.one_le_iff_ne_zero.mpr fun h => hb (UInt8.toNat_inj.mp h)
  have hbits (k : Nat) : 2 ^ (8 * rest.length + k) = 2 ^ k * 256 ^ rest.length := by
    rw [Nat.pow_add, Nat.pow_mul, Nat.mul_comm]
  rw [ofBigEndian_cons]
  generalize hn : b.toNat * 256 ^ rest.length + ofBigEndian rest = n
  -- The first byte alone tells between which powers of two the integer lies.
  have hleast (k : Nat) (h : 2 ^ k ≤ b.toNat) : 8 * rest.length + k < n.size := by
    have := Nat.mul_le_mul_right (256 ^ rest.length) h
    rw [Nat.lt_size, hbits]
    omega
  have hmost (k : Nat) (h : b.toNat < 2 ^ k) : n.size ≤ 8 * rest.length + k := by
    have := Nat.mul_le_mul_right (256 ^ rest.length) (Nat.succ_le_of_lt h)
    rw [Nat.succ_mul] at this
    rw [Nat.size_le, hbits]
    omega
  split_ifs with hhigh
  · have := hleast 7 (UInt8.le_iff_toNat_le.mp hhigh)
    have := hmost 8 b.toNat_lt
    omega
  · have := hleast 0 hpos
    have := hmost 7 (UInt8.lt_iff_toNat_lt.mp (UInt8.not_le.mp hhigh))
    omega

/-- The content of a DER integer has at least a bit more than the integer. -/
theorem length_canonical (bs : Bytes) :
    (canonical bs).length = (ofBigEndian bs).size / 8 + 1 := by
  rw [← ofBigEndian_significant, canonical_eq]
  cases h : significant bs with
  | nil => rfl
  | cons b rest =>
    rw [size_ofBigEndian_cons_div (head_significant_ne h)]
    dsimp only
    split_ifs <;> rfl

/-- Up to half the order, an integer leaves a bit of its 32 bytes free. -/
theorem size_s_le {sig : Signature} (h : sig.hasLowS) : sig.s.toNat.size ≤ 255 := by
  rw [Nat.size_le]
  exact Nat.lt_of_le_of_lt (hasLowS_iff.mp h) (by decide)

theorem size_r_le (sig : Signature) : sig.r.toNat.size ≤ 256 := by
  have h := ofBigEndian_lt sig.r.bytes
  rw [sig.r.length_bytes] at h
  exact Nat.size_le.mpr h

end Signature

/-! ### The script -/

namespace Tx.P2pkh

variable (r : SignatureRecord)

/-- How long an unlocking script is, from the bits of the two components. -/
theorem length_pushes :
    (pushes r).length =
      44 + r.signature.r.toNat.size / 8 + r.signature.s.toNat.size / 8 := by
  have hder := r.signature.length_toDer
  rw [Signature.length_canonical, Signature.length_canonical] at hder
  simp only [pushes, SignatureRecord.toCheckSig, List.length_cons, List.length_append,
    r.publicKey.compressed.length_bytes, hder, FixedBytes.toNat, List.length_nil]
  omega

theorem isPushOnly_of_chunks {script : Script} {c c' : Chunk} {data data' : Bytes}
    (hchunks : script.chunks = [c, c']) (hc : c.IsPushOf data) (hc' : c'.IsPushOf data') :
    script.isPushOnly := by
  simp [Script.isPushOnly, hchunks, Chunk.isPush, hc.data, hc.whole, hc'.data, hc'.whole]

/-- The longest signature in the lower half: a first component of 256 bits, and half the order. -/
def longest : SignatureRecord where
  publicKey := ⟨Curve.Jacobian.generator.x, Curve.Jacobian.generator.y⟩
  outpoint := ⟨.zero 32, 0⟩
  inputIndex := 0
  signature := ⟨.ofNat 32 (Curve.order - 1), .ofNat 32 (Curve.order / 2)⟩
  sighashType := Sighash.all

theorem hasLowS_longest : longest.signature.hasLowS := by decide

/-- A signature in the lower half unlocks with a script that pushes the signature with its type and the
compressed key, and does nothing else.  The script is no longer than a template estimates, and is as long
just if the first component has 256 bits and the second at least 248. -/
theorem unlock_isTight :
    (∀ r : SignatureRecord, r.signature.hasLowS →
      ∃ script c c', unlock r = .ok script ∧
        script.length ≤ maxUnlockLength ∧
        (script.length = maxUnlockLength ↔
          2 ^ 255 ≤ r.signature.r.toNat ∧ 2 ^ 247 ≤ r.signature.s.toNat) ∧
        script.chunks = [c, c'] ∧
        c.IsPushOf (r.signature.toDer ++ [r.sighashType.toUInt8]) ∧
        c'.IsPushOf r.publicKey.compressed.bytes ∧ r.publicKey.compressed.bytes.length = 33 ∧
        script.isPushOnly) ∧
    (∃ r : SignatureRecord, r.signature.hasLowS ∧
      ∃ script, unlock r = .ok script ∧ script.length = maxUnlockLength) ∧
    ∀ scheme key type, (template scheme key type).estimatedLength = maxUnlockLength ∧
      maxUnlockLength = 107 := by
  have hbound (r : SignatureRecord) (hlow : r.signature.hasLowS) :
      (Script.mk (pushes r)).length ≤ maxUnlockLength ∧
        ((Script.mk (pushes r)).length = maxUnlockLength ↔
          2 ^ 255 ≤ r.signature.r.toNat ∧ 2 ^ 247 ≤ r.signature.s.toNat) := by
    have hlength : (Script.mk (pushes r)).length = _ := length_pushes r
    have hr := r.signature.size_r_le
    have hs := Signature.size_s_le hlow
    have hmax : maxUnlockLength = 107 := rfl
    rw [← Nat.lt_size, ← Nat.lt_size, hlength, hmax]
    omega
  refine ⟨fun r hlow => ?_, ?_, fun _ _ _ => ⟨rfl, rfl⟩⟩
  · obtain ⟨c, c', hchunks, hsignature, hkey⟩ := exists_chunks_pushes r
    obtain ⟨hle, hiff⟩ := hbound r hlow
    exact ⟨_, c, c', unlock_eq r, hle, hiff, hchunks, hsignature, hkey,
      r.publicKey.compressed.length_bytes, isPushOnly_of_chunks hchunks hsignature hkey⟩
  · have hfull := (hbound longest hasLowS_longest).2.mpr (by decide)
    exact ⟨longest, hasLowS_longest, _, unlock_eq longest, hfull⟩

/-- The longest signature takes 72 bytes with its type, and the script all that is estimated. -/
theorem unlock_isTight_longest :
    longest.signature.hasLowS ∧ longest.toCheckSig.length = 72 ∧
      ∃ script c c', unlock longest = .ok script ∧ script.length = 107 ∧ script.chunks = [c, c'] ∧
        c.IsPushOf longest.toCheckSig ∧ c'.IsPushOf longest.publicKey.compressed.bytes ∧
        script.isPushOnly := by
  obtain ⟨script, c, c', hunlock, -, hfull, hchunks, hsignature, hkey, -, hpush⟩ :=
    unlock_isTight.1 longest hasLowS_longest
  exact ⟨hasLowS_longest, by decide, script, c, c', hunlock, hfull.mpr (by decide), hchunks,
    hsignature, hkey, hpush⟩

end Tx.P2pkh

end Utxo
