/-
What is relied on of a signature scheme.

A scheme is `Lawful` if the components of its signatures are scalars, its signatures are valid, and
its keys can be read.  That signatures are in the lower half is not asked of it, because signing
brings them there.

* **`hasLowS_iff`** — comparing the second component byte by byte is comparing integers;
* **`Lawful.of_sign`** — a signature that is made has components other than zero and is in the lower
  half;
* **`lawful_single`** — a scheme of one key and one signature.
-/
import Utxo.Ecdsa.Scheme
import Utxo.Proofs.Bytes.Integers

namespace Utxo

namespace FixedBytes

variable {n k : Nat}

theorem toNat_ofNat (h : k < 256 ^ n) : (FixedBytes.ofNat n k).toNat = k :=
  ofBigEndian_bigEndian_of_lt h

theorem toNat_zero : (FixedBytes.zero n).toNat = 0 := ofBigEndian_replicate_zero n

theorem ofNat_ne_zero (hk : 0 < k) (h : k < 256 ^ n) : FixedBytes.ofNat n k ≠ .zero n := by
  intro heq
  have := congrArg toNat heq
  rw [toNat_ofNat h, toNat_zero] at this
  omega

end FixedBytes

namespace Signature

theorem ofBigEndian_halfOrder : ofBigEndian halfOrder = Curve.order / 2 := by decide

/-- Comparing bytes is comparing integers. -/
theorem hasLowS_iff {sig : Signature} : sig.hasLowS ↔ sig.s.toNat ≤ Curve.order / 2 := by
  rw [hasLowS, decide_eq_true_iff, le_iff_ofBigEndian_le (by rw [sig.s.length_bytes]; rfl),
    ofBigEndian_halfOrder]
  rfl

section Scalars

variable {r s : Nat}

theorem lowScalar_pos_le (hs : 0 < s) (hs' : s < Curve.order) :
    0 < (if Curve.order / 2 < s then Curve.order - s else s) ∧
      (if Curve.order / 2 < s then Curve.order - s else s) ≤ Curve.order / 2 := by
  split_ifs <;> omega

/-- Replacing a scalar in the upper half by its negative brings it down. -/
theorem hasLowS_ofScalars (hs : 0 < s) (hs' : s < Curve.order) : (ofScalars r s).hasLowS := by
  obtain ⟨-, hlow⟩ := lowScalar_pos_le hs hs'
  rw [hasLowS_iff, ofScalars, FixedBytes.toNat_ofNat]
  · exact hlow
  · exact hlow.trans_lt (by decide)

theorem ofScalars_ne_zero (hr : 0 < r) (hr' : r < 2 ^ 256) (hs : 0 < s) (hs' : s < Curve.order) :
    (ofScalars r s).r ≠ .zero 32 ∧ (ofScalars r s).s ≠ .zero 32 := by
  obtain ⟨hpos, hlow⟩ := lowScalar_pos_le hs hs'
  exact ⟨FixedBytes.ofNat_ne_zero hr hr', FixedBytes.ofNat_ne_zero hpos (hlow.trans_lt (by decide))⟩

end Scalars

end Signature

namespace SignatureScheme

/-- What is relied on of a scheme: the components are scalars, signatures are valid for the digest
that was signed, and the compressed form of a key is read as that key. -/
structure Lawful (scheme : SignatureScheme) : Prop where
  isScalar : ∀ {key digest r s}, scheme.components? key digest = some (r, s) →
    (0 < r ∧ r < 2 ^ 256) ∧ 0 < s ∧ s < Curve.order
  isValid : ∀ {key digest signature}, scheme.sign key digest = .ok signature →
    scheme.verify (scheme.publicKey key) digest.bytes signature
  isReadable : ∀ key,
    scheme.readKey (scheme.publicKey key).compressed.bytes = .ok (scheme.publicKey key)

/-- A signature that is made has components other than zero and is in the lower half. -/
theorem Lawful.of_sign {scheme : SignatureScheme} (h : scheme.Lawful) {key : PrivateKey}
    {digest : Hash256} {signature : Signature} (hsign : scheme.sign key digest = .ok signature) :
    (signature.r ≠ .zero 32 ∧ signature.s ≠ .zero 32) ∧ signature.hasLowS := by
  unfold sign at hsign
  split at hsign
  · next r s hcomponents =>
    obtain ⟨⟨hr, hr'⟩, hs, hs'⟩ := h.isScalar hcomponents
    cases hsign
    exact ⟨Signature.ofScalars_ne_zero hr hr' hs hs', Signature.hasLowS_ofScalars hs hs'⟩
  · cases hsign

/-- The scheme of a single key that has a single signature. -/
def single (key : PublicKey) (r s : Nat) : SignatureScheme where
  publicKey _ := key
  components? _ _ := some (r, s)
  verify k _ signature := k = key && signature = .ofScalars r s
  readKey bs := if bs = key.compressed.bytes then .ok key else .error .notPoint

theorem lawful_single (key : PublicKey) {r s : Nat} (hr : 0 < r ∧ r < 2 ^ 256)
    (hs : 0 < s ∧ s < Curve.order) : (single key r s).Lawful where
  isScalar := by
    rintro _ _ _ _ ⟨⟩
    exact ⟨hr, hs⟩
  isValid := by
    rintro _ _ _ ⟨⟩
    simp [single]
  isReadable _ := if_pos rfl

end SignatureScheme

end Utxo
