/-
The preimage that is signed and the preimage that is checked.

A signature is made for a type of 32 bits, which is the last part of the preimage.  With the signature
goes the low byte of the type only, and a check widens that byte again.  All flags are in the low byte,
so that both preimages have the same parts but for the type itself.

* **`partsOf_lowByte`** — the parts for the low byte of a type;
* **`checkCall_toCheckSig`** — the preimage that a check looks at;
* **`signed_eq_checked_iff`** — it is the preimage that was signed just if the type is a byte.
-/
import Utxo.Proofs.Ecdsa.Der
import Utxo.Proofs.Ecdsa.Scheme
import Utxo.Proofs.Tx.Preimage
import Utxo.Tx.Verify

namespace Utxo.Tx

open Machine

/-! ### The low byte of a type -/

namespace Sighash

variable (type : UInt32)

theorem toUInt32_toUInt8_eq_iff : type.toUInt8.toUInt32 = type ↔ type ≤ 0xff := by
  rw [← UInt32.toNat_inj, UInt8.toNat_toUInt32, UInt32.toNat_toUInt8, UInt32.le_iff_toNat_le]
  show type.toNat % 256 = type.toNat ↔ type.toNat ≤ 255
  omega

/-- A flag that fits in a byte is in the low byte. -/
theorem toUInt32_toUInt8_and (mask : UInt32) (hmask : mask &&& 0xff = mask) :
    type.toUInt8.toUInt32 &&& mask = type &&& mask := by
  have hlow : type.toUInt8.toUInt32 = type &&& 0xff := by
    apply UInt32.toNat_inj.mp
    rw [UInt8.toNat_toUInt32, UInt32.toNat_toUInt8, UInt32.toNat_and]
    exact (Nat.and_two_pow_sub_one_eq_mod type.toNat 8).symm
  rw [hlow, UInt32.and_assoc, UInt32.and_comm 0xff, hmask]

theorem base_lowByte : base type.toUInt8.toUInt32 = base type :=
  toUInt32_toUInt8_and type 0x1f rfl

theorem has_forkId_lowByte : has type.toUInt8.toUInt32 forkId = has type forkId := by
  rw [has, has, toUInt32_toUInt8_and type forkId rfl]

theorem fixesInputs_lowByte : fixesInputs type.toUInt8.toUInt32 = fixesInputs type := by
  rw [fixesInputs, fixesInputs, has, has, toUInt32_toUInt8_and type anyoneCanPay rfl]

theorem fixesOutputs_lowByte : fixesOutputs type.toUInt8.toUInt32 = fixesOutputs type := by
  rw [fixesOutputs, fixesOutputs, base_lowByte]

end Sighash

/-- For the low byte of a type a preimage has the same parts, but for the type. -/
theorem partsOf_lowByte (tx : Transaction) (input : Input) (index : Nat) (type : UInt32)
    (output : Output) (lockTime : UInt32) :
    partsOf tx input (Input.signedPart index type.toUInt8.toUInt32 output) lockTime =
      { partsOf tx input (Input.signedPart index type output) lockTime with
        type := type.toUInt8.toUInt32 } := by
  have houtpoints : outpointsText tx type.toUInt8.toUInt32 = outpointsText tx type := by
    rw [outpointsText, outpointsText, Sighash.fixesInputs_lowByte]
  have hsequences : sequencesText tx type.toUInt8.toUInt32 = sequencesText tx type := by
    rw [sequencesText, sequencesText, Sighash.fixesInputs_lowByte, Sighash.fixesOutputs_lowByte]
  have houtputs : outputsText tx index type.toUInt8.toUInt32 = outputsText tx index type := by
    rw [outputsText, outputsText, Sighash.fixesOutputs_lowByte, Sighash.base_lowByte]
  simp only [partsOf, Input.signedPart, houtpoints, hsequences, houtputs]

/-! ### The signature as checks take it -/

namespace SignatureRecord

variable (r : SignatureRecord)

theorem getLast?_toCheckSig : r.toCheckSig.getLast? = some r.sighashType.toUInt8 := by
  simp [toCheckSig]

theorem dropLast_toCheckSig : r.toCheckSig.dropLast = r.signature.toDer := by
  simp [toCheckSig]

theorem length_toCheckSig_le : r.toCheckSig.length ≤ 73 := by
  have := r.signature.length_toDer_le
  simp only [toCheckSig, List.length_append, List.length_singleton]
  omega

end SignatureRecord

section

variable {scheme : SignatureScheme} {tx : Transaction} {satoshis : UInt64} {index : Nat}
  {key : PrivateKey} {type : UInt32} {i : Input} {output : Output}

/-- A check that can read the signature and the key verifies the one with the other. -/
theorem checkCall_toCheckSig {r : SignatureRecord} {bytes : Bytes} {k : PublicKey} {script : Script}
    {flag : UInt8} {digest : Hash256}
    (hsignature : r.signature.r ≠ .zero 32 ∧ r.signature.s ≠ .zero 32)
    (hkey : scheme.readKey bytes = .ok k)
    (hdigest : signatureHash tx ⟨index, script.bytes, flag.toUInt32, satoshis⟩ = .ok digest) :
    checkCall scheme tx satoshis ⟨r.toCheckSig, bytes, script, index, flag⟩ =
      .ok (scheme.verify k digest.bytes r.signature) := by
  have hempty : r.toCheckSig.isEmpty = false := by simp [SignatureRecord.toCheckSig]
  simp only [checkCall, hempty, r.dropLast_toCheckSig]
  rw [Signature.ofDer_toDer hsignature.1 hsignature.2, hkey, hdigest]
  rfl

/-- A signature that is made is one of the preimage for the whole type. -/
theorem Input.signatures_singleton_eq_ok_iff {records : List SignatureRecord}
    (hspent : i.spent = some output) :
    i.signatures scheme tx [(key, some type)] index = .ok records ↔
      ∃ bytes cache signature,
        Tx.preimage tx (signedPart index type output) .empty = .ok (bytes, cache) ∧
        scheme.sign key (Digest.sha256d bytes) = .ok signature ∧
        records = [⟨scheme.publicKey key, i.outpoint, index, signature, type⟩] := by
  simp only [signatures, hspent, signAll, Option.getD_some]
  cases hpreimage : Tx.preimage tx (signedPart index type output) .empty with
  | error e => simp [bind, Except.bind]
  | ok r =>
    obtain ⟨bytes, cache⟩ := r
    cases hsignature : scheme.sign key (Digest.sha256d bytes) with
    | error e => simp [bind, Except.bind, hsignature, Except.mapError]
    | ok signature =>
      simp [bind, Except.bind, hsignature, Except.mapError, pure, Except.pure, eq_comm]

/-- With a scheme that always signs, every input can be signed for every type with the fork id. -/
theorem Input.signatures_single_eq_ok (k : PublicKey) (r s : Nat) (key : PrivateKey)
    {input : Input} (hinput : tx.inputs[index]? = some input) (hspent : i.spent = some output)
    (hfork : Sighash.has type Sighash.forkId) :
    i.signatures (.single k r s) tx [(key, some type)] index =
      .ok [⟨k, i.outpoint, index, .ofScalars r s, type⟩] := by
  obtain ⟨cache, hpreimage⟩ :=
    exists_preimage_eq_ok tx (signedPart index type output) hinput hfork
  exact (signatures_singleton_eq_ok_iff hspent).mpr ⟨_, cache, _, hpreimage, rfl, rfl⟩

/-- There is a preimage for the low byte of a type if there is one for the type, and it is the same
just if the type is a byte. -/
theorem exists_preimage_lowByte {signed : Bytes} {cache : DigestCache}
    (h : preimage tx (Input.signedPart index type output) .empty = .ok (signed, cache)) :
    ∃ checked cache', preimage tx (Input.signedPart index type.toUInt8.toUInt32 output) .empty =
      .ok (checked, cache') ∧ (signed = checked ↔ type ≤ 0xff) := by
  obtain ⟨input, hinput, hfork, rfl⟩ := exists_partsOf_of_preimage_eq_ok h
  have hfork' : Sighash.has type.toUInt8.toUInt32 Sighash.forkId :=
    (Sighash.has_forkId_lowByte type).trans hfork
  obtain ⟨cache', hpreimage⟩ := exists_preimage_eq_ok tx
    (Input.signedPart index type.toUInt8.toUInt32 output) hinput hfork'
  refine ⟨_, cache', hpreimage, ?_⟩
  rw [partsOf_lowByte, ← Sighash.toUInt32_toUInt8_eq_iff]
  constructor
  · intro heq
    exact (congrArg PreimageParts.type (PreimageParts.encode_inj heq)).symm
  · intro hbyte
    rw [hbyte]
    rfl

/-- A signature that is made for a type is one of the preimage for that type. A check of it, with the
flag that goes with it and any key, looks at the preimage for the low byte of the type. Both are the
same just if the type is a byte, and then the signature is valid. -/
theorem signed_eq_checked_iff (hscheme : scheme.Lawful) (hspent : i.spent = some output)
    {records : List SignatureRecord}
    (h : i.signatures scheme tx [(key, some type)] index = .ok records) :
    ∃ r flag signed cache checked cache', records = [r] ∧ r.toCheckSig.getLast? = some flag ∧
      preimage tx (Input.signedPart index type output) .empty = .ok (signed, cache) ∧
      scheme.sign key (Digest.sha256d signed) = .ok r.signature ∧
      preimage tx ⟨index, output.lockingScript.bytes, flag.toUInt32, output.satoshis⟩ .empty =
        .ok (checked, cache') ∧
      (∀ bytes k, scheme.readKey bytes = .ok k →
        checkCall scheme tx output.satoshis ⟨r.toCheckSig, bytes, output.lockingScript, index, flag⟩ =
          .ok (scheme.verify k (Digest.sha256d checked).bytes r.signature)) ∧
      (signed = checked ↔ type ≤ 0xff) ∧
      (type ≤ 0xff → checkCall scheme tx output.satoshis
        ⟨r.toCheckSig, (scheme.publicKey key).compressed.bytes, output.lockingScript, index, flag⟩ =
          .ok true) := by
  obtain ⟨signed, cache, signature, hsigned, hsign, rfl⟩ :=
    (Input.signatures_singleton_eq_ok_iff hspent).mp h
  obtain ⟨checked, cache', hchecked, hiff⟩ := exists_preimage_lowByte hsigned
  let r : SignatureRecord := ⟨scheme.publicKey key, i.outpoint, index, signature, type⟩
  obtain ⟨hne, -⟩ := hscheme.of_sign hsign
  have hcheck (bytes : Bytes) (k : PublicKey) (hkey : scheme.readKey bytes = .ok k) :
      checkCall scheme tx output.satoshis
        ⟨r.toCheckSig, bytes, output.lockingScript, index, type.toUInt8⟩ =
          .ok (scheme.verify k (Digest.sha256d checked).bytes signature) :=
    checkCall_toCheckSig hne hkey (signatureHash_of_preimage_eq_ok hchecked)
  refine ⟨r, type.toUInt8, signed, cache, checked, cache', rfl, r.getLast?_toCheckSig, hsigned, hsign,
    hchecked, hcheck, hiff, ?_⟩
  intro hbyte
  have hvalid := hscheme.isValid hsign
  rw [hcheck _ _ (hscheme.isReadable key), ← hiff.mpr hbyte, hvalid]

/-- A coin locked to the key of the scalar one, spent with a signature that fixes a single output and
no other input. -/
theorem signed_eq_checked_iff_scalar_one :
    let k : PublicKey := ⟨Curve.Jacobian.generator.x, Curve.Jacobian.generator.y⟩
    let scheme : SignatureScheme := .single k
      0x475373af2f1d18c3cf241c42333c4df5f1ab3cf9346b88b4fdf84be3a2950972
      0x06cce1d71a747c4affdd1bf92ad47db0b7fecc237a4911c1b8631a1e8df8628d
    let output : Output := ⟨1000, ⟨33 :: k.compressed.bytes ++ [0xac]⟩⟩
    let input : Input := ⟨⟨.zero 32, 0⟩, Input.finalSequence, .raw [], some output⟩
    let tx : Transaction := ⟨1, [input], [], 0⟩
    ∃ r flag signed cache checked cache',
      input.signatures scheme tx [(⟨1, by decide, by decide⟩, some 0xc3)] 0 = .ok [r] ∧
      r.toCheckSig.getLast? = some flag ∧
      preimage tx (Input.signedPart 0 0xc3 output) .empty = .ok (signed, cache) ∧
      preimage tx ⟨0, output.lockingScript.bytes, flag.toUInt32, 1000⟩ .empty =
        .ok (checked, cache') ∧
      signed = checked ∧
      checkCall scheme tx 1000
        ⟨r.toCheckSig, k.compressed.bytes, output.lockingScript, 0, flag⟩ = .ok true := by
  intro k scheme output input tx
  have hscheme : scheme.Lawful := SignatureScheme.lawful_single k (by decide) (by decide)
  have hrecords : input.signatures scheme tx [(⟨1, by decide, by decide⟩, some 0xc3)] 0 = .ok _ :=
    Input.signatures_single_eq_ok k _ _ _ rfl rfl (by decide)
  obtain ⟨r, flag, signed, cache, checked, cache', hr, hflag, hsigned, -, hchecked, -, hiff, hvalid⟩ :=
    signed_eq_checked_iff hscheme rfl hrecords
  exact ⟨r, flag, signed, cache, checked, cache', hr ▸ hrecords, hflag, hsigned, hchecked,
    hiff.mpr (by decide), hvalid (by decide)⟩

/-- The bits of a type beyond its low byte are signed, but not checked. -/
theorem signed_ne_checked_two_byte_type :
    let k : PublicKey := ⟨Curve.Jacobian.generator.x, Curve.Jacobian.generator.y⟩
    let scheme : SignatureScheme := .single k
      0xb9649792d7e2fa4b4cc8696a1d87b590c4b754f44794e27f8cdb1f3ce810806b
      0x8890319cdffdcc36c320392e113bc7fb21f38bac1fca853fb7087b6c85fc0261
    let output : Output := ⟨1000, ⟨33 :: k.compressed.bytes ++ [0xac]⟩⟩
    let input : Input := ⟨⟨.zero 32, 0⟩, Input.finalSequence, .raw [], some output⟩
    let tx : Transaction := ⟨1, [input], [], 0⟩
    ∃ r signed cache checked cache',
      input.signatures scheme tx [(⟨1, by decide, by decide⟩, some 0x141)] 0 = .ok [r] ∧
      r.toCheckSig.getLast? = some 0x41 ∧
      preimage tx (Input.signedPart 0 0x141 output) .empty = .ok (signed, cache) ∧
      scheme.sign ⟨1, by decide, by decide⟩ (Digest.sha256d signed) = .ok r.signature ∧
      preimage tx ⟨0, output.lockingScript.bytes, 0x41, 1000⟩ .empty = .ok (checked, cache') ∧
      signed ≠ checked := by
  intro k scheme output input tx
  obtain ⟨cache, hsigned⟩ :=
    exists_preimage_eq_ok tx (Input.signedPart 0 0x141 output) rfl (by decide)
  obtain ⟨checked, cache', hchecked, hiff⟩ := exists_preimage_lowByte hsigned
  have hrecords : input.signatures scheme tx [(⟨1, by decide, by decide⟩, some 0x141)] 0 = .ok _ :=
    Input.signatures_single_eq_ok k _ _ _ rfl rfl (by decide)
  have hlowByte : (0x141 : UInt32).toUInt8 = 0x41 := by decide
  refine ⟨_, _, cache, checked, cache', hrecords, ?_, hsigned, rfl, hchecked, ?_⟩
  · rw [SignatureRecord.getLast?_toCheckSig, hlowByte]
  · intro heq
    exact absurd (hiff.mp heq) (by decide)

end

end Utxo.Tx
