/-
What is signed is verified.

Signing fixes a digest of the transaction, and verifying asks for the digest again: of the
transaction with the new unlocking script in it, or of what is read from its written form.  The
digests agree, because the preimage looks at neither.

* **`verify_of_isSigned`** — an input that has a signature of the digest of its transaction is
  verified;
* **`performs_signing`** — signing that fails has failed before the transaction changes;
* **`signInput_verifies`** — so an input is verified once it is signed, and again after the
  transaction has been written and read.
-/
import Utxo.Proofs.Ecdsa.Scheme
import Utxo.Proofs.P2pkh.Spend
import Utxo.Proofs.P2pkh.Unlocking
import Utxo.Proofs.Steps
import Utxo.Proofs.Tx.Coherence
import Utxo.Proofs.Tx.RoundTrip
import Utxo.Tx.Verify

namespace Utxo.Tx

open Machine

/-! ### Types of signatures -/

/-- A type of one byte with the fork id and a base from one to three. -/
structure Sighash.IsStandard (type : UInt32) : Prop where
  byte : type ≤ 0xff
  fork : type &&& Sighash.forkId ≠ 0
  base : type &&& 0x3f = 1 ∨ type &&& 0x3f = 2 ∨ type &&& 0x3f = 3

namespace Sighash.IsStandard

variable {type : UInt32}

/-- The standard flags allow such a type. -/
theorem checkType_eq_ok (h : IsStandard type) :
    checkType (.ofFlags .standard) type.toUInt8 = .ok () := by
  have hand (mask : UInt32) : type.toUInt8 &&& mask.toUInt8 = (type &&& mask).toUInt8 :=
    (UInt32.toUInt8_and type mask).symm
  refine (checkType_eq_ok_iff rfl rfl).mpr ⟨?_, ?_⟩
  · have hbase : type.toUInt8 &&& ~~~(anyoneCanPayBit ||| forkIdBit) = (type &&& 0x3f).toUInt8 :=
      hand 0x3f
    rw [hbase]
    rcases h.base with h | h | h <;> rw [h] <;> decide
  · have hfork : type.toUInt8 &&& forkIdBit = (type &&& Sighash.forkId).toUInt8 := hand 0x40
    rw [hfork]
    intro hzero
    -- A byte holds the bit of the fork id, so it is not lost.
    have hle : (type &&& Sighash.forkId).toNat ≤ 0x40 := by
      rw [UInt32.toNat_and]
      exact Nat.and_le_right
    have hmod := congrArg UInt8.toNat hzero
    rw [UInt32.toNat_toUInt8, Nat.mod_eq_of_lt (Nat.lt_of_le_of_lt hle (by decide))] at hmod
    exact h.fork (UInt32.toNat_inj.mp hmod)

end Sighash.IsStandard

/-! ### Signing -/

namespace P2pkh

variable {scheme : SignatureScheme} {tx : Transaction} {index : Nat} {key : PrivateKey}
  {type : UInt32} {input : Input} {output : Output}

/-- An unlocking script that is made pushes a signature of the digest and the key. -/
theorem exists_of_sign_eq_ok {script : Script} (hinput : tx.inputs[index]? = some input)
    (hspent : input.spent = some output)
    (hsign : sign scheme key (some type) tx index = .ok script) :
    ∃ digest signature, signatureHash tx (Input.signedPart index type output) = .ok digest ∧
      scheme.sign key digest = .ok signature ∧
      script = ⟨pushes ⟨scheme.publicKey key, input.outpoint, index, signature, type⟩⟩ := by
  simp only [sign, hinput, Option.getD_some] at hsign
  cases hrecords : input.signatures scheme tx [(key, some type)] index with
  | error e =>
    rw [hrecords] at hsign
    cases hsign
  | ok records =>
    obtain ⟨bytes, cache, signature, hpreimage, hsignature, rfl⟩ :=
      (Input.signatures_singleton_eq_ok_iff hspent).mp hrecords
    rw [hrecords] at hsign
    have hunlock : unlock ⟨scheme.publicKey key, input.outpoint, index, signature, type⟩ =
        .ok script := hsign
    rw [unlock_eq] at hunlock
    exact ⟨_, signature, signatureHash_of_preimage_eq_ok hpreimage, hsignature,
      (Except.ok.inj hunlock).symm⟩

/-! ### Verifying -/

theorem checkKey_compressed (rules : Rules) (k : PublicKey) :
    checkKey rules k.compressed.bytes = .ok () := by
  have hlooks : looksLikeKey k.compressed.bytes := by
    simp only [PublicKey.compressed, looksLikeKey, length_bigEndian]
    split <;> rfl
  simp [checkKey, hlooks]

/-- A signature that a lawful scheme has made passes the rules on its form. -/
theorem checkForms_eq_ok (hscheme : scheme.Lawful) (htype : Sighash.IsStandard type)
    {digest : Hash256} {signature : Signature} (hsign : scheme.sign key digest = .ok signature)
    (k : PublicKey) :
    checkForms (.ofFlags .standard) signature.toDer type.toUInt8 k.compressed.bytes = .ok () := by
  obtain ⟨⟨hr, hs⟩, hlow⟩ := hscheme.of_sign hsign
  exact checkForms_eq_ok_iff.mpr
    ⟨htype.checkType_eq_ok, checkForm_toDer hr hs hlow _, checkKey_compressed _ k⟩

/-- An input that has a signature of the digest of its transaction is verified. -/
theorem verify_of_isSigned (hscheme : scheme.Lawful) (htype : Sighash.IsStandard type)
    {satoshis : UInt64} {outpoint : Outpoint} {digest : Hash256} {signature : Signature}
    (hindex : index < tx.inputs.length)
    (hspent : input.spent = some ⟨satoshis, lockKey (scheme.publicKey key)⟩)
    (hdigest : signatureHash tx
      (Input.signedPart index type ⟨satoshis, lockKey (scheme.publicKey key)⟩) = .ok digest)
    (hsign : scheme.sign key digest = .ok signature)
    (hscript : input.scriptBytes =
      pushes ⟨scheme.publicKey key, outpoint, index, signature, type⟩) :
    input.verify scheme tx index = .ok ⟨true, "", .empty⟩ := by
  let k := scheme.publicKey key
  let r : SignatureRecord := ⟨k, outpoint, index, signature, type⟩
  obtain ⟨⟨hr, hs⟩, -⟩ := hscheme.of_sign hsign
  -- The checker is asked for the digest that was signed.
  have hanswer : (checker scheme tx satoshis).answer []
      (question k.hash160 index r.toCheckSig k.compressed.bytes type.toUInt8) = .ok true := by
    have hpart : SignedPart.mk index (lock k.hash160).bytes type.toUInt8.toUInt32 satoshis =
        Input.signedPart index type ⟨satoshis, lockKey k⟩ := by
      rw [(Sighash.toUInt32_toUInt8_eq_iff type).mpr htype.byte]
      rfl
    have hcheck : checkCall scheme tx satoshis
        (question k.hash160 index r.toCheckSig k.compressed.bytes type.toUInt8) = .ok true := by
      rw [question, checkCall_toCheckSig ⟨hr, hs⟩ (hscheme.isReadable key) (hpart ▸ hdigest)]
      exact congrArg Except.ok (hscheme.isValid hsign)
    simp only [checker, hcheck]
    rfl
  have haccepts : Accepts
      (.ofFlags .unlimited .standard (some (checker scheme tx satoshis)) index) []
      (question k.hash160 index r.toCheckSig k.compressed.bytes type.toUInt8) := by
    refine ⟨r.getLast?_toCheckSig, ?_, _, rfl, hanswer⟩
    simp only [question, r.dropLast_toCheckSig]
    exact checkForms_eq_ok hscheme htype hsign k
  obtain ⟨hsize, helement, hdepth, hoperations⟩ : 108 ≤ Limits.unlimited.scriptSize ∧
      73 ≤ Limits.unlimited.elementSize ∧ 4 ≤ Limits.unlimited.stackDepth ∧
      4 ≤ Limits.unlimited.operations := by decide
  have hfinishes : Finishes
      (.ofFlags .unlimited .standard (some (checker scheme tx satoshis)) index) ⟨pushes r⟩ _ :=
    finishes_unlock r hsize helement (Nat.le_trans (by decide) hdepth)
  have hrun := run_lock_eq_ok k.hash160 rfl rfl rfl rfl hfinishes rfl rfl haccepts hdepth
    hoperations (Nat.le_trans (by decide) hsize) (Nat.le_trans (by decide) helement)
  have hunlocking : input.unlockingScript = ⟨pushes r⟩ := congrArg Script.mk hscript
  have hresult : (execute .unlimited .standard (some (checker scheme tx satoshis)) index ⟨pushes r⟩
      (lockKey (scheme.publicKey key))).result = .ok () := hrun
  rw [Input.verify, Input.verifyWith, hspent]
  dsimp only
  rw [if_neg (Nat.not_le_of_lt hindex), hunlocking]
  simp only [hresult, Report.ofRun]

end P2pkh

/-! ### Both -/

/-- Signing an input step by step. The script is made from the transaction as it was, and then put
into it. -/
def signing (index : Nat) (template : Template) : Steps Error Transaction Unit := do
  let tx ← get
  if tx.inputs.length ≤ index then
    throw (.inputIndex index tx.inputs.length)
  else
    let script ← template.sign tx index
    modify fun tx => { tx with inputs := tx.inputs.modify index (·.setScript script) }

/-- The transaction after an attempt to sign an input. -/
def afterSigning (tx : Transaction) (index : Nat) (template : Template) : Transaction :=
  ((signing index template).on tx).2

/-- The transaction with the output that an input spends made known. -/
def attach (tx : Transaction) (index : Nat) (o : Output) : Transaction :=
  { tx with inputs := tx.inputs.modify index fun i => { i with spent := some o } }

/-- The input at an index is verified: with success, and neither an error nor a place of one. -/
def Verifies (scheme : SignatureScheme) (tx : Transaction) (index : Nat) : Prop :=
  ∃ input, tx.inputs[index]? = some input ∧
    input.verify scheme tx index = .ok ⟨true, "", .empty⟩

section

variable {scheme : SignatureScheme} {tx tx' : Transaction} {index : Nat} {key : PrivateKey}
  {type : UInt32} {input : Input} {satoshis : UInt64}

theorem sameFrame_attach (tx : Transaction) (index : Nat) (o : Output) :
    (attach tx index o).SameFrame tx := .modify tx index fun _ => ⟨rfl, rfl⟩

/-- An input is verified in every transaction that agrees with the signed one but for the scripts
and the outputs spent, if it has the unlocking script and spends the same output. -/
theorem verifies_of_sign (hscheme : scheme.Lawful) (htype : Sighash.IsStandard type)
    (hinput : tx.inputs[index]? = some input)
    (hspent : input.spent = some ⟨satoshis, P2pkh.lockKey (scheme.publicKey key)⟩) {script : Script}
    (hsign : P2pkh.sign scheme key (some type) tx index = .ok script) {input' : Input}
    (hframe : tx'.SameFrame tx) (hinput' : tx'.inputs[index]? = some input')
    (hspent' : input'.spent = input.spent) (hscript' : input'.scriptBytes = script.bytes) :
    Verifies scheme tx' index := by
  obtain ⟨digest, signature, hdigest, hsignature, rfl⟩ :=
    P2pkh.exists_of_sign_eq_ok hinput hspent hsign
  obtain ⟨hindex, -⟩ := List.getElem?_eq_some_iff.mp hinput'
  refine ⟨input', hinput', ?_⟩
  rw [← signatureHash_congr hframe] at hdigest
  exact P2pkh.verify_of_isSigned hscheme htype hindex (hspent'.trans hspent) hdigest hsignature
    hscript'

/-- Signing that fails has failed before the transaction changes. -/
theorem performs_signing (index : Nat) (template : Template) :
    (signing index template).Performs (signInput · index template) := by
  intro tx
  show (if tx.inputs.length ≤ index then _ else _ : Steps Error Transaction Unit).on tx = _
  simp only [signInput]
  split_ifs
  · rfl
  · cases template.sign tx index <;> rfl

/-- An input that spends a coin locked to a key is verified once it is signed with that key, and
again after the transaction has been written and read and the output that it spends is made known.
Nothing else has changed, and nothing at all if there is no signature. -/
theorem signInput_verifies (hscheme : scheme.Lawful) (tx : Transaction) (index : Nat)
    (key : PrivateKey) (satoshis : UInt64) {type : UInt32} (htype : Sighash.IsStandard type)
    {input : Input}
    (hinput : tx.inputs[index]? = some input)
    (hspent : input.spent = some ⟨satoshis, P2pkh.lockKey (scheme.publicKey key)⟩) :
    (∀ e, signInput tx index (P2pkh.template scheme key (some type)) = .error e →
      afterSigning tx index (P2pkh.template scheme key (some type)) = tx) ∧
    ∀ tx', signInput tx index (P2pkh.template scheme key (some type)) = .ok tx' →
      (afterSigning tx index (P2pkh.template scheme key (some type)) = tx' ∧
        ∃ script, tx' = { tx with inputs := tx.inputs.set index (input.setScript script) }) ∧
      Verifies scheme tx' index ∧
      (tx'.Fits → ∃ tx'', Transaction.decode tx'.encode = .ok tx'' ∧
        Verifies scheme
          (attach tx'' index ⟨satoshis, P2pkh.lockKey (scheme.publicKey key)⟩) index) := by
  have hperforms := performs_signing index (P2pkh.template scheme key (some type))
  refine ⟨fun e he => congrArg Prod.snd (hperforms.on_of_error he), fun tx' htx' => ?_⟩
  obtain ⟨script, hsign, hmodify⟩ := exists_of_signInput_eq_ok htx'
  have hset : tx' = { tx with inputs := tx.inputs.set index (input.setScript script) } := by
    have : Inhabited Input := ⟨input⟩
    rw [hmodify, List.modify_eq_set, hinput, Option.getD_some]
  -- Only the script of the input is new.
  have hframe : tx'.SameFrame tx := by
    rw [hmodify]
    exact .modify tx index fun _ => ⟨rfl, rfl⟩
  have hinput' : tx'.inputs[index]? = some (input.setScript script) := by
    rw [hmodify, List.getElem?_modify_eq, hinput]
    rfl
  refine ⟨⟨congrArg Prod.snd (hperforms.on_of_ok htx'), script, hset⟩, ?_, fun hfits => ?_⟩
  · exact verifies_of_sign hscheme htype hinput hspent hsign hframe hinput' rfl rfl
  · -- Reading keeps the frame and the script, and the output spent is made known again.
    let output : Output := ⟨satoshis, P2pkh.lockKey (scheme.publicKey key)⟩
    have hframe' : (attach tx'.bare index output).SameFrame tx :=
      (sameFrame_attach tx'.bare index output).trans
        ((Transaction.sameFrame_bare tx').trans hframe)
    have hattached : (attach tx'.bare index output).inputs[index]? =
        some { (input.setScript script).bare with spent := input.spent } := by
      rw [attach, List.getElem?_modify_eq, Transaction.bare, List.getElem?_map, hinput', hspent]
      rfl
    exact ⟨tx'.bare, Transaction.decode_encode hfits,
      verifies_of_sign hscheme htype hinput hspent hsign hframe' hattached rfl rfl⟩

/-- A coin locked to the key of the scalar one, spent with its signature for everything. -/
theorem signInput_verifies_scalar_one :
    let k : PublicKey := ⟨Curve.Jacobian.generator.x, Curve.Jacobian.generator.y⟩
    let scheme : SignatureScheme := .single k
      0x303e4f093e9a6f7e5f6713a146a3fe8176b41de474779f29a274f094a13e9c83
      0xc603ecea69ab7ca444e5fbffb455e5ee4627890e2e8494ff35ab0e19cc5c8dad
    let template := P2pkh.template scheme ⟨1, by decide, by decide⟩ (some Sighash.all)
    let tx : Transaction :=
      ⟨1, [⟨⟨.zero 32, 0⟩, Input.finalSequence, .raw [], some ⟨1000, P2pkh.lockKey k⟩⟩], [], 0⟩
    ∃ tx', signInput tx 0 template = .ok tx' ∧ Verifies scheme tx' 0 ∧
      ∃ tx'', Transaction.decode tx'.encode = .ok tx'' ∧
        Verifies scheme (attach tx'' 0 ⟨1000, P2pkh.lockKey k⟩) 0 := by
  intro k scheme template tx
  have hscheme : scheme.Lawful := SignatureScheme.lawful_single k (by decide) (by decide)
  have hsigned : (signInput tx 0 template).toOption.any fun tx' => decide tx'.Fits := by
    decide +kernel
  cases htx' : signInput tx 0 template with
  | error e =>
    rw [htx'] at hsigned
    cases hsigned
  | ok tx' =>
    rw [htx'] at hsigned
    have hfits : tx'.Fits := of_decide_eq_true hsigned
    obtain ⟨-, hverifies, hread⟩ := (signInput_verifies hscheme tx 0 ⟨1, by decide, by decide⟩ 1000
      ⟨by decide, by decide, .inl (by decide)⟩ rfl rfl).2 tx' htx'
    exact ⟨tx', rfl, hverifies, hread hfits⟩

end

end Utxo.Tx
