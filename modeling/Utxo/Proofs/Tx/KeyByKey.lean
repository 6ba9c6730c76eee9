/-
Signing with several keys.

An input is signed with one key after the other, each with a type of its own, and the digests that one
signature needed are kept for the next.  What is kept makes no difference, so every key signs as if it
were the only one.

* **`signAll_eq_mapM`** — signing with all keys is signing with each of them, whatever right digests
  are kept;
* **`signatures_areKeyByKey`** — so there are signatures just if every key alone has one, and they are
  these in the order of the keys; if not, the first key that has none says why.
-/
import Utxo.Proofs.Itemwise
import Utxo.Proofs.Tx.SignedPreimage

namespace Utxo.Tx

/-! ### One key after the other -/

section

variable {scheme : SignatureScheme} {i : Input} {output : Output} {tx : Transaction} {index : Nat}
  {keys : List (PrivateKey × Option UInt32)} {key : PrivateKey × Option UInt32}
  {cache : DigestCache}

/-- The digest that is signed is that of the preimage, whatever right digests are kept. -/
theorem map_sha256d_preimage (part : SignedPart) (hcache : cache.Within (.ofTransaction tx)) :
    ((preimage tx part cache).map Prod.fst).map Digest.sha256d = signatureHash tx part := by
  have hhash : signatureHash tx part =
      ((preimage tx part .empty).map Prod.fst).map Digest.sha256d := by
    rw [signatureHash]
    cases preimage tx part .empty <;> rfl
  rw [hhash, preimage, preimage, map_fst_preimageAt hcache, map_fst_preimageAt (.empty _)]

namespace Input

/-- Signs with one key: what it makes of the digest for its type. -/
def signWith (scheme : SignatureScheme) (i : Input) (output : Output) (tx : Transaction)
    (index : Nat) (key : PrivateKey × Option UInt32) : Except Error SignatureRecord := do
  let type := key.2.getD Sighash.all
  let digest ← signatureHash tx (signedPart index type output)
  let signature ← (scheme.sign key.1 digest).mapError .signature
  return ⟨scheme.publicKey key.1, i.outpoint, index, signature, type⟩

/-- Signing with all keys is signing with each of them, whatever right digests are kept. -/
theorem signAll_eq_mapM (hcache : cache.Within (.ofTransaction tx)) :
    i.signAll scheme output tx index keys cache = keys.mapM (i.signWith scheme output tx index) := by
  induction keys generalizing cache with
  | nil => rfl
  | cons key keys ih =>
    obtain ⟨k, type⟩ := key
    have hdigest := map_sha256d_preimage (signedPart index (type.getD Sighash.all) output) hcache
    rw [List.mapM_cons, signAll, signWith]
    dsimp only
    cases hpreimage : Tx.preimage tx (signedPart index (type.getD Sighash.all) output) cache with
    | error e =>
      rw [hpreimage] at hdigest
      rw [← hdigest]
      rfl
    | ok r =>
      obtain ⟨bytes, next⟩ := r
      rw [hpreimage] at hdigest
      rw [← hdigest]
      -- The digests kept for the other keys are right again.
      have hnext : next.Within (.ofTransaction tx) :=
        (within_of_preimageAt_eq_ok hcache hpreimage).2
      simp only [bind, Except.bind, Except.map, ih hnext]
      cases (scheme.sign k (Digest.sha256d bytes)).mapError Error.signature with
      | error e => rfl
      | ok signature => rfl

/-- What a key alone makes is a signature of the digest for its type. -/
theorem signWith_eq_ok_iff {r : SignatureRecord} :
    i.signWith scheme output tx index key = .ok r ↔
      ∃ digest signature,
        signatureHash tx (signedPart index (key.2.getD Sighash.all) output) = .ok digest ∧
        scheme.sign key.1 digest = .ok signature ∧
        r = ⟨scheme.publicKey key.1, i.outpoint, index, signature, key.2.getD Sighash.all⟩ := by
  rw [signWith]
  cases hdigest : signatureHash tx (signedPart index (key.2.getD Sighash.all) output) with
  | error e => simp [bind, Except.bind]
  | ok digest =>
    cases hsign : scheme.sign key.1 digest with
    | error e => simp [bind, Except.bind, hsign, Except.mapError]
    | ok signature =>
      simp [bind, Except.bind, hsign, Except.mapError, pure, Except.pure, eq_comm]

variable (hspent : i.spent = some output)

include hspent

theorem signatures_eq_mapM :
    i.signatures scheme tx keys index = keys.mapM (i.signWith scheme output tx index) := by
  rw [signatures, hspent]
  exact signAll_eq_mapM (.empty _)

theorem signatures_singleton_eq :
    i.signatures scheme tx [key] index = (i.signWith scheme output tx index key).map ([·]) := by
  rw [signatures_eq_mapM hspent, List.mapM_cons, List.mapM_nil]
  cases i.signWith scheme output tx index key <;> rfl

theorem signatures_singleton_eq_ok_iff_signWith {r : SignatureRecord} :
    i.signatures scheme tx [key] index = .ok [r] ↔
      i.signWith scheme output tx index key = .ok r := by
  rw [signatures_singleton_eq hspent]
  cases i.signWith scheme output tx index key <;> simp [Except.map]

theorem signatures_singleton_eq_error_iff_signWith {e : Error} :
    i.signatures scheme tx [key] index = .error e ↔
      i.signWith scheme output tx index key = .error e := by
  rw [signatures_singleton_eq hspent]
  cases i.signWith scheme output tx index key <;> simp [Except.map]

/-- There are signatures just if each key alone has one, and then they are these in the order of the
keys. If not, the first key that has none says why. Each signature is one of the digest for the type of
its key. -/
theorem signatures_areKeyByKey (scheme : SignatureScheme) (tx : Transaction)
    (keys : List (PrivateKey × Option UInt32)) (index : Nat) :
    (∀ records, i.signatures scheme tx keys index = .ok records ↔
      List.Forall₂ (fun key r => i.signatures scheme tx [key] index = .ok [r]) keys records) ∧
    (∀ e, i.signatures scheme tx keys index = .error e ↔
      ∃ before key after, keys = before ++ key :: after ∧
        (∀ k ∈ before, ∃ r, i.signatures scheme tx [k] index = .ok [r]) ∧
        i.signatures scheme tx [key] index = .error e) ∧
    ∀ records, i.signatures scheme tx keys index = .ok records →
      List.Forall₂ (fun key r => ∃ digest,
        signatureHash tx ⟨index, output.lockingScript.bytes, key.2.getD Sighash.all,
            output.satoshis⟩ = .ok digest ∧
          scheme.sign key.1 digest = .ok r.signature ∧
          r.publicKey = scheme.publicKey key.1 ∧ r.sighashType = key.2.getD Sighash.all)
        keys records := by
  simp only [signatures_singleton_eq_ok_iff_signWith hspent,
    signatures_singleton_eq_error_iff_signWith hspent]
  rw [signatures_eq_mapM hspent]
  refine ⟨fun records => mapM_eq_ok_iff, fun e => mapM_eq_error_iff, fun records h => ?_⟩
  refine (mapM_eq_ok_iff.mp h).imp fun key r hr => ?_
  obtain ⟨digest, signature, hdigest, hsign, rfl⟩ := signWith_eq_ok_iff.mp hr
  exact ⟨digest, hdigest, hsign, rfl, rfl⟩

omit hspent

/-- Three types that need different digests, and a type that is refused between two that are not. -/
theorem signatures_areKeyByKey_mixed_types :
    let scheme : SignatureScheme :=
      .single ⟨Curve.Jacobian.generator.x, Curve.Jacobian.generator.y⟩ 5 7
    let key : PrivateKey := ⟨1, by decide, by decide⟩
    let output : Output := ⟨1000, ⟨[0x51]⟩⟩
    let input : Input := ⟨⟨.zero 32, 0⟩, finalSequence, .raw [], some output⟩
    let tx : Transaction := ⟨1, [input], [], 0⟩
    let keys : List (PrivateKey × Option UInt32) := [(key, some 0xc3), (key, none), (key, some 0x42)]
    (∃ records, input.signatures scheme tx keys 0 = .ok records ∧
      records.map (·.sighashType) = [0xc3, 0x41, 0x42] ∧
      List.Forall₂ (fun k r => ∃ digest,
        signatureHash tx ⟨0, [0x51], k.2.getD Sighash.all, 1000⟩ = .ok digest ∧
          scheme.sign k.1 digest = .ok r.signature) keys records) ∧
      input.signatures scheme tx [(key, some 0xc3), (key, some 0x01), (key, none)] 0 =
        .error (.unsupportedSighash 0x01) := by
  intro scheme key output input tx keys
  have hsingle (type : UInt32) (hfork : Sighash.has type Sighash.forkId) :
      input.signatures scheme tx [(key, some type)] 0 = .ok [_] :=
    signatures_single_eq_ok _ 5 7 key rfl rfl hfork
  have hrefused : input.signatures scheme tx [(key, some 0x01)] 0 =
      .error (.unsupportedSighash 0x01) := by
    simp only [tx, input, output]
    rfl
  constructor
  · obtain ⟨hall, -, hdigests⟩ := signatures_areKeyByKey (i := input) rfl scheme tx keys 0
    have hrecords := (hall _).mpr (.cons (hsingle 0xc3 (by decide))
      (.cons (hsingle Sighash.all (by decide)) (.cons (hsingle 0x42 (by decide)) .nil)))
    refine ⟨_, hrecords, rfl, (hdigests _ hrecords).imp fun k r hr => ?_⟩
    obtain ⟨digest, hdigest, hsign, -⟩ := hr
    exact ⟨digest, hdigest, hsign⟩
  · refine ((signatures_areKeyByKey rfl scheme tx _ 0).2.1 _).mpr
      ⟨[(key, some 0xc3)], (key, some 0x01), [(key, none)], rfl, fun k hk => ?_, hrefused⟩
    rw [List.mem_singleton.mp hk]
    exact ⟨_, hsingle 0xc3 (by decide)⟩

end Input

end

end Utxo.Tx
