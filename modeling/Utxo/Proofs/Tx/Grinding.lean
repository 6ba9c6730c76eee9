/-
The first lock time with a low digest.

The lock time of a transaction is moved on, one by one, until the digest that is signed has a low first
and a low last byte.  The digests that a preimage shares with the next are kept, and the search ends
where the lock time would wrap around.  What is found is the least offset for which the preimage,
computed anew, has such a digest; and it stays the preimage once its lock time is written into the
transaction.

* **`grind_succ`** — one step of the search looks at one candidate, whatever right digests are kept;
* **`grind_isFirst`** — a search finds the first candidate with a low digest in its range, or says that
  there is none;
* **`preimage_isGround`** — the search over all lock times that are left, and what is signed after it.
-/
import Mathlib.Order.Bounds.Basic
import Utxo.Proofs.Tx.Coherence
import Utxo.Proofs.Tx.KeyByKey

namespace Utxo.Tx

/-! ### Low digests -/

/-- The first and the last byte of a digest are below 128. -/
structure HasLowEnds (h : Hash256) : Prop where
  first : ∃ b, h.bytes.head? = some b ∧ b < 0x80
  last : ∃ b, h.bytes.getLast? = some b ∧ b < 0x80

theorem Preimage.isLow_iff {h : Hash256} : isLow h ↔ HasLowEnds h := by
  have hlength := h.length_bytes
  -- A digest has bytes, so it has a first and a last one.
  have hne : h.bytes ≠ [] := by
    intro hnil
    rw [hnil] at hlength
    cases hlength
  have hfirst := List.head?_eq_some_head hne
  have hlast := List.getLast?_eq_some_getLast hne
  rw [isLow, hfirst, hlast]
  simp only [Option.all_some, Bool.and_eq_true, decide_eq_true_eq]
  constructor
  · intro ⟨hf, hl⟩
    exact ⟨⟨_, hfirst, hf⟩, ⟨_, hlast, hl⟩⟩
  · rintro ⟨⟨b, hb, hf⟩, ⟨b', hb', hl⟩⟩
    cases hfirst.symm.trans hb
    cases hlast.symm.trans hb'
    exact ⟨hf, hl⟩

/-- The lock time can be moved on by an offset, and the preimage under it, computed anew, has a low
digest. -/
structure IsLowAt (tx : Transaction) (part : SignedPart) (offset : Nat) : Prop where
  inRange : tx.lockTime.toNat + offset < UInt32.size
  low : ∃ bytes cache,
    preimageAt tx part (UInt32.ofNat (tx.lockTime.toNat + offset)) .empty = .ok (bytes, cache) ∧
      HasLowEnds (Digest.sha256d bytes)

namespace Input

section

variable {tx : Transaction} {input : Input} {part : SignedPart} {cache : DigestCache}
  {offset n : Nat}

theorem lockTime_add_ofNat (tx : Transaction) (offset : Nat) :
    tx.lockTime + UInt32.ofNat offset = UInt32.ofNat (tx.lockTime.toNat + offset) := by
  rw [UInt32.ofNat_add, UInt32.ofNat_toNat]

/-- The preimage with the lock time moved on by an offset. -/
def candidate (tx : Transaction) (input : Input) (part : SignedPart) (offset : Nat) : Bytes :=
  (partsOf tx input part (UInt32.ofNat (tx.lockTime.toNat + offset))).encode

theorem candidate_zero (tx : Transaction) (input : Input) (part : SignedPart) :
    candidate tx input part 0 = (partsOf tx input part tx.lockTime).encode := by
  rw [candidate, Nat.add_zero, UInt32.ofNat_toNat]

/-- What a search returns that ends at an offset. -/
def found (tx : Transaction) (input : Input) (part : SignedPart) (offset : Nat) : Preimage :=
  ⟨candidate tx input part offset, UInt32.ofNat offset, UInt32.ofNat (tx.lockTime.toNat + offset)⟩

theorem toNat_ofNat_of_inRange (h : tx.lockTime.toNat + offset < UInt32.size) :
    (UInt32.ofNat (tx.lockTime.toNat + offset)).toNat = tx.lockTime.toNat + offset ∧
      (UInt32.ofNat offset).toNat = offset :=
  ⟨UInt32.toNat_ofNat_of_lt' h, UInt32.toNat_ofNat_of_lt' (by omega)⟩

/-! ### Searching -/

section

variable (hinput : tx.inputs[part.inputIndex]? = some input)
  (hfork : Sighash.has part.sighashType Sighash.forkId)

include hinput hfork

/-- Every lock time has a preimage, whatever right digests are kept. -/
theorem exists_preimageAt_candidate (hcache : cache.Within (.ofTransaction tx)) (offset : Nat) :
    ∃ cache', preimageAt tx part (UInt32.ofNat (tx.lockTime.toNat + offset)) cache =
      .ok (candidate tx input part offset, cache') := by
  obtain ⟨cache', hpreimage, -⟩ := preimageAt_of_contents_eq_ok hcache
    (contents_eq_ok_iff.mpr ⟨input, hinput, hfork, rfl⟩)
  exact ⟨cache', hpreimage⟩

theorem isLowAt_iff :
    IsLowAt tx part offset ↔ tx.lockTime.toNat + offset < UInt32.size ∧
      HasLowEnds (Digest.sha256d (candidate tx input part offset)) := by
  obtain ⟨cache', hpreimage⟩ := exists_preimageAt_candidate hinput hfork (.empty _) offset
  constructor
  · rintro ⟨hrange, bytes, c, hbytes, hlow⟩
    cases hpreimage.symm.trans hbytes
    exact ⟨hrange, hlow⟩
  · rintro ⟨hrange, hlow⟩
    exact ⟨hrange, _, cache', hpreimage, hlow⟩

/-- A preimage is the one that is there already, or computed with what is kept. -/
theorem moved_eq (hcache : cache.Within (.ofTransaction tx)) (offset : Nat) :
    moved tx part (candidate tx input part 0) cache offset =
      .ok (candidate tx input part offset) := by
  rw [moved]
  split_ifs with hpos
  · obtain ⟨cache', hpreimage⟩ := exists_preimageAt_candidate hinput hfork hcache offset
    rw [lockTime_add_ofNat, hpreimage]
    rfl
  · rw [Nat.eq_zero_of_not_pos hpos]

/-- One step of the search looks at one candidate. -/
theorem grind_succ (hcache : cache.Within (.ofTransaction tx)) (n offset : Nat) :
    grind tx part (candidate tx input part 0) cache (n + 1) offset =
      if Preimage.isLow (Digest.sha256d (candidate tx input part offset)) then
        .ok (found tx input part offset)
      else grind tx part (candidate tx input part 0) cache n (offset + 1) := by
  have hmoved : moved tx part (candidate tx input part 0) cache offset =
      pure (candidate tx input part offset) := moved_eq hinput hfork hcache offset
  rw [grind, hmoved, pure_bind, lockTime_add_ofNat]
  rfl

/-- A search finds the first candidate with a low digest among those that it looks at. -/
theorem grind_isFirst (hcache : cache.Within (.ofTransaction tx)) (n offset : Nat)
    (hrange : tx.lockTime.toNat + offset + n ≤ UInt32.size) :
    (∃ o, offset ≤ o ∧ o < offset + n ∧ IsLowAt tx part o ∧
      (∀ o', offset ≤ o' → o' < o → ¬ IsLowAt tx part o') ∧
      grind tx part (candidate tx input part 0) cache n offset = .ok (found tx input part o)) ∨
    ((∀ o, offset ≤ o → o < offset + n → ¬ IsLowAt tx part o) ∧
      grind tx part (candidate tx input part 0) cache n offset = .error .grindExhausted) := by
  induction n generalizing offset with
  | zero => exact .inr ⟨fun o hle hlt => by omega, rfl⟩
  | succ n ih =>
    rw [grind_succ hinput hfork hcache]
    have hinRange : tx.lockTime.toNat + offset < UInt32.size := by omega
    by_cases hlow : Preimage.isLow (Digest.sha256d (candidate tx input part offset))
    · rw [if_pos hlow]
      have hhere : IsLowAt tx part offset :=
        (isLowAt_iff hinput hfork).mpr ⟨hinRange, Preimage.isLow_iff.mp hlow⟩
      exact .inl ⟨offset, le_rfl, by omega, hhere, fun o' hle hlt => by omega, rfl⟩
    · rw [if_neg hlow]
      have hhere : ¬ IsLowAt tx part offset := fun h =>
        hlow (Preimage.isLow_iff.mpr ((isLowAt_iff hinput hfork).mp h).2)
      -- What is not before the next offset is this one or before it.
      have hnot (o : Nat) (hle : offset ≤ o) (hrest : offset + 1 ≤ o → ¬ IsLowAt tx part o) :
          ¬ IsLowAt tx part o := by
        rcases Nat.eq_or_lt_of_le hle with rfl | hlt
        · exact hhere
        · exact hrest hlt
      rcases ih (offset + 1) (by omega) with
        ⟨o, hle, hlt, hlowAt, hfirst, hgrind⟩ | ⟨hnone, hgrind⟩
      · exact .inl ⟨o, by omega, by omega, hlowAt,
          fun o' hle' hlt' => hnot o' hle' fun hle'' => hfirst o' hle'' hlt', hgrind⟩
      · exact .inr ⟨fun o hle hlt => hnot o hle fun hle' => hnone o hle' (by omega), hgrind⟩

end

end

/-! ### The preimage with a low digest -/

/-- What there is to say about a preimage that a search has found. -/
structure IsGround (i : Input) (tx : Transaction) (part : SignedPart) (type : Option UInt32)
    (p : Preimage) : Prop where
  /-- No smaller offset would do. -/
  isLeast : IsLeast {offset | IsLowAt tx part offset} p.lockTimeOffset.toNat
  /-- The lock time has not wrapped around. -/
  lockTime : p.lockTime.toNat = tx.lockTime.toNat + p.lockTimeOffset.toNat
  /-- The preimage is the one computed anew. -/
  anew : ∃ cache, preimageAt tx part p.lockTime .empty = .ok (p.bytes, cache)
  /-- It is that of the transaction with its lock time, which no search moves on any more. -/
  applied : ∀ low, i.preimage (p.applyTo tx) part.inputIndex type low =
    .ok ⟨p.bytes, 0, p.lockTime⟩
  /-- Its digest is what is signed. -/
  signed : ∀ (scheme : SignatureScheme) (keys : List PrivateKey),
    i.signatures scheme (p.applyTo tx) (keys.map (·, type)) part.inputIndex =
      keys.mapM fun key => do
        let signature ← (scheme.sign key p.digest).mapError .signature
        return ⟨scheme.publicKey key, i.outpoint, part.inputIndex, signature, part.sighashType⟩

section

variable {i input : Input} {output : Output} {tx : Transaction} {index offset : Nat}
  {type : Option UInt32} (hspent : i.spent = some output)
  (hfork : Sighash.has (type.getD Sighash.all) Sighash.forkId)

include hspent hfork

/-- The preimage is the one under the lock time itself, or what a search over all lock times that are
left returns. -/
theorem preimage_eq_of_spent (hinput : tx.inputs[index]? = some input) :
    let part := signedPart index (type.getD Sighash.all) output
    ∃ cache : DigestCache, cache.Within (.ofTransaction tx) ∧ ∀ low, i.preimage tx index type low =
      if low then
        grind tx part (candidate tx input part 0) cache (UInt32.size - tx.lockTime.toNat) 0
      else .ok ⟨candidate tx input part 0, 0, tx.lockTime⟩ := by
  intro part
  have hcontents : contents tx part tx.lockTime = .ok (partsOf tx input part tx.lockTime) :=
    contents_eq_ok_iff.mpr ⟨input, hinput, hfork, rfl⟩
  obtain ⟨cache, hpreimage, -, hcache⟩ := preimageAt_of_contents_eq_ok (.empty _) hcontents
  refine ⟨cache, hcache, fun low => ?_⟩
  rw [candidate_zero]
  simp only [preimage, hspent, Tx.preimage, part, hpreimage]
  rfl

/-- Under a lock time with a low digest no search moves it on. -/
theorem preimage_eq_ok_of_hasLowEnds (hinput : tx.inputs[index]? = some input) {bytes : Bytes}
    (hbytes : bytes = (partsOf tx input (signedPart index (type.getD Sighash.all) output)
      tx.lockTime).encode)
    (hlow : HasLowEnds (Digest.sha256d bytes)) (low : Bool) :
    i.preimage tx index type low = .ok ⟨bytes, 0, tx.lockTime⟩ := by
  obtain ⟨cache, hcache, hpreimage⟩ := preimage_eq_of_spent hspent hfork hinput
  rw [hpreimage]
  have hhere := (candidate_zero tx input _).trans hbytes.symm
  cases low with
  | false => rw [hhere]; rfl
  | true =>
    obtain ⟨n, hn⟩ : ∃ n, UInt32.size - tx.lockTime.toNat = n + 1 :=
      Nat.exists_eq_add_one.mpr (Nat.sub_pos_of_lt tx.lockTime.toNat_lt)
    rw [if_pos rfl, hn, grind_succ hinput hfork hcache, hhere,
      if_pos (Preimage.isLow_iff.mpr hlow), found, hhere, Nat.add_zero, UInt32.ofNat_toNat]
    rfl

/-- The first preimage with a low digest is what is signed with its lock time. -/
theorem isGround_found (hinput : tx.inputs[index]? = some input)
    (hleast : IsLeast
      {o | IsLowAt tx (signedPart index (type.getD Sighash.all) output) o} offset) :
    IsGround i tx (signedPart index (type.getD Sighash.all) output) type
      (found tx input (signedPart index (type.getD Sighash.all) output) offset) := by
  let part := signedPart index (type.getD Sighash.all) output
  let p := found tx input part offset
  have hpart : tx.inputs[part.inputIndex]? = some input := hinput
  obtain ⟨hrange, hlow⟩ := (isLowAt_iff hpart hfork).mp hleast.1
  obtain ⟨hlockTime, hoffset⟩ := toNat_ofNat_of_inRange hrange
  obtain ⟨c, hanew⟩ := exists_preimageAt_candidate hpart hfork (.empty _) offset
  -- The lock time is the only part that is not the same in both transactions.
  have hparts : p.bytes = (partsOf (p.applyTo tx) input part (p.applyTo tx).lockTime).encode := rfl
  have hinput' : (p.applyTo tx).inputs[index]? = some input := hinput
  obtain ⟨c', hpreimage⟩ := exists_preimage_eq_ok (p.applyTo tx) part hinput' hfork
  rw [← hparts] at hpreimage
  have hhash : signatureHash (p.applyTo tx) part = .ok p.digest :=
    signatureHash_of_preimage_eq_ok hpreimage
  refine ⟨?_, ?_, ⟨c, hanew⟩, ?_, fun scheme keys => ?_⟩
  · show IsLeast _ (UInt32.ofNat offset).toNat
    rw [hoffset]
    exact hleast
  · show (UInt32.ofNat _).toNat = _ + (UInt32.ofNat offset).toNat
    rw [hlockTime, hoffset]
  · exact preimage_eq_ok_of_hasLowEnds hspent hfork hinput' hparts hlow
  · show i.signatures scheme (p.applyTo tx) (keys.map (·, type)) index = _
    rw [signatures_eq_mapM hspent, List.mapM_map]
    refine congrArg (keys.mapM ·) (funext fun key => ?_)
    show signWith scheme i output (p.applyTo tx) index (key, type) = _
    rw [signWith]
    simp only [part] at hhash
    simp only [hhash]
    rfl

/-- There is a preimage with a low digest just if the lock time can be moved on to one that has it. Then
it is the first one, and it is what is signed with its lock time; if not, the search says so. -/
theorem preimage_isGround (hindex : index < tx.inputs.length) :
    let part := signedPart index (type.getD Sighash.all) output
    ((∃ p, i.preimage tx index type true = .ok p) ↔ ∃ offset, IsLowAt tx part offset) ∧
      ((¬ ∃ offset, IsLowAt tx part offset) →
        i.preimage tx index type true = .error .grindExhausted) ∧
      ∀ p, i.preimage tx index type true = .ok p → IsGround i tx part type p := by
  intro part
  have hinput : tx.inputs[index]? = some tx.inputs[index] := List.getElem?_eq_getElem hindex
  have hpart : tx.inputs[part.inputIndex]? = some tx.inputs[index] := hinput
  obtain ⟨cache, hcache, hpreimage⟩ := preimage_eq_of_spent hspent hfork hinput
  rw [hpreimage true, if_pos rfl]
  have hsize := tx.lockTime.toNat_lt
  have hall : UInt32.size = 2 ^ 32 := rfl
  rcases grind_isFirst hpart hfork hcache (UInt32.size - tx.lockTime.toNat) 0 (by omega) with
    ⟨o, -, -, hlowAt, hfirst, hgrind⟩ | ⟨hnone, hgrind⟩
  · rw [hgrind]
    have hleast : IsLeast {o | IsLowAt tx part o} o :=
      ⟨hlowAt, fun o' ho' => Nat.le_of_not_lt fun hlt => hfirst o' (Nat.zero_le o') hlt ho'⟩
    refine ⟨⟨fun _ => ⟨o, hlowAt⟩, fun _ => ⟨_, rfl⟩⟩, fun h => absurd ⟨o, hlowAt⟩ h, ?_⟩
    rintro p ⟨⟩
    exact isGround_found hspent hfork hinput hleast
  · rw [hgrind]
    have hnot : ¬ ∃ o, IsLowAt tx part o := by
      rintro ⟨o, ho⟩
      have := ho.inRange
      exact hnone o (Nat.zero_le o) (by omega) ho
    exact ⟨⟨nofun, fun h => absurd h hnot⟩, fun _ => rfl, nofun⟩

omit hspent hfork

/-- Just below the last lock time: for one value of the output that is spent the last lock time has a
low digest, for another none has. -/
theorem preimage_isGround_last_lockTime :
    let output := fun (satoshis : UInt64) => Output.mk satoshis ⟨[0x51]⟩
    let input := fun (satoshis : UInt64) =>
      Input.mk ⟨.zero 32, 0⟩ finalSequence (.raw []) (some (output satoshis))
    let tx := fun (satoshis : UInt64) => Transaction.mk 1 [input satoshis] [] 0xfffffffe
    let part := fun (satoshis : UInt64) => signedPart 0 0xc2 (output satoshis)
    (∃ p, (input 4).preimage (tx 4) 0 (some 0xc2) true = .ok p ∧ p.lockTimeOffset = 1 ∧
      p.lockTime = 0xffffffff ∧ IsGround (input 4) (tx 4) (part 4) (some 0xc2) p) ∧
    (input 7).preimage (tx 7) 0 (some 0xc2) true = .error .grindExhausted ∧
      ¬ ∃ offset, IsLowAt (tx 7) (part 7) offset := by
  intro output input tx part
  have hspent (satoshis : UInt64) : (input satoshis).spent = some (output satoshis) := rfl
  have hfork : Sighash.has ((some 0xc2 : Option UInt32).getD Sighash.all) Sighash.forkId := rfl
  have hindex (satoshis : UInt64) : 0 < (tx satoshis).inputs.length := Nat.zero_lt_one
  have hground (satoshis : UInt64) := preimage_isGround (hspent satoshis) hfork (hindex satoshis)
  have hfound : ((input 4).preimage (tx 4) 0 (some 0xc2) true).toOption.map
      (fun p => (p.lockTimeOffset, p.lockTime)) = some (1, 0xffffffff) := by decide +kernel
  have hnone : (input 7).preimage (tx 7) 0 (some 0xc2) true = .error .grindExhausted := by
    decide +kernel
  constructor
  · cases hp : (input 4).preimage (tx 4) 0 (some 0xc2) true with
    | error e =>
      rw [hp] at hfound
      cases hfound
    | ok p =>
      rw [hp] at hfound
      obtain ⟨hoffset, hlockTime⟩ := Prod.mk.inj (Option.some.inj hfound)
      exact ⟨p, rfl, hoffset, hlockTime, (hground 4).2.2 p hp⟩
  · refine ⟨hnone, fun hlow => ?_⟩
    obtain ⟨p, hp⟩ := (hground 7).1.mpr hlow
    cases hnone.symm.trans hp

end

end Input

end Utxo.Tx
