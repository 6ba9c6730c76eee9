/-
What a preimage is made of.

A preimage holds ten parts.  Three of them are digests, each of a text that the type may leave out;
for a text that is left out there are zeros.  The digests are computed anew or taken from a cache,
which makes no difference if the digests in the cache are those of the transaction.

* **`preimageAt_of_contents_eq_ok`** — a preimage is its parts one after the other, whatever right
  digests the cache has, and the cache that is given back has these, and right ones that are new;
* **`PreimageParts.encode_inj`** — the parts can be told from the preimage.
-/
import Utxo.Proofs.Bytes.CompactSize
import Utxo.Proofs.Bytes.Juxtaposed
import Utxo.Tx.Sighash

namespace Utxo.Tx

/-! ### The texts behind the digests -/

/-- The outpoints of all inputs as they are written, if a type fixes them. -/
def outpointsText (tx : Transaction) (type : UInt32) : Option Bytes :=
  if Sighash.fixesInputs type then some (tx.inputs.flatMap (·.outpoint.encode)) else none

/-- The sequence numbers of all inputs as they are written, if a type fixes them. -/
def sequencesText (tx : Transaction) (type : UInt32) : Option Bytes :=
  if Sighash.fixesInputs type && Sighash.fixesOutputs type then
    some (tx.inputs.flatMap (littleEndian 4 ·.sequence.toNat))
  else none

/-- The outputs that a type fixes, as they are written: all of them, the one at an index if there is
one, or none. -/
def outputsText (tx : Transaction) (index : Nat) (type : UInt32) : Option Bytes :=
  if Sighash.fixesOutputs type then some (tx.outputs.flatMap Output.encode)
  else if Sighash.base type = Sighash.single then tx.outputs[index]?.map Output.encode
  else none

/-- What stands for a text in a preimage. -/
def digestOf (text : Option Bytes) : Hash256 := (text.map Digest.sha256d).getD (.zero 32)

/-! ### Caches -/

/-- Every digest of the first cache is in the second. -/
structure DigestCache.Within (c d : DigestCache) : Prop where
  prevouts : ∀ h, c.prevouts = some h → d.prevouts = some h
  sequence : ∀ h, c.sequence = some h → d.sequence = some h
  outputs : ∀ h, c.outputs = some h → d.outputs = some h

namespace DigestCache.Within

variable {b c d : DigestCache}

theorem refl (c : DigestCache) : c.Within c := ⟨fun _ h => h, fun _ h => h, fun _ h => h⟩

theorem trans (h : b.Within c) (h' : c.Within d) : b.Within d :=
  ⟨fun x hx => h'.prevouts x (h.prevouts x hx), fun x hx => h'.sequence x (h.sequence x hx),
    fun x hx => h'.outputs x (h.outputs x hx)⟩

theorem empty (c : DigestCache) : DigestCache.empty.Within c := ⟨nofun, nofun, nofun⟩

end DigestCache.Within

/-- A digest is that of a text, and the cache that comes with it has grown by right digests only. -/
structure IsDigest (tx : Transaction) (cache : DigestCache) (text : Option Bytes)
    (r : Hash256 × DigestCache) : Prop where
  digest : r.1 = digestOf text
  grown : cache.Within r.2
  right : r.2.Within (.ofTransaction tx)

section

variable {tx : Transaction} {cache : DigestCache}

/-- A digest that is present is the right one, so it makes no difference to have it. -/
theorem getD_of_forall_eq_some {o : Option Hash256} {x : Hash256}
    (h : ∀ y, o = some y → some x = some y) : o.getD x = x := by
  cases o with
  | none => rfl
  | some y => exact (Option.some.inj (h y rfl)).symm

theorem prevoutsDigest_isDigest (h : cache.Within (.ofTransaction tx)) (type : UInt32) :
    IsDigest tx cache (outpointsText tx type) (prevoutsDigest tx type cache) := by
  unfold prevoutsDigest outpointsText
  by_cases hin : Sighash.fixesInputs type
  · have hgetD : cache.prevouts.getD (prevoutsHash tx) = prevoutsHash tx :=
      getD_of_forall_eq_some h.prevouts
    rw [if_pos hin, if_pos hin]
    simp only [hgetD]
    exact ⟨rfl, ⟨h.prevouts, fun _ hx => hx, fun _ hx => hx⟩,
      ⟨fun _ hx => hx, h.sequence, h.outputs⟩⟩
  · rw [if_neg hin, if_neg hin]
    exact ⟨rfl, .refl cache, h⟩

theorem sequenceDigest_isDigest (h : cache.Within (.ofTransaction tx)) (type : UInt32) :
    IsDigest tx cache (sequencesText tx type) (sequenceDigest tx type cache) := by
  unfold sequenceDigest sequencesText
  by_cases hboth : Sighash.fixesInputs type && Sighash.fixesOutputs type
  · have hgetD : cache.sequence.getD (sequenceHash tx) = sequenceHash tx :=
      getD_of_forall_eq_some h.sequence
    rw [if_pos hboth, if_pos hboth]
    simp only [hgetD]
    exact ⟨rfl, ⟨fun _ hx => hx, h.sequence, fun _ hx => hx⟩,
      ⟨h.prevouts, fun _ hx => hx, h.outputs⟩⟩
  · rw [if_neg hboth, if_neg hboth]
    exact ⟨rfl, .refl cache, h⟩

theorem outputsDigest_isDigest (h : cache.Within (.ofTransaction tx)) (index : Nat)
    (type : UInt32) :
    IsDigest tx cache (outputsText tx index type) (outputsDigest tx index type cache) := by
  unfold outputsDigest outputsText
  by_cases hout : Sighash.fixesOutputs type
  · have hgetD : cache.outputs.getD (outputsHash tx) = outputsHash tx :=
      getD_of_forall_eq_some h.outputs
    rw [if_pos hout, if_pos hout]
    simp only [hgetD]
    exact ⟨rfl, ⟨fun _ hx => hx, fun _ hx => hx, h.outputs⟩,
      ⟨h.prevouts, h.sequence, fun _ hx => hx⟩⟩
  · rw [if_neg hout, if_neg hout]
    -- The digest of a single output is never kept.
    by_cases hsingle : Sighash.base type = Sighash.single
    · rw [if_pos hsingle, if_pos hsingle]
      cases tx.outputs[index]? with
      | none => exact ⟨rfl, .refl cache, h⟩
      | some o => exact ⟨rfl, .refl cache, h⟩
    · rw [if_neg hsingle, if_neg hsingle]
      exact ⟨rfl, .refl cache, h⟩

end

/-! ### Parts -/

/-- The parts of a preimage, in the order in which they are written. -/
structure PreimageParts where
  version : UInt32
  outpoints : Hash256
  sequences : Hash256
  outpoint : Outpoint
  script : Bytes
  satoshis : UInt64
  sequence : UInt32
  outputs : Hash256
  lockTime : UInt32
  type : UInt32

/-- The parts one after the other. -/
def PreimageParts.encode (p : PreimageParts) : Bytes :=
  littleEndian 4 p.version.toNat ++ p.outpoints.bytes ++ p.sequences.bytes ++ p.outpoint.encode ++
    encodeScript p.script ++ littleEndian 8 p.satoshis.toNat ++ littleEndian 4 p.sequence.toNat ++
    p.outputs.bytes ++ littleEndian 4 p.lockTime.toNat ++ littleEndian 4 p.type.toNat

/-- The parts of the preimage of an input, with every digest computed anew. -/
def partsOf (tx : Transaction) (input : Input) (part : SignedPart) (lockTime : UInt32) :
    PreimageParts where
  version := tx.version
  outpoints := digestOf (outpointsText tx part.sighashType)
  sequences := digestOf (sequencesText tx part.sighashType)
  outpoint := input.outpoint
  script := part.script
  satoshis := part.satoshis
  sequence := input.sequence
  outputs := digestOf (outputsText tx part.inputIndex part.sighashType)
  lockTime := lockTime
  type := part.sighashType

/-- The parts of a preimage that is asked for, if there is one. -/
def contents (tx : Transaction) (part : SignedPart) (lockTime : UInt32) :
    Except Error PreimageParts :=
  match tx.inputs[part.inputIndex]? with
  | none => .error (.inputIndex part.inputIndex tx.inputs.length)
  | some input =>
    if !Sighash.has part.sighashType Sighash.forkId then
      .error (.unsupportedSighash part.sighashType)
    else .ok (partsOf tx input part lockTime)

section

variable {tx : Transaction} {part : SignedPart} {lockTime : UInt32} {cache : DigestCache}
  {p q : PreimageParts} {x y : Bytes}

theorem contents_eq_ok_iff :
    contents tx part lockTime = .ok p ↔ ∃ input, tx.inputs[part.inputIndex]? = some input ∧
      Sighash.has part.sighashType Sighash.forkId ∧ p = partsOf tx input part lockTime := by
  unfold contents
  cases hinput : tx.inputs[part.inputIndex]? with
  | none => simp
  | some input =>
    by_cases hfork : Sighash.has part.sighashType Sighash.forkId
    · simp [hfork, eq_comm]
    · simp [hfork]

theorem preimageAt_of_contents_eq_error {e : Error} (cache : DigestCache)
    (h : contents tx part lockTime = .error e) :
    preimageAt tx part lockTime cache = .error e := by
  unfold contents at h
  unfold preimageAt
  cases hinput : tx.inputs[part.inputIndex]? with
  | none =>
    rw [hinput] at h
    exact congrArg _ (Except.error.inj h)
  | some input =>
    rw [hinput] at h
    by_cases hfork : Sighash.has part.sighashType Sighash.forkId
    · simp [hfork] at h
    · simp only [hfork] at h ⊢
      exact congrArg _ (Except.error.inj h)

/-- A preimage is its parts one after the other, whatever right digests the cache has. -/
theorem preimageAt_of_contents_eq_ok (hcache : cache.Within (.ofTransaction tx))
    (h : contents tx part lockTime = .ok p) :
    ∃ cache', preimageAt tx part lockTime cache = .ok (p.encode, cache') ∧
      cache.Within cache' ∧ cache'.Within (.ofTransaction tx) := by
  obtain ⟨input, hinput, hfork, rfl⟩ := contents_eq_ok_iff.mp h
  -- The cache is handed from one digest to the next.
  have hprevouts := prevoutsDigest_isDigest hcache part.sighashType
  have hsequence := sequenceDigest_isDigest hprevouts.right part.sighashType
  have houtputs := outputsDigest_isDigest hsequence.right part.inputIndex part.sighashType
  refine ⟨_, ?_, (hprevouts.grown.trans hsequence.grown).trans houtputs.grown, houtputs.right⟩
  simp only [preimageAt, hinput, hfork, hprevouts.digest, hsequence.digest, houtputs.digest]
  rfl

/-- So the answer depends on the parts alone. -/
theorem map_fst_preimageAt (hcache : cache.Within (.ofTransaction tx)) :
    (preimageAt tx part lockTime cache).map Prod.fst =
      (contents tx part lockTime).map PreimageParts.encode := by
  cases hcontents : contents tx part lockTime with
  | error e =>
    rw [preimageAt_of_contents_eq_error cache hcontents]
    rfl
  | ok parts =>
    obtain ⟨c, hpreimage, -⟩ := preimageAt_of_contents_eq_ok hcache hcontents
    rw [hpreimage]
    rfl

theorem within_of_preimageAt_eq_ok {c : DigestCache} (hcache : cache.Within (.ofTransaction tx))
    (h : preimageAt tx part lockTime cache = .ok (x, c)) :
    cache.Within c ∧ c.Within (.ofTransaction tx) := by
  cases hcontents : contents tx part lockTime with
  | error e =>
    rw [preimageAt_of_contents_eq_error cache hcontents] at h
    cases h
  | ok parts =>
    obtain ⟨c', hpreimage, hwithin⟩ := preimageAt_of_contents_eq_ok hcache hcontents
    rw [hpreimage] at h
    cases h
    exact hwithin

/-- Every input has a preimage for every type with the fork id. -/
theorem exists_preimage_eq_ok (tx : Transaction) (part : SignedPart) {input : Input}
    (hinput : tx.inputs[part.inputIndex]? = some input)
    (hfork : Sighash.has part.sighashType Sighash.forkId) :
    ∃ cache, preimage tx part .empty = .ok ((partsOf tx input part tx.lockTime).encode, cache) := by
  have hcontents : contents tx part tx.lockTime = .ok (partsOf tx input part tx.lockTime) :=
    contents_eq_ok_iff.mpr ⟨input, hinput, hfork, rfl⟩
  obtain ⟨cache, hpreimage, -⟩ := preimageAt_of_contents_eq_ok (.empty _) hcontents
  exact ⟨cache, hpreimage⟩

/-- There are no others. -/
theorem exists_partsOf_of_preimage_eq_ok {cache : DigestCache}
    (h : preimage tx part .empty = .ok (x, cache)) :
    ∃ input, tx.inputs[part.inputIndex]? = some input ∧
      Sighash.has part.sighashType Sighash.forkId ∧
      x = (partsOf tx input part tx.lockTime).encode := by
  rw [preimage] at h
  cases hcontents : contents tx part tx.lockTime with
  | error e =>
    rw [preimageAt_of_contents_eq_error _ hcontents] at h
    cases h
  | ok parts =>
    obtain ⟨c, hpreimage, -⟩ := preimageAt_of_contents_eq_ok (.empty _) hcontents
    obtain ⟨input, hinput, hfork, rfl⟩ := contents_eq_ok_iff.mp hcontents
    rw [hpreimage] at h
    cases h
    exact ⟨input, hinput, hfork, rfl⟩

theorem signatureHash_of_preimage_eq_ok {cache : DigestCache}
    (h : preimage tx part .empty = .ok (x, cache)) :
    signatureHash tx part = .ok (Digest.sha256d x) := by
  rw [signatureHash, h]
  rfl

/-! ### Telling the parts from a preimage -/

theorem Outpoint.encode_append_inj {u v : Outpoint} (h : u.encode ++ x = v.encode ++ y) :
    u = v ∧ x = y := by
  obtain ⟨uid, uindex⟩ := u
  obtain ⟨vid, vindex⟩ := v
  simp only [Outpoint.encode, List.append_assoc] at h
  obtain ⟨hid, h⟩ := FixedBytes.append_inj (a := uid.reverse) (b := vid.reverse) h
  obtain ⟨hindex, hrest⟩ := u32_append_inj h
  have hbytes : uid.bytes = vid.bytes := List.reverse_inj.mp (congrArg FixedBytes.bytes hid)
  exact ⟨by rw [FixedBytes.ext hbytes, hindex], hrest⟩

/-- Scripts can be told from what follows them if that is equally long, however long they are. -/
theorem encodeScript_append_inj {s t : Bytes} (hlength : x.length = y.length)
    (h : encodeScript s ++ x = encodeScript t ++ y) : s = t ∧ x = y := by
  simp only [encodeScript, List.append_assoc] at h
  obtain ⟨-, hrest⟩ :=
    (CompactSize.form_encode _).append_inj (CompactSize.form_encode _) h
  exact List.append_inj' hrest hlength

theorem PreimageParts.encode_inj (h : p.encode = q.encode) : p = q := by
  simp only [encode, List.append_assoc] at h
  obtain ⟨hversion, h⟩ := u32_append_inj h
  obtain ⟨houtpoints, h⟩ := FixedBytes.append_inj h
  obtain ⟨hsequences, h⟩ := FixedBytes.append_inj h
  obtain ⟨houtpoint, h⟩ := Outpoint.encode_append_inj h
  -- All that follows the script has a known width.
  obtain ⟨hscript, h⟩ := encodeScript_append_inj
    (by simp only [List.length_append, length_littleEndian, FixedBytes.length_bytes]) h
  obtain ⟨hsatoshis, h⟩ := u64_append_inj h
  obtain ⟨hsequence, h⟩ := u32_append_inj h
  obtain ⟨houtputs, h⟩ := FixedBytes.append_inj h
  obtain ⟨hlockTime, h⟩ := u32_append_inj h
  have htype := UInt32.toNat_inj.mp (littleEndian_inj p.type.toNat_lt q.type.toNat_lt h)
  cases p
  cases q
  simp_all

end

end Utxo.Tx
