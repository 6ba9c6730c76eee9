/-
What a preimage binds.

Two preimages are equal if the transactions agree in all that the type fixes.  The other way round it
takes digests that tell texts apart: then equal preimages have equal parts, equal digests are of equal
texts, and a text determines the list that it was written from.

* **`digestOf_inj`** — equal digests are of equal texts, and zeros are of none;
* **`preimage_eq_iff_fixAlike`** — both directions.
-/
import Utxo.Proofs.Tx.Preimage
import Mathlib.Data.List.Nodup

namespace Utxo.Tx

/-- Two signed parts agree in their types and in everything that these fix. -/
structure FixAlike (a : Transaction) (p : SignedPart) (b : Transaction) (q : SignedPart) : Prop where
  type : p.sighashType = q.sighashType
  script : p.script = q.script
  satoshis : p.satoshis = q.satoshis
  version : a.version = b.version
  lockTime : a.lockTime = b.lockTime
  input : a.inputs[p.inputIndex]?.map (fun i => (i.outpoint, i.sequence)) =
    b.inputs[q.inputIndex]?.map fun i => (i.outpoint, i.sequence)
  outpoints : Sighash.fixesInputs p.sighashType →
    a.inputs.map (·.outpoint) = b.inputs.map (·.outpoint)
  sequences : Sighash.fixesInputs p.sighashType → Sighash.fixesOutputs p.sighashType →
    a.inputs.map (·.sequence) = b.inputs.map (·.sequence)
  outputs : Sighash.fixesOutputs p.sighashType → a.outputs = b.outputs
  single : Sighash.base p.sighashType = Sighash.single →
    a.outputs[p.inputIndex]? = b.outputs[q.inputIndex]?

/-- The digest is injective on texts, and that of none of them is zero. -/
structure DigestsApart (texts : List Bytes) : Prop where
  ne_zero : ∀ s ∈ texts, Digest.sha256d s ≠ .zero 32
  inj : ∀ s ∈ texts, ∀ t ∈ texts, Digest.sha256d s = Digest.sha256d t → s = t

/-- It is enough to look at each text once. -/
theorem DigestsApart.of_nodup {texts distinct : List Bytes} (hsub : texts ⊆ distinct)
    (h : (FixedBytes.zero 32 :: distinct.map Digest.sha256d).Nodup) : DigestsApart texts where
  ne_zero s hs heq := by
    have hmem := List.mem_map_of_mem (f := Digest.sha256d) (hsub hs)
    rw [heq] at hmem
    exact (List.nodup_cons.mp h).1 hmem
  inj s hs t ht heq :=
    List.inj_on_of_nodup_map (List.nodup_cons.mp h).2 (hsub hs) (hsub ht) heq

/-- The texts whose digests are in a preimage. -/
def digestedTexts (tx : Transaction) (part : SignedPart) : List Bytes :=
  [outpointsText tx part.sighashType, sequencesText tx part.sighashType,
    outputsText tx part.inputIndex part.sighashType].filterMap id

theorem digestOf_inj {texts : List Bytes} (h : DigestsApart texts) {s t : Option Bytes}
    (hs : ∀ u, s = some u → u ∈ texts) (ht : ∀ u, t = some u → u ∈ texts)
    (heq : digestOf s = digestOf t) : s = t := by
  cases s with
  | none =>
    cases t with
    | none => rfl
    | some v => exact absurd heq.symm (h.ne_zero v (ht v rfl))
  | some u =>
    cases t with
    | none => exact absurd heq (h.ne_zero u (hs u rfl))
    | some v => rw [h.inj u (hs u rfl) v (ht v rfl) heq]

section

variable {a b : Transaction} {p q : SignedPart} {x y : Bytes}

/-! ### From texts to lists -/

theorem encodeScript_append_inj_of_lt {s t : Bytes} (hs : s.length < UInt64.size)
    (ht : t.length < UInt64.size) (h : encodeScript s ++ x = encodeScript t ++ y) :
    s = t ∧ x = y := by
  simp only [encodeScript, List.append_assoc] at h
  have hsForm := CompactSize.form_encode (UInt64.ofNat s.length)
  have htForm := CompactSize.form_encode (UInt64.ofNat t.length)
  obtain ⟨hsize, hrest⟩ := hsForm.append_inj htForm h
  rw [← hsize] at htForm
  have hlength : s.length = t.length := by
    rw [← UInt64.toNat_ofNat_of_lt' hs, hsForm.value_inj htForm, UInt64.toNat_ofNat_of_lt' ht]
  exact List.append_inj hrest hlength

theorem Output.encode_append_inj_of_lt {o u : Output}
    (ho : o.lockingScript.bytes.length < UInt64.size)
    (hu : u.lockingScript.bytes.length < UInt64.size) (h : o.encode ++ x = u.encode ++ y) :
    o = u ∧ x = y := by
  obtain ⟨osatoshis, ⟨oscript⟩⟩ := o
  obtain ⟨usatoshis, ⟨uscript⟩⟩ := u
  simp only [Output.encode, List.append_assoc] at h
  obtain ⟨hsatoshis, h⟩ := u64_append_inj h
  obtain ⟨hscript, hrest⟩ := encodeScript_append_inj_of_lt ho hu h
  subst hsatoshis hscript
  exact ⟨rfl, hrest⟩

/-- A single output is determined by its written form, however long its script is. -/
theorem Output.encode_inj {o u : Output} (h : o.encode = u.encode) : o = u := by
  obtain ⟨osatoshis, ⟨oscript⟩⟩ := o
  obtain ⟨usatoshis, ⟨uscript⟩⟩ := u
  simp only [Output.encode] at h
  obtain ⟨hsatoshis, h⟩ := u64_append_inj h
  have hnil : encodeScript oscript ++ [] = encodeScript uscript ++ [] := by
    rw [List.append_nil, List.append_nil, h]
  obtain ⟨hscript, -⟩ := encodeScript_append_inj rfl hnil
  subst hsatoshis hscript
  rfl

theorem outpointsText_eq_iff (type : UInt32) :
    outpointsText a type = outpointsText b type ↔
      (Sighash.fixesInputs type → a.inputs.map (·.outpoint) = b.inputs.map (·.outpoint)) := by
  have hmap (tx : Transaction) : tx.inputs.flatMap (·.outpoint.encode) =
      (tx.inputs.map (·.outpoint)).flatMap Outpoint.encode := by rw [List.flatMap_map]
  unfold outpointsText
  by_cases hin : Sighash.fixesInputs type
  · rw [if_pos hin, if_pos hin, Option.some.injEq, hmap, hmap]
    constructor
    · intro h _
      refine flatMap_inj (P := fun _ => True) (fun u hu => ?_)
        (fun _ _ _ _ _ _ => Outpoint.encode_append_inj) (fun _ _ => trivial) (fun _ _ => trivial) h
      have hlength := congrArg List.length hu
      simp [Outpoint.encode] at hlength
    · intro h
      rw [h hin]
  · simp [hin]

theorem sequencesText_eq_iff (type : UInt32) :
    sequencesText a type = sequencesText b type ↔
      (Sighash.fixesInputs type → Sighash.fixesOutputs type →
        a.inputs.map (·.sequence) = b.inputs.map (·.sequence)) := by
  have hmap (tx : Transaction) : tx.inputs.flatMap (littleEndian 4 ·.sequence.toNat) =
      (tx.inputs.map (·.sequence)).flatMap fun n => littleEndian 4 n.toNat := by
    rw [List.flatMap_map]
  unfold sequencesText
  by_cases hboth : Sighash.fixesInputs type && Sighash.fixesOutputs type
  · obtain ⟨hin, hout⟩ := Bool.and_eq_true_iff.mp hboth
    rw [if_pos hboth, if_pos hboth, Option.some.injEq, hmap, hmap]
    constructor
    · intro h _ _
      refine flatMap_inj (P := fun _ => True) (fun n hn => ?_)
        (fun _ _ _ _ _ _ => u32_append_inj) (fun _ _ => trivial) (fun _ _ => trivial) h
      have hlength := congrArg List.length hn
      simp at hlength
    · intro h
      rw [h hin hout]
  · rw [if_neg hboth, if_neg hboth]
    refine ⟨fun _ hin hout => ?_, fun _ => rfl⟩
    exact absurd (Bool.and_eq_true_iff.mpr ⟨hin, hout⟩) hboth

theorem Sighash.not_fixesOutputs_of_single {type : UInt32}
    (h : Sighash.base type = Sighash.single) : ¬Sighash.fixesOutputs type := by
  simp [Sighash.fixesOutputs, h]

theorem outputsText_congr {i j : Nat} {type : UInt32}
    (hall : Sighash.fixesOutputs type → a.outputs = b.outputs)
    (hone : Sighash.base type = Sighash.single → a.outputs[i]? = b.outputs[j]?) :
    outputsText a i type = outputsText b j type := by
  unfold outputsText
  by_cases hout : Sighash.fixesOutputs type
  · rw [if_pos hout, if_pos hout, hall hout]
  · rw [if_neg hout, if_neg hout]
    by_cases hsingle : Sighash.base type = Sighash.single
    · rw [if_pos hsingle, if_pos hsingle, hone hsingle]
    · rw [if_neg hsingle, if_neg hsingle]

theorem outputsText_inj {i j : Nat} {type : UInt32}
    (ha : ∀ o ∈ a.outputs, o.lockingScript.bytes.length < UInt64.size)
    (hb : ∀ o ∈ b.outputs, o.lockingScript.bytes.length < UInt64.size)
    (h : outputsText a i type = outputsText b j type) :
    (Sighash.fixesOutputs type → a.outputs = b.outputs) ∧
      (Sighash.base type = Sighash.single → a.outputs[i]? = b.outputs[j]?) := by
  unfold outputsText at h
  constructor
  · intro hout
    rw [if_pos hout, if_pos hout, Option.some.injEq] at h
    refine flatMap_inj (fun o ho => ?_) (fun _ _ _ _ => Output.encode_append_inj_of_lt) ha hb h
    have hlength := congrArg List.length ho
    simp [Output.encode] at hlength
  · intro hsingle
    have hout := Sighash.not_fixesOutputs_of_single hsingle
    rw [if_neg hout, if_neg hout, if_pos hsingle, if_pos hsingle] at h
    exact Option.map_injective (fun _ _ => Output.encode_inj) h

/-! ### From preimages to what is fixed -/

variable {i j : Input}

theorem partsOf_eq_of_fixAlike (hi : a.inputs[p.inputIndex]? = some i)
    (hj : b.inputs[q.inputIndex]? = some j) (h : FixAlike a p b q) :
    partsOf a i p a.lockTime = partsOf b j q b.lockTime := by
  have hinput := h.input
  rw [hi, hj, Option.map_some, Option.map_some, Option.some.injEq, Prod.mk.injEq] at hinput
  obtain ⟨houtpoint, hsequence⟩ := hinput
  have houtpoints := (outpointsText_eq_iff p.sighashType).mpr h.outpoints
  have hsequences := (sequencesText_eq_iff p.sighashType).mpr h.sequences
  have houtputs := outputsText_congr h.outputs h.single
  rw [h.type] at houtpoints hsequences houtputs
  simp only [partsOf, houtpoints, hsequences, houtputs, houtpoint, hsequence, h.type, h.script,
    h.satoshis, h.version, h.lockTime]

theorem fixAlike_of_partsOf_eq (ha : ∀ o ∈ a.outputs, o.lockingScript.bytes.length < UInt64.size)
    (hb : ∀ o ∈ b.outputs, o.lockingScript.bytes.length < UInt64.size)
    (hapart : DigestsApart (digestedTexts a p ++ digestedTexts b q))
    (hi : a.inputs[p.inputIndex]? = some i) (hj : b.inputs[q.inputIndex]? = some j)
    (h : partsOf a i p a.lockTime = partsOf b j q b.lockTime) : FixAlike a p b q := by
  simp only [partsOf, PreimageParts.mk.injEq] at h
  obtain ⟨hversion, houtpoints, hsequences, houtpoint, hscript, hsatoshis, hsequence, houtputs,
    hlockTime, htype⟩ := h
  -- Each of the three digests is of a text that the digests tell from the others.
  have htext {s t : Option Bytes}
      (hs : s ∈ [outpointsText a p.sighashType, sequencesText a p.sighashType,
        outputsText a p.inputIndex p.sighashType])
      (ht : t ∈ [outpointsText b q.sighashType, sequencesText b q.sighashType,
        outputsText b q.inputIndex q.sighashType])
      (heq : digestOf s = digestOf t) : s = t := by
    refine digestOf_inj hapart (fun u hu => ?_) (fun u hu => ?_) heq
    · exact List.mem_append_left _ (List.mem_filterMap.mpr ⟨s, hs, hu⟩)
    · exact List.mem_append_right _ (List.mem_filterMap.mpr ⟨t, ht, hu⟩)
  have houtpointsText := htext (by simp) (by simp) houtpoints
  have hsequencesText := htext (by simp) (by simp) hsequences
  have houtputsText := htext (by simp) (by simp) houtputs
  rw [← htype] at houtpointsText hsequencesText houtputsText
  obtain ⟨hall, hone⟩ := outputsText_inj ha hb houtputsText
  exact {
    type := htype
    script := hscript
    satoshis := hsatoshis
    version := hversion
    lockTime := hlockTime
    input := by rw [hi, hj, Option.map_some, Option.map_some, houtpoint, hsequence]
    outpoints := (outpointsText_eq_iff p.sighashType).mp houtpointsText
    sequences := (sequencesText_eq_iff p.sighashType).mp hsequencesText
    outputs := hall
    single := hone }

/-- Two preimages are equal if the signed parts agree in all that is fixed, and only then if the
digests of the texts that these preimages look at do not collide and are not zero. -/
theorem preimage_eq_iff_fixAlike {c d : DigestCache} (hx : preimage a p .empty = .ok (x, c))
    (hy : preimage b q .empty = .ok (y, d)) :
    (FixAlike a p b q → x = y) ∧
    ((∀ o ∈ a.outputs, o.lockingScript.bytes.length < UInt64.size) →
      (∀ o ∈ b.outputs, o.lockingScript.bytes.length < UInt64.size) →
      DigestsApart (digestedTexts a p ++ digestedTexts b q) → x = y → FixAlike a p b q) := by
  obtain ⟨i, hi, -, rfl⟩ := exists_partsOf_of_preimage_eq_ok hx
  obtain ⟨j, hj, -, rfl⟩ := exists_partsOf_of_preimage_eq_ok hy
  constructor
  · intro h
    rw [partsOf_eq_of_fixAlike hi hj h]
  · intro ha hb hapart heq
    exact fixAlike_of_partsOf_eq ha hb hapart hi hj (PreimageParts.encode_inj heq)

/-- Two transactions whose unlocking scripts differ, and a type that fixes everything. -/
theorem preimage_eq_iff_fixAlike_other_scripts :
    let input := fun (n : UInt32) (script : Bytes) =>
      Input.mk ⟨.zero 32, n⟩ Input.finalSequence (.raw script) none
    let tx := fun (script : Bytes) =>
      Transaction.mk 1 [input 0 script, input 1 []] [⟨5, ⟨[0x51]⟩⟩, ⟨6, ⟨[]⟩⟩] 9
    let part : SignedPart := ⟨1, [0x51], Sighash.all, 7⟩
    ∃ x c y d, preimage (tx []) part .empty = .ok (x, c) ∧
      preimage (tx [0x52]) part .empty = .ok (y, d) ∧ x = y ∧
      DigestsApart (digestedTexts (tx []) part ++ digestedTexts (tx [0x52]) part) ∧
      FixAlike (tx []) part (tx [0x52]) part := by
  intro input tx part
  obtain ⟨c, hx⟩ := exists_preimage_eq_ok (tx []) part rfl (by decide)
  obtain ⟨d, hy⟩ := exists_preimage_eq_ok (tx [0x52]) part rfl (by decide)
  -- The texts are the same three for both.
  have hsub : digestedTexts (tx []) part ++ digestedTexts (tx [0x52]) part ⊆
      digestedTexts (tx []) part := List.append_subset.mpr ⟨fun _ h => h, fun _ h => h⟩
  have hapart := DigestsApart.of_nodup hsub (by decide +kernel)
  exact ⟨_, c, _, d, hx, hy, rfl, hapart, (preimage_eq_iff_fixAlike hx hy).2 (by decide +kernel)
    (by decide +kernel) hapart rfl⟩

end

end Utxo.Tx
