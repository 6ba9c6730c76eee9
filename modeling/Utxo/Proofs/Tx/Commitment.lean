/-
What a preimage does not look at.

A preimage is made of the version, the lock time, the outputs, and the outpoints and sequence
numbers of the inputs.  Unlocking scripts and the outputs spent are not in it, so that it is the
same before an input is signed, after it, and when the transaction has been written and read.

* **`Transaction.SameDigested`** — two transactions agree on what their shared digests are of;
* **`Transaction.SameFrame`** — two transactions agree on all but scripts and outputs spent;
* **`preimageAt_congr`** — they have the same preimages.
-/
import Utxo.Tx.Sighash

namespace Utxo

open Tx

/-- Two transactions agree on the outpoints and sequence numbers of their inputs, and on their
outputs. -/
structure Transaction.SameDigested (a b : Transaction) : Prop where
  inputs : a.inputs.map (fun i => (i.outpoint, i.sequence)) =
    b.inputs.map fun i => (i.outpoint, i.sequence)
  outputs : a.outputs = b.outputs

namespace Transaction.SameDigested

variable {a b c : Transaction}

theorem symm (h : a.SameDigested b) : b.SameDigested a := ⟨h.inputs.symm, h.outputs.symm⟩

theorem trans (h : a.SameDigested b) (h' : b.SameDigested c) : a.SameDigested c :=
  ⟨h.inputs.trans h'.inputs, h.outputs.trans h'.outputs⟩

end Transaction.SameDigested

/-- Two transactions agree on all but the unlocking scripts and the outputs spent. -/
structure Transaction.SameFrame (a b : Transaction) : Prop where
  version : a.version = b.version
  inputs : a.inputs.map (fun i => (i.outpoint, i.sequence)) =
    b.inputs.map fun i => (i.outpoint, i.sequence)
  outputs : a.outputs = b.outputs
  lockTime : a.lockTime = b.lockTime

namespace Transaction.SameFrame

variable {a b c : Transaction}

theorem trans (h : a.SameFrame b) (h' : b.SameFrame c) : a.SameFrame c :=
  ⟨h.version.trans h'.version, h.inputs.trans h'.inputs, h.outputs.trans h'.outputs,
    h.lockTime.trans h'.lockTime⟩

theorem sameDigested (h : a.SameFrame b) : a.SameDigested b := ⟨h.inputs, h.outputs⟩

theorem length_inputs (h : a.SameFrame b) : a.inputs.length = b.inputs.length := by
  simpa using congrArg List.length h.inputs

/-- A change of one input that keeps its outpoint and sequence number keeps the frame. -/
theorem modify (tx : Transaction) (index : Nat) {f : Input → Input}
    (hf : ∀ i, (f i).outpoint = i.outpoint ∧ (f i).sequence = i.sequence) :
    { tx with inputs := tx.inputs.modify index f }.SameFrame tx := by
  refine ⟨rfl, List.ext_getElem? fun n => ?_, rfl, rfl⟩
  rw [List.getElem?_map, List.getElem?_map, List.getElem?_modify]
  cases tx.inputs[n]? with
  | none => rfl
  | some i =>
    have hi : ((if index = n then f i else i).outpoint, (if index = n then f i else i).sequence) =
        (i.outpoint, i.sequence) := by
      split
      · rw [(hf i).1, (hf i).2]
      · rfl
    exact congrArg some hi

end Transaction.SameFrame

namespace Tx

variable {a b : Transaction}

section

variable (h : a.SameDigested b)

include h

theorem prevoutsHash_congr : prevoutsHash a = prevoutsHash b := by
  have hmap (tx : Transaction) : tx.inputs.flatMap (·.outpoint.encode) =
      (tx.inputs.map fun i => (i.outpoint, i.sequence)).flatMap (·.1.encode) := by
    rw [List.flatMap_map]
  rw [prevoutsHash, prevoutsHash, hmap, h.inputs, ← hmap]

theorem sequenceHash_congr : sequenceHash a = sequenceHash b := by
  have hmap (tx : Transaction) : tx.inputs.flatMap (littleEndian 4 ·.sequence.toNat) =
      (tx.inputs.map fun i => (i.outpoint, i.sequence)).flatMap (littleEndian 4 ·.2.toNat) := by
    rw [List.flatMap_map]
  rw [sequenceHash, sequenceHash, hmap, h.inputs, ← hmap]

theorem outputsHash_congr : outputsHash a = outputsHash b := by
  rw [outputsHash, outputsHash, h.outputs]

theorem DigestCache.ofTransaction_congr :
    DigestCache.ofTransaction a = DigestCache.ofTransaction b := by
  rw [ofTransaction, ofTransaction, prevoutsHash_congr h, sequenceHash_congr h,
    outputsHash_congr h]

end

section

variable (h : a.SameFrame b)

include h

/-- Transactions that agree on all but scripts and outputs spent have the same preimages. -/
theorem preimageAt_congr (part : SignedPart) (lockTime : UInt32) (cache : DigestCache) :
    preimageAt a part lockTime cache = preimageAt b part lockTime cache := by
  have hprevouts (type : UInt32) (cache : DigestCache) :
      prevoutsDigest a type cache = prevoutsDigest b type cache := by
    rw [prevoutsDigest, prevoutsDigest, prevoutsHash_congr h.sameDigested]
  have hsequence (type : UInt32) (cache : DigestCache) :
      sequenceDigest a type cache = sequenceDigest b type cache := by
    rw [sequenceDigest, sequenceDigest, sequenceHash_congr h.sameDigested]
  have houtputs (type : UInt32) (cache : DigestCache) :
      outputsDigest a part.inputIndex type cache = outputsDigest b part.inputIndex type cache := by
    rw [outputsDigest, outputsDigest, outputsHash_congr h.sameDigested, h.outputs]
  have hinput := congrArg (·[part.inputIndex]?) h.inputs
  simp only [List.getElem?_map] at hinput
  rw [preimageAt, preimageAt, h.length_inputs]
  cases ha : a.inputs[part.inputIndex]? with
  | none =>
    rw [ha] at hinput
    rw [Option.map_eq_none_iff.mp hinput.symm]
  | some i =>
    rw [ha] at hinput
    obtain ⟨j, hj, hij⟩ := Option.map_eq_some_iff.mp hinput.symm
    simp only [Prod.mk.injEq] at hij
    simp only [hj, hprevouts, hsequence, houtputs, h.version, hij]

theorem preimage_congr (part : SignedPart) (cache : DigestCache) :
    preimage a part cache = preimage b part cache := by
  rw [preimage, preimage, h.lockTime, preimageAt_congr h]

theorem signatureHash_congr (part : SignedPart) : signatureHash a part = signatureHash b part := by
  rw [signatureHash, signatureHash, preimage_congr h]

end

end Tx

end Utxo
