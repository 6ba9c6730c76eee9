/-
A transaction that is written and read.

* **`decode_encode`** — what is read is the transaction with its scripts as bytes and without the
  outputs that its inputs spend, if its counts and lengths are not too large to be read.
-/
import Utxo.Proofs.Tx.Commitment
import Utxo.Proofs.Tx.Wire
import Mathlib.Data.List.Forall2

namespace Utxo

open Tx

namespace Tx

/-- The input as it is read from its written form. -/
def Input.bare (i : Input) : Input := { i with script := .raw i.scriptBytes, spent := none }

theorem Input.isBare_bare (i : Input) : i.bare.IsBare := ⟨rfl, rfl⟩

end Tx

namespace Transaction

variable {tx : Transaction}

/-- The counts and the lengths of scripts are not too large to be read. -/
structure Fits (tx : Transaction) : Prop where
  inputCount : tx.inputs.length ≤ CompactSize.maxLength.toNat
  inputSizes : ∀ i ∈ tx.inputs, i.scriptBytes.length ≤ CompactSize.maxLength.toNat
  outputCount : tx.outputs.length ≤ CompactSize.maxLength.toNat
  outputSizes : ∀ o ∈ tx.outputs, o.lockingScript.bytes.length ≤ CompactSize.maxLength.toNat

instance (tx : Transaction) : Decidable tx.Fits :=
  decidable_of_iff
    (tx.inputs.length ≤ CompactSize.maxLength.toNat ∧
      (∀ i ∈ tx.inputs, i.scriptBytes.length ≤ CompactSize.maxLength.toNat) ∧
      tx.outputs.length ≤ CompactSize.maxLength.toNat ∧
      ∀ o ∈ tx.outputs, o.lockingScript.bytes.length ≤ CompactSize.maxLength.toNat)
    ⟨fun ⟨h₁, h₂, h₃, h₄⟩ => ⟨h₁, h₂, h₃, h₄⟩, fun ⟨h₁, h₂, h₃, h₄⟩ => ⟨h₁, h₂, h₃, h₄⟩⟩

/-- The transaction as it is read from its written form. -/
def bare (tx : Transaction) : Transaction := { tx with inputs := tx.inputs.map Input.bare }

theorem encode_bare (tx : Transaction) : tx.bare.encode = tx.encode := by
  simp only [encode, bare, List.length_map, List.flatMap_map]
  rfl

theorem sameFrame_bare (tx : Transaction) : tx.bare.SameFrame tx := by
  refine ⟨rfl, ?_, rfl, rfl⟩
  rw [bare, List.map_map]
  rfl

theorem Fits.bare (h : tx.Fits) : tx.bare.Fits := by
  refine ⟨?_, ?_, h.outputCount, h.outputSizes⟩
  · rw [Transaction.bare, List.length_map]
    exact h.inputCount
  · intro i hi
    obtain ⟨j, hj, rfl⟩ := List.mem_map.mp hi
    exact h.inputSizes j hj

/-- The shortest forms of counts and lengths can be read. -/
theorem Fits.of_shortest (h : tx.Fits) : (Spelling.shortest tx).Of tx := by
  have hsize {n : Nat} (hn : n ≤ CompactSize.maxLength.toNat) : IsSize n (CompactSize.ofLength n) :=
    ⟨hn, CompactSize.form_encode _⟩
  refine ⟨hsize h.inputCount, ?_, hsize h.outputCount, ?_⟩
  · rw [Spelling.shortest, List.forall₂_map_right_iff, List.forall₂_same]
    exact fun i hi => hsize (h.inputSizes i hi)
  · rw [Spelling.shortest, List.forall₂_map_right_iff, List.forall₂_same]
    exact fun o ho => hsize (h.outputSizes o ho)

/-- A transaction is read as it was written, its scripts as bytes. -/
theorem decode_encode (h : tx.Fits) : decode tx.encode = .ok tx.bare := by
  refine decode_eq_ok_iff.mpr ⟨?_, .shortest tx.bare, h.bare.of_shortest, ?_⟩
  · intro i hi
    obtain ⟨j, -, rfl⟩ := List.mem_map.mp hi
    exact j.isBare_bare
  · rw [← encode_bare, encode_eq_encodeWith]

end Transaction

end Utxo
