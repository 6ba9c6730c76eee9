/-
Reports on verifications.

There is a report on a valid spend and on one that is not.  There is none where a script has
`OP_NUM2BIN` ask for more bytes than a buffer can have, and without a limit on items a short script can.

* **`Input.verifyWith_eq_ok_iff`** — the report is that on the evaluation, unless it breaks off;
* **`Input.exists_report_iff`** — there is a report just if no step asks for too much, and what
  `OP_NUM2BIN` lengthens always has room.
-/
import Utxo.Proofs.Machine.Capacity
import Utxo.Tx.Verify

namespace Utxo.Tx

open Machine

variable {scheme : SignatureScheme} {i : Input} {tx : Transaction} {index : Nat} {limits : Limits}
  {flags : Flags} {report : Report}

/-- The evaluation by which an input is verified that spends an output. -/
def Input.evaluation (scheme : SignatureScheme) (i : Input) (tx : Transaction) (index : Nat)
    (limits : Limits) (flags : Flags) (output : Output) : Run :=
  execute limits flags (some (checker scheme tx output.satoshis)) index i.unlockingScript
    output.lockingScript

/-- The report is that on the evaluation, unless it breaks off. -/
theorem Input.verifyWith_eq_ok_iff :
    i.verifyWith scheme tx index limits flags = .ok report ↔
      ∃ output, i.spent = some output ∧ index < tx.inputs.length ∧
        (i.evaluation scheme tx index limits flags output).result ≠ .error .capacityOverflow ∧
        report = .ofRun (i.evaluation scheme tx index limits flags output) := by
  unfold verifyWith
  cases hspent : i.spent with
  | none => simp
  | some output =>
    by_cases hindex : tx.inputs.length ≤ index
    · simp [hindex]
    · have hreport : (∃ o, some output = some o ∧ index < tx.inputs.length ∧
            (i.evaluation scheme tx index limits flags o).result ≠ .error .capacityOverflow ∧
            report = .ofRun (i.evaluation scheme tx index limits flags o)) ↔
          (i.evaluation scheme tx index limits flags output).result ≠ .error .capacityOverflow ∧
            .ofRun (i.evaluation scheme tx index limits flags output) = report := by
        simp [Nat.lt_of_not_le hindex, eq_comm]
      rw [hreport, Input.evaluation]
      dsimp only
      rw [if_neg hindex]
      split
      · next hresult => simp [hresult]
      · next hresult => simpa using fun _ => hresult

/-- There is a report on an input that spends a known output just if no step of its evaluation has
`OP_NUM2BIN` ask for more bytes than a buffer can have.  In any evaluation, that is what has it break
off, what `OP_NUM2BIN` lengthens has at most as many bytes, and nothing breaks off where the limit on
items is within them. -/
theorem Input.exists_report_iff (scheme : SignatureScheme) (i : Input) (tx : Transaction)
    (index : Nat) (limits : Limits) (flags : Flags) :
    ((∃ report, i.verifyWith scheme tx index limits flags = .ok report) ↔
      ∃ output, i.spent = some output ∧ index < tx.inputs.length ∧
        ∀ k ∈ (i.evaluation scheme tx index limits flags output).steps,
          ¬k.Overflows (.ofFlags limits flags (some (checker scheme tx output.satoshis)) index)) ∧
    ∀ (checker : Option Checker) (unlocking locking : Script),
      let r := execute limits flags checker index unlocking locking
      (r.result = .error .capacityOverflow ↔
        ∃ k ∈ r.steps, k.Overflows (.ofFlags limits flags checker index)) ∧
      (∀ k ∈ r.steps, ∀ built,
        k.Builds (.ofFlags limits flags checker index) (scriptOf unlocking locking k.role).chunks
            built →
          ∃ width value rest, k.before.main.values = width :: value :: rest ∧
            built.length = Number.value width ∧
            (built = Number.minimal value ∨ built.length ≤ maxCapacity)) ∧
      (r.result = .error .capacityOverflow → maxCapacity < limits.elementSize) := by
  refine ⟨?_, fun checker unlocking locking => ⟨run_overflow_iff, fun k hk built hbuilds => ?_,
    fun hresult => ?_⟩⟩
  · have hbreaks (output : Output) : (i.evaluation scheme tx index limits flags output).result =
          .error .capacityOverflow ↔ _ := run_overflow_iff
    simp only [verifyWith_eq_ok_iff, ne_eq, hbreaks]
    constructor
    · rintro ⟨report, output, hspent, hindex, hnone, -⟩
      exact ⟨output, hspent, hindex, fun k hk h => hnone ⟨k, hk, h⟩⟩
    · rintro ⟨output, hspent, hindex, hnone⟩
      exact ⟨_, output, hspent, hindex, fun ⟨k, hk, h⟩ => hnone k hk h, rfl⟩
  · obtain ⟨haligned, hread⟩ := isAligned_of_mem hk
    exact hbuilds.length_eq hread haligned
  · obtain ⟨k, -, hoverflows⟩ := run_overflow_iff.mp hresult
    obtain ⟨width, value, rest, -, h⟩ := hoverflows.operands
    exact h.maxCapacity_lt

/-- An unlocking script of eleven bytes has the verification of its input break off. -/
theorem Input.verify_eq_error_capacityOverflow :
    let output : Output := ⟨1000, ⟨[0x80]⟩⟩
    let input : Input := ⟨⟨.zero 32, 0⟩, Input.finalSequence,
      .raw [0x00, 0x09, 0xff, 0xff, 0xff, 0xff, 0xff, 0xff, 0xff, 0xff, 0x00], some output⟩
    let tx : Transaction := ⟨1, [input], [], 0⟩
    (execute .unlimited .standard none 0 input.unlockingScript output.lockingScript).result =
        .error .capacityOverflow ∧
      input.verify secp256k1 tx 0 = .error .capacityOverflow := by
  decide +kernel

end Utxo.Tx
