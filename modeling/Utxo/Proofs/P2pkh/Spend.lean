/-
What it takes to spend a coin that is locked to a digest.

Whatever opcodes the unlocking script uses, the locking script gets its main stack and nothing else.

* **`exists_of_run_lock_eq_ok`** — a valid spend has left a key with the digest and has asked for
  one signature by it;
* **`run_lock_eq_ok`** — whoever leaves such a key and a signature that is accepted has a valid
  spend;
* **`execute_isP2pkh`** — both, for the flags under which inputs are verified.
-/
import Utxo.Proofs.Machine.Alignment
import Utxo.Proofs.Machine.Handover
import Utxo.Proofs.P2pkh.Locking

namespace Utxo

open Machine Tx

namespace Tx.P2pkh

variable {setting : Setting} {unlocking : Script}

theorem truncated?_lock (h : Hash160) : truncated? (lock h) = none := by
  have hwidth : Push.lengthWidth 20 = 0 := rfl
  rw [truncated?, chunks_lock]
  simp [List.find?, Chunk.isTruncated, Chunk.ofOpcode, h.length_bytes, hwidth]

theorem refusal?_lock_eq_none_iff (h : Hash160) (hpush : setting.rules.pushOnly = false) :
    refusal? setting unlocking (lock h) = none ↔
      25 ≤ setting.limits.scriptSize ∧ unlocking.length ≤ setting.limits.scriptSize ∧
        truncated? unlocking = none := by
  have hlock : (lock h).isEmpty = false := rfl
  simp only [refusal?, length_lock, hlock, hpush, truncated?_lock, Bool.and_false, Bool.false_and,
    Option.or_none, Bool.false_eq_true, if_false]
  split_ifs with hunlocking hlocking
  · simp [Nat.not_le_of_lt hunlocking]
  · simp [Nat.not_le_of_lt hlocking]
  · simp [Nat.le_of_not_lt hunlocking, Nat.le_of_not_lt hlocking]

section

variable (h : Hash160) (hclean : setting.rules.cleanStack = false)
  (hstrict : setting.rules.strictEncoding) (hfork : setting.rules.forkId)
  (hpush : setting.rules.pushOnly = false)

include hclean hstrict hfork hpush

/-- A valid spend has left a key with the digest on top of a signature, and has asked for it. -/
theorem exists_of_run_lock_eq_ok (hvalid : (run setting unlocking (lock h)).result = .ok ()) :
    ∃ s key signature rest flag, Finishes setting unlocking s ∧
      s.main.values = key :: signature :: rest ∧ Digest.hash160 key = h ∧
      Accepts setting s.calls (question h setting.inputIndex signature key flag) ∧
      (run setting unlocking (lock h)).calls =
        s.calls ++ [question h setting.inputIndex signature key flag] := by
  obtain ⟨haccepted, s, hcompleted, hlocking⟩ := run_result_eq_ok_iff.mp hvalid
  obtain ⟨-, hsize, hwhole⟩ := (refusal?_lock_eq_none_iff h hpush).mp haccepted
  obtain ⟨t, ht, hjudge⟩ := runLocking_result_eq_ok_iff.mp hlocking
  -- Whatever ran before, values and names are aligned, so the lock finds whole slots.
  have haligned := isAligned_of_runScript State.isAligned_initial hcompleted
  obtain ⟨-, key, signature, flag, rest, n, m, hmain, hdigest, haccepts, rfl⟩ :=
    (runScript_lock_judge_iff h haligned.1 hclean hstrict hfork).mp ⟨ht, hjudge⟩
  refine ⟨s, key, signature, rest.values, flag, ⟨hsize, hwhole, hcompleted⟩, by rw [hmain], hdigest,
    haccepts, ?_⟩
  rw [run_eq_of_completed haccepted hcompleted]
  exact runLocking_calls_of_completed ht

/-- Whoever leaves a key with the digest on top of a signature that is accepted has a valid spend,
if the limits have room for the lock. -/
theorem run_lock_eq_ok {s : State} {key signature : Bytes} {rest : List Bytes} {flag : UInt8}
    (hfinishes : Finishes setting unlocking s) (hvalues : s.main.values = key :: signature :: rest)
    (hdigest : Digest.hash160 key = h)
    (haccepts : Accepts setting s.calls (question h setting.inputIndex signature key flag))
    (hdepth : s.main.depth + 2 ≤ setting.limits.stackDepth)
    (hoperations : 4 ≤ setting.limits.operations) (hscript : 25 ≤ setting.limits.scriptSize)
    (helement : 20 ≤ setting.limits.elementSize) :
    (run setting unlocking (lock h)).result = .ok () := by
  have haligned := isAligned_of_runScript State.isAligned_initial hfinishes.completed
  obtain ⟨n, m, names, hmain⟩ := haligned.1.eq_of_values hvalues
  obtain ⟨ht, hjudge⟩ := (runScript_lock_judge_iff h haligned.1 hclean hstrict hfork).mpr
    ⟨⟨hoperations, helement, hdepth⟩, key, signature, flag, ⟨rest, names⟩, n, m, hmain, hdigest,
      haccepts, rfl⟩
  have haccepted := (refusal?_lock_eq_none_iff h hpush).mpr
    ⟨hscript, hfinishes.size, hfinishes.whole⟩
  exact run_result_eq_ok_iff.mpr ⟨haccepted, s, hfinishes.completed,
    runLocking_result_eq_ok_iff.mpr ⟨_, ht, hjudge⟩⟩

end

/-- Under the flags for inputs, a spend of a coin that is locked to a digest is valid just if the
unlocking script leaves a key with that digest and a signature that the checker is then asked for.
-/
theorem execute_isP2pkh (limits : Limits) (checker : Checker) (inputIndex : Nat)
    (unlocking locking : Script) (hlocking : locking.isP2pkh) :
    ((execute limits .standard (some checker) inputIndex unlocking locking).result = .ok () →
      ∃ s key signature rest flag,
        Finishes (.ofFlags limits .standard (some checker) inputIndex) unlocking s ∧
        s.main.values = key :: signature :: rest ∧
        (Digest.hash160 key).bytes = (locking.bytes.drop 3).take 20 ∧
        signature.getLast? = some flag ∧
        (execute limits .standard (some checker) inputIndex unlocking locking).calls =
          s.calls ++ [⟨signature, key, locking, inputIndex, flag⟩] ∧
        checker.answer s.calls ⟨signature, key, locking, inputIndex, flag⟩ = .ok true) ∧
    ∀ s key signature rest flag,
      Finishes (.ofFlags limits .standard (some checker) inputIndex) unlocking s →
      s.main.values = key :: signature :: rest →
      (Digest.hash160 key).bytes = (locking.bytes.drop 3).take 20 →
      signature.getLast? = some flag →
      checkForms (.ofFlags .standard) signature.dropLast flag key = .ok () →
      checker.answer s.calls ⟨signature, key, locking, inputIndex, flag⟩ = .ok true →
      s.main.depth + 2 ≤ limits.stackDepth → 4 ≤ limits.operations → 25 ≤ limits.scriptSize →
      20 ≤ limits.elementSize →
      (execute limits .standard (some checker) inputIndex unlocking locking).result = .ok () := by
  obtain ⟨h, rfl⟩ := Script.isP2pkh_iff.mp hlocking
  rw [digest_lock]
  constructor
  · intro hvalid
    obtain ⟨s, key, signature, rest, flag, hfinishes, hvalues, hdigest, haccepts, hcalls⟩ :=
      exists_of_run_lock_eq_ok h rfl rfl rfl rfl hvalid
    obtain ⟨_, hchecker, hanswer⟩ := haccepts.answer
    cases hchecker
    exact ⟨s, key, signature, rest, flag, hfinishes, hvalues, by rw [hdigest], haccepts.last,
      hcalls, hanswer⟩
  · intro s key signature rest flag hfinishes hvalues hdigest hlast hforms hanswer hdepth
      hoperations hscript helement
    exact run_lock_eq_ok h rfl rfl rfl rfl hfinishes hvalues (FixedBytes.ext hdigest)
      ⟨hlast, hforms, checker, rfl, hanswer⟩ hdepth hoperations hscript helement

/-- The smallest signature and a key open the lock of the key's digest, if the checker says so. -/
theorem execute_isP2pkh_smallest :
    let signature : Bytes := [0x30, 0x06, 0x02, 0x01, 0x01, 0x02, 0x01, 0x01, 0x41]
    let key : Bytes := 0x02 :: List.replicate 32 0
    (execute .afterGenesis .standard (some .trusting) 0 ⟨9 :: signature ++ 33 :: key⟩
      (lock (Digest.hash160 key))).result = .ok () := by
  intro signature key
  let main : Stack := ⟨[key, signature], [Stack.defaultName, Stack.defaultName]⟩
  have hfinishes : Finishes (.ofFlags .afterGenesis .standard (some .trusting) 0)
      ⟨9 :: signature ++ 33 :: key⟩ (.straight main [] 2 0) :=
    ⟨by decide, by decide, by decide⟩
  exact (execute_isP2pkh .afterGenesis .trusting 0 ⟨9 :: signature ++ 33 :: key⟩
    (lock (Digest.hash160 key)) (Script.isP2pkh_lock _)).2 (.straight main [] 2 0) key signature []
    0x41 hfinishes rfl (digest_lock _).symm rfl (by decide) rfl (by decide) (by decide) (by decide)
    (by decide)

end Tx.P2pkh

end Utxo
