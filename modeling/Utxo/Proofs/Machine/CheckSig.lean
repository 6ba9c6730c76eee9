/-
What a signature check does.

* **`checkForms_eq_ok_iff`** — the form of a signature and a key passes just if it passes each rule;
* **`checkType_eq_ok_iff`** — under strict encoding with the fork id, a type has a known base and
  the bit of the fork id;
* **`checkForm_toDer`**, **`exists_of_checkForm_eq_ok`** — the DER form of a signature in the lower half
  passes the rule on it, and under low S no other does;
* **`runCheckSig_eq_next_iff`** — the check goes on just if the two top values are taken, and either
  the signature is empty or it has the right form and the checker is asked;
* **`runCheckSig_judge_iff`** — a spend whose last chunk is a check is valid just if the checker
  accepts the signature.
-/
import Utxo.Proofs.Ecdsa.Der
import Utxo.Proofs.Machine.Step

namespace Utxo.Machine

/-! ### The form of a signature and a key -/

section Forms

variable {rules : Rules} {der key : Bytes} {flag : UInt8}

theorem checkForms_eq_ok_iff :
    checkForms rules der flag key = .ok () ↔
      checkType rules flag = .ok () ∧ checkForm rules der = .ok () ∧
        checkKey rules key = .ok () := by
  unfold checkForms
  cases checkType rules flag with
  | error e => simp [bind, Except.bind]
  | ok u =>
    cases checkForm rules der with
    | error e => simp [bind, Except.bind]
    | ok u => simp [bind, Except.bind]

/-- Under strict encoding with the fork id, a type has a known base and the bit of the fork id. -/
theorem checkType_eq_ok_iff (hstrict : rules.strictEncoding) (hfork : rules.forkId) :
    checkType rules flag = .ok () ↔
      (1 ≤ flag &&& ~~~(anyoneCanPayBit ||| forkIdBit) ∧
        flag &&& ~~~(anyoneCanPayBit ||| forkIdBit) ≤ 3) ∧ flag &&& forkIdBit ≠ 0 := by
  generalize hbase : flag &&& ~~~(anyoneCanPayBit ||| forkIdBit) = base
  by_cases hb : 1 ≤ base ∧ base ≤ 3
  · by_cases hbit : flag &&& forkIdBit = 0
    · simp [checkType, hstrict, hfork, hbase, hb.1, hb.2, hbit]
    · simp [checkType, hstrict, hfork, hbase, hb.1, hb.2, hbit]
  · have hb' : (decide (1 ≤ base) && decide (base ≤ 3)) = false := by
      rw [← Bool.decide_and, decide_eq_false hb]
    simp only [checkType, hstrict, hbase, hb', hb, false_and, iff_false]
    nofun

/-- A signature in the lower half whose components are not zero passes the rule on its form. -/
theorem checkForm_toDer {sig : Signature} (hr : sig.r ≠ .zero 32) (hs : sig.s ≠ .zero 32)
    (hlow : sig.hasLowS) (rules : Rules) : checkForm rules sig.toDer = .ok () := by
  simp only [checkForm, Signature.ofDer_toDer hr hs, hlow, Bool.not_true, Bool.and_false,
    Bool.false_eq_true, if_false, ite_self]

/-- Under low S, a form that passes is that of a signature in the lower half. -/
theorem exists_of_checkForm_eq_ok (hlow : rules.lowS) (h : checkForm rules der = .ok ()) :
    ∃ sig, Signature.ofDer der = .ok sig ∧ sig.hasLowS := by
  simp only [checkForm, hlow, Bool.or_true, Bool.true_or, if_true, Bool.true_and] at h
  split at h
  · cases h
  · next sig hsig =>
    refine ⟨sig, hsig, ?_⟩
    by_contra hhigh
    simp [hhigh] at h

end Forms

/-! ### The check -/

variable {setting : Setting} {script : List Chunk} {s t : State}

theorem settleCheck_eq_next_iff {rules : Rules} {signature : Bytes} {valid : Bool} :
    settleCheck rules signature valid s = .next t ↔
      (valid ∨ signature = [] ∨ rules.nullFail = false) ∧
        { s with main := s.main.push (Number.ofBool valid) } = t := by
  unfold settleCheck
  cases valid <;> cases rules.nullFail <;> cases signature <;> simp

theorem askChecker_eq_true_iff {checker : Checker} {call : Call} :
    askChecker checker call s ↔ checker.answer s.calls call = .ok true := by
  unfold askChecker
  split <;> simp_all

/-- The question that a check of a signature asks. -/
def State.call (setting : Setting) (script : List Chunk) (s : State) (signature key : Bytes)
    (flag : UInt8) : Call :=
  ⟨signature, key, scriptCode script s.codeStart signature flag, setting.inputIndex, flag⟩

/-- A check goes on just if the two top values are taken, and either the signature is empty or it
has the right form and the checker is asked. -/
theorem runCheckSig_eq_next_iff :
    runCheckSig setting script s = .next t ↔
      ∃ key signature main n m, s.main = ⟨key :: signature :: main.values, n :: m :: main.names⟩ ∧
        ((signature = [] ∧ { s with main := main.push (Number.ofBool false) } = t) ∨
          ∃ flag checker, signature.getLast? = some flag ∧
            checkForms setting.rules signature.dropLast flag key = .ok () ∧
            setting.checker = some checker ∧
            settleCheck setting.rules signature
              (askChecker checker (s.call setting script signature key flag) s)
              { s with
                main
                calls := s.calls ++ [s.call setting script signature key flag] } = .next t) := by
  unfold runCheckSig
  constructor
  · intro h
    split at h
    · cases h
    · next key signature main hpop =>
      obtain ⟨n, m, hmain⟩ := popTwo_eq_ok_iff.mp hpop
      refine ⟨key, signature, main, n, m, hmain, ?_⟩
      -- An empty signature is settled before its form is looked at.
      split at h
      · next hlast =>
        obtain rfl := List.getLast?_eq_none_iff.mp hlast
        exact .inl ⟨rfl, (settleCheck_eq_next_iff.mp h).2⟩
      · next flag hlast =>
        split at h
        · cases h
        · next hforms =>
          split at h
          · cases h
          · next checker hchecker => exact .inr ⟨flag, checker, hlast, hforms, hchecker, h⟩
  · rintro ⟨key, signature, main, n, m, hmain, h⟩
    rw [popTwo_eq_ok_iff.mpr ⟨n, m, hmain⟩]
    rcases h with ⟨rfl, rfl⟩ | ⟨flag, checker, hlast, hforms, hchecker, h⟩
    · rfl
    · simp only [hlast, hforms, hchecker]
      exact h

/-! ### A check at the end -/

/-- A signature is accepted: it ends in its type, has the right form, and the checker finds it valid
after the questions asked before. -/
structure Accepts (setting : Setting) (asked : List Call) (call : Call) : Prop where
  last : call.signature.getLast? = some call.flag
  forms : checkForms setting.rules call.signature.dropLast call.flag call.publicKey = .ok ()
  answer : ∃ checker, setting.checker = some checker ∧ checker.answer asked call = .ok true

theorem judge_push_ofBool_eq_ok_iff {rules : Rules} (hclean : rules.cleanStack = false) {b : Bool}
    {main : Stack} : judge rules (main.push (Number.ofBool b)) = .ok () ↔ b := by
  have htruth : Number.truth (Number.ofBool b) = b := by cases b <;> rfl
  have hjudge : judge rules (main.push (Number.ofBool b)) =
      if Number.truth (Number.ofBool b) then .ok () else .error .falseResult := by
    simp [judge, Stack.push, Stack.pushSlot, hclean]
  rw [hjudge, htruth]
  cases b <;> simp

/-- A spend whose last chunk is a check is valid just if the checker accepts the signature. -/
theorem runCheckSig_judge_iff (hclean : setting.rules.cleanStack = false) :
    (runCheckSig setting script s = .next t ∧ judge setting.rules t.main = .ok ()) ↔
      ∃ key signature flag, ∃ main : Stack, ∃ n m,
        s.main = ⟨key :: signature :: main.values, n :: m :: main.names⟩ ∧
          Accepts setting s.calls (s.call setting script signature key flag) ∧
          { s with
            main := main.push (Number.ofBool true)
            calls := s.calls ++ [s.call setting script signature key flag] } = t := by
  rw [runCheckSig_eq_next_iff]
  constructor
  · rintro ⟨⟨key, signature, main, n, m, hmain, h⟩, hjudge⟩
    rcases h with ⟨-, rfl⟩ | ⟨flag, checker, hlast, hforms, hchecker, h⟩
    -- Without a signature, the check leaves false.
    · cases (judge_push_ofBool_eq_ok_iff hclean).mp hjudge
    · obtain ⟨-, rfl⟩ := settleCheck_eq_next_iff.mp h
      have hvalid := (judge_push_ofBool_eq_ok_iff hclean).mp hjudge
      refine ⟨key, signature, flag, main, n, m, hmain, ?_, by rw [hvalid]⟩
      exact ⟨hlast, hforms, checker, hchecker, askChecker_eq_true_iff.mp hvalid⟩
  · rintro ⟨key, signature, flag, main, n, m, hmain, haccepts, rfl⟩
    obtain ⟨checker, hchecker, hanswer⟩ := haccepts.answer
    have hvalid := askChecker_eq_true_iff.mpr hanswer
    refine ⟨⟨key, signature, main, n, m, hmain, .inr ⟨flag, checker, haccepts.last, haccepts.forms,
      hchecker, ?_⟩⟩, ?_⟩
    · rw [hvalid]
      exact settleCheck_eq_next_iff.mpr ⟨.inl rfl, rfl⟩
    · exact (judge_push_ofBool_eq_ok_iff hclean).mpr rfl

theorem runChunks_checkSig_judge_iff (role : Role) (hclean : setting.rules.cleanStack = false)
    (hs : s.isExecuting) (hclosed : s.branches = []) :
    ((runChunks setting role script [.ofOpcode Opcode.checkSig] s).2 = .completed t ∧
        judge setting.rules t.main = .ok ()) ↔
      s.operations + 1 ≤ setting.limits.operations ∧
        ∃ key signature flag, ∃ main : Stack, ∃ n m,
          s.main = ⟨key :: signature :: main.values, n :: m :: main.names⟩ ∧
            Accepts setting s.calls (s.call setting script signature key flag) ∧
            main.depth + 1 + s.alt.depth ≤ setting.limits.stackDepth ∧
            { s.pass (.ofOpcode Opcode.checkSig) (main.push (Number.ofBool true)) with
              calls := s.calls ++ [s.call setting script signature key flag] } = t := by
  have hperform : perform setting script (.ofOpcode Opcode.checkSig)
      (s.count (.ofOpcode Opcode.checkSig)) =
      runCheckSig setting script (s.count (.ofOpcode Opcode.checkSig)) :=
    perform_of_isExecuting hs
  rw [runChunks_cons_eq_completed_iff_of_ne_ret (by decide)]
  simp only [step_eq_next_iff, hperform, barred?_eq_none_iff (c := .ofOpcode Opcode.checkSig)
    (by decide) (by decide), runChunks, atEnd_eq_completed_iff]
  constructor
  · rintro ⟨⟨_, ⟨⟨-, hcount⟩, u, hu, hle, rfl⟩, -, rfl⟩, hjudge⟩
    obtain ⟨key, signature, flag, main, n, m, hmain, haccepts, rfl⟩ :=
      (runCheckSig_judge_iff hclean).mp ⟨hu, hjudge⟩
    exact ⟨hcount, key, signature, flag, main, n, m, hmain, haccepts, hle, rfl⟩
  · rintro ⟨hcount, key, signature, flag, main, n, m, hmain, haccepts, hle, rfl⟩
    obtain ⟨hu, hjudge⟩ := (@runCheckSig_judge_iff setting script
      (s.count (.ofOpcode Opcode.checkSig)) _ hclean).mpr
        ⟨key, signature, flag, main, n, m, hmain, haccepts, rfl⟩
    exact ⟨⟨_, ⟨⟨Nat.zero_le _, hcount⟩, _, hu, hle, rfl⟩, hclosed, rfl⟩, hjudge⟩

end Utxo.Machine
