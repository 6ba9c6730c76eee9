/-
Flags that only restrict.

Eight of the flags have an evaluation fail where it would go on, and do nothing else.  With more of
them, an evaluation is the same or fails for one of their reasons.

* **`lockstep_of_restricts`** — evaluations under restricted rules and under the rules themselves
  are in step;
* **`execute_union`** — with more restrictions, an evaluation is the same or fails for one of them;
* **`execute_eq_of_union`** — so a spend that is valid with more restrictions is valid without them,
  by the same steps and questions.
-/
import Utxo.Proofs.Machine.Lockstep

namespace Utxo

/-! ### Sets of flags -/

namespace Flags

/-- The flags that only have evaluations fail. -/
def restrictions : Flags :=
  [discourageUpgradableNops, cleanStack, derSignatures, lowS, nullFail, pushOnly, strictEncoding,
    minimalIf].foldl union none

variable {flags more f : Flags}

theorem has_union_of_has (h : flags.has f) : (flags.union more).has f := by
  have hbits : flags.bits &&& f.bits = f.bits := of_decide_eq_true h
  refine decide_eq_true (UInt32.toBitVec_inj.mp (BitVec.eq_of_getElem_eq fun i hi => ?_))
  have hbit := congrArg (·.toBitVec[i]) hbits
  simp only [union, UInt32.toBitVec_and, UInt32.toBitVec_or, BitVec.getElem_and,
    BitVec.getElem_or] at hbit ⊢
  grind

/-- A flag that is no restriction is not brought in by restrictions. -/
theorem has_union_restrictions (h : restrictions.has more)
    (hf : restrictions.bits &&& f.bits = 0) : (flags.union more).has f = flags.has f := by
  have hmore : restrictions.bits &&& more.bits = more.bits := of_decide_eq_true h
  have hbits : (flags.union more).bits &&& f.bits = flags.bits &&& f.bits := by
    refine UInt32.toBitVec_inj.mp (BitVec.eq_of_getElem_eq fun i hi => ?_)
    have hbit := congrArg (·.toBitVec[i]) hmore
    have hbit' := congrArg (·.toBitVec[i]) hf
    simp only [union, UInt32.toBitVec_and, UInt32.toBitVec_or, BitVec.getElem_and,
      BitVec.getElem_or, UInt32.toBitVec_zero, BitVec.getElem_zero] at hbit hbit' ⊢
    grind
  rw [has, has, hbits]

end Flags

/-! ### Rules -/

/-- The classes of the faults that restrictions raise. -/
def Fault.Code.IsRestriction : Fault.Code → Prop
  | notPushOnly | discourageUpgradableNops | minimalIf | invalidSigHashType | illegalForkId | sigDer
  | sigHighS | pubKeyType | nullFail | cleanStack => True
  | _ => False

/-- The first rules have all restrictions of the second ones and are the same otherwise. -/
structure Rules.Restricts (strict lax : Rules) : Prop where
  discourageUpgradableNops : lax.discourageUpgradableNops → strict.discourageUpgradableNops
  cleanStack : lax.cleanStack → strict.cleanStack
  derSignatures : lax.derSignatures → strict.derSignatures
  lowS : lax.lowS → strict.lowS
  nullFail : lax.nullFail → strict.nullFail
  pushOnly : lax.pushOnly → strict.pushOnly
  strictEncoding : lax.strictEncoding → strict.strictEncoding
  minimalIf : lax.minimalIf → strict.minimalIf
  forkId : strict.forkId = lax.forkId
  afterGenesis : strict.afterGenesis = lax.afterGenesis

/-- More restrictions among the flags restrict the rules. -/
theorem Rules.restricts_union {flags more : Flags} (h : Flags.restrictions.has more) :
    (Rules.ofFlags (flags.union more)).Restricts (.ofFlags flags) where
  discourageUpgradableNops := Flags.has_union_of_has
  cleanStack := Flags.has_union_of_has
  derSignatures := Flags.has_union_of_has
  lowS := Flags.has_union_of_has
  nullFail := Flags.has_union_of_has
  pushOnly := Flags.has_union_of_has
  strictEncoding := by
    -- Strict encoding comes with the fork id too.
    intro hstrict
    rcases Bool.or_eq_true_iff.mp hstrict with hflag | hfork
    · exact Bool.or_eq_true_iff.mpr (.inl (Flags.has_union_of_has hflag))
    · exact Bool.or_eq_true_iff.mpr (.inr (Flags.has_union_of_has hfork))
  minimalIf := Flags.has_union_of_has
  forkId := Flags.has_union_restrictions h rfl
  afterGenesis := Flags.has_union_restrictions h rfl

namespace Machine

/-- A fault that a restriction raises. -/
abbrev IsRestriction (fault : Fault) : Prop := fault.code.IsRestriction

variable {strict lax : Rules}

theorem and_imp_left {a b c : Bool} (h : b → a) (hc : b && c) : a && c := by
  rw [Bool.and_eq_true] at hc ⊢
  exact ⟨h hc.1, hc.2⟩

/-! ### Conditions -/

theorem popCondition_restricts (h : strict.Restricts lax) (s : Stack) :
    Agrees IsRestriction (popCondition strict s) (popCondition lax s) := by
  refine (Agrees.refl (popValue s)).bind fun r => ?_
  refine .guard (and_imp_left h.minimalIf) trivial (.guard ?_ trivial (.refl _))
  exact and_imp_left (and_imp_left h.minimalIf)

theorem Conditional.run_restricts (h : strict.Restricts lax) (op : Conditional) (s : State) :
    Agrees IsRestriction (op.run strict s) (op.run lax s) := by
  cases op with
  | opening negated =>
    exact .ite ((popCondition_restricts h s.main).bind fun _ => .refl _) (.refl _)
  | turn =>
    simp only [run, h.afterGenesis]
    exact .refl _
  | closing => exact .refl _

/-! ### The form of a signature and a key -/

theorem checkType_restricts (h : strict.Restricts lax) (flag : UInt8) :
    Agrees IsRestriction (checkType strict flag) (checkType lax flag) := by
  by_cases hlax : lax.strictEncoding
  · have hstrict := h.strictEncoding hlax
    simp only [checkType, hlax, hstrict, h.forkId]
    exact .refl _
  · -- Any type passes that nothing is asked of.
    have hpasses : checkType lax flag = .ok () := by simp [checkType, hlax]
    rw [hpasses, checkType]
    split_ifs
    · exact .refl _
    · exact .error trivial
    · exact .error trivial
    · exact .error trivial
    · exact .refl _

theorem checkForm_restricts (h : strict.Restricts lax) (der : Bytes) :
    Agrees IsRestriction (checkForm strict der) (checkForm lax der) := by
  by_cases hlax : lax.derSignatures || lax.lowS || lax.strictEncoding
  · have hstrict : strict.derSignatures || strict.lowS || strict.strictEncoding := by
      simp only [Bool.or_eq_true] at hlax ⊢
      exact hlax.imp (.imp h.derSignatures h.lowS) h.strictEncoding
    rw [checkForm, checkForm, if_pos hlax, if_pos hstrict]
    cases Signature.ofDer der with
    | error e => exact .refl _
    | ok sig => exact .guard (and_imp_left h.lowS) trivial (.refl _)
  · have hpasses : checkForm lax der = .ok () := if_neg hlax
    rw [hpasses, checkForm]
    split_ifs
    · cases Signature.ofDer der with
      | error e => exact .error trivial
      | ok sig =>
        dsimp only
        split_ifs
        · exact .error trivial
        · exact .refl _
    · exact .refl _

theorem checkKey_restricts (h : strict.Restricts lax) (key : Bytes) :
    Agrees IsRestriction (checkKey strict key) (checkKey lax key) :=
  .guard (and_imp_left h.strictEncoding) trivial (.refl _)

theorem checkForms_restricts (h : strict.Restricts lax) (der : Bytes) (flag : UInt8) (key : Bytes) :
    Agrees IsRestriction (checkForms strict der flag key) (checkForms lax der flag key) :=
  (checkType_restricts h flag).bind fun _ => (checkForm_restricts h der).bind fun _ =>
    checkKey_restricts h key

/-! ### Signature checks -/

variable {limits : Limits} {checker : Option Checker} {inputIndex : Nat} {script : List Chunk}

theorem settleCheck_restricts (h : strict.Restricts lax) (signature : Bytes) (valid : Bool)
    (s : State) :
    (settleCheck strict signature valid s).Agrees IsRestriction
      (settleCheck lax signature valid s) := by
  refine .guard (fun hfails => ?_) trivial (.refl _)
  rw [Bool.and_eq_true] at hfails ⊢
  exact ⟨hfails.1, h.nullFail hfails.2⟩

theorem runCheckSig_restricts (h : strict.Restricts lax) (s : State) :
    (runCheckSig ⟨strict, limits, checker, inputIndex⟩ script s).Agrees IsRestriction
      (runCheckSig ⟨lax, limits, checker, inputIndex⟩ script s) := by
  unfold runCheckSig
  split
  · exact .refl _
  · next key signature main hpop =>
    dsimp only
    cases signature.getLast? with
    | none => exact settleCheck_restricts h _ _ _
    | some flag =>
      obtain hforms | ⟨fault, hfault, hforms⟩ := checkForms_restricts h signature.dropLast flag key
      · dsimp only
        rw [hforms]
        cases checkForms lax signature.dropLast flag key with
        | error fault => exact .refl _
        | ok =>
          cases checker with
          | none => exact .refl _
          | some checker => exact settleCheck_restricts h _ _ _
      · dsimp only
        rw [hforms]
        exact .failed hfault _

/-! ### Evaluations -/

theorem Instruction.run_restricts (h : strict.Restricts lax) (op : Opcode) (instr : Instruction)
    (s : State) :
    (instr.run ⟨strict, limits, checker, inputIndex⟩ script op s).Agrees IsRestriction
      (instr.run ⟨lax, limits, checker, inputIndex⟩ script op s) := by
  cases instr with
  | upgradableNop n => exact .guard h.discourageUpgradableNops trivial (.refl _)
  | conditional c => exact .ofExcept (c.run_restricts h s)
  | ret =>
    simp only [run, runReturn, h.afterGenesis]
    exact .refl _
  | checkSig => exact runCheckSig_restricts h s
  | checkSigVerify => exact (runCheckSig_restricts h s).andThen fun _ => .refl _
  | _ => exact .refl _

theorem judge_restricts (h : strict.Restricts lax) (s : Stack) :
    Agrees IsRestriction (judge strict s) (judge lax s) := by
  unfold judge
  split
  · exact .refl _
  · exact .guard (and_imp_left h.cleanStack) trivial (.refl _)

theorem refusal?_restricts (h : strict.Restricts lax) (unlocking locking : Script) :
    BarAgrees IsRestriction (refusal? ⟨strict, limits, checker, inputIndex⟩ unlocking locking)
      (refusal? ⟨lax, limits, checker, inputIndex⟩ unlocking locking) :=
  .ite (.refl _) <| .ite (.refl _) <| .ite (.refl _) <|
    .guard (and_imp_left h.pushOnly) trivial (.refl _)

/-- Evaluations under restricted rules and under the rules themselves are in step. -/
theorem lockstep_of_restricts (h : strict.Restricts lax) :
    Lockstep IsRestriction ⟨strict, limits, checker, inputIndex⟩
      ⟨lax, limits, checker, inputIndex⟩ where
  refusal := refusal?_restricts h
  enter c s := by
    simp only [enter, h.afterGenesis]
    exact .refl _
  instruction _ op instr s := instr.run_restricts h op s
  settle _ := .refl _
  judge := judge_restricts h

/-- With more restrictions, an evaluation is the same or fails for one of them. -/
theorem execute_union (limits : Limits) {flags more : Flags}
    (h : Flags.restrictions.has more) (checker : Option Checker) (inputIndex : Nat)
    (unlocking locking : Script) :
    execute limits (flags.union more) checker inputIndex unlocking locking =
        execute limits flags checker inputIndex unlocking locking ∨
      ∃ fault, fault.code.IsRestriction ∧
        (execute limits (flags.union more) checker inputIndex unlocking locking).result =
          .error fault :=
  (lockstep_of_restricts (Rules.restricts_union h)).run_eq_or unlocking locking

/-- A spend that is valid with more restrictions is valid without them, by the same steps and
questions. -/
theorem execute_eq_of_union {limits : Limits} {flags more : Flags} {checker : Option Checker}
    {inputIndex : Nat} {unlocking locking : Script} (h : Flags.restrictions.has more)
    (hvalid : (execute limits (flags.union more) checker inputIndex unlocking locking).result =
      .ok ()) :
    execute limits flags checker inputIndex unlocking locking =
      execute limits (flags.union more) checker inputIndex unlocking locking := by
  obtain heq | ⟨fault, -, hfails⟩ := execute_union limits h checker inputIndex unlocking locking
  · exact heq.symm
  · rw [hvalid] at hfails
    cases hfails

/-- A signature check under every restriction. -/
theorem execute_eq_of_union_checkSig :
    let flags := Flags.forkId.union .afterGenesis
    let unlocking : Script := ⟨[0x09, 0x30, 0x06, 0x02, 0x01, 0x01, 0x02, 0x01, 0x01, 0x41]⟩
    let locking : Script := ⟨[0x21, 0x02] ++ List.replicate 32 0x11 ++ [0xac]⟩
    Flags.restrictions.has .restrictions ∧
      (execute .afterGenesis (flags.union .restrictions) (some .trusting) 0 unlocking
        locking).result = .ok () ∧
      execute .afterGenesis flags (some .trusting) 0 unlocking locking =
        execute .afterGenesis (flags.union .restrictions) (some .trusting) 0 unlocking locking := by
  intro flags unlocking locking
  have h : Flags.restrictions.has .restrictions := by decide
  have hresult : (execute .afterGenesis (flags.union .restrictions) (some .trusting) 0 unlocking
      locking).result.toOption = some () := by decide +kernel
  have hvalid : (execute .afterGenesis (flags.union .restrictions) (some .trusting) 0 unlocking
      locking).result = .ok () := by
    cases hrun : (execute .afterGenesis (flags.union .restrictions) (some .trusting) 0 unlocking
      locking).result with
    | ok => rfl
    | error fault =>
      rw [hrun] at hresult
      cases hresult
  exact ⟨h, hvalid, execute_eq_of_union h hvalid⟩

end Machine

end Utxo
