/-
What decides which chunks are executed.

The open conditionals and the mark of an `OP_RETURN` decide whether a chunk is executed.  Only the
conditional opcodes and `OP_RETURN` change them, and only the former fail for want of balance.

* **`Instruction.run_sameFlow`** — any other instruction leaves them as they are;
* **`step_keeps`** — a chunk that is passed over changes neither stack, moves no code separator and
  asks no question;
* **`step_unbalanced_iff`** — a step finds conditionals unbalanced just if its conditional opcode does.
-/
import Utxo.Proofs.Machine.Alignment
import Utxo.Proofs.Machine.Faulting

namespace Utxo.Machine

variable {setting : Setting} {script : List Chunk} {c : Chunk} {s t : State}

/-! ### What conditionals and returns change -/

/-- The open conditionals and the mark of a return are the same. -/
structure SameFlow (s t : State) : Prop where
  branches : t.branches = s.branches
  elses : t.elses = s.elses
  returned : t.returned = s.returned

theorem sameFlow_main (s : State) (main : Stack) : SameFlow s { s with main } := ⟨rfl, rfl, rfl⟩

theorem ofExcept_main_sameFlow (s : State) (r : Except Fault Stack) :
    (Move.ofExcept s (r.map fun main => { s with main })).Leads (SameFlow s) :=
  .ofExcept s ((Ensures.any r).map fun main _ => sameFlow_main s main)

theorem runCheckSig_sameFlow : (runCheckSig setting script s).Leads (SameFlow s) := by
  refine (runCheckSig_changes setting script s).mono ?_
  rintro _ ⟨main, calls, rfl⟩
  exact ⟨rfl, rfl, rfl⟩

/-- An instruction that is neither a conditional nor a return leaves them as they are. -/
theorem Instruction.run_sameFlow {instr : Instruction} (hconditional : instr.isConditional = false)
    (hret : instr ≠ .ret) (op : Opcode) :
    (instr.run setting script op s).Leads (SameFlow s) := by
  cases instr with
  | conditional c => cases hconditional
  | ret => exact absurd rfl hret
  | nop | codeSeparator => exact ⟨rfl, rfl, rfl⟩
  | upgradableNop n =>
    simp only [run]
    split_ifs
    · trivial
    · exact ⟨rfl, rfl, rfl⟩
  | toAlt =>
    exact .ofExcept s ((Ensures.any _).bind fun _ _ => .ok ⟨rfl, rfl, rfl⟩)
  | fromAlt =>
    refine .ofExcept s ((moveFromAlt_changes s).mono ?_)
    rintro _ ⟨main, alt, rfl⟩
    exact ⟨rfl, rfl, rfl⟩
  | checkSig => exact runCheckSig_sameFlow
  | checkSigVerify =>
    refine runCheckSig_sameFlow.andThen (fun t ht => ?_) fun _ h => h
    refine .ofExcept t ((Ensures.any _).map fun _ _ => ?_)
    exact ⟨ht.branches, ht.elses, ht.returned⟩
  | disabled | reservedConditional | reserved | unsupported | invalid => trivial
  | _ =>
    simp only [run]
    exact ofExcept_main_sameFlow s _

/-- A chunk that is neither a conditional nor an executed return leaves them as they are. -/
theorem perform_sameFlow (hop : (Instruction.ofOpcode c.op).isConditional = false)
    (hret : s.isExecuting → Instruction.ofOpcode c.op ≠ .ret) :
    (perform setting script c s).Leads (SameFlow s) := by
  simp only [perform]
  split_ifs with hpassed
  · exact ⟨rfl, rfl, rfl⟩
  · cases c.data with
    | some data => exact sameFlow_main s _
    | none =>
      have hexecuting : s.isExecuting := by simpa [hop] using hpassed
      exact Instruction.run_sameFlow hop (hret hexecuting) c.op

/-! ### Chunks that are passed over -/

/-- The stacks, the code separator and the questions asked are the same. -/
structure SameRest (s t : State) : Prop where
  main : t.main = s.main
  alt : t.alt = s.alt
  codeStart : t.codeStart = s.codeStart
  calls : t.calls = s.calls

theorem SameRest.trans {s t u : State} (h : SameRest s t) (h' : SameRest t u) : SameRest s u :=
  ⟨h'.main.trans h.main, h'.alt.trans h.alt, h'.codeStart.trans h.codeStart,
    h'.calls.trans h.calls⟩

/-- The move goes on with the same stacks, code separator and questions, or fails without asking
another one. -/
def Move.Keeps (s : State) : Move → Prop
  | next t => SameRest s t
  | stop (.completed _) => False
  | stop (.failed _ calls) => calls = s.calls

theorem Move.Keeps.andThen {m : Move} {f : State → Move} (h : m.Keeps s)
    (hf : ∀ t, SameRest s t → (f t).Keeps t) : (m.andThen f).Keeps s := by
  match m, h with
  | next t, h =>
    have ht := hf t h
    rw [Move.andThen]
    match f t, ht with
    | next u, hu => exact h.trans hu
    | stop (.failed _ _), hcalls => exact Eq.trans hcalls h.calls
  | stop (.failed _ _), h => exact h

theorem Move.Keeps.ofExcept {r : Except Fault State} (h : Ensures (SameRest s) r) :
    (Move.ofExcept s r).Keeps s := by
  cases r with
  | error fault => rfl
  | ok t => exact h t rfl

theorem Conditional.run_sameRest (rules : Rules) (op : Conditional) (hs : s.isExecuting = false) :
    Ensures (SameRest s) (op.run rules s) := by
  cases op with
  | opening negated =>
    rw [run, if_neg (by simp [hs])]
    exact .ok ⟨rfl, rfl, rfl, rfl⟩
  | turn =>
    simp only [run]
    split
    · exact .ite (fun _ => .error _) fun _ => .ok ⟨rfl, rfl, rfl, rfl⟩
    · exact .error _
  | closing =>
    simp only [run]
    split
    · exact .ok ⟨rfl, rfl, rfl, rfl⟩
    · exact .error _

/-- An opcode of conditionals pushes no bytes. -/
theorem data_eq_none (hread : c.data.isSome = c.op.isPush)
    (h : Instruction.ofOpcode c.op ≠ .invalid) : c.data = none := by
  rw [← Option.not_isSome_iff_eq_none, hread]
  intro hpush
  exact h (Instruction.ofOpcode_of_isPush hpush)

theorem perform_conditional {op : Conditional} (hread : c.data.isSome = c.op.isPush)
    (hop : Instruction.ofOpcode c.op = .conditional op) :
    perform setting script c s = .ofExcept s (op.run setting.rules s) := by
  have hdata := data_eq_none hread (by simp [hop])
  simp [perform, hop, hdata, Instruction.isConditional, Instruction.run]

theorem perform_passed (hs : s.isExecuting = false)
    (hop : (Instruction.ofOpcode c.op).isConditional = false) :
    perform setting script c s = .next s := by
  simp [perform, hs, hop]

theorem step_eq (setting : Setting) (script : List Chunk) (c : Chunk) (s : State) :
    step setting script c s =
      match barred? setting c s.isExecuting (s.count c).operations with
      | some fault => .stop (.failed fault s.calls)
      | none => (perform setting script c (s.count c)).andThen (settle setting) := by
  rw [step, enter_eq]
  cases barred? setting c s.isExecuting (s.count c).operations <;> rfl

theorem settle_keeps (setting : Setting) (s : State) : (settle setting s).Keeps s := by
  unfold settle
  split_ifs
  · rfl
  · exact ⟨rfl, rfl, rfl, rfl⟩

theorem perform_keeps (hread : c.data.isSome = c.op.isPush) (hs : s.isExecuting = false) :
    (perform setting script c s).Keeps s := by
  cases hop : (Instruction.ofOpcode c.op).isConditional with
  | false =>
    rw [perform_passed hs hop]
    exact ⟨rfl, rfl, rfl, rfl⟩
  | true =>
    cases hop' : Instruction.ofOpcode c.op with
    | conditional op =>
      rw [perform_conditional hread hop']
      exact .ofExcept (op.run_sameRest _ hs)
    | _ => simp [hop', Instruction.isConditional] at hop

/-- A chunk that is passed over changes neither stack, moves no code separator and asks no question.
-/
theorem step_keeps (hread : c.data.isSome = c.op.isPush) (hs : s.isExecuting = false) :
    (step setting script c s).Keeps s := by
  rw [step_eq]
  cases barred? setting c s.isExecuting (s.count c).operations with
  | some fault => rfl
  | none =>
    have hcount : (perform setting script c (s.count c)).Keeps (s.count c) := perform_keeps hread hs
    have hsettle := hcount.andThen fun t _ => settle_keeps setting t
    -- Counting the chunk is no change either.
    show ((perform setting script c (s.count c)).andThen (settle setting)).Keeps s
    match (perform setting script c (s.count c)).andThen (settle setting), hsettle with
    | .next t, h => exact ⟨h.main, h.alt, h.codeStart, h.calls⟩
    | .stop (.failed _ _), h => exact h

/-! ### Where conditionals are found unbalanced -/

/-- A fault that is not about the balance of conditionals. -/
def IsBalanced (fault : Fault) : Prop := ∀ how, fault ≠ .unbalanced how

theorem isBalanced_of_isOrdinary (fault : Fault) (h : IsOrdinary fault) : IsBalanced fault := by
  rintro how rfl
  exact h

theorem not_isBalanced (how : Imbalance) : ¬IsBalanced (.unbalanced how) := fun h => h how rfl

theorem perform_isBalanced (hop : (Instruction.ofOpcode c.op).isConditional = false) :
    (perform setting script c s).Raises IsBalanced :=
  perform_raises isBalanced_of_isOrdinary (fun h => by simp [hop] at h) fun _ _ => nofun

/-- A step finds conditionals unbalanced just if the chunk is admitted and its conditional opcode
finds them so. -/
theorem step_unbalanced_iff (hread : c.data.isSome = c.op.isPush) :
    (∃ how calls, step setting script c s = .stop (.failed (.unbalanced how) calls)) ↔
      (∃ t, enter setting c s = .ok t) ∧
        ∃ op how, Instruction.ofOpcode c.op = .conditional op ∧
          op.run setting.rules (s.count c) = .error (.unbalanced how) := by
  rw [step_eq]
  simp only [enter_eq_ok_iff]
  cases hbar : barred? setting c s.isExecuting (s.count c).operations with
  | some fault =>
    have hbalanced : IsBalanced fault := barred?_raises isBalanced_of_isOrdinary hbar
    simpa using fun how h => hbalanced how h
  | none =>
    simp only [Move.andThen_eq_stop_iff]
    constructor
    · rintro ⟨how, calls, hperform | ⟨u, -, hsettle⟩⟩
      · refine ⟨⟨s.count c, by simp⟩, ?_⟩
        cases hop : Instruction.ofOpcode c.op with
        | conditional op =>
          rw [perform_conditional hread hop] at hperform
          refine ⟨op, how, rfl, ?_⟩
          cases hrun : op.run setting.rules (s.count c) with
          | ok t => rw [hrun] at hperform; cases hperform
          | error fault => rw [hrun] at hperform; cases hperform; rfl
        | _ =>
          have hbalanced := perform_isBalanced (by rw [hop]; rfl) _ calls hperform
          exact absurd hbalanced (not_isBalanced how)
      · have hbalanced := settle_raises isBalanced_of_isOrdinary setting u _ calls hsettle
        exact absurd hbalanced (not_isBalanced how)
    · rintro ⟨-, op, how, hop, hrun⟩
      refine ⟨how, (s.count c).calls, .inl ?_⟩
      rw [perform_conditional hread hop, hrun]
      rfl

end Utxo.Machine
