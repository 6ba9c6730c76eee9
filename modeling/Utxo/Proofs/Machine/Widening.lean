/-
Wider limits.

Limits have an evaluation fail where it would go on, and do nothing else: no limit is part of a value,
of an index or of a choice between other faults.

* **`lockstep_of_atMost`** — evaluations under limits and under wider ones are in step;
* **`execute_atMost`** — an evaluation is the same under wider limits, or fails for a limit;
* **`execute_eq_of_atMost`** — so any other outcome stays, with the steps and questions before it.
-/
import Utxo.Proofs.Machine.Lockstep

namespace Utxo

/-- No limit is above the same limit of the others. -/
structure Limits.AtMost (limits wider : Limits) : Prop where
  operations : limits.operations ≤ wider.operations
  stackDepth : limits.stackDepth ≤ wider.stackDepth
  scriptSize : limits.scriptSize ≤ wider.scriptSize
  elementSize : limits.elementSize ≤ wider.elementSize
  numberLength : limits.numberLength ≤ wider.numberLength

/-- The classes of the faults that limits raise. -/
def Fault.Code.IsLimit : Fault.Code → Prop
  | scriptTooBig | elementTooBig | tooManyOperations | stackOverflow | numberTooBig => True
  | _ => False

namespace Machine

/-- A fault that a limit raises. -/
abbrev IsLimit (fault : Fault) : Prop := fault.code.IsLimit

/-! ### Numbers -/

section Numbers

variable {limit wider : Nat}

theorem number_widens (h : limit ≤ wider) (value : Bytes) :
    Agrees IsLimit (number limit value) (number wider value) := by
  unfold number Number.decode?
  by_cases hlength : value.length ≤ limit
  · rw [if_pos hlength, if_pos (Nat.le_trans hlength h)]
    exact .refl _
  · rw [if_neg hlength]
    exact .error trivial

theorem popNumber_widens (h : limit ≤ wider) (s : Stack) :
    Agrees IsLimit (popNumber limit s) (popNumber wider s) :=
  (Agrees.refl _).bind fun _ => (number_widens h _).bind fun _ => .refl _

theorem popIndex_widens (h : limit ≤ wider) (s : Stack) :
    Agrees IsLimit (popIndex limit s) (popIndex wider s) :=
  (popNumber_widens h s).bind fun _ => .refl _

theorem popCount_widens (h : limit ≤ wider) (outOfRange : Int → Fault) (s : Stack) :
    Agrees IsLimit (popCount limit outOfRange s) (popCount wider outOfRange s) :=
  (popNumber_widens h s).bind fun _ => .refl _

theorem Shuffle.run_widens (h : limit ≤ wider) (op : Shuffle) (s : Stack) :
    Agrees IsLimit (op.run limit s) (op.run wider s) := by
  cases op with
  | pick | roll => exact (popIndex_widens h s).bind fun _ => .refl _
  | _ => exact .refl _

theorem Unary.run_widens (h : limit ≤ wider) (op : Unary) (s : Stack) :
    Agrees IsLimit (op.run limit s) (op.run wider s) :=
  (popNumber_widens h s).bind fun _ => .refl _

theorem Binary.run_widens (h : limit ≤ wider) (op : Binary) (s : Stack) :
    Agrees IsLimit (op.run limit s) (op.run wider s) :=
  (popNumber_widens h s).bind fun _ => (popNumber_widens h _).bind fun _ => .refl _

theorem runWithin_widens (h : limit ≤ wider) (s : Stack) :
    Agrees IsLimit (runWithin limit s) (runWithin wider s) :=
  (popNumber_widens h s).bind fun _ => (popNumber_widens h _).bind fun _ =>
    (popNumber_widens h _).bind fun _ => .refl _

end Numbers

/-! ### Opcodes -/

variable {limits wider : Limits}

theorem Splice.run_widens (h : limits.AtMost wider) (op : Splice) (s : Stack) :
    Agrees IsLimit (op.run limits s) (op.run wider s) := by
  cases op with
  | cat =>
    refine (Agrees.refl _).bind fun _ => (Agrees.refl _).bind fun _ => ?_
    exact .guard (Nat.lt_of_le_of_lt h.elementSize) trivial (.refl _)
  | split => exact (popNumber_widens h.numberLength s).bind fun _ => .refl _
  | pad =>
    refine (popCount_widens h.numberLength _ s).bind fun _ => ?_
    exact .guard (Nat.lt_of_le_of_lt h.elementSize) trivial (.refl _)
  | shorten =>
    refine (Agrees.refl _).bind fun _ => ?_
    exact .guard (Nat.lt_of_le_of_lt h.numberLength) trivial (.refl _)
  | shiftLeft | shiftRight => exact (popCount_widens h.numberLength _ s).bind fun _ => .refl _
  | _ => exact .refl _

variable {rules : Rules} {checker : Option Checker} {inputIndex : Nat} {script : List Chunk}

theorem Instruction.runOnMain_widens (h : limits.AtMost wider) (instr : Instruction) (s : Stack) :
    Agrees IsLimit (instr.runOnMain ⟨rules, limits, checker, inputIndex⟩ s)
      (instr.runOnMain ⟨rules, wider, checker, inputIndex⟩ s) := by
  cases instr with
  | shuffle op => exact op.run_widens h.numberLength s
  | splice op => exact op.run_widens h s
  | equalVerify => exact (Splice.run_widens h .equal s).bind fun _ => .refl _
  | unary op => exact op.run_widens h.numberLength s
  | binary op => exact op.run_widens h.numberLength s
  | numEqualVerify => exact (Binary.run_widens h.numberLength .equal s).bind fun _ => .refl _
  | within => exact runWithin_widens h.numberLength s
  | _ => exact .refl _

theorem Instruction.run_widens (h : limits.AtMost wider) (op : Opcode) (instr : Instruction)
    (s : State) :
    (instr.run ⟨rules, limits, checker, inputIndex⟩ script op s).Agrees IsLimit
      (instr.run ⟨rules, wider, checker, inputIndex⟩ script op s) := by
  cases hmain : instr.actsOnMain with
  | true =>
    rw [run_of_actsOnMain hmain, run_of_actsOnMain hmain]
    exact .ofExcept (runOnMain_widens h instr s.main).map
  | false =>
    cases instr <;> first | exact .refl _ | cases hmain

/-! ### Evaluations -/

theorem barred?_widens (h : limits.AtMost wider) (c : Chunk) (executing : Bool)
    (operations : Nat) :
    BarAgrees IsLimit (barred? ⟨rules, limits, checker, inputIndex⟩ c executing operations)
      (barred? ⟨rules, wider, checker, inputIndex⟩ c executing operations) :=
  .guard (Nat.lt_of_le_of_lt h.elementSize) trivial <| .ite (.refl _) <| .ite (.refl _) <|
    .guard (Nat.lt_of_le_of_lt h.operations) trivial (.refl _)

theorem enter_widens (h : limits.AtMost wider) (c : Chunk) (s : State) :
    Agrees IsLimit (enter ⟨rules, limits, checker, inputIndex⟩ c s)
      (enter ⟨rules, wider, checker, inputIndex⟩ c s) := by
  rw [enter_eq, enter_eq]
  have hbarred : BarAgrees IsLimit
      (barred? ⟨rules, limits, checker, inputIndex⟩ c s.isExecuting (s.count c).operations)
      (barred? ⟨rules, wider, checker, inputIndex⟩ c s.isExecuting (s.count c).operations) :=
    barred?_widens h c s.isExecuting (s.count c).operations
  obtain hbar | ⟨fault, hfault, hbar⟩ := hbarred
  · rw [hbar]
    exact .refl _
  · rw [hbar]
    exact .error hfault

/-- Evaluations under limits and under wider ones are in step. -/
theorem lockstep_of_atMost (h : limits.AtMost wider) :
    Lockstep IsLimit ⟨rules, limits, checker, inputIndex⟩ ⟨rules, wider, checker, inputIndex⟩ where
  refusal _ _ :=
    .guard (Nat.lt_of_le_of_lt h.scriptSize) trivial <|
      .guard (Nat.lt_of_le_of_lt h.scriptSize) trivial (.refl _)
  enter := enter_widens h
  instruction _ op instr s := instr.run_widens h op s
  settle _ := .guard (Nat.lt_of_le_of_lt h.stackDepth) trivial (.refl _)
  judge _ := .refl _

/-- An evaluation is the same under wider limits, or fails for a limit. -/
theorem execute_atMost (h : limits.AtMost wider) (flags : Flags) (checker : Option Checker)
    (inputIndex : Nat) (unlocking locking : Script) :
    execute limits flags checker inputIndex unlocking locking =
        execute wider flags checker inputIndex unlocking locking ∨
      ∃ fault, fault.code.IsLimit ∧
        (execute limits flags checker inputIndex unlocking locking).result = .error fault :=
  (lockstep_of_atMost h).run_eq_or unlocking locking

/-- Whatever an evaluation comes to, unless it is a fault that a limit raises, it comes to under
wider limits too, by the same steps and questions. -/
theorem execute_eq_of_atMost {flags : Flags} {checker : Option Checker} {inputIndex : Nat}
    {unlocking locking : Script} (h : limits.AtMost wider)
    (hresult : ∀ fault,
      (execute limits flags checker inputIndex unlocking locking).result = .error fault →
        ¬fault.code.IsLimit) :
    execute wider flags checker inputIndex unlocking locking =
      execute limits flags checker inputIndex unlocking locking := by
  obtain heq | ⟨fault, hlimit, hfails⟩ :=
    execute_atMost h flags checker inputIndex unlocking locking
  · exact heq.symm
  · exact absurd hlimit (hresult fault hfails)

theorem beforeGenesis_atMost_afterGenesis : Limits.beforeGenesis.AtMost .afterGenesis :=
  ⟨by decide, by decide, by decide, by decide, by decide⟩

/-- An addition that lacks an operand, under the limits before and after the Genesis upgrade. -/
theorem execute_eq_of_atMost_add :
    Limits.beforeGenesis.AtMost .afterGenesis ∧
      (execute .beforeGenesis .none none 0 ⟨[0x51]⟩ ⟨[0x93]⟩).result =
        .error (.invalidIndex 0 0) ∧
      execute .afterGenesis .none none 0 ⟨[0x51]⟩ ⟨[0x93]⟩ =
        execute .beforeGenesis .none none 0 ⟨[0x51]⟩ ⟨[0x93]⟩ := by
  have hresult : (execute .beforeGenesis .none none 0 ⟨[0x51]⟩ ⟨[0x93]⟩).result =
      .error (.invalidIndex 0 0) := by rfl
  refine ⟨beforeGenesis_atMost_afterGenesis, hresult, ?_⟩
  refine execute_eq_of_atMost beforeGenesis_atMost_afterGenesis fun fault hfails => ?_
  rw [hresult] at hfails
  cases hfails
  exact id

end Machine

end Utxo
