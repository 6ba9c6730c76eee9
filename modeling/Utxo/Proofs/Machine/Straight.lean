/-
Scripts that only use the main stack.

As long as a script pushes bytes and executes opcodes on the main stack alone, its state is
determined by that stack, the number of chunks behind and the number of operations
(`State.straight`).

* **`runChunks_push_straight`** — a push puts its bytes on the stack;
* **`runChunks_opcode_straight`** — an opcode leaves what it makes of the stack.
-/
import Utxo.Proofs.Machine.Step

namespace Utxo.Machine

/-- The state in a script that has only used the main stack. -/
def State.straight (main : Stack) (calls : List Call) (offset operations : Nat) : State :=
  { State.atStart main calls with offset, operations }

variable {setting : Setting} {role : Role} {script ahead : List Chunk} {main : Stack}
  {calls : List Call} {offset operations : Nat} {t : State}

theorem State.atStart_eq_straight (main : Stack) (calls : List Call) :
    atStart main calls = straight main calls 0 0 := rfl

theorem State.pass_straight (c : Chunk) (main' : Stack) :
    (straight main calls offset operations).pass c main' =
      straight main' calls (offset + 1) (operations + cost c) := rfl

/-- A push puts its bytes on the stack. -/
theorem runChunks_push_straight {c : Chunk} {data : Bytes} (hop : c.op.isPush)
    (hdata : c.data = some data) :
    (runChunks setting role script (c :: ahead) (.straight main calls offset operations)).2 =
        .completed t ↔
      data.length ≤ setting.limits.elementSize ∧
        operations ≤ setting.limits.operations ∧ main.depth < setting.limits.stackDepth ∧
        (runChunks setting role script ahead
          (.straight (main.push data) calls (offset + 1) operations)).2 = .completed t := by
  have hne : Instruction.ofOpcode c.op ≠ .ret := by simp [Instruction.ofOpcode_of_isPush hop]
  have hcost : cost c = 0 := by
    have hle : c.op ≤ Opcode.pushData4 := of_decide_eq_true hop
    rw [cost, if_neg (UInt8.not_lt.mpr (UInt8.le_trans hle (by decide)))]
  rw [runChunks_cons_eq_completed_iff_of_ne_ret hne]
  constructor
  · rintro ⟨u, hstep, ht⟩
    obtain ⟨hsize, hcount, hlt, rfl⟩ := (step_push_eq_next_iff rfl hop hdata).mp hstep
    rw [State.pass_straight, hcost] at ht
    exact ⟨hsize, Nat.le_trans (Nat.le_add_right _ _) hcount, hlt, ht⟩
  · rintro ⟨hsize, hcount, hlt, ht⟩
    refine ⟨_, (step_push_eq_next_iff rfl hop hdata).mpr ⟨hsize, ?_, hlt, rfl⟩, ?_⟩
    · show operations + cost c ≤ _
      rwa [hcost]
    · rw [State.pass_straight, hcost]
      exact ht

/-- An opcode leaves what it makes of the stack. -/
theorem runChunks_opcode_straight {op : Opcode} (hop : (Instruction.ofOpcode op).actsOnMain) :
    (runChunks setting role script (.ofOpcode op :: ahead)
        (.straight main calls offset operations)).2 = .completed t ↔
      operations + cost (.ofOpcode op) ≤ setting.limits.operations ∧
        ∃ main', (Instruction.ofOpcode op).runOnMain setting main = .ok main' ∧
          main'.depth ≤ setting.limits.stackDepth ∧
          (runChunks setting role script ahead
            (.straight main' calls (offset + 1) (operations + cost (.ofOpcode op)))).2 =
              .completed t := by
  rw [runChunks_cons_eq_completed_iff_of_ne_ret (Instruction.ne_of_actsOnMain hop rfl)]
  constructor
  · rintro ⟨u, hstep, ht⟩
    obtain ⟨hcount, main', hrun, hle, rfl⟩ := (step_opcode_eq_next_iff rfl hop).mp hstep
    exact ⟨hcount, main', hrun, hle, ht⟩
  · rintro ⟨hcount, main', hrun, hle, ht⟩
    exact ⟨_, (step_opcode_eq_next_iff rfl hop).mpr ⟨hcount, main', hrun, hle, rfl⟩, ht⟩

end Utxo.Machine
