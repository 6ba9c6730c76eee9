/-
Chunks one after the other.

Chunks that push or whose opcodes change the stacks and nothing else (`OnStacks`) have nothing to do with
what is counted.  So they can be looked at without the counting of operations and the limits
(`performAll`), and evaluated as a script is (`stepAll`) they do the same.

* **`Instruction.run_counting`**, **`perform_counting`** — what such a chunk does has nothing to do with
  what is counted;
* **`stepAll_agrees`** — evaluated as a script is, such chunks do the same and are counted, unless a limit
  is reached.
-/
import Utxo.Proofs.Machine.Flow
import Utxo.Proofs.Machine.Lockstep

namespace Utxo.Machine

variable {setting : Setting} {script cs ds : List Chunk} {c : Chunk}

/-! ### Without limits -/

/-- Some chunks one after the other, without the counting of operations and the limits. -/
def performAll (setting : Setting) (script : List Chunk) : List Chunk → State → Move
  | [], s => .next s
  | c :: cs, s => (perform setting script c s).andThen (performAll setting script cs)

theorem performAll_append (s : State) :
    performAll setting script (cs ++ ds) s =
      (performAll setting script cs s).andThen (performAll setting script ds) := by
  induction cs generalizing s with
  | nil => rfl
  | cons c cs ih =>
    rw [List.cons_append, performAll, performAll]
    cases perform setting script c s with
    | next t => exact ih t
    | stop e => rfl

theorem performAll_singleton (c : Chunk) (s : State) :
    performAll setting script [c] s = perform setting script c s := by
  rw [performAll]
  cases perform setting script c s <;> rfl

/-! ### With limits -/

/-- Some chunks one after the other, as a script is evaluated. -/
def stepAll (setting : Setting) (script : List Chunk) : List Chunk → State → Move
  | [], s => .next s
  | c :: cs, s => (step setting script c s).andThen (stepAll setting script cs)

/-- A fault that a limit raises before or behind what a chunk does. -/
def IsStepLimit : Fault → Prop
  | .pushTooBig .. | .tooManyOperations _ | .stackOverflow .. => True
  | _ => False

/-- The move with this much counted. -/
def Move.counting (offset operations : Nat) : Move → Move
  | next s => next { s with offset, operations }
  | stop e => stop e

theorem Move.counting_counting (m : Move) (offset operations offset' operations' : Nat) :
    (m.counting offset operations).counting offset' operations' =
      m.counting offset' operations' := by
  cases m <;> rfl

/-- Whether an instruction changes the stacks and nothing else. -/
def Instruction.actsOnStacks (instr : Instruction) : Bool :=
  instr.actsOnMain || instr = .toAlt || instr = .fromAlt

/-- Chunks that push, or whose opcode changes the stacks and nothing else. -/
def OnStacks (cs : List Chunk) : Prop :=
  ∀ c ∈ cs, c.data.isSome = c.op.isPush ∧
    (c.op.isPush ∨ (Instruction.ofOpcode c.op).actsOnStacks)

theorem OnStacks.append (hcs : OnStacks cs) (hds : OnStacks ds) : OnStacks (cs ++ ds) :=
  List.forall_mem_append.mpr ⟨hcs, hds⟩

/-- An opcode that acts on the stacks pushes no bytes. -/
theorem onStacks_opcode {op : Opcode} (h : (Instruction.ofOpcode op).actsOnStacks) :
    OnStacks [.ofOpcode op] := by
  refine List.forall_mem_singleton.mpr ⟨?_, .inr h⟩
  cases hpush : op.isPush with
  | false => exact hpush.symm
  | true =>
    rw [Instruction.ofOpcode_of_isPush hpush] at h
    cases h

theorem Instruction.run_counting {instr : Instruction} (h : instr.actsOnStacks) (op : Opcode)
    (s : State) (offset operations : Nat) :
    instr.run setting script op { s with offset, operations } =
      (instr.run setting script op s).counting offset operations := by
  by_cases hmain : instr.actsOnMain
  · rw [run_of_actsOnMain hmain, run_of_actsOnMain hmain]
    cases instr.runOnMain setting s.main <;> rfl
  · obtain rfl | rfl : instr = .toAlt ∨ instr = .fromAlt := by
      simpa [actsOnStacks, hmain] using h
    · show Move.ofExcept _ (moveToAlt _) = (Move.ofExcept s (moveToAlt s)).counting _ _
      rw [moveToAlt, moveToAlt]
      cases popSlot s.main <;> rfl
    · show Move.ofExcept _ (moveFromAlt _) = (Move.ofExcept s (moveFromAlt s)).counting _ _
      rw [moveFromAlt, moveFromAlt]
      cases s.alt.pop? <;> rfl

/-- What a chunk on the stacks alone does has nothing to do with what is counted. -/
theorem perform_counting {c : Chunk} (hread : c.data.isSome = c.op.isPush)
    (hc : c.op.isPush ∨ (Instruction.ofOpcode c.op).actsOnStacks) (s : State)
    (offset operations : Nat) :
    perform setting script c { s with offset, operations } =
      (perform setting script c s).counting offset operations := by
  simp only [perform]
  show (if !s.isExecuting && _ then _ else _) = _
  split_ifs
  · rfl
  · cases hdata : c.data with
    | some data => rfl
    | none =>
      rw [hdata] at hread
      refine Instruction.run_counting (hc.resolve_left fun hpush => ?_) c.op s offset operations
      rw [hpush] at hread
      cases hread

theorem performAll_counting (hcs : OnStacks cs) (s : State) (offset operations : Nat) :
    performAll setting script cs { s with offset, operations } =
      (performAll setting script cs s).counting offset operations := by
  induction cs generalizing s with
  | nil => rfl
  | cons c cs ih =>
    obtain ⟨⟨hread, hc⟩, hrest⟩ := List.forall_mem_cons.mp hcs
    rw [performAll, performAll, perform_counting hread hc]
    cases perform setting script c s with
    | next t => exact ih hrest t
    | stop e => rfl

theorem isStepLimit_of_barred? {c : Chunk} {executing : Bool} {operations : Nat} {fault : Fault}
    (hc : c.op.isPush ∨ (Instruction.ofOpcode c.op).actsOnStacks)
    (h : barred? setting c executing operations = some fault) : IsStepLimit fault := by
  have hadmitted : Instruction.ofOpcode c.op ≠ .disabled ∧
      Instruction.ofOpcode c.op ≠ .reservedConditional := by
    rcases hc with hpush | hacts
    · rw [Instruction.ofOpcode_of_isPush hpush]
      exact ⟨nofun, nofun⟩
    · refine ⟨fun hinstr => ?_, fun hinstr => ?_⟩
      · rw [hinstr] at hacts
        cases hacts
      · rw [hinstr] at hacts
        cases hacts
  simp only [barred?, hadmitted, decide_false, Bool.false_and, Bool.false_eq_true, if_false] at h
  split_ifs at h with hsize hcount
  · cases h
    trivial
  · cases h
    trivial

/-- The step of a chunk on the stacks alone does what the chunk does and counts it, unless a limit is
reached. -/
theorem step_agrees_perform (setting : Setting) (script : List Chunk) {c : Chunk}
    (hread : c.data.isSome = c.op.isPush)
    (hc : c.op.isPush ∨ (Instruction.ofOpcode c.op).actsOnStacks) (s : State) :
    (step setting script c s).Agrees IsStepLimit
      ((perform setting script c s).counting (s.offset + 1) (s.operations + cost c)) := by
  rw [step_eq]
  cases hbarred : barred? setting c s.isExecuting (s.count c).operations with
  | some fault => exact .failed (isStepLimit_of_barred? hc hbarred) s.calls
  | none =>
    have hperform : perform setting script c (s.count c) =
        (perform setting script c s).counting s.offset (s.operations + cost c) :=
      perform_counting hread hc s _ _
    dsimp only
    rw [hperform]
    cases perform setting script c s with
    | stop e => exact .refl _
    | next t =>
      show (settle setting _).Agrees IsStepLimit _
      rw [settle]
      split_ifs
      · exact .failed trivial t.calls
      · exact .refl _

/-- Evaluated as a script is, chunks on the stacks alone do the same and are counted, unless a limit is
reached. -/
theorem stepAll_agrees (hcs : OnStacks cs) (s : State) :
    (stepAll setting script cs s).Agrees IsStepLimit
      ((performAll setting script cs s).counting (s.offset + cs.length)
        (s.operations + cs.countP (Opcode.sixteen < ·.op))) := by
  induction cs generalizing s with
  | nil => exact .refl _
  | cons c cs ih =>
    obtain ⟨⟨hread, hc⟩, hrest⟩ := List.forall_mem_cons.mp hcs
    have hagrees := (step_agrees_perform setting script hread hc s).andThen (ih hrest)
    have hcost : (c :: cs).countP (Opcode.sixteen < ·.op) =
        cs.countP (Opcode.sixteen < ·.op) + cost c := by
      simp only [List.countP_cons, cost, decide_eq_true_eq]
    rw [performAll, List.length_cons, hcost]
    cases hperform : perform setting script c s with
    | stop e =>
      rw [hperform] at hagrees
      exact hagrees
    | next t =>
      have hcounted : (performAll setting script cs
            { t with offset := s.offset + 1, operations := s.operations + cost c }).counting
              (s.offset + 1 + cs.length)
              (s.operations + cost c + cs.countP (Opcode.sixteen < ·.op)) =
          (performAll setting script cs t).counting (s.offset + (cs.length + 1))
            (s.operations + (cs.countP (Opcode.sixteen < ·.op) + cost c)) := by
        rw [performAll_counting hrest, Move.counting_counting]
        congr 1 <;> omega
      rw [hperform] at hagrees
      show Move.Agrees IsStepLimit _ ((performAll setting script cs t).counting _ _)
      rw [← hcounted]
      exact hagrees

end Utxo.Machine
