/-
Which faults an opcode can raise.

Conditionals are found unbalanced by the opcodes of conditionals alone, and a buffer that there cannot
be is asked for by `OP_NUM2BIN` alone.  All other faults are *ordinary*.

* **`Raises`** — whatever goes wrong, it is one of some faults;
* **`Instruction.run_raises`** — an instruction raises ordinary faults, unbalanced ones if it belongs to a
  conditional, and one for want of room if it is `OP_NUM2BIN`.
-/
import Utxo.Proofs.Machine.Step

namespace Utxo.Machine

/-- A fault that more than one kind of opcode raises. -/
def IsOrdinary : Fault → Prop
  | .unbalanced _ | .capacityOverflow => False
  | _ => True

/-- If there is a failure, it is one of these. -/
def Raises {α : Type} (p : Fault → Prop) (r : Except Fault α) : Prop :=
  ∀ fault, r = .error fault → p fault

namespace Raises

variable {α β : Type} {p : Fault → Prop} {r r' : Except Fault α} {fault : Fault}

theorem ok (a : α) : Raises p (.ok a) := nofun

theorem error (h : p fault) : Raises p (.error fault : Except Fault α) := by
  rintro _ ⟨⟩
  exact h

theorem bind {f : α → Except Fault β} (hr : Raises p r) (hf : ∀ a, Raises p (f a)) :
    Raises p (r >>= f) := by
  cases r with
  | error fault => exact error (hr fault rfl)
  | ok a => exact hf a

theorem map {f : α → β} (hr : Raises p r) : Raises p (r.map f) := by
  cases r with
  | error fault => exact error (hr fault rfl)
  | ok a => exact ok _

theorem ite {c : Prop} [Decidable c] (h : Raises p r) (h' : Raises p r') :
    Raises p (if c then r else r') := by
  split_ifs
  · exact h
  · exact h'

end Raises

section Operands

variable {p : Fault → Prop} (hp : ∀ fault, IsOrdinary fault → p fault) (s : Stack) (limit : Nat)

include hp

theorem popSlot_raises : Raises p (popSlot s) := by
  unfold popSlot
  split
  · exact .ok _
  · exact .error (hp _ trivial)

theorem popValue_raises : Raises p (popValue s) := (popSlot_raises hp s).bind fun _ => .ok _

theorem number_raises (value : Bytes) : Raises p (number limit value) := by
  unfold number
  split
  · exact .ok _
  · exact .error (hp _ trivial)

theorem popNumber_raises : Raises p (popNumber limit s) :=
  (popValue_raises hp s).bind fun _ => (number_raises hp limit _).bind fun _ => .ok _

theorem popTruth_raises : Raises p (popTruth s) := (popValue_raises hp s).bind fun _ => .ok _

theorem peek_raises (n : Nat) : Raises p (peek n s) := by
  unfold peek
  split
  · exact .ok _
  · exact .error (hp _ trivial)

theorem takeOut_raises (n : Nat) : Raises p (takeOut n s) := by
  unfold takeOut
  split
  · exact .ok _
  · exact .error (hp _ trivial)

theorem need_raises (n : Nat) : Raises p (need n s) := .ite (.ok _) (.error (hp _ trivial))

theorem popIndex_raises : Raises p (popIndex limit s) :=
  (popNumber_raises hp s limit).bind fun _ => .ite (.ok _) (.error (hp _ trivial))

theorem popCount_raises {outOfRange : Int → Fault} (h : ∀ n, IsOrdinary (outOfRange n)) :
    Raises p (popCount limit outOfRange s) :=
  (popNumber_raises hp s limit).bind fun r => .ite (.ok _) (.error (hp _ (h r.1)))

theorem verifyTop_raises (v : Verification) : Raises p (verifyTop v s) :=
  (popTruth_raises hp s).bind fun _ => .ite (.ok _) (.error (hp _ trivial))

theorem popCondition_raises (rules : Rules) : Raises p (popCondition rules s) :=
  (popValue_raises hp s).bind fun _ =>
    .ite (.error (hp _ trivial)) (.ite (.error (hp _ trivial)) (.ok _))

/-! ### Opcodes on the main stack alone -/

theorem copyUp_raises (n : Nat) : Raises p (copyUp n s) := (peek_raises hp s n).bind fun _ => .ok _

theorem moveUp_raises (n : Nat) : Raises p (moveUp n s) :=
  (takeOut_raises hp s n).bind fun _ => .ok _

theorem copyPairUp_raises (n : Nat) : Raises p (copyPairUp n s) :=
  (peek_raises hp s _).bind fun _ => (peek_raises hp s _).bind fun _ => .ok _

theorem movePairUp_raises (n : Nat) : Raises p (movePairUp n s) :=
  (need_raises hp s _).bind fun _ => (takeOut_raises hp s _).bind fun _ =>
    (takeOut_raises hp _ _).bind fun _ => .ok _

theorem Shuffle.run_raises (op : Shuffle) : Raises p (op.run limit s) := by
  cases op with
  | drop | drop2 | dup | dup2 | dup3 => exact (need_raises hp s _).bind fun _ => .ok _
  | copyOver => exact copyUp_raises hp s 1
  | copyOver2 => exact copyPairUp_raises hp s 2
  | rot | swap => exact moveUp_raises hp s _
  | rot2 | swap2 => exact movePairUp_raises hp s _
  | nip => exact (takeOut_raises hp s 1).bind fun _ => .ok _
  | tuck => exact (need_raises hp s 2).bind fun _ => (peek_raises hp s 0).bind fun _ => .ok _
  | pick => exact (popIndex_raises hp s limit).bind fun _ => copyUp_raises hp _ _
  | roll => exact (popIndex_raises hp s limit).bind fun _ => moveUp_raises hp _ _
  | ifDup => exact (peek_raises hp s 0).bind fun _ => .ok _
  | depth => exact .ok _

theorem Splice.run_raises (limits : Limits) (op : Splice) (hpad : op = .pad → p .capacityOverflow) :
    Raises p (op.run limits s) := by
  cases op with
  | cat =>
    exact (popValue_raises hp s).bind fun _ => (popValue_raises hp _).bind fun _ =>
      .ite (.error (hp _ trivial)) (.ok _)
  | split =>
    exact (popNumber_raises hp s _).bind fun _ => (popValue_raises hp _).bind fun _ =>
      .ite (.ok _) (.error (hp _ trivial))
  | pad =>
    exact (popCount_raises hp s _ fun _ => by trivial).bind fun _ => .ite (.error (hp _ trivial)) <|
      (popValue_raises hp _).bind fun _ => .ite (.error (hp _ trivial)) <|
        .ite (.error (hpad rfl)) (.ok _)
  | shorten => exact (popValue_raises hp s).bind fun _ => .ite (.error (hp _ trivial)) (.ok _)
  | size => exact (peek_raises hp s 0).bind fun _ => .ok _
  | invert | digest => exact (popValue_raises hp s).bind fun _ => .ok _
  | bitwise f =>
    exact (popValue_raises hp s).bind fun _ => (popValue_raises hp _).bind fun _ =>
      .ite (.ok _) (.error (hp _ trivial))
  | equal =>
    exact (popValue_raises hp s).bind fun _ => (popValue_raises hp _).bind fun _ => .ok _
  | shiftLeft | shiftRight =>
    exact (popCount_raises hp s _ fun _ => by trivial).bind fun _ =>
      (popValue_raises hp _).bind fun _ => .ok _

theorem Unary.run_raises (op : Unary) : Raises p (op.run limit s) :=
  (popNumber_raises hp s limit).bind fun _ => .ok _

theorem Binary.apply_raises (op : Binary) (a b : Int) : Raises p (op.apply a b) := by
  cases op with
  | div | mod => exact .ite (.error (hp _ trivial)) (.ok _)
  | _ => exact .ok _

theorem Binary.run_raises (op : Binary) : Raises p (op.run limit s) :=
  (popNumber_raises hp s limit).bind fun _ => (popNumber_raises hp _ limit).bind fun _ =>
    (op.apply_raises hp _ _).bind fun _ => .ok _

theorem runWithin_raises : Raises p (runWithin limit s) :=
  (popNumber_raises hp s limit).bind fun _ => (popNumber_raises hp _ limit).bind fun _ =>
    (popNumber_raises hp _ limit).bind fun _ => .ok _

theorem Instruction.runOnMain_raises (setting : Setting) (instr : Instruction)
    (hpad : instr = .splice .pad → p .capacityOverflow) : Raises p (instr.runOnMain setting s) := by
  cases instr with
  | constant n => exact .ok _
  | verify => exact verifyTop_raises hp s _
  | shuffle op => exact op.run_raises hp s _
  | splice op => exact op.run_raises hp s _ fun h => hpad (congrArg _ h)
  | equalVerify =>
    exact (Splice.run_raises hp s _ .equal nofun).bind fun _ => verifyTop_raises hp _ _
  | unary op => exact op.run_raises hp s _
  | binary op => exact op.run_raises hp s _
  | numEqualVerify =>
    exact (Binary.run_raises hp s _ .equal).bind fun _ => verifyTop_raises hp _ _
  | within => exact runWithin_raises hp s _
  | _ => exact .ok _

end Operands

/-! ### Moves -/

/-- If a move fails, it is with one of these faults. -/
def Move.Raises (p : Fault → Prop) (m : Move) : Prop :=
  ∀ fault calls, m = .stop (.failed fault calls) → p fault

namespace Move.Raises

variable {p : Fault → Prop} {m : Move} {f : State → Move} {s : State}

theorem next (s : State) : (next s).Raises p := nofun

theorem completed (s : State) : (stop (.completed s)).Raises p := nofun

theorem failed {fault : Fault} (h : p fault) (calls : List Call) :
    (stop (.failed fault calls)).Raises p := by
  rintro _ _ ⟨⟩
  exact h

theorem ofExcept {r : Except Fault State} (h : Machine.Raises p r) : (ofExcept s r).Raises p := by
  cases r with
  | ok t => exact next t
  | error fault => exact failed (h fault rfl) s.calls

theorem andThen (h : m.Raises p) (hf : ∀ t, (f t).Raises p) : (m.andThen f).Raises p := by
  cases m with
  | next t => exact hf t
  | stop e => exact h

theorem ite {c : Prop} [Decidable c] {m' : Move} (h : m.Raises p) (h' : m'.Raises p) :
    (if c then m else m').Raises p := by
  split_ifs
  · exact h
  · exact h'

end Move.Raises

section Moves

variable {p : Fault → Prop} (hp : ∀ fault, IsOrdinary fault → p fault) {setting : Setting}
  {script : List Chunk} {c : Chunk} {s : State}

include hp

theorem settleCheck_raises (rules : Rules) (signature : Bytes) (valid : Bool) (s : State) :
    (settleCheck rules signature valid s).Raises p :=
  .ite (.failed (hp _ (by trivial)) s.calls) (.next _)

theorem checkForms_raises (rules : Rules) (der : Bytes) (flag : UInt8) (key : Bytes) :
    Raises p (checkForms rules der flag key) := by
  have hordinary {fault : Fault} (h : IsOrdinary fault) : Raises p (.error fault : Except Fault Unit) :=
    .error (hp fault h)
  have htype : Raises p (checkType rules flag) :=
    .ite (.ok _) (.ite (hordinary trivial) (.ite (hordinary trivial) (.ite (hordinary trivial) (.ok _))))
  have hform : Raises p (checkForm rules der) := by
    unfold checkForm
    split_ifs
    · split
      · exact hordinary trivial
      · exact .ite (hordinary trivial) (.ok _)
    · exact .ok _
  have hkey : Raises p (checkKey rules key) := .ite (hordinary trivial) (.ok _)
  exact htype.bind fun _ => hform.bind fun _ => hkey

theorem runCheckSig_raises : (runCheckSig setting script s).Raises p := by
  unfold runCheckSig
  split
  · next fault hfails =>
    refine .failed (Raises.bind (popValue_raises hp s.main) (fun _ => ?_) fault hfails) _
    exact (popValue_raises hp _).bind fun _ => .ok _
  · split
    · exact settleCheck_raises hp _ _ _ _
    · split
      · next fault hfails => exact .failed (checkForms_raises hp _ _ _ _ fault hfails) _
      · split
        · exact .failed (hp _ (by trivial)) _
        · exact settleCheck_raises hp _ _ _ _

theorem Conditional.run_raises (op : Conditional) (rules : Rules) (s : State)
    (hbalance : ∀ how, p (.unbalanced how)) : Raises p (op.run rules s) := by
  cases op with
  | opening negated =>
    refine .ite ?_ (.ok _)
    exact (popCondition_raises hp _ _).bind fun _ => .ok _
  | turn =>
    simp only [run]
    split
    · exact .ite (.error (hbalance _)) (.ok _)
    · exact .error (hbalance _)
  | closing =>
    simp only [run]
    split
    · exact .ok _
    · exact .error (hbalance _)

/-- An instruction raises ordinary faults, unbalanced ones if it belongs to a conditional, and one for
want of room if it is `OP_NUM2BIN`. -/
theorem Instruction.run_raises (instr : Instruction) (op : Opcode)
    (hbalance : instr.isConditional → ∀ how, p (.unbalanced how))
    (hpad : instr = .splice .pad → p .capacityOverflow) :
    (instr.run setting script op s).Raises p := by
  cases instr with
  | conditional c => exact .ofExcept (c.run_raises hp _ s (hbalance rfl))
  | nop | codeSeparator => exact .next _
  | upgradableNop n => exact .ite (.failed (hp _ (by trivial)) _) (.next _)
  | ret => exact .ite (.failed (hp _ (by trivial)) _) (.ite (.completed _) (.next _))
  | toAlt => exact .ofExcept ((popSlot_raises hp _).bind fun _ => .ok _)
  | fromAlt =>
    refine .ofExcept ?_
    unfold moveFromAlt
    split
    · exact .ok _
    · exact .error (hp _ (by trivial))
  | checkSig => exact runCheckSig_raises hp
  | checkSigVerify =>
    exact (runCheckSig_raises hp).andThen fun _ => .ofExcept (verifyTop_raises hp _ _).map
  | disabled | reservedConditional | reserved | unsupported | invalid =>
    exact .failed (hp _ (by trivial)) _
  | _ =>
    simp only [run]
    exact .ofExcept (runOnMain_raises hp _ setting _ hpad).map

/-! ### Steps -/

theorem barred?_raises {executing : Bool} {operations : Nat} {fault : Fault}
    (h : barred? setting c executing operations = some fault) : p fault := by
  unfold barred? at h
  split_ifs at h <;> cases h <;> exact hp _ (by trivial)

theorem settle_raises (setting : Setting) (s : State) : (settle setting s).Raises p :=
  .ite (.failed (hp _ (by trivial)) _) (.next _)

theorem perform_raises
    (hbalance : (Instruction.ofOpcode c.op).isConditional → ∀ how, p (.unbalanced how))
    (hpad : s.isExecuting → Instruction.ofOpcode c.op = .splice .pad → p .capacityOverflow) :
    (perform setting script c s).Raises p := by
  simp only [perform]
  split_ifs with hpassed
  · exact .next _
  · cases c.data with
    | some data => exact .next _
    | none =>
      -- What is run although nothing is executed belongs to a conditional.
      have hexecuting (hop : Instruction.ofOpcode c.op = .splice .pad) : s.isExecuting := by
        simpa [hop, Instruction.isConditional] using hpassed
      exact Instruction.run_raises hp _ c.op hbalance fun hop => hpad (hexecuting hop) hop

end Moves

/-! ### Both scripts -/

variable {p : Fault → Prop} (hp : ∀ fault, IsOrdinary fault → p fault)

include hp

theorem refusal?_raises {setting : Setting} {unlocking locking : Script} {fault : Fault}
    (h : refusal? setting unlocking locking = some fault) : p fault := by
  have htruncated {script : Script} (h : truncated? script = some fault) : p fault := by
    obtain ⟨c, -, rfl⟩ := Option.map_eq_some_iff.mp h
    exact hp _ trivial
  simp only [refusal?] at h
  split_ifs at h
  iterate 4
    · cases h
      exact hp _ trivial
  · rcases Option.or_eq_some_iff.mp h with h | ⟨-, h⟩
    · exact htruncated h
    · exact htruncated h

theorem judge_raises (rules : Rules) (s : Stack) : Raises p (judge rules s) := by
  unfold judge
  split
  · exact .error (hp _ trivial)
  · exact .ite (.error (hp _ trivial)) (.ite (.ok _) (.error (hp _ trivial)))

end Utxo.Machine
