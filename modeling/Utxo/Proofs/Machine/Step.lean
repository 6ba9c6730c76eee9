/-
What a step can do.

A chunk is barred from being evaluated by the rules on its size, its opcode and the number of
operations (`barred?`); if it is not, it is counted and performed, and the stacks are looked at.
Only an `OP_RETURN` ends a script before its last chunk.

* **`step_eq_next_iff`** — a step leads to a new state just if the chunk is not barred, leads there
  when it is performed, and leaves the stacks within their limit;
* **`step_eq_completed_iff`** — a step ends the script just if it is an executed `OP_RETURN` outside
  of all conditionals after the Genesis upgrade;
* **`runCheckSig_cases`** — a signature check fails, or settles whether the two top values are valid;
* **`Instruction.standsAt_ofOpcode`** — small numbers, upgradable opcodes and conditionals stand
  together, in their order;
* **`runChunks_cons_eq_completed_iff`** — a script is completed one step after the other.
-/
import Utxo.Machine.Run
import Mathlib.Tactic.SplitIfs

namespace Utxo.Machine

/-! ### Admission -/

/-- The number of operations that a chunk counts for. -/
def cost (c : Chunk) : Nat := if Opcode.sixteen < c.op then 1 else 0

/-- The first rule that bars a chunk, if it makes this number of operations. -/
def barred? (setting : Setting) (c : Chunk) (executing : Bool) (operations : Nat) : Option Fault :=
  if setting.limits.elementSize < c.dataLength then
    some (.pushTooBig c.dataLength setting.limits.elementSize)
  else if Instruction.ofOpcode c.op = .disabled && (!setting.rules.afterGenesis || executing) then
    some (.disabledOpcode c.op)
  else if Instruction.ofOpcode c.op = .reservedConditional && !setting.rules.afterGenesis then
    some (.reservedOpcode c.op)
  else if setting.limits.operations < operations then
    some (.tooManyOperations setting.limits.operations)
  else none

/-- The state with a chunk counted. -/
def State.count (s : State) (c : Chunk) : State := { s with operations := s.operations + cost c }

variable {setting : Setting} {script : List Chunk} {c : Chunk} {s t : State}

theorem State.count_eq (s : State) (c : Chunk) :
    { s with operations := if Opcode.sixteen < c.op then s.operations + 1 else s.operations } =
      s.count c := by
  simp only [count, cost]
  split_ifs <;> rfl

theorem enter_eq (setting : Setting) (c : Chunk) (s : State) :
    enter setting c s =
      match barred? setting c s.isExecuting (s.count c).operations with
      | some fault => .error fault
      | none => .ok (s.count c) := by
  -- The rules in order; past the last one the chunk is counted.
  rw [← State.count_eq]
  simp only [enter, barred?]
  by_cases hsize : setting.limits.elementSize < c.dataLength
  · rw [if_pos hsize, if_pos hsize]
    rfl
  rw [if_neg hsize, if_neg hsize]
  split
  · rfl
  split
  · rfl
  by_cases hcount :
      setting.limits.operations <
        (if Opcode.sixteen < c.op then s.operations + 1 else s.operations)
  · rw [if_pos hcount, if_pos hcount]
    rfl
  · rw [if_neg hcount, if_neg hcount]
    rfl

theorem enter_eq_ok_iff :
    enter setting c s = .ok t ↔
      barred? setting c s.isExecuting (s.count c).operations = none ∧ s.count c = t := by
  rw [enter_eq]
  cases barred? setting c s.isExecuting (s.count c).operations with
  | some fault => simp
  | none => simp

/-! ### Moves -/

namespace Move

variable {m : Move} {f : State → Move} {e : Ending} {r : Except Fault State}

theorem ofExcept_eq_next_iff : ofExcept s r = next t ↔ r = .ok t := by
  cases r <;> simp [ofExcept]

theorem ofExcept_ne_completed : ofExcept s r ≠ stop (.completed t) := by
  cases r <;> simp [ofExcept]

theorem andThen_eq_next_iff : m.andThen f = next t ↔ ∃ u, m = next u ∧ f u = next t := by
  cases m <;> simp [andThen]

theorem andThen_eq_stop_iff :
    m.andThen f = stop e ↔ m = stop e ∨ ∃ u, m = next u ∧ f u = stop e := by
  cases m <;> simp [andThen]

end Move

/-! ### What ends a script early -/

theorem settleCheck_ne_completed (rules : Rules) (signature : Bytes) (valid : Bool) :
    settleCheck rules signature valid s ≠ .stop (.completed t) := by
  unfold settleCheck
  split_ifs <;> simp

/-- The two values that a check takes. -/
theorem popTwo_eq_ok_iff {s : Stack} {key signature : Bytes} {main : Stack} :
    (do
      let (key, main) ← popValue s
      let (signature, main) ← popValue main
      return (key, signature, main) : Except Fault (Bytes × Bytes × Stack)) =
        .ok (key, signature, main) ↔
      ∃ n m, s = ⟨key :: signature :: main.values, n :: m :: main.names⟩ := by
  obtain ⟨values, names⟩ := s
  match values, names with
  | [], _ => simp [popValue, popSlot, Stack.pop?, bind, Except.bind]
  | _ :: _, [] => simp [popValue, popSlot, Stack.pop?, bind, Except.bind]
  | [_], _ :: _ => simp [popValue, popSlot, Stack.pop?, bind, Except.bind, pure, Except.pure]
  | _ :: _ :: _, [_] => simp [popValue, popSlot, Stack.pop?, bind, Except.bind, pure, Except.pure]
  | k :: sig :: vs, n :: m :: ns =>
    obtain ⟨mv, mn⟩ := main
    simp [popValue, popSlot, Stack.pop?, bind, Except.bind, pure, Except.pure, and_assoc]

/-- A signature check fails, or takes the two top values and settles whether the signature is valid.
-/
theorem runCheckSig_cases (setting : Setting) (script : List Chunk) (s : State) :
    (∃ fault calls, runCheckSig setting script s = .stop (.failed fault calls)) ∨
      ∃ key signature main n m valid calls,
        s.main = ⟨key :: signature :: main.values, n :: m :: main.names⟩ ∧
          runCheckSig setting script s =
            settleCheck setting.rules signature valid { s with main, calls } := by
  unfold runCheckSig
  split
  · exact .inl ⟨_, _, rfl⟩
  · next key signature main hpop =>
    obtain ⟨n, m, hmain⟩ := popTwo_eq_ok_iff.mp hpop
    split
    · exact .inr ⟨key, signature, main, n, m, _, _, hmain, rfl⟩
    · split
      · exact .inl ⟨_, _, rfl⟩
      · split
        · exact .inl ⟨_, _, rfl⟩
        · exact .inr ⟨key, signature, main, n, m, _, _, hmain, rfl⟩

theorem runCheckSig_ne_completed : runCheckSig setting script s ≠ .stop (.completed t) := by
  obtain ⟨fault, calls, h⟩ | ⟨_, signature, _, _, _, valid, _, -, h⟩ :=
    runCheckSig_cases setting script s
  · simp [h]
  · rw [h]
    exact settleCheck_ne_completed _ signature valid

/-- Only an `OP_RETURN` ends a script before its last chunk. -/
theorem run_eq_completed_iff {op : Opcode} {instr : Instruction} :
    instr.run setting script op s = .stop (.completed t) ↔
      instr = .ret ∧ setting.rules.afterGenesis ∧ s.branches = [] ∧ s = t := by
  cases instr with
  | ret =>
    simp only [Instruction.run, Instruction.runReturn]
    split_ifs with hrule hopen <;> simp_all
  | upgradableNop n =>
    simp only [Instruction.run]
    split_ifs <;> simp
  | checkSig =>
    simp [Instruction.run, runCheckSig_ne_completed]
  | checkSigVerify =>
    simp [Instruction.run, Move.andThen_eq_stop_iff, runCheckSig_ne_completed,
      Move.ofExcept_ne_completed]
  | _ => simp [Instruction.run, Move.ofExcept_ne_completed]

theorem settle_eq_next_iff :
    settle setting s = .next t ↔
      s.depth ≤ setting.limits.stackDepth ∧ { s with offset := s.offset + 1 } = t := by
  unfold settle
  split_ifs with h
  · simp [Nat.not_le_of_lt h]
  · simp [Nat.le_of_not_lt h]

theorem settle_ne_completed : settle setting s ≠ .stop (.completed t) := by
  unfold settle
  split_ifs <;> simp

/-! ### Steps -/

theorem perform_eq_completed_iff :
    perform setting script c s = .stop (.completed t) ↔
      (s.isExecuting ∧ c.data = none ∧ Instruction.ofOpcode c.op = .ret) ∧
        setting.rules.afterGenesis ∧ s.branches = [] ∧ s = t := by
  simp only [perform]
  -- A chunk in a branch that is not taken ends nothing.
  split_ifs with hpassed
  · simp only [false_iff]
    rintro ⟨⟨hexecuting, -, hret⟩, -⟩
    rw [hexecuting] at hpassed
    cases hpassed
  · cases hdata : c.data with
    | some data => simp
    | none =>
      simp only [run_eq_completed_iff]
      constructor
      · rintro ⟨hret, h⟩
        rw [hret] at hpassed
        exact ⟨⟨by simpa [Instruction.isConditional] using hpassed, trivial, hret⟩, h⟩
      · rintro ⟨⟨-, -, hret⟩, h⟩
        exact ⟨hret, h⟩

/-- A step leads to a new state just if the chunk is not barred, leads there when it is performed,
and leaves the stacks within their limit. -/
theorem step_eq_next_iff :
    step setting script c s = .next t ↔
      barred? setting c s.isExecuting (s.count c).operations = none ∧
        ∃ u, perform setting script c (s.count c) = .next u ∧
          u.depth ≤ setting.limits.stackDepth ∧ { u with offset := u.offset + 1 } = t := by
  simp only [step, Move.andThen_eq_next_iff, Move.ofExcept_eq_next_iff, enter_eq_ok_iff,
    settle_eq_next_iff]
  constructor
  · rintro ⟨_, ⟨hbar, rfl⟩, h⟩
    exact ⟨hbar, h⟩
  · rintro ⟨hbar, h⟩
    exact ⟨_, ⟨hbar, rfl⟩, h⟩

/-- A step ends the script just if it is an executed `OP_RETURN` outside of all conditionals after
the Genesis upgrade. -/
theorem step_eq_completed_iff :
    step setting script c s = .stop (.completed t) ↔
      barred? setting c s.isExecuting (s.count c).operations = none ∧
        (s.isExecuting ∧ c.data = none ∧ Instruction.ofOpcode c.op = .ret) ∧
          setting.rules.afterGenesis ∧ s.branches = [] ∧ s.count c = t := by
  simp only [step, Move.andThen_eq_stop_iff, Move.ofExcept_eq_next_iff, enter_eq_ok_iff,
    Move.ofExcept_ne_completed, settle_ne_completed, and_false, exists_false, or_false, false_or,
    perform_eq_completed_iff]
  constructor
  · rintro ⟨_, ⟨hbar, rfl⟩, h⟩
    exact ⟨hbar, h⟩
  · rintro ⟨hbar, h⟩
    exact ⟨_, ⟨hbar, rfl⟩, h⟩

/-! ### Executed chunks -/

/-- Whether an instruction changes the main stack and nothing else. -/
def Instruction.actsOnMain : Instruction → Bool
  | constant _ | verify | shuffle _ | splice _ | equalVerify | unary _ | binary _ | numEqualVerify
  | within => true
  | _ => false

theorem Instruction.ne_of_actsOnMain {a b : Instruction} (ha : a.actsOnMain)
    (hb : b.actsOnMain = false) : a ≠ b := by
  rintro rfl
  rw [ha] at hb
  cases hb

theorem Instruction.run_of_actsOnMain {instr : Instruction} (h : instr.actsOnMain) (op : Opcode) :
    instr.run setting script op s =
      .ofExcept s ((instr.runOnMain setting s.main).map fun main => { s with main }) := by
  cases instr <;> first | rfl | cases h

/-- The state behind a chunk that leaves this main stack. -/
def State.pass (s : State) (c : Chunk) (main : Stack) : State :=
  { s.count c with main, offset := s.offset + 1 }

theorem barred?_eq_none_iff {executing : Bool} {operations : Nat}
    (hdisabled : Instruction.ofOpcode c.op ≠ .disabled)
    (hreserved : Instruction.ofOpcode c.op ≠ .reservedConditional) :
    barred? setting c executing operations = none ↔
      c.dataLength ≤ setting.limits.elementSize ∧ operations ≤ setting.limits.operations := by
  simp only [barred?, hdisabled, hreserved, decide_false, Bool.false_and, Bool.false_eq_true,
    if_false]
  split_ifs <;> simp <;> omega

theorem perform_of_isExecuting (hs : s.isExecuting) :
    perform setting script c s =
      match c.data with
      | some data => .next { s with main := s.main.push data }
      | none => (Instruction.ofOpcode c.op).run setting script c.op s := by
  have hpassed : ¬(!s.isExecuting && !(Instruction.ofOpcode c.op).isConditional) := by simp [hs]
  exact if_neg hpassed

/-- An executed opcode on the main stack alone makes of it what its instruction does. -/
theorem perform_of_actsOnMain {op : Opcode} (hop : (Instruction.ofOpcode op).actsOnMain)
    (hs : s.isExecuting) :
    perform setting script (.ofOpcode op) s =
      .ofExcept s (((Instruction.ofOpcode op).runOnMain setting s.main).map
        fun main => { s with main }) :=
  (perform_of_isExecuting hs).trans (Instruction.run_of_actsOnMain hop op)

/-- There are few opcodes, so what can be decided of each of them is decided of all. -/
theorem forall_opcode {p : Opcode → Prop} (h : ∀ n : Fin 256, p (UInt8.ofNat n)) : ∀ op, p op := by
  intro op
  simpa using h ⟨op.toNat, op.toNat_lt⟩

theorem Instruction.ofOpcode_of_isPush {op : Opcode} (h : op.isPush) : ofOpcode op = .invalid := by
  have hall : ∀ op : Opcode, op.isPush → ofOpcode op = .invalid := forall_opcode (by decide +kernel)
  exact hall op h

/-- Where the opcode of an instruction stands: a small number is its distance from the opcode before
`one`, an upgradable one its distance from the opcode before the first of them, and the opcodes of
conditionals stand together with the two reserved ones. -/
def Instruction.standsAt (op : Opcode) : Instruction → Bool
  | constant n =>
    op = Opcode.negativeOne && n = -1 ||
      Opcode.one ≤ op && op ≤ Opcode.sixteen && n = op.toNat - 0x50
  | upgradableNop n => 0xb0 ≤ op && n = op.toNat - 0xaf
  | conditional _ | reservedConditional => op.isConditional
  | _ => true

theorem Instruction.standsAt_ofOpcode : ∀ op : Opcode, (ofOpcode op).standsAt op :=
  forall_opcode (by decide +kernel)

/-- An executed push puts its bytes on the main stack. -/
theorem step_push_eq_next_iff {data : Bytes} (hs : s.isExecuting) (hop : c.op.isPush)
    (hdata : c.data = some data) :
    step setting script c s = .next t ↔
      data.length ≤ setting.limits.elementSize ∧
        (s.count c).operations ≤ setting.limits.operations ∧
        s.depth < setting.limits.stackDepth ∧ s.pass c (s.main.push data) = t := by
  have hinvalid := Instruction.ofOpcode_of_isPush hop
  have hdepth : State.depth { s.count c with main := s.main.push data } = s.depth + 1 := by
    simp [State.depth, State.count, Stack.depth, Stack.push, Stack.pushSlot]
    omega
  have hperform : perform setting script c (s.count c) =
      .next { s.count c with main := s.main.push data } := by
    rw [perform_of_isExecuting (by exact hs), hdata]
    rfl
  rw [step_eq_next_iff, barred?_eq_none_iff (by simp [hinvalid]) (by simp [hinvalid]), hperform,
    Chunk.dataLength, hdata]
  constructor
  · rintro ⟨⟨hsize, hcount⟩, _, ⟨⟩, hle, rfl⟩
    exact ⟨hsize, hcount, by omega, rfl⟩
  · rintro ⟨hsize, hcount, hlt, rfl⟩
    exact ⟨⟨hsize, hcount⟩, _, rfl, by omega, rfl⟩

/-- An executed opcode on the main stack alone leaves what it makes of it. -/
theorem step_opcode_eq_next_iff {op : Opcode} (hs : s.isExecuting)
    (hop : (Instruction.ofOpcode op).actsOnMain) :
    step setting script (.ofOpcode op) s = .next t ↔
      (s.count (.ofOpcode op)).operations ≤ setting.limits.operations ∧
        ∃ main, (Instruction.ofOpcode op).runOnMain setting s.main = .ok main ∧
          main.depth + s.alt.depth ≤ setting.limits.stackDepth ∧
          s.pass (.ofOpcode op) main = t := by
  have hperform : perform setting script (.ofOpcode op) (s.count (.ofOpcode op)) =
      .ofExcept (s.count (.ofOpcode op)) (((Instruction.ofOpcode op).runOnMain setting s.main).map
        fun main => { s.count (.ofOpcode op) with main }) :=
    perform_of_actsOnMain hop (by exact hs)
  rw [step_eq_next_iff, barred?_eq_none_iff (Instruction.ne_of_actsOnMain hop rfl)
    (Instruction.ne_of_actsOnMain hop rfl), hperform]
  cases (Instruction.ofOpcode op).runOnMain setting s.main with
  | error fault => simp [Except.map, Move.ofExcept]
  | ok main =>
    constructor
    · rintro ⟨⟨-, hcount⟩, _, ⟨⟩, hle, rfl⟩
      exact ⟨hcount, main, rfl, hle, rfl⟩
    · rintro ⟨hcount, _, ⟨⟩, hle, rfl⟩
      exact ⟨⟨Nat.zero_le _, hcount⟩, _, rfl, hle, rfl⟩

/-! ### Scripts -/

variable {role : Role} {ahead : List Chunk}

theorem atEnd_eq_completed_iff : atEnd s = .completed t ↔ s.branches = [] ∧ s = t := by
  unfold atEnd
  split_ifs with h <;> simp_all

/-- A script is completed one step after the other. -/
theorem runChunks_cons_eq_completed_iff :
    (runChunks setting role script (c :: ahead) s).2 = .completed t ↔
      step setting script c s = .stop (.completed t) ∨
        ∃ u, step setting script c s = .next u ∧
          (runChunks setting role script ahead u).2 = .completed t := by
  rw [runChunks]
  cases step setting script c s <;> simp

/-- Without an `OP_RETURN`, a script is completed behind its last chunk. -/
theorem runChunks_cons_eq_completed_iff_of_ne_ret (h : Instruction.ofOpcode c.op ≠ .ret) :
    (runChunks setting role script (c :: ahead) s).2 = .completed t ↔
      ∃ u, step setting script c s = .next u ∧
        (runChunks setting role script ahead u).2 = .completed t := by
  simp [runChunks_cons_eq_completed_iff, step_eq_completed_iff, h]

end Utxo.Machine
