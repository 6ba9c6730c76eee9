/-
Evaluations under guard.

A guarded evaluation fetches each chunk by its offset, compares the columns of a stack whenever one has
changed, takes the two records of open conditionals apart together, and computes every difference of
positions and counts with care.  It never breaches: stacks are aligned and the records equally long
wherever it gets to.

* **`step_run`** — in a state whose columns and records are equally long, a guarded step does what the
  step does;
* **`evaluate_eq`** — a guarded evaluation is the evaluation, without a breach.
-/
import Utxo.Proofs.Machine.Flow
import Utxo.Proofs.Machine.Guarded.Opcode
import Utxo.Proofs.Machine.Place

namespace Utxo.Machine

/-- Both stacks are aligned, and there is a record of `OP_ELSE` for each open conditional. -/
structure State.IsWhole (s : State) : Prop where
  main : s.main.IsAligned
  alt : s.alt.IsAligned
  elses : s.elses.length = s.branches.length

namespace Guarded

/-! ### Moves -/

/-- The move to a new state, or the end with a fault. -/
def ofGuarded (s : State) (g : Guarded State) : Except Breach Move := g.run.map (.ofExcept s)

/-- A move and then another. -/
def andThen (m : Except Breach Move) (f : State → Except Breach Move) : Except Breach Move :=
  m >>= fun
    | .next s => f s
    | .stop e => .ok (.stop e)

/-- The guarded move is this one without a breach, and leads to a state with a property. -/
structure Follows (p : State → Prop) (g : Except Breach Move) (m : Move) : Prop where
  eq : g = .ok m
  leads : m.Leads p

namespace Follows

variable {p : State → Prop} {g : Except Breach Move} {m : Move} {s : State}

theorem ok (h : m.Leads p) : Follows p (.ok m) m := ⟨rfl, h⟩

theorem ofGuarded {g : Guarded State} {r : Except Fault State} (h : Faithful p g r) :
    Follows p (ofGuarded s g) (.ofExcept s r) := by
  refine ⟨?_, .ofExcept s h.ensures⟩
  rw [Guarded.ofGuarded, h.run_eq]
  rfl

theorem andThen {f : State → Except Breach Move} {f' : State → Move} (h : Follows p g m)
    (hf : ∀ t, p t → Follows p (f t) (f' t)) : Follows p (andThen g f) (m.andThen f') := by
  refine ⟨?_, h.leads.andThen (fun t ht => (hf t ht).leads) fun _ ht => ht⟩
  rw [h.eq]
  cases m with
  | next t => exact (hf t h.leads).eq
  | stop e => rfl

end Follows

/-! ### Instructions -/

/-- Pushes a constant.  A small number is a byte, counted from the opcode before `OP_1`. -/
def constant (op : Opcode) (n : Int) (s : Stack) : Guarded Stack :=
  if op = Opcode.negativeOne then push s (Number.encode n)
  else do
    let byte ← minus op.toNat 0x50
    push s [UInt8.ofNat byte]

/-- What an instruction on the main stack alone makes of it. -/
def runOnMain (setting : Setting) (op : Opcode) (instr : Instruction) (s : Stack) : Guarded Stack :=
  let limit := setting.limits.numberLength
  match instr with
  | .constant n => constant op n s
  | .verify => verifyTop .plain s
  | .shuffle op => shuffle limit op s
  | .splice op => spliceOp setting.limits op s
  | .equalVerify => do
    let s ← spliceOp setting.limits .equal s
    verifyTop .equal s
  | .unary op => unary limit op s
  | .binary op => binary limit op s
  | .numEqualVerify => do
    let s ← binary limit .equal s
    verifyTop .numEqual s
  | .within => within limit s
  | _ => return s

/-- What a conditional opcode makes of the state. -/
def conditional (rules : Rules) (op : Conditional) (s : State) : Guarded State :=
  match op with
  | .opening negated =>
    if s.isExecuting then do
      let (holds, main) ← popCondition rules s.main
      return { s with main }.openBranch (if holds ≠ negated then .taken else .passed)
    else return s.openBranch .skipped
  | .turn =>
    match s.branches, s.elses with
    | b :: branches, seen :: elses =>
      if seen && rules.afterGenesis then throw (.unbalanced .secondElse)
      else return { s with branches := b.flip :: branches, elses := true :: elses }
    | [], [] => throw (.unbalanced .strayElse)
    | _, _ => breach .lopsided
  | .closing =>
    match s.branches with
    | _ :: branches => return { s with branches, elses := s.elses.tail }
    | [] => throw (.unbalanced .strayEndIf)

/-- The state with the top slot moved to the alt stack. -/
def moveToAlt (s : State) : Guarded State := do
  let (slot, main) ← popSlot s.main
  let alt ← pushSlot s.alt slot
  return { s with main, alt }

/-- The state with the top slot of the alt stack moved back. -/
def moveFromAlt (s : State) : Guarded State := do
  match ← pop? s.alt with
  | some (slot, alt) => do
    let main ← pushSlot s.main slot
    return { s with main, alt }
  | none => throw .emptyAltStack

/-- Pushes whether a signature is valid. -/
def settleCheck (rules : Rules) (signature : Bytes) (valid : Bool) (s : State) :
    Except Breach Move :=
  if !valid && !signature.isEmpty && rules.nullFail then
    .ok (.stop (.failed .signatureNotEmpty s.calls))
  else
    ofGuarded s do
      let main ← push s.main (Number.ofBool valid)
      return { s with main }

/-- The key and the signature on top of the stack. -/
def popTwo (s : Stack) : Guarded (Bytes × Bytes × Stack) := do
  let (key, s) ← popValue s
  let (signature, s) ← popValue s
  return (key, signature, s)

/-- Checks the signature and public key on top of the stack and pushes whether it is valid. -/
def checkSig (setting : Setting) (script : List Chunk) (s : State) : Except Breach Move := do
  match ← (popTwo s.main).run with
  | .error fault => .ok (.stop (.failed fault s.calls))
  | .ok (key, signature, main) =>
    let s := { s with main }
    match signature.getLast? with
    | none => settleCheck setting.rules signature false s
    | some flag =>
      match checkForms setting.rules signature.dropLast flag key with
      | .error fault => .ok (.stop (.failed fault s.calls))
      | .ok () =>
        match setting.checker with
        | none => .ok (.stop (.failed .noChecker s.calls))
        | some checker =>
          let call : Call :=
            ⟨signature, key, scriptCode script s.codeStart signature flag, setting.inputIndex, flag⟩
          settleCheck setting.rules signature (askChecker checker call s)
            { s with calls := s.calls ++ [call] }

/-- An opcode kept for a later upgrade, whose number is counted from the opcode before the first of
them. -/
def upgradableNop (rules : Rules) (op : Opcode) (s : State) : Guarded State :=
  if rules.discourageUpgradableNops then do
    let n ← minus op.toNat 0xaf
    throw (.discouragedNop n)
  else return s

/-- What an instruction does. -/
def instruction (setting : Setting) (script : List Chunk) (op : Opcode) (instr : Instruction)
    (s : State) : Except Breach Move :=
  match instr with
  | .upgradableNop _ => ofGuarded s (upgradableNop setting.rules op s)
  | .conditional c => ofGuarded s (conditional setting.rules c s)
  | .toAlt => ofGuarded s (moveToAlt s)
  | .fromAlt => ofGuarded s (moveFromAlt s)
  | .checkSig => checkSig setting script s
  | .checkSigVerify =>
    andThen (checkSig setting script s) fun s =>
      ofGuarded s do
        let main ← verifyTop .checkSig s.main
        return { s with main }
  | .nop | .ret | .codeSeparator | .disabled | .reservedConditional | .reserved | .unsupported
  | .invalid => .ok (instr.run setting script op s)
  | instr =>
    ofGuarded s do
      let main ← runOnMain setting op instr s.main
      return { s with main }

/-! ### Evaluations -/

/-- What an admitted chunk does. -/
def perform (setting : Setting) (script : List Chunk) (c : Chunk) (s : State) :
    Except Breach Move :=
  let instr := Instruction.ofOpcode c.op
  if !s.isExecuting && !instr.isConditional then .ok (.next s)
  else match c.data with
    | some data =>
      ofGuarded s do
        let main ← push s.main data
        return { s with main }
    | none => instruction setting script c.op instr s

/-- The chunk at the offset of a state, and what it leads to. -/
def step (setting : Setting) (script : List Chunk) (s : State) : Except Breach (Chunk × Move) :=
  match script[s.offset]? with
  | none => .error .outOfRange
  | some c => do
    let m ← andThen (.ok (.ofExcept s (enter setting c s))) fun s =>
      andThen (perform setting script c s) fun s => .ok (settle setting s)
    return (c, m)

/-- Evaluates the `n` last chunks of a script, and notes each of them. -/
def runChunks (setting : Setting) (role : Role) (script : List Chunk) :
    Nat → State → Except Breach (List Step × Ending)
  | 0, s => .ok ([], atEnd s)
  | n + 1, s => do
    let (c, m) ← step setting script s
    match m with
    | .next t => do
      let (steps, ending) ← runChunks setting role script n t
      return (⟨role, c, s⟩ :: steps, ending)
    | .stop ending => return ([⟨role, c, s⟩], ending)

/-- What the stack left by both scripts says. -/
def judge (rules : Rules) (s : Stack) : Guarded Unit :=
  if s.isEmpty then throw .emptyStack
  else if rules.cleanStack && s.depth ≠ 1 then do
    let extra ← minus s.depth 1
    throw (.uncleanStack extra)
  else do
    let (holds, _) ← popTruth s
    if holds then return () else throw .falseResult

/-- Evaluates an unlocking and a locking script. -/
def evaluate (setting : Setting) (unlocking locking : Script) : Except Breach Run :=
  match refusal? setting unlocking locking with
  | some fault => .ok ⟨.error fault, [], []⟩
  | none => do
    match ← runChunks setting .unlocking unlocking.chunks unlocking.chunks.length .initial with
    | (steps, .failed fault calls) => return ⟨.error fault, steps, calls⟩
    | (steps, .completed s) =>
      match ← runChunks setting .locking locking.chunks locking.chunks.length s.handOver with
      | (more, .failed fault calls) => return ⟨.error fault, steps ++ more, calls⟩
      | (more, .completed s) => do
        let result ← (judge setting.rules s.main).run
        return ⟨result, steps ++ more, s.calls⟩

/-! ### Without a breach -/

section Instructions

variable {setting : Setting} {script : List Chunk} {op : Opcode} {s : State}

theorem encode_small (k : Nat) (h : 1 ≤ k ∧ k ≤ 16) : Number.encode k = [UInt8.ofNat k] := by
  have hall : ∀ k : Fin 17, 1 ≤ k.val → Number.encode (k.val : Int) = [UInt8.ofNat k] := by decide
  exact hall ⟨k, by omega⟩ h.1

theorem constant_faithful {n : Int} {s : Stack} (hop : Instruction.ofOpcode op = .constant n)
    (h : s.IsAligned) :
    Faithful Stack.IsAligned (constant op n s) (.ok (s.push (Number.encode n))) := by
  have hstands := Instruction.standsAt_ofOpcode op
  simp only [hop, Instruction.standsAt, Bool.or_eq_true, Bool.and_eq_true, decide_eq_true_eq]
    at hstands
  unfold constant
  split_ifs with hnegative
  · exact push_faithful h _
  · obtain ⟨⟨hone, hsixteen⟩, rfl⟩ := hstands.resolve_left fun h => hnegative h.1
    have hlow : 0x51 ≤ op.toNat := UInt8.le_iff_toNat_le.mp hone
    have hhigh : op.toNat ≤ 0x60 := UInt8.le_iff_toNat_le.mp hsixteen
    have hencode : Number.encode ((op.toNat : Int) - 0x50) = [UInt8.ofNat (op.toNat - 0x50)] := by
      rw [← encode_small _ (by omega)]
      congr 1
      omega
    have hpush := push_faithful h (Number.encode ((op.toNat : Int) - 0x50))
    rw [hencode] at hpush ⊢
    exact .of_run (minus_run (by omega)) hpush

theorem runOnMain_faithful {instr : Instruction} {s : Stack}
    (hop : Instruction.ofOpcode op = instr) (h : s.IsAligned) :
    Faithful Stack.IsAligned (runOnMain setting op instr s) (instr.runOnMain setting s) := by
  cases instr with
  | constant n => exact constant_faithful hop h
  | verify => exact verifyTop_faithful _ h
  | shuffle op => exact shuffle_faithful _ op h
  | splice op => exact spliceOp_faithful _ op h
  | equalVerify =>
    exact (spliceOp_faithful _ .equal h).bind fun _ h => verifyTop_faithful _ h
  | unary op => exact unary_faithful _ op h
  | binary op => exact binary_faithful _ op h
  | numEqualVerify =>
    exact (binary_faithful _ .equal h).bind fun _ h => verifyTop_faithful _ h
  | within => exact within_faithful _ h
  | _ => exact .ok h

theorem conditional_faithful (rules : Rules) (op : Conditional) (h : s.IsWhole) :
    Faithful State.IsWhole (conditional rules op s) (op.run rules s) := by
  cases op with
  | opening negated =>
    have hopen (main : Stack) (b : Branch) (hmain : main.IsAligned) :
        ({ s with main }.openBranch b).IsWhole := ⟨hmain, h.alt, congrArg (· + 1) h.elses⟩
    refine .ite (fun _ => ?_) fun _ => .ok (hopen s.main _ h.main)
    exact (popCondition_faithful rules h.main).bind fun r hr => .ok (hopen r.2 _ hr)
  | turn =>
    have helses := h.elses
    simp only [conditional, Conditional.run]
    -- The two records are empty together.
    cases hbranches : s.branches with
    | nil =>
      cases hseen : s.elses with
      | nil => exact .error _
      | cons seen elses => simp [hbranches, hseen] at helses
    | cons b branches =>
      cases hseen : s.elses with
      | nil => simp [hbranches, hseen] at helses
      | cons seen elses =>
        rw [hbranches, hseen] at helses
        exact .ite (fun _ => .error _) fun _ => .ok ⟨h.main, h.alt, helses⟩
  | closing =>
    have helses := h.elses
    simp only [conditional, Conditional.run]
    cases hbranches : s.branches with
    | nil => exact .error _
    | cons b branches =>
      rw [hbranches] at helses
      exact .ok ⟨h.main, h.alt, by simp [helses]⟩

theorem moveToAlt_faithful (h : s.IsWhole) :
    Faithful State.IsWhole (moveToAlt s) (Instruction.moveToAlt s) :=
  (popSlot_faithful h.main).bind fun r hmain =>
    (pushSlot_faithful h.alt r.1).bind_ok fun halt => .ok ⟨hmain, halt, h.elses⟩

theorem moveFromAlt_faithful (h : s.IsWhole) :
    Faithful State.IsWhole (moveFromAlt s) (Instruction.moveFromAlt s) := by
  rw [moveFromAlt, Instruction.moveFromAlt]
  cases hpop : s.alt.pop? with
  | none =>
    have hrun := pop?_run h.alt
    rw [hpop] at hrun
    exact .of_run hrun (.error _)
  | some r =>
    have hrun := pop?_run h.alt
    rw [hpop] at hrun
    refine .of_run hrun ?_
    exact (pushSlot_faithful h.main r.1).bind_ok fun hmain => .ok ⟨hmain, h.alt.of_pop? hpop, h.elses⟩

/-- What acts on the main stack alone leaves the rest as it is. -/
theorem main_follows {g : Guarded Stack} {r : Except Fault Stack} (h : s.IsWhole)
    (hg : Faithful Stack.IsAligned g r) :
    Follows State.IsWhole (ofGuarded s (g >>= fun main => pure { s with main }))
      (.ofExcept s (r.map fun main => { s with main })) := by
  have hmap : (r.map fun main => { s with main }) = r >>= fun main => .ok { s with main } := by
    cases r <;> rfl
  rw [hmap]
  exact .ofGuarded (hg.bind fun _ hmain => .ok ⟨hmain, h.alt, h.elses⟩)

theorem settleCheck_follows (rules : Rules) (signature : Bytes) (valid : Bool) (h : s.IsWhole) :
    Follows State.IsWhole (settleCheck rules signature valid s)
      (Machine.settleCheck rules signature valid s) := by
  unfold settleCheck Machine.settleCheck
  split_ifs
  · exact .ok trivial
  · exact main_follows h (push_faithful h.main _)

theorem popTwo_faithful {s : Stack} (h : s.IsAligned) :
    Faithful (·.2.2.IsAligned) (popTwo s) (do
      let (key, main) ← Machine.popValue s
      let (signature, main) ← Machine.popValue main
      return (key, signature, main)) :=
  (popValue_faithful h).bind fun _ h => (popValue_faithful h).bind fun _ h => .ok h

theorem checkSig_follows (h : s.IsWhole) :
    Follows State.IsWhole (checkSig setting script s) (runCheckSig setting script s) := by
  have hpop := popTwo_faithful h.main
  unfold checkSig runCheckSig
  generalize (do
    let (key, main) ← Machine.popValue s.main
    let (signature, main) ← Machine.popValue main
    return (key, signature, main) : Except Fault (Bytes × Bytes × Stack)) = popped at hpop ⊢
  rw [hpop.run_eq]
  cases popped with
  | error fault => exact .ok (m := .stop (.failed fault s.calls)) trivial
  | ok popped =>
    obtain ⟨key, signature, main⟩ := popped
    have hwhole (calls : List Call) : ({ s with main, calls } : State).IsWhole :=
      ⟨hpop.ensures _ rfl, h.alt, h.elses⟩
    dsimp only [bind, Except.bind]
    cases signature.getLast? with
    | none => exact settleCheck_follows _ _ _ (hwhole _)
    | some flag =>
      dsimp only
      cases checkForms setting.rules signature.dropLast flag key with
      | error fault => exact .ok (m := .stop (.failed fault s.calls)) trivial
      | ok =>
        dsimp only
        cases setting.checker with
        | none => exact .ok (m := .stop (.failed .noChecker s.calls)) trivial
        | some checker => exact settleCheck_follows _ _ _ (hwhole _)

theorem upgradableNop_faithful {n : Nat} (hop : Instruction.ofOpcode op = .upgradableNop n)
    (h : s.IsWhole) :
    Follows State.IsWhole (ofGuarded s (upgradableNop setting.rules op s))
      (Instruction.run setting script op (.upgradableNop n) s) := by
  have hstands := Instruction.standsAt_ofOpcode op
  simp only [hop, Instruction.standsAt, Bool.and_eq_true, decide_eq_true_eq] at hstands
  obtain ⟨hfirst, hn⟩ := hstands
  have hfirst' : 0xb0 ≤ op.toNat := by simpa using UInt8.le_iff_toNat_le.mp hfirst
  unfold upgradableNop Instruction.run
  split_ifs
  · refine ⟨?_, trivial⟩
    rw [ofGuarded, bind_run (minus_run (by omega)), ← hn]
    rfl
  · exact .ok h

theorem instruction_follows {instr : Instruction} (hop : Instruction.ofOpcode op = instr)
    (h : s.IsWhole) :
    Follows State.IsWhole (instruction setting script op instr s)
      (instr.run setting script op s) := by
  cases instr with
  | upgradableNop n => exact upgradableNop_faithful hop h
  | conditional c => exact .ofGuarded (conditional_faithful _ c h)
  | toAlt => exact .ofGuarded (moveToAlt_faithful h)
  | fromAlt => exact .ofGuarded (moveFromAlt_faithful h)
  | checkSig => exact checkSig_follows h
  | checkSigVerify =>
    exact (checkSig_follows h).andThen fun t ht => main_follows ht (verifyTop_faithful _ ht.main)
  | nop => exact .ok h
  | ret =>
    refine .ok ?_
    simp only [Instruction.run, Instruction.runReturn]
    split_ifs
    · trivial
    · exact h
    · exact ⟨h.main, h.alt, h.elses⟩
  | codeSeparator => exact .ok ⟨h.main, h.alt, h.elses⟩
  | disabled | reservedConditional | reserved | unsupported | invalid => exact .ok trivial
  | _ => exact main_follows h (runOnMain_faithful hop h.main)

end Instructions

section Evaluations

variable {setting : Setting} {script : List Chunk} {c : Chunk} {s : State}

theorem perform_follows (h : s.IsWhole) :
    Follows State.IsWhole (perform setting script c s) (Machine.perform setting script c s) := by
  simp only [perform, Machine.perform]
  split_ifs
  · exact .ok h
  · cases c.data with
    | some data => exact main_follows h (r := .ok _) (push_faithful h.main data)
    | none => exact instruction_follows rfl h

/-- In a state whose columns and records are equally long, a guarded chunk does what the chunk does,
and leads to such a state. -/
theorem chunk_follows (h : s.IsWhole) :
    Follows State.IsWhole
      (andThen (.ok (.ofExcept s (enter setting c s))) fun s =>
        andThen (perform setting script c s) fun s => .ok (settle setting s))
      (Machine.step setting script c s) := by
  have henter : Ensures State.IsWhole (enter setting c s) := by
    intro t ht
    obtain ⟨-, rfl⟩ := enter_eq_ok_iff.mp ht
    exact ⟨h.main, h.alt, h.elses⟩
  have hsettle (t : State) (ht : t.IsWhole) : (settle setting t).Leads State.IsWhole := by
    unfold settle
    split_ifs
    · trivial
    · exact ⟨ht.main, ht.alt, ht.elses⟩
  exact (Follows.ok (.ofExcept s henter)).andThen fun t ht =>
    (perform_follows ht).andThen fun u hu => .ok (hsettle u hu)

/-- In such a state, a guarded step fetches the chunk and does what the step does. -/
theorem step_run (h : s.IsWhole) (hc : script[s.offset]? = some c) :
    step setting script s = .ok (c, Machine.step setting script c s) := by
  have hchunk : andThen (.ok (.ofExcept s (enter setting c s))) (fun s =>
      andThen (perform setting script c s) fun s => .ok (settle setting s)) =
        .ok (Machine.step setting script c s) := (chunk_follows h).eq
  rw [step, hc]
  dsimp only
  rw [hchunk]
  rfl

/-- Columns and records are equally long throughout an evaluation. -/
theorem isKept_isWhole (setting : Setting) : IsKept setting State.IsWhole where
  initial := ⟨rfl, rfl, rfl⟩
  step _ _ _ h := (chunk_follows h).leads
  handOver _ h := ⟨h.main, rfl, rfl⟩

/-- The chunks ahead are evaluated without a breach, each fetched by its offset. -/
theorem runChunks_run {role : Role} {ahead : List Chunk} (h : s.IsWhole)
    (hahead : script.drop s.offset = ahead) :
    runChunks setting role script ahead.length s =
      .ok (Machine.runChunks setting role script ahead s) := by
  induction ahead generalizing s with
  | nil => rfl
  | cons c ahead ih =>
    have hc : script[s.offset]? = some c := getElem?_of_drop_eq_cons hahead
    rw [List.length_cons, runChunks, step_run h hc, Machine.runChunks]
    cases hstep : Machine.step setting script c s with
    | stop e => rfl
    | next t =>
      have ht : (Machine.step setting script c s).Leads State.IsWhole := (chunk_follows h).leads
      rw [hstep] at ht
      have hdrop : script.drop t.offset = ahead := drop_of_step_eq_next hstep hahead
      dsimp only [bind, Except.bind]
      rw [ih ht hdrop]
      rfl

theorem judge_run (rules : Rules) {s : Stack} (h : s.IsAligned) :
    (judge rules s).run = .ok (Machine.judge rules s) := by
  obtain ⟨_ | ⟨top, rest⟩, _ | ⟨name, names⟩⟩ := s
  · rfl
  · rfl
  · cases h
  · have hpop : (popTruth ⟨top :: rest, name :: names⟩).run =
        .ok (.ok (Number.truth top, ⟨rest, names⟩)) := (popTruth_faithful h).run_eq
    have hextra : ((⟨top :: rest, name :: names⟩ : Stack).depth ≠ 1) = (rest ≠ []) := by
      simp [Stack.depth]
    unfold judge Machine.judge
    rw [if_neg (by simp [Stack.isEmpty])]
    simp only [hextra, ← List.isEmpty_eq_false_iff, Bool.decide_eq_false]
    split_ifs with hclean htrue
    · exact bind_run (minus_run (Nat.succ_le_of_lt (Nat.succ_pos _))) _
    · rw [bind_run hpop, if_pos htrue]
      rfl
    · rw [bind_run hpop, if_neg htrue]
      rfl

/-- A guarded evaluation is the evaluation, without a breach. -/
theorem evaluate_eq (setting : Setting) (unlocking locking : Script) :
    evaluate setting unlocking locking = .ok (run setting unlocking locking) := by
  unfold evaluate run
  cases hrefusal : refusal? setting unlocking locking with
  | some fault => rfl
  | none =>
    have hinitial := (isKept_isWhole setting).initial
    dsimp only
    rw [runChunks_run hinitial List.drop_zero, runScript]
    cases hunlocking :
        Machine.runChunks setting .unlocking unlocking.chunks unlocking.chunks .initial with
    | mk steps ending =>
      cases ending with
      | failed fault calls => rfl
      | completed s =>
        have hbegins : Begins setting unlocking locking .locking s.handOver :=
          .locking hrefusal (congrArg Prod.snd hunlocking)
        have hs : s.handOver.IsWhole := (isKept_isWhole setting).begins hbegins
        dsimp only [bind, Except.bind]
        rw [runChunks_run hs List.drop_zero, runScript]
        cases hlocking :
            Machine.runChunks setting .locking locking.chunks locking.chunks s.handOver with
        | mk more ending =>
          cases ending with
          | failed fault calls => rfl
          | completed t =>
            have ht : t.IsWhole :=
              (isKept_isWhole setting).completed ⟨_, hbegins, congrArg Prod.snd hlocking⟩
            dsimp only
            rw [judge_run _ ht.main]
            rfl

end Evaluations

end Guarded

end Utxo.Machine
