/-
Which chunks are executed.

The machine keeps a mark for each open conditional.  The marks follow from how the steps nest
(`Nests`), so whether a chunk is executed is a matter of the conditionals that it is in.

* **`Nests.step`** — a step keeps the marks in line with the steps behind;
* **`execute_nests`** — a chunk is executed just if nothing has returned and every conditional that it
  is in is taken; one that is passed over changes nothing else; and an evaluation finds conditionals
  unbalanced just where they are.
-/
import Utxo.Proofs.Machine.Flow
import Utxo.Proofs.Machine.Nesting
import Utxo.Proofs.Machine.Trace
import Utxo.Proofs.Script.Push

namespace Utxo.Machine

/-! ### The marks of open conditionals -/

/-- The mark of a conditional that a step opened and that has been turned `n` times. -/
def branchOf (opening : Step) (n : Nat) : Branch :=
  if opening.executed then if not^[n] opening.condition then .taken else .passed else .skipped

/-- The marks of a state follow from how the steps that led to it nest. -/
structure Nests (before : List Step) (s : State) : Prop where
  branches : s.branches = (openConditionals before).map fun o => branchOf o.1 o.2
  elses : s.elses = (openConditionals before).map fun o => decide (0 < o.2)
  returned : s.returned = before.any fun k => k.executed && k.instruction = .ret

variable {setting : Setting} {role : Role} {script : List Chunk} {c : Chunk} {s t : State}
  {before : List Step} {k : Step}

theorem branchOf_succ (opening : Step) (n : Nat) :
    branchOf opening (n + 1) = (branchOf opening n).flip := by
  unfold branchOf
  rw [Function.iterate_succ_apply']
  cases opening.executed with
  | false => rfl
  | true => cases not^[n] opening.condition <;> rfl

theorem branchOf_eq_taken_iff {opening : Step} {n : Nat} :
    branchOf opening n = .taken ↔ opening.executed ∧ not^[n] opening.condition := by
  unfold branchOf
  split_ifs <;> simp_all

theorem nests_atStart (main : Stack) (calls : List Call) : Nests [] (.atStart main calls) :=
  ⟨rfl, rfl, rfl⟩

theorem Begins.nests {unlocking locking : Script}
    (h : Begins setting unlocking locking role s) : Nests [] s := by
  cases h <;> exact nests_atStart _ _

/-- A chunk is executed just if nothing has returned and every conditional that it is in is taken. -/
theorem Nests.isExecuting_iff (h : Nests before s) :
    s.isExecuting ↔
      (∀ k ∈ before, k.executed → k.instruction ≠ .ret) ∧
        ∀ opening since, IsOpen before opening since → IsTaken opening since := by
  have hbranches : (∀ b ∈ s.branches, b = .taken) ↔
      ∀ opening since, IsOpen before opening since → IsTaken opening since := by
    rw [h.branches, List.forall_mem_map]
    constructor
    · intro hall opening since hopen
      exact branchOf_eq_taken_iff.mp (hall _ (mem_openConditionals_iff.mpr ⟨since, hopen, rfl⟩))
    · rintro hall ⟨opening, n⟩ hmem
      obtain ⟨since, hopen, rfl⟩ := mem_openConditionals_iff.mp hmem
      exact branchOf_eq_taken_iff.mpr (hall opening since hopen)
  simp [State.isExecuting, h.returned, ← hbranches]

/-! ### Steps -/

theorem popCondition_eq_ok {rules : Rules} {main main' : Stack} {holds : Bool}
    (h : popCondition rules main = .ok (holds, main')) :
    ∃ value rest, main.values = value :: rest ∧ Number.truth value = holds := by
  obtain ⟨values, names⟩ := main
  match values, names with
  | [], _ => cases h
  | _ :: _, [] => cases h
  | value :: rest, _ :: _ =>
    refine ⟨value, rest, rfl, ?_⟩
    simp only [popCondition, popValue, popSlot, Stack.pop?, bind, Except.bind, pure,
      Except.pure] at h
    split_ifs at h
    cases h
    rfl

/-- A conditional opcode changes the marks as its step changes what is open. -/
theorem Nests.conditional {op : Conditional} (h : Nests before k.before)
    (hop : k.instruction = .conditional op)
    (hrun : op.run setting.rules (k.before.count k.chunk) = .ok t) : Nests (before ++ [k]) t := by
  have hreturned : k.before.returned =
      (before ++ [k]).any fun k => k.executed && k.instruction = .ret := by
    simp [List.any_append, hop, ← h.returned]
  cases op with
  | opening negated =>
    have hopen : openConditionals (before ++ [k]) = (k, 0) :: openConditionals before := by
      rw [openConditionals_append_singleton, nest, hop]
    have hnests (b : Branch) (main : Stack) (hb : b = branchOf k 0) :
        Nests (before ++ [k]) ({ k.before.count k.chunk with main }.openBranch b) := by
      refine ⟨?_, ?_, hreturned⟩
      · rw [hopen, List.map_cons, ← h.branches, ← hb]
        rfl
      · rw [hopen, List.map_cons, ← h.elses]
        rfl
    simp only [Conditional.run] at hrun
    split_ifs at hrun with hexecuting
    · -- An executed opening takes its condition from the stack.
      have hexecuted : k.executed = true := hexecuting
      cases hpop : popCondition setting.rules k.before.main with
      | error fault =>
        rw [show (k.before.count k.chunk).main = k.before.main from rfl, hpop] at hrun
        cases hrun
      | ok r =>
        obtain ⟨holds, main⟩ := r
        rw [show (k.before.count k.chunk).main = k.before.main from rfl, hpop] at hrun
        obtain ⟨value, rest, hvalues, rfl⟩ := popCondition_eq_ok hpop
        obtain rfl := Except.ok.inj hrun
        refine hnests _ main ?_
        have hcondition : k.condition = (Number.truth value != negated) := by
          simp only [Step.condition, hop, hvalues]
        simp [branchOf, hexecuted, hcondition]
    · obtain rfl := Except.ok.inj hrun
      refine hnests .skipped _ ?_
      have hexecuted : k.executed = false := Bool.eq_false_iff.mpr hexecuting
      simp [branchOf, hexecuted]
  | turn =>
    have hopen : openConditionals (before ++ [k]) =
        (openConditionals before).modifyHead fun o => (o.1, o.2 + 1) := by
      rw [openConditionals_append_singleton, nest, hop]
    simp only [Conditional.run] at hrun
    split at hrun
    · next b branches seen elses hbranches helses =>
      split_ifs at hrun
      obtain rfl := Except.ok.inj hrun
      replace hbranches := h.branches.symm.trans hbranches
      replace helses := h.elses.symm.trans helses
      cases hstack : openConditionals before with
      | nil =>
        rw [hstack] at hbranches
        cases hbranches
      | cons o outer =>
        rw [hstack, List.map_cons] at hbranches helses
        obtain ⟨rfl, rfl⟩ := List.cons.inj hbranches
        obtain ⟨-, rfl⟩ := List.cons.inj helses
        refine ⟨?_, ?_, hreturned⟩
        · rw [hopen, hstack, List.modifyHead_cons, List.map_cons, branchOf_succ]
        · rw [hopen, hstack, List.modifyHead_cons, List.map_cons]
          simp
    · cases hrun
  | closing =>
    have hopen : openConditionals (before ++ [k]) = (openConditionals before).tail := by
      rw [openConditionals_append_singleton, nest, hop]
    simp only [Conditional.run] at hrun
    split at hrun
    · next b branches hbranches =>
      obtain rfl := Except.ok.inj hrun
      refine ⟨?_, ?_, hreturned⟩
      · rw [hopen, List.map_tail, ← h.branches]
        exact (congrArg List.tail hbranches).symm
      · rw [hopen, List.map_tail, ← h.elses]
        rfl
    · cases hrun

/-- A step that is no conditional opcode and does not return leaves the marks as they are. -/
theorem Nests.of_sameFlow (h : Nests before k.before) (hflow : SameFlow k.before t)
    (hop : k.instruction.isConditional = false)
    (hreturns : k.executed → k.instruction ≠ .ret) : Nests (before ++ [k]) t := by
  have hopen : openConditionals (before ++ [k]) = openConditionals before := by
    rw [openConditionals_append_singleton, nest]
    cases hinstruction : k.instruction with
    | conditional op => simp [hinstruction, Instruction.isConditional] at hop
    | _ => rfl
  refine ⟨?_, ?_, ?_⟩
  · rw [hopen, hflow.branches, h.branches]
  · rw [hopen, hflow.elses, h.elses]
  · have hk : (k.executed && decide (k.instruction = .ret)) = false := by simpa using hreturns
    simp [hflow.returned, h.returned, hk]

theorem Nests.ret (h : Nests before k.before) (hexecuted : k.executed)
    (hop : k.instruction = .ret)
    (hrun : Instruction.runReturn setting.rules (k.before.count k.chunk) = .next t) :
    Nests (before ++ [k]) t := by
  have hopen : openConditionals (before ++ [k]) = openConditionals before := by
    rw [openConditionals_append_singleton, nest, hop]
  unfold Instruction.runReturn at hrun
  split_ifs at hrun
  cases hrun
  refine ⟨?_, ?_, ?_⟩
  · rw [hopen, ← h.branches]
    rfl
  · rw [hopen, ← h.elses]
    rfl
  · simp [hexecuted, hop]

/-- A step keeps the marks in line with the steps behind. -/
theorem Nests.step (h : Nests before k.before) (hread : k.chunk.data.isSome = k.chunk.op.isPush)
    (hnext : Machine.step setting script k.chunk k.before = .next t) :
    Nests (before ++ [k]) t := by
  obtain ⟨-, u, hperform, -, rfl⟩ := step_eq_next_iff.mp hnext
  -- To be at the next chunk is no matter of marks.
  suffices hu : Nests (before ++ [k]) u from ⟨hu.branches, hu.elses, hu.returned⟩
  cases hconditional : k.instruction.isConditional with
  | true =>
    cases hop : k.instruction with
    | conditional op =>
      rw [perform_conditional hread hop, Move.ofExcept_eq_next_iff] at hperform
      exact h.conditional hop hperform
    | _ => simp [hop, Instruction.isConditional] at hconditional
  | false =>
    by_cases hreturns : k.executed ∧ k.instruction = .ret
    · obtain ⟨hexecuted, hop⟩ := hreturns
      have hrun : Instruction.ofOpcode k.chunk.op = .ret := hop
      have hdata : k.chunk.data = none := data_eq_none hread (by simp [hrun])
      rw [perform_of_isExecuting (s := k.before.count k.chunk) hexecuted, hdata, hrun] at hperform
      exact h.ret hexecuted hop hperform
    · have hret : k.executed → k.instruction ≠ .ret := fun he hop => hreturns ⟨he, hop⟩
      have hflow : (perform setting script k.chunk (k.before.count k.chunk)).Leads
          (SameFlow (k.before.count k.chunk)) := perform_sameFlow hconditional hret
      rw [hperform] at hflow
      exact h.of_sameFlow ⟨hflow.branches, hflow.elses, hflow.returned⟩ hconditional hret

theorem Passed.nests {start : State} {bytes : Bytes}
    (h : Passed setting role (Chunk.decode bytes) start before s) (hstart : Nests [] start) :
    Nests before s := by
  induction h with
  | nil => exact hstart
  | snoc _ hc hnext ih =>
    have hmem := List.mem_of_getElem? hc
    exact ih.step (Chunk.isSome_data_of_mem_decode hmem) hnext

/-! ### Imbalance -/

/-- A step does not fit the conditionals that are open before it: it turns or closes one where none
is open or, after the Genesis upgrade, turns one that has been turned. -/
def Unbalances (rules : Rules) (before : List Step) (k : Step) : Prop :=
  ((k.instruction = .conditional .turn ∨ k.instruction = .conditional .closing) ∧
      ∀ opening since, ¬IsOpen before opening since) ∨
    rules.afterGenesis ∧ k.instruction = .conditional .turn ∧
      ∃ opening since, IsOpen before opening since ∧ level since = 0 ∧ 0 < ownTurns since

/-- The innermost open conditional has been turned just if it is on top of the stack as such. -/
theorem exists_isOpen_turned_iff :
    (∃ opening since, IsOpen before opening since ∧ level since = 0 ∧ 0 < ownTurns since) ↔
      ∃ o outer, openConditionals before = o :: outer ∧ 0 < o.2 := by
  constructor
  · rintro ⟨opening, since, hopen, hlevel, hturned⟩
    have htop : (openConditionals before)[0]? = some (opening, ownTurns since) :=
      getElem?_openConditionals.mpr ⟨since, hopen, hlevel, rfl⟩
    cases hstack : openConditionals before with
    | nil => simp [hstack] at htop
    | cons o outer =>
      obtain rfl : o = (opening, ownTurns since) := by simpa [hstack] using htop
      exact ⟨_, outer, rfl, hturned⟩
  · rintro ⟨⟨opening, n⟩, outer, hstack, hturned⟩
    have htop : (openConditionals before)[0]? = some (opening, n) := by rw [hstack]; rfl
    obtain ⟨since, hopen, hlevel, rfl⟩ := getElem?_openConditionals.mp htop
    exact ⟨opening, since, hopen, hlevel, hturned⟩

/-- A conditional opcode finds conditionals unbalanced just where its step does not fit them. -/
theorem Nests.run_unbalanced_iff {op : Conditional} (h : Nests before k.before)
    (hop : k.instruction = .conditional op) :
    (∃ how, op.run setting.rules (k.before.count k.chunk) = .error (.unbalanced how)) ↔
      Unbalances setting.rules before k := by
  have hbranches : (k.before.count k.chunk).branches = _ := h.branches
  have helses : (k.before.count k.chunk).elses = _ := h.elses
  rw [Unbalances, ← openConditionals_eq_nil_iff, exists_isOpen_turned_iff]
  cases op with
  | opening negated =>
    have hbalanced : Raises IsBalanced (Conditional.run setting.rules (.opening negated)
        (k.before.count k.chunk)) := by
      refine .ite ?_ (.ok _)
      exact (popCondition_raises isBalanced_of_isOrdinary _ _).bind fun _ => .ok _
    have hne (how : Imbalance) : Conditional.run setting.rules (.opening negated)
        (k.before.count k.chunk) ≠ .error (.unbalanced how) :=
      fun heq => not_isBalanced how (hbalanced _ heq)
    simp [hop, hne]
  | turn =>
    simp only [hop, Conditional.run, hbranches, helses]
    cases openConditionals before with
    | nil => simp
    | cons o outer =>
      simp only [List.map_cons]
      by_cases hsecond : 0 < o.2 ∧ setting.rules.afterGenesis
      · simp [hsecond]
      · have hfirst : ¬(decide (0 < o.2) && setting.rules.afterGenesis) := by simpa using hsecond
        rw [if_neg hfirst]
        simpa [and_comm] using hsecond
  | closing =>
    simp only [hop, Conditional.run, hbranches]
    cases openConditionals before <;> simp

/-- The end of a script finds conditionals unbalanced just if one is open. -/
theorem Nests.atEnd_eq_failed_iff {fault : Fault} {calls : List Call} (h : Nests before s) :
    atEnd s = .failed fault calls ↔
      (∃ opening since, IsOpen before opening since) ∧ fault = .unbalanced .openAtEnd ∧
        calls = s.calls := by
  have hopen : (∃ opening since, IsOpen before opening since) ↔ s.branches ≠ [] := by
    rw [h.branches, Ne, List.map_eq_nil_iff, openConditionals_eq_nil_iff]
    simp
  rw [hopen, atEnd]
  cases s.branches <;> simp [eq_comm]

theorem Fault.code_eq_unbalancedConditional_iff {fault : Fault} :
    fault.code = .unbalancedConditional ↔ ∃ how, fault = .unbalanced how := by
  constructor
  · intro h
    cases fault with
    | unbalanced how => exact ⟨how, rfl⟩
    | verificationFailed v => cases v <;> cases h
    | _ => cases h
  · rintro ⟨how, rfl⟩
    rfl

/-! ### Evaluations -/

section Scripts

variable {unlocking locking : Script} {after : List Step}

theorem nests_of_stepsOf
    (h : (run setting unlocking locking).stepsOf role = before ++ k :: after) :
    Nests before k.before ∧ k.chunk.data.isSome = k.chunk.op.isPush := by
  obtain ⟨start, hbegins, hpassed, hc, -⟩ := exists_passed_of_stepsOf h
  have hmem := List.mem_of_getElem? hc
  exact ⟨hpassed.nests hbegins.nests, Chunk.isSome_data_of_mem_decode hmem⟩

/-- An evaluation finds conditionals unbalanced just where a step does not fit them, or at the end of
a script inside of one. -/
theorem run_unbalanced_iff :
    (∃ how, (run setting unlocking locking).result = .error (.unbalanced how)) ↔
      (∃ role before k after,
        (run setting unlocking locking).stepsOf role = before ++ k :: after ∧
          (∃ t, enter setting k.chunk k.before = .ok t) ∧ Unbalances setting.rules before k) ∨
      ∃ role s steps, PassesAll setting unlocking locking role steps s ∧
        ∃ opening since, IsOpen steps opening since := by
  constructor
  · rintro ⟨how, hresult⟩
    rcases exists_of_run_result_eq_error hresult with
      hrefusal | ⟨role, start, calls, hbegins, hfailed⟩ | ⟨s, -, hjudge⟩
    · exact absurd (refusal?_raises isBalanced_of_isOrdinary hrefusal) (not_isBalanced how)
    · obtain ⟨before, s, hpassed, ⟨hlength, hrun⟩ | ⟨c, e, hc, hstop, hrun⟩⟩ :=
        exists_passed_runScript setting role (scriptOf unlocking locking role).chunks start
      · rw [hrun] at hfailed
        have hopen := ((hpassed.nests hbegins.nests).atEnd_eq_failed_iff.mp hfailed).1
        exact .inr ⟨role, s, before, ⟨start, hbegins, hpassed, hlength⟩, hopen⟩
      · rw [hrun] at hfailed
        obtain rfl : e = .failed (.unbalanced how) calls := hfailed
        have hread := Chunk.isSome_data_of_mem_decode (List.mem_of_getElem? hc)
        obtain ⟨henter, op, how', hop, hconditional⟩ :=
          (step_unbalanced_iff hread).mp ⟨how, calls, hstop⟩
        have hnests : Nests before (⟨role, c, s⟩ : Step).before := hpassed.nests hbegins.nests
        refine .inl ⟨role, before, ⟨role, c, s⟩, [], ?_, henter, ?_⟩
        · rw [hbegins.stepsOf_eq, hrun]
        · exact (hnests.run_unbalanced_iff hop).mp ⟨how', hconditional⟩
    · exact absurd (judge_raises isBalanced_of_isOrdinary _ _ _ hjudge) (not_isBalanced how)
  · rintro (⟨role, before, k, after, hsteps, henter, hunbalances⟩ |
      ⟨role, s, steps, ⟨start, hbegins, hpassed, hlength⟩, hopen⟩)
    · obtain ⟨start, hbegins, hpassed, hc, hrole⟩ := exists_passed_of_stepsOf hsteps
      obtain ⟨hnests, hread⟩ := nests_of_stepsOf hsteps
      have hop : ∃ op, k.instruction = .conditional op := by
        rcases hunbalances with ⟨hop | hop, -⟩ | ⟨-, hop, -⟩ <;> exact ⟨_, hop⟩
      obtain ⟨op, hop⟩ := hop
      obtain ⟨how, hconditional⟩ := (hnests.run_unbalanced_iff hop).mpr hunbalances
      obtain ⟨how', calls, hstop⟩ : ∃ how calls,
          step setting (scriptOf unlocking locking role).chunks k.chunk k.before =
            .stop (.failed (.unbalanced how) calls) :=
        (step_unbalanced_iff hread).mpr ⟨henter, op, how, hop, hconditional⟩
      have hrun := hpassed.runScript_eq_of_stop hc hstop
      exact ⟨how', hbegins.result_eq_error (congrArg Prod.snd hrun)⟩
    · have hend := (hpassed.nests hbegins.nests).atEnd_eq_failed_iff.mpr ⟨hopen, rfl, rfl⟩
      have hrun := hpassed.runScript_eq_of_length hlength
      exact ⟨.openAtEnd, hbegins.result_eq_error ((congrArg Prod.snd hrun).trans hend)⟩

end Scripts

/-- A chunk is executed just if nothing has returned and every conditional that it is in is taken. One
that is passed over changes neither stack, moves no code separator and asks no question. An evaluation
fails because conditionals are unbalanced just where a chunk that no other rule bars does not fit
those that are open, or at the end of a script inside of one. -/
theorem execute_nests (limits : Limits) (flags : Flags) (checker : Option Checker)
    (inputIndex : Nat) (unlocking locking : Script) :
    (∀ role before k after,
      (execute limits flags checker inputIndex unlocking locking).stepsOf role =
          before ++ k :: after →
        (k.executed ↔
          (∀ earlier ∈ before, earlier.executed → earlier.instruction ≠ .ret) ∧
            ∀ opening since, IsOpen before opening since → IsTaken opening since)) ∧
      (∀ k ∈ (execute limits flags checker inputIndex unlocking locking).steps,
        k.executed = false →
          (step (.ofFlags limits flags checker inputIndex)
            (scriptOf unlocking locking k.role).chunks k.chunk k.before).Keeps k.before) ∧
      ((∃ fault, (execute limits flags checker inputIndex unlocking locking).result =
            .error fault ∧ fault.code = .unbalancedConditional) ↔
        (∃ role before k after,
          (execute limits flags checker inputIndex unlocking locking).stepsOf role =
              before ++ k :: after ∧
            (∃ t, enter (.ofFlags limits flags checker inputIndex) k.chunk k.before = .ok t) ∧
            Unbalances (.ofFlags flags) before k) ∨
        ∃ role s steps,
          PassesAll (.ofFlags limits flags checker inputIndex) unlocking locking role steps s ∧
            ∃ opening since, IsOpen steps opening since) := by
  refine ⟨?_, ?_, ?_⟩
  · intro role before k after hsteps
    exact (nests_of_stepsOf hsteps).1.isExecuting_iff
  · intro k hk hpassed
    obtain ⟨before, after, hsteps⟩ := exists_stepsOf_of_mem hk
    exact step_keeps (nests_of_stepsOf hsteps).2 hpassed
  · refine Iff.trans ?_ (@run_unbalanced_iff (.ofFlags limits flags checker inputIndex) _ _)
    constructor
    · rintro ⟨fault, hresult, hcode⟩
      obtain ⟨how, rfl⟩ := Fault.code_eq_unbalancedConditional_iff.mp hcode
      exact ⟨how, hresult⟩
    · rintro ⟨how, hresult⟩
      exact ⟨_, hresult, rfl⟩

/-- The second branch of a conditional whose condition is false. -/
theorem execute_nests_turned :
    ∃ before k after,
      (execute .beforeGenesis .none none 0 ⟨[0x00]⟩ ⟨[0x63, 0x51, 0x67, 0x52, 0x68]⟩).stepsOf
          .locking = before ++ k :: after ∧
        k.chunk.op = 0x52 ∧ k.executed ∧
        ∀ opening since, IsOpen before opening since → IsTaken opening since := by
  set r := execute .beforeGenesis .none none 0 ⟨[0x00]⟩ ⟨[0x63, 0x51, 0x67, 0x52, 0x68]⟩
  have hsteps : (r.stepsOf .locking).map (fun k => (k.chunk.op, k.executed)) =
      [(0x63, true), (0x51, false), (0x67, false), (0x52, true), (0x68, true)] := by
    decide +kernel
  obtain ⟨before, rest, hsplit, -, hrest⟩ :=
    List.map_eq_append_iff.mp (hsteps.trans (List.take_append_drop 3 _).symm)
  obtain ⟨k, after, rfl, hk, -⟩ := List.map_eq_cons_iff.mp hrest
  obtain ⟨hop, hexecuted⟩ := Prod.mk.inj hk
  have hnests := (execute_nests .beforeGenesis .none none 0 ⟨[0x00]⟩
    ⟨[0x63, 0x51, 0x67, 0x52, 0x68]⟩).1 .locking before k after hsplit
  exact ⟨before, k, after, hsplit, hop, hexecuted, (hnests.mp hexecuted).2⟩

end Utxo.Machine
