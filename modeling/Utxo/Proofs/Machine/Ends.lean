/-
How evaluations end.

A script is over when its chunks are exhausted with no conditional open, or when it returns: an
`OP_RETURN` is executed outside of all conditionals after the Genesis upgrade.

* **`exists_completes_iff_isOver`** — an evaluation completes a script just if the script is over in
  one of these two ways;
* **`run_result_eq_ok_iff_isOver`** — a spend is valid just if both scripts are over and the item left
  on top is true, alone if the stack has to be clean;
* **`refusal?_eq_none_iff`** — two scripts are refused because of their size, because both are empty,
  because the first one does more than push, or because one of them ends inside a push.
-/
import Utxo.Proofs.Machine.Branching

namespace Utxo.Machine

/-! ### The end of a script -/

/-- The script of a role is exhausted: every chunk of it is behind, and no conditional is open. -/
def IsExhausted (setting : Setting) (unlocking locking : Script) (role : Role) : Prop :=
  ∃ steps s, PassesAll setting unlocking locking role steps s ∧
    ∀ opening since, ¬IsOpen steps opening since

/-- The script of a role returns: after the Genesis upgrade, its last step is an `OP_RETURN` that is
admitted and executed, and no conditional is open before it. -/
def Returns (setting : Setting) (unlocking locking : Script) (role : Role) : Prop :=
  setting.rules.afterGenesis ∧
    ∃ before k, (run setting unlocking locking).stepsOf role = before ++ [k] ∧
      (∃ t, enter setting k.chunk k.before = .ok t) ∧ k.executed ∧ k.instruction = .ret ∧
        ∀ opening since, ¬IsOpen before opening since

/-- The script of a role is over. -/
def IsOver (setting : Setting) (unlocking locking : Script) (role : Role) : Prop :=
  IsExhausted setting unlocking locking role ∨ Returns setting unlocking locking role

variable {setting : Setting} {unlocking locking : Script} {role : Role} {start s : State}
  {before : List Step} {k : Step}

/-- No mark is left just if no conditional is open. -/
theorem Nests.branches_eq_nil_iff (h : Nests before s) :
    s.branches = [] ↔ ∀ opening since, ¬IsOpen before opening since := by
  rw [h.branches, List.map_eq_nil_iff, openConditionals_eq_nil_iff]

/-- A step ends its script just if it is an `OP_RETURN` that is admitted and executed, after the
Genesis upgrade and outside of all conditionals. -/
theorem Nests.exists_step_eq_completed_iff {script : List Chunk} (h : Nests before k.before)
    (hread : k.chunk.data.isSome = k.chunk.op.isPush) :
    (∃ t, Machine.step setting script k.chunk k.before = .stop (.completed t)) ↔
      setting.rules.afterGenesis ∧ (∃ t, enter setting k.chunk k.before = .ok t) ∧ k.executed ∧
        k.instruction = .ret ∧ ∀ opening since, ¬IsOpen before opening since := by
  simp only [step_eq_completed_iff, enter_eq_ok_iff, h.branches_eq_nil_iff]
  constructor
  · rintro ⟨_, hbar, ⟨hexecuting, -, hret⟩, hgenesis, hopen, rfl⟩
    exact ⟨hgenesis, ⟨_, hbar, rfl⟩, hexecuting, hret, hopen⟩
  · rintro ⟨hgenesis, ⟨t, hbar, rfl⟩, hexecuting, hret, hopen⟩
    have hinstruction : Instruction.ofOpcode k.chunk.op = .ret := hret
    have hdata : k.chunk.data = none := data_eq_none hread (by simp [hinstruction])
    exact ⟨_, hbar, ⟨hexecuting, hdata, hret⟩, hgenesis, hopen, rfl⟩

/-- An evaluation completes a script just if the script is over. -/
theorem exists_completes_iff_isOver :
    (∃ s, Completes setting unlocking locking role s) ↔ IsOver setting unlocking locking role := by
  constructor
  · rintro ⟨t, start, hbegins, hcompleted⟩
    obtain ⟨before, s, hpassed, ⟨hlength, hrun⟩ | ⟨c, e, hc, hstop, hrun⟩⟩ :=
      exists_passed_runScript setting role (scriptOf unlocking locking role).chunks start
    · rw [hrun] at hcompleted
      obtain ⟨hclosed, -⟩ := atEnd_eq_completed_iff.mp hcompleted
      have hopen := (hpassed.nests hbegins.nests).branches_eq_nil_iff.mp hclosed
      exact .inl ⟨before, s, ⟨start, hbegins, hpassed, hlength⟩, hopen⟩
    · rw [hrun] at hcompleted
      obtain rfl : e = .completed t := hcompleted
      have hnests : Nests before (⟨role, c, s⟩ : Step).before := hpassed.nests hbegins.nests
      have hread := Chunk.isSome_data_of_mem_decode (List.mem_of_getElem? hc)
      obtain ⟨hgenesis, hends⟩ := (hnests.exists_step_eq_completed_iff hread).mp ⟨t, hstop⟩
      refine .inr ⟨hgenesis, before, ⟨role, c, s⟩, ?_, hends⟩
      rw [hbegins.stepsOf_eq, hrun]
  · rintro (⟨steps, s, ⟨start, hbegins, hpassed, hlength⟩, hopen⟩ |
      ⟨hgenesis, before, k, hsteps, hends⟩)
    · have hclosed := (hpassed.nests hbegins.nests).branches_eq_nil_iff.mpr hopen
      have hrun := hpassed.runScript_eq_of_length hlength
      refine ⟨s, start, hbegins, ?_⟩
      rw [hrun]
      exact atEnd_eq_completed_iff.mpr ⟨hclosed, rfl⟩
    · obtain ⟨start, hbegins, hpassed, hc, -⟩ := exists_passed_of_stepsOf hsteps
      obtain ⟨hnests, hread⟩ := nests_of_stepsOf hsteps
      obtain ⟨t, hstop⟩ := (hnests.exists_step_eq_completed_iff hread).mpr ⟨hgenesis, hends⟩
      exact ⟨t, start, hbegins, congrArg Prod.snd (hpassed.runScript_eq_of_stop hc hstop)⟩

/-- An evaluation comes to the locking script only if the unlocking script is over. -/
theorem isOver_of_begins_locking (h : Begins setting unlocking locking .locking start) :
    IsOver setting unlocking locking .unlocking := by
  cases h with
  | locking haccepted hcompleted =>
    exact exists_completes_iff_isOver.mp ⟨_, _, .unlocking haccepted, hcompleted⟩

/-! ### The verdict -/

/-- The stack says that a spend is valid: the item on top is true, and is the only one if the stack
has to be clean. -/
def IsTrue (rules : Rules) (s : Stack) : Prop :=
  ∃ top rest, s.values = top :: rest ∧ Number.truth top ∧ (rules.cleanStack → rest = [])

theorem judge_eq_ok_iff {rules : Rules} {s : Stack} : judge rules s = .ok () ↔ IsTrue rules s := by
  unfold judge IsTrue
  cases s.values with
  | nil => simp
  | cons top rest =>
    simp only [List.cons.injEq, ↓existsAndEq, true_and]
    split_ifs with hextra htrue <;> simp_all

/-- A spend is valid just if both scripts are over and the stack that they leave says so. -/
theorem run_result_eq_ok_iff_isOver :
    (run setting unlocking locking).result = .ok () ↔
      IsOver setting unlocking locking .unlocking ∧ IsOver setting unlocking locking .locking ∧
        ∃ s, Completes setting unlocking locking .locking s ∧ IsTrue setting.rules s.main := by
  constructor
  · intro h
    obtain ⟨haccepted, s, hs, hlocking⟩ := run_result_eq_ok_iff.mp h
    obtain ⟨t, ht, hjudge⟩ := runLocking_result_eq_ok_iff.mp hlocking
    have hbegins := Begins.locking haccepted hs
    have hcompletes : Completes setting unlocking locking .locking t := ⟨_, hbegins, ht⟩
    exact ⟨isOver_of_begins_locking hbegins, exists_completes_iff_isOver.mp ⟨t, hcompletes⟩, t,
      hcompletes, judge_eq_ok_iff.mp hjudge⟩
  · rintro ⟨-, -, t, ⟨start, hbegins, ht⟩, htrue⟩
    cases hbegins with
    | @locking s haccepted hs =>
      refine run_result_eq_ok_iff.mpr ⟨haccepted, s, hs, ?_⟩
      exact runLocking_result_eq_ok_iff.mpr ⟨t, ht, judge_eq_ok_iff.mpr htrue⟩

/-! ### Refusals -/

/-- Two scripts are refused: one of them is too long, both are empty, the first one does more than
push where it may not, or one of them ends inside a push. -/
def IsRefused (setting : Setting) (unlocking locking : Script) : Prop :=
  setting.limits.scriptSize < unlocking.length ∨ setting.limits.scriptSize < locking.length ∨
    (unlocking.isEmpty ∧ locking.isEmpty) ∨
      (setting.rules.pushOnly ∧ unlocking.isPushOnly = false) ∨
        ∃ c ∈ unlocking.chunks ++ locking.chunks, c.isTruncated

theorem truncated?_eq_none_iff {script : Script} :
    truncated? script = none ↔ ∀ c ∈ script.chunks, c.isTruncated = false := by
  simp [truncated?]

theorem refusal?_eq_none_iff :
    refusal? setting unlocking locking = none ↔ ¬IsRefused setting unlocking locking := by
  simp only [refusal?, IsRefused]
  split_ifs with hunlocking hlocking hempty hpush
  · simp [hunlocking]
  · simp [hlocking]
  · simp_all
  · simp_all
  · simp only [Bool.and_eq_true, Bool.not_eq_true'] at hempty hpush
    simp only [hunlocking, hlocking, hempty, hpush, false_or, Option.or_eq_none_iff,
      truncated?_eq_none_iff, List.mem_append]
    push Not
    simp only [Bool.not_eq_true, or_imp, forall_and]

end Utxo.Machine
