/-
Evaluations stay within their limits.

Chunks are measured and counted when they are admitted, and the stacks are when a chunk is done; that
no item gets too long in between is a matter of instructions.

* **`within_step`** — a step keeps the state within the limits and counts its operation;
* **`execute_within`** — so the state is within them at every step and at the end of every script.
-/
import Utxo.Proofs.Machine.Items
import Utxo.Proofs.Machine.Trace

namespace Utxo.Machine

/-! ### Steps -/

/-- A state within limits. -/
structure State.Within (limits : Limits) (s : State) : Prop where
  depth : s.main.depth + s.alt.depth ≤ limits.stackDepth
  main : ∀ v ∈ s.main.values, v.length ≤ limits.elementSize
  alt : ∀ v ∈ s.alt.values, v.length ≤ limits.elementSize
  operations : s.operations ≤ limits.operations

variable {setting : Setting} {script : List Chunk} {c : Chunk} {s t : State} {role : Role}

theorem le_of_barred?_eq_none {executing : Bool} {operations : Nat}
    (h : barred? setting c executing operations = none) :
    c.dataLength ≤ setting.limits.elementSize ∧ operations ≤ setting.limits.operations := by
  unfold barred? at h
  split_ifs at h with hsize hdisabled hreserved hcount
  exact ⟨Nat.le_of_not_lt hsize, Nat.le_of_not_lt hcount⟩

theorem State.Within.count (h : s.Within setting.limits)
    (hbar : barred? setting c s.isExecuting (s.count c).operations = none) :
    (s.count c).Within setting.limits :=
  ⟨h.depth, h.main, h.alt, (le_of_barred?_eq_none hbar).2⟩

theorem next_within (hlimits : setting.limits.IsRoomy) (h : s.Within setting.limits)
    (hnext : step setting script c s = .next t) :
    t.Within setting.limits ∧ t.operations = s.operations + cost c := by
  obtain ⟨hbar, u, hperform, hdepth, rfl⟩ := step_eq_next_iff.mp hnext
  have hmain : (s.count c).main.depth < UInt64.size :=
    Nat.lt_of_le_of_lt (Nat.le_trans (Nat.le_add_right _ _) h.depth) hlimits.stackDepth
  have hcount : (s.count c).Holds setting.limits.elementSize (s.count c).operations :=
    ⟨h.main, h.alt, rfl⟩
  have hholds : (perform setting script c (s.count c)).Leads
      (State.Holds setting.limits.elementSize (s.count c).operations) :=
    perform_holds hlimits hcount hmain (le_of_barred?_eq_none hbar).1
  rw [hperform] at hholds
  refine ⟨⟨hdepth, hholds.main, hholds.alt, ?_⟩, hholds.operations⟩
  exact Nat.le_trans (Nat.le_of_eq hholds.operations) (le_of_barred?_eq_none hbar).2

/-- A step keeps the state within the limits. -/
theorem within_step (hlimits : setting.limits.IsRoomy) (h : s.Within setting.limits) :
    (step setting script c s).Leads fun t =>
      t.Within setting.limits ∧ t.operations = s.operations + cost c := by
  cases hstep : step setting script c s with
  | next t => exact next_within hlimits h hstep
  | stop e =>
    cases e with
    | failed fault calls => trivial
    | completed t =>
      -- What returns has the state as it is.
      obtain ⟨hbar, -, -, -, rfl⟩ := step_eq_completed_iff.mp hstep
      exact ⟨h.count hbar, rfl⟩

/-! ### Scripts -/

/-- A chunk that counts as an operation. -/
def Step.isOperation (k : Step) : Bool := Opcode.sixteen < k.chunk.op

theorem countP_append_singleton (before : List Step) (role : Role) (c : Chunk) (s : State) :
    (before ++ [(⟨role, c, s⟩ : Step)]).countP Step.isOperation =
      before.countP Step.isOperation + cost c := by
  simp [List.countP_append, List.countP_singleton, Step.isOperation, cost]

/-- Behind these steps of its script, a state is within limits and has counted their operations. -/
structure Tallies (limits : Limits) (passed : List Step) (s : State) : Prop where
  within : s.Within limits
  operations : s.operations = passed.countP Step.isOperation

theorem Tallies.countP_le {limits : Limits} {passed : List Step} (h : Tallies limits passed s) :
    passed.countP Step.isOperation ≤ limits.operations := by
  rw [← h.operations]
  exact h.within.operations

variable {start : State} {before : List Step}

theorem Passed.tallies (hlimits : setting.limits.IsRoomy)
    (h : Passed setting role script start before s) (hstart : Tallies setting.limits [] start) :
    Tallies setting.limits before s := by
  induction h with
  | nil => exact hstart
  | snoc _ hc hnext ih =>
    obtain ⟨hwithin, hcount⟩ := next_within hlimits ih.within hnext
    refine ⟨hwithin, ?_⟩
    rw [countP_append_singleton, ← ih.operations, hcount]

theorem tallies_of_completed (hlimits : setting.limits.IsRoomy)
    (hstart : Tallies setting.limits [] start)
    (h : (runScript setting role script start).2 = .completed t) :
    Tallies setting.limits (runScript setting role script start).1 t := by
  obtain ⟨before, s, hpassed, ⟨hlength, hrun⟩ | ⟨c, e, hc, hstop, hrun⟩⟩ :=
    exists_passed_runScript setting role script start
  · rw [hrun] at h ⊢
    obtain ⟨-, rfl⟩ := atEnd_eq_completed_iff.mp h
    exact hpassed.tallies hlimits hstart
  · rw [hrun] at h ⊢
    obtain rfl : e = .completed t := h
    have htallies := hpassed.tallies hlimits hstart
    -- The step that ends the script is one more that is behind.
    have hstep : (step setting script c s).Leads fun t =>
        t.Within setting.limits ∧ t.operations = s.operations + cost c :=
      within_step hlimits htallies.within
    rw [hstop] at hstep
    obtain ⟨hwithin, hcount⟩ := hstep
    refine ⟨hwithin, ?_⟩
    rw [countP_append_singleton, ← htallies.operations, hcount]

section Scripts

variable {unlocking locking : Script}

theorem tallies_atStart {limits : Limits} {main : Stack} {calls : List Call}
    (hdepth : main.depth ≤ limits.stackDepth) (hmain : main.Fits limits.elementSize) :
    Tallies limits [] (.atStart main calls) :=
  ⟨⟨hdepth, hmain, nofun, Nat.zero_le _⟩, rfl⟩

theorem Begins.tallies (hlimits : setting.limits.IsRoomy)
    (h : Begins setting unlocking locking role start) : Tallies setting.limits [] start := by
  have hinitial : Tallies setting.limits [] .initial := tallies_atStart (Nat.zero_le _) nofun
  cases h with
  | unlocking => exact hinitial
  | locking _ hcompleted =>
    have hs := (tallies_of_completed hlimits hinitial hcompleted).within
    have hdepth := Nat.le_trans (Nat.le_add_right _ _) hs.depth
    exact tallies_atStart hdepth hs.main

theorem run_within (hlimits : setting.limits.IsRoomy) :
    (∀ role before k after,
      (run setting unlocking locking).stepsOf role = before ++ k :: after →
        k.before.Within setting.limits ∧
          before.countP Step.isOperation ≤ setting.limits.operations) ∧
      ∀ role s, Completes setting unlocking locking role s →
        s.Within setting.limits ∧
          ((run setting unlocking locking).stepsOf role).countP Step.isOperation ≤
            setting.limits.operations := by
  constructor
  · intro role before k after hsteps
    obtain ⟨start, hbegins, hpassed, -, -⟩ := exists_passed_of_stepsOf hsteps
    have htallies := hpassed.tallies hlimits (hbegins.tallies hlimits)
    exact ⟨htallies.within, htallies.countP_le⟩
  · rintro role s ⟨start, hbegins, hcompleted⟩
    have htallies := tallies_of_completed hlimits (hbegins.tallies hlimits) hcompleted
    rw [hbegins.stepsOf_eq]
    exact ⟨htallies.within, htallies.countP_le⟩

/-- At every step of an evaluation, and at the end of every script that is completed, the stacks hold
as many items and the items as many bytes as the limits allow at most, and no more operations of the
script are behind than they allow. -/
theorem execute_within {limits : Limits} (hlimits : limits.IsRoomy) (flags : Flags)
    (checker : Option Checker) (inputIndex : Nat) (unlocking locking : Script) :
    (∀ role before k after,
      (execute limits flags checker inputIndex unlocking locking).stepsOf role =
          before ++ k :: after →
        k.before.Within limits ∧ before.countP Step.isOperation ≤ limits.operations) ∧
      ∀ role s,
        Completes (.ofFlags limits flags checker inputIndex) unlocking locking role s →
          s.Within limits ∧
            ((execute limits flags checker inputIndex unlocking locking).stepsOf role).countP
              Step.isOperation ≤ limits.operations :=
  @run_within (.ofFlags limits flags checker inputIndex) unlocking locking hlimits

/-- A product of two numbers, within the limits before the Genesis upgrade. -/
theorem execute_within_product :
    Limits.beforeGenesis.IsRoomy ∧
      ∀ role before k after,
        (execute .beforeGenesis .none none 0 ⟨[0x51, 0x60]⟩ ⟨[0x95]⟩).stepsOf role =
            before ++ k :: after →
          k.before.Within .beforeGenesis ∧ before.countP Step.isOperation ≤ 500 := by
  have hroomy := Limits.isRoomy_beforeGenesis
  exact ⟨hroomy, (execute_within hroomy .none none 0 ⟨[0x51, 0x60]⟩ ⟨[0x95]⟩).1⟩

end Scripts

end Utxo.Machine
