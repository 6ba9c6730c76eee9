/-
The two halves of an evaluation.

An evaluation that is not refused evaluates the unlocking script from the initial state and, if that
script is completed, the locking script from what it hands over (`runLocking`).

* **`run_eq_of_completed`** — behind a completed unlocking script, an evaluation is that of the
  locking script;
* **`run_result_eq_ok_iff`** — a spend is valid just if both scripts are completed and the stack
  that they leave says so.
-/
import Utxo.Machine.Run

namespace Utxo.Machine

/-- What the steps and the ending of the locking script amount to. -/
def Run.ofLocking (rules : Rules) : List Step × Ending → Run
  | (steps, .failed fault calls) => ⟨.error fault, steps, calls⟩
  | (steps, .completed s) => ⟨judge rules s.main, steps, s.calls⟩

/-- Evaluates a locking script. -/
def runLocking (setting : Setting) (locking : Script) (s : State) : Run :=
  .ofLocking setting.rules (runScript setting .locking locking.chunks s)

/-- The steps of one of the two scripts. -/
def Run.stepsOf (role : Role) (r : Run) : List Step := r.steps.filter (·.role = role)

/-- The setting of an evaluation under a set of flags. -/
def Setting.ofFlags (limits : Limits) (flags : Flags) (checker : Option Checker)
    (inputIndex : Nat) : Setting :=
  ⟨.ofFlags flags, limits, checker, inputIndex⟩

/-- An unlocking script is admitted, and its own evaluation ends without a fault in this state. -/
structure Finishes (setting : Setting) (unlocking : Script) (s : State) : Prop where
  size : unlocking.length ≤ setting.limits.scriptSize
  whole : truncated? unlocking = none
  completed : (runScript setting .unlocking unlocking.chunks .initial).2 = .completed s

/-- The checker that finds every signature valid. -/
def Checker.trusting : Checker := ⟨fun _ _ => .ok true⟩

variable {setting : Setting} {unlocking locking : Script} {s : State}

/-- Behind a completed unlocking script, an evaluation is that of the locking script. -/
theorem run_eq_of_completed (haccepted : refusal? setting unlocking locking = none)
    (hcompleted : (runScript setting .unlocking unlocking.chunks .initial).2 = .completed s) :
    run setting unlocking locking =
      { runLocking setting locking s.handOver with
        steps := (runScript setting .unlocking unlocking.chunks .initial).1 ++
          (runLocking setting locking s.handOver).steps } := by
  unfold run runLocking
  rw [haccepted]
  generalize runScript setting .unlocking unlocking.chunks .initial = r at hcompleted ⊢
  obtain ⟨steps, ending⟩ := r
  cases hcompleted
  dsimp only
  obtain ⟨more, t | ⟨fault, calls⟩⟩ := runScript setting .locking locking.chunks s.handOver <;> rfl

theorem runLocking_result_eq_ok_iff :
    (runLocking setting locking s).result = .ok () ↔
      ∃ t, (runScript setting .locking locking.chunks s).2 = .completed t ∧
        judge setting.rules t.main = .ok () := by
  unfold runLocking
  obtain ⟨steps, t | ⟨fault, calls⟩⟩ := runScript setting .locking locking.chunks s <;>
    simp [Run.ofLocking]

theorem runLocking_calls_of_completed {t : State}
    (h : (runScript setting .locking locking.chunks s).2 = .completed t) :
    (runLocking setting locking s).calls = t.calls := by
  unfold runLocking
  generalize runScript setting .locking locking.chunks s = r at h ⊢
  obtain ⟨steps, ending⟩ := r
  cases h
  rfl

/-- A spend is valid just if both scripts are completed and the stack that they leave says so. -/
theorem run_result_eq_ok_iff :
    (run setting unlocking locking).result = .ok () ↔
      refusal? setting unlocking locking = none ∧
        ∃ s, (runScript setting .unlocking unlocking.chunks .initial).2 = .completed s ∧
          (runLocking setting locking s.handOver).result = .ok () := by
  by_cases haccepted : refusal? setting unlocking locking = none
  · by_cases hcompleted :
        ∃ s, (runScript setting .unlocking unlocking.chunks .initial).2 = .completed s
    · obtain ⟨s, hs⟩ := hcompleted
      simp [run_eq_of_completed haccepted hs, haccepted, hs]
    · -- A fault of the unlocking script is the result.
      refine iff_of_false (fun h => ?_) fun ⟨_, s, hs, _⟩ => hcompleted ⟨s, hs⟩
      unfold run at h
      rw [haccepted] at h
      generalize runScript setting .unlocking unlocking.chunks .initial = r at h hcompleted
      obtain ⟨steps, t | ⟨fault, calls⟩⟩ := r
      · exact hcompleted ⟨t, rfl⟩
      · cases h
  · -- So is a refusal.
    refine iff_of_false (fun h => ?_) fun ⟨h, _⟩ => haccepted h
    obtain ⟨fault, hfault⟩ := Option.ne_none_iff_exists'.mp haccepted
    rw [run, hfault] at h
    cases h

/-! ### The roles of steps -/

theorem runScript_role (role : Role) (script : List Chunk) (s : State) :
    ∀ step ∈ (runScript setting role script s).1, step.role = role := by
  -- Over the chunks ahead; the whole script stays what signatures commit to.
  suffices h : ∀ ahead s, ∀ step ∈ (runChunks setting role script ahead s).1, step.role = role from
    h script s
  intro ahead
  induction ahead with
  | nil => simp [runChunks]
  | cons c ahead ih =>
    intro s
    rw [runChunks]
    cases step setting script c s with
    | next u => simpa using ih u
    | stop e => simp

theorem runLocking_steps :
    (runLocking setting locking s).steps = (runScript setting .locking locking.chunks s).1 := by
  unfold runLocking
  obtain ⟨steps, t | ⟨fault, calls⟩⟩ := runScript setting .locking locking.chunks s <;> rfl

/-- Behind a completed unlocking script, the other steps are those of the locking script. -/
theorem run_stepsOf_locking (haccepted : refusal? setting unlocking locking = none)
    (hcompleted : (runScript setting .unlocking unlocking.chunks .initial).2 = .completed s) :
    (run setting unlocking locking).stepsOf .locking =
      (runLocking setting locking s.handOver).steps := by
  rw [run_eq_of_completed haccepted hcompleted, Run.stepsOf, List.filter_append,
    List.filter_eq_nil_iff.mpr, List.filter_eq_self.mpr, List.nil_append]
  · intro step hstep
    rw [runLocking_steps] at hstep
    simp [runScript_role _ _ _ step hstep]
  · intro step hstep
    simp [runScript_role _ _ _ step hstep]

end Utxo.Machine
