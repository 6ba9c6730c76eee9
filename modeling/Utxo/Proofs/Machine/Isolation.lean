/-
What a locking script can know of the unlocking script.

The locking script is evaluated from the main stack that the unlocking script leaves and from
nothing else of its state.  With a checker that does not look back, its evaluation is a function of
that stack.

* **`runLocking_handOver`** — what is handed over is the main stack, questions asked before apart;
* **`execute_congr_of_main_eq`** — two unlocking scripts that leave the same main stack have the
  locking script evaluated in the same way, with the same result.
-/
import Utxo.Machine.Site
import Utxo.Proofs.Machine.Handover
import Utxo.Proofs.Machine.History

namespace Utxo.Machine

/-- The run with questions asked before its own. -/
def Run.after (earlier : List Call) (r : Run) : Run :=
  ⟨r.result, r.steps.map (Step.after earlier), earlier ++ r.calls⟩

/-- What an observer is told of a step: the place, and the main stack before it. -/
def Step.seen (step : Step) : Visit × Stack := (step.visit, step.before.main)

variable {setting : Setting}

theorem State.handOver_eq_after (s : State) : s.handOver = (atStart s.main []).after s.calls := by
  simp [handOver, atStart, after]

/-- What is handed over is the main stack, questions asked before apart. -/
theorem runLocking_handOver (h : setting.IsMemoryless) (locking : Script) (s : State) :
    runLocking setting locking s.handOver =
      (runLocking setting locking (.atStart s.main [])).after s.calls := by
  unfold runLocking
  rw [State.handOver_eq_after, runScript_after h]
  obtain ⟨steps, t | ⟨fault, calls⟩⟩ :=
    runScript setting .locking locking.chunks (.atStart s.main []) <;> rfl

theorem Run.map_seen_after (earlier : List Call) (r : Run) :
    (r.after earlier).steps.map Step.seen = r.steps.map Step.seen := by
  rw [after, List.map_map]
  rfl

/-- Behind a completed unlocking script, an evaluation is that of the locking script from the main
stack alone, after the questions of the unlocking script. -/
theorem run_seen_of_completed (h : setting.IsMemoryless) {unlocking locking : Script} {s : State}
    (haccepted : refusal? setting unlocking locking = none)
    (hcompleted : (runScript setting .unlocking unlocking.chunks .initial).2 = .completed s) :
    (run setting unlocking locking).result =
        (runLocking setting locking (.atStart s.main [])).result ∧
      ((run setting unlocking locking).stepsOf .locking).map Step.seen =
        (runLocking setting locking (.atStart s.main [])).steps.map Step.seen ∧
      (run setting unlocking locking).calls =
        s.calls ++ (runLocking setting locking (.atStart s.main [])).calls := by
  rw [run_stepsOf_locking haccepted hcompleted, run_eq_of_completed haccepted hcompleted,
    runLocking_handOver h]
  exact ⟨rfl, Run.map_seen_after s.calls _, rfl⟩

/-- Two unlocking scripts that leave the same main stack have the locking script evaluated in the
same way: with the same result, the same things seen on the way, and the same questions asked. -/
theorem execute_congr_of_main_eq (limits : Limits) (flags : Flags) (checker : Option Checker)
    (inputIndex : Nat) (unlocking₁ unlocking₂ locking : Script) {s₁ s₂ : State}
    (hmemoryless : (Setting.ofFlags limits flags checker inputIndex).IsMemoryless)
    (haccepted₁ : refusal? (.ofFlags limits flags checker inputIndex) unlocking₁ locking = none)
    (haccepted₂ : refusal? (.ofFlags limits flags checker inputIndex) unlocking₂ locking = none)
    (hcompleted₁ : (runScript (.ofFlags limits flags checker inputIndex) .unlocking
      unlocking₁.chunks .initial).2 = .completed s₁)
    (hcompleted₂ : (runScript (.ofFlags limits flags checker inputIndex) .unlocking
      unlocking₂.chunks .initial).2 = .completed s₂)
    (hmain : s₁.main = s₂.main) :
    (execute limits flags checker inputIndex unlocking₁ locking).result =
        (execute limits flags checker inputIndex unlocking₂ locking).result ∧
      ((execute limits flags checker inputIndex unlocking₁ locking).stepsOf .locking).map
          Step.seen =
        ((execute limits flags checker inputIndex unlocking₂ locking).stepsOf .locking).map
          Step.seen ∧
      ∃ new, (execute limits flags checker inputIndex unlocking₁ locking).calls = s₁.calls ++ new ∧
        (execute limits flags checker inputIndex unlocking₂ locking).calls = s₂.calls ++ new := by
  obtain ⟨hresult₁, hseen₁, hcalls₁⟩ := run_seen_of_completed hmemoryless haccepted₁ hcompleted₁
  obtain ⟨hresult₂, hseen₂, hcalls₂⟩ := run_seen_of_completed hmemoryless haccepted₂ hcompleted₂
  -- Both locking scripts are evaluated from the one main stack.
  rw [hmain] at hresult₁ hseen₁ hcalls₁
  exact ⟨hresult₁.trans hresult₂.symm, hseen₁.trans hseen₂.symm, _, hcalls₁, hcalls₂⟩

theorem Checker.isMemoryless_trusting : trusting.IsMemoryless := fun _ _ _ => rfl

/-- One script leaves a number on the other stack, and another returns before its last chunk. -/
theorem execute_congr_of_main_eq_early_return :
    let setting : Setting := .ofFlags .afterGenesis .standard (some .trusting) 0
    let s : State := .atStart ⟨[[1]], [Stack.defaultName]⟩ []
    let s₁ : State := { s with alt := s.main, offset := 3, operations := 1 }
    let s₂ : State := { s with offset := 1, operations := 1 }
    let unlocking₁ : Script := ⟨[0x51, 0x6b, 0x51]⟩
    let unlocking₂ : Script := ⟨[0x51, 0x6a, 0x00]⟩
    let locking : Script := ⟨[0x76, 0x87]⟩
    (runScript setting .unlocking unlocking₁.chunks .initial).2 = .completed s₁ ∧
      (runScript setting .unlocking unlocking₂.chunks .initial).2 = .completed s₂ ∧
      s₁ ≠ s₂ ∧
      (execute .afterGenesis .standard (some .trusting) 0 unlocking₁ locking).result =
        (execute .afterGenesis .standard (some .trusting) 0 unlocking₂ locking).result := by
  intro setting s s₁ s₂ unlocking₁ unlocking₂ locking
  have hmemoryless : setting.IsMemoryless := by
    intro checker hchecker
    obtain rfl : Checker.trusting = checker := Option.some.inj hchecker
    exact Checker.isMemoryless_trusting
  have hcompleted₁ :
      (runScript setting .unlocking unlocking₁.chunks .initial).2 = .completed s₁ := by decide
  have hcompleted₂ :
      (runScript setting .unlocking unlocking₂.chunks .initial).2 = .completed s₂ := by decide
  have hmain : s₁.main = s₂.main := rfl
  refine ⟨hcompleted₁, hcompleted₂, by decide, ?_⟩
  exact (execute_congr_of_main_eq .afterGenesis .standard (some .trusting) 0 unlocking₁ unlocking₂
    locking hmemoryless (by decide) (by decide) hcompleted₁ hcompleted₂ hmain).1

end Utxo.Machine
