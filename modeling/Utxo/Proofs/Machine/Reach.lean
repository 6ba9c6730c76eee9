/-
What holds throughout an evaluation.

An evaluation reaches a state if it comes to the state's script and passes over some of its chunks.
A property that holds to begin with, that every step keeps and that survives from one script to the
next is *kept* (`IsKept`), and holds of every state that is reached.

* **`IsKept.reached`** — what is kept holds between any two steps;
* **`IsKept.completed`** — and behind every script that is completed.
-/
import Utxo.Proofs.Machine.Alignment
import Utxo.Proofs.Machine.Trace

namespace Utxo.Machine

/-- A property holds to begin with, every step keeps it, and it survives from one script to the next.
-/
structure IsKept (setting : Setting) (p : State → Prop) : Prop where
  initial : p .initial
  step : ∀ script c s, p s → (step setting script c s).Leads p
  handOver : ∀ s, p s → p s.handOver

/-- An evaluation comes to this state, between two steps of the script of this role. -/
def Reaches (setting : Setting) (unlocking locking : Script) (role : Role) (s : State) : Prop :=
  ∃ start steps, Begins setting unlocking locking role start ∧
    Passed setting role (scriptOf unlocking locking role).chunks start steps s

variable {setting : Setting} {p : State → Prop} {unlocking locking : Script} {role : Role}
  {script : List Chunk} {start s : State} {steps : List Step} {k : Step}

theorem exists_passed_of_mem (h : k ∈ (run setting unlocking locking).steps) :
    ∃ start before, Begins setting unlocking locking k.role start ∧
      Passed setting k.role (scriptOf unlocking locking k.role).chunks start before k.before ∧
      (scriptOf unlocking locking k.role).chunks[before.length]? = some k.chunk := by
  obtain ⟨before, after, hsteps⟩ := exists_stepsOf_of_mem h
  obtain ⟨start, hbegins, hpassed, hc, -⟩ := exists_passed_of_stepsOf hsteps
  exact ⟨start, before, hbegins, hpassed, hc⟩

/-- The state before a step is reached. -/
theorem reaches_of_mem (h : k ∈ (run setting unlocking locking).steps) :
    Reaches setting unlocking locking k.role k.before := by
  obtain ⟨start, before, hbegins, hpassed, -⟩ := exists_passed_of_mem h
  exact ⟨start, before, hbegins, hpassed⟩

namespace IsKept

theorem passed (h : IsKept setting p) (hpassed : Passed setting role script start steps s)
    (hstart : p start) : p s := by
  induction hpassed with
  | nil => exact hstart
  | @snoc steps c s t _ _ hnext ih =>
    have hleads := h.step script c s ih
    rwa [hnext] at hleads

theorem begins (h : IsKept setting p) (hbegins : Begins setting unlocking locking role s) : p s := by
  cases hbegins with
  | unlocking => exact h.initial
  | locking _ hcompleted =>
    exact h.handOver _ (of_runScript (h.step _) h.initial hcompleted)

/-- What is kept holds between any two steps. -/
theorem reached (h : IsKept setting p) (hreaches : Reaches setting unlocking locking role s) :
    p s := by
  obtain ⟨start, steps, hbegins, hpassed⟩ := hreaches
  exact h.passed hpassed (h.begins hbegins)

/-- What is kept holds behind every script that is completed. -/
theorem completed (h : IsKept setting p) (hcompletes : Completes setting unlocking locking role s) :
    p s := by
  obtain ⟨start, hbegins, hcompleted⟩ := hcompletes
  exact of_runScript (h.step _) (h.begins hbegins) hcompleted

end IsKept

end Utxo.Machine
