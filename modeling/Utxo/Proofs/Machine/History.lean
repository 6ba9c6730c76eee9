/-
Evaluations that do not look back.

The questions asked so far are part of the state, and a checker may take them into account.  One
that does not is *memoryless*; with it, an evaluation goes the same way whatever has been asked
before.  `State.after` puts questions before those of a state.

* **`runScript_after`** — a script goes the same way and ends alike, questions asked before apart.
-/
import Utxo.Proofs.Machine.Retelling

namespace Utxo.Machine

/-- The answers do not depend on what has been asked before. -/
def Checker.IsMemoryless (checker : Checker) : Prop :=
  ∀ asked asked' call, checker.answer asked call = checker.answer asked' call

/-- If there is a checker at all, it is memoryless. -/
def Setting.IsMemoryless (setting : Setting) : Prop :=
  ∀ checker ∈ setting.checker, checker.IsMemoryless

/-- The state with questions asked before its own. -/
def State.after (earlier : List Call) (s : State) : State := { s with calls := earlier ++ s.calls }

/-- The ending with questions asked before its own. -/
def Ending.after (earlier : List Call) : Ending → Ending
  | completed s => completed (s.after earlier)
  | failed fault calls => failed fault (earlier ++ calls)

/-- The step with questions asked before its own. -/
def Step.after (earlier : List Call) (step : Step) : Step :=
  { step with before := step.before.after earlier }

variable {setting : Setting} {earlier : List Call}

/-- The record with questions put before it. -/
def Retelling.after (earlier : List Call) : Retelling where
  record calls := earlier ++ calls
  call c := c
  record_append calls c := (List.append_assoc earlier calls [c]).symm

theorem Retelling.suits_after (h : setting.IsMemoryless) (earlier : List Call)
    (script : List Chunk) : (after earlier).Suits setting script script where
  call_eq _ _ _ _ _ := rfl
  answer_eq checker hchecker _ call := h checker hchecker _ _ call

theorem Ending.retold_after (e : Ending) : e.retold (.after earlier) = e.after earlier := by
  cases e <;> rfl

/-- A script goes the same way, questions asked before apart. -/
theorem runScript_after (h : setting.IsMemoryless) (role : Role) (script : List Chunk) (s : State) :
    runScript setting role script (s.after earlier) =
      ((runScript setting role script s).1.map (Step.after earlier),
        (runScript setting role script s).2.after earlier) := by
  rw [← Ending.retold_after]
  exact runChunks_retold (Retelling.suits_after h earlier script) role script s

end Utxo.Machine
