/-
Evaluations with other questions on record.

The questions asked so far are part of the state, and only the checker looks at them.  A `Retelling`
puts others in their place.  If what is asked about one script is retold as what is asked about
another one, and is answered in the same way (`Retelling.Suits`), then the same chunks lead to the
same in both, the questions apart.

* **`step_retold`** — a chunk leads to the same, retold;
* **`runChunks_retold`** — so do several, and the same ones are noted on the way.
-/
import Utxo.Proofs.Machine.Step

namespace Utxo.Machine

/-- Other questions in the place of those on record. Each new question is retold by itself. -/
structure Retelling where
  record : List Call → List Call
  call : Call → Call
  record_append : ∀ calls c, record (calls ++ [c]) = record calls ++ [call c]

/-- What is asked about one script is retold as what is asked about the other one, and the answers
are the same. -/
structure Retelling.Suits (f : Retelling) (setting : Setting) (script script' : List Chunk) :
    Prop where
  call_eq : ∀ signature key start inputIndex flag,
    f.call ⟨signature, key, scriptCode script start signature flag, inputIndex, flag⟩ =
      ⟨signature, key, scriptCode script' start signature flag, inputIndex, flag⟩
  answer_eq : ∀ checker ∈ setting.checker, ∀ calls call,
    checker.answer (f.record calls) (f.call call) = checker.answer calls call

/-- The state with its questions retold. -/
def State.retold (f : Retelling) (s : State) : State := { s with calls := f.record s.calls }

/-- The ending with its questions retold. -/
def Ending.retold (f : Retelling) : Ending → Ending
  | completed s => completed (s.retold f)
  | failed fault calls => failed fault (f.record calls)

/-- The move with its questions retold. -/
def Move.retold (f : Retelling) : Move → Move
  | next s => next (s.retold f)
  | stop e => stop (e.retold f)

/-- The step with its questions retold. -/
def Step.retold (f : Retelling) (step : Step) : Step :=
  { step with before := step.before.retold f }

variable {f : Retelling} {setting : Setting} {script script' : List Chunk}

/-! ### The parts of a step -/

theorem Move.ofExcept_retold (s : State) (r : Except Fault State) :
    Move.ofExcept (s.retold f) (r.map (State.retold f)) = (Move.ofExcept s r).retold f := by
  cases r <;> rfl

theorem Move.andThen_retold {g h : State → Move} (m : Move)
    (hgh : ∀ s, g (s.retold f) = (h s).retold f) :
    (m.retold f).andThen g = (m.andThen h).retold f := by
  cases m with
  | next s => exact hgh s
  | stop e => rfl

/-- What changes the main stack alone does not look at the questions. -/
theorem ofExcept_main_retold {s t : State} (h : t = s.retold f) (r : Except Fault Stack) :
    Move.ofExcept t (r.map fun main => { t with main }) =
      (Move.ofExcept s (r.map fun main => { s with main })).retold f := by
  subst h
  cases r <;> rfl

@[simp] theorem State.main_retold (s : State) : (s.retold f).main = s.main := rfl

theorem Conditional.run_retold (rules : Rules) (op : Conditional) (s : State) :
    op.run rules (s.retold f) = (op.run rules s).map (State.retold f) := by
  cases op with
  | opening negated =>
    -- Only an executed opening looks at the main stack.
    by_cases h : s.isExecuting
    · rw [run, run, if_pos h, if_pos (by exact h), State.main_retold]
      cases popCondition rules s.main <;> rfl
    · rw [run, run, if_neg h, if_neg (by exact h)]
      rfl
  | turn =>
    simp only [run, State.retold]
    split
    · split <;> rfl
    · rfl
  | closing =>
    simp only [run, State.retold]
    split <;> rfl

theorem settleCheck_retold (rules : Rules) (signature : Bytes) (valid : Bool) (s : State) :
    settleCheck rules signature valid (s.retold f) =
      (settleCheck rules signature valid s).retold f := by
  unfold settleCheck
  rw [apply_ite (Move.retold f)]
  rfl

theorem runCheckSig_retold (h : f.Suits setting script script') (s : State) :
    runCheckSig setting script' (s.retold f) = (runCheckSig setting script s).retold f := by
  simp only [runCheckSig, State.main_retold]
  split
  · rfl
  · next key signature main _ =>
    split
    · exact settleCheck_retold setting.rules signature false { s with main }
    · split
      · rfl
      · split
        · rfl
        · next flag _ _ _ checker hchecker =>
          -- The new question is retold by itself, and the answer is the same.
          rw [← settleCheck_retold]
          simp only [State.retold, askChecker, f.record_append, ← h.call_eq,
            h.answer_eq checker hchecker]

theorem Instruction.run_retold (h : f.Suits setting script script') (op : Opcode)
    (instr : Instruction) (s : State) :
    instr.run setting script' op (s.retold f) = (instr.run setting script op s).retold f := by
  cases instr with
  | nop => rfl
  | upgradableNop n =>
    simp only [run]
    split_ifs <;> rfl
  | conditional c => rw [run, run, Conditional.run_retold, Move.ofExcept_retold]
  | ret =>
    simp only [run, runReturn, apply_ite (Move.retold f)]
    rfl
  | toAlt =>
    simp only [run, moveToAlt, State.main_retold]
    cases popSlot s.main <;> rfl
  | fromAlt =>
    simp only [run, moveFromAlt, State.retold]
    split <;> rfl
  | codeSeparator => rfl
  | checkSig => exact runCheckSig_retold h s
  | checkSigVerify =>
    rw [run, run, runCheckSig_retold h]
    exact Move.andThen_retold _ fun s => ofExcept_main_retold rfl _
  | disabled | reservedConditional | reserved | unsupported | invalid => rfl
  -- What is left acts on the main stack alone.
  | _ =>
    simp only [run]
    exact ofExcept_main_retold rfl _

theorem enter_retold (c : Chunk) (s : State) :
    enter setting c (s.retold f) = (enter setting c s).map (State.retold f) := by
  rw [enter_eq, enter_eq]
  -- No rule that bars a chunk looks at the questions.
  have hbarred : barred? setting c (s.retold f).isExecuting ((s.retold f).count c).operations =
      barred? setting c s.isExecuting (s.count c).operations := rfl
  rw [hbarred]
  cases barred? setting c s.isExecuting (s.count c).operations <;> rfl

theorem perform_retold (h : f.Suits setting script script') (c : Chunk) (s : State) :
    perform setting script' c (s.retold f) = (perform setting script c s).retold f := by
  by_cases hs : !s.isExecuting && !(Instruction.ofOpcode c.op).isConditional
  · rw [perform, perform, if_pos hs, if_pos (by exact hs)]
    rfl
  · rw [perform, perform, if_neg hs, if_neg (by exact hs)]
    cases c.data with
    | some data => rfl
    | none => exact Instruction.run_retold h c.op _ s

theorem settle_retold (s : State) :
    settle setting (s.retold f) = (settle setting s).retold f := by
  unfold settle
  rw [apply_ite (Move.retold f)]
  rfl

/-! ### Steps and scripts -/

/-- A chunk leads to the same, retold. -/
theorem step_retold (h : f.Suits setting script script') (c : Chunk) (s : State) :
    step setting script' c (s.retold f) = (step setting script c s).retold f := by
  rw [step, step, enter_retold, Move.ofExcept_retold]
  refine Move.andThen_retold _ fun s => ?_
  rw [perform_retold h]
  exact Move.andThen_retold _ settle_retold

theorem atEnd_retold (s : State) : atEnd (s.retold f) = (atEnd s).retold f := by
  unfold atEnd
  rw [apply_ite (Ending.retold f)]
  rfl

/-- Chunks lead to the same, retold, and the same ones are noted on the way. -/
theorem runChunks_retold (h : f.Suits setting script script') (role : Role) (ahead : List Chunk)
    (s : State) :
    runChunks setting role script' ahead (s.retold f) =
      ((runChunks setting role script ahead s).1.map (Step.retold f),
        (runChunks setting role script ahead s).2.retold f) := by
  -- Over the chunks ahead: a step from the state retold is the step from the state, retold.
  induction ahead generalizing s with
  | nil => rw [runChunks, runChunks, atEnd_retold, List.map_nil]
  | cons c ahead ih =>
    simp only [runChunks, step_retold h]
    cases step setting script c s with
    | next s' =>
      simp only [Move.retold, ih s', List.map_cons]
      rfl
    | stop e => rfl

end Utxo.Machine
