/-
What stands behind a return.

An `OP_RETURN` that is executed outside of all conditionals is the last chunk of its script to be
looked at. What stands behind it is still part of what the signatures before it commit to, so a
checker can tell two such scripts apart.  One that does not look at what a signature commits to is
*blind*; with it, two locking scripts that differ behind the `OP_RETURN` only have the same
evaluation, what signatures commit to apart.

* **`step_ret_eq_stop`** — an `OP_RETURN` outside of all conditionals stops its script;
* **`runChunks_append_of_stop`** — the chunks behind one that stops a script do not matter;
* **`run_retold_blind_of_stop`** — nor do they for the whole evaluation, with a blind checker;
* **`execute_blind_of_return`** — so the bytes behind an `OP_RETURN` do not.
-/
import Utxo.Proofs.Machine.Ends
import Utxo.Proofs.Machine.Retelling
import Utxo.Proofs.Script.Lossless

namespace Utxo.Machine

/-! ### Blind checkers -/

/-- The question without what the signature commits to. -/
def Call.blind (c : Call) : Call := { c with scriptCode := .empty }

/-- The answers do not depend on what signatures commit to, neither in the question nor in those
asked before. -/
def Checker.IsBlind (checker : Checker) : Prop :=
  ∀ asked asked' call call', asked.map Call.blind = asked'.map Call.blind →
    call.blind = call'.blind → checker.answer asked call = checker.answer asked' call'

/-- The record without what signatures commit to. -/
def Retelling.blind : Retelling where
  record calls := calls.map Call.blind
  call := Call.blind
  record_append _ _ := List.map_append

/-- The step without what the signatures of the questions before it commit to. An observer is told
no more of it. -/
def Step.blind (step : Step) : Step := step.retold .blind

/-- An evaluation retold. -/
def Run.retold (f : Retelling) (r : Run) : Run :=
  ⟨r.result, r.steps.map (Step.retold f), f.record r.calls⟩

variable {setting : Setting} {role : Role} {script behind behind' ahead : List Chunk} {c : Chunk}
  {s : State} {k : Step} {e : Ending} {unlocking : Script}

/-- Without chunks to commit to, a signature commits to nothing. -/
theorem Retelling.suits_blind (h : ∀ checker ∈ setting.checker, checker.IsBlind)
    (script : List Chunk) : blind.Suits setting script [] where
  call_eq signature key start inputIndex flag := by
    have hempty : scriptCode [] start signature flag = .empty := by
      rw [scriptCode, List.drop_nil]
      rfl
    rw [hempty]
    rfl
  answer_eq checker hchecker calls call := by
    refine h checker hchecker _ _ _ _ ?_ rfl
    rw [blind, List.map_map]
    rfl

/-! ### Chunks behind a stop -/

/-- An `OP_RETURN` that is executed outside of all conditionals stops its script. -/
theorem step_ret_eq_stop (hexecuting : s.isExecuting) (hopen : s.branches = []) :
    ∃ e, step setting script (.ofOpcode Opcode.ret) s = .stop e := by
  rw [step]
  cases henter : enter setting (.ofOpcode Opcode.ret) s with
  | error fault => exact ⟨_, rfl⟩
  | ok t =>
    obtain ⟨-, rfl⟩ := enter_eq_ok_iff.mp henter
    have hperform : perform setting script (.ofOpcode Opcode.ret) (s.count (.ofOpcode Opcode.ret)) =
        Instruction.runReturn setting.rules (s.count (.ofOpcode Opcode.ret)) :=
      perform_of_isExecuting (by exact hexecuting)
    have hclosed : (s.count (.ofOpcode Opcode.ret)).branches.isEmpty := by
      rw [List.isEmpty_iff]
      exact hopen
    rw [Move.ofExcept, Move.andThen, hperform, Instruction.runReturn, if_pos hclosed]
    split_ifs
    · exact ⟨_, rfl⟩
    · exact ⟨_, rfl⟩

/-- The first step is at the first chunk. -/
theorem before_eq_of_runChunks_cons
    (hk : (runChunks setting role script (c :: ahead) s).1[0]? = some k) : k.before = s := by
  rw [runChunks] at hk
  cases hstep : step setting script c s with
  | next t =>
    rw [hstep] at hk
    rw [← Option.some.inj hk]
  | stop e =>
    rw [hstep] at hk
    rw [← Option.some.inj hk]

/-- The chunks behind one that stops a script do not matter. -/
theorem runChunks_append_of_stop (behind' : List Chunk)
    (hk : (runChunks setting role script (ahead ++ c :: behind) s).1[ahead.length]? = some k)
    (hstop : step setting script c k.before = .stop e) :
    runChunks setting role script (ahead ++ c :: behind') s =
      runChunks setting role script (ahead ++ c :: behind) s := by
  induction ahead generalizing s with
  | nil =>
    rw [before_eq_of_runChunks_cons hk] at hstop
    rw [List.nil_append, List.nil_append, runChunks, runChunks, hstop]
  | cons d ahead ih =>
    rw [List.cons_append] at hk ⊢
    rw [List.cons_append, runChunks, runChunks]
    rw [runChunks] at hk
    cases hstep : step setting script d s with
    | stop e => rfl
    | next t =>
      rw [hstep] at hk
      dsimp only
      rw [ih (by simpa using hk)]

/-! ### Both scripts -/

theorem Run.ofLocking_retold (f : Retelling) (rules : Rules) (steps : List Step) (e : Ending) :
    (Run.ofLocking rules (steps, e)).retold f =
      .ofLocking rules (steps.map (Step.retold f), e.retold f) := by
  cases e <;> rfl

theorem runLocking_retold_blind (h : ∀ checker ∈ setting.checker, checker.IsBlind)
    (locking : Script) (s : State) :
    (runLocking setting locking s).retold .blind =
      .ofLocking setting.rules
        (runChunks setting .locking [] locking.chunks (s.retold .blind)) := by
  rw [runChunks_retold (Retelling.suits_blind h locking.chunks), ← Run.ofLocking_retold]
  rfl

variable {locking locking' : Script}

/-- Another locking script is refused no more than one that is not, if it is not too long, not empty
and has no truncated chunk. -/
theorem refusal?_eq_none_of_locking (haccepted : refusal? setting unlocking locking = none)
    (hsize : locking'.length ≤ setting.limits.scriptSize) (hempty : locking'.isEmpty = false)
    (hwhole : ∀ c ∈ locking'.chunks, c.isTruncated = false) :
    refusal? setting unlocking locking' = none := by
  rw [refusal?_eq_none_iff] at haccepted ⊢
  rintro (hlong | hlong | ⟨-, hboth⟩ | hpush | ⟨c, hc, htruncated⟩)
  · exact haccepted (.inl hlong)
  · omega
  · rw [hempty] at hboth
    cases hboth
  · exact haccepted (.inr (.inr (.inr (.inl hpush))))
  · rcases List.mem_append.mp hc with hold | hnew
    · exact haccepted (.inr (.inr (.inr (.inr ⟨c, List.mem_append_left _ hold, htruncated⟩))))
    · rw [hwhole c hnew] at htruncated
      cases htruncated

/-- With a blind checker, two locking scripts that are the same up to a chunk that stops one of them
have the same evaluation, what signatures commit to apart. -/
theorem run_retold_blind_of_stop (h : ∀ checker ∈ setting.checker, checker.IsBlind)
    (haccepted' : refusal? setting unlocking locking = none →
      refusal? setting unlocking locking' = none)
    (hchunks : locking.chunks = ahead ++ c :: behind)
    (hchunks' : locking'.chunks = ahead ++ c :: behind')
    (hk : ((run setting unlocking locking).stepsOf .locking)[ahead.length]? = some k)
    (hstop : step setting locking.chunks c k.before = .stop e) :
    (run setting unlocking locking').retold .blind =
      (run setting unlocking locking).retold .blind := by
  obtain ⟨start, hstart⟩ := exists_begins_of_mem (List.mem_of_getElem? hk)
  rw [hstart.stepsOf_eq] at hk
  cases hstart with
  | @locking s haccepted hcompleted =>
    have hk' : (runChunks setting .locking [] (ahead ++ c :: behind)
        (s.handOver.retold .blind)).1[ahead.length]? = some (k.retold .blind) := by
      rw [runChunks_retold (Retelling.suits_blind h locking.chunks), List.getElem?_map, ← hchunks]
      exact congrArg (Option.map _) hk
    have hstop' : step setting [] c (k.retold .blind).before = .stop (e.retold .blind) := by
      have hretold := step_retold (Retelling.suits_blind h locking.chunks) c k.before
      rw [hstop] at hretold
      exact hretold
    -- Retold, both scripts have nothing to commit to, and there the chunks behind do not matter.
    have hlocking : (runLocking setting locking' s.handOver).retold .blind =
        (runLocking setting locking s.handOver).retold .blind := by
      rw [runLocking_retold_blind h, runLocking_retold_blind h, hchunks, hchunks',
        runChunks_append_of_stop behind' hk' hstop']
    obtain ⟨hresult, hsteps, hcalls⟩ := Run.mk.inj hlocking
    rw [run_eq_of_completed haccepted hcompleted,
      run_eq_of_completed (haccepted' haccepted) hcompleted]
    simp only [Run.retold, List.map_append, hresult, hsteps, hcalls]

/-- With a blind checker, the bytes behind an `OP_RETURN` that is executed outside of all
conditionals do not matter: the evaluation goes through the same steps, asks the same questions and
has the same result, what signatures commit to apart. -/
theorem execute_blind_of_return (limits : Limits) (flags : Flags) (checker : Option Checker)
    (inputIndex : Nat) (unlocking : Script) (before after after' : Bytes) {k : Step}
    (hblind : ∀ c ∈ checker, c.IsBlind)
    (hbefore : ∀ c ∈ Chunk.decode before, c.isTruncated = false)
    (hafter' : ∀ c ∈ Chunk.decode after', c.isTruncated = false)
    (hsize : (before ++ Opcode.ret :: after').length ≤ limits.scriptSize)
    (hk : ((execute limits flags checker inputIndex unlocking
      ⟨before ++ Opcode.ret :: after⟩).stepsOf .locking)[(Chunk.decode before).length]? = some k)
    (hexecuting : k.before.isExecuting) (hopen : k.before.branches = []) :
    let r := execute limits flags checker inputIndex unlocking ⟨before ++ Opcode.ret :: after⟩
    let r' := execute limits flags checker inputIndex unlocking ⟨before ++ Opcode.ret :: after'⟩
    r'.steps.map Step.blind = r.steps.map Step.blind ∧
      r'.calls.map Call.blind = r.calls.map Call.blind ∧ r'.result = r.result := by
  intro r r'
  have hchunks (more : Bytes) : Script.chunks ⟨before ++ Opcode.ret :: more⟩ =
      Chunk.decode before ++ .ofOpcode Opcode.ret :: Chunk.decode more := by
    rw [Script.chunks, Chunk.decode_append hbefore, Chunk.decode_opcode rfl]
  have hwhole : ∀ c ∈ Script.chunks ⟨before ++ Opcode.ret :: after'⟩, c.isTruncated = false := by
    rw [hchunks, List.forall_mem_append, List.forall_mem_cons]
    exact ⟨hbefore, rfl, hafter'⟩
  have hempty : Script.isEmpty ⟨before ++ Opcode.ret :: after'⟩ = false := by
    simp [Script.isEmpty]
  obtain ⟨e, hstop⟩ := step_ret_eq_stop hexecuting hopen
  have hretold : r'.retold .blind = r.retold .blind :=
    run_retold_blind_of_stop hblind
      (fun haccepted => refusal?_eq_none_of_locking haccepted hsize hempty hwhole)
      (hchunks after) (hchunks after') hk hstop
  obtain ⟨hresult, hsteps, hcalls⟩ := Run.mk.inj hretold
  exact ⟨hsteps, hcalls, hresult⟩

theorem Checker.isBlind_trusting : trusting.IsBlind := fun _ _ _ _ _ _ => rfl

/-- A signature check before the `OP_RETURN`: the two signatures commit to different bytes, and all
else is the same. -/
theorem execute_blind_of_return_behind_check :
    let unlocking : Script := ⟨[0x01, 0x01, 0x01, 0x02]⟩
    let before : Bytes := [0xac]
    let after : Bytes := [0x51]
    let after' : Bytes := [0x02, 0x87, 0x63]
    let r := execute .afterGenesis .afterGenesis (some .trusting) 0 unlocking
      ⟨before ++ Opcode.ret :: after⟩
    let r' := execute .afterGenesis .afterGenesis (some .trusting) 0 unlocking
      ⟨before ++ Opcode.ret :: after'⟩
    r.calls ≠ r'.calls ∧ r'.calls.map Call.blind = r.calls.map Call.blind ∧
      r.result = .ok () ∧ r'.result = .ok () := by
  intro unlocking before after after' r r'
  have hblind : ∀ c ∈ some Checker.trusting, c.IsBlind := by
    rintro c ⟨⟩
    exact Checker.isBlind_trusting
  obtain ⟨k, hk, hexecuting, hopen⟩ : ∃ k, (r.stepsOf .locking)[1]? = some k ∧
      k.before.isExecuting ∧ k.before.branches = [] := ⟨_, rfl, rfl, rfl⟩
  obtain ⟨-, hcalls, hresult⟩ := execute_blind_of_return .afterGenesis .afterGenesis
    (some .trusting) 0 unlocking before after after' hblind (by decide) (by decide) (by decide) hk
    hexecuting hopen
  have hvalid : r.result = .ok () := by decide
  exact ⟨by decide, hcalls, hvalid, hresult.trans hvalid⟩

end Utxo.Machine
