/-
The script code of a question.

A signature commits to a part of the script that it is checked in: the chunks behind the last code
separator that the script has executed, also those that are still ahead or that are passed over, but no
separators, and unless the type has the fork id no pushes of the signature itself.  A separator that is
not executed has no effect, and neither has one of the other script.

* **`run_calls`** — every question of an evaluation is asked at one of its steps;
* **`Passed.isBehindLast`** — behind steps that pass, the script code starts behind the last separator
  that they executed;
* **`execute_scriptCode`** — so it is known what each question is about, chunk by chunk and byte by byte.
-/
import Mathlib.Order.Bounds.Basic
import Utxo.Proofs.Machine.Ends
import Utxo.Proofs.Machine.Gate
import Utxo.Proofs.Machine.Place
import Utxo.Proofs.Script.Excerpt

namespace Utxo.Machine

/-! ### Questions of a step -/

/-- The questions that are asked at a step. -/
def Step.questions (setting : Setting) (unlocking locking : Script) (k : Step) : List Call :=
  (Machine.step setting (scriptOf unlocking locking k.role).chunks k.chunk k.before).calls.drop
    k.before.calls.length

section

variable {setting : Setting} {unlocking locking : Script} {role : Role} {k : Step}

/-- A step asks what was asked before and its own questions. -/
theorem step_calls (setting : Setting) (unlocking locking : Script) (role : Role) (c : Chunk)
    (s : State) :
    (step setting (scriptOf unlocking locking role).chunks c s).calls =
      s.calls ++ Step.questions setting unlocking locking ⟨role, c, s⟩ := by
  obtain ⟨new, hcalls, -⟩ : AsksOnly (Call.IsAsked setting _ s) s.calls
      (step setting (scriptOf unlocking locking role).chunks c s).calls := step_asks c s
  rw [Step.questions, hcalls, List.drop_left]

/-- The questions of a step are those that its state gives rise to. -/
theorem isAsked_of_mem_questions {call : Call} (h : call ∈ k.questions setting unlocking locking) :
    call.IsAsked setting (scriptOf unlocking locking k.role).chunks k.before := by
  obtain ⟨new, hcalls, hnew⟩ : AsksOnly
      (Call.IsAsked setting (scriptOf unlocking locking k.role).chunks k.before) k.before.calls
      (step setting (scriptOf unlocking locking k.role).chunks k.chunk k.before).calls :=
    step_asks k.chunk k.before
  rw [Step.questions, hcalls, List.drop_left] at h
  exact hnew call h

theorem runScript_calls (setting : Setting) (unlocking locking : Script) (role : Role) (s : State) :
    (runScript setting role (scriptOf unlocking locking role).chunks s).2.calls =
      s.calls ++ (runScript setting role (scriptOf unlocking locking role).chunks s).1.flatMap
        (Step.questions setting unlocking locking) := by
  -- Over the chunks ahead, from any state.
  suffices h : ∀ ahead s,
      (runChunks setting role (scriptOf unlocking locking role).chunks ahead s).2.calls =
        s.calls ++ (runChunks setting role (scriptOf unlocking locking role).chunks ahead s).1.flatMap
          (Step.questions setting unlocking locking) from h _ s
  intro ahead
  induction ahead with
  | nil =>
    intro s
    unfold runChunks atEnd
    split_ifs <;> exact (List.append_nil _).symm
  | cons c ahead ih =>
    intro s
    have hstep := step_calls setting unlocking locking role c s
    rw [runChunks]
    cases hmove : step setting (scriptOf unlocking locking role).chunks c s with
    | next t =>
      rw [hmove] at hstep
      replace hstep : t.calls = s.calls ++ _ := hstep
      simp only [List.flatMap_cons, ih, hstep, List.append_assoc]
    | stop e =>
      rw [hmove] at hstep
      simp only [List.flatMap_cons, List.flatMap_nil, List.append_nil]
      exact hstep

/-- The questions of an evaluation are those of its steps, one after the other. -/
theorem run_calls (setting : Setting) (unlocking locking : Script) :
    (run setting unlocking locking).calls =
      (run setting unlocking locking).steps.flatMap (Step.questions setting unlocking locking) := by
  have hunlocking := runScript_calls setting unlocking locking .unlocking .initial
  obtain ⟨fault, -, hrun⟩ | ⟨-, ⟨fault, calls, hfailed, hrun⟩ | ⟨s, hcompleted, hrun⟩⟩ :=
    run_cases setting unlocking locking
  · rw [hrun]
    rfl
  · rw [hrun]
    replace hfailed : (runScript setting .unlocking (scriptOf unlocking locking .unlocking).chunks
      .initial).2 = .failed fault calls := hfailed
    rw [hfailed] at hunlocking
    exact hunlocking
  · -- The locking script starts with the questions of the unlocking script.
    have hlocking := runScript_calls setting unlocking locking .locking s.handOver
    replace hcompleted : (runScript setting .unlocking (scriptOf unlocking locking .unlocking).chunks
      .initial).2 = .completed s := hcompleted
    rw [hcompleted] at hunlocking
    replace hunlocking : s.handOver.calls = _ := hunlocking
    rw [hrun, runLocking_calls, runLocking_steps, List.flatMap_append]
    refine hlocking.trans ?_
    rw [hunlocking]
    rfl

end

/-! ### Separators -/

theorem Instruction.ofOpcode_eq_codeSeparator_iff : ∀ op : Opcode,
    ofOpcode op = .codeSeparator ↔ op = Opcode.codeSeparator :=
  forall_opcode (by decide +kernel)

/-- In a chunk that is read, the script code starts behind a separator that is executed. -/
theorem State.codeStartBehind_eq (s : State) {c : Chunk} (hread : c.data.isSome = c.op.isPush) :
    s.codeStartBehind c =
      if c.op = Opcode.codeSeparator ∧ s.isExecuting then s.offset + 1 else s.codeStart := by
  by_cases hop : c.op = Opcode.codeSeparator
  · have hinstruction : Instruction.ofOpcode c.op = .codeSeparator :=
      (Instruction.ofOpcode_eq_codeSeparator_iff c.op).mpr hop
    have hdata : c.data = none := data_eq_none hread (by simp [hinstruction])
    rw [codeStartBehind, hinstruction]
    simp [separate, hop, hdata]
  · have hinstruction : Instruction.ofOpcode c.op ≠ .codeSeparator :=
      mt (Instruction.ofOpcode_eq_codeSeparator_iff c.op).mp hop
    have hseparate : s.separate (.ofOpcode c.op) = s.codeStart := by
      unfold separate
      split
      · next hseparator => exact absurd hseparator hinstruction
      · rfl
    rw [codeStartBehind, hseparate, ite_self, if_neg fun h => hop h.1]

/-- The places where steps have executed a separator. -/
def separators (steps : List Step) : Set Nat :=
  {j | ∃ k ∈ steps, k.chunk.op = Opcode.codeSeparator ∧ k.executed ∧ k.before.offset = j}

/-- A place is just behind the last one of a set, or the first of all places if the set is empty. -/
def IsBehindLast (places : Set Nat) (start : Nat) : Prop :=
  (∃ j, IsGreatest places j ∧ start = j + 1) ∨ places = ∅ ∧ start = 0

section

variable {setting : Setting} {script : List Chunk} {role : Role} {start s : State}
  {steps before after : List Step} {k : Step}

theorem separators_append_singleton (steps : List Step) (k : Step) :
    separators (steps ++ [k]) =
      {j | j ∈ separators steps ∨
        k.chunk.op = Opcode.codeSeparator ∧ k.executed ∧ k.before.offset = j} := by
  ext j
  simp [separators, or_and_right, exists_or]

theorem Passed.offset_lt (h : Passed setting role script start steps s) (hstart : start.offset = 0) :
    ∀ k ∈ steps, k.before.offset < steps.length := by
  induction h with
  | nil => exact nofun
  | snoc hpassed _ _ ih =>
    intro k hk
    rw [List.length_append, List.length_singleton]
    rcases List.mem_append.mp hk with hk | hk
    · exact Nat.lt_succ_of_lt (ih k hk)
    · rw [List.mem_singleton.mp hk, hpassed.offset_eq hstart]
      exact Nat.lt_succ_self _

/-- Behind steps that pass, the script code starts behind the last separator that they executed. -/
theorem Passed.isBehindLast (h : Passed setting role script start steps s)
    (hoffset : start.offset = 0) (hcodeStart : start.codeStart = 0)
    (hread : ∀ c ∈ script, c.data.isSome = c.op.isPush) :
    IsBehindLast (separators steps) s.codeStart := by
  induction h with
  | nil => exact .inr ⟨by simp [separators], hcodeStart⟩
  | @snoc steps c s t hpassed hc hnext ih =>
    rw [(step_moves hnext).2.2, s.codeStartBehind_eq (hread c (List.mem_of_getElem? hc)),
      separators_append_singleton]
    by_cases hseparates : c.op = Opcode.codeSeparator ∧ s.isExecuting
    · rw [if_pos hseparates]
      refine .inl ⟨s.offset, ⟨.inr ⟨hseparates.1, hseparates.2, rfl⟩, ?_⟩, rfl⟩
      rintro j (⟨k, hk, -, -, rfl⟩ | ⟨-, -, rfl⟩)
      · -- Every step before is at a smaller offset.
        have hlt := hpassed.offset_lt hoffset k hk
        rw [← hpassed.offset_eq hoffset] at hlt
        exact Nat.le_of_lt hlt
      · exact Nat.le_refl _
    · have hsame : {j | j ∈ separators steps ∨ c.op = Opcode.codeSeparator ∧
          (⟨role, c, s⟩ : Step).executed ∧ s.offset = j} = separators steps :=
        Set.ext fun j => or_iff_left fun h => hseparates ⟨h.1, h.2.1⟩
      rw [if_neg hseparates, hsame]
      exact ih

end

/-! ### Evaluations -/

/-- The places below an offset where the script of a role has executed a separator. -/
def Run.separatorsBelow (r : Run) (role : Role) (offset : Nat) : Set Nat :=
  {j | j < offset ∧ ∃ k ∈ r.stepsOf role, k.chunk.op = Opcode.codeSeparator ∧ k.executed ∧
    k.before.offset = j}

/-- A signature of a type commits to a chunk. -/
def Call.commitsTo (call : Call) (c : Chunk) : Bool :=
  c.op ≠ Opcode.codeSeparator && !(call.flag &&& forkIdBit = 0 && c.data = some call.signature)

/-- The script code of a question is made of the chunks of a script from a place on that the signature
commits to, and of the bytes that these have in the script. -/
structure Call.IsAbout (call : Call) (script : Script) (start : Nat) : Prop where
  chunks : call.scriptCode.chunks = (script.chunks.drop start).filter call.commitsTo
  bytes : call.scriptCode.bytes =
    (((Chunk.sourced script.bytes).drop start).filter fun p => call.commitsTo p.1).flatMap Prod.snd

section

variable {setting : Setting} {unlocking locking : Script} {role : Role} {start s : State}
  {steps before after : List Step} {k : Step}

/-- The steps below the offset of one are those before it. -/
theorem separatorsBelow_eq
    (h : (run setting unlocking locking).stepsOf role = before ++ k :: after) :
    (run setting unlocking locking).separatorsBelow role k.before.offset = separators before := by
  have hoffset {before after : List Step} {k : Step}
      (h : (run setting unlocking locking).stepsOf role = before ++ k :: after) :
      k.before.offset = before.length ∧ ∀ k ∈ before, k.before.offset < before.length := by
    obtain ⟨start, hbegins, hpassed, -⟩ := exists_passed_of_stepsOf h
    exact ⟨hpassed.offset_eq hbegins.offset_eq, hpassed.offset_lt hbegins.offset_eq⟩
  obtain ⟨hk, hbefore⟩ := hoffset h
  ext j
  constructor
  · rintro ⟨hlt, k', hmem, hop, hexecuted, rfl⟩
    rw [h] at hmem
    rcases List.mem_append.mp hmem with hmem | hmem
    · exact ⟨k', hmem, hop, hexecuted, rfl⟩
    · -- From `k` on, the offsets are no smaller.
      obtain ⟨between, rest, hrest⟩ := List.append_of_mem hmem
      have hsplit : (run setting unlocking locking).stepsOf role =
          (before ++ between) ++ k' :: rest := by
        rw [h, hrest, List.append_assoc]
      have hk' := (hoffset hsplit).1
      rw [List.length_append] at hk'
      omega
  · rintro ⟨k', hmem, hop, hexecuted, rfl⟩
    refine ⟨hk ▸ hbefore k' hmem, k', ?_, hop, hexecuted, rfl⟩
    rw [h]
    exact List.mem_append_left _ hmem

theorem Begins.codeStart_eq (h : Begins setting unlocking locking role start) :
    start.codeStart = 0 := by
  cases h <;> rfl

/-- A script that is evaluated has whole chunks only. -/
theorem Begins.isTruncated_eq_false (h : Begins setting unlocking locking role start) :
    ∀ c ∈ (scriptOf unlocking locking role).chunks, c.isTruncated = false := by
  have haccepted : refusal? setting unlocking locking = none := by
    cases h <;> assumption
  have hwhole : ∀ c ∈ unlocking.chunks ++ locking.chunks, c.isTruncated = false := by
    intro c hc
    by_contra htruncated
    exact refusal?_eq_none_iff.mp haccepted
      (.inr (.inr (.inr (.inr ⟨c, hc, Bool.not_eq_false _ ▸ htruncated⟩))))
  cases role with
  | unlocking => exact fun c hc => hwhole c (List.mem_append_left _ hc)
  | locking => exact fun c hc => hwhole c (List.mem_append_right _ hc)

/-- What a step asks is about the chunks behind the last separator that its script has executed. -/
theorem run_scriptCode {call : Call} (h : k ∈ (run setting unlocking locking).steps)
    (hcall : call ∈ k.questions setting unlocking locking) :
    ∃ start, IsBehindLast
        ((run setting unlocking locking).separatorsBelow k.role k.before.offset) start ∧
      call.IsAbout (scriptOf unlocking locking k.role) start := by
  obtain ⟨before, after, hsteps⟩ := exists_stepsOf_of_mem h
  obtain ⟨start, hbegins, hpassed, -⟩ := exists_passed_of_stepsOf hsteps
  refine ⟨k.before.codeStart, ?_, ?_⟩
  · rw [separatorsBelow_eq hsteps]
    exact hpassed.isBehindLast hbegins.offset_eq hbegins.codeStart_eq fun c hc =>
      Chunk.isSome_data_of_mem_decode hc
  · obtain ⟨hchunks, hbytes⟩ := Script.ofChunks_filter (scriptOf unlocking locking k.role)
      k.before.codeStart call.commitsTo hbegins.isTruncated_eq_false
    have hscriptCode := (isAsked_of_mem_questions hcall).scriptCode
    exact ⟨hscriptCode ▸ hchunks, hscriptCode ▸ hbytes⟩

end

/-- Every question of an evaluation is asked at one of its steps. It is about the chunks of the script
of this step that are behind the last separator which the script has executed there, without separators
and, if the type lacks the fork id, without pushes of the signature; and it is about the bytes that
these chunks have in the script. -/
theorem execute_scriptCode (limits : Limits) (flags : Flags) (checker : Option Checker)
    (inputIndex : Nat) (unlocking locking : Script) :
    let setting := Setting.ofFlags limits flags checker inputIndex
    let r := execute limits flags checker inputIndex unlocking locking
    r.calls = r.steps.flatMap (Step.questions setting unlocking locking) ∧
      ∀ k ∈ r.steps, ∀ call ∈ k.questions setting unlocking locking,
        (scriptOf unlocking locking k.role).chunks[k.before.offset]? = some k.chunk ∧
          call.signature.getLast? = some call.flag ∧
          ∃ start, IsBehindLast (r.separatorsBelow k.role k.before.offset) start ∧
            call.IsAbout (scriptOf unlocking locking k.role) start := by
  intro setting r
  refine ⟨run_calls setting unlocking locking, fun k hk call hcall => ?_⟩
  obtain ⟨start, before, hbegins, hpassed, hc⟩ := exists_passed_of_mem hk
  rw [← hpassed.offset_eq hbegins.offset_eq] at hc
  exact ⟨hc, (isAsked_of_mem_questions hcall).last, run_scriptCode hk hcall⟩

/-- A check behind a separator that is executed and one that is passed over, with another one ahead and
one in the unlocking script. A push of the signature is left out, and a push that is longer than it has
to be stays as it is. -/
theorem execute_scriptCode_three_separators :
    let setting := Setting.ofFlags .beforeGenesis .none (some ⟨fun _ _ => .ok true⟩) 0
    let unlocking : Script := ⟨[0xab, 0x01, 0x01, 0x01, 0x02]⟩
    let locking : Script := ⟨[0x61, 0xab, 0x00, 0x63, 0xab, 0x01, 0x01, 0x68, 0x4c, 0x01, 0x05, 0x75,
      0xac, 0xab, 0x61]⟩
    let r := execute .beforeGenesis .none (some ⟨fun _ _ => .ok true⟩) 0 unlocking locking
    r.calls = r.steps.flatMap (Step.questions setting unlocking locking) ∧
      ∃ k ∈ r.steps, ∃ call ∈ k.questions setting unlocking locking,
        k.role = .locking ∧ k.before.offset = 9 ∧
        call.scriptCode.bytes = [0x00, 0x63, 0x68, 0x4c, 0x01, 0x05, 0x75, 0xac, 0x61] ∧
        ∃ start, IsBehindLast (r.separatorsBelow k.role k.before.offset) start ∧
          call.IsAbout (scriptOf unlocking locking k.role) start := by
  intro setting unlocking locking r
  obtain ⟨hcalls, hquestions⟩ := execute_scriptCode .beforeGenesis .none
    (some ⟨fun _ _ => .ok true⟩) 0 unlocking locking
  have hone : (r.steps.flatMap fun k => (k.questions setting unlocking locking).map fun call =>
      (k.role, k.before.offset, call.scriptCode.bytes)) =
        [(.locking, 9, [0x00, 0x63, 0x68, 0x4c, 0x01, 0x05, 0x75, 0xac, 0x61])] := by
    decide +kernel
  obtain ⟨k, hk, hmem⟩ := List.mem_flatMap.mp (hone ▸ List.mem_singleton_self _)
  obtain ⟨call, hcall, heq⟩ := List.mem_map.mp hmem
  obtain ⟨hrole, hplace⟩ := Prod.mk.inj heq
  obtain ⟨hoffset, hbytes⟩ := Prod.mk.inj hplace
  exact ⟨hcalls, k, hk, call, hcall, hrole, hoffset, hbytes, (hquestions k hk call hcall).2.2⟩

end Utxo.Machine
