/-
The place in a script.

Instructions leave the place in the script and the number of operations as they are; only the step as
a whole moves on, by one chunk.  Where a signature's script code starts is changed by code separators
alone.

* **`step_moves`** — a step that goes on is one chunk further, has counted its operation and has the
  script code start behind the chunk just if this is a separator that is executed;
* **`run_steps_map_place`** — the steps of an evaluation are at the first chunks of the unlocking
  script and then at the first chunks of the locking script, one after the other.
-/
import Utxo.Proofs.Machine.Reach

namespace Utxo.Machine

/-! ### Steps -/

/-- The state is at the same chunk with as many operations, and the script code starts where it did. -/
structure SamePlace (s t : State) : Prop where
  offset : t.offset = s.offset
  operations : t.operations = s.operations
  codeStart : t.codeStart = s.codeStart

variable {setting : Setting} {script : List Chunk} {c : Chunk} {s t : State}

theorem samePlace_main (s : State) (main : Stack) : SamePlace s { s with main } := ⟨rfl, rfl, rfl⟩

theorem Conditional.run_samePlace (rules : Rules) (op : Conditional) (s : State) :
    Ensures (SamePlace s) (op.run rules s) := by
  refine (op.run_changes rules s).mono ?_
  rintro _ ⟨main, branches, elses, rfl⟩
  exact ⟨rfl, rfl, rfl⟩

theorem runCheckSig_samePlace : (runCheckSig setting script s).Leads (SamePlace s) := by
  refine (runCheckSig_changes setting script s).mono ?_
  rintro _ ⟨main, calls, rfl⟩
  exact ⟨rfl, rfl, rfl⟩

/-- Where the script code starts behind an instruction that is run. -/
def State.separate (s : State) : Instruction → Nat
  | .codeSeparator => s.offset + 1
  | _ => s.codeStart

/-- Where the script code starts behind a chunk. -/
def State.codeStartBehind (s : State) (c : Chunk) : Nat :=
  if s.isExecuting ∧ c.data = none then s.separate (.ofOpcode c.op) else s.codeStart

theorem State.codeStartBehind_eq_or (s : State) (c : Chunk) :
    s.codeStartBehind c = s.codeStart ∨ s.codeStartBehind c = s.offset + 1 := by
  unfold codeStartBehind separate
  split_ifs
  · split
    · exact .inr rfl
    · exact .inl rfl
  · exact .inl rfl

/-- A separator has the script code start behind it. Every other instruction keeps the place. -/
theorem Instruction.run_place (op : Opcode) (instr : Instruction) (s : State) :
    (instr.run setting script op s).Leads (SamePlace { s with codeStart := s.separate instr }) := by
  have honMain (r : Except Fault Stack) :
      (Move.ofExcept s (r.map fun main => { s with main })).Leads (SamePlace s) :=
    .ofExcept s ((Ensures.any r).map fun main _ => samePlace_main s main)
  cases instr with
  | nop => exact ⟨rfl, rfl, rfl⟩
  | upgradableNop n =>
    simp only [run]
    split_ifs
    · trivial
    · exact ⟨rfl, rfl, rfl⟩
  | conditional c => exact .ofExcept s (c.run_samePlace _ s)
  | ret =>
    simp only [run, runReturn]
    split_ifs
    · trivial
    · exact ⟨rfl, rfl, rfl⟩
    · exact ⟨rfl, rfl, rfl⟩
  | toAlt => exact .ofExcept s ((Ensures.any _).bind fun _ _ => .ok ⟨rfl, rfl, rfl⟩)
  | fromAlt =>
    refine .ofExcept s ((moveFromAlt_changes s).mono ?_)
    rintro _ ⟨main, alt, rfl⟩
    exact ⟨rfl, rfl, rfl⟩
  | codeSeparator => exact ⟨rfl, rfl, rfl⟩
  | checkSig => exact runCheckSig_samePlace
  | checkSigVerify =>
    refine runCheckSig_samePlace.andThen (fun t ht => ?_) fun _ h => h
    exact .ofExcept t ((Ensures.any _).map fun _ _ => ⟨ht.offset, ht.operations, ht.codeStart⟩)
  | disabled | reservedConditional | reserved | unsupported | invalid => trivial
  | _ =>
    simp only [run]
    exact honMain _

theorem perform_place : (perform setting script c s).Leads
    (SamePlace { s with codeStart := s.codeStartBehind c }) := by
  by_cases hruns : s.isExecuting ∧ c.data = none
  · rw [perform_of_isExecuting hruns.1, hruns.2, State.codeStartBehind, if_pos hruns]
    exact Instruction.run_place c.op _ s
  · have hkept : { s with codeStart := s.codeStartBehind c } = s := by
      rw [State.codeStartBehind, if_neg hruns]
    rw [hkept]
    simp only [perform]
    split_ifs with hpassed
    · exact ⟨rfl, rfl, rfl⟩
    · cases hdata : c.data with
      | some data => exact samePlace_main s _
      | none =>
        -- What is run although nothing is executed belongs to a conditional.
        have hexecuting : s.isExecuting = false := by simpa [hdata] using hruns
        have hseparate : s.separate (.ofOpcode c.op) = s.codeStart := by
          unfold State.separate
          split
          · next hseparator => simp [hexecuting, hseparator, Instruction.isConditional] at hpassed
          · rfl
        have hplace : ((Instruction.ofOpcode c.op).run setting script c.op s).Leads
            (SamePlace { s with codeStart := s.separate (.ofOpcode c.op) }) :=
          Instruction.run_place c.op _ s
        rwa [hseparate] at hplace

/-- A step that goes on is one chunk further, has counted its operation and has the script code start
behind the chunk just if this is a separator that is executed. -/
theorem step_moves (h : step setting script c s = .next t) :
    t.offset = s.offset + 1 ∧ t.operations = s.operations + cost c ∧
      t.codeStart = s.codeStartBehind c := by
  obtain ⟨-, u, hperform, -, rfl⟩ := step_eq_next_iff.mp h
  have hplace : (perform setting script c (s.count c)).Leads
      (SamePlace { s.count c with codeStart := (s.count c).codeStartBehind c }) := perform_place
  rw [hperform] at hplace
  exact ⟨congrArg (· + 1) hplace.offset, hplace.operations, hplace.codeStart⟩

/-- Behind a step that goes on, one chunk less is ahead. -/
theorem drop_of_step_eq_next {ahead : List Chunk} (h : step setting script c s = .next t)
    (hahead : script.drop s.offset = c :: ahead) : script.drop t.offset = ahead := by
  rw [(step_moves h).1, ← List.tail_drop, hahead, List.tail_cons]

/-! ### Scripts -/

/-- Where a step is: its script, the number of chunks behind, and the chunk. -/
def Step.place (k : Step) : Role × Nat × Chunk := (k.role, k.before.offset, k.chunk)

/-- The places of chunks at the beginning of a script. -/
def places (role : Role) (chunks : List Chunk) : List (Role × Nat × Chunk) :=
  chunks.mapIdx fun i c => (role, i, c)

variable {role : Role} {start : State} {steps : List Step} {unlocking locking : Script}

theorem Begins.offset_eq (h : Begins setting unlocking locking role start) : start.offset = 0 := by
  cases h <;> rfl

/-- A state is behind as many chunks as have been passed. -/
theorem Passed.offset_eq (h : Passed setting role script start steps s) (hstart : start.offset = 0) :
    s.offset = steps.length := by
  induction h with
  | nil => exact hstart
  | snoc _ _ hnext ih =>
    rw [(step_moves hnext).1, ih]
    simp

theorem Reaches.offset_le (h : Reaches setting unlocking locking role s) :
    s.offset ≤ (scriptOf unlocking locking role).chunks.length := by
  obtain ⟨start, steps, hbegins, hpassed⟩ := h
  rw [hpassed.offset_eq hbegins.offset_eq]
  exact hpassed.length_le

/-- One more chunk at the beginning of a script is one more place. -/
theorem places_take_succ (role : Role) {n : Nat} (hc : script[n]? = some c) :
    places role (script.take (n + 1)) = places role (script.take n) ++ [(role, n, c)] := by
  have hlength : (script.take n).length = n :=
    List.length_take_of_le (Nat.le_of_lt (List.getElem?_eq_some_iff.mp hc).1)
  rw [places, places, List.take_add_one, hc, Option.toList_some, List.mapIdx_append, hlength]
  simp

/-- The steps that pass are at the first chunks of the script, one after the other. -/
theorem Passed.map_place (h : Passed setting role script start steps s) (hstart : start.offset = 0) :
    steps.map Step.place = places role (script.take steps.length) := by
  induction h with
  | nil => rfl
  | @snoc steps c s t hpassed hc hnext ih =>
    have hplace : Step.place ⟨role, c, s⟩ = (role, steps.length, c) := by
      rw [Step.place, hpassed.offset_eq hstart]
    rw [List.map_append, ih, List.map_singleton, hplace, List.length_append, List.length_singleton,
      places_take_succ role hc]

/-- The steps of a script are at its first chunks, one after the other. -/
theorem runScript_map_place (hstart : start.offset = 0) :
    ∃ n ≤ script.length,
      (runScript setting role script start).1.map Step.place = places role (script.take n) := by
  obtain ⟨before, s, hpassed, ⟨-, hrun⟩ | ⟨c, e, hc, -, hrun⟩⟩ :=
    exists_passed_runScript setting role script start
  · rw [hrun]
    exact ⟨before.length, hpassed.length_le, hpassed.map_place hstart⟩
  · -- The step that stops the script is at the next chunk.
    have hplace : Step.place ⟨role, c, s⟩ = (role, before.length, c) := by
      rw [Step.place, hpassed.offset_eq hstart]
    rw [hrun]
    refine ⟨before.length + 1, (List.getElem?_eq_some_iff.mp hc).1, ?_⟩
    rw [List.map_append, hpassed.map_place hstart, List.map_singleton, hplace,
      places_take_succ role hc]

/-! ### Both scripts -/

/-- The steps of an evaluation are at the first chunks of the unlocking script and then at the first
chunks of the locking script, one after the other. -/
theorem run_steps_map_place (setting : Setting) (unlocking locking : Script) :
    ∃ n ≤ unlocking.chunks.length, ∃ m ≤ locking.chunks.length,
      (run setting unlocking locking).steps.map Step.place =
        places .unlocking (unlocking.chunks.take n) ++ places .locking (locking.chunks.take m) := by
  obtain ⟨n, hn, hunlocking⟩ := @runScript_map_place setting unlocking.chunks .unlocking .initial rfl
  obtain ⟨fault, -, hrun⟩ | ⟨-, ⟨fault, calls, -, hrun⟩ | ⟨s, -, hrun⟩⟩ :=
    run_cases setting unlocking locking
  · refine ⟨0, Nat.zero_le _, 0, Nat.zero_le _, ?_⟩
    rw [hrun]
    rfl
  · refine ⟨n, hn, 0, Nat.zero_le _, ?_⟩
    rw [hrun, hunlocking]
    exact (List.append_nil _).symm
  · obtain ⟨m, hm, hlocking⟩ := @runScript_map_place setting locking.chunks .locking s.handOver rfl
    refine ⟨n, hn, m, hm, ?_⟩
    rw [hrun, List.map_append, hunlocking, runLocking_steps, hlocking]

@[simp] theorem length_places (role : Role) (chunks : List Chunk) :
    (places role chunks).length = chunks.length := List.length_mapIdx

end Utxo.Machine
