/-
The steps of an evaluation.

`Passed` tells which steps lead from the start of a script to a state in it; what holds along an
evaluation is proved by induction on it.  `Begins` tells in which state the evaluation comes to
either script.

* **`runScript_eq_append_iff`** — a step is noted just if the steps before it lead to its state;
* **`exists_passed_runScript`** — a script ends behind its last chunk, or at a step that stops it;
* **`exists_of_run_result_eq_error`** — an evaluation fails because the scripts are refused, because
  one of them fails, or because of the stack that they leave.
-/
import Utxo.Proofs.Machine.Handover
import Utxo.Proofs.Machine.Step

namespace Utxo.Machine

/-! ### One script -/

/-- These steps pass over the first chunks of a script, and lead from its start to a state. -/
inductive Passed (setting : Setting) (role : Role) (script : List Chunk) (start : State) :
    List Step → State → Prop
  | nil : Passed setting role script start [] start
  | snoc {steps : List Step} {c : Chunk} {s t : State}
      (h : Passed setting role script start steps s) (hc : script[steps.length]? = some c)
      (hnext : step setting script c s = .next t) :
      Passed setting role script start (steps ++ [⟨role, c, s⟩]) t

section Script

variable {setting : Setting} {role : Role} {script : List Chunk} {start s : State}
  {before after : List Step} {k : Step}

theorem Passed.length_le (h : Passed setting role script start before s) :
    before.length ≤ script.length := by
  induction h with
  | nil => exact Nat.zero_le _
  | snoc _ hc _ _ =>
    have hlt := (List.getElem?_eq_some_iff.mp hc).1
    simpa using Nat.succ_le_of_lt hlt

theorem drop_eq_cons {n : Nat} {c : Chunk} (hc : script[n]? = some c) :
    script.drop n = c :: script.drop (n + 1) := by
  obtain ⟨hlt, rfl⟩ := List.getElem?_eq_some_iff.mp hc
  exact List.drop_eq_getElem_cons hlt

theorem getElem?_of_drop_eq_cons {n : Nat} {c : Chunk} {ahead : List Chunk}
    (h : script.drop n = c :: ahead) : script[n]? = some c := by
  rw [← List.head?_drop, h, List.head?_cons]

/-- Behind steps that pass, the rest of the script is evaluated from the state they lead to. -/
theorem Passed.runScript_eq (h : Passed setting role script start before s) :
    runScript setting role script start =
      (before ++ (runChunks setting role script (script.drop before.length) s).1,
        (runChunks setting role script (script.drop before.length) s).2) := by
  induction h with
  | nil => rfl
  | snoc _ hc hnext ih =>
    rw [ih, drop_eq_cons hc, runChunks, hnext]
    simp

theorem Passed.of_runChunks {ahead : List Chunk} {more : List Step}
    (h : Passed setting role script start before s) (hahead : script.drop before.length = ahead)
    (hmore : (runChunks setting role script ahead s).1 = more ++ k :: after) :
    Passed setting role script start (before ++ more) k.before ∧
      script[(before ++ more).length]? = some k.chunk ∧ k.role = role := by
  -- Over the chunks ahead; the steps before grow by one at each of them.
  induction ahead generalizing before s more with
  | nil => simp [runChunks] at hmore
  | cons c ahead ih =>
    have hc : script[before.length]? = some c := getElem?_of_drop_eq_cons hahead
    rw [runChunks] at hmore
    cases hstep : step setting script c s with
    | stop e =>
      rw [hstep] at hmore
      obtain ⟨rfl, rfl, -⟩ : more = [] ∧ k = ⟨role, c, s⟩ ∧ after = [] := by
        cases more <;> simp_all
      rw [List.append_nil]
      exact ⟨h, hc, rfl⟩
    | next u =>
      rw [hstep] at hmore
      cases more with
      | nil =>
        obtain ⟨rfl, -⟩ := List.cons.inj hmore
        rw [List.append_nil]
        exact ⟨h, hc, rfl⟩
      | cons k' more =>
        obtain ⟨rfl, hrest⟩ := List.cons.inj hmore
        have hdrop : script.drop (before ++ [(⟨role, c, s⟩ : Step)]).length = ahead := by
          rw [drop_eq_cons hc] at hahead
          simpa using hahead
        simpa using ih (h.snoc hc hstep) hdrop hrest

/-- A step is noted just if the steps before it lead to its state. -/
theorem runScript_eq_append_iff :
    (∃ after, (runScript setting role script start).1 = before ++ k :: after) ↔
      Passed setting role script start before k.before ∧
        script[before.length]? = some k.chunk ∧ k.role = role := by
  constructor
  · rintro ⟨after, h⟩
    exact Passed.of_runChunks .nil rfl h
  · rintro ⟨h, hc, hrole⟩
    obtain ⟨_, c, s⟩ := k
    obtain rfl := hrole
    rw [h.runScript_eq, drop_eq_cons hc, runChunks]
    cases step setting script c s with
    | next u => exact ⟨_, rfl⟩
    | stop e => exact ⟨[], rfl⟩

/-- The step that stops a script is the last one, and the script ends as it says. -/
theorem Passed.runScript_eq_of_stop {c : Chunk} {e : Ending}
    (h : Passed setting role script start before s) (hc : script[before.length]? = some c)
    (hstop : step setting script c s = .stop e) :
    runScript setting role script start = (before ++ [⟨role, c, s⟩], e) := by
  rw [h.runScript_eq, drop_eq_cons hc, runChunks, hstop]

/-- Behind its last chunk, a script is at its end. -/
theorem Passed.runScript_eq_of_length (h : Passed setting role script start before s)
    (hlength : before.length = script.length) :
    runScript setting role script start = (before, atEnd s) := by
  rw [h.runScript_eq, hlength, List.drop_length, runChunks, List.append_nil]

/-- A script ends behind its last chunk, or at a step that stops it. -/
theorem exists_passed_runScript (setting : Setting) (role : Role) (script : List Chunk)
    (start : State) :
    ∃ before s, Passed setting role script start before s ∧
      ((before.length = script.length ∧
          runScript setting role script start = (before, atEnd s)) ∨
        ∃ c e, script[before.length]? = some c ∧ step setting script c s = .stop e ∧
          runScript setting role script start = (before ++ [⟨role, c, s⟩], e)) := by
  -- Over the number of chunks left, from any steps that pass.
  suffices hsuff : ∀ n before s, script.length - before.length = n →
      Passed setting role script start before s → _ from hsuff _ [] start rfl .nil
  intro n
  induction n with
  | zero =>
    intro before s hn h
    have hlength : before.length = script.length := by
      have := h.length_le
      omega
    exact ⟨before, s, h, .inl ⟨hlength, h.runScript_eq_of_length hlength⟩⟩
  | succ n ih =>
    intro before s hn h
    have hlt : before.length < script.length := by omega
    have hc : script[before.length]? = some script[before.length] := List.getElem?_eq_getElem hlt
    cases hstep : step setting script script[before.length] s with
    | next t => exact ih _ _ (by simp; omega) (h.snoc hc hstep)
    | stop e => exact ⟨before, s, h, .inr ⟨_, e, hc, hstep, h.runScript_eq_of_stop hc hstep⟩⟩

end Script

/-! ### Both scripts -/

/-- The script of a role. -/
def scriptOf (unlocking locking : Script) : Role → Script
  | .unlocking => unlocking
  | .locking => locking

/-- An evaluation comes to the script of this role, in this state. -/
inductive Begins (setting : Setting) (unlocking locking : Script) : Role → State → Prop
  | unlocking (haccepted : refusal? setting unlocking locking = none) :
      Begins setting unlocking locking .unlocking .initial
  | locking {s : State} (haccepted : refusal? setting unlocking locking = none)
      (hcompleted : (runScript setting .unlocking unlocking.chunks .initial).2 = .completed s) :
      Begins setting unlocking locking .locking s.handOver

/-- An evaluation completes the script of this role, in this state. -/
def Completes (setting : Setting) (unlocking locking : Script) (role : Role) (s : State) : Prop :=
  ∃ start, Begins setting unlocking locking role start ∧
    (runScript setting role (scriptOf unlocking locking role).chunks start).2 = .completed s

/-- An evaluation passes over all chunks of the script of this role, with these steps and to this
state. -/
def PassesAll (setting : Setting) (unlocking locking : Script) (role : Role) (steps : List Step)
    (s : State) : Prop :=
  ∃ start, Begins setting unlocking locking role start ∧
    Passed setting role (scriptOf unlocking locking role).chunks start steps s ∧
    steps.length = (scriptOf unlocking locking role).chunks.length

section Scripts

variable {setting : Setting} {unlocking locking : Script} {role : Role} {start : State}
  {before after : List Step} {k : Step} {fault : Fault}

theorem runScript_filter_role (setting : Setting) (role : Role) (script : List Chunk) (s : State) :
    (runScript setting role script s).1.filter (·.role = role) =
      (runScript setting role script s).1 := by
  rw [List.filter_eq_self]
  intro k hk
  simp [runScript_role role script s k hk]

theorem run_eq_of_refused (h : refusal? setting unlocking locking = some fault) :
    run setting unlocking locking = ⟨.error fault, [], []⟩ := by
  rw [run, h]

theorem run_eq_of_failed {calls : List Call} (haccepted : refusal? setting unlocking locking = none)
    (hfailed : (runScript setting .unlocking unlocking.chunks .initial).2 = .failed fault calls) :
    run setting unlocking locking =
      ⟨.error fault, (runScript setting .unlocking unlocking.chunks .initial).1, calls⟩ := by
  unfold run
  rw [haccepted]
  generalize runScript setting .unlocking unlocking.chunks .initial = r at hfailed ⊢
  obtain ⟨steps, ending⟩ := r
  cases hfailed
  rfl

/-- An evaluation is refused, ends with the unlocking script, or goes on with the locking script. -/
theorem run_cases (setting : Setting) (unlocking locking : Script) :
    (∃ fault, refusal? setting unlocking locking = some fault ∧
        run setting unlocking locking = ⟨.error fault, [], []⟩) ∨
      refusal? setting unlocking locking = none ∧
        ((∃ fault calls,
          (runScript setting .unlocking unlocking.chunks .initial).2 = .failed fault calls ∧
            run setting unlocking locking =
              ⟨.error fault, (runScript setting .unlocking unlocking.chunks .initial).1, calls⟩) ∨
          ∃ s, (runScript setting .unlocking unlocking.chunks .initial).2 = .completed s ∧
            run setting unlocking locking =
              { runLocking setting locking s.handOver with
                steps := (runScript setting .unlocking unlocking.chunks .initial).1 ++
                  (runLocking setting locking s.handOver).steps }) := by
  cases hrefusal : refusal? setting unlocking locking with
  | some fault => exact .inl ⟨fault, rfl, run_eq_of_refused hrefusal⟩
  | none =>
    refine .inr ⟨rfl, ?_⟩
    cases hending : (runScript setting .unlocking unlocking.chunks .initial).2 with
    | completed s => exact .inr ⟨s, rfl, run_eq_of_completed hrefusal hending⟩
    | failed fault calls => exact .inl ⟨fault, calls, rfl, run_eq_of_failed hrefusal hending⟩

/-- The steps of a script are those that its evaluation notes. -/
theorem Begins.stepsOf_eq (h : Begins setting unlocking locking role start) :
    (run setting unlocking locking).stepsOf role =
      (runScript setting role (scriptOf unlocking locking role).chunks start).1 := by
  cases h with
  | locking haccepted hcompleted =>
    rw [run_stepsOf_locking haccepted hcompleted, runLocking_steps]
    rfl
  | unlocking haccepted =>
    have hfilter := runScript_filter_role setting .unlocking unlocking.chunks .initial
    obtain ⟨fault, hrefusal, -⟩ | ⟨-, ⟨fault, calls, -, hrun⟩ | ⟨s, -, hrun⟩⟩ :=
      run_cases setting unlocking locking
    · rw [haccepted] at hrefusal
      cases hrefusal
    · rw [Run.stepsOf, hrun]
      exact hfilter
    · -- No step of the locking script is one of the unlocking script.
      rw [Run.stepsOf, hrun, List.filter_append, hfilter, runLocking_steps,
        List.filter_eq_nil_iff.mpr, List.append_nil]
      · rfl
      · intro k hk
        simp [runScript_role .locking _ _ k hk]

/-- A script that the evaluation does not come to has no steps. -/
theorem stepsOf_eq_nil (h : ∀ start, ¬Begins setting unlocking locking role start) :
    (run setting unlocking locking).stepsOf role = [] := by
  obtain ⟨fault, -, hrun⟩ | ⟨haccepted, ⟨fault, calls, -, hrun⟩ | ⟨s, hcompleted, -⟩⟩ :=
    run_cases setting unlocking locking
  · rw [hrun]
    rfl
  · cases role with
    | unlocking => exact absurd (.unlocking haccepted) (h _)
    | locking =>
      rw [Run.stepsOf, hrun, List.filter_eq_nil_iff]
      intro k hk
      simp [runScript_role .unlocking _ _ k hk]
  · cases role with
    | unlocking => exact absurd (.unlocking haccepted) (h _)
    | locking => exact absurd (.locking haccepted hcompleted) (h _)

/-- The evaluation comes to a script that has a step. -/
theorem exists_begins_of_mem (h : k ∈ (run setting unlocking locking).stepsOf role) :
    ∃ start, Begins setting unlocking locking role start := by
  refine Classical.byContradiction fun hno => ?_
  rw [stepsOf_eq_nil (not_exists.mp hno)] at h
  cases h

/-- The steps before one of an evaluation lead to its state, from where the script begins. -/
theorem exists_passed_of_stepsOf
    (h : (run setting unlocking locking).stepsOf role = before ++ k :: after) :
    ∃ start, Begins setting unlocking locking role start ∧
      Passed setting role (scriptOf unlocking locking role).chunks start before k.before ∧
      (scriptOf unlocking locking role).chunks[before.length]? = some k.chunk ∧
      k.role = role := by
  have hmem : k ∈ (run setting unlocking locking).stepsOf role := by simp [h]
  obtain ⟨start, hstart⟩ := exists_begins_of_mem hmem
  rw [hstart.stepsOf_eq] at h
  exact ⟨start, hstart, runScript_eq_append_iff.mp ⟨after, h⟩⟩

/-- Every step of an evaluation has its place among those of its script. -/
theorem exists_stepsOf_of_mem {r : Run} (h : k ∈ r.steps) :
    ∃ before after, r.stepsOf k.role = before ++ k :: after := by
  have hmem : k ∈ r.stepsOf k.role := by simpa [Run.stepsOf] using h
  exact List.append_of_mem hmem

theorem runLocking_result_of_failed {s : State} {calls : List Call}
    (h : (runScript setting .locking locking.chunks s).2 = .failed fault calls) :
    (runLocking setting locking s).result = .error fault := by
  unfold runLocking
  generalize runScript setting .locking locking.chunks s = r at h ⊢
  obtain ⟨steps, ending⟩ := r
  cases h
  rfl

theorem runLocking_result_of_completed {s t : State}
    (h : (runScript setting .locking locking.chunks s).2 = .completed t) :
    (runLocking setting locking s).result = judge setting.rules t.main := by
  unfold runLocking
  generalize runScript setting .locking locking.chunks s = r at h ⊢
  obtain ⟨steps, ending⟩ := r
  cases h
  rfl

/-- A script that fails has the evaluation fail. -/
theorem Begins.result_eq_error {calls : List Call}
    (h : Begins setting unlocking locking role start)
    (hfailed : (runScript setting role (scriptOf unlocking locking role).chunks start).2 =
      .failed fault calls) :
    (run setting unlocking locking).result = .error fault := by
  cases h with
  | unlocking haccepted =>
    obtain ⟨fault', hrefusal, -⟩ | ⟨-, ⟨fault', calls', hending, hrun⟩ | ⟨s, hcompleted, -⟩⟩ :=
      run_cases setting unlocking locking
    · rw [haccepted] at hrefusal
      cases hrefusal
    · obtain ⟨rfl, -⟩ := Ending.failed.inj (hfailed.symm.trans hending)
      rw [hrun]
    · cases hfailed.symm.trans hcompleted
  | @locking s haccepted hcompleted =>
    rw [run_eq_of_completed haccepted hcompleted]
    exact runLocking_result_of_failed hfailed

/-- The steps of a script that fails are the last ones of the evaluation. -/
theorem Begins.exists_steps_eq_append {calls : List Call}
    (h : Begins setting unlocking locking role start)
    (hfailed : (runScript setting role (scriptOf unlocking locking role).chunks start).2 =
      .failed fault calls) :
    ∃ earlier, (run setting unlocking locking).steps =
      earlier ++ (runScript setting role (scriptOf unlocking locking role).chunks start).1 := by
  cases h with
  | unlocking haccepted =>
    refine ⟨[], ?_⟩
    rw [run_eq_of_failed haccepted hfailed]
    rfl
  | @locking s haccepted hcompleted =>
    refine ⟨(runScript setting .unlocking unlocking.chunks .initial).1, ?_⟩
    rw [run_eq_of_completed haccepted hcompleted, runLocking_steps]
    rfl

/-- An evaluation fails because the scripts are refused, because one of them fails, or because of the
stack that they leave. -/
theorem exists_of_run_result_eq_error (h : (run setting unlocking locking).result = .error fault) :
    refusal? setting unlocking locking = some fault ∨
      (∃ role start calls, Begins setting unlocking locking role start ∧
        (runScript setting role (scriptOf unlocking locking role).chunks start).2 =
          .failed fault calls) ∨
      ∃ s, Completes setting unlocking locking .locking s ∧
        judge setting.rules s.main = .error fault := by
  obtain ⟨fault', hrefusal, hrun⟩ |
      ⟨haccepted, ⟨fault', calls, hfailed, hrun⟩ | ⟨s, hcompleted, hrun⟩⟩ :=
    run_cases setting unlocking locking
  · rw [hrun] at h
    cases h
    exact .inl hrefusal
  · rw [hrun] at h
    cases h
    exact .inr (.inl ⟨.unlocking, _, calls, .unlocking haccepted, hfailed⟩)
  · have hbegins := Begins.locking haccepted hcompleted
    rw [hrun] at h
    replace h : (runLocking setting locking s.handOver).result = .error fault := h
    cases hending : (runScript setting .locking locking.chunks s.handOver).2 with
    | failed fault' calls =>
      rw [runLocking_result_of_failed hending] at h
      cases h
      exact .inr (.inl ⟨.locking, _, calls, hbegins, hending⟩)
    | completed t =>
      rw [runLocking_result_of_completed hending] at h
      exact .inr (.inr ⟨t, ⟨_, hbegins, hending⟩, h⟩)

end Scripts

end Utxo.Machine
