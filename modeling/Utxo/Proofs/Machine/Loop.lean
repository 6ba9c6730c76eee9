/-
The loop.

An evaluation can also be run as a loop over two scripts and a place in the first of them.  A turn of
the loop goes on, or comes back with a signal: a fault, or that the script is over, which is no
failure but travels the same way.  The loop takes as many turns as there are chunks at most, one for
the end of each script and one for the verdict, and agrees with the recursion over the chunks.

* **`Thread.loop_of_runChunks`** — a script in the loop goes as the recursion over its chunks;
* **`Thread.call_eq`** — within that many turns the loop comes to the end of the evaluation, and no
  signal but a fault leaves it;
* **`execute_shape`** — which chunks an evaluation notes, when it comes to the locking script, and when
  it succeeds.
-/
import Utxo.Proofs.Machine.Ends
import Utxo.Proofs.Machine.Place

namespace Utxo.Machine

/-! ### Turns -/

/-- What comes back from a turn that does not go on. -/
inductive Signal where
  /-- The script is over before its last chunk.  This is no failure. -/
  | over
  | fault (fault : Fault)

/-- The state that a move leaves behind, and what it signals. -/
def Move.signal (s : State) : Move → State × Except Signal Unit
  | next t => (t, .ok ())
  | stop (.completed t) => (t, .error .over)
  | stop (.failed fault calls) => ({ s with calls }, .error (.fault fault))

/-- An evaluation in progress: the scripts that are not over, the state in the first of them, and the
steps noted so far. -/
structure Thread where
  ahead : List (Role × List Chunk)
  state : State
  noted : List Step

/-- What comes of an evaluation. -/
structure Outcome where
  result : Except Signal Unit
  steps : List Step
  calls : List Call

/-- What comes of an evaluation, a fault being a signal. -/
def Run.outcome (r : Run) : Outcome := ⟨r.result.mapError .fault, r.steps, r.calls⟩

namespace Thread

/-- The evaluation before its first turn. -/
def start (unlocking locking : Script) : Thread :=
  ⟨[(.unlocking, unlocking.chunks), (.locking, locking.chunks)], .initial, []⟩

/-- Moves on to the next script.  At the last chunk no conditional may be open. -/
def finish (early : Bool) (t : Thread) : Thread × Except Signal Unit :=
  if !early && !t.state.branches.isEmpty then (t, .error (.fault (.unbalanced .openAtEnd)))
  else ({ t with ahead := t.ahead.tail, state := t.state.handOver }, .ok ())

/-- Notes and evaluates a chunk.  If it signals that the script is over, the next one comes. -/
def advance (setting : Setting) (role : Role) (script : List Chunk) (c : Chunk) (t : Thread) :
    Thread × Except Signal Unit :=
  let (state, signal) := (step setting script c t.state).signal t.state
  let after : Thread := { t with state, noted := t.noted ++ [⟨role, c, t.state⟩] }
  match signal with
  | .error .over => after.finish true
  | signal => (after, signal)

/-- One turn in a script. -/
def turn (setting : Setting) (role : Role) (script : List Chunk) (t : Thread) :
    Thread × Except Signal Unit :=
  match script[t.state.offset]? with
  | none => t.finish false
  | some c => t.advance setting role script c

/-- At most `n` turns, the last of which gives the verdict. -/
def loop (setting : Setting) : Nat → Thread → Option Outcome
  | 0, _ => none
  | n + 1, t =>
    match t.ahead with
    | [] => some ⟨(judge setting.rules t.state.main).mapError .fault, t.noted, t.state.calls⟩
    | (role, script) :: _ =>
      match t.turn setting role script with
      | (t, .ok ()) => loop setting n t
      | (t, .error signal) => some ⟨.error signal, t.noted, t.state.calls⟩

/-- An evaluation of two scripts in at most `n` turns. -/
def call (setting : Setting) (n : Nat) (unlocking locking : Script) : Option Outcome :=
  match refusal? setting unlocking locking with
  | some fault => some ⟨.error (.fault fault), [], []⟩
  | none => loop setting n (start unlocking locking)

variable {setting : Setting} {role : Role} {script ahead : List Chunk} {s : State} {t : Thread}
  {n m : Nat} {o : Outcome} {later : List (Role × List Chunk)} {noted : List Step}

/-- What comes of an evaluation comes of it in more turns too. -/
theorem loop_mono (h : loop setting n t = some o) (hle : n ≤ m) : loop setting m t = some o := by
  induction n generalizing t m with
  | zero => cases h
  | succ n ih =>
    obtain ⟨m, rfl⟩ : ∃ k, m = k + 1 := ⟨m - 1, by omega⟩
    unfold loop at h ⊢
    split at h
    · exact h
    · split at h
      · exact ih h (Nat.le_of_succ_le_succ hle)
      · exact h

/-- What comes of an evaluation after the steps and the ending of a script. -/
def resume (setting : Setting) (later : List (Role × List Chunk)) (noted : List Step) (n : Nat) :
    List Step × Ending → Option Outcome
  | (steps, .completed s) => loop setting n ⟨later, s.handOver, noted ++ steps⟩
  | (steps, .failed fault calls) => some ⟨.error (.fault fault), noted ++ steps, calls⟩

/-- A script in the loop goes as the recursion over its chunks, one turn for each of them and one for
its end. -/
theorem loop_of_runChunks (hahead : script.drop s.offset = ahead)
    (h : resume setting later noted n (runChunks setting role script ahead s) = some o) :
    loop setting (n + ahead.length + 1) ⟨(role, script) :: later, s, noted⟩ = some o := by
  induction ahead generalizing s noted with
  | nil =>
    have hend : script[s.offset]? = none := by
      rw [← List.head?_drop, hahead, List.head?_nil]
    simp only [loop, turn, hend, finish]
    simp only [runChunks, atEnd] at h
    by_cases hopen : s.branches.isEmpty
    · simpa [hopen, resume] using h
    · simpa [hopen, resume] using h
  | cons c ahead ih =>
    have hc : script[s.offset]? = some c := getElem?_of_drop_eq_cons hahead
    simp only [loop, turn, hc, advance]
    rw [runChunks] at h
    cases hstep : step setting script c s with
    | next u =>
      rw [hstep] at h
      have hdrop : script.drop u.offset = ahead := drop_of_step_eq_next hstep hahead
      have hresume : resume setting later (noted ++ [⟨role, c, s⟩]) n
          (runChunks setting role script ahead u) = some o := by
        dsimp only at h
        generalize runChunks setting role script ahead u = rest at h ⊢
        obtain ⟨steps, v | ⟨fault, calls⟩⟩ := rest <;> simpa [resume] using h
      exact ih hdrop hresume
    | stop e =>
      rw [hstep] at h
      cases e with
      | failed fault calls => exact h
      | completed u =>
        -- The chunks that are left take no turns.
        exact loop_mono h (by simp only [List.length_cons]; omega)

/-- Within as many turns as there are chunks, and three more, the loop comes to the end of the
evaluation. -/
theorem call_eq {unlocking locking : Script}
    (hn : unlocking.chunks.length + locking.chunks.length + 2 < n) :
    call setting n unlocking locking = some (run setting unlocking locking).outcome := by
  obtain ⟨fault, hrefusal, hrun⟩ |
      ⟨haccepted, ⟨fault, calls, hfailed, hrun⟩ | ⟨s, hcompleted, hrun⟩⟩ :=
    run_cases setting unlocking locking
  · rw [call, hrefusal, hrun]
    rfl
  · rw [call, haccepted, hrun]
    refine loop_mono (n := 0 + unlocking.chunks.length + 1) ?_ (by omega)
    refine loop_of_runChunks List.drop_zero ?_
    rw [runScript] at hfailed
    rw [← Prod.eta (runChunks _ _ _ _ _), hfailed]
    rfl
  · rw [call, haccepted, hrun]
    refine loop_mono (n := 1 + locking.chunks.length + 1 + unlocking.chunks.length + 1) ?_ (by omega)
    refine loop_of_runChunks List.drop_zero ?_
    rw [runScript] at hcompleted
    rw [← Prod.eta (runChunks _ _ _ _ _), hcompleted]
    refine loop_of_runChunks List.drop_zero ?_
    rw [List.nil_append]
    unfold runLocking
    rw [runScript]
    obtain ⟨more, u | ⟨fault, calls⟩⟩ :=
      runChunks setting .locking locking.chunks locking.chunks s.handOver <;> rfl

end Thread

/-- What comes of an evaluation is never the signal that a script is over. -/
theorem Run.result_outcome_ne_over (r : Run) : r.outcome.result ≠ .error .over := by
  unfold outcome
  cases r.result with
  | ok => nofun
  | error fault => nofun

/-! ### Evaluations -/

/-- The steps of an evaluation are at the first chunks of the unlocking script and then at the first
chunks of the locking script, one after the other, and there are none if the scripts are refused.  An
evaluation comes to the locking script only when the unlocking script is over.  It succeeds just if
both scripts are over and the stack that they leave says so.  The loop comes to the same end within as
many turns as there are chunks and three more, and never lets out the signal that a script is over. -/
theorem execute_shape (limits : Limits) (flags : Flags) (checker : Option Checker)
    (inputIndex : Nat) (unlocking locking : Script) :
    let setting := Setting.ofFlags limits flags checker inputIndex
    let r := execute limits flags checker inputIndex unlocking locking
    (∃ n ≤ unlocking.chunks.length, ∃ m ≤ locking.chunks.length,
      r.steps.map Step.place =
        places .unlocking (unlocking.chunks.take n) ++ places .locking (locking.chunks.take m)) ∧
      r.steps.length ≤ unlocking.chunks.length + locking.chunks.length ∧
      (IsRefused setting unlocking locking → r.steps = []) ∧
      (∀ k ∈ r.steps, k.role = .locking → IsOver setting unlocking locking .unlocking) ∧
      (r.result = .ok () ↔
        IsOver setting unlocking locking .unlocking ∧ IsOver setting unlocking locking .locking ∧
          ∃ s, Completes setting unlocking locking .locking s ∧ IsTrue (.ofFlags flags) s.main) ∧
      (∀ n, unlocking.chunks.length + locking.chunks.length + 2 < n →
        Thread.call setting n unlocking locking = some r.outcome) ∧
      r.outcome.result ≠ .error .over := by
  intro setting r
  have hplace := run_steps_map_place setting unlocking locking
  refine ⟨hplace, ?_, ?_, ?_, run_result_eq_ok_iff_isOver, fun _ => Thread.call_eq,
    r.result_outcome_ne_over⟩
  · obtain ⟨n, hn, m, hm, hsteps⟩ := hplace
    have hlength := congrArg List.length hsteps
    simp only [List.length_map, List.length_append, length_places, List.length_take] at hlength
    show (run setting unlocking locking).steps.length ≤ _
    omega
  · intro hrefused
    obtain ⟨fault, hfault⟩ :=
      Option.ne_none_iff_exists'.mp (mt refusal?_eq_none_iff.mp (not_not.mpr hrefused))
    exact congrArg Run.steps (run_eq_of_refused hfault)
  · intro k hk hlocking
    have hnoted : k ∈ (run setting unlocking locking).steps := hk
    obtain ⟨start, -, hbegins, -⟩ := exists_passed_of_mem hnoted
    rw [hlocking] at hbegins
    exact isOver_of_begins_locking hbegins

/-- An unlocking script that returns, before a locking script that does nothing. -/
theorem execute_shape_returning :
    let setting := Setting.ofFlags .afterGenesis .afterGenesis none 0
    let r := execute .afterGenesis .afterGenesis none 0 ⟨[0x51, 0x6a, 0x00]⟩ ⟨[0x61]⟩
    r.steps.map (fun k => (k.role, k.before.offset, k.chunk.op)) =
        [(.unlocking, 0, 0x51), (.unlocking, 1, 0x6a), (.locking, 0, 0x61)] ∧
      IsOver setting ⟨[0x51, 0x6a, 0x00]⟩ ⟨[0x61]⟩ .unlocking ∧
      Thread.call setting 7 ⟨[0x51, 0x6a, 0x00]⟩ ⟨[0x61]⟩ = some r.outcome := by
  intro setting r
  have hsteps : r.steps.map (fun k => (k.role, k.before.offset, k.chunk.op)) =
      [(.unlocking, 0, 0x51), (.unlocking, 1, 0x6a), (.locking, 0, 0x61)] := by decide +kernel
  obtain ⟨k, hk, hlocking⟩ : ∃ k ∈ r.steps, k.role = .locking := by
    obtain ⟨k, hk, hplace⟩ := List.exists_of_mem_map (hsteps ▸ List.mem_of_mem_getLast? rfl :
      (Role.locking, 0, (0x61 : Opcode)) ∈
        r.steps.map fun k => (k.role, k.before.offset, k.chunk.op))
    exact ⟨k, hk, congrArg Prod.fst hplace⟩
  obtain ⟨-, -, -, hover, -, hcall, -⟩ :=
    execute_shape .afterGenesis .afterGenesis none 0 ⟨[0x51, 0x6a, 0x00]⟩ ⟨[0x61]⟩
  exact ⟨hsteps, hover k hk hlocking, hcall 7 (by decide +kernel)⟩

end Utxo.Machine
