/-
Two evaluations in step.

Evaluations of the same scripts under two settings are compared part by part.  Each part does the
same under both, unless it fails under the first one for a reason that is excused (`Agrees`).

* **`Lockstep.step_agrees`** — if the parts of a step agree, the steps do;
* **`Lockstep.run_eq_or`** — then whole evaluations are the same, unless the first one fails for a reason
  that is excused.
-/
import Utxo.Proofs.Machine.Trace

namespace Utxo.Machine

/-! ### Comparisons -/

section Comparisons

variable {α : Type} {bad : α → Prop} {c c' : Prop} [Decidable c] [Decidable c'] {a a' b b' : α}

/-- One is the same as the other, unless it is bad. -/
def SameUnless (bad : α → Prop) (a a' : α) : Prop := a = a' ∨ bad a

theorem SameUnless.ite (ha : SameUnless bad a a') (hb : SameUnless bad b b') :
    SameUnless bad (if c then a else b) (if c then a' else b') := by
  split_ifs
  · exact ha
  · exact hb

/-- A check may fail more often if its failure is bad. -/
theorem SameUnless.guard (hc : c' → c) (ha : bad a) (hb : SameUnless bad b b') :
    SameUnless bad (if c then a else b) (if c' then a' else b') := by
  by_cases hfails : c
  · rw [if_pos hfails]
    exact .inr ha
  · rw [if_neg hfails, if_neg fun hc' => hfails (hc hc')]
    exact hb

end Comparisons

/-! ### Results and moves -/

section Results

variable {α β : Type} {excused : Fault → Prop} {fault fault' : Fault}

/-- A result is the same as another one, unless it is a failure that is excused. -/
def Agrees (excused : Fault → Prop) (r r' : Except Fault α) : Prop :=
  SameUnless (fun r => ∃ fault, excused fault ∧ r = .error fault) r r'

namespace Agrees

variable {r r' : Except Fault α}

theorem refl (r : Except Fault α) : Agrees excused r r := .inl rfl

theorem error (h : excused fault) : Agrees excused (.error fault) r' := .inr ⟨fault, h, rfl⟩

theorem bind {f f' : α → Except Fault β} (hr : Agrees excused r r')
    (hf : ∀ a, Agrees excused (f a) (f' a)) : Agrees excused (r >>= f) (r' >>= f') := by
  obtain rfl | ⟨fault, h, rfl⟩ := hr
  · cases r with
    | error fault => exact .refl _
    | ok a => exact hf a
  · exact .error h

theorem map {f : α → β} (hr : Agrees excused r r') : Agrees excused (r.map f) (r'.map f) := by
  obtain rfl | ⟨fault, h, rfl⟩ := hr
  · exact .refl _
  · exact .error h

theorem ite {c : Prop} [Decidable c] {s s' : Except Fault α} (h : Agrees excused r r')
    (h' : Agrees excused s s') : Agrees excused (if c then r else s) (if c then r' else s') :=
  SameUnless.ite h h'

theorem guard {c c' : Prop} [Decidable c] [Decidable c'] (hc : c' → c) (h : excused fault)
    (hr : Agrees excused r r') :
    Agrees excused (if c then .error fault else r) (if c' then .error fault' else r') :=
  SameUnless.guard hc ⟨fault, h, rfl⟩ hr

end Agrees

/-- A reason not to go on is the same as another one, unless it is a fault that is excused. -/
def BarAgrees (excused : Fault → Prop) (b b' : Option Fault) : Prop :=
  SameUnless (fun b => ∃ fault, excused fault ∧ b = some fault) b b'

namespace BarAgrees

variable {b b' : Option Fault}

theorem refl (b : Option Fault) : BarAgrees excused b b := .inl rfl

theorem ite {c : Prop} [Decidable c] {d d' : Option Fault} (h : BarAgrees excused b b')
    (h' : BarAgrees excused d d') :
    BarAgrees excused (if c then b else d) (if c then b' else d') :=
  SameUnless.ite h h'

theorem guard {c c' : Prop} [Decidable c] [Decidable c'] (hc : c' → c) (h : excused fault)
    (hb : BarAgrees excused b b') :
    BarAgrees excused (if c then some fault else b) (if c' then some fault' else b') :=
  SameUnless.guard hc ⟨fault, h, rfl⟩ hb

end BarAgrees

namespace Move

variable {m m' : Move} {f f' : State → Move}

/-- A move is the same as another one, unless it is a failure that is excused. -/
def Agrees (excused : Fault → Prop) (m m' : Move) : Prop :=
  SameUnless (fun m => ∃ fault calls, excused fault ∧ m = .stop (.failed fault calls)) m m'

namespace Agrees

theorem refl (m : Move) : Agrees excused m m := .inl rfl

theorem failed (h : excused fault) (calls : List Call) :
    Agrees excused (.stop (.failed fault calls)) m' :=
  .inr ⟨fault, calls, h, rfl⟩

theorem ofExcept {s : State} {r r' : Except Fault State} (h : Machine.Agrees excused r r') :
    Agrees excused (ofExcept s r) (ofExcept s r') := by
  obtain rfl | ⟨fault, h, rfl⟩ := h
  · exact .refl _
  · exact .failed h s.calls

theorem andThen (hm : Agrees excused m m') (hf : ∀ s, Agrees excused (f s) (f' s)) :
    Agrees excused (m.andThen f) (m'.andThen f') := by
  obtain rfl | ⟨fault, calls, h, rfl⟩ := hm
  · cases m with
    | next s => exact hf s
    | stop e => exact .refl _
  · exact .failed h calls

theorem guard {c c' : Prop} [Decidable c] [Decidable c'] {calls : List Call} {e' : Ending}
    (hc : c' → c) (h : excused fault) (hm : Agrees excused m m') :
    Agrees excused (if c then .stop (.failed fault calls) else m) (if c' then .stop e' else m') :=
  SameUnless.guard hc ⟨fault, calls, h, rfl⟩ hm

end Agrees

end Move

end Results

/-! ### Settings -/

/-- The parts of an evaluation do the same under two settings, unless they fail under the first one
for a reason that is excused. -/
structure Lockstep (excused : Fault → Prop) (setting setting' : Setting) : Prop where
  refusal : ∀ unlocking locking,
    BarAgrees excused (refusal? setting unlocking locking) (refusal? setting' unlocking locking)
  enter : ∀ c s, Agrees excused (enter setting c s) (enter setting' c s)
  instruction : ∀ script op instr s,
    (Instruction.run setting script op instr s).Agrees excused
      (Instruction.run setting' script op instr s)
  settle : ∀ s, (settle setting s).Agrees excused (settle setting' s)
  judge : ∀ s, Agrees excused (judge setting.rules s) (judge setting'.rules s)

namespace Lockstep

variable {excused : Fault → Prop} {setting setting' : Setting}

theorem perform_agrees (h : Lockstep excused setting setting') (script : List Chunk) (c : Chunk)
    (s : State) :
    (perform setting script c s).Agrees excused (perform setting' script c s) := by
  simp only [perform]
  split_ifs
  · exact .refl _
  · cases c.data with
    | some data => exact .refl _
    | none => exact h.instruction script c.op _ s

/-- If the parts of a step agree, the steps do. -/
theorem step_agrees (h : Lockstep excused setting setting') (script : List Chunk) (c : Chunk)
    (s : State) :
    (step setting script c s).Agrees excused (step setting' script c s) :=
  (Move.Agrees.ofExcept (h.enter c s)).andThen fun t =>
    (h.perform_agrees script c t).andThen h.settle

/-- Two evaluations of a script note the same steps and end in the same way, unless the first one
fails for a reason that is excused. -/
theorem runScript_eq_or (h : Lockstep excused setting setting') (role : Role) (script : List Chunk)
    (s : State) :
    runScript setting role script s = runScript setting' role script s ∨
      ∃ fault calls, excused fault ∧
        (runScript setting role script s).2 = .failed fault calls := by
  -- Over the chunks ahead, from any state.
  suffices hahead : ∀ ahead s,
      runChunks setting role script ahead s = runChunks setting' role script ahead s ∨
        ∃ fault calls, excused fault ∧
          (runChunks setting role script ahead s).2 = .failed fault calls from hahead script s
  intro ahead
  induction ahead with
  | nil => exact fun s => .inl rfl
  | cons c ahead ih =>
    intro s
    obtain hstep | ⟨fault, calls, hexcused, hstep⟩ := h.step_agrees script c s
    · rw [runChunks, runChunks, ← hstep]
      cases step setting script c s with
      | stop e => exact .inl rfl
      | next t =>
        obtain heq | ⟨fault, calls, hexcused, hfailed⟩ := ih t
        · refine .inl ?_
          dsimp only
          rw [heq]
        · exact .inr ⟨fault, calls, hexcused, hfailed⟩
    · refine .inr ⟨fault, calls, hexcused, ?_⟩
      rw [runChunks, hstep]

theorem runLocking_eq_or (h : Lockstep excused setting setting') (locking : Script) (s : State) :
    runLocking setting locking s = runLocking setting' locking s ∨
      ∃ fault, excused fault ∧ (runLocking setting locking s).result = .error fault := by
  obtain heq | ⟨fault, calls, hexcused, hfailed⟩ := h.runScript_eq_or .locking locking.chunks s
  · unfold runLocking
    rw [← heq]
    obtain ⟨steps, t | ⟨fault, calls⟩⟩ := runScript setting .locking locking.chunks s
    · obtain hjudge | ⟨fault, hexcused, hjudge⟩ := h.judge t.main
      · refine .inl ?_
        rw [Run.ofLocking, Run.ofLocking, hjudge]
      · exact .inr ⟨fault, hexcused, hjudge⟩
    · exact .inl rfl
  · exact .inr ⟨fault, hexcused, runLocking_result_of_failed hfailed⟩

/-- Two evaluations are the same, unless the first one fails for a reason that is excused. -/
theorem run_eq_or (h : Lockstep excused setting setting') (unlocking locking : Script) :
    run setting unlocking locking = run setting' unlocking locking ∨
      ∃ fault, excused fault ∧ (run setting unlocking locking).result = .error fault := by
  obtain hrefusal | ⟨fault, hexcused, hrefusal⟩ := h.refusal unlocking locking
  · cases haccepted : refusal? setting unlocking locking with
    | some fault =>
      refine .inl ?_
      rw [run_eq_of_refused haccepted, run_eq_of_refused (hrefusal.symm.trans haccepted)]
    | none =>
      have haccepted' := hrefusal.symm.trans haccepted
      obtain hfirst | ⟨fault, calls, hexcused, hfailed⟩ :=
        h.runScript_eq_or .unlocking unlocking.chunks .initial
      · cases hending : (runScript setting .unlocking unlocking.chunks .initial).2 with
        | failed fault calls =>
          refine .inl ?_
          rw [run_eq_of_failed haccepted hending, run_eq_of_failed haccepted' (hfirst ▸ hending),
            hfirst]
        | completed s =>
          rw [run_eq_of_completed haccepted hending,
            run_eq_of_completed haccepted' (hfirst ▸ hending), hfirst]
          obtain hlocking | ⟨fault, hexcused, hfailed⟩ := h.runLocking_eq_or locking s.handOver
          · rw [hlocking]
            exact .inl rfl
          · exact .inr ⟨fault, hexcused, hfailed⟩
      · exact .inr ⟨fault, hexcused, (Begins.unlocking haccepted).result_eq_error hfailed⟩
  · refine .inr ⟨fault, hexcused, ?_⟩
    rw [run_eq_of_refused hrefusal]

end Lockstep

end Utxo.Machine
