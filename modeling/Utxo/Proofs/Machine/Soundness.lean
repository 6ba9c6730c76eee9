/-
States between steps.

What every state satisfies that an evaluation comes to between two steps: the columns of its stacks and
its records of open conditionals are equally long, its places are within the script, its operations
within their limit, and a conditional inside one that is not taken is passed over as a whole.  So the
cases that a machine working on columns and indices would have to defend itself against do not occur.

* **`isKept_isNested`**, **`isKept_isPlaced`** — the parts of the invariant that are not about lengths
  hold throughout an evaluation;
* **`execute_sound`** — every state between two steps is sound, and an evaluation under guard comes to
  the same without a breach.
-/
import Utxo.Proofs.Machine.Bounds
import Utxo.Proofs.Machine.Guarded.Run

namespace Utxo.Machine

variable {setting : Setting} {script : List Chunk} {c : Chunk} {s t : State}

/-! ### Conditionals -/

/-- Nothing has returned before the Genesis upgrade, and a conditional inside one that is not taken is
passed over as a whole. -/
structure State.IsNested (rules : Rules) (s : State) : Prop where
  returned : s.returned → rules.afterGenesis
  branches : s.branches.Pairwise fun inner outer => outer ≠ .taken → inner = .skipped

theorem State.IsNested.of_sameFlow {rules : Rules} (h : s.IsNested rules) (hflow : SameFlow s t) :
    t.IsNested rules :=
  ⟨hflow.returned ▸ h.returned, hflow.branches ▸ h.branches⟩

theorem Conditional.run_isNested {rules : Rules} (op : Conditional) (h : s.IsNested rules) :
    Ensures (State.IsNested rules) (op.run rules s) := by
  cases op with
  | opening negated =>
    refine .ite (fun hexecuting => ?_) fun _ => .ok ⟨h.returned, .cons (by simp) h.branches⟩
    -- An opening that is executed is inside conditionals that are taken.
    have htaken : ∀ b ∈ s.branches, b = .taken := by
      have hall := (Bool.and_eq_true_iff.mp hexecuting).2
      simpa using hall
    refine (Ensures.any _).bind fun r _ => .ok ⟨h.returned, .cons (fun b hb hne => ?_) h.branches⟩
    exact absurd (htaken b hb) hne
  | turn =>
    have hpairwise := h.branches
    simp only [run]
    split
    · next b branches seen elses hbranches _ =>
      rw [hbranches] at hpairwise
      obtain ⟨hinner, houter⟩ := List.pairwise_cons.mp hpairwise
      refine .ite (fun _ => .error _) fun _ => .ok ⟨h.returned, .cons (fun b' hb' hne => ?_) houter⟩
      rw [hinner b' hb' hne]
      rfl
    · exact .error _
  | closing =>
    have hpairwise := h.branches
    simp only [run]
    split
    · next b branches hbranches =>
      rw [hbranches] at hpairwise
      exact .ok ⟨h.returned, hpairwise.of_cons⟩
    · exact .error _

theorem Instruction.run_isNested (op : Opcode) (instr : Instruction)
    (h : s.IsNested setting.rules) :
    (instr.run setting script op s).Leads (State.IsNested setting.rules) := by
  by_cases hret : instr = .ret
  · rw [hret]
    simp only [run, runReturn]
    split_ifs with hgenesis
    · trivial
    · exact h
    · exact ⟨fun _ => by simpa using hgenesis, h.branches⟩
  · cases hconditional : instr.isConditional with
    | true =>
      cases instr with
      | conditional c => exact .ofExcept s (c.run_isNested h)
      | _ => cases hconditional
    | false =>
      have hflow : (instr.run setting script op s).Leads (SameFlow s) :=
        run_sameFlow hconditional hret op
      exact Move.Leads.mono hflow fun _ => h.of_sameFlow

theorem perform_isNested (h : s.IsNested setting.rules) :
    (perform setting script c s).Leads (State.IsNested setting.rules) :=
  perform_leads h (fun _ _ => h.of_sameFlow (sameFlow_main s _)) (Instruction.run_isNested c.op _ h)

theorem isKept_isNested (setting : Setting) : IsKept setting (State.IsNested setting.rules) where
  initial := ⟨nofun, .nil⟩
  step script c s h := by
    have hperform : (perform setting script c (s.count c)).Leads (State.IsNested setting.rules) :=
      perform_isNested ⟨h.returned, h.branches⟩
    refine .intro (fun t hnext => ?_) fun t hover => ?_
    · obtain ⟨-, u, hu, -, rfl⟩ := step_eq_next_iff.mp hnext
      rw [hu] at hperform
      exact ⟨hperform.returned, hperform.branches⟩
    · obtain ⟨-, -, -, -, rfl⟩ := step_eq_completed_iff.mp hover
      exact ⟨h.returned, h.branches⟩
  handOver _ _ := ⟨nofun, .nil⟩

/-! ### Places -/

/-- The script code starts at a chunk that is behind, and the operations are within their limit. -/
structure State.IsPlaced (limits : Limits) (s : State) : Prop where
  codeStart : s.codeStart ≤ s.offset
  operations : s.operations ≤ limits.operations

theorem isKept_isPlaced (setting : Setting) : IsKept setting (State.IsPlaced setting.limits) where
  initial := ⟨Nat.le_refl _, Nat.zero_le _⟩
  step script c s h := by
    refine .intro (fun t hnext => ?_) fun t hover => ?_
    · obtain ⟨hoffset, hoperations, hcodeStart⟩ := step_moves hnext
      have hcount := (le_of_barred?_eq_none (step_eq_next_iff.mp hnext).1).2
      have hbehind := h.codeStart
      refine ⟨?_, Nat.le_trans (Nat.le_of_eq hoperations) hcount⟩
      rcases s.codeStartBehind_eq_or c with hsame | hbehind' <;> omega
    · obtain ⟨hbar, -, -, -, rfl⟩ := step_eq_completed_iff.mp hover
      exact ⟨h.codeStart, (le_of_barred?_eq_none hbar).2⟩
  handOver _ _ := ⟨Nat.le_refl _, Nat.zero_le _⟩

/-! ### Evaluations -/

/-- A sound state in a script. -/
structure State.IsSound (setting : Setting) (script : List Chunk) (s : State) : Prop where
  main : s.main.values.length = s.main.names.length
  alt : s.alt.values.length = s.alt.names.length
  elses : s.elses.length = s.branches.length
  offset : s.offset ≤ script.length
  codeStart : s.codeStart ≤ s.offset
  operations : s.operations ≤ setting.limits.operations
  returned : s.returned → setting.rules.afterGenesis
  /-- The entries of the record are innermost first. -/
  branches : s.branches.Pairwise fun inner outer => outer ≠ .taken → inner = .skipped

variable {unlocking locking : Script} {role : Role}

theorem Reaches.isSound (h : Reaches setting unlocking locking role s) :
    s.IsSound setting (scriptOf unlocking locking role).chunks := by
  have hwhole := (Guarded.isKept_isWhole setting).reached h
  have hplaced := (isKept_isPlaced setting).reached h
  have hnested := (isKept_isNested setting).reached h
  exact ⟨hwhole.main, hwhole.alt, hwhole.elses, h.offset_le, hplaced.codeStart, hplaced.operations,
    hnested.returned, hnested.branches⟩

/-- Every state that an evaluation comes to between two steps is sound.  So an evaluation under guard,
which reports columns of different lengths, a value without a name, an index beyond the end, a
difference below zero and records of conditionals that are not empty together, comes to the same
without a breach. What is under guard is the state, not what is reckoned inside a single value. -/
theorem execute_sound (limits : Limits) (flags : Flags) (checker : Option Checker)
    (inputIndex : Nat) (unlocking locking : Script) :
    let setting := Setting.ofFlags limits flags checker inputIndex
    (∀ role s, Reaches setting unlocking locking role s →
      s.IsSound setting (scriptOf unlocking locking role).chunks) ∧
      Guarded.evaluate setting unlocking locking =
        .ok (execute limits flags checker inputIndex unlocking locking) :=
  ⟨fun _ _ h => h.isSound, Guarded.evaluate_eq _ unlocking locking⟩

/-- A conditional inside one that is not taken. -/
theorem execute_sound_untaken :
    let setting := Setting.ofFlags .beforeGenesis .none none 0
    let locking : Script := ⟨[0x63, 0x63, 0x68, 0x68, 0x51]⟩
    ∃ s, Reaches setting ⟨[0x00]⟩ locking .locking s ∧ s.branches = [.skipped, .passed] ∧
      s.IsSound setting locking.chunks := by
  intro setting locking
  let k : Step := ⟨.locking, .ofOpcode 0x68,
    { State.initial with
      branches := [.skipped, .passed]
      elses := [false, false]
      offset := 2
      operations := 2 }⟩
  have hk : k ∈ (execute .beforeGenesis .none none 0 ⟨[0x00]⟩ locking).steps := by decide +kernel
  have hreaches : Reaches setting ⟨[0x00]⟩ locking .locking k.before := reaches_of_mem hk
  exact ⟨k.before, hreaches, rfl,
    (execute_sound .beforeGenesis .none none 0 ⟨[0x00]⟩ locking).1 .locking _ hreaches⟩

end Utxo.Machine
