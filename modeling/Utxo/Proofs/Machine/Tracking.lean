/-
What a tracker remembers of a failing step.

A tracker overlooks the steps that are passed over, conditional opcodes apart.  Such a step can fail
too: its push may be too long, its opcode disabled, or it may be one operation too many.  The site
then is that of a step before.

* **`Step.Fails.code_mem_of_not_matters`** — a step that does not matter to a tracker fails for one of
  these three reasons only;
* **`execute_site_of_fails`** — when a step has an evaluation fail, the site has its opcode if the step
  matters, and is its place just if the step is executed.
-/
import Utxo.Machine.Site
import Utxo.Proofs.Machine.Flow
import Utxo.Proofs.Machine.Nesting
import Utxo.Proofs.Machine.Reach

namespace Utxo

/-! ### Sites -/

/-- A tracker does not overlook the chunk. -/
def Visit.Matters (v : Visit) : Prop := v.executed ∨ v.opcode.isConditional

/-- The opcode is an ordinary one: it has a tracker remember the whole place. -/
def Opcode.IsOrdinary (op : Opcode) : Prop := op.isConditional = false ∧ op ≠ Opcode.ret

/-- The classes of the faults that a chunk can raise though it is passed over. -/
def Fault.codesPassedOver : List Fault.Code := [.elementTooBig, .disabledOpcode, .tooManyOperations]

namespace Site

variable {s : Site} {v : Visit} {vs : List Visit}

theorem ofVisits_append_singleton (vs : List Visit) (v : Visit) :
    ofVisits (vs ++ [v]) = (ofVisits vs).track v := by
  rw [ofVisits, List.foldl_append]
  rfl

theorem track_of_not_matters (h : ¬v.Matters) : s.track v = s := by
  have hoverlooked : !v.executed && !v.opcode.isConditional := by
    simpa [Visit.Matters, not_or] using h
  exact if_pos hoverlooked

theorem track_of_matters (h : v.Matters) :
    s.track v =
      if v.opcode.isConditional || v.opcode = Opcode.ret then { s with opcode := v.opcode }
      else ofVisit v := by
  refine if_neg fun hoverlooked => ?_
  simp only [Bool.and_eq_true, Bool.not_eq_true'] at hoverlooked
  rcases h with h | h
  · simp [h] at hoverlooked
  · simp [h] at hoverlooked

theorem opcode_track (h : v.Matters) : (s.track v).opcode = v.opcode := by
  rw [track_of_matters h]
  split_ifs <;> rfl

theorem track_eq_ofVisit (h : v.Matters) (hordinary : v.opcode.IsOrdinary) :
    s.track v = ofVisit v := by
  rw [track_of_matters h, if_neg (by simpa [Opcode.IsOrdinary] using hordinary)]

theorem executed_track (h : s.executed ≠ some false) : (s.track v).executed ≠ some false := by
  by_cases hmatters : v.Matters
  · by_cases hordinary : v.opcode.IsOrdinary
    · rw [track_eq_ofVisit hmatters hordinary]
      have hexecuted : v.executed = true :=
        hmatters.resolve_right (by simp [hordinary.1])
      simp [ofVisit, hexecuted]
    · rw [track_of_matters hmatters, if_pos (by simpa [Opcode.IsOrdinary, or_iff_not_imp_left] using
        hordinary)]
      exact h
  · rwa [track_of_not_matters hmatters]

/-- A tracker never remembers a place that was passed over. -/
theorem executed_ofVisits (vs : List Visit) : (ofVisits vs).executed ≠ some false := by
  induction vs using List.reverseRecOn with
  | nil => nofun
  | append_singleton vs v ih =>
    rw [ofVisits_append_singleton]
    exact executed_track ih

/-- After an ordinary chunk, the site is its place just if it is executed. -/
theorem ofVisits_eq_ofVisit_iff (hordinary : v.opcode.IsOrdinary) :
    ofVisits (vs ++ [v]) = ofVisit v ↔ v.executed := by
  constructor
  · intro h
    have hexecuted := executed_ofVisits (vs ++ [v])
    rw [h] at hexecuted
    simpa [ofVisit] using hexecuted
  · intro h
    rw [ofVisits_append_singleton, track_eq_ofVisit (.inl h) hordinary]

end Site

namespace Machine

/-- The site of a tracker that was told of every step. -/
def Run.site (r : Run) : Site := .ofVisits (r.steps.map (·.visit))

/-- The step fails with this fault, in this script. -/
def Step.Fails (setting : Setting) (script : List Chunk) (k : Step) (fault : Fault) : Prop :=
  ∃ calls, Machine.step setting script k.chunk k.before = .stop (.failed fault calls)

/-! ### Steps that do not matter -/

variable {setting : Setting} {script : List Chunk} {k : Step} {fault : Fault}

/-- The opcodes of conditionals, and the reserved ones among them, matter to a tracker. -/
theorem isConditional_of_instruction {op : Opcode}
    (h : (Instruction.ofOpcode op).isConditional ∨ Instruction.ofOpcode op = .reservedConditional) :
    op.isConditional := by
  have hstands := Instruction.standsAt_ofOpcode op
  rcases h with h | h
  · cases hinstr : Instruction.ofOpcode op with
    | conditional c =>
      rw [hinstr] at hstands
      exact hstands
    | _ => simp [hinstr, Instruction.isConditional] at h
  · rw [h] at hstands
    exact hstands

/-- The stacks are within their limit throughout an evaluation. -/
theorem isKept_depth (setting : Setting) :
    IsKept setting fun s => s.depth ≤ setting.limits.stackDepth where
  initial := Nat.zero_le _
  step script c s h := by
    refine .intro (fun t hnext => ?_) fun t hover => ?_
    · obtain ⟨-, u, -, hdepth, rfl⟩ := step_eq_next_iff.mp hnext
      exact hdepth
    · obtain ⟨-, -, -, -, rfl⟩ := step_eq_completed_iff.mp hover
      exact h
  -- The alt stack is left behind.
  handOver s h := Nat.le_trans (Nat.add_le_add_left (Nat.zero_le _) _) h

theorem code_mem_of_barred? {c : Chunk} {executing : Bool} {operations : Nat}
    (hop : Instruction.ofOpcode c.op ≠ .reservedConditional)
    (h : barred? setting c executing operations = some fault) :
    fault.code ∈ Fault.codesPassedOver := by
  unfold barred? at h
  split_ifs at h with hsize hdisabled hreserved hcount
  · cases h
    exact .head _
  · cases h
    exact .tail _ (.head _)
  · simp [hop] at hreserved
  · cases h
    exact .tail _ (.tail _ (.head _))

/-- A step that does not matter to a tracker is barred if it fails. -/
theorem Step.Fails.code_mem_of_not_matters (h : k.Fails setting script fault)
    (hmatters : ¬k.visit.Matters) (hdepth : k.before.depth ≤ setting.limits.stackDepth) :
    fault.code ∈ Fault.codesPassedOver := by
  obtain ⟨hexecuting, hop⟩ := not_or.mp hmatters
  replace hexecuting : k.before.isExecuting = false := Bool.eq_false_iff.mpr hexecuting
  obtain ⟨hconditional, hreserved⟩ := not_or.mp (mt isConditional_of_instruction hop)
  obtain ⟨calls, hstep⟩ := h
  rw [step_eq] at hstep
  cases hbar : barred? setting k.chunk k.before.isExecuting (k.before.count k.chunk).operations with
  | some fault' =>
    rw [hbar] at hstep
    cases hstep
    exact code_mem_of_barred? hreserved hbar
  | none =>
    -- Nothing happens to the stacks, so they are not too deep.
    have hperform : perform setting script k.chunk (k.before.count k.chunk) =
        .next (k.before.count k.chunk) :=
      perform_passed hexecuting (Bool.eq_false_iff.mpr hconditional)
    have hsettle : settle setting (k.before.count k.chunk) =
        .next { k.before.count k.chunk with offset := k.before.offset + 1 } :=
      settle_eq_next_iff.mpr ⟨hdepth, rfl⟩
    rw [hbar, hperform] at hstep
    cases hsettle.symm.trans hstep

/-! ### Evaluations that fail at a step -/

section Scripts

variable {unlocking locking : Script}

/-- A step that fails is the last one, and has the evaluation fail. -/
theorem run_eq_of_fails (hk : k ∈ (run setting unlocking locking).steps)
    (hfails : k.Fails setting (scriptOf unlocking locking k.role).chunks fault) :
    (run setting unlocking locking).result = .error fault ∧
      ∃ before, (run setting unlocking locking).steps = before ++ [k] := by
  obtain ⟨start, before, hbegins, hpassed, hc⟩ := exists_passed_of_mem hk
  obtain ⟨calls, hstep⟩ := hfails
  have hrun := hpassed.runScript_eq_of_stop hc hstep
  have hfailed := congrArg Prod.snd hrun
  refine ⟨hbegins.result_eq_error hfailed, ?_⟩
  obtain ⟨earlier, hsteps⟩ := hbegins.exists_steps_eq_append hfailed
  refine ⟨earlier ++ before, ?_⟩
  rw [hsteps, hrun, List.append_assoc]

end Scripts

/-- When a step has an evaluation fail, the site that is left has the opcode of the step if the step
matters.  For an ordinary opcode, the site is the place of the step just if the step is executed.  A
step that does not matter leaves the site as it was, and fails because its push is too long, its
opcode disabled, or its script has too many operations. -/
theorem execute_site_of_fails {limits : Limits} {flags : Flags} {checker : Option Checker}
    {inputIndex : Nat} {unlocking locking : Script} {k : Step} {fault : Fault}
    (hk : k ∈ (execute limits flags checker inputIndex unlocking locking).steps)
    (hfails : k.Fails (.ofFlags limits flags checker inputIndex)
      (scriptOf unlocking locking k.role).chunks fault) :
    let r := execute limits flags checker inputIndex unlocking locking
    r.result = .error fault ∧
      (k.visit.Matters → r.site.opcode = some k.chunk.op) ∧
      (k.chunk.op.IsOrdinary → (r.site = .ofVisit k.visit ↔ k.executed)) ∧
      (¬k.visit.Matters →
        (∃ before, r.steps = before ++ [k] ∧ r.site = .ofVisits (before.map (·.visit))) ∧
          fault.code ∈ Fault.codesPassedOver) := by
  intro r
  have hreaches := @reaches_of_mem (.ofFlags limits flags checker inputIndex) _ _ _ hk
  obtain ⟨hresult, before, hsteps⟩ : r.result = .error fault ∧ ∃ before, r.steps = before ++ [k] :=
    run_eq_of_fails hk hfails
  have hsite : r.site = .ofVisits (before.map (·.visit) ++ [k.visit]) := by
    rw [Run.site, hsteps, List.map_append]
    rfl
  refine ⟨hresult, ?_, ?_, ?_⟩
  · intro hmatters
    rw [hsite, Site.ofVisits_append_singleton, Site.opcode_track hmatters]
    rfl
  · intro hordinary
    rw [hsite, Site.ofVisits_eq_ofVisit_iff hordinary]
    rfl
  · intro hmatters
    refine ⟨⟨before, hsteps, ?_⟩, ?_⟩
    · rw [hsite, Site.ofVisits_append_singleton, Site.track_of_not_matters hmatters]
    · exact hfails.code_mem_of_not_matters hmatters ((isKept_depth _).reached hreaches)

/-- Two numbers that are not equal, found so in the locking script. -/
theorem execute_site_of_fails_equalVerify :
    let unlocking : Script := ⟨[0x53]⟩
    let locking : Script := ⟨[0x52, 0x88, 0x51]⟩
    let k : Step := ⟨.locking, .ofOpcode 0x88,
      { State.initial with
        main := ⟨[[2], [3]], ["$tmp", "$tmp"]⟩
        offset := 1 }⟩
    k ∈ (execute .afterGenesis .afterGenesis none 0 unlocking locking).steps ∧
      k.Fails (.ofFlags .afterGenesis .afterGenesis none 0) locking.chunks
        (.verificationFailed .equal) ∧
      (execute .afterGenesis .afterGenesis none 0 unlocking locking).site = .ofVisit k.visit := by
  intro unlocking locking k
  have hk : k ∈ (execute .afterGenesis .afterGenesis none 0 unlocking locking).steps := by
    decide +kernel
  have hfails : k.Fails (.ofFlags .afterGenesis .afterGenesis none 0) locking.chunks
      (.verificationFailed .equal) := ⟨[], by decide +kernel⟩
  obtain ⟨-, -, hsite, -⟩ := execute_site_of_fails hk hfails
  exact ⟨hk, hfails, (hsite ⟨by decide, by decide⟩).mpr (by decide)⟩

/-- A disabled opcode in a branch that is not taken fails before the Genesis upgrade, and the site is
that of the last step of the unlocking script with the opcode that opened the branch. -/
theorem execute_site_of_fails_untaken :
    let unlocking : Script := ⟨[0x00]⟩
    let locking : Script := ⟨[0x63, 0x8d, 0x68]⟩
    let r := execute .beforeGenesis .none none 0 unlocking locking
    ∃ k ∈ r.steps,
      k.Fails (.ofFlags .beforeGenesis .none none 0) locking.chunks (.disabledOpcode 0x8d) ∧
        k.chunk.op.IsOrdinary ∧ k.visit = ⟨1, 1, 0x8d, false⟩ ∧
        r.site = ⟨some 0, some 0, some 0x63, some true⟩ ∧ r.site.opcode ≠ some k.chunk.op := by
  intro unlocking locking r
  let k : Step := ⟨.locking, .ofOpcode 0x8d,
    { State.initial with branches := [.passed], elses := [false], offset := 1, operations := 1 }⟩
  have hk : k ∈ r.steps := by decide +kernel
  have hfails : k.Fails (.ofFlags .beforeGenesis .none none 0) locking.chunks
      (.disabledOpcode 0x8d) := ⟨[], by decide +kernel⟩
  have hsite : r.site = ⟨some 0, some 0, some 0x63, some true⟩ := by decide +kernel
  exact ⟨k, hk, hfails, ⟨by decide, by decide⟩, by decide, hsite, by rw [hsite]; decide⟩

end Machine

end Utxo
