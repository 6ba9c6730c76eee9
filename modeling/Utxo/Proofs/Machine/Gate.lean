/-
The gate before the checker.

A signature check asks the checker only after its own rules on the signature and the key have been
met, so under the fork id and low S a checker sees nothing but well-formed questions.  A checker that
is unable to tell counts as one that finds the signature not valid.

* **`run_asks`** — every question of an evaluation has met the rules of its setting;
* **`Call.IsChecked.isGated`** — under the fork id and low S, what has met the rules is well formed;
* **`execute_gated`** — so every question of an evaluation is well formed, and an evaluation is the
  same if the checker says no where it is unable to tell.
-/
import Utxo.Proofs.Ecdsa.Scheme
import Utxo.Proofs.Machine.CheckSig
import Utxo.Proofs.Machine.Flow
import Utxo.Proofs.Machine.Lockstep

namespace Utxo.Machine

/-! ### Questions that have passed the gate -/

/-- A question that has met the rules of a setting: its signature ends in the flag, the forms of the
signature and the key pass, and it is about the input of the evaluation. -/
structure Call.IsChecked (setting : Setting) (call : Call) : Prop where
  last : call.signature.getLast? = some call.flag
  forms : checkForms setting.rules call.signature.dropLast call.flag call.publicKey = .ok ()
  inputIndex : call.inputIndex = setting.inputIndex

/-- A question that is asked in a state: it has met the rules, and is about the script code from where
this starts. -/
structure Call.IsAsked (setting : Setting) (script : List Chunk) (s : State) (call : Call) : Prop
    extends call.IsChecked setting where
  scriptCode : call.scriptCode = Machine.scriptCode script s.codeStart call.signature call.flag

/-- The bytes are a tag and one coordinate, or a tag and two. -/
def IsKeyForm (key : Bytes) : Prop :=
  key.length = 33 ∧ (key.head? = some 0x02 ∨ key.head? = some 0x03) ∨
    key.length = 65 ∧ key.head? = some 0x04

/-- A well-formed question about an input: its signature ends in the flag, which has the bit of the
fork id and a known base; what comes before is the DER form of a signature whose second component is
in the lower half; and the key has one of the forms that there are. -/
structure Call.IsGated (inputIndex : Nat) (call : Call) : Prop where
  last : call.signature.getLast? = some call.flag
  forkId : call.flag &&& forkIdBit ≠ 0
  base : call.flag &&& ~~~(anyoneCanPayBit ||| forkIdBit) ∈ ([1, 2, 3] : List UInt8)
  der : ∃ sig, Signature.ofDer call.signature.dropLast = .ok sig ∧ sig.s.toNat ≤ Curve.order / 2
  key : IsKeyForm call.publicKey
  inputIndex : call.inputIndex = inputIndex

theorem isKeyForm_of_looksLikeKey {key : Bytes} (h : looksLikeKey key) : IsKeyForm key := by
  cases key with
  | nil => cases h
  | cons tag coordinates =>
    simpa [looksLikeKey, IsKeyForm, and_comm] using h

theorem mem_of_le_three {b : UInt8} (h : 1 ≤ b ∧ b ≤ 3) : b ∈ ([1, 2, 3] : List UInt8) := by
  have hlow : 1 ≤ b.toNat := UInt8.le_iff_toNat_le.mp h.1
  have hhigh : b.toNat ≤ 3 := UInt8.le_iff_toNat_le.mp h.2
  simp only [List.mem_cons, List.not_mem_nil, or_false, ← UInt8.toNat_inj]
  simp only [UInt8.reduceToNat]
  omega

/-- Under the fork id and low S, what has met the rules is well formed. -/
theorem Call.IsChecked.isGated {setting : Setting} {call : Call} (h : call.IsChecked setting)
    (hstrict : setting.rules.strictEncoding) (hfork : setting.rules.forkId)
    (hlow : setting.rules.lowS) : call.IsGated setting.inputIndex := by
  obtain ⟨htype, hform, hkey⟩ := checkForms_eq_ok_iff.mp h.forms
  obtain ⟨hbase, hbit⟩ := (checkType_eq_ok_iff hstrict hfork).mp htype
  obtain ⟨sig, hsig, hlow⟩ := exists_of_checkForm_eq_ok hlow hform
  refine ⟨h.last, hbit, mem_of_le_three hbase, ⟨sig, hsig, Signature.hasLowS_iff.mp hlow⟩, ?_,
    h.inputIndex⟩
  refine isKeyForm_of_looksLikeKey ?_
  by_contra hlooks
  simp [checkKey, hstrict, hlooks] at hkey

/-! ### What is asked -/

/-- The questions asked by the end of a script. -/
def Ending.calls : Ending → List Call
  | completed s => s.calls
  | failed _ calls => calls

/-- The questions asked by the end of a move. -/
def Move.calls : Move → List Call
  | next s => s.calls
  | stop e => e.calls

/-- What is asked after the questions before has a property. -/
def AsksOnly (p : Call → Prop) (asked calls : List Call) : Prop :=
  ∃ new, calls = asked ++ new ∧ ∀ call ∈ new, p call

section Asking

variable {p q : Call → Prop} {asked calls more : List Call} {m : Move} {f : State → Move} {s : State}

theorem AsksOnly.of_eq (h : calls = asked) : AsksOnly p asked calls := ⟨[], by simp [h], nofun⟩

theorem AsksOnly.singleton {call : Call} (h : p call) : AsksOnly p asked (asked ++ [call]) :=
  ⟨[call], rfl, by simpa using h⟩

theorem AsksOnly.mono (h : AsksOnly p asked calls) (hpq : ∀ call, p call → q call) :
    AsksOnly q asked calls := by
  obtain ⟨new, hcalls, hnew⟩ := h
  exact ⟨new, hcalls, fun call hcall => hpq call (hnew call hcall)⟩

theorem AsksOnly.trans (h : AsksOnly p asked calls) (h' : AsksOnly p calls more) :
    AsksOnly p asked more := by
  obtain ⟨new, rfl, hnew⟩ := h
  obtain ⟨new', rfl, hnew'⟩ := h'
  refine ⟨new ++ new', by simp, fun call hcall => ?_⟩
  rcases List.mem_append.mp hcall with h | h
  · exact hnew call h
  · exact hnew' call h

theorem AsksOnly.andThen (hm : AsksOnly p asked m.calls)
    (hf : ∀ t, AsksOnly p t.calls (f t).calls) : AsksOnly p asked (m.andThen f).calls := by
  cases m with
  | next t => exact hm.trans (hf t)
  | stop e => exact hm

/-- A result that keeps the questions asks nothing, and nor does a fault. -/
theorem AsksOnly.ofExcept {r : Except Fault State} (h : Ensures (·.calls = s.calls) r) :
    AsksOnly p s.calls (Move.ofExcept s r).calls := by
  cases r with
  | error fault => exact .of_eq rfl
  | ok t => exact .of_eq (h t rfl)

theorem AsksOnly.ofExcept_main (r : Except Fault Stack) :
    AsksOnly p s.calls (Move.ofExcept s (r.map fun main => { s with main })).calls :=
  .ofExcept ((Ensures.any r).map fun _ _ => rfl)

end Asking

variable {setting : Setting} {script : List Chunk} {s : State}

theorem settleCheck_calls (rules : Rules) (signature : Bytes) (valid : Bool) (s : State) :
    (settleCheck rules signature valid s).calls = s.calls := by
  unfold settleCheck
  split_ifs <;> rfl

/-- A check asks one question at most, which has met the rules. -/
theorem runCheckSig_asks :
    AsksOnly (Call.IsAsked setting script s) s.calls (runCheckSig setting script s).calls := by
  unfold runCheckSig
  split
  · exact .of_eq rfl
  · next key signature main _ =>
    split
    · exact .of_eq (settleCheck_calls setting.rules signature false _)
    · next flag hlast =>
      split
      · exact .of_eq rfl
      · next hforms =>
        split
        · exact .of_eq rfl
        · rw [settleCheck_calls]
          exact .singleton ⟨⟨hlast, hforms, rfl⟩, rfl⟩

theorem Conditional.run_calls (rules : Rules) (op : Conditional) (s : State) :
    Ensures (·.calls = s.calls) (op.run rules s) := by
  refine (op.run_changes rules s).mono ?_
  rintro _ ⟨main, branches, elses, rfl⟩
  rfl

theorem Instruction.run_asks (op : Opcode) (instr : Instruction) (s : State) :
    AsksOnly (Call.IsAsked setting script s) s.calls (instr.run setting script op s).calls := by
  cases instr with
  | nop | codeSeparator => exact .of_eq rfl
  | upgradableNop n =>
    simp only [run]
    split_ifs <;> exact .of_eq rfl
  | conditional c => exact .ofExcept (c.run_calls _ s)
  | ret =>
    simp only [run, runReturn]
    split_ifs <;> exact .of_eq rfl
  | toAlt => exact .ofExcept ((Ensures.any _).bind fun _ _ => .ok rfl)
  | fromAlt =>
    refine .ofExcept ((moveFromAlt_changes s).mono ?_)
    rintro _ ⟨main, alt, rfl⟩
    rfl
  | checkSig => exact runCheckSig_asks
  | checkSigVerify => exact runCheckSig_asks.andThen fun _ => .ofExcept_main _
  | disabled | reservedConditional | reserved | unsupported | invalid => exact .of_eq rfl
  | _ =>
    simp only [run]
    exact .ofExcept_main _

theorem perform_asks (c : Chunk) (s : State) :
    AsksOnly (Call.IsAsked setting script s) s.calls (perform setting script c s).calls := by
  simp only [perform]
  split_ifs
  · exact .of_eq rfl
  · cases c.data with
    | some data => exact .of_eq rfl
    | none => exact Instruction.run_asks c.op _ s

/-- A step asks nothing but what has met the rules, whether it fails or not. -/
theorem step_asks (c : Chunk) (s : State) :
    AsksOnly (Call.IsAsked setting script s) s.calls (step setting script c s).calls := by
  have hsettle (t : State) : (settle setting t).calls = t.calls := by
    unfold settle
    split_ifs <;> rfl
  rw [step_eq]
  cases barred? setting c s.isExecuting (s.count c).operations with
  | some fault => exact .of_eq rfl
  | none =>
    have hperform : AsksOnly (Call.IsAsked setting script s) s.calls
        (perform setting script c (s.count c)).calls :=
      (perform_asks c (s.count c)).mono fun _ h => ⟨h.toIsChecked, h.scriptCode⟩
    exact hperform.andThen fun t => .of_eq (hsettle t)

theorem runScript_asks (role : Role) (script : List Chunk) (s : State) :
    AsksOnly (Call.IsChecked setting) s.calls (runScript setting role script s).2.calls := by
  -- Over the chunks ahead, from any state.
  suffices h : ∀ ahead s,
      AsksOnly (Call.IsChecked setting) s.calls (runChunks setting role script ahead s).2.calls from
    h script s
  intro ahead
  induction ahead with
  | nil =>
    intro s
    unfold runChunks atEnd
    split_ifs <;> exact .of_eq rfl
  | cons c ahead ih =>
    intro s
    have hstep : AsksOnly (Call.IsChecked setting) s.calls (step setting script c s).calls :=
      (step_asks c s).mono fun _ => Call.IsAsked.toIsChecked
    rw [runChunks]
    cases hmove : step setting script c s with
    | next t =>
      rw [hmove] at hstep
      exact hstep.trans (ih t)
    | stop e =>
      rw [hmove] at hstep
      exact hstep

theorem runLocking_calls (setting : Setting) (locking : Script) (s : State) :
    (runLocking setting locking s).calls =
      (runScript setting .locking locking.chunks s).2.calls := by
  unfold runLocking
  obtain ⟨steps, t | ⟨fault, calls⟩⟩ := runScript setting .locking locking.chunks s <;> rfl

/-- Every question of an evaluation has met the rules of its setting. -/
theorem run_asks (setting : Setting) (unlocking locking : Script) :
    ∀ call ∈ (run setting unlocking locking).calls, call.IsChecked setting := by
  suffices h : AsksOnly (Call.IsChecked setting) [] (run setting unlocking locking).calls by
    obtain ⟨new, hnew, hchecked⟩ := h
    rw [hnew]
    exact hchecked
  have hunlocking : AsksOnly (Call.IsChecked setting) []
      (runScript setting .unlocking unlocking.chunks .initial).2.calls :=
    runScript_asks .unlocking unlocking.chunks .initial
  obtain ⟨fault, -, hrun⟩ | ⟨-, ⟨fault, calls, hfailed, hrun⟩ | ⟨s, hcompleted, hrun⟩⟩ :=
    run_cases setting unlocking locking
  · rw [hrun]
    exact .of_eq rfl
  · rw [hfailed] at hunlocking
    rw [hrun]
    exact hunlocking
  · -- The locking script starts with the questions of the unlocking script.
    rw [hcompleted] at hunlocking
    rw [hrun]
    refine AsksOnly.trans hunlocking ?_
    rw [runLocking_calls]
    exact runScript_asks .locking locking.chunks s.handOver

/-! ### A checker that is unable to tell -/

/-- The checker that finds a signature not valid where this one is unable to tell. -/
def Checker.decisive (checker : Checker) : Checker where
  answer asked call :=
    match checker.answer asked call with
    | .ok valid => .ok valid
    | .error _ => .ok false

/-- The setting with a checker that is always able to tell. -/
def Setting.decisive (setting : Setting) : Setting :=
  { setting with checker := setting.checker.map Checker.decisive }

theorem askChecker_decisive (checker : Checker) (call : Call) (s : State) :
    askChecker checker.decisive call s = askChecker checker call s := by
  simp only [askChecker, Checker.decisive]
  cases checker.answer s.calls call <;> rfl

theorem runCheckSig_decisive (setting : Setting) (script : List Chunk) (s : State) :
    runCheckSig setting.decisive script s = runCheckSig setting script s := by
  obtain ⟨rules, limits, checker, inputIndex⟩ := setting
  cases checker with
  | none => rfl
  | some checker => simp only [runCheckSig, Setting.decisive, Option.map_some, askChecker_decisive]

theorem Instruction.run_decisive (setting : Setting) (script : List Chunk) (op : Opcode)
    (instr : Instruction) (s : State) :
    instr.run setting.decisive script op s = instr.run setting script op s := by
  cases instr with
  | checkSig => exact runCheckSig_decisive setting script s
  | checkSigVerify => rw [run, run, runCheckSig_decisive]
  | _ => rfl

/-- An evaluation is the same if the checker says no where it is unable to tell. -/
theorem run_decisive (setting : Setting) (unlocking locking : Script) :
    run setting.decisive unlocking locking = run setting unlocking locking := by
  have hlockstep : Lockstep (fun _ => False) setting.decisive setting :=
    { refusal := fun _ _ => .refl _
      enter := fun _ _ => .refl _
      instruction := fun script op instr s => .inl (instr.run_decisive setting script op s)
      settle := fun _ => .refl _
      judge := fun _ => .refl _ }
  obtain heq | ⟨fault, hnone, -⟩ := hlockstep.run_eq_or unlocking locking
  · exact heq
  · exact hnone.elim

/-! ### Evaluations -/

/-- Under the fork id and low S, every question of an evaluation is well formed.  Under any flags, an
evaluation has the same result, steps and questions if the checker says no where it is unable to tell.
-/
theorem execute_gated (limits : Limits) (flags : Flags) (checker : Option Checker)
    (inputIndex : Nat) (unlocking locking : Script) :
    (flags.has .forkId → flags.has .lowS →
      ∀ call ∈ (execute limits flags checker inputIndex unlocking locking).calls,
        call.IsGated inputIndex) ∧
      execute limits flags (checker.map .decisive) inputIndex unlocking locking =
        execute limits flags checker inputIndex unlocking locking := by
  constructor
  · intro hfork hlow call hcall
    have hchecked : call.IsChecked (.ofFlags limits flags checker inputIndex) :=
      run_asks _ unlocking locking call hcall
    -- The fork id brings strict encoding with it.
    have hstrict : (Rules.ofFlags flags).strictEncoding := Bool.or_eq_true_iff.mpr (.inr hfork)
    exact hchecked.isGated hstrict hfork hlow
  · exact run_decisive (.ofFlags limits flags checker inputIndex) unlocking locking

/-- A check of a signature without the flag of strict encoding, by a checker that is unable to tell.
-/
theorem execute_gated_checkSig :
    let flags := Flags.forkId.union .lowS
    let checker : Checker := ⟨fun _ _ => .error "no transaction"⟩
    let unlocking : Script := ⟨[0x09, 0x30, 0x06, 0x02, 0x01, 0x01, 0x02, 0x01, 0x01, 0x41]⟩
    let locking : Script := ⟨[0x21, 0x02] ++ List.replicate 32 0x11 ++ [0xac]⟩
    flags.has .forkId ∧ flags.has .lowS ∧ flags.has .strictEncoding = false ∧
      ∃ call ∈ (execute .beforeGenesis flags (some checker) 3 unlocking locking).calls,
        call.flag = 0x41 ∧ call.IsGated 3 := by
  intro flags checker unlocking locking
  have hfork : flags.has .forkId := by decide
  have hlow : flags.has .lowS := by decide
  have hcalls : ((execute .beforeGenesis flags (some checker) 3 unlocking locking).calls.map
      (·.flag)) = [0x41] := by decide +kernel
  obtain ⟨call, hcall, hflag⟩ := List.mem_map.mp (hcalls ▸ List.mem_singleton_self (0x41 : UInt8))
  have hgated := (execute_gated .beforeGenesis flags (some checker) 3 unlocking locking).1
  exact ⟨hfork, hlow, by decide, call, hcall, hflag, hgated hfork hlow call hcall⟩

end Utxo.Machine
