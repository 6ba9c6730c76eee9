/-
Stacks stay aligned.

Every operand that is taken and every result that is pushed moves a value together with its name, so
whatever a step does to a state with aligned stacks, the stacks are aligned afterwards.

* **`Conditional.run_changes`**, **`runCheckSig_changes`** — what a conditional and a signature check
  change at all;
* **`isAligned_step`** — a step keeps both stacks aligned;
* **`isAligned_of_runScript`** — so they are aligned whenever a script is completed.
-/
import Utxo.Proofs.Machine.Step

namespace Utxo

/-! ### Results that have a property -/

/-- If there is a result, it has the property. -/
def Ensures {ε α : Type} (p : α → Prop) (r : Except ε α) : Prop := ∀ a, r = .ok a → p a

namespace Ensures

variable {ε α β : Type} {p : α → Prop} {q : β → Prop}

theorem ok {a : α} (h : p a) : Ensures p (.ok a : Except ε α) := by
  rintro _ ⟨⟩
  exact h

theorem error (e : ε) : Ensures p (.error e : Except ε α) := nofun

theorem bind {r : Except ε α} {f : α → Except ε β} (hr : Ensures p r)
    (hf : ∀ a, p a → Ensures q (f a)) : Ensures q (r >>= f) := by
  cases r with
  | error e => exact error e
  | ok a => exact hf a (hr a rfl)

theorem mono {q : α → Prop} {r : Except ε α} (hr : Ensures p r) (hpq : ∀ a, p a → q a) :
    Ensures q r := fun a ha => hpq a (hr a ha)

theorem map {r : Except ε α} {f : α → β} (hr : Ensures p r) (hf : ∀ a, p a → q (f a)) :
    Ensures q (r.map f) := by
  cases r with
  | error e => exact error e
  | ok a => exact ok (hf a (hr a rfl))

theorem any (r : Except ε α) : Ensures (fun _ => True) r := fun _ _ => trivial

theorem ite {c : Prop} [Decidable c] {r r' : Except ε α} (h : c → Ensures p r)
    (h' : ¬c → Ensures p r') : Ensures p (if c then r else r') := by
  split_ifs with hc
  · exact h hc
  · exact h' hc

end Ensures

/-! ### Operations on stacks -/

namespace Stack

variable {s : Stack}

/-- Two values on top are two slots. -/
theorem IsAligned.eq_of_values {v w : Bytes} {vs : List Bytes} (h : s.IsAligned)
    (hvalues : s.values = v :: w :: vs) : ∃ n m ns, s = ⟨v :: w :: vs, n :: m :: ns⟩ := by
  obtain ⟨values, names⟩ := s
  cases hvalues
  match names, h with
  | n :: m :: ns, _ => exact ⟨n, m, ns, rfl⟩

theorem IsAligned.pushSlot (h : s.IsAligned) (slot : Slot) : (s.pushSlot slot).IsAligned :=
  congrArg (· + 1) h

theorem IsAligned.push (h : s.IsAligned) (value : Bytes) : (s.push value).IsAligned :=
  h.pushSlot _

theorem IsAligned.pushSlots (h : s.IsAligned) (slots : List Slot) :
    (s.pushSlots slots).IsAligned := by
  unfold Stack.pushSlots
  induction slots generalizing s with
  | nil => exact h
  | cons slot slots ih => exact ih (h.pushSlot slot)

theorem IsAligned.insertBelow (h : s.IsAligned) (n : Nat) (slot : Slot) :
    (s.insertBelow n slot).IsAligned := by
  unfold IsAligned at h ⊢
  simp [Stack.insertBelow, h]

theorem IsAligned.of_pop? {slot : Slot} {t : Stack} (h : s.IsAligned)
    (hpop : s.pop? = some (slot, t)) : t.IsAligned := by
  obtain ⟨_ | ⟨v, vs⟩, _ | ⟨n, ns⟩⟩ := s <;> cases hpop
  exact Nat.succ.inj h

theorem IsAligned.of_remove? {n : Nat} {slot : Slot} {t : Stack} (h : s.IsAligned)
    (hremove : s.remove? n = some (slot, t)) : t.IsAligned := by
  unfold remove? at hremove
  obtain ⟨_, _, ⟨⟩⟩ := Option.map_eq_some_iff.mp hremove
  unfold IsAligned at h ⊢
  simp [List.length_eraseIdx, h]

end Stack

namespace Machine

/-! ### Operands -/

variable {s : Stack}

theorem popSlot_isAligned (h : s.IsAligned) : Ensures (·.2.IsAligned) (popSlot s) := by
  unfold popSlot
  split
  · next hpop => exact .ok (h.of_pop? hpop)
  · exact .error _

theorem popValue_isAligned (h : s.IsAligned) : Ensures (·.2.IsAligned) (popValue s) :=
  (popSlot_isAligned h).bind fun _ h => .ok h

theorem popNumber_isAligned (limit : Nat) (h : s.IsAligned) :
    Ensures (·.2.IsAligned) (popNumber limit s) :=
  (popValue_isAligned h).bind fun _ h => (Ensures.any _).bind fun _ _ => .ok h

theorem popTruth_isAligned (h : s.IsAligned) : Ensures (·.2.IsAligned) (popTruth s) :=
  (popValue_isAligned h).bind fun _ h => .ok h

theorem takeOut_isAligned (n : Nat) (h : s.IsAligned) : Ensures (·.2.IsAligned) (takeOut n s) := by
  unfold takeOut
  split
  · next hremove => exact .ok (h.of_remove? hremove)
  · exact .error _

theorem popIndex_isAligned (limit : Nat) (h : s.IsAligned) :
    Ensures (·.2.IsAligned) (popIndex limit s) :=
  (popNumber_isAligned limit h).bind fun _ h => .ite (fun _ => .ok h) fun _ => .error _

theorem popCount_isAligned (limit : Nat) (outOfRange : Int → Fault) (h : s.IsAligned) :
    Ensures (·.2.IsAligned) (popCount limit outOfRange s) :=
  (popNumber_isAligned limit h).bind fun _ h => .ite (fun _ => .ok h) fun _ => .error _

theorem popCondition_isAligned (rules : Rules) (h : s.IsAligned) :
    Ensures (·.2.IsAligned) (popCondition rules s) :=
  (popValue_isAligned h).bind fun _ h =>
    .ite (fun _ => .error _) fun _ => .ite (fun _ => .error _) fun _ => .ok h

theorem verifyTop_isAligned (v : Verification) (h : s.IsAligned) :
    Ensures Stack.IsAligned (verifyTop v s) :=
  (popTruth_isAligned h).bind fun _ h => .ite (fun _ => .ok h) fun _ => .error _

/-! ### Opcodes on the main stack alone -/

theorem dropTop_isAligned (n : Nat) (h : s.IsAligned) : Ensures Stack.IsAligned (dropTop n s) := by
  refine (Ensures.any _).bind fun _ _ => .ok ?_
  unfold Stack.IsAligned at h ⊢
  simp [h]

theorem copyTop_isAligned (n : Nat) (h : s.IsAligned) : Ensures Stack.IsAligned (copyTop n s) := by
  refine (Ensures.any _).bind fun _ _ => .ok ?_
  unfold Stack.IsAligned at h ⊢
  simp [h]

theorem copyUp_isAligned (n : Nat) (h : s.IsAligned) : Ensures Stack.IsAligned (copyUp n s) :=
  (Ensures.any _).bind fun _ _ => .ok (h.pushSlot _)

theorem moveUp_isAligned (n : Nat) (h : s.IsAligned) : Ensures Stack.IsAligned (moveUp n s) :=
  (takeOut_isAligned n h).bind fun _ h => .ok (h.pushSlot _)

theorem copyPairUp_isAligned (n : Nat) (h : s.IsAligned) :
    Ensures Stack.IsAligned (copyPairUp n s) :=
  (Ensures.any _).bind fun _ _ => (Ensures.any _).bind fun _ _ => .ok (h.pushSlots _)

theorem movePairUp_isAligned (n : Nat) (h : s.IsAligned) :
    Ensures Stack.IsAligned (movePairUp n s) :=
  (Ensures.any _).bind fun _ _ => (takeOut_isAligned (n + 1) h).bind fun _ h =>
    (takeOut_isAligned n h).bind fun _ h => .ok (h.pushSlots _)

theorem Shuffle.run_isAligned (limit : Nat) (op : Shuffle) (h : s.IsAligned) :
    Ensures Stack.IsAligned (op.run limit s) := by
  cases op with
  | drop | drop2 => exact dropTop_isAligned _ h
  | dup | dup2 | dup3 => exact copyTop_isAligned _ h
  | copyOver => exact copyUp_isAligned 1 h
  | copyOver2 => exact copyPairUp_isAligned 2 h
  | rot | swap => exact moveUp_isAligned _ h
  | rot2 | swap2 => exact movePairUp_isAligned _ h
  | nip => exact (takeOut_isAligned 1 h).bind fun _ h => .ok h
  | tuck =>
    exact (Ensures.any _).bind fun _ _ => (Ensures.any _).bind fun _ _ => .ok (h.insertBelow 2 _)
  | pick => exact (popIndex_isAligned limit h).bind fun r h => copyUp_isAligned r.1 h
  | roll => exact (popIndex_isAligned limit h).bind fun r h => moveUp_isAligned r.1 h
  | ifDup =>
    refine (Ensures.any _).bind fun slot _ => .ok ?_
    split
    · exact h.pushSlot slot
    · exact h
  | depth => exact .ok (h.push _)

theorem Splice.run_isAligned (limits : Limits) (op : Splice) (h : s.IsAligned) :
    Ensures Stack.IsAligned (op.run limits s) := by
  cases op with
  | cat =>
    exact (popValue_isAligned h).bind fun _ h => (popValue_isAligned h).bind fun _ h =>
      .ite (fun _ => .error _) fun _ => .ok (h.push _)
  | split =>
    exact (popNumber_isAligned _ h).bind fun _ h => (popValue_isAligned h).bind fun _ h =>
      .ite (fun _ => .ok ((h.push _).push _)) fun _ => .error _
  | pad =>
    exact (popCount_isAligned _ _ h).bind fun _ h => .ite (fun _ => .error _) fun _ =>
      (popValue_isAligned h).bind fun _ h => .ite (fun _ => .error _) fun _ =>
        .ite (fun _ => .error _) fun _ => .ok (h.push _)
  | shorten =>
    exact (popValue_isAligned h).bind fun _ h => .ite (fun _ => .error _) fun _ => .ok (h.push _)
  | size => exact (Ensures.any _).bind fun _ _ => .ok (h.push _)
  | invert | digest => exact (popValue_isAligned h).bind fun _ h => .ok (h.push _)
  | bitwise f =>
    exact (popValue_isAligned h).bind fun _ h => (popValue_isAligned h).bind fun _ h =>
      .ite (fun _ => .ok (h.push _)) fun _ => .error _
  | equal =>
    exact (popValue_isAligned h).bind fun _ h => (popValue_isAligned h).bind fun _ h =>
      .ok (h.push _)
  | shiftLeft | shiftRight =>
    exact (popCount_isAligned _ _ h).bind fun _ h => (popValue_isAligned h).bind fun _ h =>
      .ok (h.push _)

theorem Unary.run_isAligned (limit : Nat) (op : Unary) (h : s.IsAligned) :
    Ensures Stack.IsAligned (op.run limit s) :=
  (popNumber_isAligned limit h).bind fun _ h => .ok (h.push _)

theorem Binary.run_isAligned (limit : Nat) (op : Binary) (h : s.IsAligned) :
    Ensures Stack.IsAligned (op.run limit s) :=
  (popNumber_isAligned limit h).bind fun _ h => (popNumber_isAligned limit h).bind fun _ h =>
    (Ensures.any _).bind fun _ _ => .ok (h.push _)

theorem runWithin_isAligned (limit : Nat) (h : s.IsAligned) :
    Ensures Stack.IsAligned (runWithin limit s) :=
  (popNumber_isAligned limit h).bind fun _ h => (popNumber_isAligned limit h).bind fun _ h =>
    (popNumber_isAligned limit h).bind fun _ h => .ok (h.push _)

theorem Instruction.runOnMain_isAligned (setting : Setting) (instr : Instruction)
    (h : s.IsAligned) : Ensures Stack.IsAligned (instr.runOnMain setting s) := by
  cases instr with
  | constant n => exact .ok (h.push _)
  | verify => exact verifyTop_isAligned _ h
  | shuffle op => exact op.run_isAligned _ h
  | splice op => exact op.run_isAligned _ h
  | equalVerify =>
    exact (Splice.run_isAligned _ .equal h).bind fun _ h => verifyTop_isAligned _ h
  | unary op => exact op.run_isAligned _ h
  | binary op => exact op.run_isAligned _ h
  | numEqualVerify =>
    exact (Binary.run_isAligned _ .equal h).bind fun _ h => verifyTop_isAligned _ h
  | within => exact runWithin_isAligned _ h
  | _ => exact .ok h

/-! ### States -/

/-- Both stacks are aligned. -/
def State.IsAligned (s : State) : Prop := s.main.IsAligned ∧ s.alt.IsAligned

theorem State.isAligned_initial : initial.IsAligned := ⟨rfl, rfl⟩

/-- If the move leads to a state, by going on or at the end of the script, it has the property. -/
def Move.Leads (p : State → Prop) : Move → Prop
  | next s => p s
  | stop (.completed s) => p s
  | stop (.failed _ _) => True

namespace Move

variable {p q : State → Prop}

theorem Leads.intro {m : Move} (hnext : ∀ s, m = .next s → p s)
    (hcompleted : ∀ s, m = .stop (.completed s) → p s) : m.Leads p := by
  match m with
  | next s => exact hnext s rfl
  | stop (.completed s) => exact hcompleted s rfl
  | stop (.failed _ _) => trivial

theorem Leads.ofExcept {r : Except Fault State} (s : State) (h : Ensures p r) :
    (ofExcept s r).Leads p := by
  cases r with
  | error fault => trivial
  | ok s' => exact h s' rfl

theorem Leads.mono {m : Move} (h : m.Leads p) (hpq : ∀ s, p s → q s) : m.Leads q := by
  match m, h with
  | next s, h => exact hpq s h
  | stop (.completed s), h => exact hpq s h
  | stop (.failed _ _), _ => trivial

theorem Leads.andThen {m : Move} {f : State → Move} (h : m.Leads p)
    (hnext : ∀ s, p s → (f s).Leads q) (hpq : ∀ s, p s → q s) : (m.andThen f).Leads q := by
  match m, h with
  | next s, h => exact hnext s h
  | stop (.completed s), h => exact hpq s h
  | stop (.failed _ _), _ => trivial

end Move

variable {setting : Setting} {script : List Chunk} {c : Chunk} {s : State}

/-- A chunk is passed over, pushes its bytes or has its opcode run. -/
theorem perform_leads {p : State → Prop} (hpassed : p s)
    (hpush : ∀ data, c.data = some data → p { s with main := s.main.push data })
    (hrun : ((Instruction.ofOpcode c.op).run setting script c.op s).Leads p) :
    (perform setting script c s).Leads p := by
  simp only [perform]
  split_ifs
  · exact hpassed
  · cases hdata : c.data with
    | some data => exact hpush data hdata
    | none => exact hrun

/-! ### What changes -/

/-- A conditional changes the main stack and the records of open conditionals, and nothing else. -/
theorem Conditional.run_changes (rules : Rules) (op : Conditional) (s : State) :
    Ensures (fun t => ∃ main branches elses, t = { s with main, branches, elses })
      (op.run rules s) := by
  cases op with
  | opening negated =>
    refine .ite (fun _ => ?_) fun _ => .ok ⟨_, _, _, rfl⟩
    exact (Ensures.any _).bind fun _ _ => .ok ⟨_, _, _, rfl⟩
  | turn =>
    simp only [run]
    split
    · exact .ite (fun _ => .error _) fun _ => .ok ⟨_, _, _, rfl⟩
    · exact .error _
  | closing =>
    simp only [run]
    split
    · exact .ok ⟨_, _, _, rfl⟩
    · exact .error _

/-- A move from the alt stack changes the stacks, and nothing else. -/
theorem moveFromAlt_changes (s : State) :
    Ensures (fun t => ∃ main alt, t = { s with main, alt }) (Instruction.moveFromAlt s) := by
  unfold Instruction.moveFromAlt
  split
  · exact .ok ⟨_, _, rfl⟩
  · exact .error _

/-- A signature check changes the main stack and the questions asked, and nothing else. -/
theorem runCheckSig_changes (setting : Setting) (script : List Chunk) (s : State) :
    (runCheckSig setting script s).Leads fun t => ∃ main calls, t = { s with main, calls } := by
  obtain ⟨fault, calls, hrun⟩ | ⟨_, signature, main, _, _, valid, calls, -, hrun⟩ :=
    runCheckSig_cases setting script s
  · rw [hrun]
    trivial
  · rw [hrun]
    unfold settleCheck
    split_ifs
    · trivial
    · exact ⟨_, _, rfl⟩

/-! ### Steps -/

theorem Conditional.run_isAligned (rules : Rules) (op : Conditional) (h : s.IsAligned) :
    Ensures State.IsAligned (op.run rules s) := by
  cases op with
  | opening negated =>
    refine .ite (fun _ => ?_) fun _ => .ok h
    exact (popCondition_isAligned rules h.1).bind fun _ hmain => .ok ⟨hmain, h.2⟩
  | turn =>
    simp only [run]
    split
    · exact .ite (fun _ => .error _) fun _ => .ok h
    · exact .error _
  | closing =>
    simp only [run]
    split
    · exact .ok h
    · exact .error _

theorem moveFromAlt_isAligned (h : s.IsAligned) :
    Ensures State.IsAligned (Instruction.moveFromAlt s) := by
  unfold Instruction.moveFromAlt
  split
  · next hpop => exact .ok ⟨h.1.pushSlot _, h.2.of_pop? hpop⟩
  · exact .error _

theorem settleCheck_isAligned (rules : Rules) (signature : Bytes) (valid : Bool) (h : s.IsAligned) :
    (settleCheck rules signature valid s).Leads State.IsAligned := by
  unfold settleCheck
  split
  · trivial
  · exact ⟨h.1.push _, h.2⟩

theorem runCheckSig_isAligned (h : s.IsAligned) :
    (runCheckSig setting script s).Leads State.IsAligned := by
  obtain ⟨fault, calls, hrun⟩ | ⟨key, signature, main, n, m, valid, calls, hmain, hrun⟩ :=
    runCheckSig_cases setting script s
  · rw [hrun]
    trivial
  · have haligned : main.IsAligned := by
      have hs := h.1
      rw [hmain] at hs
      simpa [Stack.IsAligned] using hs
    rw [hrun]
    exact settleCheck_isAligned _ _ _ ⟨haligned, h.2⟩

theorem Instruction.run_isAligned (op : Opcode) (instr : Instruction) (h : s.IsAligned) :
    (instr.run setting script op s).Leads State.IsAligned := by
  -- What acts on the main stack alone leaves the other one as it is.
  have honMain (r : Except Fault Stack) (hr : Ensures Stack.IsAligned r) :
      Ensures State.IsAligned (r.map fun main => { s with main }) :=
    hr.map fun _ hmain => ⟨hmain, h.2⟩
  cases instr with
  | nop => exact h
  | upgradableNop n =>
    simp only [run]
    split
    · trivial
    · exact h
  | conditional c => exact .ofExcept s (c.run_isAligned _ h)
  | ret =>
    simp only [run, runReturn]
    split
    · trivial
    · split <;> exact h
  | toAlt =>
    exact .ofExcept s ((popSlot_isAligned h.1).bind fun _ hmain => .ok ⟨hmain, h.2.pushSlot _⟩)
  | fromAlt => exact .ofExcept s (moveFromAlt_isAligned h)
  | codeSeparator => exact h
  | checkSig => exact runCheckSig_isAligned h
  | checkSigVerify =>
    refine (runCheckSig_isAligned h).andThen (fun t ht => ?_) fun _ h => h
    exact .ofExcept t ((verifyTop_isAligned _ ht.1).map fun _ hmain => ⟨hmain, ht.2⟩)
  | disabled | reservedConditional | reserved | unsupported | invalid => trivial
  | _ =>
    simp only [run]
    exact .ofExcept s (honMain _ (runOnMain_isAligned setting _ h.1))

theorem perform_isAligned (h : s.IsAligned) :
    (perform setting script c s).Leads State.IsAligned :=
  perform_leads h (fun data _ => ⟨h.1.push data, h.2⟩) (Instruction.run_isAligned c.op _ h)

theorem settle_isAligned (h : s.IsAligned) : (settle setting s).Leads State.IsAligned := by
  unfold settle
  split
  · trivial
  · exact h

/-- A step keeps both stacks aligned. -/
theorem isAligned_step (h : s.IsAligned) : (step setting script c s).Leads State.IsAligned := by
  unfold step
  have henter : Ensures State.IsAligned (enter setting c s) := by
    intro t ht
    obtain ⟨-, rfl⟩ := enter_eq_ok_iff.mp ht
    exact h
  refine (Move.Leads.ofExcept s henter).andThen (fun t ht => ?_) fun _ h => h
  exact (perform_isAligned ht).andThen (fun _ h => settle_isAligned h) fun _ h => h

/-! ### Scripts -/

/-- What holds before a script and is kept by every step holds after it. -/
theorem of_runScript {p : State → Prop} {role : Role} {t : State}
    (hstep : ∀ c s, p s → (step setting script c s).Leads p) (hs : p s)
    (ht : (runScript setting role script s).2 = .completed t) : p t := by
  -- Over the chunks ahead, from any state that has the property.
  suffices h : ∀ ahead s, p s → (runChunks setting role script ahead s).2 = .completed t → p t from
    h script s hs ht
  intro ahead
  induction ahead with
  | nil =>
    intro s hs ht
    obtain ⟨-, rfl⟩ := atEnd_eq_completed_iff.mp ht
    exact hs
  | cons c ahead ih =>
    intro s hs ht
    have h := hstep c s hs
    rcases runChunks_cons_eq_completed_iff.mp ht with hstop | ⟨u, hnext, hu⟩
    · rw [hstop] at h
      exact h
    · rw [hnext] at h
      exact ih u h hu

/-- Both stacks are aligned whenever a script is completed. -/
theorem isAligned_of_runScript {role : Role} {t : State} (hs : s.IsAligned)
    (ht : (runScript setting role script s).2 = .completed t) : t.IsAligned :=
  of_runScript (fun _ _ h => isAligned_step h) hs ht

end Machine

end Utxo
