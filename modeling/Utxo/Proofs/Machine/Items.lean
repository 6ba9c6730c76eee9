/-
No instruction makes an item that is too long.

Pushes, concatenations and paddings are measured, but no other item is.  That they are short enough
follows from what they are made of: a digest has at most 32 bytes, a sum of numbers one byte more than
its terms, and a product as many as its factors together (`Limits.IsRoomy`).

* **`Splice.run_fits`**, **`Binary.run_fits`** — what opcodes on byte strings and numbers make of the
  main stack has short items if the stack does;
* **`Instruction.run_holds`** — so no instruction makes an item that is too long.
-/
import Utxo.Proofs.Machine.Alignment
import Utxo.Proofs.Script.Number

namespace Utxo

/-- Limits under which the items that are not measured are short enough. -/
structure Limits.IsRoomy (limits : Limits) : Prop where
  /-- Depths and sizes are counted in 64 bit words. -/
  stackDepth : limits.stackDepth < UInt64.size
  elementSize : limits.elementSize < UInt64.size
  digest : 32 ≤ limits.elementSize
  product : 2 * limits.numberLength ≤ limits.elementSize

theorem Limits.isRoomy_beforeGenesis : beforeGenesis.IsRoomy :=
  ⟨by decide, by decide, by decide, by decide⟩

theorem Limits.isRoomy_afterGenesis : afterGenesis.IsRoomy :=
  ⟨by decide, by decide, by decide, by decide⟩

/-! ### Stacks -/

namespace Stack

/-- Every value has at most this many bytes. -/
def Fits (size : Nat) (s : Stack) : Prop := ∀ v ∈ s.values, v.length ≤ size

variable {size n : Nat} {s t : Stack} {slot : Slot}

theorem Fits.pushSlot (h : s.Fits size) (hslot : slot.1.length ≤ size) :
    (s.pushSlot slot).Fits size :=
  List.forall_mem_cons.mpr ⟨hslot, h⟩

theorem Fits.push {value : Bytes} (h : s.Fits size) (hvalue : value.length ≤ size) :
    (s.push value).Fits size :=
  h.pushSlot hvalue

theorem Fits.push_encode {m : Int} (h : s.Fits size) (hm : Number.Fits size m) :
    (s.push (Number.encode m)).Fits size :=
  h.push (Number.length_encode_le_iff.mpr hm)

theorem Fits.of_pop? (h : s.Fits size) (hpop : s.pop? = some (slot, t)) :
    slot.1.length ≤ size ∧ t.Fits size := by
  obtain ⟨_ | ⟨v, vs⟩, _ | ⟨n, ns⟩⟩ := s <;> cases hpop
  exact List.forall_mem_cons.mp h

theorem Fits.of_slot? (h : s.Fits size) (hslot : s.slot? n = some slot) :
    slot.1.length ≤ size := by
  unfold slot? at hslot
  split at hslot
  · next v name hv hname =>
    cases hslot
    exact h v (List.mem_of_getElem? hv)
  · cases hslot

theorem Fits.of_remove? (h : s.Fits size) (hremove : s.remove? n = some (slot, t)) :
    slot.1.length ≤ size ∧ t.Fits size := by
  obtain ⟨slot', hslot, heq⟩ := Option.map_eq_some_iff.mp hremove
  cases heq
  exact ⟨h.of_slot? hslot, fun v hv => h v (List.mem_of_mem_eraseIdx hv)⟩

theorem Fits.insertBelow (h : s.Fits size) (hslot : slot.1.length ≤ size) :
    (s.insertBelow n slot).Fits size := by
  intro v hv
  rcases List.mem_append.mp hv with hv | hv
  · exact h v (List.mem_of_mem_take hv)
  · rcases List.mem_cons.mp hv with rfl | hv
    · exact hslot
    · exact h v (List.mem_of_mem_drop hv)

end Stack

namespace Machine

/-! ### Operands -/

section Operands

variable {size : Nat} {s : Stack}

theorem popSlot_fits (h : s.Fits size) :
    Ensures (fun r => r.1.1.length ≤ size ∧ r.2.Fits size) (popSlot s) := by
  unfold popSlot
  split
  · next hpop => exact .ok (h.of_pop? hpop)
  · exact .error _

theorem popValue_fits (h : s.Fits size) :
    Ensures (fun r => r.1.length ≤ size ∧ r.2.Fits size) (popValue s) :=
  (popSlot_fits h).bind fun _ h => .ok h

theorem number_fits (limit : Nat) (value : Bytes) :
    Ensures (Number.Fits limit) (number limit value) := by
  unfold number Number.decode?
  by_cases hlength : value.length ≤ limit
  · rw [if_pos hlength]
    exact .ok ((Number.fits_value value).mono hlength)
  · rw [if_neg hlength]
    exact .error _

theorem popNumber_fits (limit : Nat) (h : s.Fits size) :
    Ensures (fun r => Number.Fits limit r.1 ∧ r.2.Fits size) (popNumber limit s) :=
  (popValue_fits h).bind fun _ hrest => (number_fits limit _).bind fun _ hn => .ok ⟨hn, hrest.2⟩

theorem popIndex_fits (limit : Nat) (h : s.Fits size) :
    Ensures (·.2.Fits size) (popIndex limit s) :=
  (popNumber_fits limit h).bind fun _ h => .ite (fun _ => .ok h.2) fun _ => .error _

theorem popCount_fits (limit : Nat) (outOfRange : Int → Fault) (h : s.Fits size) :
    Ensures (·.2.Fits size) (popCount limit outOfRange s) :=
  (popNumber_fits limit h).bind fun _ h => .ite (fun _ => .ok h.2) fun _ => .error _

theorem peek_fits (n : Nat) (h : s.Fits size) : Ensures (·.1.length ≤ size) (peek n s) := by
  unfold peek
  split
  · next hslot => exact .ok (h.of_slot? hslot)
  · exact .error _

theorem takeOut_fits (n : Nat) (h : s.Fits size) :
    Ensures (fun r => r.1.1.length ≤ size ∧ r.2.Fits size) (takeOut n s) := by
  unfold takeOut
  split
  · next hremove => exact .ok (h.of_remove? hremove)
  · exact .error _

theorem popCondition_fits (rules : Rules) (h : s.Fits size) :
    Ensures (·.2.Fits size) (popCondition rules s) :=
  (popValue_fits h).bind fun _ h =>
    .ite (fun _ => .error _) fun _ => .ite (fun _ => .error _) fun _ => .ok h.2

theorem verifyTop_fits (v : Verification) (h : s.Fits size) :
    Ensures (Stack.Fits size) (verifyTop v s) := by
  have htruth : Ensures (·.2.Fits size) (popTruth s) := (popValue_fits h).bind fun _ h => .ok h.2
  exact htruth.bind fun _ h => .ite (fun _ => .ok h) fun _ => .error _

/-! ### Shuffles -/

theorem dropTop_fits (n : Nat) (h : s.Fits size) : Ensures (Stack.Fits size) (dropTop n s) :=
  (Ensures.any _).bind fun _ _ => .ok fun v hv => h v (List.mem_of_mem_drop hv)

theorem copyTop_fits (n : Nat) (h : s.Fits size) : Ensures (Stack.Fits size) (copyTop n s) := by
  refine (Ensures.any _).bind fun _ _ => .ok fun v hv => ?_
  rcases List.mem_append.mp hv with hv | hv
  · exact h v (List.mem_of_mem_take hv)
  · exact h v hv

theorem copyUp_fits (n : Nat) (h : s.Fits size) : Ensures (Stack.Fits size) (copyUp n s) :=
  (peek_fits n h).bind fun _ hslot => .ok (h.pushSlot hslot)

theorem moveUp_fits (n : Nat) (h : s.Fits size) : Ensures (Stack.Fits size) (moveUp n s) :=
  (takeOut_fits n h).bind fun _ h => .ok (h.2.pushSlot h.1)

theorem copyPairUp_fits (n : Nat) (h : s.Fits size) : Ensures (Stack.Fits size) (copyPairUp n s) :=
  (peek_fits (n + 1) h).bind fun _ hlower => (peek_fits n h).bind fun _ hupper =>
    .ok ((h.pushSlot hlower).pushSlot hupper)

theorem movePairUp_fits (n : Nat) (h : s.Fits size) : Ensures (Stack.Fits size) (movePairUp n s) :=
  (Ensures.any _).bind fun _ _ => (takeOut_fits (n + 1) h).bind fun _ hlower =>
    (takeOut_fits n hlower.2).bind fun _ hupper =>
      .ok ((hupper.2.pushSlot hlower.1).pushSlot hupper.1)

theorem Shuffle.run_fits (limit : Nat) (op : Shuffle) (h : s.Fits size)
    (hdepth : s.depth < UInt64.size) (hsize : 9 ≤ size) :
    Ensures (Stack.Fits size) (op.run limit s) := by
  cases op with
  | drop | drop2 => exact dropTop_fits _ h
  | dup | dup2 | dup3 => exact copyTop_fits _ h
  | copyOver => exact copyUp_fits 1 h
  | copyOver2 => exact copyPairUp_fits 2 h
  | rot | swap => exact moveUp_fits _ h
  | rot2 | swap2 => exact movePairUp_fits _ h
  | nip => exact (takeOut_fits 1 h).bind fun _ h => .ok h.2
  | tuck =>
    exact (Ensures.any _).bind fun _ _ => (peek_fits 0 h).bind fun _ hslot =>
      .ok (h.insertBelow hslot)
  | pick => exact (popIndex_fits limit h).bind fun r h => copyUp_fits r.1 h
  | roll => exact (popIndex_fits limit h).bind fun r h => moveUp_fits r.1 h
  | ifDup =>
    refine (peek_fits 0 h).bind fun slot hslot => .ok ?_
    split
    · exact h.pushSlot hslot
    · exact h
  | depth => exact .ok (h.push_encode ((Number.fits_of_lt_size hdepth).mono hsize))

end Operands

/-! ### Byte strings -/

theorem length_digest_le (op : Digesting) (bs : Bytes) : (op.apply bs).length ≤ 32 := by
  cases op with
  | ripemd160 | sha1 | hash160 =>
    exact Nat.le_trans (Nat.le_of_eq (FixedBytes.length_bytes _)) (by decide)
  | sha256 | sha256d => exact Nat.le_of_eq (FixedBytes.length_bytes _)

theorem length_carryLeft (n : UInt8) (bs : Bytes) : (carryLeft n bs).length = bs.length := by
  induction bs using carryLeft.induct with
  | case1 => rfl
  | case2 b => rfl
  | case3 b c rest ih => simpa [carryLeft] using ih

theorem length_carryRight (n before : UInt8) (bs : Bytes) :
    (carryRight n before bs).length = bs.length := by
  induction bs generalizing before with
  | nil => rfl
  | cons b rest ih => simpa [carryRight] using ih b

@[simp] theorem length_shiftLeft (bs : Bytes) (n : Nat) : (shiftLeft bs n).length = bs.length := by
  have hkept : (bs.drop (n / 8)).length ≤ bs.length := by simp
  simp only [shiftLeft, List.length_append, List.length_replicate]
  split_ifs
  · omega
  · rw [length_carryLeft]
    omega

@[simp] theorem length_shiftRight (bs : Bytes) (n : Nat) :
    (shiftRight bs n).length = bs.length := by
  have hkept : (bs.take (bs.length - n / 8)).length ≤ bs.length := List.length_take_le' _ _
  simp only [shiftRight, List.length_append, List.length_replicate]
  split_ifs
  · omega
  · rw [length_carryRight]
    omega

/-- A number is padded to the size asked for. -/
theorem length_padNumber {bs : Bytes} {size : Nat} (h : bs.length ≤ size) :
    (padNumber bs size).length = size := by
  have hsplit : (splitSign bs).1.length = bs.length := by
    unfold splitSign
    split
    · next hreverse => simp [List.reverse_eq_nil_iff.mp hreverse]
    · next last rest hreverse => simpa using (congrArg List.length hreverse).symm
  unfold padNumber
  split_ifs with hlt
  · simp only [List.length_append, List.length_replicate, List.length_singleton]
    omega
  · omega

section Splices

variable {limits : Limits} {s : Stack}

theorem Splice.run_fits (hlimits : limits.IsRoomy) (op : Splice) (h : s.Fits limits.elementSize) :
    Ensures (Stack.Fits limits.elementSize) (op.run limits s) := by
  have hdigest := hlimits.digest
  cases op with
  | cat =>
    refine (popValue_fits h).bind fun b hb => (popValue_fits hb.2).bind fun a ha => ?_
    refine .ite (fun _ => .error _) fun htotal => .ok (ha.2.push ?_)
    rw [List.length_append]
    exact Nat.le_of_not_lt htotal
  | split =>
    refine (popNumber_fits _ h).bind fun n hn => (popValue_fits hn.2).bind fun data hdata => ?_
    refine .ite (fun _ => .ok ((hdata.2.push ?_).push ?_)) fun _ => .error _
    · exact Nat.le_trans (List.length_take_le' _ _) hdata.1
    · exact Nat.le_trans (by simp) hdata.1
  | pad =>
    refine (popCount_fits _ _ h).bind fun width hwidth => ?_
    refine .ite (fun _ => .error _) fun hsize => (popValue_fits hwidth).bind fun value hvalue => ?_
    refine .ite (fun _ => .error _) fun hroom => .ite (fun _ => .error _) fun _ => ?_
    refine .ok (hvalue.2.push ?_)
    rw [length_padNumber (Nat.le_of_not_lt hroom)]
    exact Nat.le_of_not_lt hsize
  | shorten =>
    refine (popValue_fits h).bind fun value hvalue => ?_
    refine .ite (fun _ => .error _) fun _ => .ok (hvalue.2.push ?_)
    exact Nat.le_trans (Number.length_minimal_le _) hvalue.1
  | size =>
    refine (peek_fits 0 h).bind fun slot hslot => .ok (h.push_encode ?_)
    have hlength := Nat.lt_of_le_of_lt hslot hlimits.elementSize
    exact (Number.fits_of_lt_size hlength).mono (by omega)
  | invert =>
    refine (popValue_fits h).bind fun value hvalue => .ok (hvalue.2.push ?_)
    rw [List.length_map]
    exact hvalue.1
  | bitwise f =>
    refine (popValue_fits h).bind fun b hb => (popValue_fits hb.2).bind fun a ha => ?_
    refine .ite (fun _ => .ok (ha.2.push ?_)) fun _ => .error _
    rw [List.length_zipWith]
    exact Nat.le_trans (Nat.min_le_left _ _) ha.1
  | equal =>
    refine (popValue_fits h).bind fun b hb => (popValue_fits hb.2).bind fun a ha => ?_
    exact .ok (ha.2.push (Nat.le_trans (Number.length_ofBool_le _) (by omega)))
  | shiftLeft =>
    refine (popCount_fits _ _ h).bind fun n hn => (popValue_fits hn).bind fun value hvalue => ?_
    refine .ok (hvalue.2.push ?_)
    rw [length_shiftLeft]
    exact hvalue.1
  | shiftRight =>
    refine (popCount_fits _ _ h).bind fun n hn => (popValue_fits hn).bind fun value hvalue => ?_
    refine .ok (hvalue.2.push ?_)
    rw [length_shiftRight]
    exact hvalue.1
  | digest f =>
    refine (popValue_fits h).bind fun value hvalue => .ok (hvalue.2.push ?_)
    exact Nat.le_trans (length_digest_le f _) hdigest

end Splices

/-! ### Numbers -/

section Numbers

variable {limit size : Nat} {s : Stack}

theorem fits_truthNumber (b : Bool) : Number.Fits 1 (truthNumber b) := by
  cases b <;> decide

/-- The result for a number takes at most one byte more. -/
theorem Unary.fits_apply (op : Unary) {n : Int} (h : Number.Fits limit n) :
    Number.Fits (limit + 1) (op.apply n) := by
  cases op with
  | increment => exact h.add_small (by decide)
  | decrement => exact h.add_small (m := -1) (by decide)
  | negate => exact h.neg.mono (by omega)
  | abs => exact h.natAbs.mono (by omega)
  | not | isNonzero => exact (fits_truthNumber _).mono (by omega)

/-- The result for two numbers takes at most one byte more, or twice as many. -/
theorem Binary.fits_apply (op : Binary) {a b : Int} (ha : Number.Fits limit a)
    (hb : Number.Fits limit b) (hdouble : 2 * limit ≤ size) (hnext : limit + 1 ≤ size) :
    Ensures (Number.Fits size) (op.apply a b) := by
  cases op with
  | add => exact .ok ((ha.add hb).mono hnext)
  | sub => exact .ok ((ha.sub hb).mono hnext)
  | mul => exact .ok ((ha.mul hb).mono (by omega))
  | div => exact .ite (fun _ => .error _) fun _ => .ok ((ha.tdiv b).mono (by omega))
  | mod => exact .ite (fun _ => .error _) fun _ => .ok ((ha.tmod b).mono (by omega))
  | min =>
    refine .ok ?_
    split_ifs
    · exact ha.mono (by omega)
    · exact hb.mono (by omega)
  | max =>
    refine .ok ?_
    split_ifs
    · exact hb.mono (by omega)
    · exact ha.mono (by omega)
  | _ => exact .ok ((fits_truthNumber _).mono (by omega))

theorem Unary.run_fits (op : Unary) (h : s.Fits size) (hsize : limit + 1 ≤ size) :
    Ensures (Stack.Fits size) (op.run limit s) :=
  (popNumber_fits limit h).bind fun _ hn =>
    .ok (hn.2.push_encode ((op.fits_apply hn.1).mono hsize))

theorem Binary.run_fits (op : Binary) (h : s.Fits size) (hdouble : 2 * limit ≤ size)
    (hnext : limit + 1 ≤ size) : Ensures (Stack.Fits size) (op.run limit s) := by
  refine (popNumber_fits limit h).bind fun b hb => (popNumber_fits limit hb.2).bind fun a ha => ?_
  exact (op.fits_apply ha.1 hb.1 hdouble hnext).bind fun n hn => .ok (ha.2.push_encode hn)

theorem runWithin_fits (limit : Nat) (h : s.Fits size) (hsize : 1 ≤ size) :
    Ensures (Stack.Fits size) (runWithin limit s) := by
  refine (popNumber_fits limit h).bind fun _ hupper =>
    (popNumber_fits limit hupper.2).bind fun _ hlower => ?_
  refine (popNumber_fits limit hlower.2).bind fun _ hn => .ok (hn.2.push_encode ?_)
  exact (fits_truthNumber _).mono hsize

end Numbers

/-! ### Instructions -/

section Instructions

variable {setting : Setting} {script : List Chunk} {c : Chunk}

/-- The numbers that have opcodes of their own are short. -/
theorem Instruction.fits_constant {op : Opcode} {n : Int} (h : ofOpcode op = .constant n) :
    Number.Fits 1 n := by
  have hall : ∀ op, (match ofOpcode op with
      | constant n => decide (n.natAbs ≤ 16)
      | _ => true : Bool) := forall_opcode (by decide +kernel)
  have hop := hall op
  rw [h] at hop
  have hn : n.natAbs ≤ 16 := of_decide_eq_true hop
  unfold Number.Fits
  omega

theorem Instruction.runOnMain_fits (hlimits : setting.limits.IsRoomy) {op : Opcode} {s : Stack}
    (h : s.Fits setting.limits.elementSize) (hdepth : s.depth < UInt64.size) :
    Ensures (Stack.Fits setting.limits.elementSize) ((ofOpcode op).runOnMain setting s) := by
  have hdigest := hlimits.digest
  have hproduct := hlimits.product
  cases hop : ofOpcode op with
  | constant n => exact .ok (h.push_encode ((fits_constant hop).mono (by omega)))
  | verify => exact verifyTop_fits _ h
  | shuffle op => exact op.run_fits _ h hdepth (by omega)
  | splice op => exact op.run_fits hlimits h
  | equalVerify =>
    exact (Splice.run_fits hlimits .equal h).bind fun _ h => verifyTop_fits _ h
  | unary op => exact op.run_fits h (by omega)
  | binary op => exact op.run_fits h hproduct (by omega)
  | numEqualVerify =>
    exact (Binary.run_fits .equal h hproduct (by omega)).bind fun _ h => verifyTop_fits _ h
  | within => exact runWithin_fits _ h (by omega)
  | _ => exact .ok h

/-! ### States -/

/-- The items of both stacks are short enough, and this many operations have been counted. -/
structure State.Holds (size operations : Nat) (s : State) : Prop where
  main : s.main.Fits size
  alt : s.alt.Fits size
  operations : s.operations = operations

variable {size n : Nat} {s : State}

theorem Conditional.run_holds (rules : Rules) (op : Conditional) (h : s.Holds size n) :
    Ensures (State.Holds size n) (op.run rules s) := by
  cases op with
  | opening negated =>
    refine .ite (fun _ => ?_) fun _ => .ok ⟨h.main, h.alt, h.operations⟩
    exact (popCondition_fits rules h.main).bind fun _ hmain => .ok ⟨hmain, h.alt, h.operations⟩
  | turn =>
    simp only [run]
    split
    · exact .ite (fun _ => .error _) fun _ => .ok ⟨h.main, h.alt, h.operations⟩
    · exact .error _
  | closing =>
    simp only [run]
    split
    · exact .ok ⟨h.main, h.alt, h.operations⟩
    · exact .error _

theorem moveFromAlt_holds (h : s.Holds size n) :
    Ensures (State.Holds size n) (Instruction.moveFromAlt s) := by
  unfold Instruction.moveFromAlt
  split
  · next hpop =>
    obtain ⟨hslot, halt⟩ := h.alt.of_pop? hpop
    exact .ok ⟨h.main.pushSlot hslot, halt, h.operations⟩
  · exact .error _

theorem runCheckSig_holds (h : s.Holds size n) (hsize : 1 ≤ size) :
    (runCheckSig setting script s).Leads (State.Holds size n) := by
  obtain ⟨fault, calls, hrun⟩ | ⟨key, signature, main, _, _, valid, calls, hmain, hrun⟩ :=
    runCheckSig_cases setting script s
  · rw [hrun]
    trivial
  · have hrest : main.Fits size := by
      intro v hv
      refine h.main v ?_
      rw [hmain]
      exact List.mem_cons_of_mem _ (List.mem_cons_of_mem _ hv)
    rw [hrun, settleCheck]
    split_ifs
    · trivial
    · refine ⟨hrest.push ?_, h.alt, h.operations⟩
      exact Nat.le_trans (Number.length_ofBool_le valid) hsize

/-- No instruction makes an item that is too long. -/
theorem Instruction.run_holds (hlimits : setting.limits.IsRoomy) (op : Opcode)
    (h : s.Holds setting.limits.elementSize n) (hdepth : s.main.depth < UInt64.size) :
    ((ofOpcode op).run setting script op s).Leads (State.Holds setting.limits.elementSize n) := by
  have hdigest := hlimits.digest
  have hcheck : (runCheckSig setting script s).Leads (State.Holds setting.limits.elementSize n) :=
    runCheckSig_holds h (by omega)
  cases hmain : (ofOpcode op).actsOnMain with
  | true =>
    rw [run_of_actsOnMain hmain]
    refine .ofExcept s ((runOnMain_fits hlimits h.main hdepth).map fun _ hrest => ?_)
    exact ⟨hrest, h.alt, h.operations⟩
  | false =>
    cases hop : ofOpcode op with
    | nop => exact h
    | upgradableNop n =>
      simp only [run]
      split_ifs
      · trivial
      · exact h
    | conditional c => exact .ofExcept s (c.run_holds _ h)
    | ret =>
      simp only [run, runReturn]
      split_ifs
      · trivial
      · exact h
      · exact ⟨h.main, h.alt, h.operations⟩
    | toAlt =>
      refine .ofExcept s ((popSlot_fits h.main).bind fun _ hrest => .ok ?_)
      exact ⟨hrest.2, h.alt.pushSlot hrest.1, h.operations⟩
    | fromAlt => exact .ofExcept s (moveFromAlt_holds h)
    | codeSeparator => exact ⟨h.main, h.alt, h.operations⟩
    | checkSig => exact hcheck
    | checkSigVerify =>
      refine hcheck.andThen (fun t ht => ?_) fun _ h => h
      refine .ofExcept t ((verifyTop_fits _ ht.main).map fun _ hrest => ?_)
      exact ⟨hrest, ht.alt, ht.operations⟩
    | disabled | reservedConditional | reserved | unsupported | invalid => trivial
    | _ =>
      rw [hop] at hmain
      cases hmain

theorem perform_holds (hlimits : setting.limits.IsRoomy)
    (h : s.Holds setting.limits.elementSize n) (hdepth : s.main.depth < UInt64.size)
    (hdata : c.dataLength ≤ setting.limits.elementSize) :
    (perform setting script c s).Leads (State.Holds setting.limits.elementSize n) := by
  refine perform_leads h (fun data hpush => ?_) (Instruction.run_holds hlimits c.op h hdepth)
  rw [Chunk.dataLength, hpush] at hdata
  exact ⟨h.main.push hdata, h.alt, h.operations⟩

end Instructions

end Machine

end Utxo
