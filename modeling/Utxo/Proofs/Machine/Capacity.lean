/-
Buffers that there cannot be.

`OP_NUM2BIN` takes the number of bytes to write a number in from the stack.  The limit on items is all
that bounds it; where that limit is higher than what a buffer can have, a script can ask for more.

* **`Splice.run_pad_cons`** — what `OP_NUM2BIN` makes of its two operands;
* **`Step.fails_overflow_iff`** — a step fails for want of room just if it is an `OP_NUM2BIN` that is
  executed and whose operands ask for too much;
* **`run_overflow_iff`** — an evaluation breaks off just if one of its steps asks for too much.
-/
import Utxo.Proofs.Machine.Items
import Utxo.Proofs.Machine.Tracking
import Utxo.Proofs.Script.Push
import Utxo.Proofs.Script.ShortestForm

namespace Utxo

/-- Writes a number in as many bytes as the stack says. -/
abbrev Opcode.num2bin : Opcode := 0x80

namespace Machine

/-! ### Operands -/

/-- The width that is asked for is more than what a buffer can have, no limit bars it, and there is
something to fill in. -/
structure Overflows (limits : Limits) (width value : Bytes) : Prop where
  isNumber : width.length ≤ limits.numberLength
  isWord : Number.value width < UInt64.size
  admitted : Number.value width ≤ limits.elementSize
  longer : (Number.minimal value).length < Number.value width
  capacity : maxCapacity < Number.value width

variable {limits : Limits} {width value : Bytes} {s t : Stack}

theorem Overflows.maxCapacity_lt (h : Overflows limits width value) :
    maxCapacity < limits.elementSize := by
  have hcapacity := h.capacity
  have hadmitted := h.admitted
  omega

section Pops

variable (limit : Nat) (v : Bytes) (vs : List Bytes) (n : String) (ns : List String)

theorem popNumber_cons :
    popNumber limit ⟨v :: vs, n :: ns⟩ =
      if v.length ≤ limit then .ok (Number.value v, ⟨vs, ns⟩)
      else .error (.numberTooBig v.length limit) := by
  have hpop : popNumber limit ⟨v :: vs, n :: ns⟩ =
      (number limit v >>= fun a => .ok (a, ⟨vs, ns⟩)) := rfl
  rw [hpop, Number.number_eq]
  split_ifs <;> rfl

theorem popCount_cons (outOfRange : Int → Fault) :
    popCount limit outOfRange ⟨v :: vs, n :: ns⟩ =
      if v.length ≤ limit then
        if 0 ≤ Number.value v ∧ Number.value v < UInt64.size then
          .ok ((Number.value v).toNat, ⟨vs, ns⟩)
        else .error (outOfRange (Number.value v))
      else .error (.numberTooBig v.length limit) := by
  rw [popCount, popNumber_cons]
  split_ifs with hlength hrange
  · exact if_pos hrange
  · exact if_neg hrange
  · rfl

end Pops

/-- On aligned stacks there are two operands, or too few. -/
theorem two_operands_or_short (haligned : s.IsAligned) :
    (∃ v w vs n m ns, s = ⟨v :: w :: vs, n :: m :: ns⟩) ∨ s.values.length < 2 := by
  match hvalues : s.values with
  | v :: w :: vs =>
    obtain ⟨n, m, ns, hs⟩ := haligned.eq_of_values hvalues
    exact .inl ⟨v, w, vs, n, m, ns, hs⟩
  | [] => exact .inr Nat.two_pos
  | [_] => exact .inr Nat.one_lt_two

namespace Splice

/-- What `OP_NUM2BIN` makes of its two operands. -/
theorem run_pad_cons (limits : Limits) (width value : Bytes) (vs : List Bytes) (n m : String)
    (ns : List String) :
    Splice.run limits .pad ⟨width :: value :: vs, n :: m :: ns⟩ =
      if width.length ≤ limits.numberLength then
        if 0 ≤ Number.value width ∧ Number.value width < UInt64.size then
          let number := Number.minimal value
          let size := (Number.value width).toNat
          if limits.elementSize < size then .error (.paddedTooBig size limits.elementSize)
          else if size < number.length then .error (.doesNotFit number.length size)
          else if number.length < size ∧ maxCapacity < size then .error .capacityOverflow
          else .ok (Stack.push ⟨vs, ns⟩ (padNumber number size))
        else .error (.paddingOutOfRange (Number.value width))
      else .error (.numberTooBig width.length limits.numberLength) := by
  rw [Splice.run, popCount_cons]
  split_ifs <;> rfl

/-- Without two operands, `OP_NUM2BIN` fails, and not for want of room. -/
theorem run_pad_of_short (limits : Limits) (haligned : s.IsAligned) (h : s.values.length < 2) :
    ∃ fault, IsOrdinary fault ∧ Splice.run limits .pad s = .error fault := by
  obtain ⟨values, names⟩ := s
  match values, names, haligned with
  | [], [], _ => exact ⟨.invalidIndex 0 0, trivial, rfl⟩
  | [width], [n], _ =>
    rw [Splice.run, popCount_cons]
    split_ifs
    · by_cases hsize : limits.elementSize < (Number.value width).toNat
      · exact ⟨.paddedTooBig _ _, trivial, if_pos hsize⟩
      · exact ⟨.invalidIndex 0 0, trivial, if_neg hsize⟩
    · exact ⟨.paddingOutOfRange _, trivial, rfl⟩
    · exact ⟨.numberTooBig _ _, trivial, rfl⟩
  | _ :: _ :: _, _, _ =>
    simp only [List.length_cons] at h
    omega

/-- `OP_NUM2BIN` fails for want of room just if its two operands ask for too much. -/
theorem run_pad_eq_overflow_iff (haligned : s.IsAligned) :
    Splice.run limits .pad s = .error .capacityOverflow ↔
      ∃ width value rest, s.values = width :: value :: rest ∧ Overflows limits width value := by
  obtain ⟨width, value, vs, n, m, ns, rfl⟩ | hshort := two_operands_or_short haligned
  · rw [run_pad_cons]
    constructor
    · intro h
      refine ⟨width, value, vs, rfl, ?_⟩
      split_ifs at h with hnumber hword
      · dsimp only at h
        split_ifs at h with hadmitted hfits hcapacity
        · cases h
        · cases h
        · exact ⟨hnumber, hword.2, by omega, by omega, by omega⟩
      · cases h
      · cases h
    · rintro ⟨_, _, _, ⟨⟩, hnumber, hword, hadmitted, hlonger, hcapacity⟩
      rw [if_pos hnumber, if_pos ⟨by omega, hword⟩]
      dsimp only
      rw [if_neg (by omega), if_neg (by omega), if_pos ⟨by omega, by omega⟩]
  · obtain ⟨fault, hordinary, hrun⟩ := run_pad_of_short limits haligned hshort
    constructor
    · intro h
      cases hrun.symm.trans h
      exact hordinary.elim
    · rintro ⟨width, value, rest, hvalues, -⟩
      simp only [hvalues, List.length_cons] at hshort
      omega

/-- What `OP_NUM2BIN` leaves has as many bytes as it was asked for; if there was anything to fill in, a
buffer can have so many. -/
theorem exists_of_run_pad_eq_ok (haligned : s.IsAligned) (h : Splice.run limits .pad s = .ok t) :
    ∃ width value built rest, s.values = width :: value :: rest ∧ t.values = built :: rest ∧
      built.length = Number.value width ∧
      (built = Number.minimal value ∨ built.length ≤ maxCapacity) := by
  obtain ⟨width, value, vs, n, m, ns, rfl⟩ | hshort := two_operands_or_short haligned
  · rw [run_pad_cons] at h
    split_ifs at h with hnumber hword
    dsimp only at h
    split_ifs at h with hadmitted hfits hcapacity
    cases h
    have hlength : (padNumber (Number.minimal value) (Number.value width).toNat).length =
        (Number.value width).toNat := length_padNumber (Nat.le_of_not_lt hfits)
    refine ⟨width, value, padNumber _ _, vs, rfl, rfl, by omega, ?_⟩
    by_cases hlonger : (Number.minimal value).length < (Number.value width).toNat
    · exact .inr (by omega)
    · exact .inl (if_neg hlonger)
  · obtain ⟨fault, -, hrun⟩ := run_pad_of_short limits haligned hshort
    cases hrun.symm.trans h

end Splice

/-! ### Steps -/

/-- The step is an `OP_NUM2BIN` that is executed, and its operands ask for more bytes than a buffer can
have. -/
structure Step.Overflows (setting : Setting) (k : Step) : Prop where
  executed : k.executed
  opcode : k.chunk.op = Opcode.num2bin
  enters : ∃ t, enter setting k.chunk k.before = .ok t
  operands : ∃ width value rest, k.before.main.values = width :: value :: rest ∧
    Machine.Overflows setting.limits width value

/-- The step is an `OP_NUM2BIN` that is executed, and leaves these bytes. -/
def Step.Builds (setting : Setting) (script : List Chunk) (k : Step) (built : Bytes) : Prop :=
  k.executed ∧ k.chunk.op = Opcode.num2bin ∧
    ∃ t rest, step setting script k.chunk k.before = .next t ∧ t.main.values = built :: rest

theorem Instruction.ofOpcode_eq_pad_iff : ∀ op : Opcode,
    ofOpcode op = .splice .pad ↔ op = Opcode.num2bin :=
  forall_opcode (by decide +kernel)

variable {setting : Setting} {script : List Chunk} {k : Step} {c : Chunk} {u : State}

theorem perform_num2bin (hread : c.data.isSome = c.op.isPush) (hexecuting : u.isExecuting)
    (hop : c.op = Opcode.num2bin) :
    perform setting script c u =
      .ofExcept u ((Splice.run setting.limits .pad u.main).map fun main => { u with main }) := by
  have hinstr : Instruction.ofOpcode c.op = .splice .pad :=
    (Instruction.ofOpcode_eq_pad_iff c.op).mpr hop
  have hdata : c.data = none := data_eq_none hread (by simp [hinstr])
  rw [perform_of_isExecuting hexecuting, hdata, hinstr]
  rfl

/-- A fault that is not about the room that there is. -/
def HasRoom (fault : Fault) : Prop := fault ≠ .capacityOverflow

theorem hasRoom_of_isOrdinary (fault : Fault) (h : IsOrdinary fault) : HasRoom fault := by
  rintro rfl
  exact h

theorem perform_overflow_iff (hread : c.data.isSome = c.op.isPush) (haligned : u.IsAligned) :
    (∃ calls, perform setting script c u = .stop (.failed .capacityOverflow calls)) ↔
      u.isExecuting ∧ c.op = Opcode.num2bin ∧
        ∃ width value rest, u.main.values = width :: value :: rest ∧
          Machine.Overflows setting.limits width value := by
  rw [← Splice.run_pad_eq_overflow_iff haligned.1]
  constructor
  · rintro ⟨calls, hperform⟩
    -- No other chunk raises this fault.
    have hpads : u.isExecuting ∧ c.op = Opcode.num2bin := by
      by_contra hother
      have hraises : (perform setting script c u).Raises HasRoom :=
        perform_raises hasRoom_of_isOrdinary (fun _ _ => nofun) fun hexecuting hinstr =>
          absurd ⟨hexecuting, (Instruction.ofOpcode_eq_pad_iff _).mp hinstr⟩ hother
      exact hraises _ calls hperform rfl
    obtain ⟨hexecuting, hop⟩ := hpads
    rw [perform_num2bin hread hexecuting hop] at hperform
    refine ⟨hexecuting, hop, ?_⟩
    cases hrun : Splice.run setting.limits .pad u.main with
    | ok main =>
      rw [hrun] at hperform
      cases hperform
    | error fault =>
      rw [hrun] at hperform
      cases hperform
      rfl
  · rintro ⟨hexecuting, hop, hrun⟩
    refine ⟨u.calls, ?_⟩
    rw [perform_num2bin hread hexecuting hop, hrun]
    rfl

/-- A step fails for want of room just if it is an `OP_NUM2BIN` that is executed and whose operands ask
for too much. -/
theorem Step.fails_overflow_iff (hread : k.chunk.data.isSome = k.chunk.op.isPush)
    (haligned : k.before.IsAligned) :
    k.Fails setting script .capacityOverflow ↔ k.Overflows setting := by
  have hperform : (∃ calls, perform setting script k.chunk (k.before.count k.chunk) =
      .stop (.failed .capacityOverflow calls)) ↔ _ := perform_overflow_iff hread haligned
  rw [Step.Fails, step_eq]
  cases hbar : barred? setting k.chunk k.before.isExecuting (k.before.count k.chunk).operations with
  | some fault =>
    constructor
    · rintro ⟨calls, ⟨⟩⟩
      exact absurd rfl (barred?_raises hasRoom_of_isOrdinary hbar)
    · rintro ⟨-, -, ⟨t, henter⟩, -⟩
      cases hbar.symm.trans (enter_eq_ok_iff.mp henter).1
  | none =>
    constructor
    · rintro ⟨calls, hstop⟩
      obtain hfails | ⟨t, -, hsettle⟩ := Move.andThen_eq_stop_iff.mp hstop
      · obtain ⟨hexecuted, hop, hoperands⟩ := hperform.mp ⟨calls, hfails⟩
        exact ⟨hexecuted, hop, ⟨_, enter_eq_ok_iff.mpr ⟨hbar, rfl⟩⟩, hoperands⟩
      · exact absurd rfl (settle_raises hasRoom_of_isOrdinary setting t _ calls hsettle)
    · rintro ⟨hexecuted, hop, -, hoperands⟩
      obtain ⟨calls, hfails⟩ := hperform.mpr ⟨hexecuted, hop, hoperands⟩
      exact ⟨calls, Move.andThen_eq_stop_iff.mpr (.inl hfails)⟩

/-- The bytes that an `OP_NUM2BIN` leaves are as many as it was asked for; if there was anything to fill
in, a buffer can have so many. -/
theorem Step.Builds.length_eq {built : Bytes} (h : k.Builds setting script built)
    (hread : k.chunk.data.isSome = k.chunk.op.isPush) (haligned : k.before.IsAligned) :
    ∃ width value rest, k.before.main.values = width :: value :: rest ∧
      built.length = Number.value width ∧
      (built = Number.minimal value ∨ built.length ≤ maxCapacity) := by
  obtain ⟨hexecuted, hop, t, rest, hstep, hvalues⟩ := h
  obtain ⟨-, u, hperform, -, rfl⟩ := step_eq_next_iff.mp hstep
  rw [perform_num2bin hread (by exact hexecuted) hop, Move.ofExcept_eq_next_iff] at hperform
  cases hrun : Splice.run setting.limits .pad k.before.main with
  | error fault =>
    rw [show (k.before.count k.chunk).main = k.before.main from rfl, hrun] at hperform
    cases hperform
  | ok main =>
    rw [show (k.before.count k.chunk).main = k.before.main from rfl, hrun] at hperform
    cases hperform
    obtain ⟨width, value, built', rest', hoperands, hleft, hlength, hroom⟩ :=
      Splice.exists_of_run_pad_eq_ok haligned.1 hrun
    obtain ⟨rfl, -⟩ := List.cons.inj (hvalues.symm.trans hleft)
    exact ⟨width, value, rest', hoperands, hlength, hroom⟩

/-! ### Evaluations -/

section Scripts

variable {unlocking locking : Script} {fault : Fault}

theorem isKept_isAligned (setting : Setting) : IsKept setting State.IsAligned where
  initial := State.isAligned_initial
  step _ _ _ h := isAligned_step h
  handOver _ h := ⟨h.1, rfl⟩

theorem isAligned_of_mem (h : k ∈ (run setting unlocking locking).steps) :
    k.before.IsAligned ∧ k.chunk.data.isSome = k.chunk.op.isPush := by
  obtain ⟨start, before, hbegins, hpassed, hc⟩ := exists_passed_of_mem h
  have hread := Chunk.isSome_data_of_mem_decode (List.mem_of_getElem? hc)
  exact ⟨(isKept_isAligned setting).reached (reaches_of_mem h), hread⟩

/-- A fault that is found neither before nor behind a script is that of a step. -/
theorem exists_fails_of_run (hrefusal : refusal? setting unlocking locking ≠ some fault)
    (hend : ∀ s calls, atEnd s ≠ .failed fault calls)
    (hjudge : ∀ s, judge setting.rules s ≠ .error fault)
    (h : (run setting unlocking locking).result = .error fault) :
    ∃ k ∈ (run setting unlocking locking).steps,
      k.Fails setting (scriptOf unlocking locking k.role).chunks fault := by
  rcases exists_of_run_result_eq_error h with
    hrefused | ⟨role, start, calls, hbegins, hfailed⟩ | ⟨s, -, hjudged⟩
  · exact absurd hrefused hrefusal
  · obtain ⟨before, s, hpassed, ⟨-, hrun⟩ | ⟨c, e, hc, hstop, hrun⟩⟩ :=
      exists_passed_runScript setting role (scriptOf unlocking locking role).chunks start
    · rw [hrun] at hfailed
      exact absurd hfailed (hend s calls)
    · rw [hrun] at hfailed
      obtain rfl : e = .failed fault calls := hfailed
      have hmem : (⟨role, c, s⟩ : Step) ∈ (run setting unlocking locking).stepsOf role := by
        rw [hbegins.stepsOf_eq, hrun]
        simp
      exact ⟨⟨role, c, s⟩, (List.mem_filter.mp hmem).1, calls, hstop⟩
  · exact absurd hjudged (hjudge s.main)

/-- An evaluation breaks off just if one of its steps asks for more bytes than a buffer can have. -/
theorem run_overflow_iff :
    (run setting unlocking locking).result = .error .capacityOverflow ↔
      ∃ k ∈ (run setting unlocking locking).steps, k.Overflows setting := by
  constructor
  · intro h
    obtain ⟨k, hk, hfails⟩ := exists_fails_of_run
      (fun hrefusal => refusal?_raises hasRoom_of_isOrdinary hrefusal rfl)
      (fun s calls hend => by
        unfold atEnd at hend
        split_ifs at hend
        cases hend)
      (fun s hjudge => judge_raises hasRoom_of_isOrdinary setting.rules s _ hjudge rfl) h
    obtain ⟨haligned, hread⟩ := isAligned_of_mem hk
    exact ⟨k, hk, (Step.fails_overflow_iff hread haligned).mp hfails⟩
  · rintro ⟨k, hk, hoverflows⟩
    obtain ⟨haligned, hread⟩ := isAligned_of_mem hk
    exact (run_eq_of_fails hk ((Step.fails_overflow_iff hread haligned).mpr hoverflows)).1

end Scripts

end Machine

end Utxo
