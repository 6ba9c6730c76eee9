/-
Numbers of fixed width.

`OP_NUM2BIN` writes a number in as many bytes as it is told, and `OP_BIN2NUM` takes the bytes away again.
A form is a magnitude with a sign (`splitSign`), and zeros between the two make no difference to what it
stands for, so both keep the number.

* **`value_eq_signed_splitSign`** — what a form stands for, its sign apart;
* **`value_padNumber`** — padding keeps the number;
* **`num2bin_keepsNumber`** — so the one opcode undoes the other, as far as there can be a buffer of the
  width that is asked for.
-/
import Utxo.Proofs.Machine.Numeric

namespace Utxo

/-- Writes a number in its shortest form. -/
abbrev Opcode.bin2num : Opcode := 0x81

namespace Machine

open Number (value minimal signed encode IsShortest value_append_singleton minimal_eq_encode)

/-! ### Padding -/

theorem splitSign_append_singleton (body : Bytes) (last : UInt8) :
    splitSign (body ++ [last]) = (body ++ [last &&& 0x7f], last &&& 0x80) := by
  simp [splitSign]

/-- The two parts of the last byte. -/
theorem signByte_parts : ∀ last : UInt8,
    (last &&& 0x7f).toNat = last.toNat % 128 ∧ (last &&& 0x80).toNat % 128 = 0 ∧
      (last &&& 0x80 < 0x80 ↔ last < 0x80) :=
  forall_opcode (by decide +kernel)

theorem signed_congr {sign sign' : UInt8} (h : sign < 0x80 ↔ sign' < 0x80) (magnitude : Nat) :
    signed sign magnitude = signed sign' magnitude := by
  simp only [signed, h]

/-- What a form stands for, its sign apart. -/
theorem value_eq_signed_splitSign (bs : Bytes) :
    value bs = signed (splitSign bs).2 (ofLittleEndian (splitSign bs).1) ∧
      (splitSign bs).2.toNat % 128 = 0 := by
  obtain rfl | ⟨body, last, rfl⟩ := List.eq_nil_or_concat bs
  · exact ⟨rfl, rfl⟩
  · obtain ⟨hlow, hhigh, hsign⟩ := signByte_parts last
    rw [List.concat_eq_append, splitSign_append_singleton, value_append_singleton]
    refine ⟨?_, hhigh⟩
    rw [signed_congr hsign, ofLittleEndian_append, ofLittleEndian_cons, hlow]
    simp

/-- Padding keeps the number. -/
theorem value_padNumber (bs : Bytes) (size : Nat) : value (padNumber bs size) = value bs := by
  obtain ⟨hvalue, hsign⟩ := value_eq_signed_splitSign bs
  rw [padNumber]
  split_ifs
  · show value ((splitSign bs).1 ++ List.replicate (size - 1 - (splitSign bs).1.length) 0 ++
      [(splitSign bs).2]) = value bs
    rw [hvalue, value_append_singleton, hsign, ofLittleEndian_append,
      Number.ofLittleEndian_replicate_zero, Nat.mul_zero, Nat.mul_zero, Nat.add_zero]
  · rfl

theorem padNumber_nil (size : Nat) : padNumber [] size = List.replicate size 0 := by
  rw [padNumber]
  split_ifs with hlt
  · show List.replicate (size - 1 - 0) 0 ++ [0] = _
    rw [← List.replicate_succ']
    congr 1
    exact Nat.sub_add_cancel hlt
  · rw [Nat.le_zero.mp (Nat.le_of_not_lt hlt)]
    rfl

/-! ### The two opcodes -/

/-- `OP_BIN2NUM` leaves the shortest form of its number, if that is not too long. -/
theorem Splice.run_shorten_cons (limits : Limits) (bs : Bytes) (vs : List Bytes) (n : String)
    (ns : List String) :
    Splice.run limits .shorten ⟨bs :: vs, n :: ns⟩ =
      if limits.numberLength < (minimal bs).length then
        .error (.resultTooBig (minimal bs).length limits.numberLength)
      else .ok (Stack.push ⟨vs, ns⟩ (minimal bs)) := rfl

theorem minimal_padNumber (bs : Bytes) (size : Nat) :
    minimal (padNumber (minimal bs) size) = minimal bs := by
  rw [minimal_eq_encode, value_padNumber, minimal_eq_encode bs, Number.value_encode]

theorem isShortest_minimal (bs : Bytes) : IsShortest (value bs) (minimal bs) := by
  rw [minimal_eq_encode]
  exact Number.isShortest_encode _

theorem minimal_of_value_eq_zero {bs : Bytes} (h : value bs = 0) : minimal bs = [] := by
  rw [minimal_eq_encode, h]
  rfl

variable {setting : Setting} {script : List Chunk} {s : State}

/-- `OP_NUM2BIN` leaves a form of a number with as many bytes as it was asked for, and `OP_BIN2NUM` makes
it the shortest form again. -/
structure Pads (setting : Setting) (script : List Chunk) (s : State) (below : Stack) (bs : Bytes)
    (size : Nat) (padded : Bytes) : Prop where
  leaves : perform setting script (.ofOpcode Opcode.num2bin) s =
    .next { s with main := below.push padded }
  length_eq : padded.length = size
  value_eq : value padded = value bs
  zeros : value bs = 0 → padded = List.replicate size 0
  shortened : (minimal bs).length ≤ setting.limits.numberLength →
    performAll setting script [.ofOpcode Opcode.num2bin, .ofOpcode Opcode.bin2num] s =
      .next { s with main := below.push (minimal bs) }

theorem perform_bin2num {bs : Bytes} {vs : List Bytes} {n : String} {ns : List String}
    (hs : s.isExecuting) (hmain : s.main = ⟨bs :: vs, n :: ns⟩) :
    perform setting script (.ofOpcode Opcode.bin2num) s =
      if setting.limits.numberLength < (minimal bs).length then
        .stop (.failed (.resultTooBig (minimal bs).length setting.limits.numberLength) s.calls)
      else .next { s with main := Stack.push ⟨vs, ns⟩ (minimal bs) } := by
  rw [perform_of_actsOnMain rfl hs, hmain]
  show Move.ofExcept s ((Splice.run setting.limits .shorten ⟨bs :: vs, n :: ns⟩).map _) = _
  rw [Splice.run_shorten_cons]
  split_ifs <;> rfl

section Padded

variable {width bs : Bytes} {vs : List Bytes} {n m : String} {ns : List String} {size : Nat}

theorem perform_num2bin_cons (script : List Chunk) (hs : s.isExecuting)
    (hmain : s.main = ⟨width :: bs :: vs, n :: m :: ns⟩)
    (hwidth : width.length ≤ setting.limits.numberLength) (hvalue : value width = size)
    (hword : size < UInt64.size) (hadmitted : size ≤ setting.limits.elementSize) :
    perform setting script (.ofOpcode Opcode.num2bin) s =
      if size < (minimal bs).length then
        .stop (.failed (.doesNotFit (minimal bs).length size) s.calls)
      else if (minimal bs).length < size ∧ maxCapacity < size then
        .stop (.failed .capacityOverflow s.calls)
      else .next { s with main := Stack.push ⟨vs, ns⟩ (padNumber (minimal bs) size) } := by
  rw [perform_num2bin rfl hs rfl, hmain, Splice.run_pad_cons, if_pos hwidth, hvalue,
    if_pos ⟨Int.natCast_nonneg size, Int.ofNat_lt.mpr hword⟩]
  dsimp only [Int.toNat_natCast]
  rw [if_neg (Nat.not_lt.mpr hadmitted)]
  split_ifs <;> rfl

theorem overflows_iff (hwidth : width.length ≤ setting.limits.numberLength)
    (hvalue : value width = size) (hword : size < UInt64.size)
    (hadmitted : size ≤ setting.limits.elementSize) :
    Overflows setting.limits width bs ↔ (minimal bs).length < size ∧ maxCapacity < size := by
  constructor
  · intro h
    have hlonger := h.longer
    have hcapacity := h.capacity
    omega
  · rintro ⟨hlonger, hcapacity⟩
    exact ⟨hwidth, by omega, by omega, by omega, by omega⟩

variable (hs : s.isExecuting) (hmain : s.main = ⟨width :: bs :: vs, n :: m :: ns⟩)
  (hwidth : width.length ≤ setting.limits.numberLength) (hvalue : value width = size)
  (hword : size < UInt64.size) (hadmitted : size ≤ setting.limits.elementSize)

include hs hmain hwidth hvalue hword hadmitted

theorem pads_padNumber (hfits : (minimal bs).length ≤ size)
    (hroom : ¬((minimal bs).length < size ∧ maxCapacity < size)) :
    Pads setting script s ⟨vs, ns⟩ bs size (padNumber (minimal bs) size) := by
  have hperform := perform_num2bin_cons script hs hmain hwidth hvalue hword hadmitted
  rw [if_neg (Nat.not_lt.mpr hfits), if_neg hroom] at hperform
  refine ⟨hperform, length_padNumber hfits, ?_, fun hzero => ?_, fun hlimit => ?_⟩
  · rw [value_padNumber, minimal_eq_encode, Number.value_encode]
  · rw [minimal_of_value_eq_zero hzero]
    exact padNumber_nil size
  · rw [performAll, hperform]
    show performAll setting script [.ofOpcode Opcode.bin2num] _ = _
    rw [performAll_singleton, perform_bin2num (by exact hs) rfl, minimal_padNumber,
      if_neg (Nat.not_lt.mpr hlimit)]

end Padded

/-- A number is written in as many bytes as are asked for, keeps its value there, and is all zeros if it
is zero; and its shortest form is made of these bytes again.  This is so just if there can be a buffer
of that width, and where there cannot be one the evaluation breaks off; a number that does not fit is
refused.  A number of any length is made its shortest form, unless that is too long for a number. -/
theorem num2bin_keepsNumber (setting : Setting) (script : List Chunk) (s : State)
    (hs : s.isExecuting) :
    (∀ width bs vs n m ns (size : Nat), s.main = ⟨width :: bs :: vs, n :: m :: ns⟩ →
      width.length ≤ setting.limits.numberLength → value width = size → size < UInt64.size →
        size ≤ setting.limits.elementSize →
          ((minimal bs).length ≤ size →
            ((∃ padded, Pads setting script s ⟨vs, ns⟩ bs size padded) ↔
              ¬Overflows setting.limits width bs)) ∧
          (Overflows setting.limits width bs →
            perform setting script (.ofOpcode Opcode.num2bin) s =
              .stop (.failed .capacityOverflow s.calls)) ∧
          (size < (minimal bs).length → ∃ fault, fault.code = .impossibleEncoding ∧
            perform setting script (.ofOpcode Opcode.num2bin) s =
              .stop (.failed fault s.calls))) ∧
    ∀ bs vs n ns, s.main = ⟨bs :: vs, n :: ns⟩ →
      IsShortest (value bs) (minimal bs) ∧
        ((minimal bs).length ≤ setting.limits.numberLength →
          perform setting script (.ofOpcode Opcode.bin2num) s =
            .next { s with main := Stack.push ⟨vs, ns⟩ (minimal bs) }) ∧
        (setting.limits.numberLength < (minimal bs).length → ∃ fault,
          fault.code = .numberTooBig ∧
            perform setting script (.ofOpcode Opcode.bin2num) s =
              .stop (.failed fault s.calls)) := by
  refine ⟨fun width bs vs n m ns size hmain hwidth hvalue hword hadmitted => ?_,
    fun bs vs n ns hmain => ⟨isShortest_minimal bs, fun hfits => ?_, fun hlong => ?_⟩⟩
  · have hperform :=
      perform_num2bin_cons script hs hmain hwidth hvalue hword hadmitted
    have hoverflows : Overflows setting.limits width bs ↔
        (minimal bs).length < size ∧ maxCapacity < size :=
      overflows_iff hwidth hvalue hword hadmitted
    refine ⟨fun hfits => ⟨?_, fun hroom => ⟨padNumber (minimal bs) size, ?_⟩⟩, fun h => ?_,
      fun hlong => ?_⟩
    · rintro ⟨padded, hpads⟩ h
      rw [if_neg (Nat.not_lt.mpr hfits), if_pos (hoverflows.mp h), hpads.leaves] at hperform
      cases hperform
    · rw [hoverflows] at hroom
      exact pads_padNumber hs hmain hwidth hvalue hword hadmitted hfits hroom
    · obtain ⟨hlonger, hcapacity⟩ := hoverflows.mp h
      rw [hperform, if_neg (Nat.not_lt.mpr (Nat.le_of_lt hlonger)), if_pos ⟨hlonger, hcapacity⟩]
    · rw [hperform, if_pos hlong]
      exact ⟨_, rfl, rfl⟩
  · rw [perform_bin2num hs hmain, if_neg (Nat.not_lt.mpr hfits)]
  · rw [perform_bin2num hs hmain, if_pos hlong]
    exact ⟨_, rfl, rfl⟩

/-- Minus five, which has a byte for its sign, is written in four bytes and is one byte again, and 255
does not fit one byte. -/
theorem num2bin_keepsNumber_minus_five :
    let setting := Setting.ofFlags .afterGenesis .pushOnly none 0
    let s : State := { State.initial with main := ⟨[[0x04], [0x05, 0x80]], ["width", "n"]⟩ }
    let narrow : State := { State.initial with main := ⟨[[0x01], [0xff, 0x00]], ["width", "n"]⟩ }
    s.isExecuting ∧ narrow.isExecuting ∧ value [0x04] = 4 ∧ value [0x01] = 1 ∧
      (∃ padded, Pads setting [] s .empty [0x05, 0x80] 4 padded) ∧
      (∃ fault, fault.code = .impossibleEncoding ∧
        perform setting [] (.ofOpcode Opcode.num2bin) narrow = .stop (.failed fault [])) ∧
      perform setting [] (.ofOpcode Opcode.bin2num)
          { State.initial with main := ⟨[[0x05, 0x80]], ["n"]⟩ } =
        .next { State.initial with main := Stack.empty.push [0x85] } := by
  intro setting s narrow
  obtain ⟨hwide, -⟩ := num2bin_keepsNumber setting [] s rfl
  obtain ⟨hnarrow, -⟩ := num2bin_keepsNumber setting [] narrow rfl
  obtain ⟨-, hshortest⟩ := num2bin_keepsNumber setting []
    { State.initial with main := ⟨[[0x05, 0x80]], ["n"]⟩ } rfl
  obtain ⟨hpads, -, -⟩ := hwide [0x04] [0x05, 0x80] [] "width" "n" [] 4 rfl (by decide) (by decide)
    (by decide) (by decide)
  obtain ⟨-, -, hfails⟩ := hnarrow [0x01] [0xff, 0x00] [] "width" "n" [] 1 rfl (by decide)
    (by decide) (by decide) (by decide)
  have hroom : ¬Overflows setting.limits [0x04] [0x05, 0x80] := fun h =>
    absurd h.capacity (by decide)
  exact ⟨rfl, rfl, by decide, by decide, (hpads (by decide)).mpr hroom, hfails (by decide),
    (hshortest [0x05, 0x80] [] "n" [] rfl).2.1 (by decide)⟩

/-- One is to be written in as many bytes as a 64 bit word can count, and the limits admit that many. -/
theorem num2bin_breaksOff_at_one :
    let width : Bytes := List.replicate 8 0xff ++ [0x00]
    let s : State := { State.initial with main := ⟨[width, [0x01]], ["width", "n"]⟩ }
    let setting := Setting.ofFlags .unlimited .standard none 0
    s.isExecuting ∧ value width = (UInt64.size - 1 : Nat) ∧
      UInt64.size - 1 ≤ Limits.unlimited.elementSize ∧
      (minimal [0x01]).length ≤ UInt64.size - 1 ∧
      (¬∃ padded : Bytes, padded.length = UInt64.size - 1 ∧
        perform setting [] (.ofOpcode Opcode.num2bin) s =
          .next { s with main := Stack.empty.push padded }) ∧
      (execute .unlimited .standard none 0 ⟨0x01 :: 0x01 :: 0x09 :: width⟩ ⟨[0x80]⟩).result =
        .error .capacityOverflow := by
  intro width s setting
  have hperform : perform setting [] (.ofOpcode Opcode.num2bin) s =
      .stop (.failed .capacityOverflow []) := by
    decide +kernel
  refine ⟨rfl, by decide +kernel, Nat.le_refl _, by decide +kernel, ?_, by decide +kernel⟩
  rintro ⟨padded, -, hleaves⟩
  cases hperform.symm.trans hleaves

end Machine

end Utxo
