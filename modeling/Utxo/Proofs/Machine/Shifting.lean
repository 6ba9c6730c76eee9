/-
Shifts of byte strings.

A byte string is one row of bits.  A shift by less than a byte makes every byte from two neighbours
(`toNat_window`), so both loops divide a longer row by a power of two and keep its last bytes.  Whole
bytes are dropped or taken, and zeros come in for them.

* **`ofBigEndian_carryRight`**, **`ofBigEndian_carryLeft`** — the two loops compute with integers;
* **`ofBigEndian_shiftLeft`**, **`ofBigEndian_shiftRight`** — and so do the shifts;
* **`Direction.shift_shift`** — two shifts are one;
* **`shift_isExact`** — so the two opcodes multiply and divide by a power of two.
-/
import Mathlib.Tactic.IntervalCases
import Utxo.Proofs.Machine.Capacity
import Utxo.Proofs.Machine.Numeric

namespace Utxo

/-- Shifts a byte string left. -/
abbrev Opcode.lshift : Opcode := 0x98

/-- Shifts a byte string right. -/
abbrev Opcode.rshift : Opcode := 0x99

namespace Machine

/-! ### Less than a byte -/

section Window

variable {n : Nat} (hpos : 0 < n) (hlt : n < 8)

include hpos hlt

theorem toNat_counts : (UInt8.ofNat n).toNat % 8 = n ∧ (8 - UInt8.ofNat n).toNat % 8 = 8 - n := by
  interval_cases n <;> decide

/-- The byte that ends `n` bits before the end of two neighbours. -/
theorem toNat_window (b c : UInt8) :
    ((b <<< (8 - UInt8.ofNat n)) ||| (c >>> UInt8.ofNat n)).toNat =
      (256 * b.toNat + c.toNat) / 2 ^ n % 256 := by
  obtain ⟨hright, hleft⟩ := toNat_counts hpos hlt
  have hwidth : 2 ^ (8 - n) * 2 ^ n = 256 := by
    rw [← Nat.pow_add, Nat.sub_add_cancel hlt.le]
  have hlow : c.toNat / 2 ^ n < 2 ^ (8 - n) := by
    rw [Nat.div_lt_iff_lt_mul (Nat.two_pow_pos n), hwidth]
    exact c.toNat_lt
  -- The bits of the two bytes do not meet, so putting them together is adding.
  have hhigh : b.toNat * 2 ^ (8 - n) % 256 = 2 ^ (8 - n) * (b.toNat % 2 ^ n) := by
    rw [← hwidth, Nat.mul_comm, Nat.mul_mod_mul_left]
  have hquotient : (256 * b.toNat + c.toNat) / 2 ^ n =
      2 ^ (8 - n) * b.toNat + c.toNat / 2 ^ n := by
    rw [← hwidth, Nat.mul_comm (2 ^ (8 - n)), Nat.mul_assoc, Nat.mul_add_div (Nat.two_pow_pos n)]
  calc ((b <<< (8 - UInt8.ofNat n)) ||| (c >>> UInt8.ofNat n)).toNat
      = b.toNat * 2 ^ (8 - n) % 256 ||| c.toNat / 2 ^ n := by
        rw [UInt8.toNat_or, UInt8.toNat_shiftLeft, UInt8.toNat_shiftRight, hright, hleft,
          Nat.shiftLeft_eq, Nat.shiftRight_eq_div_pow]
    _ = 2 ^ (8 - n) * (b.toNat % 2 ^ n) + c.toNat / 2 ^ n := by
        rw [hhigh, Nat.two_pow_add_eq_or_of_lt hlow]
    _ = (256 * b.toNat + c.toNat) / 2 ^ n % 256 := by
        rw [hquotient, ← hwidth, Nat.mod_mul, Nat.mul_add_mod, Nat.mod_eq_of_lt hlow,
          Nat.mul_add_div (Nat.two_pow_pos _), Nat.div_eq_of_lt hlow, Nat.add_zero, Nat.add_comm]

end Window

/-- Turning bytes right divides the row that starts with the byte before them. -/
theorem ofBigEndian_carryRight {n : Nat} (hpos : 0 < n) (hlt : n < 8) (before : UInt8)
    (bs : Bytes) :
    ofBigEndian (carryRight (UInt8.ofNat n) before bs) =
      ofBigEndian (before :: bs) / 2 ^ n % 256 ^ bs.length := by
  induction bs generalizing before with
  | nil => simp [carryRight, ofBigEndian, Nat.mod_one]
  | cons b rest ih =>
    have hrest := ofBigEndian_lt rest
    have hunit : 0 < 256 ^ rest.length := Nat.pow_pos (by decide)
    -- The first byte is a window on the first two of the row, and the others do not see the first.
    have hfirst : ofBigEndian (before :: b :: rest) / 2 ^ n / 256 ^ rest.length =
        (256 * before.toNat + b.toNat) / 2 ^ n := by
      have hrow : ofBigEndian (before :: b :: rest) =
          256 ^ rest.length * (256 * before.toNat + b.toNat) + ofBigEndian rest := by
        rw [ofBigEndian_cons, ofBigEndian_cons, List.length_cons]
        ring
      rw [Nat.div_div_eq_div_mul, Nat.mul_comm, ← Nat.div_div_eq_div_mul, hrow,
        Nat.mul_add_div hunit, Nat.div_eq_of_lt hrest, Nat.add_zero]
    have hothers : ofBigEndian (before :: b :: rest) / 2 ^ n % 256 ^ rest.length =
        ofBigEndian (b :: rest) / 2 ^ n % 256 ^ rest.length := by
      have hbyte : 256 = 2 ^ n * 2 ^ (8 - n) := by
        rw [← Nat.pow_add, Nat.add_sub_cancel' hlt.le]
      have hrow : ofBigEndian (before :: b :: rest) =
          2 ^ n * (256 ^ rest.length * (2 ^ (8 - n) * before.toNat)) +
            ofBigEndian (b :: rest) := by
        rw [ofBigEndian_cons before, List.length_cons, Nat.pow_succ]
        nth_rewrite 2 [hbyte]
        ring
      rw [hrow, Nat.mul_add_div (Nat.two_pow_pos n), Nat.mul_add_mod]
    rw [carryRight, UInt8.or_comm, ofBigEndian_cons, toNat_window hpos hlt, length_carryRight, ih,
      List.length_cons, Nat.pow_succ, Nat.mod_mul, hfirst, hothers, Nat.add_comm, Nat.mul_comm]

/-- To turn bytes left is to turn the row right in which a zero follows. -/
theorem carryLeft_cons {n : Nat} (hpos : 0 < n) (hlt : n < 8) (b : UInt8) (bs : Bytes) :
    carryLeft (UInt8.ofNat n) (b :: bs) = carryRight (UInt8.ofNat (8 - n)) b (bs ++ [0]) := by
  have hcounts : 8 - UInt8.ofNat n = UInt8.ofNat (8 - n) ∧
      8 - UInt8.ofNat (8 - n) = UInt8.ofNat n := by
    interval_cases n <;> decide
  induction bs generalizing b with
  | nil => simp [carryLeft, carryRight, hcounts.2]
  | cons c rest ih =>
    rw [carryLeft, ih, List.cons_append, carryRight, hcounts.1, hcounts.2, UInt8.or_comm]

theorem ofBigEndian_carryLeft {n : Nat} (hpos : 0 < n) (hlt : n < 8) (bs : Bytes) :
    ofBigEndian (carryLeft (UInt8.ofNat n) bs) = ofBigEndian bs * 2 ^ n % 256 ^ bs.length := by
  cases bs with
  | nil => simp [carryLeft, ofBigEndian]
  | cons b bs =>
    have hrow : ofBigEndian (b :: (bs ++ [0])) = 2 ^ (8 - n) * (ofBigEndian (b :: bs) * 2 ^ n) := by
      have hbyte : 2 ^ (8 - n) * 2 ^ n = 256 := by
        rw [← Nat.pow_add, Nat.sub_add_cancel hlt.le]
      rw [← List.cons_append, ofBigEndian_append]
      show ofBigEndian (b :: bs) * 256 + 0 = _
      rw [← hbyte]
      ring
    rw [carryLeft_cons hpos hlt, ofBigEndian_carryRight (by omega) (by omega), hrow,
      Nat.mul_div_cancel_left _ (Nat.two_pow_pos _), List.length_append, List.length_singleton,
      List.length_cons]

/-! ### Whole bytes -/

/-- A shift by `n` is one by whole bytes and one by less than a byte. -/
theorem two_pow_eq (n : Nat) : 2 ^ n = 256 ^ (n / 8) * 2 ^ (n % 8) := by
  rw [show 256 = 2 ^ 8 from rfl, ← Nat.pow_mul, ← Nat.pow_add, Nat.div_add_mod]

theorem ofBigEndian_shiftRight (bs : Bytes) (n : Nat) :
    ofBigEndian (shiftRight bs n) = ofBigEndian bs / 2 ^ n := by
  let kept := bs.take (bs.length - n / 8)
  have hkept : ofBigEndian kept = ofBigEndian bs / 256 ^ (n / 8) := by
    rw [ofBigEndian_take]
    rcases Nat.le_total (n / 8) bs.length with hle | hge
    · rw [Nat.sub_sub_self hle]
    · -- More is dropped than there is, which leaves nothing.
      have hlt := ofBigEndian_lt bs
      rw [Nat.sub_eq_zero_of_le hge, Nat.sub_zero, Nat.div_eq_of_lt hlt,
        Nat.div_eq_of_lt (hlt.trans_le (Nat.pow_le_pow_right (by decide) hge))]
  have hmoved : ofBigEndian (if n % 8 = 0 then kept
      else carryRight (UInt8.ofNat (n % 8)) 0 kept) = ofBigEndian kept / 2 ^ (n % 8) := by
    split_ifs with hwhole
    · rw [hwhole, Nat.pow_zero, Nat.div_one]
    · have hrow : ofBigEndian (0 :: kept) = ofBigEndian kept := by
        rw [ofBigEndian_cons]
        simp
      have hlt : ofBigEndian kept / 2 ^ (n % 8) < 256 ^ kept.length :=
        (Nat.div_le_self _ _).trans_lt (ofBigEndian_lt kept)
      rw [ofBigEndian_carryRight (Nat.pos_of_ne_zero hwhole) (Nat.mod_lt _ (by decide)), hrow,
        Nat.mod_eq_of_lt hlt]
  have hshift : ofBigEndian (shiftRight bs n) = ofBigEndian kept / 2 ^ (n % 8) := by
    rw [← hmoved, shiftRight, ofBigEndian_append, ofBigEndian_replicate_zero, Nat.zero_mul,
      Nat.zero_add]
  rw [hshift, hkept, Nat.div_div_eq_div_mul, ← two_pow_eq]

theorem ofBigEndian_shiftLeft (bs : Bytes) (n : Nat) :
    ofBigEndian (shiftLeft bs n) = ofBigEndian bs * 2 ^ n % 256 ^ bs.length := by
  let kept := bs.drop (n / 8)
  have hlength : kept.length = bs.length - n / 8 := List.length_drop
  have hmoved : ofBigEndian (if n % 8 = 0 then kept
      else carryLeft (UInt8.ofNat (n % 8)) kept) =
        ofBigEndian kept * 2 ^ (n % 8) % 256 ^ kept.length := by
    split_ifs with hwhole
    · rw [hwhole, Nat.pow_zero, Nat.mul_one, Nat.mod_eq_of_lt (ofBigEndian_lt kept)]
    · exact ofBigEndian_carryLeft (Nat.pos_of_ne_zero hwhole) (Nat.mod_lt _ (by decide)) kept
  have hshift : ofBigEndian (shiftLeft bs n) =
      ofBigEndian bs * 2 ^ (n % 8) % 256 ^ kept.length * 256 ^ (bs.length - kept.length) := by
    have hkept : ofBigEndian kept = ofBigEndian bs % 256 ^ kept.length := by
      rw [hlength]
      exact ofBigEndian_drop bs (n / 8)
    rw [shiftLeft, ofBigEndian_append, ofBigEndian_replicate_zero, List.length_replicate]
    show ofBigEndian (if n % 8 = 0 then kept else carryLeft (UInt8.ofNat (n % 8)) kept) * _ + 0 = _
    rw [hmoved, hkept, Nat.mod_mul_mod, Nat.add_zero]
  rw [hshift, two_pow_eq n]
  rcases Nat.le_total (n / 8) bs.length with hle | hge
  · have hwidth : 256 ^ bs.length = 256 ^ kept.length * 256 ^ (n / 8) := by
      rw [← Nat.pow_add, hlength, Nat.sub_add_cancel hle]
    rw [hlength, Nat.sub_sub_self hle, hwidth, hlength, ← Nat.mul_mod_mul_right]
    congr 1
    ring
  · -- All bits leave on the left.
    have hnone : kept.length = 0 := hlength.trans (Nat.sub_eq_zero_of_le hge)
    have hzero : 256 ^ bs.length ∣ ofBigEndian bs * (256 ^ (n / 8) * 2 ^ (n % 8)) :=
      ((pow_dvd_pow 256 hge).mul_right _).mul_left _
    rw [hnone, Nat.pow_zero, Nat.mod_one, Nat.zero_mul, Nat.mod_eq_zero_of_dvd hzero]

/-! ### Both directions -/

/-- The ways to shift. -/
inductive Direction where
  | left
  | right

namespace Direction

/-- The opcode that shifts this way. -/
def opcode : Direction → Opcode
  | left => Opcode.lshift
  | right => Opcode.rshift

/-- The bytes shifted by a number of bits. -/
def shift : Direction → Bytes → Nat → Bytes
  | left => shiftLeft
  | right => shiftRight

/-- The number that `v`, written in `width` bytes, is shifted to by `n` bits. -/
def result : Direction → Nat → Nat → Nat → Nat
  | left, width, v, n => v * 2 ^ n % 2 ^ (8 * width)
  | right, _, v, n => v / 2 ^ n

variable (d : Direction) (bs : Bytes) (m n : Nat)

@[simp] theorem length_shift : (d.shift bs n).length = bs.length := by
  cases d
  · exact length_shiftLeft bs n
  · exact length_shiftRight bs n

theorem ofBigEndian_shift :
    ofBigEndian (d.shift bs n) = d.result bs.length (ofBigEndian bs) n := by
  cases d
  · show ofBigEndian (shiftLeft bs n) = ofBigEndian bs * 2 ^ n % 2 ^ (8 * bs.length)
    rw [ofBigEndian_shiftLeft, Nat.pow_mul]
  · exact ofBigEndian_shiftRight bs n

/-- The bytes shifted are the shifted number in as many bytes. -/
theorem shift_eq_bigEndian :
    d.shift bs n = bigEndian bs.length (d.result bs.length (ofBigEndian bs) n) := by
  rw [← ofBigEndian_shift, ← d.length_shift bs n, bigEndian_ofBigEndian]

theorem result_result (width v : Nat) :
    d.result width (d.result width v m) n = d.result width v (m + n) := by
  cases d
  · show v * 2 ^ m % 2 ^ (8 * width) * 2 ^ n % _ = v * 2 ^ (m + n) % _
    rw [Nat.mod_mul_mod, Nat.mul_assoc, ← Nat.pow_add]
  · show v / 2 ^ m / 2 ^ n = v / 2 ^ (m + n)
    rw [Nat.div_div_eq_div_mul, ← Nat.pow_add]

/-- To shift twice is to shift by the sum. -/
theorem shift_shift : d.shift (d.shift bs m) n = d.shift bs (m + n) := by
  rw [shift_eq_bigEndian, length_shift, ofBigEndian_shift, result_result, ← shift_eq_bigEndian]

end Direction

/-! ### The two opcodes -/

section Opcodes

variable {setting : Setting} {script : List Chunk} {s : State} {count bs : Bytes}
  {vs : List Bytes} {n m : String} {ns : List String}

/-- What a shift makes of a count and a byte string. -/
theorem perform_shift (d : Direction) (hs : s.isExecuting)
    (hmain : s.main = ⟨count :: bs :: vs, n :: m :: ns⟩) :
    perform setting script (.ofOpcode d.opcode) s =
      if count.length ≤ setting.limits.numberLength then
        if 0 ≤ Number.value count ∧ Number.value count < UInt64.size then
          .next { s with
            main := Stack.push ⟨vs, ns⟩ (d.shift bs (Number.value count).toNat) }
        else .stop (.failed (.shiftOutOfRange (Number.value count)) s.calls)
      else .stop (.failed (.numberTooBig count.length setting.limits.numberLength) s.calls) := by
  have hrun : ∃ op, Instruction.ofOpcode d.opcode = .splice op ∧ op.run setting.limits s.main =
      (popCount setting.limits.numberLength .shiftOutOfRange s.main >>= fun p =>
        popValue p.2 >>= fun q => .ok (q.2.push (d.shift q.1 p.1))) := by
    cases d
    · exact ⟨.shiftLeft, rfl, rfl⟩
    · exact ⟨.shiftRight, rfl, rfl⟩
  obtain ⟨op, hop, hrun⟩ := hrun
  rw [perform_of_actsOnMain (by rw [hop]; rfl) hs, hop]
  show Move.ofExcept s ((op.run setting.limits s.main).map _) = _
  rw [hrun, hmain, popCount_cons]
  split_ifs <;> rfl

end Opcodes

/-- A shift leaves the bytes of a product or a quotient, whatever number of bits a 64 bit word can count;
any other count is refused.  Two shifts one after the other are one by the sum of their counts. -/
theorem shift_isExact (setting : Setting) (script : List Chunk) (s : State) (hs : s.isExecuting)
    (d : Direction) (count bs : Bytes) (vs : List Bytes) (n m : String) (ns : List String)
    (hmain : s.main = ⟨count :: bs :: vs, n :: m :: ns⟩) :
    (count.length ≤ setting.limits.numberLength →
      (∀ bits : Nat, Number.value count = bits → bits < UInt64.size →
        perform setting script (.ofOpcode d.opcode) s =
          .next { s with
            main := Stack.push ⟨vs, ns⟩
              (bigEndian bs.length (d.result bs.length (ofBigEndian bs) bits)) }) ∧
      (Number.value count < 0 ∨ (UInt64.size : Int) ≤ Number.value count →
        ∃ fault, fault.code = .invalidNumberRange ∧
          perform setting script (.ofOpcode d.opcode) s = .stop (.failed fault s.calls)) ∧
      ∀ (push : Chunk) (more both : Bytes), push.data = some more →
        more.length ≤ setting.limits.numberLength → both.length ≤ setting.limits.numberLength →
        0 ≤ Number.value count → 0 ≤ Number.value more →
        Number.value both = Number.value count + Number.value more →
        Number.value both < UInt64.size →
          performAll setting script [.ofOpcode d.opcode, push, .ofOpcode d.opcode] s =
            perform setting script (.ofOpcode d.opcode)
              { s with main := s.main.withValue 0 both }) ∧
    (setting.limits.numberLength < count.length → ∃ fault, fault.code = .numberTooBig ∧
      perform setting script (.ofOpcode d.opcode) s = .stop (.failed fault s.calls)) := by
  have hshift := @perform_shift setting script s count bs vs n m ns d hs hmain
  refine ⟨fun hcount => ⟨fun bits hvalue hword => ?_, fun hrange => ?_, ?_⟩, fun hlong => ?_⟩
  · rw [hshift, if_pos hcount, if_pos (by omega), hvalue, Int.toNat_natCast, d.shift_eq_bigEndian]
  · rw [hshift, if_pos hcount, if_neg (by omega)]
    exact ⟨_, rfl, rfl⟩
  · intro push more both hpush hmore hboth hcountpos hmorepos hsum hword
    -- The second count is pushed on what the first shift leaves, which is as long as before.
    have hfirst : perform setting script (.ofOpcode d.opcode) s =
        .next { s with
          main := Stack.push ⟨vs, ns⟩ (d.shift bs (Number.value count).toNat) } := by
      rw [hshift, if_pos hcount, if_pos (by omega)]
    have hmorerange : 0 ≤ Number.value more ∧ Number.value more < UInt64.size := by omega
    have hnext (t : State) (ht : t.isExecuting) : perform setting script push t =
        .next { t with main := t.main.push more } := by
      simp only [perform, ht, hpush]
      rfl
    rw [performAll, hfirst]
    show (perform setting script push _).andThen _ = _
    rw [hnext _ (by exact hs)]
    show performAll setting script [.ofOpcode d.opcode] _ = _
    rw [performAll_singleton, perform_shift d (by exact hs) rfl, if_pos hmore, if_pos hmorerange,
      perform_shift d (by exact hs) (by rw [hmain]; rfl), if_pos hboth, if_pos (by omega),
      d.shift_shift, hsum, Int.toNat_add hcountpos hmorepos]
  · rw [hshift, if_neg (Nat.not_le.mpr hlong)]
    exact ⟨_, rfl, rfl⟩

/-- Eleven bits, which is more than a byte, at once and as three and eight; and a count that takes 65 bits,
which is out of range, or no number where four bytes are the limit. -/
theorem shift_isExact_eleven_bits :
    let setting := Setting.ofFlags .afterGenesis .pushOnly none 0
    let narrow := Setting.ofFlags .beforeGenesis .pushOnly none 0
    let state (count : Bytes) : State :=
      { State.initial with main := ⟨[count, [0x01, 0x80, 0xff]], ["count", "bits"]⟩ }
    let wide : Bytes := List.replicate 8 0x00 ++ [0x01]
    (state [0x0b]).isExecuting ∧ Number.value wide = (UInt64.size : Nat) ∧
      perform setting [] (.ofOpcode Opcode.lshift) (state [0x0b]) =
        .next { State.initial with main := Stack.empty.push [0x07, 0xf8, 0x00] } ∧
      perform setting [] (.ofOpcode Opcode.rshift) (state [0x0b]) =
        .next { State.initial with main := Stack.empty.push [0x00, 0x00, 0x30] } ∧
      performAll setting []
          [.ofOpcode Opcode.lshift, ⟨0x01, some [0x08], 1, 0⟩, .ofOpcode Opcode.lshift]
          (state [0x03]) =
        perform setting [] (.ofOpcode Opcode.lshift) (state [0x0b]) ∧
      (∃ fault, fault.code = .invalidNumberRange ∧
        perform setting [] (.ofOpcode Opcode.rshift) (state wide) = .stop (.failed fault [])) ∧
      ∃ fault, fault.code = .numberTooBig ∧
        perform narrow [] (.ofOpcode Opcode.rshift) (state wide) = .stop (.failed fault []) := by
  intro setting narrow state wide
  have hexact (d : Direction) (count : Bytes) :=
    shift_isExact setting [] (state count) rfl d count [0x01, 0x80, 0xff] [] "count" "bits" [] rfl
  obtain ⟨hleft, -⟩ := hexact .left [0x0b]
  obtain ⟨hright, -⟩ := hexact .right [0x0b]
  obtain ⟨htwice, -⟩ := hexact .left [0x03]
  obtain ⟨hwide, -⟩ := hexact .right wide
  obtain ⟨-, hlong⟩ := shift_isExact narrow [] (state wide) rfl .right wide [0x01, 0x80, 0xff] []
    "count" "bits" [] rfl
  have hvalue : Number.value wide = (UInt64.size : Nat) := by decide +kernel
  exact ⟨rfl, hvalue, (hleft (by decide)).1 11 (by decide) (by decide),
    (hright (by decide)).1 11 (by decide) (by decide),
    (htwice (by decide)).2.2 _ [0x08] [0x0b] rfl (by decide) (by decide) (by decide) (by decide)
      (by decide) (by decide), (hwide (by decide)).2.1 (.inr hvalue.ge), hlong (by decide)⟩

end Machine

end Utxo
