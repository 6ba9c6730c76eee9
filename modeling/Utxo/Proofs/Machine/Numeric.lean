/-
Opcodes that compute with numbers.

Numbers are taken from the stack one after the other, so what is done with the top values as numbers
(`ReadsNumbers`) is the same whatever their forms are.  What an opcode leaves is the shortest form of its
result (`Leaves`), and integers are of any size, so the result is exact.

* **`ReadsNumbers.pop`** — to take a number and do something that reads `n` numbers is to read `n + 1`;
* **`step_withValue`** — an operand in another form makes no difference to a step;
* **`perform_unary`**, **`perform_binary`** — what an opcode leaves is what is computed from its operands;
* **`numeric_isExact`** — so numeric opcodes compute with integers, and a quotient and a remainder divide
  with the remainder on the side of the dividend.
-/
import Utxo.Proofs.Machine.Capacity
import Utxo.Proofs.Machine.Sequence

namespace Utxo

/-- Divides two numbers, without the fraction. -/
abbrev Opcode.div : Opcode := 0x96

/-- Takes the remainder of two numbers. -/
abbrev Opcode.mod : Opcode := 0x97

/-- Tells whether a number is between two others. -/
abbrev Opcode.within : Opcode := 0xa5

/-! ### Shortest forms -/

/-- The byte string stands for the number, and any other one that does is longer. -/
def Number.IsShortest (n : Int) (bs : Bytes) : Prop :=
  value bs = n ∧ ∀ form, value form = n → form = bs ∨ bs.length < form.length

theorem Number.isShortest_encode (n : Int) : IsShortest n (encode n) := by
  refine ⟨value_encode n, ?_⟩
  rintro form rfl
  rcases Nat.lt_or_ge (encode (value form)).length form.length with hlt | hge
  · exact .inr hlt
  · exact .inl (eq_encode_of_length_le hge)

/-- The stack with another value in place of the one that has `i` above it. -/
def Stack.withValue (s : Stack) (i : Nat) (v : Bytes) : Stack := ⟨s.values.set i v, s.names⟩

namespace Machine

/-! ### Operands in other forms -/

/-- The `n` top values are read as numbers: in another form that is not too long, they make no
difference. -/
def ReadsNumbers {α : Type} (limit n : Nat) (f : Stack → α) : Prop :=
  ∀ (s : Stack) (i : Nat) (v w : Bytes), i < n → s.values[i]? = some v → v.length ≤ limit →
    w.length ≤ limit → Number.value w = Number.value v → f (s.withValue i w) = f s

theorem popNumber_of_no_name (limit : Nat) (values : List Bytes) :
    popNumber limit ⟨values, []⟩ = .error (.invalidIndex 0 values.length) := by
  cases values <;> rfl

namespace ReadsNumbers

variable {α β : Type} {limit n : Nat}

theorem zero (f : Stack → α) : ReadsNumbers limit 0 f :=
  fun _ _ _ _ hi => absurd hi (Nat.not_lt_zero _)

theorem bind {f : Stack → Except Fault α} (hf : ReadsNumbers limit n f)
    (g : α → Except Fault β) : ReadsNumbers limit n fun s => f s >>= g :=
  fun s i v w hi hv hvlimit hwlimit hvalue =>
    congrArg (· >>= g) (hf s i v w hi hv hvlimit hwlimit hvalue)

/-- To take a number and do something that reads `n` numbers is to read one more. -/
theorem pop {f : Int × Stack → Except Fault α} (hf : ∀ m, ReadsNumbers limit n fun s => f (m, s)) :
    ReadsNumbers limit (n + 1) fun s => popNumber limit s >>= f := by
  rintro ⟨values, names⟩ i v w hi hv hvlimit hwlimit hvalue
  -- Without a name there is no number to take; otherwise it is the one in another form, or one above it.
  match names, values, i, hv with
  | [], values, i, _ =>
    show popNumber limit ⟨values.set i w, []⟩ >>= f = popNumber limit ⟨values, []⟩ >>= f
    rw [popNumber_of_no_name, popNumber_of_no_name, List.length_set]
  | name :: names, u :: values, 0, hv =>
    obtain rfl : u = v := Option.some.inj hv
    show popNumber limit ⟨w :: values, name :: names⟩ >>= f =
      popNumber limit ⟨u :: values, name :: names⟩ >>= f
    rw [popNumber_cons, popNumber_cons, if_pos hvlimit, if_pos hwlimit, hvalue]
  | name :: names, u :: values, i + 1, hv =>
    show popNumber limit ⟨u :: values.set i w, name :: names⟩ >>= f =
      popNumber limit ⟨u :: values, name :: names⟩ >>= f
    rw [popNumber_cons, popNumber_cons]
    split_ifs
    · exact hf _ ⟨values, names⟩ i v w (Nat.lt_of_succ_lt_succ hi) hv hvlimit hwlimit hvalue
    · rfl

end ReadsNumbers

/-- How many of the top values an instruction reads as numbers. -/
def Instruction.numericOperands : Instruction → Nat
  | unary _ | shuffle .pick | shuffle .roll | splice .split | splice .pad | splice .shiftLeft
  | splice .shiftRight => 1
  | binary _ | numEqualVerify => 2
  | within => 3
  | _ => 0

theorem popIndex_readsNumbers (limit : Nat) : ReadsNumbers limit 1 (popIndex limit) :=
  .pop fun _ => .zero _

theorem popCount_readsNumbers (limit : Nat) (outOfRange : Int → Fault) :
    ReadsNumbers limit 1 (popCount limit outOfRange) :=
  .pop fun _ => .zero _

theorem Binary.run_readsNumbers (limit : Nat) (op : Binary) : ReadsNumbers limit 2 (op.run limit) :=
  .pop fun _ => .pop fun _ => .zero _

variable {setting : Setting}

theorem Instruction.runOnMain_readsNumbers (instr : Instruction) :
    ReadsNumbers setting.limits.numberLength instr.numericOperands (instr.runOnMain setting) := by
  cases instr with
  | unary op => exact .pop fun _ => .zero _
  | binary op => exact op.run_readsNumbers _
  | numEqualVerify => exact (Binary.equal.run_readsNumbers _).bind _
  | within => exact .pop fun _ => .pop fun _ => .pop fun _ => .zero _
  | shuffle op =>
    cases op with
    | pick => exact (popIndex_readsNumbers _).bind _
    | roll => exact (popIndex_readsNumbers _).bind _
    | _ => exact .zero _
  | splice op =>
    cases op with
    | split => exact .pop fun _ => .zero _
    | pad => exact (popCount_readsNumbers _ _).bind _
    | shiftLeft => exact (popCount_readsNumbers _ _).bind _
    | shiftRight => exact (popCount_readsNumbers _ _).bind _
    | _ => exact .zero _
  | _ => exact .zero _

theorem Instruction.actsOnMain_of_numericOperands {instr : Instruction} {i : Nat}
    (h : i < instr.numericOperands) : instr.actsOnMain := by
  cases instr <;> first | rfl | exact absurd h (Nat.not_lt_zero i)

/-- An operand in another form makes no difference to a step. -/
theorem step_withValue {script : List Chunk} {op : Opcode} {s : State} {i : Nat} {v w : Bytes}
    (hs : s.isExecuting) (hi : i < (Instruction.ofOpcode op).numericOperands)
    (hv : s.main.values[i]? = some v) (hvlimit : v.length ≤ setting.limits.numberLength)
    (hwlimit : w.length ≤ setting.limits.numberLength) (hvalue : Number.value w = Number.value v) :
    step setting script (.ofOpcode op) { s with main := s.main.withValue i w } =
      step setting script (.ofOpcode op) s := by
  have hmain := Instruction.actsOnMain_of_numericOperands hi
  have hrun : (Instruction.ofOpcode op).runOnMain setting (s.main.withValue i w) =
      (Instruction.ofOpcode op).runOnMain setting s.main :=
    Instruction.runOnMain_readsNumbers _ _ i v w hi hv hvlimit hwlimit hvalue
  -- The main stack that differs is replaced, so the two moves are the same.
  have hboth : perform setting script (.ofOpcode op)
        (State.count { s with main := s.main.withValue i w } (.ofOpcode op)) =
      perform setting script (.ofOpcode op) (s.count (.ofOpcode op)) := by
    rw [perform_of_actsOnMain hmain (by exact hs), perform_of_actsOnMain hmain (by exact hs)]
    show Move.ofExcept _ (Except.map _ ((Instruction.ofOpcode op).runOnMain setting
      (s.main.withValue i w))) = _
    rw [hrun]
    show _ = Move.ofExcept _ (Except.map _ ((Instruction.ofOpcode op).runOnMain setting s.main))
    cases (Instruction.ofOpcode op).runOnMain setting s.main <;> rfl
  rw [step_eq, step_eq, hboth]
  rfl

/-! ### Results -/

/-- The move leaves the shortest form of a number on top of a stack, and changes nothing else. -/
def Leaves (s : State) (below : Stack) (n : Int) (m : Move) : Prop :=
  ∃ result, Number.IsShortest n result ∧ m = .next { s with main := below.push result }

/-- What opcodes compute from a number. -/
def unaryResults : List (Opcode × (Int → Int)) :=
  [(0x8b, fun a => a + 1),
   (0x8c, fun a => a - 1),
   (0x8f, fun a => -a),
   (0x90, fun a => |a|),
   (0x91, fun a => if a = 0 then 1 else 0),
   (0x92, fun a => if a = 0 then 0 else 1)]

/-- What opcodes compute from two numbers, the second of which is on top. -/
def binaryResults : List (Opcode × (Int → Int → Int)) :=
  [(0x93, fun a b => a + b),
   (0x94, fun a b => a - b),
   (0x95, fun a b => a * b),
   (0x9a, fun a b => if a ≠ 0 ∧ b ≠ 0 then 1 else 0),
   (0x9b, fun a b => if a ≠ 0 ∨ b ≠ 0 then 1 else 0),
   (0x9c, fun a b => if a = b then 1 else 0),
   (0x9e, fun a b => if a ≠ b then 1 else 0),
   (0x9f, fun a b => if a < b then 1 else 0),
   (0xa0, fun a b => if a > b then 1 else 0),
   (0xa1, fun a b => if a ≤ b then 1 else 0),
   (0xa2, fun a b => if a ≥ b then 1 else 0),
   (0xa3, fun a b => min a b),
   (0xa4, fun a b => max a b)]

theorem truthNumber_decide (p : Prop) [Decidable p] : truthNumber p = if p then 1 else 0 := by
  rw [truthNumber]
  split_ifs <;> simp_all

theorem exists_unary_of_mem {r : Opcode × (Int → Int)} (hr : r ∈ unaryResults) :
    ∃ op, Instruction.ofOpcode r.1 = .unary op ∧ ∀ a, op.apply a = r.2 a := by
  simp only [unaryResults, List.mem_cons, List.not_mem_nil, or_false] at hr
  rcases hr with rfl | rfl | rfl | rfl | rfl | rfl
  · exact ⟨.increment, rfl, fun _ => rfl⟩
  · exact ⟨.decrement, rfl, fun _ => rfl⟩
  · exact ⟨.negate, rfl, fun _ => rfl⟩
  · exact ⟨.abs, rfl, fun a => Int.natCast_natAbs a⟩
  · exact ⟨.not, rfl, fun _ => truthNumber_decide _⟩
  · refine ⟨.isNonzero, rfl, fun a => (truthNumber_decide _).trans ?_⟩
    exact ite_not _ _ _

theorem exists_binary_of_mem {r : Opcode × (Int → Int → Int)} (hr : r ∈ binaryResults) :
    ∃ op, Instruction.ofOpcode r.1 = .binary op ∧ ∀ a b, op.apply a b = .ok (r.2 a b) := by
  simp only [binaryResults, List.mem_cons, List.not_mem_nil, or_false] at hr
  rcases hr with rfl | rfl | rfl | rfl | rfl | rfl | rfl | rfl | rfl | rfl | rfl | rfl | rfl
  · exact ⟨.add, rfl, fun _ _ => rfl⟩
  · exact ⟨.sub, rfl, fun _ _ => rfl⟩
  · exact ⟨.mul, rfl, fun _ _ => rfl⟩
  · exact ⟨.boolAnd, rfl, fun a b => congrArg Except.ok (by simp [truthNumber])⟩
  · exact ⟨.boolOr, rfl, fun a b => congrArg Except.ok (by simp [truthNumber])⟩
  · exact ⟨.equal, rfl, fun _ _ => congrArg Except.ok (truthNumber_decide _)⟩
  · exact ⟨.notEqual, rfl, fun _ _ => congrArg Except.ok (truthNumber_decide _)⟩
  · exact ⟨.less, rfl, fun _ _ => congrArg Except.ok (truthNumber_decide _)⟩
  · exact ⟨.greater, rfl, fun _ _ => congrArg Except.ok (truthNumber_decide _)⟩
  · exact ⟨.lessOrEqual, rfl, fun _ _ => congrArg Except.ok (truthNumber_decide _)⟩
  · exact ⟨.greaterOrEqual, rfl, fun _ _ => congrArg Except.ok (truthNumber_decide _)⟩
  · exact ⟨.min, rfl, fun _ _ => rfl⟩
  · exact ⟨.max, rfl, fun _ _ => rfl⟩

section Operands

variable {script : List Chunk} {s : State} {op : Opcode} {a b c : Bytes} {vs : List Bytes}
  {n m k : String} {ns : List String}

theorem leaves_of_runOnMain {below : Stack} {i : Int} (hs : s.isExecuting)
    (hop : (Instruction.ofOpcode op).actsOnMain)
    (hrun : (Instruction.ofOpcode op).runOnMain setting s.main =
      .ok (below.push (Number.encode i))) :
    Leaves s below i (perform setting script (.ofOpcode op) s) := by
  refine ⟨Number.encode i, Number.isShortest_encode i, ?_⟩
  rw [perform_of_actsOnMain hop hs, hrun]
  rfl

theorem Unary.run_cons (limit : Nat) (f : Unary) (ha : a.length ≤ limit) :
    f.run limit ⟨a :: vs, n :: ns⟩ =
      .ok (Stack.push ⟨vs, ns⟩ (Number.encode (f.apply (Number.value a)))) := by
  rw [Unary.run, popNumber_cons, if_pos ha]
  rfl

theorem Binary.run_cons (limit : Nat) (f : Binary) (ha : a.length ≤ limit) (hb : b.length ≤ limit) :
    f.run limit ⟨b :: a :: vs, n :: m :: ns⟩ =
      (f.apply (Number.value a) (Number.value b)).map fun i =>
        Stack.push ⟨vs, ns⟩ (Number.encode i) := by
  have hrun : f.run limit ⟨b :: a :: vs, n :: m :: ns⟩ =
      (f.apply (Number.value a) (Number.value b) >>= fun i =>
        .ok (Stack.push ⟨vs, ns⟩ (Number.encode i))) := by
    rw [Binary.run, popNumber_cons, if_pos hb]
    show popNumber limit ⟨a :: vs, m :: ns⟩ >>= _ = _
    rw [popNumber_cons, if_pos ha]
    rfl
  rw [hrun]
  cases f.apply (Number.value a) (Number.value b) <;> rfl

theorem runWithin_cons (limit : Nat) (ha : a.length ≤ limit) (hb : b.length ≤ limit)
    (hc : c.length ≤ limit) :
    runWithin limit ⟨c :: b :: a :: vs, n :: m :: k :: ns⟩ =
      .ok (Stack.push ⟨vs, ns⟩ (Number.encode (truthNumber
        (Number.value b ≤ Number.value a && Number.value a < Number.value c)))) := by
  rw [runWithin, popNumber_cons, if_pos hc]
  show popNumber limit ⟨b :: a :: vs, m :: k :: ns⟩ >>= _ = _
  rw [popNumber_cons, if_pos hb]
  show popNumber limit ⟨a :: vs, k :: ns⟩ >>= _ = _
  rw [popNumber_cons, if_pos ha]
  rfl

theorem perform_unary (hs : s.isExecuting) (hmain : s.main = ⟨a :: vs, n :: ns⟩)
    (ha : a.length ≤ setting.limits.numberLength) {r : Opcode × (Int → Int)}
    (hr : r ∈ unaryResults) :
    Leaves s ⟨vs, ns⟩ (r.2 (Number.value a)) (perform setting script (.ofOpcode r.1) s) := by
  obtain ⟨f, hop, happly⟩ := exists_unary_of_mem hr
  refine leaves_of_runOnMain hs (by rw [hop]; rfl) ?_
  rw [hop, hmain, ← happly]
  exact Unary.run_cons _ f ha

theorem perform_binary (hs : s.isExecuting) (hmain : s.main = ⟨b :: a :: vs, n :: m :: ns⟩)
    (ha : a.length ≤ setting.limits.numberLength) (hb : b.length ≤ setting.limits.numberLength)
    {f : Binary} (hop : Instruction.ofOpcode op = .binary f) {i : Int}
    (happly : f.apply (Number.value a) (Number.value b) = .ok i) :
    Leaves s ⟨vs, ns⟩ i (perform setting script (.ofOpcode op) s) := by
  refine leaves_of_runOnMain hs (by rw [hop]; rfl) ?_
  rw [hop, hmain]
  refine (Binary.run_cons _ f ha hb).trans ?_
  rw [happly]
  rfl

/-- Whatever form a divisor of zero has, there is nothing to be divided by. -/
theorem perform_divideByZero (hs : s.isExecuting) (hmain : s.main = ⟨b :: a :: vs, n :: m :: ns⟩)
    (ha : a.length ≤ setting.limits.numberLength) (hb : b.length ≤ setting.limits.numberLength)
    {f : Binary} (hop : Instruction.ofOpcode op = .binary f)
    (happly : f.apply (Number.value a) (Number.value b) = .error .divideByZero) :
    perform setting script (.ofOpcode op) s = .stop (.failed .divideByZero s.calls) := by
  rw [perform_of_actsOnMain (by rw [hop]; rfl) hs, hop, hmain]
  show Move.ofExcept s ((f.run _ _).map _) = _
  rw [Binary.run_cons _ f ha hb, happly]
  rfl

theorem perform_within (hs : s.isExecuting)
    (hmain : s.main = ⟨c :: b :: a :: vs, n :: m :: k :: ns⟩)
    (ha : a.length ≤ setting.limits.numberLength) (hb : b.length ≤ setting.limits.numberLength)
    (hc : c.length ≤ setting.limits.numberLength) :
    Leaves s ⟨vs, ns⟩
      (if Number.value b ≤ Number.value a ∧ Number.value a < Number.value c then 1 else 0)
      (perform setting script (.ofOpcode Opcode.within) s) := by
  refine leaves_of_runOnMain hs rfl ?_
  rw [hmain, ← truthNumber_decide, Bool.decide_and]
  exact runWithin_cons _ ha hb hc

end Operands

/-- A quotient without its fraction leaves a remainder on the side of the dividend. -/
theorem tmod_side (a b : Int) (hb : b ≠ 0) :
    a = b * a.tdiv b + a.tmod b ∧ |a.tmod b| < |b| ∧
      (a.tmod b = 0 ∨ (a.tmod b).sign = a.sign) := by
  refine ⟨(Int.mul_tdiv_add_tmod a b).symm, ?_, ?_⟩
  · have hlt : (a.tmod b).natAbs < b.natAbs := by
      rw [Int.natAbs_tmod]
      exact Nat.mod_lt _ (Int.natAbs_pos.mpr hb)
    rw [Int.abs_eq_natAbs, Int.abs_eq_natAbs]
    exact Int.ofNat_lt.mpr hlt
  · rw [← Int.sign_eq_zero_iff_zero, Int.sign_tmod]
    split_ifs
    · exact .inl rfl
    · exact .inr rfl

/-- An operand of a numeric opcode in another form makes no difference.  What the opcodes leave is the
shortest form of the sum, the product, the truth value and so on of the integers, whatever their size.
A quotient and a remainder make up the dividend, and the remainder is smaller than the divisor and on the
side of the dividend; by zero in any form nothing is divided. -/
theorem numeric_isExact (setting : Setting) (script : List Chunk) (s : State)
    (hs : s.isExecuting) :
    let limit := setting.limits.numberLength
    (∀ (op : Opcode) (i : Nat) (v w : Bytes), i < (Instruction.ofOpcode op).numericOperands →
      s.main.values[i]? = some v → v.length ≤ limit → w.length ≤ limit →
        Number.value w = Number.value v →
          step setting script (.ofOpcode op) { s with main := s.main.withValue i w } =
            step setting script (.ofOpcode op) s) ∧
    (∀ a vs n ns, s.main = ⟨a :: vs, n :: ns⟩ → a.length ≤ limit →
      ∀ r ∈ unaryResults,
        Leaves s ⟨vs, ns⟩ (r.2 (Number.value a)) (perform setting script (.ofOpcode r.1) s)) ∧
    (∀ a b vs n m ns, s.main = ⟨b :: a :: vs, n :: m :: ns⟩ → a.length ≤ limit →
      b.length ≤ limit →
        (∀ r ∈ binaryResults,
          Leaves s ⟨vs, ns⟩ (r.2 (Number.value a) (Number.value b))
            (perform setting script (.ofOpcode r.1) s)) ∧
        (Number.value b ≠ 0 → ∃ q r : Int,
          Leaves s ⟨vs, ns⟩ q (perform setting script (.ofOpcode Opcode.div) s) ∧
            Leaves s ⟨vs, ns⟩ r (perform setting script (.ofOpcode Opcode.mod) s) ∧
            Number.value a = Number.value b * q + r ∧ |r| < |Number.value b| ∧
            (r = 0 ∨ r.sign = (Number.value a).sign)) ∧
        (Number.value b = 0 →
          perform setting script (.ofOpcode Opcode.div) s =
              .stop (.failed .divideByZero s.calls) ∧
            perform setting script (.ofOpcode Opcode.mod) s =
              .stop (.failed .divideByZero s.calls))) ∧
    ∀ a b c vs n m k ns, s.main = ⟨c :: b :: a :: vs, n :: m :: k :: ns⟩ → a.length ≤ limit →
      b.length ≤ limit → c.length ≤ limit →
        Leaves s ⟨vs, ns⟩
          (if Number.value b ≤ Number.value a ∧ Number.value a < Number.value c then 1 else 0)
          (perform setting script (.ofOpcode Opcode.within) s) := by
  intro limit
  refine ⟨fun op i v w hi hv hvlimit hwlimit hvalue =>
      step_withValue hs hi hv hvlimit hwlimit hvalue,
    fun a vs n ns hmain ha r hr => perform_unary hs hmain ha hr,
    fun a b vs n m ns hmain ha hb => ⟨fun r hr => ?_, fun hne => ?_, fun hzero => ?_⟩,
    fun a b c vs n m k ns hmain ha hb hc => perform_within hs hmain ha hb hc⟩
  · obtain ⟨f, hop, happly⟩ := exists_binary_of_mem hr
    exact perform_binary hs hmain ha hb hop (happly _ _)
  · exact ⟨_, _, perform_binary (f := .div) hs hmain ha hb rfl (if_neg hne),
      perform_binary (f := .mod) hs hmain ha hb rfl (if_neg hne), tmod_side _ _ hne⟩
  · exact ⟨perform_divideByZero (f := .div) hs hmain ha hb rfl (if_pos hzero),
      perform_divideByZero (f := .mod) hs hmain ha hb rfl (if_pos hzero)⟩

/-- Minus seven divided by two, which has a zero to spare, and by minus zero. -/
theorem numeric_isExact_minus_seven :
    let setting := Setting.ofFlags .afterGenesis .pushOnly none 0
    let s : State := { State.initial with main := ⟨[[0x02, 0x00], [0x87]], ["b", "a"]⟩ }
    let zero : State := { State.initial with main := ⟨[[0x80], [0x87]], ["b", "a"]⟩ }
    s.isExecuting ∧ zero.isExecuting ∧
      step setting [] (.ofOpcode Opcode.div) { s with main := s.main.withValue 0 [0x02] } =
        step setting [] (.ofOpcode Opcode.div) s ∧
      Leaves s .empty (-14) (perform setting [] (.ofOpcode 0x95) s) ∧
      (∃ q r : Int, Leaves s .empty q (perform setting [] (.ofOpcode Opcode.div) s) ∧
        Leaves s .empty r (perform setting [] (.ofOpcode Opcode.mod) s) ∧
        -7 = 2 * q + r ∧ |r| < |2| ∧ (r = 0 ∨ r.sign = -1)) ∧
      perform setting [] (.ofOpcode Opcode.mod) zero = .stop (.failed .divideByZero []) := by
  intro setting s zero
  obtain ⟨hform, -, hbinary, -⟩ := numeric_isExact setting [] s rfl
  obtain ⟨-, -, hzeros, -⟩ := numeric_isExact setting [] zero rfl
  obtain ⟨hresults, hdivided, -⟩ := hbinary [0x87] [0x02, 0x00] [] "b" "a" [] rfl (by decide)
    (by decide)
  obtain ⟨-, -, hnothing⟩ := hzeros [0x87] [0x80] [] "b" "a" [] rfl (by decide) (by decide)
  have hproduct : ((0x95, fun a b => a * b) : Opcode × (Int → Int → Int)) ∈ binaryResults :=
    List.mem_of_getElem? (rfl : binaryResults[2]? = some _)
  exact ⟨rfl, rfl, hform Opcode.div 0 [0x02, 0x00] [0x02] (by decide) rfl (by decide) (by decide)
    (by decide), hresults _ hproduct, hdivided (by decide), (hnothing (by decide)).2⟩

end Machine

end Utxo
