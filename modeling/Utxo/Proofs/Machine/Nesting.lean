/-
How conditionals nest.

The steps of a script are a word with brackets: `OP_IF` and `OP_NOTIF` open a conditional and
`OP_ENDIF` closes one.  A conditional is open behind some steps if those since it was opened have
closed only what they opened themselves (`IsOpen`).  What is open can also be kept on a stack
(`openConditionals`), which is what a machine does.

* **`getElem?_openConditionals`** — the stack holds what is open, innermost first, each with the
  number of times that it has been turned.
-/
import Utxo.Machine.Run
import Mathlib.Data.List.Basic
import Mathlib.Data.List.Induction
import Mathlib.Logic.Function.Iterate

namespace Utxo.Machine

/-! ### Steps as brackets -/

namespace Step

/-- What the opcode of a step means. -/
def instruction (k : Step) : Instruction := .ofOpcode k.chunk.op

/-- Whether the chunk is executed. -/
def executed (k : Step) : Bool := k.before.isExecuting

/-- By how much a step raises the number of open conditionals. -/
def rise (k : Step) : Int :=
  match k.instruction with
  | .conditional (.opening _) => 1
  | .conditional .closing => -1
  | _ => 0

/-- Whether the value that an opening takes from the stack calls for what is inside. -/
def condition (k : Step) : Bool :=
  match k.instruction, k.before.main.values with
  | .conditional (.opening negated), value :: _ => Number.truth value != negated
  | _, _ => false

end Step

/-- By how much steps raise the number of open conditionals. -/
def level : List Step → Int
  | [] => 0
  | k :: rest => k.rise + level rest

/-- How many steps are an `OP_ELSE` at level zero, if `n` is the level before them. -/
def turnsAtZero (n : Int) : List Step → Nat
  | [] => 0
  | k :: rest =>
    (if k.instruction = .conditional .turn ∧ n = 0 then 1 else 0) + turnsAtZero (n + k.rise) rest

/-- How many times a conditional has been turned by the steps since it was opened. -/
def ownTurns (since : List Step) : Nat := turnsAtZero 0 since

/-- A conditional that a step opened is open behind `before`: those since have closed only what they
opened themselves. -/
structure IsOpen (before : List Step) (opening : Step) (since : List Step) : Prop where
  split : ∃ earlier, before = earlier ++ opening :: since
  opens : ∃ negated, opening.instruction = .conditional (.opening negated)
  unclosed : ∀ n, 0 ≤ level (since.take n)

/-- An open conditional is taken: its opening was executed, and the condition that it found holds,
turned round at each `OP_ELSE` of the conditional. -/
def IsTaken (opening : Step) (since : List Step) : Prop :=
  opening.executed ∧ not^[ownTurns since] opening.condition

/-! ### One more step -/

variable {steps since : List Step} {j k : Step} {n : Nat}

@[simp] theorem level_nil : level [] = 0 := rfl

@[simp] theorem ownTurns_nil : ownTurns [] = 0 := rfl

theorem level_append_singleton (steps : List Step) (k : Step) :
    level (steps ++ [k]) = level steps + k.rise := by
  induction steps with
  | nil => exact Int.add_comm _ _
  | cons j steps ih => rw [List.cons_append, level, level, ih, Int.add_assoc]

theorem turnsAtZero_append_singleton (n : Int) (steps : List Step) (k : Step) :
    turnsAtZero n (steps ++ [k]) = turnsAtZero n steps +
      if k.instruction = .conditional .turn ∧ n + level steps = 0 then 1 else 0 := by
  induction steps generalizing n with
  | nil => simp [turnsAtZero]
  | cons j steps ih =>
    have hlevel : n + j.rise + level steps = n + level (j :: steps) := by
      simp [level, Int.add_assoc]
    rw [List.cons_append, turnsAtZero, ih, hlevel, turnsAtZero, Nat.add_assoc]

theorem ownTurns_append_singleton (since : List Step) (k : Step) :
    ownTurns (since ++ [k]) = ownTurns since +
      if k.instruction = .conditional .turn ∧ level since = 0 then 1 else 0 := by
  rw [ownTurns, turnsAtZero_append_singleton, ownTurns, Int.zero_add]

theorem IsOpen.level_nonneg (h : IsOpen steps j since) : 0 ≤ level since := by
  have hall := h.unclosed since.length
  rwa [List.take_length] at hall

theorem not_isOpen_nil : ¬IsOpen [] j since := by
  rintro ⟨⟨earlier, h⟩, -, -⟩
  simp at h

theorem unclosed_append_singleton_iff :
    (∀ n, 0 ≤ level ((since ++ [k]).take n)) ↔
      (∀ n, 0 ≤ level (since.take n)) ∧ 0 ≤ level since + k.rise := by
  constructor
  · intro h
    refine ⟨fun n => ?_, ?_⟩
    · -- An initial part of the steps is one of those with the new step as well.
      have hn := h (min n since.length)
      rwa [List.take_append_of_le_length (Nat.min_le_right _ _), ← List.take_take,
        List.take_length] at hn
    · have hall := h (since ++ [k]).length
      rwa [List.take_length, level_append_singleton] at hall
  · rintro ⟨h, hall⟩ n
    by_cases hn : n ≤ since.length
    · rw [List.take_append_of_le_length hn]
      exact h n
    · rw [List.take_of_length_le (by simp; omega), level_append_singleton]
      exact hall

/-- Behind one more step, what is open has been opened by it, or was open and is not closed. -/
theorem isOpen_append_singleton_iff :
    IsOpen (steps ++ [k]) j since ↔
      (since = [] ∧ j = k ∧ ∃ negated, k.instruction = .conditional (.opening negated)) ∨
        ∃ since', since = since' ++ [k] ∧ IsOpen steps j since' ∧ 0 ≤ level since' + k.rise := by
  constructor
  · rintro ⟨⟨earlier, hsplit⟩, hopens, hunclosed⟩
    rcases List.eq_nil_or_concat' since with rfl | ⟨since', k', rfl⟩
    · obtain ⟨-, hk⟩ := List.append_inj' hsplit rfl
      obtain rfl : k = j := by simpa using hk
      exact .inl ⟨rfl, rfl, hopens⟩
    · have hsplit' : steps ++ [k] = (earlier ++ j :: since') ++ [k'] := by simpa using hsplit
      obtain ⟨rfl, hk⟩ := List.append_inj' hsplit' rfl
      obtain rfl : k = k' := by simpa using hk
      obtain ⟨hunclosed', hall⟩ := unclosed_append_singleton_iff.mp hunclosed
      exact .inr ⟨since', rfl, ⟨⟨earlier, rfl⟩, hopens, hunclosed'⟩, hall⟩
  · rintro (⟨rfl, rfl, hopens⟩ | ⟨since', rfl, ⟨⟨earlier, rfl⟩, hopens, hunclosed⟩, hall⟩)
    · exact ⟨⟨steps, rfl⟩, hopens, by simp⟩
    · refine ⟨⟨earlier, by simp⟩, hopens, ?_⟩
      exact unclosed_append_singleton_iff.mpr ⟨hunclosed, hall⟩

/-! ### What is open, as a stack -/

/-- The open conditionals behind one more step, each with the number of its turns. -/
def nest (stack : List (Step × Nat)) (k : Step) : List (Step × Nat) :=
  match k.instruction with
  | .conditional (.opening _) => (k, 0) :: stack
  | .conditional .turn => stack.modifyHead fun o => (o.1, o.2 + 1)
  | .conditional .closing => stack.tail
  | _ => stack

/-- The open conditionals behind steps, innermost first, each with the number of its turns. -/
def openConditionals (steps : List Step) : List (Step × Nat) := steps.foldl nest []

theorem openConditionals_append_singleton (steps : List Step) (k : Step) :
    openConditionals (steps ++ [k]) = nest (openConditionals steps) k := by
  rw [openConditionals, List.foldl_append]
  rfl

/-- Behind one more step, a conditional at level `i` has been opened by it, or was at the level from
which the step rises or falls to `i`. -/
theorem exists_isOpen_append_singleton_iff {i : Nat} :
    (∃ since, IsOpen (steps ++ [k]) j since ∧ level since = i ∧ ownTurns since = n) ↔
      ((∃ negated, k.instruction = .conditional (.opening negated)) ∧ j = k ∧ i = 0 ∧ n = 0) ∨
        ∃ since, IsOpen steps j since ∧ level since + k.rise = i ∧
          ownTurns (since ++ [k]) = n := by
  simp only [isOpen_append_singleton_iff]
  constructor
  · rintro ⟨since, ⟨rfl, rfl, hopens⟩ | ⟨since', rfl, h, -⟩, hlevel, hturns⟩
    · exact .inl ⟨hopens, rfl, by simpa using hlevel.symm, by simpa using hturns.symm⟩
    · rw [level_append_singleton] at hlevel
      exact .inr ⟨since', h, hlevel, hturns⟩
  · rintro (⟨hopens, rfl, rfl, rfl⟩ | ⟨since, h, hlevel, hturns⟩)
    · exact ⟨[], .inl ⟨rfl, rfl, hopens⟩, rfl, rfl⟩
    · refine ⟨since ++ [k], .inr ⟨since, rfl, h, by omega⟩, ?_, hturns⟩
      rw [level_append_singleton, hlevel]

/-- The stack holds what is open, innermost first, each with the number of times that it has been
turned. -/
theorem getElem?_openConditionals {i : Nat} :
    (openConditionals steps)[i]? = some (j, n) ↔
      ∃ since, IsOpen steps j since ∧ level since = i ∧ ownTurns since = n := by
  -- From the last step backwards, by what it does to the stack.
  induction steps using List.reverseRecOn generalizing i j n with
  | nil =>
    constructor
    · intro h
      simp [openConditionals] at h
    · rintro ⟨since, h, -⟩
      exact absurd h not_isOpen_nil
  | append_singleton steps k ih =>
    rw [openConditionals_append_singleton, exists_isOpen_append_singleton_iff]
    simp only [ownTurns_append_singleton, nest, Step.rise]
    cases k.instruction with
    | conditional op =>
      cases op with
      | opening negated =>
        cases i with
        | zero =>
          constructor
          · rintro ⟨⟩
            exact .inl ⟨⟨negated, rfl⟩, rfl, rfl, rfl⟩
          · rintro (⟨-, rfl, -, rfl⟩ | ⟨since, h, hlevel, -⟩)
            · rfl
            · -- What was open before is not innermost any more.
              have hzero : level since + 1 = 0 := hlevel
              have := h.level_nonneg
              omega
        | succ i =>
          rw [List.getElem?_cons_succ, ih]
          simp
      | turn =>
        cases i with
        | zero =>
          simp only [List.getElem?_modifyHead, if_true, Option.map_eq_some_iff]
          constructor
          · rintro ⟨⟨j', m⟩, hm, ⟨⟩⟩
            obtain ⟨since, h, hlevel, rfl⟩ := ih.mp hm
            exact .inr ⟨since, h, by simpa using hlevel, by simp [hlevel]⟩
          · rintro (⟨⟨_, ⟨⟩⟩, -⟩ | ⟨since, h, hlevel, rfl⟩)
            have hzero : level since = 0 := by simpa using hlevel
            refine ⟨(j, ownTurns since), ih.mpr ⟨since, h, hzero, rfl⟩, ?_⟩
            simp [hzero]
        | succ i =>
          rw [List.getElem?_modifyHead, if_neg (Nat.succ_ne_zero i), ih]
          -- A conditional further out is not turned.
          have houter (since : List Step) (hlevel : level since = (i + 1 : Nat)) :
              ¬(Instruction.conditional .turn = .conditional .turn ∧ level since = 0) := by
            omega
          constructor
          · rintro ⟨since, h, hlevel, rfl⟩
            refine .inr ⟨since, h, by simpa using hlevel, ?_⟩
            rw [if_neg (houter since hlevel), Nat.add_zero]
          · rintro (⟨⟨_, ⟨⟩⟩, -⟩ | ⟨since, h, hlevel, rfl⟩)
            have hlevel' : level since = (i + 1 : Nat) := by simpa using hlevel
            refine ⟨since, h, hlevel', ?_⟩
            rw [if_neg (houter since hlevel'), Nat.add_zero]
      | closing =>
        have hlevel (since : List Step) : level since = (i + 1 : Nat) ↔ level since + -1 = i := by
          omega
        rw [List.getElem?_tail, ih]
        simp only [hlevel]
        simp
    | _ =>
      rw [ih]
      simp

/-- What is open is on the stack. -/
theorem mem_openConditionals_iff :
    (j, n) ∈ openConditionals steps ↔ ∃ since, IsOpen steps j since ∧ ownTurns since = n := by
  rw [List.mem_iff_getElem?]
  simp only [getElem?_openConditionals]
  constructor
  · rintro ⟨i, since, h, -, hturns⟩
    exact ⟨since, h, hturns⟩
  · rintro ⟨since, h, hturns⟩
    exact ⟨(level since).toNat, since, h, (Int.toNat_of_nonneg h.level_nonneg).symm, hturns⟩

theorem openConditionals_eq_nil_iff :
    openConditionals steps = [] ↔ ∀ opening since, ¬IsOpen steps opening since := by
  rw [List.eq_nil_iff_forall_not_mem]
  constructor
  · intro h opening since hopen
    exact h _ (mem_openConditionals_iff.mpr ⟨since, hopen, rfl⟩)
  · rintro h ⟨opening, n⟩ hmem
    obtain ⟨since, hopen, -⟩ := mem_openConditionals_iff.mp hmem
    exact h opening since hopen

end Utxo.Machine
