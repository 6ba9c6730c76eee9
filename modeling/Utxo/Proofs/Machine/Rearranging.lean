/-
Opcodes that rearrange slots.

Moving a slot to the top, copying one to the top and dropping the top one are partial maps of lists of
slots (`moveSlot`, `copySlot`, `dropSlot`).  Every opcode that moves, copies or drops slots is such a
map or several of them one after the other, although the opcodes take the stack apart in different ways.

* **`copyTop_yields`**, **`movePairUp_yields`** — to copy several slots, or to move two, is to copy or to
  move one, several times;
* **`rearranges_counted`** — what is done with a count of slots is done with a number that is pushed;
* **`Rearranges.append`** — what chunks do one after the other is composed;
* **`performAll_respelled`** — so each of these opcodes can be spelled with others, and fails on the same
  stacks.
-/
import Mathlib.Data.List.InsertIdx
import Utxo.Proofs.Machine.Capacity
import Utxo.Proofs.Machine.Pushing
import Utxo.Proofs.Machine.Sequence

namespace Utxo

/-- Copies the slot with as many slots above it as the top says. -/
abbrev Opcode.pick : Opcode := 0x79

/-- Moves the slot with as many slots above it as the top says. -/
abbrev Opcode.roll : Opcode := 0x7a

/-- Moves the top slot to the alt stack. -/
abbrev Opcode.toAlt : Opcode := 0x6b

/-- Moves the top slot of the alt stack back. -/
abbrev Opcode.fromAlt : Opcode := 0x6c

/-! ### Slots, top first -/

/-- The stack that has these slots, top first. -/
def Stack.ofSlotsDown (slots : List Slot) : Stack := ⟨slots.map (·.1), slots.map (·.2)⟩

namespace Stack

variable {slots : List Slot} {n : Nat}

@[simp] theorem depth_ofSlotsDown (slots : List Slot) : (ofSlotsDown slots).depth = slots.length := by
  rw [depth, ofSlotsDown, List.length_map]

theorem slot?_ofSlotsDown (slots : List Slot) (n : Nat) : (ofSlotsDown slots).slot? n = slots[n]? := by
  rw [slot?, ofSlotsDown, List.getElem?_map, List.getElem?_map]
  cases slots[n]? <;> rfl

theorem remove?_ofSlotsDown (slots : List Slot) (n : Nat) :
    (ofSlotsDown slots).remove? n =
      (slots[n]?).map fun slot => (slot, ofSlotsDown (slots.eraseIdx n)) := by
  rw [remove?, slot?_ofSlotsDown]
  simp only [ofSlotsDown, List.eraseIdx_map]

end Stack

namespace Machine

/-! ### Rearrangements -/

/-- The slots with a copy of the one that has `n` above it on top. -/
def copySlot (n : Nat) (slots : List Slot) : Option (List Slot) := (slots[n]?).map (· :: slots)

/-- The slots with the one that has `n` above it moved to the top, the others in their order. -/
def moveSlot (n : Nat) (slots : List Slot) : Option (List Slot) :=
  (slots[n]?).map (· :: slots.eraseIdx n)

/-- The slots without the top one. -/
def dropSlot : List Slot → Option (List Slot)
  | [] => none
  | _ :: slots => some slots

/-- One rearrangement and then another. -/
def thenDo (f g : List Slot → Option (List Slot)) (slots : List Slot) : Option (List Slot) :=
  (f slots).bind g

/-- A rearrangement done `n` times. -/
def times (n : Nat) (f : List Slot → Option (List Slot)) : List Slot → Option (List Slot) :=
  match n with
  | 0 => some
  | n + 1 => thenDo (times n f) f

variable {slots : List Slot} {n m : Nat}

/-- What is done `n + 1` times is done once and then `n` times. -/
theorem times_succ (n : Nat) (f : List Slot → Option (List Slot)) (slots : List Slot) :
    times (n + 1) f slots = (f slots).bind (times n f) := by
  induction n with
  | zero =>
    show f slots = (f slots).bind some
    exact (Option.bind_fun_some _).symm
  | succ n ih =>
    rw [times, thenDo, ih, Option.bind_assoc]
    rfl

theorem times_dropSlot (n : Nat) (slots : List Slot) :
    times n dropSlot slots = if n ≤ slots.length then some (slots.drop n) else none := by
  induction n with
  | zero => rfl
  | succ n ih =>
    rw [times, thenDo, ih]
    by_cases hlt : n + 1 ≤ slots.length
    · rw [if_pos (Nat.le_of_succ_le hlt), if_pos hlt, List.drop_eq_getElem_cons hlt]
      rfl
    · rw [if_neg hlt]
      split_ifs
      · rw [List.drop_eq_nil_of_le (Nat.le_of_lt_succ (Nat.lt_of_not_le hlt))]
        rfl
      · rfl

/-- To copy the slot with `m` above it several times is to copy the top slots from this one on. -/
theorem times_copySlot (hn : n ≤ m + 1) (hm : m < slots.length) :
    times n (copySlot m) slots = some ((slots.take (m + 1)).drop (m + 1 - n) ++ slots) := by
  induction n with
  | zero => simp [times]
  | succ n ih =>
    have hle : n ≤ m := Nat.le_of_succ_le_succ hn
    have hlength : ((slots.take (m + 1)).drop (m + 1 - n)).length = n := by
      rw [List.length_drop, List.length_take_of_le hm]
      omega
    have hlt : m - n < (slots.take (m + 1)).length := by
      rw [List.length_take_of_le hm]
      omega
    -- The copies made so far push the slots down, so the next one up is where the last one was.
    have hnext : ((slots.take (m + 1)).drop (m + 1 - n) ++ slots)[m]? =
        some (slots.take (m + 1))[m - n] := by
      rw [List.getElem?_append_right (by rw [hlength]; exact hle), hlength, List.getElem_take]
      exact List.getElem?_eq_getElem _
    rw [times, thenDo, ih (Nat.le_of_succ_le hn), Option.bind_some, copySlot, hnext,
      Nat.succ_sub_succ, List.drop_eq_getElem_cons hlt]
    rw [show m - n + 1 = m + 1 - n by omega]
    rfl

/-- To copy the lowest of the top slots, as many times, is to copy them all. -/
theorem times_copySlot_top (n : Nat) (slots : List Slot) :
    times (n + 1) (copySlot n) slots =
      if n + 1 ≤ slots.length then some (slots.take (n + 1) ++ slots) else none := by
  split_ifs with hle
  · rw [times_copySlot (Nat.le_refl _) hle, Nat.sub_self, List.drop_zero]
  · have hnone : copySlot n slots = none := by
      rw [copySlot, List.getElem?_eq_none (Nat.le_of_lt_succ (Nat.lt_of_not_le hle))]
      rfl
    rw [times_succ, hnone]
    rfl

/-! ### Results -/

/-- The computation has a result, which stands for this one; if there is none, it fails for want of
slots. -/
def Gives {α β : Type} (stands : α → β) (r : Except Fault β) : Option α → Prop
  | some a => r = .ok (stands a)
  | none => ∃ fault, fault.code = .invalidStackOperation ∧ r = .error fault

/-- The result is the stack of these slots; if there are none, it is a fault for want of slots. -/
abbrev Yields (r : Except Fault Stack) (o : Option (List Slot)) : Prop := Gives .ofSlotsDown r o

section Results

variable {α β : Type} {stands : α → β} {r : Except Fault β} {o : Option α}

theorem Gives.bind {f : β → Except Fault Stack} {g : α → Option (List Slot)}
    (hr : Gives stands r o) (hf : ∀ a, Yields (f (stands a)) (g a)) :
    Yields (r >>= f) (o.bind g) := by
  cases o with
  | some a =>
    obtain rfl : r = .ok (stands a) := hr
    exact hf a
  | none =>
    obtain ⟨fault, hcode, rfl⟩ := hr
    exact ⟨fault, hcode, rfl⟩

theorem Gives.map {f : β → Stack} {g : α → List Slot} (hr : Gives stands r o)
    (hf : ∀ a, f (stands a) = .ofSlotsDown (g a)) :
    Yields (r >>= fun b => .ok (f b)) (o.map g) := by
  rw [Option.map_eq_bind]
  exact hr.bind fun a => congrArg Except.ok (hf a)

end Results

theorem peek_gives (n : Nat) (slots : List Slot) :
    Gives id (peek n (.ofSlotsDown slots)) slots[n]? := by
  rw [peek, Stack.slot?_ofSlotsDown]
  cases slots[n]? with
  | some slot => rfl
  | none => exact ⟨_, rfl, rfl⟩

theorem takeOut_gives (n : Nat) (slots : List Slot) :
    Gives (Prod.map id Stack.ofSlotsDown) (takeOut n (.ofSlotsDown slots))
      ((slots[n]?).map fun slot => (slot, slots.eraseIdx n)) := by
  rw [takeOut, Stack.remove?_ofSlotsDown]
  cases slots[n]? with
  | some slot => rfl
  | none => exact ⟨_, rfl, rfl⟩

theorem need_yields {r : Except Fault Stack} {o : Option (List Slot)}
    (hr : n ≤ slots.length → Yields r o) (ho : ¬n ≤ slots.length → o = none) :
    Yields (need n (.ofSlotsDown slots) >>= fun _ => r) o := by
  rw [need, Stack.depth_ofSlotsDown]
  split_ifs with hle
  · exact hr hle
  · rw [ho hle]
    exact ⟨_, rfl, rfl⟩

/-! ### Opcodes on the main stack alone -/

theorem copyUp_yields (n : Nat) (slots : List Slot) :
    Yields (copyUp n (.ofSlotsDown slots)) (copySlot n slots) :=
  (peek_gives n slots).map (f := (Stack.ofSlotsDown slots).pushSlot) fun _ => rfl

theorem moveUp_yields (n : Nat) (slots : List Slot) :
    Yields (moveUp n (.ofSlotsDown slots)) (moveSlot n slots) := by
  have h := (takeOut_gives n slots).map
    (f := fun r => r.2.pushSlot r.1) (g := fun r => r.1 :: r.2) fun _ => rfl
  rwa [Option.map_map] at h

theorem dropTop_yields (n : Nat) (slots : List Slot) :
    Yields (dropTop n (.ofSlotsDown slots)) (times n dropSlot slots) := by
  rw [times_dropSlot]
  refine need_yields (fun hle => ?_) fun hle => if_neg hle
  rw [if_pos hle]
  simp only [Stack.ofSlotsDown, ← List.map_drop]
  rfl

/-- To copy several slots from the top is to copy the lowest of them, as many times. -/
theorem copyTop_yields (n : Nat) (slots : List Slot) :
    Yields (copyTop (n + 1) (.ofSlotsDown slots)) (times (n + 1) (copySlot n) slots) := by
  rw [times_copySlot_top]
  refine need_yields (fun hle => ?_) fun hle => if_neg hle
  rw [if_pos hle]
  simp only [Stack.ofSlotsDown, ← List.map_take, ← List.map_append]
  rfl

theorem copyPairUp_yields (n : Nat) (slots : List Slot) :
    Yields (copyPairUp n (.ofSlotsDown slots)) (times 2 (copySlot (n + 1)) slots) := by
  have htwice : times 2 (copySlot (n + 1)) slots =
      (slots[n + 1]?).bind fun lower => (slots[n]?).map (· :: lower :: slots) := by
    show (copySlot (n + 1) slots).bind (copySlot (n + 1)) = _
    rw [copySlot, Option.bind_map]
    rfl
  rw [htwice]
  exact (peek_gives (n + 1) slots).bind fun lower =>
    (peek_gives n slots).map (f := fun upper =>
      (Stack.ofSlotsDown slots).pushSlots [lower, upper]) fun _ => rfl

theorem movePairUp_yields (n : Nat) (slots : List Slot) :
    Yields (movePairUp n (.ofSlotsDown slots)) (times 2 (moveSlot (n + 1)) slots) := by
  have htwice : times 2 (moveSlot (n + 1)) slots =
      ((slots[n + 1]?).map fun lower => (lower, slots.eraseIdx (n + 1))).bind fun lower =>
        ((lower.2[n]?).map fun upper => (upper, lower.2.eraseIdx n)).map fun upper =>
          upper.1 :: lower.1 :: upper.2 := by
    show (moveSlot (n + 1) slots).bind (moveSlot (n + 1)) = _
    rw [moveSlot, Option.bind_map, Option.bind_map]
    simp only [Option.map_map]
    rfl
  rw [htwice]
  refine need_yields (fun _ => ?_) fun hle => ?_
  · refine (takeOut_gives (n + 1) slots).bind fun lower => ?_
    exact (takeOut_gives n lower.2).map (f := fun upper => upper.2.pushSlots [lower.1, upper.1])
      (g := fun upper => upper.1 :: lower.1 :: upper.2) fun _ => rfl
  · rw [List.getElem?_eq_none (Nat.le_of_lt_succ (Nat.lt_of_not_le hle))]
    rfl

theorem nip_yields (limit : Nat) (slots : List Slot) :
    Yields (Shuffle.nip.run limit (.ofSlotsDown slots)) (thenDo (moveSlot 1) dropSlot slots) := by
  have h := (takeOut_gives 1 slots).map (f := Prod.snd) (g := Prod.snd) fun _ => rfl
  rw [thenDo, moveSlot, Option.bind_map]
  rw [Option.map_map, Option.map_eq_bind] at h
  exact h

theorem tuck_yields (limit : Nat) (slots : List Slot) :
    Yields (Shuffle.tuck.run limit (.ofSlotsDown slots))
      (thenDo (moveSlot 1) (copySlot 1) slots) := by
  match slots with
  | [] => exact ⟨_, rfl, rfl⟩
  | [_] => exact ⟨_, rfl, rfl⟩
  | _ :: _ :: _ => rfl

/-- What is done with a count of slots, done with a number: if it is negative there is no such count. -/
def counted (f : Nat → List Slot → Option (List Slot)) (n : Int) (slots : List Slot) :
    Option (List Slot) :=
  if 0 ≤ n then f n.toNat slots else none

theorem popIndex_ofSlotsDown {limit : Nat} {v : Bytes} (hv : v.length ≤ limit) (name : String)
    (slots : List Slot) :
    popIndex limit (.ofSlotsDown ((v, name) :: slots)) =
      if 0 ≤ Number.value v ∧ Number.value v < slots.length then
        .ok ((Number.value v).toNat, .ofSlotsDown slots)
      else .error (.invalidIndex (Number.value v) slots.length) := by
  have hpop : popNumber limit (.ofSlotsDown ((v, name) :: slots)) =
      .ok (Number.value v, .ofSlotsDown slots) :=
    (popNumber_cons limit v _ name _).trans (if_pos hv)
  rw [popIndex, hpop, ← Stack.depth_ofSlotsDown]
  rfl

/-- What takes a count from the top slot and then does what there is to do with it. -/
theorem popIndex_yields {limit : Nat} {v : Bytes} {f : Nat → List Slot → Option (List Slot)}
    {run : Nat → Stack → Except Fault Stack} (hv : v.length ≤ limit) (name : String)
    (hrun : ∀ n, Yields (run n (.ofSlotsDown slots)) (f n slots))
    (hnone : ∀ n, slots.length ≤ n → f n slots = none) :
    Yields (popIndex limit (.ofSlotsDown ((v, name) :: slots)) >>= fun r => run r.1 r.2)
      (counted f (Number.value v) slots) := by
  rw [popIndex_ofSlotsDown hv, counted]
  by_cases hnonneg : 0 ≤ Number.value v
  · rw [if_pos hnonneg]
    by_cases hlt : Number.value v < slots.length
    · rw [if_pos ⟨hnonneg, hlt⟩]
      exact hrun _
    · rw [if_neg fun h => hlt h.2, hnone _ (by omega)]
      exact ⟨_, rfl, rfl⟩
  · rw [if_neg fun h => hnonneg h.1, if_neg hnonneg]
    exact ⟨_, rfl, rfl⟩

/-! ### Several chunks -/

/-- What a move makes of a state: it rearranges the slots of the main stack, and changes nothing else;
or it fails for want of slots. -/
def Move.Rearranged (s : State) (m : Move) : Option (List Slot) → Prop
  | some slots => m = .next { s with main := .ofSlotsDown slots }
  | none => ∃ fault, fault.code = .invalidStackOperation ∧ m = .stop (.failed fault s.calls)

/-- Where these chunks are executed, all they do is to rearrange the slots of the main stack. -/
structure Rearranges (setting : Setting) (script cs : List Chunk)
    (f : List Slot → Option (List Slot)) : Prop where
  onStacks : OnStacks cs
  performAll_rearranged : ∀ (s : State) (slots : List Slot), s.isExecuting →
    s.main = .ofSlotsDown slots → (performAll setting script cs s).Rearranged s (f slots)

variable {setting : Setting} {script cs ds : List Chunk} {f g : List Slot → Option (List Slot)}

theorem Rearranges.nil : Rearranges setting script [] some := by
  refine ⟨nofun, fun s slots _ hmain => ?_⟩
  show Move.next s = .next { s with main := .ofSlotsDown slots }
  rw [← hmain]

theorem Rearranges.append (hf : Rearranges setting script cs f)
    (hg : Rearranges setting script ds g) : Rearranges setting script (cs ++ ds) (thenDo f g) := by
  refine ⟨hf.onStacks.append hg.onStacks, fun s slots hs hmain => ?_⟩
  have hfirst := hf.performAll_rearranged s slots hs hmain
  rw [performAll_append, thenDo]
  cases hslots : f slots with
  | some slots' =>
    rw [hslots] at hfirst
    rw [show performAll setting script cs s = _ from hfirst]
    exact hg.performAll_rearranged { s with main := .ofSlotsDown slots' } slots' hs rfl
  | none =>
    rw [hslots] at hfirst
    obtain ⟨fault, hcode, hfailed⟩ := hfirst
    rw [hfailed]
    exact ⟨fault, hcode, rfl⟩

/-- Chunks repeated rearrange as often. -/
theorem Rearranges.times (hf : Rearranges setting script cs f) (n : Nat) :
    Rearranges setting script (List.replicate n cs).flatten (times n f) := by
  induction n with
  | zero => exact .nil
  | succ n ih =>
    rw [List.replicate_succ', List.flatten_append, List.flatten_singleton]
    exact ih.append hf

/-- A result on the main stack alone. -/
theorem Yields.rearranged {r : Except Fault Stack} {o : Option (List Slot)} (h : Yields r o)
    (s : State) : (Move.ofExcept s (r.map fun main => { s with main })).Rearranged s o := by
  cases o with
  | some slots =>
    rw [show r = .ok (.ofSlotsDown slots) from h]
    rfl
  | none =>
    obtain ⟨fault, hcode, rfl⟩ := h
    exact ⟨fault, hcode, rfl⟩

theorem Move.Rearranged.of_main {s : State} {m : Move} {o : Option (List Slot)} {main : Stack}
    (h : m.Rearranged { s with main } o) : m.Rearranged s o := by
  cases o with
  | some slots => exact h
  | none => exact h

theorem actsOnMain_of_shuffle {op : Opcode} {sh : Shuffle}
    (hop : Instruction.ofOpcode op = .shuffle sh) : (Instruction.ofOpcode op).actsOnMain := by
  rw [hop]
  rfl

theorem onStacks_of_actsOnMain {op : Opcode} (h : (Instruction.ofOpcode op).actsOnMain) :
    OnStacks [.ofOpcode op] := by
  refine onStacks_opcode ?_
  rw [Instruction.actsOnStacks, h]
  rfl

theorem rearranges_shuffle {op : Opcode} {sh : Shuffle}
    (hop : Instruction.ofOpcode op = .shuffle sh)
    (h : ∀ slots, Yields (sh.run setting.limits.numberLength (.ofSlotsDown slots)) (f slots)) :
    Rearranges setting script [.ofOpcode op] f := by
  have hacts := actsOnMain_of_shuffle hop
  refine ⟨onStacks_of_actsOnMain hacts, fun s slots hs hmain => ?_⟩
  rw [performAll_singleton, perform_of_actsOnMain hacts hs, hop, hmain]
  exact (h slots).rearranged s

/-- A chunk that pushes has no opcode but that of a small number. -/
theorem onStacks_pushes {c : Chunk} (hc : c.pushes) (hread : c.data.isSome = c.op.isPush) :
    OnStacks [c] := by
  refine List.forall_mem_singleton.mpr ⟨hread, ?_⟩
  rcases (Bool.or_eq_true _ _).mp (opcode_of_pushes hc hread) with hpush | hsmall
  · exact .inl hpush
  · refine .inr ?_
    rw [(Instruction.ofOpcode_of_isSmallInt c.op hsmall).1]
    rfl

/-- A number is pushed, and the opcode does something with as many slots. -/
theorem rearranges_counted {c : Chunk} {op : Opcode} {sh : Shuffle}
    {f : Nat → List Slot → Option (List Slot)} {run : Nat → Stack → Except Fault Stack}
    (hc : c.pushes) (hread : c.data.isSome = c.op.isPush)
    (hitem : c.item.length ≤ setting.limits.numberLength)
    (hop : Instruction.ofOpcode op = .shuffle sh)
    (hsh : ∀ s, sh.run setting.limits.numberLength s =
      popIndex setting.limits.numberLength s >>= fun r => run r.1 r.2)
    (hrun : ∀ n slots, Yields (run n (.ofSlotsDown slots)) (f n slots))
    (hnone : ∀ n slots, slots.length ≤ n → f n slots = none) :
    Rearranges setting script [c, .ofOpcode op] (counted f (Number.value c.item)) := by
  have hacts := actsOnMain_of_shuffle hop
  refine ⟨(onStacks_pushes hc hread).append (onStacks_of_actsOnMain hacts),
    fun s slots hs hmain => ?_⟩
  -- The opcode finds the number above the slots.
  have hpush : s.main.push c.item = .ofSlotsDown ((c.item, Stack.defaultName) :: slots) := by
    rw [hmain]
    rfl
  rw [performAll, perform_pushes hc hs]
  show (performAll setting script [.ofOpcode op] _).Rearranged s _
  rw [performAll_singleton, perform_of_actsOnMain hacts (by exact hs), hop]
  show (Move.ofExcept _ ((sh.run setting.limits.numberLength (s.main.push c.item)).map _)).Rearranged
    s _
  rw [hsh, hpush]
  exact ((popIndex_yields hitem _ (hrun · slots) (hnone · slots)).rearranged _).of_main

/-- A slot that is put on the alt stack and taken back is where it was. -/
theorem rearranges_alt :
    Rearranges setting script [.ofOpcode Opcode.toAlt, .ofOpcode Opcode.fromAlt]
      fun slots => if slots = [] then none else some slots := by
  refine ⟨(onStacks_opcode rfl).append (onStacks_opcode rfl), fun s slots hs hmain => ?_⟩
  have hto : perform setting script (.ofOpcode Opcode.toAlt) s =
      .ofExcept s (Instruction.moveToAlt s) := perform_of_isExecuting hs
  rw [performAll, hto, Instruction.moveToAlt, hmain]
  cases slots with
  | nil => exact ⟨_, rfl, rfl⟩
  | cons slot slots =>
    show (performAll setting script [.ofOpcode Opcode.fromAlt] _).Rearranged s _
    rw [performAll_singleton]
    exact perform_of_isExecuting hs

/-! ### Respellings -/

/-- An opcode that can be spelled with others. -/
structure Respelling where
  op : Opcode
  /-- What it makes of slots. -/
  map : List Slot → Option (List Slot)
  /-- How many slots there have to be. -/
  depth : Nat
  /-- The chunks that make the same of them. -/
  words : Bytes

/-- How opcodes that rearrange slots are spelled with others. -/
def respellings : List Respelling :=
  -- `OP_SWAP`, `OP_ROT`, `OP_DUP` and `OP_OVER`, with a number and `OP_ROLL` or `OP_PICK`
  [⟨0x7c, moveSlot 1, 2, [0x51, 0x7a]⟩,
   ⟨0x7b, moveSlot 2, 3, [0x52, 0x7a]⟩,
   ⟨0x76, copySlot 0, 1, [0x00, 0x79]⟩,
   ⟨0x78, copySlot 1, 2, [0x51, 0x79]⟩,
   -- `OP_TUCK` and `OP_NIP`, with `OP_SWAP`
   ⟨0x7d, thenDo (moveSlot 1) (copySlot 1), 2, [0x7c, 0x78]⟩,
   ⟨0x77, thenDo (moveSlot 1) dropSlot, 2, [0x7c, 0x75]⟩,
   -- `OP_2DROP` and `OP_2DUP`, with `OP_DROP` and `OP_OVER`
   ⟨0x6d, times 2 dropSlot, 2, [0x75, 0x75]⟩,
   ⟨0x6e, times 2 (copySlot 1), 2, [0x78, 0x78]⟩,
   -- `OP_3DUP`, `OP_2OVER`, `OP_2SWAP` and `OP_2ROT`, with a number and `OP_PICK` or `OP_ROLL`
   ⟨0x6f, times 3 (copySlot 2), 3, [0x52, 0x79, 0x52, 0x79, 0x52, 0x79]⟩,
   ⟨0x70, times 2 (copySlot 3), 4, [0x53, 0x79, 0x53, 0x79]⟩,
   ⟨0x72, times 2 (moveSlot 3), 4, [0x53, 0x7a, 0x53, 0x7a]⟩,
   ⟨0x71, times 2 (moveSlot 5), 6, [0x55, 0x7a, 0x55, 0x7a]⟩]

/-- The opcode and the words make the same of slots, and fail if there are too few of them. -/
structure Respelling.Holds (setting : Setting) (script : List Chunk) (r : Respelling) : Prop where
  opcode : Rearranges setting script [.ofOpcode r.op] r.map
  words : Rearranges setting script (Chunk.decode r.words) r.map
  fails : ∀ slots, r.map slots = none ↔ slots.length < r.depth

theorem moveSlot_eq_none_iff : moveSlot n slots = none ↔ slots.length < n + 1 := by
  rw [moveSlot, Option.map_eq_none_iff, List.getElem?_eq_none_iff, Nat.lt_succ_iff]

theorem copySlot_eq_none_iff : copySlot n slots = none ↔ slots.length < n + 1 := by
  rw [copySlot, Option.map_eq_none_iff, List.getElem?_eq_none_iff, Nat.lt_succ_iff]

theorem dropTwo_eq_none_iff (slots : List Slot) :
    times 2 dropSlot slots = none ↔ slots.length < 2 := by
  rw [times_dropSlot]
  split_ifs with hle
  · exact iff_of_false nofun (Nat.not_lt.mpr hle)
  · exact iff_of_true rfl (Nat.lt_of_not_le hle)

/-- Behind a move of the second slot to the top there are two slots. -/
theorem thenDo_moveSlot_eq_none_iff (hg : ∀ a b slots, g (a :: b :: slots) ≠ none)
    (slots : List Slot) : thenDo (moveSlot 1) g slots = none ↔ slots.length < 2 := by
  match slots with
  | [] => exact iff_of_true rfl Nat.two_pos
  | [_] => exact iff_of_true rfl Nat.one_lt_two
  | a :: b :: slots =>
    refine iff_of_false (hg b a slots) ?_
    rw [List.length_cons, List.length_cons]
    omega

theorem length_of_moveSlot {slots' : List Slot} (h : moveSlot n slots = some slots') :
    slots.length ≤ slots'.length := by
  obtain ⟨slot, hslot, rfl⟩ := Option.map_eq_some_iff.mp h
  have hlt := (List.getElem?_eq_some_iff.mp hslot).1
  rw [List.length_cons, List.length_eraseIdx_of_lt hlt]
  omega

theorem length_of_copySlot {slots' : List Slot} (h : copySlot n slots = some slots') :
    slots.length ≤ slots'.length := by
  obtain ⟨slot, -, rfl⟩ := Option.map_eq_some_iff.mp h
  exact Nat.le_succ _

section Repeated

variable (hnone : ∀ slots, f slots = none ↔ slots.length < m)
  (hlength : ∀ slots slots', f slots = some slots' → slots.length ≤ slots'.length)

include hnone hlength

theorem exists_times_eq_some (n : Nat) (h : m ≤ slots.length) :
    ∃ slots', times n f slots = some slots' ∧ m ≤ slots'.length := by
  induction n with
  | zero => exact ⟨slots, rfl, h⟩
  | succ n ih =>
    obtain ⟨slots', htimes, hle⟩ := ih
    obtain ⟨slots'', hlast⟩ := Option.ne_none_iff_exists'.mp fun hfails =>
      Nat.not_lt.mpr hle ((hnone slots').mp hfails)
    refine ⟨slots'', ?_, Nat.le_trans hle (hlength slots' slots'' hlast)⟩
    rw [times, thenDo, htimes]
    exact hlast

/-- What fails on few slots, and does not leave fewer, fails on as few when it is repeated. -/
theorem times_eq_none_iff (n : Nat) (slots : List Slot) :
    times (n + 1) f slots = none ↔ slots.length < m := by
  constructor
  · intro hfails
    by_contra hle
    obtain ⟨slots', htimes, -⟩ :=
      exists_times_eq_some hnone hlength (n + 1) (Nat.le_of_not_lt hle)
    cases hfails.symm.trans htimes
  · intro hlt
    rw [times_succ, (hnone slots).mpr hlt]
    rfl

end Repeated

theorem counted_eq_none_iff {f : Nat → List Slot → Option (List Slot)}
    (hnone : ∀ n, f n slots = none ↔ slots.length < n + 1) (k : Int) :
    counted f k slots = none ↔ k < 0 ∨ slots.length ≤ k := by
  rw [counted]
  split_ifs with h
  · rw [hnone]
    omega
  · exact iff_of_true rfl (.inl (Int.lt_of_not_ge h))

theorem rearranges_roll {c : Chunk} (hc : c.pushes)
    (hread : c.data.isSome = c.op.isPush)
    (hitem : c.item.length ≤ setting.limits.numberLength) :
    Rearranges setting script [c, .ofOpcode Opcode.roll]
      (counted moveSlot (Number.value c.item)) :=
  rearranges_counted hc hread hitem rfl (fun _ => rfl) moveUp_yields fun _ _ hle =>
    moveSlot_eq_none_iff.mpr (Nat.lt_succ_of_le hle)

theorem rearranges_pick {c : Chunk} (hc : c.pushes)
    (hread : c.data.isSome = c.op.isPush)
    (hitem : c.item.length ≤ setting.limits.numberLength) :
    Rearranges setting script [c, .ofOpcode Opcode.pick]
      (counted copySlot (Number.value c.item)) :=
  rearranges_counted hc hread hitem rfl (fun _ => rfl) copyUp_yields fun _ _ hle =>
    copySlot_eq_none_iff.mpr (Nat.lt_succ_of_le hle)

theorem respelling_holds {r : Respelling} (hr : r ∈ respellings)
    (hwords : ∀ c ∈ Chunk.decode r.words, c.pushes →
      c.item.length ≤ setting.limits.numberLength) : r.Holds setting script := by
  have hmoves (n : Nat) (slots : List Slot) : moveSlot n slots = none ↔ slots.length < n + 1 :=
    moveSlot_eq_none_iff
  have hcopies (n : Nat) (slots : List Slot) : copySlot n slots = none ↔ slots.length < n + 1 :=
    copySlot_eq_none_iff
  have hover : Rearranges setting script [.ofOpcode 0x78] (copySlot 1) :=
    rearranges_shuffle rfl (copyUp_yields 1)
  have hswap : Rearranges setting script [.ofOpcode 0x7c] (moveSlot 1) :=
    rearranges_shuffle rfl (moveUp_yields 1)
  have hdrop : Rearranges setting script [.ofOpcode 0x75] dropSlot :=
    rearranges_shuffle rfl (dropTop_yields 1)
  rw [respellings] at hr
  simp only [List.mem_cons, List.not_mem_nil, or_false] at hr
  rcases hr with rfl | rfl | rfl | rfl | rfl | rfl | rfl | rfl | rfl | rfl | rfl | rfl
  · exact ⟨hswap, rearranges_roll rfl rfl (hwords _ (.head _) rfl), hmoves 1⟩
  · exact ⟨rearranges_shuffle rfl (moveUp_yields 2),
      rearranges_roll rfl rfl (hwords _ (.head _) rfl), hmoves 2⟩
  · exact ⟨rearranges_shuffle rfl (copyTop_yields 0),
      rearranges_pick rfl rfl (hwords _ (.head _) rfl), hcopies 0⟩
  · exact ⟨hover, rearranges_pick rfl rfl (hwords _ (.head _) rfl), hcopies 1⟩
  · exact ⟨rearranges_shuffle rfl (tuck_yields _), hswap.append hover,
      thenDo_moveSlot_eq_none_iff fun _ _ _ => nofun⟩
  · exact ⟨rearranges_shuffle rfl (nip_yields _), hswap.append hdrop,
      thenDo_moveSlot_eq_none_iff fun _ _ _ => nofun⟩
  · exact ⟨rearranges_shuffle rfl (dropTop_yields 2), hdrop.times 2, dropTwo_eq_none_iff⟩
  · exact ⟨rearranges_shuffle rfl (copyTop_yields 1), hover.times 2,
      times_eq_none_iff (hcopies 1) (fun _ _ => length_of_copySlot) 1⟩
  · exact ⟨rearranges_shuffle rfl (copyTop_yields 2),
      (rearranges_pick rfl rfl (hwords _ (.head _) rfl)).times 3,
      times_eq_none_iff (hcopies 2) (fun _ _ => length_of_copySlot) 2⟩
  · exact ⟨rearranges_shuffle rfl (copyPairUp_yields 2),
      (rearranges_pick rfl rfl (hwords _ (.head _) rfl)).times 2,
      times_eq_none_iff (hcopies 3) (fun _ _ => length_of_copySlot) 1⟩
  · exact ⟨rearranges_shuffle rfl (movePairUp_yields 2),
      (rearranges_roll rfl rfl (hwords _ (.head _) rfl)).times 2,
      times_eq_none_iff (hmoves 3) (fun _ _ => length_of_moveSlot) 1⟩
  · exact ⟨rearranges_shuffle rfl (movePairUp_yields 4),
      (rearranges_roll rfl rfl (hwords _ (.head _) rfl)).times 2,
      times_eq_none_iff (hmoves 5) (fun _ _ => length_of_moveSlot) 1⟩

/-- A number that is pushed and then rolled moves the slot with as many slots above it to the top, and
one that is picked copies it; a negative one, and one that is not below the depth, fails for want of
slots.  The opcodes that rearrange a fixed number of slots do what their respellings do and fail on the
same stacks, and a slot is where it was when it has been on the alt stack.  All this is so within a
script, as long as no limit is reached. -/
theorem performAll_respelled (setting : Setting) (script : List Chunk) :
    (∀ c : Chunk, c.pushes → c.data.isSome = c.op.isPush →
      c.item.length ≤ setting.limits.numberLength →
        let n := Number.value c.item
        Rearranges setting script [c, .ofOpcode Opcode.roll] (counted moveSlot n) ∧
          Rearranges setting script [c, .ofOpcode Opcode.pick] (counted copySlot n) ∧
          ∀ slots : List Slot,
            (counted moveSlot n slots = none ↔ n < 0 ∨ slots.length ≤ n) ∧
              (counted copySlot n slots = none ↔ n < 0 ∨ slots.length ≤ n)) ∧
    (∀ r ∈ respellings,
      (∀ c ∈ Chunk.decode r.words, c.pushes → c.item.length ≤ setting.limits.numberLength) →
        r.Holds setting script) ∧
    (Rearranges setting script [.ofOpcode Opcode.toAlt, .ofOpcode Opcode.fromAlt]
      fun slots => if slots = [] then none else some slots) ∧
    ∀ (cs : List Chunk) (f : List Slot → Option (List Slot)), Rearranges setting script cs f →
      ∀ s : State, (stepAll setting script cs s).Agrees IsStepLimit
        ((performAll setting script cs s).counting (s.offset + cs.length)
          (s.operations + cs.countP (Opcode.sixteen < ·.op))) := by
  refine ⟨fun c hc hread hitem => ⟨rearranges_roll hc hread hitem, rearranges_pick hc hread hitem,
    fun slots => ⟨?_, ?_⟩⟩, fun r hr hwords => respelling_holds hr hwords, rearranges_alt,
    fun cs f h s => stepAll_agrees h.onStacks s⟩
  · exact counted_eq_none_iff (fun _ => moveSlot_eq_none_iff) _
  · exact counted_eq_none_iff (fun _ => copySlot_eq_none_iff) _

/-- Of four slots with names, the lowest but one is rolled to the top by a two with a zero to spare, and
there are too few of them for minus one and for a respelling of six. -/
theorem performAll_respelled_four_slots :
    let setting := Setting.ofFlags .afterGenesis .pushOnly none 0
    let slots : List Slot := [([1], "a"), ([2], "b"), ([3], "c"), ([4], "d")]
    let s : State := { State.initial with main := .ofSlotsDown slots }
    let two : Chunk := ⟨0x02, some [0x02, 0x00], 2, 0⟩
    let pairs : Respelling := ⟨0x71, times 2 (moveSlot 5), 6, [0x55, 0x7a, 0x55, 0x7a]⟩
    two.pushes ∧ two.item.length ≤ setting.limits.numberLength ∧
      performAll setting [] [two, .ofOpcode Opcode.roll] s =
        .next { s with main := .ofSlotsDown [([3], "c"), ([1], "a"), ([2], "b"), ([4], "d")] } ∧
      counted copySlot (Number.value (Chunk.ofOpcode Opcode.negativeOne).item) slots = none ∧
      pairs ∈ respellings ∧
      (∃ fault, fault.code = .invalidStackOperation ∧
        performAll setting [] (Chunk.decode pairs.words) s = .stop (.failed fault [])) ∧
      (stepAll setting [] [.ofOpcode Opcode.toAlt, .ofOpcode Opcode.fromAlt] s).Agrees IsStepLimit
        (.next { s with offset := 2, operations := 2 }) := by
  intro setting slots s two pairs
  have hpairs : pairs ∈ respellings :=
    List.mem_of_getElem? (rfl : respellings[11]? = some pairs)
  obtain ⟨hcounted, hrespelled, halt, hsteps⟩ := performAll_respelled setting []
  obtain ⟨hroll, -, -⟩ := hcounted two rfl rfl (by decide)
  obtain ⟨-, -, hnone⟩ := hcounted (.ofOpcode Opcode.negativeOne) rfl rfl (by decide)
  have hholds := hrespelled pairs hpairs (by decide)
  have hfailed := hholds.words.performAll_rearranged s slots rfl rfl
  rw [(hholds.fails slots).mpr (by decide)] at hfailed
  exact ⟨rfl, by decide, hroll.performAll_rearranged s slots rfl rfl,
    (hnone slots).2.mpr (.inl (by decide)), hpairs, hfailed, hsteps _ _ halt s⟩

end Machine

end Utxo
