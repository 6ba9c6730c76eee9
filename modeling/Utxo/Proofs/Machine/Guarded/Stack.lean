/-
Stacks under guard.

A machine that takes stacks apart column by column has cases that cannot occur: columns of different
lengths, a value without a name, an index beyond the end, a subtraction below zero.  A *guarded*
operation works on the columns and reports such a case as a breach, which is no fault.  On aligned
stacks, guarded operations do what the machine's do (`Faithful`).

Under guard are the columns, the positions in them and the counts and offsets of an evaluation.  What
is reckoned inside a single value is not: shifts, padding, the number that a value stands for and
whether it is a minimal condition are taken over from the machine as they are.

* **`takeOut_faithful`**, **`insertBelow_faithful`** — to take a slot out and to put one in by splicing
  both columns, counted from the bottom, is to do so by counting from the top;
* **`dropTimes_faithful`**, **`peekDown_run`** — to drop and to look at several slots is to do so
  one after the other.
-/
import Utxo.Proofs.Machine.Alignment

namespace Utxo.Machine

/-! ### Breaches -/

/-- A case that cannot occur. -/
inductive Breach where
  /-- The columns of a stack have different lengths. -/
  | misaligned (values names : Nat)
  /-- A value has no name. -/
  | nameless
  /-- An index is beyond the end. -/
  | outOfRange
  /-- A difference is below zero. -/
  | underflow
  /-- Of the two records of open conditionals, one is empty and the other is not. -/
  | lopsided

/-- A result or a fault, unless there is a breach. What is reckoned inside a single value is not
guarded and makes no breach. -/
abbrev Guarded (α : Type) : Type := ExceptT Fault (Except Breach) α

namespace Guarded

variable {α β : Type}

/-- Nothing but a breach. -/
def breach (b : Breach) : Guarded α := ExceptT.mk (.error b)

/-- A result or a fault that no breach goes before. -/
def lift (r : Except Fault α) : Guarded α := ExceptT.mk (.ok r)

theorem bind_run {g : Guarded α} {a : α} (h : g.run = .ok (.ok a)) (f : α → Guarded β) :
    (g >>= f).run = (f a).run := by
  rw [ExceptT.run_bind, h]
  rfl

/-- The guarded computation has this result or fault and no breach, and what results has a property.
-/
structure Faithful (p : α → Prop) (g : Guarded α) (r : Except Fault α) : Prop where
  run_eq : g.run = .ok r
  ensures : Ensures p r

namespace Faithful

variable {p : α → Prop} {q : β → Prop} {g g' : Guarded α} {r r' : Except Fault α}

theorem ok {a : α} (h : p a) : Faithful p (pure a) (.ok a) := ⟨rfl, .ok h⟩

theorem error (fault : Fault) : Faithful p (throw fault) (.error fault) := ⟨rfl, .error fault⟩

theorem lift (h : Ensures p r) : Faithful p (Guarded.lift r) r := ⟨rfl, h⟩

theorem bind {f : α → Guarded β} {f' : α → Except Fault β} (h : Faithful p g r)
    (hf : ∀ a, p a → Faithful q (f a) (f' a)) : Faithful q (g >>= f) (r >>= f') := by
  refine ⟨?_, h.ensures.bind fun a ha => (hf a ha).ensures⟩
  rw [ExceptT.run_bind, h.run_eq]
  cases r with
  | error fault => rfl
  | ok a => exact (hf a (h.ensures a rfl)).run_eq

theorem of_run {a : α} {f : α → Guarded β} {r' : Except Fault β} (hrun : g.run = .ok (.ok a))
    (hf : Faithful q (f a) r') : Faithful q (g >>= f) r' :=
  ⟨(bind_run hrun f).trans hf.run_eq, hf.ensures⟩

theorem bind_ok {a : α} {f : α → Guarded β} {r' : Except Fault β} (h : Faithful p g (.ok a))
    (hf : p a → Faithful q (f a) r') : Faithful q (g >>= f) r' :=
  of_run h.run_eq (hf (h.ensures a rfl))

theorem ite {c : Prop} [Decidable c] (h : c → Faithful p g r) (h' : ¬c → Faithful p g' r') :
    Faithful p (if c then g else g') (if c then r else r') := by
  split_ifs with hc
  · exact h hc
  · exact h' hc

end Faithful

/-! ### Columns -/

/-- The difference of two numbers. -/
def minus (a b : Nat) : Guarded Nat := if b ≤ a then pure (a - b) else breach .underflow

/-- The stack itself, once its columns have been compared. -/
def check (s : Stack) : Guarded Stack :=
  if s.IsAligned then pure s else breach (.misaligned s.values.length s.names.length)

/-- Puts a slot on top. -/
def pushSlot (s : Stack) (slot : Slot) : Guarded Stack := check (s.pushSlot slot)

/-- Puts a value without a name of its own on top. -/
def push (s : Stack) (value : Bytes) : Guarded Stack := pushSlot s (value, Stack.defaultName)

/-- Puts several slots on top, the last one highest. -/
def pushSlots (s : Stack) (slots : List Slot) : Guarded Stack := slots.foldlM pushSlot s

/-- The top slot and the stack below it. -/
def pop? (s : Stack) : Guarded (Option (Slot × Stack)) :=
  match s.values with
  | [] => pure none
  | value :: values => do
    let rest ← check ⟨values, s.names.tail⟩
    match s.names with
    | name :: _ => return some ((value, name), rest)
    | [] => breach .nameless

/-- Replaces slots counted from the bottom, and gives those replaced. -/
def splice (s : Stack) (start count : Nat) (items : List Slot) : Guarded (List Slot × Stack) := do
  let (removed, rest) := s.splice start count items
  let rest ← check rest
  return (removed, rest)

/-- The top slot. -/
def popSlot (s : Stack) : Guarded (Slot × Stack) := do
  match ← pop? s with
  | some r => return r
  | none => throw (.invalidIndex 0 s.depth)

/-- The slot with `n` slots above it, its value and its name each at an offset from the top. -/
def peek (n : Nat) (s : Stack) : Guarded Slot :=
  if s.depth ≤ n then throw (.invalidIndex n s.depth)
  else
    match s.valueAt? (-(n : Int) - 1), s.nameAt? (-(n : Int) - 1) with
    | some value, some name => return (value, name)
    | _, _ => breach .outOfRange

/-- The slot with `n` slots above it, taken out. -/
def takeOut (n : Nat) (s : Stack) : Guarded (Slot × Stack) :=
  if s.depth ≤ n then throw (.invalidIndex n s.depth)
  else do
    let last ← minus s.depth 1
    let below ← minus last n
    let (removed, rest) ← splice s below 1 []
    match removed.getLast? with
    | some slot => return (slot, rest)
    | none => breach .outOfRange

/-- Puts a slot below the `n` top ones. -/
def insertBelow (n : Nat) (slot : Slot) (s : Stack) : Guarded Stack :=
  if s.depth < n then throw (.invalidIndex n s.depth)
  else do
    let below ← minus s.depth n
    let (_, s) ← splice s below 0 [slot]
    return s

/-- Fails unless there are `n` slots. -/
def need (n : Nat) (s : Stack) : Guarded Unit :=
  if n ≤ s.depth then return ()
  else do
    let above ← minus n 1
    throw (.invalidIndex above s.depth)

/-- Takes `n` slots from the top and drops them. -/
def dropTimes : Nat → Stack → Guarded Stack
  | 0, s => return s
  | n + 1, s => do
    let (_, s) ← popSlot s
    dropTimes n s

/-- The `n` top slots, the top one last. -/
def peekDown (s : Stack) : Nat → Guarded (List Slot)
  | 0 => return []
  | n + 1 => do
    let slot ← peek n s
    let above ← peekDown s n
    return slot :: above

/-! ### On aligned stacks -/

variable {s : Stack} {n : Nat}

theorem minus_run {a b : Nat} (h : b ≤ a) : (minus a b).run = .ok (.ok (a - b)) := by
  rw [minus, if_pos h]
  rfl

theorem check_run (h : s.IsAligned) : (check s).run = .ok (.ok s) := by
  rw [check, if_pos h]
  rfl

theorem pushSlot_faithful (h : s.IsAligned) (slot : Slot) :
    Faithful Stack.IsAligned (pushSlot s slot) (.ok (s.pushSlot slot)) :=
  ⟨check_run (h.pushSlot slot), .ok (h.pushSlot slot)⟩

theorem push_faithful (h : s.IsAligned) (value : Bytes) :
    Faithful Stack.IsAligned (push s value) (.ok (s.push value)) :=
  pushSlot_faithful h _

theorem pushSlots_faithful (h : s.IsAligned) (slots : List Slot) :
    Faithful Stack.IsAligned (pushSlots s slots) (.ok (s.pushSlots slots)) := by
  induction slots generalizing s with
  | nil => exact .ok h
  | cons slot slots ih =>
    rw [pushSlots, List.foldlM_cons]
    exact (pushSlot_faithful h slot).bind_ok fun ht => ih ht

theorem pop?_run (h : s.IsAligned) : (pop? s).run = .ok (.ok s.pop?) := by
  obtain ⟨_ | ⟨v, vs⟩, _ | ⟨n, ns⟩⟩ := s
  · rfl
  · cases h
  · cases h
  · have hrest : (⟨vs, ns⟩ : Stack).IsAligned := Nat.succ.inj h
    exact bind_run (check_run hrest) _

theorem popSlot_faithful (h : s.IsAligned) :
    Faithful (·.2.IsAligned) (popSlot s) (Machine.popSlot s) := by
  refine ⟨?_, popSlot_isAligned h⟩
  rw [popSlot, ExceptT.run_bind, pop?_run h, Machine.popSlot]
  cases s.pop? <;> rfl

/-- A slot within the stack is at the offset that counts it from the top. -/
theorem above?_eq_some (h : n < s.depth) : s.above? (-(n : Int) - 1) = some n := by
  have habs : (-(n : Int) - 1).natAbs = n + 1 := by omega
  rw [Stack.above?, habs, if_pos ⟨by omega, h⟩]
  rfl

theorem peek_faithful (h : s.IsAligned) (n : Nat) :
    Faithful (fun _ => True) (peek n s) (Machine.peek n s) := by
  refine ⟨?_, .any _⟩
  have hnames : s.names.length = s.depth := h.symm
  by_cases hdepth : s.depth ≤ n
  · have hvalue : s.values[n]? = none := List.getElem?_eq_none hdepth
    rw [peek, if_pos hdepth, Machine.peek, Stack.slot?, hvalue]
    rfl
  · replace hdepth : n < s.depth := Nat.lt_of_not_le hdepth
    have hvalue : s.values[n]? = some s.values[n] := List.getElem?_eq_getElem hdepth
    obtain ⟨name, hname⟩ : ∃ name, s.names[n]? = some name :=
      ⟨_, List.getElem?_eq_getElem (hnames ▸ hdepth)⟩
    simp only [peek, Nat.not_le_of_lt hdepth, if_false, Stack.valueAt?, Stack.nameAt?,
      above?_eq_some hdepth, Option.bind_some, hvalue, hname, Machine.peek, Stack.slot?]
    rfl

/-- A column without the item that has `n` items above it, spliced from the bottom. -/
theorem spliceColumn_out {γ : Type} {column : List γ} (h : n < column.length) :
    Stack.spliceColumn column (column.length - 1 - n) (column.length - 1 - n + 1) [] =
      (column.eraseIdx n, [column[n]]) := by
  have hlast : column.length - 1 - n + 1 = column.length - n := by omega
  have hbelow : column.length - (column.length - 1 - n) = n + 1 := by omega
  have habove : column.length - (column.length - n) = n := by omega
  have hrest : (column.reverse.take (column.length - 1 - n) ++
      column.reverse.drop (column.length - 1 - n + 1)).reverse = column.eraseIdx n := by
    rw [hlast, List.take_reverse, List.drop_reverse, hbelow, habove, List.reverse_append,
      List.reverse_reverse, List.reverse_reverse, List.eraseIdx_eq_take_drop_succ]
  have hitem : (column.reverse.take (column.length - 1 - n + 1)).drop (column.length - 1 - n) =
      [column[n]] := by
    have hlt : column.length - 1 - n < column.reverse.length := by
      rw [List.length_reverse]
      omega
    have hsame : column.length - 1 - (column.length - 1 - n) = n := by omega
    rw [List.drop_take, Nat.add_sub_cancel_left, List.drop_eq_getElem_cons hlt, List.take_succ_cons,
      List.take_zero, List.getElem_reverse]
    simp only [hsame]
  rw [Stack.spliceColumn, List.append_nil, hrest, hitem]

/-- A column with an item below the `n` top ones, spliced from the bottom. -/
theorem spliceColumn_in {γ : Type} {column : List γ} (h : n ≤ column.length) (item : γ) :
    (Stack.spliceColumn column (column.length - n) (column.length - n) [item]).1 =
      column.take n ++ item :: column.drop n := by
  have habove : column.length - (column.length - n) = n := by omega
  simp only [Stack.spliceColumn, List.take_reverse, List.drop_reverse, habove]
  simp

theorem splice_run {start count : Nat} {items : List Slot}
    (h : (s.splice start count items).2.IsAligned) :
    (splice s start count items).run = .ok (.ok (s.splice start count items)) :=
  bind_run (check_run h) _

theorem splice_out (h : s.IsAligned) (hn : n < s.depth) :
    ∃ slot, s.slot? n = some slot ∧
      s.splice (s.depth - 1 - n) 1 [] = ([slot], ⟨s.values.eraseIdx n, s.names.eraseIdx n⟩) := by
  obtain ⟨values, names⟩ := s
  have hvalues : n < values.length := hn
  have hlength : values.length = names.length := h
  have hnames : n < names.length := hlength ▸ hvalues
  refine ⟨(values[n], names[n]), ?_, ?_⟩
  · simp only [Stack.slot?, List.getElem?_eq_getElem hvalues, List.getElem?_eq_getElem hnames]
  · have hfirst : min (values.length - 1 - n) values.length = values.length - 1 - n := by omega
    have hlast : min (values.length - 1 - n + 1) values.length = values.length - 1 - n + 1 := by
      omega
    have houtNames := spliceColumn_out hnames
    rw [← hlength] at houtNames
    simp only [Stack.splice, Stack.depth, hfirst, hlast, List.map_nil, spliceColumn_out hvalues,
      houtNames]
    rfl

theorem splice_in (h : s.IsAligned) (hn : n ≤ s.depth) (slot : Slot) :
    (s.splice (s.depth - n) 0 [slot]).2 = s.insertBelow n slot := by
  obtain ⟨values, names⟩ := s
  have hvalues : n ≤ values.length := hn
  have hlength : values.length = names.length := h
  have hnames : n ≤ names.length := hlength ▸ hvalues
  have hfirst : min (values.length - n) values.length = values.length - n := by omega
  have hinNames := spliceColumn_in hnames slot.2
  rw [← hlength] at hinNames
  simp only [Stack.splice, Stack.depth, hfirst, Nat.add_zero, List.map_cons, List.map_nil,
    spliceColumn_in hvalues, hinNames, Stack.insertBelow]

/-- To take a slot out by splicing both columns, counted from the bottom, is to do so by counting from
the top. -/
theorem takeOut_faithful (h : s.IsAligned) (n : Nat) :
    Faithful (·.2.IsAligned) (takeOut n s) (Machine.takeOut n s) := by
  refine ⟨?_, takeOut_isAligned n h⟩
  by_cases hdepth : s.depth ≤ n
  · have hvalue : s.values[n]? = none := List.getElem?_eq_none hdepth
    rw [takeOut, if_pos hdepth, Machine.takeOut, Stack.remove?, Stack.slot?, hvalue]
    rfl
  · obtain ⟨slot, hslot, hsplice⟩ := splice_out h (Nat.lt_of_not_le hdepth)
    have hremove : s.remove? n = some (slot, ⟨s.values.eraseIdx n, s.names.eraseIdx n⟩) := by
      rw [Stack.remove?, hslot]
      rfl
    have hlast : 1 ≤ s.depth := by omega
    have hbelow : n ≤ s.depth - 1 := by omega
    have hrest : (s.splice (s.depth - 1 - n) 1 []).2.IsAligned := by
      rw [hsplice]
      exact h.of_remove? hremove
    rw [takeOut, if_neg hdepth, bind_run (minus_run hlast), bind_run (minus_run hbelow),
      bind_run (splice_run hrest), hsplice, Machine.takeOut, hremove]
    rfl

/-- To put a slot in by splicing both columns, counted from the bottom, is to do so by counting from
the top. -/
theorem insertBelow_faithful (h : s.IsAligned) (hn : n ≤ s.depth) (slot : Slot) :
    Faithful Stack.IsAligned (insertBelow n slot s) (.ok (s.insertBelow n slot)) := by
  have haligned := h.insertBelow n slot
  refine ⟨?_, .ok haligned⟩
  rw [← splice_in h hn] at haligned ⊢
  rw [insertBelow, if_neg (Nat.not_lt_of_le hn), bind_run (minus_run hn),
    bind_run (splice_run haligned)]
  rfl

theorem need_faithful (hn : 0 < n) (s : Stack) :
    Faithful (fun _ => n ≤ s.depth) (need n s) (Machine.need n s) :=
  .ite (fun h => .ok h) fun _ => .of_run (minus_run (Nat.succ_le_of_lt hn)) (.error _)

/-- To drop slots is to take one after the other. -/
theorem dropTimes_faithful (h : s.IsAligned) (hn : n ≤ s.depth) :
    Faithful Stack.IsAligned (dropTimes n s) (.ok ⟨s.values.drop n, s.names.drop n⟩) := by
  induction n generalizing s with
  | zero => exact .ok h
  | succ n ih =>
    obtain ⟨_ | ⟨v, vs⟩, _ | ⟨name, names⟩⟩ := s
    · cases hn
    · cases h
    · cases h
    · have hrest : (⟨vs, names⟩ : Stack).IsAligned := Nat.succ.inj h
      have hpop : (popSlot ⟨v :: vs, name :: names⟩).run = .ok (.ok ((v, name), ⟨vs, names⟩)) :=
        (popSlot_faithful h).run_eq
      exact .of_run hpop (ih hrest (Nat.le_of_succ_le_succ hn))

theorem slot?_eq (s : Stack) (n : Nat) : s.slot? n = s.slots[n]? := by
  rw [Stack.slot?, Stack.slots, List.zip_eq_zipWith, List.getElem?_zipWith]
  cases s.values[n]? <;> cases s.names[n]? <;> rfl

/-- To look at slots downwards is to look at one after the other. -/
theorem peekDown_run (h : s.IsAligned) (hn : n ≤ s.slots.length) :
    (peekDown s n).run = .ok (.ok (s.slots.take n).reverse) := by
  induction n with
  | zero => rfl
  | succ n ih =>
    have hslot : s.slots[n]? = some s.slots[n] := List.getElem?_eq_getElem hn
    have hpeek : (peek n s).run = .ok (.ok s.slots[n]) := by
      rw [(peek_faithful h n).run_eq, Machine.peek, slot?_eq, hslot]
    rw [peekDown, bind_run hpeek, bind_run (ih (Nat.le_of_succ_le hn)), List.take_add_one, hslot,
      Option.toList_some, List.reverse_append]
    rfl

theorem pushSlots_reverse (s : Stack) (slots : List Slot) :
    s.pushSlots slots.reverse = ⟨slots.map (·.1) ++ s.values, slots.map (·.2) ++ s.names⟩ := by
  rw [Stack.pushSlots, List.foldl_reverse]
  induction slots with
  | nil => rfl
  | cons slot slots ih =>
    rw [List.foldr_cons, ih]
    rfl

/-- To copy slots is to push them, from the lowest on. -/
theorem pushSlots_take (h : s.IsAligned) (n : Nat) :
    s.pushSlots (s.slots.take n).reverse =
      ⟨s.values.take n ++ s.values, s.names.take n ++ s.names⟩ := by
  have hvalues : s.slots.map (·.1) = s.values := List.map_fst_zip (Nat.le_of_eq h)
  have hnames : s.slots.map (·.2) = s.names := List.map_snd_zip (Nat.le_of_eq h.symm)
  rw [pushSlots_reverse, List.map_take, List.map_take, hvalues, hnames]

end Guarded

end Utxo.Machine
