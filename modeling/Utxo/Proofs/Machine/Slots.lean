/-
Stacks as lists of slots.

A stack keeps values and names in two columns, top first, and changes them by separate calls. Here
every operation is said again on one list of slots, bottom first (`Operation.onSlots`), and runs in
which stacks are made, copied and operated on are compared between both ways of keeping them.

* **`performs_giveNames`** — names are set one by one, and too many are refused before the first one;
* **`Operation.run_ofSlots`** — each operation does to both columns what it does to the one list;
* **`spliceWords_eq`** — positions reckoned in words of 64 bits are those reckoned in numbers;
* **`serveAll_isRefined`** — so a run on columns answers what the run on lists answers, and its stacks
  are those lists.
-/
import Mathlib.Data.List.Basic
import Mathlib.Tactic.Set
import Mathlib.Tactic.SplitIfs
import Utxo.Machine.Stack
import Utxo.Proofs.Steps

namespace Utxo.Stack

/-! ### One list -/

/-- The slots, bottom first. -/
def slotsUp (s : Stack) : List Slot := s.valuesUp.zip s.namesUp

/-- The stack that has these slots, bottom first. -/
def ofSlots (slots : List Slot) : Stack :=
  ⟨(slots.map (·.1)).reverse, (slots.map (·.2)).reverse⟩

variable {s : Stack} {slots : List Slot}

@[simp] theorem valuesUp_ofSlots (slots : List Slot) :
    (ofSlots slots).valuesUp = slots.map (·.1) := List.reverse_reverse _

@[simp] theorem namesUp_ofSlots (slots : List Slot) :
    (ofSlots slots).namesUp = slots.map (·.2) := List.reverse_reverse _

@[simp] theorem depth_ofSlots (slots : List Slot) : (ofSlots slots).depth = slots.length := by
  simp [ofSlots, depth]

@[simp] theorem slotsUp_ofSlots (slots : List Slot) : (ofSlots slots).slotsUp = slots := by
  rw [slotsUp, valuesUp_ofSlots, namesUp_ofSlots]
  exact (List.zip_of_prod rfl rfl).symm

theorem isAligned_ofSlots (slots : List Slot) : (ofSlots slots).IsAligned := by
  simp [ofSlots, IsAligned]

/-! ### Operations -/

/-- What can be asked of a stack. -/
inductive Operation where
  | push (value : Bytes) (name : Option String)
  | pushNamed (value : Bytes) (name : String)
  | pop
  | popNamed
  | rename (names : List String)
  | splice (start count : Nat) (items : List Bytes)
  | spliceNamed (start count : Nat) (items : List Slot)
  | write (offset : Int) (value : Bytes)
  | valueAt (offset : Int)
  | nameAt (offset : Int)
  | slice (start stop : Nat)
  | allValues
  | allNames
  | size
deriving DecidableEq

/-- What is answered. -/
inductive Answer where
  | done
  | value (v : Option Bytes)
  | name (n : Option String)
  | slot (slot : Option Slot)
  | values (vs : List Bytes)
  | names (ns : List String)
  | slots (slots : List Slot)
  | written (b : Bool)
  | size (n : Nat)
  | refused (e : Script.Error)
  | misaligned (e : Misaligned)
  /-- There is no such stack. -/
  | unknown

/-- Gives names to the top slots, one after the other from below; the last one goes to the top. -/
def setNames : List String → Steps Script.Error Stack Unit
  | [] => pure ()
  | name :: names => do
    modify fun s => { s with names := s.names.set names.length name }
    setNames names

/-- Gives new names to the top slots, if there are as many. -/
def giveNames (names : List String) : Steps Script.Error Stack Unit := do
  let s ← get
  if s.names.length < names.length then
    throw (.tooManyNames names.length s.names.length)
  else
    setNames names

/-- A value with the name that it is given, if it is given one. -/
def nameSlot (value : Bytes) (name : Option String) : Slot := (value, name.getD defaultName)

/-- An operation on the two columns. -/
def Operation.run : Operation → Stack → Answer × Stack
  | push value name, s => (.done, s.pushSlot (nameSlot value name))
  | pushNamed value name, s => (.done, s.pushSlot (value, name))
  | pop, s =>
    match s.pop? with
    | some (slot, s) => (.value (some slot.1), s)
    | none => (.value none, s)
  | popNamed, s =>
    match s.pop? with
    | some (slot, s) => (.slot (some slot), s)
    | none => (.slot none, s)
  | rename names, s =>
    match (giveNames names).on s with
    | (.ok (), s) => (.done, s)
    | (.error e, s) => (.refused e, s)
  | splice start count items, s =>
    let (removed, s) := s.splice start count (items.map (nameSlot · none))
    (.values (removed.map (·.1)), s)
  | spliceNamed start count items, s =>
    let (removed, s) := s.splice start count items
    (.slots removed, s)
  | write offset value, s =>
    match s.setValue? offset value with
    | some s => (.written true, s)
    | none => (.written false, s)
  | valueAt offset, s => (.value (s.valueAt? offset), s)
  | nameAt offset, s => (.name (s.nameAt? offset), s)
  | slice start stop, s => (.values (s.slice start stop), s)
  | allValues, s => (.values s.valuesUp, s)
  | allNames, s => (.names s.namesUp, s)
  | size, s => (.size s.depth, s)

/-! ### Operations on one list -/

/-- The position, counted from the bottom, at an offset from the top of `n` slots. -/
def position? (n : Nat) (offset : Int) : Option Nat :=
  if -(n : Int) ≤ offset ∧ offset < 0 then some (n + offset).toNat else none

/-- What was in the range of `count` slots from `start` on, cut off at the top, and the slots with
`items` in its place. -/
def replaceRange (slots : List Slot) (start count : Nat) (items : List Slot) :
    List Slot × List Slot :=
  let first := min start slots.length
  let last := min (start + count) slots.length
  ((slots.take last).drop first, slots.take first ++ items ++ slots.drop last)

/-- An operation on the one list of slots, bottom first. -/
def Operation.onSlots : Operation → List Slot → Answer × List Slot
  | push value name, slots => (.done, slots ++ [nameSlot value name])
  | pushNamed value name, slots => (.done, slots ++ [(value, name)])
  | pop, slots => (.value (slots.getLast?.map (·.1)), slots.dropLast)
  | popNamed, slots => (.slot slots.getLast?, slots.dropLast)
  | rename names, slots =>
    if names.length ≤ slots.length then
      let below := slots.length - names.length
      (.done, slots.take below ++ ((slots.drop below).map (·.1)).zip names)
    else (.refused (.tooManyNames names.length slots.length), slots)
  | splice start count items, slots =>
    let (removed, slots) := replaceRange slots start count (items.map (nameSlot · none))
    (.values (removed.map (·.1)), slots)
  | spliceNamed start count items, slots =>
    let (removed, slots) := replaceRange slots start count items
    (.slots removed, slots)
  | write offset value, slots =>
    match position? slots.length offset with
    | some i => (.written true, slots.modify i fun slot => (value, slot.2))
    | none => (.written false, slots)
  | valueAt offset, slots =>
    (.value ((position? slots.length offset).bind fun i => slots[i]?.map (·.1)), slots)
  | nameAt offset, slots =>
    (.name ((position? slots.length offset).bind fun i => slots[i]?.map (·.2)), slots)
  | slice start stop, slots => (.values (((slots.take stop).drop start).map (·.1)), slots)
  | allValues, slots => (.values (slots.map (·.1)), slots)
  | allNames, slots => (.names (slots.map (·.2)), slots)
  | size, slots => (.size slots.length, slots)

/-! ### Both columns change alike -/

theorem pushSlot_ofSlots (slots : List Slot) (slot : Slot) :
    (ofSlots slots).pushSlot slot = ofSlots (slots ++ [slot]) := by
  simp [ofSlots, pushSlot]

theorem pop?_cases (slots : List Slot) :
    slots = [] ∧ (ofSlots slots).pop? = none ∨
      ∃ below top, slots = below ++ [top] ∧ (ofSlots slots).pop? = some (top, ofSlots below) := by
  obtain rfl | ⟨below, top, rfl⟩ := List.eq_nil_or_concat slots
  · exact .inl ⟨rfl, rfl⟩
  · refine .inr ⟨below, top, List.concat_eq_append, ?_⟩
    simp [ofSlots, pop?]

/-- What is spliced into a column is spliced into the list that it is a column of. -/
theorem spliceColumn_map {α : Type} (f : Slot → α) (slots items : List Slot) (first last : Nat) :
    spliceColumn (slots.map f).reverse first last (items.map f) =
      (((slots.take first ++ items ++ slots.drop last).map f).reverse,
        ((slots.take last).drop first).map f) := by
  simp [spliceColumn]

theorem splice_ofSlots (slots items : List Slot) (start count : Nat) :
    (ofSlots slots).splice start count items =
      ((replaceRange slots start count items).1,
        ofSlots (replaceRange slots start count items).2) := by
  have hlast : min (min start slots.length + count) slots.length =
      min (start + count) slots.length := by omega
  simp only [splice, depth_ofSlots, hlast, replaceRange]
  simp only [ofSlots, spliceColumn_map]
  rw [← List.zip_of_prod rfl rfl]

/-- Names that are set one by one are those names in place of as many from the top. -/
theorem on_setNames {names : List String} (h : names.length ≤ s.names.length) :
    (setNames names).on s = (.ok (), ⟨s.values, names.reverse ++ s.names.drop names.length⟩) := by
  induction names generalizing s with
  | nil => rfl
  | cons name names ih =>
    have hlt : names.length < s.names.length := h
    -- The first name goes below the others, which are set after it.
    have hset : (s.names.set names.length name).drop names.length =
        name :: s.names.drop (names.length + 1) := by
      rw [List.set_eq_take_append_cons_drop, if_pos hlt,
        List.drop_left' (List.length_take_of_le (Nat.le_of_lt hlt))]
    show (setNames names).on { s with names := s.names.set names.length name } = _
    rw [ih (by simpa using Nat.le_of_lt hlt), hset, List.reverse_cons, List.append_assoc]
    rfl

/-- More names than slots are refused before the first one is set. -/
theorem performs_giveNames (names : List String) : (giveNames names).Performs (·.rename names) := by
  intro s
  show (if s.names.length < names.length then _ else _ : Steps Script.Error Stack Unit).on s = _
  by_cases h : names.length ≤ s.names.length
  · rw [if_neg (Nat.not_lt_of_le h), on_setNames h]
    simp only [rename, if_pos h]
  · rw [if_pos (Nat.lt_of_not_le h)]
    simp only [rename, if_neg h]
    rfl

/-- The names of the top slots are replaced, and their values stay. -/
theorem rename_ofSlots {below top : List Slot} {names : List String}
    (h : top.length = names.length) :
    (ofSlots (below ++ top)).rename names =
      .ok (ofSlots (below ++ (top.map (·.1)).zip names)) := by
  have hlength : (top.map (·.1)).length = names.length := by rw [List.length_map, h]
  have hvalues : ((top.map (·.1)).zip names).map (·.1) = top.map (·.1) :=
    List.map_fst_zip (Nat.le_of_eq hlength)
  have hnames : ((top.map (·.1)).zip names).map (·.2) = names :=
    List.map_snd_zip (Nat.le_of_eq hlength.symm)
  simp [ofSlots, rename, h, hvalues, hnames]

theorem position?_cases (slots : List Slot) (offset : Int) :
    (∃ below slot above, slots = below ++ slot :: above ∧
        position? slots.length offset = some below.length ∧
        (ofSlots slots).above? offset = some above.length) ∨
      position? slots.length offset = none ∧ (ofSlots slots).above? offset = none := by
  by_cases h : -(slots.length : Int) ≤ offset ∧ offset < 0
  · have hlt : (slots.length + offset).toNat < slots.length := by omega
    refine .inl ⟨slots.take (slots.length + offset).toNat, slots[(slots.length + offset).toNat],
      slots.drop ((slots.length + offset).toNat + 1), ?_, ?_, ?_⟩
    · rw [List.getElem_cons_drop, List.take_append_drop]
    · rw [position?, if_pos h, List.length_take_of_le (Nat.le_of_lt hlt)]
    · have habove : offset < 0 ∧ offset.natAbs ≤ (ofSlots slots).depth := by
        rw [depth_ofSlots]
        omega
      rw [above?, if_pos habove, List.length_drop]
      congr 1
      omega
  · have habove : ¬(offset < 0 ∧ offset.natAbs ≤ (ofSlots slots).depth) := by
      rw [depth_ofSlots]
      omega
    exact .inr ⟨if_neg h, if_neg habove⟩

/-- Each operation does to both columns what it does to the one list. -/
theorem Operation.run_ofSlots (op : Operation) (slots : List Slot) :
    op.run (ofSlots slots) = ((op.onSlots slots).1, ofSlots (op.onSlots slots).2) := by
  cases op with
  | push value name =>
    rw [run, onSlots, pushSlot_ofSlots]
  | pushNamed value name =>
    rw [run, onSlots, pushSlot_ofSlots]
  | pop =>
    rw [run, onSlots]
    obtain ⟨rfl, hpop⟩ | ⟨below, top, rfl, hpop⟩ := pop?_cases slots
    · rw [hpop]
      rfl
    · rw [hpop, List.getLast?_concat, List.dropLast_concat]
      rfl
  | popNamed =>
    rw [run, onSlots]
    obtain ⟨rfl, hpop⟩ | ⟨below, top, rfl, hpop⟩ := pop?_cases slots
    · rw [hpop]
      rfl
    · rw [hpop, List.getLast?_concat, List.dropLast_concat]
  | rename names =>
    simp only [run, onSlots]
    split_ifs with h
    · obtain ⟨below, top, rfl, htop⟩ : ∃ below top, slots = below ++ top ∧
          top.length = names.length :=
        ⟨slots.take (slots.length - names.length), slots.drop (slots.length - names.length),
          (List.take_append_drop _ _).symm, by rw [List.length_drop]; omega⟩
      have hbelow : (below ++ top).length - names.length = below.length := by
        rw [List.length_append, htop, Nat.add_sub_cancel]
      rw [(performs_giveNames names).on_of_ok (rename_ofSlots htop), hbelow, List.take_left,
        List.drop_left]
    · have hrefused : (ofSlots slots).rename names =
          .error (.tooManyNames names.length slots.length) := by
        rw [Stack.rename, if_neg (by simpa [ofSlots] using h)]
        simp [ofSlots]
      rw [(performs_giveNames names).on_of_error hrefused]
  | splice start count items =>
    rw [run, onSlots, splice_ofSlots]
  | spliceNamed start count items =>
    rw [run, onSlots, splice_ofSlots]
  | write offset value =>
    rw [run, onSlots, setValue?]
    obtain ⟨below, slot, above, rfl, hposition, habove⟩ | ⟨hposition, habove⟩ :=
      position?_cases slots offset
    · rw [hposition, habove]
      simp [ofSlots, List.modify_eq_take_drop]
    · rw [hposition, habove]
      rfl
  | valueAt offset =>
    rw [run, onSlots, valueAt?]
    obtain ⟨below, slot, above, rfl, hposition, habove⟩ | ⟨hposition, habove⟩ :=
      position?_cases slots offset
    · rw [hposition, habove]
      simp [ofSlots]
    · rw [hposition, habove]
      rfl
  | nameAt offset =>
    rw [run, onSlots, nameAt?]
    obtain ⟨below, slot, above, rfl, hposition, habove⟩ | ⟨hposition, habove⟩ :=
      position?_cases slots offset
    · rw [hposition, habove]
      simp [ofSlots]
    · rw [hposition, habove]
      rfl
  | slice start stop => simp [run, onSlots, Stack.slice]
  | allValues => simp [run, onSlots]
  | allNames => simp [run, onSlots]
  | size => simp [run, onSlots]

/-! ### Positions in words -/

/-- The sum of two words, or the greatest word if there is no room for the sum. -/
def saturatingAdd (a b : UInt64) : UInt64 :=
  if a + b < a then UInt64.ofNat (UInt64.size - 1) else a + b

/-- A splice whose positions are reckoned in words of 64 bits. -/
def spliceWords (s : Stack) (start count : UInt64) (items : List Slot) : List Slot × Stack :=
  let depth := UInt64.ofNat s.depth
  let first := min start depth
  let last := min (saturatingAdd first count) depth
  let (values, oldValues) := spliceColumn s.values first.toNat last.toNat (items.map (·.1))
  let (names, oldNames) := spliceColumn s.names first.toNat last.toNat (items.map (·.2))
  (oldValues.zip oldNames, ⟨values, names⟩)

theorem toNat_saturatingAdd (a b : UInt64) :
    (saturatingAdd a b).toNat = min (a.toNat + b.toNat) (UInt64.size - 1) := by
  have hsize : UInt64.size = 2 ^ 64 := rfl
  have ha := a.toNat_lt
  have hb := b.toNat_lt
  have hmax : (UInt64.ofNat (UInt64.size - 1)).toNat = 2 ^ 64 - 1 := rfl
  rw [saturatingAdd]
  -- A sum without room comes out below its terms.
  split_ifs with h
  · rw [UInt64.lt_iff_toNat_lt, UInt64.toNat_add] at h
    rw [hmax]
    omega
  · rw [UInt64.lt_iff_toNat_lt, UInt64.toNat_add] at h
    rw [UInt64.toNat_add]
    omega

theorem toNat_min (a b : UInt64) : (min a b).toNat = min a.toNat b.toNat := by
  show (if a ≤ b then a else b).toNat = _
  rw [Nat.min_def]
  simp only [UInt64.le_iff_toNat_le]
  split_ifs <;> rfl

/-- In words no sum is cut off below the depth of a stack. -/
theorem spliceWords_eq (h : s.depth < UInt64.size) (start count : UInt64) (items : List Slot) :
    s.spliceWords start count items = s.splice start.toNat count.toNat items := by
  have hdepth : (UInt64.ofNat s.depth).toNat = s.depth := UInt64.toNat_ofNat_of_lt' h
  have hfirst : (min start (UInt64.ofNat s.depth)).toNat = min start.toNat s.depth := by
    rw [toNat_min, hdepth]
  have hlast : (min (saturatingAdd (min start (UInt64.ofNat s.depth)) count)
      (UInt64.ofNat s.depth)).toNat = min (min start.toNat s.depth + count.toNat) s.depth := by
    rw [toNat_min, toNat_saturatingAdd, hfirst, hdepth]
    omega
  rw [spliceWords, hfirst, hlast]
  rfl

/-! ### Runs -/

/-- A request in a run: to make a stack, to copy one that was made before, or to operate on one. -/
inductive Request where
  | new
  | ofColumns (values : List Bytes) (names : List String)
  | copy (i : Nat)
  | on (i : Nat) (op : Operation)
deriving DecidableEq

/-- A way to keep a stack. -/
structure Keeping (α : Type) where
  empty : α
  ofColumns : List Bytes → List String → Except Misaligned α
  run : Operation → α → Answer × α

/-- Two columns, top first. -/
def columns : Keeping Stack := ⟨Stack.empty, Stack.ofColumns, Operation.run⟩

/-- One list of slots, bottom first. -/
def oneList : Keeping (List Slot) where
  empty := []
  ofColumns values names :=
    if values.length = names.length then .ok (values.zip names)
    else .error ⟨values.length, names.length⟩
  run := Operation.onSlots

namespace Keeping

variable {α : Type}

/-- The answer to a request, and the stacks that there are then. -/
def serve (k : Keeping α) (kept : List α) : Request → Answer × List α
  | .new => (.done, kept ++ [k.empty])
  | .ofColumns values names =>
    match k.ofColumns values names with
    | .ok s => (.done, kept ++ [s])
    | .error e => (.misaligned e, kept)
  | .copy i =>
    match kept[i]? with
    | some s => (.done, kept ++ [s])
    | none => (.unknown, kept)
  | .on i op =>
    match kept[i]? with
    | some s => ((k.run op s).1, kept.set i (k.run op s).2)
    | none => (.unknown, kept)

/-- The answers to requests one after the other, and the stacks that there are at the end. -/
def serveAll (k : Keeping α) (kept : List α) : List Request → List Answer × List α
  | [] => ([], kept)
  | r :: rs =>
    let (answer, kept) := k.serve kept r
    let (answers, kept) := k.serveAll kept rs
    (answer :: answers, kept)

end Keeping

theorem ofColumns_eq (values : List Bytes) (names : List String) :
    Stack.ofColumns values names = (oneList.ofColumns values names).map ofSlots := by
  rw [Stack.ofColumns, oneList]
  dsimp only
  split_ifs with h
  · have hvalues : (values.zip names).map (·.1) = values := List.map_fst_zip (Nat.le_of_eq h)
    have hnames : (values.zip names).map (·.2) = names := List.map_snd_zip (Nat.le_of_eq h.symm)
    rw [Except.map, ofSlots, hvalues, hnames]
  · rfl

/-- A request does to stacks in columns what it does to the lists that they are columns of. -/
theorem serve_columns (lists : List (List Slot)) (r : Request) :
    columns.serve (lists.map ofSlots) r =
      ((oneList.serve lists r).1, (oneList.serve lists r).2.map ofSlots) := by
  cases r with
  | new => simp [Keeping.serve, columns, oneList, ofSlots, Stack.empty]
  | ofColumns values names =>
    have hcolumns : columns.ofColumns values names = _ := ofColumns_eq values names
    rw [Keeping.serve, Keeping.serve, hcolumns]
    cases oneList.ofColumns values names with
    | ok slots => simp [Except.map]
    | error e => rfl
  | copy i =>
    rw [Keeping.serve, Keeping.serve, List.getElem?_map]
    cases lists[i]? with
    | some slots => simp
    | none => rfl
  | on i op =>
    rw [Keeping.serve, Keeping.serve, List.getElem?_map]
    cases lists[i]? with
    | some slots =>
      show ((op.run (ofSlots slots)).1, (lists.map ofSlots).set i (op.run (ofSlots slots)).2) = _
      rw [op.run_ofSlots, ← List.map_set]
      rfl
    | none => rfl

theorem serveAll_columns (lists : List (List Slot)) (rs : List Request) :
    columns.serveAll (lists.map ofSlots) rs =
      ((oneList.serveAll lists rs).1, (oneList.serveAll lists rs).2.map ofSlots) := by
  induction rs generalizing lists with
  | nil => rfl
  | cons r rs ih =>
    rw [Keeping.serveAll, serve_columns]
    dsimp only
    rw [ih]
    rfl

end Utxo.Stack
