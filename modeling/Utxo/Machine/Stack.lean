/-
Stacks of named values.

A stack is two columns, the values and their names, both with the top first. All operations move
a value together with its name, so the columns stay equally long (`IsAligned`), and a stack can be
read as one list of slots. Only equally long columns make a stack (`ofColumns`).
-/
import Utxo.Script.Error

namespace Utxo

/-- A value with its name. -/
abbrev Slot := Bytes × String

/-- A stack of named values, top first. -/
structure Stack where
  values : List Bytes
  names : List String
deriving DecidableEq

/-- Columns of different lengths make no stack. -/
structure Stack.Misaligned where
  values : Nat
  names : Nat
deriving DecidableEq

/-- What the error says. -/
def Stack.Misaligned.message (e : Stack.Misaligned) : String :=
  s!"checkConsistency fail, stack: {e.values}, varStack: {e.names}"

namespace Stack

/-- The name of a value that was given none. -/
def defaultName : String := "$tmp"

/-- The stack without slots. -/
def empty : Stack := ⟨[], []⟩

/-- Whether there is a name for every value. -/
def IsAligned (s : Stack) : Prop := s.values.length = s.names.length

instance (s : Stack) : Decidable s.IsAligned := inferInstanceAs (Decidable (_ = _))

/-- The stack with these values and names, bottom first. -/
def ofColumns (values : List Bytes) (names : List String) : Except Misaligned Stack :=
  if values.length = names.length then .ok ⟨values.reverse, names.reverse⟩
  else .error ⟨values.length, names.length⟩

/-- The slots, top first. -/
def slots (s : Stack) : List Slot := s.values.zip s.names

/-- The values, bottom first. -/
def valuesUp (s : Stack) : List Bytes := s.values.reverse

/-- The names, bottom first. -/
def namesUp (s : Stack) : List String := s.names.reverse

/-- The number of slots. -/
def depth (s : Stack) : Nat := s.values.length

/-- Whether there is no slot. -/
def isEmpty (s : Stack) : Bool := s.values.isEmpty

/-- Puts a slot on top. -/
def pushSlot (s : Stack) (slot : Slot) : Stack := ⟨slot.1 :: s.values, slot.2 :: s.names⟩

/-- Puts a value without a name of its own on top. -/
def push (s : Stack) (value : Bytes) : Stack := s.pushSlot (value, defaultName)

/-- Puts several slots on top, the last one highest. -/
def pushSlots (s : Stack) (slots : List Slot) : Stack := slots.foldl pushSlot s

/-- The top slot and the stack below it. -/
def pop? (s : Stack) : Option (Slot × Stack) :=
  match s.values, s.names with
  | v :: vs, n :: ns => some ((v, n), ⟨vs, ns⟩)
  | _, _ => none

/-- The slot with `n` slots above it. -/
def slot? (s : Stack) (n : Nat) : Option Slot :=
  match s.values[n]?, s.names[n]? with
  | some v, some name => some (v, name)
  | _, _ => none

/-- The slot with `n` slots above it, and the stack without it. -/
def remove? (s : Stack) (n : Nat) : Option (Slot × Stack) :=
  (s.slot? n).map fun slot => (slot, ⟨s.values.eraseIdx n, s.names.eraseIdx n⟩)

/-- Puts a slot below the `n` top ones. -/
def insertBelow (s : Stack) (n : Nat) (slot : Slot) : Stack :=
  ⟨s.values.take n ++ slot.1 :: s.values.drop n, s.names.take n ++ slot.2 :: s.names.drop n⟩

/-- Gives new names to the top slots; the last name goes to the top. -/
def rename (s : Stack) (names : List String) : Except Script.Error Stack :=
  if names.length ≤ s.names.length then
    .ok ⟨s.values, names.reverse ++ s.names.drop names.length⟩
  else .error (.tooManyNames names.length s.names.length)

/-! ### Counting from the bottom -/

/-- A column with `items` in place of the positions from `first` to before `last`, both counted
from the bottom, and what was there. -/
def spliceColumn {α : Type} (column : List α) (first last : Nat) (items : List α) :
    List α × List α :=
  let up := column.reverse
  ((up.take first ++ items ++ up.drop last).reverse, (up.take last).drop first)

/-- Puts slots in place of `count` slots from position `start` on, and gives those replaced. A
position or a count beyond the top stops there. -/
def splice (s : Stack) (start count : Nat) (items : List Slot) : List Slot × Stack :=
  let first := min start s.depth
  let last := min (first + count) s.depth
  let (values, oldValues) := spliceColumn s.values first last (items.map (·.1))
  let (names, oldNames) := spliceColumn s.names first last (items.map (·.2))
  (oldValues.zip oldNames, ⟨values, names⟩)

/-- The values from position `start` to before `stop`, as far as they exist. -/
def slice (s : Stack) (start stop : Nat) : List Bytes := (s.valuesUp.take stop).drop start

/-! ### Offsets from the top -/

/-- How many slots are above the one at an offset: -1 is the top. -/
def above? (s : Stack) (offset : Int) : Option Nat :=
  if offset < 0 ∧ offset.natAbs ≤ s.depth then some (offset.natAbs - 1) else none

/-- The value at an offset. -/
def valueAt? (s : Stack) (offset : Int) : Option Bytes := (s.above? offset).bind (s.values[·]?)

/-- The name at an offset. -/
def nameAt? (s : Stack) (offset : Int) : Option String := (s.above? offset).bind (s.names[·]?)

/-- The stack with another value at an offset, if there is a slot. -/
def setValue? (s : Stack) (offset : Int) (value : Bytes) : Option Stack :=
  (s.above? offset).map fun n => ⟨s.values.set n value, s.names⟩

end Stack

end Utxo
