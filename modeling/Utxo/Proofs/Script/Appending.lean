/-
Sinks as byte strings that grow.

What can be told of a sink is the bytes written and its capacity (`Sink.View`).  A write puts its bytes
behind those written before; if they do not fit, the capacity becomes twice the length then needed.  The
calls of the writers come down to such writes: one for each call, but two for a push, of its header and
of its data, and none for a call that is refused.

Underneath there is only a buffer and a length (`Sink.Storage`), and the bytes are stored place by place,
in their order or against it.  No byte is ever stored outside of the buffer, and a call that is refused
is refused before anything is stored.

* **`Sink.view_write`** — a write, as far as it can be told from outside;
* **`Sink.Call.run_eq`** — the writes that a call comes down to;
* **`Sink.after_eq`**, **`Sink.view_after`** — calls one after the other;
* **`Sink.Call.on_store`** — storing does what the writers say;
* **`Sink.after_isAppending`** — all of this, for sinks however they are made.
-/
import Mathlib.Data.Nat.Digits.Defs
import Utxo.Proofs.Bytes.Overwriting
import Utxo.Proofs.Bytes.ReadBack
import Utxo.Proofs.Steps
import Utxo.Script.Chunk

namespace Utxo

namespace Sink

/-! ### What can be told of a sink -/

/-- The bytes written, and the size of the buffer. -/
structure View where
  bytes : Bytes
  capacity : Nat
deriving DecidableEq

namespace View

/-- A byte string with more bytes behind it. The capacity stays if they fit, and is twice the length
needed otherwise. -/
def append (v : View) (bs : Bytes) : View where
  bytes := v.bytes ++ bs
  capacity :=
    if v.bytes.length + bs.length ≤ v.capacity then v.capacity
    else 2 * (v.bytes.length + bs.length)

/-- A byte string with several behind it, put there one by one. -/
def appendAll (v : View) (parts : List Bytes) : View := parts.foldl append v

theorem bytes_appendAll (v : View) (parts : List Bytes) :
    (v.appendAll parts).bytes = v.bytes ++ parts.flatten := by
  induction parts generalizing v with
  | nil => exact (List.append_nil _).symm
  | cons bs parts ih =>
    exact (ih (v.append bs)).trans (List.append_assoc v.bytes bs parts.flatten)

end View

/-- What can be told of a sink. -/
def view (s : Sink) : View := ⟨s.bytes, s.capacity⟩

theorem length_bytes (s : Sink) : s.bytes.length = s.length := List.length_take_of_le s.length_le

theorem capacity_write (s : Sink) (bs : Bytes) :
    (s.write bs).capacity =
      if s.length + bs.length ≤ s.capacity then s.capacity else 2 * (s.length + bs.length) := by
  have hroom := s.le_length_grown bs.length
  -- The bytes are written over room that is there by then, so only growing adds any.
  have hlength : (s.write bs).capacity = (s.grown bs.length).length := by
    simp only [capacity, write, List.length_append, List.length_take, List.length_drop]
    omega
  rw [hlength]
  unfold grown capacity
  split_ifs with hfits
  · rfl
  · rw [List.length_append, List.length_replicate]
    exact Nat.add_sub_cancel' (by omega)

/-- A write, as far as it can be told from outside. -/
theorem view_write (s : Sink) (bs : Bytes) : (s.write bs).view = s.view.append bs := by
  rw [view, bytes_write, capacity_write, ← s.length_bytes]
  rfl

theorem view_foldl_write (s : Sink) (parts : List Bytes) :
    (parts.foldl write s).view = s.view.appendAll parts := by
  induction parts generalizing s with
  | nil => rfl
  | cons bs parts ih =>
    rw [List.foldl_cons, ih, view_write]
    rfl

/-! ### How sinks are made -/

/-- The ways to make a sink. -/
inductive Origin where
  | empty
  | withCapacity (n : Nat)
  | ofBuffer (buffer : Bytes) (length : Nat)

namespace Origin

/-- The sink that is made. -/
def make : Origin → Except Sink.Error Sink
  | empty => .ok .empty
  | withCapacity n => .ok (.withCapacity n)
  | ofBuffer buffer length => Sink.ofBuffer buffer length

/-- What can be told of it. -/
def view : Origin → View
  | empty => ⟨[], 0⟩
  | withCapacity n => ⟨[], n⟩
  | ofBuffer buffer length => ⟨buffer.take length, buffer.length⟩

theorem view_make {o : Origin} {s : Sink} (h : o.make = .ok s) : s.view = o.view := by
  cases o with
  | empty =>
    cases h
    rfl
  | withCapacity n =>
    cases h
    exact congrArg (View.mk []) List.length_replicate
  | ofBuffer buffer length =>
    rw [make, Sink.ofBuffer] at h
    split_ifs at h
    cases h
    rfl

end Origin

/-- A buffer is refused just if it is shorter than what is said to be written. -/
theorem ofBuffer_eq_error_iff {buffer : Bytes} {length : Nat} {e : Error} :
    ofBuffer buffer length = .error e ↔
      buffer.length < length ∧ e = .shortBuffer length buffer.length := by
  unfold ofBuffer
  split_ifs with h
  · simp [h]
  · rw [Except.error.injEq]
    exact ⟨fun he => ⟨Nat.lt_of_not_le h, he.symm⟩, fun he => he.2.symm⟩

/-! ### The calls of the writers -/

/-- A call of a writer. -/
inductive Call where
  | item (i : Item)
  | u16BE (v : UInt16)
  | u32BE (v : UInt32)
  | u64BE (v : UInt64)
  | wideLE (n : Nat)
  | wideBE (n : Nat)
  | push (data : Bytes)
deriving DecidableEq

/-- Why a call is refused. -/
inductive Refusal where
  | sink (e : Sink.Error)
  | script (e : Script.Error)
deriving DecidableEq

namespace Call

/-- What a call makes of a sink. -/
def run : Call → Sink → Except Refusal Sink
  | item i, s => .ok (i.write s)
  | u16BE v, s => .ok (s.writeBE 2 v.toNat)
  | u32BE v, s => .ok (s.writeBE 4 v.toNat)
  | u64BE v, s => .ok (s.writeBE 8 v.toNat)
  | wideLE n, s => (s.writeWideLE n).mapError .sink
  | wideBE n, s => (s.writeWideBE n).mapError .sink
  | push data, s => (Push.writeTo s data).mapError .script

/-- The byte strings that a call writes one after the other, or why it writes nothing. -/
def writes : Call → Except Refusal (List Bytes)
  | item i => .ok [i.encoding]
  | u16BE v => .ok [bigEndian 2 v.toNat]
  | u32BE v => .ok [bigEndian 4 v.toNat]
  | u64BE v => .ok [bigEndian 8 v.toNat]
  | wideLE n =>
    if n < UInt64.size then .ok [littleEndian 8 n] else .error (.sink (.wideInteger n))
  | wideBE n =>
    if n < UInt64.size then .ok [bigEndian 8 n] else .error (.sink (.wideInteger n))
  | push data =>
    match Push.header data.length with
    | .ok h => .ok [h, data]
    | .error e => .error (.script e)

/-- The same, with nothing for a call that is refused. -/
def parts (call : Call) : List Bytes :=
  match call.writes with
  | .ok ws => ws
  | .error _ => []

/-- All the bytes that a call writes. -/
def encoding (call : Call) : Bytes := call.parts.flatten

/-- The writes that a call comes down to. -/
theorem run_eq (call : Call) (s : Sink) :
    call.run s = call.writes.map fun ws => ws.foldl write s := by
  cases call with
  | item i => cases i <;> rfl
  | u16BE v => rfl
  | u32BE v => rfl
  | u64BE v => rfl
  | wideLE n =>
    rw [run, writes, writeWideLE]
    split_ifs <;> rfl
  | wideBE n =>
    rw [run, writes, writeWideBE]
    split_ifs <;> rfl
  | push data =>
    rw [run, writes, Push.writeTo]
    cases Push.header data.length <;> rfl

theorem run_eq_error_iff {call : Call} {s : Sink} {e : Refusal} :
    call.run s = .error e ↔ call.writes = .error e := by
  rw [run_eq]
  cases call.writes <;> simp [Except.map]

/-- A call comes down to one write, or to none; a push, to two. -/
theorem length_parts_le_or (call : Call) :
    call.parts.length ≤ 1 ∨ ∃ data h, call = push data ∧ Push.header data.length = .ok h ∧
      call.parts = [h, data] := by
  rw [parts]
  cases call with
  | push data =>
    rw [writes]
    cases hheader : Push.header data.length with
    | ok h => exact .inr ⟨data, h, rfl, hheader, rfl⟩
    | error e => exact .inl (Nat.zero_le 1)
  | wideLE n | wideBE n =>
    rw [writes]
    split_ifs
    · exact .inl (Nat.le_refl 1)
    · exact .inl (Nat.zero_le 1)
  | item | u16BE | u32BE | u64BE => exact .inl (Nat.le_refl 1)

/-- An integer is refused just if it needs more than 64 bits. -/
theorem writes_wide_eq_error_iff {n : Nat} {e : Refusal} :
    ((wideLE n).writes = .error e ↔ 2 ^ 64 ≤ n ∧ e = .sink (.wideInteger n)) ∧
    ((wideBE n).writes = .error e ↔ 2 ^ 64 ≤ n ∧ e = .sink (.wideInteger n)) := by
  have hsize : UInt64.size = 2 ^ 64 := rfl
  rw [writes, writes, hsize]
  split_ifs with h
  · simp only [Nat.not_le.mpr h, false_and, and_self]
  · simp only [Except.error.injEq, Nat.le_of_not_lt h, true_and, eq_comm, and_self]

end Call

/-- The sink after a call, which is the sink before it if the call is refused. -/
def perform (s : Sink) (call : Call) : Sink :=
  match call.run s with
  | .ok t => t
  | .error _ => s

/-- The sink after some calls. -/
def after (s : Sink) (calls : List Call) : Sink := calls.foldl perform s

theorem perform_eq (s : Sink) (call : Call) : s.perform call = call.parts.foldl write s := by
  rw [perform, call.run_eq, Call.parts]
  cases call.writes <;> rfl

/-- Calls come down to the writes of each, one after the other. -/
theorem after_eq (s : Sink) (calls : List Call) :
    s.after calls = (calls.flatMap Call.parts).foldl write s := by
  induction calls generalizing s with
  | nil => rfl
  | cons call calls ih =>
    rw [List.flatMap_cons, List.foldl_append, ← perform_eq]
    exact ih (s.perform call)

theorem view_after (s : Sink) (calls : List Call) :
    (s.after calls).view = s.view.appendAll (calls.flatMap Call.parts) := by
  rw [after_eq, view_foldl_write]

theorem flatten_flatMap_parts (calls : List Call) :
    (calls.flatMap Call.parts).flatten = calls.flatMap Call.encoding := by
  rw [List.flatMap_def, List.flatten_flatten, List.map_map, List.flatMap_def]
  rfl

/-! ### The buffer underneath -/

/-- A buffer, and how many of its bytes count as written. -/
structure Storage where
  buffer : Bytes
  length : Nat

namespace Storage

/-- The bytes that count as written, if the buffer has as many. -/
def written? (st : Storage) : Option Bytes :=
  if st.length ≤ st.buffer.length then some (st.buffer.take st.length) else none

/-- The buffer without what is behind them. -/
def truncated (st : Storage) : Bytes :=
  if st.length < st.buffer.length then st.buffer.take st.length else st.buffer

end Storage

/-- What the sink is stored as. -/
def storage (s : Sink) : Storage := ⟨s.buffer, s.length⟩

theorem written?_storage (s : Sink) : s.storage.written? = some s.bytes := if_pos s.length_le

theorem truncated_storage (s : Sink) : s.storage.truncated = s.bytes := by
  unfold Storage.truncated
  split_ifs with h
  · rfl
  · exact (List.take_of_length_le (Nat.le_of_not_lt h)).symm

/-- Why storing ends before its end. -/
inductive Storage.Fault where
  /-- A place is not in the buffer. -/
  | outOfRange
  | refused (r : Refusal)

/-- Steps on a buffer. -/
abbrev Storing := Steps Storage.Fault Storage

namespace Storing

/-- Makes room for `n` bytes: if they do not fit, the buffer is grown to twice the length needed. -/
def ensure (n : Nat) : Storing Unit := modify fun st =>
  let needed := st.length + n
  if st.buffer.length < needed then
    { st with buffer := st.buffer ++ List.replicate (needed * 2 - st.buffer.length) 0 }
  else st

/-- Fills the next `n` places of the buffer. -/
def fill (n : Nat) (put : Bytes → Nat → Bytes) : Storing Unit := do
  ensure n
  let st ← get
  if st.length + n ≤ st.buffer.length then
    set (Storage.mk (put st.buffer st.length) (st.length + n))
  else
    throw .outOfRange

/-- Stores bytes, first byte first. -/
def write (bs : Bytes) : Storing Unit := fill bs.length fun buffer i => store buffer i bs

/-- Stores bytes, last byte first. -/
def writeReversed (bs : Bytes) : Storing Unit :=
  fill bs.length fun buffer i => storeReversed buffer i bs

/-- Stores as much of nine bytes as a compact size takes. -/
def compactSize (v : UInt64) : Storing Unit :=
  let (n, nine) := CompactSize.put v (List.replicate 9 0)
  write (nine.take n)

/-- The 64 bit digit that an integer consists of, if it has no other. -/
def word (n : Nat) : Storing Nat :=
  match Nat.digits UInt64.size n with
  | [] => return 0
  | [d] => return d
  | _ => throw (.refused (.sink (.wideInteger n)))

/-- Stores a push: its header, then its data. -/
def push (data : Bytes) : Storing Unit :=
  match Push.header data.length with
  | .ok h => do
    write h
    write data
  | .error e => throw (.refused (.script e))

end Storing

/-- Stores what a call writes. -/
def Call.store : Call → Storing Unit
  | item (.compactSize v) => .compactSize v
  | item (.reversed bs) => .writeReversed bs
  | item i => .write i.encoding
  | u16BE v => .write (bigEndian 2 v.toNat)
  | u32BE v => .write (bigEndian 4 v.toNat)
  | u64BE v => .write (bigEndian 8 v.toNat)
  | wideLE n => do .write (littleEndian 8 (← Storing.word n))
  | wideBE n => do .write (bigEndian 8 (← Storing.word n))
  | push data => .push data

namespace Storing

/-- What steps give on a stored sink, and what is stored afterwards. -/
def on {α : Type} (steps : Storing α) (s : Sink) : Except Storage.Fault α × Storage :=
  steps.run s.storage

theorem on_bind {α β : Type} {first : Storing α} {next : α → Storing β} {s t : Sink} {a : α}
    (h : first.on s = (.ok a, t.storage)) : (first >>= next).on s = (next a).on t :=
  Steps.on_bind_of_ok h

/-- The buffer with room made in it is the sink's buffer, grown. -/
theorem run_ensure (s : Sink) (n : Nat) :
    (ensure n).run s.storage = (.ok (), ⟨s.grown n, s.length⟩) := by
  have hgrown : s.grown n = if s.buffer.length < s.length + n then
      s.buffer ++ List.replicate ((s.length + n) * 2 - s.buffer.length) 0 else s.buffer := by
    rw [grown, Nat.mul_comm]
    split_ifs <;> first | rfl | omega
  rw [hgrown]
  show (Except.ok (), if s.buffer.length < s.length + n then _ else _) = _
  split_ifs <;> rfl

/-- With room made first, the places filled are in the buffer, and hold what a write puts there. -/
theorem on_fill (s : Sink) {bs : Bytes} {put : Bytes → Nat → Bytes}
    (hput : ∀ buffer i, i + bs.length ≤ buffer.length →
      put buffer i = buffer.take i ++ bs ++ buffer.drop (i + bs.length)) :
    (fill bs.length put).on s = (.ok (), (s.write bs).storage) := by
  have hroom := s.le_length_grown bs.length
  have hwritten : (s.write bs).storage =
      ⟨put (s.grown bs.length) s.length, s.length + bs.length⟩ := by
    rw [hput _ _ hroom]
    rfl
  rw [hwritten, fill]
  refine (Steps.on_bind_of_ok (run_ensure s bs.length)).trans ?_
  -- What is left is the check that the places are there, and room has just been made for them.
  show (if s.length + bs.length ≤ (s.grown bs.length).length then _ else _ : Storing Unit).run
    ⟨s.grown bs.length, s.length⟩ = _
  rw [if_pos hroom]
  rfl

theorem on_write (s : Sink) (bs : Bytes) : (write bs).on s = (.ok (), (s.write bs).storage) :=
  on_fill s fun _ _ hroom => store_eq hroom

theorem on_writeReversed (s : Sink) (bs : Bytes) :
    (writeReversed bs).on s = (.ok (), (s.writeReversed bs).storage) := by
  rw [writeReversed, ← List.length_reverse]
  refine on_fill s fun buffer i hroom => ?_
  rw [storeReversed_eq_store, store_eq hroom]

/-- Nine bytes are room for a compact size, which is at their start. -/
theorem on_compactSize (s : Sink) (v : UInt64) :
    (compactSize v).on s = (.ok (), (s.writeCompactSize v).storage) := by
  have hroom : CompactSize.size v ≤ (List.replicate 9 (0 : UInt8)).length := by
    rw [List.length_replicate, CompactSize.size]
    split_ifs <;> decide
  rw [compactSize, CompactSize.put_eq_overwrite hroom]
  show (write ((CompactSize.encode v ++ _).take (CompactSize.encode v).length)).on s = _
  rw [List.take_left]
  exact on_write s _

/-- An integer consists of at most one digit just if it fits in 64 bits. -/
theorem word_eq (n : Nat) :
    word n = if n < UInt64.size then return n else throw (.refused (.sink (.wideInteger n))) := by
  have hbase : 1 < UInt64.size := by decide
  unfold word
  split_ifs with hn
  · rcases Nat.eq_zero_or_pos n with rfl | hpos
    · rfl
    · rw [Nat.digits_of_lt _ n hpos.ne' hn]
  · have hpos : 0 < n := by omega
    have hquotient : 0 < n / UInt64.size := Nat.div_pos (Nat.le_of_not_lt hn) (by decide)
    -- The quotient has a digit as well.
    rw [Nat.digits_def' hbase hpos, Nat.digits_def' hbase hquotient]

end Storing

/-- Storing does what the writers say. No place is out of range, and a call that is refused has stored
nothing. -/
theorem Call.on_store (call : Call) (s : Sink) :
    call.store.on s = match call.run s with
      | .ok t => (.ok (), t.storage)
      | .error e => (.error (.refused e), s.storage) := by
  cases call with
  | item i =>
    -- Two kinds of values are stored in ways of their own, the others as the bytes they are written as.
    cases i with
    | compactSize v => exact Storing.on_compactSize s v
    | reversed bs => exact Storing.on_writeReversed s bs
    | u8 | u16 | u32 | i32 | u64 | bytes => exact Storing.on_write s _
  | u16BE v => exact Storing.on_write s _
  | u32BE v => exact Storing.on_write s _
  | u64BE v => exact Storing.on_write s _
  | wideLE n =>
    rw [store, Storing.word_eq, run, writeWideLE]
    split_ifs
    · exact Storing.on_write s _
    · rfl
  | wideBE n =>
    rw [store, Storing.word_eq, run, writeWideBE]
    split_ifs
    · exact Storing.on_write s _
    · rfl
  | push data =>
    rw [store, Storing.push, run, Push.writeTo]
    cases Push.header data.length with
    | ok h => exact (Storing.on_bind (Storing.on_write s h)).trans (Storing.on_write _ data)
    | error e => rfl

/-- What is stored after some calls, whether or not they are refused. -/
def Storage.after (st : Storage) (calls : List Call) : Storage :=
  calls.foldl (fun st call => (call.store.run st).2) st

theorem storage_after (s : Sink) (calls : List Call) :
    s.storage.after calls = (s.after calls).storage := by
  induction calls generalizing s with
  | nil => rfl
  | cons call calls ih =>
    have hstep : (call.store.run s.storage).2 = (s.perform call).storage := by
      rw [show call.store.run s.storage = call.store.on s from rfl, call.on_store, perform]
      cases call.run s <;> rfl
    show Storage.after (call.store.run s.storage).2 calls = _
    rw [hstep]
    exact ih (s.perform call)

/-! ### The two together -/

/-- A sink holds what it was made with and, behind it, what was written, call by call, without the calls
that were refused. What is written fits the capacity, which changes only with a write that does not fit,
to twice the length needed for that write; a push is two writes, any other call at most one. An integer
is refused just if it needs more than 64 bits, and then nothing changes. No more than the bytes and the
capacity can ever be told of a sink, whatever else its buffer held. The buffer underneath is stored to
within its bounds, and a call that is refused stores nothing. A buffer that is too short for a sink makes
none. -/
theorem after_isAppending :
    (∀ buffer length e, ofBuffer buffer length = .error e ↔
      buffer.length < length ∧ e = .shortBuffer length buffer.length) ∧
    ∀ (o : Origin) (s : Sink), o.make = .ok s → ∀ calls : List Call,
      let t := s.after calls
      t.bytes = o.view.bytes ++ calls.flatMap Call.encoding ∧
      t.view = o.view.appendAll (calls.flatMap Call.parts) ∧
      t.length = t.bytes.length ∧ t.length ≤ t.capacity ∧
      (∀ bs, (t.write bs).capacity =
        if t.length + bs.length ≤ t.capacity then t.capacity else 2 * (t.length + bs.length)) ∧
      (∀ call : Call, t.perform call = call.parts.foldl write t ∧
        (call.parts.length ≤ 1 ∨ ∃ data h, call = .push data ∧
          Push.header data.length = .ok h ∧ call.parts = [h, data])) ∧
      (∀ n e, ((Call.wideLE n).run t = .error e ↔ 2 ^ 64 ≤ n ∧ e = .sink (.wideInteger n)) ∧
        ((Call.wideBE n).run t = .error e ↔ 2 ^ 64 ≤ n ∧ e = .sink (.wideInteger n))) ∧
      (∀ s' : Sink, s'.view = s.view → (s'.after calls).view = t.view ∧
        ∀ call : Call, (call.run (s'.after calls)).map view = (call.run t).map view) ∧
      s.storage.after calls = t.storage ∧
      t.storage.written? = some t.bytes ∧ t.storage.truncated = t.bytes ∧
      ∀ call : Call, call.store.run t.storage = match call.run t with
        | .ok u => (.ok (), u.storage)
        | .error e => (.error (.refused e), t.storage) := by
  refine ⟨fun _ _ _ => ofBuffer_eq_error_iff, fun o s hs calls => ?_⟩
  have hview : (s.after calls).view = o.view.appendAll (calls.flatMap Call.parts) := by
    rw [view_after, Origin.view_make hs]
  refine ⟨?_, hview, (length_bytes _).symm, length_le_capacity _, capacity_write _,
    fun call => ⟨perform_eq _ call, call.length_parts_le_or⟩, fun n e => ?_, fun s' hs' => ?_,
    storage_after s calls, written?_storage _, truncated_storage _, fun call => call.on_store _⟩
  · rw [← flatten_flatMap_parts, ← View.bytes_appendAll, ← hview]
    rfl
  · simp only [Call.run_eq_error_iff]
    exact Call.writes_wide_eq_error_iff
  · have hafter : (s'.after calls).view = (s.after calls).view := by
      rw [view_after, view_after, hs']
    refine ⟨hafter, fun call => ?_⟩
    -- What a call gives can be told from what could be told before.
    have htold (t : Sink) : (call.run t).map view = call.writes.map t.view.appendAll := by
      rw [call.run_eq]
      cases call.writes with
      | error e => rfl
      | ok ws => exact congrArg Except.ok (view_foldl_write t ws)
    rw [htold, htold, hafter]

/-- Four calls on sinks over two bytes with different bytes behind them: two bytes that fit, an integer
that is refused, two bytes that do not fit, and a push that does again. -/
theorem after_isAppending_stale :
    ∃ s s' : Sink, (Origin.ofBuffer [1, 2, 0xee, 0xee, 0xee] 2).make = .ok s ∧
      (Origin.ofBuffer [1, 2, 0xaa, 0xbb, 0xcc] 2).make = .ok s' ∧
      (s.after [.item (.u16 0x0304), .wideBE (2 ^ 64), .item (.reversed [5, 6]), .push [7]]).view =
        ⟨[1, 2, 4, 3, 6, 5, 1, 7], 12⟩ ∧
      (s'.after [.item (.u16 0x0304), .wideBE (2 ^ 64), .item (.reversed [5, 6]), .push [7]]).view =
        ⟨[1, 2, 4, 3, 6, 5, 1, 7], 12⟩ := by
  obtain ⟨-, hrun⟩ := after_isAppending
  let s : Sink := ⟨[1, 2, 0xee, 0xee, 0xee], 2, by decide⟩
  let s' : Sink := ⟨[1, 2, 0xaa, 0xbb, 0xcc], 2, by decide⟩
  obtain ⟨-, hview, -, -, -, -, -, htold, -⟩ := hrun (.ofBuffer [1, 2, 0xee, 0xee, 0xee] 2) s rfl
    [.item (.u16 0x0304), .wideBE (2 ^ 64), .item (.reversed [5, 6]), .push [7]]
  have hs : (s.after _).view = ⟨[1, 2, 4, 3, 6, 5, 1, 7], 12⟩ := hview.trans (by decide)
  exact ⟨s, s', rfl, rfl, hs, (htold s' rfl).1.trans hs⟩

/-- One byte is pushed into a sink without a buffer. The header alone does not fit and makes room for two
bytes, so the data fits: the capacity is not twice the length of the push. -/
theorem capacity_push_ne_double :
    (empty.perform (.push [0xaa])).bytes = [0x01, 0xaa] ∧
      ¬ empty.length + (Call.push [0xaa]).encoding.length ≤ empty.capacity ∧
      (empty.perform (.push [0xaa])).capacity = 2 ∧
      (empty.perform (.push [0xaa])).capacity ≠
        2 * (empty.length + (Call.push [0xaa]).encoding.length) := by
  decide

end Sink

end Utxo
