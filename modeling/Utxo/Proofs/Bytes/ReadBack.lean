/-
What is written into a sink is read back.

Values of several kinds are written one behind the other (`Item`), with nothing between them that tells
where one ends.  Reads of the same kinds in the same order (`ReadCall`) give the values back and stop
where they end.  Whatever else is read from a byte string, and whether or not there is enough of it, the
cursor never goes back and never leaves it.

* **`Item.outcome_run`** — a value is read from where it stands, whatever follows it;
* **`Item.outcome_mapM_run`** — so are values one after the other;
* **`ReadCall.exists_isFixed`** — a read of a fixed width gives back the bytes it takes, as a value;
* **`Cursor.isIn_after`** — reads stay in the data;
* **`outcome_length_eq_tooLarge_iff`** — when a count or length is refused for its size;
* **`reads_followWrites`** — all of this, for any values written and any reads made.
-/
import Utxo.Bytes.Sink
import Utxo.Proofs.Bytes.FixedWidth

namespace Utxo

/-! ### Values and reads -/

/-- A value of some kind, as it is handed to a sink. -/
inductive Item where
  | u8 (v : UInt8)
  | u16 (v : UInt16)
  | u32 (v : UInt32)
  | i32 (v : Int32)
  | u64 (v : UInt64)
  | compactSize (v : UInt64)
  | bytes (bs : Bytes)
  | reversed (bs : Bytes)
deriving DecidableEq

/-- A read of a value. For byte strings it says how many bytes. -/
inductive ReadCall where
  | u8
  | u16
  | u32
  | i32
  | u64
  | compactSize
  | length
  | bytes (n : Nat)
  | reversed (n : Nat)
deriving DecidableEq

namespace Item

/-- Writes a value into a sink. -/
def write : Item → Sink → Sink
  | u8 v, s => s.writeByte v
  | u16 v, s => s.writeLE 2 v.toNat
  | u32 v, s => s.writeLE 4 v.toNat
  | i32 v, s => s.writeI32 v
  | u64 v, s => s.writeLE 8 v.toNat
  | compactSize v, s => s.writeCompactSize v
  | bytes bs, s => s.write bs
  | reversed bs, s => s.writeReversed bs

/-- The bytes that are written. -/
def encoding : Item → Bytes
  | u8 v => [v]
  | u16 v => littleEndian 2 v.toNat
  | u32 v => littleEndian 4 v.toNat
  | i32 v => littleEndian 4 v.toUInt32.toNat
  | u64 v => littleEndian 8 v.toNat
  | compactSize v => CompactSize.encode v
  | bytes bs => bs
  | reversed bs => bs.reverse

/-- The read of a value of this kind. -/
def call : Item → ReadCall
  | u8 _ => .u8
  | u16 _ => .u16
  | u32 _ => .u32
  | i32 _ => .i32
  | u64 _ => .u64
  | compactSize _ => .compactSize
  | bytes bs => .bytes bs.length
  | reversed bs => .reversed bs.length

/-- Writes values one behind the other. -/
def writeAll (items : List Item) (s : Sink) : Sink := items.foldl (fun s i => i.write s) s

end Item

namespace ReadCall

/-- The reader. A count or length is a compact size. -/
def run : ReadCall → Read Item
  | u8 => return .u8 (← Read.u8)
  | u16 => return .u16 (← Read.u16)
  | u32 => return .u32 (← Read.u32)
  | i32 => return .i32 (← Read.i32)
  | u64 => return .u64 (← Read.u64)
  | compactSize => return .compactSize (← Read.compactSize)
  | length => return .compactSize (← Read.length)
  | bytes n => return .bytes (← Read.bytes n)
  | reversed n => return .reversed (← Read.reversed n)

/-- How many bytes a read takes, if that does not depend on them. -/
def width? : ReadCall → Option Nat
  | u8 => some 1
  | u16 => some 2
  | u32 => some 4
  | i32 => some 4
  | u64 => some 8
  | compactSize => none
  | length => none
  | bytes n => some n
  | reversed n => some n

end ReadCall

/-- Where the cursor is after some reads, whether or not they give values. -/
def Cursor.after (c : Cursor) (calls : List ReadCall) : Cursor :=
  calls.foldl (fun c call => (outcome call.run c).2) c

/-! ### Readers of single values -/

theorem parses_u16 : Parses Read.u16 fun v bs => bs = littleEndian 2 v.toNat :=
  parses_word UInt16.toNat_lt (fun _ => UInt16.ofNat_toNat) fun _ hn => UInt16.toNat_ofNat_of_lt' hn

theorem parses_i32 : Parses Read.i32 fun v bs => bs = littleEndian 4 v.toUInt32.toNat := by
  refine (parses_u32.map UInt32.toInt32).of_iff fun v bs => ?_
  constructor
  · rintro ⟨u, rfl, rfl⟩
    rw [UInt32.toUInt32_toInt32]
  · rintro rfl
    exact ⟨v.toUInt32, rfl, (Int32.toInt32_toUInt32 v).symm⟩

theorem parses_reversed (n : Nat) :
    Parses (Read.reversed n) fun v bs => bs = v.reverse ∧ v.length = n := by
  refine ((parses_bytes n).map List.reverse).of_iff fun v bs => ?_
  constructor
  · rintro ⟨w, ⟨rfl, hn⟩, rfl⟩
    exact ⟨(List.reverse_reverse w).symm, by rw [List.length_reverse, hn]⟩
  · rintro ⟨rfl, hn⟩
    exact ⟨v.reverse, ⟨rfl, by rw [List.length_reverse, hn]⟩, (List.reverse_reverse v).symm⟩

/-- A reader that takes a byte string for a value finds it at the start of what is ahead. -/
theorem Parses.outcome_append {ε α : Type} {r : ExceptT ε (StateM Cursor) α}
    {W : α → Bytes → Prop} (h : Parses r W) {v : α} {w : Bytes} (hw : W v w) (k : Nat)
    (rest : Bytes) : outcome r ⟨k, w ++ rest⟩ = (.ok v, ⟨k + w.length, rest⟩) :=
  (h _ _ v).mpr ⟨w, hw, rfl, rfl⟩

/-- A count or length is refused for its size just if a form of it is there. -/
theorem outcome_length_eq_tooLarge_iff {c : Cursor} {v : UInt64} :
    (∃ c', outcome Read.length c = (.error (.tooLarge v), c')) ↔
      CompactSize.maxLength < v ∧ ∃ w rest, CompactSize.Form v w ∧ c.rest = w ++ rest := by
  have hform : (∃ w rest, CompactSize.Form v w ∧ c.rest = w ++ rest) ↔
      ∃ c', outcome Read.compactSize c = (.ok v, c') := by
    simp only [parses_compactSize c _ v]
    constructor
    · rintro ⟨w, rest, hw, hrest⟩
      exact ⟨⟨c.position + w.length, rest⟩, w, hw, hrest, rfl⟩
    · rintro ⟨c', w, hw, hrest, -⟩
      exact ⟨w, c'.rest, hw, hrest⟩
  rw [hform]
  unfold Read.length
  rw [outcome_bind]
  rcases hrun : outcome Read.compactSize c with ⟨e | a, c₁⟩
  · -- No compact size is there, and that is not the error in question.
    rw [outcome_compactSize_eq_error hrun]
    simp
  · by_cases hlarge : CompactSize.maxLength < a
    · dsimp only
      rw [if_pos hlarge]
      constructor
      · rintro ⟨c', hc'⟩
        cases hc'
        exact ⟨hlarge, c₁, rfl⟩
      · rintro ⟨-, c', hc'⟩
        cases hc'
        exact ⟨_, rfl⟩
    · dsimp only
      rw [if_neg hlarge]
      constructor
      · rintro ⟨c', hc'⟩
        cases hc'
      · rintro ⟨hv, c', hc'⟩
        cases hc'
        exact absurd hv hlarge

namespace Item

theorem bytes_write (i : Item) (s : Sink) : (i.write s).bytes = s.bytes ++ i.encoding := by
  cases i with
  | u8 v => exact s.bytes_write [v]
  | u16 v => exact s.bytes_write _
  | u32 v => exact s.bytes_write _
  | i32 v => exact s.bytes_write _
  | u64 v => exact s.bytes_write _
  | compactSize v => exact s.bytes_write _
  | bytes bs => exact s.bytes_write bs
  | reversed bs => exact s.bytes_write bs.reverse

theorem bytes_writeAll (items : List Item) (s : Sink) :
    (writeAll items s).bytes = s.bytes ++ items.flatMap encoding := by
  induction items generalizing s with
  | nil => exact (List.append_nil _).symm
  | cons i items ih =>
    show (writeAll items (i.write s)).bytes = _
    rw [ih, bytes_write, List.flatMap_cons, List.append_assoc]

/-- A value is read from where it stands, whatever follows it. -/
theorem outcome_run (i : Item) (k : Nat) (rest : Bytes) :
    outcome i.call.run ⟨k, i.encoding ++ rest⟩ = (.ok i, ⟨k + i.encoding.length, rest⟩) := by
  cases i with
  | u8 v => exact (parses_u8.map u8).outcome_append ⟨v, rfl, rfl⟩ k rest
  | u16 v => exact (parses_u16.map u16).outcome_append ⟨v, rfl, rfl⟩ k rest
  | u32 v => exact (parses_u32.map u32).outcome_append ⟨v, rfl, rfl⟩ k rest
  | i32 v => exact (parses_i32.map i32).outcome_append ⟨v, rfl, rfl⟩ k rest
  | u64 v => exact (parses_u64.map u64).outcome_append ⟨v, rfl, rfl⟩ k rest
  | compactSize v =>
    exact (parses_compactSize.map compactSize).outcome_append
      ⟨v, CompactSize.form_encode v, rfl⟩ k rest
  | bytes bs => exact ((parses_bytes _).map bytes).outcome_append ⟨bs, ⟨rfl, rfl⟩, rfl⟩ k rest
  | reversed bs =>
    exact ((parses_reversed _).map reversed).outcome_append ⟨bs, ⟨rfl, rfl⟩, rfl⟩ k rest

/-- So are values one after the other. -/
theorem outcome_mapM_run (items : List Item) (k : Nat) (rest : Bytes) :
    outcome ((items.map call).mapM ReadCall.run) ⟨k, items.flatMap encoding ++ rest⟩ =
      (.ok items, ⟨k + (items.flatMap encoding).length, rest⟩) := by
  induction items generalizing k with
  | nil => rfl
  | cons i items ih =>
    rw [List.map_cons, List.mapM_cons, List.flatMap_cons, List.append_assoc, outcome_bind,
      outcome_run]
    dsimp only
    rw [outcome_bind, ih, List.length_append, ← Nat.add_assoc]
    rfl

end Item

/-! ### What single reads do -/

/-- A word that is made of as many bytes as it has is written as these. -/
theorem littleEndian_word {α : Type} {w : Nat} {ofNat : Nat → α} {toNat : α → Nat}
    (hto : ∀ n, n < 256 ^ w → toNat (ofNat n) = n) {bs : Bytes} (h : bs.length = w) :
    littleEndian w (toNat (ofNat (ofLittleEndian bs))) = bs := by
  subst h
  rw [hto _ (ofLittleEndian_lt bs), littleEndian_ofLittleEndian]

namespace ReadCall

/-- A read of a fixed width gives a value of its kind that is written as the bytes it takes. -/
theorem exists_isFixed {call : ReadCall} {n : Nat} (h : call.width? = some n) :
    ∃ f : Bytes → Item, IsFixed call.run n f ∧
      ∀ bs, bs.length = n → (f bs).call = call ∧ (f bs).encoding = bs := by
  cases call with
  | compactSize => cases h
  | length => cases h
  | u8 =>
    cases h
    refine ⟨_, isFixed_u8.map Item.u8, fun bs hbs => ⟨rfl, ?_⟩⟩
    have hword : littleEndian 1 (UInt8.ofNat (ofLittleEndian bs)).toNat = bs :=
      littleEndian_word (fun _ hn => UInt8.toNat_ofNat_of_lt' hn) hbs
    rwa [littleEndian, littleEndian, UInt8.ofNat_toNat] at hword
  | u16 =>
    cases h
    exact ⟨_, isFixed_u16.map Item.u16, fun bs hbs =>
      ⟨rfl, littleEndian_word (fun _ hn => UInt16.toNat_ofNat_of_lt' hn) hbs⟩⟩
  | u32 =>
    cases h
    exact ⟨_, isFixed_u32.map Item.u32, fun bs hbs =>
      ⟨rfl, littleEndian_word (fun _ hn => UInt32.toNat_ofNat_of_lt' hn) hbs⟩⟩
  | i32 =>
    cases h
    refine ⟨_, isFixed_i32.map Item.i32, fun bs hbs => ⟨rfl, ?_⟩⟩
    show littleEndian 4 (UInt32.ofNat (ofLittleEndian bs)).toInt32.toUInt32.toNat = bs
    rw [UInt32.toUInt32_toInt32]
    exact littleEndian_word (fun _ hn => UInt32.toNat_ofNat_of_lt' hn) hbs
  | u64 =>
    cases h
    exact ⟨_, isFixed_u64.map Item.u64, fun bs hbs =>
      ⟨rfl, littleEndian_word (fun _ hn => UInt64.toNat_ofNat_of_lt' hn) hbs⟩⟩
  | bytes n =>
    cases h
    exact ⟨_, (isFixed_bytes n).map Item.bytes, fun bs hbs => ⟨congrArg ReadCall.bytes hbs, rfl⟩⟩
  | reversed n =>
    cases h
    refine ⟨_, (isFixed_reversed n).map Item.reversed, fun bs hbs => ⟨?_, bs.reverse_reverse⟩⟩
    exact congrArg ReadCall.reversed (bs.length_reverse.trans hbs)

/-- No read goes back, or past the end. -/
theorem advances (call : ReadCall) : Advances call.run := by
  cases hw : call.width? with
  | some n =>
    obtain ⟨f, hf, -⟩ := exists_isFixed hw
    exact hf.advances
  | none =>
    -- The two reads whose width depends on what they read.
    cases call with
    | compactSize => exact Advances.compactSize.bind fun v => .pure _
    | length => exact Advances.length.bind fun v => .pure _
    | u8 | u16 | u32 | i32 | u64 | bytes | reversed => cases hw

end ReadCall

/-- Reads stay in the data, whatever they are and whether or not they give values. -/
theorem Cursor.isIn_after {c : Cursor} {data : Bytes} (h : c.IsIn data) (calls : List ReadCall) :
    (c.after calls).IsIn data := by
  induction calls generalizing c with
  | nil => exact h
  | cons call calls ih =>
    -- One read moves over bytes that are ahead, so it ends in the data again.
    obtain ⟨n, hn, hmove⟩ := call.advances c
    have hstep : (outcome call.run c).2.IsIn data := by
      rw [hmove]
      exact h.advance hn
    exact ih hstep

/-! ### The two together -/

/-- Values that are written one behind the other are read back by the reads of their kinds in the same
order, which leave what follows them. Whatever is read from whatever data, the cursor stays where what
is behind it and what is ahead make up the data, and does not go back. A read of a fixed width takes
the next bytes and gives the value that is written as these, if there are so many, and does not move
otherwise. A count or length is refused for its size just if it is there in full and above
`2 ^ 53 - 1`. -/
theorem reads_followWrites :
    (∀ (s : Sink) (items : List Item) (trailing : Bytes),
      let t := Item.writeAll items s
      outcome ((items.map Item.call).mapM ReadCall.run)
          ((Cursor.start (t.bytes ++ trailing)).advance s.bytes.length) =
        (.ok items, ⟨t.bytes.length, trailing⟩)) ∧
    (∀ (data : Bytes) (calls : List ReadCall),
      let c := (Cursor.start data).after calls
      c.position + c.remaining = data.length ∧ c.rest = data.drop c.position ∧
      (∀ call : ReadCall, c.position ≤ (outcome call.run c).2.position) ∧
      (∀ (call : ReadCall) (n : Nat), call.width? = some n →
        (n ≤ c.remaining → ∃ item, outcome call.run c = (.ok item, c.advance n) ∧
          item.call = call ∧ item.encoding = (data.drop c.position).take n) ∧
        (c.remaining < n → outcome call.run c = (.error .endOfData, c))) ∧
      ∀ v, (∃ c', outcome ReadCall.length.run c = (.error (.tooLarge v), c')) ↔
        2 ^ 53 - 1 < v.toNat ∧
          ∃ w rest, CompactSize.Form v w ∧ data.drop c.position = w ++ rest) := by
  refine ⟨fun s items trailing => ?_, fun data calls => ?_⟩
  · dsimp only
    have hstart : (Cursor.start ((Item.writeAll items s).bytes ++ trailing)).advance
        s.bytes.length = ⟨s.bytes.length, items.flatMap Item.encoding ++ trailing⟩ := by
      rw [Item.bytes_writeAll, List.append_assoc, Cursor.start, Cursor.advance, Nat.zero_add,
        List.drop_left]
    rw [hstart, Item.outcome_mapM_run, Item.bytes_writeAll, List.length_append]
  · set c := (Cursor.start data).after calls with hc
    have hin : c.IsIn data := Cursor.isIn_after (Cursor.isIn_start data) calls
    refine ⟨hin.position_add_remaining, hin.rest_eq, fun call => ?_, fun call n hw => ?_, fun v => ?_⟩
    · obtain ⟨n, -, hmove⟩ := call.advances c
      rw [hmove]
      exact Nat.le_add_right _ n
    · obtain ⟨f, hf, hvalue⟩ := ReadCall.exists_isFixed hw
      refine ⟨fun hn => ?_, fun hn => by rw [hf c, if_neg (Nat.not_le.mpr hn)]⟩
      obtain ⟨hcall, hencoding⟩ := hvalue (c.rest.take n) (List.length_take_of_le hn)
      exact ⟨_, by rw [hf c, if_pos hn], hcall, by rw [hencoding, hin.rest_eq]⟩
    · have hlarge : CompactSize.maxLength < v ↔ 2 ^ 53 - 1 < v.toNat := UInt64.lt_iff_toNat_lt
      rw [← hlarge, ← hin.rest_eq, ← outcome_length_eq_tooLarge_iff]
      -- The value that is made of a length adds nothing to its refusals.
      show (∃ c', outcome (Read.length >>= fun v => pure (Item.compactSize v)) c = _) ↔ _
      rw [outcome_bind]
      rcases outcome Read.length c with ⟨e | a, c₁⟩
      · simp
      · constructor <;> rintro ⟨c', hc'⟩ <;> cases hc'

/-- Three values and a byte behind them; a length that no data has, asked for behind one of three bytes;
and the first integer above `2 ^ 53 - 1`, read as a length. -/
theorem reads_followWrites_far :
    outcome ([ReadCall.compactSize, .reversed 3, .i32].mapM ReadCall.run)
        (.start [0xfd, 0x2c, 0x01, 3, 2, 1, 0xfe, 0xff, 0xff, 0xff, 0xaa]) =
      (.ok [.compactSize 300, .reversed [1, 2, 3], .i32 (-2)], ⟨10, [0xaa]⟩) ∧
    outcome (ReadCall.bytes (2 ^ 64 - 1)).run ((Cursor.start [1, 2, 3]).after [.u8]) =
      (.error .endOfData, ⟨1, [2, 3]⟩) ∧
    ∃ c', outcome ReadCall.length.run (.start [0xff, 0, 0, 0, 0, 0, 0, 0x20, 0]) =
      (.error (.tooLarge 0x20000000000000), c') := by
  obtain ⟨hback, hreads⟩ := reads_followWrites
  obtain ⟨-, -, -, hfixed, -⟩ := hreads [1, 2, 3] [.u8]
  obtain ⟨-, -, -, -, hlarge⟩ := hreads [0xff, 0, 0, 0, 0, 0, 0, 0x20, 0] []
  have hwritten : (Item.writeAll [.compactSize 300, .reversed [1, 2, 3], .i32 (-2)] .empty).bytes =
      [0xfd, 0x2c, 0x01, 3, 2, 1, 0xfe, 0xff, 0xff, 0xff] := by decide
  have hthree := hback .empty [.compactSize 300, .reversed [1, 2, 3], .i32 (-2)] [0xaa]
  dsimp only at hthree
  rw [hwritten] at hthree
  have hcursor : (Cursor.start [1, 2, 3]).after [.u8] = ⟨1, [2, 3]⟩ := by decide
  rw [hcursor] at hfixed ⊢
  have hform := CompactSize.form_encode 0x20000000000000
  exact ⟨hthree, (hfixed (.bytes (2 ^ 64 - 1)) (2 ^ 64 - 1) rfl).2 (by decide),
    (hlarge _).mpr ⟨by decide, _, [], hform, by decide⟩⟩

end Utxo
