/-
Scripts that only push.

Which chunks push is told from the chunks alone (`Chunk.pushes`).  Such a chunk is executed wherever it
comes first, puts one item on the main stack (`Chunk.item`) and changes nothing else, so a script of
them has one state behind each of its chunks (`State.behindPushes`).

* **`step_pushes`** — the step of a chunk that pushes fails if its item or the stacks are too big, and
  else leaves the item on the main stack;
* **`Passed.pushes`** — behind some chunks of a script that only pushes are their items, and nothing else
  has changed;
* **`execute_pushOnly`** — so a script that only pushes hands over its items, and where this is asked
  for, any other script is turned down before its first step.
-/
import Utxo.Proofs.Machine.Ends
import Utxo.Proofs.Machine.Place
import Utxo.Proofs.Machine.Slots
import Utxo.Proofs.Machine.Straight

namespace Utxo

/-! ### Items -/

/-- The stack of these items, bottom first, none of which was given a name. -/
def Stack.ofItems (items : List Bytes) : Stack :=
  .ofSlots (items.map fun item => (item, defaultName))

theorem Stack.depth_ofItems (items : List Bytes) : (ofItems items).depth = items.length := by
  simp [ofItems]

theorem Stack.push_ofItems (items : List Bytes) (item : Bytes) :
    (ofItems items).push item = ofItems (items ++ [item]) := by
  rw [push, ofItems, pushSlot_ofSlots, ofItems, List.map_append]
  rfl

namespace Chunk

/-- Whether a chunk does nothing but push: it has all the bytes that it pushes, or its opcode stands for
a small number. -/
def pushes (c : Chunk) : Bool := (c.isPush && !c.isTruncated) || c.op.isSmallInt

/-- What a chunk that pushes puts on the stack: its bytes, or the byte of a small number, which for minus
one is a one with the sign bit. -/
def item (c : Chunk) : Bytes :=
  match c.data with
  | some data => data
  | none => if c.op = Opcode.negativeOne then [0x81] else [c.op - 0x50]

end Chunk

theorem Script.isPushOnly_iff {s : Script} : s.isPushOnly ↔ ∀ c ∈ s.chunks, c.pushes :=
  List.all_eq_true

namespace Machine

/-! ### One chunk -/

/-- The number that the opcode of a small number stands for. -/
def smallInt (op : Opcode) : Int := if op = Opcode.negativeOne then -1 else (op.toNat : Int) - 0x50

theorem Instruction.ofOpcode_of_isSmallInt : ∀ op : Opcode, op.isSmallInt →
    ofOpcode op = .constant (smallInt op) ∧
      Number.encode (smallInt op) = (Chunk.ofOpcode op).item :=
  forall_opcode (by decide +kernel)

/-- The opcodes of chunks that push count for nothing and are not barred. -/
theorem Instruction.of_isPush_or_isSmallInt : ∀ op : Opcode, op.isPush || op.isSmallInt →
    op ≤ Opcode.sixteen ∧ ofOpcode op ≠ .disabled ∧ ofOpcode op ≠ .reservedConditional :=
  forall_opcode (by decide +kernel)

variable {setting : Setting} {role : Role} {script : List Chunk} {c : Chunk} {s t : State}

/-- A chunk that pushes and is executed puts its item on the main stack. -/
theorem perform_pushes (hc : c.pushes) (hs : s.isExecuting) :
    perform setting script c s = .next { s with main := s.main.push c.item } := by
  rw [perform_of_isExecuting hs]
  cases hdata : c.data with
  | some data => simp [Chunk.item, hdata]
  | none =>
    have hsmall : c.op.isSmallInt := by simpa [Chunk.pushes, Chunk.isPush, hdata] using hc
    obtain ⟨hconstant, hencode⟩ := Instruction.ofOpcode_of_isSmallInt c.op hsmall
    have hitem : (Chunk.ofOpcode c.op).item = c.item := by
      rw [Chunk.item, Chunk.item, hdata]
      rfl
    rw [hitem] at hencode
    rw [hconstant, ← hencode]
    rfl

theorem opcode_of_pushes (hc : c.pushes) (hread : c.data.isSome = c.op.isPush) :
    c.op.isPush || c.op.isSmallInt := by
  unfold Chunk.pushes Chunk.isPush at hc
  rw [hread] at hc
  cases hpush : c.op.isPush with
  | true => rfl
  | false => simpa [hpush] using hc

theorem count_of_pushes (hc : c.pushes) (hread : c.data.isSome = c.op.isPush) (s : State) :
    s.count c = s := by
  obtain ⟨hle, -⟩ := Instruction.of_isPush_or_isSmallInt c.op (opcode_of_pushes hc hread)
  rw [State.count, cost, if_neg (UInt8.not_lt.mpr hle)]
  rfl

theorem barred?_of_pushes (hc : c.pushes) (hread : c.data.isSome = c.op.isPush) {operations : Nat}
    (hcount : operations ≤ setting.limits.operations) (executing : Bool) :
    barred? setting c executing operations =
      if setting.limits.elementSize < c.dataLength then
        some (.pushTooBig c.dataLength setting.limits.elementSize)
      else none := by
  obtain ⟨-, hdisabled, hreserved⟩ :=
    Instruction.of_isPush_or_isSmallInt c.op (opcode_of_pushes hc hread)
  by_cases hsize : setting.limits.elementSize < c.dataLength
  · rw [barred?, if_pos hsize, if_pos hsize]
  · rw [if_neg hsize, barred?_eq_none_iff hdisabled hreserved]
    exact ⟨Nat.le_of_not_lt hsize, hcount⟩

/-- The step of a chunk that pushes fails if its item or the stacks are too big, and else leaves the item
on the main stack. -/
theorem step_pushes (hc : c.pushes) (hread : c.data.isSome = c.op.isPush) (hs : s.isExecuting)
    (hcount : s.operations ≤ setting.limits.operations) :
    step setting script c s =
      if setting.limits.elementSize < c.dataLength then
        .stop (.failed (.pushTooBig c.dataLength setting.limits.elementSize) s.calls)
      else if setting.limits.stackDepth < s.depth + 1 then
        .stop (.failed (.stackOverflow (s.depth + 1) setting.limits.stackDepth) s.calls)
      else .next { s with main := s.main.push c.item, offset := s.offset + 1 } := by
  have hdepth : State.depth { s with main := s.main.push c.item } = s.depth + 1 := by
    simp only [State.depth, Stack.depth, Stack.push, Stack.pushSlot, List.length_cons]
    omega
  rw [step_eq, count_of_pushes hc hread, barred?_of_pushes hc hread hcount]
  split_ifs with hsize hroom
  · rfl
  · rw [perform_pushes hc hs]
    show settle setting _ = _
    rw [settle, hdepth, if_pos hroom]
  · rw [perform_pushes hc hs]
    show settle setting _ = _
    rw [settle, hdepth, if_neg hroom]

/-! ### Scripts -/

/-- The state behind the first `n` chunks of a script that only pushes. -/
def State.behindPushes (script : List Chunk) (n : Nat) : State :=
  .straight (.ofItems ((script.take n).map Chunk.item)) [] n 0

/-- The first `n` chunks of a script fit an evaluation that pushes them. -/
structure FitsPushes (limits : Limits) (script : List Chunk) (n : Nat) : Prop where
  size : ∀ c ∈ script.take n, c.dataLength ≤ limits.elementSize
  depth : n ≤ limits.stackDepth

theorem State.depth_behindPushes {n : Nat} (hn : n ≤ script.length) :
    (behindPushes script n).depth = n := by
  show (Stack.ofItems _).depth + Stack.empty.depth = n
  rw [Stack.depth_ofItems, List.length_map, List.length_take_of_le hn]
  rfl

theorem State.push_behindPushes {n : Nat} (hc : script[n]? = some c) :
    { behindPushes script n with
      main := (behindPushes script n).main.push c.item, offset := n + 1 } =
        behindPushes script (n + 1) := by
  have htake : (script.take (n + 1)).map Chunk.item =
      (script.take n).map Chunk.item ++ [c.item] := by
    rw [List.take_add_one, hc, Option.toList_some, List.map_append, List.map_singleton]
  rw [behindPushes, behindPushes, htake, ← Stack.push_ofItems]
  rfl

/-- The step of a chunk that pushes, behind the chunks before it. -/
theorem step_behindPushes {n : Nat} (hc : script[n]? = some c) (hpushes : c.pushes)
    (hread : c.data.isSome = c.op.isPush) :
    step setting script c (.behindPushes script n) =
      if setting.limits.elementSize < c.dataLength then
        .stop (.failed (.pushTooBig c.dataLength setting.limits.elementSize) [])
      else if setting.limits.stackDepth < n + 1 then
        .stop (.failed (.stackOverflow (n + 1) setting.limits.stackDepth) [])
      else .next (.behindPushes script (n + 1)) := by
  have hn : n ≤ script.length := Nat.le_of_lt (List.getElem?_eq_some_iff.mp hc).1
  rw [step_pushes hpushes hread rfl (Nat.zero_le _), State.depth_behindPushes hn,
    ← State.push_behindPushes hc]
  rfl

/-- Behind some chunks of a script that only pushes are their items, and nothing else has changed. -/
theorem Passed.pushes {steps : List Step} (h : Passed setting role script .initial steps s)
    (hscript : ∀ c ∈ script, c.pushes ∧ c.data.isSome = c.op.isPush) :
    s = .behindPushes script steps.length ∧ FitsPushes setting.limits script steps.length := by
  induction h with
  | nil => exact ⟨rfl, nofun, Nat.zero_le _⟩
  | @snoc steps c s t _ hc hnext ih =>
    obtain ⟨rfl, hfits⟩ := ih
    obtain ⟨hpushes, hread⟩ := hscript c (List.mem_of_getElem? hc)
    rw [step_behindPushes hc hpushes hread] at hnext
    split_ifs at hnext with hsize hroom
    cases hnext
    rw [List.length_append, List.length_singleton]
    refine ⟨rfl, fun d hd => ?_, Nat.le_of_not_lt hroom⟩
    rw [List.take_add_one, hc, Option.toList_some, List.mem_append, List.mem_singleton] at hd
    rcases hd with hd | rfl
    · exact hfits.size d hd
    · exact Nat.le_of_not_lt hsize

/-- A script that only pushes is completed behind its last chunk if it fits, and otherwise fails because
of the size of an item or the depth of the stacks. -/
theorem runScript_pushes (setting : Setting) (role : Role)
    (hscript : ∀ c ∈ script, c.pushes ∧ c.data.isSome = c.op.isPush) :
    (FitsPushes setting.limits script script.length ∧
        (runScript setting role script .initial).1.map Step.place = places role script ∧
        (runScript setting role script .initial).2 =
          .completed (.behindPushes script script.length)) ∨
      (¬FitsPushes setting.limits script script.length ∧
        ∃ fault, fault.code ∈ [Fault.Code.elementTooBig, .stackOverflow] ∧
          (runScript setting role script .initial).2 = .failed fault []) := by
  obtain ⟨before, s, hpassed, ⟨hlength, hrun⟩ | ⟨c, e, hc, hstop, hrun⟩⟩ :=
    exists_passed_runScript setting role script .initial
  · have hplace := hpassed.map_place rfl
    obtain ⟨rfl, hfits⟩ := hpassed.pushes hscript
    rw [hlength] at hfits hrun hplace
    rw [List.take_length] at hplace
    refine .inl ⟨hfits, ?_⟩
    rw [hrun]
    exact ⟨hplace, rfl⟩
  · -- The chunk at which the script stops does not fit.
    obtain ⟨rfl, -⟩ := hpassed.pushes hscript
    have hmem := List.mem_of_getElem? hc
    obtain ⟨hpushes, hread⟩ := hscript c hmem
    rw [step_behindPushes hc hpushes hread] at hstop
    refine .inr ?_
    rw [hrun]
    split_ifs at hstop with hsize hroom
    · cases hstop
      refine ⟨fun hfits => ?_, _, List.mem_cons_self, rfl⟩
      rw [← List.take_length (l := script)] at hmem
      exact Nat.not_le_of_lt hsize (hfits.size c hmem)
    · cases hstop
      refine ⟨fun hfits => ?_, _, List.mem_cons_of_mem _ List.mem_cons_self, rfl⟩
      have hlt := (List.getElem?_eq_some_iff.mp hc).1
      have hdepth := hfits.depth
      omega

/-! ### Evaluations -/

section Scripts

variable {unlocking locking : Script}

theorem pushes_of_isPushOnly {script : Script} (h : script.isPushOnly) :
    ∀ c ∈ script.chunks, c.pushes ∧ c.data.isSome = c.op.isPush := fun c hc =>
  ⟨Script.isPushOnly_iff.mp h c hc, Chunk.isSome_data_of_mem_decode hc⟩

/-- Before each of its steps, a script that only pushes has pushed the items of the chunks behind. -/
theorem before_eq_behindPushes (setting : Setting) {k : Step} (h : unlocking.isPushOnly)
    (hk : k ∈ (run setting unlocking locking).steps) (hrole : k.role = .unlocking) :
    k.before = .behindPushes unlocking.chunks k.before.offset := by
  obtain ⟨start, before, hbegins, hpassed, -⟩ := exists_passed_of_mem hk
  rw [hrole] at hbegins hpassed
  cases hbegins with
  | unlocking haccepted =>
    obtain ⟨hbefore, -⟩ := hpassed.pushes (pushes_of_isPushOnly h)
    rw [hbefore]
    rfl

/-- A script that only pushes and fits hands its items over. -/
theorem begins_of_fitsPushes (h : unlocking.isPushOnly)
    (haccepted : refusal? setting unlocking locking = none)
    (hfits : FitsPushes setting.limits unlocking.chunks unlocking.chunks.length) :
    ((run setting unlocking locking).stepsOf .unlocking).map Step.place =
        places .unlocking unlocking.chunks ∧
      ∃ s, Completes setting unlocking locking .unlocking s ∧ s.operations = 0 ∧ s.calls = [] ∧
        s.main = .ofItems (unlocking.chunks.map Chunk.item) ∧
        Begins setting unlocking locking .locking (.atStart s.main []) := by
  have hbegins := Begins.unlocking haccepted
  obtain ⟨-, hplace, hcompleted⟩ | ⟨hno, -⟩ :=
    runScript_pushes setting .unlocking (pushes_of_isPushOnly h)
  · have hmain : (State.behindPushes unlocking.chunks unlocking.chunks.length).main =
        .ofItems (unlocking.chunks.map Chunk.item) := by
      rw [State.behindPushes, List.take_length]
      rfl
    refine ⟨?_, _, ⟨_, hbegins, hcompleted⟩, rfl, rfl, hmain, .locking haccepted hcompleted⟩
    rw [← hplace, hbegins.stepsOf_eq]
    rfl
  · exact absurd hfits hno

/-- A script that only pushes and does not fit is the last one. -/
theorem run_of_not_fitsPushes (h : unlocking.isPushOnly)
    (haccepted : refusal? setting unlocking locking = none)
    (hfits : ¬FitsPushes setting.limits unlocking.chunks unlocking.chunks.length) :
    ∃ fault, fault.code ∈ [Fault.Code.elementTooBig, .stackOverflow] ∧
      run setting unlocking locking =
        ⟨.error fault, (runScript setting .unlocking unlocking.chunks .initial).1, []⟩ := by
  obtain ⟨hyes, -⟩ | ⟨-, fault, hcode, hfailed⟩ :=
    runScript_pushes setting .unlocking (pushes_of_isPushOnly h)
  · exact absurd hyes hfits
  · exact ⟨fault, hcode, run_eq_of_failed haccepted hfailed⟩

/-- Where only pushes are admitted, a script that does more is turned down. -/
theorem refusal?_of_not_isPushOnly (setting : Setting) (h : unlocking.isPushOnly = false)
    (hrule : setting.rules.pushOnly) (hunlocking : unlocking.length ≤ setting.limits.scriptSize)
    (hlocking : locking.length ≤ setting.limits.scriptSize) :
    refusal? setting unlocking locking = some .notPushOnly := by
  have hsome : unlocking.isEmpty = false := by
    obtain ⟨bytes⟩ := unlocking
    cases bytes with
    | nil => cases h
    | cons b bytes => rfl
  simp [refusal?, Nat.not_lt.mpr hunlocking, Nat.not_lt.mpr hlocking, hsome, hrule, h]

end Scripts

/-- Every chunk of an unlocking script that only pushes is executed, counts for no operation, asks no
question and finds just the items of the chunks before it.  The script fails only because of the size of
an item or the depth of the stacks; otherwise the locking script begins with the items of all its chunks.
Where only pushes are admitted, an unlocking script that does more is turned down before any step. -/
theorem execute_pushOnly (limits : Limits) (flags : Flags) (checker : Option Checker)
    (inputIndex : Nat) (unlocking locking : Script) :
    let setting := Setting.ofFlags limits flags checker inputIndex
    let r := execute limits flags checker inputIndex unlocking locking
    let chunks := unlocking.chunks
    (unlocking.isPushOnly → ¬IsRefused setting unlocking locking →
      (∀ k ∈ r.steps, k.role = .unlocking →
        k.executed ∧ k.before.operations = 0 ∧ k.before.calls = [] ∧
          k.before.main = .ofItems ((chunks.take k.before.offset).map Chunk.item)) ∧
      (FitsPushes limits chunks chunks.length →
        (r.stepsOf .unlocking).map Step.place = places .unlocking chunks ∧
          ∃ s, Completes setting unlocking locking .unlocking s ∧ s.operations = 0 ∧
            s.calls = [] ∧ s.main = .ofItems (chunks.map Chunk.item) ∧
            Begins setting unlocking locking .locking (.atStart s.main [])) ∧
      (¬FitsPushes limits chunks chunks.length →
        ∃ fault, fault.code ∈ [Fault.Code.elementTooBig, .stackOverflow] ∧
          r.result = .error fault ∧ r.calls = [] ∧ ∀ k ∈ r.steps, k.role = .unlocking)) ∧
    (unlocking.isPushOnly = false → flags.has .pushOnly → unlocking.length ≤ limits.scriptSize →
      locking.length ≤ limits.scriptSize →
        r.result = .error .notPushOnly ∧ r.steps = [] ∧ r.calls = []) := by
  intro setting r chunks
  refine ⟨fun hpush hrefused => ?_, fun hpush hrule hunlocking hlocking => ?_⟩
  · have haccepted : refusal? setting unlocking locking = none := refusal?_eq_none_iff.mpr hrefused
    refine ⟨fun k hk hrole => ?_, begins_of_fitsPushes hpush haccepted, fun hfits => ?_⟩
    · have hbefore := before_eq_behindPushes setting hpush hk hrole
      generalize k.before.offset = n at hbefore
      rw [Step.executed, hbefore]
      exact ⟨rfl, rfl, rfl, rfl⟩
    · obtain ⟨fault, hcode, hrun⟩ := run_of_not_fitsPushes hpush haccepted hfits
      refine ⟨fault, hcode, congrArg Run.result hrun, congrArg Run.calls hrun, fun k hk => ?_⟩
      have hsteps : r.steps = (runScript setting .unlocking chunks .initial).1 :=
        congrArg Run.steps hrun
      rw [hsteps] at hk
      exact runScript_role _ _ _ k hk
  · have hrefusal := refusal?_of_not_isPushOnly setting hpush hrule hunlocking hlocking
    have hrun := run_eq_of_refused hrefusal
    exact ⟨congrArg Run.result hrun, congrArg Run.steps hrun, congrArg Run.calls hrun⟩

/-- Minus one, two bytes, 16 and nothing are pushed where there is room for four items, not where there
is room for three; and a reserved opcode, although it stands between those of small numbers, does more
than push. -/
theorem execute_pushOnly_four_items :
    let unlocking : Script := ⟨[0x4f, 0x02, 0xaa, 0xbb, 0x60, 0x00]⟩
    let locking : Script := ⟨[0x61]⟩
    let four : Limits := { Limits.afterGenesis with stackDepth := 4 }
    let three : Limits := { Limits.afterGenesis with stackDepth := 3 }
    unlocking.isPushOnly ∧
      ¬IsRefused (.ofFlags four .pushOnly none 0) unlocking locking ∧
      FitsPushes four unlocking.chunks unlocking.chunks.length ∧
      Begins (.ofFlags four .pushOnly none 0) unlocking locking .locking
        (.atStart (.ofItems [[0x81], [0xaa, 0xbb], [16], []]) []) ∧
      ¬FitsPushes three unlocking.chunks unlocking.chunks.length ∧
      (∃ fault, fault.code ∈ [Fault.Code.elementTooBig, .stackOverflow] ∧
        (execute three .pushOnly none 0 unlocking locking).result = .error fault) ∧
      Script.isPushOnly ⟨[0x50]⟩ = false ∧
      (execute four .pushOnly none 0 ⟨[0x50]⟩ locking).result = .error .notPushOnly := by
  intro unlocking locking four three
  have hpush : unlocking.isPushOnly := by decide +kernel
  have hfour : ¬IsRefused (.ofFlags four .pushOnly none 0) unlocking locking :=
    refusal?_eq_none_iff.mp (by decide +kernel)
  have hthree : ¬IsRefused (.ofFlags three .pushOnly none 0) unlocking locking :=
    refusal?_eq_none_iff.mp (by decide +kernel)
  have hfits : FitsPushes four unlocking.chunks unlocking.chunks.length :=
    ⟨by decide +kernel, by decide +kernel⟩
  have hno : ¬FitsPushes three unlocking.chunks unlocking.chunks.length := fun h =>
    absurd h.depth (by decide +kernel)
  have hitems : unlocking.chunks.map Chunk.item = [[0x81], [0xaa, 0xbb], [16], []] := by
    decide +kernel
  obtain ⟨-, s, -, -, -, hmain, hbegins⟩ :=
    ((execute_pushOnly four .pushOnly none 0 unlocking locking).1 hpush hfour).2.1 hfits
  obtain ⟨fault, hcode, hresult, -⟩ :=
    ((execute_pushOnly three .pushOnly none 0 unlocking locking).1 hpush hthree).2.2 hno
  obtain ⟨hrefused, -⟩ := (execute_pushOnly four .pushOnly none 0 ⟨[0x50]⟩ locking).2
    (by decide +kernel) (by decide) (by decide) (by decide)
  rw [hmain, hitems] at hbegins
  exact ⟨hpush, hfour, hfits, hbegins, hno, ⟨fault, hcode, hresult⟩, by decide +kernel, hrefused⟩

end Machine

end Utxo
