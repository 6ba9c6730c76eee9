/-
Evaluating an unlocking script and then a locking script.

A script is evaluated chunk by chunk. A chunk is noted, admitted, executed unless it is passed over,
and settled. The two scripts share the main stack and nothing else, and the spend is valid if the
item left on top is true.
-/
import Utxo.Machine.Instruction

namespace Utxo.Machine

/-! ### One chunk -/

/-- The state with a chunk admitted: an operation counts even where it is passed over. -/
def enter (setting : Setting) (c : Chunk) (s : State) : Except Fault State := do
  let limits := setting.limits
  let instr := Instruction.ofOpcode c.op
  if limits.elementSize < c.dataLength then throw (.pushTooBig c.dataLength limits.elementSize)
  if instr = .disabled && (!setting.rules.afterGenesis || s.isExecuting) then
    throw (.disabledOpcode c.op)
  if instr = .reservedConditional && !setting.rules.afterGenesis then
    throw (.reservedOpcode c.op)
  let operations := if Opcode.sixteen < c.op then s.operations + 1 else s.operations
  if limits.operations < operations then throw (.tooManyOperations limits.operations)
  return { s with operations }

/-- What an admitted chunk does. -/
def perform (setting : Setting) (script : List Chunk) (c : Chunk) (s : State) : Move :=
  let instr := Instruction.ofOpcode c.op
  if !s.isExecuting && !instr.isConditional then .next s
  else match c.data with
    | some data => .next { s with main := s.main.push data }
    | none => instr.run setting script c.op s

/-- The state behind a chunk, if the stacks are not too deep. -/
def settle (setting : Setting) (s : State) : Move :=
  if setting.limits.stackDepth < s.depth then
    .stop (.failed (.stackOverflow s.depth setting.limits.stackDepth) s.calls)
  else .next { s with offset := s.offset + 1 }

/-- What a chunk leads to. -/
def step (setting : Setting) (script : List Chunk) (c : Chunk) (s : State) : Move :=
  (Move.ofExcept s (enter setting c s)).andThen fun s =>
    (perform setting script c s).andThen (settle setting)

/-! ### One script -/

/-- The end of a script whose chunks are all behind. -/
def atEnd (s : State) : Ending :=
  if s.branches.isEmpty then .completed s else .failed (.unbalanced .openAtEnd) s.calls

/-- Evaluates the chunks that are ahead, and notes each of them. -/
def runChunks (setting : Setting) (role : Role) (script : List Chunk) :
    List Chunk → State → List Step × Ending
  | [], s => ([], atEnd s)
  | c :: ahead, s =>
    match step setting script c s with
    | .next s' =>
      let (steps, ending) := runChunks setting role script ahead s'
      (⟨role, c, s⟩ :: steps, ending)
    | .stop ending => ([⟨role, c, s⟩], ending)

/-- Evaluates a script. -/
def runScript (setting : Setting) (role : Role) (script : List Chunk) (s : State) :
    List Step × Ending :=
  runChunks setting role script script s

/-! ### Both scripts -/

/-- The first chunk that the script ends inside of. -/
def truncated? (script : Script) : Option Fault :=
  (script.chunks.find? (·.isTruncated)).map fun c =>
    .truncatedPush c.op c.declaredLength c.dataLength

/-- Why two scripts are not evaluated at all. -/
def refusal? (setting : Setting) (unlocking locking : Script) : Option Fault :=
  let limit := setting.limits.scriptSize
  if limit < unlocking.length then some (.scriptTooBig .unlocking unlocking.length limit)
  else if limit < locking.length then some (.scriptTooBig .locking locking.length limit)
  else if unlocking.isEmpty && locking.isEmpty then some .nothingToRun
  else if setting.rules.pushOnly && !unlocking.isPushOnly then some .notPushOnly
  else (truncated? unlocking).or (truncated? locking)

/-- What the stack left by both scripts says. -/
def judge (rules : Rules) (s : Stack) : Except Fault Unit :=
  match s.values with
  | [] => .error .emptyStack
  | top :: rest =>
    if rules.cleanStack && !rest.isEmpty then .error (.uncleanStack rest.length)
    else if Number.truth top then .ok () else .error .falseResult

/-- An evaluation: its result, the chunks noted and the questions asked. -/
structure Run where
  result : Except Fault Unit
  steps : List Step
  calls : List Call

/-- Evaluates an unlocking and a locking script. -/
def run (setting : Setting) (unlocking locking : Script) : Run :=
  match refusal? setting unlocking locking with
  | some fault => ⟨.error fault, [], []⟩
  | none =>
    match runScript setting .unlocking unlocking.chunks .initial with
    | (steps, .failed fault calls) => ⟨.error fault, steps, calls⟩
    | (steps, .completed s) =>
      match runScript setting .locking locking.chunks s.handOver with
      | (more, .failed fault calls) => ⟨.error fault, steps ++ more, calls⟩
      | (more, .completed s) => ⟨judge setting.rules s.main, steps ++ more, s.calls⟩

/-- Evaluates an unlocking and a locking script under a set of flags. -/
def execute (limits : Limits) (flags : Flags) (checker : Option Checker) (inputIndex : Nat)
    (unlocking locking : Script) : Run :=
  run ⟨.ofFlags flags, limits, checker, inputIndex⟩ unlocking locking

end Utxo.Machine
