/-
Signature checks.

A check takes a public key and a signature. An empty signature is not valid. Any other has to pass
the rules on its form, and then the checker is asked; if the checker is unable to tell, the
signature is not valid.
-/
import Utxo.Machine.Operand
import Utxo.Machine.State

namespace Utxo.Machine

/-- The bit of a signature type that commits to the fork id. -/
def forkIdBit : UInt8 := 0x40

/-- The bit of a signature type that leaves other inputs open. -/
def anyoneCanPayBit : UInt8 := 0x80

/-- The rule on the type of a signature. -/
def checkType (rules : Rules) (flag : UInt8) : Except Fault Unit :=
  let base := flag &&& ~~~(anyoneCanPayBit ||| forkIdBit)
  if !rules.strictEncoding then .ok ()
  else if !(1 ≤ base && base ≤ 3) then .error (.signatureType flag)
  else if rules.forkId && flag &&& forkIdBit = 0 then .error .forkIdMissing
  else if !rules.forkId && flag &&& forkIdBit ≠ 0 then .error .forkIdUnexpected
  else .ok ()

/-- The rule on the form of a signature, its type apart. -/
def checkForm (rules : Rules) (der : Bytes) : Except Fault Unit :=
  if rules.derSignatures || rules.lowS || rules.strictEncoding then
    match Signature.ofDer der with
    | .error e => .error (.signatureForm e)
    | .ok sig => if rules.lowS && !sig.hasLowS then .error .highS else .ok ()
  else .ok ()

/-- Whether bytes look like a public key: a tag and one or two coordinates. -/
def looksLikeKey : Bytes → Bool
  | tag :: coordinates =>
    ((tag = 2 || tag = 3) && coordinates.length = 32) || (tag = 4 && coordinates.length = 64)
  | [] => false

/-- The rule on the form of a public key. -/
def checkKey (rules : Rules) (key : Bytes) : Except Fault Unit :=
  if rules.strictEncoding && !looksLikeKey key then .error .publicKeyForm else .ok ()

/-- What a signature commits to: the chunks from `start` on without separators and, for a type
without the fork id, without pushes of the signature. -/
def scriptCode (script : List Chunk) (start : Nat) (signature : Bytes) (flag : UInt8) : Script :=
  .ofChunks <| (script.drop start).filter fun c =>
    c.op ≠ Opcode.codeSeparator && !(flag &&& forkIdBit = 0 && c.data = some signature)

/-- Pushes whether a signature is valid. -/
def settleCheck (rules : Rules) (signature : Bytes) (valid : Bool) (s : State) : Move :=
  if !valid && !signature.isEmpty && rules.nullFail then
    .stop (.failed .signatureNotEmpty s.calls)
  else .next { s with main := s.main.push (Number.ofBool valid) }

/-- Asks the checker. -/
def askChecker (checker : Checker) (call : Call) (s : State) : Bool :=
  match checker.answer s.calls call with
  | .ok valid => valid
  | .error _ => false

/-- The rules on the form of a signature and a public key, in order. -/
def checkForms (rules : Rules) (der : Bytes) (flag : UInt8) (key : Bytes) : Except Fault Unit := do
  checkType rules flag
  checkForm rules der
  checkKey rules key

/-- Checks the signature and public key on top of the stack and pushes whether it is valid. -/
def runCheckSig (setting : Setting) (script : List Chunk) (s : State) : Move :=
  match (do
    let (key, main) ← popValue s.main
    let (signature, main) ← popValue main
    return (key, signature, main) : Except Fault (Bytes × Bytes × Stack)) with
  | .error fault => .stop (.failed fault s.calls)
  | .ok (key, signature, main) =>
    let s := { s with main }
    match signature.getLast? with
    | none => settleCheck setting.rules signature false s
    | some flag =>
      match checkForms setting.rules signature.dropLast flag key with
      | .error fault => .stop (.failed fault s.calls)
      | .ok () =>
        match setting.checker with
        | none => .stop (.failed .noChecker s.calls)
        | some checker =>
          let call : Call :=
            ⟨signature, key, scriptCode script s.codeStart signature flag, setting.inputIndex, flag⟩
          settleCheck setting.rules signature (askChecker checker call s)
            { s with calls := s.calls ++ [call] }

end Utxo.Machine
