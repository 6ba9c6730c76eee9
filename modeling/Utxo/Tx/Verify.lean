/-
Verifying inputs.

An input is verified by evaluating its script against that of the output it spends, with signatures
checked against the preimage. The report names the error and the place where the evaluation
stopped.
-/
import Utxo.Machine.Run
import Utxo.Machine.Site
import Utxo.Tx.Signing

namespace Utxo.Tx

open Machine

/-- The outcome of a verification. -/
structure Report where
  success : Bool
  /-- What the fault says; empty for a success. -/
  error : String
  /-- Where the evaluation stopped; nothing for a success. -/
  failedAt : Site
deriving DecidableEq

namespace Report

/-- The report as JSON. -/
def toJson (r : Report) : String :=
  Json.printObject [("success", Json.printBool r.success), ("error", Json.printText r.error),
    ("failedAt", r.failedAt.toJson)]

/-- The report that a JSON text stands for. -/
def ofJson? (text : Bytes) : Option Report := do
  match ← Json.record? ["success", "error", "failedAt"] 3 (← Json.parse text) with
  | [some success, some error, some failedAt] =>
    return ⟨← success.asBool?, ← error.asText?, ← Site.ofJson? failedAt⟩
  | _ => none

end Report

/-- Whether the signature that is asked about is one of an input of a transaction. Bytes that are no
signature or no key are not valid. -/
def checkCall (scheme : SignatureScheme) (tx : Transaction) (satoshis : UInt64) (call : Call) :
    Except Error Bool :=
  if call.signature.isEmpty then .ok false
  else match Signature.ofDer call.signature.dropLast, scheme.readKey call.publicKey with
    | .ok signature, .ok key => do
      let h ← signatureHash tx
        ⟨call.inputIndex, call.scriptCode.bytes, call.flag.toUInt32, satoshis⟩
      return scheme.verify key h.bytes signature
    | _, _ => .ok false

/-- Checks signatures against a transaction and the value of the output that is spent. -/
def checker (scheme : SignatureScheme) (tx : Transaction) (satoshis : UInt64) : Checker where
  answer _ call := (checkCall scheme tx satoshis call).mapError Error.message

/-- The report on an evaluation. -/
def Report.ofRun (r : Run) : Report :=
  match r.result with
  | .ok () => ⟨true, "", .empty⟩
  | .error fault => ⟨false, fault.message, .ofVisits (r.steps.map (·.visit))⟩

namespace Input

/-- Verifies an input under limits and flags. There is no report on an evaluation that breaks off. -/
def verifyWith (scheme : SignatureScheme) (i : Input) (tx : Transaction) (index : Nat)
    (limits : Limits) (flags : Flags) : Except Error Report :=
  match i.spent with
  | none => .error .missingPrevOutput
  | some output =>
    if tx.inputs.length ≤ index then .error (.inputIndex index tx.inputs.length)
    else
      let r := execute limits flags (some (checker scheme tx output.satoshis)) index
        i.unlockingScript output.lockingScript
      match r.result with
      | .error .capacityOverflow => .error .capacityOverflow
      | _ => .ok (.ofRun r)

/-- Verifies an input under the standard flags, with items and numbers of any length. -/
def verify (scheme : SignatureScheme) (i : Input) (tx : Transaction) (index : Nat) :
    Except Error Report :=
  i.verifyWith scheme tx index .unlimited .standard

end Input

end Utxo.Tx
