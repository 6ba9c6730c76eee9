/-
Coins locked to the digest of a public key.

The locking script asks for a public key with a given digest and a signature by it; the unlocking
script is the signature and the key.
-/
import Utxo.Tx.Signing

namespace Utxo.Tx.P2pkh

/-- The script that locks to the digest of a public key. -/
def lock (h : Hash160) : Script :=
  ⟨[Opcode.dup, Opcode.hash160, 20] ++ h.bytes ++ [Opcode.equalVerify, Opcode.checkSig]⟩

/-- The script that locks to a public key. -/
def lockKey (key : PublicKey) : Script := lock key.hash160

/-- The script that unlocks with a signature. -/
def unlock (r : SignatureRecord) : Except Error Script :=
  (do
    let script ← Script.empty.pushData r.toCheckSig
    script.pushData r.publicKey.compressed.bytes).mapError .script

/-- An upper bound for the length of an unlocking script: two lengths, a signature with its type and
a compressed key. -/
def maxUnlockLength : Nat := 1 + 72 + 1 + 33

/-- The unlocking script of an input, signed with a key. -/
def sign (scheme : SignatureScheme) (key : PrivateKey) (type : Option UInt32) (tx : Transaction)
    (index : Nat) : Except Error Script :=
  match tx.inputs[index]? with
  | none => .error (.inputIndex index tx.inputs.length)
  | some input => do
    match ← input.signatures scheme tx [(key, some (type.getD Sighash.all))] index with
    | r :: _ => unlock r
    | [] => .error .noSignature

/-- The template that signs with a key. -/
def template (scheme : SignatureScheme) (key : PrivateKey) (type : Option UInt32) : Template :=
  ⟨sign scheme key type, maxUnlockLength⟩

end Utxo.Tx.P2pkh
