import Utxo.Bytes.Sink
import Utxo.Proofs.Bytes.Minimality
import Utxo.Proofs.Ecdsa.Canonical
import Utxo.Proofs.Machine.Bounds
import Utxo.Proofs.Machine.Branching
import Utxo.Proofs.Machine.Gate
import Utxo.Proofs.Machine.Isolation
import Utxo.Proofs.Machine.Loop
import Utxo.Proofs.Machine.Malleability
import Utxo.Proofs.Machine.Padding
import Utxo.Proofs.Machine.Rearranging
import Utxo.Proofs.Machine.Restriction
import Utxo.Proofs.Machine.Returning
import Utxo.Proofs.Machine.ScriptCode
import Utxo.Proofs.Machine.Shifting
import Utxo.Proofs.Machine.Slots
import Utxo.Proofs.Machine.Soundness
import Utxo.Proofs.Machine.Tracking
import Utxo.Proofs.Machine.Widening
import Utxo.Proofs.P2pkh.Length
import Utxo.Proofs.P2pkh.SignVerify
import Utxo.Proofs.Script.Appending
import Utxo.Proofs.Script.Assembly
import Utxo.Proofs.Script.Grammar
import Utxo.Proofs.Script.ShortestForm
import Utxo.Proofs.Tx.Binding
import Utxo.Proofs.Tx.Coherence
import Utxo.Proofs.Tx.Delimited
import Utxo.Proofs.Tx.Grinding
import Utxo.Proofs.Tx.Normalisation
import Utxo.Proofs.Tx.Reports
import Utxo.Proofs.Tx.Representation
import Utxo.Tx.P2pkh
import Utxo.Tx.Verify
