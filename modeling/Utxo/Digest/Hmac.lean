/-
Keyed digests: HMAC over SHA-256.
-/
import Utxo.Digest.Sha256

namespace Utxo.Digest

/-- The HMAC of a message under a key of at most one block. -/
def hmacSha256 (key message : Bytes) : Hash256 :=
  let padded := key ++ List.replicate (blockSize - key.length) 0
  sha256 (padded.map (· ^^^ 0x5c) ++ (sha256 (padded.map (· ^^^ 0x36) ++ message)).bytes)

end Utxo.Digest
