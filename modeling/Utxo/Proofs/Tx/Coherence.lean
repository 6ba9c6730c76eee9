/-
A cache that is handed on stays right.

Preimages of a transaction are asked for one after the other, each with the cache that the last one
gave back.  In between the transaction may change, as long as it keeps the outpoints, the sequence
numbers and the outputs: it may be signed, or its lock time moved on.  No answer depends on the cache.

* **`Exchange.IsCoherent`** — an answer is the one without a cache, and its cache has grown by right
  digests only;
* **`isCoherent_askPreimage`** — every single answer is so, if the cache is right;
* **`exchanges_isCoherent`** — so every answer of a run is, because its cache comes from the answer
  before.
-/
import Utxo.Proofs.Tx.Commitment
import Utxo.Proofs.Tx.Preimage
import Utxo.Tx.Signing

namespace Utxo.Tx

/-! ### Changes that keep the digests -/

section

variable {tx tx' : Transaction} {index : Nat}

/-- Signing an input replaces its unlocking script. -/
theorem exists_of_signInput_eq_ok {template : Template}
    (h : signInput tx index template = .ok tx') :
    ∃ script, template.sign tx index = .ok script ∧
      tx' = { tx with inputs := tx.inputs.modify index (·.setScript script) } := by
  by_cases hindex : tx.inputs.length ≤ index
  · rw [signInput, if_pos hindex] at h
    cases h
  · rw [signInput, if_neg hindex] at h
    cases hscript : template.sign tx index with
    | error e =>
      rw [hscript] at h
      cases h
    | ok script =>
      rw [hscript] at h
      exact ⟨script, rfl, (Except.ok.inj h).symm⟩

/-- No digest looks at unlocking scripts. -/
theorem sameDigested_of_signInput_eq_ok {template : Template}
    (h : signInput tx index template = .ok tx') : tx'.SameDigested tx := by
  obtain ⟨script, -, rfl⟩ := exists_of_signInput_eq_ok h
  have hframe := Transaction.SameFrame.modify tx index (f := (·.setScript script))
    fun _ => ⟨rfl, rfl⟩
  exact hframe.sameDigested

theorem Preimage.sameDigested_applyTo (p : Preimage) (tx : Transaction) :
    (p.applyTo tx).SameDigested tx := ⟨rfl, rfl⟩

end

/-! ### Runs -/

/-- What happens to a transaction while a cache is kept for it. -/
inductive Event where
  | change (tx : Transaction)
  /-- A preimage is asked for, under a lock time or under that of the transaction. -/
  | ask (part : SignedPart) (lockTime : Option UInt32)

/-- The preimage under a lock time, or under that of the transaction. -/
def askPreimage (tx : Transaction) (part : SignedPart) (lockTime : Option UInt32)
    (cache : DigestCache) : Except Error (Bytes × DigestCache) :=
  match lockTime with
  | none => preimage tx part cache
  | some lockTime => preimageAt tx part lockTime cache

/-- A preimage that was asked for, and the answer. -/
structure Exchange where
  tx : Transaction
  part : SignedPart
  lockTime : Option UInt32
  /-- The cache that the preimage was asked for with. -/
  given : DigestCache
  answer : Except Error (Bytes × DigestCache)

/-- The preimages asked for in a run, each with the cache of the last one that there was. -/
def exchanges (tx : Transaction) (cache : DigestCache) : List Event → List Exchange
  | [] => []
  | .change tx' :: events => exchanges tx' cache events
  | .ask part lockTime :: events =>
    let answer := askPreimage tx part lockTime cache
    let next := match answer with
      | .ok (_, cache') => cache'
      | .error _ => cache
    ⟨tx, part, lockTime, cache, answer⟩ :: exchanges tx next events

/-- The answer is the one without a cache. A cache that comes with it has every digest of the one that
was given, and only digests of the transaction. -/
structure Exchange.IsCoherent (x : Exchange) : Prop where
  same : x.answer.map Prod.fst = (askPreimage x.tx x.part x.lockTime .empty).map Prod.fst
  grown : ∀ bytes cache, x.answer = .ok (bytes, cache) → x.given.Within cache
  right : ∀ bytes cache, x.answer = .ok (bytes, cache) → cache.Within (.ofTransaction x.tx)

section

variable {tx : Transaction} {cache : DigestCache}

theorem isCoherent_askPreimage (part : SignedPart) (lockTime : Option UInt32)
    (hcache : cache.Within (.ofTransaction tx)) :
    Exchange.IsCoherent ⟨tx, part, lockTime, cache, askPreimage tx part lockTime cache⟩ := by
  have hask (cache : DigestCache) : askPreimage tx part lockTime cache =
      preimageAt tx part (lockTime.getD tx.lockTime) cache := by
    cases lockTime with
    | none => rfl
    | some lockTime => rfl
  have hwithin (bytes : Bytes) (c : DigestCache)
      (h : askPreimage tx part lockTime cache = .ok (bytes, c)) :
      cache.Within c ∧ c.Within (.ofTransaction tx) := by
    rw [hask] at h
    exact within_of_preimageAt_eq_ok hcache h
  refine ⟨?_, fun bytes c h => (hwithin bytes c h).1, fun bytes c h => (hwithin bytes c h).2⟩
  -- With a right cache and without one the parts are the same.
  show (askPreimage tx part lockTime cache).map _ = (askPreimage tx part lockTime .empty).map _
  rw [hask, hask, map_fst_preimageAt hcache, map_fst_preimageAt (.empty _)]

/-- Every answer of a run is coherent if the run starts with a right cache and all its transactions
have the same digests. -/
theorem exchanges_isCoherent {events : List Event} (hcache : cache.Within (.ofTransaction tx))
    (hevents : ∀ tx', .change tx' ∈ events → tx'.SameDigested tx) :
    ∀ x ∈ exchanges tx cache events,
      x.IsCoherent ∧ DigestCache.ofTransaction x.tx = .ofTransaction tx := by
  induction events generalizing tx cache with
  | nil => exact fun _ h => nomatch h
  | cons event events ih =>
    have htail : ∀ tx', .change tx' ∈ events → tx'.SameDigested tx :=
      fun tx' h => hevents tx' (List.mem_cons_of_mem _ h)
    cases event with
    | change tx' =>
      -- A right cache is right for the changed transaction.
      have hsame : tx'.SameDigested tx := hevents tx' List.mem_cons_self
      have hdigests := DigestCache.ofTransaction_congr hsame
      intro x hx
      obtain ⟨hcoherent, hx⟩ := ih (hdigests ▸ hcache)
        (fun tx'' h => (htail tx'' h).trans hsame.symm) x hx
      exact ⟨hcoherent, hx.trans hdigests⟩
    | ask part lockTime =>
      have hask := isCoherent_askPreimage part lockTime hcache
      intro x hx
      rcases List.mem_cons.mp hx with rfl | hx
      · exact ⟨hask, rfl⟩
      · -- The next cache is the one given back, or the one given if there is none.
        refine ih ?_ htail x hx
        split
        · next bytes cache' h => exact hask.right bytes cache' h
        · exact hcache

/-- Preimages before and after the first of two inputs has been signed and the lock time has moved on.
There is no third input. -/
theorem exchanges_isCoherent_signed_between :
    let input := fun (n : UInt32) =>
      Input.mk ⟨.zero 32, n⟩ Input.finalSequence (.raw []) none
    let tx : Transaction := ⟨1, [input 0, input 1], [⟨5, ⟨[0x51]⟩⟩], 0⟩
    let signed := { tx with inputs := tx.inputs.modify 0 (·.setScript ⟨[0x52]⟩) }
    let moved := Preimage.applyTo ⟨[], 9, 9⟩ signed
    let single : UInt32 := 0xc3
    let xs := exchanges tx ⟨none, none, some (outputsHash tx)⟩
      [.ask ⟨0, [], Sighash.all, 7⟩ none, .change signed, .ask ⟨2, [], single, 7⟩ none,
        .ask ⟨1, [0x51], single, 8⟩ (some 9), .change moved, .ask ⟨1, [0x51], Sighash.all, 8⟩ none]
    xs.length = 4 ∧ ∀ x ∈ xs,
      x.IsCoherent ∧ DigestCache.ofTransaction x.tx = .ofTransaction tx := by
  intro input tx signed moved single xs
  have hsign : signInput tx 0 ⟨fun _ _ => .ok ⟨[0x52]⟩, 1⟩ = .ok signed := rfl
  have hsigned : signed.SameDigested tx := sameDigested_of_signInput_eq_ok hsign
  have hmoved : moved.SameDigested tx := (Preimage.sameDigested_applyTo _ signed).trans hsigned
  refine ⟨rfl, exchanges_isCoherent ⟨nofun, nofun, fun _ h => h⟩ ?_⟩
  intro tx' h
  have htx' : tx' = signed ∨ tx' = moved := by simpa using h
  rcases htx' with rfl | rfl
  · exact hsigned
  · exact hmoved

end

end Utxo.Tx
