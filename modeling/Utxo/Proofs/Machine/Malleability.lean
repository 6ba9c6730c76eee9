/-
Signatures come in pairs.

Who has a signature `(r, s)` has a second one of the same digest, `(r, n - s)`, where `n` is the order
of the curve.  Which of the two is in the lower half is asked in three ways: signing asks the arithmetic
of scalars whether `s` is high and has it negated, a signature is tested by comparing its bytes with
those of half the order, and a reader thinks of `s` as an integer.  They agree, since `n` is odd, so that
the low S rule has nothing to say against what is signed, and lets no check take its twin.

* **`Signature.hasLowS_withS`** — the test is that the second component is at most `(n - 1) / 2`;
* **`Signature.hasLowS_xor`** — just one signature of a pair passes it;
* **`ScalarArithmetic.sign_eq`** — signing takes the same one, whatever does the arithmetic;
* **`runCheckSig_withLowS`** — to a signature in the lower half the rule makes no difference;
* **`hasLowS_of_takes`** — under the rule a check takes no other;
* **`SignatureScheme.signBytes_takesLow`** — all this of any components that a scheme comes up with.
-/
import Utxo.Proofs.Ecdsa.Scheme
import Utxo.Proofs.Machine.CheckSig

namespace Utxo

/-! ### The test -/

theorem Curve.order_odd : Curve.order % 2 = 1 := by decide

theorem Curve.order_lt : Curve.order < 256 ^ 32 := by decide

namespace Signature

/-- The signature with an integer as its second component. -/
def withS (r : FixedBytes 32) (s : Nat) : Signature := ⟨r, .ofNat 32 s⟩

variable {r : FixedBytes 32} {s : Nat}

/-- Comparing with the bytes of half the order is asking whether the component is at most half of the
order less one. -/
theorem hasLowS_withS (hs : s < Curve.order) :
    (withS r s).hasLowS ↔ s ≤ (Curve.order - 1) / 2 := by
  have hhalf : Curve.order / 2 = (Curve.order - 1) / 2 := by decide
  have hvalue : (withS r s).s.toNat = s := FixedBytes.toNat_ofNat (hs.trans Curve.order_lt)
  rw [hasLowS_iff, hvalue, hhalf]

/-- Just one signature of a pair is in the lower half. -/
theorem hasLowS_xor (hs : 0 < s) (hs' : s < Curve.order) :
    Xor ((withS r s).hasLowS = true) ((withS r (Curve.order - s)).hasLowS = true) := by
  have hodd := Curve.order_odd
  rw [hasLowS_withS hs', hasLowS_withS (by omega), xor_iff_not_iff']
  omega

end Signature

/-! ### Signing -/

theorem SignatureScheme.signBytes_eq {scheme : SignatureScheme} {key : PrivateKey} {digest : Hash256}
    {r s : Nat} (h : scheme.components? key digest = some (r, s)) :
    scheme.signBytes key digest.bytes = .ok (.ofScalars r s) := by
  rw [signBytes, FixedBytes.ofBytes?, dif_pos digest.length_bytes]
  dsimp only
  rw [sign, h]

/-- The arithmetic of scalars that signing makes use of. -/
structure ScalarArithmetic where
  /-- Whether a scalar is high. -/
  isHigh : Nat → Bool
  /-- The negative of a scalar. -/
  neg : Nat → Nat

namespace ScalarArithmetic

/-- What is relied on: a scalar is high if it is more than half the order, and with its negative it adds
up to zero modulo the order. -/
structure Lawful (arithmetic : ScalarArithmetic) : Prop where
  isHigh_iff : ∀ s < Curve.order, arithmetic.isHigh s ↔ Curve.order < 2 * s
  neg_lt : ∀ s < Curve.order, arithmetic.neg s < Curve.order
  add_neg : ∀ s < Curve.order, (s + arithmetic.neg s) % Curve.order = 0

/-- Signs bytes that have to be a digest. A second component that is high is negated. -/
def sign (arithmetic : ScalarArithmetic) (scheme : SignatureScheme) (key : PrivateKey)
    (digest : Bytes) : Except Signature.Error Signature :=
  match FixedBytes.ofBytes? 32 digest with
  | none => .error (.digestLength digest.length)
  | some h =>
    match scheme.components? key h with
    | none => .error .noSignature
    | some (r, s) => .ok (.withS (.ofNat 32 r) (if arithmetic.isHigh s then arithmetic.neg s else s))

variable {arithmetic : ScalarArithmetic}

/-- The negative of a scalar other than zero is the order less it. -/
theorem Lawful.neg_eq (h : arithmetic.Lawful) {s : Nat} (hs : 0 < s) (hs' : s < Curve.order) :
    arithmetic.neg s = Curve.order - s := by
  have hneg := h.neg_lt s hs'
  have hsum : s + arithmetic.neg s = Curve.order :=
    Nat.eq_of_dvd_of_lt_two_mul (by omega) (Nat.dvd_of_mod_eq_zero (h.add_neg s hs')) (by omega)
  omega

/-- Whatever does the arithmetic, the same signature is made of components that are scalars other than
zero. -/
theorem sign_eq (h : arithmetic.Lawful) {scheme : SignatureScheme} {key : PrivateKey}
    {digest : Hash256} {r s : Nat} (hcomponents : scheme.components? key digest = some (r, s))
    (hs : 0 < s) (hs' : s < Curve.order) :
    arithmetic.sign scheme key digest.bytes = .ok (.ofScalars r s) := by
  have hodd := Curve.order_odd
  have hhigh : arithmetic.isHigh s = true ↔ Curve.order / 2 < s := by
    rw [h.isHigh_iff s hs']
    omega
  rw [sign, FixedBytes.ofBytes?, dif_pos digest.length_bytes]
  simp only [hcomponents, hhigh, h.neg_eq hs hs']
  rfl

end ScalarArithmetic

/-! ### Checking -/

namespace Machine

variable {sig : Signature}

/-- The setting with the low S rule on or off. -/
def Setting.withLowS (setting : Setting) (lowS : Bool) : Setting :=
  { setting with rules := { setting.rules with lowS } }

/-- A state in which a public key and a signature with its type are about to be checked. -/
def State.Presents (s : State) (der : Bytes) (flag : UInt8) (key : Bytes) : Prop :=
  ∃ main : Stack, ∃ n m,
    s.main = ⟨key :: (der ++ [flag]) :: main.values, n :: m :: main.names⟩

/-- To a signature in the lower half it makes no difference whether the low S rule is on. -/
theorem runCheckSig_withLowS (hr : sig.r ≠ .zero 32) (hs : sig.s ≠ .zero 32) (hlow : sig.hasLowS)
    {setting : Setting} {script : List Chunk} {s : State} {flag : UInt8} {key : Bytes}
    (h : s.Presents sig.toDer flag key) (lowS : Bool) :
    runCheckSig (setting.withLowS lowS) script s = runCheckSig setting script s := by
  obtain ⟨main, n, m, hmain⟩ := h
  -- Neither rule on the form of the signature has anything to say against it.
  have hforms : checkForms (setting.withLowS lowS).rules sig.toDer flag key =
      checkForms setting.rules sig.toDer flag key := by
    rw [checkForms, checkForms, checkForm_toDer hr hs hlow, checkForm_toDer hr hs hlow]
    rfl
  unfold runCheckSig
  rw [popTwo_eq_ok_iff.mpr ⟨n, m, hmain⟩]
  simp only [List.getLast?_concat, List.dropLast_concat, hforms]
  rfl

/-- A check takes a signature: there is a state in which it is presented, in DER form with some type and
with some key, and the evaluation goes on. -/
def Takes (setting : Setting) (sig : Signature) : Prop :=
  ∃ script s t der flag key, Signature.ofDer der = .ok sig ∧ State.Presents s der flag key ∧
    runCheckSig setting script s = .next t

/-- Under low S, a signature that is taken is in the lower half. -/
theorem hasLowS_of_takes {setting : Setting} (hlow : setting.rules.lowS) (h : Takes setting sig) :
    sig.hasLowS := by
  obtain ⟨script, s, t, der, flag, key, hder, ⟨main, n, m, hmain⟩, hnext⟩ := h
  obtain ⟨key', signature, main', n', m', hmain', hcheck⟩ := runCheckSig_eq_next_iff.mp hnext
  rw [hmain] at hmain'
  obtain ⟨rfl, hsignature⟩ : key = key' ∧ der ++ [flag] = signature := by
    simpa using congrArg (fun s : Stack => s.values.take 2) hmain'
  subst hsignature
  rcases hcheck with ⟨hempty, -⟩ | ⟨flag', checker, hlast, hforms, -, -⟩
  · simp at hempty
  · rw [List.dropLast_concat] at hforms
    obtain ⟨sig', hder', hsig'⟩ :=
      exists_of_checkForm_eq_ok hlow (checkForms_eq_ok_iff.mp hforms).2.1
    cases hder.symm.trans hder'
    exact hsig'

end Machine

/-! ### What is signed is taken, and its twin is not -/

open Machine Signature in
/-- The test finds just one of a pair of signatures in the lower half, the one whose second component is
at most half of the order less one. Signing gives that one of the components of a scheme, whatever does
the arithmetic; no check tells whether it is under the low S rule. Under the rule, not both of a pair
are taken. -/
theorem SignatureScheme.signBytes_takesLow {s : Nat} (hs : 0 < s) (hs' : s < Curve.order) :
    (∀ r, ((withS r s).hasLowS ↔ s ≤ (Curve.order - 1) / 2) ∧
      Xor ((withS r s).hasLowS = true) ((withS r (Curve.order - s)).hasLowS = true)) ∧
    (∀ (scheme : SignatureScheme) key digest r, scheme.components? key digest = some (r, s) →
      0 < r → r < Curve.order →
      ∃ sig, scheme.signBytes key digest.bytes = .ok sig ∧
        (∀ arithmetic : ScalarArithmetic, arithmetic.Lawful →
          arithmetic.sign scheme key digest.bytes = .ok sig) ∧
        (sig = withS (.ofNat 32 r) s ∨ sig = withS (.ofNat 32 r) (Curve.order - s)) ∧
        sig.hasLowS ∧ (∀ rules, checkForm rules sig.toDer = .ok ()) ∧
        ∀ setting script state flag key, State.Presents state sig.toDer flag key → ∀ lowS,
          runCheckSig (setting.withLowS lowS) script state = runCheckSig setting script state) ∧
    ∀ setting : Setting, setting.rules.lowS → ∀ r,
      ¬(Takes setting (withS r s) ∧ Takes setting (withS r (Curve.order - s))) := by
  refine ⟨fun r => ⟨hasLowS_withS hs', hasLowS_xor hs hs'⟩, ?_, ?_⟩
  · intro scheme key digest r hcomponents hr hr'
    have hlow : (ofScalars r s).hasLowS := hasLowS_ofScalars hs hs'
    obtain ⟨hrzero, hszero⟩ := ofScalars_ne_zero hr (hr'.trans (by decide)) hs hs'
    have hpair : ofScalars r s = withS (.ofNat 32 r) s ∨
        ofScalars r s = withS (.ofNat 32 r) (Curve.order - s) := by
      rw [ofScalars, withS, withS]
      split_ifs
      · exact .inr rfl
      · exact .inl rfl
    exact ⟨ofScalars r s, SignatureScheme.signBytes_eq hcomponents,
      fun arithmetic h => ScalarArithmetic.sign_eq h hcomponents hs hs', hpair, hlow,
      checkForm_toDer hrzero hszero hlow,
      fun setting script state flag key h => runCheckSig_withLowS hrzero hszero hlow h⟩
  · rintro setting hrule r ⟨htake, htake'⟩
    have hlow := hasLowS_of_takes hrule htake
    have hlow' := hasLowS_of_takes hrule htake'
    rcases hasLowS_xor (r := r) hs hs' with ⟨-, hhigh⟩ | ⟨-, hhigh⟩
    · exact hhigh hlow'
    · exact hhigh hlow

open Machine Signature in
/-- Components one and minus one. The second one is high, so that the signature that is made has one in
its place. -/
theorem SignatureScheme.signBytes_takesLow_minus_one :
    let s := Curve.order - 1
    let key : PrivateKey := ⟨1, by decide, by decide⟩
    let scheme : SignatureScheme := .single ⟨1, 2⟩ 1 s
    let arithmetic : ScalarArithmetic :=
      ⟨fun s => Curve.order < 2 * s, fun s => (Curve.order - s) % Curve.order⟩
    let one : FixedBytes 32 := .ofNat 32 1
    arithmetic.Lawful ∧ (withS one s).hasLowS = false ∧
    arithmetic.sign scheme key (FixedBytes.zero 32).bytes = .ok (withS one 1) ∧
    (∀ rules, checkForm rules (withS one 1).toDer = .ok ()) ∧
    ∀ setting : Setting, setting.rules.lowS →
      ¬(Takes setting (withS one s) ∧ Takes setting (withS one 1)) := by
  intro s key scheme arithmetic one
  have hlawful : arithmetic.Lawful := by
    refine ⟨fun s _ => decide_eq_true_iff, fun s _ => Nat.mod_lt _ (by decide), fun s hs => ?_⟩
    show (s + (Curve.order - s) % Curve.order) % Curve.order = 0
    rw [Nat.add_mod_mod, Nat.add_sub_cancel' hs.le, Nat.mod_self]
  have hhigh : (withS one s).hasLowS = false := by decide
  have hone : Curve.order - s = 1 := by decide
  obtain ⟨-, hsign, htakes⟩ :=
    SignatureScheme.signBytes_takesLow (s := s) (by decide) (by decide)
  simp only [hone] at hsign htakes
  obtain ⟨sig, -, hsig, hpair, hlow, hform, -⟩ :=
    hsign scheme key (.zero 32) 1 rfl (by decide) (by decide)
  rcases hpair with rfl | rfl
  · rw [hhigh] at hlow
    cases hlow
  · exact ⟨hlawful, hhigh, hsig arithmetic hlawful, hform,
      fun setting hrule => htakes setting hrule one⟩

end Utxo
