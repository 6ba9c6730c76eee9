/-
The script that locks to a digest of twenty bytes.

* **`isP2pkh_iff`** — the test recognises just the scripts that `lock` writes;
* **`chunks_lock`** — such a script is five chunks;
* **`scriptCode_lock`** — a signature with the fork id commits to all of it;
* **`runChunks_lock_eq_completed_iff`** — its first four chunks compare the digest of the top item
  and leave the stack as it was;
* **`runScript_lock_judge_iff`** — a spend is valid just if that digest is the right one and the
  signature below is accepted.
-/
import Utxo.Proofs.Machine.CheckSig
import Utxo.Proofs.Machine.Straight
import Utxo.Proofs.Script.Push
import Utxo.Tx.P2pkh

namespace Utxo

open Machine Tx

/-! ### Its form -/

theorem Script.isP2pkh_lock (h : Hash160) : (P2pkh.lock h).isP2pkh := by
  have hlength := h.length_bytes
  simp [isP2pkh, length, P2pkh.lock, hlength]

/-- The test recognises just the scripts that lock to a digest. -/
theorem Script.isP2pkh_iff {s : Script} : s.isP2pkh ↔ ∃ h, s = P2pkh.lock h := by
  constructor
  · intro hs
    simp only [isP2pkh, Bool.and_eq_true, decide_eq_true_eq] at hs
    obtain ⟨⟨hlength, htake⟩, hdrop⟩ := hs
    have hlength : s.bytes.length = 25 := hlength
    refine ⟨⟨(s.bytes.drop 3).take 20, by simp [hlength]⟩, ?_⟩
    obtain ⟨bytes⟩ := s
    congr 1
    -- Three opcodes, the digest, two opcodes.
    calc bytes = bytes.take 3 ++ bytes.drop 3 := (List.take_append_drop 3 bytes).symm
      _ = bytes.take 3 ++ ((bytes.drop 3).take 20 ++ (bytes.drop 3).drop 20) := by
        rw [List.take_append_drop 20]
      _ = [Opcode.dup, Opcode.hash160, 20] ++ (bytes.drop 3).take 20 ++
            [Opcode.equalVerify, Opcode.checkSig] := by
        rw [List.drop_drop, htake, hdrop, List.append_assoc]
  · rintro ⟨h, rfl⟩
    exact isP2pkh_lock h

namespace Tx.P2pkh

@[simp] theorem length_lock (h : Hash160) : (lock h).length = 25 := by
  simp [Script.length, lock, h.length_bytes]

theorem digest_lock (h : Hash160) : ((lock h).bytes.drop 3).take 20 = h.bytes :=
  List.take_left' h.length_bytes

/-- The script that locks to a digest is five chunks. -/
theorem chunks_lock (h : Hash160) :
    (lock h).chunks =
      [.ofOpcode Opcode.dup, .ofOpcode Opcode.hash160, ⟨20, some h.bytes, 20, 0⟩,
        .ofOpcode Opcode.equalVerify, .ofOpcode Opcode.checkSig] := by
  have hread : Chunk.read 20 (h.bytes ++ [Opcode.equalVerify, Opcode.checkSig]) =
      (⟨20, some h.bytes, 20, 0⟩, [Opcode.equalVerify, Opcode.checkSig]) :=
    Chunk.read_push (show Push.opcode 20 = .ok 20 from rfl) h.length_bytes _
  show Chunk.decode (Opcode.dup :: Opcode.hash160 :: 20 ::
    (h.bytes ++ [Opcode.equalVerify, Opcode.checkSig])) = _
  rw [Chunk.decode_opcode rfl, Chunk.decode_opcode rfl, Chunk.decode_cons, hread,
    Chunk.decode_opcode rfl, Chunk.decode_opcode rfl, Chunk.decode_nil]

/-- A signature with the fork id commits to the whole script. -/
theorem scriptCode_lock (h : Hash160) (signature : Bytes) {flag : UInt8}
    (hflag : flag &&& forkIdBit ≠ 0) : scriptCode (lock h).chunks 0 signature flag = lock h := by
  rw [scriptCode, List.drop_zero, chunks_lock, List.filter_eq_self.mpr]
  · rfl
  · intro c hc
    have hop : c.op ≠ Opcode.codeSeparator := by
      simp only [List.mem_cons, List.not_mem_nil, or_false] at hc
      rcases hc with rfl | rfl | rfl | rfl | rfl <;> exact ne_of_beq_false rfl
    simp [hop, hflag]

/-! ### Its evaluation -/

section Evaluation

variable {setting : Setting} {role : Role} {main : Stack} {calls : List Call} {t : State}

theorem runOnMain_dup (v : Bytes) (vs : List Bytes) (n : String) (ns : List String) :
    (Instruction.ofOpcode Opcode.dup).runOnMain setting ⟨v :: vs, n :: ns⟩ =
      .ok ⟨v :: v :: vs, n :: n :: ns⟩ := by
  have hdup : Instruction.ofOpcode Opcode.dup = .shuffle .dup := rfl
  simp [hdup, Instruction.runOnMain, Shuffle.run, copyTop, need, Stack.depth, bind, Except.bind,
    pure, Except.pure]

theorem runOnMain_hash160 (v : Bytes) (vs : List Bytes) (n : String) (ns : List String) :
    (Instruction.ofOpcode Opcode.hash160).runOnMain setting ⟨v :: vs, n :: ns⟩ =
      .ok ⟨(Digest.hash160 v).bytes :: vs, Stack.defaultName :: ns⟩ := rfl

theorem runOnMain_equalVerify (b a : Bytes) (m n : String) (s : Stack) :
    (Instruction.ofOpcode Opcode.equalVerify).runOnMain setting
        ⟨b :: a :: s.values, m :: n :: s.names⟩ =
      if a = b then .ok s else .error (.verificationFailed .equal) := by
  have hrun : (Instruction.ofOpcode Opcode.equalVerify).runOnMain setting
      ⟨b :: a :: s.values, m :: n :: s.names⟩ =
      verifyTop .equal (s.push (Number.ofBool (a = b))) := rfl
  rw [hrun]
  by_cases h : a = b
  · simp only [h, decide_true, if_true]
    rfl
  · simp only [h, decide_false, if_false]
    rfl

/-- The first four chunks compare the digest of the top item and leave the stack as it was; the rest
goes on from there. -/
theorem runChunks_lock_eq_completed_iff (h : Hash160) (hmain : main.IsAligned)
    (script ahead : List Chunk) :
    (runChunks setting role script (.ofOpcode Opcode.dup :: .ofOpcode Opcode.hash160 ::
        ⟨20, some h.bytes, 20, 0⟩ :: .ofOpcode Opcode.equalVerify :: ahead)
        (.atStart main calls)).2 = .completed t ↔
      (3 ≤ setting.limits.operations ∧ 20 ≤ setting.limits.elementSize ∧
        main.depth + 2 ≤ setting.limits.stackDepth) ∧
      (∃ key, main.values.head? = some key ∧ Digest.hash160 key = h) ∧
      (runChunks setting role script ahead (.straight main calls 4 3)).2 = .completed t := by
  rw [State.atStart_eq_straight, runChunks_opcode_straight rfl]
  obtain ⟨values, names⟩ := main
  match values, names, hmain with
  | [], [], _ =>
    have hdup : (Instruction.ofOpcode Opcode.dup).runOnMain setting ⟨[], []⟩ =
        .error (.invalidIndex 0 0) := rfl
    simp [hdup]
  | key :: vs, n :: ns, hmain =>
    -- Each of the four finds the stack that the one before it leaves.
    simp only [runOnMain_dup, Except.ok.injEq, exists_eq_left']
    rw [runChunks_opcode_straight rfl]
    simp only [runOnMain_hash160, Except.ok.injEq, exists_eq_left']
    rw [runChunks_push_straight (c := ⟨20, some h.bytes, 20, 0⟩) rfl rfl,
      runChunks_opcode_straight rfl]
    simp only [Stack.push, Stack.pushSlot]
    rw [runOnMain_equalVerify h.bytes (Digest.hash160 key).bytes _ _ ⟨key :: vs, n :: ns⟩]
    have hcost : cost (.ofOpcode Opcode.dup) = 1 ∧ cost (.ofOpcode Opcode.hash160) = 1 ∧
        cost (.ofOpcode Opcode.equalVerify) = 1 := ⟨rfl, rfl, rfl⟩
    by_cases hkey : Digest.hash160 key = h
    · simp only [hkey, if_true, Except.ok.injEq, exists_eq_left', hcost, Stack.depth,
        List.length_cons, h.length_bytes, List.head?_cons, Option.some.injEq, true_and]
      constructor
      · rintro ⟨-, -, -, -, hsize, -, hdepth, hcount, -, ht⟩
        exact ⟨⟨hcount, hsize, hdepth⟩, ht⟩
      · rintro ⟨⟨hcount, hsize, hdepth⟩, ht⟩
        exact ⟨by omega, by omega, by omega, by omega, hsize, by omega, hdepth, hcount, by omega,
          ht⟩
    · have hbytes : (Digest.hash160 key).bytes ≠ h.bytes := fun heq => hkey (FixedBytes.ext heq)
      simp [hbytes, hkey]

theorem runScript_lock_eq_completed_iff (h : Hash160) (hmain : main.IsAligned) :
    (runScript setting role (lock h).chunks (.atStart main calls)).2 = .completed t ↔
      (3 ≤ setting.limits.operations ∧ 20 ≤ setting.limits.elementSize ∧
        main.depth + 2 ≤ setting.limits.stackDepth) ∧
      (∃ key, main.values.head? = some key ∧ Digest.hash160 key = h) ∧
      (runChunks setting role (lock h).chunks [.ofOpcode Opcode.checkSig]
        (.straight main calls 4 3)).2 = .completed t := by
  rw [runScript, ← runChunks_lock_eq_completed_iff h hmain, ← chunks_lock]

/-- The question that the check of this signature asks. -/
def question (h : Hash160) (inputIndex : Nat) (signature key : Bytes) (flag : UInt8) : Call :=
  ⟨signature, key, lock h, inputIndex, flag⟩

theorem call_lock {s : State} (h : Hash160) (hcode : s.codeStart = 0) {signature key : Bytes}
    {flag : UInt8} (hflag : flag &&& forkIdBit ≠ 0) :
    s.call setting (lock h).chunks signature key flag =
      question h setting.inputIndex signature key flag := by
  rw [State.call, hcode, scriptCode_lock h signature hflag]
  rfl

/-- A spend of a lock is valid just if a key with its digest is left on top of a signature that the
checker accepts, and the limits leave room for it. -/
theorem runScript_lock_judge_iff (h : Hash160) (hmain : main.IsAligned)
    (hclean : setting.rules.cleanStack = false) (hstrict : setting.rules.strictEncoding)
    (hfork : setting.rules.forkId) :
    ((runScript setting role (lock h).chunks (.atStart main calls)).2 = .completed t ∧
        judge setting.rules t.main = .ok ()) ↔
      (4 ≤ setting.limits.operations ∧ 20 ≤ setting.limits.elementSize ∧
        main.depth + 2 ≤ setting.limits.stackDepth) ∧
      ∃ key signature flag, ∃ rest : Stack, ∃ n m,
        main = ⟨key :: signature :: rest.values, n :: m :: rest.names⟩ ∧
          Digest.hash160 key = h ∧
          Accepts setting calls (question h setting.inputIndex signature key flag) ∧
          .straight (rest.push (Number.ofBool true))
            (calls ++ [question h setting.inputIndex signature key flag]) 5 4 = t := by
  -- An accepted signature has the fork id, so that it commits to the whole lock.
  have hcall (signature key : Bytes) (flag : UInt8)
      (hforms : checkForms setting.rules signature.dropLast flag key = .ok ()) :
      (State.straight main calls 4 3).call setting (lock h).chunks signature key flag =
        question h setting.inputIndex signature key flag :=
    call_lock h rfl ((checkType_eq_ok_iff hstrict hfork).mp (checkForms_eq_ok_iff.mp hforms).1).2
  rw [runScript_lock_eq_completed_iff h hmain]
  constructor
  · rintro ⟨⟨⟨-, hsize, hdepth⟩, ⟨key', hhead, hdigest⟩, ht⟩, hjudge⟩
    obtain ⟨hcount, key, signature, flag, rest, n, m, hstack, haccepts, -, rfl⟩ :=
      (runChunks_checkSig_judge_iff role hclean rfl rfl).mp ⟨ht, hjudge⟩
    have hstack : main = _ := hstack
    -- The key that was hashed is the one that is checked: it was duplicated, and then taken.
    obtain rfl : key = key' := by
      rw [hstack] at hhead
      exact Option.some.inj hhead
    have hquestion := hcall signature key flag haccepts.forms
    rw [hquestion] at haccepts ⊢
    exact ⟨⟨hcount, hsize, hdepth⟩, key, signature, flag, rest, n, m, hstack, hdigest, haccepts,
      rfl⟩
  · rintro ⟨⟨hcount, hsize, hdepth⟩, key, signature, flag, rest, n, m, hstack, hdigest, haccepts,
      rfl⟩
    have hquestion := hcall signature key flag haccepts.forms
    have hroom : rest.depth + 1 ≤ setting.limits.stackDepth := by
      rw [hstack] at hdepth
      simp only [Stack.depth, List.length_cons] at hdepth ⊢
      omega
    have hcheck := (runChunks_checkSig_judge_iff (s := .straight main calls 4 3) role hclean
      rfl rfl).mpr
        ⟨hcount, key, signature, flag, rest, n, m, hstack, by rwa [hquestion], hroom, rfl⟩
    rw [hquestion] at hcheck
    exact ⟨⟨⟨by omega, hsize, hdepth⟩, ⟨key, by rw [hstack]; rfl, hdigest⟩, hcheck.1⟩, hcheck.2⟩

end Evaluation

end Tx.P2pkh

end Utxo
