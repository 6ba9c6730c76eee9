/-
Rules and limits of an evaluation.

Flags are bits of a word; `Rules.ofFlags` reads them as the rules that an evaluation follows. The
fork id brings strict encoding with it.
-/

namespace Utxo

/-- A set of flags. -/
structure Flags where
  bits : UInt32
deriving DecidableEq

namespace Flags

/-- No flag. -/
def none : Flags := ⟨0⟩

/-- Opcodes kept for later upgrades fail. -/
def discourageUpgradableNops : Flags := ⟨0x4⟩

/-- Exactly one item may be left. -/
def cleanStack : Flags := ⟨0x20⟩

/-- Signatures have to be in DER form. -/
def derSignatures : Flags := ⟨0x40⟩

/-- The second component of a signature has to be in the lower half. -/
def lowS : Flags := ⟨0x80⟩

/-- A signature that is not valid has to be empty. -/
def nullFail : Flags := ⟨0x200⟩

/-- The unlocking script may only push. -/
def pushOnly : Flags := ⟨0x400⟩

/-- Signatures commit to the fork id. -/
def forkId : Flags := ⟨0x800⟩

/-- Signature types and public keys have to be well formed. -/
def strictEncoding : Flags := ⟨0x1000⟩

/-- The coin was made after the Genesis upgrade. -/
def afterGenesis : Flags := ⟨0x4000⟩

/-- A condition has to be empty or a single one. -/
def minimalIf : Flags := ⟨0x8000⟩

/-- The flags of either set. -/
def union (a b : Flags) : Flags := ⟨a.bits ||| b.bits⟩

/-- Whether all flags of another set are in this one. -/
def has (a b : Flags) : Bool := a.bits &&& b.bits = b.bits

/-- The flags under which signed inputs are verified. -/
def standard : Flags :=
  [forkId, strictEncoding, derSignatures, lowS, nullFail, discourageUpgradableNops,
    afterGenesis].foldl union none

end Flags

/-- The rules of an evaluation. -/
structure Rules where
  discourageUpgradableNops : Bool
  cleanStack : Bool
  derSignatures : Bool
  lowS : Bool
  nullFail : Bool
  pushOnly : Bool
  forkId : Bool
  strictEncoding : Bool
  afterGenesis : Bool
  minimalIf : Bool
deriving DecidableEq

/-- The rules that a set of flags stands for. -/
def Rules.ofFlags (flags : Flags) : Rules where
  discourageUpgradableNops := flags.has .discourageUpgradableNops
  cleanStack := flags.has .cleanStack
  derSignatures := flags.has .derSignatures
  lowS := flags.has .lowS
  nullFail := flags.has .nullFail
  pushOnly := flags.has .pushOnly
  forkId := flags.has .forkId
  strictEncoding := flags.has .strictEncoding || flags.has .forkId
  afterGenesis := flags.has .afterGenesis
  minimalIf := flags.has .minimalIf

/-- The limits of an evaluation. -/
structure Limits where
  /-- Opcodes above `OP_16` in a script. -/
  operations : Nat
  /-- Items on both stacks together. -/
  stackDepth : Nat
  /-- Bytes of a script. -/
  scriptSize : Nat
  /-- Bytes of an item. -/
  elementSize : Nat
  /-- Bytes of a number. -/
  numberLength : Nat
deriving DecidableEq

namespace Limits

/-- The limits for coins made before the Genesis upgrade. -/
def beforeGenesis : Limits := ⟨500, 1000, 10000, 520, 4⟩

/-- The limits for coins made after the Genesis upgrade. -/
def afterGenesis : Limits := ⟨0x7fffffff, 0x7fffffff, 0x7fffffff, 0x7fffffff, 750000⟩

/-- The limits after the upgrade, but with items and numbers of any length that a 64 bit word can
count. -/
def unlimited : Limits :=
  { afterGenesis with elementSize := UInt64.size - 1, numberLength := UInt64.size - 1 }

/-- The limits that go with a set of flags. -/
def forFlags (flags : Flags) : Limits :=
  if flags.has .afterGenesis then afterGenesis else beforeGenesis

end Limits

end Utxo
