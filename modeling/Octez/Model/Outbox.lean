import Octez.Lib.Storage

/-! # The outbox of the rollups (`src/proto_alpha/lib_protocol/sc_rollup_outbox_storage.ml`) -/

namespace Octez.Outbox
open Octez.Lib

structure Output (Message : Type) where
  outboxLevel : Nat
  messageIndex : Int
  message : Message

inductive Error (External : Type) where
  | doesNotExist
  | invalidLastCementedCommitment
  | invalidOutboxLevel
  | invalidOutboxMessageIndex
  | outboxMessageAlreadyApplied
  | outboxLevelExpired
  | invalidPosition (position : Int)
  | overflow
  | external (error : External)
deriving DecidableEq, Repr

section
variable (Rollup CommitmentHash Proof Ledger Receipt Message External : Type)

structure Protocol where
  maxActiveOutboxLevels : Nat
  maxOutboxMessagesPerLevel : Nat
  checkIfCommitmentsAreRelated :
    Ledger → Rollup → CommitmentHash → CommitmentHash → TzResult External Bool
  validateAndDecodeOutputProof :
    Ledger → CommitmentHash → Rollup → Proof → TzResult External (Output Message)
  executeMessage : Ledger → Rollup → Output Message → TzResult External (Receipt × Ledger)

structure Context where
  lastCemented : Table Rollup (CommitmentHash × Nat)
  appliedOutboxMessages : Table (Rollup × Nat) (Nat × Nat)
  ledger : Ledger

end

variable {Rollup CommitmentHash Proof Ledger Receipt Message External : Type}

namespace Bitset

def empty : Nat := 0

def mem (field : Nat) (pos : Int) : TzResult (Error External) Bool := do
  errorUnless (0 ≤ pos) (.invalidPosition pos)
  return field.testBit pos.toNat

def add (field : Nat) (pos : Int) : TzResult (Error External) Nat := do
  errorUnless (0 ≤ pos) (.invalidPosition pos)
  return field ||| 1 <<< pos.toNat

end Bitset

variable (P : Protocol Rollup CommitmentHash Proof Ledger Receipt Message External)
variable [DecidableEq Rollup] (ctxt : Context Rollup CommitmentHash Ledger)

def levelIndex (level : Nat) : TzResult (Error External) Nat :=
  if P.maxActiveOutboxLevels = 0 then .error (.raised .divisionByZero)
  else .ok (level % P.maxActiveOutboxLevels)

omit [DecidableEq Rollup] in
def bitsetFor (levelAndBitset : Option (Nat × Nat)) (level : Nat) (messageIndex : Int) :
    TzResult (Error External) Nat :=
  match levelAndBitset with
  | some (existingLevel, bitset) =>
    if existingLevel = level then do
      let alreadyApplied ← Bitset.mem bitset messageIndex
      errorUnless (!alreadyApplied) .outboxMessageAlreadyApplied
      return bitset
    else if level < existingLevel then tzfail .outboxLevelExpired
    else .ok Bitset.empty
  | none => .ok Bitset.empty

def recordAppliedMessage (rollup : Rollup) (level : Nat) (messageIndex : Int) :
    TzResult (Error External) (Context Rollup CommitmentHash Ledger) := do
  errorUnless (0 ≤ messageIndex && messageIndex < P.maxOutboxMessagesPerLevel) .invalidOutboxMessageIndex
  let levelIndex ← levelIndex P level
  let bitset ← bitsetFor (ctxt.appliedOutboxMessages.find (rollup, levelIndex)) level messageIndex
  let bitset ← Bitset.add bitset messageIndex
  return { ctxt with
    appliedOutboxMessages := ctxt.appliedOutboxMessages.add (rollup, levelIndex) (level, bitset) }

def validateOutboxLevel (outboxLevel lccLevel : Nat) : TzResult (Error External) Unit :=
  let minAllowedLevel : Int := lccLevel - P.maxActiveOutboxLevels
  errorUnless (outboxLevel ≤ lccLevel && minAllowedLevel < outboxLevel) .invalidOutboxLevel

def lastCementedCommitmentHashWithLevel (rollup : Rollup) :
    TzResult (Error External) (CommitmentHash × Nat) :=
  match ctxt.lastCemented.find rollup with
  | none => tzfail .doesNotExist
  | some lcc => .ok lcc

/-- `Z.to_int`. -/
def toInt (z : Int) : TzResult (Error External) Int := do
  errorUnless (-2 ^ 62 ≤ z && z < 2 ^ 62) .overflow
  return z

def executeOutboxMessage (rollup : Rollup) (cementedCommitment : CommitmentHash)
    (outputProof : Proof) :
    TzResult (Error External) (Receipt × Context Rollup CommitmentHash Ledger) := do
  let (lccHash, lccLevel) ← lastCementedCommitmentHashWithLevel ctxt rollup
  let related ← liftError .external
    (P.checkIfCommitmentsAreRelated ctxt.ledger rollup lccHash cementedCommitment)
  errorUnless related .invalidLastCementedCommitment
  let output ← liftError .external
    (P.validateAndDecodeOutputProof ctxt.ledger cementedCommitment rollup outputProof)
  validateOutboxLevel P output.outboxLevel lccLevel
  let (receipt, ledger) ← liftError .external (P.executeMessage ctxt.ledger rollup output)
  let messageIndex ← toInt output.messageIndex
  let ctxt ← recordAppliedMessage P { ctxt with ledger } rollup output.outboxLevel messageIndex
  return (receipt, ctxt)

end Octez.Outbox
