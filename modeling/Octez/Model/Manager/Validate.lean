import Octez.Model.Token.Transfer

/-! # Validation of manager operations (`Manager` of `src/proto_alpha/lib_protocol/validate.ml`) -/

namespace Octez.Manager
open Octez.Lib Octez.Token

namespace Gas

/-- `Saturation_repr.saturated`, the largest integer of the source's language. -/
def saturated : Nat := 2 ^ 62 - 1

def add (x y : Nat) : Nat := min (x + y) saturated

def sub (x y : Nat) : Nat := x - y

def subOpt (x y : Nat) : Option Nat := if y ≤ x then some (x - y) else none

end Gas

inductive PvmKind where
  | exampleArith
  | wasm
  | riscv
deriving DecidableEq, Repr

section
variable (T : TokenTypes) (Expr : Type)

inductive ManagerOperation where
  | reveal (key : T.PublicKey)
  | transaction (parameters : Expr)
  | origination (code storage : Expr)
  | registerGlobalConstant (value : Expr)
  | delegation (delegate : Option T.Pkh)
  | updateConsensusKey (key : T.PublicKey)
  | setDepositsLimit
  | increasePaidStorage
  | transferTicket (contents ty : Expr)
  | scRollupOriginate (kind : PvmKind)
  | scRollupAddMessages (messages : List String)
  | scRollupOther
  | dalPublishCommitment
  | zkRollup

structure Contents where
  source : T.Pkh
  fee : Tez
  counter : Nat
  operation : ManagerOperation T Expr
  gasLimit : Nat
  storageLimit : Int

inductive ContentsList where
  | single (contents : Contents T Expr)
  | cons (contents : Contents T Expr) (rest : ContentsList)

end

section
variable {T : TokenTypes} {Expr : Type}

def ContentsList.first : ContentsList T Expr → Contents T Expr
  | .single contents => contents
  | .cons contents _ => contents

def ContentsList.source (contentsList : ContentsList T Expr) : T.Pkh :=
  contentsList.first.source

end

/-- The constants that the checks read and what belongs to other libraries. -/
structure Parameters (T : TokenTypes) (Expr : Type) where
  hardGasLimitPerOperation : Nat
  hardGasLimitPerBlock : Nat
  hardStorageLimitPerOperation : Int
  managerOperationCost : Nat
  scRollupArithPvmEnable : Bool
  scRollupRiscvPvmEnable : Bool
  zkRollupEnable : Bool
  dalEnable : Bool
  decodingCost : Expr → Nat
  checkSignatureCost : T.PublicKey → ContentsList T Expr → Nat
  checkSignature : T.PublicKey → ContentsList T Expr → Bool

inductive ManagerError (T : TokenTypes) (Oph : Type) where
  | token (error : TokenError T.Pkh T.PublicKey T.ContractHash T.BondId)
  | incorrectRevealPosition
  | inconsistentSources
  | inconsistentCounters
  | emptyImplicitContract (pkh : T.Pkh)
  | counterInThePast (contract : T.Contract) (expected found : Nat)
  | counterInTheFuture (contract : T.Contract) (expected found : Nat)
  | missingManagerContract (contract : T.Contract)
  | unrevealedManagerKey (contract : T.Contract)
  | inconsistentHash (key : T.PublicKey) (expectedHash providedHash : T.Pkh)
  | gasLimitTooHigh
  | blockQuotaExceeded
  | insufficientGasForManager
  | gasQuotaExceededInitDeserialize
  | storageLimitTooHigh
  | scRollupArithPvmDisabled
  | scRollupRiscvPvmDisabled
  | scRollupAddZeroMessages
  | zkRollupFeatureDisabled
  | dalFeatureDisabled
  | invalidSignature
  | managerRestriction (source : T.Pkh) (existing newOperation : Oph)
  | conflictingDrainDelegate (delegate : T.Pkh) (existing newOperation : Oph)

variable {T : TokenTypes} {Expr Oph : Type}

abbrev Result (T : TokenTypes) (Oph α : Type) :=
  TzResult (ManagerError T Oph) α

def liftToken {α : Type} (result : Token.Result T α) : Result T Oph α :=
  liftError .token result

def consumeFrom (availableGas cost : Nat) (error : ManagerError T Oph) : Result T Oph Nat :=
  match Gas.subOpt availableGas cost with
  | some remainingGas => .ok remainingGas
  | none => tzfail error

section Checks
variable [DecidableEq T.Pkh] [DecidableEq T.ContractHash]
variable (parameters : Parameters T Expr)
variable (ctxt : Context T)

def checkAllocatedAndGetBalance (pkh : T.Pkh) : Result T Oph Tez :=
  match ctxt.spendableBalance.find (.implicit pkh) with
  | none => tzfail (.emptyImplicitContract pkh)
  | some balance => .ok balance

def checkCounterIncrement (manager : T.Pkh) (counter : Nat) : Result T Oph Unit := do
  let contract := Contract.implicit manager
  let contractCounter ← liftToken (liftStorage (ctxt.counter.get contract))
  let expected := contractCounter + 1
  if expected = counter then return ()
  else if expected > counter then tzfail (.counterInThePast contract expected counter)
  else tzfail (.counterInTheFuture contract expected counter)

def getManagerPublicKey (pkh : T.Pkh) : Result T Oph T.PublicKey :=
  match ctxt.manager.find (.implicit pkh) with
  | none => tzfail (.missingManagerContract (.implicit pkh))
  | some (.hash _) => tzfail (.unrevealedManagerKey (.implicit pkh))
  | some (.publicKey key) => .ok key

def checkPublicKey (key : T.PublicKey) (expectedHash : T.Pkh) : Result T Oph Unit :=
  let providedHash := ctxt.constants.hash key
  errorUnless (providedHash = expectedHash) (.inconsistentHash key expectedHash providedHash)

def stillAllocated (contract : T.Contract) (newBalance : Tez) :
    Token.Result T Bool :=
  if newBalance ≠ Tez.zero then .ok true
  else do
    checkEmptiable ctxt contract
    return shouldKeepEmptyImplicitContract ctxt contract

def simulateSpending (balance amount : Tez) (source : T.Pkh) : Token.Result T (Tez × Bool) := do
  let contract := Contract.implicit source
  let newBalance ← spendFromBalance contract balance amount
  let stillAllocated ← stillAllocated ctxt contract newBalance
  return (newBalance, stillAllocated)

structure BatchState where
  balance : Tez
  isAllocated : Bool
  totalGasUsed : Nat

omit [DecidableEq T.ContractHash] in
def checkSourceAndCounter (expectedSource source : T.Pkh) (previousCounter counter : Nat) :
    Result T Oph Unit := do
  errorUnless (expectedSource = source) .inconsistentSources
  errorUnless (previousCounter + 1 = counter) .inconsistentCounters

variable (contents : Contents T Expr)

def checkNotReveal : Result T Oph Unit :=
  match contents.operation with
  | .reveal _ => tzfail .incorrectRevealPosition
  | _ => .ok ()

def checkBatchTailSanity (expectedSource : T.Pkh) (previousCounter : Nat) :
    ContentsList T Expr → Result T Oph Unit
  | .single contents => do
    checkNotReveal contents
    checkSourceAndCounter expectedSource contents.source previousCounter contents.counter
  | .cons contents rest => do
    checkNotReveal contents
    checkSourceAndCounter expectedSource contents.source previousCounter contents.counter
    checkBatchTailSanity contents.source contents.counter rest

def revealedKey : Option T.PublicKey :=
  match contents.operation with
  | .reveal key => some key
  | _ => none

def checkBatch (contentsList : ContentsList T Expr) : Result T Oph (T.Pkh × Option T.PublicKey × Nat) :=
  match contentsList with
  | .single contents => .ok (contents.source, revealedKey contents, contents.counter)
  | .cons contents rest => do
    checkBatchTailSanity contents.source contents.counter rest
    return (contents.source, revealedKey contents, contents.counter)

def findPublicKey (source : T.Pkh) : Option T.PublicKey → Result T Oph T.PublicKey
  | some key => .ok key
  | none => getManagerPublicKey ctxt source

def checkSanityAndFindPublicKey (contentsList : ContentsList T Expr) :
    Result T Oph (BatchState × T.PublicKey) := do
  let (source, revealedKey, firstCounter) ← checkBatch contentsList
  let balance ← checkAllocatedAndGetBalance ctxt source
  checkCounterIncrement ctxt source firstCounter
  let key ← findPublicKey ctxt source revealedKey
  return ({ balance, isAllocated := true, totalGasUsed := 0 }, key)

def checkGasLimit (gasLimit : Nat) : Result T Oph Unit :=
  errorUnless (gasLimit ≤ parameters.hardGasLimitPerOperation) .gasLimitTooHigh

def checkStorageLimit (storageLimit : Int) : Result T Oph Unit :=
  errorUnless (storageLimit ≤ parameters.hardStorageLimitPerOperation && 0 ≤ storageLimit)
    .storageLimitTooHigh

def assertPvmKindEnabled (kind : PvmKind) : Result T Oph Unit := do
  errorUnless (parameters.scRollupArithPvmEnable || kind ≠ .exampleArith) .scRollupArithPvmDisabled
  errorUnless (parameters.scRollupRiscvPvmEnable || kind ≠ .riscv) .scRollupRiscvPvmDisabled

def consumeDecodingGas (remainingGas : Nat) (expr : Expr) : Result T Oph Nat :=
  consumeFrom remainingGas (parameters.decodingCost expr) .gasQuotaExceededInitDeserialize

def consumeDecodingGases (remainingGas : Nat) : List Expr → Result T Oph Unit
  | [] => .ok ()
  | expr :: exprs => do
    let remainingGas ← consumeDecodingGas parameters remainingGas expr
    consumeDecodingGases remainingGas exprs

def checkKindSpecificContent (remainingGas : Nat) : Result T Oph Unit :=
  match contents.operation with
  | .reveal key => checkPublicKey ctxt key contents.source
  | .transaction expr => consumeDecodingGases parameters remainingGas [expr]
  | .origination code storage => consumeDecodingGases parameters remainingGas [code, storage]
  | .registerGlobalConstant value => consumeDecodingGases parameters remainingGas [value]
  | .delegation (some delegate) => liftToken (checkNotTz4 ctxt delegate)
  | .updateConsensusKey key =>
    liftToken (errorUnless (!ctxt.constants.isBls key) (.invalidConsensusKeyUpdateTz4 key))
  | .delegation none | .setDepositsLimit | .increasePaidStorage => .ok ()
  | .transferTicket ticketContents ty => consumeDecodingGases parameters remainingGas [ticketContents, ty]
  | .scRollupOriginate kind => assertPvmKindEnabled parameters kind
  | .scRollupAddMessages messages => errorUnless (!messages.isEmpty) .scRollupAddZeroMessages
  | .scRollupOther => .ok ()
  | .dalPublishCommitment => errorUnless parameters.dalEnable .dalFeatureDisabled
  | .zkRollup => errorUnless parameters.zkRollupEnable .zkRollupFeatureDisabled

def fixedGasCost (consumeGasForSigCheck : Option Nat) : Nat :=
  match consumeGasForSigCheck with
  | none => parameters.managerOperationCost
  | some gasForSigCheck => Gas.add parameters.managerOperationCost gasForSigCheck

def checkContents (batchState : BatchState)
    (contents : Contents T Expr) (consumeGasForSigCheck : Option Nat)
    (remainingBlockGas : Nat) : Result T Oph BatchState := do
  checkGasLimit parameters contents.gasLimit
  let totalGasUsed := Gas.add batchState.totalGasUsed contents.gasLimit
  errorUnless (totalGasUsed ≤ remainingBlockGas) .blockQuotaExceeded
  let remainingGas ← consumeFrom contents.gasLimit (fixedGasCost parameters consumeGasForSigCheck)
    .insufficientGasForManager
  checkStorageLimit parameters contents.storageLimit
  errorUnless batchState.isAllocated (.emptyImplicitContract contents.source)
  checkKindSpecificContent parameters ctxt contents remainingGas
  let (balance, isAllocated) ← liftToken
    (simulateSpending ctxt batchState.balance contents.fee contents.source)
  return { balance, isAllocated, totalGasUsed }

def checkContentsList (batchState : BatchState)
    (consumeGasForSigCheck : Option Nat) (remainingBlockGas : Nat) :
    ContentsList T Expr → Result T Oph Nat
  | .single contents => do
    let batchState ← checkContents parameters ctxt batchState contents consumeGasForSigCheck
      remainingBlockGas
    return batchState.totalGasUsed
  | .cons contents tail => do
    let batchState ← checkContents parameters ctxt batchState contents consumeGasForSigCheck
      remainingBlockGas
    checkContentsList batchState none remainingBlockGas tail

def checkManagerOperation (checkSignature : Bool)
    (contentsList : ContentsList T Expr) (remainingBlockGas : Nat) : Result T Oph Nat := do
  let (batchState, sourceKey) ← checkSanityAndFindPublicKey ctxt contentsList
  let gasUsed ← checkContentsList parameters ctxt batchState
    (some (parameters.checkSignatureCost sourceKey contentsList)) remainingBlockGas contentsList
  errorUnless (!checkSignature || parameters.checkSignature sourceKey contentsList) .invalidSignature
  return gasUsed

structure ValidationState (T : TokenTypes) (Oph : Type) where
  managersSeen : Table T.Pkh Oph
  remainingBlockGas : Nat

variable (state : ValidationState T Oph)

def checkUnseen (manager : T.Pkh) (error : Oph → ManagerError T Oph) : Result T Oph Unit :=
  match state.managersSeen.find manager with
  | none => .ok ()
  | some existing => tzfail (error existing)

def checkManagerOperationConflict (oph : Oph)
    (contentsList : ContentsList T Expr) : Result T Oph Unit :=
  checkUnseen state contentsList.source fun existing =>
    .managerRestriction contentsList.source existing oph

def addManagerOperation (oph : Oph) (contentsList : ContentsList T Expr) : ValidationState T Oph :=
  { state with managersSeen := state.managersSeen.add contentsList.source oph }

/-- Application and construction of a block; the mempool does not add up the gas. -/
def updateRemainingGasUsed (operationGasUsed : Nat) :
    ValidationState T Oph :=
  { state with remainingBlockGas := Gas.sub state.remainingBlockGas operationGasUsed }

def validateManagerOperation (checkSignature : Bool) (state : ValidationState T Oph) (oph : Oph)
    (contentsList : ContentsList T Expr) : Result T Oph (ValidationState T Oph) := do
  let gasUsed ← checkManagerOperation parameters ctxt checkSignature contentsList state.remainingBlockGas
  checkManagerOperationConflict state oph contentsList
  return updateRemainingGasUsed (addManagerOperation state oph contentsList) gasUsed

def initValidationState : ValidationState T Oph where
  managersSeen := ∅
  remainingBlockGas := parameters.hardGasLimitPerBlock

def checkDrainDelegateConflict (oph : Oph) (delegate : T.Pkh) : Result T Oph Unit :=
  checkUnseen state delegate fun existing => .conflictingDrainDelegate delegate existing oph

def addDrainDelegate (oph : Oph) (delegate : T.Pkh) :
    ValidationState T Oph :=
  { state with managersSeen := state.managersSeen.add delegate oph }

end Checks

end Octez.Manager
