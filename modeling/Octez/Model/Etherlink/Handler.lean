import Octez.Model.Etherlink.Fees
import Octez.Model.Etherlink.Apply
import Octez.Lib.Stateful

/-! # Execution of calls and creations, with the virtual machine as a parameter -/

namespace Octez.Etherlink
open Octez.Lib Octez.Lib.Stateful

structure AccessRecord where
  accessedStorageKeys : List (H160 × H256)
  accessedAddresses : List H160
deriving DecidableEq, Repr

structure TransactionLayerData (Gasometer : Type) where
  gasometer : Option Gasometer
  isStatic : Bool
  logs : List Log
  deletedContracts : List H160
  withdrawals : List Withdrawal
  accessedStorageKeys : AccessRecord

/-- The layer that was opened last is the first one. -/
structure EvmHandler (Gasometer : Type) where
  world : World
  origin : H160
  block : BlockConstants
  transactionData : List (TransactionLayerData Gasometer)
  ticksAllocated : UInt64
  estimatedTicksUsed : UInt64
  effectiveGasPrice : U256
  enableWarmColdAccess : Bool

structure Context where
  address : H160
  caller : H160
  apparentValue : U256
deriving DecidableEq, Repr

structure Transfer where
  source : H160
  target : H160
  value : U256
deriving DecidableEq, Repr

inductive CreateScheme where
  | legacy (caller : H160)
  | create2 (caller : H160) (codeHash salt : H256)
  | fixed (address : H160)
deriving DecidableEq, Repr

structure CreateOutcome where
  reason : ExitReason
  address : Option H160
  value : Bytes
deriving DecidableEq, Repr

structure PrecompileOutcome where
  exitStatus : ExitReason
  output : Bytes
  withdrawals : List Withdrawal
  estimatedTicks : UInt64
deriving DecidableEq, Repr

structure CreateArguments where
  caller : H160
  scheme : CreateScheme
  value : U256
  initCode : Bytes
  targetGas : Option UInt64
deriving DecidableEq, Repr

structure CallArguments where
  codeAddress : H160
  transfer : Option Transfer
  input : Bytes
  targetGas : Option UInt64
  isStatic : Bool
  context : Context
deriving DecidableEq, Repr

/-- Calls of the handler, up to a result. All questions that change nothing are one: what is done next
may depend on the whole handler. -/
inductive Interaction (Gasometer DynamicCost α : Type) where
  | done (a : α)
  | observe (next : EvmHandler Gasometer → Interaction Gasometer DynamicCost α)
  | isCold (address : H160) (index : Option H256)
      (next : Except ExitError Bool → Interaction Gasometer DynamicCost α)
  | setStorage (address : H160) (index value : H256)
      (next : Except ExitError Unit → Interaction Gasometer DynamicCost α)
  | log (entry : Log) (next : Except ExitError Unit → Interaction Gasometer DynamicCost α)
  | markDelete (address target : H160)
      (next : Except ExitError Unit → Interaction Gasometer DynamicCost α)
  | recordCost (cost : UInt64) (next : Except ExitError Unit → Interaction Gasometer DynamicCost α)
  | recordDynamicCost (cost : DynamicCost)
      (next : Except ExitError Unit → Interaction Gasometer DynamicCost α)
  | create (arguments : CreateArguments)
      (next : CreateOutcome → Interaction Gasometer DynamicCost α)
  | call (arguments : CallArguments)
      (next : ExitReason × Bytes → Interaction Gasometer DynamicCost α)

inductive StepResult (Runtime : Type) where
  | next (runtime : Runtime)
  | exit (reason : ExitReason) (runtime : Runtime)
  | trap

structure Config where
  stackLimit : Nat
  gasTransactionCreate : UInt64
  gasTransactionCall : UInt64
  gasTransactionZeroData : UInt64
  gasTransactionNonZeroData : UInt64
  createContractLimit : Option Nat
  maxInitcodeSize : Option Nat
  callL64AfterGas : Bool
  callStipend : UInt64
deriving DecidableEq, Repr

/-- The virtual machine with its gasometer, the precompiled contracts, the model of ticks and the hash
functions. -/
structure Evm where
  Gasometer : Type
  DynamicCost : Type
  Runtime : Type
  newGasometer : UInt64 → Gasometer
  totalUsedGas : Gasometer → UInt64
  gas : Gasometer → UInt64
  gasRecordCost : UInt64 → Gasometer → Except ExitError Unit × Gasometer
  gasRecordDeposit : Nat → Gasometer → Except ExitError Unit × Gasometer
  gasRecordStipend : UInt64 → Gasometer → Except ExitError Unit × Gasometer
  gasRecordDynamicCost : DynamicCost → Gasometer → Except ExitError Unit × Gasometer
  newRuntime : Bytes → Bytes → Context → Runtime
  opcode : Runtime → Option UInt8
  returnValue : Runtime → Bytes
  step : Runtime → Interaction Gasometer DynamicCost (StepResult Runtime)
  precompile : H160 → Option (Bytes → Context → Bool → Option Transfer →
    Interaction Gasometer DynamicCost (Except EthereumError PrecompileOutcome))
  ticks : UInt8 → UInt64 → UInt64
  keccak : Bytes → H256
  createAddressLegacy : H160 → UInt64 → H160
  createAddress2 : H160 → H256 → H256 → H160
  debug : EthereumError → String
  config : Config

abbrev Handle (Gasometer : Type) := EStateM EthereumError (EvmHandler Gasometer)

section
variable {Gasometer : Type}
variable (handler : EvmHandler Gasometer)

def depth : Nat := handler.world.accounts.stackDepth

def liftEthereumResult {α : Type} : Except EthereumError α → Handle Gasometer α
  | .ok a => pure a
  | .error error => throw error

def onTop {α : Type} (missing : α) (f : TransactionLayerData Gasometer → α × TransactionLayerData Gasometer) :
    Handle Gasometer α := do
  let handler ← get
  match handler.transactionData with
  | [] => return missing
  | layer :: layers => do
    set { handler with transactionData := (f layer).2 :: layers }
    return (f layer).1

def onGasometer (f : Gasometer → Except ExitError Unit × Gasometer)
    (layer : TransactionLayerData Gasometer) :
    Except ExitError Unit × TransactionLayerData Gasometer :=
  match layer.gasometer with
  | none => (.ok (), layer)
  | some gasometer => ((f gasometer).1, { layer with gasometer := some (f gasometer).2 })

def noTransaction : Except ExitError Unit :=
  .error (.other "Recording cost, but there is no transaction in progress")

variable (address : H160)

def markStorageAsHot (index : H256) : Handle Gasometer (Except ExitError Unit) := do
  let handler ← get
  if handler.enableWarmColdAccess then
    onTop (.error (.other "Invalid transaction data stack for mark_storage_as_hot")) fun layer =>
      (.ok (), { layer with accessedStorageKeys := { layer.accessedStorageKeys with
        accessedStorageKeys := (address, index) :: layer.accessedStorageKeys.accessedStorageKeys } })
  else return .ok ()

def markAddressAsHot : Handle Gasometer (Except ExitError Unit) := do
  let handler ← get
  if handler.enableWarmColdAccess then
    onTop (.error (.other "Invalid transaction data stack for mark_address_as_hot")) fun layer =>
      (.ok (), { layer with accessedStorageKeys := { layer.accessedStorageKeys with
        accessedAddresses := address :: layer.accessedStorageKeys.accessedAddresses } })
  else return .ok ()

def isStatic : Bool :=
  match handler.transactionData with
  | [] => false
  | layer :: _ => layer.isStatic

def addWithdrawals (withdrawals : List Withdrawal) : Handle Gasometer Unit := do
  let added ← onTop false fun layer =>
    (true, { layer with withdrawals := layer.withdrawals ++ withdrawals })
  if added then return () else throw (.inconsistentTransactionStack 0 false false)

def log (entry : Log) : Handle Gasometer (Except ExitError Unit) :=
  onTop (.error (.other "No transaction data for log")) fun layer =>
    (.ok (), { layer with logs := layer.logs ++ [entry] })

def deleted : Bool :=
  handler.transactionData.any fun layer => address ∈ layer.deletedContracts

def onWorld (f : World → Except AccountStorageError World) : Handle Gasometer Unit := do
  let handler ← get
  let world ← liftEthereumResult (liftAccount (f handler.world))
  set { handler with world }

def getAccount : Option EthereumAccount :=
  handler.world.accounts.get handler.world.host address

def getNonce : UInt64 :=
  match getAccount handler address with
  | some account => account.nonce handler.world.host
  | none => 0

def balance : U256 :=
  match getAccount handler address with
  | some account => (account.balance handler.world.host).toOption.getD 0
  | none => 0

def incrementNonceIn (world : World) : Except AccountStorageError World := do
  let host ← (world.account address).incrementNonce world.host
  return { world with host }

def incrementNonce : Handle Gasometer Unit := onWorld (incrementNonceIn address)

def clearStorageIn (world : World) : World :=
  match world.accounts.get world.host address with
  | some account => { world with host := account.clearStorage world.host }
  | none => world

def clearStorage : Handle Gasometer Unit :=
  onWorld fun world => .ok (clearStorageIn address world)

def setStorageIn (index value : H256) (world : World) : World :=
  { world with host := (world.account address).setStorage world.host index value }

def setStorage (index value : H256) :
    Handle Gasometer (Except ExitError Unit) := do
  onWorld fun world => .ok (setStorageIn address index value world)
  return .ok ()

inductive TransferExitReason where
  | returned
  | outOfFund
deriving DecidableEq, Repr

def creditIfPaid (target : H160) (value : U256) :
    Bool × World → Except AccountStorageError (TransferExitReason × World)
  | (false, world) => return (.outOfFund, world)
  | (true, world) => do
    let world ← world.balanceAdd target value
    return (.returned, world)

def transferIn (source target : H160) (value : U256) (world : World) :
    Except AccountStorageError (TransferExitReason × World) :=
  if value = 0 then return (.returned, world)
  else match world.accounts.get world.host source with
  | none => return (.outOfFund, world)
  | some _ => do
    let paid ← world.balanceRemove source value
    creditIfPaid target value paid

def executeTransfer (source target : H160) (value : U256) :
    Handle Gasometer TransferExitReason := do
  let handler ← get
  let (reason, world) ← liftEthereumResult (liftAccount (transferIn source target value handler.world))
  set { handler with world }
  return reason

def orExitError {α : Type} (message : String) (x : Handle Gasometer α) :
    Handle Gasometer (Except ExitError Unit) := do
  let result ← attempt x
  match result with
  | .ok _ => return .ok ()
  | .error _ => return .error (.other message)

def setBalanceIn (value : U256) (world : World) : Except AccountStorageError World :=
  .ok { world with host := (world.account address).setBalance world.host value }

def resetBalance : Handle Gasometer Unit := do
  let handler ← get
  match getAccount handler address with
  | some _ => onWorld (setBalanceIn address 0)
  | none => throw (.ethereumAccountError (.durableStorage .pathNotFound))

def emptyDeleted (address target : H160) : Handle Gasometer (Except ExitError Unit) := do
  let handler ← get
  if address = target then
    orExitError "Could not reset balance when deleting contract" (resetBalance address)
  else
    orExitError "Could not execute transfer on contract delete"
      (executeTransfer address target (balance handler address))

def insertDeleted : Handle Gasometer (Option Bool) :=
  onTop none fun layer => (some (address ∉ layer.deletedContracts),
    { layer with deletedContracts :=
        if address ∈ layer.deletedContracts then layer.deletedContracts
        else address :: layer.deletedContracts })

def markDelete (address target : H160) : Handle Gasometer (Except ExitError Unit) := do
  let newDeletion ← insertDeleted address
  match newDeletion with
  | none => return .error (.other "No transaction data for delete")
  | some true => emptyDeleted address target
  | some false => return .ok ()

def warm (known : Bool) (mark : Handle Gasometer (Except ExitError Unit)) :
    Handle Gasometer (Except ExitError Bool) :=
  if known then return .ok false
  else do
    let marked ← mark
    match marked with
    | .ok () => return .ok true
    | .error error => return .error error

end

namespace Evm
variable (evm : Evm)

abbrev Handler := EvmHandler evm.Gasometer

abbrev Run := Handle evm.Gasometer

variable {evm}

def topGasometer (read : evm.Gasometer → UInt64) (handler : evm.Handler) : UInt64 :=
  match handler.transactionData with
  | [] => 0
  | layer :: _ => (layer.gasometer.map read).getD 0

variable (evm)
variable (handler : evm.Handler)

def gasUsed : UInt64 := topGasometer evm.totalUsedGas handler

def gasRemaining : UInt64 := topGasometer evm.gas handler

def recordCost (cost : UInt64) : evm.Run (Except ExitError Unit) :=
  onTop noTransaction (onGasometer (evm.gasRecordCost cost))

def recordDeposit (length : Nat) : evm.Run (Except ExitError Unit) :=
  onTop noTransaction (onGasometer (evm.gasRecordDeposit length))

def recordDynamicCost (cost : evm.DynamicCost) : evm.Run (Except ExitError Unit) :=
  onTop noTransaction (onGasometer (evm.gasRecordDynamicCost cost))

def recordStipend (stipend : UInt64) : evm.Run Unit := do
  let recorded ← onTop none fun layer =>
    ((some (onGasometer (evm.gasRecordStipend stipend) layer).1 : Option (Except ExitError Unit)),
      (onGasometer (evm.gasRecordStipend stipend) layer).2)
  match recorded with
  | none => throw (.inconsistentTransactionStack 0 false false)
  | some (.ok ()) => return ()
  | some (.error _) => throw (.inconsistentState "Recording a stipend returned an error")

def recordBaseGasCost (isCreate : Bool) (data : Bytes) : evm.Run (Except ExitError Unit) :=
  let baseCost := if isCreate then evm.config.gasTransactionCreate else evm.config.gasTransactionCall
  let dataCost := (data.map fun datum =>
    if datum = 0 then evm.config.gasTransactionZeroData else evm.config.gasTransactionNonZeroData).sum
  evm.recordCost (baseCost + dataCost)

variable (address : H160)

def isAddressCold (layers : List (TransactionLayerData evm.Gasometer)) :
    evm.Run (Except ExitError Bool) :=
  if (evm.precompile address).isSome then return .ok false
  else match layers with
  | [] => return .error (.other "Invalid transaction data stack for is_address_hot")
  | layer :: _ =>
    warm (address ∈ layer.accessedStorageKeys.accessedAddresses) (markAddressAsHot address)

def isCold (index : Option H256) : evm.Run (Except ExitError Bool) := do
  let handler ← get
  match handler.enableWarmColdAccess, index, handler.transactionData with
  | false, _, _ => return .ok false
  | true, some _, [] => return .error (.other "Invalid transaction data stack for is_storage_hot")
  | true, some index, layer :: _ =>
    warm ((address, index) ∈ layer.accessedStorageKeys.accessedStorageKeys) (markStorageAsHot address index)
  | true, none, layers => evm.isAddressCold address layers

def accountForTicks (opcode : UInt8) (gas : UInt64) : evm.Run Unit := do
  let handler ← get
  let used := handler.estimatedTicksUsed + evm.ticks opcode gas
  set { handler with estimatedTicksUsed := used }
  if handler.ticksAllocated < used then throw .outOfTicks else return ()

def createAddress : CreateScheme → H160
  | .create2 caller codeHash salt => evm.createAddress2 caller codeHash salt
  | .legacy caller => evm.createAddressLegacy caller (getNonce handler caller)
  | .fixed address => address

def newLayer (isStatic : Bool) (gasLimit : Option UInt64) (accessed : AccessRecord) :
    TransactionLayerData evm.Gasometer where
  gasometer := gasLimit.map evm.newGasometer
  isStatic
  logs := []
  deletedContracts := []
  withdrawals := []
  accessedStorageKeys := accessed

def pushLayer (isStatic_ : Bool) (gasLimit : Option UInt64) (accessed : AccessRecord) : evm.Run Unit := do
  let handler ← get
  let (accounts, host) := handler.world.accounts.beginTransaction handler.world.host
  set { handler with
    transactionData := evm.newLayer (isStatic handler || isStatic_) gasLimit accessed ::
      handler.transactionData
    world := { host, accounts } }

def beginInitialTransaction (isStatic : Bool) (gasLimit : Option UInt64) : evm.Run Unit := do
  let handler ← get
  if 0 < depth handler then throw (.inconsistentTransactionStack (depth handler) true true)
  else evm.pushLayer isStatic gasLimit { accessedStorageKeys := [], accessedAddresses := [] }

def beginInterTransaction (isStatic : Bool) (gasLimit : Option UInt64) : evm.Run Unit := do
  let handler ← get
  match depth handler, handler.transactionData with
  | 0, _ => throw (.inconsistentTransactionStack 0 false true)
  | _, [] => throw (.inconsistentTransactionStack 0 false true)
  | _, layer :: _ => evm.pushLayer isStatic gasLimit layer.accessedStorageKeys

def liftTransaction {α : Type} : Except TransactionStorageError α → evm.Run α
  | .ok a => pure a
  | .error error => throw (.ethereumStorageError error)

def commitLayer : evm.Run Unit := do
  let handler ← get
  let (accounts, host) ←
    evm.liftTransaction (handler.world.accounts.commitTransaction handler.world.host)
  set { handler with world := { host, accounts } }

def rollbackLayer : evm.Run Unit := do
  let handler ← get
  let (accounts, host) ←
    evm.liftTransaction (handler.world.accounts.rollbackTransaction handler.world.host)
  set { handler with world := { host, accounts } }

def popLayer : evm.Run (Option (TransactionLayerData evm.Gasometer)) := do
  let handler ← get
  match handler.transactionData with
  | [] => return none
  | layer :: layers => do
    set { handler with transactionData := layers }
    return some layer

def deleteContract : evm.Run Unit := do
  let handler ← get
  match handler.world.accounts.delete handler.world.host address with
  | .ok host => set { handler with world := { handler.world with host } }
  | .error _ => return ()

def deleteContracts : List H160 → evm.Run Unit
  | [] => return ()
  | address :: addresses => do
    evm.deleteContract address
    deleteContracts addresses

def checkInitial : evm.Run Unit := do
  let handler ← get
  if depth handler ≠ 1 then throw (.inconsistentTransactionStack (depth handler) true false)
  else if depth handler ≠ handler.transactionData.length then
    throw (.inconsistentTransactionData (depth handler) handler.transactionData.length)
  else return ()

def commitInitialTransaction (newAddress : Option H160) (result : Bytes) (reason : ExitReason) :
    evm.Run ExecutionOutcome := do
  evm.checkInitial
  let handler ← get
  let gasUsed := evm.gasUsed handler
  let lastLayer ← evm.popLayer
  match lastLayer with
  | none => throw (.inconsistentState
      "The transaction data stack is empty when committing the initial transaction")
  | some layer => do
    evm.deleteContracts layer.deletedContracts
    evm.commitLayer
    return {
      gasUsed
      isSuccess := true
      reason := .exit reason
      newAddress
      logs := layer.logs
      result := some result
      withdrawals := layer.withdrawals
      estimatedTicksUsed := handler.estimatedTicksUsed }

def rollbackInitialTransaction (result : Option Bytes) (reason : ExtendedExitReason) :
    evm.Run ExecutionOutcome := do
  evm.checkInitial
  let handler ← get
  let gasUsed := evm.gasUsed handler
  evm.rollbackLayer
  let _ ← evm.popLayer
  return {
    gasUsed
    isSuccess := false
    reason
    newAddress := none
    logs := []
    result
    withdrawals := []
    estimatedTicksUsed := handler.estimatedTicksUsed }

def ethereumErrorToExitReason : EthereumError → ExitReason
  | .ethereumAccountError .nonceOverflow => .error .maxNonce
  | error => .fatal (.other (evm.debug error))

def endInitialTransaction : Except EthereumError CreateOutcome → evm.Run ExecutionOutcome
  | .ok { reason := .succeed reason, address, value } =>
    evm.commitInitialTransaction address value (.succeed reason)
  | .ok { reason := .revert, value, .. } => evm.rollbackInitialTransaction (some value) (.exit .revert)
  | .ok { reason := .error error, .. } => evm.rollbackInitialTransaction none (.exit (.error error))
  | .ok { reason := .fatal (.other message), .. } => do
    let _ ← evm.rollbackInitialTransaction none (.exit (.fatal (.other message)))
    throw (.wrappedError message)
  | .ok { reason := .fatal error, .. } => evm.rollbackInitialTransaction none (.exit (.fatal error))
  | .error .outOfTicks => evm.rollbackInitialTransaction none .outOfTicks
  | .error error => do
    let _ ← evm.rollbackInitialTransaction none (.exit (evm.ethereumErrorToExitReason error))
    throw error

def mergeLayer (committed below : TransactionLayerData evm.Gasometer) :
    TransactionLayerData evm.Gasometer :=
  { below with
    logs := below.logs ++ committed.logs
    withdrawals := below.withdrawals ++ committed.withdrawals
    deletedContracts := below.deletedContracts ++ committed.deletedContracts
    accessedStorageKeys := committed.accessedStorageKeys }

def mergeTop (gasRemaining : UInt64) : Option (TransactionLayerData evm.Gasometer) → evm.Run Unit
  | none => throw (.inconsistentState "The transaction data stack is empty at commit")
  | some committed => do
    let merged ← onTop false fun below => (true, evm.mergeLayer committed below)
    if merged then evm.recordStipend gasRemaining
    else throw (.inconsistentState "The transaction data stack is empty")

def commitInterTransaction : evm.Run Unit := do
  let handler ← get
  if depth handler < 2 then throw (.inconsistentTransactionStack (depth handler) false false)
  else do
    evm.commitLayer
    let committed ← evm.popLayer
    evm.mergeTop (evm.gasRemaining handler) committed

def refundIf (refundGas : Bool) (gasRemaining : UInt64) : evm.Run Unit :=
  if refundGas then evm.recordStipend gasRemaining else return ()

def rollbackInterTransaction (refundGas : Bool) : evm.Run Unit := do
  let handler ← get
  if depth handler < 2 then throw (.inconsistentTransactionStack (depth handler) false false)
  else do
    let _ ← evm.popLayer
    evm.refundIf refundGas (evm.gasRemaining handler)
    evm.rollbackLayer

def failed (error : EthereumError) : CreateOutcome :=
  { reason := evm.ethereumErrorToExitReason error, address := none, value := [] }

def orFailed (result : CreateOutcome) (x : evm.Run Unit) : evm.Run CreateOutcome := do
  let ended ← attempt x
  match ended with
  | .ok () => return result
  | .error error => return evm.failed error

/-- A layer that ended in an error of the handler is rolled back; if that fails it is only logged. -/
def dropLayer (result : CreateOutcome) : evm.Run CreateOutcome := do
  let _ ← attempt (evm.rollbackInterTransaction false)
  return result

def endInterTransaction : Except EthereumError CreateOutcome → evm.Run CreateOutcome
  | .ok result =>
    match result.reason with
    | .succeed _ => evm.orFailed result evm.commitInterTransaction
    | .revert => evm.orFailed result (evm.rollbackInterTransaction true)
    | .error _ => evm.orFailed result (evm.rollbackInterTransaction false)
    | .fatal (.callErrorAsFatal .createContractLimit) =>
      evm.orFailed { result with reason := .error .createContractLimit } (evm.rollbackInterTransaction false)
    | .fatal _ => evm.orFailed result (evm.rollbackInterTransaction false)
  | .error (.precompileFailed reason) =>
    evm.dropLayer { reason := .error (.other (evm.debug (.precompileFailed reason)))
                    address := none, value := [] }
  | .error error => evm.dropLayer (evm.failed error)

def nestedCallGasLimit (targetGas : Option UInt64) : UInt64 :=
  let gasRemaining := evm.gasRemaining handler
  let maxGasLimit :=
    if evm.config.callL64AfterGas then gasRemaining - gasRemaining / 64 else gasRemaining
  match targetGas with
  | some gas => if gas ≤ maxGasLimit then gas else maxGasLimit
  | none => maxGasLimit

inductive Precondition where
  | passPrecondition
  | preconditionErr (reason : ExitReason)
  | ethereumErr (error : EthereumError)
deriving DecidableEq, Repr

def hasEnoughFund (source : H160) (value : U256) : Except EthereumError Bool :=
  if value = 0 then return true
  else match getAccount handler source with
  | none => return false
  | some account => do
    let balance ← liftAccount (account.balance handler.world.host)
    return value ≤ balance

/-- The stack depth is the number of layers minus the initial one. -/
def canBeginInterTransaction (caller : H160) (value : U256) : Precondition :=
  match evm.hasEnoughFund handler caller value with
  | .ok true =>
    if depth handler - 1 < evm.config.stackLimit then .passPrecondition
    else .preconditionErr (.error .callTooDeep)
  | .ok false => .preconditionErr (.error .outOfFund)
  | .error error => .ethereumErr error

def isColliding : Except EthereumError Bool :=
  match getAccount handler address with
  | none => return false
  | some account => do
    let size ← liftAccount (account.codeSize handler.world.host)
    return size ≠ 0 || account.nonce handler.world.host ≠ 0

def contractWillCollide : Precondition :=
  if deleted handler address then .preconditionErr (.error .createCollision)
  else match evm.isColliding handler address with
  | .ok false => .passPrecondition
  | .ok true => .preconditionErr (.error .createCollision)
  | .error error => .ethereumErr error

def setContractCode (code : Bytes) : evm.Run Unit :=
  onWorld fun world =>
    .ok { world with host := (world.account address).setCode world.host evm.keccak code }

def exceeds (limit : Option Nat) (size : Nat) : Bool :=
  match limit with
  | some limit => limit < size
  | none => false

def storeCode (reason : ExitReason) (address : H160) (code : Bytes) : evm.Run CreateOutcome := do
  let recorded ← evm.recordDeposit code.length
  match recorded with
  | .error error => return { reason := .error error, address := none, value := [] }
  | .ok () => do
    evm.setContractCode address code
    return { reason, address := some address, value := [] }

def endCreate (runtime : evm.Runtime) (address : H160) : ExitReason → evm.Run CreateOutcome
  | .succeed .suicided => return { reason := .succeed .suicided, address := some address, value := [] }
  | .succeed reason =>
    let code := evm.returnValue runtime
    if code.head? = some 0xef then
      return { reason := .error (.invalidCode 0xef), address := none, value := [] }
    else if exceeds evm.config.createContractLimit code.length then
      return { reason := .error .createContractLimit, address := none, value := [] }
    else evm.storeCode (.succeed reason) address code
  | .revert => return { reason := .revert, address := none, value := evm.returnValue runtime }
  | reason => return { reason, address := none, value := [] }

section
variable (execute : evm.Runtime → evm.Run (ExitReason × evm.Runtime))

def executeCreated (runtime : evm.Runtime) (address : H160) :
    TransferExitReason → evm.Run (ExitReason × evm.Runtime)
  | .outOfFund => return (.error .outOfFund, runtime)
  | .returned => do
    incrementNonce address
    clearStorage address
    execute runtime

def executeUnlessColliding (runtime : evm.Runtime) (caller : H160) (value : U256) (address : H160) :
    Precondition → evm.Run (ExitReason × evm.Runtime)
  | .preconditionErr reason => return (reason, runtime)
  | .ethereumErr error => throw error
  | .passPrecondition => do
    let transfer ← executeTransfer caller address value
    evm.executeCreated execute runtime address transfer

def executeInitCode (caller : H160) (value : U256) (initialCode : Bytes) (address : H160) :
    evm.Run CreateOutcome := do
  let handler ← get
  let runtime := evm.newRuntime initialCode [] { address, caller, apparentValue := value }
  let (reason, runtime) ← evm.executeUnlessColliding execute runtime caller value address
    (evm.contractWillCollide handler address)
  evm.endCreate runtime address reason

def executeCreate (caller : H160) (value : U256) (initialCode : Bytes) (address : H160) :
    evm.Run CreateOutcome :=
  if exceeds evm.config.maxInitcodeSize initialCode.length then
    return { reason := .error .createContractLimit, address := none, value := [] }
  else do
    let recorded ← evm.recordCost (UInt64.ofNat (initialCode.length / 32) * 2)
    match recorded with
    | .error _ => return { reason := .error .outOfGas, address := none, value := [] }
    | .ok () => evm.executeInitCode execute caller value initialCode address

def codeOf (address : H160) : Bytes :=
  match getAccount handler address with
  | some account => (account.code handler.world.host).toOption.getD []
  | none => []

section
variable (arguments : CreateArguments)

def createInLayer (address : H160) (gasLimit : UInt64) : evm.Run CreateOutcome := do
  let begun ← attempt (evm.beginInterTransaction false (some gasLimit))
  match begun with
  | .error error => return evm.failed error
  | .ok () => do
    let result ← attempt
      (evm.executeCreate execute arguments.caller arguments.value arguments.initCode address)
    evm.endInterTransaction result

def createWithGas (address : H160) : evm.Run CreateOutcome := do
  let handler ← get
  let gasLimit := evm.nestedCallGasLimit handler arguments.targetGas
  let recorded ← evm.recordCost gasLimit
  match recorded with
  | .error _ => return { reason := .error .outOfGas, address := none, value := [] }
  | .ok () => evm.createInLayer execute arguments address gasLimit

/-- The nonce of the caller stays incremented when the creation is rolled back. -/
def createAt (address : H160) : evm.Run CreateOutcome := do
  let marked ← markAddressAsHot address
  match marked with
  | .error _ => return evm.failed (.inconsistentState "Failed to mark callee address as hot")
  | .ok () => do
    let incremented ← attempt (incrementNonce arguments.caller)
    match incremented with
    | .error error => return evm.failed error
    | .ok () => evm.createWithGas execute arguments address

def create : evm.Run CreateOutcome := do
  let handler ← get
  match evm.canBeginInterTransaction handler arguments.caller arguments.value with
  | .preconditionErr reason => return { reason, address := none, value := [] }
  | .ethereumErr error => return evm.failed error
  | .passPrecondition =>
    if exceeds evm.config.maxInitcodeSize arguments.initCode.length then
      return { reason := .fatal (.callErrorAsFatal .createContractLimit), address := none, value := [] }
    else evm.createAt execute arguments (evm.createAddress handler arguments.scheme)

end

section
variable (call : CallArguments → evm.Run (ExitReason × Bytes))

def interact {α : Type} : Interaction evm.Gasometer evm.DynamicCost α → evm.Run α
  | .done a => return a
  | .observe next => do
    let handler ← get
    interact (next handler)
  | .isCold address index next => do
    let answer ← evm.isCold address index
    interact (next answer)
  | .setStorage address index value next => do
    let answer ← setStorage address index value
    interact (next answer)
  | .log entry next => do
    let answer ← Etherlink.log entry
    interact (next answer)
  | .markDelete address target next => do
    let answer ← markDelete address target
    interact (next answer)
  | .recordCost cost next => do
    let answer ← evm.recordCost cost
    interact (next answer)
  | .recordDynamicCost cost next => do
    let answer ← evm.recordDynamicCost cost
    interact (next answer)
  | .create arguments next => do
    let answer ← evm.create execute arguments
    interact (next answer)
  | .call arguments next => do
    let answer ← call arguments
    interact (next answer)

def endPrecompile : Except EthereumError PrecompileOutcome → evm.Run CreateOutcome
  | .error error => throw error
  | .ok outcome => do
    addWithdrawals outcome.withdrawals
    modify fun handler =>
      { handler with estimatedTicksUsed := handler.estimatedTicksUsed + outcome.estimatedTicks }
    return { reason := outcome.exitStatus, address := none, value := outcome.output }

def executeCode (address : H160) (transfer : Option Transfer) (input : Bytes) (context : Context) :
    evm.Run CreateOutcome := do
  let handler ← get
  match evm.precompile address with
  | some precompile => do
    let result ← evm.interact execute call (precompile input context (isStatic handler) transfer)
    evm.endPrecompile result
  | none => do
    let (reason, runtime) ← execute (evm.newRuntime (evm.codeOf handler address) input context)
    return { reason, address := none, value := evm.returnValue runtime }

def transferIfAny (context : Context) : Option Transfer → evm.Run TransferExitReason
  | none => return .returned
  | some transfer => executeTransfer context.caller context.address transfer.value

def executeCall (address : H160) (transfer : Option Transfer) (input : Bytes) (context : Context) :
    evm.Run CreateOutcome := do
  let transferred ← evm.transferIfAny context transfer
  match transferred with
  | .outOfFund => return { reason := .error .outOfFund, address := none, value := [] }
  | .returned => evm.executeCode execute call address transfer input context

variable (arguments : CallArguments)

def callInLayer (gasLimit : UInt64) : evm.Run (ExitReason × Bytes) := do
  let begun ← attempt (evm.beginInterTransaction arguments.isStatic (some gasLimit))
  match begun with
  | .error error => return (evm.ethereumErrorToExitReason error, [])
  | .ok () => do
    let result ← attempt
      (evm.executeCall execute call arguments.codeAddress arguments.transfer arguments.input arguments.context)
    let outcome ← evm.endInterTransaction result
    return (outcome.reason, outcome.value)

def transferValue : U256 :=
  match arguments.transfer with
  | none => 0
  | some transfer => transfer.value

def callWithGas : evm.Run (ExitReason × Bytes) := do
  let handler ← get
  let gasLimit := evm.nestedCallGasLimit handler arguments.targetGas
  let recorded ← evm.recordCost gasLimit
  match recorded with
  | .error _ => return (.error .outOfGas, [])
  | .ok () =>
    let gasLimit :=
      if transferValue arguments = 0 then gasLimit
      else if gasLimit.toNat + evm.config.callStipend.toNat < 2 ^ 64 then
        gasLimit + evm.config.callStipend
      else UInt64.ofNat (2 ^ 64 - 1)
    evm.callInLayer execute call arguments gasLimit

def refuseCall (reason : ExitReason) : evm.Run (ExitReason × Bytes) := do
  let refunded ← attempt (evm.refundIf (transferValue arguments ≠ 0) evm.config.callStipend)
  match refunded with
  | .error error => return (evm.ethereumErrorToExitReason error, [])
  | .ok () => return (reason, [])

def callWith : evm.Run (ExitReason × Bytes) := do
  let handler ← get
  match evm.canBeginInterTransaction handler arguments.context.caller (transferValue arguments) with
  | .passPrecondition => evm.callWithGas execute call arguments
  | .preconditionErr reason => evm.refuseCall arguments reason
  | .ethereumErr error => return (evm.ethereumErrorToExitReason error, [])

end
end

/-- Calls nest in precompiled contracts and in the code that is executed; both are bounded by fuel. -/
def call (execute : evm.Runtime → evm.Run (ExitReason × evm.Runtime)) :
    Nat → CallArguments → evm.Run (ExitReason × Bytes)
  | 0, _ => throw .outOfFuel
  | fuel + 1, arguments => evm.callWith execute (call execute fuel) arguments

/-- The ticks of the opcode are counted before its result is looked at. -/
def accountForStep (opcode : Option UInt8) (gasBefore : UInt64) : evm.Run Unit := do
  let handler ← get
  match opcode with
  | some opcode => evm.accountForTicks opcode (evm.gasUsed handler - gasBefore)
  | none => return ()

def execute : Nat → evm.Runtime → evm.Run (ExitReason × evm.Runtime)
  | 0, _ => throw .outOfFuel
  | fuel + 1, runtime => do
    let handler ← get
    let result ← evm.interact (execute fuel) (evm.call (execute fuel) fuel) (evm.step runtime)
    evm.accountForStep (evm.opcode runtime) (evm.gasUsed handler)
    match result with
    | .next runtime => execute fuel runtime
    | .exit reason runtime => return (reason, runtime)
    | .trap => throw .internalTrapError

def marked (result : Except ExitError Unit) (message : String) : evm.Run Unit :=
  match result with
  | .ok () => return ()
  | .error _ => throw (.inconsistentState message)

variable (fuel : Nat)

def endAfter (execution : evm.Run CreateOutcome) : evm.Run ExecutionOutcome := do
  let result ← attempt execution
  evm.endInitialTransaction result

def endUnlessPaid (isCreate : Bool) (input : Bytes) (rest : evm.Run ExecutionOutcome) :
    evm.Run ExecutionOutcome := do
  let recorded ← evm.recordBaseGasCost isCreate input
  match recorded with
  | .error error => evm.endInitialTransaction (.ok { reason := .error error, address := none, value := [] })
  | .ok () => rest

def callContract (caller callee : H160) (value : Option U256) (input : Bytes)
    (gasLimit : Option UInt64) (isStatic : Bool) : evm.Run ExecutionOutcome := do
  incrementNonce caller
  evm.beginInitialTransaction isStatic gasLimit
  let hot ← markAddressAsHot caller
  evm.marked hot "Failed to mark caller address as hot"
  let hot ← markAddressAsHot callee
  evm.marked hot "Failed to mark callee address as hot"
  evm.endUnlessPaid false input <| evm.endAfter <|
    evm.executeCall (evm.execute fuel) (evm.call (evm.execute fuel) fuel) callee
      (value.map fun value => { source := caller, target := callee, value }) input
      { address := callee, caller, apparentValue := value.getD 0 }

def createContract (caller : H160) (value : Option U256) (input : Bytes) (gasLimit : Option UInt64) :
    evm.Run ExecutionOutcome := do
  let handler ← get
  let address := evm.createAddress handler (.legacy caller)
  incrementNonce caller
  evm.beginInitialTransaction false gasLimit
  let hot ← markAddressAsHot caller
  evm.marked hot "Failed to mark caller address as hot"
  evm.endUnlessPaid true input (do
    let hot ← markAddressAsHot address
    evm.marked hot "Failed to mark callee address as hot"
    evm.endAfter (evm.executeCreate (evm.execute fuel) caller (value.getD 0) input address))

def newHandler (world : World) (caller : H160) (block : BlockConstants) (allocatedTicks : UInt64)
    (effectiveGasPrice : U256) (enableWarmColdAccess : Bool) : evm.Handler where
  world
  origin := caller
  block
  transactionData := []
  ticksAllocated := allocatedTicks
  estimatedTicksUsed := 0
  effectiveGasPrice
  enableWarmColdAccess

def callOrCreate (address : Option H160) (caller : H160) (value : Option U256) (callData : Bytes)
    (gasLimit : Option UInt64) : evm.Run ExecutionOutcome :=
  match address with
  | some address => evm.callContract fuel caller address value callData gasLimit false
  | none => evm.createContract fuel caller value callData gasLimit

def resultOf {α : Type} : EStateM.Result EthereumError evm.Handler α → Except EthereumError (α × World)
  | .ok a handler => .ok (a, handler.world)
  | .error error _ => .error error

def transact (block : BlockConstants) (address : Option H160) (caller : H160) (callData : Bytes)
    (gasLimit : Option UInt64) (effectiveGasPrice : U256) (value : Option U256)
    (allocatedTicks : UInt64) (enableWarmColdAccess : Bool) (world : World) :
    Except EthereumError (ExecutionOutcome × World) :=
  evm.resultOf (evm.callOrCreate fuel address caller value callData gasLimit
    (evm.newHandler world caller block allocatedTicks effectiveGasPrice enableWarmColdAccess))

def executeTransaction (constants : BlockConstants) (tx : EthereumTransactionCommon) (caller : H160)
    (gasLimit allocatedTicks : UInt64) (world : World) :
    Except EthereumError (ExecutionOutcome × World) :=
  evm.transact fuel constants tx.to_ caller tx.data (some gasLimit) constants.blockFees.baseFeePerGas
    (some tx.value) allocatedTicks false world

end Evm

end Octez.Etherlink
