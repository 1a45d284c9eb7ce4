import Octez.Model.Etherlink.Fees

/-!
# Applying a transaction of a block
-/

namespace Octez.Etherlink
open Octez.Lib.Unsigned

inductive Validity where
  | valid (caller : H160) (gasLimit : UInt64)
  | invalidChainId
  | invalidSignature
  | invalidNonce
  | invalidPrePay
  | invalidCode
  | invalidMaxBaseFee
  | invalidNotEnoughGasForFees
deriving DecidableEq, Repr

/-- Nonce, balance and whether there is code, of an account that need not exist. -/
def accountState (host : Host Entry) :
    Option EthereumAccount → Except AccountStorageError (UInt64 × U256 × Bool)
  | none => return (0, 0, false)
  | some account => do
    let balance ← account.balance host
    return (account.nonce host, balance, account.codeExists host)

def checkGasForFees (tx : EthereumTransactionCommon) (fees : BlockFees) (caller : H160)
    (isDelayed : Bool) : Except ApplyError Validity := do
  let gasLimit ← txExecutionGasLimit tx fees isDelayed
  match gasLimit with
  | .ok gasLimit => return .valid caller gasLimit
  | .error _ => return .invalidNotEnoughGasForFees

def checkCaller (world : World) (tx : EthereumTransactionCommon) (fees : BlockFees)
    (effectiveGasPrice : U256) (isDelayed : Bool) (caller : H160) : Except ApplyError Validity := do
  let (nonce, balance, codeExists) ←
    liftAccounts (accountState world.host (world.accounts.get world.host caller))
  let totalGasLimit := U256.ofUInt64 tx.gasLimit
  let cost := saturatingMul totalGasLimit effectiveGasPrice
  let maxFee := saturatingMul totalGasLimit tx.maxFeePerGas
  if nonce ≠ tx.nonce then return .invalidNonce
  else if balance < cost ∨ balance < maxFee then return .invalidPrePay
  else if codeExists then return .invalidCode
  else checkGasForFees tx fees caller isDelayed

/-- The recovery of the caller from the signature is a parameter. -/
def isValidEthereumTransactionCommon (callerOf : EthereumTransactionCommon → Option H160)
    (world : World) (tx : EthereumTransactionCommon) (constants : BlockConstants)
    (effectiveGasPrice : U256) (isDelayed : Bool) : Except ApplyError Validity :=
  if tx.chainId.isSome ∧ some constants.chainId ≠ tx.chainId then return .invalidChainId
  else if tx.maxFeePerGas < constants.blockFees.baseFeePerGas then return .invalidMaxBaseFee
  else match callerOf tx with
  | none => return .invalidSignature
  | some caller => checkCaller world tx constants.blockFees effectiveGasPrice isDelayed caller

inductive ExecutionResult (α : Type) where
  | valid (result : α)
  | invalid
  | retriable (result : α)
deriving DecidableEq, Repr

structure TransactionResult where
  caller : H160
  executionOutcome : Option ExecutionOutcome
  gasUsed : U256
  estimatedTicksUsed : UInt64
deriving DecidableEq, Repr

def transactionResult (caller : H160) (retriable : Bool) :
    Option ExecutionOutcome → ExecutionResult TransactionResult
  | none => .valid { caller, executionOutcome := none, gasUsed := 0, estimatedTicksUsed := 0 }
  | some outcome =>
    let result : TransactionResult :=
      { caller, executionOutcome := some outcome, gasUsed := U256.ofUInt64 outcome.gasUsed
        estimatedTicksUsed := outcome.estimatedTicksUsed }
    if isRetried outcome retriable then .retriable result else .valid result

structure ExecutionInfo where
  caller : H160
  executionOutcome : Option ExecutionOutcome
  feeUpdates : FeeUpdates
  estimatedTicksUsed : UInt64
deriving DecidableEq, Repr

/-- The code of the execution, the outbox and the index of accounts are parameters. An execution is
given the gas limit and the ticks that it may use. -/
structure Kernel where
  callerOf : EthereumTransactionCommon → Option H160
  execute : BlockConstants → EthereumTransactionCommon → H160 → UInt64 → UInt64 → World →
    Except EthereumError (ExecutionOutcome × World)
  postWithdrawals : World → List Withdrawal → Except ApplyError World
  indexNewAccounts : World → Option ExecutionOutcome → Except ApplyError World

namespace Kernel
variable (kernel : Kernel)

variable (world : World) (constants : BlockConstants)

def runValid (tx : EthereumTransactionCommon) (allocatedTicks : UInt64) (retriable : Bool) :
    Validity → Except ApplyError (ExecutionResult TransactionResult × World)
  | .valid caller gasLimit => do
    let (outcome, world) ← liftEthereum
      (runTransaction (kernel.execute constants tx caller gasLimit allocatedTicks) world caller (some gasLimit)
        constants.blockFees.baseFeePerGas true retriable)
    return (transactionResult caller retriable outcome, world)
  | _ => return (.invalid, world)

def applyEthereumTransactionCommon (tx : EthereumTransactionCommon) (allocatedTicks : UInt64)
    (retriable isDelayed : Bool) :
    Except ApplyError (ExecutionResult TransactionResult × World) := do
  let validity ← isValidEthereumTransactionCommon kernel.callerOf world tx constants
    constants.blockFees.baseFeePerGas isDelayed
  kernel.runValid world constants tx allocatedTicks retriable validity

def gasTransactionCall : UInt64 := 21000

def ticksForDeposit : UInt64 := 2000000

def depositOutcome (isSuccess : Bool) : ExecutionOutcome where
  gasUsed := gasTransactionCall
  isSuccess
  reason := .exit (if isSuccess then .succeed .returned else .error (.other "Deposit failed"))
  newAddress := none
  logs := []
  result := none
  withdrawals := []
  estimatedTicksUsed := ticksForDeposit

/-- A deposit that the receiver's balance has no room for is reported as failed. -/
def applyDeposit (deposit : Deposit) : ExecutionResult TransactionResult × World :=
  let (isSuccess, world) :=
    match world.balanceAdd deposit.receiver deposit.amount with
    | .ok world => (true, world)
    | .error _ => (false, world)
  (.valid { caller := List.replicate 20 0, executionOutcome := some (depositOutcome isSuccess)
            gasUsed := U256.ofUInt64 gasTransactionCall, estimatedTicksUsed := ticksForDeposit }, world)

def reportOutcome (updates : FeeUpdates) (world : World) :
    Option ExecutionOutcome → Except ApplyError (Option ExecutionOutcome × World)
  | none => return (none, world)
  | some outcome => do
    let outcome ← orPanic (updates.modifyOutcome outcome)
    let world ← kernel.postWithdrawals world outcome.withdrawals
    return (some outcome, world)

def payFeesIf (payFees : Bool) (updates : FeeUpdates) (world : World) (caller : H160) :
    Except ApplyError World :=
  if payFees then updates.apply world caller else return world

def handleTransactionResult (transaction : Transaction) (result : TransactionResult)
    (payFees : Bool) : Except ApplyError (ExecutionInfo × World) := do
  let updates ← orPanic (transaction.content.feeUpdates constants.blockFees result.gasUsed)
  let (outcome, world) ← kernel.reportOutcome updates world result.executionOutcome
  let world ← payFeesIf payFees updates world result.caller
  let world ← kernel.indexNewAccounts world outcome
  return ({ caller := result.caller, executionOutcome := outcome, feeUpdates := updates
            estimatedTicksUsed := result.estimatedTicksUsed }, world)

def applyContent (allocatedTicks : UInt64) (retriable : Bool) :
    TransactionContent → Except ApplyError (ExecutionResult TransactionResult × World)
  | .ethereum tx =>
    kernel.applyEthereumTransactionCommon world constants tx allocatedTicks retriable false
  | .ethereumDelayed tx =>
    kernel.applyEthereumTransactionCommon world constants tx allocatedTicks retriable true
  | .deposit deposit => return applyDeposit world deposit

def finishTransaction (transaction : Transaction) :
    ExecutionResult TransactionResult × World → Except ApplyError (ExecutionResult ExecutionInfo × World)
  | (.valid result, world) => do
    let (info, world) ← kernel.handleTransactionResult world constants transaction result true
    return (.valid info, world)
  | (.retriable result, world) => do
    let (info, world) ← kernel.handleTransactionResult world constants transaction result false
    return (.retriable info, world)
  | (.invalid, world) => return (.invalid, world)

def applyTransaction (transaction : Transaction) (allocatedTicks : UInt64) (retriable : Bool) :
    Except ApplyError (ExecutionResult ExecutionInfo × World) := do
  let applied ← kernel.applyContent world constants allocatedTicks retriable transaction.content
  kernel.finishTransaction constants transaction applied

end Kernel

end Octez.Etherlink
