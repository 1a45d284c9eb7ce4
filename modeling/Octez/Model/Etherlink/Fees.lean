import Octez.Model.Etherlink.Execution
import Octez.Model.Etherlink.Upgrade

/-! # Fees of a transaction -/

namespace Octez.Etherlink
open Octez.Lib Octez.Lib.Unsigned

def assumedTxEncodedSize : Nat := 150

def accessDataSize (accessList : List AccessListItem) : Nat :=
  (accessList.map fun item => 20 + 32 * item.storageKeys.length).sum

def daFee (daFeePerByte : U256) (txData : Bytes) (accessList : List AccessListItem) : U256 :=
  saturatingMul (saturatingAdd (saturatingAdd (Fin.ofNat _ txData.length) (Fin.ofNat _ assumedTxEncodedSize))
      (Fin.ofNat _ (accessDataSize accessList)))
    daFeePerByte

/-- A division by zero panics. -/
def cdiv (l r : U256) : Option U256 :=
  if r = 0 then none
  else if l % r = 0 then some (l / r)
  else some (saturatingAdd (l / r) 1)

def gasAsU64 (gasForFees : U256) : Except EthereumError UInt64 :=
  if gasForFees.val < 2 ^ 64 then .ok (UInt64.ofNat gasForFees.val) else .error .feesToGasOverflow

inductive ApplyError where
  | invalidRunTransaction (error : EthereumError)
  | accountStorage (error : AccountStorageError)
  | failedToCharge (caller : H160) (amount : U256)
  | postWithdrawals
  | noExecutionOutcome (txHash : Bytes)
  | cumulativeGasUsedOverflow
  | nonEmptyBlock
  | storage (error : StorageError)
  | internalUpgrade
  | outOfFuel
  | panic
deriving DecidableEq, Repr

def orPanic {α : Type} : Option α → Except ApplyError α
  | some a => .ok a
  | none => .error .panic

def liftEthereum {α : Type} : Except EthereumError α → Except ApplyError α
  | .ok a => .ok a
  | .error error => .error (.invalidRunTransaction error)

def liftAccounts {α : Type} : Except AccountStorageError α → Except ApplyError α
  | .ok a => .ok a
  | .error error => .error (.accountStorage error)

/-- Calculate gas for fees. The inner result is an error of the caller's. -/
def gasForFees (daFeePerByte gasPrice : U256) (txData : Bytes) (accessList : List AccessListItem) :
    Except ApplyError (Except EthereumError UInt64) := do
  let gas ← orPanic (cdiv (daFee daFeePerByte txData accessList) gasPrice)
  return gasAsU64 gas

def gasLeftForExecution (gasLimit : UInt64) (gasForFees : Except EthereumError UInt64) :
    Except EthereumError UInt64 := do
  let gasForFees ← gasForFees
  if gasForFees ≤ gasLimit then return gasLimit - gasForFees else .error .gasToFeesUnderflow

def txExecutionGasLimit (tx : EthereumTransactionCommon) (fees : BlockFees) (delayed : Bool) :
    Except ApplyError (Except EthereumError UInt64) :=
  if delayed then return .ok tx.gasLimit
  else do
    let gas ← gasForFees fees.daFeePerByte fees.baseFeePerGas tx.data tx.accessList
    return gasLeftForExecution tx.gasLimit gas

structure FeeUpdates where
  overallGasPrice : U256
  overallGasUsed : U256
  burnAmount : U256
  chargeUserAmount : U256
  compensateSequencerAmount : U256
deriving DecidableEq, Repr

namespace FeeUpdates

def forDeposit (gasUsed : U256) : FeeUpdates where
  overallGasPrice := 0
  overallGasUsed := gasUsed
  burnAmount := 0
  chargeUserAmount := 0
  compensateSequencerAmount := 0

def ofGasAndDaFee (fees : BlockFees) (executionGasUsed daFee : U256) : Option FeeUpdates := do
  let executionGasFees ← checkedMul executionGasUsed fees.baseFeePerGas
  let initialTotalFees ← checkedAdd daFee executionGasFees
  let gasPrice := fees.baseFeePerGas
  let gasUsed ← cdiv initialTotalFees gasPrice
  let totalFees ← checkedMul gasPrice gasUsed
  -- due to rounding there may be a small amount of unaccounted-for gas, which is burned
  let burned ← checkedAdd executionGasFees totalFees
  let burnAmount ← checkedSub burned initialTotalFees
  let chargeUserAmount ← checkedSub totalFees executionGasFees
  return {
    overallGasPrice := gasPrice
    overallGasUsed := gasUsed
    burnAmount
    chargeUserAmount
    compensateSequencerAmount := daFee }

def forTx (tx : EthereumTransactionCommon) (fees : BlockFees) (executionGasUsed : U256) :
    Option FeeUpdates :=
  ofGasAndDaFee fees executionGasUsed (daFee fees.daFeePerByte tx.data tx.accessList)

def forDelayedTx (fees : BlockFees) (executionGasUsed : U256) : Option FeeUpdates :=
  ofGasAndDaFee fees executionGasUsed 0

end FeeUpdates

def TransactionContent.feeUpdates (content : TransactionContent) (fees : BlockFees)
    (executionGasUsed : U256) : Option FeeUpdates :=
  match content with
  | .deposit _ => some (FeeUpdates.forDeposit executionGasUsed)
  | .ethereum tx => FeeUpdates.forTx tx fees executionGasUsed
  | .ethereumDelayed _ => FeeUpdates.forDelayedTx fees executionGasUsed

def burnedFeesPath : Path Step := [.name .evm, .name .worldState, .name .fees, .name .burned]

variable (host : Host Entry)

def readBurnedFees : U256 :=
  match host.find burnedFeesPath with
  | some (.wei amount) => amount
  | _ => 0

def updateBurnedFees (burnedFee : U256) : Host Entry :=
  host.write burnedFeesPath (.wei (saturatingAdd (readBurnedFees host) burnedFee))

def readSequencerPoolAddress : Option H160 :=
  match host.find sequencerPoolPath with
  | some (.bytes bytes) => if 20 ≤ bytes.length then some (bytes.take 20) else none
  | _ => none

namespace FeeUpdates

variable (updates : FeeUpdates)

/-- The part of `apply` after the caller was charged. -/
def distribute (world : World) : Except ApplyError World :=
  match readSequencerPoolAddress world.host with
  | none =>
    let burnedFee := saturatingAdd updates.burnAmount updates.compensateSequencerAmount
    return { world with host := updateBurnedFees world.host burnedFee }
  | some sequencer =>
    let world := { world with host := updateBurnedFees world.host updates.burnAmount }
    liftAccounts (world.balanceAdd sequencer updates.compensateSequencerAmount)

def distributeIf (caller : H160) : Bool × World → Except ApplyError World
  | (true, world) => updates.distribute world
  | (false, _) => .error (.failedToCharge caller updates.chargeUserAmount)

def apply (world : World) (caller : H160) : Except ApplyError World := do
  let charged ← liftAccounts (world.balanceRemove caller updates.chargeUserAmount)
  updates.distributeIf caller charged

def modifyOutcome (outcome : ExecutionOutcome) : Option ExecutionOutcome :=
  if updates.overallGasUsed.val < 2 ^ 64 then
    some { outcome with gasUsed := UInt64.ofNat updates.overallGasUsed.val }
  else none

end FeeUpdates

/-!
# Blocks in the storage, and what an execution sees of them
-/

def evmBlocks : Path Step := [.name .evm, .name .worldState, .name .blocks]

def evmBlockInProgress : Path Step := evmBlocks ++ [.name .inProgress]

def blockPath (hash : H256) : Path Step := evmBlocks ++ [.hex hash]

def toBlockHashPath (number : Nat) : Path Step := evmBlocks ++ [.decimal number, .name .hash]

def liftApply {α : Type} : Except StorageError α → Except ApplyError α
  | .ok a => .ok a
  | .error error => .error (.storage error)

def readCurrentBlock : Except StorageError L2Block := do
  let hash ← readCurrentBlockHash host
  readRlp host (blockPath hash)

def storeCurrentBlockNumberAndHash (number : Nat) (hash : H256) : Host Entry :=
  storeRlp hash (storeRlp number host currentBlockNumberPath) currentBlockHashPath

def blocksStored : Nat := 256

def addNewBlockHash (number : Nat) (hash : H256) : Host Entry :=
  let host := storeRlp hash host (toBlockHashPath number)
  if blocksStored ≤ number then host.dropTree (toBlockHashPath (number - blocksStored)) else host

def getBlockHash (number : Nat) : Except StorageError H256 :=
  readRlp host (toBlockHashPath number)

def storeBlockInProgress (bip : BlockInProgress) : Host Entry :=
  -- the ticks of the run are not written
  storeRlp { bip with estimatedTicksInRun := 0 } host evmBlockInProgress

def readBlockInProgress : Except StorageError (Option BlockInProgress) :=
  readOptionalRlp host evmBlockInProgress

def zeroAddress : H160 := List.replicate 20 0

def zeroHash : H256 := List.replicate 32 0

def L2Block.constants (block : L2Block) (chainId : U256) (blockFees : BlockFees) : BlockConstants where
  number := block.number
  coinbase := zeroAddress
  timestamp := block.timestamp
  gasLimit := 1
  blockFees
  chainId

def BlockConstants.firstBlock (timestamp : Int) (chainId : U256) (blockFees : BlockFees) :
    BlockConstants where
  number := 0
  coinbase := zeroAddress
  timestamp
  gasLimit := 1
  blockFees
  chainId

def BlockConstants.blockNumber (constants : BlockConstants) : Nat := constants.number

def BlockConstants.blockHash (constants : BlockConstants) (host : Host Entry) (number : Nat) : H256 :=
  if number < constants.number ∧ constants.number - number ≤ 256 then
    match getBlockHash host number with
    | .ok hash => hash
    | .error _ => zeroHash
  else zeroHash

end Octez.Etherlink
