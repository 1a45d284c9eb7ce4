import Octez.Model.Etherlink.Apply
import Octez.Model.Etherlink.Fees
import Octez.Model.Etherlink.Upgrade

/-! # Block production, in a copy of the world state under `/tmp` -/

namespace Octez.Etherlink
open Octez.Lib Octez.Lib.Unsigned

def worldStatePath : Path Step := [.name .evm, .name .worldState]

def tmpPath : Path Step := [.name .tmp]

def tmpWorldStatePath : Path Step := tmpPath ++ worldStatePath

/-- The storage that is accessed through `SafeStorage`: each path is one under `/tmp`. -/
def safeStorage (host : Host Entry) : Host Entry := host.below tmpPath

namespace SafeStorage

def start (host : Host Entry) : Except StorageError (Host Entry) :=
  liftRuntime (host.storeCopy worldStatePath tmpWorldStatePath)

def promote (host : Host Entry) : Except StorageError (Host Entry) :=
  liftRuntime (host.storeMove tmpWorldStatePath worldStatePath)

def revert (host : Host Entry) : Except StorageError (Host Entry) :=
  liftRuntime (host.storeDelete tmpPath)

end SafeStorage

namespace TickModel

def maxTicks : UInt64 := 11000000000

def ticksPerGas : UInt64 := 2000

def ticksForCrypto : UInt64 := 25000000

def queueStoringUpperBound : UInt64 := 1000000000

def safetyMargin : UInt64 := queueStoringUpperBound + 1000000000

def initialisationOverhead : UInt64 := 500000000 + 50000000

def maxAllowedTicks : UInt64 := maxTicks - safetyMargin - initialisationOverhead

def finalizeUpperBound : UInt64 := 150000000

def transactionOverheadIntercept : UInt64 := 1150000

def transactionOverheadCoef : UInt64 := 880

def transfertObjSize : UInt64 := 347

def saturating (n : Nat) : UInt64 := if n < 2 ^ 64 then UInt64.ofNat n else UInt64.ofNat (2 ^ 64 - 1)

def saturatingAdd (l r : UInt64) : UInt64 := saturating (l.toNat + r.toNat)

def saturatingMul (l r : UInt64) : UInt64 := saturating (l.toNat * r.toNat)

def saturatingSub (l r : UInt64) : UInt64 := if r ≤ l then l - r else 0

def ticksOfTransactionOverhead (dataSize : UInt64) : UInt64 :=
  saturatingAdd (saturatingMul (dataSize + transfertObjSize) transactionOverheadCoef)
    transactionOverheadIntercept

def estimateRemainingTicksForTransactionExecution (ticks dataSize : UInt64) : UInt64 :=
  saturatingSub (saturatingSub maxAllowedTicks (ticksOfTransactionOverhead dataSize)) ticks

def ticksOfInvalidTransaction (dataSize : UInt64) : UInt64 :=
  saturatingAdd (saturatingMul Kernel.gasTransactionCall ticksPerGas) (ticksOfTransactionOverhead dataSize)

end TickModel

def Transaction.dataSize (transaction : Transaction) : UInt64 :=
  match transaction.content with
  | .deposit _ => 0
  | .ethereum tx | .ethereumDelayed tx => UInt64.ofNat tx.data.length

def TickModel.ticksOfValidTransaction (transaction : Transaction) (resultingTicks : UInt64) : UInt64 :=
  match transaction.content with
  | .deposit _ => resultingTicks
  | .ethereum _ | .ethereumDelayed _ =>
    saturatingAdd (saturatingAdd resultingTicks ticksForCrypto)
      (ticksOfTransactionOverhead transaction.dataSize)

inductive ComputationResult where
  | rebootNeeded
  | finished
deriving DecidableEq, Repr

structure Application where
  number : Nat
  constants : BlockConstants
  transaction : Transaction
  allocatedTicks : UInt64
  retriable : Bool
  before : World
  result : ExecutionResult ExecutionInfo
  after : World

/-- A block that is executed, with the storage when it was started and what was applied since. -/
structure BlockRecord where
  number : Nat
  start : Host Entry
  applications : List Application

/-- The block that is being executed, and those that were promoted with the storage they became part
of. Nothing reads the journal: it is there to speak about runs. -/
structure Journal where
  current : Option BlockRecord
  promoted : List (BlockRecord × Host Entry)

namespace Journal

def start (number : Nat) (host : Host Entry) (journal : Journal) : Journal :=
  { journal with current := some { number, start := host, applications := [] } }

def apply (applications : List Application) (journal : Journal) : Journal :=
  { journal with current := journal.current.map fun record =>
      { record with applications := record.applications ++ applications } }

def promote (host : Host Entry) (journal : Journal) : Journal :=
  match journal.current with
  | some record => { current := none, promoted := journal.promoted ++ [(record, host)] }
  | none => journal

def revert (journal : Journal) : Journal := { journal with current := none }

end Journal

/-- Where the parts that are not modelled do not write when they act on the storage of a block. -/
structure Elsewhere (host host' : Host Entry) : Prop where
  blocks : Durable.SameBelow evmBlocks host host'
  burned : Durable.SameBelow burnedFeesPath host host'
  pool : Durable.SameBelow sequencerPoolPath host host'

/-- The parts of block production that are not modelled: besides those of a transaction, the decoder
of blueprints, the available kernels, the price of gas, the roots and hashes of blocks, receipts and
objects of transactions (with the ticks it takes to register them), the backlog of ticks, the index of
blocks, events and the outbox. -/
structure Producer extends Kernel where
  decode : Bytes → Option BlueprintWithDelayedHashes
  reveal : Bytes → Option Bytes
  baseFeePerGas : Host Entry → Int → U256
  logsToBloom : List Log → Bytes
  storeTransaction : Host Entry → BlockInProgress → Transaction → ExecutionInfo →
    Except ApplyError (Host Entry × UInt64)
  updateTickBacklog : Host Entry → UInt64 → Int → Except ApplyError (Host Entry)
  storeGetHash : Host Entry → Path Step → Bytes
  hash : BlockInProgress → Bytes → Bytes → Bytes → H256
  indexBlock : Host Entry → H256 → Except ApplyError (Host Entry)
  storeEvent : Host Entry → Nat → H256 → Except ApplyError (Host Entry)
  flushQueue : Host Entry → Host Entry
  execute_elsewhere : ∀ constants tx caller gasLimit ticks world outcome world',
    execute constants tx caller gasLimit ticks world = .ok (outcome, world') →
    Elsewhere world.host world'.host
  postWithdrawals_elsewhere : ∀ world withdrawals world',
    postWithdrawals world withdrawals = .ok world' → Elsewhere world.host world'.host
  indexNewAccounts_elsewhere : ∀ world outcome world',
    indexNewAccounts world outcome = .ok world' → Elsewhere world.host world'.host
  storeTransaction_elsewhere : ∀ host bip transaction info host' ticks,
    storeTransaction host bip transaction info = .ok (host', ticks) → Elsewhere host host'
  updateTickBacklog_elsewhere : ∀ host ticks timestamp host',
    updateTickBacklog host ticks timestamp = .ok host' → Elsewhere host host'
  indexBlock_elsewhere : ∀ host hash host', indexBlock host hash = .ok host' → Elsewhere host host'
  storeEvent_elsewhere : ∀ host number hash host', storeEvent host number hash = .ok host' →
    Durable.SameBelow evmBlocks host host' ∧ Durable.SameBelow tmpPath host host'
  flushQueue_elsewhere : ∀ host, Durable.SameBelow evmBlocks host (flushQueue host) ∧
    Durable.SameBelow tmpPath host (flushQueue host)

namespace BlockInProgress

def addTicks (bip : BlockInProgress) (ticks : UInt64) : BlockInProgress :=
  { bip with estimatedTicksInRun := bip.estimatedTicksInRun + ticks
             estimatedTicksInBlock := bip.estimatedTicksInBlock + ticks }

def accrueBloom (bloom other : Bytes) : Bytes := List.zipWith (· ||| ·) bloom other

def register (bip : BlockInProgress) (transaction : Transaction) (outcome : ExecutionOutcome)
    (ticksUsed : UInt64) (logsBloom : Bytes) : Except ApplyError BlockInProgress :=
  match checkedAdd bip.cumulativeGas (U256.ofUInt64 outcome.gasUsed) with
  | none => .error .cumulativeGasUsedOverflow
  | some cumulativeGas =>
    return { bip.addTicks (TickModel.ticksOfValidTransaction transaction ticksUsed) with
      cumulativeGas
      validTxs := bip.validTxs ++ [transaction.txHash]
      index := bip.index + 1
      logsBloom := accrueBloom bip.logsBloom logsBloom
      logsOffset := bip.logsOffset + UInt64.ofNat outcome.logs.length }

end BlockInProgress

namespace Producer
variable (producer : Producer)

def registerValidTransaction (bip : BlockInProgress) (transaction : Transaction) (info : ExecutionInfo)
    (host : Host Entry) : Except ApplyError (BlockInProgress × Host Entry) :=
  match info.executionOutcome with
  | none => .error (.noExecutionOutcome transaction.txHash)
  | some outcome => do
    let bip ← bip.register transaction outcome info.estimatedTicksUsed
      (producer.logsToBloom outcome.logs)
    let (host, ticks) ← producer.storeTransaction host bip transaction info
    return (bip.addTicks ticks, host)

/-- How the loop over the transactions goes on after a transaction was applied: with the next block in
progress and world, or it stops for a reboot. -/
def afterApplication (bip : BlockInProgress) (transaction : Transaction) :
    ExecutionResult ExecutionInfo × World → Except ApplyError (ComputationResult × BlockInProgress × World)
  | (.valid info, world) => do
    let (bip, host) ← producer.registerValidTransaction bip transaction info world.host
    return (.finished, bip, { world with host })
  | (.retriable _, world) =>
    return (.rebootNeeded, { bip with txQueue := transaction :: bip.txQueue }, world)
  | (.invalid, world) =>
    return (.finished, bip.addTicks (TickModel.ticksOfInvalidTransaction transaction.dataSize), world)

def computeTransaction (constants : BlockConstants) (retriable : Bool) (bip : BlockInProgress)
    (transaction : Transaction) (world : World) :
    Except ApplyError (ComputationResult × BlockInProgress × World × Application) := do
  let allocatedTicks := TickModel.estimateRemainingTicksForTransactionExecution
    bip.estimatedTicksInRun transaction.dataSize
  let applied ← producer.applyTransaction world constants transaction allocatedTicks retriable
  let (result, bip', world') ← producer.afterApplication bip transaction applied
  return (result, bip', world',
    { number := bip.number, constants, transaction, allocatedTicks, retriable, before := world
      result := applied.1, after := applied.2 })

def computeQueue (constants : BlockConstants) (isFirstBlockOfReboot : Bool) :
    Bool → List Transaction → BlockInProgress → World →
    Except ApplyError (ComputationResult × BlockInProgress × World × List Application)
  | _, [], bip, world => return (.finished, bip, world, [])
  | isFirstTransaction, transaction :: queue, bip, world => do
    let retriable := !isFirstTransaction || !isFirstBlockOfReboot
    let (result, bip, world, application) ← producer.computeTransaction constants retriable
      { bip with txQueue := queue } transaction world
    match result with
    | .rebootNeeded => return (.rebootNeeded, bip, world, [application])
    | .finished => do
      let (result, bip, world, applications) ← computeQueue constants isFirstBlockOfReboot false
        queue bip world
      return (result, bip, world, application :: applications)

def compute (bip : BlockInProgress) (constants : BlockConstants) (world : World)
    (isFirstBlockOfReboot : Bool) :
    Except ApplyError (ComputationResult × BlockInProgress × World × List Application) :=
  producer.computeQueue constants isFirstBlockOfReboot true bip.txQueue bip world

def storeBlock (host : Host Entry) (block : L2Block) : Except ApplyError (Host Entry) := do
  let host ← producer.indexBlock host block.hash
  return storeRlp block host (blockPath block.hash)

def storeCurrentBlock (host : Host Entry) (block : L2Block) : Except ApplyError (Host Entry) :=
  let host := storeCurrentBlockNumberAndHash host block.number block.hash
  let host := addNewBlockHash host block.number block.hash
  producer.storeBlock host block

def evmTransactionsReceipts : Path Step := worldStatePath ++ [.name .transactionsReceipts]

def evmTransactionsObjects : Path Step := worldStatePath ++ [.name .transactionsObjects]

def finalBlock (host : Host Entry) (bip : BlockInProgress) : L2Block :=
  let stateRoot := producer.storeGetHash host (tmpPath ++ evmAccountsPath)
  let receiptsRoot := producer.storeGetHash host (tmpPath ++ evmTransactionsReceipts)
  let transactionsRoot := producer.storeGetHash host (tmpPath ++ evmTransactionsObjects)
  { number := bip.number
    hash := producer.hash bip stateRoot transactionsRoot receiptsRoot
    parentHash := bip.parentHash
    logsBloom := bip.logsBloom
    transactionsRoot
    stateRoot
    receiptsRoot
    gasUsed := bip.cumulativeGas
    timestamp := bip.timestamp
    transactions := bip.validTxs }

end Producer

structure Progress where
  host : Host Entry
  mode : ConfigurationMode
  accounts : EthereumAccountStorage
  constants : BlockConstants
  blockNumber : Nat
  parentHash : H256
  tickCounter : UInt64
  firstBlockOfReboot : Bool
  journal : Journal

def Progress.withSafeStorage (progress : Progress) (inner : Host Entry) : Progress :=
  { progress with host := progress.host.graft tmpPath inner }

def nextConstants (host : Host Entry) (chainId : U256) (blockFees : BlockFees) :
    Option (BlockConstants × Nat × H256) :=
  match readCurrentBlock host with
  | .ok block => some (block.constants chainId blockFees, block.number + 1, block.hash)
  | .error _ => do
    let timestamp ← currentTimestamp host
    return (.firstBlock timestamp chainId blockFees, 0, genesisParentHash)

def Progress.initial (host : Host Entry) (mode : ConfigurationMode)
    (next : BlockConstants × Nat × H256) (journal : Journal) : Progress where
  host
  mode
  accounts := initAccountStorage
  constants := next.1
  blockNumber := next.2.1
  parentHash := next.2.2
  tickCounter := 0
  firstBlockOfReboot := true
  journal

abbrev Produce := EStateM ApplyError Progress

def liftKernel {α : Type} : Except KernelError α → Except ApplyError α
  | .ok a => .ok a
  | .error (.storage error) => .error (.storage error)
  | .error .internalUpgrade => .error .internalUpgrade
  | .error .outOfFuel => .error .outOfFuel
  | .error .panic => .error .panic

def liftExcept {α : Type} : Except ApplyError α → Produce α
  | .ok a => pure a
  | .error error => throw error

def onHost (f : Host Entry → Except ApplyError (Host Entry)) : Produce Unit := do
  let progress ← get
  let host ← liftExcept (f progress.host)
  set { progress with host }

def onJournal (f : Host Entry → Journal → Journal) : Produce Unit := do
  let progress ← get
  set { progress with journal := f progress.host progress.journal }

def deleteBlockInProgress (host : Host Entry) : Except StorageError (Host Entry) :=
  liftRuntime (host.storeDelete (tmpPath ++ evmBlockInProgress))

def deleteBlockInProgressIf (resumed : Bool) : Produce Unit :=
  if resumed then onHost fun host => liftApply (deleteBlockInProgress host) else pure ()

namespace Producer
variable (producer : Producer)

def registerBlock (host : Host Entry) (bip : BlockInProgress) : Except ApplyError (Host Entry) :=
  if bip.txQueue ≠ [] then .error .nonEmptyBlock
  else producer.updateTickBacklog host bip.estimatedTicksInBlock bip.timestamp

def finishBip (progress : Progress) (bip : BlockInProgress) (world : World) :
    Except ApplyError Progress := do
  let inner ← producer.registerBlock world.host bip
  let block := producer.finalBlock (progress.withSafeStorage inner).host bip
  let inner ← producer.storeCurrentBlock inner block
  return { progress.withSafeStorage inner with
    tickCounter := bip.estimatedTicksInRun + TickModel.finalizeUpperBound
    blockNumber := block.number + 1
    parentHash := block.hash
    constants := block.constants progress.constants.chainId progress.constants.blockFees
    firstBlockOfReboot := false }

def endBip (progress : Progress) (bip : BlockInProgress) (world : World) :
    ComputationResult → Except ApplyError (ComputationResult × Progress)
  | .rebootNeeded =>
    return (.rebootNeeded, progress.withSafeStorage (storeBlockInProgress world.host bip))
  | .finished => do
    let progress ← producer.finishBip progress bip world
    return (.finished, progress)

def computeBip (progress : Progress) (bip : BlockInProgress) :
    Except ApplyError (ComputationResult × Progress) := do
  let (result, bip, world, applications) ← producer.compute bip progress.constants
    { host := safeStorage progress.host, accounts := progress.accounts } progress.firstBlockOfReboot
  producer.endBip { progress with accounts := world.accounts
                                  journal := progress.journal.apply applications } bip world result

def announceBlock (host : Host Entry) : Except ApplyError (Host Entry) := do
  let number ← liftApply (readCurrentBlockNumber host)
  let hash ← liftApply (readCurrentBlockHash host)
  producer.storeEvent host number hash

def promoteBlock (resumed : Bool) (number : Nat) : Produce Unit := do
  deleteBlockInProgressIf resumed
  onHost fun host => liftApply (SafeStorage.promote host)
  onJournal Journal.promote
  onHost fun host => liftApply (dropBlueprint host number)
  onHost producer.announceBlock
  onHost fun host => .ok (producer.flushQueue host)

def revertBlock (number : Nat) : Produce Unit := do
  onHost fun host => liftApply (SafeStorage.revert host)
  onJournal fun _ => Journal.revert
  onHost fun host => liftApply (dropBlueprint host number)

/-- What follows the execution of a block. A panic is no error: it ends the run. -/
def settleBlock (resumed : Bool) (number : Nat) :
    Except ApplyError (ComputationResult × Progress) → Produce ComputationResult
  | .ok (.finished, progress) => do
    set progress
    producer.promoteBlock resumed number
    return .finished
  | .ok (.rebootNeeded, progress) => do
    set progress
    return .rebootNeeded
  | .error .panic => throw .panic
  | .error _ => do
    revertBlock number
    return .rebootNeeded

def executeBlock (resumed : Bool) (number : Nat) (bip : BlockInProgress) :
    Produce ComputationResult := do
  let progress ← get
  producer.settleBlock resumed number (producer.computeBip progress bip)

def nextBip (kernelUpgrade : Option KernelUpgrade) : Produce (Option BlockInProgress) := do
  let progress ← get
  let (bip, constants, mode, host) ← liftExcept (liftKernel (nextBipFromBlueprints producer.decode
    producer.reveal producer.baseFeePerGas progress.mode progress.host progress.blockNumber
    progress.parentHash progress.constants progress.tickCounter kernelUpgrade))
  set { progress with constants, mode, host }
  return bip

def executeNewBlock (bip : BlockInProgress) : Produce ComputationResult := do
  onHost fun host => liftApply (SafeStorage.start host)
  let progress ← get
  onJournal (Journal.start progress.blockNumber)
  producer.executeBlock false progress.blockNumber bip

def produceLoop (kernelUpgrade : Option KernelUpgrade) : Nat → Produce ComputationResult
  | 0 => throw .outOfFuel
  | fuel + 1 => do
    let bip ← producer.nextBip kernelUpgrade
    match bip with
    | none => return .finished
    | some bip => do
      let result ← producer.executeNewBlock bip
      match result with
      | .rebootNeeded => return .rebootNeeded
      | .finished => produceLoop kernelUpgrade fuel

def produceBlocks (fuel : Nat) (kernelUpgrade : Option KernelUpgrade) :
    Produce ComputationResult := do
  onHost fun host => liftApply (possibleSequencerUpgrade host)
  producer.produceLoop kernelUpgrade fuel

def produceAfter (fuel : Nat) (kernelUpgrade : Option KernelUpgrade) :
    ComputationResult → Produce ComputationResult
  | .rebootNeeded => return .rebootNeeded
  | .finished => producer.produceBlocks fuel kernelUpgrade

def resume (fuel : Nat) (kernelUpgrade : Option KernelUpgrade) :
    Option BlockInProgress → Produce ComputationResult
  | none => producer.produceBlocks fuel kernelUpgrade
  | some bip => do
    let result ← producer.executeBlock true bip.number bip
    producer.produceAfter fuel kernelUpgrade result

def produceIn (fuel : Nat) : Produce ComputationResult := do
  let progress ← get
  let kernelUpgrade ← liftExcept (liftApply (readOptionalRlp progress.host kernelUpgradePath))
  let bip ← liftExcept (liftApply (readBlockInProgress (safeStorage progress.host)))
  producer.resume fuel kernelUpgrade bip

/-- A run of the kernel's block production. The loop over the blueprints is bounded by fuel. -/
def produce (fuel : Nat) (host : Host Entry) (mode : ConfigurationMode) (chainId : U256)
    (blockFees : BlockFees) (journal : Journal) :
    EStateM.Result ApplyError Progress ComputationResult :=
  match nextConstants host chainId blockFees with
  | some next => producer.produceIn fuel (.initial host mode next journal)
  | none =>
    let next := (.firstBlock 0 chainId blockFees, 0, genesisParentHash)
    .error .panic (.initial host mode next journal)

end Producer

end Octez.Etherlink
