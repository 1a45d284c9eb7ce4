import Octez.Model.Etherlink.Blueprints

/-!
# Upgrades of the kernel and of the sequencer, and the next block in progress
-/

namespace Octez.Etherlink
open Octez.Lib

/-- A loop whose end is not structural is bounded by fuel. -/
inductive KernelError where
  | storage (error : StorageError)
  | internalUpgrade
  | outOfFuel
  | panic
deriving DecidableEq, Repr

def liftStorage {α : Type} : Except StorageError α → Except KernelError α
  | .ok a => .ok a
  | .error error => .error (.storage error)

def kernelUpgradePath : Path Step := [.name .evm, .name .kernelUpgrade]

def kernelRootHashPath : Path Step := [.name .evm, .name .kernelRootHash]

def kernelBootPath : Path Step := [.name .kernel, .name .bootWasm]

def rebootPath : Path Step := [.name .kernel, .name .env, .name .reboot]

def backupKernelBootPath : Path Step := [.name .backupKernel, .name .bootWasm]

def backupKernelRootHash : Path Step := [.name .backupKernel, .name .rootHash]

def tmpRevealPath : Path Step := [.name .sdk, .name .installer, .name .reveal]

def preimageHashSize : Nat := 33

variable (host : Host Entry)

def backupRootHash : Except StorageError (Host Entry) :=
  if (host.storeHas kernelRootHashPath).isSome then
    liftRuntime (host.storeCopy kernelRootHashPath backupKernelRootHash)
  else
    return storeRlp (List.replicate preimageHashSize (0 : UInt8)) host backupKernelRootHash

def backupCurrentKernel : Except StorageError (Host Entry) := do
  let host ← backupRootHash host
  liftRuntime (host.storeCopy kernelBootPath backupKernelBootPath)

/-- The installer's program of an upgrade. The kernel that a root hash stands for is revealed by the
host, if it is available. -/
def upgradeRevealFlow (reveal : Bytes → Option Bytes) (host : Host Entry) (rootHash : Bytes) :
    Except KernelError (Host Entry) :=
  match reveal rootHash with
  | none => .error .internalUpgrade
  | some kernel =>
    match (storeRlp kernel host tmpRevealPath).storeMove tmpRevealPath kernelBootPath with
    | .ok host => .ok host
    | .error _ => .error .internalUpgrade

def upgrade (reveal : Bytes → Option Bytes) (host : Host Entry) (rootHash : Bytes) :
    Except KernelError (Host Entry) := do
  let host ← liftStorage (backupCurrentKernel host)
  let host ← upgradeRevealFlow reveal host rootHash
  let host := storeRlp rootHash host kernelRootHashPath
  let host ← liftStorage (liftRuntime (host.storeDelete kernelUpgradePath))
  -- the kernel is marked for reboot
  return storeRlp [(0 : UInt8)] host rebootPath

def sequencerUpgradePath : Path Step := [.name .evm, .name .sequencerUpgrade]

def sequencerPath : Path Step := [.name .evm, .name .sequencer]

def sequencerPoolPath : Path Step := [.name .evm, .name .sequencerPoolAddress]

def infoPerLevelTimestampPath : Path Step := [.name .evm, .name .infoPerLevel, .name .timestamp]

def readSequencerUpgrade : Except StorageError (Option SequencerUpgrade) :=
  readOptionalRlp host sequencerUpgradePath

def readLastInfoPerLevelTimestamp : Except StorageError Int :=
  readRlp host infoPerLevelTimestampPath

def storeSequencerPoolAddress (address : H160) : Host Entry :=
  storeRlp address host sequencerPoolPath

def sequencerUpgrade (upgrade : SequencerUpgrade) : Except StorageError (Host Entry) :=
  let host := storeRlp upgrade.sequencer host sequencerPath
  let host := storeSequencerPoolAddress host upgrade.poolAddress
  liftRuntime (host.storeDelete sequencerUpgradePath)

def upgradeSequencerIfDue (upgrade : SequencerUpgrade) (iplTimestamp : Int) :
    Except StorageError (Host Entry) :=
  if upgrade.activationTimestamp ≤ iplTimestamp then do
    let host ← sequencerUpgrade host upgrade
    clearAllBlueprint host
  else return host

def activateSequencerUpgrade : Option SequencerUpgrade → Except StorageError (Host Entry)
  | none => return host
  | some upgrade => do
    let iplTimestamp ← readLastInfoPerLevelTimestamp host
    upgradeSequencerIfDue host upgrade iplTimestamp

def possibleSequencerUpgrade : Except StorageError (Host Entry) := do
  let upgrade ← readSequencerUpgrade host
  activateSequencerUpgrade host upgrade

structure BlockFees where
  minimumBaseFeePerGas : U256
  baseFeePerGas : U256
  daFeePerByte : U256
deriving DecidableEq, Repr

structure BlockConstants where
  number : Nat
  coinbase : H160
  timestamp : Int
  gasLimit : UInt64
  blockFees : BlockFees
  chainId : U256
deriving DecidableEq, Repr

def bloomSize : Nat := 256

def BlockInProgress.fromBlueprint (blueprint : Blueprint) (currentBlockNumber : Nat)
    (parentHash : H256) (constants : BlockConstants) (tickCounter : UInt64) : BlockInProgress where
  number := currentBlockNumber
  txQueue := blueprint.transactions
  validTxs := []
  cumulativeGas := 0
  index := 0
  gasPrice := constants.blockFees.baseFeePerGas
  parentHash
  estimatedTicksInRun := tickCounter
  estimatedTicksInBlock := 0
  logsBloom := List.replicate bloomSize 0
  logsOffset := 0
  timestamp := blueprint.timestamp

def baseFeePerGasPath : Path Step :=
  [.name .evm, .name .worldState, .name .fees, .name .baseFeePerGas]

def storeNewBaseFeePerGas (gasPrice : U256) (constants : BlockConstants) :
    BlockConstants × Host Entry :=
  ({ constants with blockFees := { constants.blockFees with baseFeePerGas := gasPrice } },
    storeRlp gasPrice.val host baseFeePerGasPath)

def upgradeActivates (blueprint : Blueprint) (kernelUpgrade : Option KernelUpgrade) :
    Option KernelUpgrade :=
  kernelUpgrade.filter fun upgrade => upgrade.activationTimestamp ≤ blueprint.timestamp

section
variable (decode : Bytes → Option BlueprintWithDelayedHashes) (reveal : Bytes → Option Bytes)
  (baseFeePerGas : Host Entry → Int → U256)

/-- What is made of the blueprint that was read. The price of gas, which depends on the ticks of the
last blocks, is a parameter. -/
def bipFromBlueprint (currentBlockNumber : Nat) (currentBlockParentHash : H256)
    (currentConstants : BlockConstants) (tickCounter : UInt64) (kernelUpgrade : Option KernelUpgrade) :
    Option Blueprint × ConfigurationMode × Host Entry →
    Except KernelError (Option BlockInProgress × BlockConstants × ConfigurationMode × Host Entry)
  | (none, mode, host) => return (none, currentConstants, mode, host)
  | (some blueprint, mode, host) =>
    match upgradeActivates blueprint kernelUpgrade with
    | some kernelUpgrade => do
      let host ← upgrade reveal host kernelUpgrade.preimageHash
      return (none, currentConstants, mode, host)
    | none =>
      let gasPrice := baseFeePerGas host blueprint.timestamp
      let (constants, host) := storeNewBaseFeePerGas host gasPrice currentConstants
      let bip := BlockInProgress.fromBlueprint blueprint currentBlockNumber
        currentBlockParentHash constants tickCounter
      return (some bip, constants, mode, host)

def nextBipFromBlueprints (mode : ConfigurationMode) (host : Host Entry) (currentBlockNumber : Nat)
    (currentBlockParentHash : H256) (currentConstants : BlockConstants) (tickCounter : UInt64)
    (kernelUpgrade : Option KernelUpgrade) :
    Except KernelError (Option BlockInProgress × BlockConstants × ConfigurationMode × Host Entry) := do
  let read ← liftStorage (readNextBlueprint decode mode host)
  bipFromBlueprint reveal baseFeePerGas currentBlockNumber currentBlockParentHash currentConstants
    tickCounter kernelUpgrade read

end

/-!
# Forced inclusion of delayed transactions
-/

def infoPerLevelNumbersPath : Path Step :=
  [.name .evm, .name .infoPerLevel, .name .stats, .name .numbers]

def infoPerLevelTotalPath : Path Step :=
  [.name .evm, .name .infoPerLevel, .name .stats, .name .total]

def readLastInfoPerLevelTimestampStats (host : Host Entry) : Except StorageError (Int × Int) := do
  let numbers ← readRlp host infoPerLevelNumbersPath
  let total ← readRlp host infoPerLevelTotalPath
  return (numbers, total)

/-- The release build wraps the sum to an i64 and panics on the division. -/
def currentTimestamp (host : Host Entry) : Option Int :=
  let timestamp :=
    match readLastInfoPerLevelTimestamp host with
    | .ok timestamp => timestamp
    | .error _ => 0
  let (numbers, total) :=
    match readLastInfoPerLevelTimestampStats host with
    | .ok stats => stats
    | .error _ => (1, 0)
  if numbers = 0 ∨ total = -2 ^ 63 ∧ numbers = -1 then none
  else some ((timestamp + total.tdiv numbers).bmod (2 ^ 64))

/-- The loop of `fetch_delayed_transactions`: each blueprint is stored under the next number. -/
def storeForcedBlueprints (timestamp : Int) (base : Nat) :
    Nat → UInt32 → LinkedList → Host Entry → Except KernelError (LinkedList × Host Entry)
  | 0, _, _, _ => .error .outOfFuel
  | fuel + 1, offset, inbox, host => do
    match ← liftStorage (DelayedInbox.nextDelayedInboxBlueprint inbox host) with
    | (none, inbox, host) => return (inbox, host)
    | (some timedOut, inbox, host) =>
      let host := storeImmediateBlueprint host { transactions := timedOut, timestamp }
        (base + offset.toNat)
      storeForcedBlueprints timestamp base fuel (offset + 1) inbox host

def fetchDelayedTransactions (fuel : Nat) (inbox : LinkedList) (host : Host Entry) :
    Except KernelError (LinkedList × Host Entry) :=
  match currentTimestamp host with
  | none => .error .panic
  | some timestamp => do
    let base ← liftStorage (readNextBlueprintNumber host)
    storeForcedBlueprints timestamp base fuel 0 inbox host

end Octez.Etherlink
