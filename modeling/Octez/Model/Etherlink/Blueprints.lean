import Octez.Model.Etherlink.Transaction

/-!
# Delayed inbox
-/

namespace Octez.Etherlink
open Octez.Lib

def delayedInboxPath : Path Step := [.name .evm, .name .delayedInbox]

def maxDelayedInboxBlueprintLength : Nat := 1000

namespace DelayedInbox

def transactionFromDelayed (txHash : Bytes) : DelayedTransaction → Transaction
  | .ethereum tx => { txHash, content := .ethereumDelayed tx }
  | .deposit deposit => { txHash, content := .deposit deposit }

variable (inbox : LinkedList)

def remove (host : Host Entry) (txHash : Bytes) :
    Except StorageError (Option DelayedInboxItem × LinkedList × Host Entry) :=
  inbox.remove host txHash

def findAndRemoveTransaction (host : Host Entry) (txHash : Bytes) :
    Except StorageError (Option (Transaction × Int) × LinkedList × Host Entry) := do
  let (item, inbox, host) ← remove inbox host txHash
  return (item.map fun item =>
    (transactionFromDelayed txHash item.transaction, item.timestamp), inbox, host)

def removeFirst (host : Host Entry) : Option (Bytes × DelayedInboxItem) →
    Except StorageError (Option Transaction × LinkedList × Host Entry)
  | none => return (none, inbox, host)
  | some (hash, delayed) => do
    let (_, inbox, host) ← remove inbox host hash
    return (some (transactionFromDelayed hash delayed.transaction), inbox, host)

def popFirst (host : Host Entry) :
    Except StorageError (Option Transaction × LinkedList × Host Entry) := do
  let toPop ← inbox.firstWithId DelayedInboxItem host
  removeFirst inbox host toPop

/-- The loop of `next_delayed_inbox_blueprint`, for at most `limit` transactions. -/
def popUpTo (inbox : LinkedList) (host : Host Entry) :
    Nat → Except StorageError (List Transaction × LinkedList × Host Entry)
  | 0 => return ([], inbox, host)
  | limit + 1 => do
    match ← popFirst inbox host with
    | (none, inbox, host) => return ([], inbox, host)
    | (some tx, inbox, host) =>
      let (popped, inbox, host) ← popUpTo inbox host limit
      return (tx :: popped, inbox, host)

def nextDelayedInboxBlueprint (host : Host Entry) :
    Except StorageError (Option (List Transaction) × LinkedList × Host Entry) := do
  let (popped, inbox, host) ← popUpTo inbox host maxDelayedInboxBlueprintLength
  return (if popped.isEmpty then none else some popped, inbox, host)

end DelayedInbox

/-! # Blueprint storage -/

def evmBlueprints : Path Step := [.name .evm, .name .blueprints]

def evmNodeFlag : Path Step := [.name .evmNode]

def evmCurrentBlock : Path Step := [.name .evm, .name .worldState, .name .blocks, .name .current]

def currentBlockNumberPath : Path Step := evmCurrentBlock ++ [.name .number]

def currentBlockHashPath : Path Step := evmCurrentBlock ++ [.name .hash]

def blueprintPath (number : Nat) : Path Step := evmBlueprints ++ [.decimal number]

def blueprintChunkPath (path : Path Step) (index : Nat) : Path Step := path ++ [.decimal index]

def blueprintNbChunksPath (path : Path Step) : Path Step := path ++ [.name .nbChunks]

variable (host : Host Entry)

/-- Only the first eight bytes of the stored number are read. -/
def readCurrentBlockNumber : Except StorageError Nat := do
  let number ← readRlp host currentBlockNumberPath
  return number % 2 ^ 64

def readCurrentBlockHash : Except StorageError H256 :=
  readRlp host currentBlockHashPath

def readNextBlueprintNumber : Except StorageError Nat :=
  match readCurrentBlockNumber host with
  | .error (.runtime .storeNotAValue) => .ok 0
  | .error error => .error error
  | .ok number => .ok (number + 1)

def storeSequencerBlueprint (blueprint : UnsignedSequencerBlueprint) : Host Entry :=
  let path := blueprintPath blueprint.number
  let host := storeRlp blueprint.nbChunks host (blueprintNbChunksPath path)
  storeRlp (StoreBlueprint.sequencerChunk blueprint.chunk) host
    (blueprintChunkPath path blueprint.chunkIndex.toNat)

def storeImmediateBlueprint (blueprint : Blueprint) (number : Nat) : Host Entry :=
  let path := blueprintPath number
  let host := storeRlp (1 : UInt16) host (blueprintNbChunksPath path)
  storeRlp (StoreBlueprint.inboxBlueprint blueprint) host (blueprintChunkPath path 0)

inductive BlueprintValidity where
  | valid (blueprint : Blueprint)
  | invalidParentHash
  | decoderError
  | delayedHashMissing (hash : Bytes)
  | unexpectedDeposit
deriving DecidableEq, Repr

def genesisParentHash : H256 := List.replicate 32 255

def validParentHash (blueprint : BlueprintWithDelayedHashes) : Bool :=
  let currentBlockHash :=
    match readCurrentBlockHash host with
    | .ok hash => hash
    | .error _ => genesisParentHash
  currentBlockHash = blueprint.parentHash

/-- The loop of `fetch_delayed_txs`, with the hash at which it stops if one is missing. -/
def takeDelayed (inbox : LinkedList) (host : Host Entry) : List Bytes →
    Except StorageError (List Transaction × Option Bytes × LinkedList × Host Entry)
  | [] => return ([], none, inbox, host)
  | hash :: hashes => do
    match ← DelayedInbox.findAndRemoveTransaction inbox host hash with
    | (none, inbox, host) => return ([], some hash, inbox, host)
    | (some tx, inbox, host) =>
      let (taken, missing, inbox, host) ← takeDelayed inbox host hashes
      return (tx.1 :: taken, missing, inbox, host)

/-- The checks of `fetch_delayed_txs` after its loop. -/
def checkDelayed (evmNode : Bool) (blueprint : Blueprint) (taken : List Transaction) :
    Option Bytes → BlueprintValidity
  | some hash => .delayedHashMissing hash
  | none =>
    if ¬evmNode ∧ blueprint.transactions.any Transaction.isDelayed then .unexpectedDeposit
    else .valid { transactions := taken ++ blueprint.transactions, timestamp := blueprint.timestamp }

def fetchDelayedTxs (inbox : LinkedList) (host : Host Entry)
    (blueprint : BlueprintWithDelayedHashes) :
    Except StorageError (BlueprintValidity × LinkedList × Host Entry) := do
  let (taken, missing, inbox, host) ← takeDelayed inbox host blueprint.delayedHashes
  let evmNode := (host.storeHas evmNodeFlag).isSome
  return (checkDelayed evmNode blueprint.blueprint taken missing, inbox, host)

variable (decode : Bytes → Option BlueprintWithDelayedHashes)

def parseAndValidateBlueprint (inbox : LinkedList) (host : Host Entry) (bytes : Bytes) :
    Except StorageError (BlueprintValidity × LinkedList × Host Entry) :=
  match decode bytes with
  | none => return (.decoderError, inbox, host)
  | some blueprint =>
    if validParentHash host blueprint then fetchDelayedTxs inbox host blueprint
    else return (.invalidParentHash, inbox, host)

inductive ConfigurationMode where
  | proxy
  | sequencer (delayedInbox : LinkedList)
deriving DecidableEq, Repr

/-- The chunks of a blueprint, or the first of them that is a whole blueprint. -/
inductive Chunks where
  | inbox (blueprint : Blueprint)
  | sequencer (chunks : List Bytes)
deriving DecidableEq, Repr

def Chunks.push (chunk : Bytes) : Chunks → Chunks
  | .inbox blueprint => .inbox blueprint
  | .sequencer chunks => .sequencer (chunk :: chunks)

def readAllChunks (host : Host Entry) (path : Path Step) (index : Nat) :
    Nat → Except StorageError Chunks
  | 0 => return .sequencer []
  | remaining + 1 => do
    let stored ← readRlp host (blueprintChunkPath path index)
    match stored with
    | StoreBlueprint.inboxBlueprint blueprint => return .inbox blueprint
    | StoreBlueprint.sequencerChunk chunk =>
      let chunks ← readAllChunks host path (index + 1) remaining
      return chunks.push chunk

def keepIfValid (path : Path Step) : BlueprintValidity × LinkedList × Host Entry →
    Except StorageError (Option Blueprint × ConfigurationMode × Host Entry)
  | (.valid blueprint, inbox, host) => return (some blueprint, .sequencer inbox, host)
  | (_, inbox, host) => do
    let host ← liftRuntime (host.storeDelete path)
    return (none, .sequencer inbox, host)

def validateChunks (host : Host Entry) (path : Path Step) : ConfigurationMode → Chunks →
    Except StorageError (Option Blueprint × ConfigurationMode × Host Entry)
  | mode, .inbox blueprint => return (some blueprint, mode, host)
  | .proxy, .sequencer _ => return (none, .proxy, host)
  | .sequencer inbox, .sequencer chunks => do
    let validated ← parseAndValidateBlueprint decode inbox host chunks.flatten
    keepIfValid path validated

def readAllChunksAndValidate
    (mode : ConfigurationMode) (host : Host Entry) (path : Path Step) (nbChunks : UInt16) :
    Except StorageError (Option Blueprint × ConfigurationMode × Host Entry) := do
  let chunks ← readAllChunks host path 0 nbChunks.toNat
  validateChunks decode host path mode chunks

/-- Too many chunks are there once a blueprint was submitted again in fewer chunks. -/
def dropIfInconsistent (path : Path Step) (available nbChunks : UInt16) :
    Except StorageError (Host Entry) :=
  if nbChunks < available then liftRuntime (host.storeDelete path) else return host

def readStoredBlueprint (mode : ConfigurationMode) (host : Host Entry) (path : Path Step) :
    Except StorageError (Option Blueprint × ConfigurationMode × Host Entry) := do
  let nbChunks ← readRlp host (blueprintNbChunksPath path)
  let available := UInt16.ofNat (host.storeCountSubkeys path) - 1
  if available = nbChunks then
    readAllChunksAndValidate decode mode host path nbChunks
  else do
    let host ← dropIfInconsistent host path available nbChunks
    return (none, mode, host)

def readNextBlueprint (mode : ConfigurationMode) (host : Host Entry) :
    Except StorageError (Option Blueprint × ConfigurationMode × Host Entry) := do
  let number ← readNextBlueprintNumber host
  if (host.storeHas (blueprintPath number)).isSome then
    readStoredBlueprint decode mode host (blueprintPath number)
  else
    return (none, mode, host)

def dropBlueprint (number : Nat) : Except StorageError (Host Entry) :=
  liftRuntime (host.storeDelete (blueprintPath number))

def clearAllBlueprint : Except StorageError (Host Entry) :=
  if (host.storeHas evmBlueprints).isSome then liftRuntime (host.storeDelete evmBlueprints)
  else return host

end Octez.Etherlink
