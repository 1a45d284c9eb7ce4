import Octez.Lib.Storage

/-! # Classified operations (`src/lib_shell/prevalidator_classification.ml`) -/

namespace Octez.Prevalidator
open Octez.Lib

structure MempoolTypes where
  Ring : Type
  Hash : Type
  Contents : Type
  Trace : Type
  BlockHash : Type
  Raw : Type

/-- The functions of `Ringo.Ring` that are used. `create` raises `Invalid_argument` on a capacity that is
not positive. -/
class RingBuffer (T : MempoolTypes) where
  create : Nat → Option T.Ring
  addAndReturnErased : T.Ring → T.Hash → T.Ring × Option T.Hash
  clear : T.Ring → T.Ring

structure Operation (T : MempoolTypes) where
  hash : T.Hash
  contents : T.Contents

inductive ErrorClass where
  | branchDelayed
  | branchRefused
  | refused
  | outdated
deriving DecidableEq

inductive Classification (Trace : Type) where
  | validated
  | error (kind : ErrorClass) (tztrace : Trace)

structure BoundedMap (T : MempoolTypes) where
  ring : T.Ring
  map : Table T.Hash (Operation T × T.Trace)

structure Classes (T : MempoolTypes) where
  errors : ErrorClass → BoundedMap T
  validated : Table T.Hash (Operation T)
  unparsable : List T.Hash
  inMempool : Table T.Hash (Operation T × Classification T.Trace)
  discarded : List T.Hash

variable {T : MempoolTypes} [RingBuffer T]

def create (mapSizeLimit : Nat) : Option (Classes T) := do
  let ring ← RingBuffer.create mapSizeLimit
  return {
    errors := fun _ => { ring, map := ∅ }
    validated := ∅
    unparsable := []
    inMempool := ∅
    discarded := [] }

variable [DecidableEq T.Hash] (classes : Classes T)

def setMap (kind : ErrorClass) (map : Table T.Hash (Operation T × T.Trace)) :
    Classes T :=
  { classes with errors := Function.update classes.errors kind { classes.errors kind with map } }

/-- The part of `flush` that empties one of the error classes. -/
def flushClass (kind : ErrorClass) : Classes T :=
  { classes with
    inMempool := classes.inMempool.removeAll (classes.errors kind).map.keys
    errors := Function.update classes.errors kind
      { ring := RingBuffer.clear (classes.errors kind).ring, map := ∅ } }

def flush (handleBranchRefused : Bool) : Classes T :=
  let classes := if handleBranchRefused then flushClass classes .branchRefused else classes
  let classes := flushClass classes .branchDelayed
  { classes with
    inMempool := classes.inMempool.removeAll classes.validated.keys
    unparsable := []
    validated := ∅ }

def remove (oph : T.Hash) :
    Classes T × Option (Operation T × Classification T.Trace) :=
  match classes.inMempool.find oph with
  | none => (classes, none)
  | some (op, classification) =>
    let classes := { classes with inMempool := classes.inMempool.remove oph }
    match classification with
    | .error kind _ =>
      (setMap classes kind ((classes.errors kind).map.remove oph), some (op, classification))
    | .validated =>
      ({ classes with validated := classes.validated.remove oph }, some (op, classification))

def handleValidated (oph : T.Hash) (op : Operation T) : Classes T :=
  { classes with
    validated := classes.validated.add oph op
    inMempool := classes.inMempool.add oph (op, .validated) }

/-- The hash that the ring of a class gives up for a new one. -/
def erased (kind : ErrorClass) (oph : T.Hash) : Option T.Hash :=
  (RingBuffer.addAndReturnErased (classes.errors kind).ring oph).2

def handleError (oph : T.Hash) (op : Operation T) (kind : ErrorClass) (tztrace : T.Trace) :
    Classes T :=
  let boundedMap := classes.errors kind
  let gone := (erased classes kind oph).toList
  { classes with
    errors := Function.update classes.errors kind {
      ring := (RingBuffer.addAndReturnErased boundedMap.ring oph).1
      map := (boundedMap.map.removeAll gone).add oph (op, tztrace) }
    discarded := classes.discarded ++ gone ++
      match kind with
      | .refused | .outdated => [oph]
      | .branchDelayed | .branchRefused => []
    inMempool := (classes.inMempool.removeAll gone).add oph (op, .error kind tztrace) }

def add (classification : Classification T.Trace) (op : Operation T) :
    Classes T :=
  match classification with
  | .validated => handleValidated classes op.hash op
  | .error kind tztrace => handleError classes op.hash op kind tztrace

inductive Event (T : MempoolTypes) where
  | add (classification : Classification T.Trace) (op : Operation T)
  | remove (oph : T.Hash)
  | flush (handleBranchRefused : Bool)

def step : Event T → Classes T
  | .add classification op => add classes classification op
  | .remove oph => (remove classes oph).1
  | .flush handleBranchRefused => flush classes handleBranchRefused

def addUnparsable (oph : T.Hash) : Classes T :=
  { classes with
    unparsable := classes.unparsable.insert oph
    discarded := classes.discarded ++ [oph] }

/-- The operator `+>`: what is added replaces what is there. -/
def addClass (accum : Table T.Hash (Operation T))
    (toAdd : Table T.Hash (Operation T × T.Trace)) : Table T.Hash (Operation T) :=
  toAdd.foldl (fun accum oph entry => accum.add oph entry.1) accum

def toMap (validated branchDelayed branchRefused refused outdated : Bool) : Table T.Hash (Operation T) :=
  let errors (included : Bool) (kind : ErrorClass) :=
    if included then (classes.errors kind).map else ∅
  let classified := addClass ∅ (errors branchDelayed .branchDelayed)
  let classified := addClass classified (errors branchRefused .branchRefused)
  let classified := addClass classified (errors refused .refused)
  (if validated then classes.validated else ∅) ∪ addClass classified (errors outdated .outdated)

/-- A block with the blocks before it. The predecessor of a root cannot be read. -/
inductive Block (T : MempoolTypes) where
  | root (hash : T.BlockHash) (operations : List (List T.Raw))
  | child (predecessor : Block T) (hash : T.BlockHash) (operations : List (List T.Raw))

namespace Block

def bhash : Block T → T.BlockHash
  | root hash _ | child _ hash _ => hash

def operations : Block T → List (List T.Raw)
  | root _ operations | child _ _ operations => operations

end Block

/-- What hashes and parses operations, and the functions of the chain. -/
structure Tools (T : MempoolTypes) where
  hash : T.Raw → T.Hash
  parse : T.Hash → T.Raw → Option (Operation T)
  branch : Operation T → T.BlockHash
  newBlocks : Block T → Block T →
    Block T × List (Block T)

/-- The operations collected so far, and the calls of `inject_operation` and `clear_or_cancel`. -/
structure Recycling (T : MempoolTypes) where
  classes : Classes T
  mempool : Table T.Hash (Operation T)
  injected : List T.Hash
  cleared : List T.Hash

section
variable [DecidableEq T.BlockHash] (tools : Tools T)

def popOperation (state : Recycling T) (op : T.Raw) : Recycling T :=
  let oph := tools.hash op
  let state := { state with injected := state.injected ++ [oph] }
  match tools.parse oph op with
  | none => { state with classes := addUnparsable state.classes oph }
  | some parsedOp => { state with mempool := state.mempool.add oph parsedOp }

def popBlock (ancestor : T.BlockHash) :
    Block T → Recycling T → Recycling T
  | .root hash operations, state =>
    if hash = ancestor then state else operations.flatten.foldl (popOperation tools) state
  | .child predecessor hash operations, state =>
    if hash = ancestor then state
    else popBlock ancestor predecessor (operations.flatten.foldl (popOperation tools) state)

def allOperationHashes (block : Block T) : List (List T.Hash) :=
  block.operations.map fun pass => pass.map tools.hash

def pushBlock (state : Recycling T) (block : Block T) :
    Recycling T :=
  let operations := (allOperationHashes tools block).flatten
  { state with
    cleared := state.cleared ++ operations
    mempool := state.mempool.removeAll operations }

/-- The end of `handle_live_operations`. -/
def clearOutdated (isBranchAlive : T.BlockHash → Bool) (state : Recycling T) :
    Recycling T :=
  let outdated := state.mempool.keys.filter fun oph =>
    (state.mempool.find oph).any fun op => !isBranchAlive (tools.branch op)
  { state with
    mempool := state.mempool.removeAll outdated
    cleared := state.cleared ++ outdated }

def handleLiveOperations (fromBranch toBranch : Block T)
    (isBranchAlive : T.BlockHash → Bool) (oldMempool : Table T.Hash (Operation T)) :
    Recycling T :=
  let (ancestor, path) := tools.newBlocks fromBranch toBranch
  let state := popBlock tools ancestor.bhash fromBranch
    { classes, mempool := oldMempool, injected := [], cleared := [] }
  clearOutdated tools isBranchAlive (path.foldl (pushBlock tools) state)

def recycleOperations (fromBranch toBranch : Block T) (liveBlocks : List T.BlockHash)
    (pending : Table T.Hash (Operation T)) (handleBranchRefused : Bool) :
    Recycling T :=
  let state := handleLiveOperations classes tools fromBranch toBranch (· ∈ liveBlocks)
    (toMap classes true true handleBranchRefused false false ∪ pending)
  { state with classes := flush state.classes handleBranchRefused }

end

end Octez.Prevalidator
