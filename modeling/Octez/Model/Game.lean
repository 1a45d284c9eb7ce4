import Octez.Model.RefutationProof

/-! # Refutation games (`src/proto_alpha/lib_protocol/sc_rollup_game_repr.ml`) -/

namespace Octez.Game
open Octez.Lib Octez.Inbox Octez.RefutationProof

structure DissectionChunk (Hash : Type) where
  stateHash : Option Hash
  tick : Nat
deriving DecidableEq, Repr

inductive Error (Hash External : Type) where
  | dissectionNumberOfSectionsMismatch (expected given : Nat)
  | dissectionInvalidNumberOfSections (numberOfSections : Nat)
  | dissectionStartHashMismatch (expected given : Option Hash)
  | dissectionStopHashMismatch (stateHash : Option Hash)
  | dissectionEdgeTicksMismatch
      (dissectionStartTick dissectionStopTick chunkStartTick chunkStopTick : Nat)
  | dissectionTicksNotIncreasing
  | dissectionInvalidDistribution (sectionMaximumSize : Nat)
  | dissectionInvalidSuccessiveStatesShape
  | dissectionChoiceNotFound (tick : Nat)
  | dissectingDuringFinalMove
  | proofUnexpectedSectionSize (dist : Nat)
  | proofStartStateHashMismatch (startStateHash : Option Hash) (startProof : Hash)
  | proofStopStateHashFailedToRefute (stopStateHash stopProof : Option Hash)
  | proofStopStateHashFailedToValidate (stopStateHash stopProof : Option Hash)
  | proof (err : RefutationProof.Error External)
  | wasmInvalidDissectionDistribution
deriving DecidableEq, Repr

namespace Tick

def initial : Nat := 0

def next (tick : Nat) : Nat := tick + 1

def jump (tick z : Nat) : Nat := max initial (tick + z)

def distance (tick1 tick2 : Nat) : Nat := ((tick1 : Int) - tick2).natAbs

end Tick

section Chunks
variable {Hash External : Type} [DecidableEq Hash]

def defaultCheckSectionsNumber (defaultNumberOfSections numberOfSections dist : Nat) :
    TzResult (Error Hash External) Unit :=
  if defaultNumberOfSections ≤ dist then
    errorUnless (numberOfSections = defaultNumberOfSections)
      (.dissectionNumberOfSectionsMismatch defaultNumberOfSections numberOfSections)
  else if 1 < dist then
    errorUnless (numberOfSections = dist) (.dissectionNumberOfSectionsMismatch dist numberOfSections)
  else tzfail (.dissectionInvalidNumberOfSections numberOfSections)

def traverse (sectionMaximumSize : Nat) : List (DissectionChunk Hash) → TzResult (Error Hash External) Unit
  | chunk :: next :: others =>
    if chunk.stateHash.isNone && next.stateHash.isSome then
      tzfail .dissectionInvalidSuccessiveStatesShape
    else if chunk.tick < next.tick then
      if Tick.distance chunk.tick next.tick ≤ sectionMaximumSize then
        traverse sectionMaximumSize (next :: others)
      else tzfail (.dissectionInvalidDistribution sectionMaximumSize)
    else tzfail .dissectionTicksNotIncreasing
  | _ => .ok ()

def checkEdges (startChunk stopChunk : DissectionChunk Hash)
    (dissection : List (DissectionChunk Hash)) : TzResult (Error Hash External) Unit :=
  match dissection.head?, dissection.getLast? with
  | some a, some b => do
    errorUnless (a.stateHash = startChunk.stateHash && !a.stateHash.isNone)
      (.dissectionStartHashMismatch startChunk.stateHash a.stateHash)
    errorUnless (!decide (b.stateHash = stopChunk.stateHash))
      (.dissectionStopHashMismatch stopChunk.stateHash)
    errorUnless (a.tick = startChunk.tick && b.tick = stopChunk.tick)
      (.dissectionEdgeTicksMismatch a.tick b.tick startChunk.tick stopChunk.tick)
  | _, _ => tzfail (.dissectionInvalidNumberOfSections (dissection.length - 1))

def defaultCheck (sectionMaximumSize : Nat)
    (checkSectionsNumber : Nat → Nat → Nat → TzResult (Error Hash External) Unit)
    (defaultNumberOfSections : Nat) (startChunk stopChunk : DissectionChunk Hash)
    (dissection : List (DissectionChunk Hash)) : TzResult (Error Hash External) Unit := do
  let numberOfSections := dissection.length - 1
  let dist := Tick.distance startChunk.tick stopChunk.tick
  checkSectionsNumber defaultNumberOfSections numberOfSections dist
  checkEdges startChunk stopChunk dissection
  traverse sectionMaximumSize dissection

def arithCheckDissection (defaultNumberOfSections : Nat)
    (startChunk stopChunk : DissectionChunk Hash) (dissection : List (DissectionChunk Hash)) :
    TzResult (Error Hash External) Unit :=
  let dist := Tick.distance startChunk.tick stopChunk.tick
  let sectionMaximumSize := dist / 2
  defaultCheck sectionMaximumSize defaultCheckSectionsNumber defaultNumberOfSections startChunk
    stopChunk dissection

end Chunks

inductive Player where
  | alice
  | bob
deriving DecidableEq, Repr

def opponent : Player → Player
  | .alice => .bob
  | .bob => .alice

structure Index (Staker : Type) where
  alice : Staker
  bob : Staker
deriving DecidableEq, Repr

namespace Index
variable {Staker : Type}

def make [LinearOrder Staker] (a b : Staker) : Index Staker :=
  if b < a then ⟨b, a⟩ else ⟨a, b⟩

def staker (index : Index Staker) : Player → Staker
  | .alice => index.alice
  | .bob => index.bob

end Index

inductive GameState (Hash : Type) where
  | dissecting (dissection : List (DissectionChunk Hash)) (defaultNumberOfSections : Nat)
  | finalMove (agreedStartChunk refutedStopChunk : DissectionChunk Hash)
deriving DecidableEq, Repr

/-- `External` is what the functions of other modules fail with. -/
structure GameTypes where
  Hash : Type
  State : Type
  PvmProof : Type
  DalHistory : Type
  DalProof : Type
  External : Type

namespace GameTypes
variable (G : GameTypes)

abbrev DissectionChunk := Game.DissectionChunk G.Hash

abbrev Result (α : Type) := TzResult (Error G.Hash G.External) α

end GameTypes

structure V1 (G : GameTypes) where
  turn : Player
  inboxSnapshot : octetTypes.HistoryProof
  dalSnapshot : G.DalHistory
  startLevel : Nat
  inboxLevel : Nat
  gameState : GameState G.Hash

@[ext] structure Commitment (Hash CommitmentHash : Type) where
  compressedState : Hash
  inboxLevel : Nat
  predecessor : CommitmentHash
  numberOfTicks : Nat
deriving DecidableEq, Repr

def initial {G : GameTypes} {CommitmentHash Staker : Type} [LinearOrder Staker]
    (inbox : octetTypes.HistoryProof) (dalSnapshot : G.DalHistory) (startLevel : Nat)
    (parentCommitment defenderCommitment : Commitment G.Hash CommitmentHash)
    (refuter defender : Staker) (defaultNumberOfSections : Nat) : V1 G :=
  let aliceToPlay := (Index.make refuter defender).alice = refuter
  let tick := defenderCommitment.numberOfTicks
  { turn := if aliceToPlay then .alice else .bob
    inboxSnapshot := inbox
    dalSnapshot
    startLevel
    inboxLevel := defenderCommitment.inboxLevel
    gameState := .dissecting
      [⟨some parentCommitment.compressedState, Tick.initial⟩,
        ⟨some defenderCommitment.compressedState, tick⟩, ⟨none, Tick.next tick⟩]
      defaultNumberOfSections }

inductive Step (G : GameTypes) where
  | dissection (states : List G.DissectionChunk)
  | proof (proof : Proof Octets G.DalProof)

structure Move (G : GameTypes) where
  choice : Nat
  step : Step G

inductive Reason where
  | conflictResolved
  | timeout
deriving DecidableEq, Repr

inductive GameResult (Staker : Type) where
  | loser (reason : Reason) (loser : Staker)
  | draw
deriving DecidableEq, Repr

/-- The PVM of the rollup's kind, with the constants and the functions of other modules that a
move is checked with. -/
structure Rollup (G : GameTypes) where
  environment : Environment G.DalHistory G.DalProof G.External
  pvm : Pvm G.State G.PvmProof G.External
  proofStartState : G.PvmProof → G.Hash
  proofStopState : G.PvmProof → G.Hash
  checkDissection : Nat → G.DissectionChunk → G.DissectionChunk →
    List G.DissectionChunk → G.Result Unit
  parameters : Parameters

section Play
variable {G : GameTypes} {Staker : Type} [DecidableEq G.Hash]

def findChoice (tick : Nat) : List G.DissectionChunk → G.Result (G.DissectionChunk × G.DissectionChunk)
  | curr :: next :: others =>
    if tick = curr.tick then .ok (curr, next) else findChoice tick (next :: others)
  | _ => tzfail (.dissectionChoiceNotFound tick)

def checkProofDistanceIsOne (startTick stopTick : Nat) : G.Result Unit :=
  let dist := Tick.distance startTick stopTick
  errorUnless (dist = 1) (.proofUnexpectedSectionSize dist)

variable (rollup : Rollup G)

def checkProofStartState (startState : Option G.Hash) (proof : G.PvmProof) :
    G.Result Unit :=
  let startProof := rollup.proofStartState proof
  errorUnless (startState = some startProof) (.proofStartStateHashMismatch startState startProof)

-- The state that the proof stops on, when the input is the one that was requested.
def stopProof (inputGiven : Option Input) (inputRequest : InputRequest) (proof : G.PvmProof) :
    Option G.Hash :=
  match inputGiven, inputRequest with
  | none, .noInputRequired
  | some _, .initial
  | some _, .firstAfter _ _
  | some _, .needsReveal _ => some (rollup.proofStopState proof)
  | some _, .noInputRequired
  | none, .initial
  | none, .firstAfter _ _
  | none, .needsReveal _ => none

def checkProofStopState (stopState : Option G.Hash) (inputGiven : Option Input)
    (inputRequest : InputRequest) (proof : G.PvmProof) (validate : Bool) :
    G.Result Unit :=
  let stopProof := stopProof rollup inputGiven inputRequest proof
  let b := decide (stopState = stopProof)
  errorUnless (if validate then b else !b)
    (if validate then .proofStopStateHashFailedToValidate stopState stopProof
      else .proofStopStateHashFailedToRefute stopState stopProof)

/-- `Sc_rollup_proof_repr.valid` with the arguments that a move gives it. -/
def proofValid (game : V1 G) (proof : Proof G.PvmProof G.DalProof) :
    TzResult (RefutationProof.Error G.External) (Option Input × InputRequest) :=
  valid rollup.environment rollup.pvm
    { rollup.parameters with commitInboxLevel := game.inboxLevel } game.inboxSnapshot game.dalSnapshot proof

def validityFinalMove (firstMove : Bool) (proof : Proof G.PvmProof G.DalProof)
    (game : V1 G) (startChunk stopChunk : G.DissectionChunk) : Run Bool := do
  let valid ← attempt (proofValid rollup game proof)
  let res ← attempt (do
    if firstMove then checkProofDistanceIsOne startChunk.tick stopChunk.tick
    checkProofStartState rollup startChunk.stateHash proof.pvmStep
    match valid with
    | some (input, inputRequest) => do
      checkProofStopState rollup stopChunk.stateHash input inputRequest proof.pvmStep (!firstMove)
      return true
    | none => return false)
  return res.getD false

def mkLoser (stakers : Index Staker) (loser : Player) : GameResult Staker ⊕ V1 G :=
  .inl (.loser .conflictResolved (stakers.staker loser))

def play (stakers : Index Staker) (game : V1 G) (step : Step G)
    (choice : Nat) : G.Result (GameResult Staker ⊕ V1 G) :=
  match step, game.gameState with
  | .dissection states, .dissecting dissection defaultNumberOfSections => do
    let (startChunk, stopChunk) ← findChoice choice dissection
    rollup.checkDissection defaultNumberOfSections startChunk stopChunk states
    return .inr { game with turn := opponent game.turn
                            gameState := .dissecting states defaultNumberOfSections }
  | .dissection _, .finalMove _ _ => tzfail .dissectingDuringFinalMove
  | .proof proof, .dissecting dissection _ => do
    let (startChunk, stopChunk) ← findChoice choice dissection
    let pvmStep ← liftError .proof (unserializePvmStep rollup.pvm proof.pvmStep)
    let playerResult ← liftRun
      (validityFinalMove rollup true { proof with pvmStep } game startChunk stopChunk)
    if playerResult then return mkLoser stakers (opponent game.turn)
    else
      return .inr { game with turn := opponent game.turn
                              gameState := .finalMove startChunk stopChunk }
  | .proof proof, .finalMove agreedStartChunk refutedStopChunk => do
    let pvmStep ← liftError .proof (unserializePvmStep rollup.pvm proof.pvmStep)
    let playerResult ← liftRun
      (validityFinalMove rollup false { proof with pvmStep } game agreedStartChunk refutedStopChunk)
    if playerResult then return mkLoser stakers (opponent game.turn) else return .inl .draw

end Play

end Octez.Game
