import Octez.Lib.PartialStep
import Octez.Model.Game

/-! # The moves of the rollup node (`src/lib_smart_rollup_node/refutation_game.ml`) -/

namespace Octez.RefutationGame
open Octez.Lib Octez.Game Octez.RefutationProof

inductive Error (External : Type) where
  | unreliableTezosNodeReturningInconsistentGame
  | proof (err : RefutationProof.Error External)
deriving DecidableEq, Repr

/-- The execution that the node has stored, as a one-tick step that is not defined where the inbox
of the game holds no further input, and what the node gives to the production of a proof. -/
structure Node (G : GameTypes) where
  genesis : G.State
  step : G.State → Option G.State
  stateHash : G.State → G.Hash
  withState : G.State → WithState G.State G.DalHistory

variable {G : GameTypes}
variable (node : Node G)

/-- `Interpreter.state_of_tick`: ticks are counted from the origination of the rollup. -/
def stateOfTick (tick : Nat) : Option G.State :=
  after node.step node.genesis tick

-- `number_of_sections - k` sections are left to make.
def makeTicks (sectionLength : Nat) : Nat → List Nat → Nat → List Nat
  | 0, revDissection, _ => revDissection.reverse
  | left + 1, revDissection, tick =>
    makeTicks sectionLength left (tick :: revDissection) (Tick.jump tick sectionLength)

-- The length of the first section and that of the next ones.
def sectionLengths (maxNumberOfSections traceLength numberOfSections rem : Nat) : Nat × Nat :=
  if traceLength ≤ maxNumberOfSections then (1, 1)
  else
    let sectionLength := max 1 (traceLength / numberOfSections)
    if sectionLength = 1 ∧ rem ≠ 0 then (rem, sectionLength)
    else (sectionLength, sectionLength)

def defaultNewDissection {Hash : Type} (defaultNumberOfSections : Nat)
    (startChunk ourStopChunk : DissectionChunk Hash) : Run (List Nat) :=
  let maxNumberOfSections := defaultNumberOfSections
  let traceLength := Tick.distance ourStopChunk.tick startChunk.tick
  let numberOfSections := min maxNumberOfSections traceLength
  if numberOfSections = 0 then .error .divisionByZero
  else
    let rem := traceLength % numberOfSections
    let (firstSectionLength, sectionLength) :=
      sectionLengths maxNumberOfSections traceLength numberOfSections rem
    .ok (makeTicks sectionLength (numberOfSections - 1) [] (Tick.jump startChunk.tick firstSectionLength))

def makeDissectionAux (node : Node G) (ourStopChunk : G.DissectionChunk) :
    List Nat → List G.DissectionChunk → List G.DissectionChunk
  | tick :: rst, acc =>
    let stateHash := (stateOfTick node tick).map node.stateHash
    makeDissectionAux node ourStopChunk rst (⟨stateHash, tick⟩ :: acc)
  | [], acc => (ourStopChunk :: acc).reverse

def makeDissection (startChunk ourStopChunk : G.DissectionChunk) (ticks : List Nat) :
    List G.DissectionChunk :=
  makeDissectionAux node ourStopChunk ticks [startChunk]

inductive PvmIntermediateState (G : GameTypes) where
  | hash (stateHash : G.Hash)
  | evaluated (state : G.State)

def intermediateHash :
    PvmIntermediateState G → G.Hash
  | .hash stateHash => stateHash
  | .evaluated state => node.stateHash state

def newDissection (defaultNumberOfSections : Nat)
    (ok : PvmIntermediateState G × Nat) (ourView : Option G.State × Nat) :
    TzResult (Error G.External) (List G.DissectionChunk) := do
  let startChunk : G.DissectionChunk := ⟨some (intermediateHash node ok.1), ok.2⟩
  let ourStopChunk : G.DissectionChunk := ⟨ourView.1.map node.stateHash, ourView.2⟩
  let ticks ← liftRun (defaultNewDissection defaultNumberOfSections startChunk ourStopChunk)
  return makeDissection node startChunk ourStopChunk ticks

variable [DecidableEq G.Hash]

def traverse (node : Node G) :
    PvmIntermediateState G × Nat → List G.DissectionChunk → TzResult (Error G.External)
        ((PvmIntermediateState G × Nat) × (Option G.State × Nat))
  | _, [] => tzfail .unreliableTezosNodeReturningInconsistentGame
  | ok, chunk :: dissection =>
    let our := stateOfTick node chunk.tick
    match chunk.stateHash, our with
    | none, none => .error (.raised .assertFalse)
    | some _, none | none, some _ => .ok (ok, (our, chunk.tick))
    | some theirHash, some ourState =>
      if node.stateHash ourState = theirHash then
        traverse node (.evaluated ourState, chunk.tick) dissection
      else .ok (ok, (our, chunk.tick))

def generateNextDissection (defaultNumberOfSections : Nat) :
    List G.DissectionChunk → TzResult (Error G.External) (Nat × Nat × List G.DissectionChunk)
  | ⟨some hash, tick⟩ :: dissection => do
    let (ok, ko) ← traverse node (.hash hash, tick) dissection
    let dissection ← newDissection node defaultNumberOfSections ok ko
    let choice := ok.2
    let chosenSectionLen := ((choice : Int) - ko.2).natAbs
    return (choice, chosenSectionLen, dissection)
  | [] | ⟨none, _⟩ :: _ => tzfail .unreliableTezosNodeReturningInconsistentGame

section Moves
variable (rollup : Rollup G) (node : Node G)

def generateProof (game : V1 G) (startState : G.State) :
    TzResult (Error G.External) (Proof Octets G.DalProof) := do
  let proof ← liftError .proof (produce rollup.environment rollup.pvm
    { rollup.parameters with commitInboxLevel := game.inboxLevel } (node.withState startState))
  let pvmStep ← liftError .proof (unserializePvmStep rollup.pvm proof.pvmStep)
  let res ← liftRun (attempt (proofValid rollup game { proof with pvmStep }))
  if res.isSome then return proof else .error (.raised .assertFalse)

def finalMove (game : V1 G) (startTick : Nat) : TzResult (Error G.External) (Move G) :=
  match stateOfTick node startTick with
  | none => tzfail .unreliableTezosNodeReturningInconsistentGame
  | some startState => do
    let proof ← generateProof rollup node game startState
    return { choice := startTick, step := .proof proof }

def nextMove (game : V1 G) : TzResult (Error G.External) (Move G) :=
  match game.gameState with
  | .dissecting dissection defaultNumberOfSections => do
    let (choice, chosenSectionLen, dissection) ←
      generateNextDissection node defaultNumberOfSections dissection
    if chosenSectionLen = 1 then finalMove rollup node game choice
    else return { choice, step := .dissection dissection }
  | .finalMove agreedStartChunk _ => finalMove rollup node game agreedStartChunk.tick

end Moves

end Octez.RefutationGame
