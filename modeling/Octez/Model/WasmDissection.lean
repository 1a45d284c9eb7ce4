import Octez.Model.RefutationGame

/-! # Dissections for the WASM PVM (`src/proto_alpha/lib_protocol/sc_rollup_wasm.ml`) -/

namespace Octez.Wasm
open Octez.Lib Octez.Game Octez.RefutationGame

def ticksPerSnapshot : Nat := 11000000000

section Check
variable {Hash External : Type}

def checkSectionsNumber (defaultNumberOfSections numberOfSections dist : Nat) :
    TzResult (Octez.Game.Error Hash External) Unit :=
  let isStopChunkAligned := dist % ticksPerSnapshot = 0
  let maxNumberOfSections := dist / ticksPerSnapshot
  let expected := min defaultNumberOfSections
    (if isStopChunkAligned then maxNumberOfSections else maxNumberOfSections + 1)
  errorUnless (numberOfSections = expected) (.dissectionNumberOfSectionsMismatch expected numberOfSections)

-- Of a stop chunk that is not aligned, only the complete calls to the kernel count.
def consideredDist (startTick stopTick : Nat) : Nat :=
  let dist := Tick.distance startTick stopTick
  let isStopChunkAligned := dist % ticksPerSnapshot = 0
  if isStopChunkAligned then dist
  else
    let lastValidStopTick := stopTick / ticksPerSnapshot * ticksPerSnapshot
    Tick.distance startTick lastValidStopTick

def checkDissection [DecidableEq Hash] (defaultNumberOfSections : Nat)
    (startChunk stopChunk : DissectionChunk Hash) (dissection : List (DissectionChunk Hash)) :
    TzResult (Octez.Game.Error Hash External) Unit :=
  let dist := Tick.distance startChunk.tick stopChunk.tick
  if dist ≤ ticksPerSnapshot then
    defaultCheck (dist / 2) defaultCheckSectionsNumber defaultNumberOfSections startChunk stopChunk
      dissection
  else do
    let sectionMaximumSize :=
      max ticksPerSnapshot (consideredDist startChunk.tick stopChunk.tick / 2)
    defaultCheck sectionMaximumSize checkSectionsNumber defaultNumberOfSections startChunk stopChunk
      dissection
    errorUnless (dissection.all fun chunk =>
        chunk.tick % ticksPerSnapshot = 0 || startChunk.tick = chunk.tick || stopChunk.tick = chunk.tick)
      .wasmInvalidDissectionDistribution

end Check

section Node
variable {Hash : Type}

-- `go` of the source; its last section is the one that `makeDissection` ends with the stop chunk.
def evenSections (isStopChunkAligned : Bool) (finalTick : Nat) :
    Nat → Nat → Nat → List Nat → List Nat
  | 0, _, _, revAcc | 1, _, _, revAcc =>
    (if isStopChunkAligned then revAcc else finalTick :: revAcc).reverse
  | remainingSections + 2, lastTick, dist, revAcc =>
    let sectionLen :=
      dist / (ticksPerSnapshot * (remainingSections + 2)) * ticksPerSnapshot
    let nextTick := Tick.jump lastTick sectionLen
    let nextDist := dist - sectionLen
    evenSections isStopChunkAligned finalTick (remainingSections + 1) nextTick nextDist (nextTick :: revAcc)

def newDissection (defaultNumberOfSections : Nat) (startChunk ourStopChunk : DissectionChunk Hash) :
    Run (List Nat) :=
  let dist := Tick.distance startChunk.tick ourStopChunk.tick
  if dist ≤ ticksPerSnapshot then
    defaultNewDissection defaultNumberOfSections startChunk ourStopChunk
  else
    let isStopChunkAligned := ourStopChunk.tick % ticksPerSnapshot = 0
    let finalTick := ourStopChunk.tick / ticksPerSnapshot * ticksPerSnapshot
    let dist := Tick.distance startChunk.tick finalTick
    let maxNumberOfSections := dist / ticksPerSnapshot
    let numberOfSections := min
      (if isStopChunkAligned then defaultNumberOfSections else defaultNumberOfSections - 1)
      maxNumberOfSections
    .ok (evenSections isStopChunkAligned finalTick numberOfSections startChunk.tick dist [])

end Node

end Octez.Wasm
