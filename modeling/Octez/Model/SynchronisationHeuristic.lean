import Octez.Lib.MachineInt

/-! # The synchronisation heuristic (`src/lib_shell/synchronisation_heuristic.ml`) -/

namespace Octez.SynchronisationHeuristic
open Octez.Lib

inductive Status where
  | synchronised (isChainStuck : Bool)
  | notSynchronised
  deriving DecidableEq

/-- A timestamp, in seconds, and the peer it comes from. -/
abbrev Candidate (Peer : Type) := Int × Peer

variable {Peer : Type}

def earlierO : Option (Candidate Peer) → Option (Candidate Peer) → Bool
  | none, none => false
  | none, some _ => true
  | some (i, _), some (j, _) => i < j
  | some _, none => false

def earlierRo (l : Candidate Peer) : Option (Candidate Peer) → Bool
  | some (j, _) => l.1 < j
  | none => false

def earlier (l : Option (Candidate Peer)) (r : Candidate Peer) : Bool :=
  match l with
  | none => true
  | some (i, _) => i < r.1

def coincidentO : Option (Candidate Peer) → Option (Candidate Peer) → Bool
  | none, none => true
  | some (i, _), some (j, _) => i = j
  | _, _ => false

def earlierOrCoincidentO (l r : Option (Candidate Peer)) : Bool := earlierO l r || coincidentO l r

structure Core (Peer : Type) where
  threshold : Int
  latency : Int
  candidates : Nat → Option (Candidate Peer)
  indexOfOldestCandidate : Nat
  indexOfYoungestCandidate : Nat
  currentStatus : Status

namespace Core

variable (state : Core Peer)

def mayUpdateBinding (index : Nat) (candidate : Candidate Peer) : Core Peer :=
  if earlier (state.candidates index) candidate then
    { state with candidates := Function.update state.candidates index (some candidate) }
  else state

def create (threshold latency : Int) : Core Peer where
  threshold := threshold
  latency := latency
  candidates := fun _ => none
  indexOfOldestCandidate := 0
  indexOfYoungestCandidate := 0
  currentStatus := if threshold = 0 then .synchronised false else .notSynchronised

def computeStatus (now : Int) : Status :=
  if state.threshold < 0 then .notSynchronised
  else if state.threshold = 0 then .synchronised false
  else
    match state.candidates state.indexOfYoungestCandidate, state.candidates state.indexOfOldestCandidate with
    | none, _ | _, none => .notSynchronised
    | some (best, _), some (least, _) =>
      let leastTimestampDrifted := wrap64 (least + state.latency)
      if leastTimestampDrifted ≥ now then .synchronised false
      else if best = least ∧ state.threshold ≠ 1 then .synchronised true
      else .notSynchronised

variable [DecidableEq Peer] (candidate : Candidate Peer)

def samePeer : Option (Candidate Peer) → Bool
  | none => false
  | some (_, peer) => peer = candidate.2

/-- The two references that `Array.iteri` updates: the index to update and the one of the second
oldest candidate. -/
def scan : Nat × Nat :=
  (List.range state.threshold.toNat).foldl (fun (indexToUpdate, indexOfSecondOldest) i =>
      let knownCandidate := state.candidates i
      (if samePeer candidate knownCandidate then i else indexToUpdate,
        if i ≠ state.indexOfOldestCandidate ∧
            earlierOrCoincidentO knownCandidate (state.candidates indexOfSecondOldest)
          then i else indexOfSecondOldest))
    (state.indexOfOldestCandidate, state.indexOfYoungestCandidate)

/-- The first `update`, which the one that computes the status shadows. -/
def updateCandidates : Core Peer :=
  if state.threshold ≤ 0 then state
  else if state.threshold = 1 then state.mayUpdateBinding 0 candidate
  else if earlierRo candidate (state.candidates state.indexOfOldestCandidate) then state
  else
    let (indexToUpdate, indexOfSecondOldest) := state.scan candidate
    let updated := state.mayUpdateBinding indexToUpdate candidate
    { updated with
      indexOfOldestCandidate :=
        if indexToUpdate = state.indexOfOldestCandidate ∧
            earlier (updated.candidates indexOfSecondOldest) candidate
          then indexOfSecondOldest else state.indexOfOldestCandidate
      indexOfYoungestCandidate :=
        if earlier (updated.candidates state.indexOfYoungestCandidate) candidate
          then indexToUpdate else state.indexOfYoungestCandidate }

def update (now : Int) : Core Peer :=
  let state := state.updateCandidates candidate
  { state with currentStatus := state.computeStatus now }

/-- The heuristic after these updates, each with the time at which it is made. -/
def run (threshold latency : Int) (updates : List (Candidate Peer × Int)) : Core Peer :=
  updates.foldl (fun state (candidate, now) => state.update candidate now) (create threshold latency)

end Core

end Octez.SynchronisationHeuristic
