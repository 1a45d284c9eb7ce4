import Octez.Lib.Storage
import Octez.Model.Game

/-! # The storage of a rollup (`src/proto_alpha/lib_protocol/sc_rollup_commitment_storage.ml`) -/

namespace Octez.RollupStorage
open Octez.Lib Octez.Game Octez.RefutationProof.DalHelpers

/-- The types of other components that the storage of a rollup is about. -/
structure RollupTypes extends GameTypes where
  Staker : Type
  CommitmentHash : Type
  Ledger : Type

abbrev RollupTypes.Commitment (T : RollupTypes) := Game.Commitment T.Hash T.CommitmentHash

/-- The constants of rollups, in the ranges of `Constants_repr.check_constants` and of their
encoding. -/
structure Constants where
  commitmentPeriodInBlocks : Nat
  challengeWindowInBlocks : Nat
  maxLookaheadInBlocks : Int
  timeoutPeriodInBlocks : Int
  maxNumberOfStoredCementedCommitments : Nat
  maxNumberOfParallelGames : Nat
  numberOfSectionsInDissection : Nat
  privateEnable : Bool
  period_pos : 0 < commitmentPeriodInBlocks
  period_lt : commitmentPeriodInBlocks < 2 ^ 30
  timeout_int31 : -2 ^ 30 ≤ timeoutPeriodInBlocks ∧ timeoutPeriodInBlocks < 2 ^ 30
  stored_pos : 0 < maxNumberOfStoredCementedCommitments

inductive Error (T : RollupTypes) where
  | doesNotExist
  | unknownCommitment (hash : T.CommitmentHash)
  | badCommitmentSerialization
  | notStaked
  | notStakedOnLccOrAncestor
  | tooFarAhead
  | badInboxLevel
  | commitmentPastCurfew
  | commitmentTooOld (lastCementedInboxLevel commitmentInboxLevel : Int)
  | commitmentFromFuture (currentLevel inboxLevel : Int)
  | doublePublish (hash : T.CommitmentHash)
  | stakerDoubleStake
  | zeroTickCommitment
  | stakerNotInWhitelist
  | stakerFundsTooLow (staker : T.Staker) (err : T.External)
  | disputed
  | commitmentTooRecent (currentLevel minLevel : Int)
  | noValidCommitmentToCement
  | noGame
  | wrongTurn
  | gameAlreadyStarted
  | maxNumberOfParallelGamesReached (staker : T.Staker)
  | wrongStakerForConflictCommitment (staker : T.Staker) (hash : T.CommitmentHash)
  | noConflict
  | notValidCommitmentsConflict (refuterHash : T.CommitmentHash) (refuter : T.Staker)
      (defenderHash : T.CommitmentHash) (defender : T.Staker)
  | timeoutLevelNotReached (blocksLeft : Int) (staker : T.Staker)
  | storage (err : StorageError)
  | token (err : T.External)
  | game (err : Game.Error T.Hash T.External)

abbrev Result (T : RollupTypes) (α : Type) := TzResult (Error T) α

/-- The transfers of the stake of a staker: from its contract to its frozen bonds, back, and to the
refutation punishments; and the reward of a winner. A punishment says whether there are balance
updates. -/
structure Tokens (T : RollupTypes) where
  deposit : T.Staker → T.Ledger → TzResult T.External T.Ledger
  withdraw : T.Staker → T.Ledger → TzResult T.External T.Ledger
  punish : T.Staker → T.Ledger → TzResult T.External (T.Ledger × Bool)
  reward : T.Staker → T.Ledger → TzResult T.External T.Ledger

structure Protocol (T : RollupTypes) where
  constants : Constants
  commitmentHash : T.Commitment → Option T.CommitmentHash
  zeroHash : T.CommitmentHash
  tokens : Tokens T

structure Storage (T : RollupTypes) where
  ledger : T.Ledger
  whitelist : Table T.Staker Unit
  lastCementedCommitment : Option T.CommitmentHash
  commitments : Table T.CommitmentHash T.Commitment
  commitmentAdded : Table T.CommitmentHash Int
  commitmentFirstPublicationLevel : Table Int Int
  commitmentsPerInboxLevel : Table Int (List T.CommitmentHash)
  commitmentStakers : Table T.CommitmentHash (List Nat)
  stakerIndexCounter : Nat
  stakerIndex : Table T.Staker Nat
  stakers : Table Nat Int

variable {T : RollupTypes}

variable (s : Storage T)

section Commitments
variable [DecidableEq T.CommitmentHash]

def getCommitmentUnsafe (hash : T.CommitmentHash) : Result T T.Commitment :=
  match s.commitments.find hash with
  | none => tzfail (.unknownCommitment hash)
  | some commitment => .ok commitment

def lastCementedCommitment : Result T T.CommitmentHash :=
  match s.lastCementedCommitment with
  | none => tzfail .doesNotExist
  | some lcc => .ok lcc

def lastCementedCommitmentHashWithLevel : Result T (T.CommitmentHash × Int) := do
  let hash ← lastCementedCommitment s
  let commitment ← getCommitmentUnsafe s hash
  return (hash, (commitment.inboxLevel : Int))

def setCommitmentAdded (hash : T.CommitmentHash) (newValue : Int) : Storage T × Int :=
  match s.commitmentAdded.find hash with
  | some oldValue => (s, oldValue)
  | none => ({ s with commitmentAdded := s.commitmentAdded.add hash newValue }, newValue)

def getPredecessorOptUnsafe (hash : T.CommitmentHash) : Option T.CommitmentHash :=
  (s.commitments.find hash).map Commitment.predecessor

end Commitments

def hash (P : Protocol T) (commitment : T.Commitment) : Result T T.CommitmentHash :=
  match P.commitmentHash commitment with
  | none => tzfail .badCommitmentSerialization
  | some hash => .ok hash

namespace StakerIndex
variable [DecidableEq T.Staker]

/-- `Raw_level_repr.root`. -/
def rootLevel : Int := 0

def freshStakerIndex (staker : T.Staker) : Result T (Storage T × Nat) := do
  let index := s.stakerIndexCounter
  let stakerIndex ← liftError .storage (s.stakerIndex.init staker index)
  let stakers ← liftError .storage (s.stakers.init index rootLevel)
  return ({ s with stakerIndexCounter := index + 1, stakerIndex, stakers }, index)

def getStakerIndexUnsafe (staker : T.Staker) : Result T Nat :=
  match s.stakerIndex.find staker with
  | none => tzfail .notStaked
  | some index => .ok index

def removeStaker (staker : T.Staker) : Result T (Storage T) := do
  let index ← getStakerIndexUnsafe s staker
  let stakerIndex ← liftError .storage (s.stakerIndex.removeExisting staker)
  let stakers ← liftError .storage (s.stakers.removeExisting index)
  return { s with stakerIndex, stakers }

def isActive (index : Nat) : Bool :=
  s.stakers.mem index

def isStaker (staker : T.Staker) : Bool :=
  s.stakerIndex.mem staker

end StakerIndex

def checkAccessToPrivateRollup [DecidableEq T.Staker] (staker : T.Staker) : Result T Unit :=
  if s.whitelist.entries.isEmpty then .ok ()
  else errorUnless (s.whitelist.mem staker) .stakerNotInWhitelist

def genesisCommitment (P : Protocol T) (originationLevel : Nat) (genesisStateHash : T.Hash) : T.Commitment where
  compressedState := genesisStateHash
  inboxLevel := originationLevel
  predecessor := P.zeroHash
  numberOfTicks := 0

/-- The storage of a new rollup: `init_commitment_storage` and the tables that start empty. -/
def originate [DecidableEq T.CommitmentHash] (P : Protocol T)
    (ledger : T.Ledger) (whitelist : Table T.Staker Unit) (genesisCommitment : T.Commitment) :
    Result T (Storage T) := do
  let genesisHash ← hash P genesisCommitment
  let originationLevel : Int := genesisCommitment.inboxLevel
  return {
    ledger, whitelist
    lastCementedCommitment := some genesisHash
    commitments := Table.add ∅ genesisHash genesisCommitment
    commitmentAdded := Table.add ∅ genesisHash originationLevel
    commitmentFirstPublicationLevel := Table.add ∅ originationLevel originationLevel
    commitmentsPerInboxLevel := Table.add ∅ originationLevel [genesisHash]
    commitmentStakers := ∅
    stakerIndexCounter := 0
    stakerIndex := ∅
    stakers := ∅ }

/-! # Stakes on commitments (`src/proto_alpha/lib_protocol/sc_rollup_stake_storage.ml`) -/

namespace SetOutOfList
variable {Key Value : Type} [DecidableEq Key] [DecidableEq Value]

def get (t : Table Key (List Value)) (key : Key) : List Value := (t.find key).getD []

def mem (t : Table Key (List Value)) (key : Key) (value : Value) : Bool :=
  decide (value ∈ get t key)

/-- The table and the values of the key; the table is not written when the value exists. -/
def add (t : Table Key (List Value)) (key : Key) (value : Value) : Table Key (List Value) × List Value :=
  if mem t key value then (t, get t key)
  else (t.add key (value :: get t key), value :: get t key)

end SetOutOfList

section Stake
variable [DecidableEq T.Staker] [DecidableEq T.CommitmentHash]
variable (P : Protocol T)

variable (s : Storage T)

def assertStakedOnLccOrAncestor (index : Nat) (lccInboxLevel : Int) : Result T Unit := do
  let lastStakedLevel ← liftError .storage (s.stakers.get index)
  errorUnless (decide (lastStakedLevel ≤ lccInboxLevel)) .notStakedOnLccOrAncestor

variable (staker : T.Staker)

def depositStake : Result T (Storage T × Nat) := do
  let ledger ← liftError (.stakerFundsTooLow staker) (P.tokens.deposit staker s.ledger)
  StakerIndex.freshStakerIndex { s with ledger } staker

def withdrawStake : Result T (Storage T) := do
  let (_, lccInboxLevel) ← lastCementedCommitmentHashWithLevel s
  let index ← StakerIndex.getStakerIndexUnsafe s staker
  assertStakedOnLccOrAncestor s index lccInboxLevel
  let ledger ← liftError .token (P.tokens.withdraw staker s.ledger)
  StakerIndex.removeStaker { s with ledger } staker

/-- Whether there are balance updates comes with the storage. -/
def removeStaker : Result T (Storage T × Bool) := do
  let (ledger, balanceUpdates) ← liftError .token (P.tokens.punish staker s.ledger)
  let s ← StakerIndex.removeStaker { s with ledger } staker
  return (s, balanceUpdates)

def assertCommitmentNotTooFarAhead
    (lcc : T.CommitmentHash) (commitment : T.Commitment) : Result T Unit := do
  let lcc ← getCommitmentUnsafe s lcc
  let minLevel : Int := lcc.inboxLevel
  let maxLevel : Int := commitment.inboxLevel
  errorUnless (!decide (P.constants.maxLookaheadInBlocks < wrap32 (maxLevel - minLevel))) .tooFarAhead

def assertCommitmentPeriod (commitment : T.Commitment) : Result T Unit := do
  let pred ← getCommitmentUnsafe s commitment.predecessor
  let expected ← liftRun (addLevel pred.inboxLevel P.constants.commitmentPeriodInBlocks)
  errorUnless (decide ((commitment.inboxLevel : Int) = expected)) .badInboxLevel

def assertCommitmentIsNotPastCurfew (currentLevel : Int) (s : Storage T) (inboxLevel : Int) :
    Result T (Storage T) :=
  match s.commitmentFirstPublicationLevel.find inboxLevel with
  | some oldestCommit => do
    errorUnless (!decide (P.constants.challengeWindowInBlocks < wrap32 (currentLevel - oldestCommit)))
      .commitmentPastCurfew
    return s
  | none =>
    .ok { s with commitmentFirstPublicationLevel :=
            s.commitmentFirstPublicationLevel.add inboxLevel currentLevel }

def assertRefineConditionsMet (currentLevel lccInboxLevel : Int) (s : Storage T) (lcc : T.CommitmentHash)
    (commitment : T.Commitment) : Result T (Storage T) := do
  let commitmentInboxLevel : Int := commitment.inboxLevel
  errorUnless (decide (lccInboxLevel < commitmentInboxLevel))
    (.commitmentTooOld lccInboxLevel commitmentInboxLevel)
  assertCommitmentNotTooFarAhead P s lcc commitment
  assertCommitmentPeriod P s commitment
  let s ← assertCommitmentIsNotPastCurfew P currentLevel s commitmentInboxLevel
  errorUnless (decide (commitmentInboxLevel < currentLevel))
    (.commitmentFromFuture currentLevel commitmentInboxLevel)
  return s

def isStakedOn (hash : T.CommitmentHash) : Bool :=
  match s.stakerIndex.find staker with
  | none => false
  | some index => SetOutOfList.mem s.commitmentStakers hash index

-- The update of the latest level at which a staker has staked.
def setStakerLevel (index : Nat) (inboxLevel : Int) : Result T (Storage T) := do
  let lastLevel ← liftError .storage (s.stakers.get index)
  if lastLevel < inboxLevel then do
    let stakers ← liftError .storage (s.stakers.update index inboxLevel)
    return { s with stakers }
  else return s

def setStakerCommitment (index : Nat) (inboxLevel : Int) (hash : T.CommitmentHash) :
    Result T (Storage T) := do
  let s ← setStakerLevel s index inboxLevel
  errorUnless (!SetOutOfList.mem s.commitmentStakers hash index) (.doublePublish hash)
  let (commitmentStakers, _) := SetOutOfList.add s.commitmentStakers hash index
  return { s with commitmentStakers }

def assertStakerDontDoubleStake (index : Nat)
    (commitments : List T.CommitmentHash) : Result T Unit :=
  let stakedOnCommitments :=
    commitments.filter fun hash => SetOutOfList.mem s.commitmentStakers hash index
  errorUnless (!decide (1 < stakedOnCommitments.length)) .stakerDoubleStake

def refineStake (publicationLevel : Int) (s : Storage T)
    (commitment : T.Commitment) (index : Nat) (lcc : T.CommitmentHash) (lccInboxLevel : Int) :
    Result T (T.CommitmentHash × Int × Storage T) := do
  let s ← assertRefineConditionsMet P publicationLevel lccInboxLevel s lcc commitment
  let commitmentHash ← hash P commitment
  let s := { s with commitments := s.commitments.add commitmentHash commitment }
  let (s, commitmentAddedLevel) := setCommitmentAdded s commitmentHash publicationLevel
  let s ← setStakerCommitment s index commitment.inboxLevel commitmentHash
  let (commitmentsPerInboxLevel, commitments) :=
    SetOutOfList.add s.commitmentsPerInboxLevel (commitment.inboxLevel : Int) commitmentHash
  let s := { s with commitmentsPerInboxLevel }
  assertStakerDontDoubleStake s index commitments
  return (commitmentHash, commitmentAddedLevel, s)

def indexOfStaker : Result T (Storage T × Nat) :=
  match s.stakerIndex.find staker with
  | none => depositStake P s staker
  | some index => .ok (s, index)

def checkAccess : Result T Unit :=
  if P.constants.privateEnable then checkAccessToPrivateRollup s staker else .ok ()

def publishCommitment (level : Int) (s : Storage T) (staker : T.Staker) (commitment : T.Commitment) :
    Result T (T.CommitmentHash × Int × Storage T) := do
  checkAccess P s staker
  let (lcc, lccInboxLevel) ← lastCementedCommitmentHashWithLevel s
  errorUnless (!decide (commitment.numberOfTicks = 0)) .zeroTickCommitment
  let (s, index) ← indexOfStaker P s staker
  refineStake P level s commitment index lcc lccInboxLevel

def activeStakersIndex (stakers : List Nat) : List Nat :=
  stakers.filter (StakerIndex.isActive s)

def isCementableCandidateCommitment (lcc hash : T.CommitmentHash) :
    Result T (Option T.Commitment) := do
  let commitment ← getCommitmentUnsafe s hash
  if commitment.predecessor = lcc then
    let stakersOnCommitment := SetOutOfList.get s.commitmentStakers hash
    if 0 < (activeStakersIndex s stakersOnCommitment).length then return some commitment
    else return none
  else return none

def collectCommitments (s : Storage T) (oldLcc : T.CommitmentHash)
    (candidateRes : Option (T.Commitment × T.CommitmentHash))
    (danglingCommitments : List T.CommitmentHash) : List T.CommitmentHash → Result T
      (Option (T.Commitment × T.CommitmentHash) × List T.CommitmentHash)
  | [] => .ok (candidateRes, danglingCommitments)
  | candidateHash :: rst => do
    let candidate ← isCementableCandidateCommitment s oldLcc candidateHash
    match candidate, candidateRes with
    | some _, some _ => tzfail .disputed
    | some candidate, none =>
      collectCommitments s oldLcc (some (candidate, candidateHash)) danglingCommitments rst
    | none, _ =>
      collectCommitments s oldLcc candidateRes (candidateHash :: danglingCommitments) rst

def cementableCandidateCommitmentOfInboxLevel (oldLcc : T.CommitmentHash) (inboxLevel : Int) :
    Result T (Option (T.Commitment × T.CommitmentHash) × List T.CommitmentHash) :=
  collectCommitments s oldLcc none [] (SetOutOfList.get s.commitmentsPerInboxLevel inboxLevel)

def findCommitmentToCement (level : Int) (s : Storage T) (oldLcc : T.CommitmentHash) (newLccLevel : Int) :
    Result T ((T.Commitment × T.CommitmentHash) × List T.CommitmentHash) := do
  let (candidate, danglingCommitments) ←
    cementableCandidateCommitmentOfInboxLevel s oldLcc newLccLevel
  match candidate with
  | some (candidateCommitment, candidateHash) => do
    let added ← liftError .storage (s.commitmentAdded.get candidateHash)
    let minLevel ← liftRun (addLevel added P.constants.challengeWindowInBlocks)
    errorUnless (!decide (level < minLevel)) (.commitmentTooRecent level minLevel)
    return ((candidateCommitment, candidateHash), danglingCommitments)
  | none => tzfail .noValidCommitmentToCement

variable (hash : T.CommitmentHash)

def deallocateCommitmentContents : Result T (Storage T) := do
  let commitments ← liftError .storage (s.commitments.removeExisting hash)
  return { s with commitments }

def deallocateCommitmentMetadata : Result T (Storage T) := do
  let commitmentAdded ← liftError .storage (s.commitmentAdded.removeExisting hash)
  return { s with commitmentAdded }

def deallocateCommitment : Result T (Storage T) := do
  let s ← deallocateCommitmentMetadata s hash
  deallocateCommitmentContents s hash

def removeCommitmentStakers : Result T (Storage T) := do
  let commitmentStakers ← liftError .storage (s.commitmentStakers.removeExisting hash)
  return { s with commitmentStakers }

def deallocateInboxLevel (inboxLevel : Int)
    (newLccHash : T.CommitmentHash) (danglingCommitments : List T.CommitmentHash) :
    Result T (Storage T) := do
  let commitmentsPerInboxLevel ←
    liftError .storage (s.commitmentsPerInboxLevel.removeExisting inboxLevel)
  let s := { s with commitmentsPerInboxLevel }
  let s ← danglingCommitments.foldlM deallocateCommitment s
  let s ← (newLccHash :: danglingCommitments).foldlM removeCommitmentStakers s
  let s ← deallocateCommitmentMetadata s newLccHash
  let commitmentFirstPublicationLevel ←
    liftError .storage (s.commitmentFirstPublicationLevel.removeExisting inboxLevel)
  return { s with commitmentFirstPublicationLevel }

/-- The loop of `find_commitment_to_deallocate`. -/
def findToDeallocateAux (s : Storage T) : T.CommitmentHash → Nat → Option T.CommitmentHash
  | hash, 0 => some hash
  | hash, n + 1 =>
    match getPredecessorOptUnsafe s hash with
    | none => none
    | some predHash => findToDeallocateAux s predHash n

def findCommitmentToDeallocate : Option T.CommitmentHash :=
  findToDeallocateAux s hash (P.constants.maxNumberOfStoredCementedCommitments - 1)

def updateSavedCementedCommitments (oldLcc : T.CommitmentHash) : Result T (Storage T) :=
  match findCommitmentToDeallocate P s oldLcc with
  | none => .ok s
  | some tooOld => if tooOld = P.zeroHash then .ok s else deallocateCommitmentContents s tooOld

def updateLastCementedCommitment : Result T (Storage T) :=
  match s.lastCementedCommitment with
  | some _ => .ok { s with lastCementedCommitment := some hash }
  | none => tzfail (.storage .missingKey)

def cementCommitment (level : Int) (s : Storage T) : Result T
      (Storage T × T.Commitment × T.CommitmentHash) := do
  let (oldLcc, oldLccLevel) ← lastCementedCommitmentHashWithLevel s
  let newLccLevel ← liftRun (addLevel oldLccLevel P.constants.commitmentPeriodInBlocks)
  let ((newLccCommitment, newLccHash), danglingCommitments) ←
    findCommitmentToCement P level s oldLcc newLccLevel
  let s ← updateLastCementedCommitment s newLccHash
  let s ← deallocateInboxLevel s newLccCommitment.inboxLevel newLccHash danglingCommitments
  let s ← updateSavedCementedCommitments P s oldLcc
  return (s, newLccCommitment, newLccHash)

end Stake

end Octez.RollupStorage
