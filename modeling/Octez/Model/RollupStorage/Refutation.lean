import Octez.Model.RollupStorage.Stake

/-! # The storage of refutation games (`src/proto_alpha/lib_protocol/sc_rollup_refutation_storage.ml`) -/

namespace Octez.RollupStorage
open Octez.Lib Octez.Game Octez.RefutationProof.DalHelpers
open Octez.RefutationProof (octetTypes)

structure Timeout where
  alice : Int
  bob : Int
  lastTurnLevel : Nat
deriving DecidableEq, Repr

namespace Timeout

def left (timeout : Timeout) : Player → Int
  | .alice => timeout.alice
  | .bob => timeout.bob

/-- `timeout_encoding`: the blocks left are written as `int31`. -/
def write (timeout : Timeout) : Run Timeout :=
  if (-2 ^ 30 ≤ timeout.alice ∧ timeout.alice < 2 ^ 30) ∧
      (-2 ^ 30 ≤ timeout.bob ∧ timeout.bob < 2 ^ 30) then .ok timeout
  else .error .writeError

end Timeout

structure Games (T : RollupTypes) where
  gameInfo : Table (Index T.Staker) (V1 T.toGameTypes)
  game : Table (T.Staker × T.Staker) (Index T.Staker)
  gameTimeout : Table (Index T.Staker) Timeout

structure Snapshots (DalHistory : Type) where
  inbox : octetTypes.HistoryProof
  slotsHistory : DalHistory

variable {T : RollupTypes}
variable (games : Games T)

/-- The entries of `Game` under a staker: its opponents, with the index of the game. -/
def gamesOf [DecidableEq T.Staker] (staker : T.Staker) : List (T.Staker × Index T.Staker) :=
  games.game.entries.filterMap fun entry =>
    if entry.1.1 = staker then some (entry.1.2, entry.2) else none

section Refutation
variable [LinearOrder T.Staker] [DecidableEq T.CommitmentHash]

variable (constants : Constants)

def initialTimeout (level : Nat) : Timeout where
  alice := constants.timeoutPeriodInBlocks
  bob := constants.timeoutPeriodInBlocks
  lastTurnLevel := level

def subBlockLeft (level : Nat) (timeout : Timeout) (nbOfBlockLeft : Int) : Int :=
  nbOfBlockLeft - wrap32 (level - timeout.lastTurnLevel)

def newTimeout (level : Nat) (timeout : Timeout) : Player → Timeout
  | .alice =>
    { timeout with lastTurnLevel := level, alice := subBlockLeft level timeout timeout.alice }
  | .bob => { timeout with lastTurnLevel := level, bob := subBlockLeft level timeout timeout.bob }

def updateTimeout (level : Nat) (games : Games T)
    (game : V1 T.toGameTypes) (idx : Index T.Staker) : Result T (Games T) := do
  let timeout ← liftError .storage (games.gameTimeout.get idx)
  let timeout ← liftRun (newTimeout level timeout game.turn).write
  let gameTimeout ← liftError .storage (games.gameTimeout.update idx timeout)
  return { games with gameTimeout }

-- A game of `Game` is always present in `Game_info`.
def getOngoingGamesForStaker (staker : T.Staker) : Result T
      (List (V1 T.toGameTypes × Index T.Staker)) :=
  (gamesOf games staker).foldlM (fun found (opponent, gameIndex) =>
      match games.gameInfo.find gameIndex with
      | none => .error (.raised .assertFalse)
      | some game => .ok ((game, Index.make staker opponent) :: found))
    []

section
variable (stakers : Index T.Staker)

def findGame : Option (V1 T.toGameTypes) :=
  (games.game.find (stakers.alice, stakers.bob)).bind games.gameInfo.find

def getGame : Result T (V1 T.toGameTypes) :=
  match findGame games stakers with
  | none => tzfail .noGame
  | some game => .ok game

def createGame (newGame : V1 T.toGameTypes) : Result T (Games T) := do
  let gameInfo ← liftError .storage (games.gameInfo.init stakers newGame)
  let game ← liftError .storage (games.game.init (stakers.alice, stakers.bob) stakers)
  let game ← liftError .storage (game.init (stakers.bob, stakers.alice) stakers)
  return { games with gameInfo, game }

def updateGame (newGame : V1 T.toGameTypes) : Result T (Games T) := do
  let gameInfo ← liftError .storage (games.gameInfo.update stakers newGame)
  return { games with gameInfo }

def removeGame : Games T :=
  { games with
    game := (games.game.remove (stakers.alice, stakers.bob)).remove (stakers.bob, stakers.alice)
    gameInfo := games.gameInfo.remove stakers }

end

def failUnlessStakerIsStakedOnCommitment (s : Storage T)
    (staker : T.Staker) (commitmentHash : T.CommitmentHash) : Result T Unit :=
  errorUnless (isStakedOn s staker commitmentHash) (.wrongStakerForConflictCommitment staker commitmentHash)

def checkConflictPoint (s : Storage T) (refuter : T.Staker)
    (refuterCommitmentHash : T.CommitmentHash) (defender : T.Staker)
    (defenderCommitmentHash : T.CommitmentHash) : Result T T.Commitment := do
  failUnlessStakerIsStakedOnCommitment s refuter refuterCommitmentHash
  failUnlessStakerIsStakedOnCommitment s defender defenderCommitmentHash
  let refuterCommitment ← getCommitmentUnsafe s refuterCommitmentHash
  let defenderCommitment ← getCommitmentUnsafe s defenderCommitmentHash
  errorUnless (!decide (refuterCommitmentHash = defenderCommitmentHash)) .noConflict
  errorUnless (decide (refuterCommitment.predecessor = defenderCommitment.predecessor))
    (.notValidCommitmentsConflict refuterCommitmentHash refuter defenderCommitmentHash defender)
  return defenderCommitment

def checkStakerAvailability (s : Storage T) (games : Games T) (staker : T.Staker) : Result T Unit := do
  errorUnless (StakerIndex.isStaker s staker) .notStaked
  errorUnless (!decide (constants.maxNumberOfParallelGames ≤ (gamesOf games staker).length))
    (.maxNumberOfParallelGamesReached staker)

/-- The checks of `start_game`, with the commitments that the game starts from. -/
def startGameChecks (s : Storage T) (games : Games T) (refuter : T.Staker)
    (refuterCommitmentHash : T.CommitmentHash) (defender : T.Staker)
    (defenderCommitmentHash : T.CommitmentHash) : Result T (T.Commitment × T.Commitment) := do
  let stakers := Index.make refuter defender
  errorUnless (!games.gameInfo.mem stakers) .gameAlreadyStarted
  checkStakerAvailability constants s games stakers.alice
  checkStakerAvailability constants s games stakers.bob
  let defenderCommitment ←
    checkConflictPoint s refuter refuterCommitmentHash defender defenderCommitmentHash
  let parentCommitment ← getCommitmentUnsafe s defenderCommitment.predecessor
  return (parentCommitment, defenderCommitment)

def startGame (level : Nat) (snapshots : Snapshots T.DalHistory) (s : Storage T) (games : Games T)
    (player : T.Staker) (playerCommitmentHash : T.CommitmentHash) (opponent : T.Staker)
    (opponentCommitmentHash : T.CommitmentHash) : Result T (Games T) := do
  let stakers := Index.make player opponent
  let (parentCommitment, defenderCommitment) ← startGameChecks constants s games player
    playerCommitmentHash opponent opponentCommitmentHash
  let game := Game.initial snapshots.inbox snapshots.slotsHistory level parentCommitment
    defenderCommitment player opponent constants.numberOfSectionsInDissection
  let games ← createGame games stakers game
  let timeout ← liftRun (initialTimeout constants level).write
  let gameTimeout ← liftError .storage (games.gameTimeout.init stakers timeout)
  return { games with gameTimeout }

def checkStakes (s : Storage T) (stakers : Index T.Staker) : Option (GameResult T.Staker) :=
  match StakerIndex.isStaker s stakers.alice, StakerIndex.isStaker s stakers.bob with
  | true, true => none
  | false, true => some (.loser .conflictResolved stakers.alice)
  | true, false => some (.loser .conflictResolved stakers.bob)
  | false, false => some .draw

def playMove [DecidableEq T.Hash] (rollup : Rollup T.toGameTypes)
    (level : Nat) (games : Games T) (stakers : Index T.Staker)
    (game : V1 T.toGameTypes) (step : Step T.toGameTypes) (choice : Nat) : Result T
      (Option (GameResult T.Staker) × Games T) := do
  let moveResult ← liftError .game (play rollup stakers game step choice)
  match moveResult with
  | .inl gameResult => return (some gameResult, games)
  | .inr newGame => do
    let games ← updateGame games stakers newGame
    let games ← updateTimeout level games game stakers
    return (none, games)

def gameMove [DecidableEq T.Hash] (rollup : Rollup T.toGameTypes) (level : Nat) (s : Storage T)
    (games : Games T) (player opponent : T.Staker) (step : Step T.toGameTypes) (choice : Nat) :
    Result T (Option (GameResult T.Staker) × Games T) := do
  let stakers := Index.make player opponent
  let game ← getGame games stakers
  errorUnless (decide (player = stakers.staker game.turn)) .wrongTurn
  match checkStakes s stakers with
  | some gameResult => return (some gameResult, games)
  | none => playMove rollup level games stakers game step choice

def timeout (level : Nat) (games : Games T) (stakers : Index T.Staker) :
    Result T (GameResult T.Staker) := do
  let game ← getGame games stakers
  let timeout ← liftError .storage (games.gameTimeout.get stakers)
  let levelOfTimeout ← liftRun (addLevel timeout.lastTurnLevel (timeout.left game.turn))
  errorUnless (decide (levelOfTimeout < (level : Int)))
    (.timeoutLevelNotReached (wrap32 (levelOfTimeout - level)) (stakers.staker game.turn))
  match game.gameState with
  | .dissecting _ _ => return .loser .timeout (stakers.staker game.turn)
  | .finalMove _ _ => return .draw

variable (P : Protocol T)

def reward (s : Storage T) (winner : T.Staker) : Result T (Storage T) := do
  let ledger ← liftError .token (P.tokens.reward winner s.ledger)
  return { s with ledger }

def removeIfStakerIsStillThere (s : Storage T) (staker : T.Staker) : Result T
      (Storage T × Bool) :=
  if StakerIndex.isStaker s staker then removeStaker P s staker else .ok (s, false)

def applyStakes (s : Storage T) (stakers : Index T.Staker) :
    GameResult T.Staker → Result T (Storage T)
  | .loser _ loser => do
    let winner := if stakers.alice = loser then stakers.bob else stakers.alice
    let (s, balanceUpdates) ← removeIfStakerIsStillThere P s loser
    if balanceUpdates then reward P s winner else return s
  | .draw => do
    let (s, _) ← removeIfStakerIsStillThere P s stakers.alice
    let (s, _) ← removeIfStakerIsStillThere P s stakers.bob
    return s

def applyGameResult (s : Storage T) (games : Games T) (stakers : Index T.Staker)
    (gameResult : GameResult T.Staker) : Result T (Storage T × Games T) := do
  let games := removeGame games stakers
  let s ← applyStakes P s stakers gameResult
  return (s, { games with gameTimeout := games.gameTimeout.remove stakers })

def migrateCleanRefutationGames (s : Storage T) (games : Games T) : Games T :=
  games.gameInfo.keys.foldl (fun games stakers =>
      if !StakerIndex.isStaker s stakers.alice && !StakerIndex.isStaker s stakers.bob then
        removeGame games stakers
      else games)
    games

end Refutation

end Octez.RollupStorage
