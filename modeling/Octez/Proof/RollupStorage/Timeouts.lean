import Octez.Model.RollupStorage.Refutation
import Octez.Proof.Game.FinalMove
import Octez.Proof.RollupStorage.Guarantees

namespace Octez.Proof.RollupStorage
open Octez.Lib Octez.Game Octez.RollupStorage Octez.RefutationProof.DalHelpers Table Index

variable {T : RollupTypes}

theorem write_eq_ok {timeout written : Timeout} (h : timeout.write = .ok written) : written = timeout := by
  unfold Timeout.write at h
  split at h
  · cases h
    rfl
  · cases h

section Games
variable [LinearOrder T.Staker] {stakers : Index T.Staker} {level : Nat}
  {games games' : Games T} {game : Game.V1 T.toGameTypes}

theorem getGame_eq_ok : getGame games stakers = .ok game ↔ findGame games stakers = some game := by
  unfold getGame
  split <;> simp_all

def withGame (games : Games T) (stakers : Index T.Staker)
    (game : Game.V1 T.toGameTypes) (timeout : Timeout) : Games T where
  gameInfo := games.gameInfo.add stakers game
  game := (games.game.add (stakers.alice, stakers.bob) stakers).add
    (stakers.bob, stakers.alice) stakers
  gameTimeout := games.gameTimeout.add stakers timeout

structure NoGame (games : Games T) (stakers : Index T.Staker) : Prop where
  info : games.gameInfo.find stakers = none
  game : games.game.find (stakers.alice, stakers.bob) = none
  reversed : games.game.find (stakers.bob, stakers.alice) = none
  timeout : games.gameTimeout.find stakers = none
  different : stakers.alice ≠ stakers.bob

theorem createGame_eq_ok : createGame games stakers game = .ok games' ↔
      games.gameInfo.find stakers = none ∧ games.game.find (stakers.alice, stakers.bob) = none ∧
      (games.game.add (stakers.alice, stakers.bob) stakers).find (stakers.bob, stakers.alice) =
        none ∧
      games' = { games with
        gameInfo := games.gameInfo.add stakers game
        game := (games.game.add (stakers.alice, stakers.bob) stakers).add
          (stakers.bob, stakers.alice) stakers } := by
  constructor
  · intro h
    obtain ⟨gameInfo, info, h⟩ := bind_eq_ok.1 h
    obtain ⟨first, forward, h⟩ := bind_eq_ok.1 h
    obtain ⟨second, backward, h⟩ := bind_eq_ok.1 h
    obtain ⟨noInfo, rfl⟩ := init_eq_ok.1 (liftError_eq_ok.1 info)
    obtain ⟨noGame, rfl⟩ := init_eq_ok.1 (liftError_eq_ok.1 forward)
    obtain ⟨noReverse, rfl⟩ := init_eq_ok.1 (liftError_eq_ok.1 backward)
    cases h
    exact ⟨noInfo, noGame, noReverse, rfl⟩
  · rintro ⟨noInfo, noGame, noReverse, rfl⟩
    rw [createGame, init_eq_ok.2 ⟨noInfo, rfl⟩, liftError_ok, ok_bind,
      init_eq_ok.2 ⟨noGame, rfl⟩, liftError_ok, ok_bind,
      init_eq_ok.2 ⟨noReverse, rfl⟩, liftError_ok, ok_bind, pure_eq_ok]

section Start
variable [DecidableEq T.CommitmentHash] {constants : Constants} {snapshots : Snapshots T.DalHistory}
  {s : Storage T} {player opponent : T.Staker} {playerHash opponentHash : T.CommitmentHash}

theorem startGame_eq_ok (h : startGame constants level snapshots s games player playerHash
      opponent opponentHash =
      .ok games') :
    ∃ commitments, startGameChecks constants s games player playerHash opponent opponentHash = .ok commitments ∧
      NoGame games (make player opponent) ∧
      ∃ game, games' = withGame games (make player opponent) game (initialTimeout constants level) := by
  obtain ⟨⟨parent, defender⟩, checked, h⟩ := bind_eq_ok.1 h
  obtain ⟨created, creation, h⟩ := bind_eq_ok.1 h
  obtain ⟨written, writing, h⟩ := bind_eq_ok.1 h
  obtain ⟨timeouts, timed, h⟩ := bind_eq_ok.1 h
  obtain ⟨noInfo, noGame, backward, rfl⟩ := createGame_eq_ok.1 creation
  obtain ⟨noTimeout, rfl⟩ := init_eq_ok.1 (liftError_eq_ok.1 timed)
  cases write_eq_ok (liftRun_eq_ok.1 writing)
  cases h
  rw [find_add] at backward
  split at backward
  · cases backward
  · rename_i other
    exact ⟨_, checked, ⟨noInfo, noGame, backward, noTimeout, fun same => other (by rw [same])⟩, _, rfl⟩

theorem startGame_of_checks {commitments}
    (checked : startGameChecks constants s games player playerHash opponent opponentHash = .ok commitments)
    (fresh : NoGame games (make player opponent)) :
    ∃ games', startGame constants level snapshots s games player playerHash opponent
      opponentHash = .ok games' := by
  have backward : (games.game.add ((make player opponent).alice,
      (make player opponent).bob) (make player opponent)).find
      ((make player opponent).bob, (make player opponent).alice) = none := by
    rw [find_add_of_ne]
    · exact fresh.reversed
    · intro same
      exact fresh.different (Prod.mk.inj same).2
  have written : (initialTimeout constants level).write = .ok (initialTimeout constants level) :=
    if_pos ⟨constants.timeout_int31, constants.timeout_int31⟩
  rw [startGame, checked, ok_bind]
  dsimp only
  rw [createGame_eq_ok.2 ⟨fresh.info, fresh.game, backward, rfl⟩, ok_bind, written, liftRun_ok,
    ok_bind, init_eq_ok.2 ⟨fresh.timeout, rfl⟩, liftError_ok, ok_bind]
  exact ⟨_, rfl⟩

end Start

section Move
variable [DecidableEq T.Hash] {rollup : Rollup T.toGameTypes} {s : Storage T} {player opponent : T.Staker}
  {step : Step T.toGameTypes} {choice : Nat} {result : Option (GameResult T.Staker)}

structure Moved (level : Nat) (stakers : Index T.Staker) (games games' : Games T)
    (game moved : Game.V1 T.toGameTypes) (timeout : Timeout) : Prop where
  present : games.gameInfo.mem stakers = true
  timed : games.gameTimeout.find stakers = some timeout
  written : games' = { games with
    gameInfo := games.gameInfo.add stakers moved
    gameTimeout := games.gameTimeout.add stakers (newTimeout level timeout game.turn) }

theorem gameMove_eq_ok (h : gameMove rollup level s games player opponent step choice = .ok (result, games')) :
    ∃ game, findGame games (make player opponent) = some game ∧
      player = (make player opponent).staker game.turn ∧ (((∃ ended, result = some ended) ∧ games' = games) ∨
        (result = none ∧ ∃ moved timeout,
          play rollup (make player opponent) game step choice = .ok (.inr moved) ∧
          Moved level (make player opponent) games games' game moved timeout)) := by
  obtain ⟨game, found, h⟩ := bind_eq_ok.1 h
  obtain ⟨turn, h⟩ := unit_bind_eq_ok.1 h
  refine ⟨game, getGame_eq_ok.1 found, by simpa using turn, ?_⟩
  split at h
  · next ended _ =>
      cases h
      exact .inl ⟨⟨ended, rfl⟩, rfl⟩
  · obtain ⟨played, moved, h⟩ := bind_eq_ok.1 h
    cases played with
    | inl ended =>
      cases h
      exact .inl ⟨⟨ended, rfl⟩, rfl⟩
    | inr newGame =>
      obtain ⟨updated, update, h⟩ := bind_eq_ok.1 h
      obtain ⟨timed, timing, h⟩ := bind_eq_ok.1 h
      cases h
      obtain ⟨gameInfo, info, update⟩ := bind_eq_ok.1 update
      obtain ⟨present, rfl⟩ := update_eq_ok.1 (liftError_eq_ok.1 info)
      cases update
      obtain ⟨timeout, found, timing⟩ := bind_eq_ok.1 timing
      obtain ⟨written, writing, timing⟩ := bind_eq_ok.1 timing
      obtain ⟨timeouts, added, timing⟩ := bind_eq_ok.1 timing
      obtain ⟨_, rfl⟩ := update_eq_ok.1 (liftError_eq_ok.1 added)
      cases write_eq_ok (liftRun_eq_ok.1 writing)
      cases timing
      exact .inr ⟨rfl, newGame, timeout, liftError_eq_ok.1 moved, present,
        get_eq_ok.1 (liftError_eq_ok.1 found), rfl⟩

end Move

end Games

def consumed (turns : List (Player × Nat)) (player : Player) : Int :=
  (turns.map fun turn => if turn.1 = player then (turn.2 : Int) else 0).sum

theorem consumed_cons (turns : List (Player × Nat)) (player mover : Player) (blocks : Nat) :
    consumed ((mover, blocks) :: turns) player =
      (if mover = player then (blocks : Int) else 0) + consumed turns player := by
  simp [consumed]

section Run
variable [LinearOrder T.Staker]

structure SameGame (stakers : Index T.Staker) (games games' : Games T) : Prop where
  info : games'.gameInfo.find stakers = games.gameInfo.find stakers
  game : games'.game.find (stakers.alice, stakers.bob) =
    games.game.find (stakers.alice, stakers.bob)
  timeout : games'.gameTimeout.find stakers = games.gameTimeout.find stakers

structure Budget (constants : Constants) (stakers : Index T.Staker) (level : Nat)
    (turns : List (Player × Nat)) (games : Games T)
    (game : Game.V1 T.toGameTypes) (timeout : Timeout) : Prop where
  indexed : games.game.find (stakers.alice, stakers.bob) = some stakers
  info : games.gameInfo.find stakers = some game
  timed : games.gameTimeout.find stakers = some timeout
  lastTurn : timeout.lastTurnLevel = level
  level_lt : level < 2 ^ 31
  left : ∀ player, timeout.left player =
    constants.timeoutPeriodInBlocks - consumed turns player

variable {constants : Constants} {stakers : Index T.Staker} {level : Nat} {rollup : Rollup T.toGameTypes}
  {turns : List (Player × Nat)} {s : Storage T}
  {games games' : Games T} {game : Game.V1 T.toGameTypes} {timeout : Timeout}

theorem Budget.findGame_eq (budget : Budget constants stakers level turns games game timeout) :
    findGame games stakers = some game := by
  rw [findGame, budget.indexed, Option.bind_some, budget.info]

theorem Budget.withGame (level_lt : level < 2 ^ 31) :
    Budget constants stakers level [] (withGame games stakers game (initialTimeout constants level))
      game (initialTimeout constants level) where
  indexed := by
    change ((games.game.add (stakers.alice, stakers.bob) stakers).add
      (stakers.bob, stakers.alice) stakers).find (stakers.alice, stakers.bob) = some stakers
    rw [find_add, find_add_self, ite_self]
  info := find_add_self _ _ _
  timed := find_add_self _ _ _
  lastTurn := rfl
  level_lt := level_lt
  left := by
    intro player
    cases player <;> exact (Int.sub_zero _).symm

theorem Budget.moved (budget : Budget constants stakers level turns games game timeout) {level' : Nat}
    (later : level ≤ level') (level_lt : level' < 2 ^ 31) {moved}
    {timeout' : Timeout} (move : Moved level' stakers games games' game moved timeout') :
    Budget constants stakers level' ((game.turn, level' - level) :: turns) games' moved
      (newTimeout level' timeout game.turn) := by
  cases budget.timed.symm.trans move.timed
  have taken : wrap32 ((level' : Int) - timeout.lastTurnLevel) = (level' - level : Nat) := by
    rw [budget.lastTurn, wrap32_of_fits (by omega) (by omega)]
    omega
  rw [move.written]
  refine ⟨budget.indexed, find_add_self _ _ _, find_add_self _ _ _, by cases game.turn <;> rfl, level_lt, ?_⟩
  intro player
  have left := budget.left player
  rw [consumed_cons]
  cases mover : game.turn <;> cases player <;>
    simp [newTimeout, Timeout.left, subBlockLeft, taken] at left ⊢ <;> omega

section
variable (budget : Budget constants stakers level turns games game timeout)
include budget

end

variable [DecidableEq T.CommitmentHash] [DecidableEq T.Hash]

/-- A game from its start: the level of the last turn, the completed turns with the blocks that each
of them took, the last one first, and the storage. An attempt to time out changes nothing as long as
it fails. -/
inductive GameRun (constants : Constants) (rollup : Rollup T.toGameTypes) (stakers : Index T.Staker) :
    Nat → List (Player × Nat) → Storage T → Games T → Prop
  | started {level : Nat} {snapshots : Snapshots T.DalHistory}
      {s : Storage T} {games games' : Games T}
      {player opponent : T.Staker} {playerHash opponentHash : T.CommitmentHash}
      (level_lt : level < 2 ^ 31) (between : Index.make player opponent = stakers)
      (returned : startGame constants level snapshots s games player playerHash opponent
        opponentHash = .ok games') :
      GameRun constants rollup stakers level [] s games'
  | moved {level level' : Nat} {turns : List (Player × Nat)}
      {s : Storage T} {games games' : Games T}
      {player opponent : T.Staker} {step : Step T.toGameTypes} {choice : Nat}
      {game : Game.V1 T.toGameTypes} (run : GameRun constants rollup stakers level turns s games)
      (later : level ≤ level') (level_lt : level' < 2 ^ 31) (between : Index.make player opponent = stakers)
      (found : getGame games stakers = .ok game)
      (returned : gameMove rollup level' s games player opponent step choice = .ok (none, games')) :
      GameRun constants rollup stakers level' ((game.turn, level' - level) :: turns) s games'
  | elsewhere {level : Nat} {turns : List (Player × Nat)}
      {s s' : Storage T}
      {games games' : Games T} (run : GameRun constants rollup stakers level turns s games)
      (same : SameGame stakers games games') :
      GameRun constants rollup stakers level turns s' games'

theorem GameRun.budget (run : GameRun constants rollup stakers level turns s games) :
    ∃ game timeout, Budget constants stakers level turns games game timeout := by
  induction run with
  | started level_lt between h =>
    obtain ⟨_, _, _, game, rfl⟩ := startGame_eq_ok h
    rw [between]
    exact ⟨game, _, .withGame level_lt⟩
  | moved run later level_lt between found h ih =>
    obtain ⟨game, timeout, budget⟩ := ih
    obtain ⟨game', found', _, step⟩ := gameMove_eq_ok h
    rw [between] at found' step
    cases budget.findGame_eq.symm.trans found'
    cases (getGame_eq_ok.1 found).symm.trans found'
    rcases step with ⟨⟨_, ended⟩, _⟩ | ⟨_, moved, timeout', _, move⟩
    · cases ended
    · exact ⟨moved, _, budget.moved later level_lt move⟩
  | elsewhere run same ih =>
    obtain ⟨game, timeout, budget⟩ := ih
    exact ⟨game, timeout, same.game.trans budget.indexed, same.info.trans budget.info,
      same.timeout.trans budget.timed, budget.lastTurn, budget.level_lt, budget.left⟩

end Run

def commitmentOf (staker : Nat) : symbolicTypes.Commitment where
  compressedState := staker
  inboxLevel := 2
  predecessor := genesisHash
  numberOfTicks := 8

def hashOf (staker : Nat) : SymbolicHash := .commitment staker 2 genesisHash 8

def conflictStorage : Storage symbolicTypes where
  ledger := ()
  whitelist := ∅
  lastCementedCommitment := some genesisHash
  commitments := (((add ∅ genesisHash symbolicGenesis).add (hashOf 1) (commitmentOf 1)).add
    (hashOf 2) (commitmentOf 2)).add (hashOf 3) (commitmentOf 3)
  commitmentAdded := (((add ∅ genesisHash 0).add (hashOf 1) 3).add (hashOf 2) 3).add
    (hashOf 3) 3
  commitmentFirstPublicationLevel := (add ∅ 0 0).add 2 3
  commitmentsPerInboxLevel :=
    (add ∅ 0 [genesisHash]).add 2 [hashOf 3, hashOf 2, hashOf 1]
  commitmentStakers := ((add ∅ (hashOf 1) [0]).add (hashOf 2) [1]).add (hashOf 3) [2]
  stakerIndexCounter := 3
  stakerIndex := ((add ∅ 1 0).add 2 1).add 3 2
  stakers := ((add ∅ 0 2).add 1 2).add 2 2

theorem conflictStorage_reached : Reached symbolicProtocol symbolicGenesis 3 conflictStorage
    [.published 3 (commitmentOf 3), .published 2 (commitmentOf 2), .published 1 (commitmentOf 1)] := by
  have start : Reached symbolicProtocol symbolicGenesis 0 _ [] :=
    .originated rfl (by decide) (show originate symbolicProtocol () ∅ symbolicGenesis = _ from rfl)
  have first := start.step (show (0 : Int) ≤ 3 by decide)
    (show applyOperation symbolicProtocol 3 _ (.publish 1 (commitmentOf 1)) = .ok (_, _) from rfl)
  have second := first.step (Int.le_refl 3)
    (show applyOperation symbolicProtocol 3 _ (.publish 2 (commitmentOf 2)) = .ok (_, _) from rfl)
  exact second.step (Int.le_refl 3)
    (show applyOperation symbolicProtocol 3 _ (.publish 3 (commitmentOf 3)) = _ from rfl)

def noGames : Games symbolicTypes := ⟨∅, ∅, ∅⟩

def snapshots : Snapshots Unit := ⟨SkipList.genesis ⟨[], 0⟩, ()⟩

end Octez.Proof.RollupStorage
