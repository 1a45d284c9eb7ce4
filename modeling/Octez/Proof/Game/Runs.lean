import Octez.Proof.Game.Honest

namespace Octez.Proof.Game
open Octez.Lib Octez.Game Octez.RefutationProof Octez.RefutationGame RefutationProof.Example

theorem opponent_ne (player : Player) : opponent player ≠ player := by
  cases player <;> decide

theorem opponent_eq_of_ne {player other : Player} (differ : player ≠ other) : opponent player = other := by
  cases player <;> cases other <;> first | rfl | contradiction

section
variable {G : GameTypes} {Staker : Type} [DecidableEq G.Hash]

/-- The games that are reached when the opponent only plays moves that are `allowed`. -/
inductive Reached (rollup : Rollup G) (node : Node G) (stakers : Index Staker) (honest : Player)
    (allowed : V1 G → Step G → Nat → Prop) (start : V1 G) : V1 G → Prop
  | start : Reached rollup node stakers honest allowed start start
  | answer {game next : V1 G} {move : Move G} :
      Reached rollup node stakers honest allowed start game → game.turn = honest →
      nextMove rollup node game = .ok move →
      play rollup stakers game move.step move.choice = .ok (.inr next) →
      Reached rollup node stakers honest allowed start next
  | attack {game next : V1 G} {step : Step G} {choice : Nat} :
      Reached rollup node stakers honest allowed start game → game.turn ≠ honest → allowed game step choice →
      play rollup stakers game step choice = .ok (.inr next) →
      Reached rollup node stakers honest allowed start next

/-- A proof is only played on a section that starts with a state. -/
def OnState (game : V1 G) (step : Step G) (choice : Nat) : Prop :=
  ∀ proof dissection sections, step = .proof proof → game.gameState = .dissecting dissection sections →
      ∀ chunk ∈ dissection, chunk.tick = choice → chunk.stateHash ≠ none

/-- The node has a move, which is accepted, and it is not beaten by it or by one of its opponent. -/
structure HonestSafe (rollup : Rollup G) (node : Node G) (stakers : Index Staker) (honest : Player)
    (game : V1 G) : Prop where
  answers : game.turn = honest → ∃ move result, nextMove rollup node game = .ok move ∧
    play rollup stakers game move.step move.choice = .ok result ∧
    ∀ reason, result ≠ .inl (.loser reason (stakers.staker honest))
  unbeaten : game.turn ≠ honest → ∀ step choice reason,
    play rollup stakers game step choice ≠ .ok (.inl (.loser reason (stakers.staker honest)))

/-- The chunks of the node are true, and those of its opponent are not all true. -/
def Position (node : Node G) (honest : Player) (game : V1 G) : Prop :=
  match game.gameState with
  | .dissecting dissection sections =>
    3 ≤ sections ∧ (game.turn = honest → Disputed node dissection) ∧
      (game.turn ≠ honest → Agreed node dissection)
  | .finalMove startChunk _ =>
    game.turn = honest ∧ startChunk.stateHash = nodeTruth node startChunk.tick ∧ startChunk.stateHash ≠ none

section Step
variable {rollup : Rollup G} {node : Node G} {stakers : Index Staker} {honest : Player} {game next : V1 G}

theorem position_answer (setting : Setting rollup node game) (position : Position node honest game)
    (turn : game.turn = honest) {move} (moved : nextMove rollup node game = .ok move)
    (played : play rollup stakers game move.step move.choice = .ok (.inr next)) :
    Setting rollup node next ∧ Position node honest next := by
  cases state : game.gameState with
  | dissecting dissection sections =>
    simp only [Position, state] at position
    obtain ⟨many, disputed, _⟩ := position
    rcases (disputed turn).answered stakers setting state many with
      ⟨choice, proof, moved', won⟩ | ⟨choice, made, moved', agreed, accepted⟩
    · cases moved.symm.trans moved'
      cases played.symm.trans won
    · cases moved.symm.trans moved'
      cases played.symm.trans accepted
      refine ⟨setting.moved _ _, many, ?_, fun _ => agreed⟩
      intro same
      exact absurd (same.trans turn.symm) (opponent_ne game.turn)
  | finalMove startChunk stopChunk =>
    simp only [Position, state] at position
    obtain ⟨_, startTrue, present⟩ := position
    obtain ⟨proof, won, moved', ended⟩ :=
      final_answered stakers setting state startTrue present
    cases moved.symm.trans moved'
    cases won <;> cases played.symm.trans ended

theorem position_attack (setting : Setting rollup node game) (position : Position node honest game)
    (turn : game.turn ≠ honest) {step} {choice : Nat}
    (onState : OnState game step choice) (played : play rollup stakers game step choice = .ok (.inr next)) :
    Setting rollup node next ∧ Position node honest next := by
  have nextTurn := opponent_eq_of_ne turn
  cases state : game.gameState with
  | finalMove startChunk stopChunk =>
    simp only [Position, state] at position
    exact absurd position.1 turn
  | dissecting dissection sections =>
    simp only [Position, state] at position
    obtain ⟨many, _, agreed⟩ := position
    cases step with
    | dissection states =>
      obtain ⟨disputed, ended⟩ := (agreed turn).dissected setting state played
      cases ended
      exact ⟨setting.moved _ _, many, fun _ => disputed, fun other => absurd nextTurn other⟩
    | proof proof =>
      obtain ⟨startChunk, stopChunk, inside, here, ended⟩ :=
        (agreed turn).proved setting state played
      cases ended
      exact ⟨setting.moved _ _, nextTurn, (agreed turn).allTrue startChunk inside,
        onState proof dissection sections rfl state startChunk inside here⟩

theorem staker_opponent_ne (differ : stakers.alice ≠ stakers.bob) (player : Player) :
    stakers.staker (opponent player) ≠ stakers.staker player := by
  cases player with
  | alice => exact differ.symm
  | bob => exact differ

theorem position_safe (differ : stakers.alice ≠ stakers.bob) (setting : Setting rollup node game)
    (position : Position node honest game) : HonestSafe rollup node stakers honest game := by
  have opponentLoses (turn : game.turn = honest) (reason : Reason) :
      (mkLoser stakers (opponent game.turn) : _ ⊕ V1 G) ≠ .inl (.loser reason (stakers.staker honest)) := by
    intro same
    have loser := (GameResult.loser.inj (Sum.inl.inj same)).2
    rw [turn] at loser
    exact staker_opponent_ne differ honest loser
  cases state : game.gameState with
  | finalMove startChunk stopChunk =>
    simp only [Position, state] at position
    obtain ⟨turn, startTrue, present⟩ := position
    obtain ⟨proof, won, moved, ended⟩ := final_answered stakers setting state startTrue present
    refine ⟨fun _ => ⟨_, _, moved, ended, ?_⟩, fun other => absurd turn other⟩
    cases won with
    | false => simp
    | true => exact opponentLoses turn
  | dissecting dissection sections =>
    simp only [Position, state] at position
    obtain ⟨many, disputed, agreed⟩ := position
    constructor
    · intro turn
      rcases (disputed turn).answered stakers setting state many with
        ⟨choice, proof, moved, won⟩ | ⟨choice, made, moved, _, accepted⟩
      · exact ⟨_, _, moved, won, opponentLoses turn⟩
      · exact ⟨_, _, moved, accepted, by simp⟩
    · intro turn step choice reason played
      cases step with
      | dissection states =>
        obtain ⟨_, ended⟩ := (agreed turn).dissected setting state played
        cases ended
      | proof proof =>
        obtain ⟨_, _, _, _, ended⟩ := (agreed turn).proved setting state played
        cases ended

end Step

section Run
variable {rollup : Rollup G} {node : Node G} {stakers : Index Staker} {honest : Player} {start game : V1 G}

theorem position_reached (setting : Setting rollup node start) (position : Position node honest start)
    (reached : Reached rollup node stakers honest OnState start game) :
    Setting rollup node game ∧ Position node honest game := by
  induction reached with
  | start => exact ⟨setting, position⟩
  | answer _ turn moved played ih => exact position_answer ih.1 ih.2 turn moved played
  | attack _ turn onState played ih => exact position_attack ih.1 ih.2 turn onState played

end Run

/-- Two commitments that are checked to be in conflict when a game starts. Commitments with the same
predecessor are published for the same inbox level. -/
structure Conflict (Hash CommitmentHash Staker : Type) where
  parent : Commitment Hash CommitmentHash
  refuterCommitment : Commitment Hash CommitmentHash
  defenderCommitment : Commitment Hash CommitmentHash
  refuter : Staker
  defender : Staker
  stakers_differ : refuter ≠ defender
  commitments_differ : refuterCommitment ≠ defenderCommitment
  same_predecessor : refuterCommitment.predecessor = defenderCommitment.predecessor
  same_inboxLevel : refuterCommitment.inboxLevel = defenderCommitment.inboxLevel
  refuter_ticks : 0 < refuterCommitment.numberOfTicks
  defender_ticks : 0 < defenderCommitment.numberOfTicks

/-- The commitment is the execution of the node, from the tick of its parent until it is stuck. -/
structure TrueCommitment {CommitmentHash : Type} (node : Node G)
    (parentTick : Nat) (parent commitment : Commitment G.Hash CommitmentHash) : Prop where
  parentState : nodeTruth node parentTick = some parent.compressedState
  state : nodeTruth node (parentTick + commitment.numberOfTicks) = some commitment.compressedState
  finished : nodeTruth node (parentTick + commitment.numberOfTicks + 1) = none

section Start
variable {CommitmentHash : Type} [LinearOrder Staker]

theorem make_differ {refuter defender : Staker} (differ : refuter ≠ defender) :
    (Index.make refuter defender).alice ≠ (Index.make refuter defender).bob := by
  unfold Index.make
  split
  · exact differ.symm
  · exact differ

namespace Conflict
variable (conflict : Conflict G.Hash CommitmentHash Staker)
omit [DecidableEq G.Hash]

def stakers : Index Staker := Index.make conflict.refuter conflict.defender

def start (inbox : octetTypes.HistoryProof) (dalSnapshot : G.DalHistory)
    (startLevel sections : Nat) : V1 G :=
  initial inbox dalSnapshot startLevel conflict.parent conflict.defenderCommitment conflict.refuter
    conflict.defender sections

def commitmentOf (player : Player) : Commitment G.Hash CommitmentHash :=
  if conflict.stakers.staker player = conflict.refuter then conflict.refuterCommitment
  else conflict.defenderCommitment

variable {inbox : octetTypes.HistoryProof} {dalSnapshot : G.DalHistory} {startLevel sections : Nat}
  {node : Node G}

theorem start_turn_iff (player : Player) :
    (conflict.start inbox dalSnapshot startLevel sections).turn = player ↔
      conflict.stakers.staker player = conflict.refuter := by
  have differ := conflict.stakers_differ
  simp only [start, initial, stakers, Index.make]
  by_cases swapped : conflict.defender < conflict.refuter
  · cases player <;> simp [swapped, differ.symm, Index.staker]
  · cases player <;> simp [swapped, differ.symm, Index.staker]

omit [LinearOrder Staker] in
theorem disagrees (own : TrueCommitment node 0 conflict.parent conflict.refuterCommitment)
    (agrees : nodeTruth node conflict.defenderCommitment.numberOfTicks =
      some conflict.defenderCommitment.compressedState) :
    nodeTruth node (conflict.defenderCommitment.numberOfTicks + 1) ≠ none := by
  have state := own.state
  have finished := own.finished
  rw [Nat.zero_add] at state finished
  have notLater : ¬ conflict.refuterCommitment.numberOfTicks + 1 ≤
      conflict.defenderCommitment.numberOfTicks := by
    intro later
    rw [nodeTruth, truth_eq_none_of_le later finished] at agrees
    cases agrees
  have notSame : conflict.refuterCommitment.numberOfTicks ≠
      conflict.defenderCommitment.numberOfTicks := by
    intro same
    apply conflict.commitments_differ
    rw [← same, state] at agrees
    exact Commitment.ext (Option.some.inj agrees) conflict.same_inboxLevel conflict.same_predecessor same
  intro stuck
  have early : conflict.defenderCommitment.numberOfTicks + 1 ≤
      conflict.refuterCommitment.numberOfTicks := by omega
  rw [nodeTruth, truth_eq_none_of_le early stuck] at state
  cases state

omit [LinearOrder Staker] in
theorem start_ordered : [(⟨some conflict.parent.compressedState, Tick.initial⟩ : G.DissectionChunk),
      ⟨some conflict.defenderCommitment.compressedState, conflict.defenderCommitment.numberOfTicks⟩,
      ⟨none, Tick.next conflict.defenderCommitment.numberOfTicks⟩].Pairwise Follows := by
  have positive := conflict.defender_ticks
  simp [Follows, Tick.initial, Tick.next, positive]

theorem start_position {honest : Player} (many : 3 ≤ sections)
    (own : TrueCommitment node 0 conflict.parent (conflict.commitmentOf honest)) :
    Position node honest (conflict.start inbox dalSnapshot startLevel sections) := by
  have parentState := own.parentState
  refine ⟨many, ?_, ?_⟩
  · intro turn
    rw [commitmentOf, if_pos ((conflict.start_turn_iff honest).1 turn)] at own
    refine ⟨conflict.start_ordered, ⟨_, _, rfl, parentState.symm, by simp⟩, ?_⟩
    by_cases agrees : nodeTruth node conflict.defenderCommitment.numberOfTicks =
        some conflict.defenderCommitment.compressedState
    · exact ⟨⟨none, Tick.next conflict.defenderCommitment.numberOfTicks⟩, by simp,
        (conflict.disagrees own agrees).symm⟩
    · exact ⟨⟨some conflict.defenderCommitment.compressedState,
        conflict.defenderCommitment.numberOfTicks⟩, by simp, Ne.symm agrees⟩
  · intro turn
    rw [ne_eq, conflict.start_turn_iff] at turn
    rw [commitmentOf, if_neg turn] at own
    have state := own.state
    have finished := own.finished
    rw [Nat.zero_add] at state finished
    refine ⟨conflict.start_ordered, ?_⟩
    simp [parentState, state, finished, Tick.initial, Tick.next]

end Conflict

/-- In every game on the genesis commitment in which the opponent only plays proofs on sections that
start with a state, the node always has a move, which is accepted, and it never loses. -/
theorem honest_player_safe {rollup : Rollup G} {node : Node G} {inbox : octetTypes.HistoryProof}
    {dalSnapshot : G.DalHistory} {startLevel sections parentTick : Nat} {honest : Player}
    (conflict : Conflict G.Hash CommitmentHash Staker)
    (setting : Setting rollup node (conflict.start inbox dalSnapshot startLevel sections))
    (many : 3 ≤ sections)
    (own : TrueCommitment node parentTick conflict.parent (conflict.commitmentOf honest))
    (onGenesis : parentTick = 0) {game : V1 G}
    (reached : Reached rollup node conflict.stakers honest OnState
      (conflict.start inbox dalSnapshot startLevel sections) game) :
    HonestSafe rollup node conflict.stakers honest game := by
  subst onGenesis
  have position : Position node honest (conflict.start inbox dalSnapshot startLevel sections) :=
    conflict.start_position many own
  obtain ⟨setting, position⟩ := position_reached setting position reached
  exact position_safe (make_differ conflict.stakers_differ) setting position

end Start

end

namespace Counter
variable {limit : Nat}

def node (limit : Nat) : Node types where
  genesis := 0
  step := step limit
  stateHash := id
  withState state := { withState with state }

theorem produced {params : Parameters} (state : Nat) :
    produce environment (pvm limit) params ((node limit).withState state) = .ok (proofOf limit state) := by
  by_cases below : state < limit <;>
    simp [produce, node, pvm, requestedInput, serializePvmStep, proofOf, below]

theorem setting {game : V1 types} (level : game.inboxLevel = 0) :
    Setting (rollup limit) (node limit) game where
  checks := rfl
  trueSteps := trueSteps level
  produces state :=
    ⟨proofOf limit state, state, _, produced state, unserialized state, rfl, proofValid_eq level state⟩

-- The machine stops at 1; the defender claims that it goes on to tick 5.
def overclaimed : Conflict types.Hash Unit Nat where
  parent := ⟨0, 0, (), 0⟩
  refuterCommitment := ⟨1, 0, (), 1⟩
  defenderCommitment := ⟨9, 0, (), 5⟩
  refuter := 1
  defender := 2
  stakers_differ := by decide
  commitments_differ := by decide
  same_predecessor := rfl
  same_inboxLevel := rfl
  refuter_ticks := by decide
  defender_ticks := by decide

-- The machine stops at 3, and the parent commitment is its state at tick 1.
def onLaterParent : Conflict types.Hash Unit Nat where
  parent := ⟨1, 0, (), 1⟩
  refuterCommitment := ⟨3, 0, (), 2⟩
  defenderCommitment := ⟨9, 0, (), 2⟩
  refuter := 1
  defender := 2
  stakers_differ := by decide
  commitments_differ := by decide
  same_predecessor := rfl
  same_inboxLevel := rfl
  refuter_ticks := by decide
  defender_ticks := by decide

def begin (conflict : Conflict types.Hash Unit Nat) : V1 types :=
  conflict.start withState.inbox () 0 3

-- The dissection that the refuter answers the overclaim with.
def dissected : V1 types :=
  { begin overclaimed with
      turn := .bob
      gameState := .dissecting [⟨some 0, 0⟩, ⟨none, 2⟩, ⟨none, 3⟩, ⟨none, 5⟩] 3 }

theorem reached_dissected {allowed : V1 types → Step types → Nat → Prop} :
    Reached (rollup 1) (node 1) overclaimed.stakers .alice allowed (begin overclaimed) dissected :=
  .answer .start rfl rfl rfl

theorem overclaimed_true :
    TrueCommitment (node 1) 0 overclaimed.parent (overclaimed.commitmentOf .alice) :=
  ⟨rfl, rfl, rfl⟩

end Counter

open Counter

theorem counter_overclaim_safe :
    HonestSafe (rollup 1) (node 1) overclaimed.stakers .alice
      { dissected with turn := .alice, gameState := .finalMove ⟨some 0, 0⟩ ⟨none, 2⟩ } := by
  have attacked : play (rollup 1) overclaimed.stakers dissected (.proof ⟨[], none⟩) 0 =
      .ok (.inr { dissected with turn := .alice, gameState := .finalMove ⟨some 0, 0⟩ ⟨none, 2⟩ }) :=
    rfl
  have onState : OnState dissected (.proof ⟨[], none⟩ : Step types) 0 := by
    rintro _ _ _ _ ⟨⟩ chunk inside here
    simp only [List.mem_cons, List.not_mem_nil, or_false] at inside
    rcases inside with rfl | rfl | rfl | rfl
    · simp
    all_goals cases here
  exact honest_player_safe overclaimed (setting rfl) (by decide) overclaimed_true rfl
    (.attack reached_dissected (by decide) onState attacked)

/-- A proof on a section without states stops the node, and on a later parent its dissections are
false: the node reads the ticks of the game as if they were counted from the genesis. -/
theorem counter_node_stopped_and_beaten : (Setting (rollup 1) (node 1) (begin overclaimed) ∧
      TrueCommitment (node 1) 0 overclaimed.parent (overclaimed.commitmentOf .alice) ∧
      ∃ game, Reached (rollup 1) (node 1) overclaimed.stakers .alice (fun _ _ _ => True)
          (begin overclaimed) game ∧ game.turn = .alice ∧
        nextMove (rollup 1) (node 1) game =
          tzfail .unreliableTezosNodeReturningInconsistentGame) ∧
    Setting (rollup 3) (node 3) (begin onLaterParent) ∧
      TrueCommitment (node 3) 1 onLaterParent.parent (onLaterParent.commitmentOf .alice) ∧
      ∃ game proof, Reached (rollup 3) (node 3) onLaterParent.stakers .alice (fun _ _ _ => True)
          (begin onLaterParent) game ∧
        play (rollup 3) onLaterParent.stakers game (.proof proof) 0 =
          .ok (.inl (.loser .conflictResolved (onLaterParent.stakers.staker .alice))) := by
  refine ⟨⟨setting rfl, overclaimed_true, ?_⟩, setting rfl, ⟨rfl, rfl, rfl⟩, ?_⟩
  · have attacked : play (rollup 1) overclaimed.stakers dissected (.proof ⟨[], none⟩) 2 =
        .ok (.inr { dissected with turn := .alice, gameState := .finalMove ⟨none, 2⟩ ⟨none, 3⟩ }) :=
      rfl
    exact ⟨_, .attack reached_dissected (by decide) trivial attacked, rfl, rfl⟩
  · exact ⟨{ begin onLaterParent with
      turn := .bob, gameState := .dissecting [⟨some 1, 0⟩, ⟨some 1, 1⟩, ⟨some 2, 2⟩] 3 },
      ⟨[0], none⟩, .answer .start rfl rfl rfl, rfl⟩

end Octez.Proof.Game
