import Octez.Proof.RollupStorage.Timeouts

namespace Octez.Proof.RollupStorage
open Octez.Lib Octez.Game Octez.RollupStorage Index Table StakerIndex

variable {T : RollupTypes} [LinearOrder T.Staker]

theorem make_comm (a b : T.Staker) : make a b = make b a := by
  unfold make
  rcases lt_trichotomy a b with less | rfl | more
  · rw [if_neg (lt_asymm less), if_pos less]
  · rfl
  · rw [if_pos more, if_neg (lt_asymm more)]

theorem make_players (a b : T.Staker) : (make a b = ⟨a, b⟩) ∨ (make a b = ⟨b, a⟩) := by
  unfold make
  split
  · exact .inr rfl
  · exact .inl rfl

theorem make_eq_make {a b p q : T.Staker} :
    make a b = make p q ↔ (a = p ∧ b = q) ∨ (a = q ∧ b = p) := by
  constructor
  · intro same
    rcases make_players a b with left | left <;> rcases make_players p q with right | right <;>
      rw [left, right] at same <;> cases same <;> simp
  · rintro (⟨rfl, rfl⟩ | ⟨rfl, rfl⟩)
    · rfl
    · exact make_comm a b

theorem make_alice_bob (p q : T.Staker) :
    make (make p q).alice (make p q).bob = make p q := by
  rcases make_players p q with shape | shape <;> rw [shape]
  · exact shape
  · exact (make_comm q p).trans shape

theorem make_eq_iff_key {a b p q : T.Staker} :
    make a b = make p q ↔
      (a, b) = ((make p q).alice, (make p q).bob) ∨ (a, b) = ((make p q).bob, (make p q).alice) := by
  conv_lhs => rw [← make_alice_bob p q, make_eq_make]
  rw [Prod.mk.injEq, Prod.mk.injEq]

structure Consistent (games : Games T) : Prop where
  timeout : ∀ a b, games.gameInfo.mem (make a b) = true ↔
    games.gameTimeout.mem (make a b) = true
  game : ∀ a b, games.gameInfo.mem (make a b) = true ↔ games.game.mem (a, b) = true
  index : ∀ a b stakers, games.game.find (a, b) = some stakers → stakers = make a b

variable {games games' : Games T} {p q : T.Staker}

theorem Consistent.noGame (consistent : Consistent games) (different : p ≠ q)
    (absent : games.gameInfo.mem (make p q) = false) : NoGame games (make p q) := by
  have noEntry : ∀ a b, make a b = make p q → games.game.find (a, b) = none := by
    intro a b same
    apply mem_eq_false.1
    rw [← absent, ← same, Bool.eq_iff_iff]
    exact (consistent.game a b).symm
  refine ⟨mem_eq_false.1 absent, noEntry _ _ (make_alice_bob p q), ?_, ?_, ?_⟩
  · exact noEntry _ _ ((make_comm _ _).trans (make_alice_bob p q))
  · apply mem_eq_false.1
    rw [← absent, Bool.eq_iff_iff]
    exact (consistent.timeout p q).symm
  · rcases make_players p q with shape | shape <;> rw [shape]
    · exact different
    · exact different.symm

theorem Consistent.withGame (consistent : Consistent games) (game : Game.V1 T.toGameTypes)
    (timeout : Timeout) : Consistent (withGame games (make p q) game timeout) where
  timeout := by
    intro a b
    change (games.gameInfo.add _ _).mem _ = true ↔ (games.gameTimeout.add _ _).mem _ = true
    rw [mem_add, mem_add, consistent.timeout a b]
  game := by
    intro a b
    change (games.gameInfo.add _ _).mem _ = true ↔ ((games.game.add _ _).add _ _).mem (a, b) = true
    rw [mem_add, mem_add, mem_add, consistent.game a b, make_eq_iff_key, ← or_assoc, or_comm (a := (a, b) = _)]
  index := by
    intro a b stakers found
    change ((games.game.add _ _).add _ _).find (a, b) = some stakers at found
    rw [find_add, find_add] at found
    split at found
    · next backward =>
        cases found
        exact (make_eq_iff_key.2 (.inr backward)).symm
    · split at found
      · next forward =>
          cases found
          exact (make_eq_iff_key.2 (.inl forward)).symm
      · exact consistent.index a b stakers found

theorem Consistent.moved (consistent : Consistent games) {level : Nat} {game moved} {timeout : Timeout}
    (move : Moved level (make p q) games games' game moved timeout) : Consistent games' := by
  have info : ∀ stakers, games'.gameInfo.mem stakers = true ↔
      games.gameInfo.mem stakers = true := by
    intro stakers
    rw [move.written, mem_add]
    exact or_iff_right_of_imp fun same => same ▸ move.present
  have timeouts : ∀ stakers, games'.gameTimeout.mem stakers = true ↔
      games.gameTimeout.mem stakers = true := by
    intro stakers
    rw [move.written, mem_add]
    exact or_iff_right_of_imp fun same => same ▸ mem_eq_true.2 ⟨_, move.timed⟩
  have entries : games'.game = games.game := by rw [move.written]
  refine ⟨fun a b => ?_, fun a b => ?_, ?_⟩
  · rw [info, timeouts, consistent.timeout a b]
  · rw [info, entries, consistent.game a b]
  · rw [entries]
    exact consistent.index

def withoutGame (games : Games T) (stakers : Index T.Staker) : Games T :=
  { removeGame games stakers with gameTimeout := games.gameTimeout.remove stakers }

theorem Consistent.withoutGame (consistent : Consistent games) :
    Consistent (withoutGame games (make p q)) where
  timeout := by
    intro a b
    change (games.gameInfo.remove _).mem _ = true ↔ (games.gameTimeout.remove _).mem _ = true
    rw [mem_remove, mem_remove, consistent.timeout a b]
  game := by
    intro a b
    change (games.gameInfo.remove _).mem _ = true ↔ ((games.game.remove _).remove _).mem (a, b) = true
    rw [mem_remove, mem_remove, mem_remove, consistent.game a b, Ne,
      make_eq_iff_key, not_or, and_assoc, and_left_comm]
  index := by
    intro a b stakers found
    change ((games.game.remove _).remove _).find (a, b) = some stakers at found
    rw [find_remove, find_remove] at found
    split at found
    · cases found
    · split at found
      · cases found
      · exact consistent.index a b stakers found

theorem Consistent.ongoing (consistent : Consistent games) (staker : T.Staker) :
    ∃ ongoing, getOngoingGamesForStaker games staker = .ok ongoing := by
  have present : ∀ entry ∈ gamesOf games staker, ∃ game,
      games.gameInfo.find entry.2 = some game := by
    intro entry member
    obtain ⟨⟨⟨first, opponent⟩, stakers⟩, listed, kept⟩ := List.mem_filterMap.1 member
    split at kept
    · cases kept
      have found : games.game.find (first, opponent) = some stakers :=
        AList.mem_lookup_iff.2 listed
      rw [consistent.index _ _ _ found]
      exact mem_eq_true.1 ((consistent.game _ _).2 (mem_eq_true.2 ⟨_, found⟩))
    · cases kept
  refine (foldlM_returns (P := fun _ _ => True) trivial ?_).imp fun _ => And.left
  intro i entry state here _
  obtain ⟨game, found⟩ := present entry (List.mem_of_getElem? here)
  dsimp only
  rw [found]
  exact ⟨_, rfl, trivial⟩

def SomeoneActive (s : Storage T) (games : Games T) : Prop :=
  ∀ stakers, games.gameInfo.mem stakers = true → isStaker s stakers.alice = true ∨ isStaker s stakers.bob = true

variable {P : Protocol T} {rollup : Rollup T.toGameTypes}
  {allowed : Storage T → Games T → Prop} {genesis : T.Commitment} {level : Nat}
  {s s' : Storage T} {log : List (Event T)} {stakers : Index T.Staker} {result : GameResult T.Staker}

theorem migrate_eq (active : SomeoneActive s games) : migrateCleanRefutationGames s games = games := by
  have untouched : ∀ keys : List (Index T.Staker), (∀ stakers ∈ keys,
      isStaker s stakers.alice = true ∨ isStaker s stakers.bob = true) → keys.foldl (fun games stakers =>
        if !isStaker s stakers.alice && !isStaker s stakers.bob then
          removeGame games stakers
        else games) games = games := by
    intro keys
    induction keys with
    | nil => exact fun _ => rfl
    | cons stakers keys ih =>
      intro all
      obtain ⟨here, rest⟩ := List.forall_mem_cons.1 all
      have kept : ¬(!isStaker s stakers.alice &&
          !isStaker s stakers.bob) = true := by
        rcases here with alice | bob
        · simp [alice]
        · simp [bob]
      rw [List.foldl_cons, if_neg kept]
      exact ih rest
  apply untouched
  intro stakers member
  apply active
  rw [mem, find, AList.lookup_isSome]
  exact AList.mem_keys.2 member

theorem applyGameResult_eq_ok (h : applyGameResult P s games stakers result = .ok (s', games')) :
    applyStakes P s stakers result = .ok s' ∧ games' = withoutGame games stakers := by
  obtain ⟨middle, applied, h⟩ := bind_eq_ok.1 h
  cases h
  exact ⟨applied, rfl⟩

variable [DecidableEq T.CommitmentHash]

theorem removeIfStakerIsStillThere_reached {staker : T.Staker} {updates : Bool} {level : Int}
    (reached : Reached P genesis level s log)
    (h : removeIfStakerIsStillThere P s staker = .ok (s', updates)) :
    ∃ log', Reached P genesis level s' log' := by
  unfold removeIfStakerIsStillThere at h
  split at h
  · have applied : applyOperation P level s (.remove staker) = .ok (s', .left staker) := by
      rw [applyOperation, h, ok_bind]
      rfl
    exact ⟨_, reached.step (Int.le_refl level) applied⟩
  · cases h
    exact ⟨log, reached⟩

theorem applyStakes_reached {level : Int}
    (reached : Reached P genesis level s log) (h : applyStakes P s stakers result = .ok s') :
    ∃ log', Reached P genesis level s' log' := by
  cases result with
  | loser reason loser =>
    obtain ⟨⟨middle, updates⟩, removed, h⟩ := bind_eq_ok.1 h
    obtain ⟨log', reached'⟩ := removeIfStakerIsStillThere_reached reached removed
    dsimp only at h
    split at h
    · obtain ⟨ledger, _, h⟩ := bind_eq_ok.1 h
      cases h
      exact ⟨log', reached'.elsewhere ledger middle.whitelist⟩
    · cases h
      exact ⟨log', reached'⟩
  | draw =>
    obtain ⟨⟨middle, _⟩, first, h⟩ := bind_eq_ok.1 h
    obtain ⟨⟨last, _⟩, second, h⟩ := bind_eq_ok.1 h
    cases h
    obtain ⟨log', reached'⟩ := removeIfStakerIsStillThere_reached reached first
    exact removeIfStakerIsStillThere_reached reached' second

theorem checkConflictPoint_different (free : CollisionFree P) {level : Int}
    (reached : Reached P genesis level s log) {refuterHash defenderHash : T.CommitmentHash}
    {c} (checked : checkConflictPoint s p refuterHash q defenderHash = .ok c) : p ≠ q := by
  obtain ⟨refuterStaked, checked⟩ := unit_bind_eq_ok.1 checked
  obtain ⟨defenderStaked, checked⟩ := unit_bind_eq_ok.1 checked
  obtain ⟨c₁, found₁, checked⟩ := bind_eq_ok.1 checked
  obtain ⟨c₂, found₂, checked⟩ := bind_eq_ok.1 checked
  obtain ⟨hashes, checked⟩ := unit_bind_eq_ok.1 checked
  obtain ⟨predecessors, _⟩ := unit_bind_eq_ok.1 checked
  rintro rfl
  obtain ⟨lcc, older, inv⟩ := reached.invariant free
  have staked : ∀ {hash}, isStakedOn s p hash = true → ∃ index,
      s.stakerIndex.find p = some index ∧ index ∈ SetOutOfList.get s.commitmentStakers hash := by
    intro hash staked
    unfold isStakedOn at staked
    split at staked
    · cases staked
    · next index found => exact ⟨index, found, by simpa [SetOutOfList.mem] using staked⟩
  obtain ⟨index, found, staked₁⟩ := staked (errorUnless_eq_ok.1 refuterStaked)
  obtain ⟨_, found', staked₂⟩ := staked (errorUnless_eq_ok.1 defenderStaked)
  cases found.symm.trans found'
  have pending : ∀ {hash c'}, s.commitments.find hash = some c' →
      index ∈ SetOutOfList.get s.commitmentStakers hash → Pending s lcc.inboxLevel hash c' := by
    intro hash c' contents there
    exact inv.commitments.staked_pending free there (inv.commitments.addressed _ _ contents)
  have pending₁ := pending (getCommitmentUnsafe_eq_ok.1 found₁) staked₁
  have pending₂ := pending (getCommitmentUnsafe_eq_ok.1 found₂) staked₂
  have above : ∀ {hash c'}, Pending s lcc.inboxLevel hash c' → ∃ pred,
      P.commitmentHash pred = some c'.predecessor ∧
        c'.inboxLevel = pred.inboxLevel + P.constants.commitmentPeriodInBlocks := by
    intro hash c' pending
    rcases (inv.commitments.regular _ _ pending.contents).predecessor with rfl | found
    · have below := inv.commitments.linked.level_le inv.commitments.linked.genesis_mem
      exact absurd pending.above (Nat.not_lt.2 below)
    · exact found
  obtain ⟨pred₁, hashed₁, level₁⟩ := above pending₁
  obtain ⟨pred₂, hashed₂, level₂⟩ := above pending₂
  have samePredecessor : c₁.predecessor = c₂.predecessor := by simpa using predecessors
  cases free.injective pred₁ pred₂ _ hashed₁ (samePredecessor ▸ hashed₂)
  have listed₁ := pending₁.listed
  rw [level₁, ← level₂] at listed₁
  have sameHash := inv.stakers.single index _ _ _ listed₁ pending₂.listed staked₁ staked₂
  simp [sameHash] at hashes

variable [DecidableEq T.Hash]

/-- The states reached from a storage without games. A migration happens only in the states that
`allowed` admits. -/
inductive Played (P : Protocol T) (rollup : Rollup T.toGameTypes)
    (allowed : Storage T → Games T → Prop) (genesis : T.Commitment) : Nat → Storage T → Games T → Prop
  | noGames {level : Nat} {s : Storage T}
      {log : List (Event T)} (reached : Reached P genesis level s log) :
      Played P rollup allowed genesis level s ⟨∅, ∅, ∅⟩
  | stakes {level level' : Nat} {s s' : Storage T}
      {games : Games T} {operation : Operation T}
      {event : Event T} (played : Played P rollup allowed genesis level s games) (later : level ≤ level')
      (applied : applyOperation P level' s operation = .ok (s', event)) :
      Played P rollup allowed genesis level' s' games
  | elsewhere {level : Nat} {s : Storage T}
      {games : Games T} (played : Played P rollup allowed genesis level s games)
      (ledger : T.Ledger) (whitelist : Table T.Staker Unit) :
      Played P rollup allowed genesis level { s with ledger := ledger, whitelist := whitelist } games
  | started {level level' : Nat} {s : Storage T}
      {games games' : Games T} {snapshots : Snapshots T.DalHistory}
      {player opponent : T.Staker} {playerHash opponentHash : T.CommitmentHash}
      (played : Played P rollup allowed genesis level s games) (later : level ≤ level')
      (returned : startGame P.constants level' snapshots s games player playerHash opponent
        opponentHash = .ok games') :
      Played P rollup allowed genesis level' s games'
  | moved {level level' : Nat} {s : Storage T}
      {games games' : Games T} {player opponent : T.Staker}
      {step : Step T.toGameTypes} {choice : Nat}
      (played : Played P rollup allowed genesis level s games) (later : level ≤ level')
      (returned : gameMove rollup level' s games player opponent step choice = .ok (none, games')) :
      Played P rollup allowed genesis level' s games'
  | ended {level level' : Nat} {s s' : Storage T}
      {games games' games'' : Games T} {player opponent : T.Staker}
      {step : Step T.toGameTypes} {choice : Nat} {result : GameResult T.Staker}
      (played : Played P rollup allowed genesis level s games) (later : level ≤ level')
      (returned : gameMove rollup level' s games player opponent step choice = .ok (some result, games'))
      (applied : applyGameResult P s games' (make player opponent) result =
        .ok (s', games'')) :
      Played P rollup allowed genesis level' s' games''
  | timedOut {level level' : Nat} {s s' : Storage T}
      {games games' : Games T} {a b : T.Staker} {result : GameResult T.Staker}
      (played : Played P rollup allowed genesis level s games) (later : level ≤ level')
      (returned : RollupStorage.timeout level' games (make a b) = .ok result)
      (applied : applyGameResult P s games (make a b) result = .ok (s', games')) :
      Played P rollup allowed genesis level' s' games'
  | migrated {level level' : Nat} {s : Storage T}
      {games : Games T} (played : Played P rollup allowed genesis level s games) (later : level ≤ level')
      (admitted : allowed s games) :
      Played P rollup allowed genesis level' s (migrateCleanRefutationGames s games)

theorem Played.reached (played : Played P rollup allowed genesis level s games) :
    ∃ before : Int, before ≤ level ∧ ∃ log, Reached P genesis before s log := by
  induction played with
  | noGames reached => exact ⟨_, Int.le_refl _, _, reached⟩
  | stakes _ later applied ih =>
    obtain ⟨before, earlier, log, reached⟩ := ih
    exact ⟨_, Int.le_refl _, _, reached.step (Int.le_trans earlier (Int.ofNat_le.2 later)) applied⟩
  | elsewhere _ ledger whitelist ih =>
    obtain ⟨before, earlier, log, reached⟩ := ih
    exact ⟨before, earlier, log, reached.elsewhere ledger whitelist⟩
  | started _ later _ ih | moved _ later _ ih | migrated _ later _ ih =>
    obtain ⟨before, earlier, log, reached⟩ := ih
    exact ⟨before, Int.le_trans earlier (Int.ofNat_le.2 later), log, reached⟩
  | ended _ later _ applied ih | timedOut _ later _ applied ih =>
    obtain ⟨before, earlier, log, reached⟩ := ih
    exact ⟨before, Int.le_trans earlier (Int.ofNat_le.2 later),
      applyStakes_reached reached (applyGameResult_eq_ok applied).1⟩

theorem Played.consistent (played : Played P rollup SomeoneActive genesis level s games) :
    Consistent games := by
  induction played with
  | noGames => exact ⟨fun _ _ => Iff.rfl, fun _ _ => Iff.rfl, nofun⟩
  | stakes _ _ _ ih | elsewhere _ _ _ ih => exact ih
  | started _ _ h ih =>
    obtain ⟨_, _, _, game, rfl⟩ := startGame_eq_ok h
    exact ih.withGame game _
  | moved _ _ h ih =>
    obtain ⟨_, _, _, ⟨⟨_, ended⟩, _⟩ | ⟨_, _, _, _, move⟩⟩ := gameMove_eq_ok h
    · cases ended
    · exact ih.moved move
  | ended _ _ h applied ih =>
    obtain ⟨_, rfl⟩ := applyGameResult_eq_ok applied
    obtain ⟨_, _, _, ⟨_, rfl⟩ | ⟨running, _⟩⟩ := gameMove_eq_ok h
    · exact ih.withoutGame
    · cases running
  | timedOut _ _ _ applied ih =>
    obtain ⟨_, rfl⟩ := applyGameResult_eq_ok applied
    exact ih.withoutGame
  | migrated _ _ admitted ih =>
    rw [migrate_eq admitted]
    exact ih

theorem game_tables_agree (free : CollisionFree P)
    (played : Played P rollup SomeoneActive genesis level s games) : (∀ alice bob,
      (games.gameInfo.mem (Index.make alice bob) = true ↔
        games.gameTimeout.mem (Index.make alice bob) = true) ∧
      (games.gameInfo.mem (Index.make alice bob) = true ↔
        games.game.mem (alice, bob) = true ∧ games.game.mem (bob, alice) = true)) ∧
    (∀ staker, ∃ ongoing, getOngoingGamesForStaker games staker = .ok ongoing) ∧
    ∀ level' snapshots player playerHash opponent opponentHash commitments,
      startGameChecks P.constants s games player playerHash opponent opponentHash = .ok commitments →
      ∃ games', startGame P.constants level' snapshots s games player playerHash opponent
        opponentHash = .ok games' := by
  have consistent := played.consistent
  obtain ⟨_, _, log, reached⟩ := played.reached
  refine ⟨fun alice bob => ⟨consistent.timeout alice bob, ?_⟩, consistent.ongoing, ?_⟩
  · rw [← consistent.game alice bob, ← consistent.game bob alice, make_comm bob alice, and_self]
  · intro level' snapshots player playerHash opponent opponentHash commitments checked
    obtain ⟨absent, rest⟩ := unit_bind_eq_ok.1 checked
    obtain ⟨_, rest⟩ := unit_bind_eq_ok.1 rest
    obtain ⟨_, rest⟩ := unit_bind_eq_ok.1 rest
    obtain ⟨c, conflict, _⟩ := bind_eq_ok.1 rest
    have different := checkConflictPoint_different free reached conflict
    exact startGame_of_checks checked (consistent.noGame different (by simpa using absent))

def nextCommitmentOf (staker : Nat) : symbolicTypes.Commitment where
  compressedState := staker
  inboxLevel := 4
  predecessor := hashOf 3
  numberOfTicks := 8

def nextHashOf (staker : Nat) : SymbolicHash := .commitment staker 4 (hashOf 3) 8

/-- The stakers 1 and 2 lose against the staker 3 while they play against each other, and their game
is cleaned up by a migration: its timeout stays. -/
theorem migration_forgets_timeout : ∃ s games,
    Played symbolicProtocol (Game.Counter.rollup 0) (fun _ _ => True) symbolicGenesis 27 s games ∧
      games.gameInfo.mem ⟨1, 2⟩ = false ∧ games.gameTimeout.mem ⟨1, 2⟩ = true ∧
      (∃ commitments, startGameChecks smallConstants s games 1 (nextHashOf 1) 2 (nextHashOf 2) = .ok commitments) ∧
      startGame smallConstants 28 snapshots s games 1 (nextHashOf 1) 2 (nextHashOf 2) =
        .error (.error (.storage .existingKey)) := by
  have start : Played symbolicProtocol (Game.Counter.rollup 0) (fun _ _ => True) symbolicGenesis 3
      conflictStorage ⟨∅, ∅, ∅⟩ := .noGames conflictStorage_reached
  have first := start.started (show 3 ≤ 10 by decide) (show startGame smallConstants 10 snapshots
    conflictStorage _ 1 (hashOf 1) 2 (hashOf 2) = .ok _ from rfl)
  have second := first.started (le_refl 10) (show startGame smallConstants 10 snapshots
    conflictStorage _ 1 (hashOf 1) 3 (hashOf 3) = .ok _ from rfl)
  have third := second.started (le_refl 10) (show startGame smallConstants 10 snapshots
    conflictStorage _ 2 (hashOf 2) 3 (hashOf 3) = .ok _ from rfl)
  have firstLoss := third.timedOut (show 10 ≤ 25 by decide)
    (show RollupStorage.timeout 25 _ (make 1 3 : Index symbolicTypes.Staker) = .ok _ from rfl)
    (show applyGameResult symbolicProtocol _ _ _ _ = .ok (_, _) from rfl)
  have secondLoss := firstLoss.timedOut (le_refl 25)
    (show RollupStorage.timeout 25 _ (make 2 3 : Index symbolicTypes.Staker) = .ok _ from rfl)
    (show applyGameResult symbolicProtocol _ _ _ _ = .ok (_, _) from rfl)
  have migrated := secondLoss.migrated (show 25 ≤ 26 by decide) trivial
  have back := migrated.stakes (show 26 ≤ 27 by decide)
    (show applyOperation symbolicProtocol 27 _ (.publish 1 (nextCommitmentOf 1)) = .ok (_, _) from rfl)
  have both := back.stakes (le_refl 27)
    (show applyOperation symbolicProtocol 27 _ (.publish 2 (nextCommitmentOf 2)) = .ok (_, _) from rfl)
  exact ⟨_, _, both, rfl, rfl, ⟨_, rfl⟩, rfl⟩

theorem startedGame_tables_agree : ∃ games,
    Played symbolicProtocol (Game.Counter.rollup 0) SomeoneActive symbolicGenesis 10
      conflictStorage games ∧ games.gameInfo.mem ⟨1, 2⟩ = true ∧ games.game.mem (2, 1) = true ∧
    ∃ ongoing, getOngoingGamesForStaker games 2 = .ok ongoing := by
  have start : Played symbolicProtocol (Game.Counter.rollup 0) SomeoneActive symbolicGenesis 3
      conflictStorage ⟨∅, ∅, ∅⟩ := .noGames conflictStorage_reached
  have played := start.started (show 3 ≤ 10 by decide) (show startGame smallConstants 10 snapshots
    conflictStorage _ 1 (hashOf 1) 2 (hashOf 2) = .ok _ from rfl)
  obtain ⟨agree, ongoing, _⟩ := game_tables_agree symbolicProtocol_collisionFree played
  exact ⟨_, played, rfl, ((agree 1 2).2.1 rfl).2, ongoing 2⟩

end Octez.Proof.RollupStorage
