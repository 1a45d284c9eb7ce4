import Octez.Proof.Game.Moves
import Octez.Proof.RefutationProof

namespace Octez.Proof.Game
open Octez.Lib Octez.Game Octez.RefutationProof

section
variable {G : GameTypes} {Staker : Type} [DecidableEq G.Hash] {rollup : Rollup G}
  {stakers : Index Staker} {game : V1 G}
  {step : G.State → Option G.State} {hash : G.State → G.Hash} {startChunk stopChunk : G.DissectionChunk}

theorem second_final_move_wins_iff (stakers : Index Staker)
    (trueSteps : TrueSteps rollup step hash (proofValid rollup game))
    (final : game.gameState = .finalMove startChunk stopChunk) :
    (∃ proof choice, play rollup stakers game (.proof proof) choice =
        .ok (mkLoser stakers (opponent game.turn))) ↔
      ∃ state, startChunk.stateHash = some (hash state) ∧ stopChunk.stateHash = (step state).map hash := by
  simp only [play_proof_final_iff final]
  constructor
  · rintro ⟨proof, _, pvmStep, won, _, checked, ended⟩
    cases won with
    | false => cases ended
    | true =>
      obtain ⟨_, start, input, request, verified, stop⟩ := validityFinalMove_iff.1 checked
      obtain ⟨state, starts, stops⟩ := trueSteps.sound verified
      refine ⟨state, starts ▸ start, ?_⟩
      rw [← stops]
      simpa using stop
  · rintro ⟨state, start, stop⟩
    obtain ⟨proof, pvmStep, unserialized, starts, ⟨input, request⟩, verified⟩ :=
      trueSteps.complete state
    obtain ⟨same, starts', stops⟩ := trueSteps.sound verified
    have same_state : same = state := trueSteps.hash_injective (starts'.symm.trans starts)
    subst same_state
    refine ⟨proof, 0, pvmStep, true, unserialized, validityFinalMove_iff.2 ?_, rfl⟩
    exact ⟨by simp, starts ▸ start, input, request, verified, by simp [stop, stops]⟩

theorem second_final_move_draws {reply} {tick : Nat} {result}
    (final : game.gameState = .finalMove startChunk stopChunk)
    (lost : ¬ ∃ proof choice, play rollup stakers game (.proof proof) choice =
      .ok (mkLoser stakers (opponent game.turn)))
    (answered : play rollup stakers game (.proof reply) tick = .ok result) : result = .inl .draw := by
  obtain ⟨_, won, _, _, ended⟩ := (play_proof_final_iff final).1 answered
  cases won with
  | false => exact ended
  | true =>
    rw [ended] at answered
    exact absurd ⟨reply, tick, answered⟩ lost

theorem second_final_move_wins_iff_truth (stakers : Index Staker) {start : G.State}
    (trueSteps : TrueSteps rollup step hash (proofValid rollup game))
    (final : game.gameState = .finalMove startChunk stopChunk)
    (startTrue : startChunk.stateHash = truth step hash start startChunk.tick) :
    (∃ proof choice, play rollup stakers game (.proof proof) choice =
        .ok (mkLoser stakers (opponent game.turn))) ↔
      startChunk.stateHash ≠ none ∧ stopChunk.stateHash = truth step hash start (startChunk.tick + 1) := by
  rw [second_final_move_wins_iff stakers trueSteps final]
  constructor
  · rintro ⟨state, here, next⟩
    refine ⟨by simp [here], ?_⟩
    rw [next, truth_next trueSteps.hash_injective (startTrue.symm.trans here)]
  · rintro ⟨present, next⟩
    rw [startTrue, Option.ne_none_iff_exists'] at present
    obtain ⟨_, present⟩ := present
    obtain ⟨state, reached, rfl⟩ := Option.map_eq_some_iff.1 present
    refine ⟨state, startTrue.trans present, ?_⟩
    rw [next, truth, after_succ_of_some reached]

/-- A move of the player on turn that `play` accepts, and that does not end the game. -/
def Accepted (rollup : Rollup G) (stakers : Index Staker) (game next : V1 G) : Prop :=
  ∃ move choice, play rollup stakers game move choice = .ok (.inr next)

theorem Accepted.eq {next} (accepted : Accepted rollup stakers game next) :
    ∃ turn gameState, next = { game with turn, gameState } := by
  obtain ⟨move, choice, played⟩ := accepted
  cases state : game.gameState with
  | dissecting dissection sections =>
    cases move with
    | dissection states =>
      obtain ⟨_, _, _, _, ended⟩ := (play_dissection_iff state).1 played
      exact ⟨_, _, Sum.inr.inj ended⟩
    | proof proof =>
      obtain ⟨_, _, _, won, _, _, _, ended⟩ := (play_proof_iff state).1 played
      cases won with
      | true => cases ended
      | false => exact ⟨_, _, Sum.inr.inj ended⟩
  | finalMove startChunk stopChunk =>
    cases move with
    | dissection states => simp [play, state] at played
    | proof proof =>
      obtain ⟨_, won, _, _, ended⟩ := (play_proof_final_iff state).1 played
      cases won <;> cases ended

theorem proofValid_reached {first} (reached : Relation.ReflTransGen (Accepted rollup stakers) first game) :
    proofValid rollup game = proofValid rollup first := by
  induction reached with
  | refl => rfl
  | tail _ accepted ih =>
    obtain ⟨_, _, rfl⟩ := accepted.eq
    rw [← ih]
    rfl

/-- In every game that is reached, after a proof that does not win on true chunks, their player wins
exactly when the section starts with a state, and stops where the step from that state does.
Otherwise it can only draw. -/
theorem final_move_won_iff {CommitmentHash : Type} [LinearOrder Staker]
    {inbox : octetTypes.HistoryProof} {dalSnapshot : G.DalHistory}
    {startLevel defaultNumberOfSections : Nat} {parent defenderCommitment : Commitment G.Hash CommitmentHash}
    {refuter defender : Staker} {start : G.State} {dissection : List G.DissectionChunk}
    {sections choice : Nat} {proof : Proof Octets G.DalProof} {moved : V1 G}
    (trueSteps : TrueSteps rollup step hash (proofValid rollup
      (initial inbox dalSnapshot startLevel parent defenderCommitment refuter defender
        defaultNumberOfSections)))
    (reached : Relation.ReflTransGen (Accepted rollup (Index.make refuter defender))
      (initial inbox dalSnapshot startLevel parent defenderCommitment refuter defender
        defaultNumberOfSections) game) (dissecting : game.gameState = .dissecting dissection sections)
    (allTrue : AllTrue step hash start dissection)
    (played : play rollup (Index.make refuter defender) game (.proof proof) choice = .ok (.inr moved)) :
    ∃ startChunk stopChunk,
      (findChoice choice dissection : G.Result _) =
        .ok (startChunk, stopChunk) ∧ moved.gameState = .finalMove startChunk stopChunk ∧
      ((∃ reply tick, play rollup (Index.make refuter defender) moved (.proof reply) tick =
          .ok (mkLoser (Index.make refuter defender) (opponent moved.turn))) ↔
        startChunk.stateHash ≠ none ∧ stopChunk.stateHash = truth step hash start (startChunk.tick + 1)) ∧
      (¬ (startChunk.stateHash ≠ none ∧ stopChunk.stateHash = truth step hash start (startChunk.tick + 1)) →
        ∀ reply tick result,
          play rollup (Index.make refuter defender) moved (.proof reply) tick = .ok result →
            result = .inl .draw) := by
  obtain ⟨startChunk, stopChunk, pvmStep, won, found, _, _, ended⟩ :=
    (play_proof_iff dissecting).1 played
  have inside : startChunk ∈ dissection := by
    obtain ⟨_, front, back, rfl⟩ := findChoice_split found
    simp
  cases won with
  | true => cases ended
  | false =>
    have moved_eq := Sum.inr.inj ended
    have final : moved.gameState = .finalMove startChunk stopChunk := by rw [moved_eq]
    have movedChecks := proofValid_reached (reached.tail ⟨_, _, played⟩)
    rw [← movedChecks] at trueSteps
    have wins := second_final_move_wins_iff_truth (Index.make refuter defender) trueSteps final
      (allTrue startChunk inside)
    refine ⟨startChunk, stopChunk, found, final, wins, ?_⟩
    intro lost reply tick result answered
    exact second_final_move_draws final (fun won => lost (wins.1 won)) answered

end

namespace Counter

abbrev types : GameTypes := ⟨Nat, Nat, Nat, Unit, Unit, Unit⟩
open Octez.Proof.RefutationProof.Example

-- A machine that counts up to a limit, and then waits for an input that never comes.
def step (limit state : Nat) : Option Nat := if state < limit then some (state + 1) else none

def pvm (limit : Nat) : Pvm Nat Nat Unit where
  isInputState _ state := if state < limit then .noInputRequired else .initial
  produceProof _ _ state := .ok state
  verifyProof _ input state :=
    match input with
    | some _ => tzfail ()
    | none => .ok (if state < limit then .noInputRequired else .initial)
  proofToString state := some (List.replicate state 0)
  proofOfString octets := some octets.length

def rollup (limit : Nat) : Rollup types where
  environment := environment
  pvm := pvm limit
  proofStartState state := state
  proofStopState state := state + 1
  checkDissection := arithCheckDissection
  parameters := parameters

variable {limit : Nat} {game : V1 types}

theorem unserialized (state : Nat) :
    unserializePvmStep (pvm limit) (List.replicate state 0) = .ok state := by
  simp [unserializePvmStep, pvm]

-- The proof that the node gives for a state.
def proofOf (limit state : Nat) : Proof Octets Unit :=
  ⟨List.replicate state 0, if state < limit then none else some .firstInboxMessage⟩

theorem proofValid_eq (level : game.inboxLevel = 0) (state : Nat) :
    proofValid (rollup limit) game ⟨state, (proofOf limit state).inputProof⟩ =
      .ok (none, if state < limit then .noInputRequired else .initial) := by
  by_cases below : state < limit
  · simp [proofValid, valid, proofOf, rollup, pvm, provenInput, checkRequest, below]
  · simp [proofValid, valid, proofOf, rollup, pvm, provenInput, checkRequest, below, firstInput,
      cutAtLevel, level]

theorem trueSteps (level : game.inboxLevel = 0) :
    TrueSteps (rollup limit) (step limit) id (proofValid (rollup limit) game) where
  hash_injective := Function.injective_id
  sound := by
    intro proof input request verified
    obtain ⟨given, _, verified⟩ := bind_eq_ok.1 verified
    obtain ⟨requested, stepped, verified⟩ := bind_eq_ok.1 verified
    obtain ⟨_, _, verified⟩ := bind_eq_ok.1 verified
    cases verified
    refine ⟨proof.pvmStep, rfl, ?_⟩
    generalize given.bind _ = input at stepped
    cases input with
    | some input => cases stepped
    | none =>
      cases stepped
      by_cases below : proof.pvmStep < limit <;> simp [stopProof, step, rollup, below]
  complete := by
    intro state
    exact ⟨proofOf limit state, state, unserialized state, rfl, _, proofValid_eq level state⟩

theorem after_step (state n : Nat) :
    after (step limit) state n = if n = 0 ∨ state + n ≤ limit then some (state + n) else none := by
  induction n with
  | zero => rfl
  | succ n ih =>
    rw [after_succ, ih]
    by_cases within : state + n < limit
    · rw [if_pos (by omega), if_pos (by omega), Option.bind_some, step, if_pos within]
      rfl
    · rw [if_neg (show ¬ (n + 1 = 0 ∨ state + (n + 1) ≤ limit) by omega)]
      split
      · rw [Option.bind_some, step, if_neg within]
      · rfl

-- The first staker refutes a commitment of the second one, on the genesis commitment.
def start (claimed ticks : Nat) : V1 types :=
  initial withState.inbox () 0 (⟨0, 0, (), 0⟩ : Commitment Nat Unit) ⟨claimed, 0, (), ticks⟩ 1 2 3

def stakers : Index Nat := Index.make 1 2

theorem start_allTrue (limit : Nat) :
    AllTrue (step limit) id 0 [⟨some 0, 0⟩, ⟨some limit, limit⟩, ⟨none, limit + 1⟩] := by
  simp [AllTrue, truth, after_step]

end Counter

open Counter

theorem counter_short_section_won :
    ∃ reply tick, play (rollup 1) stakers
      { start 1 1 with turn := .bob, gameState := .finalMove ⟨some 0, 0⟩ ⟨some 1, 1⟩ }
      (.proof reply) tick = .ok (mkLoser stakers .alice) := by
  have played : play (rollup 1) stakers (start 1 1) (.proof ⟨[0], none⟩) 0 =
      .ok (.inr { start 1 1 with turn := .bob,
                                 gameState := .finalMove ⟨some 0, 0⟩ ⟨some 1, 1⟩ }) := rfl
  obtain ⟨startChunk, stopChunk, found, final, wins, _⟩ :=
    final_move_won_iff (trueSteps rfl) .refl rfl (start_allTrue 1) played
  cases final
  exact wins.2 ⟨by simp, by rw [truth, after_step]; rfl⟩

/-- A proof on a section of length two forces a draw on a player with only true chunks. -/
theorem counter_long_section_drawn :
    TrueSteps (rollup 2) (step 2) id (proofValid (rollup 2) (start 2 2)) ∧
    (∃ dissection sections, (start 2 2).gameState = .dissecting dissection sections ∧
      AllTrue (step 2) id 0 dissection) ∧
    ∃ moved, play (rollup 2) stakers (start 2 2) (.proof ⟨[], none⟩) 0 = .ok (.inr moved) ∧
      (¬ ∃ reply tick, play (rollup 2) stakers moved (.proof reply) tick =
        .ok (mkLoser stakers (opponent moved.turn))) ∧
      ∀ reply tick result, play (rollup 2) stakers moved (.proof reply) tick = .ok result →
        result = .inl .draw := by
  refine ⟨trueSteps rfl, ⟨_, _, rfl, start_allTrue 2⟩, ?_⟩
  refine ⟨{ start 2 2 with turn := .bob, gameState := .finalMove ⟨some 0, 0⟩ ⟨some 2, 2⟩ }, rfl, ?_⟩
  have lost : ¬ ∃ reply tick, play (rollup 2) stakers
      { start 2 2 with turn := .bob, gameState := .finalMove ⟨some 0, 0⟩ ⟨some 2, 2⟩ }
      (.proof reply) tick = .ok (mkLoser stakers .alice) := by
    intro won
    obtain ⟨state, here, next⟩ :=
      (second_final_move_wins_iff stakers (trueSteps rfl) rfl).1 won
    cases here
    revert next
    decide
  exact ⟨lost, fun reply tick result => second_final_move_draws rfl lost⟩

end Octez.Proof.Game
