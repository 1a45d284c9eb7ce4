import Octez.Lib.PartialStep
import Octez.Model.Game

namespace Octez.Proof.Game
open Octez.Lib Octez.Game Octez.RefutationProof

section Choices
variable {G : GameTypes} {dissection : List G.DissectionChunk}
  {startChunk stopChunk : G.DissectionChunk} {choice : Nat}

theorem findChoice_split (found : (findChoice choice dissection : G.Result _) =
      .ok (startChunk, stopChunk)) :
    startChunk.tick = choice ∧ ∃ front back, dissection = front ++ startChunk :: stopChunk :: back := by
  induction dissection with
  | nil => cases found
  | cons curr dissection ih =>
    cases dissection with
    | nil => cases found
    | cons next others =>
      rw [findChoice] at found
      split at found
      case isTrue chosen =>
        cases found
        exact ⟨chosen.symm, [], others, rfl⟩
      case isFalse =>
        obtain ⟨here, front, back, split⟩ := ih found
        exact ⟨here, curr :: front, back, by rw [split]; rfl⟩

theorem findChoice_of_split {front back}
    (increasing : (front ++ startChunk :: stopChunk :: back).Pairwise fun a b => a.tick < b.tick) :
    (findChoice startChunk.tick (front ++ startChunk :: stopChunk :: back) :
      G.Result _) = .ok (startChunk, stopChunk) := by
  induction front with
  | nil => exact if_pos rfl
  | cons curr front ih =>
    obtain ⟨first, increasing⟩ := List.pairwise_cons.1 increasing
    have earlier : curr.tick < startChunk.tick := first startChunk (by simp)
    rw [← ih increasing]
    cases front with
    | nil | cons next front => exact if_neg (Nat.ne_of_gt earlier)

end Choices

section Truth
variable {Hash State : Type} {step : State → Option State} {hash : State → Hash}

def truth (step : State → Option State) (hash : State → Hash) (start : State) (tick : Nat) : Option Hash :=
  (after step start tick).map hash

def AllTrue (step : State → Option State) (hash : State → Hash) (start : State)
    (dissection : List (DissectionChunk Hash)) : Prop :=
  ∀ chunk ∈ dissection, chunk.stateHash = truth step hash start chunk.tick

theorem truth_next {start state : State} {tick : Nat} (injective : Function.Injective hash)
    (here : truth step hash start tick = some (hash state)) :
    truth step hash start (tick + 1) = (step state).map hash := by
  obtain ⟨reached, at_tick, same⟩ := Option.map_eq_some_iff.1 here
  rw [injective same] at at_tick
  rw [truth, after_succ_of_some at_tick]

theorem truth_eq_none_of_le {start : State} {earlier later : Nat} (le : earlier ≤ later)
    (stuck : truth step hash start earlier = none) : truth step hash start later = none := by
  rw [truth, Option.map_eq_none_iff] at *
  exact after_eq_none_of_le le stuck

end Truth

variable {G : GameTypes} {Staker : Type} [DecidableEq G.Hash]

/-- What the checks of a proof are taken to be: a proof is accepted exactly when it is that of the
one-tick step from its start state. -/
structure TrueSteps (rollup : Rollup G) (step : G.State → Option G.State) (hash : G.State → G.Hash)
    (valid : Proof G.PvmProof G.DalProof →
      TzResult (RefutationProof.Error G.External) (Option Input × InputRequest)) : Prop where
  hash_injective : Function.Injective hash
  sound : ∀ {proof input request}, valid proof = .ok (input, request) →
    ∃ state, rollup.proofStartState proof.pvmStep = hash state ∧
      stopProof rollup input request proof.pvmStep = (step state).map hash
  complete : ∀ state, ∃ (proof : Proof Octets G.DalProof) (pvmStep : G.PvmProof),
    unserializePvmStep rollup.pvm proof.pvmStep = .ok pvmStep ∧ rollup.proofStartState pvmStep = hash state ∧
      ∃ result, valid { proof with pvmStep } = .ok result

section Checks
variable {rollup : Rollup G} {u : Unit} {proof : G.PvmProof}

omit [DecidableEq G.Hash] in
@[simp] theorem checkProofDistanceIsOne_eq_ok {startTick stopTick : Nat} :
    (checkProofDistanceIsOne startTick stopTick : G.Result Unit) = .ok u ↔
      Tick.distance startTick stopTick = 1 := by
  simp [checkProofDistanceIsOne]

@[simp] theorem checkProofStartState_eq_ok {startState : Option G.Hash} :
    checkProofStartState rollup startState proof = .ok u ↔
      startState = some (rollup.proofStartState proof) := by
  simp [checkProofStartState]

@[simp] theorem checkProofStopState_eq_ok {stopState : Option G.Hash} {input : Option Input}
    {request : InputRequest} {validate : Bool} :
    checkProofStopState rollup stopState input request proof validate = .ok u ↔
      (validate = true ↔ stopState = stopProof rollup input request proof) := by
  cases validate <;> simp [checkProofStopState]

variable {game : V1 G} {startChunk stopChunk : G.DissectionChunk} {proof : Proof G.PvmProof G.DalProof}

theorem validityFinalMove_iff {firstMove : Bool} :
    validityFinalMove rollup firstMove proof game startChunk stopChunk = .ok true ↔
      (firstMove = true → Tick.distance startChunk.tick stopChunk.tick = 1) ∧
      startChunk.stateHash = some (rollup.proofStartState proof.pvmStep) ∧
      ∃ input request, proofValid rollup game proof = .ok (input, request) ∧
        (firstMove = true ↔ stopChunk.stateHash ≠ stopProof rollup input request proof.pvmStep) := by
  simp only [validityFinalMove, bind_eq_ok, pure_eq_ok, Except.ok.injEq, Option.getD_eq_iff,
    attempt_eq_some, Bool.false_eq_true, and_false, or_false, exists_eq_right]
  constructor
  · rintro ⟨valid, verified, checked⟩
    cases valid with
    | none => cases firstMove <;> simp [bind_eq_ok] at checked
    | some result =>
      refine ⟨?_, ?_, result.1, result.2, attempt_eq_some.1 verified, ?_⟩ <;>
        cases firstMove <;> simp_all [bind_eq_ok]
  · rintro ⟨distance, start, input, request, verified, stop⟩
    cases firstMove <;> simp_all [bind_eq_ok]

theorem validityFinalMove_returns (firstMove : Bool) (startChunk stopChunk : G.DissectionChunk)
    {result} (verified : proofValid rollup game proof = .ok result) :
    ∃ won, validityFinalMove rollup firstMove proof game startChunk stopChunk = .ok won := by
  simp only [validityFinalMove, verified, attempt_ok, ok_bind, checkProofDistanceIsOne,
    checkProofStartState, checkProofStopState, errorUnless]
  split_ifs <;> exact ⟨_, rfl⟩

end Checks

section Play
variable {rollup : Rollup G} {stakers : Index Staker}
  {game : V1 G} {choice sections : Nat} {result : GameResult Staker ⊕ V1 G}
  {dissection : List G.DissectionChunk} {proof : Proof Octets G.DalProof}

theorem play_dissection_iff {states} (dissecting : game.gameState = .dissecting dissection sections) :
    play rollup stakers game (.dissection states) choice = .ok result ↔
      ∃ startChunk stopChunk,
        (findChoice choice dissection : G.Result _) =
          .ok (startChunk, stopChunk) ∧ rollup.checkDissection sections startChunk stopChunk states = .ok () ∧
        result = .inr { game with turn := opponent game.turn
                                  gameState := .dissecting states sections } := by
  simp only [play, dissecting, bind_eq_ok]
  constructor
  · rintro ⟨⟨startChunk, stopChunk⟩, found, _, checked, ended⟩
    exact ⟨startChunk, stopChunk, found, checked, (Except.ok.inj ended).symm⟩
  · rintro ⟨startChunk, stopChunk, found, checked, rfl⟩
    exact ⟨(startChunk, stopChunk), found, (), checked, rfl⟩

theorem play_proof_iff (dissecting : game.gameState = .dissecting dissection sections) :
    play rollup stakers game (.proof proof) choice = .ok result ↔
      ∃ startChunk stopChunk pvmStep won,
        (findChoice choice dissection : G.Result _) =
          .ok (startChunk, stopChunk) ∧ unserializePvmStep rollup.pvm proof.pvmStep = .ok pvmStep ∧
        validityFinalMove rollup true { proof with pvmStep } game startChunk stopChunk = .ok won ∧
        result = if won then mkLoser stakers (opponent game.turn)
          else .inr { game with turn := opponent game.turn
                                gameState := .finalMove startChunk stopChunk } := by
  simp only [play, dissecting, bind_eq_ok, liftError_eq_ok, liftRun_eq_ok]
  constructor
  · rintro ⟨⟨startChunk, stopChunk⟩, found, pvmStep, unserialized, won, checked, ended⟩
    refine ⟨startChunk, stopChunk, pvmStep, won, found, unserialized, checked, ?_⟩
    cases won <;> simpa [eq_comm] using ended
  · rintro ⟨startChunk, stopChunk, pvmStep, won, found, unserialized, checked, rfl⟩
    refine ⟨(startChunk, stopChunk), found, pvmStep, unserialized, won, checked, ?_⟩
    cases won <;> rfl

theorem play_proof_final_iff {startChunk stopChunk}
    (final : game.gameState = .finalMove startChunk stopChunk) :
    play rollup stakers game (.proof proof) choice = .ok result ↔
      ∃ pvmStep won, unserializePvmStep rollup.pvm proof.pvmStep = .ok pvmStep ∧
        validityFinalMove rollup false { proof with pvmStep } game startChunk stopChunk = .ok won ∧
        result = if won then mkLoser stakers (opponent game.turn) else .inl .draw := by
  simp only [play, final, bind_eq_ok, liftError_eq_ok, liftRun_eq_ok]
  constructor
  · rintro ⟨pvmStep, unserialized, won, checked, ended⟩
    refine ⟨pvmStep, won, unserialized, checked, ?_⟩
    cases won <;> simpa [eq_comm] using ended
  · rintro ⟨pvmStep, won, unserialized, checked, rfl⟩
    refine ⟨pvmStep, unserialized, won, checked, ?_⟩
    cases won <;> rfl

end Play

end Octez.Proof.Game
