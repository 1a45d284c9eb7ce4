import Octez.Model.WasmDissection
import Octez.Proof.Game.Runs

namespace Octez.Proof.Game
open Octez.Lib Octez.Game Octez.RefutationProof Octez.Wasm Tick Counter

section Sections
variable {Hash External : Type} {limit : Nat} {states : List (DissectionChunk Hash)}

def lengths (dissection : List (DissectionChunk Hash)) : List Nat :=
  (dissection.zip dissection.tail).map fun (chunk, next) => distance chunk.tick next.tick

theorem lengths_cons_cons (chunk next : DissectionChunk Hash) (others : List (DissectionChunk Hash)) :
    lengths (chunk :: next :: others) = distance chunk.tick next.tick :: lengths (next :: others) := rfl

theorem distance_mem_lengths {front back} {chunk next : DissectionChunk Hash} :
    distance chunk.tick next.tick ∈ lengths (front ++ chunk :: next :: back) := by
  induction front with
  | nil => exact List.mem_cons_self
  | cons first front ih =>
    cases front with
    | nil | cons second front => exact List.mem_cons_of_mem _ ih

/-- The sections of `states` cover the section between two chunks, and none of them is empty or
longer than a limit. -/
structure Cuts (limit : Nat) (startChunk stopChunk : DissectionChunk Hash)
    (states : List (DissectionChunk Hash)) : Prop where
  starts : states.head?.map DissectionChunk.tick = some startChunk.tick
  stops : states.getLast?.map DissectionChunk.tick = some stopChunk.tick
  lengths : ∀ length ∈ lengths states, 1 ≤ length ∧ length ≤ limit

theorem lengths_of_isChain
    (chain : states.IsChain (Within limit)) : ∀ length ∈ lengths states, 1 ≤ length ∧ length ≤ limit := by
  induction states with
  | nil => simp [lengths]
  | cons chunk states ih =>
    cases states with
    | nil => simp [lengths]
    | cons next others =>
      obtain ⟨⟨⟨_, later⟩, short⟩, chain⟩ := List.isChain_cons_cons.1 chain
      rw [lengths_cons_cons, List.forall_mem_cons, distance_of_le later.le]
      exact ⟨⟨by omega, short⟩, ih chain⟩

theorem tick_le_of_isChain {first last} (chain : states.IsChain (Within limit))
    (head : states.head? = some first) (getLast : states.getLast? = some last) :
    first.tick ≤ last.tick := by
  induction states generalizing first with
  | nil => cases head
  | cons chunk states ih =>
    cases head
    cases states with
    | nil =>
      cases getLast
      exact Nat.le_refl _
    | cons next others =>
      obtain ⟨⟨⟨_, later⟩, _⟩, chain⟩ := List.isChain_cons_cons.1 chain
      exact Nat.le_trans later.le (ih chain rfl getLast)

variable [DecidableEq Hash] {sections limit : Nat} {startChunk stopChunk : DissectionChunk Hash}
  {states : List (DissectionChunk Hash)}

theorem defaultCheck_cuts {checkNumber : Nat → Nat → Nat → TzResult (Error Hash External) Unit}
    (accepted : defaultCheck limit checkNumber sections startChunk stopChunk states = .ok ()) :
    checkNumber sections (states.length - 1) (distance startChunk.tick stopChunk.tick) =
        .ok () ∧ startChunk.tick ≤ stopChunk.tick ∧ Cuts limit startChunk stopChunk states := by
  rw [defaultCheck, unit_bind_eq_ok, unit_bind_eq_ok, checkEdges_iff, traverse_iff] at accepted
  obtain ⟨number, ⟨first, last, head, getLast, _, _, firstTick, lastTick⟩, chain⟩ := accepted
  refine ⟨number, ?_, ?_, ?_, lengths_of_isChain chain⟩
  · rw [← firstTick, ← lastTick]
    exact tick_le_of_isChain chain head getLast
  · rw [head, Option.map_some, firstTick]
  · rw [getLast, Option.map_some, lastTick]

theorem arithCheckDissection_cuts (many : 2 ≤ sections)
    (accepted : (arithCheckDissection sections startChunk stopChunk states :
      TzResult (Error Hash External) _) = .ok ()) :
    2 ≤ distance startChunk.tick stopChunk.tick ∧
      Cuts (distance startChunk.tick stopChunk.tick / 2) startChunk stopChunk states := by
  obtain ⟨number, _, cuts⟩ := defaultCheck_cuts accepted
  rw [defaultCheckSectionsNumber_iff] at number
  exact ⟨by omega, cuts⟩

theorem ticksPerSnapshot_pos : 0 < ticksPerSnapshot := by decide

-- A stop tick that is not aligned is rounded down by less than one snapshot.
theorem consideredDist_le {startTick stopTick : Nat} (le : startTick ≤ stopTick)
    (long : ticksPerSnapshot < stopTick - startTick) :
    consideredDist startTick stopTick ≤ stopTick - startTick := by
  unfold consideredDist
  rw [distance_of_le le]
  have parts := Nat.div_add_mod stopTick ticksPerSnapshot
  have rest := Nat.mod_lt stopTick ticksPerSnapshot_pos
  rw [Nat.mul_comm] at parts
  dsimp only
  split
  · exact Nat.le_refl _
  · unfold distance
    omega

omit [DecidableEq Hash] in
theorem Cuts.shorter {limit' : Nat} (cuts : Cuts limit startChunk stopChunk states)
    (le : limit ≤ limit') : Cuts limit' startChunk stopChunk states where
  starts := cuts.starts
  stops := cuts.stops
  lengths length member :=
    ⟨(cuts.lengths length member).1, Nat.le_trans (cuts.lengths length member).2 le⟩

theorem wasmCheckDissection_cuts (many : 2 ≤ sections)
    (accepted : (checkDissection sections startChunk stopChunk states :
      TzResult (Error Hash External) _) = .ok ()) :
    2 ≤ distance startChunk.tick stopChunk.tick ∧
      Cuts (distance startChunk.tick stopChunk.tick - 1) startChunk stopChunk states := by
  rw [checkDissection] at accepted
  split at accepted
  case isTrue =>
    obtain ⟨long, cuts⟩ := arithCheckDissection_cuts many accepted
    exact ⟨long, cuts.shorter (by omega)⟩
  case isFalse long =>
    obtain ⟨_, le, cuts⟩ := defaultCheck_cuts (unit_bind_eq_ok.1 accepted).1
    have positive := ticksPerSnapshot_pos
    rw [distance_of_le le] at long ⊢
    have considered := consideredDist_le le (by omega)
    exact ⟨by omega, cuts.shorter (by omega)⟩

end Sections

section Moves
variable {G : GameTypes} {Staker : Type} [DecidableEq G.Hash]

/-- The moves are accepted one after the other, in a game that is not over before the last one. -/
inductive AcceptedMoves (rollup : Rollup G) (stakers : Index Staker) : V1 G → List (Move G) → Prop
  | nil (game : V1 G) : AcceptedMoves rollup stakers game []
  | ends {game : V1 G} {move : Move G} {result : GameResult Staker} :
      play rollup stakers game move.step move.choice = .ok (.inl result) →
      AcceptedMoves rollup stakers game [move]
  | cons {game next : V1 G} {move : Move G}
      {moves : List (Move G)} :
      play rollup stakers game move.step move.choice = .ok (.inr next) →
      AcceptedMoves rollup stakers next moves → AcceptedMoves rollup stakers game (move :: moves)

def dissections (moves : List (Move G)) : Nat :=
  moves.countP fun move => match move.step with
    | .dissection _ => true
    | .proof _ => false

variable {rollup : Rollup G} {stakers : Index Staker} {game next : V1 G} {move : Move G}
  {moves : List (Move G)} {sections : Nat}

theorem accepted_final {startChunk stopChunk} (final : game.gameState = .finalMove startChunk stopChunk)
    (accepted : AcceptedMoves rollup stakers game moves) : dissections moves = 0 ∧ moves.length ≤ 1 := by
  have notDissected {states : List G.DissectionChunk} {choice : Nat}
      {result : GameResult Staker ⊕ V1 G} :
      play rollup stakers game (.dissection states) choice ≠ .ok result := by
    simp [play, final]
  cases accepted with
  | nil => exact ⟨rfl, Nat.zero_le _⟩
  | @ends _ move _ played =>
    obtain ⟨choice, step⟩ := move
    cases step with
    | dissection states => exact absurd played notDissected
    | proof proof => exact ⟨rfl, Nat.le_refl _⟩
  | @cons _ _ move _ played _ =>
    obtain ⟨choice, step⟩ := move
    cases step with
    | dissection states => exact absurd played notDissected
    | proof proof =>
      obtain ⟨_, won, _, _, ended⟩ := (play_proof_final_iff final).1 played
      cases won <;> cases ended

theorem accepted_bound (potential : Nat → Nat) (lowers : ∀ {startChunk stopChunk states},
      rollup.checkDissection sections startChunk stopChunk states = .ok () →
        0 < potential (distance startChunk.tick stopChunk.tick) ∧
          ∀ length ∈ lengths states, potential length < potential (distance startChunk.tick stopChunk.tick))
    (accepted : AcceptedMoves rollup stakers game moves) {dissection}
    {bound : Nat} (dissecting : game.gameState = .dissecting dissection sections)
    (below : ∀ length ∈ lengths dissection, potential length ≤ bound) :
    dissections moves ≤ bound ∧ moves.length ≤ dissections moves + 2 := by
  induction accepted generalizing dissection bound with
  | nil => simp [dissections]
  | @ends _ move _ played =>
    obtain ⟨choice, step⟩ := move
    cases step with
    | dissection states =>
      obtain ⟨_, _, _, _, ended⟩ := (play_dissection_iff dissecting).1 played
      cases ended
    | proof proof => simp [dissections]
  | @cons game next move moves played accepted ih =>
    obtain ⟨choice, step⟩ := move
    cases step with
    | dissection states =>
      obtain ⟨startChunk, stopChunk, found, checked, ended⟩ :=
        (play_dissection_iff dissecting).1 played
      cases ended
      obtain ⟨_, front, back, rfl⟩ := findChoice_split found
      have chosen := below _ distance_mem_lengths
      obtain ⟨positive, shorter⟩ := lowers checked
      have rest : dissections moves ≤ bound - 1 ∧ _ := ih rfl fun length member => by
        have := shorter length member
        omega
      have counted : dissections (⟨choice, .dissection states⟩ :: moves) =
          dissections moves + 1 := List.countP_cons_of_pos rfl
      rw [counted, List.length_cons]
      omega
    | proof proof =>
      obtain ⟨_, _, _, won, _, _, _, ended⟩ := (play_proof_iff dissecting).1 played
      cases won with
      | true => cases ended
      | false =>
        cases ended
        obtain ⟨none, short⟩ := accepted_final rfl accepted
        have counted : dissections (⟨choice, .proof proof⟩ :: moves) = dissections moves :=
          List.countP_cons_of_neg (by simp)
        rw [counted, none, List.length_cons]
        omega

section Initial
variable {CommitmentHash : Type} [LinearOrder Staker] {limit : Nat → Nat}

omit [DecidableEq G.Hash] in
theorem lengths_initial (parentState state : G.Hash) (ticks : Nat) :
    lengths [⟨some parentState, Tick.initial⟩, ⟨some state, ticks⟩, ⟨none, Tick.next ticks⟩] =
      [ticks, 1] := by
  have first : distance Tick.initial ticks = ticks := distance_of_le (Nat.zero_le _)
  have second : distance ticks (Tick.next ticks) = 1 := by
    rw [Tick.next, distance_of_le (Nat.le_add_right ticks 1), Nat.add_sub_cancel_left]
  rw [lengths_cons_cons, lengths_cons_cons, first, second]
  rfl

/-- An accepted dissection cuts the section that it disputes, which has more than one tick, into
sections that are not empty and not longer than a limit. -/
def DissectionsCut (rollup : Rollup G)
    (stakers : Index Staker) (sections : Nat) (limit : Nat → Nat) : Prop :=
  ∀ (game : V1 G) (dissection states : List G.DissectionChunk) (choice : Nat)
    (result : GameResult Staker ⊕ V1 G), game.gameState = .dissecting dissection sections →
    play rollup stakers game (.dissection states) choice = .ok result →
    ∃ startChunk stopChunk,
      (findChoice choice dissection : G.Result _) =
        .ok (startChunk, stopChunk) ∧ 1 < distance startChunk.tick stopChunk.tick ∧
      Cuts (limit (distance startChunk.tick stopChunk.tick)) startChunk stopChunk states ∧
      result = .inr { game with turn := opponent game.turn
                                gameState := .dissecting states sections }

def ChecksCut (rollup : Rollup G) (sections : Nat) (limit : Nat → Nat) : Prop :=
  ∀ {startChunk stopChunk states}, rollup.checkDissection sections startChunk stopChunk states = .ok () →
      2 ≤ distance startChunk.tick stopChunk.tick ∧
      Cuts (limit (distance startChunk.tick stopChunk.tick)) startChunk stopChunk states

omit [LinearOrder Staker] in
theorem dissectionsCut_of_check (check : ChecksCut rollup sections limit) :
    DissectionsCut rollup stakers sections limit := by
  intro game dissection states choice result dissecting played
  obtain ⟨startChunk, stopChunk, found, checked, ended⟩ :=
    (play_dissection_iff dissecting).1 played
  obtain ⟨long, cuts⟩ := check checked
  exact ⟨startChunk, stopChunk, found, long, cuts, ended⟩

theorem accepted_bound_initial {inbox} {dalSnapshot : G.DalHistory} {startLevel : Nat}
    {parent defended : Commitment G.Hash CommitmentHash} {refuter defender : Staker} (potential : Nat → Nat)
    (single : potential 1 = 0) (lowers : ∀ {dist length}, 1 < dist → 1 ≤ length → length ≤ limit dist →
      potential length < potential dist) (positive : ∀ {dist}, 1 < dist → 0 < potential dist)
    (check : ChecksCut rollup sections limit) (accepted : AcceptedMoves rollup stakers
      (initial inbox dalSnapshot startLevel parent defended refuter defender sections) moves) :
    dissections moves ≤ potential defended.numberOfTicks ∧ moves.length ≤ dissections moves + 2 := by
  apply accepted_bound potential _ accepted rfl
  · intro length member
    rw [lengths_initial] at member
    rcases List.mem_cons.1 member with rfl | member
    · exact Nat.le_refl _
    · rw [List.mem_singleton.1 member, single]
      exact Nat.zero_le _
  · intro startChunk stopChunk states checked
    obtain ⟨long, cuts⟩ := check checked
    refine ⟨positive long, ?_⟩
    intro length member
    obtain ⟨nonempty, short⟩ := cuts.lengths length member
    exact lowers long nonempty short

theorem log2_lt_log2 {dist length : Nat} (long : 1 < dist) (short : length ≤ dist / 2) :
    Nat.log2 length < Nat.log2 dist := by
  have halved : Nat.log2 dist = Nat.log2 (dist / 2) + 1 := by
    rw [Nat.log2_def, if_pos (by omega)]
  by_cases empty : length = 0
  · rw [empty, halved]
    exact Nat.succ_pos _
  · rw [halved, Nat.lt_succ_iff]
    exact (Nat.le_log2 (by omega)).2 (Nat.le_trans (Nat.log2_self_le empty) short)

variable (rollup stakers CommitmentHash) in
/-- Sections get shorter with every accepted dissection, at least by half under the default check,
so that a game has no infinite sequence of accepted moves. -/
theorem refutation_games_finite (many : 2 ≤ sections) : (rollup.checkDissection = arithCheckDissection →
      DissectionsCut rollup stakers sections (fun dist => dist / 2) ∧
      ∀ (inbox : octetTypes.HistoryProof) (dalSnapshot : G.DalHistory) (startLevel : Nat)
        (parent defended : Commitment G.Hash CommitmentHash) (refuter defender : Staker)
        (moves : List (Move G)), AcceptedMoves rollup stakers
          (initial inbox dalSnapshot startLevel parent defended refuter defender sections) moves →
        dissections moves ≤ Nat.log2 defended.numberOfTicks + 1 ∧
          moves.length ≤ Nat.log2 defended.numberOfTicks + 3) ∧ (rollup.checkDissection = checkDissection →
      DissectionsCut rollup stakers sections (fun dist => dist - 1) ∧
      ∀ (inbox : octetTypes.HistoryProof) (dalSnapshot : G.DalHistory) (startLevel : Nat)
        (parent defended : Commitment G.Hash CommitmentHash) (refuter defender : Staker)
        (moves : List (Move G)), AcceptedMoves rollup stakers
          (initial inbox dalSnapshot startLevel parent defended refuter defender sections) moves →
        moves.length ≤ defended.numberOfTicks + 2) := by
  constructor
  · intro default
    have check : ChecksCut rollup sections (fun dist => dist / 2) :=
      fun checked => arithCheckDissection_cuts many (default ▸ checked)
    refine ⟨dissectionsCut_of_check check, ?_⟩
    intro inbox dalSnapshot startLevel parent defended refuter defender moves accepted
    obtain ⟨few, short⟩ := accepted_bound_initial Nat.log2 rfl (fun long _ short => log2_lt_log2 long short)
      (fun long => Nat.lt_of_le_of_lt (Nat.zero_le _) (log2_lt_log2 long (Nat.le_refl _)))
      check accepted
    omega
  · intro wasm
    have check : ChecksCut rollup sections (fun dist => dist - 1) :=
      fun checked => wasmCheckDissection_cuts many (wasm ▸ checked)
    refine ⟨dissectionsCut_of_check check, ?_⟩
    intro inbox dalSnapshot startLevel parent defended refuter defender moves accepted
    obtain ⟨few, short⟩ := accepted_bound_initial (fun dist => dist - 1) rfl
      (fun _ nonempty short => Nat.lt_of_lt_of_le (Nat.sub_one_lt (by omega)) short)
      (fun long => by omega) check accepted
    omega

end Initial

end Moves

namespace Counter

def wasmRollup : Rollup types :=
  { rollup 1 with checkDissection := checkDissection }

-- One that is cut at calls to the kernel, the last of which is not complete.
def wasmDissection : List (DissectionChunk Nat) :=
  [⟨some 0, 0⟩, ⟨none, ticksPerSnapshot⟩, ⟨none, 2 * ticksPerSnapshot⟩, ⟨none, 2 * ticksPerSnapshot + 1⟩]

def wasmStart : V1 types :=
  initial RefutationProof.Example.withState.inbox () 0 ⟨0, 0, (), 0⟩
    ⟨9, 0, (), 2 * ticksPerSnapshot + 1⟩ 1 2 3

end Counter

theorem counter_games_finite : (AcceptedMoves (Counter.rollup 1) Counter.overclaimed.stakers
        (Counter.begin Counter.overclaimed)
        [(⟨0, .dissection [⟨some 0, 0⟩, ⟨none, 2⟩, ⟨none, 3⟩, ⟨none, 5⟩]⟩ : Move Counter.types)] ∧
      dissections [(⟨0, .dissection [⟨some 0, 0⟩, ⟨none, 2⟩, ⟨none, 3⟩, ⟨none, 5⟩]⟩ :
        Move Counter.types)] ≤ Nat.log2 5 + 1) ∧
    Cuts (2 * ticksPerSnapshot) ⟨some 0, 0⟩ ⟨some 9, 2 * ticksPerSnapshot + 1⟩
      Counter.wasmDissection := by
  refine ⟨(and_iff_left_of_imp fun accepted => ?_).2
    (.cons (show play _ _ _ _ _ = .ok (.inr dissected) from rfl) (.nil _)), ?_⟩
  · have finite := (refutation_games_finite (rollup 1) overclaimed.stakers Unit (show 2 ≤ 3 by decide)).1 rfl
    exact (finite.2 _ _ _ _ _ _ _ _ accepted).1
  · have finite := (refutation_games_finite wasmRollup overclaimed.stakers Unit (show 2 ≤ 3 by decide)).2 rfl
    obtain ⟨startChunk, stopChunk, found, _, cuts, _⟩ :=
      finite.1 wasmStart _ wasmDissection 0 _ rfl rfl
    cases found
    exact cuts

open Octez.RefutationGame

section Ticks

def evenTicks : Nat → Nat → Nat → List Nat
  | 0, _, _ | 1, _, _ => []
  | remaining + 2, lastTick, snapshots =>
    let nextTick := lastTick + snapshots / (remaining + 2) * ticksPerSnapshot
    nextTick :: evenTicks (remaining + 1) nextTick (snapshots - snapshots / (remaining + 2))

variable {remaining lastTick snapshots limit : Nat}

theorem evenSections_eq (aligned : Bool) (finalTick : Nat) (revAcc : List Nat) :
    evenSections aligned finalTick remaining lastTick (snapshots * ticksPerSnapshot) revAcc =
      revAcc.reverse ++ evenTicks remaining lastTick snapshots ++
        if aligned then [] else [finalTick] := by
  induction remaining, lastTick, snapshots using evenTicks.induct generalizing revAcc with
  | case1 | case2 => cases aligned <;> simp [evenSections, evenTicks]
  | case3 remaining lastTick snapshots nextTick ih =>
    have length : snapshots * ticksPerSnapshot / (ticksPerSnapshot * (remaining + 2)) =
        snapshots / (remaining + 2) := by
      rw [Nat.mul_comm ticksPerSnapshot]
      exact Nat.mul_div_mul_right _ _ ticksPerSnapshot_pos
    have jump : Tick.jump lastTick (snapshots / (remaining + 2) * ticksPerSnapshot) =
        nextTick := Nat.zero_max _
    rw [evenSections, length, jump, ← Nat.sub_mul, ih, evenTicks]
    simp [nextTick]

theorem length_evenTicks : (evenTicks remaining lastTick snapshots).length = remaining - 1 := by
  induction remaining, lastTick, snapshots using evenTicks.induct with
  | case1 | case2 => rfl
  | case3 remaining lastTick snapshots nextTick ih =>
    rw [evenTicks, List.length_cons, ih]
    omega

theorem dvd_of_mem_evenTicks (aligned : ticksPerSnapshot ∣ lastTick) :
    ∀ tick ∈ evenTicks remaining lastTick snapshots, ticksPerSnapshot ∣ tick := by
  induction remaining, lastTick, snapshots using evenTicks.induct with
  | case1 | case2 => simp [evenTicks]
  | case3 remaining lastTick snapshots nextTick ih =>
    have next : ticksPerSnapshot ∣ nextTick := Nat.dvd_add aligned (Nat.dvd_mul_left _ _)
    rw [evenTicks, List.forall_mem_cons]
    exact ⟨next, ih next⟩

-- The sections that are left stay numerous enough, and keep at least one call each.
theorem share_left {sections : Nat} (enough : sections + 2 ≤ snapshots)
    (fits : snapshots ≤ (sections + 2) * limit) :
    0 < snapshots / (sections + 2) ∧ snapshots / (sections + 2) ≤ limit ∧
      sections + 1 ≤ snapshots - snapshots / (sections + 2) ∧
      snapshots - snapshots / (sections + 2) ≤ (sections + 1) * limit := by
  have split := Nat.div_add_mod snapshots (sections + 2)
  have rest := Nat.mod_lt snapshots (show 0 < sections + 2 by omega)
  have positive : 0 < snapshots / (sections + 2) := Nat.div_pos enough (by omega)
  have le : snapshots / (sections + 2) ≤ limit := Nat.div_le_of_le_mul fits
  generalize snapshots / (sections + 2) = quotient at *
  generalize snapshots % (sections + 2) = rem at *
  have expand : (sections + 2) * quotient = (sections + 1) * quotient + quotient :=
    Nat.succ_mul ..
  have atLeast : sections + 1 ≤ (sections + 1) * quotient := Nat.le_mul_of_pos_right _ positive
  by_cases even : quotient = limit
  · rw [← even] at fits ⊢
    omega
  · have more : (sections + 1) * (quotient + 1) ≤ (sections + 1) * limit :=
      Nat.mul_le_mul_left _ (by omega)
    rw [Nat.mul_succ] at more
    omega

theorem evenTicks_isChain (lastTick : Nat) (positive : 0 < remaining) (enough : remaining ≤ snapshots)
    (fits : snapshots ≤ remaining * limit) : (lastTick :: evenTicks remaining lastTick snapshots ++
      [lastTick + snapshots * ticksPerSnapshot]).IsChain fun earlier later =>
        earlier < later ∧ later - earlier ≤ limit * ticksPerSnapshot := by
  induction remaining, lastTick, snapshots using evenTicks.induct with
  | case1 => omega
  | case2 lastTick snapshots =>
    rw [Nat.one_mul] at fits
    have nonempty := Nat.mul_pos (show 0 < snapshots by omega) ticksPerSnapshot_pos
    have short := Nat.mul_le_mul_right ticksPerSnapshot fits
    rw [evenTicks, List.singleton_append, List.isChain_cons_cons]
    exact ⟨by omega, List.isChain_singleton _⟩
  | case3 remaining lastTick snapshots nextTick ih =>
    obtain ⟨share, short, enough', fits'⟩ := share_left enough fits
    have nonempty := Nat.mul_pos share ticksPerSnapshot_pos
    have near := Nat.mul_le_mul_right ticksPerSnapshot short
    have stop : lastTick + snapshots * ticksPerSnapshot =
        nextTick + (snapshots - snapshots / (remaining + 2)) * ticksPerSnapshot := by
      have le := Nat.mul_le_mul_right ticksPerSnapshot (Nat.div_le_self snapshots (remaining + 2))
      rw [Nat.sub_mul]
      omega
    rw [evenTicks, stop, List.cons_append, List.cons_append, List.isChain_cons_cons]
    exact ⟨by omega, ih (by omega) enough' fits'⟩

structure Calls (startTick stopTick snapshots rest : Nat) : Prop where
  aligned : ticksPerSnapshot ∣ startTick
  stop : stopTick = startTick + snapshots * ticksPerSnapshot + rest
  incomplete : rest < ticksPerSnapshot

namespace Calls
variable {startTick stopTick rest : Nat}

theorem of_le (aligned : ticksPerSnapshot ∣ startTick) (le : startTick ≤ stopTick) :
    Calls startTick stopTick ((stopTick - startTick) / ticksPerSnapshot)
      ((stopTick - startTick) % ticksPerSnapshot) where
  aligned := aligned
  stop := by
    have split := Nat.div_add_mod (stopTick - startTick) ticksPerSnapshot
    rw [Nat.mul_comm] at split
    omega
  incomplete := Nat.mod_lt _ ticksPerSnapshot_pos

variable (calls : Calls startTick stopTick snapshots rest)
include calls

theorem final_dvd : ticksPerSnapshot ∣ startTick + snapshots * ticksPerSnapshot :=
  Nat.dvd_add calls.aligned (Nat.dvd_mul_left _ _)

theorem stop_mod : stopTick % ticksPerSnapshot = rest := by
  obtain ⟨count, multiple⟩ := calls.final_dvd
  rw [calls.stop, multiple, Nat.mul_add_mod, Nat.mod_eq_of_lt calls.incomplete]

theorem stop_div : stopTick / ticksPerSnapshot * ticksPerSnapshot =
    startTick + snapshots * ticksPerSnapshot := by
  have split := Nat.div_add_mod stopTick ticksPerSnapshot
  rw [calls.stop_mod, Nat.mul_comm] at split
  have stop := calls.stop
  omega

theorem distance_stop : Tick.distance startTick stopTick = snapshots * ticksPerSnapshot + rest := by
  have stop := calls.stop
  rw [distance_of_le (by omega)]
  omega

theorem distance_mod : Tick.distance startTick stopTick % ticksPerSnapshot = rest := by
  rw [calls.distance_stop, Nat.mul_comm, Nat.mul_add_mod, Nat.mod_eq_of_lt calls.incomplete]

theorem distance_div : Tick.distance startTick stopTick / ticksPerSnapshot = snapshots := by
  rw [calls.distance_stop, Nat.mul_comm, Nat.mul_add_div ticksPerSnapshot_pos,
    Nat.div_eq_of_lt calls.incomplete, Nat.add_zero]

theorem distance_final : Tick.distance startTick (stopTick / ticksPerSnapshot * ticksPerSnapshot) =
    snapshots * ticksPerSnapshot := by
  rw [calls.stop_div, distance_of_le (Nat.le_add_right _ _), Nat.add_sub_cancel_left]

theorem consideredDist_eq : consideredDist startTick stopTick = snapshots * ticksPerSnapshot := by
  unfold consideredDist
  dsimp only
  rw [calls.distance_mod, calls.distance_final]
  split
  case isTrue whole => rw [calls.distance_stop, whole, Nat.add_zero]
  case isFalse => rfl

end Calls

end Ticks

section Node
variable {G : GameTypes} [DecidableEq G.Hash]
  {startChunk stopChunk : G.DissectionChunk} {sections snapshots rest : Nat}

-- A share of the calls never exceeds half of them, unless it is a single one.
theorem share_bound (snapshots : Nat) (many : 3 ≤ sections) :
    ∃ limit, snapshots ≤ min sections snapshots * limit ∧
      limit * ticksPerSnapshot ≤ max ticksPerSnapshot (snapshots * ticksPerSnapshot / 2) := by
  by_cases few : snapshots ≤ sections
  · refine ⟨1, ?_, ?_⟩
    · rw [Nat.min_eq_right few, Nat.mul_one]
    · rw [Nat.one_mul]
      exact Nat.le_max_left _ _
  · refine ⟨snapshots / 2, ?_, ?_⟩
    · rw [Nat.min_eq_left (by omega)]
      have three := Nat.mul_le_mul_right (snapshots / 2) many
      omega
    · apply Nat.le_trans _ (Nat.le_max_right _ _)
      rw [Nat.le_div_iff_mul_le (by decide), Nat.mul_right_comm]
      exact Nat.mul_le_mul_right _ (Nat.div_mul_le_self _ _)

omit [DecidableEq G.Hash] in
theorem newDissection_spec (many : 4 ≤ sections) (calls : Calls startChunk.tick stopChunk.tick snapshots rest)
    (long : ticksPerSnapshot < Tick.distance startChunk.tick stopChunk.tick) :
    ∃ ticks, Octez.Wasm.newDissection sections startChunk stopChunk = .ok ticks ∧
      ticks.length + 1 = min sections (if rest = 0 then snapshots else snapshots + 1) ∧
      (∀ tick ∈ ticks, ticksPerSnapshot ∣ tick) ∧
      (startChunk.tick :: ticks ++ [stopChunk.tick]).IsChain fun earlier later =>
        earlier < later ∧ later - earlier ≤ max ticksPerSnapshot (snapshots * ticksPerSnapshot / 2) := by
  have incomplete := calls.incomplete
  have nonempty : 0 < snapshots := by
    rw [calls.distance_stop] at long
    apply Nat.pos_of_ne_zero
    intro none
    rw [none] at long
    omega
  -- the node keeps one of its sections for what is left after the last call
  obtain ⟨count, counted⟩ : ∃ count, count = if rest = 0 then sections else sections - 1 :=
    ⟨_, rfl⟩
  have enough : 3 ≤ count := by
    rw [counted]
    split <;> omega
  obtain ⟨limit, fits, short⟩ := share_bound snapshots enough
  have even := (evenTicks_isChain startChunk.tick (by omega) (Nat.min_le_right _ _) fits).imp
    fun earlier later near => And.intro near.1 (Nat.le_trans near.2 short)
  have made : Octez.Wasm.newDissection sections startChunk stopChunk =
      .ok (evenTicks (min count snapshots) startChunk.tick snapshots ++
        if rest = 0 then [] else [startChunk.tick + snapshots * ticksPerSnapshot]) := by
    unfold Octez.Wasm.newDissection
    dsimp only
    rw [if_neg (by omega), calls.stop_mod, calls.distance_final,
      Nat.mul_div_cancel _ ticksPerSnapshot_pos, evenSections_eq, calls.stop_div, ← counted]
    simp
  refine ⟨_, made, ?_, ?_, ?_⟩
  · rw [List.length_append, length_evenTicks]
    by_cases whole : rest = 0
    · rw [if_pos whole] at counted
      rw [if_pos whole, if_pos whole, List.length_nil, counted]
      omega
    · rw [if_neg whole] at counted
      rw [if_neg whole, if_neg whole, List.length_singleton, counted]
      omega
  · intro tick member
    rcases List.mem_append.1 member with member | member
    · exact dvd_of_mem_evenTicks calls.aligned tick member
    · split at member
      · cases member
      · rw [List.mem_singleton.1 member]
        exact calls.final_dvd
  · have stop := calls.stop
    by_cases whole : rest = 0
    · rw [whole, Nat.add_zero] at stop
      rw [if_pos whole, List.append_nil, stop]
      exact even
    · rw [if_neg whole, ← List.cons_append, List.isChain_append]
      refine ⟨even, List.isChain_singleton _, ?_⟩
      rintro final isFinal _ ⟨⟩
      rw [List.getLast?_concat, Option.mem_def, Option.some.injEq] at isFinal
      omega

theorem defaultCheck_makeDissection {node : Node G} {limit : Nat}
    {checkNumber : Nat → Nat → Nat → G.Result Unit}
    {ticks : List Nat} (present : startChunk.stateHash ≠ none)
    (disagrees : nodeTruth node stopChunk.tick ≠ stopChunk.stateHash)
    (number : checkNumber sections (ticks.length + 1) (Tick.distance startChunk.tick stopChunk.tick) = .ok ())
    (chain : (startChunk.tick :: ticks ++ [stopChunk.tick]).IsChain fun earlier later =>
      earlier < later ∧ later - earlier ≤ limit) :
    defaultCheck limit checkNumber sections startChunk stopChunk
      (makeDissection node startChunk (trueChunk node stopChunk.tick) ticks) = .ok () := by
  have made : makeDissection node startChunk (trueChunk node stopChunk.tick) ticks =
      startChunk :: (ticks ++ [stopChunk.tick]).map (trueChunk node) := by
    simp [makeDissection, makeDissectionAux_eq]
  rw [made, defaultCheck, unit_bind_eq_ok, unit_bind_eq_ok, checkEdges_iff, traverse_iff]
  refine ⟨?_, ?_, ?_⟩
  · rw [List.length_cons, List.length_map, List.length_append, List.length_singleton]
    exact number
  · refine ⟨startChunk, trueChunk node stopChunk.tick, rfl, ?_, ⟨rfl, present⟩, disagrees, rfl, rfl⟩
    rw [List.map_append, List.map_singleton, ← List.cons_append, List.getLast?_concat]
  · rw [List.cons_append, List.isChain_cons] at chain
    rw [List.isChain_cons, List.isChain_map]
    refine ⟨?_, chain.2.imp fun _ _ near => ⟨trueChunk_follows near.1, near.2⟩⟩
    intro next isNext
    rw [List.head?_map, Option.mem_def, Option.map_eq_some_iff] at isNext
    obtain ⟨tick, first, rfl⟩ := isNext
    obtain ⟨later, short⟩ := chain.1 tick first
    exact ⟨⟨fun stuck => absurd stuck present, later⟩, short⟩

/-- The dissection that the node makes for a section that starts at a call to the kernel, or that
has no more ticks than one, is accepted. -/
theorem wasm_dissection_accepted {node : Node G} (many : 4 ≤ sections)
    (present : startChunk.stateHash ≠ none) (aligned : ticksPerSnapshot ∣ startChunk.tick ∨
      Tick.distance startChunk.tick stopChunk.tick ≤ ticksPerSnapshot)
    (long : startChunk.tick + 2 ≤ stopChunk.tick)
    (disagrees : nodeTruth node stopChunk.tick ≠ stopChunk.stateHash) :
    ∃ ticks, Octez.Wasm.newDissection sections startChunk (trueChunk node stopChunk.tick) = .ok ticks ∧
      (checkDissection sections startChunk stopChunk
        (makeDissection node startChunk (trueChunk node stopChunk.tick) ticks) :
          G.Result _) = .ok () := by
  by_cases short : Tick.distance startChunk.tick stopChunk.tick ≤ ticksPerSnapshot
  · obtain ⟨ticks, made, count, chain⟩ := defaultNewDissection_spec startChunk
      (trueChunk node stopChunk.tick) (show 3 ≤ sections by omega) long
    have dist : Tick.distance startChunk.tick stopChunk.tick = stopChunk.tick - startChunk.tick :=
      distance_of_le (by omega)
    refine ⟨ticks, (if_pos short).trans made, ?_⟩
    rw [checkDissection]
    rw [if_pos short]
    apply defaultCheck_makeDissection present disagrees
    · rw [defaultCheckSectionsNumber_iff, dist]
      exact ⟨count, Or.inr (by omega)⟩
    · rw [dist]
      exact chain
  · have calls := Calls.of_le (aligned.resolve_right short) (show _ ≤ stopChunk.tick by omega)
    obtain ⟨ticks, made, count, inside, chain⟩ := newDissection_spec many
      (show Calls startChunk.tick (trueChunk node stopChunk.tick).tick _ _ from calls)
      (Nat.lt_of_not_le short)
    refine ⟨ticks, made, ?_⟩
    rw [checkDissection]
    rw [if_neg short, calls.consideredDist_eq, unit_bind_eq_ok]
    constructor
    · apply defaultCheck_makeDissection present disagrees _ chain
      rw [checkSectionsNumber, calls.distance_mod, calls.distance_div, count]
      simp
    · rw [errorUnless_eq_ok, List.all_eq_true]
      intro chunk member
      rw [makeDissection, makeDissectionAux_eq, List.mem_append, List.mem_append] at member
      rcases member with (start | middle) | stop
      · simp [List.mem_singleton.1 start]
      · obtain ⟨tick, member, rfl⟩ := List.mem_map.1 middle
        have whole := Nat.mod_eq_zero_of_dvd (inside tick member)
        simp [trueChunk, whole]
      · simp [List.mem_singleton.1 stop, trueChunk]

-- Five calls to the kernel, and one tick of a sixth.
def Counter.claimed : DissectionChunk Nat := ⟨some 9, 5 * ticksPerSnapshot + 1⟩

theorem counter_wasm_dissection_accepted :
    nodeTruth (Counter.node 1) Counter.claimed.tick ≠ Counter.claimed.stateHash ∧
    ∃ ticks,
      Octez.Wasm.newDissection 4 ⟨some 0, 0⟩ (trueChunk (Counter.node 1) Counter.claimed.tick) =
        .ok ticks ∧ (checkDissection 4 ⟨some 0, 0⟩ Counter.claimed
        (makeDissection (Counter.node 1) ⟨some 0, 0⟩
          (trueChunk (Counter.node 1) Counter.claimed.tick) ticks) :
          TzResult (Octez.Game.Error Nat Unit) _) = .ok () := by
  have stuck : nodeTruth (node 1) claimed.tick = none :=
    truth_eq_none_of_le (show 2 ≤ claimed.tick by decide) rfl
  have differ : nodeTruth (node 1) claimed.tick ≠ claimed.stateHash := by
    rw [stuck]
    exact Option.some_ne_none 9 |>.symm
  exact ⟨differ, wasm_dissection_accepted (by decide) (Option.some_ne_none 0)
    (Or.inl (Nat.dvd_zero _)) (by decide) differ⟩

end Node

end Octez.Proof.Game
