import Octez.Model.RefutationGame
import Octez.Proof.Game.Moves
import Octez.Proof.Game.FinalMove

namespace Octez.Proof.Game
open Octez.Lib Octez.Game Octez.RefutationGame Tick

theorem distance_of_le {earlier later : Nat} (le : earlier ≤ later) :
    distance earlier later = later - earlier := by
  unfold distance
  omega

section Check
variable {Hash External : Type}

def Follows (chunk next : DissectionChunk Hash) : Prop :=
  (chunk.stateHash = none → next.stateHash = none) ∧ chunk.tick < next.tick

instance : Trans (@Follows Hash) (@Follows Hash) (@Follows Hash) where
  trans first second := ⟨fun stuck => second.1 (first.1 stuck), first.2.trans second.2⟩

variable {chunk next : DissectionChunk Hash} {sectionMaximumSize : Nat}

theorem follows_of_split {front back}
    (ordered : (front ++ chunk :: next :: back).Pairwise Follows) : Follows chunk next := by
  rw [List.pairwise_append, List.pairwise_cons] at ordered
  exact ordered.2.1.1 next List.mem_cons_self

def Within (sectionMaximumSize : Nat) (chunk next : DissectionChunk Hash) : Prop :=
  Follows chunk next ∧ next.tick - chunk.tick ≤ sectionMaximumSize

theorem traverse_iff {dissection} : (Octez.Game.traverse sectionMaximumSize dissection :
        TzResult (Octez.Game.Error Hash External) _) = .ok () ↔
      dissection.IsChain (Within sectionMaximumSize) := by
  induction dissection with
  | nil => simp [Octez.Game.traverse]
  | cons chunk dissection ih =>
    cases dissection with
    | nil => simp [Octez.Game.traverse]
    | cons next others =>
      rw [List.isChain_cons_cons, ← ih, Octez.Game.traverse]
      by_cases later : chunk.tick < next.tick
      · rw [if_pos later, distance_of_le later.le]
        by_cases short : next.tick - chunk.tick ≤ sectionMaximumSize
        · obtain ⟨stateHash, tick⟩ := chunk
          obtain ⟨nextHash, nextTick⟩ := next
          cases stateHash <;> cases nextHash <;> simp_all [Within, Follows]
        · simp [Within, short]
          split <;> simp
      · simp [Within, Follows, later]
        split <;> simp

variable [DecidableEq Hash] {sections : Nat} {startChunk stopChunk : DissectionChunk Hash}
  {dissection : List (DissectionChunk Hash)}

omit [DecidableEq Hash] in
theorem defaultCheckSectionsNumber_iff {number dist : Nat} :
    (defaultCheckSectionsNumber sections number dist :
        TzResult (Octez.Game.Error Hash External) _) = .ok () ↔
      number = min sections dist ∧ (sections ≤ dist ∨ 1 < dist) := by
  unfold defaultCheckSectionsNumber
  by_cases few : sections ≤ dist
  · simp [few]
  · by_cases long : 1 < dist
    · rw [if_neg few, if_pos long]
      simp only [errorUnless_eq_ok, decide_eq_true_eq]
      omega
    · simp [few, long]

theorem checkEdges_iff : (checkEdges startChunk stopChunk dissection :
        TzResult (Octez.Game.Error Hash External) _) = .ok () ↔
      ∃ first last, dissection.head? = some first ∧ dissection.getLast? = some last ∧
        (first.stateHash = startChunk.stateHash ∧ first.stateHash ≠ none) ∧
        last.stateHash ≠ stopChunk.stateHash ∧
        first.tick = startChunk.tick ∧ last.tick = stopChunk.tick := by
  unfold checkEdges
  cases dissection.head? with
  | none => simp
  | some first =>
    cases dissection.getLast? with
    | none => simp
    | some last => simp [unit_bind_eq_ok, Option.isSome_iff_ne_none]

theorem arithCheckDissection_iff : (arithCheckDissection sections startChunk stopChunk dissection :
        TzResult (Octez.Game.Error Hash External) _) = .ok () ↔
      (dissection.length - 1 = min sections (distance startChunk.tick stopChunk.tick) ∧
        (sections ≤ distance startChunk.tick stopChunk.tick ∨ 1 < distance startChunk.tick stopChunk.tick)) ∧
      (∃ first last, dissection.head? = some first ∧ dissection.getLast? = some last ∧
        (first.stateHash = startChunk.stateHash ∧ first.stateHash ≠ none) ∧
        last.stateHash ≠ stopChunk.stateHash ∧
        first.tick = startChunk.tick ∧ last.tick = stopChunk.tick) ∧
      dissection.IsChain (Within (distance startChunk.tick stopChunk.tick / 2)) := by
  rw [arithCheckDissection, defaultCheck, unit_bind_eq_ok, unit_bind_eq_ok,
    defaultCheckSectionsNumber_iff, checkEdges_iff, traverse_iff]

end Check

section Ticks

def ticksFrom (sectionLength : Nat) : Nat → Nat → List Nat
  | 0, _ => []
  | left + 1, tick => tick :: ticksFrom sectionLength left (tick + sectionLength)

variable {sectionLength : Nat}

theorem makeTicks_eq (left tick : Nat) (revDissection : List Nat) :
    makeTicks sectionLength left revDissection tick =
      revDissection.reverse ++ ticksFrom sectionLength left tick := by
  induction left generalizing tick revDissection with
  | zero => simp [makeTicks, ticksFrom]
  | succ left ih => simp [makeTicks, ticksFrom, ih, Tick.jump, Tick.initial]

theorem length_ticksFrom (left tick : Nat) : (ticksFrom sectionLength left tick).length = left := by
  induction left generalizing tick with
  | zero => rfl
  | succ left ih => rw [ticksFrom, List.length_cons, ih]

theorem ticksFrom_isChain {limit stop : Nat} (positive : 0 < sectionLength)
    (short : sectionLength ≤ limit) (left tick : Nat) (before : tick + left * sectionLength < stop)
    (last : stop - (tick + left * sectionLength) ≤ limit) :
    (tick :: ticksFrom sectionLength left (tick + sectionLength) ++ [stop]).IsChain
      fun earlier later => earlier < later ∧ later - earlier ≤ limit := by
  induction left generalizing tick with
  | zero => simp_all [ticksFrom]
  | succ left ih =>
    have sum : tick + (left + 1) * sectionLength =
        tick + sectionLength + left * sectionLength := by
      rw [Nat.succ_mul]
      omega
    rw [sum] at before last
    have rest := ih (tick + sectionLength) before last
    rw [ticksFrom, List.cons_append, List.cons_append, List.isChain_cons_cons]
    exact ⟨by omega, rest⟩

theorem sectionLengths_spec {sections dist : Nat} (many : 3 ≤ sections) (long : 2 ≤ dist) :
    ∃ first next,
      sectionLengths sections dist (min sections dist) (dist % min sections dist) = (first, next) ∧
      0 < first ∧ first ≤ dist / 2 ∧ 0 < next ∧ next ≤ dist / 2 ∧
      first + (min sections dist - 2) * next < dist ∧
      dist - (first + (min sections dist - 2) * next) ≤ dist / 2 := by
  unfold sectionLengths
  by_cases short : dist ≤ sections
  · rw [if_pos short, Nat.min_eq_right short]
    exact ⟨1, 1, rfl, by omega, by omega, by omega, by omega, by omega, by omega⟩
  · have split := Nat.div_add_mod dist sections
    have bound := Nat.mod_lt dist (show 0 < sections by omega)
    have quotient : 0 < dist / sections := Nat.div_pos (by omega) (by omega)
    rw [if_neg short, Nat.min_eq_left (by omega), Nat.max_eq_right quotient]
    generalize dist / sections = q at *
    generalize dist % sections = rem at *
    by_cases single : q = 1 ∧ rem ≠ 0
    · rw [if_pos single]
      obtain ⟨rfl, nonzero⟩ := single
      exact ⟨rem, 1, rfl, by omega, by omega, by omega, by omega, by omega, by omega⟩
    · rw [if_neg single]
      obtain ⟨k, rfl⟩ : ∃ k, sections = k + 3 := ⟨sections - 3, by omega⟩
      have atLeast : k ≤ k * q := Nat.le_mul_of_pos_right k quotient
      have expand : (k + 3) * q = k * q + 3 * q := Nat.add_mul ..
      have expand' : (k + 3 - 2) * q = k * q + q := by
        rw [show k + 3 - 2 = k + 1 by omega, Nat.add_mul, Nat.one_mul]
      refine ⟨q, q, rfl, quotient, ?_, quotient, ?_, ?_, ?_⟩ <;> omega

end Ticks

section Node
variable {G : GameTypes} {startChunk stopChunk : G.DissectionChunk} {sections : Nat}

theorem defaultNewDissection_spec (startChunk stopChunk : G.DissectionChunk)
    (many : 3 ≤ sections) (long : startChunk.tick + 2 ≤ stopChunk.tick) :
    ∃ ticks, defaultNewDissection sections startChunk stopChunk = .ok ticks ∧
      ticks.length + 1 = min sections (stopChunk.tick - startChunk.tick) ∧
      (startChunk.tick :: ticks ++ [stopChunk.tick]).IsChain fun earlier later =>
        earlier < later ∧ later - earlier ≤ (stopChunk.tick - startChunk.tick) / 2 := by
  have dist : distance stopChunk.tick startChunk.tick =
      stopChunk.tick - startChunk.tick := by
    unfold distance
    omega
  obtain ⟨first, next, lengths, positive, short, positive', short', before, last⟩ :=
    sectionLengths_spec many (show 2 ≤ stopChunk.tick - startChunk.tick by omega)
  refine ⟨ticksFrom next (min sections (stopChunk.tick - startChunk.tick) - 1)
    (startChunk.tick + first), ?_, ?_, ?_⟩
  · unfold defaultNewDissection
    simp only [dist, lengths]
    rw [if_neg (by omega), makeTicks_eq]
    simp [Tick.jump, Tick.initial]
  · rw [length_ticksFrom]
    omega
  · obtain ⟨left, count⟩ : ∃ left, min sections (stopChunk.tick - startChunk.tick) = left + 2 :=
      ⟨min sections (stopChunk.tick - startChunk.tick) - 2, by omega⟩
    rw [count] at before last ⊢
    rw [show left + 2 - 2 = left by omega] at before last
    rw [show left + 2 - 1 = left + 1 by omega, ticksFrom, List.cons_append, List.cons_append,
      List.isChain_cons_cons]
    refine ⟨by omega, ticksFrom_isChain positive' short' left _ ?_ ?_⟩ <;> omega

variable {node : Node G}

def nodeTruth (node : Node G) : Nat → Option G.Hash :=
  truth node.step node.stateHash node.genesis

def trueChunk (node : Node G) (tick : Nat) : G.DissectionChunk :=
  ⟨nodeTruth node tick, tick⟩

theorem trueChunk_follows {earlier later : Nat} (lt : earlier < later) :
    Follows (trueChunk node earlier) (trueChunk node later) :=
  ⟨truth_eq_none_of_le lt.le, lt⟩

theorem makeDissectionAux_eq (ticks : List Nat) (acc : List G.DissectionChunk) :
    makeDissectionAux node stopChunk ticks acc =
      acc.reverse ++ ticks.map (trueChunk node) ++ [stopChunk] := by
  induction ticks generalizing acc with
  | nil => simp [makeDissectionAux]
  | cons tick ticks ih =>
    rw [makeDissectionAux, ih]
    simp [trueChunk, nodeTruth, truth, stateOfTick]

theorem makeDissection_accepted [DecidableEq G.Hash] {startTick : Nat} (many : 3 ≤ sections)
    (long : startTick + 2 ≤ stopChunk.tick) (present : nodeTruth node startTick ≠ none)
    (disagrees : stopChunk.stateHash ≠ nodeTruth node stopChunk.tick) :
    ∃ ticks,
      defaultNewDissection sections (trueChunk node startTick) (trueChunk node stopChunk.tick) =
        .ok ticks ∧ (arithCheckDissection sections (trueChunk node startTick) stopChunk
        ((startTick :: ticks ++ [stopChunk.tick]).map (trueChunk node)) :
          G.Result _) = .ok () ∧
      ((startTick :: ticks ++ [stopChunk.tick]).map (trueChunk node)).Pairwise Follows := by
  obtain ⟨ticks, made, count, chain⟩ := defaultNewDissection_spec
    (trueChunk node startTick) (trueChunk node stopChunk.tick) many long
  have within : ((startTick :: ticks ++ [stopChunk.tick]).map (trueChunk node)).IsChain
      (Within ((stopChunk.tick - startTick) / 2)) := by
    rw [List.isChain_map]
    exact chain.imp fun earlier later near => ⟨trueChunk_follows near.1, near.2⟩
  refine ⟨ticks, made, ?_, ?_⟩
  · rw [arithCheckDissection_iff]
    have dist : distance (trueChunk node startTick).tick stopChunk.tick =
        stopChunk.tick - startTick := distance_of_le (by simp only [trueChunk]; omega)
    rw [dist]
    refine ⟨⟨?_, by omega⟩, ?_, within⟩
    · simp only [trueChunk] at count
      simp [count]
    · exact ⟨trueChunk node startTick, trueChunk node stopChunk.tick, rfl,
        by rw [List.map_append, List.map_singleton, List.getLast?_concat],
        ⟨rfl, present⟩, disagrees.symm, rfl, rfl⟩
  · exact List.isChain_iff_pairwise.1 (within.imp fun _ _ => And.left)

end Node

open Octez.RefutationProof

section
variable {G : GameTypes} {Staker : Type} [DecidableEq G.Hash]

/-- The assumptions on the PVM: proofs are accepted exactly when they are true, and the node
produces the proof of the step from each state. -/
structure Setting (rollup : Rollup G) (node : Node G) (game : V1 G) : Prop where
  checks : rollup.checkDissection = arithCheckDissection
  trueSteps : TrueSteps rollup node.step node.stateHash (proofValid rollup game)
  produces : ∀ state, ∃ proof pvmStep result,
    produce rollup.environment rollup.pvm
      { rollup.parameters with commitInboxLevel := game.inboxLevel } (node.withState state) =
        .ok proof ∧ unserializePvmStep rollup.pvm proof.pvmStep = .ok pvmStep ∧
    rollup.proofStartState pvmStep = node.stateHash state ∧
    proofValid rollup game { proof with pvmStep } = .ok result

theorem Setting.moved {rollup : Rollup G} {node} {game}
    (setting : Setting rollup node game) (turn : Player) (gameState : GameState G.Hash) :
    Setting rollup node { game with turn, gameState } :=
  ⟨setting.checks, setting.trueSteps, setting.produces⟩

structure Disputed (node : Node G) (dissection : List G.DissectionChunk) : Prop where
  ordered : dissection.Pairwise Follows
  starts : ∃ first rest, dissection = first :: rest ∧
    first.stateHash = nodeTruth node first.tick ∧ first.stateHash ≠ none
  disagrees : ∃ chunk ∈ dissection, chunk.stateHash ≠ nodeTruth node chunk.tick

structure Agreed (node : Node G) (dissection : List G.DissectionChunk) : Prop where
  ordered : dissection.Pairwise Follows
  allTrue : ∀ chunk ∈ dissection, chunk.stateHash = nodeTruth node chunk.tick

section Traverse
variable {node : Node G} {tick sections : Nat}

structure Chosen (node : Node G) (dissection : List G.DissectionChunk)
    (startChunk stopChunk : G.DissectionChunk) : Prop where
  split : ∃ front back, dissection = front ++ startChunk :: stopChunk :: back
  startTrue : startChunk.stateHash = nodeTruth node startChunk.tick
  present : startChunk.stateHash ≠ none
  stopFalse : stopChunk.stateHash ≠ nodeTruth node stopChunk.tick

omit [DecidableEq G.Hash] in
theorem stateOfTick_eq_none (stuck : stateOfTick node tick = none) : nodeTruth node tick = none := by
  exact Option.map_eq_none_iff.2 stuck

omit [DecidableEq G.Hash] in
theorem nodeTruth_eq_some {state : G.State} (reached : stateOfTick node tick = some state) :
    nodeTruth node tick = some (node.stateHash state) := by
  exact congrArg (Option.map node.stateHash) reached

theorem traverse_spec {first} {rest} (known : PvmIntermediateState G)
    (knownHash : some (intermediateHash node known) = first.stateHash)
    (firstTrue : first.stateHash = nodeTruth node first.tick) (ordered : (first :: rest).Pairwise Follows)
    (disagrees : ∃ chunk ∈ rest, chunk.stateHash ≠ nodeTruth node chunk.tick) :
    ∃ startChunk stopChunk view, Chosen node (first :: rest) startChunk stopChunk ∧
      some (intermediateHash node view) = startChunk.stateHash ∧
      (Octez.RefutationGame.traverse node (known, first.tick) rest :
        TzResult (Octez.RefutationGame.Error G.External) _) =
          .ok ((view, startChunk.tick), (stateOfTick node stopChunk.tick, stopChunk.tick)) := by
  induction rest generalizing first known with
  | nil => simp at disagrees
  | cons chunk rest ih =>
    obtain ⟨_, orderedRest⟩ := List.pairwise_cons.1 ordered
    have here (different : chunk.stateHash ≠ nodeTruth node chunk.tick) :
        Chosen node (first :: chunk :: rest) first chunk :=
      ⟨⟨[], rest, rfl⟩, firstTrue, by simp [← knownHash], different⟩
    cases ours : stateOfTick node chunk.tick with
    | none =>
      have stuck := stateOfTick_eq_none ours
      cases theirs : chunk.stateHash with
      | some hash =>
        refine ⟨first, chunk, known, here (by simp [theirs, stuck]), knownHash, ?_⟩
        rw [Octez.RefutationGame.traverse, theirs, ours]
      | none =>
        -- Both are stuck from here on, so that nothing is left to disagree about.
        exfalso
        obtain ⟨later, inside, different⟩ := disagrees
        apply different
        rcases List.mem_cons.1 inside with rfl | inside
        · rw [theirs, stuck]
        · have follows := (List.pairwise_cons.1 orderedRest).1 later inside
          rw [follows.1 theirs]
          exact (truth_eq_none_of_le follows.2.le stuck).symm
    | some state =>
      have reached := nodeTruth_eq_some ours
      cases theirs : chunk.stateHash with
      | none =>
        refine ⟨first, chunk, known, here (by simp [theirs, reached]), knownHash, ?_⟩
        rw [Octez.RefutationGame.traverse, theirs, ours]
      | some hash =>
        by_cases same : node.stateHash state = hash
        · have agrees : chunk.stateHash = nodeTruth node chunk.tick := by
            rw [theirs, reached, same]
          obtain ⟨later, inside, different⟩ := disagrees
          have beyond : later ∈ rest := by
            rcases List.mem_cons.1 inside with rfl | inside
            · exact absurd agrees different
            · exact inside
          obtain ⟨startChunk, stopChunk, view, chosen, viewHash, found⟩ :=
            ih (.evaluated state) (by rw [theirs, ← same]; rfl) agrees orderedRest
              ⟨later, beyond, different⟩
          obtain ⟨front, back, split⟩ := chosen.split
          refine ⟨startChunk, stopChunk, view, ⟨⟨first :: front, back, by rw [split]; rfl⟩,
            chosen.startTrue, chosen.present, chosen.stopFalse⟩, viewHash, ?_⟩
          rw [Octez.RefutationGame.traverse, theirs, ours]
          simp only [same, if_true]
          exact found
        · refine ⟨first, chunk, known, here ?_, knownHash, ?_⟩
          · rw [theirs, reached]
            simpa using Ne.symm same
          · rw [Octez.RefutationGame.traverse, theirs, ours]
            simp only [same, if_false]

omit [DecidableEq G.Hash] in
theorem newDissection_eq {startTick stopTick : Nat} {ticks : List Nat} {view}
    (viewHash : some (intermediateHash node view) = nodeTruth node startTick)
    (made : defaultNewDissection sections (trueChunk node startTick) (trueChunk node stopTick) =
      .ok ticks) : (newDissection node sections (view, startTick) (stateOfTick node stopTick, stopTick) :
      TzResult (Octez.RefutationGame.Error G.External) _) =
        .ok ((startTick :: ticks ++ [stopTick]).map (trueChunk node)) := by
  have startView : (⟨some (intermediateHash node view), startTick⟩ : G.DissectionChunk) =
      trueChunk node startTick := by
    rw [viewHash, trueChunk]
  have stopView : (⟨(stateOfTick node stopTick).map node.stateHash, stopTick⟩ :
      G.DissectionChunk) = trueChunk node stopTick := rfl
  unfold newDissection
  dsimp only
  rw [startView, stopView, made, liftRun_ok, ok_bind, pure_eq_ok]
  simp [makeDissection, makeDissectionAux_eq]

theorem Disputed.chosen {dissection} (disputed : Disputed node dissection) (many : 3 ≤ sections) :
    ∃ startChunk stopChunk made, Chosen node dissection startChunk stopChunk ∧
      startChunk.tick < stopChunk.tick ∧
      (generateNextDissection node sections dissection :
        TzResult (Octez.RefutationGame.Error G.External) _) =
          .ok (startChunk.tick, stopChunk.tick - startChunk.tick, made) ∧
      (startChunk.tick + 2 ≤ stopChunk.tick →
        (arithCheckDissection sections startChunk stopChunk made :
          G.Result _) = .ok () ∧ Agreed node made) := by
  obtain ⟨ordered, ⟨first, rest, rfl, firstTrue, present⟩, later, inside, different⟩ := disputed
  have beyond : later ∈ rest := by
    rcases List.mem_cons.1 inside with rfl | inside
    · exact absurd firstTrue different
    · exact inside
  obtain ⟨hash, firstHash⟩ := Option.ne_none_iff_exists'.1 present
  obtain ⟨startChunk, stopChunk, view, chosen, viewHash, found⟩ :=
    traverse_spec (.hash hash) firstHash.symm firstTrue ordered ⟨later, beyond, different⟩
  have before : startChunk.tick < stopChunk.tick := by
    obtain ⟨front, back, split⟩ := chosen.split
    rw [split] at ordered
    exact (follows_of_split ordered).2
  have startEq : startChunk = trueChunk node startChunk.tick := by
    rw [trueChunk, ← chosen.startTrue]
  -- The move, for whatever ticks the new dissection is made of.
  have generated (ticks : List Nat) (made : defaultNewDissection sections (trueChunk node startChunk.tick)
        (trueChunk node stopChunk.tick) = .ok ticks) :
      (generateNextDissection node sections (first :: rest) :
        TzResult (Octez.RefutationGame.Error G.External) _) =
          .ok (startChunk.tick, stopChunk.tick - startChunk.tick,
            (startChunk.tick :: ticks ++ [stopChunk.tick]).map (trueChunk node)) := by
    obtain ⟨firstState, firstTick⟩ := first
    cases firstHash
    have dissected := newDissection_eq (viewHash.trans chosen.startTrue) made
    have distance : ((startChunk.tick : Int) - stopChunk.tick).natAbs =
        stopChunk.tick - startChunk.tick := by omega
    rw [generateNextDissection, bind_of_eq_ok found]
    refine (bind_of_eq_ok dissected _).trans ?_
    rw [← distance]
    rfl
  by_cases long : startChunk.tick + 2 ≤ stopChunk.tick
  · obtain ⟨ticks, made, accepted, ordered'⟩ := makeDissection_accepted
      many long (chosen.startTrue ▸ chosen.present) chosen.stopFalse
    refine ⟨startChunk, stopChunk, _, chosen, before, generated ticks made, fun _ => ⟨?_, ordered', ?_⟩⟩
    · rw [startEq]
      exact accepted
    · intro chunk inside
      obtain ⟨tick, _, rfl⟩ := List.mem_map.1 inside
      rfl
  · obtain ⟨ticks, made⟩ : ∃ ticks, defaultNewDissection sections (trueChunk node startChunk.tick)
        (trueChunk node stopChunk.tick) = .ok ticks := by
      rw [defaultNewDissection, if_neg (by simp [trueChunk, distance]; omega)]
      exact ⟨_, rfl⟩
    exact ⟨startChunk, stopChunk, _, chosen, before, generated ticks made, fun short => absurd short long⟩

end Traverse

section Moves
variable {rollup : Rollup G} {node : Node G} {stakers : Index Staker} {game : V1 G}

theorem Setting.finalMove_spec (setting : Setting rollup node game) {tick : Nat}
    (present : nodeTruth node tick ≠ none) :
    ∃ proof pvmStep input request, finalMove rollup node game tick = .ok ⟨tick, .proof proof⟩ ∧
      unserializePvmStep rollup.pvm proof.pvmStep = .ok pvmStep ∧
      nodeTruth node tick = some (rollup.proofStartState pvmStep) ∧
      proofValid rollup game { proof with pvmStep } = .ok (input, request) ∧
      stopProof rollup input request pvmStep = nodeTruth node (tick + 1) := by
  cases reached : stateOfTick node tick with
  | none => exact absurd (stateOfTick_eq_none reached) present
  | some state =>
    obtain ⟨proof, pvmStep, ⟨input, request⟩, produced, unserialized, starts, verified⟩ :=
      setting.produces state
    obtain ⟨same, starts', stops⟩ := setting.trueSteps.sound verified
    have here : nodeTruth node tick = some (node.stateHash same) := by
      rw [nodeTruth_eq_some reached, ← starts, starts']
    refine ⟨proof, pvmStep, input, request, ?_, unserialized, ?_, verified, ?_⟩
    · have generated : generateProof rollup node game state = .ok proof := by
        unfold generateProof
        rw [produced, liftError_ok, ok_bind, unserialized, liftError_ok, ok_bind, verified]
        rfl
      rw [finalMove, reached]
      exact bind_of_eq_ok generated _
    · rw [here, starts']
    · rw [stops]
      exact (truth_next setting.trueSteps.hash_injective here).symm

variable {dissection : List G.DissectionChunk} {sections : Nat}

theorem Disputed.answered (stakers : Index Staker)
    (disputed : Disputed node dissection) (setting : Setting rollup node game)
    (dissecting : game.gameState = .dissecting dissection sections) (many : 3 ≤ sections) :
    (∃ choice proof, nextMove rollup node game = .ok ⟨choice, .proof proof⟩ ∧
      play rollup stakers game (.proof proof) choice =
        .ok (mkLoser stakers (opponent game.turn))) ∨
    ∃ choice made, nextMove rollup node game = .ok ⟨choice, .dissection made⟩ ∧ Agreed node made ∧
      play rollup stakers game (.dissection made) choice =
        .ok (.inr { game with turn := opponent game.turn
                              gameState := .dissecting made sections }) := by
  obtain ⟨startChunk, stopChunk, made, chosen, before, generated, accepted⟩ :=
    disputed.chosen many
  have found : (findChoice startChunk.tick dissection :
      G.Result _) = .ok (startChunk, stopChunk) := by
    obtain ⟨front, back, rfl⟩ := chosen.split
    exact findChoice_of_split (disputed.ordered.imp And.right)
  by_cases single : stopChunk.tick - startChunk.tick = 1
  · left
    obtain ⟨proof, pvmStep, input, request, final, unserialized, starts, verified, stops⟩ :=
      setting.finalMove_spec (chosen.startTrue ▸ chosen.present)
    refine ⟨startChunk.tick, proof, ?_, ?_⟩
    · simp only [nextMove, dissecting]
      rw [bind_of_eq_ok generated]
      simp only [single, if_true]
      exact final
    · refine (play_proof_iff dissecting).2
        ⟨startChunk, stopChunk, pvmStep, true, found, unserialized, validityFinalMove_iff.2 ?_, rfl⟩
      refine ⟨fun _ => ?_, chosen.startTrue.trans starts, input, request, verified, ?_⟩
      · rw [distance_of_le before.le, single]
      · have next : stopChunk.tick = startChunk.tick + 1 := by omega
        rw [stops, ← next]
        exact iff_of_true rfl chosen.stopFalse
  · right
    obtain ⟨checked, agreed⟩ := accepted (by omega)
    refine ⟨startChunk.tick, made, ?_, agreed, ?_⟩
    · simp only [nextMove, dissecting]
      rw [bind_of_eq_ok generated]
      simp only [single, if_false]
      rfl
    · refine (play_dissection_iff dissecting).2 ⟨startChunk, stopChunk, found, ?_, rfl⟩
      rw [setting.checks]
      exact checked

variable {result : GameResult Staker ⊕ V1 G}

section
variable (agreed : Agreed node dissection) (setting : Setting rollup node game)
  (dissecting : game.gameState = .dissecting dissection sections)
include agreed setting dissecting

theorem Agreed.dissected {states} {choice : Nat}
    (played : play rollup stakers game (.dissection states) choice = .ok result) :
    Disputed node states ∧
      result = .inr { game with turn := opponent game.turn
                                gameState := .dissecting states sections } := by
  obtain ⟨startChunk, stopChunk, found, checked, ended⟩ := (play_dissection_iff dissecting).1 played
  obtain ⟨_, front, back, split⟩ := findChoice_split found
  rw [setting.checks, arithCheckDissection_iff] at checked
  obtain ⟨_, ⟨first, last, head, tail, ⟨same, present⟩, different, firstTick, lastTick⟩, chain⟩ :=
    checked
  refine ⟨⟨List.isChain_iff_pairwise.1 (chain.imp fun _ _ => And.left), ?_, ?_⟩, ended⟩
  · obtain ⟨rest, states_eq⟩ := List.head?_eq_some_iff.1 head
    refine ⟨first, rest, states_eq, ?_, present⟩
    rw [same, firstTick]
    exact agreed.allTrue startChunk (by simp [split])
  · refine ⟨last, List.mem_of_getLast? tail, ?_⟩
    rw [lastTick, ← agreed.allTrue stopChunk (by simp [split])]
    exact different

theorem Agreed.proved {choice : Nat} {proof}
    (played : play rollup stakers game (.proof proof) choice = .ok result) :
    ∃ startChunk stopChunk, startChunk ∈ dissection ∧ startChunk.tick = choice ∧
      result = .inr { game with turn := opponent game.turn
                                gameState := .finalMove startChunk stopChunk } := by
  obtain ⟨startChunk, stopChunk, pvmStep, won, found, _, checked, ended⟩ :=
    (play_proof_iff dissecting).1 played
  obtain ⟨here, front, back, split⟩ := findChoice_split found
  refine ⟨startChunk, stopChunk, by simp [split], here, ?_⟩
  cases won with
  | false => exact ended
  | true =>
    obtain ⟨single, start, input, request, verified, stop⟩ := validityFinalMove_iff.1 checked
    obtain ⟨state, starts, stops⟩ := setting.trueSteps.sound verified
    have startTrue := agreed.allTrue startChunk (by simp [split])
    have stopTrue := agreed.allTrue stopChunk (by simp [split])
    have ordered := agreed.ordered
    rw [split] at ordered
    have before : startChunk.tick < stopChunk.tick := (follows_of_split ordered).2
    have next : stopChunk.tick = startChunk.tick + 1 := by
      have one := single rfl
      rw [distance_of_le before.le] at one
      omega
    have truthHere : nodeTruth node startChunk.tick = some (node.stateHash state) := by
      rw [← startTrue, start, ← starts]
    refine absurd ?_ (stop.1 rfl)
    rw [stopTrue, next, stops]
    exact truth_next setting.trueSteps.hash_injective truthHere

end

theorem final_answered (stakers : Index Staker) {startChunk stopChunk}
    (setting : Setting rollup node game) (final : game.gameState = .finalMove startChunk stopChunk)
    (startTrue : startChunk.stateHash = nodeTruth node startChunk.tick)
    (present : startChunk.stateHash ≠ none) :
    ∃ proof, ∃ won : Bool, nextMove rollup node game = .ok ⟨startChunk.tick, .proof proof⟩ ∧
      play rollup stakers game (.proof proof) startChunk.tick =
        .ok (if won then mkLoser stakers (opponent game.turn) else .inl .draw) := by
  obtain ⟨proof, pvmStep, input, request, moved, unserialized, _, verified, _⟩ :=
    setting.finalMove_spec (startTrue ▸ present)
  obtain ⟨won, checked⟩ := validityFinalMove_returns false startChunk stopChunk verified
  refine ⟨proof, won, ?_, (play_proof_final_iff final).2 ⟨pvmStep, won, unserialized, checked, rfl⟩⟩
  simp only [nextMove, final]
  exact moved

end Moves

end

end Octez.Proof.Game
