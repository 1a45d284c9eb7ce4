import Octez.Proof.Token.Effects

namespace Octez.Proof.Token
open Octez.Lib Octez.Token FullStakingBalance
open Octez.Proof.Staking (add_eq_ok sub_eq_ok tez_add_not_raised)

/-- The changes of the delegated amount, the last one first, with the amount after each of them and
its level. The levels do not decrease, so neither do their cycles. -/
inductive Delegating : FullStakingBalance → List (Level × Tez) → Prop
  | init (ownFrozen stakedFrozen delegated : Tez) (level : Level) :
    Delegating (init ownFrozen stakedFrozen delegated level) [(level, delegated)]
  | add {balance balance' last level amount older}
    (delegating : Delegating balance (last :: older)) (later : last.1.cycle ≤ level.cycle)
    (added : balance.addDelegated level amount = .ok balance') :
    Delegating balance' ((level, balance'.delegated) :: last :: older)
  | remove {balance balance' last level amount older}
    (delegating : Delegating balance (last :: older)) (later : last.1.cycle ≤ level.cycle)
    (removed : balance.removeDelegated level amount = .ok balance') :
    Delegating balance' ((level, balance'.delegated) :: last :: older)

/-- The amounts of a cycle, with the one that it began with. -/
def amountsIn (cycle : Nat) : List (Level × Tez) → List Nat
  | [] => []
  | (level, amount) :: older =>
    if level.cycle < cycle then [amount.mutez] else amount.mutez :: amountsIn cycle older

def LeastIn (cycle : Nat) (history : List (Level × Tez)) (minimum : Tez) : Prop :=
  minimum.mutez ∈ amountsIn cycle history ∧ ∀ amount ∈ amountsIn cycle history, minimum.mutez ≤ amount

structure Tracks (balance : FullStakingBalance) (last : Level × Tez) (older : List (Level × Tez)) :
    Prop where
  delegated : balance.delegated = last.2
  cycle : cycleOfMinDelegated balance.levelOfMinDelegated = last.1.cycle
  least : LeastIn last.1.cycle (last :: older) balance.minDelegatedInCycle

variable {balance balance' : FullStakingBalance} {last : Level × Tez} {older : List (Level × Tez)}
  {level : Level} {amount new minimum : Tez} {cycle : Nat}

@[simp] theorem amountsIn_cons (level : Level) (new : Tez) (older : List (Level × Tez)) :
    amountsIn level.cycle ((level, new) :: older) = new.mutez :: amountsIn level.cycle older := by
  simp [amountsIn]

theorem LeastIn.le_last (least : LeastIn cycle (last :: older) minimum) : minimum.mutez ≤ last.2.mutez := by
  apply least.2
  rw [amountsIn]
  split <;> simp

theorem leastIn_of_before (before : last.1.cycle < cycle) : LeastIn cycle (last :: older) last.2 := by
  simp [LeastIn, amountsIn, before]

theorem Tracks.minBeforeIncrease_eq_ok (tracks : Tracks balance last older)
    (later : last.1.cycle ≤ level.cycle) :
    ∃ minimum, minBeforeIncrease level balance = .ok minimum ∧
      cycleOfMinDelegated minimum.2 = level.cycle ∧ LeastIn level.cycle (last :: older) minimum.1 := by
  unfold minBeforeIncrease
  rw [tracks.cycle]
  rcases Nat.lt_or_eq_of_le later with before | same
  · rw [if_pos before]
    exact ⟨_, rfl, rfl, tracks.delegated ▸ leastIn_of_before before⟩
  · rw [if_neg (by omega), same, beq_self_eq_true]
    exact ⟨_, rfl, tracks.cycle.trans same, same ▸ tracks.least⟩

theorem Tracks.minAfterDecrease_eq_ok (tracks : Tracks balance last older)
    (later : last.1.cycle ≤ level.cycle) (removed : balance.delegated.sub amount = .ok new) :
    ∃ minimum, minAfterDecrease level new balance = .ok minimum ∧
      cycleOfMinDelegated minimum.2 = level.cycle ∧
      LeastIn level.cycle ((level, new) :: last :: older) minimum.1 := by
  have less : new.mutez ≤ balance.delegated.mutez := by
    rw [sub_eq_ok removed]
    exact Nat.le_add_right _ _
  unfold minAfterDecrease
  rw [tracks.cycle]
  rcases Nat.lt_or_eq_of_le later with before | same
  · rw [if_pos before]
    rw [tracks.delegated] at less
    refine ⟨_, rfl, rfl, ?_⟩
    simp [LeastIn, amountsIn, before, less]
  · obtain ⟨member, least⟩ := same ▸ tracks.least
    rw [if_neg (by omega), same, beq_self_eq_true]
    refine ⟨_, rfl, ?_, ?_⟩
    · dsimp only
      split
      · exact tracks.cycle.trans same
      · rfl
    · simp only [LeastIn, amountsIn_cons, List.mem_cons, forall_eq_or_imp, Tez.min]
      split
      · exact ⟨.inl rfl, le_rfl, fun amount other => by have := least amount other; omega⟩
      · exact ⟨.inr member, by omega, least⟩

theorem Tracks.add (tracks : Tracks balance last older) (later : last.1.cycle ≤ level.cycle)
    (added : balance.addDelegated level amount = .ok balance') :
    Tracks balance' (level, balance'.delegated) (last :: older) := by
  obtain ⟨minimum, before, cycle, least⟩ := tracks.minBeforeIncrease_eq_ok later
  rw [addDelegated, before, ok_bind] at added
  obtain ⟨delegated, sum, added⟩ := bind_eq_ok.1 added
  cases added
  have more := add_eq_ok sum
  have less := least.le_last
  rw [tracks.delegated] at more
  refine ⟨rfl, cycle, ?_⟩
  simp only [LeastIn, amountsIn_cons, List.mem_cons, forall_eq_or_imp]
  exact ⟨.inr least.1, by omega, least.2⟩

theorem Tracks.remove (tracks : Tracks balance last older) (later : last.1.cycle ≤ level.cycle)
    (removed : balance.removeDelegated level amount = .ok balance') :
    Tracks balance' (level, balance'.delegated) (last :: older) := by
  obtain ⟨delegated, rest, removed⟩ := bind_eq_ok.1 removed
  obtain ⟨minimum, after, cycle, least⟩ := tracks.minAfterDecrease_eq_ok later rest
  rw [after] at removed
  cases removed
  exact ⟨rfl, cycle, least⟩

theorem Delegating.tracks (delegating : Delegating balance (last :: older)) :
    Tracks balance last older := by
  generalize shape : last :: older = history at delegating
  induction delegating generalizing last older with
  | init =>
    cases shape
    refine ⟨rfl, rfl, ?_⟩
    simp [LeastIn, amountsIn, FullStakingBalance.init]
  | add _ later added ih =>
    cases shape
    exact (ih rfl).add later added
  | remove _ later removed ih =>
    cases shape
    exact (ih rfl).remove later removed

theorem min_delegated_exact (delegating : Delegating balance (last :: older))
    (current : last.1.cycle ≤ cycle) : (∃ minimum, balance.minDelegatedInCurrentCycle cycle = .ok minimum ∧
      minimum.mutez ∈ amountsIn cycle (last :: older) ∧
      ∀ amount ∈ amountsIn cycle (last :: older), minimum.mutez ≤ amount) ∧
    ∀ level amount exn, level.cycle = cycle → balance.addDelegated level amount ≠ .error (.raised exn) ∧
      balance.removeDelegated level amount ≠ .error (.raised exn) := by
  have tracks := delegating.tracks
  refine ⟨?_, ?_⟩
  · unfold minDelegatedInCurrentCycle
    rw [tracks.cycle]
    rcases Nat.lt_or_eq_of_le current with before | rfl
    · rw [if_pos before]
      exact ⟨_, rfl, tracks.delegated ▸ leastIn_of_before before⟩
    · rw [if_neg (Nat.lt_irrefl _), beq_self_eq_true]
      exact ⟨_, rfl, tracks.least⟩
  rintro level amount exn rfl
  constructor
  · obtain ⟨minimum, before, -⟩ := tracks.minBeforeIncrease_eq_ok current
    rw [addDelegated, before, ok_bind]
    intro raised
    rcases bind_eq_error.1 raised with failed | ⟨_, _, failed⟩
    · exact tez_add_not_raised _ _ _ failed
    · cases failed
  · intro raised
    rcases bind_eq_error.1 raised with failed | ⟨new, rest, failed⟩
    · unfold Tez.sub at failed
      split at failed <;> cases failed
    · obtain ⟨minimum, after, -⟩ := tracks.minAfterDecrease_eq_ok current rest
      rw [after] at failed
      cases failed

theorem decreased_in_next_cycle :
    let tez (n : Fin 4) : Tez := ⟨n, by unfold maxMutez; omega⟩
    ∃ balance minimum, Delegating balance [(⟨5, 1⟩, tez 2), (⟨0, 0⟩, tez 3)] ∧
      balance.minDelegatedInCurrentCycle 1 = .ok minimum ∧ minimum.mutez ∈ [2, 3] := by
  intro tez
  have started : Delegating _ _ := .init (tez 0) (tez 0) (tez 3) ⟨0, 0⟩
  have removed := started.remove (Nat.zero_le 1) (show removeDelegated ⟨5, 1⟩ (tez 1) _ = _ from rfl)
  obtain ⟨⟨minimum, read, member, -⟩, -⟩ := min_delegated_exact removed (Nat.le_refl 1)
  exact ⟨_, minimum, removed, read, member⟩

end Octez.Proof.Token
