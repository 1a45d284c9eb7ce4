import Octez.Proof.Slashing.Shares

namespace Octez.Proof.Slashing
open Octez.Lib Octez.Slashing

def balance (ledger : Ledger) : Giver → Nat
  | .baker => ledger.staking.ownFrozen.mutez
  | .stakers => ledger.staking.stakedFrozen.mutez
  | .unstaked cycle => (ledger.unstaked cycle).currentAmount.mutez

def isUnstaked : Giver → Bool
  | .unstaked _ => true
  | _ => false

def debits (who : Giver → Bool) (givers : List (Giver × Tez)) : Nat :=
  (givers.map fun giver => if who giver.1 then giver.2.mutez else 0).sum

section Debits
variable {who : Giver → Bool} {givers : List (Giver × Tez)}

@[simp] theorem debits_nil : debits who [] = 0 := rfl

@[simp] theorem debits_cons (giver : Giver) (amount : Tez) :
    debits who ((giver, amount) :: givers) = (if who giver then amount.mutez else 0) + debits who givers := by
  simp [debits]

@[simp] theorem debits_append (front : List (Giver × Tez)) :
    debits who (front ++ givers) = debits who front + debits who givers := by
  simp [debits]

theorem debits_filter :
    debits who (givers.filter fun giver => giver.2 ≠ Tez.zero) = debits who givers := by
  induction givers with
  | nil => rfl
  | cons giver givers ih =>
    obtain ⟨giver, amount⟩ := giver
    by_cases empty : amount = Tez.zero
    · have zero := mutez_eq_zero.1 empty
      simp_all
    · simp_all

theorem debits_eq_zero (others : ∀ giver ∈ givers, who giver.1 = false) : debits who givers = 0 := by
  induction givers with
  | nil => rfl
  | cons giver givers ih =>
    rw [debits_cons, others _ List.mem_cons_self,
      ih fun later inside => others later (List.mem_cons_of_mem _ inside)]
    rfl

theorem debits_all :
    debits (fun _ => true) givers =
      debits (· = .baker) givers + debits (· = .stakers) givers + debits isUnstaked givers := by
  induction givers with
  | nil => rfl
  | cons giver givers ih =>
    obtain ⟨giver, amount⟩ := giver
    cases giver <;> simp [isUnstaked, ih] <;> omega

end Debits

structure Covers (givers : List (Giver × Tez)) (ledger : Ledger) : Prop where
  accounts : ∀ giver, debits (· = giver) givers ≤ balance ledger giver
  delegated : debits isUnstaked givers ≤ ledger.staking.delegated.mutez

structure Debited (givers : List (Giver × Tez)) (ledger after : Ledger) : Prop where
  accounts : ∀ giver, balance after giver = balance ledger giver - debits (· = giver) givers
  delegated : after.staking.delegated.mutez =
    ledger.staking.delegated.mutez - debits isUnstaked givers

theorem spend_spec (ledger : Ledger) (giver : Giver) (amount : Tez)
    (covers : Covers [(giver, amount)] ledger) :
    ∃ after, spend ledger giver amount = .ok after ∧ Debited [(giver, amount)] ledger after ∧
      after.totalSupply = ledger.totalSupply := by
  have account := covers.accounts giver
  have delegated := covers.delegated
  cases giver with
  | baker =>
    obtain ⟨rest, subtracted, rest_eq⟩ := sub_of_le ledger.staking.ownFrozen amount
      (by simpa [balance] using account)
    refine ⟨_, bind_of_eq_ok subtracted _, ⟨?_, by simp [isUnstaked]⟩, rfl⟩
    intro giver
    cases giver <;> simp [balance, rest_eq]
  | stakers =>
    obtain ⟨rest, subtracted, rest_eq⟩ := sub_of_le ledger.staking.stakedFrozen amount
      (by simpa [balance] using account)
    refine ⟨_, bind_of_eq_ok subtracted _, ⟨?_, by simp [isUnstaked]⟩, rfl⟩
    intro giver
    cases giver <;> simp [balance, rest_eq]
  | unstaked cycle =>
    obtain ⟨rest, subtracted, rest_eq⟩ := sub_of_le ledger.staking.delegated amount
      (by simpa [isUnstaked] using delegated)
    obtain ⟨current, subtracted', current_eq⟩ := sub_of_le (ledger.unstaked cycle).currentAmount amount
      (by simpa [balance] using account)
    refine ⟨_, (bind_of_eq_ok subtracted _).trans (bind_of_eq_ok subtracted' _),
      ⟨?_, by simp [isUnstaked, rest_eq]⟩, rfl⟩
    intro giver
    cases giver with
    | baker | stakers => simp [balance]
    | unstaked other =>
      by_cases same : other = cycle
      · subst same
        simp [balance, current_eq]
      · simp [balance, same, Ne.symm same]

section Withdraw
variable {givers : List (Giver × Tez)} {ledger : Ledger}

theorem foldlM_withdraw (givers : List (Giver × Tez)) (ledger : Ledger) (acc : Tez)
    (covers : Covers givers ledger) (fits : debits (fun _ => true) givers + acc.mutez ≤ maxMutez) :
    ∃ after amount, givers.foldlM withdraw (ledger, acc) = .ok (after, amount) ∧
      Debited givers ledger after ∧ after.totalSupply = ledger.totalSupply ∧
      amount.mutez = debits (fun _ => true) givers + acc.mutez := by
  -- The tail is covered by what the head leaves in each account.
  induction givers generalizing ledger acc with
  | nil => exact ⟨ledger, acc, rfl, ⟨by simp, by simp⟩, rfl, by simp⟩
  | cons giver givers ih =>
    obtain ⟨giver, amount⟩ := giver
    simp only [debits_cons, if_true] at fits
    have accounts := covers.accounts
    have delegated := covers.delegated
    simp only [debits_cons] at accounts delegated
    obtain ⟨between, spent, debited, supply⟩ := spend_spec ledger giver amount
      ⟨fun account => by have := accounts account; simp only [debits_cons, debits_nil]; omega,
        by simp only [debits_cons, debits_nil]; omega⟩
    obtain ⟨sum, added, sum_eq⟩ := add_of_fits amount acc (by omega)
    have left := debited.accounts
    have left' := debited.delegated
    simp only [debits_cons, debits_nil, Nat.add_zero] at left left'
    obtain ⟨after, taken, folded, later, supply', taken_eq⟩ := ih between sum
      ⟨fun account => by have := accounts account; rw [left account]; omega, by omega⟩ (by omega)
    refine ⟨after, taken, ?_, ⟨?_, ?_⟩, supply'.trans supply, ?_⟩
    · rw [List.foldlM_cons, withdraw, bind_of_eq_ok spent, bind_of_eq_ok added]
      exact folded
    · intro account
      rw [later.accounts, left, debits_cons]
      omega
    · rw [later.delegated, left', debits_cons]
      omega
    · simp only [debits_cons, if_true]
      omega

def nonzero (givers : List (Giver × Tez)) : List (Giver × Tez) :=
  givers.filter fun giver => giver.2 ≠ Tez.zero

@[simp] theorem debits_nonzero (who : Giver → Bool) : debits who (nonzero givers) = debits who givers :=
  debits_filter

variable {receiver : Receiver}

theorem transferN_of_empty (empty : nonzero givers = []) : transferN ledger givers receiver = .ok ledger := by
  unfold nonzero at empty
  rw [transferN, empty]

theorem transferN_of_nonempty (nonempty : nonzero givers ≠ []) :
    transferN ledger givers receiver =
      (nonzero givers).foldlM withdraw (ledger, Tez.zero) >>=
        fun state => credit state.1 receiver state.2 := by
  unfold transferN
  split
  · contradiction
  · rfl

theorem nonzero_withdraw (covers : Covers givers ledger) (fits : debits (fun _ => true) givers ≤ maxMutez) :
    ∃ after amount, (nonzero givers).foldlM withdraw (ledger, Tez.zero) = .ok (after, amount) ∧
      Debited givers ledger after ∧ after.totalSupply = ledger.totalSupply ∧
      amount.mutez = debits (fun _ => true) givers := by
  obtain ⟨after, amount, folded, debited, supply, amount_eq⟩ :=
    foldlM_withdraw (nonzero givers) ledger Tez.zero
      ⟨by simpa using covers.accounts, by simpa using covers.delegated⟩ (by simpa [Tez.zero] using fits)
  exact ⟨after, amount, folded, ⟨by simpa using debited.accounts, by simpa using debited.delegated⟩,
    supply, by simpa [Tez.zero] using amount_eq⟩

theorem transferN_burn (covers : Covers givers ledger)
    (supplied : debits (fun _ => true) givers ≤ ledger.totalSupply.mutez) :
    ∃ after, transferN ledger givers .doubleSigningPunishments = .ok after ∧
      Debited givers ledger after := by
  by_cases empty : nonzero givers = []
  · have none (who : Giver → Bool) : debits who givers = 0 := by
      rw [← debits_nonzero, empty, debits_nil]
    exact ⟨ledger, transferN_of_empty empty, ⟨by simp [none], by simp [none]⟩⟩
  · obtain ⟨after, amount, folded, debited, supply, amount_eq⟩ :=
      nonzero_withdraw covers (supplied.trans ledger.totalSupply.le_max)
    obtain ⟨rest, subtracted, _⟩ := sub_of_le after.totalSupply amount
      (by rw [supply, amount_eq]; exact supplied)
    refine ⟨{ after with totalSupply := rest }, ?_, debited.accounts, debited.delegated⟩
    rw [transferN_of_nonempty empty, bind_of_eq_ok folded]
    exact bind_of_eq_ok subtracted _

theorem transferN_reward_ne_underflow (covers : Covers givers ledger)
    (fits : debits (fun _ => true) givers ≤ maxMutez) (a b : Tez) :
    transferN ledger givers .rewarded ≠ .error (.error (.subtractionUnderflow a b)) := by
  by_cases empty : nonzero givers = []
  · simp [transferN_of_empty empty]
  · obtain ⟨after, amount, folded, _⟩ := nonzero_withdraw covers fits
    rw [transferN_of_nonempty empty, bind_of_eq_ok folded]
    intro failed
    cases added : after.rewardedBalance.add amount with
    | ok sum => simp [credit, added] at failed
    | error failure =>
      have overflow := add_ne_underflow after.rewardedBalance amount a b
      simp only [credit, added, error_bind] at failed overflow
      exact overflow (congrArg Except.error (Except.error.inj failed))

theorem transferN_underflow {front} {amount : Tez} (covers : Covers front ledger)
    (fits : debits (fun _ => true) front ≤ maxMutez) (untouched : debits (· = .baker) front = 0)
    (short : ledger.staking.ownFrozen.mutez < amount.mutez) :
    ∃ a b, transferN ledger (front ++ (.baker, amount) :: givers) receiver =
      .error (.error (.subtractionUnderflow a b)) := by
  obtain ⟨between, taken, folded, debited, _⟩ := nonzero_withdraw covers fits
  have nonempty : amount ≠ Tez.zero := by
    rw [ne_eq, mutez_eq_zero]
    omega
  have split : nonzero (front ++ (.baker, amount) :: givers) =
      nonzero front ++ (.baker, amount) :: nonzero givers := by
    simp [nonzero, nonempty]
  have left : between.staking.ownFrozen.mutez = ledger.staking.ownFrozen.mutez := by
    have account := debited.accounts .baker
    rw [untouched] at account
    exact account
  refine ⟨between.staking.ownFrozen, amount, ?_⟩
  rw [transferN_of_nonempty (by simp [split]), split, List.foldlM_append, bind_of_eq_ok folded,
    List.foldlM_cons, withdraw, spend, Tez.sub, if_neg (Nat.not_le.2 (left ▸ short))]
  rfl

end Withdraw

section Unstaked
variable (slash : Slash) (ledger : Ledger)

theorem foldlM_addUnstaked {cycles : List Nat} (distinct : cycles.Nodup)
    (acc : List (Giver × Tez) × List (Giver × Tez)) :
    ∃ toBurn toReward,
      cycles.foldlM (addUnstaked slash ledger) acc = .ok (toBurn ++ acc.1, toReward ++ acc.2) ∧
      (∀ giver ∈ toBurn ++ toReward, isUnstaked giver.1) ∧
      (∀ cycle, debits (· = .unstaked cycle) (toBurn ++ toReward) ≤
        if cycle ∈ cycles then (ledger.unstaked cycle).currentAmount.mutez else 0) ∧
      debits isUnstaked (toBurn ++ toReward) ≤
        (cycles.map fun cycle => (ledger.unstaked cycle).currentAmount.mutez).sum := by
  induction cycles generalizing acc with
  | nil => exact ⟨[], [], rfl, by simp, by simp, by simp⟩
  | cons cycle cycles ih =>
    obtain ⟨amounts, computed, _, sum_eq⟩ := computeRewardAndBurn_spec slash.slashingPercentage
      (ledger.unstaked cycle) slash.globalLimitOfStakingOverBaking
    have bound : amounts.amountToBurn.mutez + amounts.reward.mutez ≤
        (ledger.unstaked cycle).currentAmount.mutez := by
      rw [sum_eq, computePunishingAmount_mutez]
      exact Nat.min_le_right _ _
    obtain ⟨fresh, distinct⟩ := List.nodup_cons.1 distinct
    obtain ⟨toBurn, toReward, folded, unstaked, perCycle, all⟩ := ih distinct
      ((.unstaked cycle, amounts.amountToBurn) :: acc.1, (.unstaked cycle, amounts.reward) :: acc.2)
    refine ⟨toBurn ++ [(.unstaked cycle, amounts.amountToBurn)],
      toReward ++ [(.unstaked cycle, amounts.reward)], ?_, ?_, ?_, ?_⟩
    · rw [List.foldlM_cons, addUnstaked, bind_of_eq_ok computed]
      simp only [pure_eq_ok, ok_bind, List.append_assoc, List.singleton_append]
      exact folded
    · intro giver inside
      simp only [List.mem_append, List.mem_singleton] at inside unstaked
      rcases inside with (inside | rfl) | inside | rfl
      · exact unstaked giver (.inl inside)
      · rfl
      · exact unstaked giver (.inr inside)
      · rfl
    · intro other
      have earlier := perCycle other
      by_cases same : other = cycle
      · subst same
        simp [fresh] at earlier ⊢
        omega
      · simp [same, Ne.symm same] at earlier ⊢
        omega
    · simp only [debits_append, debits_cons, debits_nil, isUnstaked, List.map_cons,
        List.sum_cons, if_true] at all ⊢
      omega

end Unstaked

/-- Unstaked deposits count as delegated stake, and every balance counts in the total supply. -/
structure Consistent (slash : Slash) (ledger : Ledger) : Prop where
  unstaked : ((slashableCycles slash.misbehaviourCycle slash.slashableDepositsPeriod).map
    fun cycle => (ledger.unstaked cycle).currentAmount.mutez).sum ≤ ledger.staking.delegated.mutez
  supply : total ledger + ledger.staking.delegated.mutez ≤ ledger.totalSupply.mutez

variable {slash : Slash} {ledger : Ledger}

def frozenGivers (shared : Shared) : List (Giver × Tez) :=
  [(.baker, shared.bakerPart), (.stakers, shared.stakersPart)]

theorem applySlash_eq (consistent : Consistent slash ledger) {toBurn toReward : Shared}
    (shares : frozenShares slash ledger = .ok (toBurn, toReward)) :
    ∃ burning rewarding,
      applySlash slash ledger =
        transferN ledger (burning ++ frozenGivers toBurn) .doubleSigningPunishments >>=
          (transferN · (rewarding ++ frozenGivers toReward) .rewarded) ∧
      (∀ giver ∈ burning ++ rewarding, isUnstaked giver.1) ∧
      (∀ cycle, debits (· = .unstaked cycle) (burning ++ rewarding) ≤
        balance ledger (.unstaked cycle)) ∧
      debits isUnstaked (burning ++ rewarding) ≤ ledger.staking.delegated.mutez := by
  have distinct : (slashableCycles slash.misbehaviourCycle slash.slashableDepositsPeriod).Nodup :=
    List.nodup_range'
  obtain ⟨burning, rewarding, folded, unstaked, perCycle, all⟩ :=
    foldlM_addUnstaked slash ledger distinct (frozenGivers toBurn, frozenGivers toReward)
  refine ⟨burning, rewarding, ?_, unstaked, ?_, all.trans consistent.unstaked⟩
  · unfold applySlash
    rw [bind_of_eq_ok shares]
    exact bind_of_eq_ok folded _
  · intro cycle
    refine (perCycle cycle).trans ?_
    split
    · exact le_rfl
    · exact Nat.zero_le _

theorem debits_frozen_of_unstaked {givers} (giver : Giver)
    (unstaked : ∀ account ∈ givers, isUnstaked account.1) (frozen : isUnstaked giver = false) :
    debits (· = giver) givers = 0 := by
  apply debits_eq_zero
  intro account inside
  have kind := unstaked account inside
  rw [decide_eq_false_iff_not]
  rintro rfl
  rw [frozen] at kind
  contradiction

section Lists
variable {givers : List (Giver × Tez)} {shared : Shared} (unstaked : ∀ account ∈ givers, isUnstaked account.1)
include unstaked

theorem debits_baker :
    debits (· = .baker) (givers ++ frozenGivers shared) = shared.bakerPart.mutez := by
  rw [debits_append, debits_frozen_of_unstaked _ unstaked rfl]
  simp [frozenGivers]

theorem debits_stakers :
    debits (· = .stakers) (givers ++ frozenGivers shared) = shared.stakersPart.mutez := by
  rw [debits_append, debits_frozen_of_unstaked _ unstaked rfl]
  simp [frozenGivers]

omit unstaked in
theorem debits_unstaked_frozen :
    debits isUnstaked (givers ++ frozenGivers shared) = debits isUnstaked givers := by
  simp [isUnstaked, frozenGivers]

omit unstaked in
theorem debits_cycle (cycle : Nat) :
    debits (· = .unstaked cycle) (givers ++ frozenGivers shared) = debits (· = .unstaked cycle) givers := by
  simp [frozenGivers]

theorem covers_of_parts {state : Ledger} (baker : shared.bakerPart.mutez ≤ state.staking.ownFrozen.mutez)
    (stakers : shared.stakersPart.mutez ≤ state.staking.stakedFrozen.mutez)
    (cycles : ∀ cycle, debits (· = .unstaked cycle) givers ≤ balance state (.unstaked cycle))
    (delegated : debits isUnstaked givers ≤ state.staking.delegated.mutez) :
    Covers (givers ++ frozenGivers shared) state := by
  refine ⟨?_, by rwa [debits_unstaked_frozen]⟩
  intro giver
  cases giver with
  | baker => rwa [debits_baker unstaked]
  | stakers => rwa [debits_stakers unstaked]
  | unstaked cycle => rw [debits_cycle]; exact cycles cycle

theorem debits_all_frozen :
    debits (fun _ => true) (givers ++ frozenGivers shared) =
      shared.bakerPart.mutez + shared.stakersPart.mutez + debits isUnstaked givers := by
  rw [debits_all, debits_baker unstaked, debits_stakers unstaked, debits_unstaked_frozen]

end Lists

theorem bakerShare_le (ledger : Ledger) {amount : Nat} (covered : amount ≤ total ledger) :
    bakerShare ledger amount ≤ ledger.staking.ownFrozen.mutez := by
  rcases Nat.eq_zero_or_pos (total ledger) with empty | positive
  · simp [bakerShare, cdiv, empty]
  · exact cdiv_le positive (Nat.mul_le_mul_right _ covered)

theorem applySlash_underflow_iff (consistent : Consistent slash ledger)
    {toBurn toReward : Shared} (shares : frozenShares slash ledger = .ok (toBurn, toReward))
    (burnBaker : toBurn.bakerPart.mutez ≤ ledger.staking.ownFrozen.mutez)
    (stakers : toBurn.stakersPart.mutez + toReward.stakersPart.mutez ≤
      ledger.staking.stakedFrozen.mutez) :
    (∃ a b, applySlash slash ledger = .error (.error (.subtractionUnderflow a b))) ↔
      ledger.staking.ownFrozen.mutez < toBurn.bakerPart.mutez + toReward.bakerPart.mutez := by
  have supply := consistent.supply
  have fits := ledger.totalSupply.le_max
  unfold total at supply
  obtain ⟨burning, rewarding, transfers, unstaked, perCycle, delegated⟩ :=
    applySlash_eq consistent shares
  simp only [debits_append] at perCycle delegated
  have unstakedBurn : ∀ giver ∈ burning, isUnstaked giver.1 :=
    fun giver inside => unstaked giver (List.mem_append_left _ inside)
  have unstakedReward : ∀ giver ∈ rewarding, isUnstaked giver.1 :=
    fun giver inside => unstaked giver (List.mem_append_right _ inside)
  have covers : Covers (burning ++ frozenGivers toBurn) ledger := by
    refine covers_of_parts unstakedBurn burnBaker (by omega) ?_ (by omega)
    intro cycle
    have both := perCycle cycle
    omega
  obtain ⟨after, burnt, debited⟩ := transferN_burn covers (by
    rw [debits_all_frozen unstakedBurn]
    omega)
  have ownLeft := debited.accounts .baker
  have stakedLeft := debited.accounts .stakers
  have delegatedLeft := debited.delegated
  rw [debits_baker unstakedBurn] at ownLeft
  rw [debits_stakers unstakedBurn] at stakedLeft
  rw [debits_unstaked_frozen] at delegatedLeft
  simp only [balance] at ownLeft stakedLeft
  have cyclesLeft (cycle : Nat) :
      debits (· = .unstaked cycle) rewarding ≤ balance after (.unstaked cycle) := by
    have both := perCycle cycle
    rw [debited.accounts, debits_cycle]
    omega
  rw [transfers, bind_of_eq_ok burnt]
  constructor
  · rintro ⟨a, b, failed⟩
    by_contra enough
    refine transferN_reward_ne_underflow (covers_of_parts unstakedReward (by omega) (by omega)
      cyclesLeft (by omega)) ?_ a b failed
    rw [debits_all_frozen unstakedReward]
    omega
  · intro short
    have onlyUnstaked := debits_frozen_of_unstaked .baker unstakedReward rfl
    have noStakers := debits_frozen_of_unstaked .stakers unstakedReward rfl
    refine transferN_underflow ⟨?_, by omega⟩ ?_ onlyUnstaked (by omega)
    · intro giver
      cases giver with
      | baker | stakers => omega
      | unstaked cycle => exact cyclesLeft cycle
    · rw [debits_all]
      omega

/-- The parts of a slash stay within the frozen deposits, and its transfers do not underflow,
exactly when rounding the two baker parts up fits. -/
theorem slash_within_deposits_iff (slash : Slash) {ledger : Ledger} (fits : total ledger ≤ maxMutez) :
    ∃ toBurn toReward, frozenShares slash ledger = .ok (toBurn, toReward) ∧
      (toBurn.bakerPart.mutez + toReward.bakerPart.mutez ≤ ledger.staking.ownFrozen.mutez ∧
        toBurn.stakersPart.mutez + toReward.stakersPart.mutez ≤
          ledger.staking.stakedFrozen.mutez ↔ RoundingFits slash ledger) ∧ (Consistent slash ledger →
        ((∀ a b, applySlash slash ledger ≠ .error (.error (.subtractionUnderflow a b))) ↔
          RoundingFits slash ledger)) := by
  obtain ⟨toBurn, toReward, shares, baker, split, baker', split'⟩ :=
    frozenShares_spec slash fits
  have stakers := stakersShares_le slash ledger
  have bound := punished_le slash ledger
  have parts := burnt_add_reward slash ledger
  have burnBaker := bakerShare_le ledger (show burnt slash ledger ≤ _ by omega)
  rw [← baker] at burnBaker
  have stakersFit : toBurn.stakersPart.mutez + toReward.stakersPart.mutez ≤
      ledger.staking.stakedFrozen.mutez := by omega
  have bakerFits := bakerShares_le_iff slash ledger
  rw [← baker, ← baker'] at bakerFits
  refine ⟨toBurn, toReward, shares, ?_, ?_⟩
  · rw [← bakerFits]
    exact and_iff_left stakersFit
  · intro consistent
    have underflow := applySlash_underflow_iff consistent shares burnBaker stakersFit
    rw [← bakerFits, ← Nat.not_lt, ← underflow]
    push Not
    rfl

def noDeposits : Deposits := ⟨Tez.zero, Tez.zero⟩

-- A baker with 6000 tez of its own and 1000 tez of its stakers.
def smallBaker : Ledger where
  staking := ⟨⟨6000000000, by decide⟩, ⟨1000000000, by decide⟩, Tez.zero⟩
  unstaked := fun _ => noDeposits
  totalSupply := ⟨7000000000, by decide⟩
  rewardedBalance := Tez.zero

def slashOf (percentage : Percentage) : Slash where
  slashingPercentage := percentage
  initialAmount := ⟨7000000000, by decide⟩
  globalLimitOfStakingOverBaking := 5
  misbehaviourCycle := 4
  slashableDepositsPeriod := 2

theorem smallBaker_consistent (percentage : Percentage) :
    Consistent (slashOf percentage) smallBaker :=
  ⟨by simp [slashOf, slashableCycles, smallBaker, noDeposits, Tez.zero],
    by simp [total, smallBaker, Tez.zero]⟩

theorem smallBaker_half_slashed :
    RoundingFits (slashOf ⟨5000, by decide⟩) smallBaker ∧
      ∀ a b, applySlash (slashOf ⟨5000, by decide⟩) smallBaker ≠
        .error (.error (.subtractionUnderflow a b)) := by
  obtain ⟨_, _, _, _, underflow⟩ :=
    slash_within_deposits_iff (slashOf ⟨5000, by decide⟩) (show total smallBaker ≤ maxMutez by decide)
  have fits : RoundingFits (slashOf ⟨5000, by decide⟩) smallBaker := by
    unfold RoundingFits
    decide
  exact ⟨fits, (underflow (smallBaker_consistent _)).2 fits⟩

/-- A full slash of the same baker takes one mutez too much from it. -/
theorem smallBaker_full_slash_overdraws :
    Consistent (slashOf ⟨10000, by decide⟩) smallBaker ∧
      (∃ toBurn toReward, frozenShares (slashOf ⟨10000, by decide⟩) smallBaker = .ok (toBurn, toReward) ∧
        smallBaker.staking.ownFrozen.mutez <
          toBurn.bakerPart.mutez + toReward.bakerPart.mutez) ∧
      ∃ a b, applySlash (slashOf ⟨10000, by decide⟩) smallBaker =
        .error (.error (.subtractionUnderflow a b)) := by
  obtain ⟨toBurn, toReward, shares, baker, split, baker', split'⟩ :=
    frozenShares_spec (slashOf ⟨10000, by decide⟩) (show total smallBaker ≤ maxMutez by decide)
  have burnBaker : bakerShare smallBaker (burnt (slashOf ⟨10000, by decide⟩) smallBaker) =
    5142857143 := by decide
  have rewardBaker : bakerShare smallBaker (reward (slashOf ⟨10000, by decide⟩) smallBaker) =
    857142858 := by decide
  have all : burnt (slashOf ⟨10000, by decide⟩) smallBaker = 6000000000 := by decide
  have rest : reward (slashOf ⟨10000, by decide⟩) smallBaker = 1000000000 := by decide
  have own : smallBaker.staking.ownFrozen.mutez = 6000000000 := rfl
  have staked : smallBaker.staking.stakedFrozen.mutez = 1000000000 := rfl
  have short : smallBaker.staking.ownFrozen.mutez <
      toBurn.bakerPart.mutez + toReward.bakerPart.mutez := by omega
  refine ⟨smallBaker_consistent _, ⟨toBurn, toReward, shares, short⟩, ?_⟩
  exact (applySlash_underflow_iff (smallBaker_consistent _) shares (by omega) (by omega)).2 short

end Octez.Proof.Slashing
