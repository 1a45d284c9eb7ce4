import Octez.Model.Slashing

namespace Octez.Proof.Slashing
open Octez.Lib Octez.Slashing Percentage

section Amounts
variable {tez1 tez2 : Tez}

theorem sub_of_le (tez1 tez2 : Tez) (covered : tez2.mutez ≤ tez1.mutez) :
    ∃ rest, tez1.sub tez2 = .ok rest ∧ rest.mutez = tez1.mutez - tez2.mutez := by
  refine ⟨⟨tez1.mutez - tez2.mutez, (Nat.sub_le _ _).trans tez1.le_max⟩, ?_, rfl⟩
  rw [Tez.sub, if_pos covered]

theorem wrap64_of_le_maxMutez {first second : Nat} (fits : first + second ≤ maxMutez) :
    wrap64 (first + second) = first + second := by
  unfold maxMutez at fits
  apply wrap64_of_fits
  · omega
  · unfold maxInt64
    omega

theorem add_of_fits (tez1 tez2 : Tez) (fits : tez1.mutez + tez2.mutez ≤ maxMutez) :
    ∃ sum, tez1.add tez2 = .ok sum ∧ sum.mutez = tez1.mutez + tez2.mutez := by
  have exact_sum := wrap64_of_le_maxMutez fits
  refine ⟨⟨tez1.mutez + tez2.mutez, fits⟩, ?_, rfl⟩
  simp only [Tez.add, exact_sum]
  rw [if_neg (by omega)]
  congr 2

theorem add_ne_underflow (tez1 tez2 a b : Tez) :
    tez1.add tez2 ≠ .error (.error (.subtractionUnderflow a b)) := by
  unfold Tez.add
  dsimp only
  split <;> simp [tzfail]

theorem mulRatio_of_fits (rounding : Rounding) (tez : Tez) (num : Nat) {den : Nat}
    (positive : 0 < den) (fits : Tez.roundedDiv rounding (tez.mutez * num) den ≤ maxMutez) :
    tez.mulRatio rounding num den = .ok ⟨_, fits⟩ := by
  unfold Tez.mulRatio
  rw [if_neg (by omega), if_neg (by omega)]
  exact dif_pos fits

theorem mulRatio_of_le (rounding : Rounding) (tez : Tez) {num den : Nat} (positive : 0 < den)
    (part : num ≤ den) : ∃ product, tez.mulRatio rounding num den = .ok product ∧
      product.mutez = Tez.roundedDiv rounding (tez.mutez * num) den ∧ product.mutez ≤ tez.mutez := by
  have le : Tez.roundedDiv rounding (tez.mutez * num) den ≤ tez.mutez :=
    (Tez.roundedDiv_le_cdiv rounding _ positive).trans (cdiv_share_le positive part tez.mutez)
  exact ⟨_, mulRatio_of_fits rounding tez num positive (le.trans tez.le_max), rfl, le⟩

theorem points_eq_toQ (percentage : Percentage) : ∃ g > 0,
    percentage.points = g * percentage.toQ.1 ∧ oneHundredPercent = g * percentage.toQ.2 :=
  ⟨Nat.gcd percentage.points oneHundredPercent, Nat.gcd_pos_of_pos_right _ (by decide),
    (Nat.mul_div_cancel' (Nat.gcd_dvd_left _ _)).symm, (Nat.mul_div_cancel' (Nat.gcd_dvd_right _ _)).symm⟩

theorem mulPercentage_down (tez : Tez) (percentage : Percentage) :
    (tez.mulPercentage .down percentage).mutez = tez.mutez * percentage.points / oneHundredPercent := by
  obtain ⟨g, positive, points, hundred⟩ := points_eq_toQ percentage
  rw [points, hundred, Nat.mul_left_comm, Nat.mul_div_mul_left _ _ positive]
  rfl

theorem min_mutez : (Tez.min tez1 tez2).mutez = min tez1.mutez tez2.mutez := by
  unfold Tez.min
  split <;> omega

end Amounts

variable (percentage : Percentage)

def punishedAmount (initial current : Nat) : Nat :=
  min (initial * percentage.points / oneHundredPercent) current

theorem computePunishingAmount_mutez (deposits : Deposits) :
    (computePunishingAmount percentage deposits).mutez =
      punishedAmount percentage deposits.initialAmount.mutez deposits.currentAmount.mutez := by
  rw [computePunishingAmount, min_mutez, mulPercentage_down, punishedAmount]

theorem computeRewardAndBurn_spec (deposits : Deposits) (limit : Nat) :
    ∃ amounts, computeRewardAndBurn percentage deposits limit = .ok amounts ∧
      amounts.reward.mutez = (computePunishingAmount percentage deposits).mutez / (limit + 2) ∧
      amounts.amountToBurn.mutez + amounts.reward.mutez =
        (computePunishingAmount percentage deposits).mutez := by
  generalize punished : computePunishingAmount percentage deposits = punishing
  have reward_le : punishing.mutez / (limit + 2) ≤ punishing.mutez := Nat.div_le_self _ _
  have divided : punishing.div ((limit : Int) + 2) =
      .ok ⟨punishing.mutez / (limit + 2), reward_le.trans punishing.le_max⟩ := by
    rfl
  obtain ⟨rest, subtracted, rest_eq⟩ :=
    sub_of_le punishing ⟨_, reward_le.trans punishing.le_max⟩ reward_le
  refine ⟨⟨⟨_, reward_le.trans punishing.le_max⟩, rest⟩, ?_, rfl, ?_⟩
  · simp only [computeRewardAndBurn, punished]
    rw [bind_of_eq_ok divided, bind_of_eq_ok subtracted]
    rfl
  · simp only [rest_eq]
    omega

section Share
variable {balance : FullStakingBalance} {amount : Tez}

theorem mutez_eq_zero {tez : Tez} : tez = Tez.zero ↔ tez.mutez = 0 := by
  constructor
  · rintro rfl
    rfl
  · intro empty
    cases tez
    congr

theorem ownRatio_spec (fits : balance.ownFrozen.mutez + balance.stakedFrozen.mutez ≤ maxMutez) :
    ∃ num den : Nat, balance.ownRatio = (↑num, ↑den) ∧ 0 < den ∧ num ≤ den ∧
      num * (balance.ownFrozen.mutez + balance.stakedFrozen.mutez) = balance.ownFrozen.mutez * den ∧
      (balance.stakedFrozen.mutez = 0 → num = den) := by
  simp only [FullStakingBalance.ownRatio, mutez_eq_zero]
  by_cases unstaked : balance.stakedFrozen.mutez = 0
  · rw [if_pos unstaked, unstaked]
    exact ⟨1, 1, rfl, by omega, le_rfl, by omega, fun _ => rfl⟩
  rw [if_neg unstaked]
  by_cases none : balance.ownFrozen.mutez = 0
  · rw [if_pos none, none]
    exact ⟨0, 1, rfl, by omega, by omega, by omega, fun empty => absurd empty unstaked⟩
  · rw [if_neg none, wrap64_of_le_maxMutez fits]
    exact ⟨_, _, rfl, by omega, by omega, rfl, fun empty => absurd empty unstaked⟩

theorem share_spec (amount : Tez) (fits : balance.ownFrozen.mutez + balance.stakedFrozen.mutez ≤ maxMutez) :
    ∃ shared, share .towardsBaker balance amount = .ok shared ∧
      shared.bakerPart.mutez + shared.stakersPart.mutez = amount.mutez ∧
      (amount.mutez = 0 ∨ 0 < balance.ownFrozen.mutez + balance.stakedFrozen.mutez →
        shared.bakerPart.mutez = cdiv (amount.mutez * balance.ownFrozen.mutez)
          (balance.ownFrozen.mutez + balance.stakedFrozen.mutez)) ∧
      (balance.stakedFrozen.mutez = 0 → shared.stakersPart.mutez = 0) := by
  obtain ⟨num, den, ratio, den_pos, part, cross, all⟩ := ownRatio_spec fits
  obtain ⟨baker, multiplied, baker_eq, baker_le⟩ := mulRatio_of_le .up amount den_pos part
  obtain ⟨rest, subtracted, rest_eq⟩ := sub_of_le amount baker baker_le
  refine ⟨⟨baker, rest⟩, ?_, by simp only; omega, fun covered => ?_, fun unstaked => ?_⟩
  · unfold share
    rw [ratio]
    dsimp only
    rw [bind_of_eq_ok multiplied, bind_of_eq_ok subtracted]
    rfl
  · rcases covered with empty | positive
    · rw [empty, Nat.zero_mul, zero_cdiv]
      exact Nat.le_zero.1 (baker_le.trans empty.le)
    · rw [baker_eq]
      apply cdiv_congr den_pos positive
      rw [Nat.mul_assoc, cross, Nat.mul_assoc]
  · have whole : cdiv (amount.mutez * den) den = amount.mutez := by
      rw [cdiv_eq den_pos, Nat.mul_mod_left, if_pos rfl, Nat.mul_div_cancel _ den_pos]
      rfl
    rw [all unstaked, Tez.roundedDiv, whole] at baker_eq
    simp only
    omega

end Share

section Frozen
variable (slash : Slash) (ledger : Ledger)

def total : Nat := ledger.staking.ownFrozen.mutez + ledger.staking.stakedFrozen.mutez

def punished : Nat :=
  punishedAmount slash.slashingPercentage slash.initialAmount.mutez (total ledger)

def reward : Nat := punished slash ledger / (slash.globalLimitOfStakingOverBaking + 2)

def burnt : Nat := punished slash ledger - reward slash ledger

/-- One of the two baker parts is integral, or what is left of the deposits makes up for rounding
both of them up. -/
def RoundingFits : Prop :=
  burnt slash ledger * ledger.staking.ownFrozen.mutez % total ledger = 0 ∨
  reward slash ledger * ledger.staking.ownFrozen.mutez % total ledger = 0 ∨
  total ledger < (total ledger - punished slash ledger) * ledger.staking.ownFrozen.mutez +
    burnt slash ledger * ledger.staking.ownFrozen.mutez % total ledger +
    reward slash ledger * ledger.staking.ownFrozen.mutez % total ledger

theorem burnt_add_reward : burnt slash ledger + reward slash ledger = punished slash ledger := by
  have reward_le : reward slash ledger ≤ punished slash ledger := Nat.div_le_self _ _
  unfold burnt
  omega

theorem punished_le : punished slash ledger ≤ total ledger := Nat.min_le_right _ _

def bakerShare (amount : Nat) : Nat :=
  cdiv (amount * ledger.staking.ownFrozen.mutez) (total ledger)

theorem frozenShares_spec {ledger : Ledger} (fits : total ledger ≤ maxMutez) :
    ∃ toBurn toReward, frozenShares slash ledger = .ok (toBurn, toReward) ∧
      toBurn.bakerPart.mutez = bakerShare ledger (burnt slash ledger) ∧
      toBurn.bakerPart.mutez + toBurn.stakersPart.mutez = burnt slash ledger ∧
      toReward.bakerPart.mutez = bakerShare ledger (reward slash ledger) ∧
      toReward.bakerPart.mutez + toReward.stakersPart.mutez = reward slash ledger := by
  have bound := punished_le slash ledger
  have parts := burnt_add_reward slash ledger
  obtain ⟨current, summed, current_eq⟩ := add_of_fits _ _ fits
  obtain ⟨staked, computed, reward_eq, sum_eq⟩ := computeRewardAndBurn_spec
    slash.slashingPercentage ⟨slash.initialAmount, current⟩ slash.globalLimitOfStakingOverBaking
  rw [computePunishingAmount_mutez] at reward_eq sum_eq
  simp only [current_eq] at reward_eq sum_eq
  change staked.reward.mutez = reward slash ledger at reward_eq
  change _ = punished slash ledger at sum_eq
  have burnt_eq : staked.amountToBurn.mutez = burnt slash ledger := by omega
  obtain ⟨toBurn, shared, split_eq, baker_eq, -⟩ := share_spec staked.amountToBurn fits
  obtain ⟨toReward, shared', split_eq', baker_eq', -⟩ := share_spec staked.reward fits
  rw [burnt_eq] at baker_eq split_eq
  rw [reward_eq] at baker_eq' split_eq'
  refine ⟨toBurn, toReward, ?_, baker_eq (by unfold total at *; omega), split_eq,
    baker_eq' (by unfold total at *; omega), split_eq'⟩
  unfold frozenShares FullStakingBalance.totalFrozen
  rw [bind_of_eq_ok summed, bind_of_eq_ok computed, bind_of_eq_ok shared, bind_of_eq_ok shared']
  rfl

theorem bakerShares_le_iff :
    bakerShare ledger (burnt slash ledger) + bakerShare ledger (reward slash ledger) ≤
      ledger.staking.ownFrozen.mutez ↔ RoundingFits slash ledger := by
  have bound := punished_le slash ledger
  have parts := burnt_add_reward slash ledger
  rcases Nat.eq_zero_or_pos (total ledger) with empty | positive
  · have none : ledger.staking.ownFrozen.mutez = 0 := by
      unfold total at empty
      omega
    simp [bakerShare, RoundingFits, cdiv, empty, none]
  · rw [RoundingFits, ← parts]
    exact shares_le_iff positive (parts.trans_le bound)

theorem stakersShares_le : (burnt slash ledger - bakerShare ledger (burnt slash ledger)) +
      (reward slash ledger - bakerShare ledger (reward slash ledger)) ≤
        ledger.staking.stakedFrozen.mutez := by
  have bound := punished_le slash ledger
  have parts := burnt_add_reward slash ledger
  rcases Nat.eq_zero_or_pos (total ledger) with empty | positive
  · omega
  · have rest := rest_of_shares_le positive
      (show ledger.staking.ownFrozen.mutez ≤ total ledger from Nat.le_add_right _ _) (parts.trans_le bound)
    have own : total ledger - ledger.staking.ownFrozen.mutez = ledger.staking.stakedFrozen.mutez :=
      Nat.add_sub_cancel_left _ _
    rw [own] at rest
    exact rest

end Frozen

end Octez.Proof.Slashing
