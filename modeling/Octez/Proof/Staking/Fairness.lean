import Octez.Lib.SharePool
import Octez.Proof.Staking.Pools

namespace Octez.Proof.Staking
open Octez.Lib Octez.Staking SharePool
variable {Pkh : Type} [DecidableEq Pkh]

/-- Stakes and requests to unstake of contracts, with the delegate that each one has, interleaved
with rewards and slashes. -/
inductive PoolStep : Context Pkh → Context Pkh → Prop where
  | stake {ctxt after : Context Pkh} {forNextCycle : Bool} {amount : StakeAmount}
      {sender delegate : Pkh} (delegated : ctxt.delegate sender = some delegate)
      (applied : stake forNextCycle ctxt amount sender delegate = .ok after) : PoolStep ctxt after
  | unstake {ctxt after : Context Pkh} {forNextCycle : Bool} {amount : Tez}
      {sender delegate : Pkh} (delegated : ctxt.delegate sender = some delegate)
      (applied : requestUnstake forNextCycle ctxt sender delegate amount = .ok after) :
      PoolStep ctxt after
  | reward {ctxt after : Context Pkh} {activeStake : Stake} {edge : Int} {delegate : Pkh}
      {rewards : Tez}
      (applied : payRewards ctxt activeStake edge .infiniteSource delegate rewards = .ok after) :
      PoolStep ctxt after
  | slash {ctxt after : Context Pkh} {slash : Slash Pkh}
      (applied : applyDenunciation ctxt slash = .ok after) : PoolStep ctxt after

structure Pool (stakers : Finset Pkh) (delegate : Pkh) (ctxt : Context Pkh) : Prop where
  members : ∀ contract, contract ∈ stakers ↔ ctxt.delegate contract = some delegate
  supply : supplyOf ctxt delegate = ∑ staker ∈ stakers, ownedBy ctxt staker
  empty : supplyOf ctxt delegate = 0 → stakedOn ctxt delegate = 0

namespace Pool
variable {stakers : Finset Pkh} {delegate pool staker : Pkh} {ctxt after : Context Pkh}
  {amount change : Nat}

omit [DecidableEq Pkh] in
theorem owned_le (isPool : Pool stakers delegate ctxt) (member : staker ∈ stakers) :
    ownedBy ctxt staker ≤ supplyOf ctxt delegate := by
  rw [isPool.supply]
  exact Finset.single_le_sum (fun _ _ => Nat.zero_le _) member

omit [DecidableEq Pkh] in
theorem sameShares (isPool : Pool stakers delegate ctxt) (same : SameShares ctxt after) :
    Pool stakers delegate after where
  members := by
    rw [same.delegate]
    exact isPool.members
  supply := by
    simp only [supplyOf, ownedBy, same.supply, same.owned]
    exact isPool.supply
  empty none := by
    rw [supplyOf, same.supply] at none
    exact same.empty delegate (isPool.empty none)

/-- The stakers of a delegate own its supply after `change` more of it is given to one of them, just
as when they owned it before. -/
theorem supply_iff {less more : Context Pkh} (member : staker ∈ stakers ↔ delegate = pool)
    (owned : ∀ other, ownedBy more other = ownedBy less other + if other = staker then change else 0)
    (supply : ∀ other,
      supplyOf more other = supplyOf less other + if other = pool then change else 0) :
    supplyOf more delegate = ∑ staker ∈ stakers, ownedBy more staker ↔
      supplyOf less delegate = ∑ staker ∈ stakers, ownedBy less staker := by
  simp only [owned, supply, Finset.sum_add_distrib, Finset.sum_ite_eq', member, Nat.add_right_cancel_iff]

section
variable (isPool : Pool stakers delegate ctxt)
include isPool

omit [DecidableEq Pkh] in
theorem mem_iff (delegated : ctxt.delegate staker = some pool) : staker ∈ stakers ↔ delegate = pool := by
  rw [isPool.members, delegated, Option.some.injEq, eq_comm]

theorem staked (delegated : ctxt.delegate staker = some pool)
    (shares : Staked ctxt after pool staker amount change) : Pool stakers delegate after where
  members := by
    rw [shares.delegate]
    exact isPool.members
  supply := (supply_iff (isPool.mem_iff delegated) shares.owned shares.supply).2 isPool.supply
  empty none := by
    have supply := shares.supply delegate
    have before := isPool.empty (by omega)
    rw [shares.staked, before]
    split
    · subst_vars
      rcases shares.worth with ⟨_, minted⟩ | ⟨some, _⟩
      · simp only [if_true] at supply
        omega
      · omega
    · rfl

theorem unstaked (delegated : ctxt.delegate staker = some pool)
    (shares : Unstaked ctxt after pool staker amount change) : Pool stakers delegate after where
  members := by
    rw [shares.delegate]
    exact isPool.members
  supply := (supply_iff (isPool.mem_iff delegated) shares.owned shares.supply).1 isPool.supply
  empty none := by
    have supply := shares.supply delegate
    have staked := shares.staked delegate
    rcases Nat.eq_zero_or_pos (supplyOf ctxt delegate) with before | before
    · have nothing := isPool.empty before
      omega
    · -- the last pseudotokens are paid with all that is staked
      obtain rfl : delegate = pool := by
        by_contra elsewhere
        rw [if_neg elsewhere] at supply
        omega
      rw [if_pos rfl] at supply staked
      have all : change = supplyOf ctxt delegate := by omega
      have paid := shares.paid
      rw [all, Nat.mul_div_cancel _ before] at paid
      omega

theorem step (stepped : PoolStep ctxt after) : Pool stakers delegate after := by
  cases stepped with
  | @stake _ _ sender pool delegated applied =>
    by_cases delegator : sender = pool
    · rw [delegator] at applied
      exact isPool.sameShares (stake_own_samePools applied).sameShares
    · obtain ⟨_, _, _, _, shares⟩ := stake_staked delegator applied
      exact isPool.staked delegated shares
  | @unstake _ _ sender pool delegated applied =>
    by_cases delegator : sender = pool
    · rw [delegator] at applied
      exact isPool.sameShares (requestUnstake_own_samePools applied).sameShares
    · obtain ⟨_, _, shares⟩ := requestUnstake_unstaked delegator applied
      exact isPool.unstaked delegated shares
  | reward applied => exact isPool.sameShares (payRewards_sameShares applied)
  | slash applied => exact isPool.sameShares (applyDenunciation_sameShares applied)

end

theorem run {initial : Context Pkh} (start : Pool stakers delegate initial)
    (run : Relation.ReflTransGen PoolStep initial ctxt) : Pool stakers delegate ctxt := by
  induction run with
  | refl => exact start
  | tail _ stepped ih => exact ih.step stepped

end Pool

def shareValue (ctxt : Context Pkh) (delegate contract : Pkh) : ℚ :=
  value (stakedOn ctxt delegate : ℚ) (supplyOf ctxt delegate) (ownedBy ctxt contract)

section Values
variable {stakers : Finset Pkh} {delegate staker other : Pkh} {ctxt after : Context Pkh}
  {amount change : Nat}

theorem Pool.staked_fair (isPool : Pool stakers delegate ctxt) (member : staker ∈ stakers)
    (shares : Staked ctxt after delegate staker amount change) :
    (∀ other ∈ stakers, other ≠ staker → shareValue ctxt delegate other ≤ shareValue after delegate other) ∧
    shareValue after delegate staker ≤ shareValue ctxt delegate staker + amount := by
  have staked : (stakedOn after delegate : ℚ) = stakedOn ctxt delegate + amount := by
    rw [shares.staked, if_pos rfl, Nat.cast_add]
  have supply : (supplyOf after delegate : ℚ) = supplyOf ctxt delegate + change := by
    rw [shares.supply, if_pos rfl, Nat.cast_add]
  have own : (ownedBy after staker : ℚ) = ownedBy ctxt staker + change := by
    rw [shares.owned, if_pos rfl, Nat.cast_add]
  have owned (other : Pkh) (differ : other ≠ staker) : ownedBy after other = ownedBy ctxt other := by
    rw [shares.owned, if_neg differ, Nat.add_zero]
  unfold shareValue
  rw [staked, supply, own]
  rcases shares.worth with ⟨none, minted⟩ | ⟨some, worth⟩
  · -- there was nothing to share
    have nothing := isPool.empty none
    have owns_nothing (other : Pkh) (within : other ∈ stakers) : ownedBy ctxt other = 0 := by
      have le := isPool.owned_le within
      omega
    constructor
    · intro other within differ
      rw [owned other differ, owns_nothing other within, Nat.cast_zero, value_held_zero, value_held_zero]
    · rw [owns_nothing staker member, none, nothing, minted, Nat.cast_zero, zero_add,
        value_held_zero, zero_add]
      by_cases zero : (amount : ℚ) = 0
      · rw [zero, value_held_zero]
      · rw [value_all zero]
  · have positive : (0 : ℚ) < supplyOf ctxt delegate := Nat.cast_pos.2 some
    have fair : (stakedOn ctxt delegate : ℚ) * change ≤ amount * supplyOf ctxt delegate := by
      exact_mod_cast worth
    constructor
    · intro other within differ
      rw [owned other differ]
      exact value_le_deposit positive (Nat.cast_nonneg _) (Nat.cast_nonneg _) fair
    · exact deposit_value_le positive (Nat.cast_le.2 (isPool.owned_le member)) (Nat.cast_nonneg _) fair

theorem Pool.unstaked_fair (isPool : Pool stakers delegate ctxt) (member : staker ∈ stakers)
    (shares : Unstaked ctxt after delegate staker amount change) :
    (∀ other ∈ stakers, other ≠ staker → shareValue ctxt delegate other ≤ shareValue after delegate other) ∧
    shareValue after delegate staker ≤ shareValue ctxt delegate staker - amount := by
  have staked : (stakedOn after delegate : ℚ) = stakedOn ctxt delegate - amount := by
    rw [shares.staked, if_pos rfl, Nat.cast_add, add_sub_cancel_right]
  have supply : (supplyOf after delegate : ℚ) = supplyOf ctxt delegate - change := by
    rw [shares.supply, if_pos rfl, Nat.cast_add, add_sub_cancel_right]
  have own : (ownedBy after staker : ℚ) = ownedBy ctxt staker - change := by
    rw [shares.owned, if_pos rfl, Nat.cast_add, add_sub_cancel_right]
  have burnt : change ≤ ownedBy ctxt staker := by
    rw [shares.owned, if_pos rfl]
    exact Nat.le_add_left _ _
  have fair : (amount : ℚ) * supplyOf ctxt delegate ≤ stakedOn ctxt delegate * change := by
    have paid := Nat.div_mul_le_self (stakedOn ctxt delegate * change) (supplyOf ctxt delegate)
    rw [← shares.paid] at paid
    exact_mod_cast paid
  unfold shareValue
  rw [staked, supply, own]
  constructor
  · intro other within differ
    rw [show ownedBy after other = ownedBy ctxt other by
      rw [shares.owned, if_neg differ, Nat.add_zero]]
    apply value_le_withdraw (Nat.cast_nonneg _) (Nat.cast_nonneg _) _ fair
    have both : ownedBy ctxt other + ownedBy ctxt staker ≤ supplyOf ctxt delegate := by
      rw [isPool.supply, ← Finset.add_sum_erase _ _ within]
      apply Nat.add_le_add_left
      exact Finset.single_le_sum (fun _ _ => Nat.zero_le _) (Finset.mem_erase.2 ⟨differ.symm, member⟩)
    exact_mod_cast Nat.le_trans (Nat.add_le_add_left burnt _) both
  · rcases Nat.eq_zero_or_pos (supplyOf ctxt delegate) with none | some
    · have paid := shares.paid
      have owns := isPool.owned_le member
      rw [none, Nat.div_zero] at paid
      rw [show ownedBy ctxt staker = 0 by omega, show change = 0 by omega, paid, Nat.cast_zero,
        sub_zero, sub_zero, sub_zero, sub_zero]
    · exact withdraw_value_le (Nat.cast_pos.2 some) (Nat.cast_le.2 burnt)
        (Nat.cast_le.2 (isPool.owned_le member)) fair

/-- From a state where it is so, the supply of pseudotokens stays the sum of what the stakers own, and
no staker gains by staking or unstaking, or makes another one lose. -/
theorem pseudotokens_shared_fairly {initial : Context Pkh} (start : Pool stakers delegate initial)
    (run : Relation.ReflTransGen PoolStep initial ctxt) :
    supplyOf ctxt delegate = ∑ staker ∈ stakers, ownedBy ctxt staker ∧
    (∀ sender ∈ stakers, sender ≠ delegate → ∀ forNextCycle amount after,
      stake forNextCycle ctxt amount sender delegate = .ok after → (∀ other ∈ stakers, other ≠ sender →
        shareValue ctxt delegate other ≤ shareValue after delegate other) ∧
      ∃ staked : Nat, staked ≤ amount.tez.mutez ∧ (∀ tez, amount = .exactly tez → staked = tez.mutez) ∧
        stakedOn after delegate = stakedOn ctxt delegate + staked ∧
        shareValue after delegate sender ≤ shareValue ctxt delegate sender + staked) ∧
    (∀ sender ∈ stakers, sender ≠ delegate → ∀ forNextCycle amount after,
      requestUnstake forNextCycle ctxt sender delegate amount = .ok after →
      (∀ other ∈ stakers, other ≠ sender → shareValue ctxt delegate other ≤ shareValue after delegate other) ∧
      ∃ unstaked : Nat, stakedOn ctxt delegate = stakedOn after delegate + unstaked ∧
        shareValue after delegate sender ≤ shareValue ctxt delegate sender - unstaked) := by
  have isPool := start.run run
  refine ⟨isPool.supply, ?_, ?_⟩
  · intro sender member delegator forNextCycle amount after applied
    obtain ⟨staked, minted, bounded, whole, shares⟩ := stake_staked delegator applied
    obtain ⟨others, own⟩ := isPool.staked_fair member shares
    have total := shares.staked delegate
    rw [if_pos rfl] at total
    exact ⟨others, staked, bounded, whole, total, own⟩
  · intro sender member delegator forNextCycle amount after applied
    obtain ⟨unstaked, burnt, shares⟩ := requestUnstake_unstaked delegator applied
    obtain ⟨others, own⟩ := isPool.unstaked_fair member shares
    have total := shares.staked delegate
    rw [if_pos rfl] at total
    exact ⟨others, unstaked, total, own⟩

end Values

def freshPool : Context Nat :=
  { dustStake with
    delegate := fun pkh => if pkh ≤ 2 then some 0 else none
    stakingBalance := fun pkh => if pkh = 0 then some ⟨tez 100, tez 0, tez 300⟩ else none
    stakingPseudotokens := fun _ => tez 0
    frozenDepositsPseudotokens := fun _ => tez 0 }

theorem freshPool_pool : Pool {0, 1, 2} 0 freshPool where
  members contract := by
    simp only [Finset.mem_insert, Finset.mem_singleton, freshPool]
    split <;> simp <;> omega
  supply := by simp [supplyOf, ownedBy, freshPool, tez]
  empty _ := rfl

theorem freshPool_shared_fairly :
    ∃ first second, stake false freshPool (.exactly (tez 10)) 1 0 = .ok first ∧
      requestUnstake false first 1 0 (tez 4) = .ok second ∧
      supplyOf second 0 = ∑ staker ∈ {0, 1, 2}, ownedBy second staker ∧
      shareValue first 0 1 ≤ shareValue freshPool 0 1 + 10 := by
  have returns : (stake false freshPool (.exactly (tez 10)) 1 0 >>= fun first =>
      requestUnstake false first 1 0 (tez 4)).isOk = true := by decide +kernel
  obtain ⟨second, computed⟩ := exists_of_isOk returns
  obtain ⟨first, staked, unstaked⟩ := bind_eq_ok.1 computed
  obtain ⟨_, _, _, _, shares⟩ := stake_staked (by decide) staked
  have steps : Relation.ReflTransGen PoolStep freshPool second :=
    .tail (.tail .refl (.stake rfl staked)) (.unstake (by rw [shares.delegate]; rfl) unstaked)
  obtain ⟨_, _, whole, _, bounded⟩ := ((pseudotokens_shared_fairly freshPool_pool .refl).2.1 1
    (by decide) (by decide) false (.exactly (tez 10)) first staked).2
  rw [whole (tez 10) rfl] at bounded
  exact ⟨first, second, staked, unstaked, (pseudotokens_shared_fairly freshPool_pool steps).1, bounded⟩

section Rewards
open Octez.Slashing (FullStakingBalance share)
open Octez.Proof.Slashing
variable {balance : FullStakingBalance}

theorem share_stakers_le (amount : Tez)
    (fits : balance.ownFrozen.mutez + balance.stakedFrozen.mutez ≤ maxMutez) :
    ∃ shared, share .towardsBaker balance amount = .ok shared ∧
      shared.bakerPart.mutez + shared.stakersPart.mutez = amount.mutez ∧
      shared.stakersPart.mutez * (balance.ownFrozen.mutez + balance.stakedFrozen.mutez) ≤
        amount.mutez * balance.stakedFrozen.mutez := by
  obtain ⟨shared, sharing, split, baker_eq, none⟩ := share_spec amount fits
  refine ⟨shared, sharing, split, ?_⟩
  rcases Nat.eq_zero_or_pos (balance.ownFrozen.mutez + balance.stakedFrozen.mutez) with empty | positive
  · rw [none (by omega), Nat.zero_mul]
    exact Nat.zero_le _
  · have bound := rest_cdiv_mul_le positive amount.mutez balance.ownFrozen.mutez
    rwa [← baker_eq (.inr positive), Nat.add_sub_cancel_left, ← split, Nat.add_sub_cancel_left, split] at bound

/-- The four parts of a reward make up the reward, and the delegated and staked tokens get no more than
their exact shares. -/
theorem reward_distrib_exact (balance : FullStakingBalance) (stake : Stake) (edge : Int) (rewards : Tez)
    (fits : balance.ownFrozen.mutez + balance.stakedFrozen.mutez ≤ maxMutez)
    (stake_fits : stake.frozen.mutez + stake.weightedDelegated.mutez ≤ maxMutez)
    (edge_nonneg : 0 ≤ edge) (edge_le : edge ≤ 1000000000) :
    ∃ distrib, computeRewardDistrib balance stake edge rewards = .ok distrib ∧
      distrib.toBakerFromStaking.mutez + distrib.toBakerFromEdgeOverStakers.mutez +
        distrib.toStakers.mutez + distrib.toSpendable.mutez = rewards.mutez ∧
      distrib.toSpendable.mutez * (stake.frozen.mutez + stake.weightedDelegated.mutez) ≤
        rewards.mutez * stake.weightedDelegated.mutez ∧
      distrib.toStakers.mutez * (1000000000 * (balance.ownFrozen.mutez + balance.stakedFrozen.mutez)) ≤
        (rewards.mutez - distrib.toSpendable.mutez) * balance.stakedFrozen.mutez *
          (1000000000 - edge.toNat) := by
  obtain ⟨total, added, total_eq⟩ := add_of_fits _ _ stake_fits
  lift edge to Nat using edge_nonneg
  unfold computeRewardDistrib
  rw [bind_of_eq_ok added]
  rw [← total_eq]
  by_cases empty : (total.mutez : Nat) ≤ 0
  · rw [if_pos empty]
    refine ⟨_, rfl, by simp [Tez.zero], ?_, by simp [Tez.zero]⟩
    rw [Nat.le_zero.1 empty, Nat.mul_zero]
    exact Nat.zero_le _
  · rw [if_neg empty]
    obtain ⟨spendable, multiplied, spendable_eq, spendable_le⟩ := mulRatio_of_le .down rewards
      (Nat.pos_of_ne_zero fun none => empty none.le) (show stake.weightedDelegated.mutez ≤ _ by omega)
    obtain ⟨frozen, subtracted, frozen_eq⟩ := sub_of_le rewards spendable spendable_le
    obtain ⟨shared, sharing, split, stakers_le⟩ := share_stakers_le frozen fits
    obtain ⟨edgePart, edged, edge_eq, edge_part_le⟩ := mulRatio_of_le .up shared.stakersPart
      (show 0 < 1000000000 by decide) (Int.ofNat_le.1 edge_le)
    obtain ⟨stakers, left, left_eq⟩ := sub_of_le shared.stakersPart edgePart edge_part_le
    have edged : shared.stakersPart.mulRatio .up edge 1000000000 = .ok edgePart := edged
    rw [bind_of_eq_ok multiplied, bind_of_eq_ok subtracted, bind_of_eq_ok sharing, bind_of_eq_ok edged,
      bind_of_eq_ok left]
    refine ⟨_, rfl, by simp only; omega, ?_, ?_⟩
    · rw [spendable_eq]
      exact Nat.div_mul_le_self _ _
    · have after_edge := rest_cdiv_mul_le (show 0 < 1000000000 by decide) shared.stakersPart.mutez edge
      rw [Tez.roundedDiv] at edge_eq
      rw [← edge_eq, ← left_eq] at after_edge
      dsimp only
      rw [← frozen_eq, Int.toNat_natCast]
      calc stakers.mutez * (1000000000 * (balance.ownFrozen.mutez + balance.stakedFrozen.mutez))
          = stakers.mutez * 1000000000 * (balance.ownFrozen.mutez + balance.stakedFrozen.mutez) :=
            (Nat.mul_assoc _ _ _).symm
        _ ≤ shared.stakersPart.mutez * (1000000000 - edge) *
            (balance.ownFrozen.mutez + balance.stakedFrozen.mutez) := Nat.mul_le_mul_right _ after_edge
        _ = shared.stakersPart.mutez * (balance.ownFrozen.mutez + balance.stakedFrozen.mutez) *
            (1000000000 - edge) := Nat.mul_right_comm _ _ _
        _ ≤ _ := Nat.mul_le_mul_right _ stakers_le

theorem reward_distrib_of_sixteen :
    let balance := ⟨⟨2, by decide⟩, ⟨2, by decide⟩, Tez.zero⟩
    let stake := ⟨⟨4, by decide⟩, ⟨4, by decide⟩⟩
    ∃ distrib, computeRewardDistrib balance stake 500000000 ⟨16, by decide⟩ = .ok distrib ∧
      distrib.toStakers.mutez = 2 ∧ distrib.toSpendable.mutez = 8 := by
  obtain ⟨distrib, computed, -⟩ := reward_distrib_exact ⟨⟨2, by decide⟩, ⟨2, by decide⟩, Tez.zero⟩
    ⟨⟨4, by decide⟩, ⟨4, by decide⟩⟩ 500000000 ⟨16, by decide⟩ (by decide) (by decide) (by decide) (by decide)
  refine ⟨distrib, computed, ?_⟩
  cases computed
  decide

end Rewards

end Octez.Proof.Staking
