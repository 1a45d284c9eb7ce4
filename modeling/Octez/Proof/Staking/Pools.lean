import Octez.Model.Staking.Rewards
import Octez.Proof.Staking.Accounts
import Octez.Proof.Staking.Pseudotokens
import Octez.Proof.Staking.Transfers

namespace Octez.Proof.Staking
open Octez.Lib Octez.Staking Pseudotokens
open Octez.Slashing (FullStakingBalance share)
open Octez.Proof.Slashing (mutez_eq_zero share_spec)
variable {Pkh : Type} {contract : Pkh} {receiver : Receiver Pkh}

structure SamePools (before after : Context Pkh) : Prop where
  delegate : after.delegate = before.delegate
  owned : after.stakingPseudotokens = before.stakingPseudotokens
  supply : after.frozenDepositsPseudotokens = before.frozenDepositsPseudotokens
  staked : stakedOn after = stakedOn before

namespace SamePools
variable {first second third : Context Pkh}

theorem rfl : SamePools first first := ⟨Eq.refl _, Eq.refl _, Eq.refl _, Eq.refl _⟩

theorem trans (earlier : SamePools first second) (later : SamePools second third) :
    SamePools first third where
  delegate := later.delegate.trans earlier.delegate
  owned := later.owned.trans earlier.owned
  supply := later.supply.trans earlier.supply
  staked := later.staked.trans earlier.staked

theorem of_quiet (quiet : Quiet first second) : SamePools first second where
  delegate := quiet.1.delegate
  owned := by rw [quiet.1]
  supply := by rw [quiet.1]
  staked := quiet.2

theorem written (unstakeRequests : Map Pkh (StoredRequests Pkh)) :
    SamePools first { first with unstakeRequests } := ⟨Eq.refl _, Eq.refl _, Eq.refl _, Eq.refl _⟩

end SamePools

section Frames
variable [DecidableEq Pkh] {ctxt after : Context Pkh} {amount : Tez} {forNextCycle : Bool}

theorem transfer_samePools {giver : Giver Pkh}
    (from_outside : giverPool giver = none) (to_outside : receiverPool receiver = none)
    (h : transfer ctxt giver receiver amount = .ok after) : SamePools ctxt after :=
  .of_quiet (transfer_quiet from_outside to_outside h)

theorem update_samePools {requests}
    (h : UnstakeRequests.update ctxt contract requests = .ok after) : SamePools ctxt after := by
  rw [update_eq_ok h]
  exact .written _

theorem finalizeUnstakeAndCheck_samePools {check} {rest}
    (h : finalizeUnstakeAndCheck forNextCycle check ctxt contract = .ok (after, rest)) :
    SamePools ctxt after := by
  unfold finalizeUnstakeAndCheck at h
  split at h
  · cases h
    exact .rfl
  · rename_i finalizable unfinalizable _
    obtain ⟨-, h⟩ := unit_bind_eq_ok.1 h
    cases finalizable with
    | nil =>
      cases h
      exact .rfl
    | cons first finalizable =>
      obtain ⟨mid, updated, h⟩ := bind_eq_ok.1 h
      obtain ⟨last, performed, h⟩ := bind_eq_ok.1 h
      cases h
      exact (update_samePools updated).trans (.of_quiet (finalizeTransfers_quiet performed))

theorem finalizeUnstake_samePools
    (h : finalizeUnstake forNextCycle ctxt contract = .ok after) : SamePools ctxt after := by
  obtain ⟨⟨mid, rest⟩, finalized, h⟩ := bind_eq_ok.1 h
  cases h
  exact finalizeUnstakeAndCheck_samePools finalized

theorem stakeFromUnstake_samePools {sender delegate : Pkh} {stored}
    {left : Tez} (h : stakeFromUnstake forNextCycle ctxt sender delegate stored amount =
      .ok (after, left)) : SamePools ctxt after := by
  unfold stakeFromUnstake stakeFromUnstakeForDelegate at h
  split at h
  · cases h
    exact .rfl
  · split at h
    · cases h
      exact .rfl
    · split at h
      · cases h
        exact .rfl
      · split at h
        · obtain ⟨⟨mid, remaining, updated⟩, moved, h⟩ := bind_eq_ok.1 h
          obtain ⟨last, written, h⟩ := bind_eq_ok.1 h
          cases h
          exact (SamePools.of_quiet (transferFromUnstake_quiet moved)).trans (update_samePools written)
        · cases h
          exact .rfl

end Frames

def supplyOf (ctxt : Context Pkh) (delegate : Pkh) : Nat :=
  (ctxt.frozenDepositsPseudotokens delegate).mutez

def ownedBy (ctxt : Context Pkh) (contract : Pkh) : Nat := (ctxt.stakingPseudotokens contract).mutez

section Shares
variable {ctxt after : Context Pkh} {staker pool : Pkh} {amount : Tez}
variable {balances : Pseudotokens.DelegateBalances Pkh}

theorem getDelegateBalances_eq_ok (h : getDelegateBalances ctxt pool = .ok balances) :
    balances.delegate = pool ∧ balances.frozenDepositsPseudotokens = ctxt.frozenDepositsPseudotokens pool ∧
      balances.frozenDepositsStakedTez.mutez = stakedOn ctxt pool := by
  obtain ⟨staked, read, h⟩ := bind_eq_ok.1 h
  obtain ⟨balance, found, read⟩ := bind_eq_ok.1 read
  cases read
  cases h
  exact ⟨rfl, rfl, (stakedOn_of_found (getFullStakingBalance_eq_ok found)).symm⟩

/-- What is minted for an amount: that amount when there is nothing to share yet, and otherwise at
most the part that is worth the amount. -/
def Worth (staked supply amount minted : Nat) : Prop :=
  (supply = 0 ∧ minted = amount) ∨ (0 < supply ∧ staked * minted ≤ amount * supply)

theorem computePseudotokenCredit_worth {minted : Tez}
    (h : (computePseudotokenCreditForTezAmount balances amount : Result Pkh Tez) = .ok minted) :
    Worth balances.frozenDepositsStakedTez.mutez balances.frozenDepositsPseudotokens.mutez
      amount.mutez minted.mutez := by
  unfold computePseudotokenCreditForTezAmount at h
  split at h
  case isTrue none =>
    cases h
    rw [none]
    rcases Nat.eq_zero_or_pos balances.frozenDepositsPseudotokens.mutez with empty | some
    · exact Or.inl ⟨empty, rfl⟩
    · exact Or.inr ⟨some, by simp [Tez.zero]⟩
  case isFalse =>
    split at h
    case isTrue empty =>
      cases h
      exact Or.inl ⟨mutez_eq_zero.1 empty, rfl⟩
    case isFalse shared =>
      split at h
      · cases h
      · unfold pseudotokensOf at h
        have h := liftTez_eq_ok.1 h
        rw [assert_bind_eq_ok, assert_bind_eq_ok, assert_bind_eq_ok] at h
        obtain ⟨positive, minted_eq⟩ := mulRatio_eq_ok h.2.2.2
        rw [mutez_eq_zero] at shared
        refine Or.inr ⟨Nat.pos_of_ne_zero shared, ?_⟩
        rw [minted_eq, Nat.mul_comm amount.mutez]
        exact Nat.mul_div_le _ _

theorem tezOf_down_eq_ok {burnt value : Tez} (h : tezOf .down balances burnt = .ok value) :
    value.mutez = balances.frozenDepositsStakedTez.mutez * burnt.mutez /
      balances.frozenDepositsPseudotokens.mutez := by
  unfold tezOf at h
  rw [assert_bind_eq_ok] at h
  exact (mulRatio_eq_ok h.2).2

theorem pseudotokensToUnstake_paid {balances : Pseudotokens.DelegatorBalances Pkh} {burnt value : Tez}
    (h : pseudotokensToUnstake balances amount = .ok (burnt, value)) :
    value.mutez = balances.delegateBalances.frozenDepositsStakedTez.mutez * burnt.mutez /
      balances.delegateBalances.frozenDepositsPseudotokens.mutez := by
  obtain ⟨requested, _, h⟩ := bind_eq_ok.1 h
  obtain ⟨tez, converted, h⟩ := bind_eq_ok.1 h
  split at h
  · split at h
    · cases h
    · obtain ⟨less, converted, h⟩ := bind_eq_ok.1 h
      rw [assert_bind_eq_ok] at h
      cases h.2
      exact tezOf_down_eq_ok converted
  · cases h
    exact tezOf_down_eq_ok converted

variable [DecidableEq Pkh]

structure Staked (before after : Context Pkh) (pool staker : Pkh) (amount minted : Nat) : Prop where
  delegate : after.delegate = before.delegate
  staked : ∀ other, stakedOn after other = stakedOn before other + if other = pool then amount else 0
  supply : ∀ other, supplyOf after other = supplyOf before other + if other = pool then minted else 0
  owned : ∀ other, ownedBy after other = ownedBy before other + if other = staker then minted else 0
  worth : Worth (stakedOn before pool) (supplyOf before pool) amount minted

structure Unstaked (before after : Context Pkh) (pool staker : Pkh) (amount burnt : Nat) :
    Prop where
  delegate : after.delegate = before.delegate
  staked : ∀ other, stakedOn before other = stakedOn after other + if other = pool then amount else 0
  supply : ∀ other, supplyOf before other = supplyOf after other + if other = pool then burnt else 0
  owned : ∀ other, ownedBy before other = ownedBy after other + if other = staker then burnt else 0
  paid : amount = stakedOn before pool * burnt / supplyOf before pool

theorem update_mutez {table : Pkh → Tez} {key : Pkh} {new : Tez} (other : Pkh) :
    (Function.update table key new other).mutez =
      if other = key then new.mutez else (table other).mutez := by
  rw [Function.update_apply]
  split <;> rfl

theorem pseudotokens_stake_minted (delegator : staker ≠ pool)
    (h : Pseudotokens.stake ctxt staker pool amount = .ok after) :
    ∃ minted, after.delegate = ctxt.delegate ∧ stakedOn after = stakedOn ctxt ∧
      (∀ other, supplyOf after other = supplyOf ctxt other + if other = pool then minted else 0) ∧
      (∀ other, ownedBy after other = ownedBy ctxt other + if other = staker then minted else 0) ∧
      Worth (stakedOn ctxt pool) (supplyOf ctxt pool) amount.mutez minted := by
  rw [Pseudotokens.stake, if_neg delegator] at h
  obtain ⟨balances, read, h⟩ := bind_eq_ok.1 h
  obtain ⟨minted, credited, h⟩ := bind_eq_ok.1 h
  obtain ⟨own, added, h⟩ := bind_eq_ok.1 h
  obtain ⟨total, total_added, h⟩ := bind_eq_ok.1 h
  cases h
  have worth := computePseudotokenCredit_worth credited
  obtain ⟨here, supply, staked⟩ := getDelegateBalances_eq_ok read
  have own_eq := add_eq_ok (liftTez_eq_ok.1 added)
  have total_eq := add_eq_ok (liftTez_eq_ok.1 total_added)
  simp only [getDelegatorBalances] at own_eq total_eq
  rw [supply] at worth total_eq
  rw [staked] at worth
  refine ⟨minted.mutez, rfl, rfl, ?_, ?_, worth⟩
  · intro other
    simp only [supplyOf, setPseudotokens, getDelegatorBalances, update_mutez, here]
    split
    case isTrue same => rw [total_eq, same]
    case isFalse => rfl
  · intro other
    simp only [ownedBy, setPseudotokens, getDelegatorBalances, update_mutez]
    split
    case isTrue same => rw [own_eq, same]
    case isFalse => rfl

theorem pseudotokens_requestUnstake_burnt {tez : Tez} (delegator : staker ≠ pool)
    (h : Pseudotokens.requestUnstake ctxt staker pool amount = .ok (after, tez)) :
    ∃ burnt, after.delegate = ctxt.delegate ∧ stakedOn after = stakedOn ctxt ∧
      (∀ other, supplyOf ctxt other = supplyOf after other + if other = pool then burnt else 0) ∧
      (∀ other, ownedBy ctxt other = ownedBy after other + if other = staker then burnt else 0) ∧
      tez.mutez = stakedOn ctxt pool * burnt / supplyOf ctxt pool := by
  by_cases nothing : (after, tez) = (ctxt, Tez.zero)
  · cases nothing
    exact ⟨0, by simp [Tez.zero]⟩
  unfold Pseudotokens.requestUnstake at h
  split at h
  · cases h
    exact absurd rfl nothing
  · obtain ⟨balances, read, h⟩ := bind_eq_ok.1 h
    dsimp only at h
    split at h
    · cases h
      exact absurd rfl nothing
    · split at h
      · cases h
        exact absurd rfl nothing
      · obtain ⟨-, h⟩ := unit_bind_eq_ok.1 h
        obtain ⟨⟨burnt, value⟩, computed, h⟩ := bind_eq_ok.1 h
        obtain ⟨burned, burning, h⟩ := bind_eq_ok.1 h
        cases h
        obtain ⟨own, removed, burning⟩ := bind_eq_ok.1 burning
        obtain ⟨total, total_removed, burning⟩ := bind_eq_ok.1 burning
        cases burning
        have paid := pseudotokensToUnstake_paid (liftTez_eq_ok.1 computed)
        obtain ⟨here, supply, staked⟩ := getDelegateBalances_eq_ok read
        have own_eq := sub_eq_ok (liftTez_eq_ok.1 removed)
        have total_eq := sub_eq_ok (liftTez_eq_ok.1 total_removed)
        simp only [getDelegatorBalances] at own_eq total_eq paid
        rw [supply] at paid total_eq
        rw [staked] at paid
        refine ⟨burnt.mutez, rfl, rfl, ?_, ?_, paid⟩
        · intro other
          simp only [supplyOf, setPseudotokens, getDelegatorBalances, update_mutez, here]
          split
          case isTrue same => rw [same, total_eq]
          case isFalse => rfl
        · intro other
          simp only [ownedBy, setPseudotokens, getDelegatorBalances, update_mutez]
          split
          case isTrue same => rw [same, own_eq]
          case isFalse => rfl

end Shares

section Operations
variable [DecidableEq Pkh] {ctxt after : Context Pkh} {sender pool : Pkh} {forNextCycle : Bool}
  {amount : StakeAmount} {balance : FullStakingBalance} {edge : Int} {rewards : Tez}

theorem partOf_singleStaker (delegator : sender ≠ pool) (other : Pkh) (amount : Nat) :
    partOf (poolOf (.frozenDeposits (.ofStaker sender pool))) other amount =
      if other = pool then amount else 0 := by
  rw [FrozenStaker.ofStaker, if_neg delegator]
  simp only [poolOf, partOf, Option.some.injEq, eq_comm]

theorem stake_staked (delegator : sender ≠ pool)
    (h : stake forNextCycle ctxt amount sender pool = .ok after) :
    ∃ moved minted, moved ≤ amount.tez.mutez ∧ (∀ tez, amount = .exactly tez → moved = tez.mutez) ∧
      Staked ctxt after pool sender moved minted := by
  obtain ⟨⟨finalized, rest⟩, finalization, h⟩ := bind_eq_ok.1 h
  obtain ⟨⟨mid, left⟩, fromUnstake, h⟩ := bind_eq_ok.1 h
  obtain ⟨issued, issuing, h⟩ := bind_eq_ok.1 h
  have same := finalizeUnstakeAndCheck_samePools finalization
  rw [stakeFromUnstake, if_pos delegator] at fromUnstake
  cases fromUnstake
  rw [issuePseudotokens, if_pos delegator] at issuing
  obtain ⟨minted, delegates, staked, supply, owned, worth⟩ :=
    pseudotokens_stake_minted delegator issuing
  have records := transferN_same h
  have shares : Staked ctxt after pool sender _ minted := {
    delegate := by rw [records.delegate, delegates, same.delegate]
    staked := fun other => by
      have change : stakedOn after other + 0 = stakedOn issued other + _ := transfer_staked h
      rw [receiverPool, partOf_singleStaker delegator, staked, same.staked] at change
      exact change
    supply := fun other => by
      have kept : supplyOf after other = supplyOf issued other := by rw [records]; rfl
      rw [kept, supply, supplyOf, same.supply]
      rfl
    owned := fun other => by
      have kept : ownedBy after other = ownedBy issued other := by rw [records]; rfl
      rw [kept, owned, ownedBy, same.owned]
      rfl
    worth := by
      rw [← same.staked]
      unfold supplyOf
      rw [← same.supply]
      exact worth }
  refine ⟨_, minted, ?_, ?_, shares⟩
  · cases amount with
    | exactly tez => exact Nat.le_refl _
    | atMost tez =>
      rw [Octez.Proof.Slashing.min_mutez]
      exact Nat.min_le_left _ _
  · rintro tez rfl
    rfl

theorem requestUnstake_unstaked {amount : Tez} (delegator : sender ≠ pool)
    (h : requestUnstake forNextCycle ctxt sender pool amount = .ok after) :
    ∃ paid burnt, Unstaked ctxt after pool sender paid burnt := by
  obtain ⟨⟨burned, tez⟩, requested, h⟩ := bind_eq_ok.1 h
  obtain ⟨burnt, delegates, staked, supply, owned, paid⟩ :=
    pseudotokens_requestUnstake_burnt delegator requested
  dsimp only at h
  split at h
  case isTrue none =>
    cases h
    rw [none] at paid
    refine ⟨0, burnt, delegates, ?_, supply, owned, paid⟩
    rw [staked]
    simp
  case isFalse =>
    obtain ⟨moved, moving, h⟩ := bind_eq_ok.1 h
    obtain ⟨mid, transferred, finalized⟩ := bind_eq_ok.1 moving
    obtain ⟨_, _, h⟩ := bind_eq_ok.1 h
    obtain ⟨requests, _, h⟩ := bind_eq_ok.1 h
    cases h
    have records := transferN_same transferred
    have same := finalizeUnstake_samePools finalized
    refine ⟨tez.mutez, burnt, ?_, ?_, ?_, ?_, paid⟩
    · exact same.delegate.trans (records.delegate.trans delegates)
    · intro other
      have change : stakedOn mid other + partOf (poolOf _) other tez.mutez =
          stakedOn burned other + 0 := transfer_staked transferred
      rw [partOf_singleStaker delegator, ← same.staked, staked] at change
      exact change.symm
    · intro other
      have kept : supplyOf moved other = supplyOf burned other := by
        rw [supplyOf, same.supply, records]
        rfl
      rw [supply, ← kept]
      rfl
    · intro other
      have kept : ownedBy moved other = ownedBy burned other := by
        rw [ownedBy, same.owned, records]
        rfl
      rw [owned, ← kept]
      rfl

theorem transfer_own_samePools {giver : Giver Pkh} {amount : Tez}
    (giver_own : giver = .container (.frozenDeposits (.ofStaker pool pool)) ∨ giverPool giver = none)
    (receiver_own : receiver = .container (.frozenDeposits (.ofStaker pool pool)) ∨
      receiverPool receiver = none)
    (h : transfer ctxt giver receiver amount = .ok after) : SamePools ctxt after := by
  have baker : poolOf (.frozenDeposits (.ofStaker pool pool)) = none := by
    rw [FrozenStaker.ofStaker, if_pos rfl]
    rfl
  apply transfer_samePools _ _ h
  · rcases giver_own with rfl | outside
    · exact baker
    · exact outside
  · rcases receiver_own with rfl | outside
    · exact baker
    · exact outside

theorem stake_own_samePools
    (h : stake forNextCycle ctxt amount pool pool = .ok after) : SamePools ctxt after := by
  obtain ⟨⟨finalized, rest⟩, finalization, h⟩ := bind_eq_ok.1 h
  obtain ⟨⟨mid, left⟩, fromUnstake, h⟩ := bind_eq_ok.1 h
  obtain ⟨issued, issuing, h⟩ := bind_eq_ok.1 h
  rw [issuePseudotokens, if_neg (not_not_intro rfl)] at issuing
  cases issuing
  exact (finalizeUnstakeAndCheck_samePools finalization).trans ((stakeFromUnstake_samePools fromUnstake).trans
      (transfer_own_samePools (.inr rfl) (.inl rfl) h))

theorem requestUnstake_own_samePools {amount : Tez}
    (h : requestUnstake forNextCycle ctxt pool pool amount = .ok after) : SamePools ctxt after := by
  obtain ⟨⟨burned, tez⟩, requested, acted⟩ := bind_eq_ok.1 h
  have unchanged : burned = ctxt := by
    unfold Pseudotokens.requestUnstake at requested
    rw [if_pos rfl] at requested
    split at requested
    · cases requested
      rfl
    · obtain ⟨_, _, requested⟩ := bind_eq_ok.1 requested
      cases requested
      rfl
  subst unchanged
  dsimp only at acted
  split at acted
  · cases acted
    exact .rfl
  · obtain ⟨moved, moving, acted⟩ := bind_eq_ok.1 acted
    obtain ⟨mid, transferred, finalized⟩ := bind_eq_ok.1 moving
    obtain ⟨_, _, acted⟩ := bind_eq_ok.1 acted
    obtain ⟨requests, _, acted⟩ := bind_eq_ok.1 acted
    cases acted
    exact (transfer_own_samePools (.inl rfl) (.inr rfl) transferred).trans
      ((finalizeUnstake_samePools finalized).trans (.written _))

structure SameShares (before after : Context Pkh) : Prop where
  delegate : after.delegate = before.delegate
  owned : after.stakingPseudotokens = before.stakingPseudotokens
  supply : after.frozenDepositsPseudotokens = before.frozenDepositsPseudotokens
  empty : ∀ other, stakedOn before other = 0 → stakedOn after other = 0

omit [DecidableEq Pkh] in
theorem SamePools.sameShares (same : SamePools ctxt after) : SameShares ctxt after where
  delegate := same.delegate
  owned := same.owned
  supply := same.supply
  empty other none := by rw [same.staked, none]

theorem computeRewardDistrib_empty {stake : Stake}
    {distrib : RewardDistrib} (empty : balance.stakedFrozen.mutez = 0)
    (h : computeRewardDistrib balance stake edge rewards = .ok distrib) : distrib.toStakers.mutez = 0 := by
  obtain ⟨total, _, h⟩ := bind_eq_ok.1 h
  split at h
  · cases h
    rfl
  · obtain ⟨_, _, h⟩ := bind_eq_ok.1 h
    obtain ⟨_, _, h⟩ := bind_eq_ok.1 h
    obtain ⟨shared, sharing, h⟩ := bind_eq_ok.1 h
    obtain ⟨_, _, h⟩ := bind_eq_ok.1 h
    obtain ⟨stakers, subtracted, h⟩ := bind_eq_ok.1 h
    cases h
    have fits : balance.ownFrozen.mutez + balance.stakedFrozen.mutez ≤ maxMutez :=
      empty ▸ balance.ownFrozen.le_max
    obtain ⟨_, shares, -, -, unshared⟩ := share_spec _ fits
    cases sharing.symm.trans shares
    have rest := sub_eq_ok subtracted
    simp only
    omega

theorem payRewards_sameShares {activeStake : Stake}
    (h : payRewards ctxt activeStake edge .infiniteSource pool rewards = .ok after) :
    SameShares ctxt after := by
  obtain ⟨balance, read, h⟩ := bind_eq_ok.1 h
  obtain ⟨distrib, computed, h⟩ := bind_eq_ok.1 h
  obtain ⟨first, toBaker, h⟩ := bind_eq_ok.1 h
  obtain ⟨second, toEdge, h⟩ := bind_eq_ok.1 h
  obtain ⟨third, toStakers, h⟩ := bind_eq_ok.1 h
  have same : SamePools ctxt second :=
    (transfer_samePools rfl rfl toBaker).trans (transfer_samePools rfl rfl toEdge)
  have records := transferN_same toStakers
  have last : SamePools third after := transfer_samePools rfl rfl h
  refine ⟨?_, ?_, ?_, ?_⟩
  · rw [last.delegate, records.delegate, same.delegate]
  · rw [last.owned, records]
    exact same.owned
  · rw [last.supply, records]
    exact same.supply
  · intro other empty
    have change : stakedOn third other + 0 =
        stakedOn second other + partOf (some pool) other distrib.toStakers.mutez :=
      transfer_staked toStakers
    rw [last.staked]
    rw [same.staked, empty] at change
    unfold partOf at change
    split at change
    case isTrue here =>
      rw [← Option.some.inj here, stakedOn_of_found (getFullStakingBalance_eq_ok read)] at empty
      rw [computeRewardDistrib_empty empty (liftTez_eq_ok.1 computed)] at change
      exact change
    case isFalse => exact change

theorem applyDenunciation_sameShares {slash : Slash Pkh}
    (h : applyDenunciation ctxt slash = .ok after) : SameShares ctxt after := by
  obtain ⟨balance, -, h⟩ := bind_eq_ok.1 h
  obtain ⟨currentAmount, -, h⟩ := bind_eq_ok.1 h
  obtain ⟨staked, -, h⟩ := bind_eq_ok.1 h
  obtain ⟨burnt, -, h⟩ := bind_eq_ok.1 h
  obtain ⟨rewarded, -, h⟩ := bind_eq_ok.1 h
  obtain ⟨⟨toBurn, toReward⟩, -, h⟩ := bind_eq_ok.1 h
  obtain ⟨mid, burning, rewarding⟩ := bind_eq_ok.1 h
  have records := (transferN_same burning).trans (transferN_same rewarding)
  refine ⟨records.delegate, by rw [records], by rw [records], ?_⟩
  intro other empty
  have first : stakedOn mid other ≤ stakedOn (recordSlash ctxt slash).1 other :=
    transferN_staked_le (show receiverPool .infiniteSink = none from rfl) burning
  have second : stakedOn after other ≤ stakedOn mid other :=
    transferN_staked_le (show receiverPool (.container (.contract slash.rewarded)) = none from rfl)
      rewarding
  have recorded : stakedOn (recordSlash ctxt slash).1 other = stakedOn ctxt other := rfl
  omega

end Operations

end Octez.Proof.Staking
