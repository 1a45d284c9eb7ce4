import Octez.Model.Tez

/-! # Slashing (`src/proto_alpha/lib_protocol/delegate_slashed_deposits_storage.ml`) -/

namespace Octez.Slashing
open Octez.Lib

structure FullStakingBalance where
  ownFrozen : Tez
  stakedFrozen : Tez
  delegated : Tez

namespace FullStakingBalance

def totalFrozen (balance : FullStakingBalance) : TzResult TezError Tez :=
  balance.ownFrozen.add balance.stakedFrozen

def ownRatio (balance : FullStakingBalance) : Int × Int :=
  if balance.stakedFrozen = Tez.zero then (1, 1)
  else if balance.ownFrozen = Tez.zero then (0, 1)
  else
    (balance.ownFrozen.mutez, wrap64 (balance.ownFrozen.mutez + balance.stakedFrozen.mutez))

end FullStakingBalance

structure Deposits where
  initialAmount : Tez
  currentAmount : Tez

structure RewardAndBurn where
  reward : Tez
  amountToBurn : Tez

def computePunishingAmount (slashingPercentage : Percentage) (frozenDeposits : Deposits) : Tez :=
  let punishValue := Tez.mulPercentage .down frozenDeposits.initialAmount slashingPercentage
  Tez.min punishValue frozenDeposits.currentAmount

/-- The limit is a native integer, so that adding two to it does not overflow an `int64`. -/
def computeRewardAndBurn (slashingPercentage : Percentage) (frozenDeposits : Deposits)
    (globalLimitOfStakingOverBaking : Nat) : TzResult TezError RewardAndBurn := do
  let punishingAmount := computePunishingAmount slashingPercentage frozenDeposits
  let globalLimitOfStakingOverBakingPlusTwo := (globalLimitOfStakingOverBaking : Int) + 2
  let reward ← punishingAmount.div globalLimitOfStakingOverBakingPlusTwo
  let amountToBurn ← punishingAmount.sub reward
  return { reward, amountToBurn }

inductive ShareRounding where
  | towardsStakers
  | towardsBaker
deriving DecidableEq, Repr

structure Shared where
  bakerPart : Tez
  stakersPart : Tez

def share (rounding : ShareRounding) (fullStakingBalance : FullStakingBalance) (amount : Tez) :
    TzResult TezError Shared := do
  let (num, den) := fullStakingBalance.ownRatio
  let rounding :=
    match rounding with
    | .towardsStakers => Rounding.down
    | .towardsBaker => Rounding.up
  let bakerPart ← amount.mulRatio rounding num den
  let stakersPart ← amount.sub bakerPart
  return { bakerPart, stakersPart }

/-- The accounts that a slash debits: the two kinds of frozen deposits of the delegate, and its
unstaked frozen deposits of a cycle. -/
inductive Giver where
  | baker
  | stakers
  | unstaked (cycle : Nat)
deriving DecidableEq, Repr

inductive Receiver where
  | doubleSigningPunishments
  | rewarded
deriving DecidableEq, Repr

structure Ledger where
  staking : FullStakingBalance
  unstaked : Nat → Deposits
  totalSupply : Tez
  rewardedBalance : Tez

def spend (ledger : Ledger) (giver : Giver) (amount : Tez) : TzResult TezError Ledger :=
  match giver with
  | .baker => do
    let ownFrozen ← ledger.staking.ownFrozen.sub amount
    return { ledger with staking := { ledger.staking with ownFrozen } }
  | .stakers => do
    let stakedFrozen ← ledger.staking.stakedFrozen.sub amount
    return { ledger with staking := { ledger.staking with stakedFrozen } }
  | .unstaked cycle => do
    let delegated ← ledger.staking.delegated.sub amount
    let deposits := ledger.unstaked cycle
    let currentAmount ← deposits.currentAmount.sub amount
    return { ledger with
      staking := { ledger.staking with delegated },
      unstaked := Function.update ledger.unstaked cycle { deposits with currentAmount } }

def credit (ledger : Ledger) (receiver : Receiver) (amount : Tez) : TzResult TezError Ledger :=
  match receiver with
  | .doubleSigningPunishments => do
    let totalSupply ← ledger.totalSupply.sub amount
    return { ledger with totalSupply }
  | .rewarded => do
    let rewardedBalance ← ledger.rewardedBalance.add amount
    return { ledger with rewardedBalance }

def withdraw (state : Ledger × Tez) (giver : Giver × Tez) : TzResult TezError (Ledger × Tez) := do
  let ledger ← spend state.1 giver.1 giver.2
  let total ← giver.2.add state.2
  return (ledger, total)

def transferN (ledger : Ledger) (givers : List (Giver × Tez)) (receiver : Receiver) :
    TzResult TezError Ledger :=
  match givers.filter fun giver => giver.2 ≠ Tez.zero with
  | [] => .ok ledger
  | givers => do
    let (ledger, amount) ← givers.foldlM withdraw (ledger, Tez.zero)
    credit ledger receiver amount

/-- `oldest_slashable_cycle ---> misbehaviour_cycle`. -/
def slashableCycles (misbehaviourCycle slashableDepositsPeriod : Nat) : List Nat :=
  let oldestSlashableCycle := misbehaviourCycle - slashableDepositsPeriod
  List.range' oldestSlashableCycle (misbehaviourCycle - oldestSlashableCycle + 1)

structure Slash where
  slashingPercentage : Percentage
  initialAmount : Tez
  globalLimitOfStakingOverBaking : Nat
  misbehaviourCycle : Nat
  slashableDepositsPeriod : Nat

-- The shares of what is burnt and of the reward in the frozen deposits.
def frozenShares (slash : Slash) (ledger : Ledger) : TzResult TezError (Shared × Shared) := do
  let currentAmount ← ledger.staking.totalFrozen
  let staked ← computeRewardAndBurn slash.slashingPercentage
    { initialAmount := slash.initialAmount, currentAmount } slash.globalLimitOfStakingOverBaking
  let toBurn ← share .towardsBaker ledger.staking staked.amountToBurn
  let toReward ← share .towardsBaker ledger.staking staked.reward
  return (toBurn, toReward)

def addUnstaked (slash : Slash) (ledger : Ledger)
    (acc : List (Giver × Tez) × List (Giver × Tez)) (cycle : Nat) :
    TzResult TezError (List (Giver × Tez) × List (Giver × Tez)) := do
  let amounts ← computeRewardAndBurn slash.slashingPercentage (ledger.unstaked cycle)
    slash.globalLimitOfStakingOverBaking
  return ((.unstaked cycle, amounts.amountToBurn) :: acc.1, (.unstaked cycle, amounts.reward) :: acc.2)

def applySlash (slash : Slash) (ledger : Ledger) : TzResult TezError Ledger := do
  let (burnt, rewarded) ← frozenShares slash ledger
  let (toBurn, toReward) ←
    (slashableCycles slash.misbehaviourCycle slash.slashableDepositsPeriod).foldlM (addUnstaked slash ledger)
      ([(.baker, burnt.bakerPart), (.stakers, burnt.stakersPart)],
        [(.baker, rewarded.bakerPart), (.stakers, rewarded.stakersPart)])
  let ledger ← transferN ledger toBurn .doubleSigningPunishments
  transferN ledger toReward .rewarded

end Octez.Slashing
