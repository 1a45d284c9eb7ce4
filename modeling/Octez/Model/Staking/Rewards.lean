import Octez.Model.Staking.Context

/-! # Rewards of a delegate and its stakers (`src/proto_alpha/lib_protocol/shared_stake.ml`) -/

namespace Octez.Staking
open Octez.Lib
open Octez.Slashing (FullStakingBalance share)
variable {Pkh : Type} [DecidableEq Pkh]

structure Stake where
  frozen : Tez
  weightedDelegated : Tez

structure RewardDistrib where
  toBakerFromStaking : Tez
  toBakerFromEdgeOverStakers : Tez
  toStakers : Tez
  toSpendable : Tez

def computeRewardDistrib (fullStakingBalance : FullStakingBalance) (stake : Stake)
    (edgeOfBakingOverStakingBillionth : Int) (rewards : Tez) : TzResult TezError RewardDistrib := do
  let totalStake ← stake.frozen.add stake.weightedDelegated
  if totalStake.mutez ≤ 0 then
    return {
      toBakerFromStaking := Tez.zero, toBakerFromEdgeOverStakers := Tez.zero
      toStakers := Tez.zero, toSpendable := rewards }
  else
    let toSpendable ← rewards.mulRatio .down stake.weightedDelegated.mutez totalStake.mutez
    let toFrozen ← rewards.sub toSpendable
    let shared ← share .towardsBaker fullStakingBalance toFrozen
    let toBakerFromEdgeOverStakers ←
      shared.stakersPart.mulRatio .up edgeOfBakingOverStakingBillionth 1000000000
    let toStakers ← shared.stakersPart.sub toBakerFromEdgeOverStakers
    return {
      toBakerFromStaking := shared.bakerPart, toBakerFromEdgeOverStakers, toStakers, toSpendable }

def payRewards (ctxt : Context Pkh) (activeStake : Stake) (edgeOfBakingOverStakingBillionth : Int)
    (source : Giver Pkh) (delegate : Pkh) (rewards : Tez) : Result Pkh (Context Pkh) := do
  let fullStakingBalance ← getFullStakingBalance ctxt delegate
  let distrib ← liftTez (computeRewardDistrib fullStakingBalance activeStake
    edgeOfBakingOverStakingBillionth rewards)
  let ctxt ← transfer ctxt source (.container (.frozenDeposits (.baker delegate)))
    distrib.toBakerFromStaking
  let ctxt ← transfer ctxt source (.container (.frozenDeposits (.bakerEdge delegate)))
    distrib.toBakerFromEdgeOverStakers
  let ctxt ← transfer ctxt source (.container (.frozenDeposits (.sharedBetweenStakers delegate)))
    distrib.toStakers
  transfer ctxt source (.container (.contract delegate)) distrib.toSpendable

end Octez.Staking
