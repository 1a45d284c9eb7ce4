import Octez.Model.Staking.Context

/-! # Staking pseudotokens (`src/proto_alpha/lib_protocol/staking_pseudotokens_storage.ml`) -/

namespace Octez.Staking.Pseudotokens
open Octez.Lib
variable {Pkh : Type} [DecidableEq Pkh]

structure DelegateBalances (Pkh : Type) where
  delegate : Pkh
  frozenDepositsStakedTez : Tez
  frozenDepositsPseudotokens : Tez

structure DelegatorBalances (Pkh : Type) where
  delegator : Pkh
  pseudotokenBalance : Tez
  delegateBalances : DelegateBalances Pkh

variable (ctxt : Context Pkh)

def getFrozenDepositsStakedTez (delegate : Pkh) : Result Pkh Tez := do
  let balance ← getFullStakingBalance ctxt delegate
  return balance.stakedFrozen

def getOwnFrozenDeposits (delegate : Pkh) : Result Pkh Tez := do
  let balance ← getFullStakingBalance ctxt delegate
  return balance.ownFrozen

def getDelegateBalances (delegate : Pkh) : Result Pkh (DelegateBalances Pkh) := do
  let frozenDepositsStakedTez ← getFrozenDepositsStakedTez ctxt delegate
  return {
    delegate, frozenDepositsStakedTez
    frozenDepositsPseudotokens := ctxt.frozenDepositsPseudotokens delegate }

def getDelegatorBalances (delegator : Pkh)
    (delegateBalances : DelegateBalances Pkh) : DelegatorBalances Pkh :=
  { delegator, pseudotokenBalance := ctxt.stakingPseudotokens delegator, delegateBalances }

variable (before : DelegatorBalances Pkh)

def setPseudotokens
    (newPseudotokenBalance newDelegateTotal : Tez) : Context Pkh :=
  { ctxt with
    stakingPseudotokens :=
      Function.update ctxt.stakingPseudotokens before.delegator newPseudotokenBalance,
    frozenDepositsPseudotokens :=
      Function.update ctxt.frozenDepositsPseudotokens before.delegateBalances.delegate
        newDelegateTotal }

def mintPseudotokens (pseudotokensToMint : Tez) : Result Pkh (Context Pkh) := do
  let newPseudotokenBalance ← liftTez (before.pseudotokenBalance.add pseudotokensToMint)
  let newDelegateTotal ←
    liftTez (before.delegateBalances.frozenDepositsPseudotokens.add pseudotokensToMint)
  return setPseudotokens ctxt before newPseudotokenBalance newDelegateTotal

def burnPseudotokens (pseudotokensToBurn : Tez) : Result Pkh (Context Pkh) := do
  let newPseudotokenBalance ← liftTez (before.pseudotokenBalance.sub pseudotokensToBurn)
  let newDelegateTotal ←
    liftTez (before.delegateBalances.frozenDepositsPseudotokens.sub pseudotokensToBurn)
  return setPseudotokens ctxt before newPseudotokenBalance newDelegateTotal

def pseudotokensOf (rounding : Rounding) (delegateBalances : DelegateBalances Pkh)
    (tezAmount : Tez) : TzResult TezError Tez := do
  assert (delegateBalances.frozenDepositsPseudotokens ≠ Tez.zero)
  assert (delegateBalances.frozenDepositsStakedTez ≠ Tez.zero)
  assert (tezAmount ≠ Tez.zero)
  delegateBalances.frozenDepositsPseudotokens.mulRatio rounding tezAmount.mutez
    delegateBalances.frozenDepositsStakedTez.mutez

def tezOf (rounding : Rounding) (delegateBalances : DelegateBalances Pkh)
    (pseudotokenAmount : Tez) : TzResult TezError Tez := do
  assert (delegateBalances.frozenDepositsPseudotokens ≠ Tez.zero)
  delegateBalances.frozenDepositsStakedTez.mulRatio rounding pseudotokenAmount.mutez
    delegateBalances.frozenDepositsPseudotokens.mutez

def computePseudotokenCreditForTezAmount (delegateBalances : DelegateBalances Pkh)
    (tezAmount : Tez) : Result Pkh Tez :=
  if tezAmount = Tez.zero then .ok Tez.zero
  else if delegateBalances.frozenDepositsPseudotokens = Tez.zero then
    -- No pseudotokens yet: the conversion rate is one.
    .ok tezAmount
  else if delegateBalances.frozenDepositsStakedTez = Tez.zero then
    tzfail .cannotStakeOnFullySlashedDelegate
  else liftTez (pseudotokensOf .down delegateBalances tezAmount)

def stake (contract delegate : Pkh) (tezAmount : Tez) : Result Pkh (Context Pkh) :=
  if contract = delegate then .ok ctxt
  else do
    let delegateBalances ← getDelegateBalances ctxt delegate
    let pseudotokensToCredit ← computePseudotokenCreditForTezAmount delegateBalances tezAmount
    let delegatorBalances := getDelegatorBalances ctxt contract delegateBalances
    mintPseudotokens ctxt delegatorBalances pseudotokensToCredit

/-- `pred` of a pseudotoken amount. -/
def pred (pseudotokens : Tez) : Option Tez :=
  if 1 ≤ pseudotokens.mutez then
    some ⟨pseudotokens.mutez - 1, (Nat.sub_le _ _).trans pseudotokens.le_max⟩
  else none

def pseudotokensToUnstake (balances : DelegatorBalances Pkh) (requestedAmount : Tez) :
    TzResult TezError (Tez × Tez) := do
  let requestedPseudotokens ← pseudotokensOf .up balances.delegateBalances requestedAmount
  let toUnstake := Tez.min requestedPseudotokens balances.pseudotokenBalance
  let tezToUnstake ← tezOf .down balances.delegateBalances toUnstake
  if requestedAmount.mutez < tezToUnstake.mutez then
    -- The pseudotokens were rounded up: a bit less is unstaked.
    match pred toUnstake with
    | none => .error (.raised .assertFalse)
    | some toUnstake => do
      let tezToUnstake ← tezOf .down balances.delegateBalances toUnstake
      assert (tezToUnstake.mutez ≤ requestedAmount.mutez)
      return (toUnstake, tezToUnstake)
  else return (toUnstake, tezToUnstake)

/-- `request_unstake` for a contract that is not the delegate itself. -/
def requestUnstakeDelegator (delegator delegate : Pkh)
    (requestedAmount : Tez) : Result Pkh (Context Pkh × Tez) := do
  let delegateBalances ← getDelegateBalances ctxt delegate
  if delegateBalances.frozenDepositsStakedTez = Tez.zero then return (ctxt, Tez.zero)
  else
    let delegatorBalances := getDelegatorBalances ctxt delegator delegateBalances
    if delegatorBalances.pseudotokenBalance = Tez.zero then return (ctxt, Tez.zero)
    else
      assert (delegateBalances.frozenDepositsPseudotokens ≠ Tez.zero)
      let (toUnstake, tezToUnstake) ←
        liftTez (pseudotokensToUnstake delegatorBalances requestedAmount)
      let ctxt ← burnPseudotokens ctxt delegatorBalances toUnstake
      return (ctxt, tezToUnstake)

def requestUnstake (contract delegate : Pkh) (requestedAmount : Tez) :
    Result Pkh (Context Pkh × Tez) :=
  if requestedAmount = Tez.zero then .ok (ctxt, Tez.zero)
  else if contract = delegate then do
    let delegateOwnFrozenDeposits ← getOwnFrozenDeposits ctxt delegate
    return (ctxt, Tez.min delegateOwnFrozenDeposits requestedAmount)
  else requestUnstakeDelegator ctxt contract delegate requestedAmount

end Octez.Staking.Pseudotokens
