import Octez.Model.Token.Context

/-! # Contracts, bonds, unstaked deposits and commitments -/

namespace Octez.Token
open Octez.Lib Octez.Staking
open Octez.Slashing (Deposits)

variable {T : TokenTypes}
variable [DecidableEq T.Pkh] [DecidableEq T.ContractHash]
variable (ctxt : Context T)

variable (contract : T.Contract)

section Allocation

def createImplicit (manager : T.Pkh) (balance : Tez) : Result T (Context T) := do
  let contract := Contract.implicit manager
  let counter ← liftStorage (ctxt.counter.init contract ctxt.globalCounter)
  let spendableBalance ← liftStorage (ctxt.spendableBalance.init contract balance)
  let managers ← liftStorage (ctxt.manager.init contract (.hash manager))
  return { ctxt with counter, spendableBalance, manager := managers }

def delete : Result T (Context T) :=
  match contract with
  | .originated _ => tzfail (.failure "Non implicit contracts cannot be removed")
  | .implicit _ => do
    let ctxt := ContractDelegate.unlink ctxt contract
    let spendableBalance ← liftStorage (ctxt.spendableBalance.removeExisting contract)
    let manager ← liftStorage (ctxt.manager.removeExisting contract)
    let counter ← liftStorage (ctxt.counter.removeExisting contract)
    return { ctxt with spendableBalance, manager, counter }

def allocated : Bool :=
  ctxt.spendableBalance.mem contract

end Allocation

section Spendable

def spendFromBalance (balance amount : Tez) : Result T Tez :=
  liftError (fun _ => .balanceTooLow contract balance amount) (balance.sub amount)

def checkEmptiable : Result T Unit :=
  match contract with
  | .originated _ => .ok ()
  | .implicit pkh =>
    match ctxt.delegate.find contract with
    | some delegate => errorUnless (pkh = delegate) (.emptyImplicitDelegatedContract pkh)
    | none => .ok ()

def checkEmptied (newBalance : Tez) : Result T Unit :=
  if newBalance = Tez.zero then checkEmptiable ctxt contract else .ok ()

def spendContract (amount : Tez) : Result T (Context T) := do
  let balance := (ctxt.spendableBalance.find contract).getD Tez.zero
  let newBalance ← spendFromBalance contract balance amount
  let spendableBalance ← liftStorage (ctxt.spendableBalance.update contract newBalance)
  let ctxt ← removeContractDelegatedStake { ctxt with spendableBalance } contract amount
  checkEmptied ctxt contract newBalance
  return ctxt

def creditContract (amount : Tez) : Result T (Context T) :=
  match ctxt.spendableBalance.find contract with
  | none =>
    match contract with
    | .originated _ => tzfail (.nonExistingContract contract)
    | .implicit manager => createImplicit ctxt manager amount
  | some balance => do
    let balance ← liftTez (amount.add balance)
    let spendableBalance ← liftStorage (ctxt.spendableBalance.update contract balance)
    addContractDelegatedStake { ctxt with spendableBalance } contract amount

end Spendable

section Bonds
variable [DecidableEq T.BondId]

def getFrozenBonds : Tez :=
  (ctxt.totalFrozenBonds.find contract).getD Tez.zero

def getBalanceAndFrozenBonds : Result T Tez := do
  let balance ← liftStorage (ctxt.spendableBalance.get contract)
  liftTez (balance.add (getFrozenBonds ctxt contract))

def storeTotalAfterSpending (newTotal : Tez) : Result T (Context T) :=
  if newTotal = Tez.zero then do
    let totalFrozenBonds ← liftStorage (ctxt.totalFrozenBonds.removeExisting contract)
    return { ctxt with totalFrozenBonds }
  else do
    let totalFrozenBonds ← liftStorage (ctxt.totalFrozenBonds.update contract newTotal)
    return { ctxt with totalFrozenBonds }

def spendBond (bondId : T.BondId) (amount : Tez) : Result T (Context T) := do
  errorUnless (amount ≠ Tez.zero) (.failure "Expecting : [amount > 0]")
  let ctxt ← removeContractDelegatedStake ctxt contract amount
  let bond ← liftStorage (ctxt.frozenBonds.get (contract, bondId))
  errorUnless (bond = amount) (.frozenBondsMustBeSpentAtOnce contract bondId)
  let frozenBonds ← liftStorage (ctxt.frozenBonds.removeExisting (contract, bondId))
  let ctxt := { ctxt with frozenBonds }
  let total ← liftStorage (ctxt.totalFrozenBonds.get contract)
  let newTotal ← liftTez (total.sub amount)
  storeTotalAfterSpending ctxt contract newTotal

def creditBondEntry (bondId : T.BondId) (amount : Tez) : Result T (Context T) :=
  match ctxt.frozenBonds.find (contract, bondId) with
  | none => do
    let frozenBonds ← liftStorage (ctxt.frozenBonds.init (contract, bondId) amount)
    return { ctxt with frozenBonds }
  | some bond => do
    let newAmount ← liftTez (bond.add amount)
    let frozenBonds ← liftStorage (ctxt.frozenBonds.update (contract, bondId) newAmount)
    return { ctxt with frozenBonds }

def creditTotalFrozenBonds (amount : Tez) : Result T (Context T) :=
  match ctxt.totalFrozenBonds.find contract with
  | none => do
    let totalFrozenBonds ← liftStorage (ctxt.totalFrozenBonds.init contract amount)
    return { ctxt with totalFrozenBonds }
  | some total => do
    let newTotal ← liftTez (total.add amount)
    let totalFrozenBonds ← liftStorage (ctxt.totalFrozenBonds.update contract newTotal)
    return { ctxt with totalFrozenBonds }

def creditBond (bondId : T.BondId) (amount : Tez) : Result T (Context T) := do
  errorUnless (amount ≠ Tez.zero) (.failure "Expecting : [amount > 0]")
  let ctxt ← addContractDelegatedStake ctxt contract amount
  let ctxt ← creditBondEntry ctxt contract bondId amount
  creditTotalFrozenBonds ctxt contract amount

end Bonds

section Deallocation

def hasFrozenBonds : Bool :=
  ctxt.totalFrozenBonds.mem contract

def hasUnstakeRequests : Bool :=
  match ctxt.unstakeRequests.find contract with
  | none => false
  | some stored => !stored.requests.isEmpty

def hasFrozenDeposits : Bool :=
  match ctxt.stakingPseudotokens.find contract with
  | some pseudotokens =>
    if pseudotokens ≠ Tez.zero then true else hasUnstakeRequests ctxt contract
  | none => hasUnstakeRequests ctxt contract

def shouldKeepEmptyImplicitContract : Bool :=
  if hasFrozenBonds ctxt contract || hasFrozenDeposits ctxt contract then true
  else (ctxt.delegate.find contract).isSome

def ensureDeallocatedIfEmpty : Result T (Context T) :=
  match contract with
  | .originated _ => .ok ctxt
  | .implicit _ =>
    match ctxt.spendableBalance.find contract with
    | none => .ok ctxt
    | some balance =>
      if balance ≠ Tez.zero then .ok ctxt
      else if shouldKeepEmptyImplicitContract ctxt contract then .ok ctxt
      else delete ctxt contract

end Deallocation

namespace UnstakedFrozenDeposits

def currentUnslashableCycle : Option Nat :=
  subCycle ctxt.currentLevel.cycle (ctxt.constants.slashableDepositsPeriod + maxSlashingPeriod)

def getAll (delegate : T.Pkh) : Result T Squashed :=
  match ctxt.unstakedFrozenDeposits.find delegate with
  | none => .ok { unslashableCycle := currentUnslashableCycle ctxt, deposits := [] }
  | some deposits => liftTez (squashUnslashable (currentUnslashableCycle ctxt) deposits)

def updateBalance (f : Deposits → TzResult TezError Deposits)
    (ctxt : Context T) (delegate : T.Pkh) (cycle : Nat) : Result T (Context T) := do
  let squashed ← getAll ctxt delegate
  let updated ← liftTez (squashed.update f cycle)
  return { ctxt with
    unstakedFrozenDeposits := ctxt.unstakedFrozenDeposits.add delegate updated.deposits }

def addToDeposits (amount : Tez) (deposits : Deposits) : TzResult TezError Deposits :=
  deposits.addAmount amount

/-- The initial amount, to which the slashes are applied, stays. -/
def spendFromDeposits (amount : Tez) (deposits : Deposits) : TzResult TezError Deposits := do
  let currentAmount ← deposits.currentAmount.sub amount
  return { deposits with currentAmount }

def credit (delegate : T.Pkh) (cycle : Nat) (amount : Tez) : Result T (Context T) := do
  let ctxt ← addDelegatedStake ctxt delegate amount
  updateBalance (addToDeposits amount) ctxt delegate cycle

def spend (delegate : T.Pkh) (cycle : Nat) (amount : Tez) : Result T (Context T) := do
  let ctxt ← removeDelegatedStake ctxt delegate amount
  updateBalance (spendFromDeposits amount) ctxt delegate cycle

end UnstakedFrozenDeposits

section Commitments
variable [DecidableEq T.Bpkh]

def committedAmount (bpkh : T.Bpkh) : Tez :=
  (ctxt.commitments.find bpkh).getD Tez.zero

def increaseCommitment (bpkh : T.Bpkh) (amount : Tez) : Result T (Context T) :=
  if amount = Tez.zero then .ok ctxt
  else do
    let newBalance ← liftTez (amount.add (committedAmount ctxt bpkh))
    return { ctxt with commitments := ctxt.commitments.add bpkh newBalance }

def decreaseCommitment (bpkh : T.Bpkh) (amount : Tez) : Result T (Context T) := do
  let newBalance ← liftTez ((committedAmount ctxt bpkh).sub amount)
  return { ctxt with
    commitments :=
      if newBalance = Tez.zero then ctxt.commitments.remove bpkh
      else ctxt.commitments.add bpkh newBalance }

end Commitments

def creditCollectedFees (fees : Tez) : Result T (Context T) := do
  let collectedFees ← liftTez (ctxt.collectedFees.add fees)
  return { ctxt with collectedFees }

def spendCollectedFees (fees : Tez) : Result T (Context T) := do
  let collectedFees ← liftTez (ctxt.collectedFees.sub fees)
  return { ctxt with collectedFees }

end Octez.Token
