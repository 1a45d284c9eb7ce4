import Octez.Lib.Map
import Octez.Lib.SortedAssoc
import Octez.Model.Slashing

/-! # The part of the context that staking reads and writes -/

namespace Octez.Slashing.Deposits
open Octez.Lib

def zero : Deposits := ⟨Tez.zero, Tez.zero⟩

/-- `+?`. -/
def addAmount (deposits : Deposits) (inc : Tez) : TzResult TezError Deposits := do
  let initialAmount ← deposits.initialAmount.add inc
  let currentAmount ← deposits.currentAmount.add inc
  return { initialAmount, currentAmount }

/-- `++?`. -/
def add (first second : Deposits) : TzResult TezError Deposits := do
  let initialAmount ← first.initialAmount.add second.initialAmount
  let currentAmount ← first.currentAmount.add second.currentAmount
  return { initialAmount, currentAmount }

end Octez.Slashing.Deposits

namespace Octez.Staking
open Octez.Lib
open Octez.Slashing (FullStakingBalance Deposits)

structure Constants where
  slashableDepositsPeriod : Nat
  globalLimitOfStakingOverBaking : Nat
  adaptiveIssuanceAutostakingEnable : Bool

def maxSlashingPeriod : Nat := 2

structure StoredRequests (Pkh : Type) where
  delegate : Pkh
  requests : List (Nat × Tez)

structure Context (Pkh : Type) where
  constants : Constants
  cycle : Nat
  adaptiveIssuanceEnable : Bool
  balance : Pkh → Tez
  delegate : Map Pkh Pkh
  stakingBalance : Map Pkh FullStakingBalance
  inactive : Pkh → Bool
  limitOfStakingOverBakingMillionth : Pkh → Nat
  stakingPseudotokens : Pkh → Tez
  frozenDepositsPseudotokens : Pkh → Tez
  unstakeRequests : Map Pkh (StoredRequests Pkh)
  unstakedFrozenDeposits : Pkh → List (Nat × Deposits)
  slashedDeposits : Pkh → List (Nat × Percentage)
  slashedDepositsOxford : Pkh → List (Nat × Percentage)
  pendingDenunciations : Pkh → Bool
  totalSupply : Tez

inductive StakingError (Pkh : Type) where
  | tez (error : TezError)
  | missingKey
  | balanceTooLow (contract : Pkh) (balance amount : Tez)
  | emptyImplicitDelegatedContract (contract : Pkh)
  | cannotStakeOnFullySlashedDelegate
  | cannotStakeWithUnfinalizableUnstakeRequestsToAnotherDelegate
  | manualStakingForbidden
  | emptyTransaction (contract : Pkh)
  | stakeModificationWithNoDelegateSet
  | stakingForDelegatorWhileExternalStakingDisabled
  | stakingToDelegateThatRefusesExternalStaking
  | activeDelegate
  | emptyDelegateAccount (delegate : Pkh)
  | noDeletion (delegate : Pkh)
  | currentDelegate
  | unregisteredDelegate (delegate : Pkh)
deriving DecidableEq, Repr

abbrev Result (Pkh α : Type) := TzResult (StakingError Pkh) α

def liftTez {Pkh α : Type} (result : TzResult TezError α) : Result Pkh α := liftError .tez result

variable {Pkh : Type} [DecidableEq Pkh]

variable (ctxt : Context Pkh)

variable (delegate : Pkh)

def getFullStakingBalance : Result Pkh FullStakingBalance :=
  match ctxt.stakingBalance delegate with
  | none => tzfail .missingKey
  | some balance => .ok balance

def updateStake (f : FullStakingBalance → TzResult TezError FullStakingBalance)
    (ctxt : Context Pkh) (delegate : Pkh) : Result Pkh (Context Pkh) := do
  let stakingBalanceBefore ← getFullStakingBalance ctxt delegate
  let stakingBalance ← liftTez (f stakingBalanceBefore)
  return { ctxt with stakingBalance := ctxt.stakingBalance.add delegate stakingBalance }

def removeDelegatedStake (amount : Tez) : Result Pkh (Context Pkh) :=
  updateStake (fun balance => do
    let delegated ← balance.delegated.sub amount
    return { balance with delegated }) ctxt delegate

def removeOwnFrozenStake (amount : Tez) : Result Pkh (Context Pkh) :=
  updateStake (fun balance => do
    let ownFrozen ← balance.ownFrozen.sub amount
    return { balance with ownFrozen }) ctxt delegate

def removeStakedFrozenStake (amount : Tez) : Result Pkh (Context Pkh) :=
  updateStake (fun balance => do
    let stakedFrozen ← balance.stakedFrozen.sub amount
    return { balance with stakedFrozen }) ctxt delegate

def addDelegatedStake (amount : Tez) : Result Pkh (Context Pkh) :=
  updateStake (fun balance => do
    let delegated ← balance.delegated.add amount
    return { balance with delegated }) ctxt delegate

def addOwnFrozenStake (amount : Tez) : Result Pkh (Context Pkh) :=
  updateStake (fun balance => do
    let ownFrozen ← balance.ownFrozen.add amount
    return { balance with ownFrozen }) ctxt delegate

def addStakedFrozenStake (amount : Tez) : Result Pkh (Context Pkh) :=
  updateStake (fun balance => do
    let stakedFrozen ← balance.stakedFrozen.add amount
    return { balance with stakedFrozen }) ctxt delegate

variable (contract : Pkh)

def removeContractDelegatedStake (amount : Tez) : Result Pkh (Context Pkh) :=
  match ctxt.delegate contract with
  | none => .ok ctxt
  | some delegate => removeDelegatedStake ctxt delegate amount

def addContractDelegatedStake (amount : Tez) : Result Pkh (Context Pkh) :=
  match ctxt.delegate contract with
  | none => .ok ctxt
  | some delegate => addDelegatedStake ctxt delegate amount

structure Squashed where
  unslashableCycle : Option Nat
  deposits : List (Nat × Deposits)

def checkWellFormed : List (Nat × Deposits) → Except String Unit
  | (c1, _) :: (c2, d2) :: rest =>
    if c2 ≤ c1 then .error "Malformed unstaked frozen deposits" else checkWellFormed ((c2, d2) :: rest)
  | _ => .ok ()

/-- The loop `aux` of `squash_unslashable`. -/
def squashInto (unslashableCycle : Nat) (unslashable : Deposits) :
    List (Nat × Deposits) → TzResult TezError (List (Nat × Deposits))
  | [] => .ok [(unslashableCycle, unslashable)]
  | (cycle, deposits) :: rest =>
    if cycle ≤ unslashableCycle then do
      let unslashable ← Deposits.add unslashable deposits
      squashInto unslashableCycle unslashable rest
    else .ok ((unslashableCycle, unslashable) :: (cycle, deposits) :: rest)

def squashUnslashable (unslashableCycle : Option Nat) (deposits : List (Nat × Deposits)) :
    TzResult TezError Squashed :=
  match unslashableCycle, deposits with
  | some unslashable, (cycle, first) :: rest =>
    if cycle ≤ unslashable then do
      let deposits ← squashInto unslashable first rest
      return { unslashableCycle, deposits }
    else .ok { unslashableCycle, deposits }
  | _, _ => .ok { unslashableCycle, deposits }

def normalizeCycle (cycle : Nat) : Option Nat → Nat
  | none => cycle
  | some unslashableCycle => max cycle unslashableCycle

def Squashed.get (cycle : Nat) (squashed : Squashed) : Deposits :=
  (squashed.deposits.lookup (normalizeCycle cycle squashed.unslashableCycle)).getD Deposits.zero

variable (f : Deposits → TzResult TezError Deposits)

def updateT (normalizedCycle : Nat)
    (deposits : List (Nat × Deposits)) : TzResult TezError (List (Nat × Deposits)) :=
  SortedAssoc.updateM (fun found => f (found.getD Deposits.zero)) normalizedCycle deposits

def Squashed.update (cycle : Nat) (squashed : Squashed) : TzResult TezError Squashed := do
  let deposits ← updateT f (normalizeCycle cycle squashed.unslashableCycle) squashed.deposits
  return { squashed with deposits }

/-- `Cycle_repr.sub`. -/
def subCycle (cycle i : Nat) : Option Nat := if i ≤ cycle then some (cycle - i) else none

def currentUnslashableCycle : Option Nat :=
  subCycle ctxt.cycle (ctxt.constants.slashableDepositsPeriod + maxSlashingPeriod)

namespace UnstakedFrozenDeposits

variable (delegate : Pkh)

def getAll : Result Pkh Squashed :=
  liftTez (squashUnslashable (currentUnslashableCycle ctxt) (ctxt.unstakedFrozenDeposits delegate))

def get (cycle : Nat) : Result Pkh Deposits := do
  let unstakedFrozenDeposits ← getAll ctxt delegate
  return unstakedFrozenDeposits.get cycle

def updateBalance (ctxt : Context Pkh) (delegate : Pkh) (cycle : Nat) : Result Pkh (Context Pkh) := do
  let unstakedFrozenDeposits ← getAll ctxt delegate
  let unstakedFrozenDeposits ← liftTez (unstakedFrozenDeposits.update f cycle)
  return { ctxt with
    unstakedFrozenDeposits :=
      Function.update ctxt.unstakedFrozenDeposits delegate unstakedFrozenDeposits.deposits }

def credit (cycle : Nat) (amount : Tez) : Result Pkh (Context Pkh) := do
  let ctxt ← addDelegatedStake ctxt delegate amount
  updateBalance (fun deposits => deposits.addAmount amount) ctxt delegate cycle

def spend (cycle : Nat) (amount : Tez) : Result Pkh (Context Pkh) := do
  let ctxt ← removeDelegatedStake ctxt delegate amount
  updateBalance (fun deposits => do
    let currentAmount ← deposits.currentAmount.sub amount
    return { deposits with currentAmount }) ctxt delegate cycle

def decreaseInitialAmount (cycle : Nat) (amount : Tez) : Result Pkh (Context Pkh) :=
  updateBalance (fun deposits => do
    let initialAmount ← deposits.initialAmount.sub amount
    return { deposits with initialAmount }) ctxt delegate cycle

end UnstakedFrozenDeposits

inductive FrozenStaker (Pkh : Type) where
  | baker (delegate : Pkh)
  | singleStaker (staker delegate : Pkh)
  | sharedBetweenStakers (delegate : Pkh)
  | bakerEdge (delegate : Pkh)

def FrozenStaker.ofStaker (staker delegate : Pkh) : FrozenStaker Pkh :=
  if staker = delegate then .baker staker else .singleStaker staker delegate

/-- Of an unstaked frozen staker only the delegate matters to a transfer. -/
inductive Container (Pkh : Type) where
  | contract (contract : Pkh)
  | frozenDeposits (staker : FrozenStaker Pkh)
  | unstakedFrozenDeposits (delegate : Pkh) (cycle : Nat)

inductive Giver (Pkh : Type) where
  | infiniteSource
  | container (container : Container Pkh)

inductive Receiver (Pkh : Type) where
  | infiniteSink
  | container (container : Container Pkh)

def spendFromBalance (balance amount : Tez) : Result Pkh Tez :=
  liftError (fun _ => .balanceTooLow contract balance amount) (balance.sub amount)

def checkEmptiable : Result Pkh Unit :=
  match ctxt.delegate contract with
  | none => .ok ()
  | some delegate =>
    if contract = delegate then .ok () else tzfail (.emptyImplicitDelegatedContract contract)

def spendContract (amount : Tez) : Result Pkh (Context Pkh) := do
  let newBalance ← spendFromBalance contract (ctxt.balance contract) amount
  let ctxt := { ctxt with balance := Function.update ctxt.balance contract newBalance }
  let ctxt ← removeContractDelegatedStake ctxt contract amount
  if newBalance = Tez.zero then checkEmptiable ctxt contract
  return ctxt

def creditContract (amount : Tez) : Result Pkh (Context Pkh) := do
  let balance ← liftTez (amount.add (ctxt.balance contract))
  let ctxt := { ctxt with balance := Function.update ctxt.balance contract balance }
  addContractDelegatedStake ctxt contract amount

def removeFrozenStake (staker : FrozenStaker Pkh) (amount : Tez) : Result Pkh (Context Pkh) :=
  match staker with
  | .baker delegate | .bakerEdge delegate => removeOwnFrozenStake ctxt delegate amount
  | .singleStaker _ delegate | .sharedBetweenStakers delegate =>
    removeStakedFrozenStake ctxt delegate amount

def addFrozenStake (staker : FrozenStaker Pkh) (amount : Tez) : Result Pkh (Context Pkh) :=
  match staker with
  | .baker delegate | .bakerEdge delegate => addOwnFrozenStake ctxt delegate amount
  | .singleStaker _ delegate | .sharedBetweenStakers delegate =>
    addStakedFrozenStake ctxt delegate amount

def spend (giver : Giver Pkh) (amount : Tez) : Result Pkh (Context Pkh) :=
  match giver with
  | .infiniteSource => do
    let totalSupply ← liftTez (ctxt.totalSupply.add amount)
    return { ctxt with totalSupply }
  | .container (.contract giver) => spendContract ctxt giver amount
  | .container (.frozenDeposits staker) => removeFrozenStake ctxt staker amount
  | .container (.unstakedFrozenDeposits delegate cycle) =>
    UnstakedFrozenDeposits.spend ctxt delegate cycle amount

def credit (receiver : Receiver Pkh) (amount : Tez) : Result Pkh (Context Pkh) :=
  match receiver with
  | .infiniteSink => do
    let totalSupply ← liftTez (ctxt.totalSupply.sub amount)
    return { ctxt with totalSupply }
  | .container (.contract receiver) => creditContract ctxt receiver amount
  | .container (.frozenDeposits staker) => addFrozenStake ctxt staker amount
  | .container (.unstakedFrozenDeposits delegate cycle) =>
    UnstakedFrozenDeposits.credit ctxt delegate cycle amount

def withdraw (state : Context Pkh × Tez) (giver : Giver Pkh × Tez) :
    Result Pkh (Context Pkh × Tez) := do
  let ctxt ← spend state.1 giver.1 giver.2
  let total ← liftTez (giver.2.add state.2)
  return (ctxt, total)

/-- The deallocation of the emptied implicit accounts changes nothing here. -/
def transferN (givers : List (Giver Pkh × Tez)) (receiver : Receiver Pkh) :
    Result Pkh (Context Pkh) :=
  match givers.filter fun giver => giver.2 ≠ Tez.zero with
  | [] => .ok ctxt
  | givers => do
    let (ctxt, amount) ← givers.foldlM withdraw (ctxt, Tez.zero)
    credit ctxt receiver amount

def transfer (giver : Giver Pkh) (receiver : Receiver Pkh) (amount : Tez) :
    Result Pkh (Context Pkh) :=
  transferN ctxt [(giver, amount)] receiver

end Octez.Staking
