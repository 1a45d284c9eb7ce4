import Octez.Lib.Storage
import Octez.Model.Staking.Context

/-! # The tables that hold tokens -/

namespace Octez.Token
open Octez.Lib
open Octez.Slashing (Deposits)

inductive Contract (Pkh ContractHash : Type) where
  | implicit (pkh : Pkh)
  | originated (hash : ContractHash)
deriving DecidableEq, Repr

/-- The types of hashes, keys and bonds. -/
structure TokenTypes where
  Pkh : Type
  PublicKey : Type
  ContractHash : Type
  BondId : Type
  Bpkh : Type

abbrev TokenTypes.Contract (T : TokenTypes) := Token.Contract T.Pkh T.ContractHash

inductive Manager (Pkh PublicKey : Type) where
  | hash (pkh : Pkh)
  | publicKey (key : PublicKey)

structure Level where
  level : Nat
  cycle : Nat
deriving DecidableEq, Repr

structure FullStakingBalance where
  ownFrozen : Tez
  stakedFrozen : Tez
  delegated : Tez
  minDelegatedInCycle : Tez
  levelOfMinDelegated : Option Level
deriving DecidableEq, Repr

/-- The hash of a public key and whether a key or a hash is one of BLS belong to the signature
library. -/
structure Constants (Pkh PublicKey : Type) where
  slashableDepositsPeriod : Nat
  minimalStake : Tez
  toleratedInactivityPeriod : Nat
  consensusRightsDelay : Nat
  hash : PublicKey → Pkh
  isTz4 : Pkh → Bool
  isBls : PublicKey → Bool

structure Context (T : TokenTypes) where
  constants : Constants T.Pkh T.PublicKey
  currentLevel : Level
  globalCounter : Nat
  counter : Table T.Contract Nat
  spendableBalance : Table T.Contract Tez
  manager : Table T.Contract (Manager T.Pkh T.PublicKey)
  delegate : Table T.Contract T.Pkh
  delegated : Table (T.Pkh × T.Contract) Unit
  frozenBonds : Table (T.Contract × T.BondId) Tez
  totalFrozenBonds : Table T.Contract Tez
  stakingPseudotokens : Table T.Contract Tez
  unstakeRequests : Table T.Contract (Staking.StoredRequests T.Pkh)
  unstakedFrozenDeposits : Table T.Pkh (List (Nat × Deposits))
  stakingBalance : Table T.Pkh FullStakingBalance
  activeDelegatesWithMinimalStake : Table T.Pkh Unit
  inactiveDelegate : Table T.Pkh Unit
  delegateLastCycleBeforeDeactivation : Table T.Pkh Nat
  delegates : Table T.Pkh Unit
  consensusKeys : Table T.Pkh Unit
  consensusKey : Table T.Pkh T.PublicKey
  commitments : Table T.Bpkh Tez
  collectedFees : Tez
  totalSupply : Tez

inductive TokenError (Pkh PublicKey ContractHash BondId : Type) where
  | tez (error : TezError)
  | storage (error : StorageError)
  | failure (message : String)
  | balanceTooLow (contract : Contract Pkh ContractHash) (balance amount : Tez)
  | emptyImplicitDelegatedContract (pkh : Pkh)
  | nonExistingContract (contract : Contract Pkh ContractHash)
  | frozenBondsMustBeSpentAtOnce (contract : Contract Pkh ContractHash) (bondId : BondId)
  | forbiddenTz4Delegate (delegate : Pkh)
  | unregisteredDelegate (delegate : Pkh)
  | activeDelegate
  | emptyDelegateAccount (delegate : Pkh)
  | noDeletion (delegate : Pkh)
  | currentDelegate
  | invalidConsensusKeyUpdateActive
  | invalidConsensusKeyUpdateTz4 (key : PublicKey)
deriving DecidableEq, Repr

namespace FullStakingBalance

def cycleOfMinDelegated : Option Level → Nat
  | none => 0
  | some level => level.cycle

def init (ownFrozen stakedFrozen delegated : Tez) (currentLevel : Level) : FullStakingBalance where
  ownFrozen := ownFrozen
  stakedFrozen := stakedFrozen
  delegated := delegated
  minDelegatedInCycle := delegated
  levelOfMinDelegated := some currentLevel

def currentTotal (balance : FullStakingBalance) : TzResult TezError Tez := do
  let totalFrozen ← balance.ownFrozen.add balance.stakedFrozen
  totalFrozen.add balance.delegated

def hasMinimalStakeToBeConsidered (minimalStake : Tez) (balance : FullStakingBalance) : Bool :=
  match balance.currentTotal with
  | .error _ => true
  | .ok stakingBalance => minimalStake.mutez ≤ stakingBalance.mutez

/-- Stated of the function: applied to a balance, the kernel would evaluate the sum. -/
theorem hasMinimalStakeToBeConsidered_eq : hasMinimalStakeToBeConsidered = fun minimalStake balance =>
    match balance.currentTotal with
    | .error _ => true
    | .ok stakingBalance => decide (minimalStake.mutez ≤ stakingBalance.mutez) := by
  delta hasMinimalStakeToBeConsidered
  exact Eq.refl _

/-- `min_delegated_in_cycle`, a name that the field has. -/
def minDelegatedInCurrentCycle (currentCycle : Nat) (balance : FullStakingBalance) :
    TzResult TezError Tez :=
  if cycleOfMinDelegated balance.levelOfMinDelegated < currentCycle then .ok balance.delegated
  else do
    assert (cycleOfMinDelegated balance.levelOfMinDelegated == currentCycle)
    return balance.minDelegatedInCycle

variable (currentLevel : Level)

/-- The minimum of the cycle, and its level, once the delegated balance has decreased to
`delegated`. -/
def minAfterDecrease (delegated : Tez) (balance : FullStakingBalance) :
    TzResult TezError (Tez × Option Level) :=
  if cycleOfMinDelegated balance.levelOfMinDelegated < currentLevel.cycle then
    .ok (delegated, some currentLevel)
  else do
    assert (cycleOfMinDelegated balance.levelOfMinDelegated == currentLevel.cycle)
    let minimum := delegated.min balance.minDelegatedInCycle
    return (minimum,
      if minimum = balance.minDelegatedInCycle then balance.levelOfMinDelegated
      else some currentLevel)

variable (amount : Tez) (balance : FullStakingBalance)

def removeDelegated : TzResult TezError FullStakingBalance := do
  let delegated ← balance.delegated.sub amount
  let minimum ← minAfterDecrease currentLevel delegated balance
  return { balance with
    delegated, minDelegatedInCycle := minimum.1, levelOfMinDelegated := minimum.2 }

def removeOwnFrozen : TzResult TezError FullStakingBalance := do
  let ownFrozen ← balance.ownFrozen.sub amount
  return { balance with ownFrozen }

def removeStakedFrozen : TzResult TezError FullStakingBalance := do
  let stakedFrozen ← balance.stakedFrozen.sub amount
  return { balance with stakedFrozen }

def minBeforeIncrease : TzResult TezError (Tez × Option Level) :=
  if cycleOfMinDelegated balance.levelOfMinDelegated < currentLevel.cycle then
    .ok (balance.delegated, some currentLevel)
  else do
    assert (cycleOfMinDelegated balance.levelOfMinDelegated == currentLevel.cycle)
    return (balance.minDelegatedInCycle, balance.levelOfMinDelegated)

def addDelegated : TzResult TezError FullStakingBalance := do
  let minimum ← minBeforeIncrease currentLevel balance
  let delegated ← balance.delegated.add amount
  return { balance with
    delegated, minDelegatedInCycle := minimum.1, levelOfMinDelegated := minimum.2 }

def addOwnFrozen : TzResult TezError FullStakingBalance := do
  let ownFrozen ← balance.ownFrozen.add amount
  return { balance with ownFrozen }

def addStakedFrozen : TzResult TezError FullStakingBalance := do
  let stakedFrozen ← balance.stakedFrozen.add amount
  return { balance with stakedFrozen }

end FullStakingBalance

variable {T : TokenTypes} {α : Type}

abbrev Result (T : TokenTypes) (α : Type) :=
  TzResult (TokenError T.Pkh T.PublicKey T.ContractHash T.BondId) α

def liftTez (result : TzResult TezError α) : Result T α :=
  liftError .tez result

def liftStorage (result : TzResult StorageError α) : Result T α :=
  liftError .storage result

variable [DecidableEq T.Pkh] [DecidableEq T.ContractHash]
variable (ctxt : Context T)

variable (delegate : T.Pkh)

section Activation

def isInactive : Bool :=
  if ctxt.inactiveDelegate.mem delegate then true
  else match ctxt.delegateLastCycleBeforeDeactivation.find delegate with
    | some lastActiveCycle => lastActiveCycle < ctxt.currentLevel.cycle
    | none => false

def lastActiveCycle (inactive : Bool) : Nat :=
  let tolerance := ctxt.constants.toleratedInactivityPeriod
  let delayed := tolerance + ctxt.constants.consensusRightsDelay
  match ctxt.delegateLastCycleBeforeDeactivation.find delegate with
  | none => ctxt.currentLevel.cycle + delayed
  | some current =>
    max current (ctxt.currentLevel.cycle + if inactive then delayed else tolerance)

/-- `Delegate_activation_storage.set_active`, which also returns whether the delegate was
inactive. -/
def activate : Context T × Bool :=
  let inactive := isInactive ctxt delegate
  let ctxt := { ctxt with
    delegateLastCycleBeforeDeactivation :=
      ctxt.delegateLastCycleBeforeDeactivation.add delegate
        (lastActiveCycle ctxt delegate inactive) }
  if inactive then
    ({ ctxt with inactiveDelegate := ctxt.inactiveDelegate.remove delegate }, inactive)
  else (ctxt, inactive)

end Activation

variable (contract : T.Contract)

section Stake

def getFullStakingBalance : Result T FullStakingBalance :=
  liftStorage (ctxt.stakingBalance.get delegate)

def hasMinimalStake (stakingBalance : FullStakingBalance) : Bool :=
  stakingBalance.hasMinimalStakeToBeConsidered ctxt.constants.minimalStake

def addActiveDelegate : Context T :=
  { ctxt with
    activeDelegatesWithMinimalStake := ctxt.activeDelegatesWithMinimalStake.add delegate () }

def removeActiveDelegate : Context T :=
  { ctxt with
    activeDelegatesWithMinimalStake := ctxt.activeDelegatesWithMinimalStake.remove delegate }

def addIfMinimal (minimal : Bool) : Context T :=
  if minimal then addActiveDelegate ctxt delegate else ctxt

def initializeDelegate (delegated : Tez) : Result T (Context T) := do
  let balance := FullStakingBalance.init Tez.zero Tez.zero delegated ctxt.currentLevel
  let stakingBalance ← liftStorage (ctxt.stakingBalance.init delegate balance)
  let ctxt := { ctxt with stakingBalance }
  return addIfMinimal ctxt delegate (hasMinimalStake ctxt balance)

def updateActiveDelegates (hadMinimalStakeBefore hasMinimalStakeAfter : Bool) : Context T :=
  match hadMinimalStakeBefore, hasMinimalStakeAfter with
  | true, false => if isInactive ctxt delegate then ctxt else removeActiveDelegate ctxt delegate
  | false, true => if isInactive ctxt delegate then ctxt else addActiveDelegate ctxt delegate
  | false, false | true, true => ctxt

def updateStake (f : FullStakingBalance → TzResult TezError FullStakingBalance)
    (ctxt : Context T) (delegate : T.Pkh) : Result T (Context T) := do
  let stakingBalanceBefore ← getFullStakingBalance ctxt delegate
  let stakingBalance ← liftTez (f stakingBalanceBefore)
  let balances ← liftStorage (ctxt.stakingBalance.update delegate stakingBalance)
  return updateActiveDelegates { ctxt with stakingBalance := balances } delegate
    (hasMinimalStake ctxt stakingBalanceBefore) (hasMinimalStake ctxt stakingBalance)

variable (amount : Tez)

def removeDelegatedStake : Result T (Context T) :=
  updateStake (FullStakingBalance.removeDelegated ctxt.currentLevel amount) ctxt delegate

def removeOwnFrozenStake : Result T (Context T) :=
  updateStake (FullStakingBalance.removeOwnFrozen amount) ctxt delegate

def removeStakedFrozenStake : Result T (Context T) :=
  updateStake (FullStakingBalance.removeStakedFrozen amount) ctxt delegate

def addDelegatedStake : Result T (Context T) :=
  updateStake (FullStakingBalance.addDelegated ctxt.currentLevel amount) ctxt delegate

def addOwnFrozenStake : Result T (Context T) :=
  updateStake (FullStakingBalance.addOwnFrozen amount) ctxt delegate

def addStakedFrozenStake : Result T (Context T) :=
  updateStake (FullStakingBalance.addStakedFrozen amount) ctxt delegate

/-- `Stake_storage.set_active`. -/
def setActive : Result T (Context T) :=
  let (ctxt, inactive) := activate ctxt delegate
  if inactive then do
    let stakingBalance ← getFullStakingBalance ctxt delegate
    return addIfMinimal ctxt delegate (hasMinimalStake ctxt stakingBalance)
  else .ok ctxt

/-- `Stake_storage.set_inactive`. -/
def setInactive : Context T :=
  removeActiveDelegate { ctxt with inactiveDelegate := ctxt.inactiveDelegate.add delegate () } delegate

def removeContractDelegatedStake : Result T (Context T) :=
  match ctxt.delegate.find contract with
  | none => .ok ctxt
  | some delegate => removeDelegatedStake ctxt delegate amount

def addContractDelegatedStake : Result T (Context T) :=
  match ctxt.delegate.find contract with
  | none => .ok ctxt
  | some delegate => addDelegatedStake ctxt delegate amount

end Stake

section Delegation

def checkNotTz4 : Result T Unit :=
  errorUnless (!ctxt.constants.isTz4 delegate) (.forbiddenTz4Delegate delegate)

namespace ContractDelegate

def init (delegate : T.Pkh) : Result T (Context T) := do
  checkNotTz4 ctxt delegate
  let delegates ← liftStorage (ctxt.delegate.init contract delegate)
  return { ctxt with
    delegate := delegates, delegated := ctxt.delegated.add (delegate, contract) () }

def unlink : Context T :=
  match ctxt.delegate.find contract with
  | none => ctxt
  | some delegate => { ctxt with delegated := ctxt.delegated.remove (delegate, contract) }

def delete : Context T :=
  let ctxt := unlink ctxt contract
  { ctxt with delegate := ctxt.delegate.remove contract }

def set (delegate : T.Pkh) : Result T (Context T) := do
  checkNotTz4 ctxt delegate
  let ctxt := unlink ctxt contract
  return { ctxt with
    delegate := ctxt.delegate.add contract delegate
    delegated := ctxt.delegated.add (delegate, contract) () }

end ContractDelegate

end Delegation

end Octez.Token
