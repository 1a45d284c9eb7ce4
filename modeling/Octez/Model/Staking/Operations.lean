import Octez.Model.Staking.Context
import Octez.Model.Staking.Pseudotokens

/-! # Unstake requests (`src/proto_alpha/lib_protocol/unstake_requests_storage.ml`) -/

namespace Octez.Staking
open Octez.Lib

namespace SlashedDepositsHistory

def add (cycle : Nat) (percentage : Percentage) : List (Nat × Percentage) → List (Nat × Percentage)
  | [] => [(cycle, percentage)]
  | (c, p) :: rest =>
    if cycle = c then (c, p.addBounded percentage) :: rest
    else if c < cycle then (c, p) :: add cycle percentage rest
    else (cycle, percentage) :: (c, p) :: rest

def get (cycle : Nat) : List (Nat × Percentage) → Percentage
  | [] => Percentage.p0
  | (c, p) :: rest => if cycle = c then p else if c < cycle then get cycle rest else Percentage.p0

end SlashedDepositsHistory

namespace UnstakeRequest

/-- The loop of `add`, that walks to the request of the cycle. -/
def addLoop (cycle : Nat) (amount : Tez) (requests revPrefix : List (Nat × Tez)) :
    List (Nat × Tez) → TzResult TezError (List (Nat × Tez))
  | [] => .ok ((cycle, amount) :: requests)
  | (c, a) :: rest =>
    if c = cycle then do
      let a ← a.add amount
      return revPrefix.reverseAux ((c, a) :: rest)
    else addLoop cycle amount requests ((c, a) :: revPrefix) rest

def add (cycle : Nat) (amount : Tez) (requests : List (Nat × Tez)) :
    TzResult TezError (List (Nat × Tez)) :=
  addLoop cycle amount requests [] requests

end UnstakeRequest

namespace UnstakeRequests
variable {Pkh : Type} [DecidableEq Pkh]

structure PreparedFinalizeUnstake (Pkh : Type) where
  finalizable : List (Pkh × Nat × Tez)
  unfinalizable : StoredRequests Pkh

def applySlash (slashableDepositsPeriod fromCycle : Nat) (amount remain : Tez)
    (slashing : Nat × Percentage) : Tez :=
  if fromCycle ≤ slashing.1 ∧ slashing.1 ≤ fromCycle + slashableDepositsPeriod then
    (remain.subOpt (amount.mulPercentage .up slashing.2)).getD Tez.zero
  else remain

def applySlashes (slashableDepositsPeriod : Nat) (slashingHistory : List (Nat × Percentage))
    (fromCycle : Nat) (amount : Tez) : Tez :=
  slashingHistory.foldl (applySlash slashableDepositsPeriod fromCycle amount) amount

variable (forNextCycle : Bool) (ctxt : Context Pkh)

/-- The slashing history of a delegate, with the entries left by the previous protocol. -/
def slashingHistory (delegate : Pkh) : List (Nat × Percentage) :=
  (ctxt.slashedDeposits delegate).foldl (fun acc entry => SlashedDepositsHistory.add entry.1 entry.2 acc)
    (ctxt.slashedDepositsOxford delegate)

/-- `for_next_cycle_use_only_after_slashing`. -/
def cycleOf : Nat :=
  if forNextCycle then ctxt.cycle + 1 else ctxt.cycle

def prepareFinalizeUnstake (contract : Pkh) : Option (PreparedFinalizeUnstake Pkh) :=
  let slashableDepositsPeriod := ctxt.constants.slashableDepositsPeriod
  match ctxt.unstakeRequests contract with
  | none => none
  | some { delegate, requests } =>
    match requests with
    | [] => none
    | _ :: _ =>
      match subCycle (cycleOf forNextCycle ctxt) (slashableDepositsPeriod + maxSlashingPeriod) with
      | none => some { finalizable := [], unfinalizable := { delegate, requests } }
      | some greatestFinalizableCycle =>
        let history := slashingHistory ctxt delegate
        let (finalizable, unfinalizable) :=
          requests.partition fun request => request.1 ≤ greatestFinalizableCycle
        some {
          finalizable := finalizable.map fun request =>
            (delegate, request.1, applySlashes slashableDepositsPeriod history request.1 request.2)
          unfinalizable := { delegate, requests := unfinalizable } }

def update (contract : Pkh) (requests : StoredRequests Pkh) : Result Pkh (Context Pkh) :=
  match ctxt.unstakeRequests contract with
  | none => tzfail .missingKey
  | some _ => .ok { ctxt with unstakeRequests := ctxt.unstakeRequests.add contract requests }

/-- The requests that `add` extends. -/
def recorded (contract delegate : Pkh) : Result Pkh (List (Nat × Tez)) :=
  match ctxt.unstakeRequests contract with
  | none => .ok []
  | some stored => do
    assert (delegate = stored.delegate)
    return stored.requests

def add (contract delegate : Pkh) (cycle : Nat) (amount : Tez) : Result Pkh (Context Pkh) := do
  let requests ← recorded ctxt contract delegate
  let requests ← liftTez (UnstakeRequest.add cycle amount requests)
  return { ctxt with unstakeRequests := ctxt.unstakeRequests.add contract { delegate, requests } }

end UnstakeRequests

/-! # Staking operations (`src/proto_alpha/lib_protocol/staking.ml`) -/

open Octez.Slashing (Shared computeRewardAndBurn share slashableCycles)
variable {Pkh : Type} [DecidableEq Pkh]

def finalizeTransfer (contract : Pkh) (ctxt : Context Pkh) (finalizable : Pkh × Nat × Tez) :
    Result Pkh (Context Pkh) :=
  transfer ctxt (.container (.unstakedFrozenDeposits finalizable.1 finalizable.2.1))
    (.container (.contract contract)) finalizable.2.2

variable (forNextCycle : Bool) (ctxt : Context Pkh)

def performFinalizableUnstakeTransfers (contract : Pkh)
    (finalizable : List (Pkh × Nat × Tez)) : Result Pkh (Context Pkh) :=
  finalizable.foldlM (finalizeTransfer contract) ctxt

def finalizeUnstakeAndCheck (checkUnfinalizable : StoredRequests Pkh → Result Pkh Unit) (ctxt : Context Pkh)
    (contract : Pkh) : Result Pkh (Context Pkh × Option (StoredRequests Pkh)) :=
  match UnstakeRequests.prepareFinalizeUnstake forNextCycle ctxt contract with
  | none => .ok (ctxt, none)
  | some { finalizable, unfinalizable } => do
    checkUnfinalizable unfinalizable
    match finalizable with
    | [] => return (ctxt, some unfinalizable)
    | _ :: _ =>
      let ctxt ← UnstakeRequests.update ctxt contract unfinalizable
      let ctxt ← performFinalizableUnstakeTransfers ctxt contract finalizable
      return (ctxt, some unfinalizable)

def finalizeUnstake (contract : Pkh) : Result Pkh (Context Pkh) := do
  let (ctxt, _) ← finalizeUnstakeAndCheck forNextCycle (fun _ => .ok ()) ctxt contract
  return ctxt

def canStakeFromUnstake (delegate : Pkh) : Bool :=
  let slashingHistory := ctxt.slashedDeposits delegate ++ ctxt.slashedDepositsOxford delegate
  let oldestSlashableCycle :=
    (subCycle (UnstakeRequests.cycleOf forNextCycle ctxt) (ctxt.constants.slashableDepositsPeriod + 1)).getD 0
  let isSlashed := slashingHistory.any fun slashing => oldestSlashableCycle ≤ slashing.1
  !(ctxt.pendingDenunciations delegate || isSlashed)

def removeFromUnstakedFrozenDeposit (cycle : Nat)
    (delegate senderContract : Pkh) (amount : Tez) : Result Pkh (Context Pkh) := do
  let ctxt ← transfer ctxt (.container (.unstakedFrozenDeposits delegate cycle))
    (.container (.frozenDeposits (.ofStaker senderContract delegate))) amount
  UnstakedFrozenDeposits.decreaseInitialAmount ctxt delegate cycle amount

def transferFromUnstake (delegate : Pkh) (ctxt : Context Pkh) (remaining : Tez)
    (updatedRequestsRev : List (Nat × Tez)) :
    List (Nat × Tez) → Result Pkh (Context Pkh × Tez × List (Nat × Tez))
  | [] => .ok (ctxt, remaining, updatedRequestsRev)
  | (cycle, requestedAmount) :: rest =>
    if remaining = Tez.zero then
      .ok (ctxt, Tez.zero, ((cycle, requestedAmount) :: rest).reverseAux updatedRequestsRev)
    else if requestedAmount.mutez ≤ remaining.mutez then do
      let ctxt ← removeFromUnstakedFrozenDeposit ctxt cycle delegate delegate requestedAmount
      let remaining ← liftTez (remaining.sub requestedAmount)
      transferFromUnstake delegate ctxt remaining updatedRequestsRev rest
    else do
      let ctxt ← removeFromUnstakedFrozenDeposit ctxt cycle delegate delegate remaining
      let newRequestedAmount ← liftTez (requestedAmount.sub remaining)
      return (ctxt, Tez.zero, rest.reverseAux ((cycle, newRequestedAmount) :: updatedRequestsRev))

def stakeFromUnstakeForDelegate (delegate : Pkh)
    (unfinalizableRequests : Option (StoredRequests Pkh)) (amount : Tez) :
    Result Pkh (Context Pkh × Tez) :=
  match unfinalizableRequests with
  | none => .ok (ctxt, amount)
  | some stored =>
    if delegate ≠ stored.delegate then .ok (ctxt, Tez.zero)
    else if canStakeFromUnstake forNextCycle ctxt delegate then do
      -- In decreasing order of the cycles.
      let requestsSorted := stored.requests.insertionSort fun r1 r2 => r2.1 ≤ r1.1
      let (ctxt, remaining, updatedRequestsRev) ←
        transferFromUnstake delegate ctxt amount [] requestsSorted
      let ctxt ← UnstakeRequests.update ctxt delegate
        { delegate, requests := updatedRequestsRev.reverse }
      return (ctxt, remaining)
    else .ok (ctxt, amount)

inductive StakeAmount where
  | atMost (amount : Tez)
  | exactly (amount : Tez)

def StakeAmount.tez : StakeAmount → Tez
  | .atMost amount | .exactly amount => amount

def checkUnfinalizable (amount : StakeAmount) (delegate : Pkh) (stored : StoredRequests Pkh) :
    Result Pkh Unit :=
  match stored.requests, amount with
  | [], _ | _ :: _, .atMost _ => .ok ()
  | _ :: _, .exactly _ =>
    if delegate ≠ stored.delegate then
      tzfail .cannotStakeWithUnfinalizableUnstakeRequestsToAnotherDelegate
    else .ok ()

def stakeFromUnstake (sender delegate : Pkh)
    (unfinalizableRequests : Option (StoredRequests Pkh)) (amount : Tez) :
    Result Pkh (Context Pkh × Tez) :=
  if sender ≠ delegate then .ok (ctxt, amount)
  else stakeFromUnstakeForDelegate forNextCycle ctxt delegate unfinalizableRequests amount

def issuePseudotokens (sender delegate : Pkh) (amount : Tez) : Result Pkh (Context Pkh) :=
  if sender ≠ delegate then Pseudotokens.stake ctxt sender delegate amount else .ok ctxt

def stake (amount : StakeAmount) (sender delegate : Pkh) : Result Pkh (Context Pkh) := do
  let (ctxt, unfinalizableRequests) ←
    finalizeUnstakeAndCheck forNextCycle (checkUnfinalizable amount delegate) ctxt sender
  let (ctxt, amountFromLiquid) ←
    stakeFromUnstake forNextCycle ctxt sender delegate unfinalizableRequests amount.tez
  let amountFromLiquid :=
    match amount with
    | .exactly _ => amountFromLiquid
    | .atMost _ => Tez.min amountFromLiquid (ctxt.balance delegate)
  let ctxt ← issuePseudotokens ctxt sender delegate amountFromLiquid
  transfer ctxt (.container (.contract sender))
    (.container (.frozenDeposits (.ofStaker sender delegate))) amountFromLiquid

/-- What `request_unstake` does with the unstaked tez before it records the request. -/
def moveToUnstaked (senderContract delegate : Pkh)
    (tezToUnstake : Tez) : Result Pkh (Context Pkh) := do
  let ctxt ← transfer ctxt (.container (.frozenDeposits (.ofStaker senderContract delegate)))
    (.container (.unstakedFrozenDeposits delegate (UnstakeRequests.cycleOf forNextCycle ctxt)))
    tezToUnstake
  finalizeUnstake forNextCycle ctxt senderContract

def requestUnstake (senderContract delegate : Pkh)
    (requestedAmount : Tez) : Result Pkh (Context Pkh) := do
  let (ctxt, tezToUnstake) ←
    Pseudotokens.requestUnstake ctxt senderContract delegate requestedAmount
  if tezToUnstake = Tez.zero then return ctxt
  else
    let concernedCycle := UnstakeRequests.cycleOf forNextCycle ctxt
    let ctxt ← moveToUnstaked forNextCycle ctxt senderContract delegate tezToUnstake
    UnstakeRequests.add ctxt senderContract delegate concernedCycle tezToUnstake

inductive StakingAutomation where
  | autoStaking
  | manualStaking
deriving DecidableEq, Repr

def stakingAutomation : StakingAutomation :=
  if ctxt.adaptiveIssuanceEnable || !ctxt.constants.adaptiveIssuanceAutostakingEnable then
    .manualStaking
  else .autoStaking

def checkManualStakingAllowed : Result Pkh Unit :=
  match stakingAutomation ctxt with
  | .manualStaking => .ok ()
  | .autoStaking => tzfail .manualStakingForbidden

/-- `Stake_storage.set_active`, `initialize_delegate` and `Storage.Delegates.add`. -/
def setSelfDelegate (delegate : Pkh) : Result Pkh (Context Pkh) :=
  match ctxt.stakingBalance delegate with
  | some _ => do
    errorUnless (ctxt.inactive delegate) .activeDelegate
    return { ctxt with inactive := Function.update ctxt.inactive delegate false }
  | none => do
    errorUnless (ctxt.balance delegate ≠ Tez.zero) (.emptyDelegateAccount delegate)
    let balance := ctxt.balance delegate
    let ctxt ← removeContractDelegatedStake ctxt delegate balance
    return { ctxt with
      delegate := ctxt.delegate.add delegate delegate,
      stakingBalance := ctxt.stakingBalance.add delegate
        { ownFrozen := Tez.zero, stakedFrozen := Tez.zero, delegated := balance },
      inactive := Function.update ctxt.inactive delegate false }

def checkNotCurrent (delegate currentDelegate : Option Pkh) : Result Pkh Unit :=
  match delegate, currentDelegate with
  | some delegate, some currentDelegate =>
    if delegate = currentDelegate then tzfail .currentDelegate else .ok ()
  | _, _ => .ok ()

def setDelegate (contract : Pkh) (delegate : Option Pkh) : Result Pkh (Context Pkh) := do
  errorUnless (ctxt.stakingBalance contract).isNone (.noDeletion contract)
  checkNotCurrent delegate (ctxt.delegate contract)
  let balance := ctxt.balance contract
  let ctxt ← removeContractDelegatedStake ctxt contract balance
  match delegate with
  | none => return { ctxt with delegate := ctxt.delegate.remove contract }
  | some delegate =>
    errorUnless (ctxt.stakingBalance delegate).isSome (.unregisteredDelegate delegate)
    let ctxt := { ctxt with delegate := ctxt.delegate.add contract delegate }
    addDelegatedStake ctxt delegate balance

/-- `Delegate_storage.Contract.set`. -/
def setContractDelegate (contract : Pkh) (delegate : Option Pkh) : Result Pkh (Context Pkh) :=
  if delegate = some contract then setSelfDelegate ctxt contract
  else setDelegate ctxt contract delegate

def applyStake (sender : Pkh) (amount : Tez) : Result Pkh (Context Pkh) := do
  checkManualStakingAllowed ctxt
  errorUnless (amount ≠ Tez.zero) (.emptyTransaction sender)
  match ctxt.delegate sender with
  | none => tzfail .stakeModificationWithNoDelegateSet
  | some delegate => do
    errorUnless (delegate = sender || ctxt.adaptiveIssuanceEnable)
      .stakingForDelegatorWhileExternalStakingDisabled
    errorUnless (!(delegate ≠ sender && ctxt.limitOfStakingOverBakingMillionth delegate = 0))
      .stakingToDelegateThatRefusesExternalStaking
    stake false ctxt (.exactly amount) sender delegate

def applyUnstake (sender : Pkh) (amount : Tez) : Result Pkh (Context Pkh) := do
  checkManualStakingAllowed ctxt
  match ctxt.delegate sender with
  | none => tzfail .stakeModificationWithNoDelegateSet
  | some delegate => requestUnstake false ctxt sender delegate amount

def applyFinalizeUnstake (sender : Pkh) : Result Pkh (Context Pkh) :=
  finalizeUnstake false ctxt sender

def maxTez : Tez := ⟨maxMutez, le_rfl⟩

def unstakeFromPrevious (sender : Pkh) : Result Pkh (Context Pkh) :=
  match ctxt.delegate sender with
  | none => .ok ctxt
  | some previous =>
    if previous = sender then .ok ctxt else requestUnstake false ctxt sender previous maxTez

def applyDelegation (sender : Pkh) (delegate : Option Pkh) : Result Pkh (Context Pkh) := do
  let ctxt ← unstakeFromPrevious ctxt sender
  setContractDelegate ctxt sender delegate

structure Slash (Pkh : Type) where
  delegate : Pkh
  rewarded : Pkh
  misbehaviourCycle : Nat
  slashingPercentage : Percentage
  initialAmount : Tez

def addUnstaked (delegate : Pkh) (slashingPercentage : Percentage)
    (acc : List (Giver Pkh × Tez) × List (Giver Pkh × Tez)) (cycle : Nat) :
    Result Pkh (List (Giver Pkh × Tez) × List (Giver Pkh × Tez)) := do
  let frozenDeposits ← UnstakedFrozenDeposits.get ctxt delegate cycle
  let amounts ← liftTez (computeRewardAndBurn slashingPercentage frozenDeposits
    ctxt.constants.globalLimitOfStakingOverBaking)
  let giver := Giver.container (.unstakedFrozenDeposits delegate cycle)
  return ((giver, amounts.amountToBurn) :: acc.1, (giver, amounts.reward) :: acc.2)

def frozenGivers (delegate : Pkh) (shared : Shared) : List (Giver Pkh × Tez) :=
  [(.container (.frozenDeposits (.baker delegate)), shared.bakerPart),
    (.container (.frozenDeposits (.sharedBetweenStakers delegate)), shared.stakersPart)]

def recordSlash (slash : Slash Pkh) : Context Pkh × Percentage :=
  let slashHistory := UnstakeRequests.slashingHistory ctxt slash.delegate
  let previousTotal := SlashedDepositsHistory.get slash.misbehaviourCycle slashHistory
  let slashHistory :=
    SlashedDepositsHistory.add slash.misbehaviourCycle slash.slashingPercentage slashHistory
  let newTotal := SlashedDepositsHistory.get slash.misbehaviourCycle slashHistory
  ({ ctxt with
      slashedDepositsOxford := Function.update ctxt.slashedDepositsOxford slash.delegate [],
      slashedDeposits := Function.update ctxt.slashedDeposits slash.delegate slashHistory },
    newTotal.subBounded previousTotal)

/-- What `apply_block_denunciations` does for one denounced delegate. -/
def applyDenunciation (slash : Slash Pkh) : Result Pkh (Context Pkh) := do
  let (ctxt, slashingPercentage) := recordSlash ctxt slash
  let balance ← getFullStakingBalance ctxt slash.delegate
  let currentAmount ← liftTez balance.totalFrozen
  let staked ← liftTez (computeRewardAndBurn slashingPercentage
    { initialAmount := slash.initialAmount, currentAmount } ctxt.constants.globalLimitOfStakingOverBaking)
  let toBurn ← liftTez (share .towardsBaker balance staked.amountToBurn)
  let toReward ← liftTez (share .towardsBaker balance staked.reward)
  let (toBurn, toReward) ←
    (slashableCycles slash.misbehaviourCycle ctxt.constants.slashableDepositsPeriod).foldlM
      (addUnstaked ctxt slash.delegate slashingPercentage)
      (frozenGivers slash.delegate toBurn, frozenGivers slash.delegate toReward)
  let ctxt ← transferN ctxt toBurn .infiniteSink
  transferN ctxt toReward (.container (.contract slash.rewarded))

end Octez.Staking
