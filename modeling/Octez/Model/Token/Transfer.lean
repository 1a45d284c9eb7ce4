import Octez.Model.Token.Contracts

/-! # Transfers (`src/proto_alpha/lib_protocol/token.ml`) -/

namespace Octez.Token
open Octez.Lib

section Types
variable (Pkh ContractHash BondId Bpkh : Type)

inductive FrozenStaker where
  | baker (delegate : Pkh)
  | singleStaker (staker : Contract Pkh ContractHash) (delegate : Pkh)
  | sharedBetweenStakers (delegate : Pkh)
  | bakerEdge (delegate : Pkh)
deriving DecidableEq, Repr

inductive UnstakedFrozenStaker where
  | single (staker : Contract Pkh ContractHash) (delegate : Pkh)
  | shared (delegate : Pkh)
deriving DecidableEq, Repr

inductive Container where
  | contract (contract : Contract Pkh ContractHash)
  | collectedCommitments (bpkh : Bpkh)
  | frozenDeposits (staker : FrozenStaker Pkh ContractHash)
  | unstakedFrozenDeposits (staker : UnstakedFrozenStaker Pkh ContractHash) (cycle : Nat)
  | blockFees
  | frozenBonds (contract : Contract Pkh ContractHash) (bondId : BondId)
deriving DecidableEq, Repr

inductive InfiniteSource where
  | invoice
  | bootstrap
  | initialCommitments
  | revelationRewards
  | attestingRewards
  | bakingRewards
  | bakingBonuses
  | minted
  | liquidityBakingSubsidies
  | scRollupRefutationRewards
deriving DecidableEq, Repr

inductive InfiniteSink where
  | storageFees
  | doubleSigningPunishments
  | lostAttestingRewards (delegate : Pkh) (participation revelation : Bool)
  | scRollupRefutationPunishments
  | burned
deriving DecidableEq, Repr

inductive Giver where
  | infiniteSource (source : InfiniteSource)
  | container (container : Container Pkh ContractHash BondId Bpkh)
deriving DecidableEq, Repr

inductive Receiver where
  | infiniteSink (sink : InfiniteSink Pkh)
  | container (container : Container Pkh ContractHash BondId Bpkh)
deriving DecidableEq, Repr

/-- `Receipt_repr.balance`. -/
inductive Balance where
  | contract (contract : Contract Pkh ContractHash)
  | blockFees
  | deposits (staker : FrozenStaker Pkh ContractHash)
  | unstakedDeposits (staker : UnstakedFrozenStaker Pkh ContractHash) (cycle : Nat)
  | nonceRevelationRewards
  | attestingRewards
  | bakingRewards
  | bakingBonuses
  | storageFees
  | doubleSigningPunishments
  | lostAttestingRewards (delegate : Pkh) (participation revelation : Bool)
  | liquidityBakingSubsidies
  | burned
  | commitments (bpkh : Bpkh)
  | bootstrap
  | invoice
  | initialCommitments
  | minted
  | frozenBonds (contract : Contract Pkh ContractHash) (bondId : BondId)
  | scRollupRefutationPunishments
  | scRollupRefutationRewards
deriving DecidableEq, Repr

end Types

inductive BalanceUpdate where
  | debited (amount : Tez)
  | credited (amount : Tez)
deriving DecidableEq, Repr

structure BalanceUpdateItem (Balance Origin : Type) where
  balance : Balance
  update : BalanceUpdate
  origin : Origin
deriving DecidableEq, Repr

section Receipts
variable {Pkh ContractHash BondId Bpkh : Type}

def UnstakedFrozenStaker.delegate : UnstakedFrozenStaker Pkh ContractHash → Pkh
  | .single _ delegate => delegate
  | .shared delegate => delegate

def Container.receipt :
    Container Pkh ContractHash BondId Bpkh → Balance Pkh ContractHash BondId Bpkh
  | .contract owner => .contract owner
  | .collectedCommitments bpkh => .commitments bpkh
  | .frozenDeposits staker => .deposits staker
  | .unstakedFrozenDeposits staker cycle => .unstakedDeposits staker cycle
  | .blockFees => .blockFees
  | .frozenBonds owner bondId => .frozenBonds owner bondId

def InfiniteSource.receipt : InfiniteSource → Balance Pkh ContractHash BondId Bpkh
  | .invoice => .invoice
  | .bootstrap => .bootstrap
  | .initialCommitments => .initialCommitments
  | .revelationRewards => .nonceRevelationRewards
  | .attestingRewards => .attestingRewards
  | .bakingRewards => .bakingRewards
  | .bakingBonuses => .bakingBonuses
  | .minted => .minted
  | .liquidityBakingSubsidies => .liquidityBakingSubsidies
  | .scRollupRefutationRewards => .scRollupRefutationRewards

def InfiniteSink.receipt : InfiniteSink Pkh → Balance Pkh ContractHash BondId Bpkh
  | .storageFees => .storageFees
  | .doubleSigningPunishments => .doubleSigningPunishments
  | .lostAttestingRewards delegate participation revelation =>
    .lostAttestingRewards delegate participation revelation
  | .scRollupRefutationPunishments => .scRollupRefutationPunishments
  | .burned => .burned

def Giver.receipt : Giver Pkh ContractHash BondId Bpkh → Balance Pkh ContractHash BondId Bpkh
  | .infiniteSource source => source.receipt
  | .container stored => stored.receipt

def Receiver.receipt : Receiver Pkh ContractHash BondId Bpkh → Balance Pkh ContractHash BondId Bpkh
  | .infiniteSink sink => sink.receipt
  | .container stored => stored.receipt

end Receipts

namespace TokenTypes
variable (T : TokenTypes)

abbrev FrozenStaker := Token.FrozenStaker T.Pkh T.ContractHash

abbrev Container := Token.Container T.Pkh T.ContractHash T.BondId T.Bpkh

abbrev Giver := Token.Giver T.Pkh T.ContractHash T.BondId T.Bpkh

abbrev Receiver := Token.Receiver T.Pkh T.ContractHash T.BondId T.Bpkh

abbrev Balance := Token.Balance T.Pkh T.ContractHash T.BondId T.Bpkh

end TokenTypes

variable {T : TokenTypes} {Origin : Type}
variable [DecidableEq T.Pkh] [DecidableEq T.ContractHash] [DecidableEq T.BondId] [DecidableEq T.Bpkh]
variable (ctxt : Context T)

section Stakers

def removeFrozenStake (staker : T.FrozenStaker) (amount : Tez) : Result T (Context T) :=
  match staker with
  | .baker delegate | .bakerEdge delegate => removeOwnFrozenStake ctxt delegate amount
  | .singleStaker _ delegate | .sharedBetweenStakers delegate =>
    removeStakedFrozenStake ctxt delegate amount

def addFrozenStake (staker : T.FrozenStaker) (amount : Tez) : Result T (Context T) :=
  match staker with
  | .baker delegate | .bakerEdge delegate => addOwnFrozenStake ctxt delegate amount
  | .singleStaker _ delegate | .sharedBetweenStakers delegate =>
    addStakedFrozenStake ctxt delegate amount

end Stakers

def creditContainer (container : T.Container) (amount : Tez) : Result T (Context T) :=
  match container with
  | .contract receiver => creditContract ctxt receiver amount
  | .collectedCommitments bpkh => increaseCommitment ctxt bpkh amount
  | .frozenDeposits staker => addFrozenStake ctxt staker amount
  | .unstakedFrozenDeposits staker cycle =>
    UnstakedFrozenDeposits.credit ctxt staker.delegate cycle amount
  | .blockFees => creditCollectedFees ctxt amount
  | .frozenBonds contract bondId => creditBond ctxt contract bondId amount

def creditReceiver (receiver : T.Receiver) (amount : Tez) : Result T (Context T) :=
  match receiver with
  | .infiniteSink _ => do
    let totalSupply ← liftTez (ctxt.totalSupply.sub amount)
    return { ctxt with totalSupply }
  | .container container => creditContainer ctxt container amount

def credit (receiver : T.Receiver) (amount : Tez) (origin : Origin) : Result T
      (Context T × BalanceUpdateItem T.Balance Origin) := do
  let ctxt ← creditReceiver ctxt receiver amount
  return (ctxt, ⟨receiver.receipt, .credited amount, origin⟩)

def spendContainer (container : T.Container) (amount : Tez) : Result T (Context T) :=
  match container with
  | .contract giver => spendContract ctxt giver amount
  | .collectedCommitments bpkh => decreaseCommitment ctxt bpkh amount
  | .frozenDeposits staker => removeFrozenStake ctxt staker amount
  | .unstakedFrozenDeposits staker cycle =>
    UnstakedFrozenDeposits.spend ctxt staker.delegate cycle amount
  | .blockFees => spendCollectedFees ctxt amount
  | .frozenBonds contract bondId => spendBond ctxt contract bondId amount

def spendGiver (giver : T.Giver) (amount : Tez) : Result T (Context T) :=
  match giver with
  | .infiniteSource _ => do
    let totalSupply ← liftTez (ctxt.totalSupply.add amount)
    return { ctxt with totalSupply }
  | .container container => spendContainer ctxt container amount

def spend (giver : T.Giver) (amount : Tez) (origin : Origin) : Result T
      (Context T × BalanceUpdateItem T.Balance Origin) := do
  let ctxt ← spendGiver ctxt giver amount
  return (ctxt, ⟨giver.receipt, .debited amount, origin⟩)

/-- The context, the amount withdrawn so far and the debits, the last one first. -/
structure Withdrawal (T : TokenTypes) (Origin : Type) where
  ctxt : Context T
  total : Tez
  debitLogs : List (BalanceUpdateItem T.Balance Origin)

def withdraw (origin : Origin) (state : Withdrawal T Origin) (giver : T.Giver × Tez) :
    Result T (Withdrawal T Origin) := do
  let (ctxt, debitLog) ← spend state.ctxt giver.1 giver.2 origin
  let total ← liftTez (giver.2.add state.total)
  return { ctxt, total, debitLogs := debitLog :: state.debitLogs }

def deallocateGiver (giver : T.Giver × Tez) : Result T (Context T) :=
  match giver.1 with
  | .container (.contract contract) | .container (.frozenBonds contract _) =>
    ensureDeallocatedIfEmpty ctxt contract
  | _ => .ok ctxt

/-- The emptied implicit contracts are deallocated after the credit, so that a transfer of a whole
balance to a bond of the same contract keeps the contract. -/
def transferN (origin : Origin) (ctxt : Context T) (givers : List (T.Giver × Tez)) (receiver : T.Receiver) :
    Result T
      (Context T × List (BalanceUpdateItem T.Balance Origin)) :=
  match givers.filter fun giver => giver.2 ≠ Tez.zero with
  | [] => .ok (ctxt, [])
  | givers => do
    let withdrawn ← givers.foldlM (withdraw origin) ⟨ctxt, Tez.zero, []⟩
    let (ctxt, creditLog) ← credit withdrawn.ctxt receiver withdrawn.total origin
    let ctxt ← givers.foldlM deallocateGiver ctxt
    return (ctxt, (creditLog :: withdrawn.debitLogs).reverse)

def transfer (origin : Origin) (ctxt : Context T) (giver : T.Giver) (receiver : T.Receiver) (amount : Tez) :
    Result T
      (Context T × List (BalanceUpdateItem T.Balance Origin)) :=
  transferN origin ctxt [(giver, amount)] receiver

end Octez.Token
