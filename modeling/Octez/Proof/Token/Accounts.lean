import Octez.Lib.TableSums
import Octez.Model.Token.Transfer
import Octez.Proof.Staking.Deposits

namespace Octez.Proof.Token
open Octez.Lib Octez.Token UnstakedFrozenDeposits Table
open Octez.Slashing (Deposits)
open Octez.Staking (normalizeCycle squashUnslashable)
open Octez.Proof.Staking (total Saturated normalizeCycle_idem)

inductive Account (Pkh ContractHash BondId Bpkh : Type) where
  | contract (contract : Contract Pkh ContractHash)
  | frozenBonds (contract : Contract Pkh ContractHash) (bondId : BondId)
  | ownFrozen (delegate : Pkh)
  | stakedFrozen (delegate : Pkh)
  | unstaked (delegate : Pkh) (cycle : Nat)
  | commitments (bpkh : Bpkh)
  | blockFees
deriving DecidableEq

variable {T : TokenTypes}

abbrev AccountOf (T : TokenTypes) := Account T.Pkh T.ContractHash T.BondId T.Bpkh

def currentIn (unslashableCycle : Option Nat) (cycle : Nat) (entries : List (Nat × Deposits)) :
    Nat :=
  total .current (fun other => normalizeCycle other unslashableCycle = cycle) entries

def currentAmounts (entries : List (Nat × Deposits)) : Nat :=
  total .current (fun _ => true) entries

def held (ctxt : Context T) : Nat :=
  ctxt.spendableBalance.total (fun _ balance => balance.mutez) +
  ctxt.frozenBonds.total (fun _ bond => bond.mutez) +
  ctxt.stakingBalance.total (fun _ balance => balance.ownFrozen.mutez) +
  ctxt.stakingBalance.total (fun _ balance => balance.stakedFrozen.mutez) +
  ctxt.unstakedFrozenDeposits.total (fun _ entries => currentAmounts entries) +
  ctxt.commitments.total (fun _ committed => committed.mutez) +
  ctxt.collectedFees.mutez

variable [DecidableEq T.Pkh] [DecidableEq T.ContractHash] [DecidableEq T.BondId] [DecidableEq T.Bpkh]

def balanceOf (ctxt : Context T) :
    AccountOf T → Nat
  | .contract contract => ctxt.spendableBalance.weightAt (fun _ balance => balance.mutez) contract
  | .frozenBonds contract bondId =>
    ctxt.frozenBonds.weightAt (fun _ bond => bond.mutez) (contract, bondId)
  | .ownFrozen delegate =>
    ctxt.stakingBalance.weightAt (fun _ balance => balance.ownFrozen.mutez) delegate
  | .stakedFrozen delegate =>
    ctxt.stakingBalance.weightAt (fun _ balance => balance.stakedFrozen.mutez) delegate
  | .unstaked delegate cycle =>
    ctxt.unstakedFrozenDeposits.weightAt (fun _ => currentIn (currentUnslashableCycle ctxt) cycle) delegate
  | .commitments bpkh => ctxt.commitments.weightAt (fun _ committed => committed.mutez) bpkh
  | .blockFees => ctxt.collectedFees.mutez

def accountOf (ctxt : Context T) : T.Container → AccountOf T
  | .contract contract => .contract contract
  | .collectedCommitments bpkh => .commitments bpkh
  | .frozenDeposits (.baker delegate) => .ownFrozen delegate
  | .frozenDeposits (.bakerEdge delegate) => .ownFrozen delegate
  | .frozenDeposits (.singleStaker _ delegate) => .stakedFrozen delegate
  | .frozenDeposits (.sharedBetweenStakers delegate) => .stakedFrozen delegate
  | .unstakedFrozenDeposits staker cycle =>
    .unstaked staker.delegate (normalizeCycle cycle (currentUnslashableCycle ctxt))
  | .blockFees => .blockFees
  | .frozenBonds contract bondId => .frozenBonds contract bondId

structure Flow (ctxt ctxt' : Context T) (delta : AccountOf T → Int) (net minted : Int) : Prop where
  constants : ctxt'.constants = ctxt.constants
  currentLevel : ctxt'.currentLevel = ctxt.currentLevel
  totalSupply : (ctxt'.totalSupply.mutez : Int) = ctxt.totalSupply.mutez + minted
  held : (held ctxt' : Int) = held ctxt + net
  balance : ∀ account, (balanceOf ctxt' account : Int) = balanceOf ctxt account + delta account

namespace Flow
variable {ctxt mid ctxt' : Context T}
variable {delta delta' : AccountOf T → Int} {net net' minted minted' : Int}

theorem rfl (ctxt : Context T) : Flow ctxt ctxt 0 0 0 where
  constants := Eq.refl _
  currentLevel := Eq.refl _
  totalSupply := (Int.add_zero _).symm
  held := (Int.add_zero _).symm
  balance _ := (Int.add_zero _).symm

theorem trans (first : Flow ctxt mid delta net minted) (second : Flow mid ctxt' delta' net' minted') :
    Flow ctxt ctxt' (delta + delta') (net + net') (minted + minted') where
  constants := second.constants.trans first.constants
  currentLevel := second.currentLevel.trans first.currentLevel
  totalSupply := by rw [second.totalSupply, first.totalSupply, Int.add_assoc]
  held := by rw [second.held, first.held, Int.add_assoc]
  balance account := by rw [second.balance, first.balance, Int.add_assoc, Pi.add_apply]

section
variable (flow : Flow ctxt ctxt' delta net minted)
include flow

theorem congr (same_delta : delta' = delta) (same_net : net' = net) (same_minted : minted' = minted) :
    Flow ctxt ctxt' delta' net' minted' := by
  subst same_delta same_net same_minted
  exact flow

theorem unslashable :
    currentUnslashableCycle ctxt' =
      currentUnslashableCycle ctxt := by
  unfold currentUnslashableCycle
  rw [flow.constants, flow.currentLevel]

theorem accountOf_eq (container : T.Container) : accountOf ctxt' container = accountOf ctxt container := by
  cases container with
  | frozenDeposits staker => cases staker <;> exact Eq.refl _
  | unstakedFrozenDeposits staker cycle => rw [accountOf, accountOf, flow.unslashable]
  | _ => exact Eq.refl _

end

structure SameHoldings (ctxt ctxt' : Context T) : Prop where
  constants : ctxt'.constants = ctxt.constants
  currentLevel : ctxt'.currentLevel = ctxt.currentLevel
  totalSupply : ctxt'.totalSupply = ctxt.totalSupply
  spendableBalance : ctxt'.spendableBalance = ctxt.spendableBalance
  frozenBonds : ctxt'.frozenBonds = ctxt.frozenBonds
  stakingBalance : ctxt'.stakingBalance = ctxt.stakingBalance
  unstakedFrozenDeposits : ctxt'.unstakedFrozenDeposits = ctxt.unstakedFrozenDeposits
  commitments : ctxt'.commitments = ctxt.commitments
  collectedFees : ctxt'.collectedFees = ctxt.collectedFees

theorem of_same (same : SameHoldings ctxt ctxt') : Flow ctxt ctxt' 0 0 0 where
  constants := same.constants
  currentLevel := same.currentLevel
  totalSupply := by simp [same.totalSupply]
  held := by
    simp [Token.held, same.spendableBalance, same.frozenBonds, same.stakingBalance,
      same.unstakedFrozenDeposits, same.commitments, same.collectedFees]
  balance account := by
    cases account <;>
      simp [balanceOf, currentUnslashableCycle, same.constants,
        same.currentLevel, same.spendableBalance, same.frozenBonds, same.stakingBalance,
        same.unstakedFrozenDeposits, same.commitments, same.collectedFees]

section Tables
variable (ctxt)

variable {x : Int}

theorem of_spendable (contract : T.Contract) (new : Option Tez)
    (change : ((new.elim 0 fun balance => balance.mutez : Nat) : Int) =
      ctxt.spendableBalance.weightAt (fun _ balance => balance.mutez) contract + x) :
    Flow ctxt { ctxt with spendableBalance := ctxt.spendableBalance.put contract new }
      (Pi.single (.contract contract) x) x 0 where
  constants := Eq.refl _
  currentLevel := Eq.refl _
  totalSupply := (Int.add_zero _).symm
  held := by
    have sum := total_put ctxt.spendableBalance contract new fun _ balance => balance.mutez
    unfold Token.held
    dsimp only
    omega
  balance account := by
    cases account with
    | contract other =>
      simp only [balanceOf, weightAt_put, Pi.single_apply, Account.contract.injEq]
      split
      · subst_vars
        exact change
      · exact (Int.add_zero _).symm
    | _ => simp [balanceOf, currentUnslashableCycle]

theorem of_frozenBonds (contract : T.Contract) (bondId : T.BondId) (new : Option Tez)
    (change : ((new.elim 0 fun bond => bond.mutez : Nat) : Int) =
      ctxt.frozenBonds.weightAt (fun _ bond => bond.mutez) (contract, bondId) + x) :
    Flow ctxt { ctxt with frozenBonds := ctxt.frozenBonds.put (contract, bondId) new }
      (Pi.single (.frozenBonds contract bondId) x) x 0 where
  constants := Eq.refl _
  currentLevel := Eq.refl _
  totalSupply := (Int.add_zero _).symm
  held := by
    have sum := total_put ctxt.frozenBonds (contract, bondId) new fun _ bond => bond.mutez
    unfold Token.held
    dsimp only
    omega
  balance account := by
    cases account with
    | frozenBonds owner bond =>
      simp only [balanceOf, weightAt_put, Pi.single_apply, Account.frozenBonds.injEq, Prod.mk.injEq]
      split
      · rename_i same
        rw [same.1, same.2]
        exact change
      · exact (Int.add_zero _).symm
    | _ => simp [balanceOf, currentUnslashableCycle]

theorem of_stakingBalance (delegate : T.Pkh) (before after : FullStakingBalance) {x y : Int}
    (found : ctxt.stakingBalance.find delegate = some before)
    (own : (after.ownFrozen.mutez : Int) = before.ownFrozen.mutez + x)
    (staked : (after.stakedFrozen.mutez : Int) = before.stakedFrozen.mutez + y) :
    Flow ctxt { ctxt with stakingBalance := ctxt.stakingBalance.put delegate (some after) }
      (Pi.single (.ownFrozen delegate) x + Pi.single (.stakedFrozen delegate) y) (x + y) 0 where
  constants := Eq.refl _
  currentLevel := Eq.refl _
  totalSupply := (Int.add_zero _).symm
  held := by
    have own_sum := total_put ctxt.stakingBalance delegate (some after)
      fun _ balance => balance.ownFrozen.mutez
    have staked_sum := total_put ctxt.stakingBalance delegate (some after)
      fun _ balance => balance.stakedFrozen.mutez
    rw [weightAt_of_find found, Option.elim_some] at own_sum staked_sum
    unfold Token.held
    dsimp only
    omega
  balance account := by
    cases account with
    | ownFrozen other =>
      simp only [balanceOf, weightAt_put, Pi.add_apply, Pi.single_apply,
        Account.ownFrozen.injEq, reduceCtorEq, if_false, Int.add_zero]
      split
      · subst_vars
        rw [weightAt_of_find found]
        exact own
      · exact (Int.add_zero _).symm
    | stakedFrozen other =>
      simp only [balanceOf, weightAt_put, Pi.add_apply, Pi.single_apply,
        Account.stakedFrozen.injEq, reduceCtorEq, if_false, Int.zero_add]
      split
      · subst_vars
        rw [weightAt_of_find found]
        exact staked
      · exact (Int.add_zero _).symm
    | _ => simp [balanceOf, currentUnslashableCycle]

theorem of_commitments (bpkh : T.Bpkh) (new : Option Tez)
    (change : ((new.elim 0 fun committed => committed.mutez : Nat) : Int) =
      ctxt.commitments.weightAt (fun _ committed => committed.mutez) bpkh + x) :
    Flow ctxt { ctxt with commitments := ctxt.commitments.put bpkh new }
      (Pi.single (.commitments bpkh) x) x 0 where
  constants := Eq.refl _
  currentLevel := Eq.refl _
  totalSupply := (Int.add_zero _).symm
  held := by
    have sum := total_put ctxt.commitments bpkh new fun _ committed => committed.mutez
    unfold Token.held
    dsimp only
    omega
  balance account := by
    cases account with
    | commitments other =>
      simp only [balanceOf, weightAt_put, Pi.single_apply, Account.commitments.injEq]
      split
      · subst_vars
        exact change
      · exact (Int.add_zero _).symm
    | _ => simp [balanceOf, currentUnslashableCycle]

theorem of_collectedFees {fees : Tez} (change : (fees.mutez : Int) = ctxt.collectedFees.mutez + x) :
    Flow ctxt { ctxt with collectedFees := fees } (Pi.single .blockFees x) x 0 where
  constants := Eq.refl _
  currentLevel := Eq.refl _
  totalSupply := (Int.add_zero _).symm
  held := by
    unfold Token.held
    dsimp only
    omega
  balance account := by
    cases account with
    | blockFees => simpa [balanceOf] using change
    | _ => simp [balanceOf, currentUnslashableCycle]

theorem of_totalSupply {supply : Tez} (change : (supply.mutez : Int) = ctxt.totalSupply.mutez + x) :
    Flow ctxt { ctxt with totalSupply := supply } 0 0 x where
  constants := Eq.refl _
  currentLevel := Eq.refl _
  totalSupply := change
  held := (Int.add_zero _).symm
  balance account := by
    cases account with
    | _ => simp [balanceOf, currentUnslashableCycle]

theorem of_unstaked (delegate : T.Pkh) (cycle : Nat) {entries entries' : List (Nat × Deposits)}
    (found : (ctxt.unstakedFrozenDeposits.find delegate).getD [] = entries)
    (change : ∀ included, Saturated (currentUnslashableCycle ctxt) included →
      (total .current included entries' : Int) =
        total .current included entries + if included cycle then x else 0) :
    Flow ctxt
      { ctxt with
        unstakedFrozenDeposits := ctxt.unstakedFrozenDeposits.put delegate (some entries') }
      (Pi.single (.unstaked delegate (normalizeCycle cycle (currentUnslashableCycle ctxt))) x) x 0 := by
  -- A missing list weighs as much as an empty one.
  have weight (included : Nat → Bool) :
      ctxt.unstakedFrozenDeposits.weightAt (fun _ => total .current included) delegate =
        total .current included entries := by
    rw [← found, weightAt]
    cases ctxt.unstakedFrozenDeposits.find delegate <;> exact Eq.refl _
  constructor
  case constants => exact Eq.refl _
  case currentLevel => exact Eq.refl _
  case totalSupply => exact (Int.add_zero _).symm
  case held =>
    have sum := total_put ctxt.unstakedFrozenDeposits delegate (some entries')
      fun _ entries => currentAmounts entries
    have all := change (fun _ => true) fun _ => Eq.refl _
    have before := weight fun _ => true
    change ctxt.unstakedFrozenDeposits.weightAt (fun _ => currentAmounts) delegate = _ at before
    rw [before] at sum
    simp only [Option.elim_some, currentAmounts, if_true] at sum all
    unfold Token.held currentAmounts
    dsimp only
    omega
  case balance =>
    intro account
    cases account with
    | unstaked other cycle' =>
      simp only [balanceOf, weightAt_put, Pi.single_apply, Account.unstaked.injEq]
      by_cases same : other = delegate
      · subst same
        have before := weight fun other =>
          normalizeCycle other (currentUnslashableCycle ctxt) = cycle'
        have after := change (fun other =>
          normalizeCycle other (currentUnslashableCycle ctxt) = cycle')
          fun other => by simp only [normalizeCycle_idem]
        simp only [decide_eq_true_eq, ← before] at after
        rw [if_pos (Eq.refl _)]
        apply after.trans
        simp only [true_and, eq_comm (a := cycle')]
        exact Eq.refl _
      · rw [if_neg same, if_neg fun both => same both.1, Int.add_zero]
        exact Eq.refl _
    | _ => simp [balanceOf, currentUnslashableCycle]

end Tables

end Flow

end Octez.Proof.Token
