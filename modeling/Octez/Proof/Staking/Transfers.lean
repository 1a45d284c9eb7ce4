import Octez.Proof.Staking.Deposits
import Octez.Model.Staking.Operations

namespace Octez.Proof.Staking
open Octez.Lib Octez.Staking UnstakedFrozenDeposits
open Octez.Slashing (FullStakingBalance Deposits)
variable {Pkh : Type}

theorem liftTez_eq_ok {α : Type} {result} {a : α} :
    (liftTez result : Result Pkh α) = .ok a ↔ result = .ok a :=
  liftError_eq_ok

def SameRecords (before after : Context Pkh) : Prop :=
  after = { before with
    balance := after.balance, stakingBalance := after.stakingBalance,
    unstakedFrozenDeposits := after.unstakedFrozenDeposits, totalSupply := after.totalSupply }

namespace SameRecords
variable {first second third : Context Pkh}

theorem rfl : SameRecords first first := Eq.refl _

theorem trans (earlier : SameRecords first second) (later : SameRecords second third) :
    SameRecords first third := by
  rw [earlier] at later
  exact later

theorem of_stakingBalance (only : second = { first with stakingBalance := second.stakingBalance }) :
    SameRecords first second := by
  rw [only]
  exact Eq.refl _

variable (same : SameRecords first second)
include same

theorem constants : second.constants = first.constants := by rw [same]
theorem cycle : second.cycle = first.cycle := by rw [same]
theorem delegate : second.delegate = first.delegate := by rw [same]
theorem unstakeRequests : second.unstakeRequests = first.unstakeRequests := by rw [same]
theorem slashedDeposits : second.slashedDeposits = first.slashedDeposits := by rw [same]
theorem slashedDepositsOxford : second.slashedDepositsOxford = first.slashedDepositsOxford := by
  rw [same]

theorem currentUnslashableCycle : currentUnslashableCycle second = currentUnslashableCycle first := by
  simp only [Octez.Staking.currentUnslashableCycle, same.cycle, same.constants]

end SameRecords

def delegatedTo (ctxt : Context Pkh) (delegate : Pkh) : Nat :=
  (ctxt.stakingBalance delegate).elim 0 fun balance => balance.delegated.mutez

def stakedOn (ctxt : Context Pkh) (delegate : Pkh) : Nat :=
  (ctxt.stakingBalance delegate).elim 0 fun balance => balance.stakedFrozen.mutez

def poolOf : Container Pkh → Option Pkh
  | .frozenDeposits (.singleStaker _ delegate) => some delegate
  | .frozenDeposits (.sharedBetweenStakers delegate) => some delegate
  | _ => none

section StakingBalances
variable {ctxt after : Context Pkh} {contract delegate : Pkh} {amount : Tez}
variable {staker : FrozenStaker Pkh} {old new : FullStakingBalance}

theorem stakedOn_of_found (found : ctxt.stakingBalance delegate = some old) :
    stakedOn ctxt delegate = old.stakedFrozen.mutez := by
  simp [stakedOn, found]

theorem getFullStakingBalance_eq_ok {balance} (h : getFullStakingBalance ctxt delegate = .ok balance) :
    ctxt.stakingBalance delegate = some balance := by
  unfold getFullStakingBalance at h
  split at h <;> cases h
  assumption

variable [DecidableEq Pkh]

/-- `x` for the delegate if there is one, and nothing for the others. -/
def ofDelegate (delegate : Option Pkh) (x : Int) : Pkh → Int :=
  fun other => if delegate = some other then x else 0

theorem ofDelegate_zero (delegate : Option Pkh) : ofDelegate delegate 0 = 0 := by
  funext other
  simp [ofDelegate]

/-- Only the staking balances change, with how much the tez delegated to a delegate and those
staked on it grow. -/
structure Restaked (ctxt after : Context Pkh) (delegated staked : Pkh → Int) : Prop where
  only : after = { ctxt with stakingBalance := after.stakingBalance }
  delegated : ∀ other, (delegatedTo after other : Int) = delegatedTo ctxt other + delegated other
  staked : ∀ other, (stakedOn after other : Int) = stakedOn ctxt other + staked other

omit [DecidableEq Pkh] in
theorem Restaked.rfl : Restaked ctxt ctxt 0 0 := ⟨Eq.refl _, by simp, by simp⟩

theorem updateStake_restaked {compute : FullStakingBalance → TzResult TezError Tez}
    {write : FullStakingBalance → Tez → FullStakingBalance} {x y : Int}
    (change : ∀ old tez, compute old = .ok tez →
      ((write old tez).delegated.mutez : Int) = old.delegated.mutez + x ∧
        ((write old tez).stakedFrozen.mutez : Int) = old.stakedFrozen.mutez + y)
    (h : updateStake (fun balance => compute balance >>= fun tez => pure (write balance tez)) ctxt delegate =
      .ok after) :
    Restaked ctxt after (ofDelegate (some delegate) x) (ofDelegate (some delegate) y) := by
  obtain ⟨old, found, h⟩ := bind_eq_ok.1 h
  obtain ⟨new, computed, h⟩ := bind_eq_ok.1 h
  cases h
  have found := getFullStakingBalance_eq_ok found
  obtain ⟨tez, found', written⟩ := bind_eq_ok.1 (liftTez_eq_ok.1 computed)
  cases written
  obtain ⟨delegated, staked⟩ := change old tez found'
  refine ⟨rfl, ?_, ?_⟩
  · intro other
    by_cases same : other = delegate
    · simp [same, delegatedTo, ofDelegate, Map.add_apply, found, delegated]
    · simp [same, Ne.symm same, delegatedTo, ofDelegate, Map.add_apply]
  · intro other
    by_cases same : other = delegate
    · simp [same, stakedOn, ofDelegate, Map.add_apply, found, staked]
    · simp [same, Ne.symm same, stakedOn, ofDelegate, Map.add_apply]

theorem removeDelegatedStake_restaked (h : removeDelegatedStake ctxt delegate amount = .ok after) :
    Restaked ctxt after (ofDelegate (some delegate) (-amount.mutez)) 0 := by
  rw [← ofDelegate_zero (some delegate)]
  exact updateStake_restaked (fun old _ subtracted => by simp [sub_eq_ok subtracted]) h

theorem addDelegatedStake_restaked (h : addDelegatedStake ctxt delegate amount = .ok after) :
    Restaked ctxt after (ofDelegate (some delegate) amount.mutez) 0 := by
  rw [← ofDelegate_zero (some delegate)]
  exact updateStake_restaked (fun old _ added => by simp [add_eq_ok added]) h

theorem removeFrozenStake_restaked (h : removeFrozenStake ctxt staker amount = .ok after) :
    Restaked ctxt after 0 (ofDelegate (poolOf (.frozenDeposits staker)) (-amount.mutez)) := by
  cases staker with
  | baker delegate | bakerEdge delegate =>
    change Restaked ctxt after 0 0
    rw [← ofDelegate_zero (some delegate)]
    exact updateStake_restaked (fun _ _ _ => by simp) h
  | singleStaker _ delegate | sharedBetweenStakers delegate =>
    rw [← ofDelegate_zero (some delegate)]
    exact updateStake_restaked (fun old _ subtracted => by simp [sub_eq_ok subtracted]) h

theorem addFrozenStake_restaked (h : addFrozenStake ctxt staker amount = .ok after) :
    Restaked ctxt after 0 (ofDelegate (poolOf (.frozenDeposits staker)) amount.mutez) := by
  cases staker with
  | baker delegate | bakerEdge delegate =>
    change Restaked ctxt after 0 0
    rw [← ofDelegate_zero (some delegate)]
    exact updateStake_restaked (fun _ _ _ => by simp) h
  | singleStaker _ delegate | sharedBetweenStakers delegate =>
    rw [← ofDelegate_zero (some delegate)]
    exact updateStake_restaked (fun old _ added => by simp [add_eq_ok added]) h

theorem removeContractDelegatedStake_restaked
    (h : removeContractDelegatedStake ctxt contract amount = .ok after) :
    Restaked ctxt after (ofDelegate (ctxt.delegate contract) (-amount.mutez)) 0 := by
  unfold removeContractDelegatedStake at h
  split at h
  · rename_i undelegated
    cases h
    rw [undelegated]
    exact .rfl
  · rename_i delegate delegated
    rw [delegated]
    exact removeDelegatedStake_restaked h

theorem addContractDelegatedStake_restaked (h : addContractDelegatedStake ctxt contract amount = .ok after) :
    Restaked ctxt after (ofDelegate (ctxt.delegate contract) amount.mutez) 0 := by
  unfold addContractDelegatedStake at h
  split at h
  · rename_i undelegated
    cases h
    rw [undelegated]
    exact .rfl
  · rename_i delegate delegated
    rw [delegated]
    exact addDelegatedStake_restaked h

end StakingBalances

section Containers
variable [DecidableEq Pkh] {ctxt after : Context Pkh} {amount : Tez} {x : Int} {cycle : Nat}
variable {delegate : Pkh} {container : Container Pkh} {f : Deposits → TzResult TezError Deposits}
  {receiver : Receiver Pkh}

/-- What `x` mutez that enter a container change; when `x` is negative they leave it. -/
def Moved (ctxt after : Context Pkh) (x : Int) : Container Pkh → Prop
  | .contract contract => ∃ balance : Tez, (balance.mutez : Int) = (ctxt.balance contract).mutez + x ∧
      Restaked { ctxt with balance := Function.update ctxt.balance contract balance } after
        (ofDelegate (ctxt.delegate contract) x) 0
  | .frozenDeposits staker => Restaked ctxt after 0 (ofDelegate (poolOf (.frozenDeposits staker)) x)
  | .unstakedFrozenDeposits delegate cycle => ∃ mid f, Restaked ctxt mid (ofDelegate (some delegate) x) 0 ∧
      updateBalance f mid delegate cycle = .ok after ∧ ∀ old new, f old = .ok new →
        (new.currentAmount.mutez : Int) = old.currentAmount.mutez + x ∧
          (new.initialAmount.mutez : Int) = old.initialAmount.mutez + max x 0

theorem spend_moved (h : spend ctxt (.container container) amount = .ok after) :
    Moved ctxt after (-amount.mutez) container := by
  cases container with
  | contract contract =>
    obtain ⟨balance, subtracted, h⟩ := bind_eq_ok.1 h
    obtain ⟨removed, removal, h⟩ := bind_eq_ok.1 h
    have unchanged : after = removed := by
      split at h
      · obtain ⟨-, h⟩ := unit_bind_eq_ok.1 h
        cases h
        rfl
      · cases h
        rfl
    subst unchanged
    refine ⟨balance, ?_, removeContractDelegatedStake_restaked removal⟩
    simp [sub_eq_ok (liftError_eq_ok.1 subtracted)]
  | frozenDeposits staker => exact removeFrozenStake_restaked h
  | unstakedFrozenDeposits delegate cycle =>
    obtain ⟨mid, removed, h⟩ := bind_eq_ok.1 h
    refine ⟨mid, _, removeDelegatedStake_restaked removed, h, ?_⟩
    intro old new computed
    obtain ⟨currentAmount, subtracted, computed⟩ := bind_eq_ok.1 computed
    cases computed
    simp [sub_eq_ok subtracted]

theorem credit_moved (h : credit ctxt (.container container) amount = .ok after) :
    Moved ctxt after amount.mutez container := by
  cases container with
  | contract contract =>
    obtain ⟨balance, added, h⟩ := bind_eq_ok.1 h
    refine ⟨balance, ?_, addContractDelegatedStake_restaked h⟩
    simp [add_eq_ok (liftTez_eq_ok.1 added), add_comm]
  | frozenDeposits staker => exact addFrozenStake_restaked h
  | unstakedFrozenDeposits delegate cycle =>
    obtain ⟨mid, added, h⟩ := bind_eq_ok.1 h
    refine ⟨mid, _, addDelegatedStake_restaked added, h, ?_⟩
    intro old new computed
    obtain ⟨initialAmount, initialAdded, computed⟩ := bind_eq_ok.1 computed
    obtain ⟨currentAmount, currentAdded, computed⟩ := bind_eq_ok.1 computed
    cases computed
    simp [add_eq_ok initialAdded, add_eq_ok currentAdded]

theorem updateBalance_same (h : updateBalance f ctxt delegate cycle = .ok after) :
    SameRecords ctxt after ∧ stakedOn after = stakedOn ctxt := by
  obtain ⟨squashed, -, h⟩ := bind_eq_ok.1 h
  obtain ⟨updated, -, h⟩ := bind_eq_ok.1 h
  cases h
  exact ⟨rfl, rfl⟩

theorem Moved.same (moved : Moved ctxt after x container) : SameRecords ctxt after := by
  cases container with
  | contract contract =>
    obtain ⟨balance, -, restaked⟩ := moved
    rw [restaked.only]
    rfl
  | frozenDeposits staker => exact .of_stakingBalance moved.only
  | unstakedFrozenDeposits delegate cycle =>
    obtain ⟨mid, f, restaked, updated, -⟩ := moved
    exact (SameRecords.of_stakingBalance restaked.only).trans (updateBalance_same updated).1

theorem Moved.staked (moved : Moved ctxt after x container) (other : Pkh) :
    (stakedOn after other : Int) = stakedOn ctxt other + ofDelegate (poolOf container) x other := by
  cases container with
  | contract contract =>
    obtain ⟨balance, -, restaked⟩ := moved
    exact restaked.staked other
  | frozenDeposits staker => exact Restaked.staked moved other
  | unstakedFrozenDeposits delegate cycle =>
    obtain ⟨mid, f, restaked, updated, -⟩ := moved
    rw [(updateBalance_same updated).2]
    exact restaked.staked other

theorem spend_same {giver : Giver Pkh} (h : spend ctxt giver amount = .ok after) :
    SameRecords ctxt after := by
  cases giver with
  | infiniteSource =>
    obtain ⟨totalSupply, -, h⟩ := bind_eq_ok.1 h
    cases h
    rfl
  | container container => exact (spend_moved h).same

theorem credit_same (h : credit ctxt receiver amount = .ok after) :
    SameRecords ctxt after := by
  cases receiver with
  | infiniteSink =>
    obtain ⟨totalSupply, -, h⟩ := bind_eq_ok.1 h
    cases h
    rfl
  | container container => exact (credit_moved h).same

theorem withdraw_eq_ok {state state'} {giver : Giver Pkh × Tez} (h : withdraw state giver = .ok state') :
    spend state.1 giver.1 giver.2 = .ok state'.1 ∧ state'.2.mutez = giver.2.mutez + state.2.mutez := by
  obtain ⟨spent, spending, h⟩ := bind_eq_ok.1 h
  obtain ⟨total, added, h⟩ := bind_eq_ok.1 h
  cases h
  exact ⟨spending, add_eq_ok (liftTez_eq_ok.1 added)⟩

theorem transferN_same {givers}
    (h : transferN ctxt givers receiver = .ok after) : SameRecords ctxt after := by
  unfold transferN at h
  split at h
  · cases h
    rfl
  · obtain ⟨⟨mid, amount⟩, withdrawn, h⟩ := bind_eq_ok.1 h
    refine SameRecords.trans (foldlM_preserves (P := fun later => SameRecords ctxt later.1) ?_ .rfl
      withdrawn) (credit_same h)
    intro before next giver same step
    exact same.trans (spend_same (withdraw_eq_ok step).1)

end Containers

section Staked
variable [DecidableEq Pkh] {ctxt after : Context Pkh} {delegate other : Pkh} {amount : Tez}
variable {receiver : Receiver Pkh}

def partOf (pool : Option Pkh) (delegate : Pkh) (amount : Nat) : Nat :=
  if pool = some delegate then amount else 0

def giverPool : Giver Pkh → Option Pkh
  | .infiniteSource => none
  | .container container => poolOf container

def receiverPool : Receiver Pkh → Option Pkh
  | .infiniteSink => none
  | .container container => poolOf container

variable {giver : Giver Pkh}

theorem spend_staked (h : spend ctxt giver amount = .ok after) : (stakedOn after other : Int) =
      stakedOn ctxt other + ofDelegate (giverPool giver) (-amount.mutez) other := by
  cases giver with
  | infiniteSource =>
    obtain ⟨_, _, h⟩ := bind_eq_ok.1 h
    cases h
    rfl
  | container container => exact (spend_moved h).staked other

theorem credit_staked (h : credit ctxt receiver amount = .ok after) : (stakedOn after other : Int) =
      stakedOn ctxt other + ofDelegate (receiverPool receiver) amount.mutez other := by
  cases receiver with
  | infiniteSink =>
    obtain ⟨_, _, h⟩ := bind_eq_ok.1 h
    cases h
    rfl
  | container container => exact (credit_moved h).staked other

theorem transfer_staked (h : transfer ctxt giver receiver amount = .ok after) :
    stakedOn after other + partOf (giverPool giver) other amount.mutez =
      stakedOn ctxt other + partOf (receiverPool receiver) other amount.mutez := by
  unfold transfer transferN at h
  by_cases none : amount = Tez.zero
  · rw [none] at h ⊢
    cases h
    simp [partOf, Tez.zero]
  · simp only [List.filter_cons, List.filter_nil, none, ne_eq, not_false_eq_true, decide_true, if_true] at h
    obtain ⟨⟨mid, moved⟩, withdrawn, h⟩ := bind_eq_ok.1 h
    obtain ⟨_, withdrawn, rest⟩ := bind_eq_ok.1 withdrawn
    cases rest
    obtain ⟨spending, same⟩ := withdraw_eq_ok withdrawn
    have same : moved.mutez = amount.mutez := same
    have taken : (stakedOn mid other : Int) = _ := spend_staked spending
    have given : (stakedOn after other : Int) = _ := credit_staked h
    dsimp only [ofDelegate] at taken given
    unfold partOf
    split_ifs at taken given ⊢ <;> omega

theorem transferN_staked_le {givers}
    (outside : receiverPool receiver = none) (h : transferN ctxt givers receiver = .ok after) :
    stakedOn after other ≤ stakedOn ctxt other := by
  unfold transferN at h
  split at h
  · cases h
    exact Nat.le_refl _
  · obtain ⟨⟨mid, moved⟩, withdrawn, h⟩ := bind_eq_ok.1 h
    have given : (stakedOn after other : Int) = _ := credit_staked h
    rw [outside, show ofDelegate none _ other = 0 from rfl, add_zero] at given
    rw [← Int.ofNat_le, given]
    refine foldlM_preserves (P := fun later => (stakedOn later.1 other : Int) ≤ stakedOn ctxt other) ?_
      le_rfl withdrawn
    intro before next giver below step
    have taken : (stakedOn next.1 other : Int) = _ := spend_staked (withdraw_eq_ok step).1
    dsimp only [ofDelegate] at taken
    split_ifs at taken <;> omega

/-- Neither the records nor the staked deposits change. -/
def Quiet (before after : Context Pkh) : Prop :=
  SameRecords before after ∧ stakedOn after = stakedOn before

omit [DecidableEq Pkh] in
theorem Quiet.trans {mid : Context Pkh} (earlier : Quiet ctxt mid) (later : Quiet mid after) :
    Quiet ctxt after :=
  ⟨earlier.1.trans later.1, later.2.trans earlier.2⟩

theorem transfer_quiet (from_outside : giverPool giver = none) (to_outside : receiverPool receiver = none)
    (h : transfer ctxt giver receiver amount = .ok after) : Quiet ctxt after := by
  refine ⟨transferN_same h, ?_⟩
  funext other
  have change : stakedOn after other + _ = stakedOn ctxt other + _ := transfer_staked h
  rw [from_outside, to_outside] at change
  exact change

end Staked

def SameTez (before after : Context Pkh) : Prop :=
  after = { before with
    stakingPseudotokens := after.stakingPseudotokens,
    frozenDepositsPseudotokens := after.frozenDepositsPseudotokens }

section Pseudotokens
variable [DecidableEq Pkh] {ctxt after : Context Pkh} {contract delegate : Pkh}

theorem pseudotokens_stake_same {amount : Tez}
    (h : Pseudotokens.stake ctxt contract delegate amount = .ok after) : SameTez ctxt after := by
  unfold Pseudotokens.stake at h
  split at h
  · cases h
    rfl
  · obtain ⟨balances, -, h⟩ := bind_eq_ok.1 h
    obtain ⟨credited, -, h⟩ := bind_eq_ok.1 h
    obtain ⟨own, -, h⟩ := bind_eq_ok.1 h
    obtain ⟨total, -, h⟩ := bind_eq_ok.1 h
    cases h
    rfl

theorem pseudotokens_requestUnstake_same {amount tez : Tez}
    (h : Pseudotokens.requestUnstake ctxt contract delegate amount = .ok (after, tez)) :
    SameTez ctxt after := by
  unfold Pseudotokens.requestUnstake at h
  split_ifs at h
  · cases h
    rfl
  · obtain ⟨own, -, h⟩ := bind_eq_ok.1 h
    cases h
    rfl
  · obtain ⟨balances, -, h⟩ := bind_eq_ok.1 h
    dsimp only at h
    split_ifs at h
    · cases h
      rfl
    · cases h
      rfl
    · obtain ⟨-, h⟩ := unit_bind_eq_ok.1 h
      obtain ⟨⟨burnt, value⟩, -, h⟩ := bind_eq_ok.1 h
      obtain ⟨burned, burning, h⟩ := bind_eq_ok.1 h
      obtain ⟨own, -, burning⟩ := bind_eq_ok.1 burning
      obtain ⟨total, -, burning⟩ := bind_eq_ok.1 burning
      cases burning
      cases h
      rfl

end Pseudotokens

open UnstakeRequests

def isFinalizable (forNextCycle : Bool) (ctxt : Context Pkh) (cycle : Nat) : Bool :=
  cycle + (ctxt.constants.slashableDepositsPeriod + maxSlashingPeriod) ≤ cycleOf forNextCycle ctxt

variable {ctxt after : Context Pkh} {forNextCycle : Bool} {contract : Pkh}

theorem prepareFinalizeUnstake_some {prepared}
    (h : prepareFinalizeUnstake forNextCycle ctxt contract = some prepared) :
    ∃ stored, ctxt.unstakeRequests contract = some stored ∧
      prepared.unfinalizable = {
        delegate := stored.delegate
        requests := stored.requests.filter fun request =>
          !isFinalizable forNextCycle ctxt request.1 } ∧
      prepared.finalizable =
        (stored.requests.filter fun request => isFinalizable forNextCycle ctxt request.1).map
          fun request => (stored.delegate, request.1, applySlashes ctxt.constants.slashableDepositsPeriod
              (slashingHistory ctxt stored.delegate) request.1 request.2) := by
  unfold prepareFinalizeUnstake at h
  dsimp only at h
  split at h
  · cases h
  · rename_i delegate requests found
    refine ⟨_, found, ?_⟩
    split at h
    · cases h
    · unfold subCycle at h
      split_ifs at h with late
      · cases h
        have finalizable_iff : ∀ cycle, decide
            (cycle ≤ cycleOf forNextCycle ctxt -
              (ctxt.constants.slashableDepositsPeriod + maxSlashingPeriod)) =
            isFinalizable forNextCycle ctxt cycle := by
          simp only [isFinalizable, decide_eq_decide]
          omega
        simp only [List.partition_eq_filter_filter, finalizable_iff]
        exact ⟨rfl, trivial⟩
      · cases h
        have none : ∀ cycle, isFinalizable forNextCycle ctxt cycle = false := by
          simp only [isFinalizable, decide_eq_false_iff_not]
          omega
        simp [none]

variable [DecidableEq Pkh]

theorem update_eq_ok {requests} (h : update ctxt contract requests = .ok after) :
    after = { ctxt with unstakeRequests := ctxt.unstakeRequests.add contract requests } := by
  unfold update at h
  split at h <;> cases h
  rfl

theorem finalizeTransfers_quiet {finalizable}
    (h : performFinalizableUnstakeTransfers ctxt contract finalizable = .ok after) :
    Quiet ctxt after :=
  foldlM_preserves (P := Quiet ctxt)
    (fun quiet moved => quiet.trans (transfer_quiet rfl rfl moved)) ⟨.rfl, rfl⟩ h

theorem transferFromUnstake_quiet {delegate : Pkh} {remaining rest : Tez} {updated requests left}
    (h : transferFromUnstake delegate ctxt remaining updated requests =
      .ok (after, rest, left)) : Quiet ctxt after := by
  induction requests generalizing ctxt remaining updated with
  | nil =>
    cases h
    exact ⟨rfl, rfl⟩
  | cons request requests ih =>
    have removed : ∀ {mid : Context Pkh} {amount : Tez},
        removeFromUnstakedFrozenDeposit ctxt request.1 delegate delegate amount = .ok mid →
          Quiet ctxt mid := by
      intro mid amount removed
      obtain ⟨moved, transferred, decreased⟩ := bind_eq_ok.1 removed
      rw [FrozenStaker.ofStaker, if_pos rfl] at transferred
      exact (transfer_quiet rfl rfl transferred).trans (updateBalance_same decreased)
    rw [transferFromUnstake] at h
    split_ifs at h
    · cases h
      exact ⟨rfl, rfl⟩
    · obtain ⟨mid, whole, h⟩ := bind_eq_ok.1 h
      obtain ⟨_, -, h⟩ := bind_eq_ok.1 h
      exact (removed whole).trans (ih h)
    · obtain ⟨mid, part, h⟩ := bind_eq_ok.1 h
      obtain ⟨_, -, h⟩ := bind_eq_ok.1 h
      cases h
      exact removed part

end Octez.Proof.Staking
