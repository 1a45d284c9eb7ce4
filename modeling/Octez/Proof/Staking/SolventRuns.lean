import Octez.Proof.Staking.SolventOperations
import Octez.Proof.Staking.RecordedDelegate
import Octez.Proof.Staking.Finalization

namespace Octez.Proof.Staking
open Octez.Lib Octez.Staking Octez.Proof.Slashing UnstakeRequests
open Octez.Slashing (slashableCycles computeRewardAndBurn)

variable {cycle : Nat}

theorem applySlashes_add {period fromCycle : Nat} (percentage : Percentage)
    (history : List (Nat × Percentage)) (amount : Tez)
    (outside : ¬(fromCycle ≤ cycle ∧ cycle ≤ fromCycle + period)) :
    applySlashes period (SlashedDepositsHistory.add cycle percentage history)
        fromCycle amount = applySlashes period history fromCycle amount := by
  have skipped : ∀ remain percentage,
      applySlash period fromCycle amount remain (cycle, percentage) = remain := by
    intro remain percentage
    rw [applySlash, if_neg outside]
  have fold : ∀ remain,
      (SlashedDepositsHistory.add cycle percentage history).foldl
          (applySlash period fromCycle amount) remain =
        history.foldl (applySlash period fromCycle amount) remain := by
    induction history with
    | nil =>
      intro remain
      exact skipped remain percentage
    | cons slashing history ih =>
      intro remain
      rw [SlashedDepositsHistory.add]
      split_ifs with same smaller
      · subst same
        rw [List.foldl_cons, List.foldl_cons, skipped, skipped]
      · rw [List.foldl_cons, List.foldl_cons, ih]
      · rw [List.foldl_cons, skipped]
  exact fold amount

variable {Pkh : Type} [DecidableEq Pkh] {ctxt after : Context Pkh} {slash : Slash Pkh}

section
variable (sorted : SortedAssoc.Sorted (ctxt.slashedDepositsOxford slash.delegate))
include sorted

theorem recordSlash_history (delegate : Pkh) :
    slashingHistory (recordSlash ctxt slash).1 delegate =
      if delegate = slash.delegate then
        SlashedDepositsHistory.add slash.misbehaviourCycle slash.slashingPercentage
          (slashingHistory ctxt delegate)
      else slashingHistory ctxt delegate := by
  by_cases own : delegate = slash.delegate
  · subst own
    have recorded : SortedAssoc.Sorted (SlashedDepositsHistory.add slash.misbehaviourCycle
        slash.slashingPercentage (slashingHistory ctxt slash.delegate)) :=
      history_add_sorted (foldl_add_sorted sorted) _ _
    simp only [slashingHistory, recordSlash, Function.update_self]
    exact foldl_add_append recorded
  · rw [if_neg own]
    simp only [slashingHistory, recordSlash, Function.update_of_ne own]

theorem recordSlash_rateFor (delegate : Pkh) (cycle : Nat) :
    rateFor (recordSlash ctxt slash).1 delegate cycle =
      rateFor ctxt delegate cycle +
        if delegate = slash.delegate then
          windowRate ctxt.constants.slashableDepositsPeriod cycle slash.misbehaviourCycle
            (recordSlash ctxt slash).2 else 0 := by
  rw [rateFor, recordSlash_history sorted]
  by_cases own : delegate = slash.delegate
  · subst own
    rw [if_pos rfl, if_pos rfl]
    exact rateOf_add (foldl_add_sorted sorted) _ _ _ _
  · rw [if_neg own, if_neg own]
    rfl

theorem recordSlash_leftOf (delegate : Pkh) {request : Nat × Tez}
    (recent : slash.misbehaviourCycle = ctxt.cycle ∨ slash.misbehaviourCycle + 1 = ctxt.cycle)
    (closed : isFinalizable false ctxt request.1 = true) :
    leftOf (recordSlash ctxt slash).1 delegate request = leftOf ctxt delegate request := by
  have early : request.1 + (ctxt.constants.slashableDepositsPeriod + maxSlashingPeriod) ≤
      ctxt.cycle := of_decide_eq_true closed
  unfold maxSlashingPeriod at early
  have constants : (recordSlash ctxt slash).1.constants = ctxt.constants := rfl
  rw [leftOf, recordSlash_history sorted, constants]
  split
  · exact congrArg Tez.mutez (applySlashes_add _ _ _ (by omega))
  · rfl

end

def punished (ctxt : Context Pkh) (delegate : Pkh) (percentage : Percentage) (cycle : Nat) : Nat :=
  punishedAmount percentage (total .initial (readWith (currentUnslashableCycle ctxt) cycle)
      (ctxt.unstakedFrozenDeposits delegate)) (total .current (readWith (currentUnslashableCycle ctxt) cycle)
      (ctxt.unstakedFrozenDeposits delegate))

def punishedIn (ctxt : Context Pkh) (delegate : Pkh) (percentage : Percentage)
    (included : Nat → Bool) (cycles : List Nat) : Nat :=
  (cycles.map fun cycle => if included cycle then punished ctxt delegate percentage cycle else 0).sum

variable {acc acc' : List (Giver Pkh × Tez) × List (Giver Pkh × Tez)} {percentage : Percentage}
  {delegate : Pkh}

theorem addUnstaked_spec (accounts : Accounts ctxt)
    (h : addUnstaked ctxt delegate percentage acc cycle = .ok acc') (other : Pkh) (included : Nat → Bool) :
    taken acc'.1 other included + taken acc'.2 other included =
      taken acc.1 other included + taken acc.2 other included +
        if other = delegate ∧ included cycle then punished ctxt delegate percentage cycle else 0 := by
  obtain ⟨deposits, got, h⟩ := bind_eq_ok.1 h
  obtain ⟨squashed, squashing, got⟩ := bind_eq_ok.1 got
  cases got
  obtain ⟨amounts, computed, h⟩ := bind_eq_ok.1 h
  cases h
  obtain ⟨amounts', computed', -, whole⟩ := computeRewardAndBurn_spec percentage
    (squashed.get cycle) ctxt.constants.globalLimitOfStakingOverBaking
  rw [liftTez_eq_ok.1 computed] at computed'
  cases computed'
  have sorted := accounts.sorted delegate
  have initial := get_spec .initial sorted (liftTez_eq_ok.1 squashing) cycle
  have current := get_spec .current sorted (liftTez_eq_ok.1 squashing) cycle
  rw [computePunishingAmount_mutez] at whole
  simp only [Amount.of] at initial current
  simp only [taken, List.map_cons, List.sum_cons, drawn, tezOfCycle, punished, ← initial, ← current]
  split_ifs <;> omega

theorem addUnstaked_fold {cycles : List Nat} (accounts : Accounts ctxt)
    (h : cycles.foldlM (addUnstaked ctxt delegate percentage) acc = .ok acc') (other : Pkh)
    (included : Nat → Bool) :
    taken acc'.1 other included + taken acc'.2 other included =
      taken acc.1 other included + taken acc.2 other included +
        if other = delegate then punishedIn ctxt delegate percentage included cycles else 0 := by
  induction cycles generalizing acc with
  | nil =>
    cases h
    simp [punishedIn]
  | cons cycle cycles ih =>
    obtain ⟨mid, added, h⟩ := bind_eq_ok.1 h
    rw [ih h, addUnstaked_spec accounts added other included]
    by_cases own : other = delegate
    · simp [own, punishedIn, Nat.add_assoc]
    · simp [own]

theorem applyDenunciation_withdrawn (accounts : Accounts ctxt)
    (h : applyDenunciation ctxt slash = .ok after) :
    Withdrawn (recordSlash ctxt slash).1 after fun other included =>
      if other = slash.delegate then
        punishedIn ctxt slash.delegate (recordSlash ctxt slash).2 included
          (slashableCycles slash.misbehaviourCycle ctxt.constants.slashableDepositsPeriod)
      else 0 := by
  have recorded : Accounts (recordSlash ctxt slash).1 := ⟨accounts.sorted, accounts.covered⟩
  obtain ⟨balance, -, h⟩ := bind_eq_ok.1 h
  obtain ⟨currentAmount, -, h⟩ := bind_eq_ok.1 h
  obtain ⟨staked, -, h⟩ := bind_eq_ok.1 h
  obtain ⟨burnt, -, h⟩ := bind_eq_ok.1 h
  obtain ⟨rewarded, -, h⟩ := bind_eq_ok.1 h
  obtain ⟨⟨toBurn, toReward⟩, collected, h⟩ := bind_eq_ok.1 h
  obtain ⟨mid, burning, rewarding⟩ := bind_eq_ok.1 h
  have first := recorded.transferN (fun _ => rfl) burning
  refine (first.trans (first.accounts.transferN (fun _ => rfl) rewarding)).congr ?_
  intro other included
  have sum := addUnstaked_fold recorded collected other included
  have frozen : ∀ shared, taken (frozenGivers slash.delegate shared) other included = 0 :=
    fun _ => rfl
  rw [frozen, frozen, Nat.add_zero, Nat.zero_add] at sum
  exact sum

theorem mem_slashableCycles {misbehaviourCycle period : Nat} :
    cycle ∈ slashableCycles misbehaviourCycle period ↔
      cycle ≤ misbehaviourCycle ∧ misbehaviourCycle ≤ cycle + period := by
  simp only [slashableCycles, List.mem_range'_1]
  omega

omit [DecidableEq Pkh] in
theorem punishedIn_onlyCycle (delegate : Pkh) (percentage : Percentage)
    (misbehaviourCycle period cycle : Nat) :
    punishedIn ctxt delegate percentage (onlyCycle cycle)
        (slashableCycles misbehaviourCycle period) =
      if cycle ≤ misbehaviourCycle ∧ misbehaviourCycle ≤ cycle + period then
        punished ctxt delegate percentage cycle else 0 := by
  have once : (slashableCycles misbehaviourCycle period).Nodup := List.nodup_range'
  rw [punishedIn, List.sum_map_eq_nsmul_single cycle]
  · rw [once.count]
    simp [onlyCycle, mem_slashableCycles]
  · intro other differs _
    simp [onlyCycle, differs]

omit [DecidableEq Pkh] in
theorem punishedIn_closed
    (recent : slash.misbehaviourCycle = ctxt.cycle ∨ slash.misbehaviourCycle + 1 = ctxt.cycle)
    (closed : isFinalizable false ctxt cycle = true) :
    punishedIn ctxt delegate percentage (readWith (currentUnslashableCycle ctxt) cycle)
      (slashableCycles slash.misbehaviourCycle ctxt.constants.slashableDepositsPeriod) = 0 := by
  apply List.sum_eq_zero
  intro amount member
  obtain ⟨slashable, within, rfl⟩ := List.mem_map.1 member
  have window := mem_slashableCycles.1 within
  have stillOpen : isFinalizable false ctxt slashable = false := by
    apply decide_eq_false
    simp only [cycleOf, maxSlashingPeriod, Bool.false_eq_true, if_false]
    omega
  rw [not_readWith closed stillOpen]
  rfl

theorem Backed.applyDenunciation (backed : Backed false ctxt noPromise)
    (recent : slash.misbehaviourCycle = ctxt.cycle ∨ slash.misbehaviourCycle + 1 = ctxt.cycle)
    (h : applyDenunciation ctxt slash = .ok after) : Backed false after noPromise := by
  have withdrawn := applyDenunciation_withdrawn backed.accounts h
  have same := withdrawn.same.histories
  have sorted := (backed.histories slash.delegate).2
  have unslashable : currentUnslashableCycle after = currentUnslashableCycle ctxt :=
    same.unslashable
  have requests : requestsTo after = requestsTo ctxt := by
    funext delegate contract
    simp only [requestsTo, withdrawn.same.unstakeRequests]
    rfl
  have finalizable : ∀ cycle, isFinalizable false after cycle = isFinalizable false ctxt cycle :=
    same.isFinalizable
  refine ⟨withdrawn.accounts, ⟨?_, ?_, ?_⟩, ?_⟩
  · intro delegate cycle closed contracts
    rw [finalizable] at closed
    have kept : ∀ contract,
        owed after delegate (readWith (currentUnslashableCycle ctxt) cycle) contract =
          owed ctxt delegate (readWith (currentUnslashableCycle ctxt) cycle) contract := by
      intro contract
      rw [owed, owed, requests, same.leftOf]
      unfold requestSum
      congr 1
      apply List.map_congr_left
      intro request _
      split
      · rename_i within
        refine recordSlash_leftOf sorted delegate recent ?_
        by_contra stillOpen
        rw [not_readWith closed (Bool.not_eq_true _ ▸ stillOpen)] at within
        cases within
      · rfl
    have held : heldFor after delegate cycle = heldFor ctxt delegate cycle := by
      have current := withdrawn.current delegate _
        (saturated_readWith (currentUnslashableCycle ctxt) cycle)
      simp only [punishedIn_closed recent closed, ite_self, Nat.add_zero] at current
      rw [heldFor, heldFor, unslashable]
      exact current.symm
    simp only [unslashable, kept, held]
    exact backed.solvent.settled delegate cycle closed contracts
  · intro delegate cycle stillOpen contracts
    rw [finalizable] at stillOpen
    rw [withdrawn.initial delegate _ (saturated_onlyCycle stillOpen)]
    simp only [claimed, requests]
    exact backed.solvent.claims delegate cycle stillOpen contracts
  · intro delegate cycle stillOpen
    rw [finalizable] at stillOpen
    have before := backed.solvent.covers delegate cycle stillOpen
    have current := withdrawn.current delegate _ (saturated_onlyCycle stillOpen)
    rw [withdrawn.initial delegate _ (saturated_onlyCycle stillOpen), same.rateFor,
      recordSlash_rateFor sorted]
    rw [punishedIn_onlyCycle, punished, readWith_of_open stillOpen] at current
    unfold windowRate
    by_cases own : delegate = slash.delegate
    · subst own
      rw [if_pos rfl] at current ⊢
      split_ifs at current ⊢
      · have left : total .current (onlyCycle cycle) (after.unstakedFrozenDeposits slash.delegate) =
            _ - _ := Nat.eq_sub_of_add_eq current.symm
        rw [left]
        exact before.loss _
      · rw [Nat.add_zero] at current ⊢
        rw [← current]
        exact before
    · rw [if_neg own, Nat.add_zero] at current ⊢
      rw [← current]
      exact before
  · intro delegate
    rw [withdrawn.same.slashedDeposits, withdrawn.same.slashedDepositsOxford]
    simp only [recordSlash]
    by_cases own : delegate = slash.delegate
    · subst own
      rw [Function.update_self, Function.update_self]
      exact ⟨history_add_sorted (foldl_add_sorted sorted) _ _, List.Pairwise.nil⟩
    · rw [Function.update_of_ne own, Function.update_of_ne own]
      exact backed.histories delegate

variable {forNextCycle : Bool} {promised : Pkh → Nat → Nat} {delegate contract : Pkh}

theorem Backed.sameTez (backed : Backed forNextCycle ctxt promised) (same : SameTez ctxt after) :
    Backed forNextCycle after promised := by
  rw [same]
  exact ⟨⟨backed.accounts.sorted, backed.accounts.covered⟩,
    ⟨backed.solvent.settled, backed.solvent.claims, backed.solvent.covers⟩, backed.histories⟩

theorem Backed.stake {amount : StakeAmount} {sender : Pkh} (backed : Backed forNextCycle ctxt promised)
    (h : stake forNextCycle ctxt amount sender delegate = .ok after) :
    Backed forNextCycle after promised := by
  obtain ⟨⟨finalized, unfinalizable⟩, finalization, h⟩ := bind_eq_ok.1 h
  obtain ⟨⟨unstaked, liquid⟩, fromUnstake, h⟩ := bind_eq_ok.1 h
  obtain ⟨minted, minting, h⟩ := bind_eq_ok.1 h
  obtain ⟨backed, same, recorded⟩ := backed.finalizeUnstakeAndCheck finalization
  suffices minted_backed : Backed forNextCycle minted promised from
    minted_backed.transferred (minted_backed.accounts.transfer (fun _ => rfl) h)
  by_cases delegator : sender ≠ delegate
  · rw [stakeFromUnstake, if_pos delegator] at fromUnstake
    rw [issuePseudotokens, if_pos delegator] at minting
    cases fromUnstake
    exact backed.sameTez (pseudotokens_stake_same minting)
  · rw [stakeFromUnstake, if_neg delegator] at fromUnstake
    rw [issuePseudotokens, if_neg delegator] at minting
    cases minting
    obtain rfl : sender = delegate := not_ne_iff.1 delegator
    refine backed.stakeFromUnstakeForDelegate ?_ fromUnstake
    intro stored left
    obtain ⟨found, stillOpen⟩ := recorded stored left
    refine ⟨found, ?_⟩
    intro request member
    rw [same.isFinalizable]
    exact stillOpen request member

omit [DecidableEq Pkh] in
theorem cycleOf_open (forNextCycle : Bool) (ctxt : Context Pkh) :
    isFinalizable forNextCycle ctxt (cycleOf forNextCycle ctxt) = false := by
  apply decide_eq_false
  unfold maxSlashingPeriod
  omega

theorem Backed.requestUnstake {amount : Tez} (backed : Backed forNextCycle ctxt promised)
    (h : requestUnstake forNextCycle ctxt contract delegate amount = .ok after) :
    Backed forNextCycle after promised := by
  obtain ⟨⟨burned, tez⟩, burning, h⟩ := bind_eq_ok.1 h
  have same := pseudotokens_requestUnstake_same burning
  have burned_backed := backed.sameTez same
  dsimp only at h
  split at h
  · cases h
    exact burned_backed
  · obtain ⟨mid, moving, h⟩ := bind_eq_ok.1 h
    obtain ⟨moved, transferred, finalization⟩ := bind_eq_ok.1 moving
    have deposited := burned_backed.accounts.transferFrozen transferred
    obtain ⟨mid_backed, mid_same⟩ :=
      (burned_backed.deposited deposited).finalizeUnstake finalization
    refine mid_backed.recorded ?_ h
    rw [(deposited.same.histories.trans mid_same).isFinalizable]
    exact cycleOf_open forNextCycle burned

def SameDeposits (before after : Context Pkh) : Prop :=
  after = { before with
    delegate := after.delegate, stakingBalance := after.stakingBalance, inactive := after.inactive }

section
variable (backed : Backed forNextCycle ctxt promised)
include backed

theorem Backed.sameDeposits (same : SameDeposits ctxt after) (accounts : Accounts after) :
    Backed forNextCycle after promised := by
  refine ⟨accounts, ?_, ?_⟩
  · rw [same]
    exact ⟨backed.solvent.settled, backed.solvent.claims, backed.solvent.covers⟩
  · rw [same]
    exact backed.histories

theorem Backed.setSelfDelegate
    (h : setSelfDelegate ctxt delegate = .ok after) : Backed forNextCycle after promised := by
  unfold Octez.Staking.setSelfDelegate at h
  split at h
  · obtain ⟨-, h⟩ := unit_bind_eq_ok.1 h
    cases h
    exact backed.sameDeposits rfl ⟨backed.accounts.sorted, backed.accounts.covered⟩
  · rename_i unregistered
    obtain ⟨-, h⟩ := unit_bind_eq_ok.1 h
    obtain ⟨mid, removed, h⟩ := bind_eq_ok.1 h
    have restaked := removeContractDelegatedStake_restaked removed
    have only := restaked.only
    have nothing_before : delegatedTo ctxt delegate = 0 := by simp [delegatedTo, unregistered]
    cases h
    have deposits : mid.unstakedFrozenDeposits = ctxt.unstakedFrozenDeposits := by rw [only]
    have balances : mid.balance = ctxt.balance := by rw [only]
    have delegates : mid.delegate = ctxt.delegate := by rw [only]
    refine backed.sameDeposits (by rw [only]; rfl) (backed.accounts.redelegated delegate deposits
      ?_ ?_)
    · intro _ other differs
      simp [balanceFor, Map.add_apply, differs, delegates, balances]
    · intro other
      have removal := restaked.delegated other
      simp only [balanceFor, delegatedTo, ofDelegate, Map.add_apply, balances] at *
      by_cases own : other = delegate
      · subst own
        simp only [if_true, Option.elim_some]
        split_ifs at removal ⊢ <;> omega
      · have differs : ¬delegate = other := fun same => own same.symm
        simp only [own, differs, if_true, if_false, Option.some.injEq]
        split_ifs at removal ⊢ <;> omega

theorem Backed.setDelegate {delegate : Option Pkh}
    (h : setDelegate ctxt contract delegate = .ok after) : Backed forNextCycle after promised := by
  obtain ⟨-, h⟩ := unit_bind_eq_ok.1 h
  obtain ⟨-, h⟩ := unit_bind_eq_ok.1 h
  obtain ⟨mid, removed, h⟩ := bind_eq_ok.1 h
  have restaked := removeContractDelegatedStake_restaked removed
  have only := restaked.only
  have deposits : mid.unstakedFrozenDeposits = ctxt.unstakedFrozenDeposits := by rw [only]
  have balances : mid.balance = ctxt.balance := by rw [only]
  have delegates : mid.delegate = ctxt.delegate := by rw [only]
  cases delegate with
  | none =>
    cases h
    refine backed.sameDeposits (by rw [only]; rfl) (backed.accounts.redelegated contract deposits
      ?_ ?_)
    · intro _ other differs
      simp [balanceFor, Map.remove, differs, delegates, balances]
    · intro other
      have removal := restaked.delegated other
      simp only [balanceFor, delegatedTo, ofDelegate, Map.remove, Function.update_self, reduceCtorEq,
        if_false] at removal ⊢
      split_ifs at removal ⊢ <;> omega
  | some delegate =>
    obtain ⟨-, h⟩ := unit_bind_eq_ok.1 h
    have restaked' := addDelegatedStake_restaked h
    have only' := restaked'.only
    have delegates' : after.delegate = ctxt.delegate.add contract delegate := by
      rw [only', ← delegates]
    have balances' : after.balance = ctxt.balance := by rw [only', ← balances]
    refine backed.sameDeposits (by rw [only', only]; rfl) (backed.accounts.redelegated contract
      (by rw [only', ← deposits]) ?_ ?_)
    · intro _ other differs
      simp only [balanceFor, delegates', balances', Map.add_apply, if_neg differs]
    · intro other
      have removal := restaked.delegated other
      have addition : (delegatedTo after other : Int) = delegatedTo mid other + _ :=
        restaked'.delegated other
      simp only [balanceFor, ofDelegate, delegates', balances', Map.add_apply, if_true,
        Option.some.injEq] at removal addition ⊢
      split_ifs at removal addition ⊢ <;> omega

end

theorem Backed.applyDelegation {sender : Pkh} {delegate : Option Pkh} (backed : Backed false ctxt promised)
    (h : applyDelegation ctxt sender delegate = .ok after) : Backed false after promised := by
  obtain ⟨mid, unstaked, h⟩ := bind_eq_ok.1 h
  have mid_backed : Backed false mid promised := by
    unfold unstakeFromPrevious at unstaked
    split at unstaked
    · cases unstaked
      exact backed
    · split at unstaked
      · cases unstaked
        exact backed
      · exact backed.requestUnstake unstaked
  unfold setContractDelegate at h
  split at h
  · exact mid_backed.setSelfDelegate h
  · exact mid_backed.setDelegate h

theorem Backed.operation {operation : Operation Pkh} (backed : Backed false ctxt promised)
    (h : operation.apply ctxt = .ok after) : Backed false after promised := by
  cases operation with
  | stake sender amount =>
    obtain ⟨-, h⟩ := unit_bind_eq_ok.1 h
    obtain ⟨-, h⟩ := unit_bind_eq_ok.1 h
    split at h
    · cases h
    · obtain ⟨-, h⟩ := unit_bind_eq_ok.1 h
      obtain ⟨-, h⟩ := unit_bind_eq_ok.1 h
      exact backed.stake h
  | unstake sender amount =>
    obtain ⟨-, h⟩ := unit_bind_eq_ok.1 h
    split at h
    · cases h
    · exact backed.requestUnstake h
  | finalizeUnstake sender => exact (backed.finalizeUnstake h).1
  | delegation sender delegate => exact backed.applyDelegation h
  | payment source destination amount =>
    apply backed.transferred
    have withdrawn := backed.accounts.transfer (by cases destination <;> exact fun _ => rfl) h
    cases source <;> exact withdrawn
  | reward staker amount =>
    exact backed.transferred (backed.accounts.transfer (fun _ => rfl) h)
  | denunciation delegate =>
    cases h
    exact ⟨⟨backed.accounts.sorted, backed.accounts.covered⟩,
      ⟨backed.solvent.settled, backed.solvent.claims, backed.solvent.covers⟩, backed.histories⟩

theorem Backed.slashed (backed : Backed false ctxt noPromise) (pendingDenunciations inactive : Pkh → Bool) :
    Backed true { ctxt with pendingDenunciations, inactive } noPromise := by
  have earlier : ∀ cycle, isFinalizable true ctxt cycle = false →
      isFinalizable false ctxt cycle = false := by
    intro cycle stillOpen
    have late := of_decide_eq_false stillOpen
    apply decide_eq_false
    simp only [cycleOf, Bool.false_eq_true, if_true, if_false] at late ⊢
    omega
  refine ⟨⟨backed.accounts.sorted, backed.accounts.covered⟩, ⟨?_, ?_, ?_⟩, backed.histories⟩
  · intro delegate cycle _
    exact backed.solvent.solvent delegate cycle
  · intro delegate cycle stillOpen
    exact backed.solvent.claims delegate cycle (earlier cycle stillOpen)
  · intro delegate cycle stillOpen
    exact backed.solvent.covers delegate cycle (earlier cycle stillOpen)

theorem ite_or {a b : Bool} (disjoint : a = true → b = false) (value : Nat) :
    (if a || b then value else 0) = (if a then value else 0) + if b then value else 0 := by
  cases a with
  | false => simp
  | true => simp [disjoint rfl]

theorem Backed.newCycle (backed : Backed true ctxt noPromise) (adaptiveIssuanceEnable : Bool) :
    Backed false { ctxt with cycle := ctxt.cycle + 1, adaptiveIssuanceEnable } noPromise := by
  refine ⟨⟨backed.accounts.sorted, backed.accounts.covered⟩,
    ⟨?_, backed.solvent.claims, backed.solvent.covers⟩, backed.histories⟩
  intro delegate cycle closed contracts
  have late : cycle + (ctxt.constants.slashableDepositsPeriod + maxSlashingPeriod) ≤
      ctxt.cycle + 1 := of_decide_eq_true closed
  obtain ⟨last, next⟩ : ∃ last, currentUnslashableCycle
      { ctxt with cycle := ctxt.cycle + 1, adaptiveIssuanceEnable } = some last :=
    ⟨_, currentUnslashableCycle_eq_some.2 (Nat.sub_add_cancel (Nat.le_of_add_left_le late))⟩
  have last_eq := currentUnslashableCycle_eq_some.1 next
  simp only at last_eq
  have settled : ∀ cycle', ∑ contract ∈ contracts,
      owed ctxt delegate (readWith (currentUnslashableCycle ctxt) cycle') contract ≤
        total .current (readWith (currentUnslashableCycle ctxt) cycle')
          (ctxt.unstakedFrozenDeposits delegate) :=
    fun cycle' => backed.solvent.solvent delegate cycle' contracts
  change ∑ contract ∈ contracts, owed ctxt delegate (readWith _ cycle) contract ≤
    total .current (readWith _ cycle) (ctxt.unstakedFrozenDeposits delegate)
  rw [next]
  cases before : currentUnslashableCycle ctxt with
  | none =>
    have first : ¬ctxt.constants.slashableDepositsPeriod + maxSlashingPeriod ≤ ctxt.cycle := by
      intro later
      rw [currentUnslashableCycle, subCycle, if_pos later] at before
      cases before
    have same : readWith (some last) cycle = readWith none cycle := by
      funext other
      rw [Bool.eq_iff_iff, readWith_iff, readWith_iff]
      simp only [normalizeCycle]
      omega
    rw [same, ← before]
    exact settled cycle
  | some unslashable =>
    have bound := currentUnslashableCycle_eq_some.1 before
    have same : readWith (some last) cycle = fun other =>
        readWith (some unslashable) unslashable other || readWith (some unslashable) last other := by
      funext other
      rw [Bool.eq_iff_iff, Bool.or_eq_true, readWith_iff, readWith_iff, readWith_iff]
      simp only [normalizeCycle]
      omega
    have disjoint : ∀ other, readWith (some unslashable) unslashable other = true →
        readWith (some unslashable) last other = false := by
      intro other within
      rw [Bool.eq_false_iff, ne_eq, readWith_iff]
      have below := readWith_iff.1 within
      simp only [normalizeCycle] at below ⊢
      omega
    have first := settled unslashable
    have second := settled last
    rw [before] at first second
    rw [same]
    simp only [total, weight, owed, requestSum, ite_or (disjoint _), List.sum_map_add,
      Finset.sum_add_distrib] at first second ⊢
    exact Nat.add_le_add first second

def nextCycleIn : Phase → Bool
  | .operations | .denunciations => false
  | .autostaking => true

theorem step_backed {before after : State Pkh} {event : Event Pkh}
    (backed : Backed (nextCycleIn before.phase) before.ctxt noPromise)
    (step : Step before event after) : Backed (nextCycleIn after.phase) after.ctxt noPromise := by
  cases step with
  | operation applied => exact backed.operation applied
  | endOfCycle => exact backed
  | slash recent applied => exact backed.applyDenunciation recent applied
  | slashed => exact backed.slashed _ _
  | autostake _ applied => exact backed.stake applied
  | autounstake _ applied => exact backed.requestUnstake applied
  | autofinalize _ applied => exact (backed.finalizeUnstake applied).1
  | newCycle => exact backed.newCycle _

theorem run_backed {initial state : State Pkh} {trace}
    (backed : Backed (nextCycleIn initial.phase) initial.ctxt noPromise)
    (run : Runs initial trace state) : Backed (nextCycleIn state.phase) state.ctxt noPromise := by
  induction run with
  | start => exact backed
  | step _ step ih => exact step_backed ih step

structure Fresh (ctxt : Context Pkh) : Prop where
  requests : ∀ contract, ctxt.unstakeRequests contract = none
  deposits : ∀ delegate, ctxt.unstakedFrozenDeposits delegate = []
  covered : ∀ delegate (contracts : Finset Pkh),
    ∑ contract ∈ contracts, balanceFor ctxt delegate contract ≤ delegatedTo ctxt delegate
  histories : ∀ delegate, SortedAssoc.Sorted (ctxt.slashedDeposits delegate) ∧
    SortedAssoc.Sorted (ctxt.slashedDepositsOxford delegate)

theorem Fresh.backed (fresh : Fresh ctxt) (forNextCycle : Bool) :
    Backed forNextCycle ctxt noPromise := by
  have none : ∀ delegate contract, requestsTo ctxt delegate contract = [] := by
    intro delegate contract
    simp [requestsTo, fresh.requests contract]
  refine ⟨⟨?_, ?_⟩, ⟨?_, ?_, ?_⟩, fresh.histories⟩
  · intro delegate
    rw [fresh.deposits]
    exact List.Pairwise.nil
  · intro delegate contracts
    rw [fresh.deposits, total_nil, Nat.add_zero]
    exact fresh.covered delegate contracts
  · intro delegate cycle _ contracts
    simp [owed, none]
  · intro delegate cycle _ contracts
    simp [claimed, none, noPromise]
  · intro delegate cycle _
    simp [Lib.Covers, fresh.deposits]

/-- The contexts in which the requests of a contract are finalized from a state: the state itself,
or the one in which the tez of a new request are already unstaked. -/
inductive FinalizesIn (forNextCycle : Bool) (ctxt : Context Pkh) (contract : Pkh) :
    Context Pkh → Prop where
  | directly : FinalizesIn forNextCycle ctxt contract ctxt
  | unstaking {delegate : Pkh} {amount tez : Tez} {burned moved : Context Pkh}
      (burning : Pseudotokens.requestUnstake ctxt contract delegate amount = .ok (burned, tez))
      (moving : transfer burned (.container (.frozenDeposits (.ofStaker contract delegate)))
        (.container (.unstakedFrozenDeposits delegate
          (cycleOf forNextCycle burned))) tez = .ok moved) :
      FinalizesIn forNextCycle ctxt contract moved

theorem FinalizesIn.backed (finalizes : FinalizesIn forNextCycle ctxt contract after)
    (backed : Backed forNextCycle ctxt noPromise) : ∃ promised, Backed forNextCycle after promised := by
  cases finalizes with
  | directly => exact ⟨noPromise, backed⟩
  | unstaking burning moving =>
    have burned_backed := backed.sameTez (pseudotokens_requestUnstake_same burning)
    exact ⟨_, burned_backed.deposited (burned_backed.accounts.transferFrozen moving)⟩

/-- The cycles squashed together with a cycle are read from the same deposits, so that all their
requests are counted. -/
theorem unstaked_deposits_stay_solvent {initial state : State Pkh} {trace : List (State Pkh × Event Pkh)}
    (fresh : Fresh initial.ctxt) (run : Runs initial trace state) :
    (∀ delegate cycle deposits (contracts : Finset Pkh),
      UnstakedFrozenDeposits.get state.ctxt delegate cycle = .ok deposits → ∑ contract ∈ contracts,
            owed state.ctxt delegate (readWith (currentUnslashableCycle state.ctxt) cycle) contract ≤
          deposits.currentAmount.mutez) ∧
    ∀ contract ctxt prepared updated, FinalizesIn (nextCycleIn state.phase) state.ctxt contract ctxt →
      UnstakeRequests.prepareFinalizeUnstake (nextCycleIn state.phase) ctxt contract =
        some prepared → UnstakeRequests.update ctxt contract prepared.unfinalizable = .ok updated →
      ∀ tez1 tez2, performFinalizableUnstakeTransfers updated contract prepared.finalizable ≠
        .error (.error (.tez (.subtractionUnderflow tez1 tez2))) := by
  have backed := run_backed (fresh.backed (nextCycleIn initial.phase)) run
  refine ⟨?_, ?_⟩
  · intro delegate cycle deposits contracts got
    obtain ⟨squashed, squashing, got⟩ := bind_eq_ok.1 got
    cases got
    have current := get_spec .current (backed.accounts.sorted delegate) (liftTez_eq_ok.1 squashing)
      cycle
    exact (backed.solvent.solvent delegate cycle contracts).trans current.ge
  · intro contract ctxt prepared updated finalizes preparing updating tez1 tez2
    obtain ⟨promised, backed'⟩ := finalizes.backed backed
    obtain ⟨stored, found, -, finalizable_eq⟩ := prepareFinalizeUnstake_some preparing
    rw [update_eq_ok updating, finalizable_eq]
    refine finalizeTransfers_ne_underflow contract _ (backed'.accounts.written _) ?_ tez1 tez2
    intro cycle
    have held := backed'.solvent.solvent stored.delegate cycle {contract}
    rw [Finset.sum_singleton, owed, requestsTo_of_found found,
      requestSum_filter fun request => isFinalizable _ _ request.1] at held
    exact (Nat.le_add_left _ _).trans held

def oneBaker : Context Nat :=
  { twoDelegates with
    balance := fun pkh => tez (if pkh < 2 then 1000 else 0)
    delegate := fun _ => some 0
    stakingBalance := fun pkh =>
      if pkh = 0 then some ⟨tez 100, tez 0, tez 2000⟩ else none }

theorem oneBaker_fresh : Fresh oneBaker := by
  refine ⟨fun _ => rfl, fun _ => rfl, ?_, fun _ => ⟨List.Pairwise.nil, List.Pairwise.nil⟩⟩
  intro delegate contracts
  have within : ∑ contract ∈ contracts, balanceFor oneBaker delegate contract ≤
      ∑ contract ∈ Finset.range 2, balanceFor oneBaker delegate contract := by
    apply Finset.sum_le_sum_of_ne_zero
    intro contract _ nonzero
    rw [Finset.mem_range]
    by_contra outside
    have poor : oneBaker.balance contract = tez 0 := congrArg tez (if_neg outside)
    apply nonzero
    rw [balanceFor, poor]
    exact ite_self 0
  refine within.trans ?_
  by_cases own : delegate = 0
  · subst own
    decide
  · have other : (0 : Nat) ≠ delegate := Ne.symm own
    simp [balanceFor, oneBaker, other]

def halfSlash : Slash Nat where
  delegate := 0
  rewarded := 1
  misbehaviourCycle := 0
  slashingPercentage := ⟨50 * 100, by decide⟩
  initialAmount := tez 100

def stakeAndUnstake : List (Option (Operation Nat)) :=
  [some (.stake 1 (tez 101)), some (.unstake 1 (tez 101))]

/-- Of the request of 101 mutez 50 are left, and the deposits hold them. -/
theorem oneBaker_slashed_solvent :
    ∃ trace ctxt, Runs ⟨oneBaker, .operations⟩ trace ⟨ctxt, .denunciations⟩ ∧
      owed ctxt 0 (readWith (currentUnslashableCycle ctxt) 0) 1 = 50 ∧
      ∀ deposits, UnstakedFrozenDeposits.get ctxt 0 0 = .ok deposits → 50 ≤ deposits.currentAmount.mutez := by
  obtain ⟨unstaked, moved, cycle, slashes⟩ : ∃ unstaked,
      stakeAndUnstake.foldlM advance oneBaker = .ok unstaked ∧ unstaked.cycle = 0 ∧
      ((applyDenunciation unstaked halfSlash).toOption.any fun ctxt =>
        owed ctxt 0 (readWith (currentUnslashableCycle ctxt) 0) 1 = 50) = true :=
    exists_ok_of (by decide +kernel)
  obtain ⟨ctxt, slashing, left⟩ := exists_ok_of slashes
  obtain ⟨trace, run⟩ := runs_advance .start moved
  have slashed : Step ⟨unstaked, .denunciations⟩ (.slash halfSlash) ⟨ctxt, .denunciations⟩ :=
    .slash (.inl cycle.symm) slashing
  have run := (run.step .endOfCycle).step slashed
  refine ⟨_, ctxt, run, left, ?_⟩
  intro deposits got
  have solvent := (unstaked_deposits_stay_solvent oneBaker_fresh run).1 0 0 deposits {1} got
  exact left.ge.trans solvent

end Octez.Proof.Staking
