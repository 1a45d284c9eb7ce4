import Octez.Proof.Staking.SolventOperations

namespace Octez.Proof.Staking
open Octez.Lib Octez.Staking UnstakeRequests
variable {Pkh : Type} [DecidableEq Pkh]
variable {ctxt after : Context Pkh} {forNextCycle : Bool} {promised : Pkh → Nat → Nat}
  {contract : Pkh} {stored : StoredRequests Pkh} {requests : List (Nat × Tez)}

theorem Exchange.of_replaced {gone} (found : ctxt.unstakeRequests contract = some stored)
    (same : SameHistories ctxt after) (written : after.unstakeRequests =
      ctxt.unstakeRequests.add contract { delegate := stored.delegate, requests })
    (totals : ∀ amount other included, Saturated (currentUnslashableCycle ctxt) included →
      total amount included (ctxt.unstakedFrozenDeposits other) =
        total amount included (after.unstakedFrozenDeposits other) +
          if other = stored.delegate then gone amount included else 0) :
    Exchange ctxt after contract stored.delegate gone := by
  refine ⟨same, ?_, totals⟩
  intro delegate' contract' different
  rw [requestsTo_add written]
  by_cases here : contract' = contract
  · subst here
    have other : stored.delegate ≠ delegate' := (different.resolve_left (not_not_intro rfl)).symm
    simp [requestsTo, found, other]
  · rw [if_neg here]

theorem requestsTo_of_found (found : ctxt.unstakeRequests contract = some stored) :
    requestsTo ctxt stored.delegate contract = stored.requests := by
  simp [requestsTo, found]

theorem finalizeTransfers_withdrawn {contract delegate : Pkh} (left : Nat × Tez → Tez) (accounts : Accounts ctxt)
    (h : performFinalizableUnstakeTransfers ctxt contract
      (requests.map fun request => (delegate, request.1, left request)) = .ok after) :
    Withdrawn ctxt after fun other included =>
      if other = delegate then requestSum (fun request => (left request).mutez) included requests
      else 0 := by
  unfold performFinalizableUnstakeTransfers at h
  induction requests generalizing ctxt with
  | nil =>
    cases h
    exact (Withdrawn.rfl accounts).congr (by simp [nothing])
  | cons request requests ih =>
    obtain ⟨mid, transferred, h⟩ := bind_eq_ok.1 h
    have first := accounts.transfer (fun _ => rfl) transferred
    refine (first.trans (ih first.accounts h)).congr ?_
    intro other included
    simp only [drawn, tezOfCycle, requestSum_cons]
    by_cases own : other = delegate <;> simp [own]

def finalized (forNextCycle : Bool) (ctxt : Context Pkh) (stored : StoredRequests Pkh) :
    Amount → (Nat → Bool) → Nat
  | .initial, _ => 0
  | .current, included => requestSum (leftOf ctxt stored.delegate) included
      (stored.requests.filter fun request => isFinalizable forNextCycle ctxt request.1)

def unfinalized (forNextCycle : Bool) (ctxt : Context Pkh) (stored : StoredRequests Pkh) :
    StoredRequests Pkh :=
  { delegate := stored.delegate
    requests := stored.requests.filter fun request =>
      !isFinalizable forNextCycle ctxt request.1 }

theorem finalized_solvent (solvent : Solvent forNextCycle ctxt promised)
    (found : ctxt.unstakeRequests contract = some stored)
    (left : after.unstakeRequests contract = some (unfinalized forNextCycle ctxt stored))
    (exchange : Exchange ctxt after contract stored.delegate (finalized forNextCycle ctxt stored)) :
    Solvent forNextCycle after promised := by
  have split : ∀ value included, requestSum value included stored.requests =
      requestSum value included (unfinalized forNextCycle ctxt stored).requests + _ :=
    fun _ _ => requestSum_filter (fun request => isFinalizable forNextCycle ctxt request.1) _
  have requests : requestsTo after stored.delegate contract =
      (unfinalized forNextCycle ctxt stored).requests := requestsTo_of_found left
  refine exchange.solvent solvent ?_ ?_ ?_
  · intro cycle _
    rw [owed, owed, requests, requestsTo_of_found found, exchange.histories.leftOf, split]
    exact le_rfl
  · intro cycle _
    rw [claimed, claimed, requests, requestsTo_of_found found, split]
    exact Nat.le_add_right _ _
  · intro cycle stillOpen
    refine ⟨?_, fun some => absurd rfl some⟩
    apply requestSum_eq_zero
    intro request member
    have closed := (List.mem_filter.1 member).2
    simp only [onlyCycle, decide_eq_false_iff_not]
    rintro rfl
    rw [stillOpen] at closed
    cases closed

variable {unfinalizable : Option (StoredRequests Pkh)} {cycle : Nat}

theorem Backed.finalizeUnstakeAndCheck {check : StoredRequests Pkh → Result Pkh Unit}
    (backed : Backed forNextCycle ctxt promised)
    (h : finalizeUnstakeAndCheck forNextCycle check ctxt contract =
      .ok (after, unfinalizable)) :
    Backed forNextCycle after promised ∧ SameHistories ctxt after ∧
      ∀ stored, unfinalizable = some stored → after.unstakeRequests contract = some stored ∧
        ∀ request ∈ stored.requests, isFinalizable forNextCycle ctxt request.1 = false := by
  unfold Octez.Staking.finalizeUnstakeAndCheck at h
  split at h
  · cases h
    exact ⟨backed, ⟨rfl, rfl, rfl, rfl⟩, by simp⟩
  · rename_i finalizable unfinalizable' prepared
    obtain ⟨stored, found, unfinalizable_eq, finalizable_eq⟩ := prepareFinalizeUnstake_some prepared
    simp only at unfinalizable_eq finalizable_eq
    change unfinalizable' = unfinalized forNextCycle ctxt stored at unfinalizable_eq
    have open_of_left : ∀ request ∈ unfinalizable'.requests,
        isFinalizable forNextCycle ctxt request.1 = false := by
      intro request member
      rw [unfinalizable_eq] at member
      simpa using (List.mem_filter.1 member).2
    obtain ⟨-, h⟩ := unit_bind_eq_ok.1 h
    split at h
    · cases h
      refine ⟨backed, ⟨rfl, rfl, rfl, rfl⟩, ?_⟩
      rintro stored' ⟨⟩
      refine ⟨?_, open_of_left⟩
      -- Nothing was finalizable, so that the requests left are those stored.
      have all : (unfinalized forNextCycle ctxt stored).requests = stored.requests := by
        apply List.filter_eq_self.2
        intro request member
        have := List.filter_eq_nil_iff.1 (List.map_eq_nil_iff.1 finalizable_eq.symm) request member
        simpa using this
      rw [found, unfinalizable_eq]
      cases stored
      simp only [unfinalized] at all ⊢
      rw [all]
    · obtain ⟨mid, updated, h⟩ := bind_eq_ok.1 h
      obtain ⟨final, transferred, h⟩ := bind_eq_ok.1 h
      cases h
      cases update_eq_ok updated
      rw [finalizable_eq] at transferred
      have withdrawn := finalizeTransfers_withdrawn
        (fun request => applySlashes ctxt.constants.slashableDepositsPeriod
          (slashingHistory ctxt stored.delegate) request.1 request.2) (backed.accounts.written _) transferred
      have same : SameHistories ctxt after :=
        ⟨withdrawn.same.constants, withdrawn.same.cycle, withdrawn.same.slashedDeposits,
          withdrawn.same.slashedDepositsOxford⟩
      have written : after.unstakeRequests =
          ctxt.unstakeRequests.add contract (unfinalized forNextCycle ctxt stored) := by
        rw [withdrawn.same.unstakeRequests, unfinalizable_eq]
      have left : after.unstakeRequests contract =
          some (unfinalized forNextCycle ctxt stored) := by
        rw [written, Map.add_apply, if_pos rfl]
      have exchange : Exchange ctxt after contract stored.delegate
          (finalized forNextCycle ctxt stored) := by
        refine Exchange.of_replaced found same written ?_
        intro amount other included saturated
        cases amount with
        | initial =>
          rw [withdrawn.initial other included saturated]
          simp [finalized]
        | current => exact withdrawn.current other included saturated
      refine ⟨⟨withdrawn.accounts, finalized_solvent backed.solvent found left exchange,
        same.sorted backed⟩, same, ?_⟩
      rintro stored' ⟨⟩
      exact ⟨left.trans (congrArg some unfinalizable_eq.symm), open_of_left⟩

theorem Backed.finalizeUnstake (backed : Backed forNextCycle ctxt promised)
    (h : finalizeUnstake forNextCycle ctxt contract = .ok after) :
    Backed forNextCycle after promised ∧ SameHistories ctxt after := by
  obtain ⟨⟨final, unfinalizable⟩, finalized, h⟩ := bind_eq_ok.1 h
  cases h
  obtain ⟨backed', same, -⟩ := backed.finalizeUnstakeAndCheck finalized
  exact ⟨backed', same⟩

theorem removeFromUnstaked_spec {delegate sender : Pkh} {amount : Tez} (accounts : Accounts ctxt)
    (h : removeFromUnstakedFrozenDeposit ctxt cycle delegate sender amount = .ok after) :
    SameRecords ctxt after ∧ Accounts after ∧
      ∀ kind other included, Saturated (currentUnslashableCycle ctxt) included →
        total kind included (ctxt.unstakedFrozenDeposits other) =
          total kind included (after.unstakedFrozenDeposits other) +
            tezOfCycle delegate cycle amount other included := by
  obtain ⟨mid, transferred, decreased⟩ := bind_eq_ok.1 h
  have withdrawn := accounts.transfer (fun _ => rfl) transferred
  obtain ⟨same, accounts', totals⟩ := withdrawn.accounts.decreaseInitialAmount decreased
  refine ⟨withdrawn.same.trans same, accounts', ?_⟩
  intro kind other included saturated
  obtain ⟨current, initial⟩ :=
    totals other included (withdrawn.same.currentUnslashableCycle ▸ saturated)
  cases kind with
  | initial => rw [← withdrawn.initial other included saturated, initial]
  | current =>
    rw [withdrawn.current other included saturated, current]
    rfl

variable {delegate : Pkh} {requests : List (Nat × Tez)}

theorem transferFromUnstake_spec {remaining rest : Tez} {updated left}
    (accounts : Accounts ctxt) (h : transferFromUnstake delegate ctxt remaining updated requests =
      .ok (after, rest, left)) :
    SameRecords ctxt after ∧ Accounts after ∧ ∃ gone : (Nat → Bool) → Nat,
      (∀ kind other included, Saturated (currentUnslashableCycle ctxt) included →
        total kind included (ctxt.unstakedFrozenDeposits other) =
          total kind included (after.unstakedFrozenDeposits other) +
            if other = delegate then gone included else 0) ∧
      ∀ included, requestSum requestedAmount included updated +
          requestSum requestedAmount included requests =
        requestSum requestedAmount included left + gone included := by
  have reversed : ∀ included (first second : List (Nat × Tez)),
      requestSum requestedAmount included (first.reverseAux second) =
        requestSum requestedAmount included first + requestSum requestedAmount included second := by
    intro included first second
    rw [List.reverseAux_eq, requestSum_append, requestSum_perm first.reverse_perm]
  induction requests generalizing ctxt remaining updated with
  | nil =>
    cases h
    exact ⟨.rfl, accounts, fun _ => 0, by simp, by simp⟩
  | cons request requests ih =>
    obtain ⟨cycle, amount⟩ := request
    rw [transferFromUnstake] at h
    split_ifs at h with done whole
    · cases h
      refine ⟨.rfl, accounts, fun _ => 0, by simp, ?_⟩
      intro included
      rw [reversed, Nat.add_comm]
      rfl
    · obtain ⟨mid, removed, h⟩ := bind_eq_ok.1 h
      obtain ⟨remaining', -, h⟩ := bind_eq_ok.1 h
      obtain ⟨same, accounts', moved⟩ := removeFromUnstaked_spec accounts removed
      obtain ⟨same', accounts'', gone, totals, sums⟩ := ih accounts' h
      refine ⟨same.trans same', accounts'',
        fun included => gone included + if included cycle then amount.mutez else 0, ?_, ?_⟩
      · intro kind other included saturated
        rw [moved kind other included saturated,
          totals kind other included (same.currentUnslashableCycle ▸ saturated)]
        simp only [tezOfCycle]
        by_cases own : other = delegate <;> simp [own, Nat.add_assoc]
      · intro included
        have sum := sums included
        simp only [requestSum_cons, requestedAmount] at sum ⊢
        omega
    · obtain ⟨mid, removed, h⟩ := bind_eq_ok.1 h
      obtain ⟨amount', subtracted, h⟩ := bind_eq_ok.1 h
      cases h
      obtain ⟨same, accounts', moved⟩ := removeFromUnstaked_spec accounts removed
      have less := sub_eq_ok (liftTez_eq_ok.1 subtracted)
      refine ⟨same, accounts', fun included => if included cycle then remaining.mutez else 0, ?_, ?_⟩
      · intro kind other included saturated
        rw [moved kind other included saturated]
        simp only [tezOfCycle]
        by_cases own : other = delegate <;> simp [own]
      · intro included
        rw [reversed, requestSum_cons, requestSum_cons]
        simp only [requestedAmount]
        split <;> omega

omit [DecidableEq Pkh] in
theorem leftOf_le (ctxt : Context Pkh) (delegate : Pkh) (request : Nat × Tez) :
    leftOf ctxt delegate request ≤ requestedAmount request := by
  have bound := applySlashes_le ctxt.constants.slashableDepositsPeriod request.1
    (slashingHistory ctxt delegate) request.2
  apply Nat.le_of_mul_le_mul_left (c := Percentage.oneHundredPercent) _ (by decide)
  refine bound.trans ?_
  rw [Nat.mul_comm]
  exact Nat.mul_le_mul_right _ (Nat.sub_le _ _)

theorem requestSum_le {value value'} (included : Nat → Bool)
    (requests : List (Nat × Tez)) (le : ∀ request, value request ≤ value' request) :
    requestSum value included requests ≤ requestSum value' included requests := by
  induction requests with
  | nil => exact le_rfl
  | cons request requests ih =>
    rw [requestSum_cons, requestSum_cons]
    refine Nat.add_le_add ?_ ih
    split
    · exact le request
    · exact le_rfl

omit [DecidableEq Pkh] in
theorem rateFor_of_canStake (sorted : SortedAssoc.Sorted (ctxt.slashedDepositsOxford delegate))
    (allowed : canStakeFromUnstake forNextCycle ctxt delegate = true)
    (stillOpen : isFinalizable forNextCycle ctxt cycle = false) : rateFor ctxt delegate cycle = 0 := by
  have early : ∀ entry ∈ ctxt.slashedDeposits delegate ++ ctxt.slashedDepositsOxford delegate,
      entry.1 < cycle := by
    intro entry member
    simp only [canStakeFromUnstake, Bool.not_eq_true', Bool.or_eq_false_iff, List.any_eq_false,
      decide_eq_true_eq, not_le] at allowed
    have slashed := allowed.2 entry member
    have period := of_decide_eq_false stillOpen
    unfold subCycle at slashed
    unfold maxSlashingPeriod at period
    split_ifs at slashed
    · simp only [Option.getD_some] at slashed
      omega
    · simp only [Option.getD_none, Nat.not_lt_zero] at slashed
  have outside : ∀ (entry : Nat × Percentage), entry.1 < cycle →
      ∀ percentage, windowRate ctxt.constants.slashableDepositsPeriod cycle entry.1 percentage = 0 := by
    intro entry before percentage
    rw [windowRate, if_neg (fun within => Nat.not_le.2 before within.1)]
  apply rateOf_foldl_eq_zero sorted
  · intro entry member
    exact outside entry (early entry (List.mem_append_right _ member)) _
  · intro entry member
    exact outside entry (early entry (List.mem_append_left _ member))

theorem Backed.stakeFromUnstakeForDelegate {amount rest : Tez} (backed : Backed forNextCycle ctxt promised)
    (recorded : ∀ stored, unfinalizable = some stored → ctxt.unstakeRequests delegate = some stored ∧
        ∀ request ∈ stored.requests, isFinalizable forNextCycle ctxt request.1 = false)
    (h : stakeFromUnstakeForDelegate forNextCycle ctxt delegate unfinalizable amount =
      .ok (after, rest)) :
    Backed forNextCycle after promised := by
  unfold Octez.Staking.stakeFromUnstakeForDelegate at h
  split at h
  · cases h
    exact backed
  · rename_i stored
    obtain ⟨found, stillOpen⟩ := recorded stored rfl
    split_ifs at h with other allowed
    · cases h
      exact backed
    · obtain ⟨⟨mid, remaining, left⟩, moved, h⟩ := bind_eq_ok.1 h
      obtain ⟨final, updated, h⟩ := bind_eq_ok.1 h
      cases h
      have only := update_eq_ok updated
      obtain rfl : delegate = stored.delegate := not_ne_iff.1 other
      obtain ⟨same, accounts, gone, totals, sums⟩ :=
        transferFromUnstake_spec backed.accounts moved
      have histories : SameHistories ctxt after := by
        rw [only]
        exact ⟨same.constants, same.cycle, same.slashedDeposits, same.slashedDepositsOxford⟩
      have written : after.unstakeRequests = ctxt.unstakeRequests.add stored.delegate
          { delegate := stored.delegate, requests := left.reverse } := by
        rw [only, same.unstakeRequests]
      have deposits : after.unstakedFrozenDeposits = mid.unstakedFrozenDeposits := by rw [only]
      have exchange : Exchange ctxt after stored.delegate stored.delegate fun _ => gone :=
        .of_replaced found histories written (deposits ▸ totals)
      have requests : requestsTo after stored.delegate stored.delegate = left.reverse := by
        rw [requestsTo_add written, if_pos rfl, if_pos rfl]
      have balance : ∀ included, requestSum requestedAmount included stored.requests =
          requestSum requestedAmount included left.reverse + gone included := by
        intro included
        rw [requestSum_perm left.reverse_perm, ← sums included, requestSum_nil, Nat.zero_add,
          requestSum_perm (List.perm_insertionSort _ _)]
      refine ⟨only ▸ accounts.written _, exchange.solvent backed.solvent ?_ ?_ ?_, histories.sorted backed⟩
      · intro cycle closed
        -- The requests are of open cycles, before and after.
        have none : requestSum requestedAmount
            (readWith (currentUnslashableCycle ctxt) cycle) stored.requests = 0 :=
          requestSum_eq_zero fun request member => not_readWith closed (stillOpen request member)
        have split := balance (readWith (currentUnslashableCycle ctxt) cycle)
        have less := requestSum_le (readWith (currentUnslashableCycle ctxt) cycle) left.reverse
          (leftOf_le ctxt stored.delegate)
        rw [owed, requests, histories.leftOf]
        omega
      · intro cycle _
        rw [claimed, claimed, requests, requestsTo_of_found found, balance]
      · intro cycle stillOpen'
        exact ⟨rfl, fun _ =>
          rateFor_of_canStake (backed.histories stored.delegate).2 allowed stillOpen'⟩
    · cases h
      exact backed

open Octez.Proof.Slashing
open Octez.Slashing (FullStakingBalance Deposits)

theorem deposits_add_ne_underflow (first second : Deposits) (a b : Tez) :
    first.add second ≠ .error (.error (.subtractionUnderflow a b)) := by
  intro failed
  rcases bind_eq_error.1 failed with failed | ⟨_, -, failed⟩
  · exact add_ne_underflow _ _ a b failed
  · exact add_ne_underflow _ _ a b (bind_pure_eq_error.1 failed)

theorem squashInto_ne_underflow (unslashable : Nat) (first : Deposits)
    (entries : List (Nat × Deposits)) (a b : Tez) :
    squashInto unslashable first entries ≠ .error (.error (.subtractionUnderflow a b)) := by
  induction entries generalizing first with
  | nil =>
    intro failed
    cases failed
  | cons entry entries ih =>
    rw [squashInto]
    split
    · intro failed
      rcases bind_eq_error.1 failed with failed | ⟨merged, -, failed⟩
      · exact deposits_add_ne_underflow _ _ a b failed
      · exact ih merged failed
    · intro failed
      cases failed

theorem squashUnslashable_ne_underflow (unslashableCycle : Option Nat)
    (entries : List (Nat × Deposits)) (a b : Tez) :
    squashUnslashable unslashableCycle entries ≠ .error (.error (.subtractionUnderflow a b)) := by
  unfold squashUnslashable
  split
  · split
    · intro failed
      exact squashInto_ne_underflow _ _ _ a b (bind_pure_eq_error.1 failed)
    · intro failed
      cases failed
  · intro failed
    cases failed

section Transfers
variable {Pkh : Type}

def underflow (a b : Tez) : Failure (StakingError Pkh) := .error (.tez (.subtractionUnderflow a b))

theorem liftTez_eq_underflow {α : Type} {result} {a b : Tez} :
    (liftTez result : Result Pkh α) = .error (underflow a b) ↔
      result = .error (.error (.subtractionUnderflow a b)) := by
  rcases result with (exn | error) | value <;> simp [liftTez, liftError, underflow]

theorem liftTez_add_ne_underflow (tez1 tez2 a b : Tez) :
    (liftTez (tez1.add tez2) : Result Pkh Tez) ≠ .error (underflow a b) :=
  fun failed => add_ne_underflow tez1 tez2 a b (liftTez_eq_underflow.1 failed)

theorem sub_ne_underflow {tez1 tez2 : Tez} (covered : tez2.mutez ≤ tez1.mutez) (a b : Tez) :
    tez1.sub tez2 ≠ .error (.error (.subtractionUnderflow a b)) := by
  obtain ⟨rest, subtracted, -⟩ := sub_of_le tez1 tez2 covered
  rw [subtracted]
  intro failed
  cases failed

variable [DecidableEq Pkh] {ctxt : Context Pkh} {delegate : Pkh} {amount : Tez}

theorem updateStake_underflow {f}
    {a b : Tez} (failed : updateStake f ctxt delegate = .error (underflow a b)) :
    ∃ old, ctxt.stakingBalance delegate = some old ∧ f old = .error (.error (.subtractionUnderflow a b)) := by
  rcases bind_eq_error.1 failed with failed | ⟨old, found, failed⟩
  · unfold getFullStakingBalance at failed
    split at failed <;> cases failed
  · exact ⟨old, getFullStakingBalance_eq_ok found, liftTez_eq_underflow.1 (bind_pure_eq_error.1 failed)⟩

theorem addDelegatedStake_ne_underflow (a b : Tez) :
    addDelegatedStake ctxt delegate amount ≠ .error (underflow a b) := by
  intro failed
  obtain ⟨old, -, failed⟩ := updateStake_underflow failed
  exact add_ne_underflow _ _ a b (bind_pure_eq_error.1 failed)

theorem creditContract_ne_underflow (contract : Pkh) (a b : Tez) :
    creditContract ctxt contract amount ≠ .error (underflow a b) := by
  intro failed
  rcases bind_eq_error.1 failed with failed | ⟨_, -, failed⟩
  · exact liftTez_add_ne_underflow _ _ a b failed
  · dsimp only [addContractDelegatedStake] at failed
    split at failed
    · cases failed
    · exact addDelegatedStake_ne_underflow a b failed

theorem spendUnstaked_ne_underflow (accounts : Accounts ctxt)
    (covered : amount.mutez ≤ heldFor ctxt delegate cycle) (a b : Tez) :
    UnstakedFrozenDeposits.spend ctxt delegate cycle amount ≠ .error (underflow a b) := by
  intro failed
  rcases bind_eq_error.1 failed with failed | ⟨mid, removed, failed⟩
  · have held : heldFor ctxt delegate cycle ≤
        total .current everyCycle (ctxt.unstakedFrozenDeposits delegate) :=
      total_mono _ fun _ _ => rfl
    have delegated := accounts.covered delegate ∅
    rw [Finset.sum_empty, Nat.zero_add] at delegated
    obtain ⟨old, found, failed⟩ := updateStake_underflow failed
    simp only [delegatedTo, found] at delegated
    exact sub_ne_underflow ((covered.trans held).trans delegated) a b (bind_pure_eq_error.1 failed)
  · have only := (removeDelegatedStake_restaked removed).only
    have sorted : SortedAssoc.Sorted (mid.unstakedFrozenDeposits delegate) := by
      rw [only]
      exact accounts.sorted delegate
    have same : heldFor mid delegate cycle = heldFor ctxt delegate cycle := by
      rw [only]
      rfl
    rcases bind_eq_error.1 failed with failed | ⟨squashed, squashing, failed⟩
    · exact absurd (liftTez_eq_underflow.1 failed) (squashUnslashable_ne_underflow _ _ a b)
    · have squashing := liftTez_eq_ok.1 squashing
      have held := get_spec .current sorted squashing cycle
      obtain ⟨-, sorted', -⟩ := squashUnslashable_spec sorted squashing
      have failed := bind_pure_eq_error.1 (liftTez_eq_underflow.1 (bind_pure_eq_error.1 failed))
      rw [updateT, SortedAssoc.updateM_eq _ sorted'] at failed
      exact sub_ne_underflow (covered.trans_eq (same.symm.trans held.symm)) a b
        (bind_pure_eq_error.1 (bind_pure_eq_error.1 failed))

theorem finalizeTransfer_ne_underflow (contract : Pkh) (accounts : Accounts ctxt)
    (covered : amount.mutez ≤ heldFor ctxt delegate cycle) (a b : Tez) :
    finalizeTransfer contract ctxt (delegate, cycle, amount) ≠ .error (underflow a b) := by
  unfold finalizeTransfer transfer transferN
  by_cases empty : amount = Tez.zero
  · rw [List.filter_cons_of_neg (by simpa using empty)]
    intro failed
    cases failed
  · rw [List.filter_cons_of_pos (by simpa using empty)]
    intro failed
    rcases bind_eq_error.1 failed with failed | ⟨_, -, failed⟩
    · rcases bind_eq_error.1 (bind_pure_eq_error.1 failed) with failed | ⟨_, -, failed⟩
      · exact spendUnstaked_ne_underflow accounts covered a b failed
      · exact liftTez_add_ne_underflow _ _ a b (bind_pure_eq_error.1 failed)
    · exact creditContract_ne_underflow contract a b failed

theorem finalizeTransfers_ne_underflow (contract : Pkh) (left : Nat × Tez → Tez) (accounts : Accounts ctxt)
    (covered : ∀ cycle, requestSum (fun request => (left request).mutez)
        (readWith (currentUnslashableCycle ctxt) cycle) requests ≤ heldFor ctxt delegate cycle) (a b : Tez) :
    performFinalizableUnstakeTransfers ctxt contract
      (requests.map fun request => (delegate, request.1, left request)) ≠ .error (underflow a b) := by
  unfold performFinalizableUnstakeTransfers
  induction requests generalizing ctxt with
  | nil =>
    intro failed
    cases failed
  | cons request requests ih =>
    intro failed
    have self : readWith (currentUnslashableCycle ctxt) request.1 request.1 = true :=
      decide_eq_true rfl
    have first := covered request.1
    rw [requestSum_cons, self] at first
    rcases bind_eq_error.1 failed with failed | ⟨mid, transferred, failed⟩
    · exact finalizeTransfer_ne_underflow contract accounts ((Nat.le_add_right _ _).trans first) a b failed
    · have withdrawn := accounts.transfer (fun _ => rfl) transferred
      have unslashable := withdrawn.same.currentUnslashableCycle
      refine ih withdrawn.accounts ?_ failed
      intro cycle
      have before := covered cycle
      have current := withdrawn.current delegate _
        (saturated_readWith (currentUnslashableCycle ctxt) cycle)
      rw [heldFor, current, requestSum_cons] at before
      rw [heldFor, unslashable]
      simp only [drawn, tezOfCycle, true_and] at before
      omega

end Transfers

end Octez.Proof.Staking
