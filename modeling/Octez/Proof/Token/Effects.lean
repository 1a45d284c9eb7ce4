import Octez.Model.Token.Delegates
import Octez.Proof.Token.Accounts

namespace Octez.Proof.Token
open Octez.Lib Octez.Token UnstakedFrozenDeposits Table
open Octez.Slashing (Deposits)
open Octez.Staking (squashUnslashable)
open Octez.Proof.Staking (total Saturated add_eq_ok sub_eq_ok update_total)

variable {T : TokenTypes} {α : Type} {a : α}

@[simp] theorem liftTez_eq_ok {result} : (liftTez result : Result T α) = .ok a ↔ result = .ok a :=
  liftError_eq_ok

@[simp] theorem liftStorage_eq_ok {result} : (liftStorage result : Result T α) = .ok a ↔ result = .ok a :=
  liftError_eq_ok

section
variable {amount : Tez}
variable {before after : FullStakingBalance} {level : Level}

def Changed (before after : FullStakingBalance) (own staked delegated : Int) : Prop :=
  (after.ownFrozen.mutez : Int) = before.ownFrozen.mutez + own ∧
    (after.stakedFrozen.mutez : Int) = before.stakedFrozen.mutez + staked ∧
    (after.delegated.mutez : Int) = before.delegated.mutez + delegated

theorem removeOwnFrozen_changed (removed : before.removeOwnFrozen amount = .ok after) :
    Changed before after (-amount.mutez) 0 0 := by
  obtain ⟨ownFrozen, subtracted, removed⟩ := bind_eq_ok.1 removed
  cases removed
  simp [Changed, sub_eq_ok subtracted]

theorem removeStakedFrozen_changed (removed : before.removeStakedFrozen amount = .ok after) :
    Changed before after 0 (-amount.mutez) 0 := by
  obtain ⟨stakedFrozen, subtracted, removed⟩ := bind_eq_ok.1 removed
  cases removed
  simp [Changed, sub_eq_ok subtracted]

theorem addOwnFrozen_changed (added : before.addOwnFrozen amount = .ok after) :
    Changed before after amount.mutez 0 0 := by
  obtain ⟨ownFrozen, sum, added⟩ := bind_eq_ok.1 added
  cases added
  simp [Changed, add_eq_ok sum]

theorem addStakedFrozen_changed (added : before.addStakedFrozen amount = .ok after) :
    Changed before after 0 amount.mutez 0 := by
  obtain ⟨stakedFrozen, sum, added⟩ := bind_eq_ok.1 added
  cases added
  simp [Changed, add_eq_ok sum]

theorem removeDelegated_changed (removed : before.removeDelegated level amount = .ok after) :
    Changed before after 0 0 (-amount.mutez) := by
  obtain ⟨delegated, subtracted, removed⟩ := bind_eq_ok.1 removed
  obtain ⟨minimum, -, removed⟩ := bind_eq_ok.1 removed
  cases removed
  simp [Changed, sub_eq_ok subtracted]

theorem addDelegated_changed (added : before.addDelegated level amount = .ok after) :
    Changed before after 0 0 amount.mutez := by
  obtain ⟨minimum, -, added⟩ := bind_eq_ok.1 added
  obtain ⟨delegated, sum, added⟩ := bind_eq_ok.1 added
  cases added
  simp [Changed, add_eq_ok sum]

theorem spendFromDeposits_eq_ok {old new : Deposits} (spent : spendFromDeposits amount old = .ok new) :
    (new.currentAmount.mutez : Int) = old.currentAmount.mutez + -amount.mutez := by
  obtain ⟨currentAmount, subtracted, spent⟩ := bind_eq_ok.1 spent
  cases spent
  have less := sub_eq_ok subtracted
  dsimp only
  omega

theorem addToDeposits_eq_ok {old new : Deposits} (added : addToDeposits amount old = .ok new) :
    (new.currentAmount.mutez : Int) = old.currentAmount.mutez + amount.mutez := by
  obtain ⟨initialAmount, -, added⟩ := bind_eq_ok.1 added
  obtain ⟨currentAmount, sum, added⟩ := bind_eq_ok.1 added
  cases added
  have more := add_eq_ok sum
  dsimp only
  omega

end

section
variable [DecidableEq T.Pkh]
variable {ctxt ctxt' : Context T} {delegate : T.Pkh}
variable {amount : Tez}

theorem updateActiveDelegates_eq (ctxt : Context T) (delegate : T.Pkh) (before after : Bool) :
    ∃ active, updateActiveDelegates ctxt delegate before after =
      { ctxt with activeDelegatesWithMinimalStake := active } := by
  unfold updateActiveDelegates
  split
  · split
    · exact ⟨ctxt.activeDelegatesWithMinimalStake, rfl⟩
    · exact ⟨_, rfl⟩
  · split
    · exact ⟨ctxt.activeDelegatesWithMinimalStake, rfl⟩
    · exact ⟨_, rfl⟩
  · exact ⟨ctxt.activeDelegatesWithMinimalStake, rfl⟩
  · exact ⟨ctxt.activeDelegatesWithMinimalStake, rfl⟩

/-- The staking balance of a delegate changes by the three amounts. -/
def StakeUpdated (ctxt ctxt' : Context T) (delegate : T.Pkh) (own staked delegated : Int) : Prop :=
  ∃ before after active, ctxt.stakingBalance.find delegate = some before ∧
    Changed before after own staked delegated ∧
    ctxt' = { ctxt with
      stakingBalance := ctxt.stakingBalance.put delegate (some after)
      activeDelegatesWithMinimalStake := active }

theorem updateStake_updated {f}
    {own staked delegated : Int} (updated : updateStake f ctxt delegate = .ok ctxt')
    (change : ∀ {before after}, f before = .ok after → Changed before after own staked delegated) :
    StakeUpdated ctxt ctxt' delegate own staked delegated := by
  obtain ⟨before, got, updated⟩ := bind_eq_ok.1 updated
  obtain ⟨after, computed, updated⟩ := bind_eq_ok.1 updated
  obtain ⟨balances, written, updated⟩ := bind_eq_ok.1 updated
  have found := get_eq_ok.1 (liftStorage_eq_ok.1 got)
  obtain ⟨-, rfl⟩ := update_eq_ok.1 (liftStorage_eq_ok.1 written)
  obtain ⟨active, active_eq⟩ := updateActiveDelegates_eq
    { ctxt with stakingBalance := ctxt.stakingBalance.add delegate after } delegate
    (hasMinimalStake ctxt before) (hasMinimalStake ctxt after)
  rw [active_eq] at updated
  cases updated
  exact ⟨before, after, active, found, change (liftTez_eq_ok.1 computed), rfl⟩

abbrev Restaked (ctxt ctxt' : Context T) (delegate : T.Pkh) (x : Int) : Prop :=
  StakeUpdated ctxt ctxt' delegate 0 0 x

theorem removeDelegatedStake_eq_ok (removed : removeDelegatedStake ctxt delegate amount = .ok ctxt') :
    Restaked ctxt ctxt' delegate (-amount.mutez) :=
  updateStake_updated removed removeDelegated_changed

theorem addDelegatedStake_eq_ok (added : addDelegatedStake ctxt delegate amount = .ok ctxt') :
    Restaked ctxt ctxt' delegate amount.mutez :=
  updateStake_updated added addDelegated_changed

theorem updateBalance_eq_ok {f} {cycle : Nat} (updated : updateBalance f ctxt delegate cycle = .ok ctxt') :
    ∃ old new entries, f old = .ok new ∧ (∀ included, Saturated (currentUnslashableCycle ctxt) included →
        total .current included entries +
            (if included cycle then old.currentAmount.mutez else 0) =
          total .current included ((ctxt.unstakedFrozenDeposits.find delegate).getD []) +
            if included cycle then new.currentAmount.mutez else 0) ∧
      ctxt' = { ctxt with
        unstakedFrozenDeposits := ctxt.unstakedFrozenDeposits.put delegate (some entries) } := by
  obtain ⟨squashed, got, updated⟩ := bind_eq_ok.1 updated
  obtain ⟨written, updating, updated⟩ := bind_eq_ok.1 updated
  cases updated
  have squashing : squashUnslashable (currentUnslashableCycle ctxt)
      ((ctxt.unstakedFrozenDeposits.find delegate).getD []) = .ok squashed := by
    unfold getAll at got
    cases found : ctxt.unstakedFrozenDeposits.find delegate with
    | none =>
      rw [found] at got
      cases got
      cases currentUnslashableCycle ctxt <;> rfl
    | some entries =>
      rw [found] at got
      exact liftTez_eq_ok.1 got
  obtain ⟨old, new, computed, sums⟩ :=
    update_total squashing cycle (liftTez_eq_ok.1 updating)
  exact ⟨old, new, written.deposits, computed, sums .current, rfl⟩

end

section
variable [DecidableEq T.Pkh] [DecidableEq T.ContractHash]
variable {ctxt ctxt' : Context T}
variable {contract : T.Contract} {amount : Tez}

def ContractRestaked (ctxt ctxt' : Context T) (contract : T.Contract) (x : Int) : Prop :=
  match ctxt.delegate.find contract with
  | none => ctxt' = ctxt
  | some delegate => Restaked ctxt ctxt' delegate x

theorem removeContractDelegatedStake_eq_ok
    (removed : removeContractDelegatedStake ctxt contract amount = .ok ctxt') :
    ContractRestaked ctxt ctxt' contract (-amount.mutez) := by
  unfold removeContractDelegatedStake at removed
  unfold ContractRestaked
  generalize ctxt.delegate.find contract = chosen at removed ⊢
  cases chosen with
  | none =>
    cases removed
    rfl
  | some delegate => exact removeDelegatedStake_eq_ok removed

theorem addContractDelegatedStake_eq_ok (added : addContractDelegatedStake ctxt contract amount = .ok ctxt') :
    ContractRestaked ctxt ctxt' contract amount.mutez := by
  unfold addContractDelegatedStake at added
  unfold ContractRestaked
  generalize ctxt.delegate.find contract = chosen at added ⊢
  cases chosen with
  | none =>
    cases added
    rfl
  | some delegate => exact addDelegatedStake_eq_ok added

theorem delete_eq_ok (undelegated : ctxt.delegate.find contract = none)
    (deleted : delete ctxt contract = .ok ctxt') :
    ∃ managers, ctxt' = { ctxt with
      counter := ctxt.counter.put contract none
      spendableBalance := ctxt.spendableBalance.put contract none
      manager := managers } := by
  cases contract with
  | originated hash => cases deleted
  | implicit pkh =>
    have unlinked : ContractDelegate.unlink ctxt (.implicit pkh) = ctxt := by
      unfold ContractDelegate.unlink
      rw [undelegated]
    unfold delete at deleted
    rw [unlinked] at deleted
    obtain ⟨balances, removed, deleted⟩ := bind_eq_ok.1 deleted
    obtain ⟨managers, -, deleted⟩ := bind_eq_ok.1 deleted
    obtain ⟨counter, uncounted, deleted⟩ := bind_eq_ok.1 deleted
    obtain ⟨-, rfl⟩ := removeExisting_eq_ok.1 (liftStorage_eq_ok.1 removed)
    obtain ⟨-, rfl⟩ := removeExisting_eq_ok.1 (liftStorage_eq_ok.1 uncounted)
    cases deleted
    exact ⟨managers, rfl⟩

theorem not_kept (unkept : shouldKeepEmptyImplicitContract ctxt contract = false) :
    ctxt.delegate.find contract = none ∧ ctxt.totalFrozenBonds.find contract = none := by
  unfold shouldKeepEmptyImplicitContract at unkept
  split at unkept
  · cases unkept
  · rename_i empty
    rw [Bool.or_eq_true, not_or, Bool.not_eq_true, Bool.not_eq_true] at empty
    exact ⟨Option.isSome_eq_false_iff.1 unkept |> Option.isNone_iff_eq_none.1, mem_eq_false.1 empty.1⟩

def Deallocated (ctxt ctxt' : Context T) : Prop :=
  ctxt' = ctxt ∨ ∃ contract,
    ctxt.spendableBalance.find contract = some Tez.zero ∧ ctxt.delegate.find contract = none ∧
      ctxt.totalFrozenBonds.find contract = none ∧
      ∃ managers, ctxt' = { ctxt with
        counter := ctxt.counter.put contract none
        spendableBalance := ctxt.spendableBalance.put contract none
        manager := managers }

theorem ensureDeallocatedIfEmpty_eq_ok
    (ensured : ensureDeallocatedIfEmpty ctxt contract = .ok ctxt') : Deallocated ctxt ctxt' := by
  cases contract with
  | originated hash =>
    cases ensured
    exact .inl rfl
  | implicit pkh =>
    unfold ensureDeallocatedIfEmpty at ensured
    dsimp only at ensured
    split at ensured
    · cases ensured
      exact .inl rfl
    · rename_i balance found
      split at ensured
      · cases ensured
        exact .inl rfl
      · rename_i zero
        rw [ne_eq, not_not] at zero
        subst zero
        split at ensured
        · cases ensured
          exact .inl rfl
        · rename_i unkept
          obtain ⟨undelegated, unbonded⟩ := not_kept (Bool.not_eq_true _ ▸ unkept)
          exact .inr ⟨_, found, undelegated, unbonded, delete_eq_ok undelegated ensured⟩

theorem deallocateGiver_eq_ok {giver}
    (deallocated : deallocateGiver ctxt giver = .ok ctxt') : Deallocated ctxt ctxt' := by
  unfold deallocateGiver at deallocated
  split at deallocated
  · exact ensureDeallocatedIfEmpty_eq_ok deallocated
  · exact ensureDeallocatedIfEmpty_eq_ok deallocated
  · cases deallocated
    exact .inl rfl

def storedTotal (total : Tez) : Option Tez := if total = Tez.zero then none else some total

theorem storeTotalAfterSpending_eq_ok {newTotal : Tez}
    (stored : storeTotalAfterSpending ctxt contract newTotal = .ok ctxt') :
    ctxt' = { ctxt with
      totalFrozenBonds := ctxt.totalFrozenBonds.put contract (storedTotal newTotal) } := by
  unfold storeTotalAfterSpending at stored
  unfold storedTotal
  split at stored
  · rename_i zero
    obtain ⟨totals, removed, stored⟩ := bind_eq_ok.1 stored
    obtain ⟨-, rfl⟩ := removeExisting_eq_ok.1 (liftStorage_eq_ok.1 removed)
    cases stored
    rw [if_pos zero]
    rfl
  · rename_i positive
    obtain ⟨totals, written, stored⟩ := bind_eq_ok.1 stored
    obtain ⟨-, rfl⟩ := update_eq_ok.1 (liftStorage_eq_ok.1 written)
    cases stored
    rw [if_neg positive]
    rfl

omit [DecidableEq T.Pkh] [DecidableEq T.ContractHash] in
theorem creditEntry_eq_ok {Key : Type} [DecidableEq Key] {table : Table Key Tez} {key : Key}
    {set : Table Key Tez → Context T} (credited : (match table.find key with
      | none => do
        let table ← liftStorage (table.init key amount)
        return set table
      | some old => do
        let new ← liftTez (old.add amount)
        let table ← liftStorage (table.update key new)
        return set table : Result T _) = .ok ctxt') :
    ∃ new : Tez, new.mutez = table.weightAt (fun _ tez => tez.mutez) key + amount.mutez ∧
      ctxt' = set (table.put key (some new)) := by
  split at credited
  · rename_i absent
    obtain ⟨written, writing, credited⟩ := bind_eq_ok.1 credited
    obtain ⟨-, rfl⟩ := init_eq_ok.1 (liftStorage_eq_ok.1 writing)
    cases credited
    exact ⟨amount, by rw [weightAt_of_none absent, Nat.zero_add], rfl⟩
  · rename_i old found
    obtain ⟨new, sum, credited⟩ := bind_eq_ok.1 credited
    obtain ⟨written, writing, credited⟩ := bind_eq_ok.1 credited
    obtain ⟨-, rfl⟩ := update_eq_ok.1 (liftStorage_eq_ok.1 writing)
    cases credited
    exact ⟨new, by rw [weightAt_of_find found, add_eq_ok (liftTez_eq_ok.1 sum)], rfl⟩

end

section
variable [DecidableEq T.Pkh] [DecidableEq T.ContractHash] [DecidableEq T.BondId] [DecidableEq T.Bpkh]
variable {ctxt ctxt' : Context T} {amount : Tez}
variable {container : T.Container} {contract : T.Contract} {bondId : T.BondId}

/-- What `x` mutez that enter a container change; when `x` is negative they leave it. -/
inductive Moved (ctxt : Context T) : T.Container → Int → Context T → Prop where
  | contract {contract : _} {new : Tez} {x : Int} {ctxt' : _}
      (change : (new.mutez : Int) =
        ctxt.spendableBalance.weightAt (fun _ balance => balance.mutez) contract + x)
      (restaked : ContractRestaked
        { ctxt with spendableBalance := ctxt.spendableBalance.put contract (some new) }
        ctxt' contract x) : Moved ctxt (.contract contract) x ctxt'
  | allocated {contract : _} {managers : _} (absent : ctxt.spendableBalance.find contract = none)
      (amount : Tez) : Moved ctxt (.contract contract) amount.mutez { ctxt with
        counter := ctxt.counter.put contract (some ctxt.globalCounter)
        spendableBalance := ctxt.spendableBalance.put contract (some amount)
        manager := managers }
  | commitments {bpkh : _} (new : Option Tez) {x : Int}
      (change : ((new.elim 0 fun committed => committed.mutez : Nat) : Int) =
        ctxt.commitments.weightAt (fun _ committed => committed.mutez) bpkh + x) :
      Moved ctxt (.collectedCommitments bpkh) x
        { ctxt with commitments := ctxt.commitments.put bpkh new }
  | nothing {bpkh : _} : Moved ctxt (.collectedCommitments bpkh) 0 ctxt
  | ownFrozen {staker : _} {delegate : T.Pkh} {x : Int} {ctxt' : _}
      (account : accountOf ctxt (.frozenDeposits staker) = .ownFrozen delegate)
      (updated : StakeUpdated ctxt ctxt' delegate x 0 0) : Moved ctxt (.frozenDeposits staker) x ctxt'
  | stakedFrozen {staker : _} {delegate : T.Pkh} {x : Int} {ctxt' : _}
      (account : accountOf ctxt (.frozenDeposits staker) = .stakedFrozen delegate)
      (updated : StakeUpdated ctxt ctxt' delegate 0 x 0) : Moved ctxt (.frozenDeposits staker) x ctxt'
  | unstaked {staker : _} {cycle : Nat} {mid ctxt' : _} {f : _} {x : Int}
      (restaked : Restaked ctxt mid staker.delegate x)
      (updated : updateBalance f mid staker.delegate cycle = .ok ctxt')
      (change : ∀ old new, f old = .ok new →
        (new.currentAmount.mutez : Int) = old.currentAmount.mutez + x) :
      Moved ctxt (.unstakedFrozenDeposits staker cycle) x ctxt'
  | blockFees {fees : Tez} {x : Int} (change : (fees.mutez : Int) = ctxt.collectedFees.mutez + x) :
      Moved ctxt .blockFees x { ctxt with collectedFees := fees }
  | bonds {contract : _} {bondId : T.BondId} {mid : _} (bond total : Option Tez) {x : Int}
      (restaked : ContractRestaked ctxt mid contract x)
      (bond_eq : ((bond.elim 0 fun bond => bond.mutez : Nat) : Int) =
        mid.frozenBonds.weightAt (fun _ bond => bond.mutez) (contract, bondId) + x)
      (total_eq : ((total.elim 0 fun total => total.mutez : Nat) : Int) =
        mid.totalFrozenBonds.weightAt (fun _ total => total.mutez) contract + x) :
      Moved ctxt (.frozenBonds contract bondId) x { mid with
        frozenBonds := mid.frozenBonds.put (contract, bondId) bond
        totalFrozenBonds := mid.totalFrozenBonds.put contract total }

theorem spendContract_moved (spent : spendContract ctxt contract amount = .ok ctxt') :
    Moved ctxt (.contract contract) (-amount.mutez) ctxt' := by
  obtain ⟨new, subtracted, spent⟩ := bind_eq_ok.1 spent
  obtain ⟨balances, written, spent⟩ := bind_eq_ok.1 spent
  obtain ⟨mid, restaked, spent⟩ := bind_eq_ok.1 spent
  obtain ⟨-, h⟩ := unit_bind_eq_ok.1 spent
  cases h
  obtain ⟨present, rfl⟩ := update_eq_ok.1 (liftStorage_eq_ok.1 written)
  obtain ⟨old, found⟩ := mem_eq_true.1 present
  rw [found] at subtracted
  have less : old.mutez = new.mutez + amount.mutez := sub_eq_ok (liftError_eq_ok.1 subtracted)
  refine .contract ?_ (removeContractDelegatedStake_eq_ok restaked)
  rw [weightAt_of_find found]
  omega

theorem creditContract_moved (credited : creditContract ctxt contract amount = .ok ctxt') :
    Moved ctxt (.contract contract) amount.mutez ctxt' := by
  unfold creditContract at credited
  split at credited
  · rename_i absent
    cases contract with
    | originated hash => cases credited
    | implicit manager =>
      obtain ⟨counter, counted, credited⟩ := bind_eq_ok.1 credited
      obtain ⟨balances, written, credited⟩ := bind_eq_ok.1 credited
      obtain ⟨managers, -, credited⟩ := bind_eq_ok.1 credited
      obtain ⟨-, rfl⟩ := init_eq_ok.1 (liftStorage_eq_ok.1 counted)
      obtain ⟨-, rfl⟩ := init_eq_ok.1 (liftStorage_eq_ok.1 written)
      cases credited
      exact .allocated absent amount
  · rename_i old found
    obtain ⟨new, sum, credited⟩ := bind_eq_ok.1 credited
    obtain ⟨balances, written, credited⟩ := bind_eq_ok.1 credited
    obtain ⟨-, rfl⟩ := update_eq_ok.1 (liftStorage_eq_ok.1 written)
    have more := add_eq_ok (liftTez_eq_ok.1 sum)
    refine .contract ?_ (addContractDelegatedStake_eq_ok credited)
    rw [weightAt_of_find found]
    omega

theorem mutez_storedTotal (total : Tez) :
    ((storedTotal total).elim 0 fun stored => stored.mutez) = total.mutez := by
  unfold storedTotal
  split
  · rename_i zero
    rw [zero]
    rfl
  · rfl

theorem spendBond_moved (spent : spendBond ctxt contract bondId amount = .ok ctxt') :
    Moved ctxt (.frozenBonds contract bondId) (-amount.mutez) ctxt' := by
  obtain ⟨-, spent⟩ := unit_bind_eq_ok.1 spent
  obtain ⟨mid, restaked, spent⟩ := bind_eq_ok.1 spent
  obtain ⟨bond, got, spent⟩ := bind_eq_ok.1 spent
  obtain ⟨whole, spent⟩ := unit_bind_eq_ok.1 spent
  obtain ⟨bonds, removed, spent⟩ := bind_eq_ok.1 spent
  obtain ⟨old, got_total, spent⟩ := bind_eq_ok.1 spent
  obtain ⟨new, subtracted, stored⟩ := bind_eq_ok.1 spent
  obtain ⟨-, rfl⟩ := removeExisting_eq_ok.1 (liftStorage_eq_ok.1 removed)
  have same : bond = amount := of_decide_eq_true (errorUnless_eq_ok.1 whole)
  subst same
  cases storeTotalAfterSpending_eq_ok stored
  have less := sub_eq_ok (liftTez_eq_ok.1 subtracted)
  refine .bonds none _ (removeContractDelegatedStake_eq_ok restaked) ?_ ?_
  · simp [weightAt_of_find (get_eq_ok.1 (liftStorage_eq_ok.1 got))]
  · rw [mutez_storedTotal, weightAt_of_find (get_eq_ok.1 (liftStorage_eq_ok.1 got_total))]
    omega

theorem creditBond_moved (credited : creditBond ctxt contract bondId amount = .ok ctxt') :
    Moved ctxt (.frozenBonds contract bondId) amount.mutez ctxt' := by
  obtain ⟨-, credited⟩ := unit_bind_eq_ok.1 credited
  obtain ⟨mid, restaked, credited⟩ := bind_eq_ok.1 credited
  obtain ⟨entered, entry, credited⟩ := bind_eq_ok.1 credited
  obtain ⟨bond, bond_eq, rfl⟩ := creditEntry_eq_ok entry
  obtain ⟨total, total_eq, rfl⟩ := creditEntry_eq_ok credited
  refine .bonds (some bond) (some total) (addContractDelegatedStake_eq_ok restaked) ?_ ?_
  · simp [bond_eq]
  · simp [total_eq]

omit [DecidableEq T.Pkh] [DecidableEq T.ContractHash] [DecidableEq T.BondId] in
theorem mutez_committedAmount (ctxt : Context T) (bpkh : T.Bpkh) : (committedAmount ctxt bpkh).mutez =
      ctxt.commitments.weightAt (fun _ committed => committed.mutez) bpkh := by
  unfold committedAmount weightAt
  cases ctxt.commitments.find bpkh <;> rfl

theorem spendContainer_moved (spent : spendContainer ctxt container amount = .ok ctxt') :
    Moved ctxt container (-amount.mutez) ctxt' := by
  cases container with
  | contract giver => exact spendContract_moved spent
  | collectedCommitments bpkh =>
    obtain ⟨new, subtracted, spent⟩ := bind_eq_ok.1 spent
    have less := sub_eq_ok (liftTez_eq_ok.1 subtracted)
    rw [mutez_committedAmount] at less
    cases spent
    split
    · rename_i zero
      apply Moved.commitments none
      rw [zero] at less
      simp [less, Tez.zero]
    · apply Moved.commitments (some new)
      simp [less]
  | frozenDeposits staker =>
    cases staker with
    | baker | bakerEdge => exact .ownFrozen rfl (updateStake_updated spent removeOwnFrozen_changed)
    | singleStaker | sharedBetweenStakers =>
      exact .stakedFrozen rfl (updateStake_updated spent removeStakedFrozen_changed)
  | unstakedFrozenDeposits staker cycle =>
    obtain ⟨mid, removed, updated⟩ := bind_eq_ok.1 spent
    exact .unstaked (removeDelegatedStake_eq_ok removed) updated fun _ _ => spendFromDeposits_eq_ok
  | blockFees =>
    obtain ⟨fees, subtracted, spent⟩ := bind_eq_ok.1 spent
    cases spent
    exact .blockFees (by simp [sub_eq_ok (liftTez_eq_ok.1 subtracted)])
  | frozenBonds giver bondId => exact spendBond_moved spent

theorem creditContainer_moved (credited : creditContainer ctxt container amount = .ok ctxt') :
    Moved ctxt container amount.mutez ctxt' := by
  cases container with
  | contract receiver => exact creditContract_moved credited
  | collectedCommitments bpkh =>
    rw [creditContainer, increaseCommitment] at credited
    split at credited
    · rename_i zero
      cases credited
      rw [zero]
      exact .nothing
    · obtain ⟨new, sum, credited⟩ := bind_eq_ok.1 credited
      cases credited
      apply Moved.commitments (some new)
      rw [← mutez_committedAmount, Option.elim_some, add_eq_ok (liftTez_eq_ok.1 sum)]
      omega
  | frozenDeposits staker =>
    cases staker with
    | baker | bakerEdge => exact .ownFrozen rfl (updateStake_updated credited addOwnFrozen_changed)
    | singleStaker | sharedBetweenStakers =>
      exact .stakedFrozen rfl (updateStake_updated credited addStakedFrozen_changed)
  | unstakedFrozenDeposits staker cycle =>
    obtain ⟨mid, added, updated⟩ := bind_eq_ok.1 credited
    exact .unstaked (addDelegatedStake_eq_ok added) updated fun _ _ => addToDeposits_eq_ok
  | blockFees =>
    obtain ⟨fees, sum, credited⟩ := bind_eq_ok.1 credited
    cases credited
    exact .blockFees (by simp [add_eq_ok (liftTez_eq_ok.1 sum)])
  | frozenBonds receiver bondId => exact creditBond_moved credited

end

section
variable [DecidableEq T.Pkh] [DecidableEq T.ContractHash] [DecidableEq T.BondId] [DecidableEq T.Bpkh]
variable {ctxt ctxt' : Context T} {Origin : Type}
variable {givers : List (T.Giver × Tez)}
variable {receiver : T.Receiver} {origin : Origin}

def nonzero (givers : List (T.Giver × Tez)) : List (T.Giver × Tez) :=
  givers.filter fun giver => giver.2 ≠ Tez.zero

def debitOf (origin : Origin) (giver : T.Giver × Tez) :
    BalanceUpdateItem T.Balance Origin :=
  ⟨giver.1.receipt, .debited giver.2, origin⟩

theorem withdraw_eq_ok {state state' : Withdrawal T Origin} {giver}
    (withdrawn : withdraw origin state giver = .ok state') :
    spendGiver state.ctxt giver.1 giver.2 = .ok state'.ctxt ∧
      state'.total.mutez = giver.2.mutez + state.total.mutez ∧
      state'.debitLogs = debitOf origin giver :: state.debitLogs := by
  obtain ⟨⟨spent, debitLog⟩, spending, withdrawn⟩ := bind_eq_ok.1 withdrawn
  obtain ⟨mid, giving, spending⟩ := bind_eq_ok.1 spending
  cases spending
  obtain ⟨total, sum, withdrawn⟩ := bind_eq_ok.1 withdrawn
  cases withdrawn
  exact ⟨giving, add_eq_ok (liftTez_eq_ok.1 sum), rfl⟩

theorem transferN_eq_ok {updates}
    (transferred : transferN origin ctxt givers receiver = .ok (ctxt', updates)) :
    (nonzero givers = [] ∧ ctxt' = ctxt ∧ updates = []) ∨
    nonzero givers ≠ [] ∧ ∃ withdrawn mid,
      (nonzero givers).foldlM (withdraw origin) ⟨ctxt, Tez.zero, []⟩ = .ok withdrawn ∧
      creditReceiver withdrawn.ctxt receiver withdrawn.total = .ok mid ∧
      (nonzero givers).foldlM deallocateGiver mid = .ok ctxt' ∧
      updates = withdrawn.debitLogs.reverse ++ [⟨receiver.receipt, .credited withdrawn.total, origin⟩] := by
  unfold transferN at transferred
  split at transferred
  · rename_i empty
    cases transferred
    exact .inl ⟨empty, rfl, rfl⟩
  · rename_i some_giver
    obtain ⟨withdrawn, withdrawing, transferred⟩ := bind_eq_ok.1 transferred
    obtain ⟨⟨mid, creditLog⟩, crediting, transferred⟩ := bind_eq_ok.1 transferred
    obtain ⟨credited, credit_eq, logged⟩ := bind_eq_ok.1 crediting
    cases logged
    obtain ⟨deallocated, deallocating, h⟩ := bind_eq_ok.1 transferred
    cases h
    refine .inr ⟨some_giver, withdrawn, mid, withdrawing, credit_eq, deallocating, ?_⟩
    exact List.reverse_cons

end

end Octez.Proof.Token
