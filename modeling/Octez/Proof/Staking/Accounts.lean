import Octez.Proof.Staking.Transfers

namespace Octez.Proof.Staking
open Octez.Lib Octez.Staking
open Octez.Slashing (FullStakingBalance Deposits)
variable {Pkh : Type}

section Accounts
variable [DecidableEq Pkh]

/-- Only one term changes, and it is among those of the larger sum. -/
theorem sum_add_le {f g : Pkh → Nat} {contract : Pkh} {taken given : Nat} (contracts : Finset Pkh)
    (others : ∀ other, other ≠ contract → g other = f other)
    (changed : g contract + taken ≤ f contract + given) :
    ∑ other ∈ contracts, g other + taken ≤ ∑ other ∈ insert contract contracts, f other + given := by
  have rest : ∑ other ∈ contracts.erase contract, g other =
      ∑ other ∈ contracts.erase contract, f other :=
    Finset.sum_congr rfl fun other within => others other (Finset.ne_of_mem_erase within)
  have before : ∑ other ∈ insert contract contracts, f other =
      f contract + ∑ other ∈ contracts.erase contract, f other := by
    rw [← Finset.erase_insert_eq_erase, Finset.add_sum_erase _ _ (Finset.mem_insert_self _ _)]
  have now : ∑ other ∈ contracts, g other ≤
      g contract + ∑ other ∈ contracts.erase contract, g other := by
    rw [← Finset.erase_insert_eq_erase, Finset.add_sum_erase _ _ (Finset.mem_insert_self _ _)]
    exact Finset.sum_le_sum_of_subset (Finset.subset_insert _ _)
  omega

def balanceFor (ctxt : Context Pkh) (delegate contract : Pkh) : Nat :=
  if ctxt.delegate contract = some delegate then (ctxt.balance contract).mutez else 0

def everyCycle : Nat → Bool := fun _ => true

structure Accounts (ctxt : Context Pkh) : Prop where
  sorted : ∀ delegate, SortedAssoc.Sorted (ctxt.unstakedFrozenDeposits delegate)
  covered : ∀ delegate (contracts : Finset Pkh),
    ∑ contract ∈ contracts, balanceFor ctxt delegate contract +
      total .current everyCycle (ctxt.unstakedFrozenDeposits delegate) ≤ delegatedTo ctxt delegate

structure Withdrawn (before after : Context Pkh) (taken : Pkh → (Nat → Bool) → Nat) : Prop where
  same : SameRecords before after
  accounts : Accounts after
  current : ∀ delegate included, Saturated (currentUnslashableCycle before) included →
    total .current included (before.unstakedFrozenDeposits delegate) =
      total .current included (after.unstakedFrozenDeposits delegate) + taken delegate included
  initial : ∀ delegate included, Saturated (currentUnslashableCycle before) included →
    total .initial included (after.unstakedFrozenDeposits delegate) =
      total .initial included (before.unstakedFrozenDeposits delegate)

structure Deposited (before after : Context Pkh) (given : Pkh → (Nat → Bool) → Nat) : Prop where
  same : SameRecords before after
  accounts : Accounts after
  added : ∀ amount delegate included, Saturated (currentUnslashableCycle before) included →
    total amount included (after.unstakedFrozenDeposits delegate) =
      total amount included (before.unstakedFrozenDeposits delegate) + given delegate included

def nothing : Pkh → (Nat → Bool) → Nat := fun _ _ => 0

def tezOfCycle (delegate : Pkh) (cycle : Nat) (amount : Tez) : Pkh → (Nat → Bool) → Nat :=
  fun other included => if other = delegate ∧ included cycle then amount.mutez else 0

variable {ctxt after : Context Pkh} {amount : Tez}

theorem Deposited.withdrawn (deposited : Deposited ctxt after nothing) :
    Withdrawn ctxt after nothing :=
  ⟨deposited.same, deposited.accounts,
    fun delegate included saturated => (deposited.added .current delegate included saturated).symm,
    deposited.added .initial⟩

theorem Deposited.of_accounts (same : SameRecords ctxt after) (accounts : Accounts after)
    (deposits : after.unstakedFrozenDeposits = ctxt.unstakedFrozenDeposits) :
    Deposited ctxt after nothing := by
  refine ⟨same, accounts, ?_⟩
  intro amount delegate included _
  rw [deposits]
  rfl

/-- One account and the tez delegated to its delegates change by the same amounts. -/
theorem Accounts.redelegated (contract : Pkh) (accounts : Accounts ctxt)
    (deposits : after.unstakedFrozenDeposits = ctxt.unstakedFrozenDeposits)
    (others : ∀ delegate other, other ≠ contract →
      balanceFor after delegate other = balanceFor ctxt delegate other)
    (moved : ∀ delegate, delegatedTo ctxt delegate + balanceFor after delegate contract =
      delegatedTo after delegate + balanceFor ctxt delegate contract) :
    Accounts after := by
  refine ⟨deposits ▸ accounts.sorted, ?_⟩
  intro delegate contracts
  have covered := accounts.covered delegate (insert contract contracts)
  have sum := sum_add_le contracts (others delegate) (Nat.add_comm _ _).le
  have change := moved delegate
  rw [deposits]
  omega

variable {x : Int} {delegate : Pkh} {cycle : Nat} {staker : FrozenStaker Pkh} {mid : Context Pkh}

theorem Accounts.contract (accounts : Accounts ctxt) {contract : Pkh}
    (moved : Moved ctxt after x (.contract contract)) : Deposited ctxt after nothing := by
  obtain ⟨balance, changed, restaked⟩ := moved
  have only := restaked.only
  have balances : after.balance = Function.update ctxt.balance contract balance := by rw [only]
  have delegates : after.delegate = ctxt.delegate := by rw [only]
  have deposits : after.unstakedFrozenDeposits = ctxt.unstakedFrozenDeposits := by rw [only]
  refine .of_accounts (by rw [only]; rfl) (accounts.redelegated contract deposits ?_ ?_) deposits
  · intro delegate other differs
    simp only [balanceFor, balances, delegates, Function.update_of_ne differs]
  · intro delegate
    have change : (delegatedTo after delegate : Int) = delegatedTo ctxt delegate + _ :=
      restaked.delegated delegate
    simp only [balanceFor, balances, delegates, Function.update_self, ofDelegate] at change ⊢
    split_ifs at change ⊢ <;> omega

theorem Accounts.frozen (accounts : Accounts ctxt)
    (moved : Moved ctxt after x (.frozenDeposits staker)) : Deposited ctxt after nothing := by
  have only := moved.only
  refine .of_accounts (by rw [only]; rfl) ⟨by rw [only]; exact accounts.sorted, ?_⟩ (by rw [only])
  intro delegate contracts
  have kept : (delegatedTo after delegate : Int) = delegatedTo ctxt delegate + 0 :=
    moved.delegated delegate
  rw [show delegatedTo after delegate = delegatedTo ctxt delegate by omega, only]
  exact accounts.covered delegate contracts

theorem Accounts.updateUnstaked (accounts : Accounts ctxt) {f}
    (only : mid = { ctxt with stakingBalance := mid.stakingBalance })
    (h : UnstakedFrozenDeposits.updateBalance f mid delegate cycle = .ok after) :
    SameRecords ctxt after ∧ (∀ other, SortedAssoc.Sorted (after.unstakedFrozenDeposits other)) ∧
      after.balance = ctxt.balance ∧ delegatedTo after = delegatedTo mid ∧ ∃ old new, f old = .ok new ∧
        (∀ amount : Amount, amount.of old = total amount (readWith (currentUnslashableCycle ctxt) cycle)
          (ctxt.unstakedFrozenDeposits delegate)) ∧
        ∀ (amount : Amount) other included, Saturated (currentUnslashableCycle ctxt) included →
          total amount included (after.unstakedFrozenDeposits other) +
              (if other = delegate ∧ included cycle then amount.of old else 0) =
            total amount included (ctxt.unstakedFrozenDeposits other) +
              if other = delegate ∧ included cycle then amount.of new else 0 := by
  have deposits_mid : mid.unstakedFrozenDeposits = ctxt.unstakedFrozenDeposits := by rw [only]
  have unslashable_mid : currentUnslashableCycle mid = currentUnslashableCycle ctxt := by
    rw [only]
    rfl
  obtain ⟨squashed, all, h⟩ := bind_eq_ok.1 h
  obtain ⟨updated, written, h⟩ := bind_eq_ok.1 h
  cases h
  have squash := liftTez_eq_ok.1 all
  rw [deposits_mid, unslashable_mid] at squash
  obtain ⟨new, computed, sorted, sums⟩ :=
    update_spec (accounts.sorted delegate) squash cycle (liftTez_eq_ok.1 written)
  refine ⟨?_, ?_, by rw [only], rfl, _, new, computed,
    fun amount => get_spec amount (accounts.sorted delegate) squash cycle, ?_⟩
  · rw [only]
    rfl
  · intro other
    simp only [deposits_mid]
    by_cases same : other = delegate
    · rw [same, Function.update_self]
      exact sorted
    · rw [Function.update_of_ne same]
      exact accounts.sorted other
  · intro amount other included saturated
    rw [deposits_mid]
    by_cases same : other = delegate
    · simpa [same] using sums amount included saturated
    · simp [same]

theorem covered_of_balances (same : SameRecords ctxt mid)
    (balances : mid.balance = ctxt.balance) (delegate : Pkh) (contracts : Finset Pkh) :
    ∑ contract ∈ contracts, balanceFor mid delegate contract =
      ∑ contract ∈ contracts, balanceFor ctxt delegate contract := by
  simp only [balanceFor, balances, same.delegate]

section
variable (accounts : Accounts ctxt)
include accounts

theorem Accounts.unstaked (moved : Moved ctxt after x (.unstakedFrozenDeposits delegate cycle)) :
    Accounts after ∧ ∀ other included, Saturated (currentUnslashableCycle ctxt) included →
        (total .current included (after.unstakedFrozenDeposits other) : Int) =
            total .current included (ctxt.unstakedFrozenDeposits other) +
              (if other = delegate ∧ included cycle then x else 0) ∧
          (total .initial included (after.unstakedFrozenDeposits other) : Int) =
            total .initial included (ctxt.unstakedFrozenDeposits other) +
              if other = delegate ∧ included cycle then max x 0 else 0 := by
  obtain ⟨mid, f, restaked, h, computes⟩ := moved
  obtain ⟨same, sorted, balances, delegated, old, new, computed, -, sums⟩ :=
    accounts.updateUnstaked restaked.only h
  obtain ⟨current, initial⟩ := computes old new computed
  have changes : ∀ other included, Saturated (currentUnslashableCycle ctxt) included →
      (total .current included (after.unstakedFrozenDeposits other) : Int) =
        total .current included (ctxt.unstakedFrozenDeposits other) +
          if other = delegate ∧ included cycle then x else 0 := by
    intro other included saturated
    have sum := sums .current other included saturated
    simp only [Amount.of] at sum
    split_ifs at sum ⊢ <;> omega
  refine ⟨⟨sorted, ?_⟩, ?_⟩
  · intro other contracts
    have covered := accounts.covered other contracts
    have change := changes other everyCycle fun _ => rfl
    have delegatedChange := restaked.delegated other
    rw [covered_of_balances same balances, delegated]
    simp only [everyCycle, ofDelegate, and_true, Option.some.injEq, @eq_comm _ delegate]
      at change delegatedChange covered ⊢
    omega
  · intro other included saturated
    refine ⟨changes other included saturated, ?_⟩
    have sum := sums .initial other included saturated
    simp only [Amount.of] at sum
    split_ifs at sum ⊢ <;> omega

theorem Accounts.spendUnstaked
    (moved : Moved ctxt after (-amount.mutez) (.unstakedFrozenDeposits delegate cycle)) :
    Withdrawn ctxt after (tezOfCycle delegate cycle amount) := by
  obtain ⟨covered, changes⟩ := accounts.unstaked moved
  refine ⟨moved.same, covered, ?_, ?_⟩
  · intro other included saturated
    have current := (changes other included saturated).1
    unfold tezOfCycle
    split_ifs at current ⊢ <;> omega
  · intro other included saturated
    have initial := (changes other included saturated).2
    split_ifs at initial <;> omega

theorem Accounts.creditUnstaked
    (moved : Moved ctxt after amount.mutez (.unstakedFrozenDeposits delegate cycle)) :
    Deposited ctxt after (tezOfCycle delegate cycle amount) := by
  obtain ⟨covered, changes⟩ := accounts.unstaked moved
  refine ⟨moved.same, covered, ?_⟩
  intro kind other included saturated
  obtain ⟨current, initial⟩ := changes other included saturated
  unfold tezOfCycle
  cases kind <;> split_ifs at current initial ⊢ <;> omega

theorem Accounts.totalSupply (totalSupply : Tez) :
    Deposited ctxt { ctxt with totalSupply } nothing :=
  .of_accounts rfl ⟨accounts.sorted, accounts.covered⟩ rfl

theorem Accounts.written
    (unstakeRequests : Map Pkh (StoredRequests Pkh)) : Accounts { ctxt with unstakeRequests } :=
  ⟨accounts.sorted, accounts.covered⟩

end

def drawn (giver : Giver Pkh × Tez) : Pkh → (Nat → Bool) → Nat :=
  match giver.1 with
  | .container (.unstakedFrozenDeposits delegate cycle) => tezOfCycle delegate cycle giver.2
  | _ => nothing

def taken (givers : List (Giver Pkh × Tez)) : Pkh → (Nat → Bool) → Nat :=
  fun delegate included => (givers.map fun giver => drawn giver delegate included).sum

def received (receiver : Receiver Pkh) (amount : Tez) : Pkh → (Nat → Bool) → Nat :=
  match receiver with
  | .container (.unstakedFrozenDeposits delegate cycle) => tezOfCycle delegate cycle amount
  | _ => nothing

theorem Accounts.spend (accounts : Accounts ctxt) {giver : Giver Pkh × Tez}
    (h : spend ctxt giver.1 giver.2 = .ok after) : Withdrawn ctxt after (drawn giver) := by
  obtain ⟨giver, amount⟩ := giver
  cases giver with
  | infiniteSource =>
    obtain ⟨totalSupply, -, h⟩ := bind_eq_ok.1 h
    cases h
    exact (accounts.totalSupply totalSupply).withdrawn
  | container container =>
    have moved := spend_moved h
    cases container with
    | contract contract => exact (accounts.contract moved).withdrawn
    | frozenDeposits staker => exact (accounts.frozen moved).withdrawn
    | unstakedFrozenDeposits delegate cycle => exact accounts.spendUnstaked moved

variable {receiver : Receiver Pkh}

theorem Accounts.credit (accounts : Accounts ctxt) (h : credit ctxt receiver amount = .ok after) :
    Deposited ctxt after (received receiver amount) := by
  cases receiver with
  | infiniteSink =>
    obtain ⟨totalSupply, -, h⟩ := bind_eq_ok.1 h
    cases h
    exact accounts.totalSupply totalSupply
  | container container =>
    have moved := credit_moved h
    cases container with
    | contract contract => exact accounts.contract moved
    | frozenDeposits staker => exact accounts.frozen moved
    | unstakedFrozenDeposits delegate cycle => exact accounts.creditUnstaked moved

section Transfer
variable {mid : Context Pkh} {first second : Pkh → (Nat → Bool) → Nat}

theorem Withdrawn.rfl (accounts : Accounts ctxt) : Withdrawn ctxt ctxt nothing :=
  ⟨.rfl, accounts, fun _ _ _ => Eq.refl _, fun _ _ _ => Eq.refl _⟩

theorem Withdrawn.trans (earlier : Withdrawn ctxt mid first) (later : Withdrawn mid after second) :
    Withdrawn ctxt after fun delegate included => first delegate included + second delegate included := by
  have unslashable := earlier.same.currentUnslashableCycle
  refine ⟨earlier.same.trans later.same, later.accounts, ?_, ?_⟩
  · intro delegate included saturated
    rw [earlier.current delegate included saturated,
      later.current delegate included (unslashable ▸ saturated)]
    omega
  · intro delegate included saturated
    rw [later.initial delegate included (unslashable ▸ saturated),
      earlier.initial delegate included saturated]

theorem Withdrawn.congr (withdrawn : Withdrawn ctxt after first)
    (same : ∀ delegate included, first delegate included = second delegate included) :
    Withdrawn ctxt after second := by
  obtain rfl : first = second := funext₂ same
  exact withdrawn

variable {givers : List (Giver Pkh × Tez)}

theorem Accounts.withdraws {start stop : Tez} (accounts : Accounts ctxt)
    (h : givers.foldlM withdraw (ctxt, start) = .ok (after, stop)) :
    Withdrawn ctxt after (taken givers) := by
  induction givers generalizing ctxt start with
  | nil =>
    cases h
    exact .rfl accounts
  | cons giver givers ih =>
    obtain ⟨⟨mid, middle⟩, withdrawn, h⟩ := bind_eq_ok.1 h
    have head := accounts.spend (withdraw_eq_ok withdrawn).1
    exact head.trans (ih head.accounts h)

theorem drawn_zero (giver : Giver Pkh) : drawn (giver, Tez.zero) = nothing := by
  rcases giver with _ | (_ | _ | ⟨delegate, cycle⟩)
  case container.unstakedFrozenDeposits =>
    funext other included
    simp [drawn, tezOfCycle, nothing, Tez.zero]
  all_goals rfl

theorem taken_filter (givers : List (Giver Pkh × Tez)) :
    taken (givers.filter fun giver => giver.2 ≠ Tez.zero) = taken givers := by
  funext delegate included
  induction givers with
  | nil => rfl
  | cons giver givers ih =>
    by_cases empty : giver.2 = Tez.zero
    · have none : drawn giver delegate included = 0 := by
        obtain ⟨giver, amount⟩ := giver
        simp only at empty
        rw [empty, drawn_zero]
        rfl
      rw [List.filter_cons_of_neg (by simpa using empty), ih]
      simp only [taken, List.map_cons, List.sum_cons, none, Nat.zero_add]
    · rw [List.filter_cons_of_pos (by simpa using empty)]
      simp only [taken, List.map_cons, List.sum_cons] at ih ⊢
      rw [ih]

theorem Accounts.transferN
    (accounts : Accounts ctxt) (ordinary : ∀ amount, received receiver amount = nothing)
    (h : transferN ctxt givers receiver = .ok after) : Withdrawn ctxt after (taken givers) := by
  rw [← taken_filter]
  unfold Octez.Staking.transferN at h
  split at h
  · rename_i empty
    cases h
    rw [empty]
    exact .rfl accounts
  · obtain ⟨⟨mid, amount⟩, withdrawn, h⟩ := bind_eq_ok.1 h
    have withdrawal := accounts.withdraws withdrawn
    have deposit := withdrawal.accounts.credit h
    rw [ordinary amount] at deposit
    exact withdrawal.trans deposit.withdrawn

theorem Accounts.transfer {giver : Giver Pkh} (accounts : Accounts ctxt)
    (ordinary : ∀ amount, received receiver amount = nothing)
    (h : transfer ctxt giver receiver amount = .ok after) :
    Withdrawn ctxt after (drawn (giver, amount)) := by
  have single : taken [(giver, amount)] = drawn (giver, amount) := by
    funext delegate included
    simp [taken]
  exact single ▸ accounts.transferN ordinary h

theorem mutez_injective {tez1 tez2 : Tez} (same : tez1.mutez = tez2.mutez) : tez1 = tez2 := by
  cases tez1
  cases tez2
  subst same
  rfl

theorem Accounts.transferFrozen (accounts : Accounts ctxt)
    (h : Octez.Staking.transfer ctxt (.container (.frozenDeposits staker))
      (.container (.unstakedFrozenDeposits delegate cycle)) amount = .ok after) :
    Deposited ctxt after (tezOfCycle delegate cycle amount) := by
  unfold Octez.Staking.transfer Octez.Staking.transferN at h
  by_cases empty : amount = Tez.zero
  · rw [List.filter_cons_of_neg (by simpa using empty)] at h
    cases h
    have none : tezOfCycle delegate cycle amount = nothing := by
      funext other included
      simp [tezOfCycle, nothing, empty, Tez.zero]
    exact none ▸ .of_accounts .rfl accounts rfl
  · rw [List.filter_cons_of_pos (by simpa using empty)] at h
    obtain ⟨⟨mid, total⟩, withdrawals, credited⟩ := bind_eq_ok.1 h
    obtain ⟨⟨mid', total'⟩, withdrawal, nil⟩ := bind_eq_ok.1 withdrawals
    cases nil
    obtain ⟨spent, spending, withdrawn⟩ := bind_eq_ok.1 withdrawal
    obtain ⟨sum, added, withdrawn⟩ := bind_eq_ok.1 withdrawn
    cases withdrawn
    have whole : total = amount := mutez_injective (add_eq_ok (liftTez_eq_ok.1 added))
    subst whole
    have removal := accounts.frozen (spend_moved spending)
    have deposit := removal.accounts.creditUnstaked (credit_moved credited)
    have unslashable := removal.same.currentUnslashableCycle
    refine ⟨removal.same.trans deposit.same, deposit.accounts, ?_⟩
    intro kind other included saturated
    rw [deposit.added kind other included (unslashable ▸ saturated),
      removal.added kind other included saturated]
    rfl

theorem Accounts.decreaseInitialAmount (accounts : Accounts ctxt)
    (h : UnstakedFrozenDeposits.decreaseInitialAmount ctxt delegate cycle amount =
      .ok after) :
    SameRecords ctxt after ∧ Accounts after ∧
      ∀ other included, Saturated (currentUnslashableCycle ctxt) included →
        total .current included (after.unstakedFrozenDeposits other) =
            total .current included (ctxt.unstakedFrozenDeposits other) ∧
          total .initial included (ctxt.unstakedFrozenDeposits other) =
            total .initial included (after.unstakedFrozenDeposits other) +
              tezOfCycle delegate cycle amount other included := by
  obtain ⟨same, sorted, balances, delegated, old, new, computed, -, sums⟩ :=
    accounts.updateUnstaked (show ctxt = { ctxt with stakingBalance := ctxt.stakingBalance } from rfl) h
  obtain ⟨initialAmount, subtracted, computed⟩ := bind_eq_ok.1 computed
  cases computed
  have less := sub_eq_ok subtracted
  have current : ∀ other included, Saturated (currentUnslashableCycle ctxt) included →
      total .current included (after.unstakedFrozenDeposits other) =
        total .current included (ctxt.unstakedFrozenDeposits other) := by
    intro other included saturated
    have sum := sums .current other included saturated
    simp only [Amount.of] at sum
    omega
  refine ⟨same, ⟨sorted, ?_⟩, ?_⟩
  · intro other contracts
    rw [covered_of_balances same balances, delegated, current other everyCycle fun _ => rfl]
    exact accounts.covered other contracts
  · intro other included saturated
    refine ⟨current other included saturated, ?_⟩
    have sum := sums .initial other included saturated
    simp only [tezOfCycle, Amount.of] at sum ⊢
    split_ifs at sum ⊢ <;> omega

end Transfer

end Accounts

end Octez.Proof.Staking
