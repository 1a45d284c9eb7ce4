import Octez.Proof.Token.Effects

namespace Octez.Proof.Token
open Octez.Lib Octez.Token Table
open Octez.Slashing (Deposits)
open Octez.Proof.Staking (total)

variable {T : TokenTypes} {Origin : Type}
variable [DecidableEq T.Pkh] [DecidableEq T.ContractHash]

def bondsOf (ctxt : Context T) (contract : T.Contract) : Nat :=
  ctxt.frozenBonds.total fun key bond => if key.1 = contract then bond.mutez else 0

def ownedBy (ctxt : Context T) (contract : T.Contract) : Nat :=
  ctxt.spendableBalance.weightAt (fun _ balance => balance.mutez) contract + bondsOf ctxt contract

def unstakedOf (ctxt : Context T) (delegate : T.Pkh) : Nat :=
  ctxt.unstakedFrozenDeposits.weightAt (fun _ entries => currentAmounts entries) delegate

def delegatedTo (ctxt : Context T) (delegate : T.Pkh) : Nat :=
  ctxt.delegate.total (fun contract chosen => if chosen = delegate then ownedBy ctxt contract else 0) +
    unstakedOf ctxt delegate

structure Exact (ctxt : Context T) : Prop where
  delegated : ∀ delegate, registered ctxt delegate = true →
    ∃ balance, ctxt.stakingBalance.find delegate = some balance ∧
      balance.delegated.mutez = delegatedTo ctxt delegate
  bonds : ∀ contract,
    ctxt.totalFrozenBonds.weightAt (fun _ total => total.mutez) contract = bondsOf ctxt contract

/-- How the tables refer to each other, in every storage that the protocol builds. -/
structure WellFormed (ctxt : Context T) : Prop where
  delegator_allocated : ∀ contract delegate, ctxt.delegate.find contract = some delegate →
    allocated ctxt contract = true
  delegate_registered : ∀ contract delegate, ctxt.delegate.find contract = some delegate →
    registered ctxt delegate = true
  staking_registered : ∀ delegate, ctxt.stakingBalance.mem delegate = true →
    registered ctxt delegate = true
  unstaked_registered : ∀ delegate, ctxt.unstakedFrozenDeposits.mem delegate = true →
    registered ctxt delegate = true

structure Shift (ctxt ctxt' : Context T) (owned field : T.Pkh → Int) : Prop where
  delegate : ctxt'.delegate = ctxt.delegate
  delegates : ctxt'.delegates = ctxt.delegates
  allocated : ∀ contract delegate, ctxt.delegate.find contract = some delegate →
    allocated ctxt contract = true → allocated ctxt' contract = true
  staking : ∀ delegate, ctxt'.stakingBalance.mem delegate = true →
    ctxt.stakingBalance.mem delegate = true
  unstaked : ∀ delegate, ctxt'.unstakedFrozenDeposits.mem delegate = true →
    ctxt.unstakedFrozenDeposits.mem delegate = true ∨ ctxt.stakingBalance.mem delegate = true
  bonds : ∀ contract,
    (ctxt'.totalFrozenBonds.weightAt (fun _ total => total.mutez) contract : Int) -
        bondsOf ctxt' contract =
      ctxt.totalFrozenBonds.weightAt (fun _ total => total.mutez) contract - bondsOf ctxt contract
  owned : ∀ delegate,
    (delegatedTo ctxt' delegate : Int) = delegatedTo ctxt delegate + owned delegate
  field : ∀ delegate before, ctxt.stakingBalance.find delegate = some before →
    ∃ after, ctxt'.stakingBalance.find delegate = some after ∧
      (after.delegated.mutez : Int) = before.delegated.mutez + field delegate

namespace Shift
variable {ctxt mid ctxt' : Context T}
variable {owned owned' field field' : T.Pkh → Int}

theorem trans (first : Shift ctxt mid owned field) (second : Shift mid ctxt' owned' field') :
    Shift ctxt ctxt' (owned + owned') (field + field') where
  delegate := second.delegate.trans first.delegate
  delegates := second.delegates.trans first.delegates
  allocated contract delegate found present := by
    apply second.allocated contract delegate
    · rw [first.delegate, found]
    · exact first.allocated contract delegate found present
  staking delegate present := first.staking delegate (second.staking delegate present)
  unstaked delegate present := by
    rcases second.unstaked delegate present with present | present
    · exact first.unstaked delegate present
    · exact .inr (first.staking delegate present)
  bonds contract := (second.bonds contract).trans (first.bonds contract)
  owned delegate := by rw [second.owned, first.owned, Int.add_assoc, Pi.add_apply]
  field delegate before found := by
    obtain ⟨between, found, between_eq⟩ := first.field delegate before found
    obtain ⟨after, found, after_eq⟩ := second.field delegate between found
    exact ⟨after, found, by rw [after_eq, between_eq, Int.add_assoc, Pi.add_apply]⟩

theorem congr (shift : Shift ctxt ctxt' owned field) (same_owned : owned' = owned)
    (same_field : field' = field) : Shift ctxt ctxt' owned' field' := by
  subst same_owned same_field
  exact shift

structure SameDelegations (ctxt ctxt' : Context T) : Prop where
  delegate : ctxt'.delegate = ctxt.delegate
  delegates : ctxt'.delegates = ctxt.delegates
  spendableBalance : ctxt'.spendableBalance = ctxt.spendableBalance
  frozenBonds : ctxt'.frozenBonds = ctxt.frozenBonds
  totalFrozenBonds : ctxt'.totalFrozenBonds = ctxt.totalFrozenBonds
  stakingBalance : ctxt'.stakingBalance = ctxt.stakingBalance
  unstakedFrozenDeposits : ctxt'.unstakedFrozenDeposits = ctxt.unstakedFrozenDeposits

theorem of_same (same : SameDelegations ctxt ctxt') : Shift ctxt ctxt' 0 0 where
  delegate := same.delegate
  delegates := same.delegates
  allocated contract delegate found present := by
    unfold Octez.Token.allocated at present ⊢
    rw [same.spendableBalance, present]
  staking delegate present := by rwa [same.stakingBalance] at present
  unstaked delegate present := by
    rw [same.unstakedFrozenDeposits] at present
    exact .inl present
  bonds contract := by simp only [bondsOf, same.totalFrozenBonds, same.frozenBonds]
  owned delegate := by
    simp [delegatedTo, ownedBy, bondsOf, unstakedOf, same.delegate, same.spendableBalance,
      same.frozenBonds, same.unstakedFrozenDeposits]
  field delegate before found := ⟨before, by rw [same.stakingBalance, found], by simp⟩

theorem registered_eq (shift : Shift ctxt ctxt' owned field) (delegate : T.Pkh) :
    registered ctxt' delegate = registered ctxt delegate := by
  rw [registered, shift.delegates, registered]

theorem wellFormed (shift : Shift ctxt ctxt' owned field) (wf : WellFormed ctxt) : WellFormed ctxt' where
  delegator_allocated contract delegate found := by
    rw [shift.delegate] at found
    exact shift.allocated contract delegate found (wf.delegator_allocated contract delegate found)
  delegate_registered contract delegate found := by
    rw [shift.delegate] at found
    rw [shift.registered_eq]
    exact wf.delegate_registered contract delegate found
  staking_registered delegate present := by
    rw [shift.registered_eq]
    exact wf.staking_registered delegate (shift.staking delegate present)
  unstaked_registered delegate present := by
    rw [shift.registered_eq]
    rcases shift.unstaked delegate present with present | present
    · exact wf.unstaked_registered delegate present
    · exact wf.staking_registered delegate present

theorem exact (shift : Shift ctxt ctxt' owned owned) (exact : Exact ctxt) : Exact ctxt' where
  delegated delegate known := by
    rw [shift.registered_eq] at known
    obtain ⟨before, found, before_eq⟩ := exact.delegated delegate known
    obtain ⟨after, found, after_eq⟩ := shift.field delegate before found
    have backed := shift.owned delegate
    exact ⟨after, found, by omega⟩
  bonds contract := by
    have gap := shift.bonds contract
    have before := exact.bonds contract
    omega

end Shift

section Tables
variable {ctxt ctxt' : Context T}
variable {contract : T.Contract} {delegate : T.Pkh} {x : Int}

def shareOf (ctxt : Context T) (contract : T.Contract) (x : Int) : T.Pkh → Int :=
  match ctxt.delegate.find contract with
  | none => 0
  | some delegate => Pi.single delegate x

theorem shareOf_apply (ctxt : Context T) (contract : T.Contract) (x : Int) (delegate : T.Pkh) :
    shareOf ctxt contract x delegate =
      if ctxt.delegate.find contract = some delegate then x else 0 := by
  unfold shareOf
  cases ctxt.delegate.find contract with
  | none => rfl
  | some chosen => simp [Pi.single_apply, eq_comm]

theorem StakeUpdated.shift {own staked : Int} (restaked : StakeUpdated ctxt ctxt' delegate own staked x) :
    Shift ctxt ctxt' 0 (Pi.single delegate x) := by
  obtain ⟨before, after, active, found, ⟨-, -, after_eq⟩, rfl⟩ := restaked
  refine ⟨rfl, rfl, fun _ _ _ present => present, ?_, fun _ present => .inl present,
    fun _ => rfl, fun _ => (Int.add_zero _).symm, ?_⟩
  · intro other present
    by_cases same : other = delegate
    · rw [same, mem, found]
      rfl
    · rwa [mem, find_put_of_ne same] at present
  · intro other old old_found
    by_cases same : other = delegate
    · subst same
      rw [found] at old_found
      cases old_found
      exact ⟨after, find_put_self _ _ _, by rw [after_eq, Pi.single_eq_same]⟩
    · refine ⟨old, (find_put_of_ne same).trans old_found, ?_⟩
      rw [Pi.single_eq_of_ne same, Int.add_zero]

theorem ContractRestaked.shift (restaked : ContractRestaked ctxt ctxt' contract x) :
    Shift ctxt ctxt' 0 (shareOf ctxt contract x) := by
  unfold ContractRestaked at restaked
  unfold shareOf
  cases found : ctxt.delegate.find contract with
  | none =>
    rw [found] at restaked
    subst restaked
    exact Shift.of_same (by constructor <;> rfl)
  | some delegate =>
    rw [found] at restaked
    exact restaked.shift

theorem delegatedTo_of_owned (same_delegate : ctxt'.delegate = ctxt.delegate)
    (same_unstaked : ctxt'.unstakedFrozenDeposits = ctxt.unstakedFrozenDeposits)
    (change : ∀ other, (ownedBy ctxt' other : Int) =
      ownedBy ctxt other + if other = contract then x else 0) (delegate : T.Pkh) :
    (delegatedTo ctxt' delegate : Int) = delegatedTo ctxt delegate + shareOf ctxt contract x delegate := by
  have elsewhere (other : T.Contract) (chosen : T.Pkh) (differs : other ≠ contract) :
      (if chosen = delegate then ownedBy ctxt' other else 0) =
        if chosen = delegate then ownedBy ctxt other else 0 := by
    have same := change other
    rw [if_neg differs, Int.add_zero] at same
    rw [Int.ofNat.inj same]
  have sums := ctxt.delegate.total_reweigh contract elsewhere
  have here := change contract
  rw [if_pos rfl] at here
  rw [shareOf_apply]
  unfold delegatedTo unstakedOf
  rw [same_delegate, same_unstaked]
  unfold weightAt at sums
  cases found : ctxt.delegate.find contract with
  | none =>
    simp only [found, Option.elim_none, reduceCtorEq, if_false] at sums ⊢
    omega
  | some chosen =>
    simp only [found, Option.elim_some, Option.some.injEq] at sums ⊢
    split_ifs at sums ⊢ <;> omega

theorem shift_spendable (ctxt : Context T) (contract : T.Contract) (new : Option Tez)
    (change : ((new.elim 0 fun balance => balance.mutez : Nat) : Int) =
      ctxt.spendableBalance.weightAt (fun _ balance => balance.mutez) contract + x)
    (kept : new = none → ctxt.delegate.find contract = none) :
    Shift ctxt { ctxt with spendableBalance := ctxt.spendableBalance.put contract new }
      (shareOf ctxt contract x) 0 := by
  refine ⟨rfl, rfl, ?_, fun _ present => present, fun _ present => .inl present, fun _ => rfl, ?_,
    fun _ before found => ⟨before, found, (Int.add_zero _).symm⟩⟩
  · intro other delegate delegated present
    unfold allocated at present ⊢
    by_cases same : other = contract
    · subst same
      rw [mem, find_put_self]
      cases new with
      | none =>
        rw [kept rfl] at delegated
        cases delegated
      | some balance => rfl
    · rwa [mem, find_put_of_ne same]
  · apply delegatedTo_of_owned
    · rfl
    · rfl
    · intro other
      unfold ownedBy bondsOf
      rw [weightAt_put]
      split_ifs with same
      · subst same
        dsimp only
        omega
      · rw [Int.add_zero]

theorem bondsOf_put [DecidableEq T.BondId] (ctxt : Context T)
    (contract : T.Contract) (bondId : T.BondId) (new : Option Tez)
    (change : ((new.elim 0 fun bond => bond.mutez : Nat) : Int) =
      ctxt.frozenBonds.weightAt (fun _ bond => bond.mutez) (contract, bondId) + x) (other : T.Contract) :
    (((ctxt.frozenBonds.put (contract, bondId) new).total
        fun key bond => if key.1 = other then bond.mutez else 0 : Nat) : Int) =
      bondsOf ctxt other + if other = contract then x else 0 := by
  have sum := ctxt.frozenBonds.total_put (contract, bondId) new
    fun key bond => if key.1 = other then bond.mutez else 0
  unfold bondsOf
  by_cases same : other = contract
  · subst same
    rw [if_pos rfl]
    simp only [weightAt, if_true] at sum change
    omega
  · rw [if_neg same]
    simp only [weightAt, if_neg (Ne.symm same)] at sum
    have old : ((ctxt.frozenBonds.find (contract, bondId)).elim 0 fun _ => 0) = 0 := by
      cases ctxt.frozenBonds.find (contract, bondId) <;> rfl
    have now : (new.elim 0 fun _ => 0) = 0 := by
      cases new <;> rfl
    omega

theorem shift_bond [DecidableEq T.BondId] (ctxt : Context T)
    (contract : T.Contract) (bondId : T.BondId) (new newTotal : Option Tez)
    (change : ((new.elim 0 fun bond => bond.mutez : Nat) : Int) =
      ctxt.frozenBonds.weightAt (fun _ bond => bond.mutez) (contract, bondId) + x)
    (change_total : ((newTotal.elim 0 fun total => total.mutez : Nat) : Int) =
      ctxt.totalFrozenBonds.weightAt (fun _ total => total.mutez) contract + x) :
    Shift ctxt
      { ctxt with
        frozenBonds := ctxt.frozenBonds.put (contract, bondId) new
        totalFrozenBonds := ctxt.totalFrozenBonds.put contract newTotal } (shareOf ctxt contract x) 0 := by
  have bonds := bondsOf_put ctxt contract bondId new change
  refine ⟨rfl, rfl, fun _ _ _ present => present, fun _ present => present,
    fun _ present => .inl present, ?_, ?_, fun _ before found => ⟨before, found, (Int.add_zero _).symm⟩⟩
  · intro other
    have moved := bonds other
    rw [weightAt_put]
    rw [bondsOf, moved]
    split_ifs with same
    · subst same
      omega
    · omega
  · apply delegatedTo_of_owned
    · rfl
    · rfl
    · intro other
      have moved := bonds other
      unfold ownedBy
      rw [Int.natCast_add, Int.natCast_add, Int.add_assoc, ← moved, bondsOf]

end Tables

section Transfers
variable {ctxt ctxt' : Context T}
variable {contract : T.Contract} {delegate : T.Pkh} {amount : Tez} {x : Int}

theorem ContractRestaked.shareOf_eq {y : Int} (restaked : ContractRestaked ctxt ctxt' contract x) :
    shareOf ctxt' contract y = shareOf ctxt contract y := by
  unfold shareOf
  rw [restaked.shift.delegate]

omit [DecidableEq T.ContractHash] in
theorem Restaked.staked (restaked : Restaked ctxt ctxt' delegate x) :
    ctxt'.stakingBalance.mem delegate = true := by
  obtain ⟨before, after, active, -, -, rfl⟩ := restaked
  rw [mem, find_put_self]
  rfl

theorem updateBalance_shift {f} {cycle : Nat} (staked : ctxt.stakingBalance.mem delegate = true)
    (updated : UnstakedFrozenDeposits.updateBalance f ctxt delegate cycle = .ok ctxt')
    (change : ∀ old new, f old = .ok new →
      (new.currentAmount.mutez : Int) = old.currentAmount.mutez + x) :
    Shift ctxt ctxt' (Pi.single delegate x) 0 := by
  obtain ⟨old, new, entries, computed, sums, rfl⟩ := updateBalance_eq_ok updated
  have changed := change old new computed
  have sum := sums (fun _ => true) fun _ => rfl
  have before : unstakedOf ctxt delegate =
      total .current (fun _ => true) ((ctxt.unstakedFrozenDeposits.find delegate).getD []) := by
    unfold unstakedOf weightAt
    cases ctxt.unstakedFrozenDeposits.find delegate <;> rfl
  have after : (currentAmounts entries : Int) = unstakedOf ctxt delegate + x := by
    simp only [if_true] at sum
    unfold currentAmounts
    omega
  refine ⟨rfl, rfl, fun _ _ _ present => present, fun _ present => present, ?_, fun _ => rfl, ?_,
    fun _ before found => ⟨before, found, (Int.add_zero _).symm⟩⟩
  · intro other present
    by_cases same : other = delegate
    · exact .inr (same ▸ staked)
    · rw [mem, find_put_of_ne same] at present
      exact .inl present
  · intro other
    simp only [delegatedTo, unstakedOf, weightAt_put, Pi.single_apply] at after ⊢
    split_ifs with same
    · subst same
      rw [Int.natCast_add, Int.natCast_add, Option.elim_some, after, Int.add_assoc]
      rfl
    · rw [Int.add_zero]
      rfl

theorem Deallocated.shift (deallocated : Deallocated ctxt ctxt') : Shift ctxt ctxt' 0 0 := by
  rcases deallocated with rfl | ⟨contract, found, undelegated, -, managers, rfl⟩
  · exact Shift.of_same (by constructor <;> rfl)
  · have emptied := shift_spendable ctxt contract none (x := 0) (by
      rw [weightAt_of_find found]
      rfl) fun _ => undelegated
    apply (emptied.trans (Shift.of_same (by constructor <;> rfl))).congr
    · rw [shareOf, undelegated, add_zero]
    · rw [add_zero]

variable [DecidableEq T.BondId] [DecidableEq T.Bpkh]

theorem Moved.shift {container}
    (wf : WellFormed ctxt) (moved : Moved ctxt container x ctxt') : ∃ y, Shift ctxt ctxt' y y := by
  cases moved with
  | contract change restaked =>
    have written := shift_spendable ctxt _ (some _) change (by simp)
    refine ⟨_, (written.trans restaked.shift).congr (add_zero _).symm ?_⟩
    rw [zero_add]
    rfl
  | @allocated contract _ absent amount =>
    -- A contract that is not allocated has no delegate.
    have undelegated : ctxt.delegate.find contract = none := by
      by_contra delegated
      obtain ⟨chosen, delegated⟩ := Option.ne_none_iff_exists'.1 delegated
      have present := wf.delegator_allocated contract chosen delegated
      rw [Octez.Token.allocated, mem, absent] at present
      cases present
    have written := shift_spendable ctxt contract (some amount) (x := amount.mutez) (by
      rw [weightAt_of_none absent, Option.elim_some]
      omega) (by simp)
    refine ⟨0, (written.trans (Shift.of_same (by constructor <;> rfl))).congr ?_ ?_⟩
    · rw [add_zero, shareOf, undelegated]
    · rw [add_zero]
  | commitments | nothing => exact ⟨0, Shift.of_same (by constructor <;> rfl)⟩
  | ownFrozen _ updated
  | stakedFrozen _ updated => exact ⟨0, updated.shift.congr rfl (Pi.single_zero _).symm⟩
  | unstaked restaked updated change =>
    have written := updateBalance_shift restaked.staked updated change
    refine ⟨_, (restaked.shift.trans written).congr ?_ (add_zero _).symm⟩
    rw [zero_add]
  | blockFees => exact ⟨0, Shift.of_same (by constructor <;> rfl)⟩
  | bonds bond total restaked bond_eq total_eq =>
    have written := shift_bond _ _ _ bond total bond_eq total_eq
    refine ⟨_, (restaked.shift.trans written).congr ?_ (add_zero _).symm⟩
    rw [zero_add, restaked.shareOf_eq]

theorem spendGiver_shift {giver} (wf : WellFormed ctxt)
    (spent : spendGiver ctxt giver amount = .ok ctxt') : ∃ x, Shift ctxt ctxt' x x := by
  cases giver with
  | infiniteSource source =>
    obtain ⟨supply, -, spent⟩ := bind_eq_ok.1 spent
    cases spent
    exact ⟨0, Shift.of_same (by constructor <;> rfl)⟩
  | container container => exact (spendContainer_moved spent).shift wf

variable {receiver : T.Receiver}

theorem creditReceiver_shift
    (wf : WellFormed ctxt) (credited : creditReceiver ctxt receiver amount = .ok ctxt') :
    ∃ x, Shift ctxt ctxt' x x := by
  cases receiver with
  | infiniteSink sink =>
    obtain ⟨supply, -, credited⟩ := bind_eq_ok.1 credited
    cases credited
    exact ⟨0, Shift.of_same (by constructor <;> rfl)⟩
  | container container => exact (creditContainer_moved credited).shift wf

variable {givers : List (T.Giver × Tez)} {origin : Origin}

omit [DecidableEq T.BondId] [DecidableEq T.Bpkh] in
theorem deallocateGivers_shift
    (deallocated : givers.foldlM deallocateGiver ctxt = .ok ctxt') : Shift ctxt ctxt' 0 0 := by
  refine foldlM_preserves (P := fun later => Shift ctxt later 0 0) ?_
    (Shift.of_same (by constructor <;> rfl)) deallocated
  intro mid after giver shift step
  exact (shift.trans (deallocateGiver_eq_ok step).shift).congr (add_zero _).symm (add_zero _).symm

theorem transferN_shift {updates}
    (wf : WellFormed ctxt) (transferred : transferN origin ctxt givers receiver = .ok (ctxt', updates)) :
    ∃ x, Shift ctxt ctxt' x x := by
  rcases transferN_eq_ok transferred with
    ⟨-, rfl, -⟩ | ⟨-, withdrawn, mid, withdrawing, crediting, deallocating, -⟩
  · exact ⟨0, Shift.of_same (by constructor <;> rfl)⟩
  · obtain ⟨x, withdrawals⟩ : ∃ x, Shift ctxt withdrawn.ctxt x x := by
      refine foldlM_preserves (P := fun later => ∃ x, Shift ctxt later.ctxt x x) ?_
        ⟨0, Shift.of_same (by constructor <;> rfl)⟩ withdrawing
      rintro mid after giver ⟨x, shift⟩ step
      obtain ⟨spent, -, -⟩ := withdraw_eq_ok step
      obtain ⟨y, here⟩ := spendGiver_shift (shift.wellFormed wf) spent
      exact ⟨x + y, shift.trans here⟩
    obtain ⟨y, credit⟩ := creditReceiver_shift (withdrawals.wellFormed wf) crediting
    exact ⟨x + y + 0, (withdrawals.trans credit).trans (deallocateGivers_shift deallocating)⟩

end Transfers

end Octez.Proof.Token
