import Octez.Proof.Token.Conservation
import Octez.Proof.Token.Delegations

namespace Octez.Proof.Token
open Octez.Lib Octez.Token Table DelegateStorage
open Octez.Proof.Staking (add_eq_ok)

variable {T : TokenTypes} {Origin : Type}
variable [DecidableEq T.Pkh] [DecidableEq T.ContractHash]

section Delegates
variable {ctxt ctxt' : Context T}
variable {contract : T.Contract} {delegate : T.Pkh} {amount : Tez} {x : Int}

theorem getBalanceAndFrozenBonds_eq_ok (exact : ∀ contract,
      ctxt.totalFrozenBonds.weightAt (fun _ total => total.mutez) contract = bondsOf ctxt contract)
    (got : getBalanceAndFrozenBonds ctxt contract = .ok amount) :
    allocated ctxt contract = true ∧ amount.mutez = ownedBy ctxt contract := by
  obtain ⟨balance, found, sum⟩ := bind_eq_ok.1 got
  have found := get_eq_ok.1 (liftStorage_eq_ok.1 found)
  have bonds : (getFrozenBonds ctxt contract).mutez = bondsOf ctxt contract := by
    rw [← exact contract, getFrozenBonds, weightAt]
    cases ctxt.totalFrozenBonds.find contract <;> rfl
  refine ⟨mem_eq_true.2 ⟨balance, found⟩, ?_⟩
  rw [add_eq_ok (liftTez_eq_ok.1 sum), bonds, ownedBy, weightAt_of_find found]

theorem delegatedTo_relinked (ctxt : Context T) (contract : T.Contract) (new : Option T.Pkh)
    (delegated : Table (T.Pkh × T.Contract) Unit) (delegate : T.Pkh) : (delegatedTo { ctxt with
        delegate := ctxt.delegate.put contract new, delegated := delegated } delegate : Int) =
      delegatedTo ctxt delegate - shareOf ctxt contract (ownedBy ctxt contract) delegate +
        if new = some delegate then (ownedBy ctxt contract : Int) else 0 := by
  let owned (contract : T.Contract) (chosen : T.Pkh) : Nat :=
    if chosen = delegate then ownedBy ctxt contract else 0
  have sum := ctxt.delegate.total_put contract new owned
  have gone : (ctxt.delegate.weightAt owned contract : Int) =
      shareOf ctxt contract (ownedBy ctxt contract) delegate := by
    rw [shareOf_apply, weightAt]
    cases ctxt.delegate.find contract <;> simp [owned]
  have come : ((new.elim 0 (owned contract) : Nat) : Int) =
      if new = some delegate then (ownedBy ctxt contract : Int) else 0 := by
    cases new <;> simp [owned]
  have kept : ((ctxt.delegate.put contract new).total owned : Int) + unstakedOf ctxt delegate =
      delegatedTo { ctxt with
        delegate := ctxt.delegate.put contract new, delegated := delegated } delegate := rfl
  have before : (ctxt.delegate.total owned : Int) + unstakedOf ctxt delegate =
      delegatedTo ctxt delegate := rfl
  omega

theorem ContractRestaked.ownedBy_eq (restaked : ContractRestaked ctxt ctxt' contract x)
    (other : T.Contract) : ownedBy ctxt' other = ownedBy ctxt other := by
  unfold ContractRestaked at restaked
  split at restaked
  · rw [restaked]
  · obtain ⟨before, after, active, -, -, rfl⟩ := restaked
    rfl

theorem ContractRestaked.allocated (restaked : ContractRestaked ctxt ctxt' contract x)
    {other : T.Contract} (present : allocated ctxt other = true) :
    Octez.Token.allocated ctxt' other = true := by
  unfold ContractRestaked at restaked
  split at restaked
  · rw [restaked, present]
  · obtain ⟨before, after, active, -, -, rfl⟩ := restaked
    exact present

variable {delegated : Table (T.Pkh × T.Contract) Unit} {new chosen : Option T.Pkh}

theorem wellFormed_relinked (wf : WellFormed ctxt) (present : allocated ctxt contract = true)
    (known : ∀ delegate, new = some delegate → registered ctxt delegate = true) :
    WellFormed { ctxt with
      delegate := ctxt.delegate.put contract new, delegated := delegated } where
  delegator_allocated other delegate found := by
    by_cases same : other = contract
    · exact same ▸ present
    · exact wf.delegator_allocated other delegate ((find_put_of_ne same).symm.trans found)
  delegate_registered other delegate found := by
    by_cases same : other = contract
    · subst same
      exact known delegate ((find_put_self _ _ _).symm.trans found)
    · exact wf.delegate_registered other delegate ((find_put_of_ne same).symm.trans found)
  staking_registered := wf.staking_registered
  unstaked_registered := wf.unstaked_registered

theorem relinked {mid} (wf : WellFormed ctxt)
    (exact : Exact ctxt) (present : allocated ctxt contract = true)
    (known : ∀ delegate, new = some delegate → registered ctxt delegate = true)
    (restaked : ContractRestaked ctxt mid contract (-ownedBy ctxt contract)) {field : T.Pkh → Int}
    (field_eq : ∀ delegate, field delegate = if new = some delegate then (ownedBy ctxt contract : Int) else 0)
    (finished : Shift { mid with
      delegate := mid.delegate.put contract new, delegated := delegated } ctxt' 0 field) :
    WellFormed ctxt' ∧ Exact ctxt' := by
  have left := restaked.shift
  have wf_mid := left.wellFormed wf
  have present_mid : allocated mid contract = true := restaked.allocated present
  have known_mid (delegate : T.Pkh) (chosen : new = some delegate) : registered mid delegate = true := by
    rw [left.registered_eq, known delegate chosen]
  constructor
  · exact finished.wellFormed (wellFormed_relinked wf_mid present_mid known_mid)
  constructor
  case delegated =>
    intro delegate registered_after
    rw [finished.registered_eq] at registered_after
    obtain ⟨before, found, before_eq⟩ :=
      exact.delegated delegate ((left.registered_eq delegate).symm.trans registered_after)
    obtain ⟨between, found, between_eq⟩ := left.field delegate before found
    obtain ⟨after, found, after_eq⟩ := finished.field delegate between found
    have total_mid := left.owned delegate
    have total_linked := delegatedTo_relinked mid contract new delegated delegate
    have total_after := finished.owned delegate
    have gone : shareOf ctxt contract (-ownedBy ctxt contract) delegate =
        -shareOf mid contract (ownedBy mid contract) delegate := by
      rw [restaked.shareOf_eq, restaked.ownedBy_eq, shareOf_apply, shareOf_apply]
      split_ifs <;> rfl
    rw [restaked.ownedBy_eq contract] at total_linked gone
    rw [Pi.zero_apply] at total_mid total_after
    rw [field_eq] at after_eq
    exact ⟨after, found, by omega⟩
  case bonds =>
    intro other
    have gap := finished.bonds other
    have gap_mid := left.bonds other
    have before := exact.bonds other
    have kept : bondsOf { mid with
      delegate := mid.delegate.put contract new, delegated := delegated } other =
        bondsOf mid other := rfl
    dsimp only at gap
    omega

theorem unlink_eq (ctxt : Context T) (contract : T.Contract) :
    ∃ delegated, ContractDelegate.unlink ctxt contract = { ctxt with delegated := delegated } := by
  unfold ContractDelegate.unlink
  split
  · exact ⟨ctxt.delegated, rfl⟩
  · exact ⟨_, rfl⟩

theorem contractDelegate_delete_eq (ctxt : Context T) (contract : T.Contract) :
    ∃ delegated, ContractDelegate.delete ctxt contract = { ctxt with
      delegate := ctxt.delegate.put contract none, delegated := delegated } := by
  obtain ⟨delegated, unlinked⟩ := unlink_eq ctxt contract
  refine ⟨delegated, ?_⟩
  unfold ContractDelegate.delete
  rw [unlinked]
  rfl

theorem contractDelegate_set_eq_ok (updated : ContractDelegate.set ctxt contract delegate = .ok ctxt') :
    ∃ delegated, ctxt' = { ctxt with
      delegate := ctxt.delegate.put contract (some delegate), delegated := delegated } := by
  obtain ⟨-, updated⟩ := unit_bind_eq_ok.1 updated
  obtain ⟨delegated, unlinked⟩ := unlink_eq ctxt contract
  rw [unlinked] at updated
  cases updated
  exact ⟨_, rfl⟩

theorem contractDelegate_init_eq_ok (linked : ContractDelegate.init ctxt contract delegate = .ok ctxt') :
    ctxt.delegate.find contract = none ∧ ∃ delegated, ctxt' = { ctxt with
      delegate := ctxt.delegate.put contract (some delegate), delegated := delegated } := by
  obtain ⟨-, linked⟩ := unit_bind_eq_ok.1 linked
  obtain ⟨table, written, linked⟩ := bind_eq_ok.1 linked
  obtain ⟨absent, rfl⟩ := init_eq_ok.1 (liftStorage_eq_ok.1 written)
  cases linked
  exact ⟨absent, _, rfl⟩

theorem init_exact (wf : WellFormed ctxt) (exact : Exact ctxt)
    (linked : init ctxt contract delegate = .ok ctxt') : WellFormed ctxt' ∧ Exact ctxt' := by
  obtain ⟨-, linked⟩ := unit_bind_eq_ok.1 linked
  obtain ⟨known, linked⟩ := unit_bind_eq_ok.1 linked
  obtain ⟨mid, linking, linked⟩ := bind_eq_ok.1 linked
  obtain ⟨amount, got, added⟩ := bind_eq_ok.1 linked
  obtain ⟨undelegated, delegated, rfl⟩ := contractDelegate_init_eq_ok linking
  obtain ⟨present, amount_eq⟩ := getBalanceAndFrozenBonds_eq_ok exact.bonds got
  have unchanged : ContractRestaked ctxt ctxt contract (-ownedBy ctxt contract) := by
    unfold ContractRestaked
    rw [undelegated]
  apply relinked wf exact present ?_ unchanged ?_ (addDelegatedStake_eq_ok added).shift
  · intro other chosen
    cases chosen
    exact errorUnless_eq_ok.1 known
  · intro other
    rw [Pi.single_apply, amount_eq]
    simp only [Option.some.injEq, eq_comm]

theorem setDelegate_exact (wf : WellFormed ctxt) (exact : Exact ctxt)
    (updated : setDelegate ctxt contract chosen = .ok ctxt') : WellFormed ctxt' ∧ Exact ctxt' := by
  obtain ⟨-, updated⟩ := unit_bind_eq_ok.1 updated
  obtain ⟨-, updated⟩ := unit_bind_eq_ok.1 updated
  obtain ⟨amount, got, updated⟩ := bind_eq_ok.1 updated
  obtain ⟨mid, removed, linking⟩ := bind_eq_ok.1 updated
  obtain ⟨present, amount_eq⟩ := getBalanceAndFrozenBonds_eq_ok exact.bonds got
  have restaked := removeContractDelegatedStake_eq_ok removed
  rw [amount_eq] at restaked
  cases chosen with
  | none =>
    obtain ⟨delegated, deleted⟩ := contractDelegate_delete_eq mid contract
    unfold link at linking
    rw [deleted] at linking
    cases linking
    apply relinked wf exact present ?_ restaked ?_ (Shift.of_same (by constructor <;> rfl))
    · intro delegate chosen
      cases chosen
    · intro delegate
      rfl
  | some delegate =>
    obtain ⟨known, linking⟩ := unit_bind_eq_ok.1 linking
    obtain ⟨linked, setting, added⟩ := bind_eq_ok.1 linking
    obtain ⟨delegated, rfl⟩ := contractDelegate_set_eq_ok setting
    apply relinked wf exact present ?_ restaked ?_ (addDelegatedStake_eq_ok added).shift
    · intro other chosen
      cases chosen
      exact (restaked.shift.registered_eq delegate).symm.trans (errorUnless_eq_ok.1 known)
    · intro other
      rw [Pi.single_apply, amount_eq]
      simp only [Option.some.injEq, eq_comm]

section
omit [DecidableEq T.ContractHash]

theorem addIfMinimal_eq (ctxt : Context T) (delegate : T.Pkh) (minimal : Bool) :
    ∃ active, addIfMinimal ctxt delegate minimal =
      { ctxt with activeDelegatesWithMinimalStake := active } := by
  cases minimal with
  | false => exact ⟨ctxt.activeDelegatesWithMinimalStake, rfl⟩
  | true => exact ⟨_, rfl⟩

theorem initConsensusKey_eq_ok {key : T.PublicKey}
    (initialized : initConsensusKey ctxt delegate key = .ok ctxt') :
    ∃ consensusKeys consensusKey, ctxt' = { ctxt with consensusKeys, consensusKey } := by
  simp only [initConsensusKey, bind_eq_ok] at initialized
  obtain ⟨-, -, -, -, consensusKey, -, h⟩ := initialized
  cases h
  exact ⟨_, consensusKey, rfl⟩

theorem setActive_eq_ok (activated : setActive ctxt delegate = .ok ctxt') :
    ∃ inactiveDelegate delegateLastCycleBeforeDeactivation activeDelegatesWithMinimalStake,
      ctxt' = { ctxt with
        inactiveDelegate, delegateLastCycleBeforeDeactivation, activeDelegatesWithMinimalStake } := by
  obtain ⟨inactive, last, active_eq⟩ : ∃ inactive last, (activate ctxt delegate).1 = { ctxt with
      inactiveDelegate := inactive, delegateLastCycleBeforeDeactivation := last } := by
    unfold activate
    dsimp only
    split
    · exact ⟨_, _, rfl⟩
    · exact ⟨ctxt.inactiveDelegate, _, rfl⟩
  unfold setActive at activated
  dsimp only at activated
  split at activated
  · obtain ⟨balance, -, h⟩ := bind_eq_ok.1 activated
    obtain ⟨active, added⟩ := addIfMinimal_eq (activate ctxt delegate).1 delegate
      (hasMinimalStake (activate ctxt delegate).1 balance)
    rw [added, active_eq] at h
    cases h
    exact ⟨inactive, last, active, rfl⟩
  · cases activated
    exact ⟨inactive, last, ctxt.activeDelegatesWithMinimalStake, active_eq⟩

theorem initializeDelegate_eq_ok (initialized : initializeDelegate ctxt delegate amount = .ok ctxt') :
    ctxt.stakingBalance.find delegate = none ∧ ∃ active, ctxt' = { ctxt with
      stakingBalance := ctxt.stakingBalance.put delegate
        (some (.init Tez.zero Tez.zero amount ctxt.currentLevel))
      activeDelegatesWithMinimalStake := active } := by
  obtain ⟨balances, written, h⟩ := bind_eq_ok.1 initialized
  obtain ⟨absent, rfl⟩ := init_eq_ok.1 (liftStorage_eq_ok.1 written)
  dsimp only at h
  generalize hasMinimalStake _ _ = minimal at h
  obtain ⟨active, active_eq⟩ := addIfMinimal_eq { ctxt with
    stakingBalance := ctxt.stakingBalance.add delegate
      (.init Tez.zero Tez.zero amount ctxt.currentLevel) } delegate minimal
  rw [active_eq] at h
  cases h
  exact ⟨absent, active, rfl⟩

end

theorem delegatedTo_unregistered (wf : WellFormed ctxt) (unknown : registered ctxt delegate = false) :
    delegatedTo ctxt delegate = 0 := by
  have nobody : ctxt.delegate.total (fun contract chosen =>
      if chosen = delegate then ownedBy ctxt contract else 0) = 0 := by
    apply total_eq_zero
    intro contract chosen found
    apply if_neg
    rintro rfl
    rw [wf.delegate_registered contract chosen found] at unknown
    cases unknown
  have nothing : unstakedOf ctxt delegate = 0 := by
    apply weightAt_of_none
    by_contra present
    obtain ⟨entries, found⟩ := Option.ne_none_iff_exists'.1 present
    rw [wf.unstaked_registered delegate (mem_eq_true.2 ⟨entries, found⟩)] at unknown
    cases unknown
  rw [delegatedTo, nobody, nothing]

theorem shareOf_unregistered (wf : WellFormed ctxt)
    (unknown : registered ctxt delegate = false) : shareOf ctxt contract x delegate = 0 := by
  rw [shareOf_apply, if_neg]
  intro found
  rw [wf.delegate_registered contract delegate found] at unknown
  cases unknown

def withDelegate (ctxt : Context T) (delegate : T.Pkh)
    (amount : Tez) (delegated : Table (T.Pkh × T.Contract) Unit) : Context T :=
  { ctxt with
    delegate := ctxt.delegate.put (.implicit delegate) (some delegate)
    delegated := delegated
    stakingBalance := ctxt.stakingBalance.put delegate
      (some (.init Tez.zero Tez.zero amount ctxt.currentLevel))
    delegates := ctxt.delegates.add delegate () }

theorem registered_withDelegate {other : T.Pkh} :
    registered (withDelegate ctxt delegate amount delegated) other = true ↔
      other = delegate ∨ registered ctxt other = true :=
  mem_add

theorem wellFormed_withDelegate
    (wf : WellFormed ctxt) (present : allocated ctxt (.implicit delegate) = true) :
    WellFormed (withDelegate ctxt delegate amount delegated) where
  delegator_allocated contract chosen found := by
    by_cases same : contract = .implicit delegate
    · exact same ▸ present
    · exact wf.delegator_allocated contract chosen ((find_put_of_ne same).symm.trans found)
  delegate_registered contract chosen found := by
    apply registered_withDelegate.2
    by_cases same : contract = .implicit delegate
    · subst same
      have itself := (find_put_self _ _ _).symm.trans found
      cases itself
      exact .inl rfl
    · exact .inr (wf.delegate_registered contract chosen ((find_put_of_ne same).symm.trans found))
  staking_registered other staked := by
    apply registered_withDelegate.2
    by_cases same : other = delegate
    · exact .inl same
    · have staked_before : ctxt.stakingBalance.mem other = true := by
        rw [mem, ← find_put_of_ne same]
        exact staked
      exact .inr (wf.staking_registered other staked_before)
  unstaked_registered other unstaked :=
    registered_withDelegate.2 (.inr (wf.unstaked_registered other unstaked))

theorem register_exact (wf : WellFormed ctxt) (exact : Exact ctxt)
    (unknown : registered ctxt delegate = false)
    (updated : register ctxt delegate = .ok ctxt') : WellFormed ctxt' ∧ Exact ctxt' := by
  obtain ⟨key, -, updated⟩ := bind_eq_ok.1 updated
  obtain ⟨-, updated⟩ := unit_bind_eq_ok.1 updated
  obtain ⟨amount, got, updated⟩ := bind_eq_ok.1 updated
  obtain ⟨mid, removed, updated⟩ := bind_eq_ok.1 updated
  obtain ⟨linked, setting, updated⟩ := bind_eq_ok.1 updated
  obtain ⟨initialized, initializing, updated⟩ := bind_eq_ok.1 updated
  obtain ⟨keyed, keying, activating⟩ := bind_eq_ok.1 updated
  obtain ⟨present, amount_eq⟩ := getBalanceAndFrozenBonds_eq_ok exact.bonds got
  have restaked := removeContractDelegatedStake_eq_ok removed
  have left := restaked.shift
  have wf_mid := left.wellFormed wf
  have unknown_mid : registered mid delegate = false := (left.registered_eq delegate).trans unknown
  obtain ⟨delegated, linked_eq⟩ := contractDelegate_set_eq_ok setting
  obtain ⟨-, active, rfl⟩ := initializeDelegate_eq_ok initializing
  obtain ⟨consensusKeys, consensusKey, rfl⟩ := initConsensusKey_eq_ok keying
  obtain ⟨inactive, last, active', activated⟩ := setActive_eq_ok activating
  subst linked_eq
  have finished : Shift (withDelegate mid delegate amount delegated) ctxt' 0 0 := by
    subst activated
    exact Shift.of_same (by constructor <;> rfl)
  have present_mid : allocated mid (.implicit delegate) = true := restaked.allocated present
  constructor
  · exact finished.wellFormed (wellFormed_withDelegate wf_mid present_mid)
  apply finished.exact
  constructor
  case delegated =>
    intro other known
    have total_eq : (delegatedTo (withDelegate mid delegate amount delegated) other : Int) = _ :=
      delegatedTo_relinked mid (.implicit delegate) (some delegate) delegated other
    rw [restaked.ownedBy_eq] at total_eq
    by_cases same : other = delegate
    · subst same
      refine ⟨_, find_put_self _ _ _, ?_⟩
      rw [shareOf_unregistered wf_mid unknown_mid, delegatedTo_unregistered wf_mid unknown_mid,
        if_pos rfl] at total_eq
      change amount.mutez = _
      omega
    · have known_mid := (registered_withDelegate.1 known).resolve_left same
      rw [left.registered_eq] at known_mid
      obtain ⟨before, found, before_eq⟩ := exact.delegated other known_mid
      obtain ⟨after, found, after_eq⟩ := left.field other before found
      refine ⟨after, (find_put_of_ne same).trans found, ?_⟩
      have total_mid := left.owned other
      have other_delegate : ¬ some delegate = some other := by
        simpa using Ne.symm same
      rw [restaked.shareOf_eq, if_neg other_delegate] at total_eq
      rw [Pi.zero_apply] at total_mid
      rw [shareOf_apply] at after_eq total_eq
      split_ifs at after_eq total_eq <;> omega
  case bonds =>
    intro other
    have gap := left.bonds other
    have before := exact.bonds other
    change mid.totalFrozenBonds.weightAt (fun _ total => total.mutez) other = bondsOf mid other
    omega

theorem set_exact (wf : WellFormed ctxt) (exact : Exact ctxt)
    (updated : DelegateStorage.set ctxt contract chosen = .ok ctxt') : WellFormed ctxt' ∧ Exact ctxt' := by
  unfold DelegateStorage.set at updated
  split at updated
  · split at updated
    · rename_i self
      unfold setSelfDelegate at updated
      split at updated
      · obtain ⟨-, activated⟩ := unit_bind_eq_ok.1 updated
        obtain ⟨inactive, last, active, after_eq⟩ := setActive_eq_ok activated
        have shift : Shift ctxt ctxt' 0 0 := Shift.of_same (by subst after_eq; constructor <;> rfl)
        exact ⟨shift.wellFormed wf, shift.exact exact⟩
      · rename_i unknown
        exact register_exact wf exact (Bool.not_eq_true _ ▸ unknown) updated
    · exact setDelegate_exact wf exact updated
  · exact setDelegate_exact wf exact updated

end Delegates

section Runs
variable [DecidableEq T.BondId] [DecidableEq T.Bpkh]

inductive Operation (T : TokenTypes) (Origin : Type) where
  | transfer (origin : Origin) (givers : List (T.Giver × Tez))
      (receiver : T.Receiver)
  | initDelegate (contract : T.Contract) (delegate : T.Pkh)
  | setDelegate (contract : T.Contract) (delegate : Option T.Pkh)

def applyOperation (ctxt : Context T) :
    Operation T Origin → Result T (Context T)
  | .transfer origin givers receiver => do
    let (ctxt, _) ← transferN origin ctxt givers receiver
    return ctxt
  | .initDelegate contract delegate => init ctxt contract delegate
  | .setDelegate contract delegate => DelegateStorage.set ctxt contract delegate

variable {ctxt ctxt' : Context T}

theorem applyOperation_exact {operation : Operation T Origin} (wf : WellFormed ctxt) (exact : Exact ctxt)
    (applied : applyOperation ctxt operation = .ok ctxt') : WellFormed ctxt' ∧ Exact ctxt' := by
  cases operation with
  | transfer origin givers receiver =>
    obtain ⟨⟨after, updates⟩, transferred, applied⟩ := bind_eq_ok.1 applied
    cases applied
    obtain ⟨x, shift⟩ := transferN_shift wf transferred
    exact ⟨shift.wellFormed wf, shift.exact exact⟩
  | initDelegate contract delegate => exact init_exact wf exact applied
  | setDelegate contract delegate => exact set_exact wf exact applied

/-- In every storage that the operations reach from one that is well formed and exact, the
delegated balances and the totals of the bonds are exact. -/
theorem delegated_balances_exact {operations : List (Operation T Origin)}
    (wf : WellFormed ctxt) (exact : Exact ctxt)
    (ran : operations.foldlM applyOperation ctxt = .ok ctxt') : Exact ctxt' :=
  (foldlM_preserves (P := fun later => WellFormed later ∧ Exact later)
    (fun held applied => applyOperation_exact held.1 held.2 applied) ⟨wf, exact⟩ ran).2

end Runs

theorem smallLedger_wellFormed : WellFormed smallLedger where
  delegator_allocated contract delegate found := by
    have chosen : contract = .implicit 2 ∨ contract = .implicit 1 := by
      by_contra neither
      rw [not_or] at neither
      simp only [smallLedger, find_add, neither, if_false] at found
      cases found
    rcases chosen with rfl | rfl <;> rfl
  delegate_registered contract delegate found := by
    simp only [smallLedger, find_add] at found
    split_ifs at found
    · cases found
      rfl
    · cases found
      rfl
    · cases found
  staking_registered delegate staked := by
    rcases mem_add.1 staked with rfl | staked
    · rfl
    · cases staked
  unstaked_registered delegate unstaked := by cases unstaked

theorem smallLedger_exact : Exact smallLedger where
  delegated delegate known := by
    rcases mem_add.1 known with rfl | known
    · exact ⟨_, rfl, by decide⟩
    · cases known
  bonds contract := rfl

/-- The account freezes a bond, leaves its delegate and comes back. -/
theorem smallLedger_stays_exact :
    ∃ ctxt', List.foldlM applyOperation smallLedger
      [.transfer () [(.container (.contract (.implicit 1)), ⟨3, by decide⟩)]
          (.container (.frozenBonds (.implicit 1) 0)), .setDelegate (.implicit 1) none,
        .initDelegate (.implicit 1) 2] = .ok ctxt' ∧ Exact ctxt' := by
  refine (exists_of_isOk ?_).imp fun ctxt' ran =>
    ⟨ran, delegated_balances_exact smallLedger_wellFormed smallLedger_exact ran⟩
  decide +kernel

end Octez.Proof.Token
