import Octez.Model.Staking.Pseudotokens
import Octez.Proof.Slashing.Shares

namespace Octez.Proof.Staking
open Octez.Lib Octez.Staking Octez.Staking.Pseudotokens Octez.Proof.Slashing

section Amounts
variable (staked pseudotokens owned requested : Nat)

/-- The pseudotokens burnt when `requested` mutez are requested by the owner of `owned`
pseudotokens, out of `pseudotokens` that share `staked` mutez. -/
def pseudotokensBurnt : Nat :=
  let burnt := min (cdiv (pseudotokens * requested) staked) owned
  if requested < staked * burnt / pseudotokens then burnt - 1 else burnt

variable {staked pseudotokens owned requested}

theorem pseudotokensBurnt_le : pseudotokensBurnt staked pseudotokens owned requested ≤ owned := by
  have clamped := min_le_right (cdiv (pseudotokens * requested) staked) owned
  unfold pseudotokensBurnt
  dsimp only
  split
  · exact (Nat.sub_le _ _).trans clamped
  · exact clamped

theorem value_pred_le (hasStake : 0 < staked) {burnt : Nat}
    (bounded : burnt ≤ cdiv (pseudotokens * requested) staked) :
    staked * (burnt - 1) / pseudotokens ≤ requested := by
  apply Nat.div_le_of_le_mul
  rcases Nat.eq_zero_or_pos burnt with rfl | positive
  · simp
  · have less : burnt - 1 < cdiv (pseudotokens * requested) staked := by omega
    exact (mul_lt_of_lt_cdiv hasStake less).le

theorem value_burnt_le (hasStake : 0 < staked) :
    staked * pseudotokensBurnt staked pseudotokens owned requested / pseudotokens ≤ requested := by
  unfold pseudotokensBurnt
  dsimp only
  split
  · exact value_pred_le hasStake (min_le_left _ _)
  · exact Nat.le_of_not_lt ‹_›

theorem burnt_eq_owned_iff (pseudotokens requested : Nat) (hasStake : 0 < staked) (owns : 0 < owned) :
    pseudotokensBurnt staked pseudotokens owned requested = owned ↔
      staked * owned / pseudotokens ≤ requested ∧ staked * (owned - 1) < pseudotokens * requested := by
  have reaches : owned ≤ cdiv (pseudotokens * requested) staked ↔
      staked * (owned - 1) < pseudotokens * requested := by
    constructor
    · intro covers
      exact mul_lt_of_lt_cdiv hasStake (by omega)
    · intro above
      by_contra short
      have small : staked * cdiv (pseudotokens * requested) staked ≤ staked * (owned - 1) :=
        Nat.mul_le_mul_left _ (by omega)
      have upper : pseudotokens * requested ≤ staked * cdiv (pseudotokens * requested) staked :=
        le_mul_cdiv hasStake
      omega
  rw [← reaches]
  unfold pseudotokensBurnt
  dsimp only
  constructor
  · intro all
    split_ifs at all with exceeds
    · omega
    · rw [all] at exceeds
      exact ⟨Nat.le_of_not_lt exceeds, min_eq_right_iff.1 all⟩
  · rintro ⟨worth, covers⟩
    rw [min_eq_right covers, if_neg (by omega)]

end Amounts

theorem mulRatio_eq_ok {rounding : Rounding} {tez result : Tez} {num den : Nat}
    (h : tez.mulRatio rounding num den = .ok result) :
    0 < den ∧ result.mutez = Tez.roundedDiv rounding (tez.mutez * num) den := by
  unfold Tez.mulRatio at h
  split at h
  · cases h
  · split at h
    · cases h
    · dsimp only at h
      split at h
      · cases h
        exact ⟨by omega, Eq.refl _⟩
      · cases h

theorem assert_bind_eq_ok {Err α : Type} {condition : Bool} {rest : Unit → TzResult Err α} {a : α} :
    (assert condition >>= rest) = .ok a ↔ condition = true ∧ rest () = .ok a := by
  rw [unit_bind_eq_ok, assert_eq_ok]

section Request
variable {Pkh : Type} {balances : DelegatorBalances Pkh} {requested : Tez}

theorem tezOf_down {delegateBalances : DelegateBalances Pkh} (pseudotokens : Tez)
    (hasPseudotokens : 0 < delegateBalances.frozenDepositsPseudotokens.mutez)
    (part : pseudotokens.mutez ≤ delegateBalances.frozenDepositsPseudotokens.mutez) :
    ∃ tez, tezOf .down delegateBalances pseudotokens = .ok tez ∧
      tez.mutez = delegateBalances.frozenDepositsStakedTez.mutez * pseudotokens.mutez /
        delegateBalances.frozenDepositsPseudotokens.mutez := by
  have fits : Tez.roundedDiv .down
      (delegateBalances.frozenDepositsStakedTez.mutez * pseudotokens.mutez)
      delegateBalances.frozenDepositsPseudotokens.mutez ≤ maxMutez := by
    refine le_trans (Nat.div_le_of_le_mul ?_) delegateBalances.frozenDepositsStakedTez.le_max
    rw [Nat.mul_comm]
    exact Nat.mul_le_mul_right _ part
  have converted := mulRatio_of_fits .down delegateBalances.frozenDepositsStakedTez
    pseudotokens.mutez hasPseudotokens fits
  refine ⟨⟨_, fits⟩, ?_, rfl⟩
  simp only [tezOf, ne_eq, mutez_eq_zero, Nat.ne_of_gt hasPseudotokens, not_false_eq_true,
    decide_true, assert_true, ok_bind]
  exact converted

theorem pseudotokensToUnstake_spec (balances : DelegatorBalances Pkh)
    (hasStake : 0 < balances.delegateBalances.frozenDepositsStakedTez.mutez)
    (owns : 0 < balances.pseudotokenBalance.mutez)
    (part : balances.pseudotokenBalance.mutez ≤ balances.delegateBalances.frozenDepositsPseudotokens.mutez)
    (positive : 0 < requested.mutez)
    (fits : cdiv (balances.delegateBalances.frozenDepositsPseudotokens.mutez * requested.mutez)
      balances.delegateBalances.frozenDepositsStakedTez.mutez ≤ maxMutez) :
    ∃ burnt h, pseudotokensToUnstake balances requested = .ok (burnt, h) ∧
      burnt.mutez = pseudotokensBurnt balances.delegateBalances.frozenDepositsStakedTez.mutez
        balances.delegateBalances.frozenDepositsPseudotokens.mutez
        balances.pseudotokenBalance.mutez requested.mutez ∧
      h.mutez = balances.delegateBalances.frozenDepositsStakedTez.mutez * burnt.mutez /
        balances.delegateBalances.frozenDepositsPseudotokens.mutez := by
  have hasPseudotokens := lt_of_lt_of_le owns part
  have converted := mulRatio_of_fits .up balances.delegateBalances.frozenDepositsPseudotokens
    requested.mutez hasStake fits
  have asked : pseudotokensOf .up balances.delegateBalances requested = .ok ⟨_, fits⟩ := by
    simp only [pseudotokensOf, ne_eq, mutez_eq_zero, Nat.ne_of_gt hasPseudotokens,
      Nat.ne_of_gt hasStake, Nat.ne_of_gt positive, not_false_eq_true, decide_true, assert_true, ok_bind]
    exact converted
  have clamped : (Tez.min ⟨_, fits⟩ balances.pseudotokenBalance).mutez = _ := min_mutez
  simp only [pseudotokensToUnstake]
  rw [bind_of_eq_ok asked]
  generalize Tez.min ⟨_, fits⟩ balances.pseudotokenBalance = toUnstake at clamped ⊢
  obtain ⟨value, converted, value_eq⟩ := tezOf_down toUnstake hasPseudotokens (by omega)
  rw [bind_of_eq_ok converted]
  rw [clamped] at value_eq
  by_cases exceeds : requested.mutez < value.mutez
  · -- A value above the request is positive, so that there is a pseudotoken to give back.
    have some_burnt : 1 ≤ toUnstake.mutez := by
      by_contra none
      rw [show min _ _ = 0 by omega] at value_eq
      simp at value_eq
      omega
    obtain ⟨less, converted, less_eq⟩ := tezOf_down
      ⟨toUnstake.mutez - 1, (Nat.sub_le _ _).trans toUnstake.le_max⟩ hasPseudotokens (by simp only; omega)
    have bounded : less.mutez ≤ requested.mutez := by
      rw [less_eq]
      exact value_pred_le hasStake (clamped ▸ min_le_left _ _)
    refine ⟨_, less, ?_, ?_, less_eq⟩
    · rw [if_pos exceeds, pred, if_pos some_burnt]
      simp only [converted, ok_bind, bounded, decide_true, assert_true, pure_eq_ok]
    · simp only [pseudotokensBurnt]
      rw [if_pos (value_eq ▸ exceeds), clamped]
  · refine ⟨toUnstake, value, ?_, ?_, ?_⟩
    · rw [if_neg exceeds]
      rfl
    · simp only [pseudotokensBurnt]
      rw [if_neg (value_eq ▸ exceeds), clamped]
    · rw [value_eq, clamped]

variable [DecidableEq Pkh]

/-- The request burns `burnt` pseudotokens, of the staker and of the total, and returns their value,
which is at most what was requested. -/
def UnstakesWithin (ctxt : Context Pkh) (contract delegate : Pkh) (staked requested : Tez) (burnt : Nat) :
    Prop :=
  ∃ returned left total : Tez,
    requestUnstake ctxt contract delegate requested =
      .ok ({ ctxt with
        stakingPseudotokens := Function.update ctxt.stakingPseudotokens contract left,
        frozenDepositsPseudotokens :=
          Function.update ctxt.frozenDepositsPseudotokens delegate total }, returned) ∧
    left.mutez + burnt = (ctxt.stakingPseudotokens contract).mutez ∧
    total.mutez + burnt = (ctxt.frozenDepositsPseudotokens delegate).mutez ∧
    returned.mutez = staked.mutez * burnt / (ctxt.frozenDepositsPseudotokens delegate).mutez ∧
    returned.mutez ≤ requested.mutez

theorem UnstakesWithin.unique {ctxt : Context Pkh} {contract delegate : Pkh} {staked : Tez}
    {burnt burnt' : Nat} (first : UnstakesWithin ctxt contract delegate staked requested burnt)
    (second : UnstakesWithin ctxt contract delegate staked requested burnt') : burnt = burnt' := by
  obtain ⟨_, left, _, ok, left_eq, _⟩ := first
  obtain ⟨_, left', _, ok', left_eq', _⟩ := second
  have same := congrArg (fun result => result.1.stakingPseudotokens contract)
    (Except.ok.inj (ok.symm.trans ok'))
  simp only [Function.update_self] at same
  rw [same] at left_eq
  omega

def balancesOf (ctxt : Context Pkh) (delegator delegate : Pkh) (staked : Tez) : DelegatorBalances Pkh where
  delegator
  pseudotokenBalance := ctxt.stakingPseudotokens delegator
  delegateBalances := ⟨delegate, staked, ctxt.frozenDepositsPseudotokens delegate⟩

section Delegator
variable (ctxt : Context Pkh) (contract delegate : Pkh) (requested : Tez)
  {balance : Octez.Slashing.FullStakingBalance} (delegator : contract ≠ delegate)
  (registered : ctxt.stakingBalance delegate = some balance) (hasStake : 0 < balance.stakedFrozen.mutez)
  (owns : 0 < (ctxt.stakingPseudotokens contract).mutez)
  (part : (ctxt.stakingPseudotokens contract).mutez ≤ (ctxt.frozenDepositsPseudotokens delegate).mutez)
  (positive : 0 < requested.mutez)
include delegator registered hasStake owns part positive

theorem requestUnstake_eq : requestUnstake ctxt contract delegate requested =
    liftTez (pseudotokensToUnstake (balancesOf ctxt contract delegate balance.stakedFrozen) requested) >>=
      fun amounts => burnPseudotokens ctxt (balancesOf ctxt contract delegate balance.stakedFrozen) amounts.1 >>=
        fun ctxt => .ok (ctxt, amounts.2) := by
  have held : ctxt.frozenDepositsPseudotokens delegate ≠ Tez.zero := by
    rw [Ne, mutez_eq_zero]
    omega
  rw [Pseudotokens.requestUnstake, if_neg (by rw [mutez_eq_zero]; omega), if_neg delegator]
  simp only [requestUnstakeDelegator, getDelegateBalances, getFrozenDepositsStakedTez,
    getFullStakingBalance, registered, ok_bind, pure_eq_ok]
  rw [if_neg (by rw [mutez_eq_zero]; omega), if_neg (by
    simp only [getDelegatorBalances, mutez_eq_zero]
    omega)]
  simp only [held, ne_eq, not_false_eq_true, decide_true, assert_true, ok_bind]
  rfl

theorem requestUnstake_of_fits
    (fits : cdiv ((ctxt.frozenDepositsPseudotokens delegate).mutez * requested.mutez)
      balance.stakedFrozen.mutez ≤ maxMutez) :
    UnstakesWithin ctxt contract delegate balance.stakedFrozen requested
      (pseudotokensBurnt balance.stakedFrozen.mutez (ctxt.frozenDepositsPseudotokens delegate).mutez
        (ctxt.stakingPseudotokens contract).mutez requested.mutez) := by
  obtain ⟨burnt, returned, computed, burnt_eq, returned_eq⟩ :=
    pseudotokensToUnstake_spec (balancesOf ctxt contract delegate balance.stakedFrozen) hasStake owns part
      positive fits
  replace burnt_eq : burnt.mutez = pseudotokensBurnt balance.stakedFrozen.mutez
      (ctxt.frozenDepositsPseudotokens delegate).mutez
      (ctxt.stakingPseudotokens contract).mutez requested.mutez := burnt_eq
  have burnt_le : burnt.mutez ≤ (ctxt.stakingPseudotokens contract).mutez :=
    burnt_eq ▸ pseudotokensBurnt_le
  obtain ⟨left, left_sub, left_eq⟩ :=
    sub_of_le (ctxt.stakingPseudotokens contract) burnt burnt_le
  obtain ⟨total, total_sub, total_eq⟩ :=
    sub_of_le (ctxt.frozenDepositsPseudotokens delegate) burnt (burnt_le.trans part)
  rw [← burnt_eq]
  refine ⟨returned, left, total, ?_, by omega, by omega, returned_eq, ?_⟩
  · rw [requestUnstake_eq ctxt contract delegate requested delegator registered hasStake owns part positive,
      computed]
    simp only [liftTez, liftError_ok, ok_bind, burnPseudotokens, balancesOf, left_sub,
      total_sub, setPseudotokens, pure_eq_ok]
  · calc returned.mutez = _ := returned_eq
      _ ≤ requested.mutez := by
        rw [burnt_eq]
        exact value_burnt_le hasStake

/-- Unstaking is bounded and unstakes everything when that much is requested exactly when the
pseudotokens asked for fit in an `int64` and a request that reaches the value of the staker's
pseudotokens needs the last one of them. -/
theorem request_unstake_bounded_iff :
    (∃ burnt, UnstakesWithin ctxt contract delegate balance.stakedFrozen requested burnt ∧
      (balance.stakedFrozen.mutez * (ctxt.stakingPseudotokens contract).mutez /
          (ctxt.frozenDepositsPseudotokens delegate).mutez ≤ requested.mutez →
        burnt = (ctxt.stakingPseudotokens contract).mutez)) ↔
    cdiv ((ctxt.frozenDepositsPseudotokens delegate).mutez * requested.mutez)
        balance.stakedFrozen.mutez ≤ maxMutez ∧
      (balance.stakedFrozen.mutez * (ctxt.stakingPseudotokens contract).mutez /
          (ctxt.frozenDepositsPseudotokens delegate).mutez ≤ requested.mutez →
        balance.stakedFrozen.mutez * ((ctxt.stakingPseudotokens contract).mutez - 1) <
          (ctxt.frozenDepositsPseudotokens delegate).mutez * requested.mutez) := by
  have spec := requestUnstake_of_fits ctxt contract delegate requested delegator registered hasStake owns
    part positive
  have burns_all := burnt_eq_owned_iff (ctxt.frozenDepositsPseudotokens delegate).mutez
    requested.mutez hasStake owns
  constructor
  · rintro ⟨burnt, unstakes, all⟩
    have fits : cdiv ((ctxt.frozenDepositsPseudotokens delegate).mutez * requested.mutez)
        balance.stakedFrozen.mutez ≤ maxMutez := by
      obtain ⟨_, _, _, ok, _⟩ := unstakes
      rw [requestUnstake_eq ctxt contract delegate requested delegator registered hasStake owns part
        positive] at ok
      obtain ⟨amounts, computed, _⟩ := bind_eq_ok.1 ok
      obtain ⟨asked, converted, _⟩ := bind_eq_ok.1 (liftError_eq_ok.1 computed)
      unfold pseudotokensOf at converted
      rw [assert_bind_eq_ok, assert_bind_eq_ok, assert_bind_eq_ok] at converted
      exact (mulRatio_eq_ok converted.2.2.2).2.symm.trans_le asked.le_max
    refine ⟨fits, fun worth => ?_⟩
    exact (burns_all.1 ((spec fits).unique unstakes ▸ all worth)).2
  · rintro ⟨fits, needed⟩
    exact ⟨_, spec fits, fun worth => burns_all.2 ⟨worth, needed worth⟩⟩

end Delegator

end Request

def tez (mutez : Nat) : Tez := ⟨mutez % 2 ^ 63, by
  have bound := Nat.mod_lt mutez (show 0 < 2 ^ 63 by decide)
  unfold maxMutez
  omega⟩

/-- Contract `1` owns nine of the ten pseudotokens that share the two mutez staked on delegate
`0`. -/
def dustStake : Context Nat where
  constants := ⟨2, 5, false⟩
  cycle := 0
  adaptiveIssuanceEnable := true
  balance := fun _ => tez 100
  delegate := fun _ => some 0
  stakingBalance := fun pkh => if pkh = 0 then some ⟨tez 100, tez 2, tez 200⟩ else none
  inactive := fun _ => false
  limitOfStakingOverBakingMillionth := fun _ => 1000000
  stakingPseudotokens := fun pkh => tez (if pkh = 1 then 9 else 0)
  frozenDepositsPseudotokens := fun _ => tez 10
  unstakeRequests := Map.empty
  unstakedFrozenDeposits := fun _ => []
  slashedDeposits := fun _ => []
  slashedDepositsOxford := fun _ => []
  pendingDenunciations := fun _ => false
  totalSupply := tez 1000

/-- The nine pseudotokens are worth one mutez, and requesting it burns five of them. -/
example : 2 * 9 / 10 ≤ 1 ∧ (requestUnstake dustStake 1 0 (tez 1)).map
    (fun result => (result.2.mutez, (result.1.stakingPseudotokens 1).mutez)) = .ok (1, 4) := by
  decide +kernel

/-- Contract `1` owns ten of the hundred pseudotokens of delegate `0`, which share 95 mutez after a slash. -/
def slashedStake : Context Nat :=
  { dustStake with
    stakingBalance := fun pkh => if pkh = 0 then some ⟨tez 100, tez 95, tez 200⟩ else none
    stakingPseudotokens := fun pkh => tez (if pkh = 1 then 10 else 0)
    frozenDepositsPseudotokens := fun _ => tez 100 }

theorem slashedStake_unstaked_at_value : ∃ burnt, UnstakesWithin slashedStake 1 0 (tez 95) (tez 9) burnt ∧
    (95 * 10 / 100 ≤ 9 → burnt = 10) :=
  (request_unstake_bounded_iff slashedStake 1 0 (tez 9) (by decide) rfl (by decide) (by decide) (by decide)
    (by decide)).2 (by decide)

/-- Requesting as much as there can be asks for more pseudotokens than there can be. -/
theorem slashedStake_request_overflows :
    slashedStake.stakingPseudotokens 1 = tez 10 ∧ slashedStake.frozenDepositsPseudotokens 0 = tez 100 ∧
      (requestUnstake slashedStake 1 0 ⟨maxMutez, le_rfl⟩).map Prod.snd =
        liftTez (tzfail (.multiplicationOverflow (tez 100) maxMutez)) := by
  decide +kernel

end Octez.Proof.Staking
