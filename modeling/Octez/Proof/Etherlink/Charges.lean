import Octez.Proof.Etherlink.Fees

namespace Octez.Proof.Etherlink
open Octez.Etherlink Octez.Lib Octez.Lib.Unsigned Octez.Lib.Durable World

variable {price held : U256} {fees : BlockFees} {updates : FeeUpdates} {world world' final : World}
  {caller address : H160} {gasLimit : UInt64} {outcome : ExecutionOutcome} {retriable : Bool}
  {path : Path Step}

def refundedGas (outcome : ExecutionOutcome) (gasLimit : UInt64) (retriable : Bool) : Nat :=
  if doRefund outcome true then
    if isRetried outcome retriable then gasLimit.toNat else (gasLimit - outcome.gasUsed).toNat
  else 0

def unwound (world : World) (outcome : ExecutionOutcome) (caller : H160) (retriable : Bool) : World :=
  if isRetried outcome retriable then world.decrementNonce caller else world

@[simp] theorem balance_unwound (world : World) (outcome : ExecutionOutcome) (caller : H160)
    (retriable : Bool) (other : H160) :
    (unwound world outcome caller retriable).balance other = world.balance other := by
  unfold unwound
  split
  · exact balance_decrementNonce world caller other
  · rfl

theorem sameBelow_unwound (world : World) (apart : Apart world.accounts.top path) :
    SameBelow path world.host (unwound world outcome caller retriable).host := by
  unfold unwound
  split
  · exact sameBelow_write world apart
  · exact SameBelow.refl _ _

@[simp] theorem accounts_unwound (world : World) :
    (unwound world outcome caller retriable).accounts = world.accounts := by
  unfold unwound
  split <;> rfl

theorem unusedGas_some : unusedGas outcome (some gasLimit) retriable =
    some (if isRetried outcome retriable then gasLimit else gasLimit - outcome.gasUsed) := by
  unfold unusedGas
  split <;> rfl

section
variable (isHeld : world.balance caller = .ok held)
include isHeld

theorem settleGas_eq_ok :
    settleGas world outcome caller (some gasLimit) price true retriable = .ok final ↔
      ∃ after : U256, after.val = held.val + refundedGas outcome gasLimit retriable * price.val ∧
        final = if doRefund outcome true then (unwound world outcome caller retriable).setBalance caller after
          else unwound world outcome caller retriable := by
  unfold settleGas refundedGas
  change (if doRefund outcome true then repayGas (unwound world outcome caller retriable) caller
    (unusedGas outcome (some gasLimit) retriable) price
    else return unwound world outcome caller retriable) = _ ↔ _
  rw [unusedGas_some]
  split
  · simp only [repayGas, bind_eq_ok, gasPayment_eq_ok, liftAccount_eq_ok, balanceAdd_eq_ok,
      balance_unwound, isHeld, Except.ok.injEq]
    rw [← apply_ite UInt64.toNat]
    constructor
    · rintro ⟨amount, payment, _, after, rfl, sum, rfl⟩
      exact ⟨after, payment ▸ sum, rfl⟩
    · rintro ⟨after, sum, rfl⟩
      exact ⟨⟨_, by omega⟩, rfl, held, after, rfl, sum, rfl⟩
  · rw [pure_eq_ok, Except.ok.injEq, Nat.zero_mul, Nat.add_zero]
    constructor
    · intro same
      exact ⟨held, rfl, same.symm⟩
    · rintro ⟨_, _, same⟩
      exact same.symm

theorem sameBelow_of_settleGas
    (settled : settleGas world outcome caller (some gasLimit) price true retriable = .ok final)
    (apart : Apart world.accounts.top path) : SameBelow path world.host final.host := by
  obtain ⟨after, -, rfl⟩ := (settleGas_eq_ok isHeld).1 settled
  split
  · exact (sameBelow_unwound world apart).trans (sameBelow_write _ (by rwa [accounts_unwound]))
  · exact sameBelow_unwound world apart

end

theorem apply_eq_ok : updates.apply world caller = .ok final ↔
    ∃ held left, world.balance caller = .ok held ∧
      left.val + updates.chargeUserAmount.val = held.val ∧
      updates.distribute (world.setBalance caller left) = .ok final := by
  unfold FeeUpdates.apply
  simp only [bind_eq_ok, Prod.exists, liftAccounts_eq_ok, balanceRemove_eq_ok]
  constructor
  · rintro ⟨_, _, ⟨held, isHeld, ⟨left, rfl, sum, rfl⟩ | ⟨rfl, -, rfl⟩⟩, distributed⟩
    · exact ⟨held, left, isHeld, sum, distributed⟩
    · cases distributed
  · rintro ⟨held, left, isHeld, sum, distributed⟩
    exact ⟨true, _, ⟨held, isHeld, .inl ⟨left, rfl, sum, rfl⟩⟩, distributed⟩

theorem distribute_of_no_pool (none_ : readSequencerPoolAddress world.host = none) :
    updates.distribute world =
      .ok (world.burn (saturatingAdd updates.burnAmount updates.compensateSequencerAmount)) := by
  rw [FeeUpdates.distribute, none_]
  rfl

theorem distribute_of_pool {pool : H160} (some_ : readSequencerPoolAddress world.host = some pool) :
    updates.distribute world = .ok final ↔
      ∃ before after, world.balance pool = .ok before ∧
        after.val = before.val + updates.compensateSequencerAmount.val ∧
        (world.burn updates.burnAmount).setBalance pool after = final := by
  rw [FeeUpdates.distribute, some_]
  simp only [liftAccounts_eq_ok]
  rw [balanceAdd_eq_ok]
  change (∃ before after, (world.burn updates.burnAmount).balance pool = _ ∧ _) ↔ _
  simp only [balance_burn]
  rfl

def PoolHasRoom (pool : Option H160) (caller : H160) (poolBalance amount : U256) : Prop :=
  ∀ address, pool = some address → address ≠ caller → poolBalance.val + amount.val < 2 ^ 256

def PoolHolds (world : World) (caller : H160) (poolBalance : U256) : Prop :=
  ∀ address, readSequencerPoolAddress world.host = some address → address ≠ caller →
    world.balance address = .ok poolBalance

theorem apply_succeeds_iff {poolBalance : U256} (isHeld : world.balance caller = .ok held)
    (covered : updates.compensateSequencerAmount.val ≤ updates.chargeUserAmount.val)
    (poolHolds : PoolHolds world caller poolBalance) :
    (∃ final, updates.apply world caller = .ok final) ↔
      updates.chargeUserAmount ≤ held ∧ PoolHasRoom (readSequencerPoolAddress world.host) caller poolBalance
          updates.compensateSequencerAmount := by
  simp only [apply_eq_ok, isHeld, Except.ok.injEq]
  constructor
  · rintro ⟨final, _, left, rfl, sum, distributed⟩
    refine ⟨Fin.le_def.2 (by omega), ?_⟩
    intro pool isPool different
    rw [distribute_of_pool (by simpa using isPool)] at distributed
    obtain ⟨before, after, before_eq, after_eq, -⟩ := distributed
    rw [balance_setBalance_of_ne _ _ different.symm, poolHolds pool isPool different] at before_eq
    cases before_eq
    rw [← after_eq]
    exact after.isLt
  · rintro ⟨enough, room⟩
    have difference := Nat.sub_add_cancel (Fin.le_def.1 enough)
    let left : U256 := ⟨held.val - updates.chargeUserAmount.val, by omega⟩
    have remaining : left.val + updates.chargeUserAmount.val = held.val := difference
    cases isPool : readSequencerPoolAddress world.host with
    | none => exact ⟨_, held, left, rfl, remaining, distribute_of_no_pool (by simpa using isPool)⟩
    | some pool =>
      have isPool' : readSequencerPoolAddress (world.setBalance caller left).host = some pool := by
        simpa using isPool
      by_cases same : pool = caller
      · subst same
        refine ⟨_, held, left, rfl, remaining, (distribute_of_pool isPool').2 ⟨left,
          ⟨left.val + updates.compensateSequencerAmount.val, by omega⟩, ?_, rfl, rfl⟩⟩
        exact balance_setBalance _ _ _
      · refine ⟨_, held, left, rfl, remaining,
          (distribute_of_pool isPool').2 ⟨poolBalance, ⟨_, room pool isPool same⟩, ?_, rfl, rfl⟩⟩
        rw [balance_setBalance_of_ne _ _ (Ne.symm same)]
        exact poolHolds pool isPool same

theorem balance_of_valid {callerOf} {tx} {constants : BlockConstants} {isDelayed : Bool}
    (positive : 0 < constants.blockFees.baseFeePerGas.val)
    (valid : isValidEthereumTransactionCommon callerOf world tx constants
      constants.blockFees.baseFeePerGas isDelayed = .ok (.valid caller gasLimit)) :
    ∃ held, world.balance caller = .ok held ∧
      min (tx.gasLimit.toNat * constants.blockFees.baseFeePerGas.val) (2 ^ 256 - 1) ≤ held.val ∧
      gasLimit.toNat + gasOfDaFee (owedDaFee tx constants.blockFees isDelayed)
        constants.blockFees.baseFeePerGas = tx.gasLimit.toNat := by
  unfold isValidEthereumTransactionCommon at valid
  split at valid
  · cases valid
  split at valid
  · cases valid
  split at valid
  · cases valid
  rename_i signer _
  unfold checkCaller at valid
  rw [bind_eq_ok] at valid
  obtain ⟨⟨nonce, held, codeExists⟩, state, valid⟩ := valid
  simp only at valid
  split at valid
  · cases valid
  split at valid
  · cases valid
  rename_i enough
  split at valid
  · cases valid
  obtain ⟨limit, isLimit, valid⟩ := bind_eq_ok.1 valid
  cases limit with
  | error error => cases valid
  | ok limit =>
    cases valid
    refine ⟨held, ?_, ?_, (txExecutionGasLimit_eq_ok positive).1 isLimit⟩
    · rw [liftAccounts_eq_ok] at state
      cases account : world.accounts.get world.host caller with
      | none =>
        rw [account] at state
        cases state
        exact balance_of_get_none account
      | some existing =>
        rw [account] at state
        obtain ⟨balance, isBalance, state⟩ := bind_eq_ok.1 state
        cases state
        rw [EthereumAccountStorage.get_eq, Option.ite_none_right_eq_some] at account
        cases account.2
        exact isBalance
    · rw [not_or, not_lt, Fin.le_def] at enough
      exact enough.1

def transferred (tx : EthereumTransactionCommon) (caller : H160) : U256 :=
  if tx.to_ = some caller then 0 else tx.value

/-- What an execution does to the balance of the caller: nothing but the transfer of the value, and
only if it succeeds. -/
structure OnlyTransfers (tx : EthereumTransactionCommon) (caller : H160) (gasLimit : UInt64)
    (poolBalance : U256) (world : World) (outcome : ExecutionOutcome) (world' : World) : Prop where
  gas : outcome.gasUsed ≤ gasLimit
  accounts : world'.accounts = world.accounts
  pool : SameBelow sequencerPoolPath world.host world'.host
  poolHolds : PoolHolds world' caller poolBalance
  caller : ∃ held left, world.balance caller = .ok held ∧ world'.balance caller = .ok left ∧
    left.val + (if outcome.isSuccess then (transferred tx caller).val else 0) = held.val

/-- However the transaction is executed, its fees can be collected afterwards. -/
def PaysFees (world : World) (tx : EthereumTransactionCommon) (fees : BlockFees)
    (isDelayed retriable : Bool) (caller : H160) (gasLimit : UInt64) (poolBalance : U256) : Prop :=
  ∀ execute outcome final, (∀ world outcome world', execute world = .ok (outcome, world') →
      OnlyTransfers tx caller gasLimit poolBalance world outcome world') →
    runTransaction execute world caller (some gasLimit) fees.baseFeePerGas true retriable =
      .ok (some outcome, final) →
    ∃ updates, (contentOf tx isDelayed).feeUpdates fees (U256.ofUInt64 outcome.gasUsed) =
        some updates ∧ ∃ charged, updates.apply final caller = .ok charged

/-- The balance covers the gas limit and the value, or the value can not even be transferred. -/
def CoversFees (held value : U256) (gasLimit total : UInt64) (price : U256) : Prop :=
  gasLimit.toNat * price.val + total.toNat * price.val < 2 ^ 256 ∧ total.toNat * price.val ≤ held.val ∧
    (value.val + total.toNat * price.val ≤ held.val ∨ held.val < value.val + gasLimit.toNat * price.val)

section
variable {tx : EthereumTransactionCommon} {isDelayed : Bool} {held poolBalance amount : U256}
  {result : ExecutionOutcome}

theorem collects_iff (positive : 0 < fees.baseFeePerGas.val)
    (isHeld : final.balance caller = .ok held) (poolHolds : PoolHolds final caller poolBalance) :
    (∃ updates, (contentOf tx isDelayed).feeUpdates fees (U256.ofUInt64 outcome.gasUsed) =
        some updates ∧ ∃ charged, updates.apply final caller = .ok charged) ↔
      outcome.gasUsed.toNat * fees.baseFeePerGas.val +
          (outcome.gasUsed.toNat + gasOfDaFee (owedDaFee tx fees isDelayed) fees.baseFeePerGas) *
            fees.baseFeePerGas.val < 2 ^ 256 ∧
        gasOfDaFee (owedDaFee tx fees isDelayed) fees.baseFeePerGas * fees.baseFeePerGas.val ≤
          held.val ∧ PoolHasRoom (readSequencerPoolAddress final.host) caller poolBalance
          (owedDaFee tx fees isDelayed) := by
  simp only [feeUpdates_contentOf]
  constructor
  · rintro ⟨updates, updated, applied⟩
    obtain ⟨fits, updated⟩ := (ofGasAndDaFee_eq_some positive).1 updated
    have paid := (apply_succeeds_iff isHeld (updated.compensated_le_charged positive) poolHolds).1
      applied
    rw [updated.compensated, Fin.le_def, updated.charged] at paid
    exact ⟨fits, paid⟩
  · rintro ⟨fits, enough, room⟩
    obtain ⟨updates, some_updates⟩ :=
      exists_ofGasAndDaFee (U256.ofUInt64 outcome.gasUsed) _ positive fits
    obtain ⟨-, updated⟩ := (ofGasAndDaFee_eq_some positive).1 some_updates
    refine ⟨updates, some_updates, ?_⟩
    rw [apply_succeeds_iff isHeld (updated.compensated_le_charged positive) poolHolds,
      updated.compensated, Fin.le_def, updated.charged]
    exact ⟨enough, room⟩

theorem collected_from {execute} (effect : ∀ world outcome world', execute world = .ok (outcome, world') →
      OnlyTransfers tx caller gasLimit poolBalance world outcome world')
    (isHeld : world.balance caller = .ok held)
    (run : runTransaction execute world caller (some gasLimit) price true retriable =
      .ok (some outcome, final)) :
    outcome.gasUsed ≤ gasLimit ∧ PoolHolds final caller poolBalance ∧
      readSequencerPoolAddress final.host = readSequencerPoolAddress world.host ∧
      ∃ kept after : U256, final.balance caller = .ok after ∧
        kept.val + (if outcome.isSuccess then (transferred tx caller).val else 0) +
          gasLimit.toNat * price.val = held.val ∧
        after.val = kept.val + refundedGas outcome gasLimit retriable * price.val := by
  obtain ⟨_, left, executed, isHeld', paid, ran, settled⟩ := runTransaction_eq_ok_some.1 run
  rw [isHeld] at isHeld'
  cases isHeld'
  have done := effect _ _ _ ran
  obtain ⟨_, kept, before, isKept, spent⟩ := done.caller
  rw [balance_setBalance] at before
  cases before
  obtain ⟨after, refunded, settled_eq⟩ := (settleGas_eq_ok isKept).1 settled
  refine ⟨done.gas, ?_, ?_, kept, after, ?_, ?_, refunded⟩
  · intro address isPool different
    rw [readSequencerPoolAddress_sameBelow
      (sameBelow_of_settleGas isKept settled (top_apart_sequencerPool _))] at isPool
    rw [settled_eq, ← done.poolHolds address isPool different]
    split
    · rw [balance_setBalance_of_ne _ _ different.symm, balance_unwound]
    · exact balance_unwound _ _ _ _ _
  · rw [readSequencerPoolAddress_sameBelow
      (sameBelow_of_settleGas isKept settled (top_apart_sequencerPool _)),
      readSequencerPoolAddress_sameBelow done.pool, readSequencerPoolAddress_setBalance]
  · rw [settled_eq]
    split
    · exact balance_setBalance _ _ _
    · rename_i unpaid
      rw [refundedGas, if_neg unpaid, Nat.zero_mul, Nat.add_zero] at refunded
      rw [balance_unwound, isKept, Fin.ext refunded]
  · rw [spent, paid]

def spend (outcome : ExecutionOutcome) (caller : H160) (amount poolBalance : U256) (world : World) :
    Except EthereumError (ExecutionOutcome × World) :=
  match world.balanceRemove caller amount with
  | .ok (true, world) =>
    match readSequencerPoolAddress world.host with
    | some pool => .ok (outcome, if pool = caller then world else world.setBalance pool poolBalance)
    | none => .ok (outcome, world)
  | .ok (false, _) => .error .internalTrapError
  | .error error => .error (.ethereumAccountError error)

theorem spend_eq_ok :
    spend outcome caller amount poolBalance world = .ok (result, world') ↔
      ∃ before left, world.balance caller = .ok before ∧ left.val + amount.val = before.val ∧
        result = outcome ∧ world' = match readSequencerPoolAddress world.host with
          | some pool => if pool = caller then world.setBalance caller left
              else (world.setBalance caller left).setBalance pool poolBalance
          | none => world.setBalance caller left := by
  unfold spend
  constructor
  · intro spent
    split at spent
    · rename_i paid isPaid
      obtain ⟨before, isBefore, ⟨left, -, sum, rfl⟩ | ⟨impossible, -⟩⟩ :=
        balanceRemove_eq_ok.1 isPaid
      · refine ⟨before, left, isBefore, sum, ?_⟩
        split at spent <;> cases spent <;> simp_all
      · cases impossible
    · cases spent
    · cases spent
  · rintro ⟨before, left, isBefore, sum, rfl, rfl⟩
    rw [balanceRemove_eq_ok.2 ⟨before, isBefore, .inl ⟨left, rfl, sum, rfl⟩⟩]
    simp only [readSequencerPoolAddress_setBalance]
    split <;> simp_all

theorem onlyTransfers_of_spend (gas : outcome.gasUsed ≤ gasLimit)
    (value : (if outcome.isSuccess then (transferred tx caller).val else 0) = amount.val)
    (spent : spend outcome caller amount poolBalance world = .ok (result, world')) :
    OnlyTransfers tx caller gasLimit poolBalance world result world' := by
  obtain ⟨before, left, isBefore, sum, rfl, rfl⟩ := spend_eq_ok.1 spent
  cases isPool : readSequencerPoolAddress world.host with
  | none =>
    refine ⟨gas, rfl, sameBelow_write _ (top_apart_sequencerPool _), ?_, before, left,
      isBefore, balance_setBalance _ _ _, value ▸ sum⟩
    intro address found
    simp [isPool] at found
  | some pool =>
    by_cases same : pool = caller
    · simp only [if_pos same]
      refine ⟨gas, rfl, sameBelow_write _ (top_apart_sequencerPool _), ?_, before,
        left, isBefore, balance_setBalance _ _ _, value ▸ sum⟩
      intro address found different
      simp only [readSequencerPoolAddress_setBalance, isPool, Option.some.injEq] at found
      exact absurd (found ▸ same) different
    · simp only [if_neg same]
      refine ⟨gas, rfl, (sameBelow_write _ (top_apart_sequencerPool _)).trans
        (sameBelow_write _ (top_apart_sequencerPool _)), ?_, before, left, isBefore, ?_, value ▸ sum⟩
      · intro address found different
        simp only [readSequencerPoolAddress_setBalance, isPool, Option.some.injEq] at found
        rw [← found]
        exact balance_setBalance _ _ _
      · rw [balance_setBalance_of_ne _ _ same]
        exact balance_setBalance _ _ _

def gasUsedUp (gasLimit : UInt64) (isSuccess : Bool) : ExecutionOutcome where
  gasUsed := gasLimit
  isSuccess
  reason := .exit (if isSuccess then .succeed .returned else .revert)
  newAddress := none
  logs := []
  result := none
  withdrawals := []
  estimatedTicksUsed := 0

theorem refundedGas_gasUsedUp (gasLimit : UInt64) (isSuccess retriable : Bool) :
    refundedGas (gasUsedUp gasLimit isSuccess) gasLimit retriable = 0 := by
  cases isSuccess <;> simp [refundedGas, gasUsedUp, isRetried]

theorem collected_when_gasUsedUp (isSuccess : Bool)
    (pays : PaysFees world tx fees isDelayed retriable caller gasLimit poolBalance)
    (positive : 0 < fees.baseFeePerGas.val)
    (limit : gasLimit.toNat + gasOfDaFee (owedDaFee tx fees isDelayed) fees.baseFeePerGas = tx.gasLimit.toNat)
    (isHeld : world.balance caller = .ok held)
    (affordable : (if isSuccess then (transferred tx caller).val else 0) +
      gasLimit.toNat * fees.baseFeePerGas.val ≤ held.val) :
    gasLimit.toNat * fees.baseFeePerGas.val + tx.gasLimit.toNat * fees.baseFeePerGas.val < 2 ^ 256 ∧
      (if isSuccess then (transferred tx caller).val else 0) +
        tx.gasLimit.toNat * fees.baseFeePerGas.val ≤ held.val ∧
      PoolHasRoom (readSequencerPoolAddress world.host) caller poolBalance (owedDaFee tx fees isDelayed) := by
  let outcome := gasUsedUp gasLimit isSuccess
  let amount : U256 := if isSuccess then transferred tx caller else 0
  have value : (if isSuccess then (transferred tx caller).val else 0) = amount.val := by
    cases isSuccess <;> rfl
  let left : U256 := ⟨held.val - gasLimit.toNat * fees.baseFeePerGas.val, by omega⟩
  let kept : U256 := ⟨left.val - amount.val, by omega⟩
  have paid : left.val + gasLimit.toNat * fees.baseFeePerGas.val = held.val :=
    Nat.sub_add_cancel (by omega)
  have spent : kept.val + amount.val = left.val := Nat.sub_add_cancel (by omega)
  obtain ⟨executed, ran⟩ : ∃ executed, spend outcome caller amount poolBalance
      (world.setBalance caller left) = .ok (outcome, executed) :=
    ⟨_, spend_eq_ok.2 ⟨left, kept, balance_setBalance _ _ _, spent, rfl, rfl⟩⟩
  have effect : ∀ world result world', spend outcome caller amount poolBalance world =
      .ok (result, world') → OnlyTransfers tx caller gasLimit poolBalance world result world' :=
    fun _ _ _ => onlyTransfers_of_spend (UInt64.le_refl _) value
  obtain ⟨_, isKept, before, isKept_eq, kept_eq⟩ := (effect _ _ _ ran).caller
  rw [balance_setBalance] at before
  cases before
  obtain ⟨final, settled⟩ : ∃ final, settleGas executed outcome caller (some gasLimit)
      fees.baseFeePerGas true retriable = .ok final := by
    refine ⟨_, (settleGas_eq_ok isKept_eq).2 ⟨isKept, ?_, rfl⟩⟩
    rw [refundedGas_gasUsedUp, Nat.zero_mul, Nat.add_zero]
  have run := runTransaction_eq_ok_some.2 ⟨held, left, executed, isHeld, paid, ran, settled⟩
  obtain ⟨-, poolHolds, samePool, kept', after, isAfter, sum, refunded⟩ :=
    collected_from effect isHeld run
  have collected := (collects_iff positive isAfter poolHolds).1 (pays _ _ _ effect run)
  rw [samePool] at collected
  rw [refundedGas_gasUsedUp, Nat.zero_mul, Nat.add_zero] at refunded
  obtain ⟨fits, charged, room⟩ := collected
  have total := Nat.add_mul gasLimit.toNat
    (gasOfDaFee (owedDaFee tx fees isDelayed) fees.baseFeePerGas) fees.baseFeePerGas.val
  have used : outcome.gasUsed.toNat = gasLimit.toNat := rfl
  have success : outcome.isSuccess = isSuccess := rfl
  rw [used, limit] at fits
  rw [limit] at total
  rw [success] at sum
  exact ⟨fits, by omega, room⟩

/-- A transaction that was found valid pays its fees after every execution exactly if the balance
covers the gas limit together with the value, or does not even allow the transfer of the value. The
check of the transaction only sees to the gas limit. -/
theorem accepted_pays_fees_iff {callerOf : EthereumTransactionCommon → Option H160}
    {constants : BlockConstants} (positive : 0 < constants.blockFees.baseFeePerGas.val)
    (valid : isValidEthereumTransactionCommon callerOf world tx constants
      constants.blockFees.baseFeePerGas isDelayed = .ok (.valid caller gasLimit))
    (isHeld : world.balance caller = .ok held) :
    PaysFees world tx constants.blockFees isDelayed retriable caller gasLimit poolBalance ↔
      held.val < gasLimit.toNat * constants.blockFees.baseFeePerGas.val ∨
        CoversFees held (transferred tx caller) gasLimit tx.gasLimit
            constants.blockFees.baseFeePerGas ∧
          PoolHasRoom (readSequencerPoolAddress world.host) caller poolBalance
            (owedDaFee tx constants.blockFees isDelayed) := by
  obtain ⟨-, -, -, limit⟩ := balance_of_valid positive valid
  constructor
  · intro pays
    rw [or_iff_not_imp_left, not_lt]
    intro prepaid
    obtain ⟨fits, covered, room⟩ :=
      collected_when_gasUsedUp false pays positive limit isHeld (by simpa using prepaid)
    refine ⟨⟨fits, by simpa using covered, ?_⟩, room⟩
    rw [or_iff_not_imp_right, not_lt]
    intro affordable
    exact (collected_when_gasUsedUp true pays positive limit isHeld affordable).2.1
  · rintro (unpaid | ⟨covers, room⟩)
    · intro execute outcome final effect run
      obtain ⟨_, left, _, isHeld', paid, -⟩ := runTransaction_eq_ok_some.1 run
      rw [isHeld] at isHeld'
      cases isHeld'
      omega
    · intro execute outcome final effect run
      obtain ⟨gas, poolHolds, samePool, kept, after, isAfter, spent, refunded⟩ :=
        collected_from effect isHeld run
      obtain ⟨fits, prepaid, value⟩ := covers
      rw [collects_iff positive isAfter poolHolds, samePool]
      have used : outcome.gasUsed.toNat * constants.blockFees.baseFeePerGas.val ≤
          gasLimit.toNat * constants.blockFees.baseFeePerGas.val :=
        Nat.mul_le_mul_right _ (UInt64.le_iff_toNat_le.1 gas)
      have total := Nat.add_mul gasLimit.toNat (gasOfDaFee (owedDaFee tx constants.blockFees isDelayed)
        constants.blockFees.baseFeePerGas) constants.blockFees.baseFeePerGas.val
      rw [limit] at total
      refine ⟨?_, ?_, room⟩
      · rw [Nat.add_mul]
        omega
      · split at spent <;> omega

end

def holder : H160 := List.replicate 20 0xca

def holding (amount : U256) : World where
  host := Durable.empty.write (evmAccountsPath ++ [.hex holder, .name .balance]) (.wei amount)
  accounts := initAccountStorage

def gweiConstants : BlockConstants where
  number := 0
  coinbase := List.replicate 20 0
  timestamp := 0
  gasLimit := 1
  blockFees := { minimumBaseFeePerGas := 1000000000, baseFeePerGas := 1000000000
                 daFeePerByte := 4000000000000 }
  chainId := 42793

def plainTransfer (value : U256) : EthereumTransactionCommon where
  type := .legacy
  chainId := some 42793
  nonce := 0
  maxPriorityFeePerGas := 0
  maxFeePerGas := 1000000000
  gasLimit := 621000
  to_ := some (List.replicate 20 0xbe)
  value
  data := []
  accessList := []
  signature := none

theorem holding_pays_fees : (0 < gweiConstants.blockFees.baseFeePerGas.val ∧
      isValidEthereumTransactionCommon (fun _ => some holder) (holding 1000000000000000)
        (plainTransfer 1000000) gweiConstants gweiConstants.blockFees.baseFeePerGas false =
          .ok (.valid holder 21000) ∧ (holding 1000000000000000).balance holder = .ok 1000000000000000) ∧
    PaysFees (holding 1000000000000000) (plainTransfer 1000000) gweiConstants.blockFees false false
      holder 21000 0 := by
  refine (and_iff_left_of_imp ?_).2 ⟨by decide, rfl, rfl⟩
  rintro ⟨positive, valid, isHeld⟩
  refine (accepted_pays_fees_iff positive valid isHeld).2 (.inr ⟨?_, ?_⟩)
  · exact ⟨by decide, by decide, .inl (by decide)⟩
  · intro address found
    cases found

/-- All that is left after the gas of the execution was paid for is transferred. -/
theorem transfer_of_all_cannot_pay :
    isValidEthereumTransactionCommon (fun _ => some holder) (holding 1000000000000000)
        (plainTransfer 979000000000000) gweiConstants gweiConstants.blockFees.baseFeePerGas false =
          .ok (.valid holder 21000) ∧
      ∃ final updates, runTransaction (spend (gasUsedUp 21000 true) holder 979000000000000 0)
            (holding 1000000000000000) holder (some 21000) gweiConstants.blockFees.baseFeePerGas true
            false = .ok (some (gasUsedUp 21000 true), final) ∧
          (contentOf (plainTransfer 979000000000000) false).feeUpdates gweiConstants.blockFees
            (U256.ofUInt64 21000) = some updates ∧
          updates.apply final holder = .error (.failedToCharge holder 600000000000000) :=
  ⟨rfl, _, _, rfl, rfl, rfl⟩

end Octez.Proof.Etherlink
