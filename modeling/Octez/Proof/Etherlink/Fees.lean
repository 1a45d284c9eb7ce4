import Octez.Proof.Etherlink.Accounts

namespace Octez.Proof.Etherlink
open Octez.Etherlink Octez.Lib Octez.Lib.Unsigned FeeUpdates

variable {l r c price : U256} {fees : BlockFees} {updates : FeeUpdates} {world world' final : World}
  {caller : H160} {gas gasLimit : UInt64} {outcome : ExecutionOutcome} {α : Type}
  {result : Except AccountStorageError α} {a : α}

@[simp] theorem val_ofUInt64 (value : UInt64) : (U256.ofUInt64 value).val = value.toNat := rfl

theorem cdiv_eq_some : Etherlink.cdiv l r = some c ↔ 0 < r.val ∧ c.val = l.val ⌈/⌉ r.val := by
  unfold Etherlink.cdiv
  rcases Nat.eq_zero_or_pos r.val with zero | positive
  · rw [if_pos (Fin.ext zero)]
    simp [zero]
  · have nonzero : r ≠ 0 := fun zero => by simp [zero] at positive
    have remainder : (l % r = 0) = (l.val % r.val = 0) := by rw [Fin.ext_iff, Fin.val_mod]; rfl
    simp only [if_neg nonzero, remainder, positive, true_and]
    split
    · rename_i whole
      rw [ceilDiv_of_mod_eq_zero positive whole, Option.some_inj, Fin.ext_iff, eq_comm]
      rfl
    · rename_i rest
      have room : l.val / r.val + 1 ≤ 2 ^ 256 - 1 := by
        have division := Nat.div_add_mod l.val r.val
        have smaller : l.val / r.val ≤ r.val * (l.val / r.val) := Nat.le_mul_of_pos_left _ positive
        omega
      rw [ceilDiv_of_mod_ne_zero positive rest, Option.some_inj, Fin.ext_iff, eq_comm, ← Nat.min_eq_left room]
      rfl

def gasOfDaFee (daFee price : U256) : Nat := daFee.val ⌈/⌉ price.val

structure FeesOfGas (updates : FeeUpdates) (price : U256) (gasUsed : Nat) (daFee : U256) :
    Prop where
  gasPrice : updates.overallGasPrice = price
  used : updates.overallGasUsed.val = gasUsed + gasOfDaFee daFee price
  burned : updates.burnAmount.val + daFee.val = (gasUsed + gasOfDaFee daFee price) * price.val
  charged : updates.chargeUserAmount.val = gasOfDaFee daFee price * price.val
  compensated : updates.compensateSequencerAmount = daFee

namespace FeesOfGas
variable {gasUsed : Nat} {daFee : U256}

theorem compensated_le_charged (updated : FeesOfGas updates price gasUsed daFee) (positive : 0 < price.val) :
    updates.compensateSequencerAmount.val ≤ updates.chargeUserAmount.val := by
  rw [updated.compensated, updated.charged]
  exact le_mul_ceilDiv _ positive

end FeesOfGas

theorem ofGasAndDaFee_eq_some {used daFee : U256} (positive : 0 < fees.baseFeePerGas.val) :
    ofGasAndDaFee fees used daFee = some updates ↔
      used.val * fees.baseFeePerGas.val +
          (used.val + gasOfDaFee daFee fees.baseFeePerGas) * fees.baseFeePerGas.val < 2 ^ 256 ∧
        FeesOfGas updates fees.baseFeePerGas used.val daFee := by
  have rounded := add_mul_ceilDiv daFee.val used.val positive
  have covered := le_mul_ceilDiv daFee.val positive
  simp only [ofGasAndDaFee, Option.bind_eq_bind, Option.bind_eq_some_iff,
    checkedMul_eq_some, checkedAdd_eq_some, checkedSub_eq_some, cdiv_eq_some, Option.pure_def,
    Option.some_inj]
  constructor
  · rintro ⟨execution, execution_eq, initial, initial_eq, gasUsed, ⟨-, gasUsed_eq⟩, total, total_eq,
      sum, sum_eq, burn, burn_eq, charge, charge_eq, rfl⟩
    have used_eq : gasUsed.val = used.val + gasOfDaFee daFee fees.baseFeePerGas := by
      rw [gasUsed_eq, initial_eq, execution_eq, rounded, Nat.add_comm]
      rfl
    have total_eq : total.val =
        (used.val + gasOfDaFee daFee fees.baseFeePerGas) * fees.baseFeePerGas.val := by
      rw [total_eq, used_eq, Nat.mul_comm]
    refine ⟨?_, rfl, used_eq, ?_, ?_, rfl⟩
    · rw [← execution_eq, ← total_eq, ← sum_eq]
      exact sum.isLt
    · show burn.val + daFee.val = _
      omega
    · show charge.val = _
      rw [Nat.add_mul] at total_eq
      omega
  · rintro ⟨fits, gasPrice, used_eq, burned, charged, compensated⟩
    obtain ⟨price, gasUsed, burn, charge, compensate⟩ := updates
    simp only at gasPrice used_eq burned charged compensated
    subst gasPrice compensated
    have total := Nat.add_mul used.val (gasOfDaFee compensate fees.baseFeePerGas)
      fees.baseFeePerGas.val
    refine ⟨⟨used.val * fees.baseFeePerGas.val, by omega⟩, rfl,
      ⟨compensate.val + used.val * fees.baseFeePerGas.val, by omega⟩, rfl, gasUsed, ⟨positive, ?_⟩,
      ⟨(used.val + gasOfDaFee compensate fees.baseFeePerGas) * fees.baseFeePerGas.val, by omega⟩, ?_,
      ⟨_, fits⟩, rfl, burn, ?_, charge, ?_, rfl⟩
    · rw [used_eq, rounded, Nat.add_comm]
      rfl
    · show _ * _ = _
      rw [used_eq, Nat.mul_comm]
    · show burn.val + (compensate.val + used.val * fees.baseFeePerGas.val) = _
      rw [← Nat.add_assoc, burned, Nat.add_comm]
    · show charge.val + used.val * fees.baseFeePerGas.val = _
      rw [charged, Nat.add_comm]
      exact total.symm

theorem exists_ofGasAndDaFee (used daFee : U256) (positive : 0 < fees.baseFeePerGas.val)
    (fits : used.val * fees.baseFeePerGas.val +
      (used.val + gasOfDaFee daFee fees.baseFeePerGas) * fees.baseFeePerGas.val < 2 ^ 256) :
    ∃ updates, ofGasAndDaFee fees used daFee = some updates := by
  have covered : daFee.val ≤ gasOfDaFee daFee fees.baseFeePerGas * fees.baseFeePerGas.val :=
    le_mul_ceilDiv _ positive
  have total := Nat.add_mul used.val (gasOfDaFee daFee fees.baseFeePerGas) fees.baseFeePerGas.val
  have smaller := Nat.le_mul_of_pos_right (used.val + gasOfDaFee daFee fees.baseFeePerGas) positive
  let updates : FeeUpdates := {
    overallGasPrice := fees.baseFeePerGas
    overallGasUsed := ⟨used.val + gasOfDaFee daFee fees.baseFeePerGas, by omega⟩
    burnAmount := ⟨(used.val + gasOfDaFee daFee fees.baseFeePerGas) * fees.baseFeePerGas.val -
      daFee.val, by omega⟩
    chargeUserAmount := ⟨gasOfDaFee daFee fees.baseFeePerGas * fees.baseFeePerGas.val, by omega⟩
    compensateSequencerAmount := daFee }
  refine ⟨updates, (ofGasAndDaFee_eq_some positive).2 ⟨fits, rfl, rfl, ?_, rfl, rfl⟩⟩
  exact Nat.sub_add_cancel (by omega)

variable (tx : EthereumTransactionCommon)

def owedDaFee (fees : BlockFees) (isDelayed : Bool) : U256 :=
  if isDelayed then 0 else daFee fees.daFeePerByte tx.data tx.accessList

def contentOf (isDelayed : Bool) : TransactionContent :=
  if isDelayed then .ethereumDelayed tx else .ethereum tx

theorem feeUpdates_contentOf (fees : BlockFees) (isDelayed : Bool)
    (used : U256) : (contentOf tx isDelayed).feeUpdates fees used =
      ofGasAndDaFee fees used (owedDaFee tx fees isDelayed) := by
  cases isDelayed <;> rfl

@[simp] theorem gasOfDaFee_zero (price : U256) : gasOfDaFee 0 price = 0 := by
  simp [gasOfDaFee]

theorem gasLeftForExecution_eq_ok {limit left : UInt64} {worth : U256} :
    gasLeftForExecution limit (gasAsU64 worth) = .ok left ↔ left.toNat + worth.val = limit.toNat := by
  unfold gasLeftForExecution gasAsU64
  have bounded := limit.toNat_lt
  split
  · rename_i fits
    have same : (UInt64.ofNat worth.val).toNat = worth.val := by
      rw [UInt64.toNat_ofNat', Nat.mod_eq_of_lt fits]
    rw [ok_bind]
    split
    · rename_i enough
      have difference := UInt64.toNat_sub_of_le _ _ enough
      rw [UInt64.le_iff_toNat_le, same] at enough
      rw [pure_eq_ok, Except.ok.injEq, ← UInt64.toNat_inj, difference, same]
      omega
    · rename_i short
      rw [UInt64.le_iff_toNat_le, same] at short
      constructor
      · intro impossible
        cases impossible
      · intro sum
        omega
  · constructor
    · intro impossible
      cases impossible
    · intro sum
      omega

theorem txExecutionGasLimit_eq_ok {tx} {isDelayed : Bool} (positive : 0 < fees.baseFeePerGas.val) :
    txExecutionGasLimit tx fees isDelayed = .ok (.ok gasLimit) ↔
      gasLimit.toNat + gasOfDaFee (owedDaFee tx fees isDelayed) fees.baseFeePerGas =
        tx.gasLimit.toNat := by
  unfold txExecutionGasLimit owedDaFee
  cases isDelayed with
  | true =>
    rw [if_pos rfl, if_pos rfl, gasOfDaFee_zero, Nat.add_zero, UInt64.toNat_inj]
    simp [eq_comm]
  | false =>
    rw [if_neg Bool.false_ne_true, if_neg Bool.false_ne_true]
    have rounded := @cdiv_eq_some (daFee fees.daFeePerByte tx.data tx.accessList) fees.baseFeePerGas
    cases worth : Etherlink.cdiv (daFee fees.daFeePerByte tx.data tx.accessList) fees.baseFeePerGas with
    | none =>
      have bounded : gasOfDaFee (daFee fees.daFeePerByte tx.data tx.accessList)
          fees.baseFeePerGas < 2 ^ 256 := by
        refine Nat.lt_of_le_of_lt ?_ (daFee fees.daFeePerByte tx.data tx.accessList).isLt
        rw [gasOfDaFee, ceilDiv_le_iff_le_smul positive]
        exact Nat.le_mul_of_pos_left _ positive
      have some_worth := (@rounded ⟨_, bounded⟩).2 ⟨positive, rfl⟩
      rw [worth] at some_worth
      cases some_worth
    | some worth_ =>
      have value := (rounded.1 worth).2
      rw [gasForFees, worth, gasOfDaFee, ← value]
      simp only [orPanic, ok_bind, pure_eq_ok, Except.ok.injEq]
      exact gasLeftForExecution_eq_ok

theorem gasPayment_eq_ok {amount : U256} :
    gasPayment gas price = .ok amount ↔ amount.val = gas.toNat * price.val := by
  unfold gasPayment
  rw [← val_ofUInt64, ← checkedMul_eq_some]
  split <;> simp_all

theorem liftAccount_eq_ok : liftAccount result = .ok a ↔ result = .ok a := by
  cases result <;> simp [liftAccount]

theorem liftAccounts_eq_ok : liftAccounts result = .ok a ↔ result = .ok a := by
  cases result <;> simp [liftAccounts]

theorem prePayTransactions_eq_ok : prePayTransactions world caller (some gasLimit) price =
      .ok (true, world') ↔
    ∃ held left, world.balance caller = .ok held ∧
      left.val + gasLimit.toNat * price.val = held.val ∧ world.setBalance caller left = world' := by
  simp only [prePayTransactions, bind_eq_ok, gasPayment_eq_ok, liftAccount_eq_ok,
    World.balanceRemove_eq_ok, Bool.true_eq_false, false_and, or_false, true_and]
  constructor
  · rintro ⟨amount, payment, held, isHeld, left, sum, rfl⟩
    exact ⟨held, left, isHeld, payment ▸ sum, rfl⟩
  · rintro ⟨held, left, isHeld, sum, rfl⟩
    exact ⟨⟨gasLimit.toNat * price.val, by omega⟩, rfl, held, isHeld, left, sum, rfl⟩

theorem runTransaction_eq_ok_some {execute} {retriable : Bool} :
    runTransaction execute world caller (some gasLimit) price true retriable =
        .ok (some outcome, final) ↔
      ∃ held left executed, world.balance caller = .ok held ∧
        left.val + gasLimit.toNat * price.val = held.val ∧
        execute (world.setBalance caller left) = .ok (outcome, executed) ∧
        settleGas executed outcome caller (some gasLimit) price true retriable = .ok final := by
  unfold runTransaction
  rw [bind_eq_ok, prePayIf, if_pos rfl]
  constructor
  · rintro ⟨⟨_ | _, prepaid⟩, paid, run⟩
    · simp [runPaid] at run
    · obtain ⟨held, left, isHeld, sum, rfl⟩ := prePayTransactions_eq_ok.1 paid
      simp only [runPaid, bind_eq_ok, Prod.exists, pure_eq_ok, Except.ok.injEq, Prod.mk.injEq,
        Option.some.injEq] at run
      obtain ⟨_, executed, ran, _, settled, rfl, rfl⟩ := run
      exact ⟨held, left, executed, isHeld, sum, ran, settled⟩
  · rintro ⟨held, left, executed, isHeld, sum, ran, settled⟩
    refine ⟨(true, _), prePayTransactions_eq_ok.2 ⟨held, left, isHeld, sum, rfl⟩, ?_⟩
    simp only [runPaid, ran, ok_bind, settled, pure_eq_ok]

end Octez.Proof.Etherlink
