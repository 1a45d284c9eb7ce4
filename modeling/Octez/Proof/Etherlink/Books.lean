import Octez.Proof.Etherlink.Charges

namespace Octez.Proof.Etherlink
open Octez.Etherlink Octez.Lib Octez.Lib.Unsigned

variable {kernel : Kernel} {world final : World} {constants : BlockConstants}
  {tx : EthereumTransactionCommon} {isDelayed retriable : Bool} {info : ExecutionInfo} {caller : H160}
  {gasLimit allocatedTicks : UInt64} {txHash : Bytes} {α : Type} {a : α}

/-- The stages of a transaction that is reported as valid. -/
structure ValidRun (kernel : Kernel) (world : World) (constants : BlockConstants)
    (tx : EthereumTransactionCommon) (isDelayed : Bool) (allocatedTicks : UInt64) (retriable : Bool)
    (info : ExecutionInfo) (final : World) where
  caller : H160
  gasLimit : UInt64
  outcome : ExecutionOutcome
  updates : FeeUpdates
  reported : ExecutionOutcome
  prepaid : World
  executed : World
  settled : World
  posted : World
  collected : World
  charged : World
  valid : isValidEthereumTransactionCommon kernel.callerOf world tx constants
    constants.blockFees.baseFeePerGas isDelayed = .ok (.valid caller gasLimit)
  prepay : prePayTransactions world caller (some gasLimit) constants.blockFees.baseFeePerGas =
    .ok (true, prepaid)
  execute : kernel.execute constants tx caller gasLimit allocatedTicks prepaid = .ok (outcome, executed)
  settle : settleGas executed outcome caller (some gasLimit) constants.blockFees.baseFeePerGas true retriable =
    .ok settled
  notRetried : isRetried outcome retriable = false
  updated : (contentOf tx isDelayed).feeUpdates constants.blockFees
    (U256.ofUInt64 outcome.gasUsed) = some updates
  modified : updates.modifyOutcome outcome = some reported
  post : kernel.postWithdrawals settled reported.withdrawals = .ok posted
  collect : posted.balanceRemove caller updates.chargeUserAmount = .ok (true, collected)
  distribute : updates.distribute collected = .ok charged
  index : kernel.indexNewAccounts charged (some reported) = .ok final
  info_eq : info = { caller, executionOutcome := some reported, feeUpdates := updates
                     estimatedTicksUsed := outcome.estimatedTicksUsed }

theorem outcome_of_valid (positive : 0 < constants.blockFees.baseFeePerGas.val)
    (valid : isValidEthereumTransactionCommon kernel.callerOf world tx constants
      constants.blockFees.baseFeePerGas isDelayed = .ok (.valid caller gasLimit)) {execute} {outcome}
    (run : runTransaction execute world caller (some gasLimit) constants.blockFees.baseFeePerGas true
      retriable = .ok (outcome, final)) : ∃ some_, outcome = some some_ := by
  obtain ⟨held, isHeld, covered, limit⟩ := balance_of_valid positive valid
  obtain ⟨⟨paid, prepaid⟩, prepay, rest⟩ := bind_eq_ok.1 run
  rw [prePayIf, if_pos rfl] at prepay
  cases paid with
  | true =>
    simp only [runPaid, bind_eq_ok, Prod.exists, pure_eq_ok, Except.ok.injEq, Prod.mk.injEq] at rest
    obtain ⟨some_, _, _, _, _, same, _⟩ := rest
    exact ⟨some_, same.symm⟩
  | false =>
    simp only [prePayTransactions, bind_eq_ok, gasPayment_eq_ok, liftAccount_eq_ok,
      World.balanceRemove_eq_ok, isHeld, Except.ok.injEq, Bool.false_eq_true, false_and,
      exists_false, false_or, true_and] at prepay
    obtain ⟨amount, payment, _, rfl, short, -⟩ := prepay
    rw [Fin.lt_def] at short
    have less : gasLimit.toNat * constants.blockFees.baseFeePerGas.val ≤
        tx.gasLimit.toNat * constants.blockFees.baseFeePerGas.val :=
      Nat.mul_le_mul_right _ (by omega)
    omega

theorem liftEthereum_eq_ok {result} :
    liftEthereum result = .ok a ↔ result = .ok a := by
  cases result <;> simp [liftEthereum]

theorem orPanic_eq_ok {result : Option α} : orPanic result = .ok a ↔ result = some a := by
  cases result <;> simp [orPanic]

theorem validRun_of_applyTransaction (positive : 0 < constants.blockFees.baseFeePerGas.val)
    (applied : kernel.applyTransaction world constants ⟨txHash, contentOf tx isDelayed⟩ allocatedTicks
      retriable = .ok (.valid info, final)) :
    Nonempty (ValidRun kernel world constants tx isDelayed allocatedTicks retriable info final) := by
  obtain ⟨⟨result, settled⟩, applied, finished⟩ := bind_eq_ok.1 applied
  replace applied : kernel.applyEthereumTransactionCommon world constants tx allocatedTicks retriable
      isDelayed = .ok (result, settled) := by cases isDelayed <;> exact applied
  rcases result with result | _ | result
  rotate_left
  · cases finished
  · obtain ⟨⟨_, _⟩, _, impossible⟩ := bind_eq_ok.1 finished
    cases impossible
  obtain ⟨⟨_, _⟩, handled, same⟩ := bind_eq_ok.1 finished
  cases same
  obtain ⟨validity, isValid, ran⟩ := bind_eq_ok.1 applied
  cases validity with
  | valid caller gasLimit =>
    obtain ⟨⟨outcome, after⟩, run, same⟩ := bind_eq_ok.1 ran
    rw [liftEthereum_eq_ok] at run
    obtain ⟨outcome, rfl⟩ := outcome_of_valid positive isValid run
    simp only [pure_eq_ok, Except.ok.injEq, Prod.mk.injEq, transactionResult] at same
    obtain ⟨same, rfl⟩ := same
    split at same
    · cases same
    rename_i notRetried
    cases same
    simp only [Kernel.handleTransactionResult, Kernel.reportOutcome, Kernel.payFeesIf, bind_eq_ok,
      orPanic_eq_ok, Prod.exists, pure_eq_ok, Except.ok.injEq, Prod.mk.injEq, if_true] at handled
    obtain ⟨updates, updated, _, _, ⟨reported, modified, posted, post, rfl, rfl⟩, charged, charge,
      _, index, rfl, rfl⟩ := handled
    obtain ⟨held, left, executed, isHeld, paid, ran, settled⟩ := runTransaction_eq_ok_some.1 run
    obtain ⟨held', left', isHeld', paid', distributed⟩ := apply_eq_ok.1 charge
    exact ⟨{ caller, gasLimit, outcome, updates, reported, prepaid := world.setBalance caller left, executed
             settled := after, posted, collected := posted.setBalance caller left', charged
             valid := isValid, prepay := prePayTransactions_eq_ok.2 ⟨held, left, isHeld, paid, rfl⟩
             execute := ran, settle := settled, notRetried := by simpa using notRetried, updated, modified, post
             collect := World.balanceRemove_eq_ok.2 ⟨held', isHeld', .inl ⟨left', rfl, paid', rfl⟩⟩
             distribute := distributed, index, info_eq := rfl }⟩
  | _ => cases ran

def wei (world : World) (address : H160) : Int :=
  match world.balance address with
  | .ok held => held.val
  | .error _ => 0

theorem wei_of_ok {held : U256} (isHeld : world.balance caller = .ok held) : wei world caller = held.val := by
  rw [wei, isHeld]

theorem wei_settled {outcome : ExecutionOutcome} {price : U256}
    (settled : settleGas world outcome caller (some gasLimit) price true retriable = .ok final) :
    wei final caller = wei world caller + (refundedGas outcome gasLimit retriable * price.val : Nat) := by
  by_cases repaid : doRefund outcome true
  · obtain ⟨held, isHeld⟩ : ∃ held, world.balance caller = .ok held := by
      rw [settleGas, if_pos repaid, unusedGas_some, repayGas] at settled
      simp only [bind_eq_ok, liftAccount_eq_ok, World.balanceAdd_eq_ok] at settled
      obtain ⟨_, _, held, _, isHeld, _⟩ := settled
      exact ⟨held, (balance_unwound ..).symm.trans isHeld⟩
    obtain ⟨after, sum, rfl⟩ := (settleGas_eq_ok isHeld).1 settled
    rw [if_pos repaid, wei_of_ok (World.balance_setBalance _ _ _), sum, wei_of_ok isHeld, Nat.cast_add]
  · rw [settleGas, if_neg repaid] at settled
    cases settled
    change wei (unwound world outcome caller retriable) caller = _
    rw [refundedGas, if_neg repaid, Nat.zero_mul, Nat.cast_zero, add_zero, wei, balance_unwound, wei]

namespace ValidRun
variable (run : ValidRun kernel world constants tx isDelayed allocatedTicks retriable info final)

/-- What is paid before the execution, less what is paid back after it, and what is charged at the end. -/
def lost : Int :=
  (wei world run.caller - wei run.prepaid run.caller) - (wei run.settled run.caller - wei run.executed run.caller) +
    (wei run.posted run.caller - wei run.collected run.caller)

def reportedFee : Nat := run.reported.gasUsed.toNat * run.updates.overallGasPrice.val

def burned : Int := (readBurnedFees run.charged.host).val - (readBurnedFees run.posted.host).val

def credited : Int :=
  match readSequencerPoolAddress run.posted.host with
  | some pool => wei run.charged pool - wei run.collected pool
  | none => 0

def Balanced : Prop :=
  run.lost = run.reportedFee ∧ run.reportedFee = run.burned + run.credited ∧
    run.reported.gasUsed ≤ tx.gasLimit

def toBurn : Nat :=
  if (readSequencerPoolAddress run.posted.host).isSome then run.updates.burnAmount.val
  else run.updates.burnAmount.val + run.updates.compensateSequencerAmount.val

section
variable (positive : 0 < constants.blockFees.baseFeePerGas.val)
include positive

theorem limit :
    run.gasLimit.toNat + gasOfDaFee (owedDaFee tx constants.blockFees isDelayed)
      constants.blockFees.baseFeePerGas = tx.gasLimit.toNat :=
  (balance_of_valid positive run.valid).choose_spec.2.2

theorem fits_and_ofGas :
    run.outcome.gasUsed.toNat * constants.blockFees.baseFeePerGas.val +
        (run.outcome.gasUsed.toNat + gasOfDaFee (owedDaFee tx constants.blockFees isDelayed)
          constants.blockFees.baseFeePerGas) * constants.blockFees.baseFeePerGas.val < 2 ^ 256 ∧
      FeesOfGas run.updates constants.blockFees.baseFeePerGas run.outcome.gasUsed.toNat
        (owedDaFee tx constants.blockFees isDelayed) := by
  have updated := run.updated
  rw [feeUpdates_contentOf] at updated
  exact (ofGasAndDaFee_eq_some positive).1 updated

theorem ofGas :
    FeesOfGas run.updates constants.blockFees.baseFeePerGas run.outcome.gasUsed.toNat
      (owedDaFee tx constants.blockFees isDelayed) :=
  (run.fits_and_ofGas positive).2

end

theorem collected_eq : ∃ before left, run.posted.balance run.caller = .ok before ∧
    left.val + run.updates.chargeUserAmount.val = before.val ∧
    run.collected = run.posted.setBalance run.caller left := by
  obtain ⟨before, isBefore, ⟨left, -, sum, same⟩ | ⟨impossible, -⟩⟩ := World.balanceRemove_eq_ok.1 run.collect
  · exact ⟨before, left, isBefore, sum, same.symm⟩
  · cases impossible

theorem lost_eq : run.lost =
    (run.gasLimit.toNat * constants.blockFees.baseFeePerGas.val + run.updates.chargeUserAmount.val : Nat) -
      (refundedGas run.outcome run.gasLimit retriable * constants.blockFees.baseFeePerGas.val : Nat) := by
  obtain ⟨held, left, isHeld, paid, prepaid⟩ := prePayTransactions_eq_ok.1 run.prepay
  obtain ⟨before, rest, isBefore, sum, collected⟩ := run.collected_eq
  rw [lost, wei_settled run.settle, collected, ← prepaid, wei_of_ok isHeld, wei_of_ok isBefore,
    wei_of_ok (World.balance_setBalance _ _ _), wei_of_ok (World.balance_setBalance _ _ _)]
  omega

theorem credited_eq : run.credited =
    if (readSequencerPoolAddress run.posted.host).isSome then run.updates.compensateSequencerAmount.val else 0 := by
  obtain ⟨before, left, -, -, collected⟩ := run.collected_eq
  rw [credited]
  cases isPool : readSequencerPoolAddress run.posted.host with
  | none => rfl
  | some pool =>
    have isPool : readSequencerPoolAddress run.collected.host = some pool := by
      rw [collected, World.readSequencerPoolAddress_setBalance, isPool]
    obtain ⟨held, after, isHeld, sum, same⟩ := (distribute_of_pool isPool).1 run.distribute
    rw [← same]
    simp only [wei_of_ok isHeld, wei_of_ok (World.balance_setBalance _ _ _), sum, Option.isSome_some, if_true]
    omega

theorem gasUsed_reported : run.reported.gasUsed.toNat = run.updates.overallGasUsed.val := by
  have modified := run.modified
  rw [FeeUpdates.modifyOutcome, Option.ite_none_right_eq_some] at modified
  rw [← Option.some.inj modified.2]
  exact UInt64.toNat_ofNat'.trans (Nat.mod_eq_of_lt modified.1)

section
variable (positive : 0 < constants.blockFees.baseFeePerGas.val)
include positive

theorem reportedFee_eq :
    run.reportedFee = (run.outcome.gasUsed.toNat + gasOfDaFee (owedDaFee tx constants.blockFees
      isDelayed) constants.blockFees.baseFeePerGas) * constants.blockFees.baseFeePerGas.val := by
  rw [reportedFee, run.gasUsed_reported, (run.ofGas positive).used, (run.ofGas positive).gasPrice]

theorem reportedFee_eq_toBurn : run.reportedFee = run.toBurn + run.credited := by
  have fees := run.ofGas positive
  rw [run.reportedFee_eq positive, ← fees.burned, toBurn, run.credited_eq, fees.compensated]
  split <;> omega

theorem burned_eq :
    run.burned = min ((readBurnedFees run.posted.host).val + run.toBurn) (2 ^ 256 - 1) -
      (readBurnedFees run.posted.host).val := by
  obtain ⟨before, left, -, -, collected⟩ := run.collected_eq
  have distributed := run.distribute
  rw [collected] at distributed
  rw [burned, toBurn]
  cases isPool : readSequencerPoolAddress run.posted.host with
  | none =>
    rw [distribute_of_no_pool (by simpa using isPool)] at distributed
    rw [← Except.ok.inj distributed]
    obtain ⟨fits, fees⟩ := run.fits_and_ofGas positive
    have small : run.updates.burnAmount.val + run.updates.compensateSequencerAmount.val ≤
        2 ^ 256 - 1 := by
      rw [fees.compensated, fees.burned]
      omega
    simp only [World.readBurnedFees_burn, World.readBurnedFees_setBalance, val_saturatingAdd,
      Nat.min_eq_left small, Option.isSome_none, Bool.false_eq_true, if_false]
  | some pool =>
    obtain ⟨before, after, -, -, same⟩ := (distribute_of_pool (by simpa using isPool)).1 distributed
    rw [← same]
    simp

theorem reportedFee_eq_burned_iff :
    run.reportedFee = run.burned + run.credited ↔
      (readBurnedFees run.posted.host).val + run.toBurn < 2 ^ 256 := by
  rw [run.reportedFee_eq_toBurn positive, run.burned_eq positive]
  omega

theorem lost_eq_reportedFee_iff (within : run.outcome.gasUsed ≤ run.gasLimit) :
    run.lost = run.reportedFee ↔ doRefund run.outcome true = true ∨ run.outcome.gasUsed = run.gasLimit := by
  have difference := UInt64.toNat_sub_of_le _ _ within
  rw [UInt64.le_iff_toNat_le] at within
  rw [run.lost_eq, refundedGas, run.notRetried, run.reportedFee_eq positive, (run.ofGas positive).charged,
    Nat.add_mul]
  generalize gasOfDaFee (owedDaFee tx constants.blockFees isDelayed) constants.blockFees.baseFeePerGas *
    constants.blockFees.baseFeePerGas.val = fee
  have scaled := Nat.sub_mul run.gasLimit.toNat run.outcome.gasUsed.toNat
    constants.blockFees.baseFeePerGas.val
  have less := Nat.mul_le_mul_right constants.blockFees.baseFeePerGas.val within
  cases doRefund run.outcome true with
  | true =>
    simp only [if_true, Bool.false_eq_true, if_false, difference, true_or, iff_true, scaled]
    omega
  | false =>
    simp only [Bool.false_eq_true, if_false, Nat.zero_mul, Nat.cast_zero, sub_zero, false_or,
      Nat.cast_inj, Nat.add_right_cancel_iff, ← UInt64.toNat_inj]
    rw [Nat.mul_left_inj positive.ne', eq_comm]

theorem gasUsed_le (within : run.outcome.gasUsed ≤ run.gasLimit) : run.reported.gasUsed ≤ tx.gasLimit := by
  rw [UInt64.le_iff_toNat_le] at within ⊢
  rw [run.gasUsed_reported, (run.ofGas positive).used, ← run.limit positive]
  omega

end

end ValidRun

/-- The books balance exactly for the executions that pay back the gas that was not used, or leave
none; those that end in an error of the EVM keep all of it and report what was used. -/
theorem fees_balance_iff (txHash : Bytes) (positive : 0 < constants.blockFees.baseFeePerGas.val)
    (metered : ∀ caller gasLimit allocatedTicks world outcome world',
      kernel.execute constants tx caller gasLimit allocatedTicks world = .ok (outcome, world') →
      outcome.gasUsed ≤ gasLimit)
    (applied : kernel.applyTransaction world constants ⟨txHash, contentOf tx isDelayed⟩ allocatedTicks
      retriable = .ok (.valid info, final)) :
    Nonempty (ValidRun kernel world constants tx isDelayed allocatedTicks retriable info final) ∧
      ∀ run : ValidRun kernel world constants tx isDelayed allocatedTicks retriable info final,
        run.Balanced ↔
          (doRefund run.outcome true = true ∨ run.outcome.gasUsed = run.gasLimit) ∧
            (readBurnedFees run.posted.host).val + run.toBurn < 2 ^ 256 := by
  refine ⟨validRun_of_applyTransaction positive applied, fun run => ?_⟩
  have within := metered _ _ _ _ _ _ run.execute
  rw [ValidRun.Balanced, run.lost_eq_reportedFee_iff positive within,
    run.reportedFee_eq_burned_iff positive, and_iff_left (run.gasUsed_le positive within)]

/-- An execution that has used some gas when it ends, fewer if it has not as much. -/
def endingIn (reason : ExitReason) (used : UInt64) : Kernel where
  callerOf _ := some holder
  execute _ _ _ gasLimit _ world := .ok ({ gasUsedUp (if used ≤ gasLimit then used else gasLimit) false with
    reason := .exit reason }, world)
  postWithdrawals world _ := .ok world
  indexNewAccounts world _ := .ok world

def callWithGas (gasLimit : UInt64) : EthereumTransactionCommon :=
  { plainTransfer 0 with gasLimit, data := [0xfe] }

/-- The callee of plainTransfer has this code. -/
def withCode (code : Bytes) : World :=
  let world := holding 1000000000000000
  { world with
    host := world.host.write ((world.account (List.replicate 20 0xbe)).path ++ [.name .code]) (.bytes code) }

/-- The call of the code `PUSH1 0 PUSH1 0 REVERT` costs 21000 gas, 16 for the byte of data and 6 for the pushes. -/
theorem reverted_call_balances :
    ∃ info final, (endingIn .revert 21022).applyTransaction (withCode [0x60, 0, 0x60, 0, 0xfd]) gweiConstants
          ⟨[], contentOf (callWithGas 725000) false⟩ 0 false = .ok (.valid info, final) ∧
        ∃ run : ValidRun (endingIn .revert 21022) (withCode [0x60, 0, 0x60, 0, 0xfd]) gweiConstants
          (callWithGas 725000) false 0 false info final, run.Balanced := by
  refine ⟨_, _, rfl, ?_⟩
  let run : ValidRun (endingIn .revert 21022) (withCode [0x60, 0, 0x60, 0, 0xfd]) gweiConstants
      (callWithGas 725000) false 0 false _ _ :=
    ⟨holder, 121000, _, _, _, _, _, _, _, _, _,
      rfl, rfl, rfl, rfl, rfl, rfl, rfl, rfl, rfl, rfl, rfl, rfl⟩
  refine ⟨run, ((fees_balance_iff [] (by decide) ?_ rfl).2 run).2 ⟨.inl rfl, by decide +kernel⟩⟩
  intro _ gasLimit _ _ _ _ executed
  cases executed
  split
  · assumption
  · exact UInt64.le_refl _

/-- The code `ADD` fails on the empty stack after its 3 gas are recorded, with the other gas left. The call
is charged for the whole gas limit, although the receipt has less. -/
theorem failed_call_does_not_balance :
    ∃ info final,
      (endingIn (.error .stackUnderflow) 21019).applyTransaction (withCode [0x01]) gweiConstants
          ⟨[], contentOf (callWithGas 725000) false⟩ 0 false = .ok (.valid info, final) ∧
        ∃ run : ValidRun (endingIn (.error .stackUnderflow) 21019) (withCode [0x01])
          gweiConstants (callWithGas 725000) false 0 false info final,
          run.lost = 725000000000000 ∧ run.reportedFee = 625019000000000 := by
  refine ⟨_, _, rfl, ?_⟩
  refine ⟨⟨holder, 121000, _, _, _, _, _, _, _, _, _,
    rfl, rfl, rfl, rfl, rfl, rfl, rfl, rfl, rfl, rfl, rfl, rfl⟩, ?_⟩
  decide +kernel

end Octez.Proof.Etherlink
