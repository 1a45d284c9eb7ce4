import Octez.Model.Etherlink.Produce
import Octez.Proof.Etherlink.Books

namespace Octez.Proof.Etherlink
open Octez.Etherlink Octez.Lib Octez.Lib.Durable World

variable {producer : Producer} {world world' : World} {host host' host'' : Host Entry}
  {constants : BlockConstants} {transaction : Transaction} {allocatedTicks : UInt64}
  {retriable : Bool} {updates : FeeUpdates} {caller address : H160} {amount : U256}

theorem elsewhere_refl (host : Host Entry) : Elsewhere host host := ⟨.refl _ _, .refl _ _, .refl _ _⟩

theorem elsewhere_trans (first : Elsewhere host host') (second : Elsewhere host' host'') :
    Elsewhere host host'' :=
  ⟨first.blocks.trans second.blocks, first.burned.trans second.burned, first.pool.trans second.pool⟩

theorem top_apart_evmBlocks (accounts : EthereumAccountStorage) : Apart accounts.top evmBlocks := by
  unfold EthereumAccountStorage.top EthereumAccountStorage.layer
  split <;> simp [Apart, evmBlocks, evmAccountsPath]

theorem write_elsewhere (world : World) (address : H160) {slot : Path Step} {value : Entry} :
    Elsewhere world.host (world.host.write ((world.account address).path ++ slot) value) :=
  ⟨sameBelow_write world (top_apart_evmBlocks _), sameBelow_write world (top_apart_burnedFees _),
    sameBelow_write world (top_apart_sequencerPool _)⟩

theorem balanceAdd_elsewhere (added : world.balanceAdd address amount = .ok world') :
    Elsewhere world.host world'.host := by
  obtain ⟨before, after, -, -, rfl⟩ := balanceAdd_eq_ok.1 added
  exact write_elsewhere world address

theorem balanceRemove_elsewhere {paid : Bool}
    (removed : world.balanceRemove address amount = .ok (paid, world')) :
    Elsewhere world.host world'.host := by
  obtain ⟨before, -, ⟨after, -, -, rfl⟩ | ⟨-, -, rfl⟩⟩ := balanceRemove_eq_ok.1 removed
  · exact write_elsewhere world address
  · exact elsewhere_refl _

variable {gasLimit : Option UInt64} {price : U256} {payForGas : Bool} {outcome : Option ExecutionOutcome}

theorem prePayIf_elsewhere {paid : Bool}
    (prepaid : prePayIf payForGas world caller gasLimit price = .ok (paid, world')) :
    Elsewhere world.host world'.host := by
  unfold prePayIf at prepaid
  split at prepaid
  · cases gasLimit with
    | none =>
      cases prepaid
      exact elsewhere_refl _
    | some gasLimit =>
      obtain ⟨amount, -, removed⟩ := bind_eq_ok.1 prepaid
      exact balanceRemove_elsewhere (liftAccount_eq_ok.1 removed)
  · cases prepaid
    exact elsewhere_refl _

theorem settleGas_elsewhere {outcome}
    (settled : settleGas world outcome caller gasLimit price payForGas retriable = .ok world') :
    Elsewhere world.host world'.host := by
  have unwinds : Elsewhere world.host
      (if isRetried outcome retriable then world.decrementNonce caller else world).host := by
    split
    · exact write_elsewhere world caller
    · exact elsewhere_refl _
  unfold settleGas at settled
  dsimp only at settled
  split at settled
  · unfold repayGas at settled
    split at settled
    · cases settled
      exact unwinds
    · obtain ⟨amount, -, added⟩ := bind_eq_ok.1 settled
      exact elsewhere_trans unwinds (balanceAdd_elsewhere (liftAccount_eq_ok.1 added))
  · cases settled
    exact unwinds

theorem applyDeposit_elsewhere (world : World) (deposit : Deposit) :
    Elsewhere world.host (Kernel.applyDeposit world deposit).2.host := by
  unfold Kernel.applyDeposit
  cases added : world.balanceAdd deposit.receiver deposit.amount with
  | ok after => exact balanceAdd_elsewhere added
  | error _ => exact elsewhere_refl _

variable {result : ExecutionResult TransactionResult}

theorem applyEthereumTransactionCommon_elsewhere {tx} {isDelayed : Bool}
    (applied : producer.applyEthereumTransactionCommon world constants tx allocatedTicks retriable
      isDelayed = .ok (result, world')) : Elsewhere world.host world'.host := by
  obtain ⟨validity, -, ran⟩ := bind_eq_ok.1 applied
  cases validity with
  | valid caller gasLimit =>
    obtain ⟨⟨outcome, settled⟩, run, ran⟩ := bind_eq_ok.1 ran
    cases ran
    obtain ⟨⟨paid, prepaid⟩, prepay, run⟩ := bind_eq_ok.1 (liftEthereum_eq_ok.1 run)
    have prepays := prePayIf_elsewhere prepay
    cases paid with
    | false =>
      cases run
      exact prepays
    | true =>
      obtain ⟨⟨outcome, executed⟩, executed_eq, run⟩ := bind_eq_ok.1 run
      obtain ⟨settled, settle, run⟩ := bind_eq_ok.1 run
      cases run
      exact elsewhere_trans prepays (elsewhere_trans
        (producer.execute_elsewhere _ _ _ _ _ _ _ _ executed_eq) (settleGas_elsewhere settle))
  | _ =>
    cases ran
    exact elsewhere_refl _

theorem applyContent_elsewhere {content}
    (applied : producer.applyContent world constants allocatedTicks retriable content =
      .ok (result, world')) : Elsewhere world.host world'.host := by
  cases content with
  | deposit deposit =>
    cases applied
    exact applyDeposit_elsewhere world deposit
  | _ => exact applyEthereumTransactionCommon_elsewhere applied

theorem reportOutcome_elsewhere {reported}
    (report : producer.reportOutcome updates world outcome = .ok (reported, world')) :
    Elsewhere world.host world'.host := by
  cases outcome with
  | none =>
    cases report
    exact elsewhere_refl _
  | some outcome =>
    obtain ⟨modified, -, report⟩ := bind_eq_ok.1 report
    obtain ⟨posted, post, report⟩ := bind_eq_ok.1 report
    cases report
    exact producer.postWithdrawals_elsewhere _ _ _ post

def chargedIn (kernel : Kernel) (application : Application) :
    Except ApplyError (FeeUpdates × World) := do
  match ← kernel.applyContent application.before application.constants application.allocatedTicks
      application.retriable application.transaction.content with
  | (.valid result, settled) =>
    let updates ← orPanic (application.transaction.content.feeUpdates
      application.constants.blockFees result.gasUsed)
    let (_, posted) ← kernel.reportOutcome updates settled result.executionOutcome
    let (_, charged) ← liftAccounts (posted.balanceRemove result.caller updates.chargeUserAmount)
    return (updates, charged)
  | (_, _) => .error .panic

def Applies (kernel : Kernel) (application : Application) : Prop :=
  kernel.applyTransaction application.before application.constants application.transaction
    application.allocatedTicks application.retriable = .ok (application.result, application.after)

variable {application : Application}

theorem distributed_of_valid {info : ExecutionInfo}
    (applies : Applies producer.toKernel application) (valid : application.result = .valid info) :
    ∃ charged distributed, chargedIn producer.toKernel application = .ok (info.feeUpdates, charged) ∧
      Elsewhere application.before.host charged.host ∧ info.feeUpdates.distribute charged = .ok distributed ∧
      Elsewhere distributed.host application.after.host := by
  unfold Applies at applies
  rw [valid] at applies
  obtain ⟨⟨result, settled⟩, applied, finished⟩ := bind_eq_ok.1 applies
  have settles := applyContent_elsewhere applied
  cases result with
  | invalid => cases finished
  | retriable result =>
    obtain ⟨⟨_, _⟩, _, impossible⟩ := bind_eq_ok.1 finished
    cases impossible
  | valid result =>
    obtain ⟨⟨_, _⟩, handled, same⟩ := bind_eq_ok.1 finished
    cases same
    obtain ⟨updates, updated, handled⟩ := bind_eq_ok.1 handled
    obtain ⟨⟨reported, posted⟩, report, handled⟩ := bind_eq_ok.1 handled
    obtain ⟨paid, pay, handled⟩ := bind_eq_ok.1 handled
    obtain ⟨indexed, index, handled⟩ := bind_eq_ok.1 handled
    cases handled
    obtain ⟨⟨isPaid, charged⟩, charge, distribute⟩ := bind_eq_ok.1 pay
    cases isPaid with
    | false => cases distribute
    | true =>
      refine ⟨charged, paid, ?_, ?_, distribute, producer.indexNewAccounts_elsewhere _ _ _ index⟩
      · unfold chargedIn
        rw [applied, ok_bind]
        dsimp only
        rw [updated, ok_bind, report, ok_bind]
        rw [charge]
        rfl
      · exact elsewhere_trans settles (elsewhere_trans (reportOutcome_elsewhere report)
          (balanceRemove_elsewhere (liftAccounts_eq_ok.1 charge)))

theorem elsewhere_of_not_valid (applies : Applies producer.toKernel application)
    (notValid : ∀ info, application.result ≠ .valid info) :
    Elsewhere application.before.host application.after.host := by
  obtain ⟨⟨result, settled⟩, applied, finished⟩ := bind_eq_ok.1 applies
  have settles := applyContent_elsewhere applied
  cases result with
  | invalid =>
    obtain ⟨-, same⟩ := Prod.mk.inj (Except.ok.inj finished)
    rw [← same]
    exact settles
  | valid result =>
    obtain ⟨⟨info, _⟩, _, same⟩ := bind_eq_ok.1 finished
    exact absurd (Prod.mk.inj (Except.ok.inj same)).1.symm (notValid info)
  | retriable result =>
    obtain ⟨⟨info, _⟩, handled, same⟩ := bind_eq_ok.1 finished
    rw [← (Prod.mk.inj (Except.ok.inj same)).2]
    obtain ⟨updates, updated, handled⟩ := bind_eq_ok.1 handled
    obtain ⟨⟨reported, posted⟩, report, handled⟩ := bind_eq_ok.1 handled
    obtain ⟨paid, pay, handled⟩ := bind_eq_ok.1 handled
    obtain ⟨indexed, index, handled⟩ := bind_eq_ok.1 handled
    cases handled
    cases pay
    exact elsewhere_trans settles (elsewhere_trans (reportOutcome_elsewhere report)
      (producer.indexNewAccounts_elsewhere _ _ _ index))

variable {path : Path Step}

theorem burn_sameBelow (world : World) (burned : U256)
    (apart : Apart burnedFeesPath path) : SameBelow path world.host (world.burn burned).host :=
  .write _ _ apart

section
variable (apart : Apart burnedFeesPath path)
  (elsewhere : ∀ {host host' : Host Entry}, Elsewhere host host' → SameBelow path host host')
include apart elsewhere

theorem distribute_frame
    (distribute : updates.distribute world = .ok world') : SameBelow path world.host world'.host := by
  cases isPool : readSequencerPoolAddress world.host with
  | none =>
    rw [distribute_of_no_pool isPool] at distribute
    cases distribute
    exact burn_sameBelow world _ apart
  | some pool =>
    obtain ⟨before, after, -, -, rfl⟩ := (distribute_of_pool isPool).1 distribute
    exact (burn_sameBelow world _ apart).trans (elsewhere (write_elsewhere _ pool))

theorem applies_frame (applies : Applies producer.toKernel application) :
    SameBelow path application.before.host application.after.host := by
  cases result : application.result with
  | valid info =>
    obtain ⟨charged, distributed, -, before, distribute, after⟩ := distributed_of_valid applies result
    exact ((elsewhere before).trans (distribute_frame apart elsewhere distribute)).trans (elsewhere after)
  | _ => exact elsewhere (elsewhere_of_not_valid applies fun _ valid => nomatch result.symm.trans valid)

end

structure FeesKept (host host' : Host Entry) : Prop where
  burned : SameBelow burnedFeesPath host host'
  pool : SameBelow sequencerPoolPath host host'

theorem feesKept_refl (host : Host Entry) : FeesKept host host := ⟨.refl _ _, .refl _ _⟩

theorem feesKept_trans (first : FeesKept host host') (second : FeesKept host' host'') :
    FeesKept host host'' :=
  ⟨first.burned.trans second.burned, first.pool.trans second.pool⟩

theorem feesKept_of_elsewhere (elsewhere : Elsewhere host host') : FeesKept host host' :=
  ⟨elsewhere.burned, elsewhere.pool⟩

/-- Between two storages transactions are applied one after the other, and nothing but them touches
the fees. -/
inductive Follows (kernel : Kernel) : Host Entry → List Application → Host Entry → Prop where
  | nil {host host' : Host Entry} : FeesKept host host' → Follows kernel host [] host'
  | cons {host host' : Host Entry} {application : Application} {applications : List Application} :
      FeesKept host application.before.host → Applies kernel application →
      Follows kernel application.after.host applications host' →
      Follows kernel host (application :: applications) host'

variable {applications : List Application} {kernel : Kernel} {result : ComputationResult}

theorem follows_of_kept (kept : FeesKept host host')
    (follows : Follows kernel host' applications host'') : Follows kernel host applications host'' := by
  cases follows with
  | nil later => exact .nil (feesKept_trans kept later)
  | cons before applies later => exact .cons (feesKept_trans kept before) applies later

theorem follows_append {applications later}
    (first : Follows kernel host applications host') (second : Follows kernel host' later host'') :
    Follows kernel host (applications ++ later) host'' := by
  induction first with
  | nil kept => exact follows_of_kept kept second
  | cons before applies _ ih => exact .cons before applies (ih second)

theorem number_addTicks (bip : BlockInProgress) (ticks : UInt64) :
    (bip.addTicks ticks).number = bip.number := rfl

theorem computeTransaction_spec {bip bip'}
    (computed : producer.computeTransaction constants retriable bip transaction world =
      .ok (result, bip', world', application)) :
    bip'.number = bip.number ∧ application.number = bip.number ∧ application.constants = constants ∧
      application.before = world ∧ Applies producer.toKernel application ∧
      Elsewhere application.after.host world'.host := by
  obtain ⟨applied, apply, computed⟩ := bind_eq_ok.1 computed
  obtain ⟨⟨_, _, _⟩, after, computed⟩ := bind_eq_ok.1 computed
  cases computed
  suffices spec : bip'.number = bip.number ∧ Elsewhere applied.2.host world'.host from
    ⟨spec.1, rfl, rfl, rfl, apply, spec.2⟩
  obtain ⟨applied, settled⟩ := applied
  cases applied with
  | valid info =>
    obtain ⟨⟨registered, host⟩, register, after⟩ := bind_eq_ok.1 after
    cases after
    unfold Producer.registerValidTransaction at register
    split at register
    · cases register
    · obtain ⟨counted, count, register⟩ := bind_eq_ok.1 register
      obtain ⟨⟨stored, ticks⟩, store, register⟩ := bind_eq_ok.1 register
      cases register
      unfold BlockInProgress.register at count
      split at count
      · cases count
      · cases count
        exact ⟨rfl, producer.storeTransaction_elsewhere _ _ _ _ _ _ store⟩
  | retriable info =>
    cases after
    exact ⟨rfl, elsewhere_refl _⟩
  | invalid =>
    obtain ⟨-, same⟩ := Prod.mk.inj (Except.ok.inj after)
    obtain ⟨rfl, rfl⟩ := Prod.mk.inj same
    exact ⟨number_addTicks _ _, elsewhere_refl _⟩

def BelongsTo (number : Nat) (constants : BlockConstants) (application : Application) : Prop :=
  application.number = number ∧ application.constants = constants

theorem computeQueue_spec {isFirstBlock isFirst : Bool} {queue} {bip bip'}
    (computed : producer.computeQueue constants isFirstBlock isFirst queue bip world =
      .ok (result, bip', world', applications)) :
    bip'.number = bip.number ∧ (∀ a ∈ applications, BelongsTo bip.number constants a) ∧
      SameBelow evmBlocks world.host world'.host ∧
      Follows producer.toKernel world.host applications world'.host := by
  induction queue generalizing isFirst bip world applications with
  | nil =>
    cases computed
    exact ⟨rfl, fun _ member => (nomatch member), .refl _ _, .nil (feesKept_refl _)⟩
  | cons transaction queue ih =>
    obtain ⟨⟨stepped, bip₁, world₁, application⟩, step, computed⟩ := bind_eq_ok.1 computed
    obtain ⟨number, belongs, constant, rfl, applies, after⟩ := computeTransaction_spec step
    have blocks := (applies_frame (by decide) (fun elsewhere => elsewhere.blocks) applies).trans
      after.blocks
    have first : Follows producer.toKernel application.before.host [application] world₁.host :=
      .cons (feesKept_refl _) applies (.nil (feesKept_of_elsewhere after))
    cases stepped with
    | rebootNeeded =>
      cases computed
      exact ⟨number, List.forall_mem_singleton.2 ⟨belongs, constant⟩, blocks, first⟩
    | finished =>
      obtain ⟨⟨_, _, _, later⟩, rest, computed⟩ := bind_eq_ok.1 computed
      cases computed
      obtain ⟨number', belong, blocks', follows⟩ := ih rest
      rw [number] at number' belong
      exact ⟨number', List.forall_mem_cons.2 ⟨⟨belongs, constant⟩, belong⟩, blocks.trans blocks',
        follows_append first follows⟩

end Octez.Proof.Etherlink
