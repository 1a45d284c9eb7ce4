import Octez.Proof.Etherlink.Layers
import Octez.Proof.Etherlink.Books

namespace Octez.Proof.Etherlink
open Octez.Lib Octez.Lib.Durable Octez.Lib.Stateful Octez.Etherlink EthereumAccountStorage World

structure SameAccounts (world world' : World) : Prop where
  layers : world'.accounts = world.accounts
  balance : ∀ address, world'.balance address = world.balance address
  nonce : ∀ address, world'.nonce address = world.nonce address
  code : ∀ address, (world'.account address).code world'.host = (world.account address).code world.host
  storage : ∀ address index, (world'.account address).getStorage world'.host index =
    (world.account address).getStorage world.host index

variable {world world' world'' : World} {address other caller : H160}

section
variable {host host' : Host Entry} {path : Path Step}

theorem readU64_sameBelow (same : SameBelow path host host') (default : UInt64) :
    readU64 host' path default = readU64 host path default := by
  rw [readU64, readU64, same.find_eq]

theorem readH256_sameBelow (same : SameBelow path host host') (default : H256) :
    readH256 host' path default = readH256 host path default := by
  rw [readH256, readH256, same.find_eq, same.hasTree_eq]

theorem code_sameBelow {account : EthereumAccount} (same : SameBelow account.codePath host host') :
    account.code host' = account.code host := by
  rw [EthereumAccount.code, EthereumAccount.code, same.find_eq, same.hasTree_eq]

theorem readU64_write (host : Host Entry) (path : Path Step) (value default : UInt64) :
    readU64 (host.write path (.u64 value)) path default = value := by
  rw [readU64, find_write_self]

end

def view (world : World) (address : H160) :=
  (world.balance address, world.nonce address, (world.account address).code world.host,
    (world.account address).getStorage world.host)

theorem sameAccounts_iff : SameAccounts world world' ↔
    world'.accounts = world.accounts ∧ view world' = view world := by
  simp only [funext_iff, view, Prod.mk.injEq, forall_and]
  exact ⟨fun h => ⟨h.1, h.2, h.3, h.4, h.5⟩, fun h => ⟨h.1, h.2.1, h.2.2.1, h.2.2.2.1, h.2.2.2.2⟩⟩

namespace SameAccounts

theorem trans (first : SameAccounts world world') (second : SameAccounts world' world'') :
    SameAccounts world world'' := by
  rw [sameAccounts_iff] at first second ⊢
  exact ⟨second.1.trans first.1, second.2.trans first.2⟩

theorem of_sameBelow (layers : world'.accounts = world.accounts)
    (same : SameBelow world.accounts.top world.host world'.host) : SameAccounts world world' := by
  have below : ∀ rest, SameBelow (world.accounts.top ++ rest) world.host world'.host := by
    intro rest slot
    rw [List.append_assoc]
    exact same _
  have paths : ∀ address, world'.account address = world.account address := by
    intro address
    rw [account, account, layers]
  have inAccount : ∀ address slot,
      SameBelow ((world.account address).path ++ slot) world.host world'.host := by
    intro address slot
    rw [account, getOrCreate, List.append_assoc]
    exact below _
  refine ⟨layers, fun address => ?_, fun address => ?_, fun address => ?_, fun address index => ?_⟩
  · rw [World.balance, paths]
    exact readU256_sameBelow (inAccount address _) 0
  · rw [World.nonce, paths]
    exact readU64_sameBelow (inAccount address _) 0
  · rw [paths]
    exact code_sameBelow (inAccount address _)
  · rw [paths]
    exact readH256_sameBelow (inAccount address _) _

end SameAccounts

theorem view_setNonce (world : World) (address : H160) (nonce : UInt64) :
    view (world.setNonce address nonce) = Function.update (view world) address
      ((view world address).1, nonce, (view world address).2.2) := by
  funext other
  have balance : (world.setNonce address nonce).balance other = world.balance other :=
    readU256_sameBelow (.write _ _ (account_path_apart (.inr (by simp [Apart])))) 0
  have code : (world.account other).code (world.setNonce address nonce).host = _ :=
    code_sameBelow (.write _ _ (account_path_apart (.inr (by simp [Apart]))))
  have storage : (world.account other).getStorage (world.setNonce address nonce).host = _ :=
    funext fun _ => readH256_sameBelow (.write _ _ (account_path_apart (.inr (by simp [Apart])))) _
  by_cases same : other = address
  · subst same
    have written : (world.setNonce other nonce).nonce other = nonce := readU64_write _ _ _ _
    rw [Function.update_self, view, balance, written]
    exact congrArg₂ (_, nonce, ·, ·) code storage
  · have kept : (world.setNonce address nonce).nonce other = world.nonce other :=
      readU64_sameBelow (.write _ _ (account_path_apart (.inl (Ne.symm same)))) 0
    rw [Function.update_of_ne same, view, balance, kept]
    exact congrArg₂ (_, _, ·, ·) code storage

theorem view_setBalance (world : World) (address : H160) (balance : U256) :
    view (world.setBalance address balance) = Function.update (view world) address
      (.ok balance, (view world address).2) := by
  funext other
  have rest : (view (world.setBalance address balance) other).2 = (view world other).2 := by
    refine congrArg₂ Prod.mk ?_ (congrArg₂ Prod.mk ?_ (funext fun _ => ?_))
    · exact readU64_sameBelow (.write _ _ (account_path_apart (.inr (by simp [Apart])))) 0
    · exact code_sameBelow (.write _ _ (account_path_apart (.inr (by simp [Apart]))))
    · exact readH256_sameBelow (.write _ _ (account_path_apart (.inr (by simp [Apart])))) _
  by_cases same : other = address
  · subst same
    rw [Function.update_self, ← rest]
    exact congrArg (·, _) (balance_setBalance world other balance)
  · rw [Function.update_of_ne same]
    exact Prod.ext (balance_setBalance_of_ne world balance (Ne.symm same)) rest

namespace SameAccounts

theorem setNonce (same : SameAccounts world world') (address : H160) (nonce : UInt64) :
    SameAccounts (world.setNonce address nonce) (world'.setNonce address nonce) := by
  obtain ⟨layers, views⟩ := sameAccounts_iff.1 same
  exact sameAccounts_iff.2 ⟨layers, by rw [view_setNonce, view_setNonce, views]⟩

theorem of_setNonce_setNonce (world : World) (address : H160) (nonce : UInt64) :
    SameAccounts world ((world.setNonce address nonce).setNonce address (world.nonce address)) := by
  refine sameAccounts_iff.2 ⟨rfl, ?_⟩
  rw [view_setNonce, view_setNonce, Function.update_idem, Function.update_self]
  exact Function.update_eq_self _ _

end SameAccounts

structure RolledBack (base : Host Entry) (outcome : ExecutionOutcome) (world : World) : Prop where
  outside : world.accounts.transactions = 0
  same : Untouched base world.host
  logs : outcome.logs = []
  withdrawals : outcome.withdrawals = []

section
variable {evm : Evm} {base : Host Entry} {α : Type} {x : evm.Run α}

/-- What is said of an execution that ends in a lack of ticks. Of other ends nothing is said. -/
def EndsInitial (evm : Evm) (rest : evm.Run ExecutionOutcome) : Prop :=
  ∀ base handler, Executing base handler → Ensures rest handler
      (fun outcome after => outcome.reason = .outOfTicks → RolledBack base outcome after.world)
      fun _ _ => True

theorem EndsInitial.after {rest}
    (preserved : ∀ base, Preserves (Executing base) x) (ends : ∀ a, EndsInitial evm (rest a)) :
    EndsInitial evm (x >>= rest) := by
  intro base handler inside
  refine Ensures.bind ((preserved base handler inside).weaken (fun _ _ kept => kept) fun _ _ _ => trivial) ?_
  intro a after kept
  exact ends a base after kept

theorem EndsInitial.of_throw {error : EthereumError} :
    EndsInitial evm (x >>= fun _ => throw error) := by
  intro base handler _
  exact Ensures.bind Ensures.of_true fun _ _ _ => trivial

theorem commitInitialTransaction_ends {newAddress : Option H160} {result : Bytes}
    {reason : ExitReason} : EndsInitial evm (evm.commitInitialTransaction newAddress result reason) := by
  intro base handler _
  refine Ensures.bind Ensures.of_true fun _ checked _ => ?_
  refine Ensures.get_bind ?_
  refine Ensures.bind Ensures.of_true fun lastLayer popped _ => ?_
  cases lastLayer with
  | none => trivial
  | some layer =>
    refine Ensures.bind Ensures.of_true fun _ deleted _ => ?_
    refine Ensures.bind Ensures.of_true fun _ committed _ => ?_
    exact Ensures.of_pure nofun

theorem checkInitial_ensures {handler : evm.Handler} :
    Ensures evm.checkInitial handler
      (fun _ after => after = handler ∧ handler.world.accounts.transactions = 1) fun _ _ => True := by
  refine Ensures.get_bind ?_
  split
  · trivial
  · split
    · trivial
    · exact Ensures.of_pure ⟨rfl, not_not.1 ‹_›⟩

theorem rollbackInitialTransaction_ends {result : Option Bytes} {reason} :
    EndsInitial evm (evm.rollbackInitialTransaction result reason) := by
  intro base handler inside
  refine Ensures.bind checkInitial_ensures fun _ after checked => ?_
  obtain ⟨rfl, single⟩ := checked
  refine Ensures.get_bind ?_
  have dropped : Ensures evm.rollbackLayer after (fun _ final =>
      final.world.accounts.transactions = 0 ∧ Untouched base final.world.host)
      fun _ _ => True := by
    refine Ensures.get_bind ?_
    have outside : after.world.accounts.rollbackTransaction after.world.host = .ok (⟨0⟩,
        discard after.world.host after.world.accounts.top) := by
      rw [rollbackTransaction, single]
    rw [outside]
    exact ⟨rfl, inside.untouched_discard⟩
  refine Ensures.bind dropped fun _ final kept => ?_
  let done := fun world : World =>
    world.accounts.transactions = 0 ∧ Untouched base world.host
  have popped : Ensures evm.popLayer final _ _ := popLayer_preserves done final kept
  refine Ensures.bind (popped.weaken (fun _ _ kept => kept) fun _ _ _ => trivial) ?_
  intro layer last kept
  exact Ensures.of_pure fun _ => ⟨kept.1, kept.2, rfl, rfl⟩

theorem endInitialTransaction_ends (result : Except EthereumError CreateOutcome) :
    EndsInitial evm (evm.endInitialTransaction result) := by
  unfold Evm.endInitialTransaction
  split
  · exact commitInitialTransaction_ends
  · exact rollbackInitialTransaction_ends
  · exact rollbackInitialTransaction_ends
  · exact .of_throw
  · exact rollbackInitialTransaction_ends
  · exact rollbackInitialTransaction_ends
  · exact .of_throw

theorem endUnlessPaid_ends {isCreate : Bool} {input : Bytes} {rest} (ends : EndsInitial evm rest) :
    EndsInitial evm (evm.endUnlessPaid isCreate input rest) := by
  refine .after (fun _ => onTop_preserves _) fun recorded => ?_
  cases recorded with
  | error error => exact endInitialTransaction_ends _
  | ok _ => exact ends

theorem endAfter_ends {execution} (executed : ∀ base, Preserves (Executing base) execution) :
    EndsInitial evm (evm.endAfter execution) :=
  .after (fun base => (executed base).attempt) endInitialTransaction_ends

theorem marked_preserves {result} {message : String} :
    Preserves (Executing base) (evm.marked result message) := by
  cases result with
  | error error => exact .of_throw
  | ok _ => exact .of_pure

structure Dropped (world : World) (caller : H160) (outcome : ExecutionOutcome) (after : World) :
    Prop where
  outside : world.accounts.transactions = 0
  fits : (world.nonce caller).toNat + 1 < 2 ^ 64
  rolledBack : RolledBack (world.setNonce caller (world.nonce caller + 1)).host outcome after

theorem initial_ensures {rest} {isStatic : Bool}
    {gasLimit : Option UInt64} (handler : evm.Handler) (ends : EndsInitial evm rest) :
    Ensures (do
        incrementNonce caller
        evm.beginInitialTransaction isStatic gasLimit
        rest) handler
      (fun outcome after => outcome.reason = .outOfTicks → Dropped handler.world caller outcome after.world)
      fun _ _ => True := by
  have incremented : Ensures (incrementNonce caller : evm.Run Unit) handler
      (fun _ after => incrementNonceIn caller handler.world = .ok after.world) fun _ _ => True := by
    refine Ensures.get_bind ?_
    cases result : incrementNonceIn caller handler.world with
    | error error => trivial
    | ok world => exact rfl
  refine Ensures.bind incremented fun _ middle written => ?_
  obtain ⟨fits, written⟩ := incrementNonceIn_eq_ok.1 written
  let base := (handler.world.setNonce caller (handler.world.nonce caller + 1)).host
  have begun : Ensures (evm.beginInitialTransaction isStatic gasLimit) middle
      (fun _ after => middle.world.accounts.transactions = 0 ∧ Executing base after) fun _ _ => True := by
    refine Ensures.get_bind ?_
    split
    · trivial
    · refine Ensures.get_bind ?_
      refine Ensures.of_set ⟨Nat.eq_zero_of_not_pos ‹_›, Inside.beginTransaction ?_⟩
      rw [← written]
      exact Untouched.refl _
  refine Ensures.bind begun fun _ inner kept => ?_
  obtain ⟨outside, inside⟩ := kept
  refine (ends base inner inside).weaken (fun outcome after rolledBack ticks => ?_) fun _ _ _ => trivial
  rw [← written] at outside
  exact ⟨outside, fits, rolledBack ticks⟩

theorem callOrCreate_ensures (evm : Evm) (fuel : Nat) (to_ : Option H160) (caller : H160)
    (value : Option U256) (callData : Bytes) (gasLimit : Option UInt64) (handler : evm.Handler) :
    Ensures (evm.callOrCreate fuel to_ caller value callData gasLimit) handler
      (fun outcome after => outcome.reason = .outOfTicks → Dropped handler.world caller outcome after.world)
      fun _ _ => True := by
  have executed (base : Host Entry) (runtime : evm.Runtime) :
      Preserves (Executing base) (evm.execute fuel runtime) := execute_preserves evm fuel runtime
  cases to_ with
  | some callee =>
    refine initial_ensures handler ?_
    refine .after (fun _ => markAddressAsHot_preserves) fun hot => ?_
    refine .after (fun _ => marked_preserves) fun _ => ?_
    refine .after (fun _ => markAddressAsHot_preserves) fun hot => ?_
    refine .after (fun _ => marked_preserves) fun _ => ?_
    refine endUnlessPaid_ends (endAfter_ends fun base => ?_)
    exact executeCall_preserves (executed base) (call_preserves (executed base) fuel)
  | none =>
    refine Ensures.get_bind (initial_ensures handler ?_)
    refine .after (fun _ => markAddressAsHot_preserves) fun hot => ?_
    refine .after (fun _ => marked_preserves) fun _ => ?_
    refine endUnlessPaid_ends (.after (fun _ => markAddressAsHot_preserves) fun hot => ?_)
    refine .after (fun _ => marked_preserves) fun _ => ?_
    exact endAfter_ends fun base => executeCreate_preserves (executed base)

end

theorem decrementNonce_eq (world : World) (caller : H160) : world.decrementNonce caller =
    world.setNonce caller (if world.nonce caller = 0 then 0 else world.nonce caller - 1) := rfl

namespace Dropped
variable {outcome : ExecutionOutcome} {after : World}

theorem sameAccounts (dropped : Dropped world caller outcome after) :
    SameAccounts world (after.decrementNonce caller) := by
  let incremented := world.setNonce caller (world.nonce caller + 1)
  have layers : after.accounts = incremented.accounts := by
    show EthereumAccountStorage.mk after.accounts.transactions = ⟨world.accounts.transactions⟩
    rw [dropped.rolledBack.outside, dropped.outside]
  have first : incremented.accounts.top = evmAccountsPath := by
    show layer world.accounts.transactions = evmAccountsPath
    rw [dropped.outside]
    rfl
  have same : SameAccounts incremented after := by
    refine .of_sameBelow layers ?_
    rw [first]
    exact dropped.rolledBack.same _ outsideLayers_accounts
  have nonce : after.nonce caller = world.nonce caller + 1 := by
    rw [same.nonce]
    exact readU64_write _ _ _ _
  have positive : world.nonce caller + 1 ≠ 0 := by
    have fits := dropped.fits
    intro zero
    have value := congrArg UInt64.toNat zero
    rw [UInt64.toNat_add, UInt64.toNat_one, Nat.mod_eq_of_lt fits] at value
    exact absurd value (Nat.succ_ne_zero _)
  rw [decrementNonce_eq, nonce, if_neg positive, UInt64.add_sub_cancel]
  exact (SameAccounts.of_setNonce_setNonce world caller _).trans (same.setNonce caller _)

theorem readBurnedFees_eq (dropped : Dropped world caller outcome after) :
    readBurnedFees (after.decrementNonce caller).host = readBurnedFees world.host := by
  have written : SameBelow burnedFeesPath world.host
      (world.setNonce caller (world.nonce caller + 1)).host := by
    exact sameBelow_write world (top_apart_burnedFees world.accounts)
  have same := dropped.rolledBack.same _ fun transactions _ => top_apart_burnedFees ⟨transactions⟩
  have decremented : SameBelow burnedFeesPath after.host (after.decrementNonce caller).host :=
    sameBelow_write after (top_apart_burnedFees after.accounts)
  exact readBurnedFees_sameBelow (written.trans (same.trans decremented))

end Dropped

/-- A retry finds the accounts and the burned fees as they were, and nothing was given out. -/
structure NoTrace (world : World) (outcome : ExecutionOutcome) (after : World) : Prop where
  accounts : SameAccounts world after
  burnedFees : readBurnedFees after.host = readBurnedFees world.host
  logs : outcome.logs = []
  withdrawals : outcome.withdrawals = []

variable {fuel : Nat}

section
variable {outcome : ExecutionOutcome} {paid after : World} {gasLimit : Option UInt64} {price : U256}
  {evm : Evm} {block : BlockConstants} {to_ : Option H160} {callData : Bytes} {value : Option U256}
  {allocatedTicks : UInt64} {warm payForGas : Bool}

theorem settleGas_noTrace (prepaid : prePayIf payForGas world caller gasLimit price = .ok (true, paid))
    (dropped : Dropped paid caller outcome after) (ticks : outcome.reason = .outOfTicks) :
    ∃ final, settleGas after outcome caller gasLimit price payForGas true = .ok final ∧
      NoTrace world outcome final := by
  have retried : isRetried outcome true = true := by simp [isRetried, ticks]
  have refunded : doRefund outcome payForGas = payForGas := by simp [doRefund, ticks]
  have undone : NoTrace paid outcome _ := ⟨dropped.sameAccounts, dropped.readBurnedFees_eq,
    dropped.rolledBack.logs, dropped.rolledBack.withdrawals⟩
  simp only [settleGas, retried, if_true, refunded, unusedGas]
  cases payForGas with
  | false =>
    cases prepaid
    exact ⟨_, rfl, undone⟩
  | true =>
    cases gasLimit with
    | none =>
      cases prepaid
      exact ⟨_, rfl, undone⟩
    | some gasLimit =>
      obtain ⟨held, left, isHeld, sum, rfl⟩ := prePayTransactions_eq_ok.1 prepaid
      have rest : (after.decrementNonce caller).balance caller = .ok left := by
        rw [undone.accounts.balance, balance_setBalance]
      refine ⟨(after.decrementNonce caller).setBalance caller held, ?_, ?_⟩
      · rw [if_pos rfl, repayGas, bind_eq_ok]
        refine ⟨⟨gasLimit.toNat * price.val, by omega⟩, gasPayment_eq_ok.2 rfl, ?_⟩
        rw [liftAccount_eq_ok, balanceAdd_eq_ok]
        exact ⟨left, held, rest, sum.symm, rfl⟩
      · obtain ⟨layers, views⟩ := sameAccounts_iff.1 undone.accounts
        refine ⟨sameAccounts_iff.2 ⟨layers, ?_⟩, ?_, undone.logs, undone.withdrawals⟩
        · rw [view_setBalance, views, view_setBalance, Function.update_idem, Function.update_self, ← isHeld]
          exact Function.update_eq_self _ _
        rw [readBurnedFees_setBalance, undone.burnedFees, readBurnedFees_setBalance]

theorem runTransaction_noTrace (prepaid : prePayIf payForGas world caller gasLimit price = .ok (true, paid))
    (executed : evm.transact fuel block to_ caller callData gasLimit price value allocatedTicks warm
      paid = .ok (outcome, after)) (ticks : outcome.reason = .outOfTicks) :
    ∃ final, runTransaction
        (evm.transact fuel block to_ caller callData gasLimit price value allocatedTicks warm)
        world caller gasLimit price payForGas true = .ok (some outcome, final) ∧
      NoTrace world outcome final := by
  have dropped : Dropped paid caller outcome after := by
    have ensured := callOrCreate_ensures evm fuel to_ caller value callData gasLimit
      (evm.newHandler paid caller block allocatedTicks price warm)
    unfold Evm.transact at executed
    cases run : evm.callOrCreate fuel to_ caller value callData gasLimit
        (evm.newHandler paid caller block allocatedTicks price warm) with
    | error error handler =>
      rw [run] at executed
      cases executed
    | ok result handler =>
      rw [run] at executed
      cases executed
      exact ensured.of_ok run ticks
  obtain ⟨final, settled, undone⟩ := settleGas_noTrace prepaid dropped ticks
  refine ⟨final, ?_, undone⟩
  rw [runTransaction, bind_eq_ok]
  refine ⟨(true, paid), prepaid, ?_⟩
  simp only [runPaid, executed, ok_bind, settled, pure_eq_ok]

end

def OnlyIndexes (kernel : Kernel) (outcome : ExecutionOutcome) (ran after : World) : Prop :=
  ∃ posted, kernel.postWithdrawals ran [] = .ok posted ∧
    kernel.indexNewAccounts posted (some outcome) = .ok after

section
variable {kernel : Kernel} {constants : BlockConstants} {allocatedTicks : UInt64}
  {result : TransactionResult} {ran : World} {evm : Evm}

theorem executed_of_retriable (isEvm : kernel.execute = evm.executeTransaction fuel) {content}
    (applied : kernel.applyContent world constants allocatedTicks true content =
      .ok (.retriable result, ran)) :
    ∃ outcome, result.executionOutcome = some outcome ∧ NoTrace world outcome ran := by
  have common : ∀ tx isDelayed, kernel.applyEthereumTransactionCommon world constants tx
      allocatedTicks true isDelayed = .ok (.retriable result, ran) →
      ∃ outcome, result.executionOutcome = some outcome ∧ NoTrace world outcome ran := by
    intro tx isDelayed applied
    obtain ⟨validity, -, applied⟩ := bind_eq_ok.1 applied
    cases validity with
    | valid caller gasLimit =>
      obtain ⟨⟨outcome, settled⟩, run, applied⟩ := bind_eq_ok.1 applied
      obtain ⟨isResult, rfl⟩ := Prod.mk.inj (Except.ok.inj applied)
      unfold transactionResult at isResult
      split at isResult
      · cases isResult
      rename_i outcome
      split at isResult
      rotate_left
      · cases isResult
      rename_i retried
      simp only [isRetried, Bool.and_true, decide_eq_true_eq] at retried
      cases isResult
      rw [liftEthereum_eq_ok, isEvm] at run
      obtain ⟨held, left, executed, isHeld, sum, ran_, settled_⟩ := runTransaction_eq_ok_some.1 run
      have prepaid : prePayIf true world caller (some gasLimit) constants.blockFees.baseFeePerGas =
          .ok (true, world.setBalance caller left) :=
        prePayTransactions_eq_ok.2 ⟨held, left, isHeld, sum, rfl⟩
      obtain ⟨final, again, undone⟩ := runTransaction_noTrace prepaid ran_ retried
      have same : final = settled := by
        have both := again.symm.trans run
        exact (Prod.mk.inj (Except.ok.inj both)).2
      exact ⟨outcome, rfl, same ▸ undone⟩
    | _ => cases applied
  cases content with
  | ethereum tx => exact common tx false applied
  | ethereumDelayed tx => exact common tx true applied
  | deposit deposit => cases applied

theorem applyTransaction_noTrace (isEvm : kernel.execute = evm.executeTransaction fuel)
    {transaction : Transaction} {info : ExecutionInfo} {after : World}
    (applied : kernel.applyTransaction world constants transaction allocatedTicks true =
      .ok (.retriable info, after)) :
    ∃ outcome ran, info.executionOutcome = some outcome ∧ NoTrace world outcome ran ∧
      OnlyIndexes kernel outcome ran after := by
  obtain ⟨⟨result, ran⟩, content, finished⟩ := bind_eq_ok.1 applied
  cases result with
  | invalid => cases finished
  | valid result =>
    obtain ⟨⟨_, _⟩, _, impossible⟩ := bind_eq_ok.1 finished
    cases impossible
  | retriable result =>
    obtain ⟨⟨_, _⟩, handled, same⟩ := bind_eq_ok.1 finished
    cases same
    obtain ⟨outcome, isOutcome, undone⟩ := executed_of_retriable isEvm content
    obtain ⟨updates, -, handled⟩ := bind_eq_ok.1 handled
    obtain ⟨⟨reported, posted⟩, report, handled⟩ := bind_eq_ok.1 handled
    obtain ⟨unpaid, free, handled⟩ := bind_eq_ok.1 handled
    obtain ⟨indexed, index, handled⟩ := bind_eq_ok.1 handled
    cases handled
    cases free
    rw [isOutcome] at report
    obtain ⟨modified, modify, report⟩ := bind_eq_ok.1 report
    obtain ⟨_, post, report⟩ := bind_eq_ok.1 report
    cases report
    have kept : modified.logs = outcome.logs ∧ modified.withdrawals = outcome.withdrawals := by
      unfold FeeUpdates.modifyOutcome at modify
      split at modify
      · cases modify
        exact ⟨rfl, rfl⟩
      · cases modify
    rw [kept.2, undone.withdrawals] at post
    refine ⟨modified, ran, rfl, ?_, posted, post, index⟩
    exact ⟨undone.accounts, undone.burnedFees, kept.1.trans undone.logs, kept.2.trans undone.withdrawals⟩

end

/-- Whatever the execution did before it ran out of ticks, a retry starts from the accounts that were
there, and nobody was charged for it. -/
theorem retried_transaction_leaves_no_trace (evm : Evm) (fuel : Nat) (world : World) :
    (∀ block to_ caller callData gasLimit price value allocatedTicks warm payForGas paid outcome after,
      prePayIf payForGas world caller gasLimit price = .ok (true, paid) →
      evm.transact fuel block to_ caller callData gasLimit price value allocatedTicks warm paid =
        .ok (outcome, after) → outcome.reason = .outOfTicks → ∃ final, runTransaction
          (evm.transact fuel block to_ caller callData gasLimit price value allocatedTicks warm)
          world caller gasLimit price payForGas true = .ok (some outcome, final) ∧
        NoTrace world outcome final) ∧ (∀ kernel : Kernel, kernel.execute = evm.executeTransaction fuel →
      ∀ constants transaction allocatedTicks info after,
      kernel.applyTransaction world constants transaction allocatedTicks true =
        .ok (.retriable info, after) →
      ∃ outcome ran, info.executionOutcome = some outcome ∧ NoTrace world outcome ran ∧
        OnlyIndexes kernel outcome ran after) := by
  refine ⟨?_, ?_⟩
  · intro block to_ caller callData gasLimit price value allocatedTicks warm payForGas paid outcome
      after prepaid executed ticks
    exact runTransaction_noTrace prepaid executed ticks
  · intro kernel isEvm constants transaction allocatedTicks info after applied
    exact applyTransaction_noTrace isEvm applied

def writing : Evm where
  Gasometer := UInt64
  DynamicCost := Unit
  Runtime := H160
  newGasometer limit := limit
  totalUsedGas _ := 0
  gas left := left
  gasRecordCost _ left := (.ok (), left)
  gasRecordDeposit _ left := (.ok (), left)
  gasRecordStipend _ left := (.ok (), left)
  gasRecordDynamicCost _ left := (.ok (), left)
  newRuntime _ _ context := context.address
  opcode _ := some 0x55
  returnValue _ := []
  step contract := .setStorage contract [1] [2] fun _ =>
    .call { codeAddress := [3], transfer := none, input := [], targetGas := none, isStatic := false
            context := { address := [3], caller := contract, apparentValue := 0 } } fun _ =>
      .done (.next contract)
  precompile address := if address = [3] then some fun _ _ _ _ =>
      .done (.ok { exitStatus := .succeed .returned, output := [], withdrawals := [⟨[], 1⟩]
                   estimatedTicks := 1 })
    else none
  ticks _ _ := 1
  keccak _ := []
  createAddressLegacy _ _ := []
  createAddress2 _ _ _ := []
  debug _ := ""
  config := {
    stackLimit := 1024
    gasTransactionCreate := 0
    gasTransactionCall := 0
    gasTransactionZeroData := 0
    gasTransactionNonZeroData := 0
    createContractLimit := none
    maxInitcodeSize := none
    callL64AfterGas := true
    callStipend := 0 }

def writingKernel : Kernel where
  callerOf _ := some holder
  execute := writing.executeTransaction 9
  postWithdrawals world _ := .ok world
  indexNewAccounts world _ := .ok world

def isRetriable : Except ApplyError (ExecutionResult ExecutionInfo × World) → Bool
  | .ok (.retriable _, _) => true
  | _ => false

theorem writing_is_retried_without_trace : ∃ info after outcome ran,
    writingKernel.applyTransaction (holding 1000000000000000) gweiConstants
      ⟨[], contentOf (callWithGas 725000) false⟩ 4 true = .ok (.retriable info, after) ∧
    info.executionOutcome = some outcome ∧ NoTrace (holding 1000000000000000) outcome ran ∧
      OnlyIndexes writingKernel outcome ran after := by
  have retriable : isRetriable (writingKernel.applyTransaction (holding 1000000000000000)
      gweiConstants ⟨[], contentOf (callWithGas 725000) false⟩ 4 true) = true := by decide +kernel
  unfold isRetriable at retriable
  split at retriable
  case h_1 info after applied =>
    obtain ⟨outcome, ran, isOutcome, undone, indexes⟩ :=
      (retried_transaction_leaves_no_trace writing 9 (holding 1000000000000000)).2 writingKernel rfl
        _ _ _ _ _ applied
    exact ⟨info, after, outcome, ran, applied, isOutcome, undone, indexes⟩
  case h_2 => cases retriable

end Octez.Proof.Etherlink
