import Octez.Proof.Token.Effects

namespace Octez.Proof.Token
open Octez.Lib Octez.Token Octez.Proof.Token.Flow
open Octez.Staking (normalizeCycle)
open Octez.Proof.Staking (total Saturated add_eq_ok sub_eq_ok)

variable {T : TokenTypes} {Origin : Type}

variable (giver : T.Giver × Tez)

def drawn : Int :=
  match giver.1 with
  | .infiniteSource _ => 0
  | .container _ => giver.2.mutez

def minted : Int :=
  match giver.1 with
  | .infiniteSource _ => giver.2.mutez
  | .container _ => 0

theorem drawn_add_minted : drawn giver + minted giver = giver.2.mutez := by
  obtain ⟨source | container, amount⟩ := giver
  · exact Int.zero_add _
  · exact Int.add_zero _

def burnt (receiver : T.Receiver) (amount : Int) : Int :=
  match receiver with
  | .infiniteSink _ => amount
  | .container _ => 0

def amountOf (givers : List (T.Giver × Tez)) : Int :=
  (givers.map fun giver => (giver.2.mutez : Int)).sum

theorem amountOf_eq (givers : List (T.Giver × Tez)) :
    amountOf givers = (givers.map drawn).sum + (givers.map minted).sum := by
  induction givers with
  | nil => rfl
  | cons giver givers ih =>
    have parts := drawn_add_minted giver
    rw [amountOf] at ih ⊢
    simp only [List.map_cons, List.sum_cons, ih]
    omega

theorem sum_nonzero {M : Type} [AddCommMonoid M] (f : T.Giver × Tez → M)
    (zero : ∀ giver, f (giver, Tez.zero) = 0) (givers : List (T.Giver × Tez)) :
    ((nonzero givers).map f).sum = (givers.map f).sum := by
  induction givers with
  | nil => rfl
  | cons giver givers ih =>
    obtain ⟨giver, amount⟩ := giver
    simp only [nonzero, ne_eq, decide_not] at ih ⊢
    by_cases empty : amount = Tez.zero
    · subst empty
      simp [ih, zero]
    · simp [ih, empty]

def changeOf : BalanceUpdate → Int
  | .debited amount => -amount.mutez
  | .credited amount => amount.mutez

theorem sum_debits (origin : Origin) (givers : List (T.Giver × Tez)) :
    ((givers.map (debitOf origin)).map fun item => changeOf item.update).sum = -amountOf givers := by
  induction givers with
  | nil => rfl
  | cons giver givers ih =>
    rw [amountOf] at ih ⊢
    simp only [List.map_cons, List.sum_cons, ih]
    simp only [debitOf, changeOf]
    omega

variable [DecidableEq T.Pkh] [DecidableEq T.ContractHash] [DecidableEq T.BondId] [DecidableEq T.Bpkh]
variable {ctxt ctxt' : Context T} {amount : Tez} {delegate : T.Pkh}

theorem StakeUpdated.flow {own staked delegated : Int}
    (updated : StakeUpdated ctxt ctxt' delegate own staked delegated) :
    Flow ctxt ctxt' (Pi.single (.ownFrozen delegate) own + Pi.single (.stakedFrozen delegate) staked)
      (own + staked) 0 := by
  obtain ⟨before, after, active, found, ⟨own_eq, staked_eq, -⟩, rfl⟩ := updated
  have written := of_stakingBalance ctxt delegate before after found own_eq staked_eq
  apply (written.trans (of_same (by constructor <;> rfl))).congr
  · rw [add_zero]
  · rw [Int.add_zero]
  · rfl

variable {x : Int}

theorem Restaked.flow (restaked : Restaked ctxt ctxt' delegate x) : Flow ctxt ctxt' 0 0 0 :=
  (StakeUpdated.flow restaked).congr (by simp) rfl rfl

theorem ContractRestaked.flow {contract}
    (restaked : ContractRestaked ctxt ctxt' contract x) : Flow ctxt ctxt' 0 0 0 := by
  unfold ContractRestaked at restaked
  split at restaked
  · subst restaked
    exact rfl _
  · exact restaked.flow

theorem Moved.flow {container} (moved : Moved ctxt container x ctxt') :
    Flow ctxt ctxt' (Pi.single (accountOf ctxt container) x) x 0 := by
  cases moved with
  | contract change restaked =>
    apply ((of_spendable ctxt _ (some _) change).trans restaked.flow).congr
    · rw [add_zero]
      rfl
    · rw [Int.add_zero]
    · rfl
  | allocated absent amount =>
    have written := of_spendable ctxt _ (some amount) (x := amount.mutez) (by
      rw [Table.weightAt_of_none absent, Option.elim_some]
      omega)
    apply (written.trans (of_same (by constructor <;> rfl))).congr
    · rw [add_zero]
      rfl
    · rw [Int.add_zero]
    · rfl
  | commitments new change => exact of_commitments ctxt _ new change
  | nothing =>
    apply (rfl _).congr
    · exact Pi.single_zero _
    · rfl
    · rfl
  | ownFrozen account updated =>
    apply updated.flow.congr
    · rw [account, Pi.single_zero, add_zero]
    · rw [Int.add_zero]
    · rfl
  | stakedFrozen account updated =>
    apply updated.flow.congr
    · rw [account, Pi.single_zero, zero_add]
    · rw [Int.zero_add]
    · rfl
  | @unstaked staker cycle mid _ f x restaked updated change =>
    obtain ⟨old, new, entries, computed, sums, rfl⟩ := updateBalance_eq_ok updated
    have changed := change old new computed
    have written := of_unstaked mid staker.delegate cycle rfl (x := x)
      (show ∀ included, _ → (total .current included entries : Int) = _ by
        intro included saturated
        have sum := sums included saturated
        split_ifs at sum ⊢ with inside <;> omega)
    rw [restaked.flow.unslashable] at written
    apply (restaked.flow.trans written).congr
    · rw [zero_add]
      rfl
    · rw [Int.zero_add]
    · rfl
  | blockFees change => exact of_collectedFees ctxt change
  | bonds bond total restaked change _ =>
    have written := of_frozenBonds _ _ _ bond change
    apply (restaked.flow.trans (written.trans (of_same (by constructor <;> rfl)))).congr
    · simp [accountOf]
    · simp
    · rfl

def taken (ctxt : Context T) (giver : T.Giver × Tez) :
    AccountOf T → Int :=
  match giver.1 with
  | .infiniteSource _ => 0
  | .container container => Pi.single (accountOf ctxt container) giver.2.mutez

theorem spendGiver_flow {giver} (spent : spendGiver ctxt giver amount = .ok ctxt') :
    Flow ctxt ctxt' (-taken ctxt (giver, amount)) (-drawn (giver, amount)) (minted (giver, amount)) := by
  cases giver with
  | infiniteSource source =>
    obtain ⟨supply, sum, spent⟩ := bind_eq_ok.1 spent
    cases spent
    apply (of_totalSupply ctxt (x := amount.mutez) ?_).congr
    · exact neg_zero
    · rfl
    · rfl
    · rw [add_eq_ok (liftTez_eq_ok.1 sum), Int.natCast_add]
  | container container =>
    apply (spendContainer_moved spent).flow.congr
    · simp [taken, Pi.single_neg]
    · rfl
    · rfl

def received (ctxt : Context T) (receiver : T.Receiver) (amount : Int) :
    AccountOf T → Int :=
  match receiver with
  | .infiniteSink _ => 0
  | .container container => Pi.single (accountOf ctxt container) amount

theorem creditReceiver_flow {receiver} (credited : creditReceiver ctxt receiver amount = .ok ctxt') :
    Flow ctxt ctxt' (received ctxt receiver amount.mutez)
      (amount.mutez - burnt receiver amount.mutez) (-burnt receiver amount.mutez) := by
  cases receiver with
  | infiniteSink sink =>
    obtain ⟨supply, subtracted, credited⟩ := bind_eq_ok.1 credited
    cases credited
    apply (of_totalSupply ctxt (x := -amount.mutez) ?_).congr
    · rfl
    · exact Int.sub_self _
    · rfl
    · have less := sub_eq_ok (liftTez_eq_ok.1 subtracted)
      omega
  | container container =>
    apply (creditContainer_moved credited).flow.congr
    · rfl
    · exact Int.sub_zero _
    · rfl

variable {delta : AccountOf T → Int} {givers : List (T.Giver × Tez)}

theorem taken_congr {net supply : Int} (flow : Flow ctxt ctxt' delta net supply)
    (giver : T.Giver × Tez) : taken ctxt' giver = taken ctxt giver := by
  obtain ⟨source | container, amount⟩ := giver
  · rfl
  · simp only [taken, flow.accountOf_eq]

theorem withdraws_flow {origin : Origin} {state state' : Withdrawal T Origin}
    (withdrawn : givers.foldlM (withdraw origin) state = .ok state') :
    Flow state.ctxt state'.ctxt (-(givers.map (taken state.ctxt)).sum) (-(givers.map drawn).sum)
        (givers.map minted).sum ∧ (state'.total.mutez : Int) = state.total.mutez + amountOf givers ∧
      state'.debitLogs = (givers.map (debitOf origin)).reverse ++ state.debitLogs := by
  induction givers generalizing state with
  | nil =>
    cases withdrawn
    refine ⟨(rfl _).congr neg_zero rfl rfl, (Int.add_zero _).symm, rfl⟩
  | cons giver givers ih =>
    obtain ⟨mid, first, withdrawn⟩ := bind_eq_ok.1 withdrawn
    obtain ⟨spent, total_eq, logs_eq⟩ := withdraw_eq_ok first
    obtain ⟨flow, rest_total, rest_logs⟩ := ih withdrawn
    have here := spendGiver_flow spent
    refine ⟨?_, ?_, ?_⟩
    · have same : givers.map (taken mid.ctxt) = givers.map (taken state.ctxt) :=
        List.map_congr_left fun giver _ => taken_congr here giver
      rw [same] at flow
      apply (here.trans flow).congr
      · rw [List.map_cons, List.sum_cons, neg_add]
      · rw [List.map_cons, List.sum_cons, Int.neg_add]
      · rw [List.map_cons, List.sum_cons]
    · rw [rest_total, total_eq, amountOf, amountOf, List.map_cons, List.sum_cons]
      omega
    · rw [rest_logs, logs_eq, List.map_cons, List.reverse_cons, List.append_assoc]
      rfl

theorem Deallocated.flow (deallocated : Deallocated ctxt ctxt') : Flow ctxt ctxt' 0 0 0 := by
  rcases deallocated with rfl | ⟨contract, found, -, -, managers, rfl⟩
  · exact rfl _
  · have emptied := of_spendable ctxt contract none (x := 0) (by
      rw [Table.weightAt_of_find found]
      rfl)
    apply (emptied.trans (of_same (by constructor <;> rfl))).congr
    · rw [Pi.single_zero, add_zero]
    · rfl
    · rfl

theorem deallocateGivers_flow
    (deallocated : givers.foldlM deallocateGiver ctxt = .ok ctxt') : Flow ctxt ctxt' 0 0 0 := by
  refine foldlM_preserves (P := fun later => Flow ctxt later 0 0 0) ?_ (rfl _) deallocated
  intro mid after giver flow step
  exact (flow.trans (deallocateGiver_eq_ok step).flow).congr (add_zero _).symm rfl rfl

theorem received_congr {net supply : Int} (flow : Flow ctxt ctxt' delta net supply) (receiver : T.Receiver)
    (amount : Int) : received ctxt' receiver amount = received ctxt receiver amount := by
  cases receiver with
  | infiniteSink sink => rfl
  | container container => simp only [received, flow.accountOf_eq]

section Transfer
variable {origin : Origin} {givers : List (T.Giver × Tez)}
variable {receiver : T.Receiver}
variable {updates : List (BalanceUpdateItem T.Balance Origin)}

theorem transferN_flow (transferred : transferN origin ctxt givers receiver = .ok (ctxt', updates)) :
    Flow ctxt ctxt' (received ctxt receiver (amountOf givers) - (givers.map (taken ctxt)).sum)
      (amountOf givers - burnt receiver (amountOf givers) - (givers.map drawn).sum)
      ((givers.map minted).sum - burnt receiver (amountOf givers)) := by
  have taken_zero (giver : T.Giver) :
      taken ctxt (giver, Tez.zero) = 0 := by
    cases giver with
    | infiniteSource source => rfl
    | container container => exact Pi.single_zero _
  have drawn_zero (giver : T.Giver) : drawn (giver, Tez.zero) = 0 := by
    cases giver <;> rfl
  have minted_zero (giver : T.Giver) : minted (giver, Tez.zero) = 0 := by
    cases giver <;> rfl
  have amount_eq : amountOf (nonzero givers) = amountOf givers :=
    sum_nonzero (fun giver => (giver.2.mutez : Int)) (fun _ => rfl) givers
  rw [← sum_nonzero _ taken_zero, ← sum_nonzero _ drawn_zero, ← sum_nonzero _ minted_zero, ← amount_eq]
  rcases transferN_eq_ok transferred with
    ⟨empty, rfl, -⟩ | ⟨-, withdrawn, mid, withdrawing, crediting, deallocating, -⟩
  · rw [empty]
    apply (rfl _).congr
    · cases receiver <;> simp [received, amountOf]
    · cases receiver <;> simp [burnt, amountOf]
    · cases receiver <;> simp [burnt, amountOf]
  · obtain ⟨withdrawals, total_eq, -⟩ := withdraws_flow withdrawing
    have credited := creditReceiver_flow crediting
    rw [received_congr withdrawals, total_eq] at credited
    have whole : ((Tez.zero.mutez : Nat) : Int) + amountOf (nonzero givers) =
        amountOf (nonzero givers) := Int.zero_add _
    rw [whole] at credited
    apply ((withdrawals.trans credited).trans (deallocateGivers_flow deallocating)).congr
    · rw [add_zero, neg_add_eq_sub]
    · omega
    · omega

/-- The balance updates list one debit for each giver and then the credit. -/
def ListsTransfer (origin : Origin) (givers : List (T.Giver × Tez)) (receiver : T.Receiver)
    (updates : List (BalanceUpdateItem T.Balance Origin)) : Prop :=
  ∃ amount, updates = givers.map (debitOf origin) ++ [⟨receiver.receipt, .credited amount, origin⟩]

structure Conserved (ctxt : Context T) (givers : List (T.Giver × Tez)) (receiver : T.Receiver)
    (ctxt' : Context T) : Prop where
  backing : (ctxt'.totalSupply.mutez : Int) - held ctxt' = ctxt.totalSupply.mutez - held ctxt
  supply : (ctxt'.totalSupply.mutez : Int) =
    ctxt.totalSupply.mutez + (givers.map minted).sum - burnt receiver (amountOf givers)
  frame : ∀ container : T.Container,
    (∀ giver ∈ givers, ∀ given, giver.1 = .container given →
      accountOf ctxt given ≠ accountOf ctxt container) →
    (∀ given, receiver = .container given → accountOf ctxt given ≠ accountOf ctxt container) →
    balanceOf ctxt' (accountOf ctxt container) = balanceOf ctxt (accountOf ctxt container)

theorem sum_taken_eq_zero {account} (elsewhere : ∀ giver ∈ givers, ∀ given, giver.1 = .container given →
      accountOf ctxt given ≠ account) : (givers.map (taken ctxt)).sum account = 0 := by
  induction givers with
  | nil => rfl
  | cons giver givers ih =>
    rw [List.map_cons, List.sum_cons, Pi.add_apply,
      ih fun later member => elsewhere later (List.mem_cons_of_mem _ member), Int.add_zero]
    have here := elsewhere giver List.mem_cons_self
    obtain ⟨source | container, amount⟩ := giver
    · rfl
    · exact Pi.single_eq_of_ne (Ne.symm (here container rfl)) _

theorem transferN_conserved (transferred : transferN origin ctxt givers receiver = .ok (ctxt', updates)) :
    Conserved ctxt givers receiver ctxt' := by
  have flow := transferN_flow transferred
  have parts := amountOf_eq givers
  constructor
  case backing =>
    have supply := flow.totalSupply
    have held_eq := flow.held
    omega
  case supply =>
    rw [flow.totalSupply]
    omega
  case frame =>
    intro container givers_elsewhere receiver_elsewhere
    have balance := flow.balance (accountOf ctxt container)
    have unreceived : received ctxt receiver (amountOf givers) (accountOf ctxt container) = 0 := by
      cases receiver with
      | infiniteSink sink => rfl
      | container given => exact Pi.single_eq_of_ne (Ne.symm (receiver_elsewhere given rfl)) _
    rw [Pi.sub_apply, unreceived, sum_taken_eq_zero givers_elsewhere, Int.sub_zero, Int.add_zero] at balance
    exact Int.ofNat.inj balance

theorem transferN_updates (transferred : transferN origin ctxt givers receiver = .ok (ctxt', updates)) :
    (updates.map fun item => changeOf item.update).sum = 0 ∧ (nonzero givers = [] ∧ updates = [] ∨
        nonzero givers ≠ [] ∧ ListsTransfer origin (nonzero givers) receiver updates) := by
  rcases transferN_eq_ok transferred with
    ⟨empty, -, rfl⟩ | ⟨nonempty, withdrawn, mid, withdrawing, -, -, rfl⟩
  · exact ⟨rfl, .inl ⟨empty, rfl⟩⟩
  · obtain ⟨-, total_eq, logs_eq⟩ := withdraws_flow withdrawing
    rw [List.append_nil] at logs_eq
    rw [logs_eq, List.reverse_reverse]
    refine ⟨?_, .inr ⟨nonempty, withdrawn.total, rfl⟩⟩
    rw [List.map_append, List.sum_append, sum_debits, List.map_singleton, List.sum_singleton]
    simp only [changeOf, total_eq, Tez.zero]
    omega

theorem transfers_conserve_tokens
    (transferred : transferN origin ctxt givers receiver = .ok (ctxt', updates)) :
    Conserved ctxt givers receiver ctxt' ∧ (updates.map fun item => changeOf item.update).sum = 0 ∧
      (nonzero givers = [] ∧ updates = [] ∨
        nonzero givers ≠ [] ∧ ListsTransfer origin (nonzero givers) receiver updates) :=
  ⟨transferN_conserved transferred, transferN_updates transferred⟩

end Transfer

abbrev natTypes : TokenTypes := ⟨Nat, Nat, Nat, Nat, Nat⟩

def smallLedger : Context natTypes where
  constants := {
    slashableDepositsPeriod := 2
    minimalStake := ⟨6, by decide⟩
    toleratedInactivityPeriod := 2
    consensusRightsDelay := 2
    hash := id
    isTz4 := fun _ => false
    isBls := fun _ => false }
  currentLevel := ⟨0, 0⟩
  globalCounter := 0
  counter := (Table.add ∅ (.implicit 1) 0).add (.implicit 2) 0
  spendableBalance := (Table.add ∅ (.implicit 1) ⟨10, by decide⟩).add (.implicit 2) ⟨20, by decide⟩
  manager := (Table.add ∅ (.implicit 1) (.hash 1)).add (.implicit 2) (.publicKey 2)
  delegate := (Table.add ∅ (.implicit 1) 2).add (.implicit 2) 2
  delegated := (Table.add ∅ (2, .implicit 1) ()).add (2, .implicit 2) ()
  frozenBonds := ∅
  totalFrozenBonds := ∅
  stakingPseudotokens := ∅
  unstakeRequests := ∅
  unstakedFrozenDeposits := ∅
  stakingBalance := Table.add ∅ 2
    (.init ⟨5, by decide⟩ ⟨5, by decide⟩ ⟨30, by decide⟩ ⟨0, 0⟩)
  activeDelegatesWithMinimalStake := Table.add ∅ 2 ()
  inactiveDelegate := ∅
  delegateLastCycleBeforeDeactivation := Table.add ∅ 2 4
  delegates := Table.add ∅ 2 ()
  consensusKeys := Table.add ∅ 2 ()
  consensusKey := Table.add ∅ 2 2
  commitments := ∅
  collectedFees := ⟨1, by decide⟩
  totalSupply := ⟨41, by decide⟩

/-- Freezing a bond from the balance of its contract and from new tokens. -/
theorem smallLedger_conserves_tokens :
    ∃ ctxt' updates, transferN () smallLedger [(.container (.contract (.implicit 1)), ⟨3, by decide⟩),
          (.infiniteSource .minted, ⟨4, by decide⟩)]
        (.container (.frozenBonds (.implicit 1) 0)) = .ok (ctxt', updates) ∧ Conserved smallLedger
        [(.container (.contract (.implicit 1)), ⟨3, by decide⟩), (.infiniteSource .minted, ⟨4, by decide⟩)]
        (.container (.frozenBonds (.implicit 1) 0)) ctxt' := by
  refine Prod.exists'.1 ((exists_of_isOk ?_).imp fun _ transferred =>
    ⟨transferred, (transfers_conserve_tokens transferred).1⟩)
  decide +kernel

/-- A transfer without givers has no balance updates, not even a credit. -/
theorem empty_transfer_lists_nothing :
    ∃ ctxt' updates, transferN () smallLedger [] (.container .blockFees) = .ok (ctxt', updates) ∧
      ¬ ListsTransfer () (nonzero []) (.container .blockFees) updates := by
  refine ⟨smallLedger, [], rfl, ?_⟩
  rintro ⟨amount, listed⟩
  cases listed

end Octez.Proof.Token
