import Octez.Model.Manager.TakeFees
import Octez.Proof.Token.Delegates

namespace Octez.Proof.Manager
open Octez.Lib Octez.Token Octez.Manager Octez.Proof.Token DelegateStorage

variable {T : TokenTypes} {Expr Oph Origin : Type}
variable {ctxt mid ctxt' : Context T} {amount : Tez}

def SameCounters (ctxt ctxt' : Context T) : Prop :=
  ctxt'.globalCounter = ctxt.globalCounter ∧ ctxt'.counter = ctxt.counter

variable [DecidableEq T.Pkh] [DecidableEq T.ContractHash]

structure Recreated (ctxt ctxt' : Context T) : Prop where
  globalCounter : ctxt'.globalCounter = ctxt.globalCounter
  counter : ∀ contract k, ctxt'.counter.find contract = some k →
    ctxt.counter.find contract = some k ∨ k = ctxt.globalCounter

namespace Recreated

theorem of_same (same : SameCounters ctxt ctxt') : Recreated ctxt ctxt' where
  globalCounter := same.1
  counter contract k found := .inl (by rw [← same.2, found])

theorem trans (first : Recreated ctxt mid) (second : Recreated mid ctxt') : Recreated ctxt ctxt' where
  globalCounter := second.globalCounter.trans first.globalCounter
  counter contract k found := by
    rcases second.counter contract k found with kept | fresh
    · exact first.counter contract k kept
    · exact .inr (fresh.trans first.globalCounter)

theorem of_put {contract} {new : Option Nat} (fresh : ∀ k, new = some k → k = ctxt.globalCounter)
    (same : SameCounters { ctxt with counter := ctxt.counter.put contract new } ctxt') :
    Recreated ctxt ctxt' where
  globalCounter := same.1
  counter other k found := by
    rw [same.2] at found
    by_cases here : other = contract
    · subst here
      rw [Table.find_put_self] at found
      exact .inr (fresh k found)
    · rw [Table.find_put_of_ne here] at found
      exact .inl found

end Recreated

section Transfers
variable {contract : T.Contract} {delegate : T.Pkh} {x : Int}

omit [DecidableEq T.ContractHash] in
theorem updated_sameCounters {own staked delegated : Int}
    (updated : StakeUpdated ctxt ctxt' delegate own staked delegated) : SameCounters ctxt ctxt' := by
  obtain ⟨before, after, active, -, -, rfl⟩ := updated
  exact ⟨rfl, rfl⟩

theorem restaked_sameCounters (restaked : ContractRestaked ctxt ctxt' contract x) :
    SameCounters ctxt ctxt' := by
  unfold ContractRestaked at restaked
  split at restaked
  · exact restaked ▸ ⟨rfl, rfl⟩
  · exact updated_sameCounters restaked

theorem set_sameCounters {chosen : Option T.Pkh}
    (updated : DelegateStorage.set ctxt contract chosen = .ok ctxt') : SameCounters ctxt ctxt' := by
  have relinked {contract : T.Contract} {chosen : Option T.Pkh}
      (updated : setDelegate ctxt contract chosen = .ok ctxt') :
      SameCounters ctxt ctxt' := by
    simp only [setDelegate, bind_eq_ok] at updated
    obtain ⟨-, -, -, -, total, -, mid, removed, linking⟩ := updated
    have left := restaked_sameCounters (removeContractDelegatedStake_eq_ok removed)
    cases chosen with
    | none =>
      obtain ⟨delegated, deleted⟩ := contractDelegate_delete_eq mid contract
      rw [link, deleted] at linking
      cases linking
      exact left
    | some delegate =>
      simp only [link, bind_eq_ok] at linking
      obtain ⟨-, -, linked, setting, added⟩ := linking
      obtain ⟨delegated, rfl⟩ := contractDelegate_set_eq_ok setting
      have right := updated_sameCounters (addDelegatedStake_eq_ok added)
      exact ⟨right.1.trans left.1, right.2.trans left.2⟩
  unfold DelegateStorage.set at updated
  split at updated
  · split at updated
    · unfold setSelfDelegate at updated
      split at updated
      · obtain ⟨-, activated⟩ := unit_bind_eq_ok.1 updated
        obtain ⟨inactive, last, active, rfl⟩ := setActive_eq_ok activated
        exact ⟨rfl, rfl⟩
      · simp only [register, bind_eq_ok] at updated
        obtain ⟨key, -, -, -, total, -, mid, removed, linked, setting, started, starting, keyed,
          keying, activating⟩ := updated
        obtain ⟨delegated, rfl⟩ := contractDelegate_set_eq_ok setting
        obtain ⟨-, active, rfl⟩ := initializeDelegate_eq_ok starting
        obtain ⟨consensusKeys, consensusKey, rfl⟩ := initConsensusKey_eq_ok keying
        obtain ⟨inactive, last, active', rfl⟩ := setActive_eq_ok activating
        exact (restaked_sameCounters (removeContractDelegatedStake_eq_ok removed) :)
    · exact relinked updated
  · exact relinked updated

theorem deallocated_recreated (deallocated : Deallocated ctxt ctxt') : Recreated ctxt ctxt' := by
  rcases deallocated with rfl | ⟨contract, -, -, -, managers, rfl⟩
  · exact .of_same ⟨rfl, rfl⟩
  · have gone : ∀ k, (none : Option Nat) = some k → k = ctxt.globalCounter := by simp
    exact .of_put gone ⟨rfl, rfl⟩

variable [DecidableEq T.BondId] [DecidableEq T.Bpkh]

theorem moved_recreated {container} (moved : Moved ctxt container x ctxt') : Recreated ctxt ctxt' := by
  cases moved with
  | contract _ restaked => exact .of_same (restaked_sameCounters restaked :)
  | allocated => exact .of_put (fun k fresh => (Option.some.inj fresh).symm) ⟨rfl, rfl⟩
  | commitments | nothing => exact .of_same ⟨rfl, rfl⟩
  | ownFrozen _ updated | stakedFrozen _ updated => exact .of_same (updated_sameCounters updated)
  | unstaked restaked updated =>
    obtain ⟨old, new, entries, -, -, rfl⟩ := updateBalance_eq_ok updated
    exact .of_same (updated_sameCounters restaked :)
  | blockFees => exact .of_same ⟨rfl, rfl⟩
  | bonds _ _ restaked => exact .of_same (restaked_sameCounters restaked :)

theorem spendGiver_recreated {giver}
    (spent : spendGiver ctxt giver amount = .ok ctxt') : Recreated ctxt ctxt' := by
  cases giver with
  | infiniteSource source =>
    obtain ⟨totalSupply, -, spent⟩ := bind_eq_ok.1 spent
    cases spent
    exact .of_same ⟨rfl, rfl⟩
  | container container => exact moved_recreated (spendContainer_moved spent)

theorem creditReceiver_recreated {receiver}
    (credited : creditReceiver ctxt receiver amount = .ok ctxt') : Recreated ctxt ctxt' := by
  cases receiver with
  | infiniteSink sink =>
    obtain ⟨totalSupply, -, credited⟩ := bind_eq_ok.1 credited
    cases credited
    exact .of_same ⟨rfl, rfl⟩
  | container container => exact moved_recreated (creditContainer_moved credited)

theorem applyOperation_recreated {operation : Operation T Origin}
    (applied : applyOperation ctxt operation = .ok ctxt') : Recreated ctxt ctxt' := by
  cases operation with
  | transfer origin givers receiver =>
    obtain ⟨⟨after, updates⟩, transferred, applied⟩ := bind_eq_ok.1 applied
    cases applied
    rcases transferN_eq_ok transferred with
      ⟨-, rfl, -⟩ | ⟨-, withdrawn, mid, withdrawing, credited, deallocating, -⟩
    · exact .of_same ⟨rfl, rfl⟩
    · have spent : Recreated ctxt withdrawn.ctxt := by
        refine foldlM_preserves (P := fun later => Recreated ctxt later.ctxt) ?_
          (.of_same ⟨rfl, rfl⟩) withdrawing
        intro before next giver kept step
        exact kept.trans (spendGiver_recreated (withdraw_eq_ok step).1)
      exact foldlM_preserves (P := Recreated ctxt)
        (fun kept step => kept.trans (deallocated_recreated (deallocateGiver_eq_ok step)))
        (spent.trans (creditReceiver_recreated credited)) deallocating
  | initDelegate contract delegate =>
    simp only [applyOperation, init, bind_eq_ok] at applied
    obtain ⟨-, -, -, -, mid, linked, total, -, added⟩ := applied
    obtain ⟨-, delegated, rfl⟩ := contractDelegate_init_eq_ok linked
    exact .of_same (updated_sameCounters (addDelegatedStake_eq_ok added) :)
  | setDelegate contract chosen => exact .of_same (set_sameCounters applied)

end Transfers

def Covers (ctxt : Context T) (manager : T.Pkh) (n : Nat) : Prop :=
  n ≤ ctxt.globalCounter ∧ ∀ k, ctxt.counter.find (.implicit manager) = some k → n ≤ k

def Bounded (ctxt : Context T) : Prop :=
  ∀ contract k, ctxt.counter.find contract = some k → k ≤ ctxt.globalCounter

structure Advances (ctxt ctxt' : Context T) : Prop where
  bounded : Bounded ctxt → Bounded ctxt'
  covers : ∀ {manager n}, Covers ctxt manager n → Covers ctxt' manager n

theorem Advances.trans (first : Advances ctxt mid) (second : Advances mid ctxt') : Advances ctxt ctxt' where
  bounded bounded := second.bounded (first.bounded bounded)
  covers covered := second.covers (first.covers covered)

theorem Recreated.advances (recreated : Recreated ctxt ctxt') : Advances ctxt ctxt' where
  bounded bounded contract k found := by
    rw [recreated.globalCounter]
    rcases recreated.counter contract k found with kept | rfl
    · exact bounded contract k kept
    · exact le_rfl
  covers {manager n} covered := by
    refine ⟨recreated.globalCounter ▸ covered.1, ?_⟩
    intro k found
    rcases recreated.counter _ k found with kept | rfl
    · exact covered.2 k kept
    · exact covered.1

def pairs : ContentsList T Expr → List (T.Pkh × Nat)
  | .single contents => [(contents.source, contents.counter)]
  | .cons contents rest => (contents.source, contents.counter) :: pairs rest

/-- Operations are validated on the context from before their block. What was consumed and which
operations are included is recorded for the statements only. -/
structure Chain (T : TokenTypes) (Expr Oph : Type) where
  raw : Raw T
  prepared : Context T
  validation : ValidationState T Oph
  consumed : List (T.Pkh × Nat)
  included : List (ContentsList T Expr)

variable [DecidableEq T.BondId] [DecidableEq T.Bpkh] in
/-- The application of the operations, the beginning and the end of a block move tokens and change
delegates, or do not touch the counters. -/
inductive Reached (parameters : Parameters T Expr) :
    Chain T Expr Oph → Prop
  | genesis {ctxt gas} (fresh : ctxt.counter = ∅) :
    Reached parameters ⟨⟨ctxt, gas⟩, ctxt, initValidationState parameters, [], []⟩
  | tokens {chain ctxt'} {operation : Operation T Unit}
    (reached : Reached parameters chain)
    (applied : applyOperation chain.raw.ctxt operation = .ok ctxt') :
    Reached parameters { chain with raw := { chain.raw with ctxt := ctxt' } }
  | other {chain raw'} (reached : Reached parameters chain)
    (same : SameCounters chain.raw.ctxt raw'.ctxt) : Reached parameters { chain with raw := raw' }
  | beginBlock {chain} (reached : Reached parameters chain) :
    Reached parameters { chain with
      raw := { chain.raw with remainingBlockGas := parameters.hardGasLimitPerBlock }
      prepared := chain.raw.ctxt, validation := initValidationState parameters }
  | manager {chain checkSignature oph contentsList validation raw'}
    (reached : Reached parameters chain)
    (accepted : validateManagerOperation parameters chain.prepared checkSignature chain.validation
      oph contentsList = .ok validation)
    (taken : (takeFees parameters chain.raw contentsList : Result _ Oph _) = .ok raw') :
    Reached parameters { chain with
      raw := raw', validation := validation, consumed := pairs contentsList ++ chain.consumed
      included := contentsList :: chain.included }
  | drain {chain oph delegate} (reached : Reached parameters chain)
    (unseen : (checkDrainDelegateConflict chain.validation oph delegate :
      Result T _ _) = .ok ()) :
    Reached parameters { chain with validation := addDrainDelegate chain.validation oph delegate }

variable {parameters : Parameters T Expr} {source : T.Pkh} {n : Nat}
variable {raw raw' : Raw T}
variable {contentsList : ContentsList T Expr} {manager : T.Pkh} {checkSignature : Bool} {oph : Oph}

theorem incrementCounter_advances (incremented : incrementCounter ctxt manager = .ok ctxt') :
    Advances ctxt ctxt' ∧ (Covers ctxt manager n → Covers ctxt' manager (n + 1)) := by
  simp only [incrementCounter, bind_eq_ok, liftStorage_eq_ok, Table.get_eq_ok,
    Table.update_eq_ok] at incremented
  obtain ⟨k, found, counter, ⟨-, rfl⟩, h⟩ := incremented
  cases h
  refine ⟨⟨?_, ?_⟩, ?_⟩
  · intro bounded contract k' found'
    have here := bounded _ k found
    dsimp only at found' ⊢
    rw [Table.find_add] at found'
    split_ifs at found'
    · cases found'
      omega
    · exact Nat.le_succ_of_le (bounded contract k' found')
  · rintro other m ⟨low, covered⟩
    refine ⟨Nat.le_succ_of_le low, ?_⟩
    intro k' found'
    rw [Table.find_add] at found'
    split_ifs at found' with same
    · cases found'
      rw [same] at covered
      exact Nat.le_succ_of_le (covered k found)
    · exact covered k' found'
  · rintro ⟨low, covered⟩
    refine ⟨Nat.succ_le_succ low, ?_⟩
    intro k' found'
    rw [Table.find_add_self] at found'
    cases found'
    exact Nat.succ_le_succ (covered k found)

def InOrder (source : T.Pkh) (n : Nat) : ContentsList T Expr → Prop
  | .single contents => contents.source = source ∧ contents.counter = n + 1
  | .cons contents rest =>
    contents.source = source ∧ contents.counter = n + 1 ∧ InOrder source (n + 1) rest

omit [DecidableEq T.Pkh] [DecidableEq T.ContractHash] in
theorem InOrder.pairs_eq (inOrder : InOrder source n contentsList) :
    ∃ count, pairs contentsList = (List.range' (n + 1) count).map (Prod.mk source) := by
  induction contentsList generalizing n with
  | single contents =>
    obtain ⟨rfl, counter⟩ := inOrder
    exact ⟨1, by simp [pairs, counter]⟩
  | cons contents rest ih =>
    obtain ⟨rfl, counter, inOrder⟩ := inOrder
    obtain ⟨count, rest_eq⟩ := ih inOrder
    exact ⟨count + 1, by simp [pairs, counter, rest_eq, List.range'_succ]⟩

omit [DecidableEq T.ContractHash] in
theorem checkBatchTailSanity_inOrder (checked : (checkBatchTailSanity source n contentsList :
      Result T Oph _) = .ok ()) : InOrder source n contentsList := by
  induction contentsList generalizing source n with
  | single contents =>
    simp only [checkBatchTailSanity, checkSourceAndCounter, bind_eq_ok, errorUnless_eq_ok,
      decide_eq_true_eq] at checked
    obtain ⟨-, -, -, same, next⟩ := checked
    exact ⟨same.symm, next.symm⟩
  | cons contents rest ih =>
    simp only [checkBatchTailSanity, checkSourceAndCounter, bind_eq_ok, errorUnless_eq_ok,
      decide_eq_true_eq] at checked
    obtain ⟨-, -, -, ⟨-, rfl, next⟩, checked⟩ := checked
    exact ⟨rfl, next.symm, next ▸ ih checked⟩

theorem validated {state state'}
    (accepted : validateManagerOperation parameters ctxt checkSignature state oph contentsList =
      .ok state') : (∃ k, ctxt.counter.find (.implicit contentsList.source) = some k ∧
      InOrder contentsList.source k contentsList) ∧ state.managersSeen.find contentsList.source = none ∧
      state'.managersSeen = state.managersSeen.add contentsList.source oph := by
  simp only [validateManagerOperation, checkManagerOperation, checkSanityAndFindPublicKey,
    bind_eq_ok] at accepted
  obtain ⟨gasUsed, ⟨checked, ⟨⟨source, revealed, first⟩, batch, balance, -, _, counted, -⟩, -⟩, _,
    unseen, h⟩ := accepted
  cases h
  refine ⟨?_, ?_, rfl⟩
  · have shape : source = contentsList.source ∧
        ∀ k, k + 1 = first → InOrder contentsList.source k contentsList := by
      cases contentsList with
      | single contents =>
        cases batch
        exact ⟨rfl, fun k next => ⟨rfl, next.symm⟩⟩
      | cons contents rest =>
        obtain ⟨tail, h⟩ := unit_bind_eq_ok.1 batch
        cases h
        exact ⟨rfl, fun k next => ⟨rfl, next.symm, next ▸ checkBatchTailSanity_inOrder tail⟩⟩
    obtain ⟨rfl, inOrder⟩ := shape
    obtain ⟨k, got, counted⟩ := bind_eq_ok.1 counted
    have found := Table.get_eq_ok.1 (liftStorage_eq_ok.1 (liftError_eq_ok.1 got))
    dsimp only at counted
    split_ifs at counted with next
    · exact ⟨k, found, inOrder k next⟩
    · cases counted
    · cases counted
  · unfold checkManagerOperationConflict checkUnseen at unseen
    split at unseen
    · assumption
    · cases unseen

variable {chain : Chain T Expr Oph}

structure Sound (chain : Chain T Expr Oph) : Prop where
  bounded : Bounded chain.raw.ctxt
  prepared : ∀ manager k, chain.prepared.counter.find (.implicit manager) = some k →
    Covers chain.raw.ctxt manager k
  consumed : ∀ pair ∈ chain.consumed, Covers chain.raw.ctxt pair.1 pair.2
  seen : ∀ pair ∈ chain.consumed, chain.validation.managersSeen.find pair.1 = none →
    ∀ k, chain.prepared.counter.find (.implicit pair.1) = some k → pair.2 ≤ k
  nodup : chain.consumed.Nodup
  included : ∀ contentsList ∈ chain.included,
    (contentsList.source, contentsList.first.counter) ∈ chain.consumed

theorem Sound.advance (sound : Sound chain)
    (advances : Advances chain.raw.ctxt raw'.ctxt) : Sound { chain with raw := raw' } where
  bounded := advances.bounded sound.bounded
  prepared manager k found := advances.covers (sound.prepared manager k found)
  consumed pair member := advances.covers (sound.consumed pair member)
  seen := sound.seen
  nodup := sound.nodup
  included := sound.included

variable {validation : ValidationState T Oph}

theorem Sound.see (sound : Sound chain)
    (added : validation.managersSeen = chain.validation.managersSeen.add manager oph) :
    Sound { chain with validation := validation } := by
  refine { sound with seen := ?_ }
  intro pair member unseen
  rw [added, Table.find_add] at unseen
  split_ifs at unseen
  exact sound.seen pair member unseen

variable [DecidableEq T.BondId] [DecidableEq T.Bpkh]

theorem contentsEffects_advances {contents}
    (taken : (contentsEffects parameters raw contents : Result _ Oph _) = .ok raw') :
    Advances raw.ctxt raw'.ctxt ∧
      (Covers raw.ctxt contents.source n → Covers raw'.ctxt contents.source (n + 1)) := by
  simp only [contentsEffects, consumeLimitInBlock, bind_eq_ok, liftToken, liftError_eq_ok] at taken
  obtain ⟨gasLeft, ⟨-, -, -, -, limited⟩, counted, incremented, ⟨paid, updates⟩, transferred, h⟩ := taken
  cases limited
  cases h
  have applied : applyOperation counted (.transfer () [(_, _)] _) = .ok paid :=
    bind_eq_ok.2 ⟨_, transferred, rfl⟩
  have recreated := applyOperation_recreated applied
  obtain ⟨advances, covers⟩ := incrementCounter_advances incremented
  exact ⟨advances.trans recreated.advances, fun covered => recreated.advances.covers (covers covered)⟩

theorem takeFees_consumes (inOrder : InOrder source n contentsList) (covered : Covers raw.ctxt source n)
    (taken : (takeFees parameters raw contentsList : Result _ Oph _) = .ok raw') :
    Advances raw.ctxt raw'.ctxt ∧ ∀ pair ∈ pairs contentsList, Covers raw'.ctxt pair.1 pair.2 := by
  induction contentsList generalizing n raw with
  | single contents =>
    obtain ⟨rfl, counter⟩ := inOrder
    obtain ⟨advances, covers⟩ := contentsEffects_advances taken
    refine ⟨advances, ?_⟩
    simp only [pairs, List.mem_singleton, forall_eq, counter]
    exact covers covered
  | cons contents rest ih =>
    obtain ⟨rfl, counter, inOrder⟩ := inOrder
    obtain ⟨between, taken, later⟩ := bind_eq_ok.1 taken
    obtain ⟨advances, covers⟩ := contentsEffects_advances taken
    obtain ⟨rest_advances, rest_covers⟩ := ih inOrder (covers covered) later
    refine ⟨advances.trans rest_advances, ?_⟩
    rintro pair (_ | ⟨_, member⟩)
    · rw [counter]
      exact rest_advances.covers (covers covered)
    · exact rest_covers pair member

theorem Sound.take (sound : Sound chain)
    (accepted : validateManagerOperation parameters chain.prepared checkSignature chain.validation
      oph contentsList = .ok validation)
    (taken : (takeFees parameters chain.raw contentsList : Result _ Oph _) = .ok raw') :
    Sound { chain with
      raw := raw', validation := validation, consumed := pairs contentsList ++ chain.consumed
      included := contentsList :: chain.included } := by
  obtain ⟨⟨k, found, inOrder⟩, unseen, added⟩ := validated accepted
  obtain ⟨advances, covers⟩ := takeFees_consumes inOrder (sound.prepared _ k found) taken
  obtain ⟨count, pairs_eq⟩ := inOrder.pairs_eq
  have later := (sound.advance advances).see added
  have source_of {pair : T.Pkh × Nat} (member : pair ∈ pairs contentsList) :
      pair.1 = contentsList.source ∧ k < pair.2 := by
    rw [pairs_eq, List.mem_map] at member
    obtain ⟨counter, member, rfl⟩ := member
    exact ⟨rfl, (List.mem_range'_1.1 member).1⟩
  refine { later with consumed := ?_, seen := ?_, nodup := ?_, included := ?_ }
  · intro pair member
    rcases List.mem_append.1 member with fresh | old
    · exact covers pair fresh
    · exact later.consumed pair old
  · intro pair member not_seen
    rcases List.mem_append.1 member with fresh | old
    · rw [(source_of fresh).1, added, Table.find_add_self] at not_seen
      cases not_seen
    · exact later.seen pair old not_seen
  · refine List.Nodup.append ?_ sound.nodup ?_
    · rw [pairs_eq]
      exact (List.nodup_range' ..).map (Prod.mk_right_injective _)
    · -- The source was not seen in this block, so what it consumed is not above its counter.
      intro pair fresh old
      obtain ⟨same, above⟩ := source_of fresh
      have below := sound.seen pair old (same ▸ unseen) k (same ▸ found)
      omega
  · rintro other (_ | ⟨_, member⟩)
    · apply List.mem_append_left
      cases contentsList with
      | single contents | cons contents rest => exact List.mem_cons_self
    · exact List.mem_append_right _ (sound.included other member)

theorem Reached.sound (reached : Reached parameters chain) : Sound chain := by
  induction reached with
  | @genesis ctxt gas fresh =>
    constructor
    all_goals simp [Bounded, fresh]
  | tokens reached applied ih => exact ih.advance (applyOperation_recreated applied).advances
  | other reached same ih => exact ih.advance (Recreated.of_same same).advances
  | beginBlock reached ih =>
    refine { ih with prepared := ?_, seen := ?_ }
    · intro manager k found
      refine ⟨ih.bounded _ k found, ?_⟩
      intro k' found'
      rw [found] at found'
      cases found'
      exact le_rfl
    · intro pair member _ k found
      exact (ih.consumed pair member).2 k found
  | manager reached accepted taken ih => exact ih.take accepted taken
  | drain reached unseen ih => exact ih.see rfl

/-- No counter of an account exceeds the global one, no counter of a manager is used twice, and an
operation that is in the chain is not accepted again. -/
theorem manager_operations_not_replayed (reached : Reached parameters chain) :
    (∀ contract k, chain.raw.ctxt.counter.find contract = some k → k ≤ chain.raw.ctxt.globalCounter) ∧
    chain.consumed.Nodup ∧
    ∀ contentsList ∈ chain.included, ∀ checkSignature oph validation,
      validateManagerOperation parameters chain.prepared checkSignature chain.validation oph
        contentsList ≠ .ok validation := by
  have sound := reached.sound
  refine ⟨sound.bounded, sound.nodup, ?_⟩
  intro contentsList member checkSignature oph validation accepted
  obtain ⟨⟨k, found, inOrder⟩, unseen, -⟩ := validated accepted
  have used := sound.seen _ (sound.included contentsList member) unseen k found
  have next : contentsList.first.counter = k + 1 := by
    cases contentsList with
    | single contents => exact inOrder.2
    | cons contents rest => exact inOrder.2.1
  omega

def smallParameters : Parameters natTypes Unit where
  hardGasLimitPerOperation := 100
  hardGasLimitPerBlock := 1000
  hardStorageLimitPerOperation := 10
  managerOperationCost := 5
  scRollupArithPvmEnable := false
  scRollupRiscvPvmEnable := false
  zkRollupEnable := false
  dalEnable := true
  decodingCost := fun _ => 1
  checkSignatureCost := fun _ _ => 2
  checkSignature := fun _ _ => true

/-- The account is created and reveals its key in the first block; in the second one the operation
is refused. -/
theorem reveal_not_replayed :
    let ledger := { smallLedger with counter := ∅, spendableBalance := ∅, manager := ∅ }
    let operation : ContentsList natTypes Unit := .single ⟨1, ⟨2, by decide⟩, 1, .reveal 1, 10, 0⟩
    let state : ValidationState natTypes Nat := initValidationState smallParameters
    ∃ ctxt validation raw, applyOperation ledger (.transfer () [(.infiniteSource .bootstrap, ⟨10, by decide⟩)]
        (.container (.contract (.implicit 1)))) = .ok ctxt ∧
      validateManagerOperation smallParameters ctxt true state 0 operation = .ok validation ∧
      (takeFees smallParameters ⟨ctxt, 1000⟩ operation : Result _ Nat _) = .ok raw ∧
      ∀ oph validation', validateManagerOperation smallParameters raw.ctxt true state oph operation ≠
        .ok validation' := by
  intro ledger operation state
  obtain ⟨raw, ran⟩ := exists_of_isOk (show Except.isOk (do
    let ctxt ← liftToken (applyOperation ledger (.transfer ()
      [(.infiniteSource .bootstrap, ⟨10, by decide⟩)] (.container (.contract (.implicit 1)))))
    let _ ← validateManagerOperation smallParameters ctxt true state 0 operation
    (takeFees smallParameters ⟨ctxt, 1000⟩ operation : Result _ Nat _)) = true by
    decide +kernel)
  simp only [bind_eq_ok, liftToken, liftError_eq_ok] at ran
  obtain ⟨ctxt, created, validation, accepted, taken⟩ := ran
  have genesis : Reached smallParameters ⟨⟨ledger, 0⟩, ledger, state, [], []⟩ := .genesis rfl
  have first := (genesis.tokens created).beginBlock
  have second := (first.manager accepted taken).beginBlock
  exact ⟨ctxt, validation, raw, created, accepted, taken,
    (manager_operations_not_replayed second).2.2 operation List.mem_cons_self true⟩

end Octez.Proof.Manager
