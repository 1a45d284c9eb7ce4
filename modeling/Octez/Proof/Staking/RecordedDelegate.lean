import Octez.Model.Staking.Run
import Octez.Proof.Staking.Pseudotokens
import Octez.Proof.Staking.Transfers

namespace Octez.Proof.Staking
open Octez.Lib Octez.Staking UnstakeRequests
variable {Pkh : Type}

def recordedDelegate (ctxt : Context Pkh) (contract : Pkh) : Option Pkh :=
  (ctxt.unstakeRequests contract).map StoredRequests.delegate

variable {ctxt after : Context Pkh} {forNextCycle : Bool}

theorem SameRecords.recordedDelegate_eq (same : SameRecords ctxt after) :
    recordedDelegate after = recordedDelegate ctxt := by
  funext contract
  rw [recordedDelegate, recordedDelegate, same.unstakeRequests]

variable {contract : Pkh}

theorem SameTez.recordedDelegate_eq (same : SameTez ctxt after) :
    recordedDelegate after = recordedDelegate ctxt := by
  rw [same]
  rfl

variable [DecidableEq Pkh]

theorem recordedDelegate_add (requests : StoredRequests Pkh) (contract : Pkh) :
    recordedDelegate
        { ctxt with unstakeRequests := ctxt.unstakeRequests.add contract requests } =
      Function.update (recordedDelegate ctxt) contract (some requests.delegate) := by
  funext other
  by_cases same : other = contract
  · simp [recordedDelegate, Map.add_apply, same]
  · simp [recordedDelegate, Map.add_apply, same]

theorem update_recorded {requests} (recorded : recordedDelegate ctxt contract = some requests.delegate)
    (h : update ctxt contract requests = .ok after) : recordedDelegate after = recordedDelegate ctxt := by
  rw [update_eq_ok h, recordedDelegate_add, ← recorded, Function.update_eq_self]

variable {unfinalizable : Option (StoredRequests Pkh)} {delegate : Pkh}

theorem finalizeUnstakeAndCheck_recorded {check}
    (h : finalizeUnstakeAndCheck forNextCycle check ctxt contract =
      .ok (after, unfinalizable)) :
    recordedDelegate after = recordedDelegate ctxt ∧ ∀ stored, unfinalizable = some stored →
        recordedDelegate ctxt contract = some stored.delegate := by
  unfold finalizeUnstakeAndCheck at h
  split at h
  · cases h
    exact ⟨rfl, by simp⟩
  · rename_i finalizable unfinalizable' prepared
    obtain ⟨stored, found, same, -⟩ := prepareFinalizeUnstake_some prepared
    have recorded : recordedDelegate ctxt contract = some unfinalizable'.delegate := by
      rw [recordedDelegate, found, show unfinalizable' = _ from same]
      rfl
    obtain ⟨-, h⟩ := unit_bind_eq_ok.1 h
    split at h
    · cases h
      refine ⟨rfl, ?_⟩
      rintro stored ⟨⟩
      exact recorded
    · obtain ⟨mid, updated, h⟩ := bind_eq_ok.1 h
      obtain ⟨final, transferred, h⟩ := bind_eq_ok.1 h
      cases h
      refine ⟨?_, ?_⟩
      · rw [(finalizeTransfers_quiet transferred).1.recordedDelegate_eq, update_recorded recorded updated]
      · rintro stored ⟨⟩
        exact recorded

theorem finalizeUnstake_recorded (h : finalizeUnstake forNextCycle ctxt contract = .ok after) :
    recordedDelegate after = recordedDelegate ctxt := by
  obtain ⟨⟨final, unfinalizable⟩, finalized, h⟩ := bind_eq_ok.1 h
  cases h
  exact (finalizeUnstakeAndCheck_recorded finalized).1

theorem stakeFromUnstakeForDelegate_recorded {amount rest : Tez}
    (recorded : ∀ stored, unfinalizable = some stored → recordedDelegate ctxt delegate = some stored.delegate)
    (h : stakeFromUnstakeForDelegate forNextCycle ctxt delegate unfinalizable amount =
      .ok (after, rest)) : recordedDelegate after = recordedDelegate ctxt := by
  unfold stakeFromUnstakeForDelegate at h
  split at h
  · cases h
    rfl
  · rename_i stored
    split_ifs at h with other allowed
    · cases h
      rfl
    · obtain ⟨⟨mid, remaining, left⟩, moved, h⟩ := bind_eq_ok.1 h
      obtain ⟨final, updated, h⟩ := bind_eq_ok.1 h
      cases h
      have same := (transferFromUnstake_quiet moved).1
      have own : stored.delegate = delegate := (not_ne_iff.1 other).symm
      rw [update_recorded _ updated, same.recordedDelegate_eq]
      rw [same.recordedDelegate_eq, recorded stored rfl, own]
    · cases h
      rfl

theorem stake_recorded {amount : StakeAmount} {sender : Pkh}
    (h : stake forNextCycle ctxt amount sender delegate = .ok after) :
    recordedDelegate after = recordedDelegate ctxt := by
  obtain ⟨⟨finalized, unfinalizable⟩, finalization, h⟩ := bind_eq_ok.1 h
  obtain ⟨⟨unstaked, liquid⟩, fromUnstake, h⟩ := bind_eq_ok.1 h
  obtain ⟨minted, minting, h⟩ := bind_eq_ok.1 h
  obtain ⟨finalized_eq, recorded⟩ := finalizeUnstakeAndCheck_recorded finalization
  rw [(transferN_same h).recordedDelegate_eq]
  by_cases delegator : sender ≠ delegate
  · rw [stakeFromUnstake, if_pos delegator] at fromUnstake
    rw [issuePseudotokens, if_pos delegator] at minting
    cases fromUnstake
    rw [(pseudotokens_stake_same minting).recordedDelegate_eq, finalized_eq]
  · rw [stakeFromUnstake, if_neg delegator] at fromUnstake
    rw [issuePseudotokens, if_neg delegator] at minting
    cases minting
    obtain rfl : sender = delegate := not_ne_iff.1 delegator
    rw [← finalized_eq] at recorded
    rw [stakeFromUnstakeForDelegate_recorded recorded fromUnstake, finalized_eq]

variable {contract delegate : Pkh} {amount : Tez} {cycle : Nat}

theorem moveToUnstaked_recorded (h : moveToUnstaked forNextCycle ctxt contract delegate amount = .ok after) :
    recordedDelegate after = recordedDelegate ctxt := by
  obtain ⟨moved, transferred, finalized⟩ := bind_eq_ok.1 h
  rw [finalizeUnstake_recorded finalized, (transferN_same transferred).recordedDelegate_eq]

theorem addLoop_not_raised (cycle : Nat) (amount : Tez) (all revPrefix rest : List (Nat × Tez))
    (exn : Exn) : UnstakeRequest.addLoop cycle amount all revPrefix rest ≠ .error (.raised exn) := by
  induction rest generalizing revPrefix with
  | nil => simp [UnstakeRequest.addLoop]
  | cons request rest ih =>
    rw [UnstakeRequest.addLoop]
    split
    · have added := tez_add_not_raised request.2 amount exn
      cases sum : request.2.add amount with
      | error failure =>
        rw [sum] at added
        simpa using added
      | ok total => simp
    · exact ih _

theorem extend_not_raised (contract delegate : Pkh) (cycle : Nat) (amount : Tez)
    (requests : List (Nat × Tez)) :
    ((liftTez (UnstakeRequest.add cycle amount requests) >>= fun requests =>
      .ok { ctxt with
        unstakeRequests := ctxt.unstakeRequests.add contract { delegate, requests } }) :
        Result Pkh (Context Pkh)) ≠ .error (.raised .assertFalse) := by
  have extended := addLoop_not_raised cycle amount requests [] requests .assertFalse
  rw [UnstakeRequest.add, liftTez]
  rcases sum : UnstakeRequest.addLoop cycle amount requests [] requests with (exn | error) | total
  · rw [sum] at extended
    simpa [liftError] using extended
  · simp [liftError]
  · simp [liftError]

theorem add_raises_iff :
    add ctxt contract delegate cycle amount = .error (.raised .assertFalse) ↔
      ∃ previous, recordedDelegate ctxt contract = some previous ∧ previous ≠ delegate := by
  unfold add UnstakeRequests.recorded
  cases found : ctxt.unstakeRequests contract with
  | none =>
    simp only [recordedDelegate, found, ok_bind, Option.map_none, reduceCtorEq, false_and,
      exists_false, iff_false]
    exact extend_not_raised contract _ cycle amount _
  | some stored =>
    simp only [recordedDelegate, found, Option.map_some, Option.some.injEq, exists_eq_left']
    by_cases same : delegate = stored.delegate
    · simp only [same, decide_true, assert_true, ok_bind, pure_eq_ok, ne_eq, not_true_eq_false, iff_false]
      exact extend_not_raised contract _ cycle amount _
    · simp [assert, same, Ne.symm same]

def unstakeRequest (ctxt : Context Pkh) : Event Pkh → Option (Pkh × Pkh × Tez)
  | .operation (.unstake sender amount) =>
    (ctxt.delegate sender).map fun delegate => (sender, delegate, amount)
  | .operation (.delegation sender _) =>
    match ctxt.delegate sender with
    | none => none
    | some previous => if previous = sender then none else some (sender, previous, maxTez)
  | .autounstake delegate amount => some (delegate, delegate, amount)
  | _ => none

/-- The event moves tez of the contract out of the frozen deposits of the delegate. -/
def Unstakes (ctxt : Context Pkh) (event : Event Pkh) (contract delegate : Pkh) : Prop :=
  ∃ amount burned tez, unstakeRequest ctxt event = some (contract, delegate, amount) ∧
    Pseudotokens.requestUnstake ctxt contract delegate amount = .ok (burned, tez) ∧ tez ≠ Tez.zero

/-- How the recorded delegates change: not at all, or to the delegate that a contract unstakes from,
which was recorded before if any was. -/
def RecordsOf (ctxt after : Context Pkh) (event : Event Pkh) : Prop :=
  (recordedDelegate after = recordedDelegate ctxt ∧ ∀ contract delegate,
      ¬Unstakes ctxt event contract delegate) ∨ ∃ contract delegate, Unstakes ctxt event contract delegate ∧
      (∀ contract' delegate', Unstakes ctxt event contract' delegate' →
        contract' = contract ∧ delegate' = delegate) ∧
      recordedDelegate after =
        Function.update (recordedDelegate ctxt) contract (some delegate) ∧
      ∀ previous, recordedDelegate ctxt contract = some previous → previous = delegate

variable {event : Event Pkh}

theorem requestUnstake_records (requested : unstakeRequest ctxt event = some (contract, delegate, amount))
    (h : requestUnstake forNextCycle ctxt contract delegate amount = .ok after) :
    RecordsOf ctxt after event := by
  obtain ⟨⟨burned, tez⟩, burning, h⟩ := bind_eq_ok.1 h
  have burned_eq := (pseudotokens_requestUnstake_same burning).recordedDelegate_eq
  have only : ∀ {contract' delegate' : Pkh}, Unstakes ctxt event contract' delegate' →
      contract' = contract ∧ delegate' = delegate ∧ tez ≠ Tez.zero := by
    rintro contract' delegate' ⟨amount', burned', tez', requested', burning', nonzero⟩
    rw [requested] at requested'
    cases requested'
    rw [burning] at burning'
    cases burning'
    exact ⟨rfl, rfl, nonzero⟩
  dsimp only at h
  split_ifs at h with nothing
  · cases h
    refine .inl ⟨burned_eq, ?_⟩
    intro contract' delegate' unstakes
    exact (only unstakes).2.2 nothing
  · obtain ⟨moved, moving, h⟩ := bind_eq_ok.1 h
    have moved_eq := (moveToUnstaked_recorded moving).trans burned_eq
    obtain ⟨requests, recorded, h⟩ := bind_eq_ok.1 h
    obtain ⟨extended, -, h⟩ := bind_eq_ok.1 h
    cases h
    refine .inr ⟨contract, delegate, ⟨amount, burned, tez, requested, burning, nothing⟩, ?_, ?_, ?_⟩
    · intro contract' delegate' unstakes
      exact ⟨(only unstakes).1, (only unstakes).2.1⟩
    · rw [← moved_eq]
      exact recordedDelegate_add _ _
    · intro previous found
      rw [← moved_eq] at found
      unfold UnstakeRequests.recorded at recorded
      split at recorded
      · rename_i absent
        simp [recordedDelegate, absent] at found
      · rename_i stored present
        obtain ⟨same, -⟩ := unit_bind_eq_ok.1 recorded
        simp only [recordedDelegate, present, Option.map_some, Option.some.injEq] at found
        rw [← found]
        exact (of_decide_eq_true (assert_eq_ok.1 same)).symm

theorem RecordsOf.of_eq (none : unstakeRequest ctxt event = none)
    (kept : recordedDelegate after = recordedDelegate ctxt) : RecordsOf ctxt after event := by
  refine .inl ⟨kept, ?_⟩
  rintro contract delegate ⟨amount, burned, tez, requested, -⟩
  rw [none] at requested
  cases requested

theorem RecordsOf.congr {final : Context Pkh} (records : RecordsOf ctxt after event)
    (kept : recordedDelegate final = recordedDelegate after) : RecordsOf ctxt final event := by
  unfold RecordsOf at *
  rw [kept]
  exact records

theorem setContractDelegate_recorded {delegate : Option Pkh}
    (h : setContractDelegate ctxt contract delegate = .ok after) :
    recordedDelegate after = recordedDelegate ctxt := by
  have removal : ∀ {removed : Context Pkh} {amount : Tez},
      removeContractDelegatedStake ctxt contract amount = .ok removed →
        recordedDelegate removed = recordedDelegate ctxt := fun removed =>
    (SameRecords.of_stakingBalance (removeContractDelegatedStake_restaked removed).only).recordedDelegate_eq
  unfold setContractDelegate at h
  split at h
  · unfold setSelfDelegate at h
    split at h
    · obtain ⟨-, h⟩ := unit_bind_eq_ok.1 h
      cases h
      rfl
    · obtain ⟨-, h⟩ := unit_bind_eq_ok.1 h
      obtain ⟨removed, removing, h⟩ := bind_eq_ok.1 h
      cases h
      exact (removal removing :)
  · obtain ⟨-, h⟩ := unit_bind_eq_ok.1 h
    obtain ⟨-, h⟩ := unit_bind_eq_ok.1 h
    obtain ⟨removed, removing, h⟩ := bind_eq_ok.1 h
    split at h
    · cases h
      exact (removal removing :)
    · obtain ⟨-, h⟩ := unit_bind_eq_ok.1 h
      have added := SameRecords.of_stakingBalance (addDelegatedStake_restaked h).only
      rw [added.recordedDelegate_eq]
      exact (removal removing :)

theorem applyDenunciation_recorded {slash : Slash Pkh}
    (h : applyDenunciation ctxt slash = .ok after) : recordedDelegate after = recordedDelegate ctxt := by
  obtain ⟨balance, -, h⟩ := bind_eq_ok.1 h
  obtain ⟨current, -, h⟩ := bind_eq_ok.1 h
  obtain ⟨staked, -, h⟩ := bind_eq_ok.1 h
  obtain ⟨toBurn, -, h⟩ := bind_eq_ok.1 h
  obtain ⟨toReward, -, h⟩ := bind_eq_ok.1 h
  obtain ⟨⟨burns, rewards⟩, -, h⟩ := bind_eq_ok.1 h
  obtain ⟨burned, burning, rewarding⟩ := bind_eq_ok.1 h
  rw [(transferN_same rewarding).recordedDelegate_eq, (transferN_same burning).recordedDelegate_eq]
  rfl

theorem operation_records {operation : Operation Pkh} (h : operation.apply ctxt = .ok after) :
    RecordsOf ctxt after (.operation operation) := by
  cases operation with
  | stake sender amount =>
    obtain ⟨-, h⟩ := unit_bind_eq_ok.1 h
    obtain ⟨-, h⟩ := unit_bind_eq_ok.1 h
    split at h
    · cases h
    · obtain ⟨-, h⟩ := unit_bind_eq_ok.1 h
      obtain ⟨-, h⟩ := unit_bind_eq_ok.1 h
      exact .of_eq rfl (stake_recorded h)
  | unstake sender amount =>
    obtain ⟨-, h⟩ := unit_bind_eq_ok.1 h
    split at h
    · cases h
    · rename_i delegate delegated
      exact requestUnstake_records (by rw [unstakeRequest, delegated]; rfl) h
  | finalizeUnstake sender => exact .of_eq rfl (finalizeUnstake_recorded h)
  | delegation sender delegate =>
    obtain ⟨unstaked, unstaking, h⟩ := bind_eq_ok.1 h
    refine RecordsOf.congr ?_ (setContractDelegate_recorded h)
    unfold unstakeFromPrevious at unstaking
    split at unstaking
    · rename_i undelegated
      cases unstaking
      exact .of_eq (by simp only [unstakeRequest, undelegated]) rfl
    · rename_i previous delegated
      split at unstaking
      · rename_i own
        cases unstaking
        exact .of_eq (by simp only [unstakeRequest, delegated, if_pos own]) rfl
      · rename_i other
        exact requestUnstake_records (by simp only [unstakeRequest, delegated, if_neg other]) unstaking
  | payment source destination amount =>
    exact .of_eq rfl (transferN_same h).recordedDelegate_eq
  | reward staker amount => exact .of_eq rfl (transferN_same h).recordedDelegate_eq
  | denunciation delegate =>
    cases h
    exact .of_eq rfl rfl

theorem step_records {before after : State Pkh}
    (step : Step before event after) : RecordsOf before.ctxt after.ctxt event := by
  cases step with
  | operation applied => exact operation_records applied
  | endOfCycle => exact .of_eq rfl rfl
  | slash recent applied => exact .of_eq rfl (applyDenunciation_recorded applied)
  | slashed => exact .of_eq rfl rfl
  | autostake automated applied => exact .of_eq rfl (stake_recorded applied)
  | autounstake automated applied => exact requestUnstake_records rfl applied
  | autofinalize automated applied => exact .of_eq rfl (finalizeUnstake_recorded applied)
  | newCycle => exact .of_eq rfl rfl

variable {trace : List (State Pkh × Event Pkh)} {initial : State Pkh}

theorem run_records {state : State Pkh} (run : Runs initial trace state)
    (fresh : recordedDelegate initial.ctxt contract = none) (delegate : Pkh) :
    recordedDelegate state.ctxt contract = some delegate ↔
      ∃ entry ∈ trace, Unstakes entry.1.ctxt entry.2 contract delegate := by
  induction run with
  | start => simp [fresh]
  | step run step ih =>
    simp only [List.mem_cons, exists_eq_or_imp, ← ih]
    rcases step_records step with ⟨kept, none⟩ | ⟨other, newDelegate, unstakes, only, changed, previous⟩
    · rw [kept]
      simp [none]
    · rw [changed]
      by_cases same : contract = other
      · subst same
        rw [Function.update_self]
        constructor
        · rintro ⟨⟩
          exact .inl unstakes
        · rintro (again | earlier)
          · rw [(only _ _ again).2]
          · rw [previous _ earlier]
      · rw [Function.update_of_ne same]
        constructor
        · exact .inr
        · rintro (again | earlier)
          · exact absurd (only _ _ again).1 same
          · exact earlier

/-- A request is recorded without a failed assertion exactly when the contract has unstaked from no
other delegate in the run. -/
theorem unstake_assertion_holds_iff {initial state : State Pkh} {trace : List (State Pkh × Event Pkh)}
    {contract delegate : Pkh} {amount tez : Tez} {burned moved : Context Pkh}
    (run : Runs initial trace state) (fresh : initial.ctxt.unstakeRequests contract = none)
    (burning : Pseudotokens.requestUnstake state.ctxt contract delegate amount = .ok (burned, tez))
    (moving : moveToUnstaked forNextCycle burned contract delegate tez = .ok moved) :
    UnstakeRequests.add moved contract delegate (UnstakeRequests.cycleOf forNextCycle burned) tez ≠
        .error (.raised .assertFalse) ↔
      ∀ entry ∈ trace, ∀ previous, Unstakes entry.1.ctxt entry.2 contract previous → previous = delegate := by
  have recorded := run_records run (by rw [recordedDelegate, fresh]; rfl)
  rw [Ne, add_raises_iff, moveToUnstaked_recorded moving,
    (pseudotokens_requestUnstake_same burning).recordedDelegate_eq]
  constructor
  · intro none entry member previous unstakes
    by_contra other
    exact none ⟨previous, (recorded previous).2 ⟨entry, member, unstakes⟩, other⟩
  · rintro same ⟨previous, found, other⟩
    obtain ⟨entry, member, unstakes⟩ := (recorded previous).1 found
    exact other (same entry member previous unstakes)

def advance (ctxt : Context Pkh) : Option (Operation Pkh) → Result Pkh (Context Pkh)
  | none => .ok { ctxt with cycle := ctxt.cycle + 1 }
  | some operation => operation.apply ctxt

theorem runs_advance {moves : List (Option (Operation Pkh))} (run : Runs initial trace ⟨ctxt, .operations⟩)
    (h : moves.foldlM advance ctxt = .ok after) : ∃ trace', Runs initial trace' ⟨after, .operations⟩ := by
  induction moves generalizing ctxt trace with
  | nil =>
    cases h
    exact ⟨trace, run⟩
  | cons move moves ih =>
    obtain ⟨mid, moved, rest⟩ := bind_eq_ok.1 h
    cases move with
    | none =>
      cases moved
      have slashed : Step ⟨ctxt, .denunciations⟩
          (.slashed ctxt.pendingDenunciations ctxt.inactive) ⟨ctxt, .autostaking⟩ := .slashed
      have next : Step ⟨ctxt, .autostaking⟩ (.newCycle ctxt.adaptiveIssuanceEnable)
          ⟨{ ctxt with cycle := ctxt.cycle + 1 }, .operations⟩ := .newCycle
      exact ih (((run.step .endOfCycle).step slashed).step next) rest
    | some operation => exact ih (run.step (.operation moved)) rest

def twoDelegates : Context Nat where
  constants := ⟨1, 5, false⟩
  cycle := 0
  adaptiveIssuanceEnable := true
  balance := fun _ => tez 1000
  delegate := fun pkh => some (if pkh = 2 then 0 else pkh)
  stakingBalance := fun pkh =>
    if pkh = 0 then some ⟨tez 100, tez 0, tez 2000⟩
    else if pkh = 1 then some ⟨tez 100, tez 0, tez 1000⟩ else none
  inactive := fun _ => false
  limitOfStakingOverBakingMillionth := fun _ => 1000000
  stakingPseudotokens := fun _ => tez 0
  frozenDepositsPseudotokens := fun _ => tez 0
  unstakeRequests := Map.empty
  unstakedFrozenDeposits := fun _ => []
  slashedDeposits := fun _ => []
  slashedDepositsOxford := fun _ => []
  pendingDenunciations := fun _ => false
  totalSupply := tez 10000

/-- Stake with the first delegate, unstake everything, finalize it three cycles later, move to the
second delegate and stake there. -/
def moveAway : List (Option (Operation Nat)) :=
  [some (.stake 2 (tez 100)), some (.unstake 2 (tez 100)), none, none, none,
    some (.finalizeUnstake 2), some (.delegation 2 (some 1)), some (.stake 2 (tez 50))]

/-- After an unstake and its finalization a contract that stays with its delegate unstakes again. -/
theorem twoDelegates_unstakes_again :
    ∃ trace ctxt burned moved returned, Runs ⟨twoDelegates, .operations⟩ trace ⟨ctxt, .operations⟩ ∧
      Pseudotokens.requestUnstake ctxt 2 0 (tez 50) = .ok (burned, returned) ∧
      moveToUnstaked false burned 2 0 returned = .ok moved ∧
      UnstakeRequests.add moved 2 0 (UnstakeRequests.cycleOf false burned) returned ≠
        .error (.raised .assertFalse) := by
  have again : ∃ ctxt,
      (moveAway.take 6 ++ [some (Operation.stake 2 (tez 50))]).foldlM advance twoDelegates = .ok ctxt ∧
      recordedDelegate ctxt 2 = some 0 ∧ (Pseudotokens.requestUnstake ctxt 2 0 (tez 50) >>= fun result =>
        moveToUnstaked false result.1 2 0 result.2).isOk = true := by
    apply exists_ok_of
    decide +kernel
  obtain ⟨ctxt, advanced, recorded, returns⟩ := again
  obtain ⟨trace, run⟩ := runs_advance .start advanced
  obtain ⟨moved, computed⟩ := exists_of_isOk returns
  obtain ⟨⟨burned, returned⟩, burning, moving⟩ := bind_eq_ok.1 computed
  refine ⟨trace, ctxt, burned, moved, returned, run, burning, moving, ?_⟩
  refine (unstake_assertion_holds_iff run rfl burning moving).2 fun entry member previous unstakes => ?_
  have found := (run_records run rfl previous).2 ⟨entry, member, unstakes⟩
  exact Option.some.inj (found.symm.trans recorded)

def failureOf {α : Type} : Result Nat α → Option (Failure (StakingError Nat))
  | .error failure => some failure
  | .ok _ => none

/-- The contract has no unstake request left, and yet it cannot unstake from its new delegate. -/
theorem moveAway_unstake_raises :
    ∃ trace ctxt, Runs ⟨twoDelegates, .operations⟩ trace ⟨ctxt, .operations⟩ ∧ ctxt.delegate 2 = some 1 ∧
      (ctxt.unstakeRequests 2).map (fun stored => (stored.delegate, stored.requests)) =
        some (0, []) ∧ failureOf (applyUnstake ctxt 2 (tez 50)) = some (.raised .assertFalse) := by
  refine exists_comm.1 (Exists.imp (p := fun ctxt => moveAway.foldlM advance twoDelegates = .ok ctxt ∧ _)
    (fun ctxt ⟨moved, left⟩ => (runs_advance .start moved).imp fun trace run => ⟨run, left⟩)
    (exists_ok_of ?_))
  decide +kernel

end Octez.Proof.Staking
