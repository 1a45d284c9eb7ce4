import Octez.Model.Staking.Operations
import Octez.Proof.Slashing.Shares
import Octez.Lib.SharedLoss
import Octez.Proof.Staking.Accounts
import Octez.Proof.Staking.Transfers

namespace Octez.Proof.Staking
open Octez.Lib Octez.Staking Octez.Proof.Slashing Percentage SortedAssoc UnstakeRequests

def windowRate (period fromCycle cycle : Nat) (percentage : Percentage) : Nat :=
  if fromCycle ≤ cycle ∧ cycle ≤ fromCycle + period then percentage.points else 0

def rateOf (period : Nat) (history : List (Nat × Percentage)) (fromCycle : Nat) : Nat :=
  (history.map fun slashing => windowRate period fromCycle slashing.1 slashing.2).sum

theorem mulPercentage_up (tez : Tez) (percentage : Percentage) :
    tez.mutez * percentage.points ≤ oneHundredPercent * (tez.mulPercentage .up percentage).mutez := by
  obtain ⟨g, -, points, hundred⟩ := points_eq_toQ percentage
  have rounded : tez.mutez * percentage.toQ.1 ≤
      percentage.toQ.2 * (tez.mulPercentage .up percentage).mutez :=
    le_mul_cdiv percentage.toQ_pos
  rw [points, hundred, Nat.mul_left_comm, Nat.mul_assoc]
  exact Nat.mul_le_mul_left g rounded

theorem applySlash_le (period fromCycle : Nat) (amount remain : Tez) (slashing : Nat × Percentage) :
    oneHundredPercent *
        (applySlash period fromCycle amount remain slashing).mutez ≤ oneHundredPercent * remain.mutez -
        amount.mutez * windowRate period fromCycle slashing.1 slashing.2 := by
  unfold applySlash windowRate
  by_cases within : fromCycle ≤ slashing.1 ∧ slashing.1 ≤ fromCycle + period
  · rw [if_pos within, if_pos within]
    have lost := mulPercentage_up amount slashing.2
    unfold Tez.subOpt
    split
    · simp only [Option.getD_some]
      rw [Nat.mul_sub]
      omega
    · simp [Tez.zero]
  · rw [if_neg within, if_neg within]
    simp

theorem applySlashes_le (period fromCycle : Nat) (history : List (Nat × Percentage)) (amount : Tez) :
    oneHundredPercent *
        (applySlashes period history fromCycle amount).mutez ≤
      amount.mutez * (oneHundredPercent - rateOf period history fromCycle) := by
  have fold : ∀ remain : Tez, oneHundredPercent *
        (history.foldl (applySlash period fromCycle amount) remain).mutez ≤
      oneHundredPercent * remain.mutez - amount.mutez * rateOf period history fromCycle := by
    induction history with
    | nil => simp [rateOf]
    | cons slashing history ih =>
      intro remain
      have step := applySlash_le period fromCycle amount remain slashing
      have rest := ih (applySlash period fromCycle amount remain slashing)
      rw [List.foldl_cons]
      simp only [rateOf, List.map_cons, List.sum_cons, Nat.mul_add] at rest ⊢
      omega
  have whole := fold amount
  rw [Nat.mul_sub, Nat.mul_comm amount.mutez oneHundredPercent]
  exact whole

section History
variable {history : List (Nat × Percentage)}

theorem percentage_ext {p1 p2 : Percentage} (same : p1.points = p2.points) : p1 = p2 := by
  cases p1
  cases p2
  subst same
  rfl

section
variable (sorted : Sorted history)
include sorted

theorem history_get_eq (cycle : Nat) :
    SlashedDepositsHistory.get cycle history = (history.lookup cycle).getD p0 := by
  induction history with
  | nil => rfl
  | cons slashing history ih =>
    obtain ⟨c, p⟩ := slashing
    rw [SlashedDepositsHistory.get, lookup_cons]
    by_cases same : cycle = c
    · simp [same]
    · rw [if_neg same, if_neg (Ne.symm same)]
      by_cases smaller : c < cycle
      · rw [if_pos smaller]
        exact ih sorted.tail
      · rw [if_neg smaller, sorted.lookup_tail_eq_none (by simp only; omega)]
        rfl

theorem history_add_eq (cycle : Nat) (percentage : Percentage) :
    SlashedDepositsHistory.add cycle percentage history = SortedAssoc.insert cycle
        ((SlashedDepositsHistory.get cycle history).addBounded percentage) history := by
  have first : p0.addBounded percentage = percentage := by
    apply percentage_ext
    have bound := percentage.le_oneHundred
    simp only [addBounded, p0]
    omega
  induction history with
  | nil => simp [SlashedDepositsHistory.add, SlashedDepositsHistory.get, SortedAssoc.insert, first]
  | cons slashing history ih =>
    obtain ⟨c, p⟩ := slashing
    rw [SlashedDepositsHistory.add, SortedAssoc.insert, SlashedDepositsHistory.get]
    by_cases same : cycle = c
    · simp [same]
    · by_cases smaller : c < cycle
      · simp [same, Ne.symm same, smaller, ih sorted.tail]
      · simp [same, Ne.symm same, smaller, first]

theorem history_add_sorted (cycle : Nat) (percentage : Percentage) :
    Sorted (SlashedDepositsHistory.add cycle percentage history) := by
  rw [history_add_eq sorted]
  exact sorted.insert

theorem history_get_add (cycle : Nat) (percentage : Percentage) :
    SlashedDepositsHistory.get cycle (SlashedDepositsHistory.add cycle percentage history) =
      (SlashedDepositsHistory.get cycle history).addBounded percentage := by
  rw [history_get_eq (history_add_sorted sorted cycle percentage), history_add_eq sorted,
    lookup_insert sorted, if_pos rfl]
  rfl

theorem rateOf_add (period cycle fromCycle : Nat) (percentage : Percentage) :
    rateOf period (SlashedDepositsHistory.add cycle percentage history) fromCycle =
      rateOf period history fromCycle + windowRate period fromCycle cycle ((SlashedDepositsHistory.get cycle
            (SlashedDepositsHistory.add cycle percentage history)).subBounded
          (SlashedDepositsHistory.get cycle history)) := by
  rw [history_get_add sorted]
  have change := sum_insert sorted cycle
    ((SlashedDepositsHistory.get cycle history).addBounded percentage) (windowRate period fromCycle)
  have old : (history.lookup cycle).elim 0 (windowRate period fromCycle cycle) =
      windowRate period fromCycle cycle (SlashedDepositsHistory.get cycle history) := by
    rw [history_get_eq sorted]
    cases history.lookup cycle with
    | none => simp [windowRate, p0]
    | some found => rfl
  rw [old] at change
  rw [history_add_eq sorted, rateOf, rateOf]
  have bound := (SlashedDepositsHistory.get cycle history).le_oneHundred
  simp only [windowRate, subBounded, addBounded] at change ⊢
  split_ifs at change ⊢ <;> omega

end

variable {oldest : List (Nat × Percentage)}

theorem foldl_add_sorted (sorted : Sorted oldest) :
    Sorted (history.foldl (fun acc entry => SlashedDepositsHistory.add entry.1 entry.2 acc) oldest) := by
  induction history generalizing oldest with
  | nil => exact sorted
  | cons slashing history ih => exact ih (history_add_sorted sorted _ _)

theorem rateOf_foldl_eq_zero {period fromCycle : Nat} (sorted : Sorted oldest)
    (outside : ∀ entry ∈ oldest, windowRate period fromCycle entry.1 entry.2 = 0)
    (outside' : ∀ entry ∈ history, ∀ percentage,
      windowRate period fromCycle entry.1 percentage = 0) :
    rateOf period (history.foldl
      (fun acc entry => SlashedDepositsHistory.add entry.1 entry.2 acc) oldest) fromCycle = 0 := by
  have none : rateOf period oldest fromCycle = 0 := by
    apply List.sum_eq_zero
    intro rate member
    obtain ⟨entry, entryMember, rfl⟩ := List.mem_map.1 member
    exact outside entry entryMember
  clear outside
  induction history generalizing oldest with
  | nil => exact none
  | cons slashing history ih =>
    apply ih (history_add_sorted sorted _ _)
    · intro entry member
      exact outside' entry (List.mem_cons_of_mem _ member)
    · rw [rateOf_add sorted, none, outside' slashing List.mem_cons_self]

theorem history_add_of_lt {cycle : Nat} (percentage : Percentage)
    (later : ∀ entry ∈ history, entry.1 < cycle) :
    SlashedDepositsHistory.add cycle percentage history = history ++ [(cycle, percentage)] := by
  induction history with
  | nil => rfl
  | cons slashing history ih =>
    obtain ⟨c, p⟩ := slashing
    have below : c < cycle := later (c, p) List.mem_cons_self
    rw [SlashedDepositsHistory.add, if_neg (Nat.ne_of_gt below), if_pos below,
      ih fun entry member => later entry (List.mem_cons_of_mem _ member)]
    rfl

theorem foldl_add_append (sorted : Sorted (oldest ++ history)) :
    history.foldl (fun acc entry => SlashedDepositsHistory.add entry.1 entry.2 acc) oldest =
      oldest ++ history := by
  induction history generalizing oldest with
  | nil => simp
  | cons slashing history ih =>
    have below : ∀ entry ∈ oldest, entry.1 < slashing.1 := by
      intro entry member
      exact (List.pairwise_append.1 sorted).2.2 entry member slashing List.mem_cons_self
    rw [List.foldl_cons, history_add_of_lt _ below, ih]
    · simp
    · simpa using sorted

end History

open UnstakeRequest
open Octez.Slashing (Deposits)

def requestSum (value : Nat × Tez → Nat) (included : Nat → Bool) (requests : List (Nat × Tez)) :
    Nat :=
  (requests.map fun request => if included request.1 then value request else 0).sum

def requestedAmount (request : Nat × Tez) : Nat := request.2.mutez

def onlyCycle (cycle : Nat) : Nat → Bool := fun other => other = cycle

section Sums
variable {value : Nat × Tez → Nat} {included : Nat → Bool} {requests : List (Nat × Tez)}

@[simp] theorem requestSum_nil : requestSum value included [] = 0 := rfl

@[simp] theorem requestSum_cons (request : Nat × Tez) (requests : List (Nat × Tez)) :
    requestSum value included (request :: requests) =
      (if included request.1 then value request else 0) + requestSum value included requests := rfl

theorem requestSum_filter (keep : Nat × Tez → Bool) (requests : List (Nat × Tez)) :
    requestSum value included requests =
      requestSum value included (requests.filter fun request => !keep request) +
        requestSum value included (requests.filter keep) := by
  induction requests with
  | nil => rfl
  | cons request requests ih =>
    rw [requestSum_cons, ih]
    cases kept : keep request with
    | false =>
      rw [List.filter_cons_of_pos (by simp [kept]), List.filter_cons_of_neg (by simp [kept]), requestSum_cons]
      omega
    | true =>
      rw [List.filter_cons_of_neg (by simp [kept]), List.filter_cons_of_pos (by simp [kept]), requestSum_cons]
      omega

theorem requestSum_perm {requests'} (same : requests.Perm requests') :
    requestSum value included requests = requestSum value included requests' :=
  (same.map _).sum_eq

theorem requestSum_eq_zero (excluded : ∀ request ∈ requests, included request.1 = false) :
    requestSum value included requests = 0 := by
  induction requests with
  | nil => rfl
  | cons request requests ih =>
    rw [requestSum_cons, excluded request List.mem_cons_self,
      ih fun later member => excluded later (List.mem_cons_of_mem _ member)]
    rfl

theorem requestSum_append (requests' : List (Nat × Tez)) :
    requestSum value included (requests ++ requests') =
      requestSum value included requests + requestSum value included requests' := by
  simp [requestSum]

theorem requestSum_add {cycle : Nat} {amount : Tez} {extended}
    (additive : ∀ old sum : Tez, old.add amount = .ok sum → included cycle = true →
      value (cycle, sum) = value (cycle, old) + value (cycle, amount))
    (h : add cycle amount requests = .ok extended) :
    requestSum value included extended =
      requestSum value included requests + if included cycle then value (cycle, amount) else 0 := by
  -- The prefix walked past and the rest of the loop together are the requests.
  have loop : ∀ (rest revPrefix : List (Nat × Tez)), revPrefix.reverse ++ rest = requests →
      addLoop cycle amount requests revPrefix rest = .ok extended →
      requestSum value included extended =
        requestSum value included requests +
          if included cycle then value (cycle, amount) else 0 := by
    intro rest
    induction rest with
    | nil =>
      intro revPrefix _ looped
      cases looped
      rw [requestSum_cons, Nat.add_comm]
    | cons request rest ih =>
      intro revPrefix split looped
      obtain ⟨c, a⟩ := request
      rw [addLoop] at looped
      split at looped
      · rename_i same
        subst same
        obtain ⟨sum, added, looped⟩ := bind_eq_ok.1 looped
        cases looped
        rw [← split, List.reverseAux_eq, requestSum_append, requestSum_append, requestSum_cons,
          requestSum_cons]
        split_ifs with within
        · rw [additive a sum added within]
          omega
        · omega
      · exact ih ((c, a) :: revPrefix) (by simpa using split) looped
  exact loop requests [] rfl h

end Sums

variable {Pkh : Type}

section Cycles
variable {ctxt : Context Pkh} {forNextCycle : Bool} {cycle : Nat}

theorem currentUnslashableCycle_eq_some {unslashable : Nat} :
    currentUnslashableCycle ctxt = some unslashable ↔
      unslashable + (ctxt.constants.slashableDepositsPeriod + maxSlashingPeriod) = ctxt.cycle := by
  unfold currentUnslashableCycle subCycle
  split
  · simp only [Option.some.injEq]
    omega
  · simp only [reduceCtorEq, false_iff]
    omega

section
variable (stillOpen : isFinalizable forNextCycle ctxt cycle = false)
include stillOpen

theorem normalize_of_open (other : Nat) :
    normalizeCycle other (currentUnslashableCycle ctxt) = cycle ↔ other = cycle := by
  cases unslashable : currentUnslashableCycle ctxt with
  | none => rfl
  | some last =>
    have bound := currentUnslashableCycle_eq_some.1 unslashable
    have early := of_decide_eq_false stillOpen
    unfold cycleOf at early
    simp only [normalizeCycle]
    split at early <;> omega

theorem saturated_onlyCycle :
    Saturated (currentUnslashableCycle ctxt) (onlyCycle cycle) := by
  intro other
  simp only [onlyCycle, normalize_of_open stillOpen]

theorem readWith_of_open :
    readWith (currentUnslashableCycle ctxt) cycle = onlyCycle cycle := by
  have self : normalizeCycle cycle (currentUnslashableCycle ctxt) = cycle :=
    (normalize_of_open stillOpen cycle).2 rfl
  funext other
  simp only [readWith, onlyCycle, self, normalize_of_open stillOpen]

end

theorem not_readWith {other : Nat} (closed : isFinalizable forNextCycle ctxt other = true)
    (stillOpen : isFinalizable forNextCycle ctxt cycle = false) :
    readWith (currentUnslashableCycle ctxt) other cycle = false := by
  have self : normalizeCycle cycle (currentUnslashableCycle ctxt) = cycle :=
    (normalize_of_open stillOpen cycle).2 rfl
  simp only [readWith, self, decide_eq_false_iff_not]
  intro same
  have again := (normalize_of_open stillOpen other).1 same.symm
  rw [again, stillOpen] at closed
  cases closed

end Cycles

variable [DecidableEq Pkh]

section
variable (ctxt : Context Pkh) (delegate : Pkh)

def requestsTo (contract : Pkh) : List (Nat × Tez) :=
  match ctxt.unstakeRequests contract with
  | none => []
  | some stored => if stored.delegate = delegate then stored.requests else []

def leftOf (request : Nat × Tez) : Nat :=
  (applySlashes ctxt.constants.slashableDepositsPeriod
    (slashingHistory ctxt delegate) request.1 request.2).mutez

def rateFor (cycle : Nat) : Nat :=
  rateOf ctxt.constants.slashableDepositsPeriod (slashingHistory ctxt delegate)
    cycle

def owed (included : Nat → Bool) (contract : Pkh) : Nat :=
  requestSum (leftOf ctxt delegate) included (requestsTo ctxt delegate contract)

def claimed (cycle : Nat) (contract : Pkh) : Nat :=
  requestSum requestedAmount (onlyCycle cycle) (requestsTo ctxt delegate contract)

def heldFor (cycle : Nat) : Nat :=
  total .current (readWith (currentUnslashableCycle ctxt) cycle) (ctxt.unstakedFrozenDeposits delegate)

end

/-- `promised` is what has been put in the deposits for requests that are not yet recorded. -/
structure Solvent (forNextCycle : Bool) (ctxt : Context Pkh) (promised : Pkh → Nat → Nat) :
    Prop where
  settled : ∀ delegate cycle, isFinalizable forNextCycle ctxt cycle = true →
    ∀ contracts : Finset Pkh, ∑ contract ∈ contracts,
          owed ctxt delegate (readWith (currentUnslashableCycle ctxt) cycle) contract ≤
        heldFor ctxt delegate cycle
  claims : ∀ delegate cycle, isFinalizable forNextCycle ctxt cycle = false →
    ∀ contracts : Finset Pkh,
      ∑ contract ∈ contracts, claimed ctxt delegate cycle contract + promised delegate cycle ≤
        total .initial (onlyCycle cycle) (ctxt.unstakedFrozenDeposits delegate)
  covers : ∀ delegate cycle, isFinalizable forNextCycle ctxt cycle = false →
    Covers Percentage.oneHundredPercent
      (total .initial (onlyCycle cycle) (ctxt.unstakedFrozenDeposits delegate))
      (total .current (onlyCycle cycle) (ctxt.unstakedFrozenDeposits delegate)) (rateFor ctxt delegate cycle)

def noPromise : Pkh → Nat → Nat := fun _ _ => 0

theorem Solvent.solvent {ctxt : Context Pkh} {forNextCycle : Bool} {promised}
    (solvent : Solvent forNextCycle ctxt promised) (delegate : Pkh) (cycle : Nat) (contracts : Finset Pkh) :
    ∑ contract ∈ contracts,
        owed ctxt delegate (readWith (currentUnslashableCycle ctxt) cycle) contract ≤
      heldFor ctxt delegate cycle := by
  cases closed : isFinalizable forNextCycle ctxt cycle with
  | true => exact solvent.settled delegate cycle closed contracts
  | false =>
    rw [heldFor, readWith_of_open closed]
    refine Covers.claims (by decide) (solvent.covers delegate cycle closed) contracts
      (claimed ctxt delegate cycle) _ ?_ ?_
    · intro contract _
      unfold owed claimed
      induction requestsTo ctxt delegate contract with
      | nil => simp
      | cons request requests ih =>
        rw [requestSum_cons, requestSum_cons, Nat.mul_add, Nat.add_mul]
        refine Nat.add_le_add ?_ ih
        by_cases same : request.1 = cycle
        · subst same
          simp only [onlyCycle, decide_true, if_true]
          exact applySlashes_le _ _ _ _
        · simp [onlyCycle, same]
    · have bound := solvent.claims delegate cycle closed contracts
      omega

variable {Pkh : Type}

structure SameHistories (before after : Context Pkh) : Prop where
  constants : after.constants = before.constants
  cycle : after.cycle = before.cycle
  slashedDeposits : after.slashedDeposits = before.slashedDeposits
  slashedDepositsOxford : after.slashedDepositsOxford = before.slashedDepositsOxford

theorem SameRecords.histories {ctxt after : Context Pkh} (same : SameRecords ctxt after) :
    SameHistories ctxt after :=
  ⟨same.constants, same.cycle, same.slashedDeposits, same.slashedDepositsOxford⟩

namespace SameHistories
variable {ctxt after : Context Pkh} {forNextCycle : Bool}

theorem trans {final : Context Pkh} (earlier : SameHistories ctxt after)
    (later : SameHistories after final) : SameHistories ctxt final :=
  ⟨later.constants.trans earlier.constants, later.cycle.trans earlier.cycle,
    later.slashedDeposits.trans earlier.slashedDeposits,
    later.slashedDepositsOxford.trans earlier.slashedDepositsOxford⟩

section
variable (same : SameHistories ctxt after)
include same

theorem unslashable : currentUnslashableCycle after = currentUnslashableCycle ctxt := by
  simp only [currentUnslashableCycle, same.cycle, same.constants]

theorem cycleOf : UnstakeRequests.cycleOf forNextCycle after = UnstakeRequests.cycleOf forNextCycle ctxt := by
  simp only [UnstakeRequests.cycleOf, same.cycle]

theorem isFinalizable (cycle : Nat) :
    isFinalizable forNextCycle after cycle = isFinalizable forNextCycle ctxt cycle := by
  simp only [Staking.isFinalizable, same.cycleOf, same.constants]

theorem history (delegate : Pkh) :
    slashingHistory after delegate =
      slashingHistory ctxt delegate := by
  simp only [slashingHistory, same.slashedDeposits, same.slashedDepositsOxford]

theorem leftOf (delegate : Pkh) : leftOf after delegate = leftOf ctxt delegate := by
  funext request
  simp only [Staking.leftOf, same.history, same.constants]

theorem rateFor (delegate : Pkh) (cycle : Nat) :
    rateFor after delegate cycle = rateFor ctxt delegate cycle := by
  simp only [Staking.rateFor, same.history, same.constants]

end

end SameHistories

variable [DecidableEq Pkh]

/-- The requests of one contract to one delegate are exchanged against deposits of the delegate. -/
structure Exchange (before after : Context Pkh) (contract delegate : Pkh)
    (gone : Amount → (Nat → Bool) → Nat) : Prop where
  histories : SameHistories before after
  others : ∀ delegate' contract', contract' ≠ contract ∨ delegate' ≠ delegate →
    requestsTo after delegate' contract' = requestsTo before delegate' contract'
  totals : ∀ amount other included, Saturated (currentUnslashableCycle before) included →
    total amount included (before.unstakedFrozenDeposits other) =
      total amount included (after.unstakedFrozenDeposits other) +
        if other = delegate then gone amount included else 0

section Exchange
variable {ctxt after : Context Pkh} {forNextCycle : Bool} {promised : Pkh → Nat → Nat}
variable {contract delegate : Pkh} {gone : Amount → (Nat → Bool) → Nat}

theorem sum_after_exchange (contracts : Finset Pkh) {other : Pkh} {f g : Pkh → Nat}
    {bound extra change : Nat}
    (kept : ∀ contract', contract' ≠ contract ∨ other ≠ delegate → g contract' = f contract')
    (given : other = delegate → g contract + change ≤ f contract)
    (before : ∑ contract' ∈ insert contract contracts, f contract' + extra ≤
      bound + if other = delegate then change else 0) :
    ∑ contract' ∈ contracts, g contract' + extra ≤ bound := by
  have sum : ∑ contract' ∈ contracts, g contract' + (if other = delegate then change else 0) ≤
      ∑ contract' ∈ insert contract contracts, f contract' + 0 := by
    apply sum_add_le contracts fun contract' differs => kept contract' (.inl differs)
    split
    · exact given ‹_›
    · exact (kept contract (.inr ‹_›)).le
  omega

theorem Exchange.solvent (exchange : Exchange ctxt after contract delegate gone)
    (solvent : Solvent forNextCycle ctxt promised)
    (settled : ∀ cycle, isFinalizable forNextCycle ctxt cycle = true →
      owed after delegate (readWith (currentUnslashableCycle ctxt) cycle) contract +
          gone .current (readWith (currentUnslashableCycle ctxt) cycle) ≤
        owed ctxt delegate (readWith (currentUnslashableCycle ctxt) cycle) contract)
    (claims : ∀ cycle, isFinalizable forNextCycle ctxt cycle = false →
      claimed after delegate cycle contract + gone .initial (onlyCycle cycle) ≤
        claimed ctxt delegate cycle contract)
    (even : ∀ cycle, isFinalizable forNextCycle ctxt cycle = false →
      gone .current (onlyCycle cycle) = gone .initial (onlyCycle cycle) ∧
        (gone .initial (onlyCycle cycle) ≠ 0 → rateFor ctxt delegate cycle = 0)) :
    Solvent forNextCycle after promised := by
  have same := exchange.histories
  refine ⟨?_, ?_, ?_⟩
  · intro other cycle closed contracts
    rw [same.isFinalizable] at closed
    have before := solvent.settled other cycle closed (insert contract contracts)
    rw [heldFor, exchange.totals .current other _
      (saturated_readWith (currentUnslashableCycle ctxt) cycle)] at before
    rw [heldFor, same.unslashable]
    change _ + 0 ≤ _ at before ⊢
    refine sum_after_exchange contracts ?_ ?_ before
    · intro contract' different
      rw [owed, owed, exchange.others other contract' different, same.leftOf]
    · rintro rfl
      exact settled cycle closed
  · intro other cycle stillOpen contracts
    rw [same.isFinalizable] at stillOpen
    have before := solvent.claims other cycle stillOpen (insert contract contracts)
    rw [exchange.totals .initial other _ (saturated_onlyCycle stillOpen)] at before
    refine sum_after_exchange contracts ?_ ?_ before
    · intro contract' different
      rw [claimed, claimed, exchange.others other contract' different]
    · rintro rfl
      exact claims cycle stillOpen
  · intro other cycle stillOpen
    rw [same.isFinalizable] at stillOpen
    have before := solvent.covers other cycle stillOpen
    rw [exchange.totals .initial other _ (saturated_onlyCycle stillOpen),
      exchange.totals .current other _ (saturated_onlyCycle stillOpen)] at before
    rw [same.rateFor]
    by_cases own : other = delegate
    · subst own
      obtain ⟨equal, unslashed⟩ := even cycle stillOpen
      rw [if_pos rfl, if_pos rfl, equal] at before
      by_cases none : gone .initial (onlyCycle cycle) = 0
      · rw [none] at before
        exact before
      · rw [unslashed none] at before ⊢
        exact before.withdraw
    · rw [if_neg own, if_neg own] at before
      exact before

end Exchange

structure Backed (forNextCycle : Bool) (ctxt : Context Pkh) (promised : Pkh → Nat → Nat) :
    Prop where
  accounts : Accounts ctxt
  solvent : Solvent forNextCycle ctxt promised
  histories : ∀ delegate, Sorted (ctxt.slashedDeposits delegate) ∧
    Sorted (ctxt.slashedDepositsOxford delegate)

section Operations
variable {ctxt after : Context Pkh} {forNextCycle : Bool} {promised : Pkh → Nat → Nat}
  {delegate contract : Pkh} {cycle : Nat} {amount : Tez}

theorem Solvent.congr (solvent : Solvent forNextCycle ctxt promised)
    (same : SameHistories ctxt after) (requests : after.unstakeRequests = ctxt.unstakeRequests)
    (totals : ∀ amount delegate included, Saturated (currentUnslashableCycle ctxt) included →
      total amount included (after.unstakedFrozenDeposits delegate) =
        total amount included (ctxt.unstakedFrozenDeposits delegate)) :
    Solvent forNextCycle after promised := by
  have kept : requestsTo after = requestsTo ctxt := by
    funext delegate contract
    simp only [requestsTo, requests]
  refine ⟨?_, ?_, ?_⟩
  · intro delegate cycle closed contracts
    rw [same.isFinalizable] at closed
    simp only [heldFor, owed, kept, same.leftOf, same.unslashable, totals _ _ _ (saturated_readWith _ _)]
    exact solvent.settled delegate cycle closed contracts
  · intro delegate cycle stillOpen contracts
    rw [same.isFinalizable] at stillOpen
    simp only [claimed, kept, totals _ _ _ (saturated_onlyCycle stillOpen)]
    exact solvent.claims delegate cycle stillOpen contracts
  · intro delegate cycle stillOpen
    rw [same.isFinalizable] at stillOpen
    rw [same.rateFor, totals _ _ _ (saturated_onlyCycle stillOpen),
      totals _ _ _ (saturated_onlyCycle stillOpen)]
    exact solvent.covers delegate cycle stillOpen

theorem SameHistories.sorted (same : SameHistories ctxt after)
    (backed : Backed forNextCycle ctxt promised) (delegate : Pkh) :
    Sorted (after.slashedDeposits delegate) ∧ Sorted (after.slashedDepositsOxford delegate) := by
  rw [same.slashedDeposits, same.slashedDepositsOxford]
  exact backed.histories delegate

theorem Backed.untouched (backed : Backed forNextCycle ctxt promised)
    (deposited : Deposited ctxt after nothing) : Backed forNextCycle after promised :=
  ⟨deposited.accounts,
    backed.solvent.congr deposited.same.histories deposited.same.unstakeRequests deposited.added,
    deposited.same.histories.sorted backed⟩

theorem Backed.transferred (backed : Backed forNextCycle ctxt promised)
    (withdrawn : Withdrawn ctxt after nothing) : Backed forNextCycle after promised := by
  refine backed.untouched ⟨withdrawn.same, withdrawn.accounts, ?_⟩
  intro amount delegate included saturated
  cases amount with
  | initial => exact withdrawn.initial delegate included saturated
  | current => exact (withdrawn.current delegate included saturated).symm

def promise (promised : Pkh → Nat → Nat) (delegate : Pkh) (cycle : Nat) (amount : Tez) :
    Pkh → Nat → Nat :=
  fun delegate' cycle' =>
    promised delegate' cycle' + if delegate' = delegate ∧ cycle' = cycle then amount.mutez else 0

theorem Backed.deposited (backed : Backed forNextCycle ctxt promised)
    (deposited : Deposited ctxt after (tezOfCycle delegate cycle amount)) :
    Backed forNextCycle after (promise promised delegate cycle amount) := by
  have same := deposited.same.histories
  have kept : requestsTo after = requestsTo ctxt := by
    funext delegate contract
    simp only [requestsTo, deposited.same.unstakeRequests]
  have here : ∀ delegate' cycle',
      tezOfCycle delegate cycle amount delegate' (onlyCycle cycle') =
        if delegate' = delegate ∧ cycle' = cycle then amount.mutez else 0 := by
    intro delegate' cycle'
    simp only [tezOfCycle, onlyCycle, decide_eq_true_eq, @eq_comm _ cycle]
  refine ⟨deposited.accounts, ⟨?_, ?_, ?_⟩, same.sorted backed⟩
  · intro delegate' cycle' closed contracts
    rw [same.isFinalizable] at closed
    have before := backed.solvent.settled delegate' cycle' closed contracts
    simp only [heldFor, owed, kept, same.leftOf, same.unslashable,
      deposited.added _ _ _ (saturated_readWith _ _)] at before ⊢
    omega
  · intro delegate' cycle' stillOpen contracts
    rw [same.isFinalizable] at stillOpen
    have before := backed.solvent.claims delegate' cycle' stillOpen contracts
    simp only [claimed, kept, deposited.added _ _ _ (saturated_onlyCycle stillOpen), here,
      promise] at before ⊢
    omega
  · intro delegate' cycle' stillOpen
    rw [same.isFinalizable] at stillOpen
    rw [same.rateFor, deposited.added _ _ _ (saturated_onlyCycle stillOpen),
      deposited.added _ _ _ (saturated_onlyCycle stillOpen)]
    exact (backed.solvent.covers delegate' cycle' stillOpen).deposit _

theorem requestsTo_add {stored}
    (written : after.unstakeRequests = ctxt.unstakeRequests.add contract stored) (delegate' contract' : Pkh) :
    requestsTo after delegate' contract' =
      if contract' = contract then
        if stored.delegate = delegate' then stored.requests else []
      else requestsTo ctxt delegate' contract' := by
  simp only [requestsTo, written, Map.add_apply]
  by_cases same : contract' = contract <;> simp [same]

theorem requestSum_recorded {value} {included : Nat → Bool}
    (additive : ∀ old sum : Tez, old.add amount = .ok sum → included cycle = true →
      value (cycle, sum) = value (cycle, old) + value (cycle, amount))
    (h : add ctxt contract delegate cycle amount = .ok after) (delegate' contract' : Pkh) :
    requestSum value included (requestsTo after delegate' contract') =
      requestSum value included (requestsTo ctxt delegate' contract') +
        if contract' = contract ∧ delegate' = delegate ∧ included cycle then value (cycle, amount)
        else 0 := by
  obtain ⟨requests, recorded, h⟩ := bind_eq_ok.1 h
  obtain ⟨extended, extending, h⟩ := bind_eq_ok.1 h
  cases h
  rw [requestsTo_add rfl]
  by_cases here : contract' = contract
  · subst here
    have sum := requestSum_add additive (liftTez_eq_ok.1 extending)
    have old : requestsTo ctxt delegate' contract' =
        if delegate = delegate' then requests else [] := by
      unfold UnstakeRequests.recorded at recorded
      split at recorded
      · rename_i absent
        cases recorded
        simp [requestsTo, absent]
      · rename_i stored present
        obtain ⟨own, recorded⟩ := unit_bind_eq_ok.1 recorded
        cases recorded
        have own : delegate = stored.delegate := of_decide_eq_true (assert_eq_ok.1 own)
        simp [requestsTo, present, own]
    rw [old]
    by_cases own : delegate = delegate'
    · simp [own, sum]
    · simp [own, Ne.symm own]
  · simp [here]

theorem Backed.recorded (backed : Backed forNextCycle ctxt (promise promised delegate cycle amount))
    (stillOpen : isFinalizable forNextCycle ctxt cycle = false)
    (h : add ctxt contract delegate cycle amount = .ok after) :
    Backed forNextCycle after promised := by
  have same : SameHistories ctxt after := by
    obtain ⟨_, -, h⟩ := bind_eq_ok.1 h
    obtain ⟨_, -, h⟩ := bind_eq_ok.1 h
    cases h
    exact ⟨rfl, rfl, rfl, rfl⟩
  have deposits : after.unstakedFrozenDeposits = ctxt.unstakedFrozenDeposits ∧ Accounts after := by
    obtain ⟨_, -, h⟩ := bind_eq_ok.1 h
    obtain ⟨_, -, h⟩ := bind_eq_ok.1 h
    cases h
    exact ⟨rfl, backed.accounts.written _⟩
  refine ⟨deposits.2, ⟨?_, ?_, ?_⟩, same.sorted backed⟩
  · intro delegate' cycle' closed contracts
    rw [same.isFinalizable] at closed
    have outside := not_readWith closed stillOpen
    have kept : ∀ contract',
        owed after delegate' (readWith (currentUnslashableCycle ctxt) cycle') contract' =
          owed ctxt delegate' (readWith (currentUnslashableCycle ctxt) cycle') contract' := by
      intro contract'
      rw [owed, owed, same.leftOf, requestSum_recorded (by simp [outside]) h]
      simp [outside]
    simp only [heldFor, same.unslashable, kept, deposits.1]
    exact backed.solvent.settled delegate' cycle' closed contracts
  · intro delegate' cycle' stillOpen' contracts
    rw [same.isFinalizable] at stillOpen'
    have before := backed.solvent.claims delegate' cycle' stillOpen' (insert contract contracts)
    have sums : ∀ contract', claimed after delegate' cycle' contract' =
        claimed ctxt delegate' cycle' contract' + _ :=
      requestSum_recorded (fun _ _ added _ => add_eq_ok added) h delegate'
    have bound : ∑ contract' ∈ contracts, claimed after delegate' cycle' contract' + 0 ≤
        ∑ contract' ∈ insert contract contracts, claimed ctxt delegate' cycle' contract' +
          if delegate' = delegate ∧ cycle' = cycle then amount.mutez else 0 := by
      apply sum_add_le contracts
      · intro other differs
        rw [sums, if_neg (fun both => differs both.1), Nat.add_zero]
      · rw [sums]
        simp [onlyCycle, @eq_comm _ cycle, requestedAmount]
    simp only [promise, deposits.1] at before ⊢
    omega
  · intro delegate' cycle' stillOpen'
    rw [same.isFinalizable] at stillOpen'
    rw [same.rateFor, deposits.1]
    exact backed.solvent.covers delegate' cycle' stillOpen'

end Operations

end Octez.Proof.Staking
