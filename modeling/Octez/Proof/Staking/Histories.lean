import Octez.Proof.Staking.SolventRuns

/-! # The histories kept for each delegate: unstaked deposits and slashes -/

namespace Octez.Proof.Staking
open Octez.Lib Octez.Staking Octez.Slashing Percentage SortedAssoc UnstakeRequests

section Deposits

def NoEarlier (old new : Option Nat) : Prop :=
  ∀ cycle, old = some cycle → ∃ cycle', new = some cycle' ∧ cycle ≤ cycle'

/-- Unstaked deposits updated at any cycle, and squashed with unslashable cycles that do not go back. -/
inductive DepositsRun : Squashed → Prop where
  | empty (unslashableCycle : Option Nat) : DepositsRun ⟨unslashableCycle, []⟩
  | update {squashed updated f cycle} : DepositsRun squashed → squashed.update f cycle = .ok updated →
      DepositsRun updated
  | squash {squashed squashed' unslashableCycle} : DepositsRun squashed →
      NoEarlier squashed.unslashableCycle unslashableCycle →
      squashUnslashable unslashableCycle squashed.deposits = .ok squashed' → DepositsRun squashed'

variable {squashed updated : Squashed}

theorem DepositsRun.sorted (run : DepositsRun squashed) : Sorted squashed.deposits := by
  induction run with
  | empty => exact List.Pairwise.nil
  | update _ written ih =>
    obtain ⟨new, -, rfl⟩ := update_eq_insert ih written
    exact ih.insert
  | squash _ _ done ih => exact (squashUnslashable_spec ih done).2.1

theorem checkWellFormed_of_sorted {entries : List (Nat × Deposits)} (sorted : Sorted entries) :
    checkWellFormed entries = .ok () := by
  induction entries with
  | nil => rfl
  | cons entry rest ih =>
    cases rest with
    | nil => rfl
    | cons next rest =>
      rw [checkWellFormed, if_neg (Nat.not_le.2 (sorted.head_lt List.mem_cons_self))]
      exact ih sorted.tail

theorem deposits_ext {first second : Deposits} (same : ∀ amount : Amount, amount.of first = amount.of second) :
    first = second := by
  obtain ⟨⟨initial, _⟩, ⟨current, _⟩⟩ := first
  obtain ⟨⟨initial', _⟩, ⟨current', _⟩⟩ := second
  cases (same .initial : initial = initial')
  cases (same .current : current = current')
  rfl

/-- The list of unstaked deposits is a map from cycles to deposits in which the unslashable cycles are one. -/
theorem unstaked_deposits_map (run : DepositsRun squashed) :
    (Sorted squashed.deposits ∧ checkWellFormed squashed.deposits = .ok ()) ∧
    (∀ f cycle updated, squashed.update f cycle = .ok updated →
      ∃ new, f (squashed.get cycle) = .ok new ∧ ∀ other, updated.get other =
        if normalizeCycle other squashed.unslashableCycle = normalizeCycle cycle squashed.unslashableCycle
        then new else squashed.get other) ∧
    ∀ unslashableCycle squashed', NoEarlier squashed.unslashableCycle unslashableCycle →
      squashUnslashable unslashableCycle squashed.deposits = .ok squashed' →
      (∀ cycle, (∀ unslashable, unslashableCycle = some unslashable → unslashable < cycle) →
        squashed'.get cycle = squashed.get cycle) ∧
      ∀ unslashable amount, unslashableCycle = some unslashable → amount.of (squashed'.get unslashable) =
        total amount (fun cycle => cycle ≤ unslashable) squashed.deposits := by
  have sorted := run.sorted
  refine ⟨⟨sorted, checkWellFormed_of_sorted sorted⟩, ?_, ?_⟩
  · intro f cycle updated written
    obtain ⟨new, computed, rfl⟩ := update_eq_insert sorted written
    refine ⟨new, computed, fun other => ?_⟩
    simp only [Squashed.get, lookup_insert sorted]
    split <;> rfl
  · intro unslashableCycle squashed' later done
    constructor
    · intro cycle slashable
      have itself {unslashableCycle : Option Nat}
          (earlier : ∀ unslashable, unslashableCycle = some unslashable → unslashable < cycle) :
          normalizeCycle cycle unslashableCycle = cycle := by
        cases unslashableCycle with
        | none => rfl
        | some unslashable => exact max_eq_left (earlier unslashable rfl).le
      have itself_before : normalizeCycle cycle squashed.unslashableCycle = cycle := itself fun oldest same => by
        obtain ⟨unslashable, same', le⟩ := later oldest same
        exact le.trans_lt (slashable unslashable same')
      apply deposits_ext
      intro amount
      rw [get_spec amount sorted done, Squashed.get, itself_before, ← total_single amount sorted]
      congr 1
      funext other
      rw [Bool.eq_iff_iff, readWith_iff, itself slashable, decide_eq_true_iff]
      cases unslashableCycle with
      | none => rfl
      | some unslashable =>
        have := slashable unslashable rfl
        rw [normalizeCycle]
        omega
    · rintro unslashable amount rfl
      rw [get_spec amount sorted done]
      congr 1
      funext other
      rw [Bool.eq_iff_iff, readWith_iff, decide_eq_true_iff, normalizeCycle, normalizeCycle]
      omega

def depositOf (mutez : Nat) : Deposits := ⟨tez mutez, tez mutez⟩

/-- Deposits of three cycles, the last one after the unslashable cycle. -/
theorem deposits_squashed_to_sum : ∃ squashed',
    squashUnslashable (some 3) [(1, depositOf 10), (2, depositOf 20), (5, depositOf 40)] = .ok squashed' ∧
      squashed'.get 5 = depositOf 40 ∧ Amount.current.of (squashed'.get 3) = 30 := by
  have add (cycle mutez : Nat) {before after : List (Nat × Deposits)} (run : DepositsRun ⟨none, before⟩)
      (written : Squashed.update (fun _ => .ok (depositOf mutez)) cycle ⟨none, before⟩ = .ok ⟨none, after⟩) :
      DepositsRun ⟨none, after⟩ := run.update written
  have run : DepositsRun ⟨none, [(1, depositOf 10), (2, depositOf 20), (5, depositOf 40)]⟩ :=
    add 2 20 (add 5 40 (add 1 10 (.empty none) rfl) rfl) rfl
  obtain ⟨squashed', done⟩ := exists_of_isOk (show (squashUnslashable (some 3)
    [(1, depositOf 10), (2, depositOf 20), (5, depositOf 40)]).isOk = true by decide +kernel)
  obtain ⟨kept, summed⟩ := (unstaked_deposits_map run).2.2 (some 3) squashed' nofun done
  refine ⟨squashed', done, ?_, ?_⟩
  · exact (kept 5 (by simp)).trans rfl
  · exact (summed 3 .current rfl).trans rfl

end Deposits

section Slashes
variable {Pkh : Type} [DecidableEq Pkh]

/-- Slashes recorded in any order of their cycles, each with the percentage that takes effect, from
a context without slashes. -/
inductive SlashRun : List (Slash Pkh × Percentage) → Context Pkh → Prop where
  | start {ctxt} : ctxt.slashedDeposits = (fun _ => []) → ctxt.slashedDepositsOxford = (fun _ => []) →
      SlashRun [] ctxt
  | slash {log ctxt} (slash : Slash Pkh) : SlashRun log ctxt →
      SlashRun ((slash, (recordSlash ctxt slash).2) :: log) (recordSlash ctxt slash).1
  | other {log ctxt after} : SlashRun log ctxt → after.slashedDeposits = ctxt.slashedDeposits →
      after.slashedDepositsOxford = ctxt.slashedDepositsOxford → SlashRun log after

variable {log : List (Slash Pkh × Percentage)} {ctxt : Context Pkh}

def slashedFor (points : Slash Pkh × Percentage → Nat) (delegate : Pkh) (cycle : Nat)
    (log : List (Slash Pkh × Percentage)) : Nat :=
  (log.map fun entry =>
    if entry.1.delegate = delegate ∧ entry.1.misbehaviourCycle = cycle then points entry else 0).sum

omit [DecidableEq Pkh] in
theorem slashingHistory_of_sorted {delegate : Pkh} (none : ctxt.slashedDepositsOxford delegate = [])
    (sorted : Sorted (ctxt.slashedDeposits delegate)) :
    slashingHistory ctxt delegate = ctxt.slashedDeposits delegate := by
  rw [slashingHistory, none]
  exact foldl_add_append sorted

/-- The total for a cycle is capped, and is the sum of the percentages that took effect. -/
theorem slashing_history_exact (run : SlashRun log ctxt) (delegate : Pkh) :
    Sorted (ctxt.slashedDeposits delegate) ∧ ctxt.slashedDepositsOxford delegate = [] ∧
      ∀ cycle, (SlashedDepositsHistory.get cycle (ctxt.slashedDeposits delegate)).points =
          min oneHundredPercent (slashedFor (·.1.slashingPercentage.points) delegate cycle log) ∧
        slashedFor (·.2.points) delegate cycle log =
          min oneHundredPercent (slashedFor (·.1.slashingPercentage.points) delegate cycle log) := by
  induction run with
  | start none none' =>
    rw [none, none']
    exact ⟨.nil, rfl, fun cycle => ⟨rfl, rfl⟩⟩
  | other _ same same' ih => rwa [same, same']
  | @slash log ctxt slash _ ih =>
    obtain ⟨sorted, none, totals⟩ := ih
    by_cases own : slash.delegate = delegate
    · subst own
      have history := slashingHistory_of_sorted none sorted
      have recorded : (recordSlash ctxt slash).1.slashedDeposits slash.delegate =
          SlashedDepositsHistory.add slash.misbehaviourCycle slash.slashingPercentage
            (ctxt.slashedDeposits slash.delegate) := by
        simp only [recordSlash, history, Function.update_self]
      refine ⟨recorded ▸ history_add_sorted sorted _ _, Function.update_self _ _ _, fun cycle => ?_⟩
      obtain ⟨total, effective⟩ := totals cycle
      rw [recorded, history_get_eq (history_add_sorted sorted _ _), history_add_eq sorted, lookup_insert sorted]
      by_cases same : slash.misbehaviourCycle = cycle
      · subst same
        have effect : (recordSlash ctxt slash).2.points = min oneHundredPercent
            ((SlashedDepositsHistory.get slash.misbehaviourCycle (ctxt.slashedDeposits slash.delegate)).points +
              slash.slashingPercentage.points) - (SlashedDepositsHistory.get slash.misbehaviourCycle
                (ctxt.slashedDeposits slash.delegate)).points := by
          simp only [recordSlash, history, history_get_add sorted]
          rfl
        simp only [slashedFor, List.map_cons, List.sum_cons, and_self, if_true, Option.getD_some, addBounded,
          effect] at total effective ⊢
        omega
      · rw [if_neg (Ne.symm same), ← history_get_eq sorted]
        simpa [slashedFor, same] using totals cycle
    · have elsewhere : delegate ≠ slash.delegate := Ne.symm own
      simp only [recordSlash, Function.update_of_ne elsewhere]
      refine ⟨sorted, none, fun cycle => ?_⟩
      simpa [slashedFor, own] using totals cycle

theorem overlapping_slashes_capped :
    let slash := fun points fits => Slash.mk 0 1 3 ⟨points, fits⟩ (tez 0)
    let once := (recordSlash twoDelegates (slash 6000 (by decide))).1
    (recordSlash twoDelegates (slash 6000 (by decide))).2.points +
      (recordSlash once (slash 5000 (by decide))).2.points = oneHundredPercent := by
  intro slash once
  have run : SlashRun _ (recordSlash once (slash 5000 (by decide))).1 :=
    ((SlashRun.start rfl rfl).slash (slash 6000 (by decide))).slash (slash 5000 (by decide))
  have exact := ((slashing_history_exact run 0).2.2 3).2
  simp only [slashedFor, slash, List.map_cons, List.map_nil, List.sum_cons, List.sum_nil] at exact
  simpa [Nat.add_comm, oneHundredPercent] using exact

end Slashes

end Octez.Proof.Staking
