import Octez.Model.Staking.Context
import Octez.Proof.Slashing.Shares

namespace Octez.Proof.Staking
open Octez.Lib Octez.Staking Octez.Slashing Octez.Proof.Slashing SortedAssoc

theorem add_eq_ok {tez1 tez2 sum : Tez} (added : tez1.add tez2 = .ok sum) :
    sum.mutez = tez1.mutez + tez2.mutez := by
  have first := tez1.le_max
  have second := tez2.le_max
  unfold maxMutez at first second
  by_cases fits : tez1.mutez + tez2.mutez ≤ maxMutez
  · obtain ⟨sum', added', sum_eq⟩ := add_of_fits tez1 tez2 fits
    rw [added'] at added
    cases added
    exact sum_eq
  · -- The sum of two amounts wraps around to a negative number.
    have wrapped : wrap64 (tez1.mutez + tez2.mutez) < tez1.mutez := by
      unfold maxMutez at fits
      unfold wrap64
      rw [Int.bmod_def]
      split <;> omega
    simp only [Tez.add] at added
    rw [if_pos wrapped] at added
    cases added

theorem tez_add_not_raised (tez1 tez2 : Tez) (exn : Exn) :
    tez1.add tez2 ≠ .error (.raised exn) := by
  unfold Tez.add
  dsimp only
  split <;> simp [tzfail]

theorem sub_eq_ok {tez1 tez2 rest : Tez} (subtracted : tez1.sub tez2 = .ok rest) :
    tez1.mutez = rest.mutez + tez2.mutez := by
  unfold Tez.sub at subtracted
  split at subtracted
  · cases subtracted
    simp only
    omega
  · cases subtracted

inductive Amount where
  | initial
  | current

def Amount.of (amount : Amount) (deposits : Deposits) : Nat :=
  match amount with
  | .initial => deposits.initialAmount.mutez
  | .current => deposits.currentAmount.mutez

def weight (amount : Amount) (included : Nat → Bool) (cycle : Nat) (deposits : Deposits) : Nat :=
  if included cycle then amount.of deposits else 0

def total (amount : Amount) (included : Nat → Bool) (entries : List (Nat × Deposits)) : Nat :=
  (entries.map fun entry => weight amount included entry.1 entry.2).sum

/-- A set of cycles that does not separate the cycles squashed together. -/
def Saturated (unslashableCycle : Option Nat) (included : Nat → Bool) : Prop :=
  ∀ cycle, included (normalizeCycle cycle unslashableCycle) = included cycle

variable {entries : List (Nat × Deposits)} {included : Nat → Bool} {unslashable : Nat} {first : Deposits}

section Totals
variable {amount : Amount} {included : Nat → Bool}

@[simp] theorem total_nil : total amount included [] = 0 := rfl

@[simp] theorem total_cons (entry : Nat × Deposits) (entries : List (Nat × Deposits)) :
    total amount included (entry :: entries) =
      weight amount included entry.1 entry.2 + total amount included entries := rfl

theorem amount_zero (amount : Amount) : amount.of Deposits.zero = 0 := by
  cases amount <;> rfl

theorem amount_add {first second sum : Deposits} (added : first.add second = .ok sum) :
    amount.of sum = amount.of first + amount.of second := by
  obtain ⟨initialAmount, initial_add, added⟩ := bind_eq_ok.1 added
  obtain ⟨currentAmount, current_add, added⟩ := bind_eq_ok.1 added
  cases added
  cases amount with
  | initial => exact add_eq_ok initial_add
  | current => exact add_eq_ok current_add

theorem total_eq_zero
    (excluded : ∀ entry ∈ entries, included entry.1 = false) : total amount included entries = 0 := by
  induction entries with
  | nil => rfl
  | cons entry rest ih =>
    rw [total_cons, ih fun later member => excluded later (List.mem_cons_of_mem _ member), weight,
      excluded entry List.mem_cons_self]
    rfl

theorem total_mono {included' : Nat → Bool} (entries : List (Nat × Deposits))
    (subset : ∀ cycle, included cycle = true → included' cycle = true) :
    total amount included entries ≤ total amount included' entries := by
  induction entries with
  | nil => exact le_rfl
  | cons entry rest ih =>
    rw [total_cons, total_cons]
    refine Nat.add_le_add ?_ ih
    unfold weight
    split
    · rw [subset _ ‹_›]
      exact le_rfl
    · exact Nat.zero_le _

end Totals

theorem squashInto_total (amount : Amount)
    {entries squashed} (saturated : Saturated (some unslashable) included)
    (h : squashInto unslashable first entries = .ok squashed) :
    total amount included squashed =
      weight amount included unslashable first + total amount included entries := by
  induction entries generalizing first with
  | nil =>
    cases h
    rfl
  | cons entry rest ih =>
    obtain ⟨cycle, deposits⟩ := entry
    rw [squashInto] at h
    split at h
    · rename_i old
      obtain ⟨merged, added, h⟩ := bind_eq_ok.1 h
      have same : included cycle = included unslashable := by
        rw [← saturated cycle, normalizeCycle, max_eq_right old]
      simp only [ih h, total_cons, weight, amount_add added, same]
      split <;> omega
    · cases h
      rfl

theorem squashInto_sorted {entries squashed} (sorted : Sorted entries)
    (h : squashInto unslashable first entries = .ok squashed) :
    Sorted squashed ∧ ∀ entry ∈ squashed, unslashable ≤ entry.1 := by
  induction entries generalizing first with
  | nil =>
    cases h
    exact ⟨List.pairwise_singleton _ _, by simp⟩
  | cons entry rest ih =>
    rw [squashInto] at h
    split at h
    · obtain ⟨merged, -, h⟩ := bind_eq_ok.1 h
      exact ih sorted.tail h
    · rename_i recent
      cases h
      constructor
      · apply List.pairwise_cons.2 ⟨?_, sorted⟩
        intro later member
        rcases List.mem_cons.1 member with rfl | member
        · exact Nat.lt_of_not_le recent
        · exact Nat.lt_trans (Nat.lt_of_not_le recent) (sorted.head_lt member)
      · intro later member
        rcases List.mem_cons.1 member with rfl | member
        · exact le_rfl
        · rcases List.mem_cons.1 member with rfl | member
          · exact (Nat.lt_of_not_le recent).le
          · exact Nat.le_of_lt (Nat.lt_trans (Nat.lt_of_not_le recent) (sorted.head_lt member))

variable {squashed : Squashed} {unslashableCycle : Option Nat}

theorem squashUnslashable_total (h : squashUnslashable unslashableCycle entries = .ok squashed) :
    squashed.unslashableCycle = unslashableCycle ∧ ∀ amount included, Saturated unslashableCycle included →
        total amount included squashed.deposits = total amount included entries := by
  cases unslashableCycle with
  | none =>
    cases h
    exact ⟨rfl, fun _ _ _ => rfl⟩
  | some unslashable =>
    cases entries with
    | nil =>
      cases h
      exact ⟨rfl, fun _ _ _ => rfl⟩
    | cons entry rest =>
      obtain ⟨cycle, first⟩ := entry
      rw [squashUnslashable] at h
      split at h
      · rename_i old
        obtain ⟨deposits, looped, h⟩ := bind_eq_ok.1 h
        cases h
        apply And.intro rfl
        intro amount included saturated
        have same : included cycle = included unslashable := by
          rw [← saturated cycle, normalizeCycle, max_eq_right old]
        simp only [squashInto_total amount saturated looped, total_cons, weight, same]
      · cases h
        exact ⟨rfl, fun _ _ _ => rfl⟩

theorem squashUnslashable_spec (sorted : Sorted entries)
    (h : squashUnslashable unslashableCycle entries = .ok squashed) :
    squashed.unslashableCycle = unslashableCycle ∧ Sorted squashed.deposits ∧
      (∀ entry ∈ squashed.deposits, normalizeCycle entry.1 unslashableCycle = entry.1) ∧
      ∀ amount included, Saturated unslashableCycle included →
        total amount included squashed.deposits = total amount included entries := by
  obtain ⟨unslashable_eq, sums⟩ := squashUnslashable_total h
  apply And.intro unslashable_eq
  rw [← and_assoc]
  refine ⟨?_, sums⟩
  cases unslashableCycle with
  | none =>
    cases h
    exact ⟨sorted, fun _ _ => rfl⟩
  | some unslashable =>
    cases entries with
    | nil =>
      cases h
      exact ⟨sorted, by simp⟩
    | cons entry rest =>
      rw [squashUnslashable] at h
      split at h
      · obtain ⟨deposits, looped, h⟩ := bind_eq_ok.1 h
        cases h
        obtain ⟨sorted', above⟩ := squashInto_sorted sorted.tail looped
        exact ⟨sorted', fun entry member => max_eq_left (above entry member)⟩
      · rename_i recent
        cases h
        refine ⟨sorted, ?_⟩
        intro entry member
        apply max_eq_left
        rcases List.mem_cons.1 member with rfl | member
        · exact (Nat.lt_of_not_le recent).le
        · exact Nat.le_of_lt (Nat.lt_trans (Nat.lt_of_not_le recent) (sorted.head_lt member))

def readWith (unslashableCycle : Option Nat) (cycle : Nat) : Nat → Bool := fun other =>
  normalizeCycle other unslashableCycle = normalizeCycle cycle unslashableCycle

theorem readWith_iff {cycle other : Nat} :
    readWith unslashableCycle cycle other = true ↔
      normalizeCycle other unslashableCycle = normalizeCycle cycle unslashableCycle :=
  decide_eq_true_iff

theorem normalizeCycle_idem (cycle : Nat) (unslashableCycle : Option Nat) :
    normalizeCycle (normalizeCycle cycle unslashableCycle) unslashableCycle =
      normalizeCycle cycle unslashableCycle := by
  cases unslashableCycle with
  | none => rfl
  | some unslashable => simp [normalizeCycle]

theorem saturated_readWith (unslashableCycle : Option Nat) (cycle : Nat) :
    Saturated unslashableCycle (readWith unslashableCycle cycle) := by
  intro other
  simp only [readWith, normalizeCycle_idem]

section Update
variable {entries : List (Nat × Deposits)} {unslashableCycle : Option Nat}

theorem total_single (amount : Amount) (sorted : Sorted entries) (cycle : Nat) :
    total amount (fun other => other = cycle) entries =
      amount.of ((entries.lookup cycle).getD Deposits.zero) := by
  induction entries with
  | nil => exact (amount_zero amount).symm
  | cons entry rest ih =>
    rw [total_cons, lookup_cons, weight]
    by_cases same : entry.1 = cycle
    · have absent : total amount (fun other => other = cycle) rest = 0 := by
        apply total_eq_zero
        intro later member
        have := sorted.head_lt member
        simp only [decide_eq_false_iff_not]
        omega
      simp [same, absent]
    · simp [same, ih sorted.tail]

theorem get_spec (amount : Amount) (sorted : Sorted entries)
    (h : squashUnslashable unslashableCycle entries = .ok squashed) (cycle : Nat) :
    amount.of (squashed.get cycle) = total amount (readWith unslashableCycle cycle) entries := by
  obtain ⟨unslashable_eq, sorted', normal, sums⟩ := squashUnslashable_spec sorted h
  rw [← sums amount _ (saturated_readWith unslashableCycle cycle), Squashed.get, unslashable_eq,
    ← total_single amount sorted']
  -- In the squashed list the cycles read together are one cycle.
  unfold total
  congr 1
  apply List.map_congr_left
  intro entry member
  simp only [weight, readWith, normal entry member]

theorem elim_weight {amount : Amount}
    (saturated : Saturated unslashableCycle included) (found : Option Deposits) (cycle : Nat) :
    found.elim 0 (weight amount included (normalizeCycle cycle unslashableCycle)) =
      if included cycle then amount.of (found.getD Deposits.zero) else 0 := by
  cases found with
  | none => simp [amount_zero]
  | some found => simp [weight, saturated cycle]

variable {f : Deposits → TzResult TezError Deposits}

theorem update_eq_insert {squashed updated : Squashed} {cycle : Nat} (sorted : Sorted squashed.deposits)
    (written : squashed.update f cycle = .ok updated) :
    ∃ new, f (squashed.get cycle) = .ok new ∧ updated = ⟨squashed.unslashableCycle,
      SortedAssoc.insert (normalizeCycle cycle squashed.unslashableCycle) new squashed.deposits⟩ := by
  obtain ⟨deposits, inserted, written⟩ := bind_eq_ok.1 written
  cases written
  rw [updateT, updateM_eq _ sorted] at inserted
  obtain ⟨new, computed, inserted⟩ := bind_eq_ok.1 inserted
  cases inserted
  exact ⟨new, computed, rfl⟩

theorem update_spec {squashed updated : Squashed} (sorted : Sorted entries)
    (h : squashUnslashable unslashableCycle entries = .ok squashed) (cycle : Nat)
    (written : squashed.update f cycle = .ok updated) :
    ∃ new, f (squashed.get cycle) = .ok new ∧ Sorted updated.deposits ∧
      ∀ amount included, Saturated unslashableCycle included →
        total amount included updated.deposits +
            (if included cycle then amount.of (squashed.get cycle) else 0) =
          total amount included entries + if included cycle then amount.of new else 0 := by
  obtain ⟨rfl, sorted', -, sums⟩ := squashUnslashable_spec sorted h
  obtain ⟨new, computed, rfl⟩ := update_eq_insert sorted' written
  refine ⟨new, computed, sorted'.insert, ?_⟩
  intro amount included saturated
  have change := sum_insert sorted' (normalizeCycle cycle squashed.unslashableCycle) new
    (weight amount included)
  rw [elim_weight saturated, weight, saturated cycle] at change
  rw [← sums amount included saturated]
  exact change

theorem update_total {squashed updated : Squashed}
    (h : squashUnslashable unslashableCycle entries = .ok squashed) (cycle : Nat)
    (written : squashed.update f cycle = .ok updated) :
    ∃ old new, f old = .ok new ∧ ∀ amount included, Saturated unslashableCycle included →
        total amount included updated.deposits + (if included cycle then amount.of old else 0) =
          total amount included entries + if included cycle then amount.of new else 0 := by
  obtain ⟨unslashable_eq, sums⟩ := squashUnslashable_total h
  obtain ⟨deposits, inserted, written⟩ := bind_eq_ok.1 written
  cases written
  rw [updateT, unslashable_eq] at inserted
  obtain ⟨found, new, computed, change⟩ := updateM_sum inserted
  refine ⟨found.getD Deposits.zero, new, computed, ?_⟩
  intro amount included saturated
  have changed := change (weight amount included)
  rw [elim_weight saturated, weight, saturated cycle] at changed
  rw [← sums amount included saturated]
  exact changed

end Update

end Octez.Proof.Staking
