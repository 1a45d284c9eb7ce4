import Octez.Model.BoundedHistory

namespace Octez.Proof.BoundedHistory
open Octez.Lib Octez.BoundedHistory

variable {Key Value : Type} [DecidableEq Key]

def upTo (capacity : Int) (key : Nat → Key) (value : Nat → Value) : Nat → History Key Value
  | 0 => empty capacity
  | n + 1 => push (key n) (value n) (upTo capacity key value n)

section
variable {capacity : Int} {key : Nat → Key} {value : Nat → Value} {n : Nat}

@[simp] theorem capacity_upTo : (upTo capacity key value n).capacity = capacity := by
  induction n with
  | zero => rfl
  | succ n ih => exact ih

theorem size_upTo (key : Nat → Key) (value : Nat → Value) (fits : n ≤ capacity) (int64 : capacity ≤ maxInt64) :
    (upTo capacity key value n).size = n := by
  induction n with
  | zero => rfl
  | succ n ih =>
    have before := ih (by omega)
    simp only [upTo, push, before]
    exact wrap64_of_fits (by omega) (by push_cast at fits; omega)

theorem find_upTo_of_ne {k : Key} (different : ∀ i < n, key i ≠ k) :
    find k (upTo capacity key value n) = none := by
  induction n with
  | zero => rfl
  | succ n ih =>
    simp only [find, upTo, push, Map.add_apply, if_neg (different n (Nat.lt_succ_self n)).symm]
    exact ih fun i before => different i (by omega)

theorem find_upTo (distinct : Set.InjOn key (Set.Iio n)) {i : Nat} (inside : i < n) :
    find (key i) (upTo capacity key value n) = some (value i) := by
  induction n with
  | zero => omega
  | succ n ih =>
    simp only [find, upTo, push, Map.add_apply]
    split
    · rename_i same
      rw [distinct inside (Nat.lt_succ_self n) same]
    · rename_i other
      refine ih (distinct.mono (Set.Iio_subset_Iio (Nat.le_succ n))) ?_
      rcases Nat.eq_or_lt_of_le (Nat.le_of_lt_succ inside) with rfl | before
      · exact absurd rfl other
      · exact before

theorem remember_upTo [DecidableEq Value] (value : Nat → Value) (distinct : Set.InjOn key (Set.Iic n))
    (fits : n + 1 ≤ capacity) (int64 : capacity ≤ maxInt64) :
    remember (key n) (value n) (upTo capacity key value n) = .ok (upTo capacity key value (n + 1)) := by
  have fresh : find (key n) (upTo capacity key value n) = none :=
    find_upTo_of_ne fun i before same =>
      before.ne (distinct before.le (Set.mem_Iic.2 le_rfl) same)
  have size := size_upTo key value (n := n + 1) (by push_cast; omega) int64
  rw [find] at fresh
  rw [upTo] at size
  unfold remember
  rw [capacity_upTo, if_neg (by omega), fresh]
  simp only [evict, size]
  rw [if_pos]
  · rfl
  · simp only [push, capacity_upTo]
    omega

end

/-- The entries are numbered from `start` on, modulo the wrapping of the indices. -/
structure Numbered (t : History Key Value) (start : Int) (size : Nat) : Prop where
  capacity_le : t.capacity ≤ maxInt64
  size_eq : t.size = size
  size_le : size ≤ t.capacity
  oldest : t.oldestIndex = wrap64 start
  next : t.nextIndex = wrap64 (start + size)
  present : ∀ k < size, ∃ key, t.sequence (wrap64 (start + k)) = some key

section Numbered
variable {t : History Key Value} {start : Int} {size : Nat}

omit [DecidableEq Key] in
theorem numbered_empty {capacity : Int} (small : capacity ≤ maxInt64)
    (positive : 0 < (empty capacity : History Key Value).capacity) :
    ∃ start size, Numbered (empty capacity : History Key Value) start size :=
  ⟨0, 0, small, rfl, positive.le, rfl, rfl, by simp⟩

theorem push_present (key : Key) (value : Value) (numbered : Numbered t start size) {k : Nat} (inside : k ≤ size) :
    ∃ key', (push key value t).sequence (wrap64 (start + k)) = some key' := by
  simp only [push, numbered.next, Map.add_apply]
  split
  · exact ⟨key, rfl⟩
  · rename_i other
    rcases Nat.eq_or_lt_of_le inside with rfl | before
    · exact absurd rfl other
    · exact numbered.present k before

theorem evict_push (key : Key) (value : Value) (numbered : Numbered t start size) (positive : 0 < t.capacity) :
    ∃ t' start' size', evict (push key value t) = .ok t' ∧ Numbered t' start' size' ∧
      t'.capacity = t.capacity ∧
      ((size : Int) < t.capacity ∧ t' = push key value t ∧ start' = start ∧ size' = size + 1 ∨
        t.capacity = size ∧ start' = start + 1 ∧ size' = size ∧
          t'.sequence = Map.remove (wrap64 start) (push key value t).sequence ∧
          ∃ oldest, (push key value t).sequence (wrap64 start) = some oldest ∧
            t'.events = Map.remove oldest (push key value t).events) := by
  have int64 := numbered.capacity_le
  have fits := numbered.size_le
  have nextIndex : (push key value t).nextIndex = wrap64 (start + (size + 1 : Nat)) := by
    simp only [push, numbered.next, wrap64_wrap64_add]
    push_cast
    rw [Int.add_assoc]
  by_cases room : (size : Int) < t.capacity
  · have grown : (push key value t).size = (size + 1 : Nat) := by
      simp only [push, numbered.size_eq]
      exact wrap64_of_fits (by omega) (by unfold maxInt64 at *; omega)
    have kept : evict (push key value t) = .ok (push key value t) := by
      rw [evict, if_pos]
      rw [grown]
      change 0 < ((size + 1 : Nat) : Int) ∧ ((size + 1 : Nat) : Int) ≤ t.capacity
      omega
    refine ⟨_, start, size + 1, kept, ⟨int64, grown, ?_, numbered.oldest, nextIndex, ?_⟩, rfl,
      .inl ⟨room, rfl, rfl, rfl⟩⟩
    · change ((size + 1 : Nat) : Int) ≤ t.capacity
      omega
    · intro k inside
      exact push_present key value numbered (Nat.le_of_lt_succ inside)
  · -- The history is full: the oldest entry goes.
    have full : t.capacity = size := by omega
    have large : ¬(0 < (push key value t).size ∧
        (push key value t).size ≤ (push key value t).capacity) := by
      simp only [push, numbered.size_eq]
      by_cases last : (size : Int) = maxInt64
      · have wrapped : ¬0 < wrap64 (maxInt64 + 1) := by decide
        rw [last]
        exact fun both => wrapped both.1
      · rw [wrap64_of_fits (by omega) (by unfold maxInt64 at *; omega)]
        omega
    obtain ⟨oldestKey, oldest⟩ : ∃ oldestKey,
        (push key value t).sequence (push key value t).oldestIndex = some oldestKey := by
      have first := push_present key value numbered (Nat.zero_le _)
      simpa [push, numbered.oldest] using first
    rw [evict, if_neg large, oldest]
    refine ⟨_, start + 1, size, rfl, ⟨int64, full, fits, ?_, ?_, ?_⟩, rfl,
      .inr ⟨full, rfl, rfl, congrArg (Map.remove · _) numbered.oldest, oldestKey, numbered.oldest ▸ oldest, rfl⟩⟩
    · simp only [push, numbered.oldest, wrap64_wrap64_add]
    · rw [nextIndex]
      congr 1
      omega
    · intro k inside
      obtain ⟨key', found⟩ := push_present key value numbered inside
      refine ⟨key', ?_⟩
      have shifted : start + 1 + k = start + (k + 1 : Nat) := by
        omega
      have later : wrap64 (start + (k + 1 : Nat)) ≠ (push key value t).oldestIndex := by
        simp only [push, numbered.oldest]
        apply wrap64_ne
        · omega
        · unfold maxInt64 at int64
          omega
      rw [shifted]
      simp only [Map.remove, Function.update_of_ne later]
      exact found

theorem remember_returns [DecidableEq Value] {key : Key} {value : Value}
    (numbered : 0 < t.capacity → ∃ start size, Numbered t start size)
    (same : ∀ value', t.events key = some value' → value' = value) :
    ∃ t', remember key value t = .ok t' ∧ t'.capacity = t.capacity ∧
      (0 < t'.capacity → ∃ start size, Numbered t' start size) ∧ ∀ key' value', t'.events key' = some value' →
        t.events key' = some value' ∨ key' = key ∧ value' = value := by
  unfold remember
  by_cases none : t.capacity ≤ 0
  · exact ⟨t, if_pos none, rfl, numbered, fun _ _ found => .inl found⟩
  · rw [if_neg none]
    obtain ⟨start, size, numbered⟩ := numbered (by omega)
    obtain ⟨t', start', size', evicted, numbered', capacity, change⟩ :=
      evict_push key value numbered (by omega)
    refine ⟨t', ?_, capacity, fun _ => ⟨start', size', numbered'⟩, ?_⟩
    · cases found : t.events key with
      | none => exact evicted
      | some value' =>
        simp only [same value' found, if_true]
        exact evicted
    · intro key' value' found
      have pushed : (push key value t).events key' = some value' := by
        rcases change with ⟨-, rfl, -⟩ | ⟨-, -, -, -, oldest, -, events⟩
        · exact found
        · rw [events, Map.remove, Function.update_apply] at found
          split at found
          · cases found
          · exact found
      simp only [push, Map.add_apply] at pushed
      split at pushed
      · cases pushed
        exact .inr ⟨‹_›, rfl⟩
      · exact .inl pushed

end Numbered

end Octez.Proof.BoundedHistory
