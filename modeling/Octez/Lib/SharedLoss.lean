import Mathlib

/-! # Losses of a pool, rounded down, and of the claims on it, rounded up -/

namespace Octez.Lib
variable {unit initial current rate amount : Nat}

/-- The pool holds what is left of its initial amount after a loss at the rate. -/
def Covers (unit initial current rate : Nat) : Prop := initial * (unit - rate) ≤ unit * current

theorem Covers.deposit (covers : Covers unit initial current rate) (amount : Nat) :
    Covers unit (initial + amount) (current + amount) rate := by
  unfold Covers at *
  have part : amount * (unit - rate) ≤ unit * amount := by
    rw [Nat.mul_comm unit]
    exact Nat.mul_le_mul_left _ (Nat.sub_le _ _)
  rw [Nat.add_mul, Nat.mul_add]
  exact Nat.add_le_add covers part

theorem Covers.withdraw (covers : Covers unit (initial + amount) (current + amount) 0) :
    Covers unit initial current 0 := by
  unfold Covers at *
  rw [Nat.sub_zero, Nat.add_mul, Nat.mul_add, Nat.mul_comm amount] at covers
  exact Nat.le_of_add_le_add_right covers

theorem Covers.loss (covers : Covers unit initial current rate) (part : Nat) :
    Covers unit initial (current - min (initial * part / unit) current) (rate + part) := by
  unfold Covers at *
  have floor : unit * (initial * part / unit) ≤ initial * part := Nat.mul_div_le _ _
  have rest : initial * (unit - (rate + part)) = initial * (unit - rate) - initial * part := by
    rw [← Nat.sub_sub, Nat.mul_sub initial (unit - rate) part]
  rcases Nat.le_total (initial * part / unit) current with enough | short
  · rw [min_eq_left enough, Nat.mul_sub unit current]
    omega
  · -- The pool is emptied, and nothing is left of the initial amount either.
    have emptied : unit * current ≤ initial * part := (Nat.mul_le_mul_left _ short).trans floor
    omega

theorem Covers.claims {Owner : Type} (positive : 0 < unit)
    (covers : Covers unit initial current rate) (owners : Finset Owner) (claim left : Owner → Nat)
    (lost : ∀ owner ∈ owners, unit * left owner ≤ claim owner * (unit - rate))
    (claimed : ∑ owner ∈ owners, claim owner ≤ initial) : ∑ owner ∈ owners, left owner ≤ current := by
  apply Nat.le_of_mul_le_mul_left _ positive
  calc unit * ∑ owner ∈ owners, left owner = ∑ owner ∈ owners, unit * left owner := Finset.mul_sum _ _ _
    _ ≤ ∑ owner ∈ owners, claim owner * (unit - rate) := Finset.sum_le_sum lost
    _ = (∑ owner ∈ owners, claim owner) * (unit - rate) := (Finset.sum_mul _ _ _).symm
    _ ≤ initial * (unit - rate) := Nat.mul_le_mul_right _ claimed
    _ ≤ unit * current := covers

end Octez.Lib
