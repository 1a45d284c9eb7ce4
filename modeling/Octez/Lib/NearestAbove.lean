import Mathlib

/-! # The last entry of a weakly decreasing sequence that is not below a target -/

namespace Octez.Lib

structure NearestAbove (p : Nat → Nat) (n t k : Nat) : Prop where
  lt : k < n
  above : t ≤ p k
  after : p k = t ∨ ∀ j, k < j → j < n → p j < t

namespace NearestAbove
variable {p : Nat → Nat} {n t k k' : Nat}

theorem value_le (nearest : NearestAbove p n t k) (antitone : ∀ i j, i ≤ j → p j ≤ p i)
    {j : Nat} (inside : j < n) (above : t ≤ p j) : p k ≤ p j := by
  rcases Nat.lt_or_ge k j with before | after
  · rcases nearest.after with exact_ | below
    · rw [exact_]
      exact above
    · have := below j before inside
      omega
  · exact antitone j k after

theorem value_unique (nearest : NearestAbove p n t k) (nearest' : NearestAbove p n t k')
    (antitone : ∀ i j, i ≤ j → p j ≤ p i) : p k = p k' :=
  Nat.le_antisymm (nearest.value_le antitone nearest'.lt nearest'.above)
    (nearest'.value_le antitone nearest.lt nearest.above)

end NearestAbove

end Octez.Lib
