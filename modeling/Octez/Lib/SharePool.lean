import Mathlib

/-! # Shares of a pool: deposits and withdrawals cost the other owners nothing -/

namespace Octez.Lib.SharePool
variable {K : Type*} [Field K]

def value (assets shares held : K) : K := assets * held / shares

variable {assets shares held : K}

theorem value_all (positive : shares ≠ 0) : value assets shares shares = assets := by
  rw [value, mul_div_assoc, div_self positive, mul_one]

@[simp] theorem value_held_zero : value assets shares 0 = 0 := by
  simp [value]

variable [LinearOrder K] [IsStrictOrderedRing K] {amount change : K}

theorem value_le_deposit (positive : 0 < shares) (owned : 0 ≤ held) (minted : 0 ≤ change)
    (fair : assets * change ≤ amount * shares) :
    value assets shares held ≤ value (assets + amount) (shares + change) held := by
  unfold value
  rw [div_le_div_iff₀ positive (by linarith)]
  have scaled := mul_le_mul_of_nonneg_right fair owned
  linarith

theorem deposit_value_le (positive : 0 < shares) (part : held ≤ shares) (minted : 0 ≤ change)
    (fair : assets * change ≤ amount * shares) :
    value (assets + amount) (shares + change) (held + change) ≤ value assets shares held + amount := by
  have sum : value assets shares held + amount = (assets * held + amount * shares) / shares := by
    rw [value, add_div, mul_div_cancel_right₀ _ positive.ne']
  rw [sum, value, div_le_div_iff₀ (by linarith) positive]
  have others := mul_le_mul_of_nonneg_right fair (sub_nonneg.2 part)
  linarith

theorem value_le_withdraw (burnt : 0 ≤ change) (owned : 0 ≤ held)
    (part : held + change ≤ shares) (fair : amount * shares ≤ assets * change) :
    value assets shares held ≤ value (assets - amount) (shares - change) held := by
  rcases owned.eq_or_lt with rfl | positive
  · simp
  · unfold value
    rw [div_le_div_iff₀ (by linarith) (by linarith)]
    have scaled := mul_le_mul_of_nonneg_right fair owned
    linarith

theorem withdraw_value_le (positive : 0 < shares) (owned : change ≤ held)
    (part : held ≤ shares) (fair : amount * shares ≤ assets * change) :
    value (assets - amount) (shares - change) (held - change) ≤ value assets shares held - amount := by
  have left : value assets shares held - amount =
      (assets * held - amount * shares) / shares := by
    rw [value, sub_div, mul_div_cancel_right₀ _ positive.ne']
  rw [left]
  rcases (sub_nonneg.2 (owned.trans part)).eq_or_lt with none | rest
  · -- all the shares are burnt, and nothing of the pool is left to own
    have all : held = change := by linarith
    rw [value, ← none, div_zero, all]
    exact div_nonneg (sub_nonneg.2 fair) positive.le
  · rw [value, div_le_div_iff₀ rest positive]
    have others := mul_le_mul_of_nonneg_right fair (sub_nonneg.2 part)
    linarith

end Octez.Lib.SharePool
