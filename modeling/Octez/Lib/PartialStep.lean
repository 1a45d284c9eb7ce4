import Mathlib

/-!
# Executions of a deterministic partial step
-/

namespace Octez.Lib
variable {σ : Type}

def after (step : σ → Option σ) (start : σ) : Nat → Option σ
  | 0 => some start
  | n + 1 => (after step start n).bind step

variable {step : σ → Option σ} {start : σ} {m n : Nat}

theorem after_succ : after step start (n + 1) = (after step start n).bind step := rfl

theorem after_succ_of_some {state : σ} (reached : after step start n = some state) :
    after step start (n + 1) = step state := by
  rw [after_succ, reached, Option.bind_some]

theorem after_eq_none_of_le (le : m ≤ n) (stuck : after step start m = none) : after step start n = none := by
  induction le with
  | refl => exact stuck
  | step _ ih => rw [after_succ, ih, Option.bind_none]

end Octez.Lib
