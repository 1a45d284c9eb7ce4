import Mathlib

/-!
# Signed machine integers
-/

namespace Octez.Lib

def wrap64 (x : Int) : Int := Int.bmod x (2 ^ 64)

def wrap32 (x : Int) : Int := Int.bmod x (2 ^ 32)

def maxInt64 : Int := 2 ^ 63 - 1

theorem wrap64_le (x : Int) : wrap64 x ≤ maxInt64 := by
  have bound := Int.bmod_lt (x := x) (m := 2 ^ 64) (by decide)
  unfold wrap64 maxInt64
  omega

variable {x : Int}

theorem wrap64_of_fits (lower : -2 ^ 63 ≤ x) (upper : x ≤ maxInt64) : wrap64 x = x := by
  unfold wrap64 maxInt64 at *
  apply Int.bmod_eq_of_le <;> omega

theorem wrap32_of_fits (lower : -2 ^ 31 ≤ x) (upper : x < 2 ^ 31) : wrap32 x = x := by
  apply Int.bmod_eq_of_le <;> omega

theorem wrap32_neg (lower : 2 ^ 31 ≤ x) (upper : x < 2 ^ 32) : wrap32 x < 0 := by
  have same : x % (2 ^ 32 : Nat) = x := Int.emod_eq_of_lt (by omega) (by omega)
  rw [wrap32, Int.bmod_def, same, if_neg (by omega)]
  omega

theorem wrap64_wrap64_add (x y : Int) : wrap64 (wrap64 x + y) = wrap64 (x + y) := Int.bmod_add_bmod

theorem wrap64_ne {y : Int} (different : x ≠ y) (close : (x - y).natAbs < 2 ^ 64) : wrap64 x ≠ wrap64 y := by
  unfold wrap64
  rw [Ne, Int.bmod_eq_bmod_iff_bmod_sub_eq_zero]
  intro multiple
  have divides := Int.dvd_of_bmod_eq_zero multiple
  omega

/-! # Shares of an amount, rounded up -/

/-- `Z.cdiv` on non-negative integers. -/
def cdiv (a b : Nat) : Nat := (a + b - 1) / b

theorem cdiv_eq {a b : Nat} (positive : 0 < b) : cdiv a b = a / b + if a % b = 0 then 0 else 1 := by
  have split := Nat.div_add_mod a b
  have bound := Nat.mod_lt a positive
  unfold cdiv
  generalize a / b = q at split ⊢
  generalize a % b = r at split bound ⊢
  subst split
  by_cases exact_ : r = 0
  · rw [if_pos exact_, exact_, Nat.add_zero, Nat.add_sub_assoc positive, Nat.mul_add_div positive,
      Nat.div_eq_of_lt (by omega)]
  · rw [if_neg exact_, show b * q + r + b - 1 = b * (q + 1) + (r - 1) by rw [Nat.mul_add]; omega,
      Nat.mul_add_div positive, Nat.div_eq_of_lt (by omega)]

theorem zero_cdiv (b : Nat) : cdiv 0 b = 0 := by
  cases b <;> simp [cdiv]

theorem le_mul_cdiv {a b : Nat} (positive : 0 < b) : a ≤ b * cdiv a b := by
  have split := Nat.div_add_mod a b
  have bound := Nat.mod_lt a positive
  rw [cdiv_eq positive, Nat.mul_add]
  split
  · omega
  · rw [Nat.mul_one]
    omega

theorem cdiv_le {a b c : Nat} (positive : 0 < b) (le : a ≤ b * c) : cdiv a b ≤ c := by
  have small : a + b - 1 < b * (c + 1) := by rw [Nat.mul_add]; omega
  exact Nat.le_of_lt_succ ((Nat.div_lt_iff_lt_mul positive).2 (by rwa [Nat.mul_comm] at small))

theorem mul_lt_of_lt_cdiv {a b c : Nat} (positive : 0 < b) (lt : c < cdiv a b) : b * c < a := by
  by_contra large
  exact absurd (cdiv_le positive (Nat.le_of_not_lt large)) (Nat.not_le.2 lt)

theorem cdiv_congr {a b c d : Nat} (positive : 0 < b) (positive' : 0 < d) (same : a * d = c * b) :
    cdiv a b = cdiv c d := by
  have half {a b c d : Nat} (positive : 0 < b) (positive' : 0 < d) (same : a * d = c * b) :
      cdiv a b ≤ cdiv c d := by
    apply cdiv_le positive
    apply Nat.le_of_mul_le_mul_right _ positive'
    rw [same, Nat.mul_assoc, Nat.mul_comm (cdiv c d), Nat.mul_comm b]
    exact Nat.mul_le_mul_right b (le_mul_cdiv positive')
  exact le_antisymm (half positive positive' same) (half positive' positive same.symm)

section Share
variable {total own : Nat}

theorem rest_cdiv_mul_le (positive : 0 < total) (amount own : Nat) :
    (amount - cdiv (amount * own) total) * total ≤ amount * (total - own) := by
  have lower := le_mul_cdiv (a := amount * own) positive
  rw [Nat.sub_mul, Nat.mul_sub, Nat.mul_comm (cdiv _ _)]
  omega

theorem cdiv_share_le (positive : 0 < total) (part : own ≤ total) (amount : Nat) :
    cdiv (amount * own) total ≤ amount := by
  apply cdiv_le positive
  rw [Nat.mul_comm]
  exact Nat.mul_le_mul_right amount part

variable {first second : Nat}

theorem rest_of_shares_le (positive : 0 < total) (part : own ≤ total) (fits : first + second ≤ total) :
    (first - cdiv (first * own) total) + (second - cdiv (second * own) total) ≤ total - own := by
  have firstPart := cdiv_share_le positive part first
  have secondPart := cdiv_share_le positive part second
  have lower := le_mul_cdiv (a := first * own) positive
  have lower' := le_mul_cdiv (a := second * own) positive
  generalize cdiv (first * own) total = a at *
  generalize cdiv (second * own) total = b at *
  obtain ⟨other, rfl⟩ := Nat.exists_eq_add_of_le part
  by_contra exceeds
  -- In units of `1 / total`, the other party would get more than its part of the whole.
  have scaled : (own + other) * (other + 1) ≤ (own + other) * (first + second - (a + b)) :=
    Nat.mul_le_mul_left _ (by omega)
  obtain ⟨rest, remains⟩ : ∃ rest, first + second = a + b + rest :=
    ⟨first + second - (a + b), by omega⟩
  rw [show first + second - (a + b) = rest by omega] at scaled
  nlinarith

theorem shares_le_iff (positive : 0 < total) (fits : first + second ≤ total) :
    cdiv (first * own) total + cdiv (second * own) total ≤ own ↔
      first * own % total = 0 ∨ second * own % total = 0 ∨
        total < (total - (first + second)) * own + first * own % total + second * own % total := by
  have split := Nat.div_add_mod (first * own) total
  have split' := Nat.div_add_mod (second * own) total
  rw [cdiv_eq positive, cdiv_eq positive]
  generalize first * own / total = q at *
  generalize second * own / total = q' at *
  generalize first * own % total = x at *
  generalize second * own % total = y at *
  obtain ⟨spare, whole⟩ := Nat.exists_eq_add_of_le fits
  have scaled : total * own = total * (q + q') + (spare * own + x + y) := by
    calc total * own = first * own + second * own + spare * own := by rw [whole]; ring
      _ = total * (q + q') + (spare * own + x + y) := by rw [← split, ← split']; ring
  obtain ⟨margin, held⟩ : ∃ margin, own = q + q' + margin :=
    Nat.exists_eq_add_of_le (Nat.le_of_mul_le_mul_left (by omega) positive)
  have marginal : total * margin = spare * own + x + y := by
    have := congrArg (total * ·) held
    simp only [Nat.mul_add] at this scaled
    omega
  rw [show total - (first + second) = spare by omega, ← marginal, lt_mul_iff_one_lt_right positive]
  have inexact : x + y ≠ 0 → 1 ≤ margin := by
    by_contra none
    rw [show margin = 0 by omega] at marginal
    omega
  split_ifs <;> omega

end Share

end Octez.Lib
