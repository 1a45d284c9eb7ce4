import Mathlib

/-! # Unsigned integers of a fixed width -/

namespace Octez.Lib.Unsigned
variable {n : Nat}

def checkedAdd (a b : Fin n) : Option (Fin n) :=
  if fits : a.val + b.val < n then some ⟨a.val + b.val, fits⟩ else none

def checkedSub (a b : Fin n) : Option (Fin n) :=
  if b ≤ a then some ⟨a.val - b.val, Nat.lt_of_le_of_lt (Nat.sub_le _ _) a.isLt⟩ else none

def checkedMul (a b : Fin n) : Option (Fin n) :=
  if fits : a.val * b.val < n then some ⟨a.val * b.val, fits⟩ else none

def saturatingAdd (a b : Fin n) : Fin n :=
  ⟨min (a.val + b.val) (n - 1),
    Nat.lt_of_le_of_lt (Nat.min_le_right _ _) (Nat.sub_one_lt (Nat.ne_zero_of_lt a.isLt))⟩

def saturatingMul (a b : Fin n) : Fin n :=
  ⟨min (a.val * b.val) (n - 1),
    Nat.lt_of_le_of_lt (Nat.min_le_right _ _) (Nat.sub_one_lt (Nat.ne_zero_of_lt a.isLt))⟩

variable {a b c : Fin n}

theorem checkedAdd_eq_some : checkedAdd a b = some c ↔ c.val = a.val + b.val := by
  unfold checkedAdd
  split
  · rw [Option.some_inj, Fin.ext_iff, eq_comm]
  · have bounded := c.isLt
    constructor
    · intro impossible
      cases impossible
    · intro same
      omega

theorem checkedSub_eq_some : checkedSub a b = some c ↔ c.val + b.val = a.val := by
  unfold checkedSub
  split
  · rw [Option.some_inj, Fin.ext_iff]
    constructor <;> intro same <;> simp only at same ⊢ <;> omega
  · constructor
    · intro impossible
      cases impossible
    · intro same
      omega

theorem checkedMul_eq_some : checkedMul a b = some c ↔ c.val = a.val * b.val := by
  unfold checkedMul
  split
  · rw [Option.some_inj, Fin.ext_iff, eq_comm]
  · rename_i overflow
    constructor
    · intro impossible
      cases impossible
    · intro same
      exact absurd (same ▸ c.isLt) overflow

@[simp] theorem val_saturatingAdd (a b : Fin n) :
    (saturatingAdd a b).val = min (a.val + b.val) (n - 1) := rfl

theorem ceilDiv_of_mod_eq_zero {a c : Nat} (positive : 0 < c) (whole : a % c = 0) : a ⌈/⌉ c = a / c := by
  apply eq_of_forall_ge_iff
  intro b
  rw [ceilDiv_le_iff_le_smul positive, smul_eq_mul, Nat.div_le_iff_le_mul_add_pred positive]
  have division := Nat.div_add_mod a c
  rw [whole, Nat.add_zero] at division
  rw [← division]
  constructor
  · intro below
    omega
  · intro below
    apply Nat.mul_le_mul_left
    by_contra above
    have next : c * (b + 1) ≤ c * (a / c) := Nat.mul_le_mul_left _ (by omega)
    rw [Nat.mul_add] at next
    omega

theorem ceilDiv_of_mod_ne_zero {a c : Nat} (positive : 0 < c) (rest : a % c ≠ 0) : a ⌈/⌉ c = a / c + 1 := by
  apply eq_of_forall_ge_iff
  intro b
  rw [ceilDiv_le_iff_le_smul positive, smul_eq_mul, Nat.succ_le_iff, Nat.div_lt_iff_lt_mul positive,
    Nat.mul_comm c b, Nat.lt_iff_le_and_ne]
  refine (and_iff_left ?_).symm
  rintro rfl
  exact rest (Nat.mul_mod_left b c)

theorem add_mul_ceilDiv (a b : Nat) {c : Nat} (positive : 0 < c) :
    (a + b * c) ⌈/⌉ c = a ⌈/⌉ c + b := by
  rw [Nat.ceilDiv_eq_add_pred_div, Nat.ceilDiv_eq_add_pred_div,
    show a + b * c + c - 1 = a + c - 1 + b * c by omega, Nat.add_mul_div_right _ _ positive]

theorem le_mul_ceilDiv (a : Nat) {c : Nat} (positive : 0 < c) : a ≤ a ⌈/⌉ c * c := by
  rw [Nat.mul_comm]
  exact le_smul_ceilDiv positive

end Octez.Lib.Unsigned
