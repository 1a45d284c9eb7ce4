import Octez.Lib.Exn
import Octez.Lib.MachineInt

/-! # Amounts (`src/proto_alpha/lib_protocol/tez_repr.ml`) -/

namespace Octez
open Octez.Lib

def maxMutez : Nat := 2 ^ 63 - 1

structure Tez where
  mutez : Nat
  le_max : mutez ≤ maxMutez
deriving DecidableEq, Repr

inductive TezError where
  | additionOverflow (tez1 tez2 : Tez)
  | subtractionUnderflow (tez1 tez2 : Tez)
  | multiplicationOverflow (tez : Tez) (multiplicator : Int)
  | negativeMultiplicator (tez : Tez) (multiplicator : Int)
  | invalidDivisor (tez : Tez) (divisor : Int)
deriving DecidableEq, Repr

inductive Rounding where
  | down
  | up
deriving DecidableEq, Repr

namespace Percentage

def oneHundredPercent : Nat := 100 * 100

end Percentage

structure Percentage where
  points : Nat
  le_oneHundred : points ≤ Percentage.oneHundredPercent
deriving DecidableEq, Repr

/-- `to_q`: numerator and denominator of the reduced fraction. -/
def Percentage.toQ (percentage : Percentage) : Nat × Nat :=
  (percentage.points / Nat.gcd percentage.points oneHundredPercent,
    oneHundredPercent / Nat.gcd percentage.points oneHundredPercent)

def Percentage.addBounded (p1 p2 : Percentage) : Percentage :=
  ⟨min oneHundredPercent (p1.points + p2.points), min_le_left _ _⟩

def Percentage.subBounded (p1 p2 : Percentage) : Percentage :=
  ⟨p1.points - p2.points, (Nat.sub_le _ _).trans p1.le_oneHundred⟩

def Percentage.p0 : Percentage := ⟨0, Nat.zero_le _⟩

theorem Percentage.toQ_pos (percentage : Percentage) : 0 < percentage.toQ.2 :=
  Nat.div_pos (Nat.gcd_le_right _ (by decide)) (Nat.gcd_pos_of_pos_right _ (by decide))

namespace Tez

def zero : Tez := ⟨0, by decide⟩

def sub (tez1 tez2 : Tez) : TzResult TezError Tez :=
  if tez2.mutez ≤ tez1.mutez then
    .ok ⟨tez1.mutez - tez2.mutez, (Nat.sub_le _ _).trans tez1.le_max⟩
  else tzfail (.subtractionUnderflow tez1 tez2)

def subOpt (tez1 tez2 : Tez) : Option Tez :=
  if tez2.mutez ≤ tez1.mutez then
    some ⟨tez1.mutez - tez2.mutez, (Nat.sub_le _ _).trans tez1.le_max⟩
  else none

theorem toNat_wrap64_le (x : Int) : (wrap64 x).toNat ≤ maxMutez := by
  have bound := wrap64_le x
  unfold maxInt64 at bound
  unfold maxMutez
  omega

def add (tez1 tez2 : Tez) : TzResult TezError Tez :=
  let t := wrap64 (tez1.mutez + tez2.mutez)
  if t < tez1.mutez then tzfail (.additionOverflow tez1 tez2)
  else .ok ⟨t.toNat, toNat_wrap64_le _⟩

def div (tez : Tez) (d : Int) : TzResult TezError Tez :=
  if d ≤ 0 then tzfail (.invalidDivisor tez d)
  else .ok ⟨tez.mutez / d.toNat, (Nat.div_le_self _ _).trans tez.le_max⟩

variable (rounding : Rounding)

def roundedDiv (numerator den : Nat) : Nat :=
  match rounding with
  | .down => numerator / den
  | .up => cdiv numerator den

def mulRatio (tez : Tez) (num den : Int) : TzResult TezError Tez :=
  if num < 0 then tzfail (.negativeMultiplicator tez num)
  else if den ≤ 0 then tzfail (.invalidDivisor tez den)
  else
    let z := roundedDiv rounding (tez.mutez * num.toNat) den.toNat
    if fits : z ≤ maxMutez then .ok ⟨z, fits⟩ else tzfail (.multiplicationOverflow tez num)

theorem roundedDiv_le_cdiv (numerator : Nat) {den : Nat} (positive : 0 < den) :
    roundedDiv rounding numerator den ≤ cdiv numerator den := by
  cases rounding with
  | down => exact Nat.div_le_div_right (Nat.le_sub_one_of_lt (Nat.lt_add_of_pos_right positive))
  | up => exact le_rfl

theorem roundedDiv_percentage_le (tez : Tez) (percentage : Percentage) :
    roundedDiv rounding (tez.mutez * percentage.toQ.1) percentage.toQ.2 ≤ maxMutez := by
  refine ((roundedDiv_le_cdiv rounding _ percentage.toQ_pos).trans ?_).trans tez.le_max
  exact cdiv_share_le percentage.toQ_pos (Nat.div_le_div_right percentage.le_oneHundred) tez.mutez

def mulPercentage (tez : Tez) (percentage : Percentage) : Tez :=
  ⟨roundedDiv rounding (tez.mutez * percentage.toQ.1) percentage.toQ.2,
    roundedDiv_percentage_le rounding tez percentage⟩

def min (tez1 tez2 : Tez) : Tez := if tez1.mutez ≤ tez2.mutez then tez1 else tez2

end Tez

end Octez
