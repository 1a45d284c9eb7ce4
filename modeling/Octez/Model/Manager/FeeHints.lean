import Octez.Model.Manager.Validate

/-! # Fee hints (`src/proto_alpha/lib_plugin/mempool.ml`) and the weights of manager operations
(`src/proto_alpha/lib_protocol/operation_repr.ml`) -/

namespace Octez.Manager
open Octez.Lib
open Octez.Token (TokenTypes)

/-- `Gas.Arith.integral_to_z`: gas is counted in thousandths of a unit. -/
def Gas.integralToZ (gas : Nat) : Nat := gas / 1000

section Totals
variable {T : TokenTypes} {Expr : Type}

def ContentsList.toList : ContentsList T Expr → List (Contents T Expr)
  | .single contents => [contents]
  | .cons contents rest => contents :: rest.toList

def addFeeAndGasLimit (total : Tez × Nat) (contents : Contents T Expr) : TzResult TezError (Tez × Nat) := do
  let totalFee ← total.1.add contents.fee
  return (totalFee, Gas.add total.2 contents.gasLimit)

variable (contents : ContentsList T Expr)

def computeManagerContentsFeeAndGasLimit : TzResult TezError (Tez × Nat) :=
  contents.toList.foldlM addFeeAndGasLimit (Tez.zero, 0)

def addWithoutError (acc y : Tez) : Tez := (acc.add y).toOption.getD acc

def cumulateFeeAndGas (acc : Tez × Nat) (contents : Contents T Expr) : Tez × Nat :=
  (addWithoutError acc.1 contents.fee, Gas.add acc.2 contents.gasLimit)

def cumulateFeeAndGasOfManager : Tez × Nat :=
  contents.toList.foldl cumulateFeeAndGas (Tez.zero, 0)

def weightManager : ℚ × T.Pkh :=
  let (fee, glimit) := cumulateFeeAndGasOfManager contents
  if glimit = 0 then (fee.mutez, contents.source)
  else (fee.mutez / Gas.integralToZ glimit, contents.source)

end Totals

/-- The operations of the consensus, voting and anonymous passes are ordered among themselves by
their own weights. -/
inductive PackedOperation (T : TokenTypes) (Expr O : Type) where
  | manager (contents : ContentsList T Expr)
  | other (operation : O)
  | failingNoop

variable {T : TokenTypes} {Expr O Oph : Type}

section Orders
variable [Ord T.Pkh] [Ord O] [Ord Oph]

def compareOperationWeight : PackedOperation T Expr O →
    PackedOperation T Expr O → Ordering
  | .manager contents1, .manager contents2 =>
    let (manweight1, source1) := weightManager contents1
    let (manweight2, source2) := weightManager contents2
    (compare manweight1 manweight2).then (compare source1 source2)
  | .other operation1, .other operation2 => compare operation1 operation2
  | .failingNoop, .failingNoop => .eq
  | .other _, _ | .manager _, .failingNoop => .gt
  | _, .other _ | .failingNoop, .manager _ => .lt

def compareOperations (operation1 operation2 : Oph × PackedOperation T Expr O) :
    Ordering :=
  let cmpH := compare operation1.1 operation2.1
  if cmpH = .eq then .eq
  else (compareOperationWeight operation1.2 operation2.2).then cmpH

end Orders

-- An operation without gas, which is never valid, has an infinite ratio in the source.
def feeAndRatioAsQ (fee : Tez) (gas : Nat) : ℚ × ℚ := (fee.mutez, fee.mutez / Gas.integralToZ gas)

variable (replaceByFeeFactor : ℚ)

def bumpedFeeAndRatioAsQ (fee : Tez) (gas : Nat) : ℚ × ℚ :=
  let (fee, ratio) := feeAndRatioAsQ fee gas
  (replaceByFeeFactor * fee, replaceByFeeFactor * ratio)

def betterFeesAndRatio (oldGas : Nat) (oldFee : Tez) (newGas : Nat) (newFee : Tez) : Bool :=
  let (bumpedOldFee, bumpedOldRatio) := bumpedFeeAndRatioAsQ replaceByFeeFactor oldFee oldGas
  let (newFee, newRatio) := feeAndRatioAsQ newFee newGas
  decide (bumpedOldFee ≤ newFee ∧ bumpedOldRatio ≤ newRatio)

inductive ConflictAnswer where
  | replace
  | keep
deriving DecidableEq, Repr

def newOpIsBetter (oldOp newOp : ContentsList T Expr) : TzResult TezError Bool := do
  let (oldFee, oldGasLimit) ← computeManagerContentsFeeAndGasLimit oldOp
  let (newFee, newGasLimit) ← computeManagerContentsFeeAndGasLimit newOp
  return betterFeesAndRatio replaceByFeeFactor oldGasLimit oldFee newGasLimit newFee

def conflictHandler [Ord T.Pkh] [Ord O] [Ord Oph]
    (existing new : Oph × PackedOperation T Expr O) : ConflictAnswer :=
  match existing.2, new.2 with
  | .manager oldOp, .manager newOp =>
    match newOpIsBetter replaceByFeeFactor oldOp newOp with
    | .ok true => .replace
    | .ok false | .error _ => .keep
  | _, _ => if compareOperations existing new = .lt then .replace else .keep

inductive Overflow where
  | overflow

/-- `Q.to_int64`, which rounds towards zero. -/
def toInt64 (q : ℚ) : Except Overflow Int :=
  let n := q.num.tdiv q.den
  if -2 ^ 63 ≤ n ∧ n ≤ maxInt64 then .ok n else .error .overflow

def int64CeilOfQ (q : ℚ) : Except Overflow Int := do
  let n ← toInt64 q
  return if q = n then n else wrap64 (n + 1)

/-- Both hints read the candidate's gas and the fee and the gas of the other operation. -/
def feeNeeded (hint : Nat → Tez → Nat → Except Overflow Int) :
    PackedOperation T Expr O → PackedOperation T Expr O → Except Overflow (Option Int)
  | .manager candidate, .manager other =>
    match computeManagerContentsFeeAndGasLimit candidate, computeManagerContentsFeeAndGasLimit other with
    | .ok (_, candidateGas), .ok (fee, gas) =>
      if gas = 0 ∨ candidateGas = 0 then .ok none else some <$> hint candidateGas fee gas
    | _, _ => .ok none
  | _, _ => .ok none

def feeNeededToReplaceByFee (opToReplace candidateOp : PackedOperation T Expr O) :
    Except Overflow (Option Int) :=
  feeNeeded (fun candidateGas oldFee oldGas => do
    let (bumpedOldFee, bumpedOldRatio) := bumpedFeeAndRatioAsQ replaceByFeeFactor oldFee oldGas
    let feeNeededForFee ← int64CeilOfQ bumpedOldFee
    let feeNeededForRatio ← int64CeilOfQ (bumpedOldRatio * Gas.integralToZ candidateGas)
    return max feeNeededForFee feeNeededForRatio) candidateOp opToReplace

def feeNeededToOvertake (opToOvertake candidateOp : PackedOperation T Expr O) :
    Except Overflow (Option Int) :=
  feeNeeded (fun candidateGas targetFee targetGas => do
    let targetRatio : ℚ := targetFee.mutez / Gas.integralToZ targetGas
    let n ← toInt64 (targetRatio * Gas.integralToZ candidateGas)
    return wrap64 (n + 1)) candidateOp opToOvertake

end Octez.Manager
