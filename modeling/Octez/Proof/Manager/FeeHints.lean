import Octez.Model.Manager.FeeHints
import Octez.Proof.Manager.Counters

namespace Octez.Proof.Manager
open Octez.Lib Octez.Token Octez.Manager Octez.Proof.Slashing Octez.Proof.Token
open Octez.Proof.Staking (sub_eq_ok)

section Totals
variable {T : TokenTypes} {Expr Oph : Type}
variable {contents : ContentsList T Expr} {remaining gasUsed : Nat} {acc : Tez × Nat} {c : Contents T Expr}

def feeOf (contents : ContentsList T Expr) : Nat :=
  (cumulateFeeAndGasOfManager contents).1.mutez

/-- The gas of an operation in units, as its weight counts it. -/
def gasOf (contents : ContentsList T Expr) : Nat :=
  Gas.integralToZ (cumulateFeeAndGasOfManager contents).2

/-- The fees of the operation can be added up. -/
def Computes (contents : ContentsList T Expr) : Prop :=
  computeManagerContentsFeeAndGasLimit contents = .ok (cumulateFeeAndGasOfManager contents)

theorem gas_ne_zero (positive : 0 < gasOf contents) : (cumulateFeeAndGasOfManager contents).2 ≠ 0 := by
  intro zero
  simp [gasOf, zero, Gas.integralToZ] at positive

theorem weightManager_fst (positive : 0 < gasOf contents) :
    (weightManager contents).1 = feeOf contents / gasOf contents := by
  simp [weightManager, gas_ne_zero positive, feeOf, gasOf]

variable [DecidableEq T.Pkh] [DecidableEq T.ContractHash] {parameters : Parameters T Expr}
variable {ctxt : Context T} {signatureGas : Option Nat}

theorem checkContents_spends {state state' : BatchState}
    (checked : (checkContents parameters ctxt state c signatureGas remaining : Result T Oph _) = .ok state')
    (fits : acc.1.mutez + state.balance.mutez ≤ maxMutez) :
    addFeeAndGasLimit acc c = .ok (cumulateFeeAndGas acc c) ∧
      (cumulateFeeAndGas acc c).1.mutez + state'.balance.mutez ≤ maxMutez := by
  simp only [checkContents, simulateSpending, spendFromBalance, liftToken, bind_eq_ok,
    liftError_eq_ok, pure_eq_ok, Except.ok.injEq] at checked
  obtain ⟨-, -, -, -, -, -, -, -, -, -, -, -, -, ⟨balance, spent, -, -, rfl⟩, rfl⟩ := checked
  have less := sub_eq_ok spent
  obtain ⟨fee, added, fee_eq⟩ := add_of_fits acc.1 c.fee (by omega)
  rw [addFeeAndGasLimit, cumulateFeeAndGas, addWithoutError, added]
  refine ⟨rfl, ?_⟩
  change fee.mutez + balance.mutez ≤ maxMutez
  omega

/-- The fees are spent from one balance, so that they can be added up. -/
theorem checkContentsList_computes {state : BatchState}
    (checked : (checkContentsList parameters ctxt state signatureGas remaining contents :
      Result T Oph _) = .ok gasUsed) (fits : acc.1.mutez + state.balance.mutez ≤ maxMutez) :
    contents.toList.foldlM addFeeAndGasLimit acc = .ok (contents.toList.foldl cumulateFeeAndGas acc) := by
  induction contents generalizing state signatureGas acc with
  | single c =>
    obtain ⟨state', spent, -⟩ := bind_eq_ok.1 checked
    rw [ContentsList.toList, List.foldlM_cons, (checkContents_spends spent fits).1]
    rfl
  | cons c rest ih =>
    obtain ⟨state', spent, checked⟩ := bind_eq_ok.1 checked
    obtain ⟨added, fits'⟩ := checkContents_spends spent fits
    rw [ContentsList.toList, List.foldlM_cons, added, ok_bind, ih checked fits', List.foldl_cons]

theorem computes_of_checked {checkSignature : Bool}
    (checked : (checkManagerOperation parameters ctxt checkSignature contents remaining :
      Result T Oph _) = .ok gasUsed) : Computes contents := by
  simp only [checkManagerOperation, bind_eq_ok] at checked
  obtain ⟨⟨state, key⟩, -, used, checked, -⟩ := checked
  have fits : Tez.zero.mutez + state.balance.mutez ≤ maxMutez := by
    simpa [Tez.zero] using state.balance.le_max
  exact checkContentsList_computes checked fits

end Totals

variable {q : ℚ}

theorem toInt64_of_fits (nonneg : 0 ≤ q) (fits : ⌊q⌋ ≤ maxInt64) : toInt64 q = .ok ⌊q⌋ := by
  have rounded : q.num.tdiv q.den = ⌊q⌋ := by
    rw [Int.tdiv_eq_ediv_of_nonneg (Rat.num_nonneg.2 nonneg), ← Rat.floor_def]
    rfl
  have lower : -2 ^ 63 ≤ ⌊q⌋ := by linarith [Int.floor_nonneg.2 nonneg]
  simp only [toInt64, rounded, lower, fits, and_self, if_true]

theorem int64CeilOfQ_of_fits (nonneg : 0 ≤ q) (fits : ⌈q⌉ ≤ maxInt64) : int64CeilOfQ q = .ok ⌈q⌉ := by
  have floor_nonneg := Int.floor_nonneg.2 nonneg
  rw [int64CeilOfQ, toInt64_of_fits nonneg ((Int.floor_le_ceil q).trans fits), ok_bind]
  split
  case isTrue whole =>
    rw [whole, Int.floor_intCast, Int.ceil_intCast]
    rfl
  case isFalse fractional =>
    have above : ⌊q⌋ + 1 = ⌈q⌉ := by
      apply le_antisymm
      · rw [Int.add_one_le_iff, Int.lt_ceil]
        exact lt_of_le_of_ne (Int.floor_le q) (Ne.symm fractional)
      · exact Int.ceil_le_floor_add_one q
    rw [wrap64_of_fits (by omega) (by omega), above]
    rfl

section Hints
variable {T : TokenTypes} {Expr O Oph : Type} {oph oph' : Oph} {factor : ℚ}
variable {candidate target repriced : ContentsList T Expr}

theorem feeNeeded_eq {hint} {value : Int} (computes : Computes candidate) (targetComputes : Computes target)
    (gas : 0 < gasOf candidate) (targetGas : 0 < gasOf target)
    (hinted : hint (cumulateFeeAndGasOfManager candidate).2 (cumulateFeeAndGasOfManager target).1
      (cumulateFeeAndGasOfManager target).2 = .ok value) :
    feeNeeded (O := O) hint (.manager candidate) (.manager target) = .ok (some value) := by
  unfold Computes at computes targetComputes
  simp only [feeNeeded, computes, targetComputes, gas_ne_zero gas, gas_ne_zero targetGas, or_self,
    if_false, hinted]
  rfl

theorem conflictHandler_eq_replace_iff [Ord T.Pkh] [Ord O] [Ord Oph] (computes : Computes repriced)
    (targetComputes : Computes target) :
    conflictHandler (O := O) factor (oph, .manager target) (oph', .manager repriced) = .replace ↔
      factor * feeOf target ≤ feeOf repriced ∧
      factor * (feeOf target / gasOf target) ≤ feeOf repriced / gasOf repriced := by
  have better : newOpIsBetter factor target repriced = .ok (betterFeesAndRatio factor
      (cumulateFeeAndGasOfManager target).2 (cumulateFeeAndGasOfManager target).1
      (cumulateFeeAndGasOfManager repriced).2 (cumulateFeeAndGasOfManager repriced).1) := by
    rw [newOpIsBetter, targetComputes, ok_bind, computes]
    rfl
  refine Iff.trans ?_ decide_eq_true_iff
  simp only [conflictHandler, better]
  split
  case h_1 replaced => exact iff_of_true rfl (Except.ok.inj replaced)
  case h_2 kept => exact iff_of_false nofun (Bool.eq_false_iff.1 (Except.ok.inj kept))
  case h_3 failed => cases failed

variable [DecidableEq T.ContractHash] [LinearOrder T.Pkh] [Ord O] [LinearOrder Oph]
variable {parameters parameters' : Parameters T Expr} {ctxt ctxt' : Context T}

/-- The operations that the candidate becomes with other fees are among the `repriced` ones. -/
theorem fee_hints_exact {checkSignature checkSignature' : Bool}
    {remaining remaining' gasUsed gasUsed' : Nat} (positive : 0 < factor)
    (valid : (checkManagerOperation parameters ctxt checkSignature candidate remaining :
      Result T Oph Nat) = .ok gasUsed)
    (targetValid : (checkManagerOperation parameters' ctxt' checkSignature' target remaining' :
      Result T Oph Nat) = .ok gasUsed') (gas : 0 < gasOf candidate) (targetGas : 0 < gasOf target) :
    let ratio : ℚ := feeOf target / gasOf target
    (⌈factor * feeOf target⌉ ≤ maxInt64 → ⌈factor * ratio * gasOf candidate⌉ ≤ maxInt64 →
      ∃ hint, feeNeededToReplaceByFee (O := O) factor (.manager target) (.manager candidate) =
          .ok (some hint) ∧
        ∀ repriced, Computes repriced → gasOf repriced = gasOf candidate → ∀ oph oph' : Oph,
          conflictHandler (O := O) factor (oph, .manager target) (oph', .manager repriced) = .replace ↔
            hint ≤ feeOf repriced) ∧ (⌊ratio * gasOf candidate⌋ + 1 ≤ maxInt64 →
      ∃ hint, feeNeededToOvertake (O := O) (.manager target) (.manager candidate) = .ok (some hint) ∧
        ∀ repriced, gasOf repriced = gasOf candidate →
          (ratio < feeOf repriced / gasOf repriced ↔ hint ≤ feeOf repriced) ∧
          ∀ oph oph' : Oph, (oph = oph' → repriced = target) → hint ≤ feeOf repriced →
            compareOperations (O := O) (oph, .manager repriced) (oph', .manager target) = .gt) := by
  intro ratio
  have computes := computes_of_checked valid
  have targetComputes := computes_of_checked targetValid
  have units : (0 : ℚ) < gasOf candidate := by exact_mod_cast gas
  constructor
  · intro feeFits ratioFits
    refine ⟨max ⌈factor * feeOf target⌉ ⌈factor * ratio * gasOf candidate⌉, ?_, ?_⟩
    · apply feeNeeded_eq computes targetComputes gas targetGas
      have forFee := int64CeilOfQ_of_fits (by positivity) feeFits
      have forRatio := int64CeilOfQ_of_fits (by positivity) ratioFits
      exact (bind_of_eq_ok forFee _).trans (bind_of_eq_ok forRatio _)
    · intro repriced repricedComputes same oph oph'
      rw [conflictHandler_eq_replace_iff repricedComputes targetComputes, max_le_iff, Int.ceil_le,
        Int.ceil_le, same, le_div_iff₀ units, Int.cast_natCast]
  · intro hintFits
    have floor_nonneg : 0 ≤ ⌊ratio * gasOf candidate⌋ := Int.floor_nonneg.2 (by positivity)
    refine ⟨⌊ratio * gasOf candidate⌋ + 1, ?_, ?_⟩
    · apply feeNeeded_eq computes targetComputes gas targetGas
      refine (bind_of_eq_ok (toInt64_of_fits (by positivity) (Int.le_of_lt hintFits)) _).trans ?_
      rw [wrap64_of_fits (by omega) hintFits]
      rfl
    · intro repriced same
      have above : ratio < feeOf repriced / gasOf repriced ↔
          ⌊ratio * gasOf candidate⌋ + 1 ≤ feeOf repriced := by
        rw [Int.add_one_le_iff, Int.floor_lt, same, lt_div_iff₀ units, Int.cast_natCast]
      refine ⟨above, ?_⟩
      intro oph oph' distinct enough
      have above := above.2 enough
      have apart : compare oph oph' ≠ .eq := by
        intro equal
        rw [distinct (compare_eq_iff_eq.1 equal)] at above
        exact lt_irrefl _ above
      have greater : compare (weightManager repriced).1 (weightManager target).1 = .gt := by
        rw [weightManager_fst (same ▸ gas), weightManager_fst targetGas]
        exact compare_gt_iff_gt.2 above
      simp [compareOperations, apart, compareOperationWeight, greater]

end Hints

/-- The candidate spends twice the gas of the target, so that it needs more than twice its fee. -/
theorem reveal_fee_hints :
    let operation (fee : Fin 8) (gas : Nat) : ContentsList natTypes Unit :=
      .single ⟨1, ⟨fee, by unfold maxMutez; omega⟩, 1, .reveal 1, gas, 0⟩
    let target := operation 3 1000
    let candidate := operation 4 2000
    ∃ hint overtaking, feeNeededToReplaceByFee (O := Nat) (21 / 20) (.manager target) (.manager candidate) =
        .ok (some hint) ∧
      (conflictHandler (O := Nat) (21 / 20) (0, .manager target) (1, .manager candidate) = .replace ↔
        hint ≤ feeOf candidate) ∧
      feeNeededToOvertake (O := Nat) (.manager target) (.manager candidate) = .ok (some overtaking) ∧
      overtaking ≤ 7 ∧
      compareOperations (O := Nat) (1, .manager (operation 7 2000)) (0, .manager target) = .gt := by
  intro operation target candidate
  let parameters := { smallParameters with hardGasLimitPerOperation := 2000 }
  obtain ⟨used, valid⟩ := exists_of_isOk (show (checkManagerOperation parameters smallLedger true
    candidate 2000 : Result _ Nat _).isOk by decide +kernel)
  obtain ⟨used', targetValid⟩ := exists_of_isOk (show (checkManagerOperation parameters smallLedger
    true target 2000 : Result _ Nat _).isOk by decide +kernel)
  have fee : feeOf target = 3 := by decide +kernel
  have targetGas : gasOf target = 1 := by decide +kernel
  have gas : gasOf candidate = 2 := by decide +kernel
  obtain ⟨replaces, overtakes⟩ := fee_hints_exact (O := Nat) (show (0 : ℚ) < 21 / 20 by norm_num)
    valid targetValid (by omega) (by omega)
  obtain ⟨hint, hinted, least⟩ := replaces (by norm_num [fee, maxInt64])
    (by norm_num [fee, gas, targetGas, maxInt64])
  obtain ⟨overtaking, hinted', least'⟩ := overtakes (by norm_num [fee, gas, targetGas, maxInt64])
  have raisedFee : feeOf (operation 7 2000) = 7 := by decide +kernel
  have raisedGas : gasOf (operation 7 2000) = 2 := by decide +kernel
  obtain ⟨above, greater⟩ := least' (operation 7 2000) (raisedGas.trans gas.symm)
  have enough : overtaking ≤ feeOf (operation 7 2000) := above.1 (by
    rw [fee, targetGas, raisedFee, raisedGas]
    norm_num)
  exact ⟨hint, overtaking, hinted, least candidate (computes_of_checked valid) (Eq.refl _) 0 1, hinted',
    by omega, greater 1 0 nofun enough⟩

end Octez.Proof.Manager
