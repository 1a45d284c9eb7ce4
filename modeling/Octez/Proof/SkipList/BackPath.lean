import Octez.Model.SkipList
import Octez.Lib.NearestAbove

namespace Octez.Proof.SkipList
open Octez.Lib Octez.SkipList

variable {Content Ptr : Type}

def rank (P : Parameters) (i : Nat) : Nat :=
  if i = 0 then 0 else Nat.log P.basis i + 1

def pointed (P : Parameters) (i k : Nat) : Nat := i - i % P.basis ^ k - 1

def backPointersOf (P : Parameters) (ptr : Nat → Ptr) (i : Nat) : List Ptr :=
  (List.range (rank P i)).map fun k => ptr (pointed P i k)

/-- The cells `cell 0, …, cell last`, built from `genesis` by `next`. The pointer given to `next`
for the cell of index `i` is `ptr i`, which no other cell of the chain has. -/
structure Chain (P : Parameters) (Content Ptr : Type) where
  last : Nat
  cell : Nat → Cell Content Ptr
  ptr : Nat → Ptr
  cell_zero : ∃ content, cell 0 = genesis content
  cell_succ : ∀ i < last, ∃ content, next P (cell i) (ptr i) content = .ok (cell (i + 1))
  ptr_injOn : Set.InjOn ptr (Set.Iic last)

section Arithmetic
variable (P : Parameters) {i : Nat}

theorem one_lt_basis : 1 < P.basis := P.two_le_basis

theorem basis_pow_pos (k : Nat) : 0 < P.basis ^ k :=
  Nat.pow_pos (by have := P.two_le_basis; omega)

theorem lt_rank_iff (i k : Nat) : k < rank P i ↔ P.basis ^ k ≤ i := by
  unfold rank
  split
  · rename_i zero
    have := basis_pow_pos P k
    omega
  · rename_i nonzero
    rw [← Nat.le_log_iff_pow_le (one_lt_basis P) nonzero]
    omega

theorem rank_pos (positive : 0 < i) : 0 < rank P i :=
  (lt_rank_iff P i 0).2 (by rw [Nat.pow_zero]; exact positive)

theorem rank_le (i : Nat) : rank P i ≤ i := by
  by_contra beyond
  have small := (lt_rank_iff P i i).1 (by omega)
  have large := Nat.lt_pow_self (one_lt_basis P) (n := i)
  omega

theorem rank_mono {j : Nat} (le : i ≤ j) : rank P i ≤ rank P j := by
  by_contra decreasing
  have below := (lt_rank_iff P i (rank P j)).1 (by omega)
  have := (lt_rank_iff P j (rank P j)).2 (below.trans le)
  omega

theorem succ_mod_of_ne_zero {m : Nat} (nonzero : (i + 1) % m ≠ 0) : (i + 1) % m = i % m + 1 := by
  have split := Nat.mod_add_div i m
  rcases Nat.eq_zero_or_pos m with zero | positive
  · simp [zero]
  · have bound := Nat.mod_lt i positive
    rcases Nat.lt_or_ge (i % m + 1) m with small | large
    · rw [Nat.add_mod, Nat.mod_eq_of_lt (show 1 < m by omega), Nat.mod_eq_of_lt small]
    · have : i + 1 = m * (i / m + 1) := by rw [Nat.mul_add]; omega
      exact absurd (by rw [this, Nat.mul_mod_right]) nonzero

theorem pointed_succ_of_mod_ne_zero {k : Nat} (nonzero : (i + 1) % P.basis ^ k ≠ 0) :
    pointed P (i + 1) k = pointed P i k := by
  unfold pointed
  rw [succ_mod_of_ne_zero nonzero, Nat.add_sub_add_right]

theorem pointed_lt {k : Nat} (positive : 0 < i) : pointed P i k < i := by
  unfold pointed
  generalize i % P.basis ^ k = r
  omega

@[simp] theorem pointed_zero (i : Nat) : pointed P i 0 = i - 1 := by
  simp [pointed, Nat.mod_one]

end Arithmetic

theorem backPointersOf_getElem? (P : Parameters) (ptr : Nat → Ptr) (i k : Nat) :
    (backPointersOf P ptr i)[k]? = if P.basis ^ k ≤ i then some (ptr (pointed P i k)) else none := by
  unfold backPointersOf
  split
  · rename_i le
    simp [(lt_rank_iff P i k).2 le]
  · rename_i gt
    have := mt (lt_rank_iff P i k).1 gt
    simp only [List.getElem?_eq_none_iff, List.length_map, List.length_range]
    omega

@[simp] theorem backPointersOf_length (P : Parameters) (ptr : Nat → Ptr) (i : Nat) :
    (backPointersOf P ptr i).length = rank P i := by
  simp [backPointersOf]

variable {prevCell : Cell Content Ptr}

theorem nextBackPointer_eq (P : Parameters) (ptr : Nat → Ptr) {i k : Nat}
    (pointers : prevCell.backPointers = backPointersOf P ptr i) (inside : P.basis ^ k ≤ i + 1) :
    nextBackPointer (i + 1) prevCell (ptr i) (P.basis ^ k) k = .ok (ptr (pointed P (i + 1) k)) := by
  unfold nextBackPointer
  split
  · rename_i zero
    rw [show pointed P (i + 1) k = i by simp [pointed, zero]]
  · rename_i nonzero
    -- `basis ^ k` does not divide the new index, so the predecessor has a pointer of this rank.
    have different : P.basis ^ k ≠ i + 1 := fun equal => nonzero (by rw [equal, Nat.mod_self])
    rw [pointed_succ_of_mod_ne_zero P nonzero, backPointerUnsafe, backPointer, pointers,
      backPointersOf_getElem?, if_pos (by omega)]

variable {i : Nat}

theorem nextAux_eq (P : Parameters) (ptr : Nat → Ptr)
    (pointers : prevCell.backPointers = backPointersOf P ptr i) (fuel k : Nat) (accu : List Ptr)
    (started : k ≤ rank P (i + 1)) (enough : rank P (i + 1) < k + fuel) :
    nextAux P.basis (i + 1) prevCell (ptr i) fuel (P.basis ^ k) accu k =
      .ok (accu.reverse ++ ((List.range' k (rank P (i + 1) - k)).map
        fun j => ptr (pointed P (i + 1) j))) := by
  -- The accumulator holds the pointers of the ranks below `k`; the fuel bounds the ranks left.
  induction fuel generalizing k accu with
  | zero => omega
  | succ fuel ih =>
    unfold nextAux
    by_cases inside : P.basis ^ k ≤ i + 1
    · have below := (lt_rank_iff P (i + 1) k).2 inside
      rw [if_neg (by omega), nextBackPointer_eq P ptr pointers inside, ok_bind, ← Nat.pow_succ,
        ih (k + 1) _ (by omega) (by omega)]
      obtain ⟨d, left⟩ : ∃ d, rank P (i + 1) - k = d + 1 := ⟨rank P (i + 1) - k - 1, by omega⟩
      have : rank P (i + 1) - (k + 1) = d := by omega
      simp [this, left, List.range'_succ]
    · have above := mt (lt_rank_iff P (i + 1) k).1 inside
      have finished : rank P (i + 1) - k = 0 := by omega
      rw [if_pos (by omega), finished]
      simp

theorem next_eq (P : Parameters) (ptr : Nat → Ptr) (prevCell : Cell Content Ptr)
    (pointers : prevCell.backPointers = backPointersOf P ptr prevCell.index) (content : Content) :
    next P prevCell (ptr prevCell.index) content =
      .ok ⟨content, backPointersOf P ptr (prevCell.index + 1), prevCell.index + 1⟩ := by
  have bound := rank_le P (prevCell.index + 1)
  have loop := nextAux_eq P ptr pointers (prevCell.index + 1 + 1) 0 [] (Nat.zero_le _) (by omega)
  rw [Nat.pow_zero] at loop
  unfold next
  simp only [loop, ok_bind, pure_eq_ok]
  simp [backPointersOf, List.range_eq_range']

namespace Chain

def ofContents (P : Parameters) (contents : Nat → Content) (ptr : Nat → Ptr)
    (injective : Function.Injective ptr) (last : Nat) : Chain P Content Ptr where
  last := last
  cell i := ⟨contents i, backPointersOf P ptr i, i⟩
  ptr := ptr
  cell_zero := ⟨contents 0, by simp [genesis, backPointersOf, rank]⟩
  cell_succ i _ := ⟨contents (i + 1),
    next_eq P ptr ⟨contents i, backPointersOf P ptr i, i⟩ rfl (contents (i + 1))⟩
  ptr_injOn := injective.injOn

variable {P : Parameters} (chain : Chain P Content Ptr)

theorem cell_invariant (inside : i ≤ chain.last) : (chain.cell i).index = i ∧
      (chain.cell i).backPointers = backPointersOf P chain.ptr i := by
  induction i with
  | zero =>
    obtain ⟨content, first⟩ := chain.cell_zero
    simp [first, genesis, backPointersOf, rank]
  | succ i ih =>
    obtain ⟨index, pointers⟩ := ih (by omega)
    obtain ⟨content, step⟩ := chain.cell_succ i (by omega)
    have pointers' : (chain.cell i).backPointers =
        backPointersOf P chain.ptr (chain.cell i).index := by rw [index, pointers]
    have computed := next_eq P chain.ptr _ pointers' content
    rw [index, step, Except.ok.injEq] at computed
    rw [computed]
    exact ⟨rfl, rfl⟩

theorem cell_index (inside : i ≤ chain.last) : (chain.cell i).index = i :=
  (chain.cell_invariant inside).1

theorem cell_backPointers (inside : i ≤ chain.last) :
    (chain.cell i).backPointers = backPointersOf P chain.ptr i :=
  (chain.cell_invariant inside).2

theorem backPointers_length (inside : i ≤ chain.last) :
    (chain.cell i).backPointers.length = rank P i := by
  rw [chain.cell_backPointers inside, backPointersOf_length]

theorem backPointer_eq {i k : Nat} (inside : i ≤ chain.last) (ranked : k < rank P i) :
    backPointer (chain.cell i) k = some (chain.ptr (pointed P i k)) := by
  rw [backPointer, chain.cell_backPointers inside, backPointersOf_getElem?,
    if_pos ((lt_rank_iff P i k).1 ranked)]

end Chain

/-- The invariants of the comment on the type `cell`, and the precondition that `next` states for
its call of `back_pointer_unsafe`. -/
theorem chain_backPointers (P : Parameters) (chain : Chain P Content Ptr) :
    (∀ i k, i ≤ chain.last → backPointer (chain.cell i) k =
      if P.basis ^ k ≤ i then some (chain.ptr (i - i % P.basis ^ k - 1)) else none) ∧
    (∀ i content, i ≤ chain.last → ∃ cell, next P (chain.cell i) (chain.ptr i) content = .ok cell) := by
  constructor
  · intro i k inside
    rw [backPointer, chain.cell_backPointers inside, backPointersOf_getElem?]
    rfl
  · intro i content inside
    have pointers : (chain.cell i).backPointers =
        backPointersOf P chain.ptr (chain.cell i).index := by
      rw [chain.cell_index inside, chain.cell_backPointers inside]
    have computed := next_eq P chain.ptr _ pointers content
    rw [chain.cell_index inside] at computed
    exact ⟨_, computed⟩

def binary : Parameters := ⟨2, le_rfl⟩

def countingChain : Chain binary Nat Nat :=
  .ofContents binary id id Function.injective_id 7

theorem countingChain_backPointers :
    backPointer (countingChain.cell 6) 2 = some 3 ∧ backPointer (countingChain.cell 6) 3 = none ∧
      ∃ cell, next binary (countingChain.cell 7) 7 8 = .ok cell := by
  obtain ⟨pointers, extends_⟩ := chain_backPointers binary countingChain
  exact ⟨pointers 6 2 (by decide), pointers 6 3 (by decide), extends_ 7 8 (by decide)⟩

variable (P : Parameters) {i t k : Nat} {cell : Cell Content Ptr} {powers : List Nat}

theorem pointed_antitone (i j k : Nat) (le : j ≤ k) : pointed P i k ≤ pointed P i j := by
  have nested : i % P.basis ^ k % P.basis ^ j = i % P.basis ^ j :=
    Nat.mod_mod_of_dvd i (Nat.pow_dvd_pow P.basis le)
  have smaller := Nat.mod_le (i % P.basis ^ k) (P.basis ^ j)
  unfold pointed
  omega

def closestRank (i t : Nat) : Nat :=
  Nat.findGreatest (fun k => t ≤ pointed P i k) (rank P i - 1)

def closest (i t : Nat) : Nat := pointed P i (closestRank P i t)

theorem closestRank_nearestAbove (below : t < i) :
    NearestAbove (pointed P i) (rank P i) t (closestRank P i t) := by
  have positive := rank_pos P (show 0 < i by omega)
  have bound : closestRank P i t ≤ rank P i - 1 := Nat.findGreatest_le _
  have first : t ≤ pointed P i 0 := by rw [pointed_zero]; omega
  refine ⟨by omega, ?_, .inr ?_⟩
  · exact Nat.findGreatest_spec (P := fun k => t ≤ pointed P i k) (Nat.zero_le _) first
  · intro j after inside
    have := Nat.findGreatest_is_greatest (P := fun k => t ≤ pointed P i k) after (by omega)
    omega

theorem closest_lt (below : t < i) : closest P i t < i :=
  pointed_lt P (by omega)

theorem le_closest (below : t < i) : t ≤ closest P i t :=
  (closestRank_nearestAbove P below).above

theorem pointed_eq_closest (below : t < i)
    (nearest : NearestAbove (pointed P i) (rank P i) t k) : pointed P i k = closest P i t :=
  nearest.value_unique (closestRank_nearestAbove P below) (pointed_antitone P i)

theorem listPowersAux_eq (basis n : Nat) (k : Nat) (p : List Nat) :
    listPowersAux basis n (basis ^ k) p = p.reverse ++ (List.range' k n).map (basis ^ ·) := by
  induction n generalizing k p with
  | zero => simp [listPowersAux]
  | succ n ih =>
    rw [listPowersAux, ← Nat.pow_succ', ih]
    simp [List.range'_succ]

theorem listPowers_eq (cell : Cell Content Ptr) :
    listPowers P cell = (List.range cell.backPointers.length).map (P.basis ^ ·) := by
  have := listPowersAux_eq P.basis cell.backPointers.length 0 []
  simpa [listPowers, List.range_eq_range'] using this

theorem listPowers_getD (cell : Cell Content Ptr) (inside : k < cell.backPointers.length) :
    (listPowers P cell).getD k 0 = P.basis ^ k := by
  simp [listPowers_eq, inside]

theorem pointedCellIndex_eq (power : powers.getD k 0 = P.basis ^ k) (ranked : k < rank P cell.index) :
    pointedCellIndex cell powers k = .ok (pointed P cell.index k : Int) := by
  have small := (lt_rank_iff P cell.index k).1 ranked
  have positive := basis_pow_pos P k
  have remainder := Nat.mod_lt cell.index positive
  simp only [pointedCellIndex, power, if_neg positive.ne', Except.ok.injEq, pointed]
  omega

theorem binarySearch_nearestAbove {p : Nat → Nat} {n : Nat}
    (reads : ∀ k < n, pointedCellIndex cell powers k = .ok (p k : Int))
    (antitone : ∀ i j, i ≤ j → p j ≤ p i) (fuel startIdx endIdx : Nat) (ordered : startIdx ≤ endIdx)
    (inside : endIdx < n) (above : t ≤ p startIdx) (below : ∀ j, endIdx < j → j < n → p j < t)
    (enough : endIdx - startIdx < fuel) :
    ∃ k, binarySearch cell t powers fuel startIdx endIdx = .ok k ∧ NearestAbove p n t k := by
  -- The interval always starts at a value that is not below the target and is followed only by
  -- values below it.
  induction fuel generalizing startIdx endIdx with
  | zero => omega
  | succ fuel ih =>
    unfold binarySearch
    by_cases single : endIdx ≤ startIdx
    · obtain rfl : startIdx = endIdx := by omega
      exact ⟨startIdx, by simp, by omega, above, .inr below⟩
    · simp only [if_neg single]
      have range : startIdx ≤ startIdx + (endIdx - startIdx) / 2 ∧
          startIdx + (endIdx - startIdx) / 2 < endIdx := by omega
      generalize startIdx + (endIdx - startIdx) / 2 = midIdx at range ⊢
      rw [reads midIdx (by omega), ok_bind]
      by_cases atMid : p midIdx = t
      · exact ⟨midIdx, by simp [atMid], by omega, atMid.ge, .inl atMid⟩
      · rw [if_neg (by exact_mod_cast atMid)]
        by_cases low : p midIdx < t
        · rw [if_pos (by exact_mod_cast low)]
          have moved : midIdx ≠ startIdx := by rintro rfl; omega
          refine ih startIdx (midIdx - 1) (by omega) (by omega) above ?_ (by omega)
          intro j after _
          exact (antitone midIdx j (by omega)).trans_lt low
        · rw [if_neg (by exact_mod_cast low), reads (midIdx + 1) (by omega), ok_bind]
          by_cases atNext : p (midIdx + 1) = t
          · exact ⟨midIdx + 1, by simp [atNext], by omega, atNext.ge, .inl atNext⟩
          · rw [if_neg (by exact_mod_cast atNext)]
            by_cases lowNext : p (midIdx + 1) < t
            · rw [if_pos (by exact_mod_cast lowNext)]
              refine ⟨midIdx, rfl, by omega, by omega, .inr ?_⟩
              intro j after _
              exact (antitone (midIdx + 1) j after).trans_lt lowNext
            · rw [if_neg (by exact_mod_cast lowNext)]
              exact ih (midIdx + 1) endIdx (by omega) inside (by omega) below (by omega)

variable {P}

def pathIndices (P : Parameters) (t i : Nat) : List Nat :=
  if _below : t < i then i :: pathIndices P t (closest P i t) else [i]
termination_by i
decreasing_by exact closest_lt P _below

theorem pathIndices_of_lt (below : t < i) :
    pathIndices P t i = i :: pathIndices P t (closest P i t) := by
  rw [pathIndices, dif_pos below]

@[simp] theorem pathIndices_self (t : Nat) : pathIndices P t t = [t] := by
  rw [pathIndices, dif_neg (lt_irrefl t)]

theorem pathIndices_eq_cons (t i : Nat) : pathIndices P t i = i :: (pathIndices P t i).tail := by
  rw [pathIndices]
  split <;> rfl

theorem pathIndices_bounds {j : Nat} (le : t ≤ i) (member : j ∈ pathIndices P t i) : t ≤ j ∧ j ≤ i := by
  induction i using Nat.strong_induction_on with
  | h i ih =>
    rcases Nat.eq_or_lt_of_le le with rfl | below
    · simp only [pathIndices_self, List.mem_singleton] at member
      omega
    · rw [pathIndices_of_lt below, List.mem_cons] at member
      have smaller := closest_lt P below
      rcases member with rfl | later
      · omega
      · have := ih (closest P i t) smaller (le_closest P below) later
        omega

theorem getLast_pathIndices (le : t ≤ i) : (pathIndices P t i).getLast? = some t := by
  induction i using Nat.strong_induction_on with
  | h i ih =>
    rcases Nat.eq_or_lt_of_le le with rfl | below
    · simp
    · have reached := ih _ (closest_lt P below) (le_closest P below)
      rw [pathIndices_of_lt below, pathIndices_eq_cons, List.getLast?_cons_cons,
        ← pathIndices_eq_cons, reached]

namespace Chain
variable (chain : Chain P Content Ptr) (deref : Ptr → Option (Cell Content Ptr))

theorem listPowers_getD {c : Nat} (inside : c ≤ chain.last) (le : i ≤ c)
    (ranked : k < rank P i) : (listPowers P (chain.cell c)).getD k 0 = P.basis ^ k := by
  apply SkipList.listPowers_getD
  rw [chain.backPointers_length inside]
  exact ranked.trans_le (rank_mono P le)

variable {c i t : Nat}

theorem bestSkip_eq (inside : c ≤ chain.last) (le : i ≤ c) (below : t < i) :
    ∃ k, bestSkip (chain.cell i) t (listPowers P (chain.cell c)) = .ok k ∧
      backPointer (chain.cell i) k = some (chain.ptr (closest P i t)) := by
  have index := chain.cell_index (le.trans inside)
  have positive := rank_pos P (show 0 < (chain.cell i).index by omega)
  obtain ⟨k, found, nearest⟩ := binarySearch_nearestAbove
    (fun k ranked => pointedCellIndex_eq P (chain.listPowers_getD inside le (index ▸ ranked)) ranked)
    (pointed_antitone P (chain.cell i).index) (rank P (chain.cell i).index + 1) 0
    (rank P (chain.cell i).index - 1) (Nat.zero_le _) (by omega)
    (show t ≤ pointed P (chain.cell i).index 0 by rw [pointed_zero]; omega)
    (fun j after inside => by omega) (by omega)
  rw [index] at found nearest
  refine ⟨k, by rw [bestSkip, chain.backPointers_length (le.trans inside), found], ?_⟩
  rw [chain.backPointer_eq (le.trans inside) nearest.lt, pointed_eq_closest P below nearest]

theorem mem_backPointers (inside : i ≤ chain.last) {p : Ptr}
    (member : p ∈ (chain.cell i).backPointers) : ∃ j < i, p = chain.ptr j := by
  rw [chain.cell_backPointers inside, backPointersOf, List.mem_map] at member
  obtain ⟨k, ranked, rfl⟩ := member
  rw [List.mem_range, lt_rank_iff] at ranked
  have positive := basis_pow_pos P k
  exact ⟨_, pointed_lt P (by omega), rfl⟩

theorem closest_mem_backPointers (inside : i ≤ chain.last) (below : t < i) :
    chain.ptr (closest P i t) ∈ (chain.cell i).backPointers := by
  rw [chain.cell_backPointers inside, backPointersOf, List.mem_map]
  exact ⟨_, List.mem_range.2 (closestRank_nearestAbove P below).lt, rfl⟩

theorem revBackPathAux_eq (inside : c ≤ chain.last) (le : i ≤ c) (above : t ≤ i)
    (defined : ∀ j, t ≤ j → j ≤ i → deref (chain.ptr j) = some (chain.cell j))
    (fuel : Nat) (path : List Ptr) (enough : i - t < fuel) :
    revBackPathAux deref t (listPowers P (chain.cell c)) fuel path (chain.ptr i) =
      .ok (some (((pathIndices P t i).map chain.ptr).reverse ++ path)) := by
  induction fuel generalizing i path with
  | zero => omega
  | succ fuel ih =>
    have index := chain.cell_index (le.trans inside)
    simp only [revBackPathAux, defined i above le_rfl, index]
    rcases Nat.eq_or_lt_of_le above with rfl | below
    · simp
    · obtain ⟨k, found, pointer⟩ := chain.bestSkip_eq inside le below
      have smaller := closest_lt P below
      have higher := le_closest P below
      rw [if_neg (by omega), if_neg (by omega), found, ok_bind]
      simp only [pointer]
      rw [ih (by omega) higher (fun j from_ to_ => defined j from_ (by omega)) _ (by omega),
        pathIndices_of_lt below]
      simp

theorem backPath_eq {c : Nat} (inside : c ≤ chain.last) (above : t ≤ c)
    (defined : ∀ j, t ≤ j → j ≤ c → deref (chain.ptr j) = some (chain.cell j))
    (fuel : Nat) (enough : c - t < fuel) :
    backPath P deref fuel (chain.ptr c) t = .ok (some ((pathIndices P t c).map chain.ptr)) := by
  simp only [backPath, revBackPath, defined c above le_rfl,
    chain.revBackPathAux_eq deref inside le_rfl above defined fuel [] enough]
  simp

section Verification
variable [DecidableEq Ptr]

theorem validPath_of_path (inside : c ≤ chain.last) (le : i ≤ c) (above : t ≤ i)
    (defined : ∀ j ∈ pathIndices P t i, deref (chain.ptr j) = some (chain.cell j)) :
    validPath deref (chain.ptr t) t (listPowers P (chain.cell c)) i (chain.ptr i)
      ((pathIndices P t i).tail.map chain.ptr) = .ok true := by
  induction i using Nat.strong_induction_on with
  | h i ih =>
    rcases Nat.eq_or_lt_of_le above with rfl | below
    · simp [validPath]
    · have smaller := closest_lt P below
      have higher := le_closest P below
      obtain ⟨k, found, pointer⟩ := chain.bestSkip_eq inside le below
      rw [pathIndices_of_lt below] at defined ⊢
      have here := defined i (by simp)
      have rest : ∀ j ∈ pathIndices P t (closest P i t),
          deref (chain.ptr j) = some (chain.cell j) :=
        fun j member => defined j (List.mem_cons_of_mem _ member)
      have there := rest (closest P i t) (by rw [pathIndices_eq_cons]; simp)
      have accepted := ih _ smaller (by omega) higher rest
      rw [List.tail_cons, pathIndices_eq_cons, List.map_cons, validPath]
      simp only [here, there, if_pos (chain.closest_mem_backPointers (le.trans inside) below),
        found, ok_bind, pointer, if_true, chain.cell_index (show closest P i t ≤ chain.last by omega)]
      exact accepted

theorem validBackPath_of_path {c : Nat} (inside : c ≤ chain.last) (target : t ≤ c)
    (defined : ∀ j ∈ pathIndices P t c, deref (chain.ptr j) = some (chain.cell j)) :
    validBackPath P deref (chain.ptr c) (chain.ptr t) ((pathIndices P t c).map chain.ptr) =
      .ok true := by
  have first := defined c (by rw [pathIndices_eq_cons]; simp)
  have last := defined t (List.mem_of_getLast? (getLast_pathIndices target))
  rw [pathIndices_eq_cons, List.map_cons]
  simp only [validBackPath, first, last, if_true, chain.cell_index inside,
    chain.cell_index (target.trans inside)]
  exact chain.validPath_of_path deref inside le_rfl target defined

theorem path_of_validPath (inside : c ≤ chain.last) (le : i ≤ c) (target : t ≤ c)
    (consistent : ∀ j cell, j ≤ c → deref (chain.ptr j) = some cell → cell = chain.cell j) {path : List Ptr}
    (valid : validPath deref (chain.ptr t) t (listPowers P (chain.cell c)) i (chain.ptr i) path =
      .ok true) :
    t ≤ i ∧ path = (pathIndices P t i).tail.map chain.ptr := by
  -- Every hop of an accepted list goes down, so an accepted list never passes the target.
  induction path generalizing i with
  | nil =>
    simp only [validPath, Except.ok.injEq, Bool.and_eq_true, decide_eq_true_eq] at valid
    obtain ⟨-, rfl⟩ := valid
    simp
  | cons p path ih =>
    rw [validPath] at valid
    cases here : deref (chain.ptr i) with
    | none => simp [here] at valid
    | some cell =>
      obtain rfl := consistent i cell le here
      cases there : deref p with
      | none => simp [here, there] at valid
      | some cell' =>
        simp only [here, there] at valid
        by_cases member : p ∈ (chain.cell i).backPointers
        · obtain ⟨j, smaller, rfl⟩ := chain.mem_backPointers (le.trans inside) member
          obtain rfl := consistent j cell' (by omega) there
          rw [if_pos member, bind_eq_ok] at valid
          obtain ⟨k, found, valid⟩ := valid
          cases pointer : backPointer (chain.cell i) k with
          | none => simp [pointer] at valid
          | some best =>
            simp only [pointer, chain.cell_index (show j ≤ chain.last by omega)] at valid
            by_cases minimal : best = chain.ptr j
            · rw [if_pos minimal] at valid
              obtain ⟨higher, rest⟩ := ih (by omega) valid
              -- The hop is above the target, so `best_skip` has chosen the closest cell.
              have below : t < i := by omega
              obtain ⟨k', found', pointer'⟩ := chain.bestSkip_eq inside le below
              obtain rfl : k = k' := by rw [found, Except.ok.injEq] at found'; exact found'
              rw [pointer, minimal, Option.some.injEq] at pointer'
              have hop := chain.ptr_injOn (Set.mem_Iic.2 (by omega))
                (Set.mem_Iic.2 (by have := closest_lt P below; omega)) pointer'
              refine ⟨below.le, ?_⟩
              rw [pathIndices_of_lt below, List.tail_cons, ← hop, pathIndices_eq_cons, List.map_cons, rest]
            · simp [minimal] at valid
        · simp [member] at valid

theorem validBackPath_iff {c : Nat} (inside : c ≤ chain.last) (target : t ≤ c)
    (defined : ∀ j ≤ c, deref (chain.ptr j) = some (chain.cell j)) (path : List Ptr) :
    validBackPath P deref (chain.ptr c) (chain.ptr t) path = .ok true ↔
      path = (pathIndices P t c).map chain.ptr := by
  have consistent : ∀ j cell, j ≤ c → deref (chain.ptr j) = some cell → cell = chain.cell j := by
    intro j cell le found
    rw [defined j le, Option.some.injEq] at found
    exact found.symm
  have indexT := chain.cell_index (target.trans inside)
  have indexC := chain.cell_index inside
  simp only [validBackPath, defined t target, defined c le_rfl, indexT, indexC]
  cases path with
  | nil => rw [pathIndices_eq_cons]; simp
  | cons p path =>
    rw [pathIndices_eq_cons, List.map_cons, List.cons.injEq]
    by_cases first : p = chain.ptr c
    · simp only [first, if_true, true_and]
      constructor
      · exact fun valid =>
          (chain.path_of_validPath deref inside le_rfl target consistent valid).2
      · rintro rfl
        exact chain.validPath_of_path deref inside le_rfl target
          (fun j member => defined j (pathIndices_bounds target member).2)
    · simp [first]

end Verification

end Chain

theorem backPath_unique_valid [DecidableEq Ptr] (chain : Chain P Content Ptr)
    (deref : Ptr → Option (Cell Content Ptr))
    (defined : ∀ i ≤ chain.last, deref (chain.ptr i) = some (chain.cell i))
    (c t : Nat) (inside : c ≤ chain.last) (target : t ≤ c) :
    ∃ path, (∀ fuel, c - t < fuel → backPath P deref fuel (chain.ptr c) t = .ok (some path)) ∧
      ∀ list, validBackPath P deref (chain.ptr c) (chain.ptr t) list = .ok true ↔ list = path := by
  refine ⟨(pathIndices P t c).map chain.ptr, ?_, ?_⟩
  · exact fun fuel enough => chain.backPath_eq deref inside target
      (fun j _ le => defined j (le.trans inside)) fuel enough
  · exact chain.validBackPath_iff deref inside target fun j le => defined j (le.trans inside)

def countingDeref (p : Nat) : Option (Cell Nat Nat) :=
  if p ≤ 7 then some (countingChain.cell p) else none

theorem countingDeref_defined (i : Nat) (inside : i ≤ 7) :
    countingDeref (countingChain.ptr i) = some (countingChain.cell i) :=
  if_pos inside

theorem countingChain_unique_valid :
    ∃ path, (∀ fuel, 5 < fuel → backPath binary countingDeref fuel 6 1 = .ok (some path)) ∧
      ∀ list, validBackPath binary countingDeref 6 1 list = .ok true ↔ list = path :=
  backPath_unique_valid countingChain countingDeref countingDeref_defined 6 1 (by decide) (by decide)

end Octez.Proof.SkipList
