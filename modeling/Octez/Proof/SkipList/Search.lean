import Octez.Proof.SkipList.BackPath

namespace Octez.Proof.SkipList
open Octez.Lib Octez.SkipList Returns

variable {Content Ptr : Type} {P : Parameters}

namespace Chain
variable (chain : Chain P Content Ptr) (deref : Ptr → Option (Cell Content Ptr)) (compare : Content → Int)

def Increasing : Prop :=
  ∀ i j, i < j → j ≤ chain.last → 0 ≤ compare (chain.cell i).content → 0 < compare (chain.cell j).content

def Above (j : Nat) : Prop :=
  deref (chain.ptr j) = some (chain.cell j) ∧ 0 < compare (chain.cell j).content

def Exact (j : Nat) : Prop :=
  deref (chain.ptr j) = some (chain.cell j) ∧ compare (chain.cell j).content = 0

def Below (j : Nat) : Prop :=
  deref (chain.ptr j) = none ∨ deref (chain.ptr j) = some (chain.cell j) ∧ compare (chain.cell j).content < 0

variable {i k : Nat}

theorem backPointerUnsafe_eq (inside : i ≤ chain.last) (ranked : k < rank P i) :
    backPointerUnsafe (chain.cell i) k = .ok (chain.ptr (pointed P i k)) := by
  rw [backPointerUnsafe, chain.backPointer_eq inside ranked]

theorem searchAux_of_above (inside : i ≤ chain.last) (ranked : k < rank P i)
    (above : chain.Above deref compare (pointed P i k)) (fuel : Nat)
    (revPath : List (Cell Content Ptr)) (candidate : Option (Cell Content Ptr)) :
    searchAux deref compare (fuel + 1) revPath (chain.cell i) candidate k =
      if k < rank P i - 1 then
        searchAux deref compare fuel revPath (chain.cell i) (some (chain.cell (pointed P i k))) (k + 1)
      else
        searchAux deref compare fuel (chain.cell (pointed P i k) :: revPath)
          (chain.cell (pointed P i k)) none 0 := by
  obtain ⟨found, positive⟩ := above
  rw [searchAux.eq_def]
  simp only [chain.backPointers_length inside, if_neg (show ¬ rank P i = 0 by omega),
    chain.backPointerUnsafe_eq inside ranked, ok_bind, found, if_neg positive.ne', if_pos positive]

theorem searchAux_of_below (inside : i ≤ chain.last) (ranked : k + 1 < rank P i)
    (below : chain.Below deref compare (pointed P i (k + 1)))
    (known : deref (chain.ptr (pointed P i k)) = some (chain.cell (pointed P i k))) (fuel : Nat)
    (revPath : List (Cell Content Ptr)) :
    searchAux deref compare (fuel + 1) revPath (chain.cell i)
        (some (chain.cell (pointed P i k))) (k + 1) =
      searchAux deref compare fuel (chain.cell (pointed P i k) :: revPath)
        (chain.cell (pointed P i k)) none 0 := by
  rw [searchAux.eq_def]
  simp only [chain.backPointers_length inside, if_neg (show ¬ rank P i = 0 by omega),
    chain.backPointerUnsafe_eq inside ranked, ok_bind]
  -- The previous pointer is taken either as the remembered candidate or by a second dereference.
  rcases below with missing | ⟨found, negative⟩
  · simp only [missing]
  · simp only [found, if_neg negative.ne, if_neg negative.not_gt, if_neg (Nat.succ_ne_zero k),
      Nat.add_sub_cancel, chain.backPointerUnsafe_eq inside (show k < rank P i by omega), ok_bind, known]

theorem searchAux_hop {i u : Nat} (inside : i ≤ chain.last) (target : u < i)
    (classify : ∀ j < i, (u ≤ j ∧ chain.Above deref compare j) ∨
      (j = u ∧ chain.Exact deref compare j) ∨ (j < u ∧ chain.Below deref compare j)) {revPath} {result}
    (goes : chain.Above deref compare (closest P i u) →
      Returns (fun fuel => searchAux deref compare fuel (chain.cell (closest P i u) :: revPath)
        (chain.cell (closest P i u)) none 0) result) (stops : chain.Exact deref compare (closest P i u) →
      result = { revPath := chain.cell (closest P i u) :: revPath,
                 lastCell := .found (chain.cell (closest P i u)) }) :
    Returns (fun fuel => searchAux deref compare fuel revPath (chain.cell i) none 0) result := by
  have ranks := rank_pos P (show 0 < i by omega)
  -- The scan is at rank `k`; its candidate is the cell of rank `k - 1`, which is above the target.
  have scan (d : Nat) : ∀ k candidate, k < rank P i → rank P i - k = d →
      (k = 0 ∨ ∃ k', k = k' + 1 ∧ u ≤ pointed P i k' ∧ chain.Above deref compare (pointed P i k') ∧
        candidate = some (chain.cell (pointed P i k'))) →
      Returns (fun fuel => searchAux deref compare fuel revPath (chain.cell i) candidate k)
        result := by
    induction d with
    | zero => intro k candidate ranked left; omega
    | succ d ih =>
      intro k candidate ranked left
      have ended : rank P i - (k + 1) = d := by omega
      intro history
      rcases classify _ (pointed_lt P (k := k) (show 0 < i by omega)) with
        ⟨higher, above⟩ | ⟨equal, exact_⟩ | ⟨lower, below⟩
      · by_cases more : k < rank P i - 1
        · refine step (fun fuel => ?_) (ih (k + 1) _ (Nat.add_lt_of_lt_sub more) ended
            (.inr ⟨k, rfl, higher, above, rfl⟩))
          rw [chain.searchAux_of_above deref compare inside ranked above, if_pos more]
        · have hop : pointed P i k = closest P i u :=
            pointed_eq_closest P target ⟨ranked, higher, .inr fun j after last => by omega⟩
          refine step (fun fuel => ?_) (goes (hop ▸ above))
          rw [chain.searchAux_of_above deref compare inside ranked above, if_neg more, hop]
      · have hop : pointed P i k = closest P i u :=
          pointed_eq_closest P target ⟨ranked, equal.ge, .inl equal⟩
        rw [stops (hop ▸ exact_)]
        refine of_succ fun fuel => ?_
        obtain ⟨found, zero⟩ := exact_
        rw [searchAux.eq_def]
        simp only [chain.backPointers_length inside, if_neg (show ¬ rank P i = 0 by omega),
          chain.backPointerUnsafe_eq inside ranked, ok_bind, found, zero, if_true]
        rw [hop]
      · rcases history with rfl | ⟨k', rfl, higher, above, rfl⟩
        · rw [pointed_zero] at lower
          omega
        · have hop : pointed P i k' = closest P i u :=
            pointed_eq_closest P target ⟨by omega, higher, .inr fun j after last =>
              (pointed_antitone P i (k' + 1) j after).trans_lt lower⟩
          refine step (fun fuel => ?_) (goes (hop ▸ above))
          rw [chain.searchAux_of_below deref compare inside ranked below above.1, hop]
  exact scan _ 0 none ranks rfl (.inl rfl)

theorem searchAux_found {i t : Nat} (inside : i ≤ chain.last) (target : t < i)
    (exact_ : chain.Exact deref compare t) (above : ∀ j, t < j → j < i → chain.Above deref compare j)
    (below : ∀ j < t, chain.Below deref compare j) (revPath : List (Cell Content Ptr)) :
    Returns (fun fuel => searchAux deref compare fuel revPath (chain.cell i) none 0)
      { revPath := ((pathIndices P t i).tail.map chain.cell).reverse ++ revPath,
        lastCell := .found (chain.cell t) } := by
  induction i using Nat.strong_induction_on generalizing revPath with
  | h i ih =>
    have smaller := closest_lt P target
    refine chain.searchAux_hop deref compare inside target ?_ ?_ ?_
    · intro j before
      rcases Nat.lt_trichotomy j t with lower | rfl | higher
      · exact .inr (.inr ⟨lower, below j lower⟩)
      · exact .inr (.inl ⟨rfl, exact_⟩)
      · exact .inl ⟨higher.le, above j higher before⟩
    · intro higher
      rcases Nat.eq_or_lt_of_le (le_closest P target) with equal | next
      · rw [← equal] at higher
        exact absurd exact_.2 higher.2.ne'
      · have rest := ih _ smaller (by omega) next
          (fun j after before => above j after (by omega)) (chain.cell (closest P i t) :: revPath)
        rw [pathIndices_of_lt target, List.tail_cons, pathIndices_eq_cons]
        simpa using rest
    · intro reached
      rcases Nat.eq_or_lt_of_le (le_closest P target) with equal | next
      · rw [pathIndices_of_lt target, List.tail_cons, ← equal, pathIndices_self]
        simp
      · exact absurd reached.2 (above _ next smaller).2.ne'

theorem search_found {c t : Nat} (inside : c ≤ chain.last) (target : t ≤ c)
    (increasing : chain.Increasing compare) (zero : compare (chain.cell t).content = 0)
    (defined : ∀ j, t ≤ j → j < c → deref (chain.ptr j) = some (chain.cell j))
    (truncated : ∀ j < t, deref (chain.ptr j) = none ∨
      deref (chain.ptr j) = some (chain.cell j)) :
    Returns (fun fuel => search deref compare fuel (chain.cell c))
      { revPath := ((pathIndices P t c).map chain.cell).reverse,
        lastCell := .found (chain.cell t) } := by
  rcases Nat.eq_or_lt_of_le target with rfl | below
  · exact of_succ fun fuel => by simp [search, zero]
  · have positive := increasing t c below inside zero.ge
    have start : ∀ fuel, search deref compare fuel (chain.cell c) =
        searchAux deref compare fuel [chain.cell c] (chain.cell c) none 0 := by
      intro fuel
      simp only [search, if_neg positive.ne', if_neg positive.not_gt]
    have found := chain.searchAux_found deref compare inside below
      ⟨defined t le_rfl below, zero⟩ (fun j after before => ⟨defined j after.le before,
        increasing t j after (by omega) zero.ge⟩) (fun j before => by
        rcases truncated j before with missing | present
        · exact .inl missing
        · refine .inr ⟨present, ?_⟩
          by_contra nonnegative
          have := increasing j t before (by omega) (by omega)
          omega)
      [chain.cell c]
    simp only [start]
    rw [pathIndices_eq_cons]
    simpa using found

theorem searchAux_nearest {i u : Nat} (inside : i ≤ chain.last) (start : u < i)
    (above : ∀ j, u < j → j < i → chain.Above deref compare j)
    (lower : deref (chain.ptr u) = some (chain.cell u) ∧ compare (chain.cell u).content < 0)
    (below : ∀ j < u, chain.Below deref compare j) (revPath : List (Cell Content Ptr)) :
    ∃ path, Returns (fun fuel => searchAux deref compare fuel revPath (chain.cell i) none 0)
      { revPath := path, lastCell := .nearest (chain.cell u) (some (chain.cell (u + 1))) } := by
  induction i using Nat.strong_induction_on generalizing revPath with
  | h i ih =>
    rcases Nat.eq_or_lt_of_le start with rfl | target
    · have ranks := rank_pos P (show 0 < u + 1 by omega)
      have first : pointed P (u + 1) 0 = u := by rw [pointed_zero]; omega
      refine ⟨chain.cell u :: revPath, of_succ fun fuel => ?_⟩
      rw [searchAux.eq_def]
      simp only [chain.backPointers_length inside, if_neg ranks.ne',
        chain.backPointerUnsafe_eq inside ranks, first, ok_bind, lower.1, if_neg lower.2.ne,
        if_neg lower.2.not_gt, if_true]
    · have smaller := closest_lt P target
      have higher := le_closest P target
      obtain ⟨path, rest⟩ := ih _ smaller (by omega) (by omega)
        (fun j after before => above j after (by omega)) (chain.cell (closest P i (u + 1)) :: revPath)
      refine ⟨path, chain.searchAux_hop deref compare inside target ?_ (fun _ => rest) ?_⟩
      · intro j before
        rcases Nat.lt_trichotomy j u with low | rfl | high
        · exact .inr (.inr ⟨by omega, below j low⟩)
        · exact .inr (.inr ⟨by omega, .inr lower⟩)
        · exact .inl ⟨high, above j high before⟩
      · intro reached
        exact absurd reached.2 (above _ (by omega) smaller).2.ne'

theorem exists_greatest_lower {c : Nat} (inside : c ≤ chain.last)
    (increasing : chain.Increasing compare) (nowhere : ∀ j ≤ c, compare (chain.cell j).content ≠ 0)
    (somewhere : ∃ j ≤ c, compare (chain.cell j).content < 0) :
    ∃ u ≤ c, compare (chain.cell u).content < 0 ∧ (∀ j, u < j → j ≤ c → 0 < compare (chain.cell j).content) ∧
      ∀ j < u, compare (chain.cell j).content < 0 := by
  obtain ⟨j, le, negative⟩ := somewhere
  have lower := Nat.findGreatest_spec (P := fun j => compare (chain.cell j).content < 0) le negative
  have greatest : ∀ k, Nat.findGreatest (fun j => compare (chain.cell j).content < 0) c < k →
      k ≤ c → ¬ compare (chain.cell k).content < 0 :=
    fun k after le => Nat.findGreatest_is_greatest after le
  have bound := Nat.findGreatest_le (P := fun j => compare (chain.cell j).content < 0) c
  generalize Nat.findGreatest (fun j => compare (chain.cell j).content < 0) c = u at *
  refine ⟨u, bound, lower, ?_, ?_⟩
  · intro j after le
    have := greatest j after le
    have := nowhere j le
    omega
  · intro j before
    by_contra nonnegative
    have := increasing j u before (by omega) (by omega)
    omega

end Chain

theorem search_follows_backPath (chain : Chain P Content Ptr) (deref : Ptr → Option (Cell Content Ptr))
    (compare : Content → Int) (increasing : chain.Increasing compare) (c : Nat) (inside : c ≤ chain.last) :
    (∀ t ≤ c, compare (chain.cell t).content = 0 →
      (∀ j, t ≤ j → j ≤ c → deref (chain.ptr j) = some (chain.cell j)) →
      (∀ j < t, deref (chain.ptr j) = none ∨ deref (chain.ptr j) = some (chain.cell j)) →
      ∃ revPath path, Returns (fun fuel => search deref compare fuel (chain.cell c))
          { revPath, lastCell := .found (chain.cell t) } ∧
        (∀ fuel, c - t < fuel → backPath P deref fuel (chain.ptr c) t = .ok (some path)) ∧
        path.map deref = revPath.reverse.map some) ∧ ((∀ j ≤ c, compare (chain.cell j).content ≠ 0) →
      (∃ j ≤ c, compare (chain.cell j).content < 0) → (∀ j ≤ c, deref (chain.ptr j) = some (chain.cell j)) →
      ∃ u ≤ c, compare (chain.cell u).content < 0 ∧
        (∀ j, u < j → j ≤ c → ¬ compare (chain.cell j).content < 0) ∧
        ∃ revPath, Returns (fun fuel => search deref compare fuel (chain.cell c))
          { revPath, lastCell := .nearest (chain.cell u)
              (if u = c then none else some (chain.cell (u + 1))) }) := by
  constructor
  · intro t target zero defined truncated
    refine ⟨_, _, chain.search_found deref compare inside target increasing zero
      (fun j higher lower => defined j higher lower.le) truncated,
      fun fuel enough => chain.backPath_eq deref inside target defined fuel enough, ?_⟩
    rw [List.reverse_reverse, List.map_map, List.map_map]
    apply List.map_congr_left
    intro j member
    obtain ⟨higher, lower⟩ := pathIndices_bounds target member
    exact defined j higher lower
  · intro nowhere somewhere total
    obtain ⟨u, le, lower, higher, below⟩ :=
      chain.exists_greatest_lower compare inside increasing nowhere somewhere
    refine ⟨u, le, lower, fun j after le' => (higher j after le').not_gt, ?_⟩
    rcases Nat.eq_or_lt_of_le le with rfl | start
    · exact ⟨[chain.cell u], of_succ fun fuel => by simp [search, lower, lower.ne]⟩
    · have positive := higher c start le_rfl
      obtain ⟨path, found⟩ := chain.searchAux_nearest deref compare inside start
        (fun j after before => ⟨total j before.le, higher j after before.le⟩)
        ⟨total u le, lower⟩ (fun j before => .inr ⟨total j (by omega), below j before⟩) [chain.cell c]
      refine ⟨path, ?_⟩
      simp only [search, if_neg positive.ne', if_neg positive.not_gt, if_neg start.ne]
      exact found

theorem countingChain_increasing (target : Int) :
    countingChain.Increasing fun content => (content : Int) - target := by
  intro i j before _ nonnegative
  change (0 : Int) ≤ (i : Int) - target at nonnegative
  change (0 : Int) < (j : Int) - target
  omega

/-- Cells 0 and 1 have been dropped from the store, and cell 2 is still found. -/
theorem countingChain_search :
    ∃ revPath path, Returns (fun fuel => search (fun p => if p < 2 then none else countingDeref p)
        (fun content => (content : Int) - 2) fuel (countingChain.cell 7))
        { revPath, lastCell := .found (countingChain.cell 2) } ∧
      (∀ fuel, 5 < fuel → backPath binary (fun p => if p < 2 then none else countingDeref p) fuel
        7 2 = .ok (some path)) ∧
      path.map (fun p => if p < 2 then none else countingDeref p) = revPath.reverse.map some := by
  refine (search_follows_backPath countingChain _ _ (countingChain_increasing 2) 7 (by decide)).1 2
    (by decide) (by decide) ?_ ?_
  · intro j higher lower
    exact (if_neg (show ¬ j < 2 by omega)).trans (countingDeref_defined j lower)
  · intro j before
    exact .inl (if_pos before)

end Octez.Proof.SkipList
