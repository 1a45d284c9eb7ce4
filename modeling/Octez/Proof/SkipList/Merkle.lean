import Octez.Proof.SkipList.BackPath

namespace Octez.Proof.SkipList
open Octez.Lib Octez.SkipList

variable {Content Ptr : Type}

/-- A collision-free hash of the content and the back pointers of a cell. -/
structure CellHash (Content Ptr : Type) where
  hash : Cell Content Ptr → Ptr
  hash_eq_iff : ∀ cell cell', hash cell = hash cell' ↔
    cell.content = cell'.content ∧ cell.backPointers = cell'.backPointers

section Pointers
variable (P : Parameters) (H : CellHash Content Ptr) (contents : Nat → Content)

def merklePtr : Nat → Ptr
  | 0 => H.hash (genesis (contents 0))
  | i + 1 => H.hash ⟨contents (i + 1),
      (List.range (rank P (i + 1))).map fun k => merklePtr (pointed P (i + 1) k), i + 1⟩
termination_by i => i
decreasing_by exact pointed_lt P (Nat.succ_pos i)

theorem merklePtr_eq (i : Nat) :
    merklePtr P H contents i = H.hash ⟨contents i, backPointersOf P (merklePtr P H contents) i, i⟩ := by
  cases i with
  | zero => rw [merklePtr, genesis, backPointersOf, rank, if_pos rfl, List.range_zero, List.map_nil]
  | succ i => rw [merklePtr, backPointersOf]

theorem merklePtr_injective : Function.Injective (merklePtr P H contents) := by
  intro i
  -- Equal hashes have equal back pointers, the first of which is the hash of the predecessor.
  induction i with
  | zero =>
    intro j equal
    rw [merklePtr_eq, merklePtr_eq P H contents j, H.hash_eq_iff] at equal
    have lengths := congrArg List.length equal.2
    simp only [backPointersOf_length] at lengths
    by_contra different
    have := rank_pos P (Nat.pos_of_ne_zero (Ne.symm different))
    have := rank_le P 0
    omega
  | succ i ih =>
    intro j equal
    rw [merklePtr_eq, merklePtr_eq P H contents j, H.hash_eq_iff] at equal
    have first := congrArg (·[0]?) equal.2
    simp only [backPointersOf_getElem?, Nat.pow_zero, pointed_zero] at first
    rw [if_pos (by omega)] at first
    split at first
    · have := ih (Option.some.inj first)
      omega
    · cases first

theorem merklePtr_congr {contents' : Nat → Content} {i : Nat}
    (same : ∀ j ≤ i, contents j = contents' j) : merklePtr P H contents i = merklePtr P H contents' i := by
  induction i using Nat.strongRecOn with
  | _ i ih =>
    have pointers : backPointersOf P (merklePtr P H contents) i =
        backPointersOf P (merklePtr P H contents') i := by
      apply List.map_congr_left
      intro k member
      rcases Nat.eq_zero_or_pos i with rfl | positive
      · simp [rank] at member
      · have smaller := pointed_lt P (k := k) positive
        exact ih _ smaller fun j le => same j (le.trans smaller.le)
    rw [merklePtr_eq, merklePtr_eq P H contents', same i le_rfl, pointers]

def merkleChain (last : Nat) : Chain P Content Ptr :=
  .ofContents P contents (merklePtr P H contents) (merklePtr_injective P H contents) last

end Pointers

def ContentAddressed (H : CellHash Content Ptr) (deref : Ptr → Option (Cell Content Ptr)) : Prop :=
  ∀ ptr cell, deref ptr = some cell → H.hash cell = ptr

section MerkleChain
variable {P : Parameters} {H : CellHash Content Ptr} {contents : Nat → Content} {last i : Nat}

theorem hash_merkleChain_cell (i : Nat) :
    H.hash ((merkleChain P H contents last).cell i) = (merkleChain P H contents last).ptr i :=
  (merklePtr_eq P H contents i).symm

theorem next_merkleChain (P : Parameters) (H : CellHash Content Ptr) (contents : Nat → Content)
    (last i : Nat) :
    next P ((merkleChain P H contents last).cell i)
        (H.hash ((merkleChain P H contents last).cell i)) (contents (i + 1)) =
      .ok ((merkleChain P H contents last).cell (i + 1)) := by
  rw [hash_merkleChain_cell]
  exact next_eq P (merklePtr P H contents) ((merkleChain P H contents last).cell i) rfl (contents (i + 1))

theorem merkleChain_cell_congr (P : Parameters) (H : CellHash Content Ptr)
    {contents contents' : Nat → Content} (same : ∀ j ≤ i, contents j = contents' j) (last last' : Nat) :
    (merkleChain P H contents last).cell i = (merkleChain P H contents' last').cell i := by
  apply Cell.ext
  · exact same i le_rfl
  · apply List.map_congr_left
    intro k member
    rcases Nat.eq_zero_or_pos i with rfl | positive
    · simp [rank] at member
    · have smaller := pointed_lt P (k := k) positive
      exact merklePtr_congr P H contents fun j le => same j (le.trans smaller.le)
  · rfl

variable [DecidableEq Ptr] {deref : Ptr → Option (Cell Content Ptr)} {targetPtr : Ptr} {path : List Ptr}

theorem validPath_sound (addressed : ContentAddressed H deref) {targetIndex index : Nat} {powers : List Nat}
    (inside : i ≤ last) (valid : validPath deref targetPtr targetIndex powers index
      ((merkleChain P H contents last).ptr i) path = .ok true) :
    ∃ j ≤ i, targetPtr = (merkleChain P H contents last).ptr j := by
  induction path generalizing i index with
  | nil =>
    simp only [validPath, Except.ok.injEq, Bool.and_eq_true, decide_eq_true_eq] at valid
    exact ⟨i, le_rfl, valid.1⟩
  | cons hop path ih =>
    rw [validPath] at valid
    split at valid
    · cases valid
    · rename_i cell found
      split at valid
      · cases valid
      · split at valid
        · rename_i member
          obtain ⟨bestIdx, -, valid⟩ := bind_eq_ok.1 valid
          split at valid
          · cases valid
          · split at valid
            · have known := addressed _ _ found
              rw [← hash_merkleChain_cell, H.hash_eq_iff] at known
              rw [known.2] at member
              obtain ⟨j, smaller, rfl⟩ := (merkleChain P H contents last).mem_backPointers inside member
              obtain ⟨k, le, reached⟩ := ih (smaller.le.trans inside) valid
              exact ⟨k, le.trans smaller.le, reached⟩
            · cases valid
        · cases valid

theorem validBackPath_sound (addressed : ContentAddressed H deref) (inside : i ≤ last)
    (valid : validBackPath P deref ((merkleChain P H contents last).ptr i) targetPtr path =
      .ok true) :
    ∃ j ≤ i, targetPtr = (merkleChain P H contents last).ptr j := by
  unfold validBackPath at valid
  split at valid
  · cases valid
  · split at valid
    · cases valid
    · cases path with
      | nil => cases valid
      | cons first path =>
        simp only at valid
        split at valid
        · exact validPath_sound addressed inside valid
        · cases valid

end MerkleChain

end Octez.Proof.SkipList
