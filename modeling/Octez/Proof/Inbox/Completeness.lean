import Octez.Proof.Inbox.Histories
import Octez.Proof.Inbox.Verification
import Octez.Proof.SkipList.Search

namespace Octez.Proof.Inbox
open Octez.Lib Octez.SkipList Octez.Inbox Octez.Proof.SkipList Octez.Proof.BoundedHistory PayloadHashes

section Path
variable {P : Parameters} {Content Ptr : Type} (chain : Chain P Content Ptr)

def pathCells (t c : Nat) : List (Cell Content Ptr) := (pathIndices P t c).map chain.cell

theorem pathCells_getLast {t c : Nat} (target : t ≤ c) :
    (pathCells chain t c).getLast? = some (chain.cell t) := by
  rw [pathCells, List.getLast?_map, getLast_pathIndices target]
  rfl

theorem validBackPath_pathCells [DecidableEq Ptr] {hash}
    (hashed : ∀ i, chain.ptr i = hash (chain.cell i)) {t c : Nat} (inside : c ≤ chain.last) (target : t ≤ c) :
    validBackPath P (hashMapOf hash (pathCells chain t c)) (hash (chain.cell c))
      (hash (chain.cell t)) ((pathCells chain t c).map hash) = .ok true := by
  have ptrs : (pathCells chain t c).map hash = (pathIndices P t c).map chain.ptr := by
    rw [pathCells, List.map_map]
    exact List.map_congr_left fun i _ => (hashed i).symm
  rw [ptrs, ← hashed, ← hashed]
  apply chain.validBackPath_of_path _ inside target
  intro j member
  rw [hashed]
  apply hashMapOf_of_mem hash (List.mem_map_of_mem member)
  intro cell other same
  obtain ⟨k, member', rfl⟩ := List.mem_map.1 other
  rw [← hashed, ← hashed] at same
  have below := (pathIndices_bounds target member).2.trans inside
  have below' := (pathIndices_bounds target member').2.trans inside
  rw [chain.ptr_injOn below' below same]

end Path

variable {T : InboxTypes} [DecidableEq T.PayloadsHash] {H : HashFunctions T}
  {I : InternalMessages T.Payload}

section Payloads
variable (injective : H.Injective) (level : Level T.Payload)

def honestPayloadsProof (n : Nat) : PayloadsProof T where
  proof := pathCells (levelChain injective level) (min n level.lastIndex) level.lastIndex
  payload := level.messages[n]?

theorem verifyPayloadsProof_honest [DecidableEq T.MessageHash] {n : Nat} (inside : n ≤ level.lastIndex + 1) :
    verifyPayloadsProof H (honestPayloadsProof injective level n)
        ((levelChain injective level).ptr level.lastIndex) n = .ok level.messages[n]? := by
  have target := Nat.min_le_right n level.lastIndex
  have verified := (payloadHashes_verifyProof_eq_ok_iff H).2 ⟨by rw [pathCells, pathIndices_eq_cons]; rfl,
    pathCells_getLast _ target, validBackPath_pathCells _ (levelChain_ptr injective level) le_rfl target⟩
  refine (verifyPayloadsProof_eq_ok_iff H).2 ⟨_, _, verified, levelChain_ptr injective level _, ?_⟩
  rcases Nat.lt_or_ge level.lastIndex n with past | before
  · obtain rfl : n = level.lastIndex + 1 := by omega
    have absent : level.messages[level.lastIndex + 1]? = none := by
      simp [Level.messages, Level.lastIndex]
    rw [Nat.min_eq_right (Nat.le_succ _)]
    exact .inl ⟨rfl, absent, rfl, absent⟩
  · obtain ⟨payload, present⟩ : ∃ payload, level.messages[n]? = some payload :=
      ⟨_, List.getElem?_eq_getElem (Nat.lt_succ_of_le before)⟩
    rw [Nat.min_eq_left before]
    exact .inr ⟨before, rfl, payload, present, (message_of_content injective before).2 present, present⟩

omit [DecidableEq T.PayloadsHash] in
theorem liftPtr_pathCells {history} {t i : Nat} (target : t ≤ i) (acc : List T.Merkelized)
    (kept : ∀ j ≤ i, BoundedHistory.find ((levelChain injective level).ptr j) history =
      some (payloadEntry injective level j)) :
    liftPtr history acc
        ((pathIndices skipListParameters t i).map (levelChain injective level).ptr) =
      some (payloadEntry injective level t, acc.reverse ++ pathCells (levelChain injective level) t i) := by
  induction i using Nat.strong_induction_on generalizing acc with
  | h i ih =>
    rcases Nat.eq_or_lt_of_le target with rfl | below
    · simp [liftPtr, pathCells, kept t le_rfl, payloadEntry]
    · have smaller := closest_lt skipListParameters below
      have higher := le_closest skipListParameters below
      have rest := ih _ smaller higher ((levelChain injective level).cell i :: acc)
        fun j le => kept j (by omega)
      rw [pathCells, pathIndices_of_lt below, pathIndices_eq_cons, List.map_cons, List.map_cons,
        liftPtr, ← List.map_cons, ← pathIndices_eq_cons]
      · simp only [deref, kept i le_rfl, Option.bind_eq_bind, Option.bind_some,
          Option.pure_def, payloadEntry, rest]
        simp [pathCells]
      · simp

variable {level} (capacity : Int)

theorem find_levelHistory {i : Nat} (inside : i ≤ level.lastIndex) :
    BoundedHistory.find ((levelChain injective level).ptr i)
        (levelHistory injective level capacity (level.lastIndex + 1)) =
      some (payloadEntry injective level i) := by
  refine find_upTo ?_ (Nat.lt_succ_of_le inside)
  intro j before k before' same
  exact (levelChain injective level).ptr_injOn (Nat.le_of_lt_succ before) (Nat.le_of_lt_succ before') same

theorem payloadHashes_produceProof_eq {fuel t : Nat} (target : t ≤ level.lastIndex)
    (enough : level.lastIndex < fuel) :
    PayloadHashes.produceProof H fuel (levelHistory injective level capacity (level.lastIndex + 1))
        t ((levelChain injective level).cell level.lastIndex) = .ok (some (payloadEntry injective level t,
        pathCells (levelChain injective level) t level.lastIndex)) := by
  have path := (levelChain injective level).backPath_eq
    (deref (levelHistory injective level capacity (level.lastIndex + 1)))
    (le_refl level.lastIndex) target (fun j _ le => by rw [deref, find_levelHistory injective capacity le]; rfl)
    fuel (by omega)
  have lifted := liftPtr_pathCells injective level target []
    fun j le => find_levelHistory injective capacity le
  rw [PayloadHashes.produceProof, ← levelChain_ptr]
  refine (bind_of_eq_ok path _).trans ?_
  rw [Option.bind_some, pure_eq_ok, lifted]
  rfl

theorem producePayloadsProof_eq {fuel n : Nat} {getPayloadsHistory : T.PayloadsHash → T.PayloadsHistory}
    (kept : getPayloadsHistory ((levelChain injective level).ptr level.lastIndex) =
      levelHistory injective level capacity (level.lastIndex + 1)) (enough : level.lastIndex < fuel) :
    producePayloadsProof H fuel getPayloadsHistory
        ((levelChain injective level).ptr level.lastIndex) n =
      .ok (honestPayloadsProof injective level n) := by
  have produced := payloadHashes_produceProof_eq injective capacity
    (Nat.min_le_right n level.lastIndex) enough
  simp only [producePayloadsProof, kept, find_levelHistory injective capacity le_rfl, payloadEntry, ok_bind,
    levelChain_index, produced, liftRun_ok, pure_eq_ok]
  rcases Nat.lt_or_ge level.lastIndex n with past | before
  · have absent : level.messages[n]? = none := List.getElem?_eq_none past
    rw [if_neg (by omega), honestPayloadsProof, absent]
  · have present : level.messages[n]? = some (level.messages.getD n level.first) := by
      rw [List.getD_eq_getElem?_getD, List.getElem?_eq_getElem (Nat.lt_succ_of_le before)]
      rfl
    rw [if_pos (Nat.min_eq_left before), honestPayloadsProof, present, Nat.min_eq_left before]

end Payloads

section Levels
variable (injective : H.Injective) (contents : Contents T.Payload) [DecidableEq T.InboxHash] {t : Nat}

omit [DecidableEq T.PayloadsHash] in
theorem produceInclusionProof_returns (capacity : Int) (target : t ≤ contents.later.length) :
    Returns (fun fuel => (produceInclusionProof fuel
        (fun ptr => BoundedHistory.find ptr (upTo capacity (inboxChain I injective contents).ptr
          (inboxChain I injective contents).cell contents.later.length))
        ((inboxChain I injective contents).cell contents.later.length)
        (contents.genesisLevel + t) : T.Result _))
      (pathCells (inboxChain I injective contents) t contents.later.length,
        (inboxChain I injective contents).cell t) := by
  have distinct : Set.InjOn (inboxChain I injective contents).ptr
      (Set.Iio contents.later.length) :=
    (inboxChain I injective contents).ptr_injOn.mono Set.Iio_subset_Iic_self
  have increasing : (inboxChain I injective contents).Increasing fun levelProof =>
      (levelProof.level : Int) - (contents.genesisLevel + t : Nat) := by
    intro i j before _ nonnegative
    simp only [inboxChain_content] at nonnegative ⊢
    omega
  obtain ⟨bound, found⟩ := (inboxChain I injective contents).search_found
    (fun ptr => BoundedHistory.find ptr (upTo capacity (inboxChain I injective contents).ptr
      (inboxChain I injective contents).cell contents.later.length)) _ (le_refl contents.later.length)
    target increasing
    (by simp [inboxChain_content]) (fun j _ before => find_upTo distinct before)
    (fun j before => .inr (find_upTo distinct (before.trans_le target)))
  refine ⟨bound, ?_⟩
  intro fuel enough
  have run := found fuel enough
  beta_reduce at run
  simp only [produceInclusionProof, run, liftRun_ok, ok_bind, List.reverse_reverse, pure_eq_ok]
  rfl

end Levels

/-- The message of index `n` of level `l`. After the last one the reading goes on at level `l + 1`,
or stops at the level of the snapshot. -/
def expectedInput (I : InternalMessages T.Payload) (contents : Contents T.Payload) (snapshotLevel : Nat)
    (l n : Nat) : Option (InboxMessage T.Payload) :=
  match (contents.levelMessages I (l - contents.genesisLevel)).messages[n]? with
  | some payload => some ⟨l, n, payload⟩
  | none => if l = snapshotLevel then none else some ⟨l + 1, 0, I.startOfLevelSerialized⟩

section Complete
variable [DecidableEq T.InboxHash]

theorem readInput_eq_expectedInput (injective : H.Injective) (contents : Contents T.Payload) (t n : Nat) :
    readInput I (contents.genesisLevel + t) n ((inboxChain I injective contents).cell contents.later.length)
        ((inboxChain I injective contents).cell t) (contents.levelMessages I t).messages[n]? =
      expectedInput I contents (contents.genesisLevel + contents.later.length)
        (contents.genesisLevel + t) n := by
  have same : (inboxChain I injective contents).cell contents.later.length =
      (inboxChain I injective contents).cell t ↔
        contents.genesisLevel + t = contents.genesisLevel + contents.later.length := by
    constructor
    · intro equal
      rw [← inboxChain_index I injective contents t, ← equal, inboxChain_index]
    · intro equal
      rw [Nat.add_left_cancel equal]
  rw [expectedInput, Nat.add_sub_cancel_left]
  cases (contents.levelMessages I t).messages[n]? with
  | some payload => rfl
  | none => simp only [readInput, same]

theorem produceProof_complete [DecidableEq T.Payload] [DecidableEq T.MessageHash] (injective : H.Injective)
    (contents : Contents T.Payload) (capacity : Int) (payloadsCapacity : List T.Payload → Int)
    (large : LargeEnough I contents capacity payloadsCapacity) (stored : Stored T)
    (built : store H I payloadsCapacity capacity contents = .ok stored) (getPayloadsHistory :
      T.PayloadsHash → T.PayloadsHistory)
    (kept : ∀ entry ∈ stored.payloadsHistories, getPayloadsHistory entry.1 = entry.2) (l n : Nat)
    (lower : contents.genesisLevel ≤ l) (upper : l ≤ stored.inbox.level)
    (inside : n ≤ (contents.levelMessages I (l - contents.genesisLevel)).messages.length) :
    ∃ proof, Returns (fun fuel => produceProof H I fuel getPayloadsHistory
          (fun ptr => BoundedHistory.find ptr stored.history) (takeSnapshot stored.inbox) l n)
        (proof, expectedInput I contents stored.inbox.level l n) ∧
      verifyProof H I l n (takeSnapshot stored.inbox) proof =
        .ok (expectedInput I contents stored.inbox.level l n) := by
  rw [store_eq injective large, Except.ok.injEq] at built
  subst built
  obtain ⟨t, rfl⟩ := Nat.exists_eq_add_of_le lower
  have target : t ≤ contents.later.length := Nat.le_of_add_le_add_left upper
  rw [Nat.add_sub_cancel_left] at inside
  have input := readInput_eq_expectedInput (I := I) injective contents t n
  have history := kept
    (levelHash I injective contents t, payloadsHistory I injective contents payloadsCapacity t)
    (List.mem_map.2 ⟨t, List.mem_range.2 (Nat.lt_succ_of_le target), rfl⟩)
  obtain ⟨bound, included⟩ :=
    produceInclusionProof_returns (I := I) injective contents capacity target
  refine ⟨⟨pathCells (inboxChain I injective contents) t contents.later.length,
      honestPayloadsProof injective (contents.levelMessages I t) n⟩,
    ⟨bound + (contents.levelMessages I t).lastIndex + 1, ?_⟩, ?_⟩
  · intro fuel enough
    have found := included fuel (by omega)
    have produced := producePayloadsProof_eq injective _ history (n := n) (show _ < fuel by omega)
    refine (bind_of_eq_ok found _).trans ?_
    refine (bind_of_eq_ok produced _).trans ?_
    exact congrArg (fun input => Except.ok (_, input)) input
  · have included := validBackPath_pathCells _ (inboxChain_ptr I injective contents) le_rfl target
    exact (verifyProof_eq_ok_iff H I).2 ⟨_, _,
      (verifyInclusionProof_eq_ok_iff H).2 ⟨pathCells_getLast _ target, included⟩,
      verifyPayloadsProof_honest injective _ inside, input.symm⟩

end Complete

theorem twoLevels_largeEnough :
    LargeEnough (T := symbolicTypes) symbolicMessages twoLevels 1 fun payloads => payloads.length + 2 where
  levels := by decide
  levels_int64 := by decide
  payloads i _ := by
    simp only [Level.messages, Contents.levelMessages, List.length_cons, List.length_append, List.length_nil]
    omega
  payloads_int64 i inside := by
    rcases Nat.le_one_iff_eq_zero_or_eq_one.1 inside with rfl | rfl
    · decide
    · decide

theorem levelHash_twoLevels_ne :
    levelHash symbolicMessages symbolicHashes_injective twoLevels 1 ≠
      levelHash symbolicMessages symbolicHashes_injective twoLevels 0 := by
  obtain ⟨head, built, hashed⟩ := exists_head symbolicMessages symbolicHashes_injective twoLevels 0
  obtain ⟨head', built', hashed'⟩ :=
    exists_head symbolicMessages symbolicHashes_injective twoLevels 1
  cases built
  cases built'
  rw [← hashed, ← hashed']
  decide

def twoLevelsStored : Stored symbolicTypes :=
  storedAt symbolicMessages symbolicHashes_injective twoLevels 1 (fun payloads => payloads.length + 2) 1

def twoLevelsPayloads (hash : Digest) : symbolicTypes.PayloadsHistory :=
  payloadsHistory symbolicMessages symbolicHashes_injective twoLevels (fun payloads => payloads.length + 2)
    (if hash = levelHash symbolicMessages symbolicHashes_injective twoLevels 0 then 0 else 1)

theorem twoLevels_complete :
    store symbolicHashes symbolicMessages (fun payloads => payloads.length + 2) 1 twoLevels =
      .ok twoLevelsStored ∧
    ∃ proof, Returns (fun fuel => produceProof symbolicHashes symbolicMessages fuel twoLevelsPayloads
          (fun ptr => BoundedHistory.find ptr twoLevelsStored.history)
          (takeSnapshot twoLevelsStored.inbox) 5 4) (proof, some ⟨6, 0, 0⟩) ∧
      verifyProof symbolicHashes symbolicMessages 5 4 (takeSnapshot twoLevelsStored.inbox) proof =
        .ok (some ⟨6, 0, 0⟩) := by
  refine (and_iff_left_of_imp fun built => ?_).2 (store_eq symbolicHashes_injective twoLevels_largeEnough)
  refine produceProof_complete symbolicHashes_injective twoLevels 1 _ twoLevels_largeEnough
    twoLevelsStored built twoLevelsPayloads ?_ 5 4 (by decide) (by decide) (by decide)
  intro entry member
  obtain ⟨i, inside, rfl⟩ := List.mem_map.1 member
  rcases Nat.le_one_iff_eq_zero_or_eq_one.1 (Nat.le_of_lt_succ (List.mem_range.1 inside)) with
    rfl | rfl
  · rw [twoLevelsPayloads, if_pos rfl]
  · rw [twoLevelsPayloads, if_neg levelHash_twoLevels_ne]

end Octez.Proof.Inbox
