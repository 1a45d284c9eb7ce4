import Octez.Proof.Dal.Slots
import Octez.Proof.SkipList.Search

namespace Octez.Proof.Dal
open Octez.Lib Octez.SkipList Octez.RefutationProof Octez.DalSlot Octez.Proof.SkipList
open Octez.Proof.BoundedHistory

variable {T : DalTypes}
variable {H : HashFunctions T}

structure HeadersOf (numberOfSlots : Int) (publishedLevel : Nat) (headers : List T.Header) : Prop where
  level : ∀ header ∈ headers, header.id.publishedLevel = publishedLevel
  sorted : headers.Pairwise fun h1 h2 => h1.id.index < h2.id.index
  inside : ∀ header ∈ headers, 0 ≤ header.id.index ∧ header.id.index < numberOfSlots

section Contents
variable {numberOfSlots : Int} {publishedLevel : Nat} {headers : List T.Header}
  {levels : List (List T.Header)}

theorem contentAt_id (valid : HeadersOf numberOfSlots publishedLevel headers) (index : Int) :
    (contentAt publishedLevel headers index).contentId = ⟨publishedLevel, index⟩ := by
  unfold contentAt
  split
  · rename_i header found
    have level := valid.level header (List.mem_of_find?_eq_some found)
    have here := List.find?_some found
    rw [decide_eq_true_eq] at here
    rw [Content.contentId, ← level, ← here]
  · rfl

theorem contentAt_of_mem (sorted : headers.Pairwise fun h1 h2 => h1.id.index < h2.id.index)
    {header} (member : header ∈ headers) :
    contentAt publishedLevel headers header.id.index = .attested header := by
  induction headers with
  | nil => cases member
  | cons smallest headers ih =>
    obtain ⟨below, sorted⟩ := List.pairwise_cons.1 sorted
    rcases List.mem_cons.1 member with rfl | member
    · simp [contentAt]
    · rw [contentAt_cons_of_ne (below header member).ne]
      exact ih sorted member

theorem allContents_getElem? {k i : Nat} (found : levels[k]? = some headers)
    (inside : i < numberOfSlots.toNat) :
    (allContents numberOfSlots publishedLevel levels)[numberOfSlots.toNat * k + i]? =
      some (contentAt (publishedLevel + k) headers i) := by
  induction levels generalizing publishedLevel k with
  | nil => cases found
  | cons headers' levels ih =>
    cases k with
    | zero =>
      cases found
      rw [Nat.mul_zero, Nat.zero_add, allContents, List.getElem?_append_left (by rwa [levelContents_length])]
      simp [levelContents, range, inside]
    | succ k =>
      have later := @ih (publishedLevel + 1) k found
      rw [allContents, List.getElem?_append_right, levelContents_length, Nat.mul_succ]
      · have shift : numberOfSlots.toNat * k + numberOfSlots.toNat + i - numberOfSlots.toNat =
            numberOfSlots.toNat * k + i := by omega
        rw [shift, later, Nat.add_right_comm, Nat.add_assoc]
      · rw [levelContents_length, Nat.mul_succ]
        omega

end Contents

section Adding
variable [DecidableEq T.Commitment] [DecidableEq T.PointerHash]
variable {numberOfSlots : Int} (positive : 0 < numberOfSlots)

include positive in
theorem addConfirmedSlotHeaders_eq {publishedLevel : Nat} {headers : List T.Header}
    (valid : HeadersOf numberOfSlots publishedLevel headers) (state : T.State) :
    addConfirmedSlotHeaders H numberOfSlots state publishedLevel headers =
      (levelContents numberOfSlots publishedLevel headers).foldlM (addCell H numberOfSlots) state := by
  have checked : headers.forM (checkPublishedLevel publishedLevel :
      _ → T.Result Unit) = .ok () := by
    rw [forM_eq_ok]
    intro header member
    simp [checkPublishedLevel, valid.level header member]
  have ranged : (slotsRange numberOfSlots 0 (numberOfSlots - 1) :
      T.Result _) = .ok (range 0 (numberOfSlots - 1)) := by
    have last : 1 ≤ numberOfSlots := positive
    have below : numberOfSlots - 1 < numberOfSlots := by omega
    simp [slotsRange, checkIsInRange, positive, last, below]
  have increasing := range_increasing 0 (numberOfSlots - 1)
  have inside : ∀ header ∈ headers, header.id.index ∈ range 0 (numberOfSlots - 1) := by
    intro header member
    obtain ⟨above, below⟩ := valid.inside header member
    exact mem_range.2 ⟨above, Int.le_sub_one_of_lt below⟩
  obtain ⟨contents, filled⟩ : ∃ contents, (fillAux publishedLevel (range 0 (numberOfSlots - 1))
      headers : T.Result _) = .ok contents :=
    fillAux_returns increasing valid.sorted inside
  obtain ⟨rfl, -⟩ := fillAux_eq increasing filled
  rw [addConfirmedSlotHeaders, checked, ok_bind, fillSlotHeaders, ranged, ok_bind, filled, ok_bind,
    levelContents]

include positive in
theorem addLevels_eq {first : Nat} {levels : List (List T.Header)}
    (valid : ∀ k headers, levels[k]? = some headers → HeadersOf numberOfSlots (first + k) headers)
    (state : T.State) :
    addLevels H numberOfSlots first state levels =
      (allContents numberOfSlots first levels).foldlM (addCell H numberOfSlots) state := by
  induction levels generalizing first state with
  | nil => rfl
  | cons headers levels ih =>
    have here : HeadersOf numberOfSlots first headers := valid 0 headers rfl
    rw [addLevels, addConfirmedSlotHeaders_eq positive here, allContents, List.foldlM_append]
    congr 1
    funext state
    apply ih
    intro k headers' found
    have later := valid (k + 1) headers' found
    rwa [← Nat.add_assoc, Nat.add_right_comm] at later

end Adding

structure Consecutive (numberOfSlots : Int) (contents : List T.Content) : Prop where
  writable : ∀ content ∈ contents, Writable content
  genuine : ∀ content ∈ contents, content.contentId.publishedLevel ≠ genesisLevel
  ordered : ∀ i prev content, contents[i]? = some prev → contents[i + 1]? = some content →
    wellOrdered numberOfSlots prev.contentId content.contentId = true

def slotChain (injective : H.Injective) (contents : List T.Content) :
    Chain skipListParameters T.Content T.PointerHash :=
  merkleChain skipListParameters (cellHash injective) (fun i => contents.getD i Content.zero)
    (contents.length - 1)

variable {content : T.Content}

section Run
variable {injective : H.Injective} {numberOfSlots : Int} {contents : List T.Content} {i : Nat}

theorem slotChain_content (found : contents[i]? = some content) :
    ((slotChain injective contents).cell i).content = content := by
  change contents.getD i Content.zero = content
  rw [List.getD_eq_getElem?_getD, found, Option.getD_some]

theorem slotChain_cell_zero (found : contents[0]? = some content) :
    (slotChain injective contents).cell 0 = SkipList.genesis content := by
  apply Cell.ext
  · exact slotChain_content found
  · simp [slotChain, merkleChain, Chain.ofContents, SkipList.genesis, backPointersOf, rank]
  · rfl

theorem hash_slotChain (found : contents[i]? = some content) (writable : Writable content) :
    hash H ((slotChain injective contents).cell i) = .ok ((slotChain injective contents).ptr i) := by
  rw [hash_eq_ok injective, slotChain_content found]
  exact ⟨writable, hash_merkleChain_cell i⟩

/-- The state after the first `i` contents. The cache may have forgotten some cells. -/
structure Reached (injective : H.Injective) (contents : List T.Content) (i : Nat)
    (state : T.State) : Prop where
  head : state.1 = match i with
    | 0 => genesis
    | i + 1 => (slotChain injective contents).cell i
  numbered : 0 < state.2.capacity → ∃ start size, Numbered state.2 start size
  cached : ∀ ptr cell, state.2.events ptr = some cell → ∃ j < contents.length,
    ptr = (slotChain injective contents).ptr j ∧ cell = (slotChain injective contents).cell j

theorem Reached.genesis {capacity : Int} (int64 : capacity ≤ maxInt64) :
    Reached injective contents 0 (genesis, BoundedHistory.empty capacity) where
  head := rfl
  numbered := numbered_empty int64
  cached _ _ found := nomatch found

variable {state : T.State}

theorem Reached.snapshot
    (reached : Reached injective contents contents.length state) (cells : 0 < contents.length) :
    (slotChain injective contents).cell (slotChain injective contents).last = state.1 := by
  obtain ⟨last, length⟩ : ∃ last, contents.length = last + 1 := ⟨contents.length - 1, by omega⟩
  have head := reached.head
  change (slotChain injective contents).cell (contents.length - 1) = _
  rw [length] at head ⊢
  exact head.symm

variable [DecidableEq T.Commitment] [DecidableEq T.PointerHash]

theorem Reached.remember (reached : Reached injective contents i state) (inside : i < contents.length) :
    ∃ cache, (BoundedHistory.remember ((slotChain injective contents).ptr i)
        ((slotChain injective contents).cell i) state.2) = .ok cache ∧
      Reached injective contents (i + 1) ((slotChain injective contents).cell i, cache) := by
  have same : ∀ cell, state.2.events ((slotChain injective contents).ptr i) = some cell →
      cell = (slotChain injective contents).cell i := by
    intro cell found
    obtain ⟨j, -, same, rfl⟩ := reached.cached _ cell found
    rw [merklePtr_injective _ _ _ same]
  obtain ⟨cache, remembered, -, numbered, events⟩ := remember_returns reached.numbered same
  refine ⟨cache, remembered, rfl, numbered, ?_⟩
  intro ptr cell found
  rcases events ptr cell found with before | ⟨rfl, rfl⟩
  · exact reached.cached ptr cell before
  · exact ⟨i, inside, rfl, rfl⟩

theorem Reached.addCell (consecutive : Consecutive numberOfSlots contents)
    (found : contents[i]? = some content) (reached : Reached injective contents i state) :
    ∃ state', addCell H numberOfSlots state content = .ok state' ∧
      Reached injective contents (i + 1) state' := by
  obtain ⟨t, cache⟩ := state
  have head : ∃ ptr, hash H t = .ok ptr ∧ newHead numberOfSlots t ptr content =
      .ok ((slotChain injective contents).cell i) := by
    have here := reached.head
    cases i with
    | zero =>
      simp only at here
      subst here
      refine ⟨_, (hash_eq_ok injective).2 ⟨⟨le_rfl, show (0 : Int) < 2 ^ 8 by decide⟩, rfl⟩, ?_⟩
      rw [slotChain_cell_zero found]
      exact if_pos rfl
    | succ i =>
      simp only at here
      subst here
      obtain ⟨prev, before⟩ : ∃ prev, contents[i]? = some prev := by
        have bound := (List.getElem?_eq_some_iff.1 found).1
        exact ⟨_, List.getElem?_eq_getElem (by omega)⟩
      have genuine := consecutive.genuine prev (List.mem_of_getElem? before)
      refine ⟨_, hash_slotChain before (consecutive.writable prev (List.mem_of_getElem? before)), ?_⟩
      rw [newHead, slotChain_content before, if_neg genuine, DalSlot.next, slotChain_content before,
        consecutive.ordered i prev content before found, errorUnless_true, ok_bind]
      have step := next_merkleChain skipListParameters (cellHash injective)
        (fun i => contents.getD i Content.zero) (contents.length - 1) i
      rw [hash_merkleChain_cell, List.getD_eq_getElem?_getD, found, Option.getD_some] at step
      exact congrArg liftRun step
  obtain ⟨ptr, hashed, new⟩ := head
  have writable := consecutive.writable content (List.mem_of_getElem? found)
  obtain ⟨cache', remembered, reached'⟩ :=
    reached.remember (List.getElem?_eq_some_iff.1 found).1
  refine ⟨_, ?_, reached'⟩
  rw [addCell, hashed, liftRun_ok, ok_bind, new, ok_bind, hash_slotChain found writable,
    liftRun_ok, ok_bind, remembered, liftError_ok, ok_bind, pure_eq_ok]

end Run

section Levels
variable {numberOfSlots : Int} {first : Nat} {levels : List (List T.Header)}
variable (positive : 0 < numberOfSlots)
  (valid : ∀ k headers, levels[k]? = some headers → HeadersOf numberOfSlots (first + k) headers)

include positive valid

theorem allContents_id {j : Nat} (found : (allContents numberOfSlots first levels)[j]? = some content) :
    content.contentId = ⟨first + j / numberOfSlots.toNat, (j % numberOfSlots.toNat : Nat)⟩ := by
  have slots : 0 < numberOfSlots.toNat := by omega
  have bound := (List.getElem?_eq_some_iff.1 found).1
  rw [allContents_length] at bound
  obtain ⟨headers, level⟩ : ∃ headers, levels[j / numberOfSlots.toNat]? = some headers :=
    ⟨_, List.getElem?_eq_getElem (Nat.div_lt_of_lt_mul bound)⟩
  have here : (allContents numberOfSlots first levels)[_]? = _ :=
    allContents_getElem? level (Nat.mod_lt j slots)
  rw [Nat.div_add_mod, found, Option.some.injEq] at here
  rw [here]
  exact contentAt_id (valid _ _ level) _

theorem allContents_consecutive (byte : numberOfSlots ≤ 2 ^ 8) (genuine : 0 < first) :
    Consecutive numberOfSlots (allContents numberOfSlots first levels) where
  writable := by
    intro content member
    obtain ⟨j, found⟩ := List.mem_iff_getElem?.1 member
    have below := Nat.mod_lt j (show 0 < numberOfSlots.toNat by omega)
    rw [Writable, allContents_id positive valid found]
    simp only
    omega
  genuine := by
    intro content member
    obtain ⟨j, found⟩ := List.mem_iff_getElem?.1 member
    rw [allContents_id positive valid found]
    exact Nat.ne_of_gt (Nat.add_pos_left genuine _)
  ordered := by
    intro j prev content before after
    rw [allContents_id positive valid before, allContents_id positive valid after, wellOrdered]
    have slots : 0 < numberOfSlots.toNat := by omega
    have below := Nat.mod_lt j slots
    -- Either the next slot is of the same level, or it is the first one of the next level.
    rcases Nat.eq_or_lt_of_le (Nat.succ_le_of_lt below) with last | inside
    · have next : j + 1 = numberOfSlots.toNat * (j / numberOfSlots.toNat + 1) := by
        rw [Nat.mul_succ]
        have split := Nat.div_add_mod j numberOfSlots.toNat
        omega
      have index : (j % numberOfSlots.toNat : Nat) = numberOfSlots - 1 := by omega
      rw [next, Nat.mul_div_cancel_left _ slots, Nat.mul_mod_right, index]
      simp [Nat.add_assoc]
    · have next : j + 1 = numberOfSlots.toNat * (j / numberOfSlots.toNat) +
          (j % numberOfSlots.toNat + 1) := by
        have split := Nat.div_add_mod j numberOfSlots.toNat
        omega
      have level : (j + 1) / numberOfSlots.toNat = j / numberOfSlots.toNat := by
        rw [next, Nat.mul_add_div slots, Nat.div_eq_of_lt inside, Nat.add_zero]
      have index : (j + 1) % numberOfSlots.toNat = j % numberOfSlots.toNat + 1 := by
        rw [next, Nat.mul_add_mod, Nat.mod_eq_of_lt inside]
      rw [level, index]
      simp

end Levels

section Whole
variable {injective : H.Injective} {numberOfSlots : Int} {first : Nat} {levels : List (List T.Header)}

/-- The skip list with one cell for each slot of the levels, in order. -/
structure SlotHistory (H : HashFunctions T) (numberOfSlots : Int)
    (first : Nat) (levels : List (List T.Header))
    (chain : Chain skipListParameters T.Content T.PointerHash) : Prop where
  last : chain.last + 1 = numberOfSlots.toNat * levels.length
  hash : ∀ j ≤ chain.last, hash H (chain.cell j) = .ok (chain.ptr j)
  id : ∀ k < levels.length, ∀ i : Nat, i < numberOfSlots.toNat →
    (chain.cell (numberOfSlots.toNat * k + i)).content.contentId = ⟨first + k, i⟩
  attested : ∀ k headers, levels[k]? = some headers → ∀ header ∈ headers,
    (chain.cell (numberOfSlots.toNat * k + header.id.index.toNat)).content = .attested header
  unattested : ∀ k headers, levels[k]? = some headers → ∀ i : Nat, i < numberOfSlots.toNat →
    (∀ header ∈ headers, header.id.index ≠ (i : Int)) →
      (chain.cell (numberOfSlots.toNat * k + i)).content = .unattested ⟨first + k, i⟩

section
variable (positive : 0 < numberOfSlots) (byte : numberOfSlots ≤ 2 ^ 8) (genuine : 0 < first)
  (valid : ∀ k headers, levels[k]? = some headers → HeadersOf numberOfSlots (first + k) headers)
include positive byte genuine valid

theorem slotChain_slotHistory (nonempty : levels ≠ []) : SlotHistory H numberOfSlots first levels
    (slotChain injective (allContents numberOfSlots first levels)) where
  last := by
    have cells := allContents_length_pos positive first nonempty
    rw [allContents_length] at cells
    change (allContents numberOfSlots first levels).length - 1 + 1 = _
    rw [allContents_length]
    exact Nat.sub_add_cancel cells
  hash := by
    intro j inside
    have bound := Nat.lt_of_le_sub_one (allContents_length_pos positive first nonempty) inside
    have consecutive := allContents_consecutive positive valid byte genuine
    exact hash_slotChain (List.getElem?_eq_getElem bound) (consecutive.writable _ (List.getElem_mem bound))
  id := by
    intro k inside i slot
    have level := List.getElem?_eq_getElem inside
    rw [slotChain_content (allContents_getElem? level slot)]
    exact contentAt_id (valid k _ level) i
  attested := by
    intro k headers level header member
    obtain ⟨above, below⟩ := (valid k headers level).inside header member
    rw [slotChain_content (allContents_getElem? level (by omega)), Int.toNat_of_nonneg above]
    exact contentAt_of_mem (valid k headers level).sorted member
  unattested := by
    intro k headers level i slot absent
    rw [slotChain_content (allContents_getElem? level slot)]
    exact contentAt_eq_unattested absent

theorem addLevels_slotHistory [DecidableEq T.Commitment] [DecidableEq T.PointerHash] (injective : H.Injective)
    {capacity : Int} (int64 : capacity ≤ maxInt64) :
    ∃ snapshot cache, addLevels H numberOfSlots first
        (genesis, BoundedHistory.empty capacity) levels = .ok (snapshot, cache) ∧
      (levels ≠ [] → ∃ chain, SlotHistory H numberOfSlots first levels chain ∧
        chain.cell chain.last = snapshot) := by
  have consecutive := allContents_consecutive positive valid byte genuine
  obtain ⟨⟨snapshot, cache⟩, added, reached⟩ :=
    foldlM_returns (P := Reached injective (allContents numberOfSlots first levels))
      (Reached.genesis int64) fun i content state found reached => reached.addCell consecutive found
  refine ⟨snapshot, cache, ?_, ?_⟩
  · rw [addLevels_eq positive valid]
    exact added
  · intro nonempty
    exact ⟨_, slotChain_slotHistory positive byte genuine valid nonempty,
      reached.snapshot (allContents_length_pos positive first nonempty)⟩

end

section Search
variable {chain : Chain skipListParameters T.Content T.PointerHash}
  (history : SlotHistory H numberOfSlots first levels chain)
include history

theorem SlotHistory.cell_id {j : Nat} (inside : j ≤ chain.last) : (chain.cell j).content.contentId =
      ⟨first + j / numberOfSlots.toNat, (j % numberOfSlots.toNat : Nat)⟩ := by
  have last := history.last
  have bound : j < numberOfSlots.toNat * levels.length := by omega
  have slots : 0 < numberOfSlots.toNat := Nat.pos_of_mul_pos_right (Nat.zero_lt_of_lt bound)
  have id := history.id _ (Nat.div_lt_of_lt_mul bound) _ (Nat.mod_lt j slots)
  rwa [Nat.div_add_mod] at id

theorem SlotHistory.increasing (target : SlotId) : chain.Increasing (compareWithSlotId target) := by
  intro i j before inside
  simp only [compareWithSlotId, compareInt, history.cell_id (before.le.trans inside), history.cell_id inside]
  have level : i / numberOfSlots.toNat ≤ j / numberOfSlots.toNat := Nat.div_le_div_right before.le
  have splitI := Nat.div_add_mod i numberOfSlots.toNat
  have splitJ := Nat.div_add_mod j numberOfSlots.toNat
  rcases Nat.eq_or_lt_of_le level with same | later
  · rw [same] at splitI ⊢
    split_ifs <;> omega
  · split_ifs <;> omega

theorem SlotHistory.cell_le {k i : Nat} (inside : k < levels.length) (slot : i < numberOfSlots.toNat) :
    numberOfSlots.toNat * k + i ≤ chain.last := by
  have last := history.last
  have level := Nat.mul_le_mul_left numberOfSlots.toNat (Nat.succ_le_of_lt inside)
  rw [Nat.mul_succ] at level
  omega

theorem SlotHistory.search_found {deref}
    (total : ∀ j ≤ chain.last, deref (chain.ptr j) = some (chain.cell j)) {k i : Nat}
    (inside : k < levels.length) (slot : i < numberOfSlots.toNat) :
    ∃ path, Returns (fun fuel => search fuel deref (chain.cell chain.last) ⟨first + k, i⟩)
      ⟨path, .found (chain.cell (numberOfSlots.toNat * k + i))⟩ := by
  have target := history.cell_le inside slot
  have zero : compareWithSlotId ⟨first + k, i⟩
      (chain.cell (numberOfSlots.toNat * k + i)).content = 0 := by
    simp [compareWithSlotId, compareInt, history.id k inside i slot]
  exact ⟨_, chain.search_found deref _ le_rfl target (history.increasing _) zero
    (fun j _ before => total j before.le) (fun j before => .inr (total j (before.le.trans target)))⟩

end Search

variable [DecidableEq T.Commitment] [DecidableEq T.PointerHash]

theorem slot_history_gap_free (injective : H.Injective) (numberOfSlots : Int)
    (positive : 1 ≤ numberOfSlots) (byte : numberOfSlots ≤ 256) (first : Nat) (genuine : 1 ≤ first)
    (levels : List (List T.Header))
    (valid : ∀ k headers, levels[k]? = some headers → HeadersOf numberOfSlots (first + k) headers)
    (capacity : Int) (int64 : capacity ≤ maxInt64) :
    ∃ snapshot cache, addLevels H numberOfSlots first
        (DalSlot.genesis, BoundedHistory.empty capacity) levels = .ok (snapshot, cache) ∧
      (levels ≠ [] → ∃ chain, SlotHistory H numberOfSlots first levels chain ∧
        chain.cell chain.last = snapshot ∧
        ∀ deref, (∀ j ≤ chain.last, deref (chain.ptr j) = some (chain.cell j)) →
          ∀ k < levels.length, ∀ i : Nat, i < numberOfSlots.toNat → ∃ path,
            Returns (fun fuel => search fuel deref snapshot ⟨first + k, i⟩)
              ⟨path, .found (chain.cell (numberOfSlots.toNat * k + i))⟩) := by
  obtain ⟨snapshot, cache, added, gapless⟩ :=
    addLevels_slotHistory positive byte genuine valid injective int64
  refine ⟨snapshot, cache, added, ?_⟩
  intro nonempty
  obtain ⟨chain, history, rfl⟩ := gapless nonempty
  refine ⟨chain, history, rfl, ?_⟩
  intro deref total k inside i slot
  exact history.search_found total inside slot

theorem twoSlots_gap_free :
    slotHashes.Injective ∧ HeadersOf (T := slotTypes) 2 1 [⟨⟨1, 1⟩, 7⟩] ∧ HeadersOf 2 2 ([] : List slotTypes.Header) ∧
      ∃ snapshot cache, addLevels slotHashes 2 1 (DalSlot.genesis, BoundedHistory.empty 3)
          [[⟨⟨1, 1⟩, 7⟩], []] = .ok (snapshot, cache) ∧
        ∃ chain, SlotHistory slotHashes 2 1 [[⟨⟨1, 1⟩, 7⟩], []] chain ∧ chain.cell chain.last = snapshot := by
  have here : HeadersOf 2 1 [(⟨⟨1, 1⟩, 7⟩ : slotTypes.Header)] := ⟨by simp, by simp, by simp⟩
  have next : HeadersOf 2 2 ([] : List slotTypes.Header) := ⟨by simp, .nil, by simp⟩
  have valid : ∀ k headers, [[(⟨⟨1, 1⟩, 7⟩ : slotTypes.Header)], []][k]? = some headers →
      HeadersOf 2 (1 + k) headers := by
    intro k headers found
    rcases k with _ | _ | k
    · cases found
      exact here
    · cases found
      exact next
    · cases found
  obtain ⟨snapshot, cache, added, history⟩ := slot_history_gap_free slotHashes_injective 2
    (by decide) (by decide) 1 le_rfl _ valid 3 (by decide)
  obtain ⟨chain, slots, head, -⟩ := history (List.cons_ne_nil _ _)
  exact ⟨slotHashes_injective, here, next, snapshot, cache, added, chain, slots, head⟩

end Whole

section TooManySlots
variable [DecidableEq T.Commitment] [DecidableEq T.PointerHash] {numberOfSlots : Int}

omit [DecidableEq T.Commitment] [DecidableEq T.PointerHash] in
theorem newHead_content {t head} {ptr : T.PointerHash}
    (h : newHead numberOfSlots t ptr content = .ok head) : head.content = content := by
  unfold newHead at h
  split at h
  · cases h
    rfl
  · obtain ⟨-, h⟩ := unit_bind_eq_ok.1 h
    obtain ⟨backPointers, -, h⟩ := bind_eq_ok.1 (liftRun_eq_ok.1 h)
    cases h
    rfl

variable {state result : T.State}

theorem addCell_writable (injective : H.Injective)
    (h : addCell H numberOfSlots state content = .ok result) : Writable content := by
  obtain ⟨ptr, -, h⟩ := bind_eq_ok.1 h
  obtain ⟨head, new, h⟩ := bind_eq_ok.1 h
  obtain ⟨_, hashed, -⟩ := bind_eq_ok.1 h
  rw [← newHead_content new]
  exact ((hash_eq_ok injective).1 (liftRun_eq_ok.1 hashed)).1

theorem addCells_writable (injective : H.Injective) {contents : List T.Content}
    (h : contents.foldlM (addCell H numberOfSlots) state = .ok result) :
    ∀ content ∈ contents, Writable content := by
  induction contents generalizing state with
  | nil => exact fun _ member => nomatch member
  | cons content contents ih =>
    obtain ⟨mid, stepped, h⟩ := bind_eq_ok.1 h
    exact List.forall_mem_cons.2 ⟨addCell_writable injective stepped, ih h⟩

/-- The last slot of a level with 257 slots cannot be hashed. -/
theorem manySlots_raises :
    HeadersOf 257 1 ([] : List slotTypes.Header) ∧ ∀ capacity state,
      addConfirmedSlotHeaders slotHashes 257 (DalSlot.genesis, BoundedHistory.empty capacity) 1 [] ≠
        .ok state := by
  refine ⟨⟨by simp, .nil, by simp⟩, ?_⟩
  intro capacity state returned
  obtain ⟨-, -, folded⟩ := addConfirmedSlotHeaders_eq_ok returned
  have last : mkUnattested 1 256 ∈ levelContents 257 1 ([] : List slotTypes.Header) :=
    List.mem_map_of_mem (mem_range.2 ⟨by decide, by decide⟩)
  exact absurd (addCells_writable slotHashes_injective folded _ last).2 (by decide)

end TooManySlots

end Octez.Proof.Dal
