import Octez.Lib.Digest
import Octez.Model.DalSlot
import Octez.Proof.BoundedHistory
import Octez.Proof.SkipList.Merkle

namespace Octez.Proof.Dal
open Octez.Lib Octez.RefutationProof Octez.DalSlot Octez.Proof.SkipList

variable {T : DalTypes}

def contentAt (publishedLevel : Nat) (headers : List T.Header) (index : Int) : T.Content :=
  match headers.find? fun header => header.id.index = index with
  | some header => .attested header
  | none => mkUnattested publishedLevel index

section Fill
variable {publishedLevel : Nat} {headers : List T.Header} {indices : List Int} {index : Int}

theorem contentAt_cons_of_ne {header} (other : header.id.index ≠ index) :
    contentAt publishedLevel (header :: headers) index = contentAt publishedLevel headers index := by
  simp [contentAt, other]

theorem contentAt_eq_unattested (absent : ∀ header ∈ headers, header.id.index ≠ index) :
    contentAt publishedLevel headers index = mkUnattested publishedLevel index := by
  have none : headers.find? (fun header => header.id.index = index) = none := by
    rw [List.find?_eq_none]
    intro header member
    simpa using absent header member
  rw [contentAt, none]

theorem fillAux_eq {contents} (increasing : indices.Pairwise (· < ·))
    (h : (fillAux publishedLevel indices headers : T.Result (List T.Content)) = .ok contents) :
    contents = indices.map (contentAt publishedLevel headers) ∧
      ∀ header ∈ headers, header.id.index ∈ indices := by
  induction indices generalizing headers contents with
  | nil =>
    cases headers with
    | nil =>
      cases h
      simp
    | cons header headers => cases h
  | cons i indices ih =>
    obtain ⟨smallest, increasing⟩ := List.pairwise_cons.1 increasing
    cases headers with
    | nil =>
      cases h
      exact ⟨rfl, by simp⟩
    | cons header headers =>
      rw [fillAux] at h
      split_ifs at h with here later
      · obtain ⟨rest, looped, h⟩ := bind_eq_ok.1 h
        cases h
        obtain ⟨rfl, inside⟩ := ih increasing looped
        refine ⟨?_, ?_⟩
        · rw [List.map_cons]
          congr 1
          · simp [contentAt, here]
          · apply List.map_congr_left
            intro j member
            have above := smallest j member
            exact (contentAt_cons_of_ne (by omega)).symm
        · intro header' member
          rcases List.mem_cons.1 member with rfl | member
          · rw [here]
            exact List.mem_cons_self
          · exact List.mem_cons_of_mem _ (inside header' member)
      · obtain ⟨rest, looped, h⟩ := bind_eq_ok.1 h
        cases h
        obtain ⟨rfl, inside⟩ := ih increasing looped
        refine ⟨?_, fun header' member => List.mem_cons_of_mem _ (inside header' member)⟩
        rw [List.map_cons, contentAt_eq_unattested]
        intro header' member
        exact (smallest _ (inside header' member)).ne'
      · cases h

theorem fillAux_returns (increasing : indices.Pairwise (· < ·))
    (sorted : headers.Pairwise fun h1 h2 => h1.id.index < h2.id.index)
    (inside : ∀ header ∈ headers, header.id.index ∈ indices) :
    ∃ contents, (fillAux publishedLevel indices headers : T.Result (List T.Content)) = .ok contents := by
  induction indices generalizing headers with
  | nil =>
    cases headers with
    | nil => exact ⟨_, rfl⟩
    | cons header headers => cases inside header List.mem_cons_self
  | cons i indices ih =>
    obtain ⟨smallest, increasing⟩ := List.pairwise_cons.1 increasing
    cases headers with
    | nil => exact ⟨_, rfl⟩
    | cons header headers =>
      obtain ⟨first, sorted'⟩ := List.pairwise_cons.1 sorted
      rw [fillAux]
      by_cases here : i = header.id.index
      · obtain ⟨rest, looped⟩ := ih increasing sorted' fun header' member => by
          have after := first header' member
          rcases List.mem_cons.1 (inside header' (List.mem_cons_of_mem _ member)) with
            same | within
          · omega
          · exact within
        rw [if_pos here, bind_of_eq_ok looped]
        exact ⟨_, rfl⟩
      · have within : ∀ header' ∈ header :: headers, header'.id.index ∈ indices := by
          intro header' member
          rcases List.mem_cons.1 (inside header' member) with same | within
          · rcases List.mem_cons.1 member with rfl | member
            · exact absurd same.symm here
            · have after := first header' member
              rcases List.mem_cons.1 (inside header List.mem_cons_self) with same' | within'
              · exact absurd same'.symm here
              · have above := smallest _ within'
                omega
          · exact within
        have later := smallest _ (within header List.mem_cons_self)
        obtain ⟨rest, looped⟩ := ih increasing sorted within
        rw [if_neg here, if_pos later, bind_of_eq_ok looped]
        exact ⟨_, rfl⟩

end Fill

def Writable (content : T.Content) : Prop :=
  0 ≤ content.contentId.index ∧ content.contentId.index < 2 ^ 8

section Cells
variable {H : HashFunctions T} (injective : H.Injective)

def cellHash {H : HashFunctions T} (injective : H.Injective) : CellHash T.Content T.PointerHash where
  hash cell := H.pointerHashBytes
    (H.contentToBytes cell.content :: cell.backPointers.map H.pointerHashToBytes)
  hash_eq_iff cell cell' := by
    constructor
    · intro equal
      obtain ⟨content, pointers⟩ := List.cons.inj (injective.pointerHashBytes equal)
      exact ⟨injective.contentToBytes content, List.map_injective_iff.2 injective.pointerHashToBytes pointers⟩
    · rintro ⟨content, pointers⟩
      rw [content, pointers]

theorem hash_eq_ok {cell} {ptr : T.PointerHash} :
    DalSlot.hash H cell = .ok ptr ↔ Writable cell.content ∧ (cellHash injective).hash cell = ptr := by
  unfold DalSlot.hash contentToBytesExn Writable
  split
  · rename_i writable
    exact ⟨fun h => ⟨writable, Except.ok.inj h⟩, fun both => congrArg Except.ok both.2⟩
  · rename_i outside
    exact ⟨fun h => (nomatch h), fun both => absurd both.1 outside⟩

variable (contents : List T.Content)

def headOf : T.History :=
  (merkleChain skipListParameters (cellHash injective) (fun i => contents.getD i Content.zero)
    (contents.length - 1)).cell (contents.length - 1)

theorem headOf_singleton (content : T.Content) : headOf injective [content] = SkipList.genesis content := by
  simp [headOf, merkleChain, Chain.ofContents, SkipList.genesis, backPointersOf, rank]

theorem headOf_content {contents} {last} : (headOf injective (contents ++ [last])).content = last := by
  simp [headOf, merkleChain, Chain.ofContents]

theorem next_headOf (last content : T.Content) :
    SkipList.next skipListParameters (headOf injective (contents ++ [last]))
        ((cellHash injective).hash (headOf injective (contents ++ [last]))) content =
      .ok (headOf injective (contents ++ [last] ++ [content])) := by
  have before : headOf injective (contents ++ [last]) =
      (merkleChain skipListParameters (cellHash injective)
        (fun i => (contents ++ [last] ++ [content]).getD i Content.zero)
        (contents.length + 1)).cell contents.length := by
    rw [headOf, List.length_append, List.length_singleton, Nat.add_sub_cancel]
    apply merkleChain_cell_congr
    intro j le
    have earlier : (contents ++ [last] ++ [content])[j]? = (contents ++ [last])[j]? :=
      List.getElem?_append_left (by simp; omega)
    rw [List.getD_eq_getElem?_getD, List.getD_eq_getElem?_getD, earlier]
  have step := next_merkleChain skipListParameters (cellHash injective)
    (fun i => (contents ++ [last] ++ [content]).getD i Content.zero) (contents.length + 1) contents.length
  rw [before]
  have new : (contents ++ [last] ++ [content]).getD (contents.length + 1) Content.zero = content := by
    simp
  rw [new] at step
  rw [step, headOf]
  simp

def extend (last content : T.Content) : List T.Content :=
  if last.contentId.publishedLevel = genesisLevel then [content] else contents ++ [last] ++ [content]

variable {head : T.History} {last content : T.Content} {numberOfSlots : Int}

variable [DecidableEq T.Commitment] [DecidableEq T.PointerHash]

theorem addCell_eq_ok {contents} {cache cache'}
    (h : addCell H numberOfSlots (headOf injective (contents ++ [last]), cache) content =
      .ok (head, cache')) :
    head = headOf injective (extend contents last content) := by
  obtain ⟨ptr, hashed, h⟩ := bind_eq_ok.1 h
  obtain ⟨head', new, h⟩ := bind_eq_ok.1 h
  obtain ⟨_, -, h⟩ := bind_eq_ok.1 h
  obtain ⟨_, -, h⟩ := bind_eq_ok.1 h
  cases h
  obtain ⟨-, rfl⟩ := (hash_eq_ok injective).1 (liftRun_eq_ok.1 hashed)
  rw [newHead, headOf_content] at new
  unfold extend
  split
  · rename_i dummy
    rw [if_pos dummy] at new
    cases new
    exact (headOf_singleton injective content).symm
  · rename_i genuine
    rw [if_neg genuine] at new
    obtain ⟨-, new⟩ := unit_bind_eq_ok.1 new
    rw [next_headOf, liftRun_ok] at new
    cases new
    rfl

end Cells

section Contents

def levelContents (numberOfSlots : Int) (publishedLevel : Nat) (headers : List T.Header) : List T.Content :=
  (range 0 (numberOfSlots - 1)).map (contentAt publishedLevel headers)

def allContents (numberOfSlots : Int) : Nat → List (List T.Header) → List T.Content
  | _, [] => []
  | publishedLevel, headers :: levels =>
    levelContents numberOfSlots publishedLevel headers ++
      allContents numberOfSlots (publishedLevel + 1) levels

theorem mem_range {lower upper i : Int} : i ∈ range lower upper ↔ lower ≤ i ∧ i ≤ upper := by
  simp only [range, List.mem_map, List.mem_range]
  constructor
  · rintro ⟨k, bound, rfl⟩
    omega
  · rintro ⟨above, below⟩
    exact ⟨(i - lower).toNat, by omega, by omega⟩

theorem range_increasing (lower upper : Int) : (range lower upper).Pairwise (· < ·) := by
  apply List.Pairwise.map _ _ List.pairwise_lt_range
  omega

variable {numberOfSlots : Int} {publishedLevel : Nat} {headers : List T.Header}
  {levels : List (List T.Header)}

theorem levelContents_length :
    (levelContents numberOfSlots publishedLevel headers).length = numberOfSlots.toNat := by
  simp [levelContents, range]

theorem allContents_length : (allContents numberOfSlots publishedLevel levels).length =
      numberOfSlots.toNat * levels.length := by
  induction levels generalizing publishedLevel with
  | nil => rfl
  | cons headers levels ih =>
    rw [allContents, List.length_append, ih, levelContents_length, List.length_cons, Nat.mul_succ,
      Nat.add_comm]

theorem allContents_length_pos (positive : 0 < numberOfSlots) (publishedLevel : Nat)
    (nonempty : levels ≠ []) : 0 < (allContents numberOfSlots publishedLevel levels).length := by
  rw [allContents_length]
  exact Nat.mul_pos (by omega) (List.length_pos_iff.2 nonempty)

end Contents

section Levels
variable [DecidableEq T.Commitment] [DecidableEq T.PointerHash]
variable (H : HashFunctions T)

def addLevels (numberOfSlots : Int) (publishedLevel : Nat) (state : T.State) :
    List (List T.Header) → T.Result T.State
  | [] => .ok state
  | headers :: levels => do
    let state ← addConfirmedSlotHeaders H numberOfSlots state publishedLevel headers
    addLevels numberOfSlots (publishedLevel + 1) state levels

theorem addConfirmedSlotHeaders_eq_ok {H : HashFunctions T} {numberOfSlots : Int}
    {publishedLevel : Nat} {headers} {state result}
    (h : addConfirmedSlotHeaders H numberOfSlots state publishedLevel headers =
      .ok result) :
    0 < numberOfSlots ∧ (∀ header ∈ headers, header.id.publishedLevel = publishedLevel) ∧
      (levelContents numberOfSlots publishedLevel headers).foldlM (addCell H numberOfSlots) state =
        .ok result := by
  obtain ⟨checked, h⟩ := unit_bind_eq_ok.1 h
  obtain ⟨contents, filled, h⟩ := bind_eq_ok.1 h
  obtain ⟨indices, ranged, filled⟩ := bind_eq_ok.1 filled
  obtain ⟨first, ranged⟩ := unit_bind_eq_ok.1 ranged
  obtain ⟨-, ranged⟩ := unit_bind_eq_ok.1 ranged
  cases ranged
  obtain ⟨rfl, -⟩ := fillAux_eq (range_increasing _ _) filled
  refine ⟨?_, ?_, h⟩
  · unfold checkIsInRange at first
    simpa using first
  · intro header member
    have level := forM_eq_ok.1 checked header member
    simpa using (of_decide_eq_true (errorUnless_eq_ok.1 level)).symm

end Levels

def digestOfInt : Int → Digest
  | .ofNat n => .atom n
  | .negSucc n => .cons .nil (.atom n)

def digestOfSlotId (slotId : SlotId) : Digest :=
  .cons (.atom slotId.publishedLevel) (digestOfInt slotId.index)

def digestOfContent : Content Nat → Digest
  | .unattested slotId => .cons .nil (digestOfSlotId slotId)
  | .attested header => .cons (.atom header.commitment) (digestOfSlotId header.id)

abbrev slotTypes : DalTypes := ⟨Nat, Digest, Digest, Unit, Unit⟩

def slotHashes : HashFunctions slotTypes where
  contentToBytes := digestOfContent
  pointerHashToBytes := id
  pointerHashBytes := .ofList

theorem digestOfInt_injective : Function.Injective digestOfInt := by
  intro i j equal
  cases i <;> cases j <;> cases equal <;> rfl

theorem digestOfSlotId_injective : Function.Injective digestOfSlotId := by
  rintro ⟨level, index⟩ ⟨level', index'⟩ equal
  obtain ⟨sameLevel, sameIndex⟩ := Digest.cons.inj equal
  cases sameLevel
  cases digestOfInt_injective sameIndex
  rfl

theorem slotHashes_injective : slotHashes.Injective where
  contentToBytes := by
    intro content content' equal
    cases content <;> cases content' <;> obtain ⟨kind, id⟩ := Digest.cons.inj equal
    · rw [digestOfSlotId_injective id]
    · cases kind
    · cases kind
    · rename_i header header'
      cases header
      cases header'
      cases kind
      cases digestOfSlotId_injective id
      rfl
  pointerHashToBytes := Function.injective_id
  pointerHashBytes := Digest.ofList_injective

end Octez.Proof.Dal
