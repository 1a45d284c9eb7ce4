import Octez.Proof.Dal.Slots

namespace Octez.Proof.Dal
open Octez.Lib Octez.SkipList Octez.RefutationProof Octez.DalSlot Octez.Proof.SkipList

variable {T : DalTypes}
variable {H : HashFunctions T} (injective : H.Injective)

/-- A skip list whose contents were all added, after its dummy genesis cell was replaced. -/
def BuiltFrom (added : List T.Content) (t : T.History) : Prop :=
  (added = [] ∧ t = DalSlot.genesis) ∨ ∃ contents last, t = headOf injective (contents ++ [last]) ∧
      ∀ content ∈ contents ++ [last], content ∈ added

section Built
variable {injective} {numberOfSlots : Int} {added : List T.Content}
  {t t' : T.History} {cache cache' : T.HistoryCache} {contents : List T.Content} {content : T.Content}

theorem BuiltFrom.extend {last : T.Content} (inside : ∀ earlier ∈ contents ++ [last], earlier ∈ added ∨
      last.contentId.publishedLevel = genesisLevel) :
    BuiltFrom injective (added ++ [content]) (headOf injective (extend contents last content)) := by
  unfold Dal.extend
  split
  · exact .inr ⟨[], content, rfl, by simp⟩
  · rename_i genuine
    refine .inr ⟨contents ++ [last], content, rfl, ?_⟩
    intro earlier member
    rcases List.mem_append.1 member with member | here
    · exact List.mem_append_left _ ((inside earlier member).resolve_right genuine)
    · exact List.mem_append_right _ here

variable [DecidableEq T.Commitment] [DecidableEq T.PointerHash]

theorem BuiltFrom.addCell (built : BuiltFrom injective added t)
    (h : addCell H numberOfSlots (t, cache) content = .ok (t', cache')) :
    BuiltFrom injective (added ++ [content]) t' := by
  rcases built with ⟨rfl, rfl⟩ | ⟨contents, last, rfl, inside⟩
  · rw [DalSlot.genesis, ← headOf_singleton injective] at h
    have head : t' = headOf injective (Dal.extend [] .zero content) :=
      addCell_eq_ok injective h
    rw [head]
    exact .extend fun _ _ => .inr rfl
  · rw [addCell_eq_ok injective h]
    exact .extend fun earlier member => .inl (inside earlier member)

theorem BuiltFrom.addCells (built : BuiltFrom injective added t)
    (h : contents.foldlM (DalSlot.addCell H numberOfSlots) (t, cache) = .ok (t', cache')) :
    BuiltFrom injective (added ++ contents) t' := by
  induction contents generalizing added t cache with
  | nil =>
    cases h
    rwa [List.append_nil]
  | cons content contents ih =>
    obtain ⟨⟨mid, midCache⟩, stepped, h⟩ := bind_eq_ok.1 h
    have rest := ih (built.addCell stepped) h
    rwa [List.append_assoc] at rest

theorem BuiltFrom.addLevels {publishedLevel : Nat} {levels : List (List T.Header)}
    (built : BuiltFrom injective added t)
    (h : addLevels H numberOfSlots publishedLevel (t, cache) levels = .ok (t', cache')) :
    BuiltFrom injective (added ++ allContents numberOfSlots publishedLevel levels) t' := by
  induction levels generalizing publishedLevel added t cache with
  | nil =>
    cases h
    rwa [allContents, List.append_nil]
  | cons headers levels ih =>
    obtain ⟨⟨mid, midCache⟩, stepped, h⟩ := bind_eq_ok.1 h
    obtain ⟨-, -, folded⟩ := addConfirmedSlotHeaders_eq_ok stepped
    have rest := ih (built.addCells folded) h
    rwa [List.append_assoc] at rest

end Built

section Added
variable {numberOfSlots : Int} {publishedLevel : Nat} {levels : List (List T.Header)}

theorem mem_allContents {content} (member : content ∈ allContents numberOfSlots publishedLevel levels) :
    ∃ k headers, levels[k]? = some headers ∧
      content ∈ levelContents numberOfSlots (publishedLevel + k) headers := by
  induction levels generalizing publishedLevel with
  | nil => cases member
  | cons headers levels ih =>
    rcases List.mem_append.1 member with here | later
    · exact ⟨0, headers, rfl, here⟩
    · obtain ⟨k, headers', found, inside⟩ := ih later
      refine ⟨k + 1, headers', found, ?_⟩
      rwa [Nat.add_right_comm] at inside

variable {headers : List T.Header}

theorem addLevels_published [DecidableEq T.Commitment] [DecidableEq T.PointerHash] {H : HashFunctions T}
    {state result} {k : Nat} (h : addLevels H numberOfSlots publishedLevel state levels = .ok result)
    (found : levels[k]? = some headers) :
    0 < numberOfSlots ∧ ∀ header ∈ headers, header.id.publishedLevel = publishedLevel + k := by
  induction levels generalizing publishedLevel state k with
  | nil => cases found
  | cons headers' levels ih =>
    obtain ⟨mid, stepped, h⟩ := bind_eq_ok.1 h
    obtain ⟨positive, published, -⟩ := addConfirmedSlotHeaders_eq_ok stepped
    cases k with
    | zero =>
      cases found
      exact ⟨positive, published⟩
    | succ k =>
      obtain ⟨_, published'⟩ := ih h found
      refine ⟨positive, ?_⟩
      intro header member
      rw [published' header member]
      omega

end Added

section Inclusion

variable [DecidableEq T.PointerHash] {assoc : List (T.PointerHash × T.History)}

theorem mem_of_mapOfAssoc {ptr : T.PointerHash} {cell}
    (found : mapOfAssoc assoc ptr = some cell) : (ptr, cell) ∈ assoc := by
  induction assoc using List.reverseRecOn with
  | nil => cases found
  | append_singleton assoc last ih =>
    rw [mapOfAssoc, List.foldl_append, List.foldl_cons, List.foldl_nil, Map.add_apply] at found
    split at found
    · rename_i here
      cases found
      rw [here]
      exact List.mem_append_right _ List.mem_cons_self
    · exact List.mem_append_left _ (ih found)

variable {incProof : List T.History}

theorem mapOfAssoc_contentAddressed (hashed : incProof.mapM (hashCell H) = .ok assoc) :
    ContentAddressed (cellHash injective) (mapOfAssoc assoc) := by
  intro ptr cell found
  obtain ⟨cell', -, h⟩ := exists_of_mapM_eq_ok hashed (mem_of_mapOfAssoc found)
  obtain ⟨ptr', hash, h⟩ := bind_eq_ok.1 h
  cases h
  exact ((hash_eq_ok injective).1 hash).2

theorem verifyInclusionProof_sound {contents} (nonempty : contents ≠ []) {target}
    (h : verifyInclusionProof H incProof (headOf injective contents) target = .ok ()) :
    target.content ∈ contents := by
  obtain ⟨assoc, hashed, h⟩ := bind_eq_ok.1 h
  obtain ⟨snapshotPtr, snapshot, h⟩ := bind_eq_ok.1 h
  obtain ⟨targetPtr, targeted, h⟩ := bind_eq_ok.1 h
  obtain ⟨valid, path, h⟩ := bind_eq_ok.1 h
  rw [liftRun_eq_ok] at hashed snapshot targeted path
  rw [errorUnless_eq_ok.1 h] at path
  obtain ⟨-, rfl⟩ := (hash_eq_ok injective).1 snapshot
  obtain ⟨-, rfl⟩ := (hash_eq_ok injective).1 targeted
  rw [headOf, hash_merkleChain_cell] at path
  obtain ⟨j, inside, reached⟩ :=
    validBackPath_sound (mapOfAssoc_contentAddressed injective hashed) le_rfl path
  rw [← hash_merkleChain_cell, (cellHash injective).hash_eq_iff] at reached
  rw [reached.1]
  have bound : j < contents.length := by
    have positive := List.length_pos_iff.2 nonempty
    omega
  change contents.getD j Content.zero ∈ contents
  rw [List.getD_eq_getElem?_getD, List.getElem?_eq_getElem bound]
  exact List.getElem_mem bound

end Inclusion

def AddedAttested (first : Nat) (levels : List (List T.Header)) (header : T.Header) : Prop :=
  ∃ k headers, levels[k]? = some headers ∧ header ∈ headers ∧ header.id.publishedLevel = first + k

def AddedUnattested (numberOfSlots : Int) (first : Nat) (levels : List (List T.Header))
    (slotId : SlotId) : Prop :=
  ∃ k headers, levels[k]? = some headers ∧ slotId.publishedLevel = first + k ∧
    (0 ≤ slotId.index ∧ slotId.index < numberOfSlots) ∧ ∀ header ∈ headers, header.id ≠ slotId

section Pages
variable {box : Cryptobox T} {dalParams : CryptoboxParameters} {data : Octets} {pageId : PageId}

theorem checkPageProof_eq_ok {proof : T.PageProof} {commitment : T.Commitment}
    (h : (checkPageProof box dalParams proof data pageId commitment : T.Result Unit) = .ok ()) :
    ∃ dal, box.make dalParams = .ok dal ∧
      box.verifyPage dal commitment pageId.pageIndex data proof = .ok true := by
  unfold checkPageProof at h
  cases made : box.make dalParams with
  | error reason =>
    rw [made] at h
    cases h
  | ok dal =>
    rw [made] at h
    refine ⟨dal, rfl, ?_⟩
    simp only at h
    split at h
    · assumption
    all_goals cases h

/-- What `verifyProofRepr` has established when it returns. -/
inductive Verified (box : Cryptobox T) (dalParams : CryptoboxParameters)
    (pageId : PageId) : T.Content → Option Octets → Prop
  | unattested : Verified box dalParams pageId (.unattested pageId.slotId) none
  | attested {header : T.Header} {data : Octets} {dal : T.Dal} {pageProof : T.PageProof}
      (id : header.id = pageId.slotId) (made : box.make dalParams = .ok dal)
      (verified :
        box.verifyPage dal header.commitment pageId.pageIndex data pageProof = .ok true) :
      Verified box dalParams pageId (.attested header) (some data)

variable [DecidableEq T.PointerHash] {snapshot : T.History} {proof : T.ProofRepr} {result : Option Octets}

theorem verifyProofRepr_eq_ok (h : verifyProofRepr box H dalParams pageId snapshot proof = .ok result) :
    verifyInclusionProof H proof.incProof snapshot proof.targetCell = .ok () ∧
      Verified box dalParams pageId proof.targetCell.content result := by
  obtain ⟨level, h⟩ := unit_bind_eq_ok.1 h
  obtain ⟨index, h⟩ := unit_bind_eq_ok.1 h
  obtain ⟨included, h⟩ := unit_bind_eq_ok.1 h
  refine ⟨included, ?_⟩
  have id : proof.targetCell.content.contentId = pageId.slotId := by
    rw [errorUnless_eq_ok, decide_eq_true_eq] at level index
    cases shown : proof.targetCell.content.contentId
    rw [shown] at level index
    cases target : pageId.slotId
    rw [target] at level index
    cases level
    cases index
    rfl
  cases content : proof.targetCell.content with
  | unattested slotId =>
    rw [content] at h id
    cases id
    cases proof with
    | pageConfirmed => cases h
    | pageUnconfirmed =>
      cases h
      exact .unattested
  | attested header =>
    rw [content] at h id
    cases proof with
    | pageUnconfirmed => cases h
    | pageConfirmed targetCell incProof pageData pageProof =>
      obtain ⟨checked, h⟩ := unit_bind_eq_ok.1 h
      cases h
      obtain ⟨dal, made, verified⟩ := checkPageProof_eq_ok checked
      exact .attested id made verified

variable [DecidableEq T.Commitment]

include injective in
theorem verified_content_added {numberOfSlots : Int} {first : Nat}
    {levels : List (List T.Header)} {cache cache' : T.HistoryCache}
    (built : addLevels H numberOfSlots first (DalSlot.genesis, cache) levels = .ok (snapshot, cache'))
    (h : verifyProofRepr box H dalParams pageId snapshot proof = .ok result) :
    ∃ content, Verified box dalParams pageId content result ∧
      (content ∈ allContents numberOfSlots first levels ∨ levels = [] ∧ content = .zero) := by
  obtain ⟨included, verified⟩ := verifyProofRepr_eq_ok h
  refine ⟨_, verified, ?_⟩
  have start : BuiltFrom injective [] DalSlot.genesis := .inl ⟨rfl, rfl⟩
  rcases start.addLevels built with ⟨nothing, rfl⟩ | ⟨contents, last, rfl, inside⟩
  · rw [DalSlot.genesis, ← headOf_singleton injective] at included
    have zero := verifyInclusionProof_sound injective (List.cons_ne_nil _ _) included
    refine .inr ⟨?_, List.mem_singleton.1 zero⟩
    cases levels with
    | nil => rfl
    | cons headers levels =>
      have positive := (addLevels_published built (k := 0) rfl).1
      have cells := allContents_length_pos positive first (List.cons_ne_nil headers levels)
      exact absurd nothing (List.ne_nil_of_length_pos cells)
  · exact .inl (inside _ (verifyInclusionProof_sound injective (by simp) included))

section Verified
variable {dalParams : CryptoboxParameters} {numberOfSlots : Int} {first : Nat}
  {levels : List (List T.Header)} {cache cache' : T.HistoryCache} {snapshot : T.History} {pageId : PageId}
  {proof : T.ProofRepr}
variable (built : addLevels H numberOfSlots first (DalSlot.genesis, cache) levels = .ok (snapshot, cache'))

include injective built

theorem addedAttested_of_verified
    (h : verifyProofRepr box H dalParams pageId snapshot proof = .ok (some data)) :
    ∃ header dal pageProof, AddedAttested first levels header ∧ header.id = pageId.slotId ∧
      box.make dalParams = .ok dal ∧
      box.verifyPage dal header.commitment pageId.pageIndex data pageProof = .ok true := by
  obtain ⟨content, verified, added⟩ := verified_content_added injective built h
  cases verified with
  | attested id made verified =>
    rename_i header dal pageProof
    rcases added with added | ⟨-, zero⟩
    · obtain ⟨k, headers, found, inside⟩ := mem_allContents added
      obtain ⟨index, -, attested⟩ := List.mem_map.1 inside
      unfold contentAt at attested
      split at attested
      rotate_left
      · cases attested
      rename_i chosen
      cases attested
      have member := List.mem_of_find?_eq_some chosen
      have level := (addLevels_published built found).2 header member
      exact ⟨header, dal, pageProof, ⟨k, headers, found, member, level⟩, id, made, verified⟩
    · cases zero

theorem addedUnattested_of_verified (h : verifyProofRepr box H dalParams pageId snapshot proof = .ok none) :
    AddedUnattested numberOfSlots first levels pageId.slotId ∨
      levels = [] ∧ Content.unattested pageId.slotId = (Content.zero : T.Content) := by
  obtain ⟨content, verified, added⟩ := verified_content_added injective built h
  cases verified with
  | unattested =>
    rcases added with added | zero
    · obtain ⟨k, headers, found, inside⟩ := mem_allContents added
      obtain ⟨index, inside, unattested⟩ := List.mem_map.1 inside
      unfold contentAt at unattested
      split at unattested
      · cases unattested
      · rename_i absent
        obtain ⟨above, below⟩ := mem_range.1 inside
        refine .inl ⟨k, headers, found, ?_⟩
        rw [← Content.unattested.inj unattested]
        refine ⟨rfl, ⟨above, Int.lt_of_le_sub_one below⟩, ?_⟩
        intro header member same
        have different := List.find?_eq_none.1 absent header member
        simp [same] at different
    · exact .inr zero

end Verified

/-- The snapshot is built by the protocol; the proof is the prover's. -/
theorem page_proofs_sound (injective : H.Injective) (box : Cryptobox T)
    (dalParams : CryptoboxParameters) (numberOfSlots : Int) (first : Nat)
    (levels : List (List T.Header)) (cache cache' : T.HistoryCache) (snapshot : T.History)
    (built : addLevels H numberOfSlots first (DalSlot.genesis, cache) levels =
      .ok (snapshot, cache')) (pageId : PageId) (proof : T.ProofRepr) :
    (∀ data, verifyProofRepr box H dalParams pageId snapshot proof = .ok (some data) →
      ∃ header dal pageProof, AddedAttested first levels header ∧ header.id = pageId.slotId ∧
        box.make dalParams = .ok dal ∧
        box.verifyPage dal header.commitment pageId.pageIndex data pageProof = .ok true) ∧
    (verifyProofRepr box H dalParams pageId snapshot proof = .ok none →
      AddedUnattested numberOfSlots first levels pageId.slotId ∨
        levels = [] ∧ Content.unattested pageId.slotId = (Content.zero : T.Content)) := by
  refine ⟨?_, ?_⟩
  · intro data returned
    exact addedAttested_of_verified injective built returned
  · intro returned
    exact addedUnattested_of_verified injective built returned

end Pages

section Instance

def attestedSlot : slotTypes.Header := ⟨⟨1, 0⟩, 1⟩

def attestedCell : slotTypes.History := ⟨.attested attestedSlot, [], 0⟩

def unattestedCell : slotTypes.History :=
  ⟨.unattested ⟨2, 0⟩, [(cellHash slotHashes_injective).hash attestedCell], 1⟩

def byteBox : Cryptobox slotTypes where
  make _ := .ok ()
  verifyPage _ commitment _ data _ := .ok (decide (data = [UInt8.ofNat commitment]))

theorem twoLevels_page_proofs :
    slotHashes.Injective ∧
      (addLevels slotHashes 1 1 (DalSlot.genesis, BoundedHistory.empty 0) [[attestedSlot], []] =
        .ok (unattestedCell, BoundedHistory.empty 0)) ∧
      verifyProofRepr byteBox slotHashes ⟨1, 1⟩ ⟨⟨1, 0⟩, 0⟩ unattestedCell
        (.pageConfirmed attestedCell [unattestedCell, attestedCell] [1] ()) = .ok (some [1]) ∧
      verifyProofRepr byteBox slotHashes ⟨1, 1⟩ ⟨⟨2, 0⟩, 0⟩ unattestedCell
        (.pageUnconfirmed unattestedCell [unattestedCell]) = .ok none ∧
      (∃ header dal pageProof, AddedAttested 1 [[attestedSlot], []] header ∧
        header.id = ⟨1, 0⟩ ∧ byteBox.make ⟨1, 1⟩ = .ok dal ∧
        byteBox.verifyPage dal header.commitment 0 [1] pageProof = .ok true) ∧
      (AddedUnattested 1 1 [[attestedSlot], []] ⟨2, 0⟩ ∨ [[attestedSlot], []] = [] ∧
        Content.unattested ⟨2, 0⟩ = (Content.zero : slotTypes.Content)) := by
  refine ⟨slotHashes_injective, (and_iff_left_of_imp fun built => ?_).2 rfl⟩
  exact ⟨rfl, rfl, (page_proofs_sound slotHashes_injective byteBox ⟨1, 1⟩ 1 1 _ _ _ _ built ⟨⟨1, 0⟩, 0⟩
      (.pageConfirmed attestedCell [unattestedCell, attestedCell] [1] ())).1 [1] rfl,
    (page_proofs_sound slotHashes_injective byteBox ⟨1, 1⟩ 1 1 _ _ _ _ built ⟨⟨2, 0⟩, 0⟩
      (.pageUnconfirmed unattestedCell [unattestedCell])).2 rfl⟩

end Instance

end Octez.Proof.Dal
