import Octez.Model.DalPagesRequest
import Octez.Proof.Dal.Gapless
import Octez.Proof.Dal.Soundness

namespace Octez.Proof.Dal
open Octez.Lib Octez.SkipList Octez.RefutationProof Octez.DalSlot Octez.Proof.SkipList

section
variable {T : DalTypes} [DecidableEq T.PointerHash]
variable {H : HashFunctions T} {numberOfSlots : Int} {first t : Nat} {levels : List (List T.Header)}
  {chain : Chain skipListParameters T.Content T.PointerHash}

theorem mapOfAssoc_of_mem {assoc} {ptr : T.PointerHash} {cell : T.History} (member : (ptr, cell) ∈ assoc)
    (unique : ∀ cell', (ptr, cell') ∈ assoc → cell' = cell) : mapOfAssoc assoc ptr = some cell := by
  cases found : mapOfAssoc assoc ptr with
  | some cell' => rw [unique cell' (mem_of_mapOfAssoc found)]
  | none =>
    exfalso
    induction assoc using List.reverseRecOn with
    | nil => cases member
    | append_singleton assoc last ih =>
      rw [mapOfAssoc, List.foldl_append, List.foldl_cons, List.foldl_nil, Map.add_apply] at found
      split at found
      · cases found
      · rename_i other
        rcases List.mem_append.1 member with earlier | here
        · exact ih earlier (fun cell' inside => unique cell' (List.mem_append_left _ inside)) found
        · rw [List.mem_singleton] at here
          exact other (by rw [← here])

omit [DecidableEq T.PointerHash] in
theorem mapM_hashCell_slotHistory (history : SlotHistory H numberOfSlots first levels chain)
    {indices : List Nat} (inside : ∀ j ∈ indices, j ≤ chain.last) :
    (indices.map chain.cell).mapM (hashCell H) = .ok (indices.map fun j => (chain.ptr j, chain.cell j)) := by
  induction indices with
  | nil => rfl
  | cons j indices ih =>
    obtain ⟨here, later⟩ := List.forall_mem_cons.1 inside
    rw [List.map_cons, List.mapM_cons, hashCell, history.hash j here, ok_bind, pure_eq_ok, ok_bind,
      ih later, ok_bind, pure_eq_ok, List.map_cons]

theorem verifyInclusionProof_complete (history : SlotHistory H numberOfSlots first levels chain)
    (target : t ≤ chain.last) :
    verifyInclusionProof H ((pathIndices skipListParameters t chain.last).map chain.cell)
      (chain.cell chain.last) (chain.cell t) = .ok () := by
  have inside : ∀ j ∈ pathIndices skipListParameters t chain.last, j ≤ chain.last :=
    fun j member => (pathIndices_bounds target member).2
  have defined : ∀ j ∈ pathIndices skipListParameters t chain.last,
      mapOfAssoc ((pathIndices skipListParameters t chain.last).map fun j =>
        (chain.ptr j, chain.cell j)) (chain.ptr j) = some (chain.cell j) := by
    intro j member
    apply mapOfAssoc_of_mem (List.mem_map.2 ⟨j, member, rfl⟩)
    intro cell found
    obtain ⟨j', member', same⟩ := List.mem_map.1 found
    obtain ⟨ptr, rfl⟩ := Prod.mk.inj same
    rw [chain.ptr_injOn (inside j' member') (inside j member) ptr]
  have path := chain.validBackPath_of_path _ le_rfl target defined
  have pointers : ((pathIndices skipListParameters t chain.last).map fun j =>
      (chain.ptr j, chain.cell j)).map Prod.fst =
        (pathIndices skipListParameters t chain.last).map chain.ptr := by
    rw [List.map_map]
    rfl
  rw [verifyInclusionProof, mapM_hashCell_slotHistory history inside, liftRun_ok, ok_bind,
    history.hash _ le_rfl, liftRun_ok, ok_bind, history.hash _ target, liftRun_ok, ok_bind, pointers,
    path, liftRun_ok, ok_bind, errorUnless_true]

def ProofWritable (proof : T.ProofRepr) : Prop :=
  ∀ cell ∈ proof.targetCell :: proof.incProof, Writable cell.content

omit [DecidableEq T.PointerHash] in
theorem path_writable (injective : H.Injective) (target : t ≤ chain.last)
    (history : SlotHistory H numberOfSlots first levels chain) :
    ∀ cell ∈ chain.cell t :: (pathIndices skipListParameters t chain.last).map chain.cell,
      Writable cell.content := by
  have writable : ∀ j ≤ chain.last, Writable (chain.cell j).content :=
    fun j inside => ((hash_eq_ok injective).1 (history.hash j inside)).1
  intro cell member
  rcases List.mem_cons.1 member with rfl | member
  · exact writable t target
  · obtain ⟨j, onPath, rfl⟩ := List.mem_map.1 member
    exact writable j (pathIndices_bounds target onPath).2

end

open DalPagesRequest
open Octez.RefutationProof.DalHelpers (addLevel importLevelIsValid pagesPerSlot)

def atLevel (params : RefutationProof.Parameters) (level : Nat) : RefutationProof.Parameters :=
  { params with commitInboxLevel := level }

def constantsOf (params : RefutationProof.Parameters) : DalConstants where
  numberOfSlots := params.dalNumberOfSlots
  attestationLag := params.dalAttestationLag
  cryptoboxParameters := params.dalParameters

section Validity
variable {params : RefutationProof.Parameters} {pageId : PageId} {level : Nat} {exn : Exn}

theorem pageIdIsValid_error (raised : DalHelpers.pageIdIsValid params pageId = .error exn) (level : Nat) :
    DalHelpers.pageIdIsValid (atLevel params level) pageId = .error exn := by
  rcases bind_eq_error.1 raised with raised | ⟨numberOfPages, pages, raised⟩
  · change pagesPerSlot params.dalParameters >>= _ = _
    rw [raised]
    rfl
  · change pagesPerSlot params.dalParameters >>= _ = _
    rw [pages, ok_bind]
    split at raised
    · rename_i inPages
      rw [if_pos inPages]
      split at raised
      · rename_i inSlots
        refine (if_pos inSlots).trans ?_
        unfold importLevelIsValid at raised ⊢
        dsimp only [atLevel]
        rcases bind_eq_error.1 raised with raised | ⟨attestedLevel, attested, raised⟩
        · rw [raised]
          rfl
        · rw [attested, ok_bind]
          rcases bind_eq_error.1 raised with raised | ⟨_, -, raised⟩
          · rw [raised]
            rfl
          · cases raised
      · cases raised
    · cases raised

end Validity

variable {T : DalTypes} {BlockHash External : Type} {numberOfSlots : Int}
  {first : Nat} {levels : List (List T.Header)}

/-- The node and the protocol agree on the status of the slot of a page. The pages of an attested
slot, which the node downloads, verify against its commitment. -/
inductive SameStatus (ctxt : NodeContext BlockHash T.Commitment External)
    (box : Cryptobox T) (dal : T.Dal) (dalAttestationLag numberOfSlots : Int)
    (first : Nat) (levels : List (List T.Header)) (pageId : PageId) : Prop
  | attested {header : T.Header} {confirmedInBlockHash publishedInBlockHash : BlockHash}
      {pages : List Octets} {page : Octets} {pageProof : T.PageProof}
      (added : AddedAttested first levels header) (id : header.id = pageId.slotId)
      (confirmedIn : storeEntryFromPublishedLevel ctxt dalAttestationLag
        pageId.slotId.publishedLevel = .ok confirmedInBlockHash)
      (status : ctxt.findSlotStatus confirmedInBlockHash pageId.slotId.index = .ok (some .confirmed))
      (publishedIn : ctxt.hashOfLevel pageId.slotId.publishedLevel = .ok publishedInBlockHash)
      (stored : ctxt.getSlotHeader publishedInBlockHash pageId.slotId.index = .ok header)
      (downloaded : ctxt.getSlotPages header.commitment = .ok pages)
      (found : pages[pageId.pageIndex.toNat]? = some page)
      (verified : box.verifyPage dal header.commitment pageId.pageIndex page pageProof = .ok true) :
      SameStatus ctxt box dal dalAttestationLag numberOfSlots first levels pageId
  | unattested {confirmedInBlockHash : BlockHash}
      (added : AddedUnattested numberOfSlots first levels pageId.slotId)
      (confirmedIn : storeEntryFromPublishedLevel ctxt dalAttestationLag
        pageId.slotId.publishedLevel = .ok confirmedInBlockHash)
      (status : ctxt.findSlotStatus confirmedInBlockHash pageId.slotId.index =
        .ok (some .unconfirmed)) :
      SameStatus ctxt box dal dalAttestationLag numberOfSlots first levels pageId

section Node
variable {ctxt : NodeContext BlockHash T.Commitment External}
  {params : RefutationProof.Parameters} {pageId : PageId} {level : Nat}

def nodeInput (ctxt : NodeContext BlockHash T.Commitment External)
    (params : RefutationProof.Parameters) (level : Nat) (pageId : PageId) :
    TzResult (NodeError External) Input :=
  dalPageInput ctxt (constantsOf params) params.dalActivationLevel level pageId
    params.dalAttestedSlotsValidityLag

variable (origination : ctxt.originationLevel = params.metadata.originationLevel) (int32 : level < 2 ^ 31)

include origination int32

theorem nodeCheck_eq :
    pageIdIsValid (constantsOf params) params.dalActivationLevel
        ctxt.originationLevel (wrap32 level) params.dalAttestedSlotsValidityLag pageId =
      DalHelpers.pageIdIsValid (atLevel params level) pageId := by
  have node : levelOfInt32 level = some level := by
    simp [levelOfInt32]
  have first : levelOfInt32 params.metadata.originationLevel = some params.metadata.originationLevel := by
    simp [levelOfInt32]
  rw [origination, wrap32_of_fits (by omega) (by omega)]
  rfl

theorem nodeInput_of_valid {confirmedInBlockHash : BlockHash} {processed}
    {contentOpt : Option Octets} (valid : DalHelpers.pageIdIsValid (atLevel params level) pageId = .ok true)
    (confirmedIn : storeEntryFromPublishedLevel ctxt params.dalAttestationLag
      pageId.slotId.publishedLevel = .ok confirmedInBlockHash)
    (status : ctxt.findSlotStatus confirmedInBlockHash pageId.slotId.index = .ok processed)
    (content : contentOfStatus ctxt pageId processed = .ok contentOpt) :
    nodeInput ctxt params level pageId = .ok (.reveal (.dalPage contentOpt)) := by
  rw [nodeInput, dalPageInput, pageContent,
    nodeCheck_eq origination int32, valid, liftRun_ok, ok_bind, if_pos rfl,
    show (constantsOf params).attestationLag = params.dalAttestationLag from rfl, confirmedIn,
    ok_bind, status, liftError_ok, ok_bind, content, ok_bind, pure_eq_ok]

end Node

section Protocol
variable {box : Cryptobox T} {H : HashFunctions T} {encoding : ProofEncoding T}
  {E : Environment T.History Octets T.Error} {params : RefutationProof.Parameters} {pageId : PageId}
  {snapshot : T.History}

theorem verify_of_invalid (invalid : DalHelpers.pageIdIsValid params pageId = .ok false)
    (proof : Octets) : DalHelpers.verify E params pageId snapshot proof = .ok none := by
  rw [DalHelpers.verify, invalid]
  rfl

variable [DecidableEq T.PointerHash] (dalProofs : E.dalVerifyProof = verifyProof box H encoding)
  (valid : DalHelpers.pageIdIsValid params pageId = .ok true)

include dalProofs valid

theorem verify_eq_ok {proof : Octets} {result : Option Input}
    (h : DalHelpers.verify E params pageId snapshot proof = .ok result) :
    ∃ proofRepr content, verifyProofRepr box H params.dalParameters pageId snapshot proofRepr =
      .ok content ∧ result = some (.reveal (.dalPage content)) := by
  rw [DalHelpers.verify, valid, liftRun_ok, ok_bind, if_pos rfl, dalProofs] at h
  obtain ⟨content, verified, h⟩ := bind_eq_ok.1 h
  cases h
  obtain ⟨proofRepr, -, verified⟩ := bind_eq_ok.1 (liftError_eq_ok.1 verified)
  exact ⟨proofRepr, content, verified, rfl⟩

theorem verify_of_verified (decodes : ∀ proofRepr, ProofWritable proofRepr →
      ∃ bytes, encoding.ofBytesOpt bytes = some proofRepr) {proofRepr} {content : Option Octets}
    (writable : ProofWritable proofRepr)
    (verified : verifyProofRepr box H params.dalParameters pageId snapshot proofRepr =
      .ok content) :
    ∃ proof, DalHelpers.verify E params pageId snapshot proof = .ok (some (.reveal (.dalPage content))) := by
  obtain ⟨bytes, decoded⟩ := decodes proofRepr writable
  refine ⟨bytes, ?_⟩
  rw [DalHelpers.verify, valid, liftRun_ok, ok_bind, if_pos rfl, dalProofs, verifyProof,
    deserializeProof, decoded]
  simp only [ok_bind, verified, liftError_ok, pure_eq_ok]

end Protocol

/-- The node gives to the PVM the only input that the protocol derives from a proof, or neither of
them has an input. -/
def SameInput {Err Err' Proof : Type} (node : TzResult Err Input)
    (verify : Proof → TzResult Err' (Option Input)) : Prop :=
  match node with
  | .ok input => (∃ proof, verify proof = .ok (some input)) ∧
      ∀ proof result, verify proof = .ok result → result = some input
  | .error _ => ∀ proof result, verify proof ≠ .ok result

def IsAttested (first : Nat) (levels : List (List T.Header)) (slotId : SlotId) : Prop :=
  ∃ header, AddedAttested first levels header ∧ header.id = slotId

theorem AddedUnattested.not_attested {slotId : SlotId}
    (added : AddedUnattested numberOfSlots first levels slotId) : ¬IsAttested first levels slotId := by
  rintro ⟨header, ⟨k, headers, found, member, level⟩, rfl⟩
  obtain ⟨k', headers', found', level', -, absent⟩ := added
  have same : k' = k := by omega
  rw [same, found] at found'
  cases found'
  exact absent header member rfl

theorem AddedAttested.unique
    (valid : ∀ k headers, levels[k]? = some headers → HeadersOf numberOfSlots (first + k) headers)
    {header header'} (added : AddedAttested first levels header)
    (added' : AddedAttested first levels header') (id : header.id = header'.id) : header = header' := by
  obtain ⟨k, headers, found, member, level⟩ := added
  obtain ⟨k', headers', found', member', level'⟩ := added'
  have same : k' = k := by
    rw [id] at level
    omega
  rw [same, found] at found'
  cases found'
  have content : contentAt (first + k) headers header.id.index = .attested header :=
    contentAt_of_mem (valid k headers found).sorted member
  rw [id, contentAt_of_mem (valid k headers found).sorted member'] at content
  exact (Content.attested.inj content).symm

/-- The history of the snapshot is the one that the protocol builds, and the node runs with the
parameters of the protocol. Two pages that verify at an index of a commitment are the same. -/
structure Setting [DecidableEq T.Commitment] [DecidableEq T.PointerHash]
    (H : HashFunctions T) (box : Cryptobox T) (encoding : ProofEncoding T)
    (E : Environment T.History Octets T.Error) (ctxt : NodeContext BlockHash T.Commitment External)
    (params : RefutationProof.Parameters) (dal : T.Dal) (first : Nat)
    (levels : List (List T.Header)) (snapshot : T.History) : Prop where
  injective : H.Injective
  positive : 0 < params.dalNumberOfSlots
  byte : params.dalNumberOfSlots ≤ 2 ^ 8
  genuine : 0 < first
  headers : ∀ k headers, levels[k]? = some headers →
    HeadersOf params.dalNumberOfSlots (first + k) headers
  built : ∃ cache, addLevels H params.dalNumberOfSlots first
    (genesis, BoundedHistory.empty 0) levels = .ok (snapshot, cache)
  made : box.make params.dalParameters = .ok dal
  binding : ∀ commitment pageIndex page page' proof proof',
    box.verifyPage dal commitment pageIndex page proof = .ok true →
      box.verifyPage dal commitment pageIndex page' proof' = .ok true → page = page'
  dalProofs : E.dalVerifyProof = verifyProof box H encoding
  decodes : ∀ proofRepr, ProofWritable proofRepr →
    ∃ bytes, encoding.ofBytesOpt bytes = some proofRepr
  origination : ctxt.originationLevel = params.metadata.originationLevel

theorem not_sameInput {Err : Type} {node : TzResult Err Input}
    {E : Environment T.History Octets T.Error} {params}
    {pageId : PageId} {snapshot} (invalid : DalHelpers.pageIdIsValid params pageId = .ok false) :
    ¬SameInput node (DalHelpers.verify E params pageId snapshot) := by
  intro same
  cases node with
  | error failure => exact same [] none (verify_of_invalid invalid [])
  | ok input => cases same.2 [] none (verify_of_invalid invalid [])

section Agreement
variable [DecidableEq T.Commitment] [DecidableEq T.PointerHash] {H : HashFunctions T} {box : Cryptobox T}
  {encoding : ProofEncoding T} {E : Environment T.History Octets T.Error}
  {ctxt : NodeContext BlockHash T.Commitment External}
  {params : RefutationProof.Parameters} {dal : T.Dal} {first : Nat}
  {levels : List (List T.Header)} {snapshot : T.History} {pageId : PageId}
variable (setting : Setting H box encoding E ctxt params dal first levels snapshot)

include setting

theorem Setting.history (nonempty : levels ≠ []) :
    ∃ chain, SlotHistory H params.dalNumberOfSlots first levels chain ∧ chain.cell chain.last = snapshot := by
  have int64 : 0 ≤ maxInt64 := by decide
  obtain ⟨snapshot', cache', added, gapless⟩ := addLevels_slotHistory setting.positive
    setting.byte setting.genuine setting.headers setting.injective int64
  obtain ⟨cache, built⟩ := setting.built
  rw [built] at added
  cases added
  exact gapless nonempty

variable (valid : DalHelpers.pageIdIsValid params pageId = .ok true)

include valid

theorem Setting.verify_attested {header} (added : AddedAttested first levels header)
    (id : header.id = pageId.slotId) {page : Octets} {pageProof : T.PageProof}
    (verified : box.verifyPage dal header.commitment pageId.pageIndex page pageProof = .ok true) :
    SameInput (.ok (.reveal (.dalPage (some page))) : TzResult External Input)
      (DalHelpers.verify E params pageId snapshot) := by
  obtain ⟨cache, built⟩ := setting.built
  have nonempty : levels ≠ [] := by
    rintro rfl
    obtain ⟨k, headers, found, -⟩ := added
    cases found
  refine ⟨?_, ?_⟩
  · obtain ⟨chain, history, rfl⟩ := setting.history nonempty
    obtain ⟨k, headers, level, member, -⟩ := added
    obtain ⟨above, below⟩ := (setting.headers k headers level).inside header member
    have target := history.cell_le (List.getElem?_eq_some_iff.1 level).1
      (show header.id.index.toNat < params.dalNumberOfSlots.toNat by omega)
    have content := history.attested k headers level header member
    generalize params.dalNumberOfSlots.toNat * k + header.id.index.toNat = t at target content
    apply verify_of_verified setting.dalProofs valid setting.decodes
      (show ProofWritable (.pageConfirmed _ _ page pageProof) from
        path_writable setting.injective target history)
    have checked : (checkPageProof box params.dalParameters pageProof page pageId header.commitment :
        T.Result Unit) = .ok () := by
      rw [checkPageProof, setting.made]
      simp only [verified]
    simp [verifyProofRepr, ProofRepr.targetCell, ProofRepr.incProof, content, Content.contentId, id,
      verifyInclusionProof_complete history target, checked]
  · intro proof result h
    obtain ⟨proofRepr, content, accepted, rfl⟩ := verify_eq_ok setting.dalProofs valid h
    cases content with
    | none =>
      rcases addedUnattested_of_verified setting.injective built accepted with absent | ⟨empty, -⟩
      · exact absurd ⟨header, added, id⟩ absent.not_attested
      · exact absurd empty nonempty
    | some data =>
      obtain ⟨header', dal', pageProof', added', id', made', verified'⟩ :=
        addedAttested_of_verified setting.injective built accepted
      rw [setting.made] at made'
      cases made'
      have same := AddedAttested.unique setting.headers added' added (id'.trans id.symm)
      rw [same] at verified'
      rw [setting.binding _ _ _ _ _ _ verified' verified]

theorem Setting.verify_unattested
    (added : AddedUnattested params.dalNumberOfSlots first levels pageId.slotId) :
    SameInput (.ok (.reveal (.dalPage none)) : TzResult External Input)
      (DalHelpers.verify E params pageId snapshot) := by
  obtain ⟨cache, built⟩ := setting.built
  have nonempty : levels ≠ [] := by
    rintro rfl
    obtain ⟨k, headers, found, -⟩ := added
    cases found
  refine ⟨?_, ?_⟩
  · obtain ⟨chain, history, rfl⟩ := setting.history nonempty
    obtain ⟨k, headers, level, published, ⟨above, below⟩, absent⟩ := added
    have slot : pageId.slotId.index.toNat < params.dalNumberOfSlots.toNat := by omega
    have target := history.cell_le (List.getElem?_eq_some_iff.1 level).1 slot
    have here : (⟨first + k, pageId.slotId.index.toNat⟩ : SlotId) = pageId.slotId := by
      rw [← published, Int.toNat_of_nonneg above]
    have content := history.unattested k headers level _ slot <| by
      intro header member same
      apply absent header member
      rw [← here, ← same, ← (setting.headers k headers level).level header member]
    rw [here] at content
    apply verify_of_verified setting.dalProofs valid setting.decodes
      (show ProofWritable (.pageUnconfirmed _ _) from path_writable setting.injective target history)
    simp [verifyProofRepr, ProofRepr.targetCell, ProofRepr.incProof, content, Content.contentId,
      verifyInclusionProof_complete history target]
  · intro proof result h
    obtain ⟨proofRepr, content, accepted, rfl⟩ := verify_eq_ok setting.dalProofs valid h
    cases content with
    | none => rfl
    | some data =>
      obtain ⟨header, _, _, attested, id, -⟩ :=
        addedAttested_of_verified setting.injective built accepted
      exact absurd ⟨header, attested, id⟩ added.not_attested

variable {level : Nat} (int32 : level < 2 ^ 31)

omit setting in
theorem check_returns (level : Nat) (exn : Exn) :
    DalHelpers.pageIdIsValid (atLevel params level) pageId ≠ .error exn := by
  intro raised
  have back := pageIdIsValid_error raised params.commitInboxLevel
  change DalHelpers.pageIdIsValid params pageId = _ at back
  rw [valid] at back
  cases back

include int32

/-- The input that the protocol derives, which the node gives when the page is valid at its level. -/
theorem Setting.input_of_status (status : SameStatus ctxt box dal params.dalAttestationLag
      params.dalNumberOfSlots first levels pageId) :
    ∃ content, SameInput (.ok (.reveal (.dalPage content)) : TzResult External Input)
        (DalHelpers.verify E params pageId snapshot) ∧
      (DalHelpers.pageIdIsValid (atLevel params level) pageId = .ok true →
        nodeInput ctxt params level pageId = .ok (.reveal (.dalPage content))) ∧
      (IsAttested first levels pageId.slotId ↔ content ≠ none) := by
  cases status with
  | attested added id confirmedIn status publishedIn stored downloaded found verified =>
    refine ⟨_, setting.verify_attested valid added id verified, ?_, fun _ => nofun, fun _ => ⟨_, added, id⟩⟩
    intro check
    apply nodeInput_of_valid setting.origination int32 check confirmedIn status
    simp [contentOfStatus, downloadConfirmedSlotPages, publishedIn, stored, downloaded, found]
  | unattested added confirmedIn status =>
    refine ⟨none, setting.verify_unattested valid added, ?_,
      fun attested => absurd attested added.not_attested, fun some => absurd rfl some⟩
    intro check
    exact nodeInput_of_valid setting.origination int32 check confirmedIn status rfl

omit valid

theorem dal_page_inputs_agree_iff (status : DalHelpers.pageIdIsValid params pageId = .ok true →
      SameStatus ctxt box dal params.dalAttestationLag params.dalNumberOfSlots first levels pageId) :
    (SameInput (nodeInput ctxt params level pageId) (DalHelpers.verify E params pageId snapshot) ↔
      DalHelpers.pageIdIsValid params pageId ≠ .ok false ∧ (IsAttested first levels pageId.slotId →
          DalHelpers.pageIdIsValid (atLevel params level) pageId =
            DalHelpers.pageIdIsValid params pageId)) ∧ (DalHelpers.pageIdIsValid params pageId = .ok true →
      SameInput (nodeInput ctxt params level pageId) (DalHelpers.verify E params pageId snapshot) →
      (IsAttested first levels pageId.slotId →
        ∃ page, nodeInput ctxt params level pageId = .ok (.reveal (.dalPage (some page)))) ∧
      (AddedUnattested params.dalNumberOfSlots first levels pageId.slotId →
        nodeInput ctxt params level pageId = .ok (.reveal (.dalPage none)))) := by
  cases check : DalHelpers.pageIdIsValid params pageId with
  | error exn =>
    have raised := pageIdIsValid_error check level
    refine ⟨⟨fun _ => ⟨nofun, fun _ => raised⟩, fun _ => ?_⟩, nofun⟩
    rw [nodeInput, dalPageInput, pageContent, nodeCheck_eq setting.origination int32, raised]
    intro proof result
    rw [DalHelpers.verify, check]
    exact nofun
  | ok isValid =>
    cases isValid with
    | false =>
      exact ⟨⟨fun same => absurd same (not_sameInput check), fun both => absurd rfl both.1⟩, nofun⟩
    | true =>
      obtain ⟨content, derived, input, attested⟩ := setting.input_of_status check int32 (status check)
      cases later : DalHelpers.pageIdIsValid (atLevel params level) pageId with
      | error exn => exact absurd later (check_returns check level exn)
      | ok stillValid =>
        cases stillValid with
        | true =>
          rw [input later]
          refine ⟨⟨fun _ => ⟨nofun, fun _ => rfl⟩, fun _ => derived⟩, fun _ _ => ⟨?_, ?_⟩⟩
          · intro isAttested
            obtain ⟨page, rfl⟩ := Option.ne_none_iff_exists'.1 (attested.1 isAttested)
            exact ⟨page, rfl⟩
          · intro added
            rw [not_not.1 (mt attested.2 added.not_attested)]
        | false =>
          rw [nodeInput, dalPageInput, pageContent, nodeCheck_eq setting.origination int32, later]
          cases content with
          | none =>
            have absent := mt attested.1 (not_not_intro rfl)
            exact ⟨⟨fun _ => ⟨nofun, fun present => absurd present absent⟩, fun _ => derived⟩,
              fun _ _ => ⟨fun present => absurd present absent, fun _ => rfl⟩⟩
          | some page =>
            have differs : ¬SameInput (.ok (.reveal (.dalPage none)) : TzResult External Input)
                (DalHelpers.verify E params pageId snapshot) := by
              rintro ⟨-, only⟩
              obtain ⟨proof, accepted⟩ := derived.1
              cases only proof _ accepted
            exact ⟨⟨fun same => absurd same differs, fun both => nomatch both.2 (attested.2 nofun)⟩,
              fun _ same => absurd same differs⟩

end Agreement

/-- The node has a page of an attested slot that verifies, and nothing of an unattested slot. -/
def PageInfoOf (box : Cryptobox T) (dal : T.Dal) (pageIndex : Int)
    (info : Option (Octets × T.PageProof)) : T.Content → Prop
  | .attested header => ∃ data proof, info = some (data, proof) ∧
      box.verifyPage dal header.commitment pageIndex data proof = .ok true
  | .unattested _ => info = none

theorem produced_page_proof_verifies [DecidableEq T.PointerHash]
    {H : HashFunctions T} (injective : H.Injective) {chain}
    (history : SlotHistory H numberOfSlots first levels chain)
    {encoding : ProofEncoding T} (encodes : ∀ proof, ProofWritable proof →
      ∃ bytes, encoding.toBytesOpt proof = some bytes ∧ encoding.ofBytesOpt bytes = some proof)
    {box : Cryptobox T} {params dal} (made : box.make params = .ok dal)
    {k i pageIndex info} (inside : k < levels.length) (slot : i < numberOfSlots.toNat)
    (page : PageInfoOf box dal pageIndex info (chain.cell (numberOfSlots.toNat * k + i)).content) :
    ∃ bytes, verifyProof box H encoding params ⟨⟨first + k, i⟩, pageIndex⟩ (chain.cell chain.last)
        bytes = .ok (info.map Prod.fst) ∧
      ∀ getHistory, (∀ j ≤ chain.last, getHistory (chain.ptr j) = some (chain.cell j)) →
        Returns (fun fuel => produceProof box encoding fuel params ⟨⟨first + k, i⟩, pageIndex⟩ info
          getHistory (chain.cell chain.last)) (bytes, info.map Prod.fst) := by
  have target := history.cell_le inside slot
  have id := history.id k inside i slot
  generalize numberOfSlots.toNat * k + i = t at target id page
  have found := fun getHistory (total : ∀ j ≤ chain.last, getHistory (chain.ptr j) =
      some (chain.cell j)) => chain.search_found getHistory (compareWithSlotId ⟨first + k, i⟩) le_rfl
    target (history.increasing _) (by simp [compareWithSlotId, compareInt, id])
    (fun j _ before => total j before.le) (fun j before => .inr (total j (before.le.trans target)))
  have writable := path_writable injective target history
  have included := verifyInclusionProof_complete history target
  cases content : (chain.cell t).content with
  | attested header =>
    rw [content] at page id
    obtain ⟨data, proof, rfl, verified⟩ := page
    obtain ⟨bytes, written, read⟩ := encodes (.pageConfirmed _ _ data proof) writable
    refine ⟨bytes, ?_, fun getHistory total => (found getHistory total).imp fun _ found fuel enough => ?_⟩
    · simp [verifyProof, deserializeProof, read, verifyProofRepr, ProofRepr.targetCell,
        ProofRepr.incProof, content, id, included, checkPageProof, made, verified]
    · simp [produceProof, produceProofRepr, DalSlot.search, found fuel enough, content, checkPageProof,
        made, verified, serializeProof, written]
  | unattested slotId =>
    rw [content] at page id
    obtain rfl := page
    obtain ⟨bytes, written, read⟩ := encodes (.pageUnconfirmed _ _) writable
    refine ⟨bytes, ?_, fun getHistory total => (found getHistory total).imp fun _ found fuel enough => ?_⟩
    · simp [verifyProof, deserializeProof, read, verifyProofRepr, ProofRepr.targetCell,
        ProofRepr.incProof, content, id, included]
    · simp [produceProof, produceProofRepr, DalSlot.search, found fuel enough, content, serializeProof, written]

section Instance

-- The pages in a proof are lists of octets.
instance encodableUInt8 : Encodable UInt8 :=
  Encodable.ofLeftInverse UInt8.toNat UInt8.ofNat fun _ => UInt8.ofNat_toNat

deriving instance Encodable for Digest
deriving instance Encodable for SlotId
deriving instance Encodable for Header
deriving instance Encodable for Content
deriving instance Encodable for Cell
deriving instance Encodable for ProofRepr

def unaryEncoding : ProofEncoding slotTypes where
  toBytesOpt proof := some (List.replicate (Encodable.encode proof) 0)
  ofBytesOpt bytes := Encodable.decode bytes.length

def pagesEnvironment : Environment slotTypes.History Octets slotTypes.Error where
  hashes := ⟨id, id, id, List.flatten, id, List.flatten, fun _ => []⟩
  messages := ⟨[], []⟩
  hashString _ data := .blake2B data
  toSerializedProof _ := []
  ofSerializedProof _ := none
  dalProduceProof _ _ _ _ _ := .ok ([], none)
  dalVerifyProof := verifyProof byteBox slotHashes unaryEncoding

def pagesParameters : RefutationProof.Parameters where
  metadata := ⟨[], 0⟩
  commitInboxLevel := 6
  dalParameters := ⟨4, 2⟩
  dalActivationLevel := some 0
  dalAttestationLag := 2
  dalNumberOfSlots := 1
  dalAttestedSlotsValidityLag := 5
  isRevealEnabled _ _ := true

def followingNode : NodeContext Int slotTypes.Commitment Unit where
  originationLevel := 0
  hashOfLevel level := .ok level
  getSlotHeader _ _ := .ok attestedSlot
  findSlotStatus hash _ := .ok (some (if hash = 3 then .confirmed else .unconfirmed))
  getSlotPages _ := .ok [[1], [1]]

theorem followingNode_setting :
    Setting slotHashes byteBox unaryEncoding pagesEnvironment followingNode pagesParameters () 1
      [[attestedSlot], []] unattestedCell where
  injective := slotHashes_injective
  positive := by decide
  byte := by decide
  genuine := Nat.one_pos
  headers := by
    intro k headers found
    rcases k with _ | _ | k
    · cases found
      exact ⟨by simp [attestedSlot], by simp, by simp [attestedSlot, pagesParameters]⟩
    · cases found
      exact ⟨by simp, .nil, by simp⟩
    · cases found
  built := ⟨_, rfl⟩
  made := rfl
  binding := by
    intro commitment pageIndex page page' proof proof' verified verified'
    simp only [byteBox, Except.ok.injEq, decide_eq_true_eq] at verified verified'
    rw [verified, verified']
  dalProofs := rfl
  decodes := by
    intro proofRepr _
    refine ⟨List.replicate (Encodable.encode proofRepr) 0, ?_⟩
    simp [unaryEncoding]
  origination := rfl

theorem followingNode_agrees :
    4 < 2 ^ 31 ∧ SameStatus followingNode byteBox () pagesParameters.dalAttestationLag
      pagesParameters.dalNumberOfSlots 1 [[attestedSlot], []] ⟨⟨1, 0⟩, 0⟩ ∧
    SameInput (nodeInput followingNode pagesParameters 4 ⟨⟨1, 0⟩, 0⟩)
      (DalHelpers.verify pagesEnvironment pagesParameters ⟨⟨1, 0⟩, 0⟩ unattestedCell) := by
  have added : AddedAttested 1 [[attestedSlot], []] attestedSlot :=
    ⟨0, [attestedSlot], rfl, List.mem_singleton_self _, rfl⟩
  have verified : byteBox.verifyPage () attestedSlot.commitment 0 [1] () = .ok true := rfl
  have int32 : 4 < 2 ^ 31 := by omega
  refine ⟨int32, (and_iff_left_of_imp fun status => ?_).2
    (.attested added rfl rfl rfl rfl rfl rfl rfl verified)⟩
  exact (dal_page_inputs_agree_iff followingNode_setting int32 fun _ => status).1.2
    ⟨by decide, fun _ => by decide⟩

/-- The page index is out of range. -/
theorem invalidPage_inputs_differ :
    nodeInput followingNode pagesParameters pagesParameters.commitInboxLevel ⟨⟨1, 0⟩, 2⟩ =
      .ok (.reveal (.dalPage none)) ∧
    (∀ proof, DalHelpers.verify pagesEnvironment pagesParameters ⟨⟨1, 0⟩, 2⟩ unattestedCell proof =
      .ok none) ∧
    ¬SameInput (nodeInput followingNode pagesParameters pagesParameters.commitInboxLevel ⟨⟨1, 0⟩, 2⟩)
      (DalHelpers.verify pagesEnvironment pagesParameters ⟨⟨1, 0⟩, 2⟩ unattestedCell) :=
  ⟨by decide, fun proof => verify_of_invalid (by decide) proof, not_sameInput (by decide)⟩

theorem followingNode_page_produced :
    ∃ bytes, verifyProof byteBox slotHashes unaryEncoding ⟨4, 2⟩ ⟨⟨1, 0⟩, 0⟩ unattestedCell bytes =
      .ok (some [1]) := by
  obtain ⟨chain, history, last⟩ := followingNode_setting.history (by simp)
  rw [← last]
  refine (produced_page_proof_verifies slotHashes_injective history ?_ rfl Nat.two_pos Nat.one_pos
    (show PageInfoOf _ _ 0 (some ([1], ())) _ from ?_)).imp fun _ => And.left
  · exact fun _ _ => ⟨_, rfl, by simp [unaryEncoding]⟩
  · exact (congrArg _ (history.attested 0 _ rfl attestedSlot (List.mem_singleton_self _))).mpr
      ⟨_, _, rfl, rfl⟩

end Instance

end Octez.Proof.Dal
