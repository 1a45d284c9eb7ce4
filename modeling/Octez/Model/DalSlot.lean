import Octez.Model.RefutationProof

/-! # The history of DAL slots (`src/proto_alpha/lib_protocol/dal_slot_repr.ml`) -/

namespace Octez.DalSlot
open Octez.Lib Octez.SkipList Octez.RefutationProof

structure Header (Commitment : Type) where
  id : SlotId
  commitment : Commitment
deriving DecidableEq, Repr

inductive Content (Commitment : Type) where
  | unattested (slotId : SlotId)
  | attested (header : Header Commitment)
deriving DecidableEq, Repr

inductive Error (Commitment PointerHash : Type) where
  | invalidSlotIndex (given min max : Int)
  | addElementInSlotsSkipListViolatesOrdering
  | keyBound (err : BoundedHistory.KeyBoundToDifferentValue PointerHash (Cell (Content Commitment) PointerHash))
  | dalInvalidProofSerialization
  | dalInvalidProofDeserialization
  | dalProofError (reason : String)
  | unexpectedPageSize (expectedSize pageSize : Int)
deriving DecidableEq, Repr

inductive ProofRepr (Commitment PointerHash PageProof : Type) where
  | pageConfirmed (targetCell : Cell (Content Commitment) PointerHash)
      (incProof : List (Cell (Content Commitment) PointerHash)) (pageData : Octets) (pageProof : PageProof)
  | pageUnconfirmed (targetCell : Cell (Content Commitment) PointerHash)
      (incProof : List (Cell (Content Commitment) PointerHash))
deriving DecidableEq, Repr

structure DalTypes where
  Commitment : Type
  PointerHash : Type
  Bytes : Type
  PageProof : Type
  Dal : Type

namespace DalTypes
variable (T : DalTypes)

abbrev Header := DalSlot.Header T.Commitment

abbrev Content := DalSlot.Content T.Commitment

abbrev History := Cell T.Content T.PointerHash

abbrev HistoryCache := BoundedHistory.History T.PointerHash T.History

abbrev State := T.History × T.HistoryCache

abbrev Error := DalSlot.Error T.Commitment T.PointerHash

abbrev Result (α : Type) := TzResult T.Error α

abbrev ProofRepr := DalSlot.ProofRepr T.Commitment T.PointerHash T.PageProof

end DalTypes

/-- `Content.encoding` and the `HASH` module of the pointers. -/
structure HashFunctions (T : DalTypes) where
  contentToBytes : T.Content → T.Bytes
  pointerHashToBytes : T.PointerHash → T.Bytes
  pointerHashBytes : List T.Bytes → T.PointerHash

structure HashFunctions.Injective {T : DalTypes} (H : HashFunctions T) : Prop where
  contentToBytes : Function.Injective H.contentToBytes
  pointerHashToBytes : Function.Injective H.pointerHashToBytes
  pointerHashBytes : Function.Injective H.pointerHashBytes

namespace Content
variable {Commitment : Type}

def contentId : Content Commitment → SlotId
  | .unattested slotId => slotId
  | .attested header => header.id

def zeroLevel : Nat := 0

def zero : Content Commitment := .unattested { publishedLevel := zeroLevel, index := 0 }

end Content

variable {T : DalTypes}

theorem two_le_four : 2 ≤ 4 := by decide

def skipListParameters : SkipList.Parameters := ⟨4, two_le_four⟩

def checkIsInRange (numberOfSlots slotIndex : Int) : T.Result Unit :=
  errorUnless (decide (0 ≤ slotIndex) && decide (slotIndex < numberOfSlots))
    (.invalidSlotIndex slotIndex 0 (numberOfSlots - 1))

/-- `lower --> upper`. -/
def range (lower upper : Int) : List Int :=
  (List.range (upper + 1 - lower).toNat).map fun i : Nat => lower + i

def slotsRange (numberOfSlots lower upper : Int) : T.Result (List Int) := do
  checkIsInRange numberOfSlots lower
  checkIsInRange numberOfSlots upper
  return range lower upper

/-- Either the levels follow each other, from the last slot of the first one to the first slot of
the second one, or the slots of a level do. -/
def wellOrdered (numberOfSlots : Int) (prev elt : SlotId) : Bool :=
  (decide (elt.publishedLevel = prev.publishedLevel + 1) && decide (prev.index = numberOfSlots - 1) &&
      decide (elt.index = 0)) ||
    decide (elt.publishedLevel = prev.publishedLevel) && decide (prev.index + 1 = elt.index)

def next (prevCell : T.History) (prevCellPtr : T.PointerHash) (numberOfSlots : Int) (elt : T.Content) :
    T.Result T.History := do
  errorUnless (wellOrdered numberOfSlots prevCell.content.contentId elt.contentId)
    .addElementInSlotsSkipListViolatesOrdering
  liftRun (SkipList.next skipListParameters prevCell prevCellPtr elt)

/-- `Compare.Int.compare`. -/
def compareInt (a b : Int) : Int := if a < b then -1 else if a = b then 0 else 1

def compareWithSlotId (target : SlotId) (content : T.Content) : Int :=
  let id := content.contentId
  let c := compareInt id.publishedLevel target.publishedLevel
  if c ≠ 0 then c else compareInt id.index target.index

def search (fuel : Nat) (deref : T.PointerHash → Option T.History)
    (cell : T.History) (targetSlotId : SlotId) :
    Run (SearchResult T.Content T.PointerHash) :=
  SkipList.search deref (compareWithSlotId targetSlotId) fuel cell

def genesis : T.History := SkipList.genesis Content.zero

def genesisLevel : Nat := Content.zeroLevel

section Hash
variable (H : HashFunctions T)

/-- A slot index is written as an unsigned byte. -/
def contentToBytesExn (content : T.Content) : Run T.Bytes :=
  if 0 ≤ content.contentId.index ∧ content.contentId.index < 2 ^ 8 then
    .ok (H.contentToBytes content)
  else .error .writeError

def hash (cell : T.History) : Run T.PointerHash := do
  let currentSlot ← contentToBytesExn H cell.content
  return H.pointerHashBytes (currentSlot :: cell.backPointers.map H.pointerHashToBytes)

end Hash

section FillSlotHeaders

def mkUnattested (publishedLevel : Nat) (index : Int) : T.Content :=
  .unattested { publishedLevel, index }

/-- The loop `aux` of `fill_slot_headers`. -/
def fillAux (publishedLevel : Nat) : List Int → List T.Header → T.Result (List T.Content)
  | indices, [] => .ok (indices.map (mkUnattested publishedLevel))
  | [], _ :: _ => tzfail .addElementInSlotsSkipListViolatesOrdering
  | i :: indices, s :: slots =>
    if i = s.id.index then do
      let res ← fillAux publishedLevel indices slots
      return .attested s :: res
    else if i < s.id.index then do
      let res ← fillAux publishedLevel indices (s :: slots)
      return mkUnattested publishedLevel i :: res
    else tzfail .addElementInSlotsSkipListViolatesOrdering

def fillSlotHeaders (numberOfSlots : Int) (publishedLevel : Nat) (attestedSlotHeaders : List T.Header) :
    T.Result (List T.Content) := do
  let allIndices ← slotsRange numberOfSlots 0 (numberOfSlots - 1)
  fillAux publishedLevel allIndices attestedSlotHeaders

end FillSlotHeaders

section AddCell
variable [DecidableEq T.Commitment] [DecidableEq T.PointerHash]
variable (H : HashFunctions T)

/-- The new head of `add_cell`: the dummy genesis cell is replaced. -/
def newHead (numberOfSlots : Int) (t : T.History) (prevCellPtr : T.PointerHash)
    (nextCellContent : T.Content) : T.Result T.History :=
  if t.content.contentId.publishedLevel = genesisLevel then
    .ok (SkipList.genesis nextCellContent)
  else next t prevCellPtr numberOfSlots nextCellContent

def addCell (numberOfSlots : Int) (state : T.State) (nextCellContent : T.Content) : T.Result T.State := do
  let (t, cache) := state
  let prevCellPtr ← liftRun (hash H t)
  let head ← newHead numberOfSlots t prevCellPtr nextCellContent
  let newHeadHash ← liftRun (hash H head)
  let cache ← liftError .keyBound (BoundedHistory.remember newHeadHash head cache)
  return (head, cache)

def checkPublishedLevel (publishedLevel : Nat) (slotHeader : T.Header) : T.Result Unit :=
  errorUnless (decide (publishedLevel = slotHeader.id.publishedLevel))
    .addElementInSlotsSkipListViolatesOrdering

def addConfirmedSlotHeaders (numberOfSlots : Int) (state : T.State)
    (publishedLevel : Nat) (attestedSlotHeaders : List T.Header) : T.Result T.State := do
  attestedSlotHeaders.forM (checkPublishedLevel publishedLevel)
  let slotHeaders ← fillSlotHeaders numberOfSlots publishedLevel attestedSlotHeaders
  slotHeaders.foldlM (addCell H numberOfSlots) state

end AddCell

inductive VerifyPageError where
  | segmentIndexOutOfRange
  | pageLengthMismatch
deriving DecidableEq, Repr

/-- What is used of `Dal`: `make` and `verify_page`. -/
structure Cryptobox (T : DalTypes) where
  make : CryptoboxParameters → Except String T.Dal
  verifyPage : T.Dal → T.Commitment → (pageIndex : Int) → Octets → T.PageProof →
    Except VerifyPageError Bool

section Proofs
variable (box : Cryptobox T)
variable (H : HashFunctions T)

def proofError {α : Type} (reason : String) : T.Result α :=
  tzfail (.dalProofError reason)

/-- `Page.pp`. -/
def ppPage (pageId : PageId) : String :=
  "(published_level: " ++ toString pageId.slotId.publishedLevel ++ ", slot_index: " ++
    toString pageId.slotId.index ++ ", page_index: " ++ toString pageId.pageIndex ++ ")"

def failWithErrorMsg {α : Type} (pageId : PageId) (what : String) : T.Result α :=
  proofError (what ++ " (page id=" ++ ppPage pageId ++ ").")

def checkPageProof (dalParams : CryptoboxParameters) (proof : T.PageProof) (data : Octets)
    (pageId : PageId) (commitment : T.Commitment) : T.Result Unit :=
  match box.make dalParams with
  | .error reason => proofError reason
  | .ok dal =>
    match box.verifyPage dal commitment pageId.pageIndex data proof with
    | .ok true => .ok ()
    | .ok false =>
      failWithErrorMsg pageId "Wrong page content for the given page index and slot commitment"
    | .error .segmentIndexOutOfRange => failWithErrorMsg pageId "Segment_index_out_of_range"
    | .error .pageLengthMismatch => tzfail (.unexpectedPageSize dalParams.pageSize data.length)

def produceProofRepr (fuel : Nat) (dalParams : CryptoboxParameters) (pageId : PageId)
    (pageInfo : Option (Octets × T.PageProof)) (getHistory : T.PointerHash → Option T.History)
    (slotsHist : T.History) : T.Result (T.ProofRepr × Option Octets) := do
  let result ← liftRun (search fuel getHistory slotsHist pageId.slotId)
  match result.lastCell with
  | .derefReturnedNone =>
    proofError ("Skip_list.search returned 'Deref_returned_none': Slots history " ++
      "cache is ill-formed or has too few entries.")
  | .noExactOrLowerPtr =>
    proofError ("Skip_list.search returned 'No_exact_or_lower_ptr', while it is " ++
      "initialized with a min elt (slot zero).")
  | .nearest _ _ =>
    proofError ("Skip_list.search returned Nearest', while all given levels to " ++
      "produce proofs are supposed to be in the skip list.")
  | .found targetCell =>
    let incProof := result.revPath.reverse
    match pageInfo, targetCell.content with
    | some (pageData, pageProof), .attested header => do
      checkPageProof box dalParams pageProof pageData pageId header.commitment
      return (.pageConfirmed targetCell incProof pageData pageProof, some pageData)
    | none, .unattested _ => return (.pageUnconfirmed targetCell incProof, none)
    | none, .attested _ =>
      proofError ("The page ID's slot is confirmed, but no page content and " ++
        "proof are provided.")
    | some _, .unattested _ =>
      proofError ("The page ID's slot is not confirmed, but page content and " ++
        "proof are provided.")

variable [DecidableEq T.PointerHash]

def mapOfAssoc (assoc : List (T.PointerHash × T.History)) :
    Map T.PointerHash T.History :=
  assoc.foldl (fun map entry => Map.add entry.1 entry.2 map) Map.empty

def hashCell (cell : T.History) :
    Run (T.PointerHash × T.History) := do
  let ptr ← hash H cell
  return (ptr, cell)

def verifyInclusionProof (incProof : List T.History) (snapshot target : T.History) : T.Result Unit := do
  let assoc ← liftRun (incProof.mapM (hashCell H))
  let path := assoc.map Prod.fst
  let snapshotPtr ← liftRun (hash H snapshot)
  let targetPtr ← liftRun (hash H target)
  let valid ← liftRun
    (validBackPath skipListParameters (mapOfAssoc assoc) snapshotPtr targetPtr path)
  errorUnless valid (.dalProofError "verify_proof_repr: invalid inclusion Dal proof.")

def ProofRepr.targetCell : T.ProofRepr → T.History
  | .pageConfirmed targetCell _ _ _ | .pageUnconfirmed targetCell _ => targetCell

def ProofRepr.incProof : T.ProofRepr → List T.History
  | .pageConfirmed _ incProof _ _ | .pageUnconfirmed _ incProof => incProof

def verifyProofRepr (dalParams : CryptoboxParameters) (pageId : PageId) (snapshot : T.History)
    (proof : T.ProofRepr) : T.Result (Option Octets) := do
  let cellContent := proof.targetCell.content
  let cellId := cellContent.contentId
  errorUnless (decide (cellId.publishedLevel = pageId.slotId.publishedLevel))
    (.dalProofError "verify_proof_repr: published_level mismatch.")
  errorUnless (decide (cellId.index = pageId.slotId.index))
    (.dalProofError "verify_proof_repr: slot index mismatch.")
  verifyInclusionProof H proof.incProof snapshot proof.targetCell
  match proof, cellContent with
  | .pageUnconfirmed _ _, .unattested _ => return none
  | .pageConfirmed _ _ pageData pageProof, .attested header => do
    checkPageProof box dalParams pageProof pageData pageId header.commitment
    return some pageData
  | .pageConfirmed _ _ _ _, .unattested _ =>
    proofError "verify_proof_repr: the unconfirmation proof contains the target slot."
  | .pageUnconfirmed _ _, .attested _ =>
    proofError "verify_proof_repr: the confirmation proof doesn't contain the attested slot."

/-- `proof_repr_encoding`. -/
structure ProofEncoding (T : DalTypes) where
  toBytesOpt : T.ProofRepr → Option Octets
  ofBytesOpt : Octets → Option T.ProofRepr

variable (encoding : ProofEncoding T)

def serializeProof (proof : T.ProofRepr) : T.Result Octets :=
  match encoding.toBytesOpt proof with
  | none => tzfail .dalInvalidProofSerialization
  | some serializedProof => .ok serializedProof

def deserializeProof (proof : Octets) : T.Result T.ProofRepr :=
  match encoding.ofBytesOpt proof with
  | none => tzfail .dalInvalidProofDeserialization
  | some deserializedProof => .ok deserializedProof

def produceProof (fuel : Nat)
    (dalParams : CryptoboxParameters) (pageId : PageId) (pageInfo : Option (Octets × T.PageProof))
    (getHistory : T.PointerHash → Option T.History) (slotsHist : T.History) :
    T.Result (Octets × Option Octets) := do
  let (proofRepr, pageData) ←
    produceProofRepr box fuel dalParams pageId pageInfo getHistory slotsHist
  let serializedProof ← serializeProof encoding proofRepr
  return (serializedProof, pageData)

def verifyProof (dalParams : CryptoboxParameters) (pageId : PageId)
    (snapshot : T.History) (serializedProof : Octets) : T.Result (Option Octets) := do
  let proofRepr ← deserializeProof encoding serializedProof
  verifyProofRepr box H dalParams pageId snapshot proofRepr

end Proofs

end Octez.DalSlot
