import Octez.Model.DalSlot

/-! # The DAL pages of the rollup node (`src/proto_alpha/lib_sc_rollup_node/dal_pages_request.ml`) -/

namespace Octez.DalPagesRequest
open Octez.Lib Octez.RefutationProof Octez.RefutationProof.DalHelpers Octez.DalSlot

inductive SlotStatus where
  | confirmed
  | unconfirmed
deriving DecidableEq, Repr

inductive NodeError (External : Type) where
  | dalInvalidPageForSlot (pageId : PageId)
  | failure (message : String)
  | external (err : External)
deriving DecidableEq, Repr

structure DalConstants where
  numberOfSlots : Int
  attestationLag : Int
  cryptoboxParameters : CryptoboxParameters
deriving DecidableEq, Repr

structure NodeContext (BlockHash Commitment External : Type) where
  originationLevel : Int
  hashOfLevel : Int → TzResult External BlockHash
  getSlotHeader : (publishedInBlockHash : BlockHash) → (index : Int) →
    TzResult External (Header Commitment)
  findSlotStatus : (confirmedInBlockHash : BlockHash) → (index : Int) →
    TzResult External (Option SlotStatus)
  getSlotPages : Commitment → TzResult External (List Octets)

/-- `Raw_level_repr.of_int32`. -/
def levelOfInt32 (level : Int) : Option Nat := if 0 ≤ level then some level.toNat else none

section Validity
variable (constants : DalConstants) (dalActivationLevel : Option Nat)
  (originationLevel inboxLevel : Int) (dalAttestedSlotsValidityLag : Int)

def slotIdIsValid (slotId : SlotId) : Run Bool :=
  if 0 ≤ slotId.index ∧ slotId.index < constants.numberOfSlots then
    match levelOfInt32 originationLevel, levelOfInt32 inboxLevel with
    | some originationLevel, some commitInboxLevel =>
      importLevelIsValid dalActivationLevel constants.attestationLag originationLevel
        commitInboxLevel slotId.publishedLevel dalAttestedSlotsValidityLag
    | _, _ => return false
  else return false

def pageIdIsValid (pageId : PageId) : Run Bool := do
  let numberOfPages ← pagesPerSlot constants.cryptoboxParameters
  if 0 ≤ pageId.pageIndex ∧ pageId.pageIndex < numberOfPages then
    slotIdIsValid constants dalActivationLevel originationLevel inboxLevel
      dalAttestedSlotsValidityLag pageId.slotId
  else return false

end Validity

variable {BlockHash Commitment External : Type} (ctxt : NodeContext BlockHash Commitment External)

def storeEntryFromPublishedLevel (dalAttestationLag : Int) (publishedLevel : Nat) :
    TzResult (NodeError External) BlockHash :=
  liftError .external (ctxt.hashOfLevel (wrap32 (wrap32 dalAttestationLag + publishedLevel)))

def downloadConfirmedSlotPages (publishedLevel : Nat) (index : Int) :
    TzResult (NodeError External) (List Octets) := do
  let publishedInBlockHash ← liftError .external (ctxt.hashOfLevel publishedLevel)
  let header ← liftError .external (ctxt.getSlotHeader publishedInBlockHash index)
  liftError .external (ctxt.getSlotPages header.commitment)

def storageInvariantBroken {α : Type} (publishedLevel : Nat) (index : Int) :
    TzResult (NodeError External) α :=
  tzfail (.failure ("Internal error: [Node_context.find_slot_status] is supposed to have " ++
    "registered the status of the slot " ++ toString index ++ " published at level " ++
    toString publishedLevel ++ " in the store"))

-- The end of `page_content`, once the status of the slot is known.
def contentOfStatus (pageId : PageId) :
    Option SlotStatus → TzResult (NodeError External) (Option Octets)
  | some .confirmed => do
    let pages ← downloadConfirmedSlotPages ctxt pageId.slotId.publishedLevel pageId.slotId.index
    match pages[pageId.pageIndex.toNat]? with
    | some page => return some page
    | none => tzfail (.dalInvalidPageForSlot pageId)
  | some .unconfirmed => return none
  | none => storageInvariantBroken pageId.slotId.publishedLevel pageId.slotId.index

def pageContent (constants : DalConstants) (dalActivationLevel : Option Nat) (inboxLevel : Int)
    (pageId : PageId) (dalAttestedSlotsValidityLag : Int) :
    TzResult (NodeError External) (Option Octets) := do
  let isValid ← liftRun (pageIdIsValid constants dalActivationLevel ctxt.originationLevel inboxLevel
    dalAttestedSlotsValidityLag pageId)
  if isValid then do
    let confirmedInBlockHash ←
      storeEntryFromPublishedLevel ctxt constants.attestationLag pageId.slotId.publishedLevel
    let processed ← liftError .external
      (ctxt.findSlotStatus confirmedInBlockHash pageId.slotId.index)
    contentOfStatus ctxt pageId processed
  else return none

/-- The case `Request_dal_page` of the evaluation loop: the input that is given to the PVM while the
messages of the inbox at `level` are executed. -/
def dalPageInput (constants : DalConstants) (dalActivationLevel : Option Nat) (level : Int)
    (pageId : PageId) (dalAttestedSlotsValidityLag : Int) : TzResult (NodeError External) Input := do
  let contentOpt ← pageContent ctxt constants dalActivationLevel (wrap32 level) pageId
    dalAttestedSlotsValidityLag
  return .reveal (.dalPage contentOpt)

end Octez.DalPagesRequest
