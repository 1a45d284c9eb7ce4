import Octez.Model.Inbox

/-! # Refutation proofs (`src/proto_alpha/lib_protocol/sc_rollup_proof_repr.ml`) -/

namespace Octez.RefutationProof
open Octez.Lib Octez.Inbox

abbrev Octets := List UInt8

abbrev octetTypes : InboxTypes := ⟨Octets, Octets, Octets, Octets, Octets⟩

structure Metadata where
  address : Octets
  originationLevel : Nat
deriving DecidableEq, Repr

inductive RevealScheme where
  | blake2B
deriving DecidableEq, Repr

inductive RevealHash where
  | blake2B (hash : Octets)
deriving DecidableEq, Repr

def schemeOfHash : RevealHash → RevealScheme
  | .blake2B _ => .blake2B

structure SlotId where
  publishedLevel : Nat
  index : Int
deriving DecidableEq, Repr

structure PageId where
  slotId : SlotId
  pageIndex : Int
deriving DecidableEq, Repr

structure CryptoboxParameters where
  slotSize : Int
  pageSize : Int
deriving DecidableEq, Repr

structure DalParameters where
  numberOfSlots : Int
  attestationLag : Int
  slotSize : Int
  pageSize : Int
deriving DecidableEq, Repr

inductive RevealData where
  | rawData (data : Octets)
  | metadata (metadata : Metadata)
  | dalPage (content : Option Octets)
  | dalParameters (parameters : DalParameters)
deriving DecidableEq, Repr

inductive Input where
  | inboxMessage (message : InboxMessage Octets)
  | reveal (data : RevealData)
deriving DecidableEq, Repr

inductive Reveal where
  | revealRawData (hash : RevealHash)
  | revealMetadata
  | requestDalPage (pageId : PageId)
  | revealDalParameters
deriving DecidableEq, Repr

inductive InputRequest where
  | noInputRequired
  | initial
  | firstAfter (level messageCounter : Nat)
  | needsReveal (reveal : Reveal)
deriving DecidableEq, Repr

inductive RevealProof (DalProof : Type) where
  | rawDataProof (data : Octets)
  | metadataProof
  | dalPageProof (pageId : PageId) (proof : DalProof)
  | dalParametersProof
deriving DecidableEq, Repr

inductive InputProof (DalProof : Type) where
  | inboxProof (level messageCounter : Nat) (proof : Octets)
  | revealProof (proof : RevealProof DalProof)
  | firstInboxMessage
deriving DecidableEq, Repr

structure Proof (PvmStep DalProof : Type) where
  pvmStep : PvmStep
  inputProof : Option (InputProof DalProof)
deriving DecidableEq, Repr

inductive Error (External : Type) where
  | scRollupProofCheck (reason : String)
  | scRollupInvalidSerializedInboxProof
  | inbox (err : octetTypes.Error)
  | external (err : External)
deriving DecidableEq, Repr

abbrev IsRevealEnabled := Nat → Reveal → Bool

structure Pvm (State PvmProof External : Type) where
  isInputState : IsRevealEnabled → State → InputRequest
  produceProof : IsRevealEnabled → Option Input → State → TzResult External PvmProof
  verifyProof : IsRevealEnabled → Option Input → PvmProof → TzResult External InputRequest
  proofToString : PvmProof → Option Octets
  proofOfString : Octets → Option PvmProof

structure Parameters where
  metadata : Metadata
  commitInboxLevel : Nat
  dalParameters : CryptoboxParameters
  dalActivationLevel : Option Nat
  dalAttestationLag : Int
  dalNumberOfSlots : Int
  dalAttestedSlotsValidityLag : Int
  isRevealEnabled : IsRevealEnabled

/-- The functions of other modules: the hashes, the internal messages, `hash_string` of the reveal
hashes, the serialization of inbox proofs, and `Dal_slot_repr.History`. -/
structure Environment (DalHistory DalProof External : Type) where
  hashes : HashFunctions octetTypes
  messages : InternalMessages Octets
  hashString : RevealScheme → Octets → RevealHash
  toSerializedProof : Inbox.Proof octetTypes → Octets
  ofSerializedProof : Octets → Option (Inbox.Proof octetTypes)
  dalProduceProof : CryptoboxParameters → PageId → (pageInfo : Option (Octets × Octets)) →
    (getHistory : Octets → Option DalHistory) → DalHistory → TzResult External (DalProof × Option Octets)
  dalVerifyProof : CryptoboxParameters → PageId → DalHistory → DalProof →
    TzResult External (Option Octets)

/-- `PVM_with_context_and_state`, with the bound on the walks through the histories. -/
structure WithState (State DalHistory : Type) where
  state : State
  reveal : RevealHash → Option Octets
  fuel : Nat
  inbox : octetTypes.HistoryProof
  getHistory : Octets → Option octetTypes.HistoryProof
  getPayloadsHistory : Octets → octetTypes.PayloadsHistory
  confirmedSlotsHistory : DalHistory
  getDalHistory : Octets → Option DalHistory
  pageInfo : Option (Octets × Octets)

variable {State PvmProof DalHistory DalProof External : Type}

def proofError {α : Type} (reason : String) : TzResult (Error External) α :=
  tzfail (.scRollupProofCheck reason)

def check (p : Bool) (reason : String) : TzResult (Error External) Unit :=
  if p then .ok () else proofError reason

def serializePvmStep (pvm : Pvm State PvmProof External) (proof : PvmProof) :
    TzResult (Error External) Octets :=
  match pvm.proofToString proof with
  | some p => .ok p
  | none => proofError "Cannot serialize proof"

def unserializePvmStep (pvm : Pvm State PvmProof External) (proof : Octets) :
    TzResult (Error External) PvmProof :=
  match pvm.proofOfString proof with
  | some p => .ok p
  | none => proofError "Cannot unserialize proof"

def cutAtLevel (originationLevel commitInboxLevel : Nat) (input : Input) : Option Input :=
  match input with
  | .inboxMessage message =>
    if message.inboxLevel ≤ originationLevel ∨ commitInboxLevel < message.inboxLevel then none
    else some input
  | .reveal _ => some input

variable (E : Environment DalHistory DalProof External)

def checkInboxProof (snapshot : octetTypes.HistoryProof) (serializedInboxProof : Octets)
    (level counter : Nat) : TzResult (Error External) (Option (InboxMessage Octets)) :=
  match E.ofSerializedProof serializedInboxProof with
  | none => tzfail .scRollupInvalidSerializedInboxProof
  | some inboxProof =>
    liftError .inbox (Inbox.verifyProof E.hashes E.messages level counter snapshot inboxProof)

namespace DalHelpers

/-- `Raw_level_repr.add`. The result may wrap around to a negative `int32`. -/
def addLevel (level i : Int) : Run Int :=
  if i < 0 then .error .assertFalse else .ok (wrap32 (level + i))

def importLevelIsValid (dalActivationLevel : Option Nat) (dalAttestationLag : Int)
    (originationLevel commitInboxLevel publishedLevel : Nat) (dalAttestedSlotsValidityLag : Int) :
    Run Bool := do
  let dalWasActivated :=
    match dalActivationLevel with
    | none => false
    | some dalActivationLevel => decide (dalActivationLevel ≤ publishedLevel)
  let slotPublishedAfterOrigination := decide (originationLevel < publishedLevel)
  let attestedLevel ← addLevel publishedLevel dalAttestationLag
  let notTooRecent := decide (attestedLevel ≤ commitInboxLevel)
  let expirationLevel ← addLevel attestedLevel dalAttestedSlotsValidityLag
  let ttlNotExpired := decide ((commitInboxLevel : Int) ≤ expirationLevel)
  return dalWasActivated && slotPublishedAfterOrigination && notTooRecent && ttlNotExpired

def pagesPerSlot (parameters : CryptoboxParameters) : Run Int :=
  if parameters.pageSize = 0 then .error .divisionByZero
  else .ok (Int.tdiv parameters.slotSize parameters.pageSize)

def pageIdIsValid (params : Parameters) (pageId : PageId) : Run Bool := do
  let numberOfPages ← pagesPerSlot params.dalParameters
  if 0 ≤ pageId.pageIndex ∧ pageId.pageIndex < numberOfPages then
    if 0 ≤ pageId.slotId.index ∧ pageId.slotId.index < params.dalNumberOfSlots then
      importLevelIsValid params.dalActivationLevel params.dalAttestationLag
        params.metadata.originationLevel params.commitInboxLevel pageId.slotId.publishedLevel
        params.dalAttestedSlotsValidityLag
    else return false
  else return false

def verify (params : Parameters) (pageId : PageId)
    (dalSnapshot : DalHistory) (proof : DalProof) : TzResult (Error External) (Option Input) := do
  let pageIsValid ← liftRun (pageIdIsValid params pageId)
  if pageIsValid then do
    let input ← liftError .external
      (E.dalVerifyProof params.dalParameters pageId dalSnapshot proof)
    return some (.reveal (.dalPage input))
  else return none

def produce (params : Parameters) (pageId : PageId)
    (pageInfo : Option (Octets × Octets)) (getHistory : Octets → Option DalHistory)
    (confirmedSlotsHistory : DalHistory) :
    TzResult (Error External) (Option (InputProof DalProof) × Option Input) := do
  let pageIsValid ← liftRun (pageIdIsValid params pageId)
  if pageIsValid then do
    let (proof, contentOpt) ← liftError .external
      (E.dalProduceProof params.dalParameters pageId pageInfo getHistory confirmedSlotsHistory)
    return (some (.revealProof (.dalPageProof pageId proof)), some (.reveal (.dalPage contentOpt)))
  else return (none, none)

end DalHelpers

def firstInput (params : Parameters) : Input :=
  .inboxMessage { inboxLevel := params.metadata.originationLevel + 1, messageCounter := 0,
                  payload := E.messages.startOfLevelSerialized }

/-- `Int64.of_int` of the DAL constants, which is exact. -/
def revealedDalParameters (params : Parameters) : Input :=
  .reveal (.dalParameters
    { numberOfSlots := params.dalNumberOfSlots, attestationLag := params.dalAttestationLag,
      slotSize := params.dalParameters.slotSize, pageSize := params.dalParameters.pageSize })

-- The first half of `valid`: the input that an input proof is about.
def provenInput (params : Parameters)
    (snapshot : octetTypes.HistoryProof) (dalSnapshot : DalHistory) :
    Option (InputProof DalProof) → TzResult (Error External) (Option Input)
  | none => .ok none
  | some (.inboxProof level messageCounter proof) => do
    let inboxMessage ← checkInboxProof E snapshot proof level (messageCounter + 1)
    return inboxMessage.map .inboxMessage
  | some .firstInboxMessage => .ok (some (firstInput E params))
  | some (.revealProof (.rawDataProof data)) => .ok (some (.reveal (.rawData data)))
  | some (.revealProof .metadataProof) => .ok (some (.reveal (.metadata params.metadata)))
  | some (.revealProof (.dalPageProof pageId proof)) =>
    DalHelpers.verify E params pageId dalSnapshot proof
  | some (.revealProof .dalParametersProof) => .ok (some (revealedDalParameters params))

-- The second half of `valid`: the input proof is of the kind that was requested.
def checkRequest : Option (InputProof DalProof) → InputRequest → TzResult (Error External) Unit
  | none, .noInputRequired => .ok ()
  | some .firstInboxMessage, .initial => .ok ()
  | some (.inboxProof level messageCounter _), .firstAfter l n =>
    check (decide (level = l) && decide (messageCounter = n))
      "Level and index of inbox proof are not equal to the one expected in input request."
  | some (.revealProof (.rawDataProof data)), .needsReveal (.revealRawData expectedHash) =>
    check (decide (E.hashString (schemeOfHash expectedHash) data = expectedHash)) "Invalid reveal"
  | some (.revealProof .metadataProof), .needsReveal .revealMetadata => .ok ()
  | some (.revealProof (.dalPageProof pageId _)), .needsReveal (.requestDalPage pid) =>
    check (decide (pageId = pid)) "Dal proof's page ID is not the one expected in input request."
  | some (.revealProof .dalParametersProof), .needsReveal .revealDalParameters => .ok ()
  | _, _ => proofError "Inbox proof and input request are dissociated."

def valid (pvm : Pvm State PvmProof External)
    (params : Parameters) (snapshot : octetTypes.HistoryProof) (dalSnapshot : DalHistory)
    (proof : Proof PvmProof DalProof) :
    TzResult (Error External) (Option Input × InputRequest) := do
  let input ← provenInput E params snapshot dalSnapshot proof.inputProof
  let input := input.bind (cutAtLevel params.metadata.originationLevel params.commitInboxLevel)
  let inputRequested ← liftError .external
    (pvm.verifyProof params.isRevealEnabled input proof.pvmStep)
  checkRequest E proof.inputProof inputRequested
  return (input, inputRequested)

-- The first half of `produce`: the input that the state requests, with its proof.
def requestedInput (params : Parameters) (P : WithState State DalHistory) :
    InputRequest → TzResult (Error External) (Option (InputProof DalProof) × Option Input)
  | .noInputRequired => .ok (none, none)
  | .initial => .ok (some .firstInboxMessage, some (firstInput E params))
  | .firstAfter level messageCounter => do
    let (inboxProof, input) ← liftError .inbox
      (Inbox.produceProof E.hashes E.messages P.fuel P.getPayloadsHistory P.getHistory P.inbox
        level (messageCounter + 1))
    return (some (.inboxProof level messageCounter (E.toSerializedProof inboxProof)), input.map .inboxMessage)
  | .needsReveal (.revealRawData h) =>
    match P.reveal h with
    | none => proofError "No reveal"
    | some data => .ok (some (.revealProof (.rawDataProof data)), some (.reveal (.rawData data)))
  | .needsReveal .revealMetadata =>
    .ok (some (.revealProof .metadataProof), some (.reveal (.metadata params.metadata)))
  | .needsReveal (.requestDalPage pageId) =>
    DalHelpers.produce E params pageId P.pageInfo P.getDalHistory P.confirmedSlotsHistory
  | .needsReveal .revealDalParameters =>
    .ok (some (.revealProof .dalParametersProof), some (revealedDalParameters params))

def produce (pvm : Pvm State PvmProof External)
    (params : Parameters) (P : WithState State DalHistory) :
    TzResult (Error External) (Proof Octets DalProof) := do
  let request := pvm.isInputState params.isRevealEnabled P.state
  let (inputProof, inputGiven) ← requestedInput E params P request
  let inputGiven :=
    inputGiven.bind (cutAtLevel params.metadata.originationLevel params.commitInboxLevel)
  let pvmStepProof ← liftError .external
    (pvm.produceProof params.isRevealEnabled inputGiven P.state)
  let pvmStep ← serializePvmStep pvm pvmStepProof
  return { pvmStep, inputProof }

end Octez.RefutationProof
