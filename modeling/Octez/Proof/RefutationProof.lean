import Octez.Model.RefutationProof

namespace Octez.Proof.RefutationProof
open Octez.Lib Octez.Inbox Octez.RefutationProof DalHelpers

variable {State PvmProof DalHistory DalProof External : Type}

/-- What is assumed of the PVM, the reveals, and the proofs of inbox messages and DAL pages for the
request of the given state. -/
structure Trusted (E : Environment DalHistory DalProof External)
    (pvm : Pvm State PvmProof External) (params : Parameters) (P : WithState State DalHistory) : Prop where
  pvm_verifies : ∀ input proof, pvm.produceProof params.isRevealEnabled input P.state = .ok proof →
    pvm.verifyProof params.isRevealEnabled input proof = .ok (pvm.isInputState params.isRevealEnabled P.state)
  pvm_unserializes : ∀ proof serialized, pvm.proofToString proof = some serialized →
    pvm.proofOfString serialized = some proof
  reveal_hashes : ∀ hash data, P.reveal hash = some data →
    E.hashString (schemeOfHash hash) data = hash
  inbox_verifies : ∀ level counter proof input,
    pvm.isInputState params.isRevealEnabled P.state = .firstAfter level counter →
    Octez.Inbox.produceProof E.hashes E.messages P.fuel P.getPayloadsHistory P.getHistory P.inbox
      level (counter + 1) = .ok (proof, input) →
    checkInboxProof E P.inbox (E.toSerializedProof proof) level (counter + 1) = .ok input
  dal_verifies : ∀ pageId proof content,
    pvm.isInputState params.isRevealEnabled P.state = .needsReveal (.requestDalPage pageId) →
    E.dalProduceProof params.dalParameters pageId P.pageInfo P.getDalHistory
      P.confirmedSlotsHistory = .ok (proof, content) →
    E.dalVerifyProof params.dalParameters pageId P.confirmedSlotsHistory proof = .ok content

def RequestsInvalidPage (params : Parameters) (request : InputRequest) : Prop :=
  ∃ pageId, request = .needsReveal (.requestDalPage pageId) ∧ pageIdIsValid params pageId = .ok false

section
variable {E : Environment DalHistory DalProof External} {pvm : Pvm State PvmProof External}
  {params : Parameters} {P : WithState State DalHistory}

@[simp] theorem check_true (reason : String) :
    (check true reason : TzResult (Error External) Unit) = .ok () := rfl

theorem not_requestsInvalidPage {request : InputRequest}
    (other : ∀ pageId, request ≠ .needsReveal (.requestDalPage pageId)) :
    ¬ RequestsInvalidPage params request := by
  rintro ⟨pageId, same, -⟩
  exact other pageId same

variable {inputProof : Option (InputProof DalProof)} {input : Option Input}

theorem dal_produce_cases {pageId : PageId} (produced : produce E params pageId P.pageInfo P.getDalHistory
      P.confirmedSlotsHistory = .ok (inputProof, input)) :
    (pageIdIsValid params pageId = .ok false ∧ inputProof = none ∧ input = none) ∨
    (pageIdIsValid params pageId = .ok true ∧ ∃ proof content,
      E.dalProduceProof params.dalParameters pageId P.pageInfo P.getDalHistory
        P.confirmedSlotsHistory = .ok (proof, content) ∧
      inputProof = some (.revealProof (.dalPageProof pageId proof)) ∧
      input = some (.reveal (.dalPage content))) := by
  obtain ⟨isValid, known, produced⟩ := bind_eq_ok.1 produced
  rw [liftRun_eq_ok] at known
  cases isValid with
  | false =>
    cases produced
    exact .inl ⟨known, rfl, rfl⟩
  | true =>
    obtain ⟨⟨proof, content⟩, page, result⟩ := bind_eq_ok.1 produced
    cases result
    exact .inr ⟨known, proof, content, liftError_eq_ok.1 page, rfl, rfl⟩

theorem requestedInput_spec (trusted : Trusted E pvm params P)
    (requested : requestedInput E params P (pvm.isInputState params.isRevealEnabled P.state) =
      .ok (inputProof, input)) :
    provenInput E params P.inbox P.confirmedSlotsHistory inputProof = .ok input ∧
      (checkRequest E inputProof (pvm.isInputState params.isRevealEnabled P.state) = .ok () ↔
        ¬ RequestsInvalidPage params (pvm.isInputState params.isRevealEnabled P.state)) := by
  cases request : pvm.isInputState params.isRevealEnabled P.state with
  | noInputRequired | initial =>
    rw [request] at requested
    cases requested
    exact ⟨rfl, iff_of_true rfl (not_requestsInvalidPage (by simp))⟩
  | firstAfter level counter =>
    rw [request] at requested
    obtain ⟨⟨proof, message⟩, produced, result⟩ := bind_eq_ok.1 requested
    cases result
    have verified := trusted.inbox_verifies level counter proof message request
      (liftError_eq_ok.1 produced)
    exact ⟨bind_of_eq_ok verified _, iff_of_true (by simp [checkRequest]) (not_requestsInvalidPage (by simp))⟩
  | needsReveal reveal =>
    rw [request] at requested
    cases reveal with
    | revealRawData hash =>
      cases revealed : P.reveal hash with
      | none => simp [requestedInput, revealed, proofError] at requested
      | some data =>
        simp only [requestedInput, revealed] at requested
        cases requested
        have hashed := trusted.reveal_hashes hash data revealed
        exact ⟨rfl, iff_of_true (by simp [checkRequest, hashed]) (not_requestsInvalidPage (by simp))⟩
    | revealMetadata =>
      cases requested
      exact ⟨rfl, iff_of_true rfl (not_requestsInvalidPage (by simp))⟩
    | requestDalPage pageId =>
      rcases dal_produce_cases requested with ⟨isInvalid, rfl, rfl⟩ |
        ⟨isValid, proof, content, page, rfl, rfl⟩
      · exact ⟨rfl, iff_of_false (by simp [checkRequest, proofError])
          (not_not_intro ⟨pageId, rfl, isInvalid⟩)⟩
      · have verified := trusted.dal_verifies pageId proof content request page
        refine ⟨by simp [provenInput, verify, isValid, verified], iff_of_true (by simp [checkRequest]) ?_⟩
        rintro ⟨_, ⟨⟩, isInvalid⟩
        cases isValid.symm.trans isInvalid
    | revealDalParameters =>
      cases requested
      exact ⟨rfl, iff_of_true rfl (not_requestsInvalidPage (by simp))⟩

end

theorem valid_produced_iff (E : Environment DalHistory DalProof External)
    (pvm : Pvm State PvmProof External) (params : Parameters) (P : WithState State DalHistory)
    (trusted : Trusted E pvm params P) (proof : Octez.RefutationProof.Proof Octets DalProof)
    (produced : produce E pvm params P = .ok proof) :
    ∃ pvmStep, unserializePvmStep pvm proof.pvmStep = .ok pvmStep ∧
      ((∃ result, valid E pvm params P.inbox P.confirmedSlotsHistory
          ⟨pvmStep, proof.inputProof⟩ = .ok result) ↔
        ¬ RequestsInvalidPage params (pvm.isInputState params.isRevealEnabled P.state)) := by
  obtain ⟨⟨inputProof, input⟩, requested, produced⟩ := bind_eq_ok.1 produced
  obtain ⟨pvmStep, step, produced⟩ := bind_eq_ok.1 produced
  obtain ⟨serialized, encoded, result⟩ := bind_eq_ok.1 produced
  cases result
  obtain ⟨proven, checks⟩ := requestedInput_spec trusted requested
  have verified := trusted.pvm_verifies _ _ (liftError_eq_ok.1 step)
  have decoded : pvm.proofOfString serialized = some pvmStep := by
    apply trusted.pvm_unserializes
    unfold serializePvmStep at encoded
    split at encoded
    · cases encoded
      assumption
    · cases encoded
  refine ⟨pvmStep, by simp [unserializePvmStep, decoded], ?_⟩
  rw [← checks]
  simp only [valid, proven, ok_bind, verified, liftError_ok]
  constructor
  · rintro ⟨result, accepted⟩
    obtain ⟨⟨⟩, checked, -⟩ := bind_eq_ok.1 accepted
    exact checked
  · intro checked
    exact ⟨_, bind_of_eq_ok checked _⟩

namespace Example

def environment : Environment Unit Unit Unit where
  hashes := ⟨id, id, id, List.flatten, id, List.flatten, fun _ => []⟩
  messages := ⟨[], []⟩
  hashString _ data := .blake2B data
  toSerializedProof _ := []
  ofSerializedProof _ := none
  dalProduceProof _ _ _ _ _ := .ok ((), none)
  dalVerifyProof _ _ _ _ := .ok none

def waitingFor (pageId : PageId) : Pvm Unit Unit Unit where
  isInputState _ _ := .needsReveal (.requestDalPage pageId)
  produceProof _ _ _ := .ok ()
  verifyProof _ _ _ := .ok (.needsReveal (.requestDalPage pageId))
  proofToString _ := some []
  proofOfString _ := some ()

-- Two pages in each slot, and one slot in each level.
def parameters : Parameters where
  metadata := ⟨[], 0⟩
  commitInboxLevel := 10
  dalParameters := ⟨4, 2⟩
  dalActivationLevel := some 0
  dalAttestationLag := 2
  dalNumberOfSlots := 1
  dalAttestedSlotsValidityLag := 5
  isRevealEnabled _ _ := true

def withState : WithState Unit Unit where
  state := ()
  reveal | .blake2B hash => some hash
  fuel := 0
  inbox := SkipList.genesis ⟨[], 0⟩
  getHistory _ := none
  getPayloadsHistory _ := BoundedHistory.empty 0
  confirmedSlotsHistory := ()
  getDalHistory _ := none
  pageInfo := none

theorem trusted (pageId : PageId) :
    Trusted environment (waitingFor pageId) parameters withState where
  pvm_verifies _ _ _ := rfl
  pvm_unserializes _ _ _ := rfl
  reveal_hashes hash data revealed := by
    cases hash
    cases revealed
    rfl
  inbox_verifies _ _ _ _ request := by cases request
  dal_verifies _ _ _ _ produced := by
    cases produced
    rfl

end Example

open Example in
theorem valid_produced_page :
    ∃ pvmStep, unserializePvmStep (waitingFor ⟨⟨3, 0⟩, 1⟩) [] = .ok pvmStep ∧
      ((∃ result, valid environment (waitingFor ⟨⟨3, 0⟩, 1⟩) parameters withState.inbox ()
          ⟨pvmStep, some (.revealProof (.dalPageProof ⟨⟨3, 0⟩, 1⟩ ()))⟩ = .ok result) ↔
        ¬ RequestsInvalidPage parameters (.needsReveal (.requestDalPage ⟨⟨3, 0⟩, 1⟩))) :=
  valid_produced_iff environment (waitingFor ⟨⟨3, 0⟩, 1⟩) parameters withState (trusted _)
    ⟨[], some (.revealProof (.dalPageProof ⟨⟨3, 0⟩, 1⟩ ()))⟩ rfl

open Example in
theorem produced_for_invalid_page_rejected :
    Trusted environment (waitingFor ⟨⟨3, 0⟩, 7⟩) parameters withState ∧
    produce environment (waitingFor ⟨⟨3, 0⟩, 7⟩) parameters withState = .ok ⟨[], none⟩ ∧
    unserializePvmStep (waitingFor ⟨⟨3, 0⟩, 7⟩) [] = .ok () ∧
    valid environment (waitingFor ⟨⟨3, 0⟩, 7⟩) parameters withState.inbox () ⟨(), none⟩ =
      proofError "Inbox proof and input request are dissociated." :=
  ⟨trusted _, rfl, rfl, rfl⟩

end Octez.Proof.RefutationProof
