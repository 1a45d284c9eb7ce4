import Octez.Model.BoundedHistory
import Octez.Model.SkipList

/-! # Merkelized payload hashes (`src/proto_alpha/lib_protocol/sc_rollup_inbox_merkelized_payload_hashes_repr.ml`) -/

namespace Octez.Inbox
open Octez.Lib Octez.SkipList

/-- The types of the payloads, of the hashes and of the bytes that are hashed. -/
structure InboxTypes where
  Payload : Type
  MessageHash : Type
  PayloadsHash : Type
  InboxHash : Type
  Bytes : Type

/-- The `HASH` modules: each one has `to_bytes` and, for a list of bytes, `hash_bytes`. -/
structure HashFunctions (T : InboxTypes) where
  hashSerializedMessage : T.Payload → T.MessageHash
  messageHashToBytes : T.MessageHash → T.Bytes
  payloadsHashToBytes : T.PayloadsHash → T.Bytes
  payloadsHashBytes : List T.Bytes → T.PayloadsHash
  inboxHashToBytes : T.InboxHash → T.Bytes
  inboxHashBytes : List T.Bytes → T.InboxHash
  levelToBytes : Nat → T.Bytes

structure HashFunctions.Injective {T : InboxTypes} (H : HashFunctions T) : Prop where
  hashSerializedMessage : Function.Injective H.hashSerializedMessage
  messageHashToBytes : Function.Injective H.messageHashToBytes
  payloadsHashToBytes : Function.Injective H.payloadsHashToBytes
  payloadsHashBytes : Function.Injective H.payloadsHashBytes
  inboxHashToBytes : Function.Injective H.inboxHashToBytes
  inboxHashBytes : Function.Injective H.inboxHashBytes
  levelToBytes : Function.Injective H.levelToBytes

structure MerkelizedAndPayload (Payload MessageHash PayloadsHash : Type) where
  merkelized : Cell MessageHash PayloadsHash
  payload : Payload
deriving DecidableEq, Repr

structure LevelProof (PayloadsHash : Type) where
  hash : PayloadsHash
  level : Nat
deriving DecidableEq, Repr

inductive Error (Payload MessageHash PayloadsHash InboxHash : Type) where
  | merkelizedPayloadHashesProofError (message : String)
  | inboxProofError (message : String)
  | inboxSearchError (message : String)
      (result : SearchResult (LevelProof PayloadsHash) InboxHash)
  | payloadsKeyBound (err : BoundedHistory.KeyBoundToDifferentValue PayloadsHash
      (MerkelizedAndPayload Payload MessageHash PayloadsHash))
  | inboxKeyBound (err : BoundedHistory.KeyBoundToDifferentValue InboxHash
      (Cell (LevelProof PayloadsHash) InboxHash))
deriving DecidableEq, Repr

namespace InboxTypes
variable (T : InboxTypes)

abbrev Merkelized := Cell T.MessageHash T.PayloadsHash

abbrev MerkelizedAndPayload := Inbox.MerkelizedAndPayload T.Payload T.MessageHash T.PayloadsHash

abbrev PayloadsHistory := BoundedHistory.History T.PayloadsHash T.MerkelizedAndPayload

abbrev HistoryProof := Cell (LevelProof T.PayloadsHash) T.InboxHash

abbrev InboxHistory := BoundedHistory.History T.InboxHash T.HistoryProof

abbrev Error := Inbox.Error T.Payload T.MessageHash T.PayloadsHash T.InboxHash

abbrev Result (α : Type) := TzResult T.Error α

end InboxTypes

def skipListParameters : Parameters := ⟨4, by decide⟩

section CollectPath
variable {Content Ptr Err : Type} [DecidableEq Ptr]

-- The loop `aux` of `verify_proof` and of `verify_inclusion_proof`, which differ in the cells, the
-- hash and the error of the empty list.
def collectPath (hash : Cell Content Ptr → Ptr) (emptyError : Err) :
    Map Ptr (Cell Content Ptr) → List Ptr → List (Cell Content Ptr) →
      TzResult Err (Map Ptr (Cell Content Ptr) × List Ptr × Cell Content Ptr × Ptr)
  | _, _, [] => tzfail emptyError
  | hashMap, ptrList, [target] =>
    let targetPtr := hash target
    .ok (Map.add targetPtr target hashMap, (targetPtr :: ptrList).reverse, target, targetPtr)
  | hashMap, ptrList, cell :: tail =>
    let ptr := hash cell
    collectPath hash emptyError (Map.add ptr cell hashMap) (ptr :: ptrList) tail

end CollectPath

section
variable {T : InboxTypes} (H : HashFunctions T)

namespace PayloadHashes

def hash (merkelized : T.Merkelized) : T.PayloadsHash :=
  H.payloadsHashBytes
    (H.messageHashToBytes merkelized.content ::
      merkelized.backPointers.map H.payloadsHashToBytes)

def genesisNoHistory (payload : T.Payload) : T.Merkelized :=
  SkipList.genesis (H.hashSerializedMessage payload)

def addPayloadNoHistory (prevMerkelized : T.Merkelized) (payload : T.Payload) :
    Run T.Merkelized :=
  let prevMerkelizedPtr := hash H prevMerkelized
  next skipListParameters prevMerkelized prevMerkelizedPtr (H.hashSerializedMessage payload)

variable [DecidableEq T.Payload] [DecidableEq T.MessageHash] [DecidableEq T.PayloadsHash]
variable (history : T.PayloadsHistory)

def remember (merkelized : T.Merkelized) (payload : T.Payload) : T.Result T.PayloadsHistory :=
  let prevCellPtr := hash H merkelized
  liftError .payloadsKeyBound (BoundedHistory.remember prevCellPtr { merkelized, payload } history)

def genesis (payload : T.Payload) : T.Result (T.PayloadsHistory × T.Merkelized) := do
  let merkelized := genesisNoHistory H payload
  let history ← remember H history merkelized payload
  return (history, merkelized)

def addPayload (prevMerkelized : T.Merkelized) (payload : T.Payload) :
    T.Result (T.PayloadsHistory × T.Merkelized) := do
  let merkelized ← liftRun (addPayloadNoHistory H prevMerkelized payload)
  let history ← remember H history merkelized payload
  return (history, merkelized)

def deref (ptr : T.PayloadsHash) : Option T.Merkelized := do
  let found ← BoundedHistory.find ptr history
  return found.merkelized

def liftPtr (history : T.PayloadsHistory) : List T.Merkelized → List T.PayloadsHash →
      Option (T.MerkelizedAndPayload × List T.Merkelized)
  | _, [] => none
  | acc, [lastPtr] => do
    let found ← BoundedHistory.find lastPtr history
    return (found, (found.merkelized :: acc).reverse)
  | acc, ptr :: rest => do
    let merkelized ← deref history ptr
    liftPtr history (merkelized :: acc) rest

def produceProof (fuel : Nat) (history : T.PayloadsHistory) (index : Nat) (merkelized : T.Merkelized) :
    Run (Option (T.MerkelizedAndPayload × List T.Merkelized)) := do
  let currentPtr := hash H merkelized
  let ptrPath ← backPath skipListParameters (deref history) fuel currentPtr index
  return ptrPath.bind (liftPtr history [])

def verifyProof (inclusionProof : List T.Merkelized) : T.Result (T.Merkelized × T.Merkelized) := do
  let cell ←
    match inclusionProof with
    | cell :: _ => .ok cell
    | [] => tzfail (.merkelizedPayloadHashesProofError "proof is empty")
  let (hashMap, ptrList, target, targetPtr) ←
    collectPath (hash H) (.merkelizedPayloadHashesProofError "proof is empty") Map.empty [] inclusionProof
  let cellPtr := hash H cell
  let valid ← liftRun (validBackPath skipListParameters hashMap cellPtr targetPtr ptrList)
  errorUnless valid (.merkelizedPayloadHashesProofError "invalid proof")
  return (target, cell)

end PayloadHashes

end

/-! # The inbox of a smart rollup (`src/proto_alpha/lib_protocol/sc_rollup_inbox_repr.ml`) -/

structure V1 (T : InboxTypes) where
  level : Nat
  oldLevelsMessages : T.HistoryProof

structure PayloadsProof (T : InboxTypes) where
  proof : List T.Merkelized
  payload : Option T.Payload

structure Proof (T : InboxTypes) where
  inclusionProof : List T.HistoryProof
  messageProof : PayloadsProof T

structure InboxMessage (Payload : Type) where
  inboxLevel : Nat
  messageCounter : Nat
  payload : Payload
deriving DecidableEq, Repr

structure InternalMessages (Payload : Type) where
  startOfLevelSerialized : Payload
  endOfLevelSerialized : Payload

variable {T : InboxTypes} (H : HashFunctions T) (I : InternalMessages T.Payload)

def hashHistoryProof (cell : T.HistoryProof) : T.InboxHash :=
  H.inboxHashBytes
    (H.payloadsHashToBytes cell.content.hash :: H.levelToBytes cell.content.level ::
      cell.backPointers.map H.inboxHashToBytes)

variable (inbox : V1 T)

def takeSnapshot : T.HistoryProof :=
  inbox.oldLevelsMessages

def currentLevelProof (witness : T.Merkelized) : LevelProof T.PayloadsHash :=
  { hash := PayloadHashes.hash H witness, level := inbox.level }

def archiveNoHistory (witness : T.Merkelized) : Run (V1 T) := do
  let prevCell := inbox.oldLevelsMessages
  let prevCellPtr := hashHistoryProof H prevCell
  let oldLevelsMessages ←
    next skipListParameters prevCell prevCellPtr (currentLevelProof H inbox witness)
  return { inbox with oldLevelsMessages }

def initWitnessNoHistory : T.Merkelized :=
  PayloadHashes.genesisNoHistory H I.startOfLevelSerialized

def finalizeInboxLevelNoHistory (witness : T.Merkelized) : Run (V1 T) := do
  let inbox := { inbox with level := inbox.level + 1 }
  let witness ← PayloadHashes.addPayloadNoHistory H witness I.endOfLevelSerialized
  archiveNoHistory H inbox witness

/-- The payloads of `info_per_level` and of the protocol migration are given. -/
def genesis (protocolMigrationMessage infoPerLevel : T.Payload) (level : Nat) :
    Run (V1 T) := do
  let witness := initWitnessNoHistory H I
  let witness ← PayloadHashes.addPayloadNoHistory H witness infoPerLevel
  let witness ← PayloadHashes.addPayloadNoHistory H witness protocolMigrationMessage
  let witness ← PayloadHashes.addPayloadNoHistory H witness I.endOfLevelSerialized
  let levelProof := { hash := PayloadHashes.hash H witness, level }
  return { level, oldLevelsMessages := SkipList.genesis levelProof }

section Histories
variable [DecidableEq T.Payload] [DecidableEq T.MessageHash] [DecidableEq T.PayloadsHash] [DecidableEq T.InboxHash]

def archive (history : T.InboxHistory) (inbox : V1 T) (witness : T.Merkelized) :
    T.Result (T.InboxHistory × V1 T) := do
  let prevCell := inbox.oldLevelsMessages
  let prevCellPtr := hashHistoryProof H prevCell
  let history ← liftError .inboxKeyBound (BoundedHistory.remember prevCellPtr prevCell history)
  let oldLevelsMessages ← liftRun
    (next skipListParameters prevCell prevCellPtr (currentLevelProof H inbox witness))
  return (history, { inbox with oldLevelsMessages })

def initWitness (payloadsHistory : T.PayloadsHistory) : T.Result (T.PayloadsHistory × T.Merkelized) :=
  PayloadHashes.genesis H payloadsHistory I.startOfLevelSerialized

def finalizeInboxLevel (payloadsHistory : T.PayloadsHistory) (history : T.InboxHistory) (inbox : V1 T)
    (witness : T.Merkelized) : T.Result (T.PayloadsHistory × T.InboxHistory × T.Merkelized × V1 T) := do
  let inbox := { inbox with level := inbox.level + 1 }
  let (payloadsHistory, witness) ←
    PayloadHashes.addPayload H payloadsHistory witness I.endOfLevelSerialized
  let (history, inbox) ← archive H history inbox witness
  return (payloadsHistory, history, witness, inbox)

def verifyPayloadsProof (payloadsProof : PayloadsProof T) (headCellHash : T.PayloadsHash) (n : Nat) :
    T.Result (Option T.Payload) := do
  let (payloadCell, headCell) ← PayloadHashes.verifyProof H payloadsProof.proof
  errorUnless (decide (headCellHash = PayloadHashes.hash H headCell))
    (.inboxProofError "message_proof does not match history")
  let maxIndex := headCell.index
  if n = maxIndex + 1 then do
    errorUnless payloadsProof.payload.isNone (.inboxProofError "Payload provided but none expected")
    errorUnless (decide (payloadCell = headCell))
      (.inboxProofError "Provided proof is about a unexpected payload")
    return none
  else if n ≤ maxIndex then do
    let payload ←
      match payloadsProof.payload with
      | some payload => .ok payload
      | none => tzfail (.inboxProofError "Expected a payload but none provided in the proof")
    let payloadHash := H.hashSerializedMessage payload
    let provenPayloadHash := payloadCell.content
    errorUnless (decide (payloadHash = provenPayloadHash)) (.inboxProofError
        "the payload provided does not match the payload's hash found in the message proof")
    let payloadIndex := payloadCell.index
    errorUnless (decide (n = payloadIndex)) (.inboxProofError "found index in message_proof is incorrect")
    return some payload
  else
    tzfail (.inboxProofError
      "Provided message counter is out of the valid range [0 -- (max_index + 1)]")

def producePayloadsProof (fuel : Nat) (getPayloadsHistory : T.PayloadsHash → T.PayloadsHistory)
    (headCellHash : T.PayloadsHash) (index : Nat) : T.Result (PayloadsProof T) := do
  let payloadsHistory := getPayloadsHistory headCellHash
  let headCell ←
    match BoundedHistory.find headCellHash payloadsHistory with
    | some found => .ok found.merkelized
    | none => tzfail (.inboxProofError "could not find head_cell in the payloads_history")
  let headCellMaxIndex := headCell.index
  let targetIndex := min index headCellMaxIndex
  let proof ← liftRun (PayloadHashes.produceProof H fuel payloadsHistory targetIndex headCell)
  match proof with
  | some (found, proof) =>
    if targetIndex = index then return { proof, payload := some found.payload }
    else return { proof, payload := none }
  | none => tzfail (.inboxProofError "could not produce a valid proof.")

def verifyInclusionProof (inclusionProof : List T.HistoryProof) (snapshotHistoryProof : T.HistoryProof) :
    T.Result T.HistoryProof := do
  let (hashMap, ptrList, target, targetPtr) ←
    collectPath (hashHistoryProof H) (.inboxProofError "inclusion proof is empty") Map.empty [] inclusionProof
  let cellPtr := hashHistoryProof H snapshotHistoryProof
  let valid ← liftRun (validBackPath skipListParameters hashMap cellPtr targetPtr ptrList)
  errorUnless valid (.inboxProofError "invalid inclusion proof")
  return target

def produceInclusionProof (fuel : Nat) (deref : T.InboxHash → Option T.HistoryProof)
    (inboxSnapshot : T.HistoryProof) (l : Nat) : T.Result (List T.HistoryProof × T.HistoryProof) := do
  let compare := fun levelProof : LevelProof T.PayloadsHash => (levelProof.level : Int) - l
  let result ← liftRun (search deref compare fuel inboxSnapshot)
  match result.lastCell with
  | .found historyProof => return (result.revPath.reverse, historyProof)
  | .nearest _ _ | .noExactOrLowerPtr | .derefReturnedNone =>
    tzfail (.inboxSearchError "Skip_list.search failed to find a valid path: " result)

-- The end of `verify_proof` and of `produce_proof`: the input that a payload or its absence means.
def readInput (l n : Nat) (inboxSnapshot historyProof : T.HistoryProof) :
    Option T.Payload → Option (InboxMessage T.Payload)
  | some payload => some { inboxLevel := l, messageCounter := n, payload }
  | none =>
    if inboxSnapshot = historyProof then none
    else some { inboxLevel := l + 1, messageCounter := 0, payload := I.startOfLevelSerialized }

def verifyProof (l n : Nat) (inboxSnapshot : T.HistoryProof) (proof : Proof T) :
    T.Result (Option (InboxMessage T.Payload)) := do
  let historyProof ← verifyInclusionProof H proof.inclusionProof inboxSnapshot
  let levelProof := historyProof.content
  let payloadOpt ← verifyPayloadsProof H proof.messageProof levelProof.hash n
  return readInput I l n inboxSnapshot historyProof payloadOpt

def produceProof (fuel : Nat) (getPayloadsHistory : T.PayloadsHash → T.PayloadsHistory)
    (getHistory : T.InboxHash → Option T.HistoryProof) (inboxSnapshot : T.HistoryProof) (l n : Nat) :
    T.Result (Proof T × Option (InboxMessage T.Payload)) := do
  let (inclusionProof, historyProof) ← produceInclusionProof fuel getHistory inboxSnapshot l
  let levelProof := historyProof.content
  let messageProof ← producePayloadsProof H fuel getPayloadsHistory levelProof.hash n
  return ({ inclusionProof, messageProof }, readInput I l n inboxSnapshot historyProof messageProof.payload)

end Histories

end Octez.Inbox
