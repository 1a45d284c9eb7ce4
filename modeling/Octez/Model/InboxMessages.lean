import Octez.Model.Inbox

/-! # The messages of a level, for the node (`add_all_messages`) and for the protocol -/

namespace Octez.Inbox
open Octez.Lib Octez.SkipList

inductive InternalInboxMessage (Transfer : Type) where
  | transfer (transfer : Transfer)
  | startOfLevel
  | endOfLevel
  | infoPerLevel (predecessorTimestamp : Int) (predecessor : String)
  | protocolMigration (protocol : String)

inductive Message (Transfer : Type) where
  | internal (message : InternalInboxMessage Transfer)
  | external (message : String)

/-- The protocol does not start if the message of its migration cannot be serialized. -/
structure Serialization (Transfer Payload External : Type) where
  serialize : Message Transfer → TzResult External Payload
  infoPerLevelSerialized : Int → String → Payload
  versionValue : String
  protocolMigrationSerializedMessage : Payload
  migrationSerialized : serialize (.internal (.protocolMigration versionValue)) =
    .ok protocolMigrationSerializedMessage

inductive AddError (InboxError External : Type) where
  | inboxLevelReachedMessagesLimit
  | triedToAddZeroMessages
  | serialization (err : External)
  | inbox (err : InboxError)

def scRollupMaxNumberOfMessagesPerLevel : Nat := 1000000

section
variable {T : InboxTypes} {Transfer External : Type}

/-- The history of the payloads of a level, and its witness. -/
abbrev Witnessed (_ : HashFunctions T) :=
  T.PayloadsHistory × T.Merkelized

abbrev AddResult (_ : HashFunctions T) (_ : Serialization Transfer T.Payload External) (α : Type) :=
  TzResult (AddError T.Error External) α

variable [DecidableEq T.Payload] [DecidableEq T.MessageHash] [DecidableEq T.PayloadsHash] [DecidableEq T.InboxHash]
  (H : HashFunctions T) (I : InternalMessages T.Payload) (S : Serialization Transfer T.Payload External)

variable (state : Witnessed H)

def addMessage (payload : T.Payload) : AddResult H S (Witnessed H) := do
  errorUnless (state.2.index ≤ scRollupMaxNumberOfMessagesPerLevel) .inboxLevelReachedMessagesLimit
  liftError .inbox (PayloadHashes.addPayload H state.1 state.2 payload)

def addMessages (payloads : List T.Payload) : AddResult H S (Witnessed H) := do
  errorUnless (!payloads.isEmpty) .triedToAddZeroMessages
  payloads.foldlM (addMessage H S) state

def addMessagesNoHistory (payloads : List T.Payload) (witness : T.Merkelized) :
    AddResult H S T.Merkelized := do
  let state ← addMessages H S (BoundedHistory.empty 0, witness) payloads
  return state.2

def addProtocolMigration : Option (InternalInboxMessage Transfer) → AddResult H S (Witnessed H)
  | none => .ok state
  | some protocolMigrationMessage => do
    let message ← liftError .serialization (S.serialize (.internal protocolMigrationMessage))
    addMessage H S state message

def addPayloads : List T.Payload → AddResult H S (Witnessed H)
  | [] => .ok state
  | payloads => addMessages H S state payloads

def addAllMessages (protocolMigrationMessage : Option (InternalInboxMessage Transfer))
    (predecessorTimestamp : Int) (predecessor : String) (history : T.InboxHistory)
    (inbox : V1 T) (messages : List (Message Transfer)) :
    AddResult H S (T.PayloadsHistory × T.InboxHistory × V1 T × T.Merkelized × List (Message Transfer)) := do
  let payloads ← liftError .serialization (messages.mapM S.serialize)
  let capacity : Int := payloads.length + 3 + if protocolMigrationMessage.isSome then 1 else 0
  let state ← liftError .inbox (initWitness H I (BoundedHistory.empty (wrap64 capacity)))
  let state ← liftError .inbox (PayloadHashes.addPayload H state.1 state.2
    (S.infoPerLevelSerialized predecessorTimestamp predecessor))
  let state ← addProtocolMigration H S state protocolMigrationMessage
  let state ← addPayloads H S state payloads
  let (payloadsHistory, history, witness, inbox) ← liftError .inbox
    (finalizeInboxLevel H I state.1 history inbox state.2)
  let migration := protocolMigrationMessage.elim [] fun message => [.internal message]
  return (payloadsHistory, history, inbox, witness, [.internal .startOfLevel] ++
    [.internal (.infoPerLevel predecessorTimestamp predecessor)] ++ migration ++ messages ++
    [.internal .endOfLevel])

end

structure Context {T : InboxTypes} (H : HashFunctions T) where
  inbox : V1 T
  currentMessages : T.Merkelized
  predecessorTimestamp : Int
  currentLevel : Int
  firstLevelOfProtocol : Int

namespace Context
variable {T : InboxTypes} {Transfer External : Type} {H : HashFunctions T} (I : InternalMessages T.Payload)
  (S : Serialization Transfer T.Payload External)

section
variable (ctxt : Context H)

/-- What `Raw_context.prepare` does to the messages when a block begins. -/
def prepare : Context H :=
  { ctxt with currentMessages := initWitnessNoHistory H I }

def isFirstLevelOfProtocol : Bool := ctxt.currentLevel - ctxt.firstLevelOfProtocol = 1

def addLevelInfo (predecessor : String) : Run (Context H) := do
  let witness ← PayloadHashes.addPayloadNoHistory H ctxt.currentMessages
    (S.infoPerLevelSerialized ctxt.predecessorTimestamp predecessor)
  let currentMessages ← cond ctxt.isFirstLevelOfProtocol
    (PayloadHashes.addPayloadNoHistory H witness S.protocolMigrationSerializedMessage) (pure witness)
  return { ctxt with currentMessages }

def finalizeInboxLevel : Run (Context H) := do
  let inbox ← finalizeInboxLevelNoHistory H I ctxt.inbox ctxt.currentMessages
  return { ctxt with inbox }

end

variable [DecidableEq T.Payload] [DecidableEq T.MessageHash] [DecidableEq T.PayloadsHash]

/-- `add_external_messages`, and `add_internal_message` for a single message. -/
def addMessages (ctxt : Context H) (messages : List (Message Transfer)) : AddResult H S (Context H) := do
  let payloads ← liftError .serialization (messages.mapM S.serialize)
  let currentMessages ← addMessagesNoHistory H S payloads ctxt.currentMessages
  return { ctxt with currentMessages }

/-- A block whose operations add the messages of the calls. -/
def runLevel (ctxt : Context H) (predecessor : String) (calls : List (List (Message Transfer))) :
    AddResult H S (Context H) := do
  let ctxt ← liftRun ((ctxt.prepare I).addLevelInfo S predecessor)
  let ctxt ← calls.foldlM (addMessages S) ctxt
  liftRun (ctxt.finalizeInboxLevel I)

end Context

end Octez.Inbox
