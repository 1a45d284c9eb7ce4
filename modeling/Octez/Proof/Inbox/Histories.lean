import Octez.Proof.BoundedHistory
import Octez.Proof.Inbox.Levels
import Octez.Model.InboxMessages

namespace Octez.Proof.Inbox
open Octez.Lib Octez.SkipList Octez.Inbox Octez.Proof.BoundedHistory PayloadHashes Contents

variable {T : InboxTypes} [DecidableEq T.Payload] [DecidableEq T.MessageHash] [DecidableEq T.PayloadsHash]
  {H : HashFunctions T} {I : InternalMessages T.Payload}

structure Stored (T : InboxTypes) where
  inbox : V1 T
  history : T.InboxHistory
  payloadsHistories :
    List (T.PayloadsHash × T.PayloadsHistory)

section Build
variable (H : HashFunctions T) (I : InternalMessages T.Payload) (payloadsCapacity : List T.Payload → Int)

def openLevel (payloads : List T.Payload) : T.Result (T.PayloadsHistory × T.Merkelized) := do
  let start ← initWitness H I (BoundedHistory.empty (payloadsCapacity payloads))
  payloads.foldlM (fun state payload => addPayload H state.1 state.2 payload) start

-- `genesis` keeps no history; the payloads of its level are remembered beside it.
def storeGenesis (capacity : Int) (contents : Contents T.Payload) : T.Result (Stored T) := do
  let inbox ← liftRun (Octez.Inbox.genesis H I contents.protocolMigrationMessage
    contents.infoPerLevel contents.genesisLevel)
  let opened ← openLevel H I payloadsCapacity (contents.levelPayloads 0)
  let closed ← addPayload H opened.1 opened.2 I.endOfLevelSerialized
  return ⟨inbox, BoundedHistory.empty capacity, [(hash H closed.2, closed.1)]⟩

variable [DecidableEq T.InboxHash]

def storeLevel (stored : Stored T) (payloads : List T.Payload) : T.Result (Stored T) := do
  let opened ← openLevel H I payloadsCapacity payloads
  let (payloadsHistory, history, witness, inbox) ←
    finalizeInboxLevel H I opened.1 stored.history stored.inbox opened.2
  return ⟨inbox, history, stored.payloadsHistories ++ [(hash H witness, payloadsHistory)]⟩

def store (capacity : Int) (contents : Contents T.Payload) : T.Result (Stored T) := do
  let first ← storeGenesis H I payloadsCapacity capacity contents
  contents.later.foldlM (storeLevel H I payloadsCapacity) first

end Build

structure LargeEnough (I : InternalMessages T.Payload) (contents : Contents T.Payload) (capacity : Int)
    (payloadsCapacity : List T.Payload → Int) : Prop where
  levels : contents.later.length ≤ capacity
  levels_int64 : capacity ≤ maxInt64
  payloads : ∀ i ≤ contents.later.length,
    (contents.levelMessages I i).messages.length ≤ payloadsCapacity (contents.levelPayloads i)
  payloads_int64 : ∀ i ≤ contents.later.length,
    payloadsCapacity (contents.levelPayloads i) ≤ maxInt64

section Level
variable (injective : H.Injective) (level : Level T.Payload) (capacity : Int)

def payloadEntry (i : Nat) : T.MerkelizedAndPayload :=
  ⟨(levelChain injective level).cell i, level.messages.getD i level.first⟩

def levelHistory (n : Nat) : T.PayloadsHistory :=
  upTo capacity (levelChain injective level).ptr (payloadEntry injective level) n

variable {capacity} {i : Nat}

theorem remember_payload (inside : i ≤ level.lastIndex) (fits : i + 1 ≤ capacity)
    (int64 : capacity ≤ maxInt64) :
    remember H (levelHistory injective level capacity i)
        ((levelChain injective level).cell i) (level.messages.getD i level.first) =
      .ok (levelHistory injective level capacity (i + 1)) := by
  have distinct : Set.InjOn (levelChain injective level).ptr (Set.Iic i) :=
    (levelChain injective level).ptr_injOn.mono (Set.Iic_subset_Iic.2 inside)
  have remembered := remember_upTo (payloadEntry injective level) distinct fits int64
  rw [levelChain_ptr] at remembered
  exact (congrArg (liftError _) remembered).trans rfl

theorem addPayload_payload {payload : T.Payload} (appended : level.rest[i]? = some payload)
    (fits : (i + 1 : Nat) + 1 ≤ capacity) (int64 : capacity ≤ maxInt64) :
    addPayload H (levelHistory injective level capacity (i + 1))
        ((levelChain injective level).cell i) payload =
      .ok (levelHistory injective level capacity (i + 1 + 1), (levelChain injective level).cell (i + 1)) := by
  obtain ⟨inside, -⟩ := List.getElem?_eq_some_iff.1 appended
  have remembered := remember_payload injective level inside fits int64
  have content : level.messages.getD (i + 1) level.first = payload := by
    simp [Level.messages, appended]
  rw [content] at remembered
  simp only [addPayload, addPayloadNoHistory_cell injective level appended,
    liftRun_ok, ok_bind, remembered, pure_eq_ok]

end Level

section Inbox
variable (I) (injective : H.Injective) (contents : Contents T.Payload) (capacity : Int)
  (payloadsCapacity : List T.Payload → Int)

def payloadsHistory (i : Nat) : T.PayloadsHistory :=
  levelHistory injective (contents.levelMessages I i)
    (payloadsCapacity (contents.levelPayloads i)) ((contents.levelMessages I i).lastIndex + 1)

def storedAt [DecidableEq T.InboxHash] (i : Nat) : Stored T where
  inbox := inboxAt I injective contents i
  history := upTo capacity (inboxChain I injective contents).ptr
    (inboxChain I injective contents).cell i
  payloadsHistories := (List.range (i + 1)).map fun j =>
    (levelHash I injective contents j, payloadsHistory I injective contents payloadsCapacity j)

variable {I contents capacity payloadsCapacity} {i : Nat}

section
variable (large : LargeEnough I contents capacity payloadsCapacity) (inside : i ≤ contents.later.length)
include large inside

theorem openLevel_eq :
    openLevel H I payloadsCapacity (contents.levelPayloads i) =
      .ok (levelHistory injective (contents.levelMessages I i)
          (payloadsCapacity (contents.levelPayloads i)) ((contents.levelPayloads i).length + 1),
        (levelChain injective (contents.levelMessages I i)).cell (contents.levelPayloads i).length) := by
  have fits := large.payloads i inside
  have int64 := large.payloads_int64 i inside
  simp only [Level.messages, levelMessages, List.length_cons, List.length_append, List.length_nil] at fits
  have start := remember_payload injective (contents.levelMessages I i) (Nat.zero_le _) (by omega) int64
  have opened : genesis H (BoundedHistory.empty _) (contents.levelMessages I i).first = _ :=
    bind_of_eq_ok start _
  refine (bind_of_eq_ok opened _).trans ?_
  apply foldlM_eq_ok_of_steps fun j =>
    (levelHistory injective (contents.levelMessages I i)
      (payloadsCapacity (contents.levelPayloads i)) (j + 1),
      (levelChain injective (contents.levelMessages I i)).cell j)
  intro j payload appended
  obtain ⟨before, -⟩ := List.getElem?_eq_some_iff.1 appended
  have appended' : (contents.levelMessages I i).rest[j]? = some payload := by
    rw [levelMessages, List.getElem?_append_left before, appended]
  exact addPayload_payload injective _ appended' (by omega) int64

theorem addPayload_endOfLevel :
    addPayload H (levelHistory injective (contents.levelMessages I i)
          (payloadsCapacity (contents.levelPayloads i)) ((contents.levelPayloads i).length + 1))
        ((levelChain injective (contents.levelMessages I i)).cell
          (contents.levelPayloads i).length) I.endOfLevelSerialized =
      .ok (payloadsHistory I injective contents payloadsCapacity i,
        (levelChain injective (contents.levelMessages I i)).cell (contents.levelMessages I i).lastIndex) := by
  have fits := large.payloads i inside
  have int64 := large.payloads_int64 i inside
  have lastIndex : (contents.levelMessages I i).lastIndex =
      (contents.levelPayloads i).length + 1 := by
    simp [Level.lastIndex, levelMessages]
  have length : (contents.levelMessages I i).messages.length =
      (contents.levelMessages I i).lastIndex + 1 := rfl
  have appended : (contents.levelMessages I i).rest[(contents.levelPayloads i).length]? =
      some I.endOfLevelSerialized := by
    simp [levelMessages]
  rw [payloadsHistory, lastIndex]
  exact addPayload_payload injective _ appended (by omega) int64

end

variable [DecidableEq T.InboxHash]

section
variable (large : LargeEnough I contents capacity payloadsCapacity)
include large

theorem storeLevel_eq {payloads : List T.Payload} (added : contents.later[i]? = some payloads) :
    storeLevel H I payloadsCapacity (storedAt I injective contents capacity payloadsCapacity i)
        payloads = .ok (storedAt I injective contents capacity payloadsCapacity (i + 1)) := by
  obtain ⟨inside, -⟩ := List.getElem?_eq_some_iff.1 added
  have payloads_eq : payloads = contents.levelPayloads (i + 1) := by
    simp [levelPayloads, added]
  have levels := large.levels
  have distinct : Set.InjOn (inboxChain I injective contents).ptr (Set.Iic i) :=
    (inboxChain I injective contents).ptr_injOn.mono (Set.Iic_subset_Iic.2 inside.le)
  have remembered := remember_upTo (inboxChain I injective contents).cell distinct
    (show (i : Int) + 1 ≤ capacity by omega) large.levels_int64
  rw [inboxChain_ptr] at remembered
  have extended := next_inboxAt I injective contents i
  simp only [inboxAt] at extended
  simp only [storeLevel, payloads_eq, openLevel_eq injective large inside, ok_bind,
    finalizeInboxLevel, addPayload_endOfLevel injective large inside, archive, storedAt, inboxAt, remembered,
    liftError_ok, currentLevelProof, hash_lastCell, extended, liftRun_ok, pure_eq_ok, List.range_succ,
    List.map_append, List.map_cons, List.map_nil]
  rfl

theorem store_eq :
    store H I payloadsCapacity capacity contents =
      .ok (storedAt I injective contents capacity payloadsCapacity contents.later.length) := by
  have genesis : storeGenesis H I payloadsCapacity capacity contents =
      .ok (storedAt I injective contents capacity payloadsCapacity 0) := by
    simp only [storeGenesis, genesis_eq I injective, liftRun_ok, ok_bind,
      openLevel_eq injective large (Nat.zero_le _),
      addPayload_endOfLevel injective large (Nat.zero_le _), hash_lastCell, pure_eq_ok]
    rfl
  rw [store, genesis, ok_bind]
  exact foldlM_eq_ok_of_steps (storedAt I injective contents capacity payloadsCapacity)
    fun _ _ added => storeLevel_eq injective large added

end

end Inbox

variable {T : InboxTypes} {Transfer External : Type} {H : HashFunctions T} {I : InternalMessages T.Payload}
  {S : Serialization Transfer T.Payload External} {state state' : Witnessed H} {payload : T.Payload}
  {payloads : List T.Payload} {witness : T.Merkelized} {ctxt after : Context H}
  {predecessor : String} {calls : List (List (Message Transfer))} {inbox inbox' : V1 T}

def append (H : HashFunctions T)
    (S : Serialization Transfer T.Payload External) (witness : T.Merkelized) (payload : T.Payload) :
    AddResult H S T.Merkelized := do
  errorUnless (witness.index ≤ scRollupMaxNumberOfMessagesPerLevel) .inboxLevelReachedMessagesLimit
  liftRun (addPayloadNoHistory H witness payload)

/-- The witness of a level before its end. -/
def levelWitness (I : InternalMessages T.Payload) (S : Serialization Transfer T.Payload External) (ctxt : Context H)
    (predecessor : String) (payloads : List T.Payload) : AddResult H S T.Merkelized := do
  let witness ← liftRun (addPayloadNoHistory H (initWitnessNoHistory H I)
    (S.infoPerLevelSerialized ctxt.predecessorTimestamp predecessor))
  let witness ← liftRun (cond ctxt.isFirstLevelOfProtocol
    (addPayloadNoHistory H witness S.protocolMigrationSerializedMessage) (pure witness))
  payloads.foldlM (append H S) witness

theorem archiveNoHistory_hash (h : archiveNoHistory H inbox witness = .ok inbox') :
    inbox'.oldLevelsMessages.content.hash = hash H witness := by
  obtain ⟨cell, extended, made⟩ := bind_eq_ok.1 h
  cases made
  obtain ⟨backPointers, -, made⟩ := bind_eq_ok.1 extended
  cases made
  rfl

variable [DecidableEq T.Payload] [DecidableEq T.MessageHash] [DecidableEq T.PayloadsHash]

theorem addPayload_eq_ok (h : addPayload H state.1 state.2 payload = .ok state') :
    addPayloadNoHistory H state.2 payload = .ok state'.2 := by
  obtain ⟨merkelized, added, h⟩ := bind_eq_ok.1 h
  obtain ⟨history, -, h⟩ := bind_eq_ok.1 h
  cases h
  exact liftRun_eq_ok.1 added

theorem addMessage_eq_ok (h : addMessage H S state payload = .ok state') :
    append H S state.2 payload = .ok state'.2 := by
  obtain ⟨inside, h⟩ := unit_bind_eq_ok.1 h
  exact unit_bind_eq_ok.2 ⟨inside, liftRun_eq_ok.2 (addPayload_eq_ok (liftError_eq_ok.1 h))⟩

theorem foldlM_addMessage (h : payloads.foldlM (addMessage H S) state = .ok state') :
    payloads.foldlM (append H S) state.2 = .ok state'.2 := by
  induction payloads generalizing state with
  | nil =>
    cases h
    rfl
  | cons payload payloads ih =>
    obtain ⟨mid, added, h⟩ := bind_eq_ok.1 h
    exact bind_eq_ok.2 ⟨mid.2, addMessage_eq_ok added, ih h⟩

theorem foldlM_addMessages (h : calls.foldlM (Context.addMessages S) ctxt = .ok after) :
    after = { ctxt with currentMessages := after.currentMessages } ∧
      ∃ payloads, calls.flatten.mapM S.serialize = .ok payloads ∧
        payloads.foldlM (append H S) ctxt.currentMessages = .ok after.currentMessages := by
  induction calls generalizing ctxt with
  | nil =>
    cases h
    exact ⟨rfl, [], rfl, rfl⟩
  | cons call calls ih =>
    obtain ⟨mid, added, h⟩ := bind_eq_ok.1 h
    obtain ⟨payloads, serialized, added⟩ := bind_eq_ok.1 added
    obtain ⟨witness, appended, made⟩ := bind_eq_ok.1 added
    cases made
    obtain ⟨state, folded, same⟩ := bind_eq_ok.1 appended
    cases same
    have first := foldlM_addMessage (unit_bind_eq_ok.1 folded).2
    obtain ⟨same, others, serialized', appended'⟩ := ih h
    refine ⟨same, payloads ++ others, ?_, ?_⟩
    · rw [List.flatten_cons, List.mapM_append, liftError_eq_ok.1 serialized, ok_bind, serialized']
      rfl
    · rw [List.foldlM_append, first]
      exact appended'

theorem runLevel_eq_ok (h : ctxt.runLevel I S predecessor calls = .ok after) :
    ∃ payloads, calls.flatten.mapM S.serialize = .ok payloads ∧
      levelWitness I S ctxt predecessor payloads = .ok after.currentMessages ∧
      finalizeInboxLevelNoHistory H I ctxt.inbox after.currentMessages = .ok after.inbox := by
  obtain ⟨informed, informing, h⟩ := bind_eq_ok.1 h
  obtain ⟨info, added, more⟩ := bind_eq_ok.1 (liftRun_eq_ok.1 informing)
  obtain ⟨migrated, migrating, made⟩ := bind_eq_ok.1 more
  cases made
  obtain ⟨full, calling, h⟩ := bind_eq_ok.1 h
  obtain ⟨same, payloads, serialized, appended⟩ := foldlM_addMessages calling
  obtain ⟨inbox, finalized, made⟩ := bind_eq_ok.1 (liftRun_eq_ok.1 h)
  cases made
  rw [same] at finalized
  exact ⟨payloads, serialized, bind_eq_ok.2 ⟨info, liftRun_eq_ok.2 added,
    bind_eq_ok.2 ⟨migrated, liftRun_eq_ok.2 migrating, appended⟩⟩, finalized⟩

/-- What the node gives to `add_all_messages` in the first block of the protocol. -/
def migrationMessage (S : Serialization Transfer T.Payload External) (ctxt : Context H) :
    Option (InternalInboxMessage Transfer) :=
  cond ctxt.isFirstLevelOfProtocol (some (.protocolMigration S.versionValue)) none

section Node
variable {payloadsHistory : T.PayloadsHistory} (injective : H.Injective) (level : Level T.Payload)

/-- A history of the payloads of a level that binds the hashes of its first cells only. -/
structure Tracks (payloadsHistory : T.PayloadsHistory) (n : Nat) : Prop where
  numbered : 0 < payloadsHistory.capacity → ∃ start size, Numbered payloadsHistory start size
  bound : ∀ key entry, payloadsHistory.events key = some entry →
    ∃ i < n, key = (levelChain injective level).ptr i

variable {injective level} {n : Nat}

theorem Tracks.cell (tracks : Tracks injective level payloadsHistory n) (payload : T.Payload) :
    ∃ payloadsHistory', remember H payloadsHistory ((levelChain injective level).cell n) payload =
      .ok payloadsHistory' ∧ Tracks injective level payloadsHistory' (n + 1) := by
  have unbound : ∀ entry, payloadsHistory.events ((levelChain injective level).ptr n) = some entry →
      entry = ⟨(levelChain injective level).cell n, payload⟩ := by
    intro entry found
    obtain ⟨i, before, same⟩ := tracks.bound _ _ found
    exact absurd (SkipList.merklePtr_injective _ _ _ same) before.ne'
  obtain ⟨payloadsHistory', remembered, -, numbered, events⟩ := remember_returns tracks.numbered unbound
  rw [levelChain_ptr] at remembered
  refine ⟨payloadsHistory', (congrArg (liftError _) remembered).trans rfl, numbered, ?_⟩
  intro key entry found
  rcases events key entry found with before | ⟨rfl, -⟩
  · obtain ⟨i, before, rfl⟩ := tracks.bound key entry before
    exact ⟨i, by omega, rfl⟩
  · exact ⟨n, by omega, rfl⟩

theorem Tracks.next (tracks : Tracks injective level payloadsHistory (n + 1))
    (appended : level.rest[n]? = some payload) :
    ∃ payloadsHistory', addPayload H payloadsHistory ((levelChain injective level).cell n) payload =
      .ok (payloadsHistory', (levelChain injective level).cell (n + 1)) ∧
        Tracks injective level payloadsHistory' (n + 1 + 1) := by
  obtain ⟨payloadsHistory', remembered, tracks⟩ := tracks.cell payload
  refine ⟨payloadsHistory', ?_, tracks⟩
  simp only [addPayload, addPayloadNoHistory_cell injective level appended, liftRun_ok, ok_bind,
    remembered, pure_eq_ok]

theorem Tracks.message (tracks : Tracks injective level payloadsHistory (n + 1))
    (appended : level.rest[n]? = some payload) (inside : n ≤ scRollupMaxNumberOfMessagesPerLevel) :
    ∃ payloadsHistory', addMessage H S (payloadsHistory, (levelChain injective level).cell n) payload =
      .ok (payloadsHistory', (levelChain injective level).cell (n + 1)) ∧
        Tracks injective level payloadsHistory' (n + 1 + 1) := by
  obtain ⟨payloadsHistory', added, tracks⟩ := tracks.next appended
  refine ⟨payloadsHistory', unit_bind_eq_ok.2 ⟨?_, liftError_eq_ok.2 added⟩, tracks⟩
  rw [errorUnless_eq_ok, decide_eq_true_iff]
  exact inside

theorem Tracks.messages (tracks : Tracks injective level payloadsHistory (n + 1)) {rest : List T.Payload}
    (placed : level.rest.drop n = payloads ++ rest)
    (h : payloads.foldlM (append H S) ((levelChain injective level).cell n) = .ok witness) :
    ∃ payloadsHistory' m, payloads.foldlM (addMessage H S) (payloadsHistory, (levelChain injective level).cell n) =
        .ok (payloadsHistory', witness) ∧ witness = (levelChain injective level).cell m ∧
      Tracks injective level payloadsHistory' (m + 1) ∧ level.rest.drop m = rest := by
  induction payloads generalizing n payloadsHistory with
  | nil =>
    cases h
    exact ⟨payloadsHistory, n, rfl, rfl, tracks, placed⟩
  | cons payload payloads ih =>
    obtain ⟨next, appended, h⟩ := bind_eq_ok.1 h
    obtain ⟨inside, appended⟩ := unit_bind_eq_ok.1 appended
    have here : level.rest[n]? = some payload := by
      rw [← List.head?_drop, placed]
      rfl
    cases (liftRun_eq_ok.1 appended).symm.trans (addPayloadNoHistory_cell injective level here)
    rw [errorUnless_eq_ok, decide_eq_true_iff] at inside
    obtain ⟨payloadsHistory', added, tracks⟩ := tracks.message here inside
    obtain ⟨_, m, folded, rest⟩ := ih tracks (by rw [← List.tail_drop, placed]; rfl) h
    exact ⟨_, m, bind_eq_ok.2 ⟨_, added, folded⟩, rest⟩

end Node

variable [DecidableEq T.InboxHash] {history : T.InboxHistory} {messages : List (Message Transfer)}

/-- The hash of the last level of the inbox is bound to nothing else. -/
structure Remembers (history : T.InboxHistory) (H : HashFunctions T) (inbox : V1 T) : Prop where
  numbered : 0 < history.capacity → ∃ start size, Numbered history start size
  bound : ∀ cell, history.events (hashHistoryProof H inbox.oldLevelsMessages) = some cell →
    cell = inbox.oldLevelsMessages

/-- The last level of the inbox is added to what the node remembers. -/
structure Extended (H : HashFunctions T) (inbox : V1 T) (history history' : T.InboxHistory) : Prop where
  numbered : 0 < history'.capacity → ∃ start size, Numbered history' start size
  bound : ∀ ptr cell, history'.events ptr = some cell → history.events ptr = some cell ∨
    ptr = hashHistoryProof H inbox.oldLevelsMessages ∧ cell = inbox.oldLevelsMessages

omit [DecidableEq T.Payload] [DecidableEq T.MessageHash] in
theorem Remembers.archive (remembers : Remembers history H inbox) {level : Nat} {archived : V1 T}
    (h : archiveNoHistory H { inbox with level } witness = .ok archived) :
    ∃ history', archive H history { inbox with level } witness = .ok (history', archived) ∧
      Extended H inbox history history' := by
  obtain ⟨history', remembered, -, extended⟩ := remember_returns remembers.numbered remembers.bound
  obtain ⟨cell, next, made⟩ := bind_eq_ok.1 h
  cases made
  exact ⟨history', bind_eq_ok.2 ⟨_, liftError_eq_ok.2 remembered, bind_eq_ok.2 ⟨cell, liftRun_eq_ok.2 next, rfl⟩⟩,
    extended.1, extended.2⟩

theorem addAllMessages_returns (injective : H.Injective) (remembers : Remembers history H ctxt.inbox)
    (serialized : messages.mapM S.serialize = .ok payloads)
    (opened : levelWitness I S ctxt predecessor payloads = .ok witness)
    (finalized : finalizeInboxLevelNoHistory H I ctxt.inbox witness = .ok inbox) :
    ∃ payloadsHistory history' witness' messages',
      addAllMessages H I S (migrationMessage S ctxt) ctxt.predecessorTimestamp predecessor history ctxt.inbox
        messages = .ok (payloadsHistory, history', inbox, witness', messages') ∧
      addPayloadNoHistory H witness I.endOfLevelSerialized = .ok witness' ∧
      inbox.oldLevelsMessages.content.hash = hash H witness' ∧ Extended H ctxt.inbox history history' := by
  let info := S.infoPerLevelSerialized ctxt.predecessorTimestamp predecessor
  let level : Level T.Payload := ⟨I.startOfLevelSerialized, info ::
    (cond ctxt.isFirstLevelOfProtocol [S.protocolMigrationSerializedMessage] [] ++
      (payloads ++ [I.endOfLevelSerialized]))⟩
  have empty (capacity : Int) (small : capacity ≤ maxInt64) :
      Tracks injective level (BoundedHistory.empty capacity) 0 :=
    ⟨numbered_empty small, by rintro _ _ ⟨⟩⟩
  obtain ⟨informed, informing, opened⟩ := bind_eq_ok.1 opened
  obtain ⟨migrated, migrating, opened⟩ := bind_eq_ok.1 opened
  have first : level.rest[0]? = some info := rfl
  cases (liftRun_eq_ok.1 informing).symm.trans (addPayloadNoHistory_cell injective level first)
  obtain ⟨_, started, tracks⟩ := (empty (wrap64 (payloads.length + 3 +
    if (migrationMessage S ctxt).isSome then 1 else 0)) (wrap64_le _)).cell level.first
  obtain ⟨history₁, informs, tracks⟩ := tracks.next first
  obtain ⟨history₂, n, migrates, rfl, tracks, placed⟩ : ∃ history₂ n, addProtocolMigration H S
      (history₁, (levelChain injective level).cell 1) (migrationMessage S ctxt) = .ok (history₂, migrated) ∧
      migrated = (levelChain injective level).cell n ∧ Tracks injective level history₂ (n + 1) ∧
      level.rest.drop n = payloads ++ [I.endOfLevelSerialized] := by
    rw [migrationMessage]
    cases isFirst : ctxt.isFirstLevelOfProtocol with
    | false =>
      rw [isFirst] at migrating
      cases migrating
      exact ⟨history₁, 1, rfl, rfl, tracks, by simp [level, isFirst]⟩
    | true =>
      have second : level.rest[1]? = some S.protocolMigrationSerializedMessage := by simp [level, isFirst]
      rw [isFirst] at migrating
      cases (liftRun_eq_ok.1 migrating).symm.trans (addPayloadNoHistory_cell injective level second)
      obtain ⟨history₂, added, tracks⟩ := tracks.message (S := S) second (by decide)
      refine ⟨history₂, 2, ?_, rfl, tracks, by simp [level, isFirst]⟩
      change liftError _ (S.serialize _) >>= _ = _
      rw [S.migrationSerialized]
      exact added
  obtain ⟨history₃, m, folded, rfl, tracks, placed⟩ := tracks.messages placed opened
  have adds : addPayloads H S (history₂, (levelChain injective level).cell n) payloads =
      .ok (history₃, (levelChain injective level).cell m) := by
    cases payloads with
    | nil => exact folded
    | cons payload payloads => exact unit_bind_eq_ok.2 ⟨rfl, folded⟩
  have last : level.rest[m]? = some I.endOfLevelSerialized := by
    rw [← List.head?_drop, placed]
    rfl
  obtain ⟨_, ends, -⟩ := tracks.next last
  obtain ⟨witness', ended, archived⟩ := bind_eq_ok.1 finalized
  cases ended.symm.trans (addPayloadNoHistory_cell injective level last)
  obtain ⟨history', archives, extended⟩ := remembers.archive archived
  have adding : addAllMessages H I S (migrationMessage S ctxt) ctxt.predecessorTimestamp predecessor history
      ctxt.inbox messages = .ok _ := bind_eq_ok.2 ⟨payloads, liftError_eq_ok.2 serialized,
    bind_eq_ok.2 ⟨_, liftError_eq_ok.2 (bind_eq_ok.2 ⟨_, started, rfl⟩), bind_eq_ok.2 ⟨_, liftError_eq_ok.2 informs,
    bind_eq_ok.2 ⟨_, migrates, bind_eq_ok.2 ⟨_, adds, bind_eq_ok.2 ⟨_, liftError_eq_ok.2
      (bind_eq_ok.2 ⟨_, ends, bind_eq_ok.2 ⟨_, archives, rfl⟩⟩), rfl⟩⟩⟩⟩⟩⟩
  exact ⟨_, history', _, _, adding, ended, archiveNoHistory_hash archived, extended⟩

/-- However the messages of a level are split between operations, the node that remembers its inbox builds
the inbox of the protocol, and both archive the same witness. -/
theorem node_and_protocol_same_inbox (injective : H.Injective) (remembers : Remembers history H ctxt.inbox)
    (ran : ctxt.runLevel I S predecessor calls = .ok after) : ∃ payloadsHistory history' witness messages,
    addAllMessages H I S (migrationMessage S ctxt) ctxt.predecessorTimestamp predecessor history ctxt.inbox
      calls.flatten = .ok (payloadsHistory, history', after.inbox, witness, messages) ∧
    PayloadHashes.addPayloadNoHistory H after.currentMessages I.endOfLevelSerialized = .ok witness ∧
    after.inbox.oldLevelsMessages.content.hash = PayloadHashes.hash H witness ∧
    Extended H ctxt.inbox history history' := by
  obtain ⟨payloads, serialized, opened, finalized⟩ := runLevel_eq_ok ran
  exact addAllMessages_returns injective remembers serialized opened finalized

def symbolicSerialization : Serialization Unit Nat Unit where
  serialize
    | .internal _ => .ok 3
    | .external message => .ok (4 + message.length)
  infoPerLevelSerialized _ _ := 2
  versionValue := "alpha"
  protocolMigrationSerializedMessage := 3
  migrationSerialized := rfl

/-- The first level of a protocol. -/
def firstLevel : Context symbolicHashes :=
  ⟨⟨5, SkipList.genesis ⟨.atom 0, 5⟩⟩, SkipList.genesis (.atom 0), 0, 6, 5⟩

def splitMessages : List (List (Message Unit)) := [[.external "a"], [.external "bc", .external "a"]]

def nextLevel (ctxt : Context symbolicHashes) : Context symbolicHashes :=
  { ctxt with currentLevel := ctxt.currentLevel + 1 }

/-- Two levels, of which the second one begins with the history of the first one. -/
theorem split_messages_same_inbox : ∃ first after added,
    firstLevel.runLevel symbolicMessages symbolicSerialization "" splitMessages = .ok first ∧
    (nextLevel first).runLevel symbolicMessages symbolicSerialization "" splitMessages = .ok after ∧
    (addAllMessages symbolicHashes symbolicMessages symbolicSerialization
      (migrationMessage symbolicSerialization firstLevel) 0 "" (BoundedHistory.empty 3) firstLevel.inbox
      splitMessages.flatten >>= fun result => addAllMessages symbolicHashes symbolicMessages symbolicSerialization
        (migrationMessage symbolicSerialization (nextLevel first)) first.predecessorTimestamp "" result.2.1
        result.2.2.1 splitMessages.flatten) = .ok added ∧ added.2.2.1 = after.inbox := by
  have runs : ∃ first, firstLevel.runLevel symbolicMessages symbolicSerialization "" splitMessages = .ok first ∧
      ((nextLevel first).runLevel symbolicMessages symbolicSerialization "" splitMessages).isOk = true ∧
      hashHistoryProof symbolicHashes first.inbox.oldLevelsMessages ≠
        hashHistoryProof symbolicHashes firstLevel.inbox.oldLevelsMessages := by
    apply exists_ok_of
    decide +kernel
  obtain ⟨first, ran, runs, other⟩ := runs
  obtain ⟨after, ran'⟩ := exists_of_isOk runs
  obtain ⟨_, history, _, _, added, _, _, extended⟩ := node_and_protocol_same_inbox symbolicHashes_injective
    ⟨numbered_empty (show (3 : Int) ≤ maxInt64 by decide), by rintro _ ⟨⟩⟩ ran
  have remembers : Remembers history symbolicHashes (nextLevel first).inbox := by
    refine ⟨extended.numbered, fun cell found => ?_⟩
    rcases extended.bound _ cell found with ⟨⟨⟩⟩ | ⟨same, -⟩
    exact absurd same other
  obtain ⟨_, _, _, _, added', _⟩ := node_and_protocol_same_inbox symbolicHashes_injective remembers ran'
  exact ⟨first, after, _, ran, ran', bind_eq_ok.2 ⟨_, added, added'⟩, rfl⟩

end Octez.Proof.Inbox
