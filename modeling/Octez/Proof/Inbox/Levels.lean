import Octez.Lib.Digest
import Octez.Model.Inbox
import Octez.Proof.SkipList.Merkle

namespace Octez.Proof.Inbox
open Octez.Lib Octez.SkipList Octez.Inbox Octez.Proof.SkipList

structure Level (Payload : Type) where
  first : Payload
  rest : List Payload

/-- What an inbox is made of: the messages of the first level that depend on the block, and for
each later level the messages between the start and the end of the level. -/
structure Contents (Payload : Type) where
  genesisLevel : Nat
  infoPerLevel : Payload
  protocolMigrationMessage : Payload
  later : List (List Payload)

variable {T : InboxTypes} {H : HashFunctions T} {I : InternalMessages T.Payload}

namespace Level

def messages (level : Level T.Payload) : List T.Payload := level.first :: level.rest

def lastIndex (level : Level T.Payload) : Nat := level.rest.length

def head (H : HashFunctions T) (level : Level T.Payload) : Run T.Merkelized :=
  level.rest.foldlM (PayloadHashes.addPayloadNoHistory H) (PayloadHashes.genesisNoHistory H level.first)

end Level

namespace Contents

def levelPayloads (contents : Contents T.Payload) : Nat → List T.Payload
  | 0 => [contents.infoPerLevel, contents.protocolMigrationMessage]
  | i + 1 => contents.later.getD i []

def levelMessages (I : InternalMessages T.Payload) (contents : Contents T.Payload) (i : Nat) :
    Level T.Payload :=
  ⟨I.startOfLevelSerialized, contents.levelPayloads i ++ [I.endOfLevelSerialized]⟩

def addLevel (H : HashFunctions T)
    (I : InternalMessages T.Payload) (inbox : V1 T) (payloads : List T.Payload) :
    Run (V1 T) := do
  let witness ← payloads.foldlM (PayloadHashes.addPayloadNoHistory H) (initWitnessNoHistory H I)
  finalizeInboxLevelNoHistory H I inbox witness

def inbox (H : HashFunctions T) (I : InternalMessages T.Payload) (contents : Contents T.Payload) :
    Run (V1 T) := do
  let first ←
    genesis H I contents.protocolMigrationMessage contents.infoPerLevel contents.genesisLevel
  contents.later.foldlM (addLevel H I) first

def upTo (contents : Contents T.Payload) (i : Nat) : Contents T.Payload :=
  { contents with later := contents.later.take i }

end Contents

section Hashes
variable (injective : H.Injective)

def payloadCellHash : CellHash T.MessageHash T.PayloadsHash where
  hash := PayloadHashes.hash H
  hash_eq_iff cell cell' := by
    simp only [PayloadHashes.hash, injective.payloadsHashBytes.eq_iff, List.cons.injEq,
      injective.messageHashToBytes.eq_iff, (List.map_injective_iff.2 injective.payloadsHashToBytes).eq_iff]

def inboxCellHash : CellHash (LevelProof T.PayloadsHash) T.InboxHash where
  hash := hashHistoryProof H
  hash_eq_iff cell cell' := by
    obtain ⟨⟨hash, level⟩, backPointers, index⟩ := cell
    obtain ⟨⟨hash', level'⟩, backPointers', index'⟩ := cell'
    simp only [hashHistoryProof, injective.inboxHashBytes.eq_iff, List.cons.injEq,
      injective.payloadsHashToBytes.eq_iff, injective.levelToBytes.eq_iff,
      (List.map_injective_iff.2 injective.inboxHashToBytes).eq_iff, LevelProof.mk.injEq, and_assoc]

end Hashes

abbrev symbolicTypes : InboxTypes := ⟨Nat, Digest, Digest, Digest, Digest⟩

def symbolicHashes : HashFunctions symbolicTypes where
  hashSerializedMessage := .atom
  messageHashToBytes := id
  payloadsHashToBytes := id
  payloadsHashBytes := .ofList
  inboxHashToBytes := id
  inboxHashBytes := .ofList
  levelToBytes := .atom

theorem symbolicHashes_injective : symbolicHashes.Injective where
  hashSerializedMessage _ _ := Digest.atom.inj
  messageHashToBytes := Function.injective_id
  payloadsHashToBytes := Function.injective_id
  payloadsHashBytes := Digest.ofList_injective
  inboxHashToBytes := Function.injective_id
  inboxHashBytes := Digest.ofList_injective
  levelToBytes _ _ := Digest.atom.inj

def symbolicMessages : InternalMessages Nat := ⟨0, 1⟩

-- Level 5 has the messages 0, 2, 3, 1 and level 6 the messages 0, 4, 1.
def twoLevels : Contents Nat := ⟨5, 2, 3, [[4]]⟩

variable {i : Nat} {payload : T.Payload}

theorem index_le_lastIndex {level : Level T.Payload}
    (present : level.messages[i]? = some payload) : i ≤ level.lastIndex := by
  obtain ⟨bound, -⟩ := List.getElem?_eq_some_iff.1 present
  exact Nat.le_of_lt_succ bound

section LevelChain
variable (injective : H.Injective) (level : Level T.Payload)

def levelChain : Chain skipListParameters T.MessageHash T.PayloadsHash :=
  merkleChain skipListParameters (payloadCellHash injective)
    (fun i => H.hashSerializedMessage (level.messages.getD i level.first)) level.lastIndex

theorem levelChain_index (i : Nat) : ((levelChain injective level).cell i).index = i := (rfl)

theorem levelChain_ptr (i : Nat) : (levelChain injective level).ptr i =
      PayloadHashes.hash H ((levelChain injective level).cell i) :=
  (hash_merkleChain_cell (H := payloadCellHash injective) i).symm

theorem hash_eq_levelChain_ptr_iff {cell} :
    PayloadHashes.hash H cell = (levelChain injective level).ptr i ↔
      cell.content = ((levelChain injective level).cell i).content ∧
        cell.backPointers = ((levelChain injective level).cell i).backPointers := by
  rw [levelChain_ptr]
  exact (payloadCellHash injective).hash_eq_iff _ _

theorem addPayloadNoHistory_cell (appended : level.rest[i]? = some payload) :
    PayloadHashes.addPayloadNoHistory H ((levelChain injective level).cell i) payload =
      .ok ((levelChain injective level).cell (i + 1)) := by
  have content : level.messages.getD (i + 1) level.first = payload := by
    simp [Level.messages, appended]
  have built := next_merkleChain skipListParameters (payloadCellHash injective)
    (fun i => H.hashSerializedMessage (level.messages.getD i level.first)) level.lastIndex i
  simp only [content] at built
  exact built

theorem Level.head_eq : level.head H = .ok ((levelChain injective level).cell level.lastIndex) :=
  foldlM_eq_ok_of_steps (levelChain injective level).cell
    fun _ _ appended => addPayloadNoHistory_cell injective level appended

theorem message_of_content {level : Level T.Payload} (inside : i ≤ level.lastIndex) :
    H.hashSerializedMessage payload = ((levelChain injective level).cell i).content ↔
      level.messages[i]? = some payload := by
  have present : level.messages[i]? = some (level.messages.getD i level.first) := by
    have bound : i < level.messages.length := by
      simp only [Level.messages, List.length_cons, Level.lastIndex] at inside ⊢
      omega
    simp [List.getD_eq_getElem?_getD, bound]
  have content : ((levelChain injective level).cell i).content =
      H.hashSerializedMessage (level.messages.getD i level.first) := rfl
  rw [present, content, injective.hashSerializedMessage.eq_iff, Option.some.injEq]
  exact eq_comm

end LevelChain

section InboxChain
variable (injective : H.Injective) (I) (contents : Contents T.Payload)

def levelHash (i : Nat) : T.PayloadsHash :=
  (levelChain injective (contents.levelMessages I i)).ptr (contents.levelMessages I i).lastIndex

def inboxChain : Chain skipListParameters (LevelProof T.PayloadsHash) T.InboxHash :=
  merkleChain skipListParameters (inboxCellHash injective)
    (fun i => ⟨levelHash I injective contents i, contents.genesisLevel + i⟩) contents.later.length

def inboxAt (i : Nat) : V1 T :=
  ⟨contents.genesisLevel + i, (inboxChain I injective contents).cell i⟩

theorem hash_lastCell (i : Nat) :
    PayloadHashes.hash H ((levelChain injective (contents.levelMessages I i)).cell
      (contents.levelMessages I i).lastIndex) = levelHash I injective contents i :=
  (levelChain_ptr injective _ _).symm

theorem exists_head (i : Nat) : ∃ head, (contents.levelMessages I i).head H = .ok head ∧
    PayloadHashes.hash H head = levelHash I injective contents i :=
  ⟨_, Level.head_eq injective _, hash_lastCell I injective contents i⟩

theorem inboxChain_ptr (i : Nat) : (inboxChain I injective contents).ptr i =
      hashHistoryProof H ((inboxChain I injective contents).cell i) :=
  (hash_merkleChain_cell (H := inboxCellHash injective) i).symm

theorem inboxChain_content (i : Nat) : ((inboxChain I injective contents).cell i).content =
    ⟨levelHash I injective contents i, contents.genesisLevel + i⟩ := (rfl)

theorem inboxChain_index (i : Nat) : ((inboxChain I injective contents).cell i).index = i := (rfl)

theorem hash_eq_inboxChain_ptr_iff {cell} :
    hashHistoryProof H cell = (inboxChain I injective contents).ptr i ↔
      cell.content = ((inboxChain I injective contents).cell i).content ∧
        cell.backPointers = ((inboxChain I injective contents).cell i).backPointers := by
  rw [inboxChain_ptr]
  exact (inboxCellHash injective).hash_eq_iff _ _

theorem next_inboxAt (i : Nat) :
    next skipListParameters (inboxAt I injective contents i).oldLevelsMessages
        (hashHistoryProof H (inboxAt I injective contents i).oldLevelsMessages)
        ⟨levelHash I injective contents (i + 1), (inboxAt I injective contents i).level + 1⟩ =
      .ok (inboxAt I injective contents (i + 1)).oldLevelsMessages :=
  next_merkleChain _ (inboxCellHash injective) _ contents.later.length i

theorem genesis_eq :
    genesis H I contents.protocolMigrationMessage contents.infoPerLevel contents.genesisLevel =
      .ok (inboxAt I injective contents 0) := by
  obtain ⟨head, built, hashed⟩ := exists_head I injective contents 0
  simp only [Level.head, Contents.levelMessages, Contents.levelPayloads, List.cons_append,
    List.nil_append, List.foldlM_cons, List.foldlM_nil, bind_eq_ok, pure_eq_ok, Except.ok.injEq] at built
  obtain ⟨withInfo, addedInfo, withMigration, addedMigration, head, addedEnd, rfl⟩ := built
  simp only [Octez.Inbox.genesis, initWitnessNoHistory, addedInfo, addedMigration, addedEnd, hashed, ok_bind,
    pure_eq_ok]
  rfl

theorem Contents.inbox_upTo (le : i ≤ contents.later.length) :
    (contents.upTo i).inbox H I = .ok (inboxAt I injective contents i) := by
  have length : (contents.later.take i).length = i := by rw [List.length_take, min_eq_left le]
  have steps : (contents.later.take i).foldlM (addLevel H I) (inboxAt I injective contents 0) =
      .ok (inboxAt I injective contents (contents.later.take i).length) := by
    apply foldlM_eq_ok_of_steps (inboxAt I injective contents)
    intro j payloads added
    rw [List.getElem?_take] at added
    split at added
    · obtain ⟨head, built, hashed⟩ := exists_head I injective contents (j + 1)
      have payloads_eq : contents.levelPayloads (j + 1) = payloads := by
        simp [Contents.levelPayloads, added]
      simp only [Level.head, Contents.levelMessages, payloads_eq, List.foldlM_append,
        List.foldlM_cons, List.foldlM_nil, bind_eq_ok, pure_eq_ok, Except.ok.injEq] at built
      obtain ⟨open_, appended, head, addedEnd, rfl⟩ := built
      simp only [Contents.addLevel, initWitnessNoHistory, appended, finalizeInboxLevelNoHistory,
        addedEnd, archiveNoHistory, currentLevelProof, hashed, next_inboxAt, ok_bind, pure_eq_ok]
      rfl
    · cases added
  rw [length] at steps
  exact (bind_of_eq_ok (genesis_eq I injective contents) _).trans steps

theorem Contents.inbox_eq :
    contents.inbox H I = .ok (inboxAt I injective contents contents.later.length) := by
  have whole : contents.upTo contents.later.length = contents := by
    rw [Contents.upTo, List.take_length]
  rw [← Contents.inbox_upTo I injective contents le_rfl, whole]

end InboxChain

end Octez.Proof.Inbox
