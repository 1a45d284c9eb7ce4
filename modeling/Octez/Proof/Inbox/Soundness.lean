import Octez.Proof.Inbox.Levels
import Octez.Proof.Inbox.Verification

namespace Octez.Proof.Inbox
open Octez.Lib Octez.SkipList Octez.Inbox Octez.Proof.SkipList PayloadHashes

variable {T : InboxTypes} {H : HashFunctions T}

variable (injective : H.Injective)

section Payloads

/-- `verify_payloads_proof … n` returned the message of index `n`, or there is none and `n` is one
past the last index. -/
def ReadsMessage (level : Level T.Payload) (head : T.Merkelized) (n : Nat) : Option T.Payload → Prop
  | some payload => n ≤ head.index ∧ level.messages[n]? = some payload
  | none => n = head.index + 1

/-- The last cell of the proof carries the index of a message of the level with the hash it
carries. Without a payload, that index is the last one of the level. -/
def LastCellIndexed (H : HashFunctions T) (level : Level T.Payload) (payloadsProof : PayloadsProof T) :
    Prop :=
  ∃ cell, payloadsProof.proof.getLast? = some cell ∧ (∃ payload, level.messages[cell.index]? = some payload ∧
      H.hashSerializedMessage payload = cell.content) ∧
    (payloadsProof.payload = none → cell.index = level.lastIndex)

variable [DecidableEq T.PayloadsHash]

theorem payloadCell_of_verifyProof {level : Level T.Payload} {cells} {payloadCell headCell}
    (verified : verifyProof H cells = .ok (payloadCell, headCell))
    (head : hash H headCell = (levelChain injective level).ptr level.lastIndex) :
    cells.getLast? = some payloadCell ∧
      ∃ i ≤ level.lastIndex, payloadCell.content = ((levelChain injective level).cell i).content := by
  obtain ⟨-, last, path⟩ := (payloadHashes_verifyProof_eq_ok_iff H).1 verified
  rw [head] at path
  have addressed : ContentAddressed (payloadCellHash injective)
      (hashMapOf (hash H) cells) :=
    fun ptr cell found => hash_of_hashMapOf _ found
  obtain ⟨i, le, reached⟩ := validBackPath_sound addressed le_rfl path
  exact ⟨last, i, le, ((hash_eq_levelChain_ptr_iff injective level).1 reached).1⟩

theorem verifyPayloadsProof_readsMessage_iff [DecidableEq T.MessageHash] (injective : H.Injective)
    (level : Level T.Payload) (head : T.Merkelized) (built : level.head H = .ok head) (n : Nat)
    (payloadsProof : PayloadsProof T) (result : Option T.Payload)
    (accepted : verifyPayloadsProof H payloadsProof (PayloadHashes.hash H head) n = .ok result) :
    ReadsMessage level head n result ↔ LastCellIndexed H level payloadsProof := by
  rw [Level.head_eq injective, Except.ok.injEq] at built
  subst built
  have index : ((levelChain injective level).cell level.lastIndex).index = level.lastIndex :=
    (levelChain injective level).cell_index le_rfl
  obtain ⟨payloadCell, headCell, verified, known, shape⟩ :=
    (verifyPayloadsProof_eq_ok_iff H).1 accepted
  rw [← levelChain_ptr] at known
  obtain ⟨last, -⟩ := payloadCell_of_verifyProof injective verified known.symm
  rcases shape with ⟨past, absent, rfl, rfl⟩ | ⟨-, indexed, payload, given_, hashed, rfl⟩
  · simp only [ReadsMessage, index, past, Nat.add_right_cancel_iff]
    constructor
    · intro same
      obtain ⟨payload, present⟩ : ∃ payload, level.messages[level.lastIndex]? = some payload :=
        ⟨_, List.getElem?_eq_getElem (Nat.lt_succ_self _)⟩
      have content := ((hash_eq_levelChain_ptr_iff injective level).1 known.symm).1
      refine ⟨payloadCell, last, ⟨payload, ?_, ?_⟩, fun _ => same⟩
      · rw [same, present]
      · rw [content, message_of_content injective le_rfl, present]
    · rintro ⟨cell, last', -, same⟩
      cases last.symm.trans last'
      exact same absent
  · simp only [ReadsMessage, index, indexed]
    constructor
    · intro read
      refine ⟨payloadCell, last, ⟨payload, read.2, hashed⟩, fun absent => ?_⟩
      cases given_.symm.trans absent
    · rintro ⟨cell, last', ⟨payload', present, hashed'⟩, -⟩
      cases last.symm.trans last'
      cases injective.hashSerializedMessage (hashed'.trans hashed.symm)
      exact ⟨index_le_lastIndex present, present⟩

def twoMessages : Level Nat := ⟨10, [11]⟩

-- The last cell of `twoMessages`, with an index that the prover chooses.
def relabelled (index : Nat) : Cell Digest Digest := ⟨.atom 11, [.ofList [.atom 10]], index⟩

theorem twoMessages_read :
    ReadsMessage (T := symbolicTypes) twoMessages (relabelled 1) 1 (some 11) ↔
      LastCellIndexed symbolicHashes twoMessages ⟨[relabelled 1], some 11⟩ :=
  verifyPayloadsProof_readsMessage_iff symbolicHashes_injective twoMessages (relabelled 1) rfl 1
    ⟨[relabelled 1], some 11⟩ (some 11) rfl

theorem verifyPayloadsProof_accepts_relabelled :
    symbolicHashes.Injective ∧ twoMessages.head symbolicHashes = .ok (relabelled 1) ∧
    (verifyPayloadsProof symbolicHashes ⟨[relabelled 0], some 11⟩
        (PayloadHashes.hash symbolicHashes (relabelled 1)) 0 = .ok (some 11) ∧
      ¬ ReadsMessage (T := symbolicTypes) twoMessages (relabelled 1) 0 (some 11)) ∧
    (verifyPayloadsProof symbolicHashes ⟨[relabelled 41], none⟩
        (PayloadHashes.hash symbolicHashes (relabelled 1)) 42 = .ok none ∧
      ¬ ReadsMessage (T := symbolicTypes) twoMessages (relabelled 1) 42 none) := by
  refine ⟨symbolicHashes_injective, rfl, ⟨rfl, ?_⟩, ⟨rfl, ?_⟩⟩
  · simp [ReadsMessage, twoMessages, Level.messages]
  · simp [ReadsMessage, relabelled]

end Payloads

section Levels
variable {I : InternalMessages T.Payload} {contents : Contents T.Payload} {cell : T.HistoryProof} {j : Nat}

/-- The cell that the payload proof is checked against is the one of level `l`, a message of
level `l` was posted there, and the reading goes on to level `l + 1` only at the end of level `l`
and if that is not the last level. -/
structure SpeaksAboutLevel (H : HashFunctions T)
    (I : InternalMessages T.Payload) (contents : Contents T.Payload) (inbox : V1 T)
    (l n : Nat) (proof : Proof T) (input : Option (InboxMessage T.Payload)) (i : Nat) : Prop where
  inside : i ≤ contents.later.length
  cell : ∃ past cell, (contents.upTo i).inbox H I = .ok past ∧ past.level = l ∧
    proof.inclusionProof.getLast? = some cell ∧ cell.content = past.oldLevelsMessages.content ∧
    cell.backPointers = past.oldLevelsMessages.backPointers
  posted : ∀ message, input = some message → message.inboxLevel = l →
    message.payload ∈ (contents.levelMessages I i).messages
  next : ∀ message, input = some message → message.inboxLevel = l + 1 →
    (contents.levelMessages I i).messages.length = n ∧ l ≠ inbox.level

/-- The last cell of the inclusion proof is labelled with level `l`. If the proof has no payload
and that cell has the hash of the snapshot then it carries the snapshot's index, and if it has
another hash then the first cell of the payload proof carries the last index of level `l`. -/
def CellsLabelled (H : HashFunctions T) (I : InternalMessages T.Payload) (contents : Contents T.Payload)
    (snapshot : T.HistoryProof) (l : Nat) (proof : Proof T) : Prop :=
  ∃ cell, proof.inclusionProof.getLast? = some cell ∧ cell.content.level = l ∧
    (proof.messageProof.payload = none →
      (hashHistoryProof H cell = hashHistoryProof H snapshot → cell.index = snapshot.index) ∧
      (hashHistoryProof H cell ≠ hashHistoryProof H snapshot →
        ∃ first, proof.messageProof.proof.head? = some first ∧
          first.index = (contents.levelMessages I (l - contents.genesisLevel)).lastIndex))

section
variable (inside : j ≤ contents.later.length)
  (hashed : hashHistoryProof H cell = (inboxChain I injective contents).ptr j)
include inside hashed

theorem hash_eq_snapshot_iff :
    hashHistoryProof H cell = hashHistoryProof H
      ((inboxChain I injective contents).cell contents.later.length) ↔ j = contents.later.length := by
  rw [hashed, ← inboxChain_ptr]
  exact (inboxChain I injective contents).ptr_injOn.eq_iff inside (le_refl contents.later.length)

theorem eq_snapshot_iff : (inboxChain I injective contents).cell contents.later.length = cell ↔
      j = contents.later.length ∧
        cell.index = ((inboxChain I injective contents).cell contents.later.length).index := by
  constructor
  · rintro rfl
    exact ⟨(hash_eq_snapshot_iff injective inside hashed).1 rfl, rfl⟩
  · rintro ⟨rfl, index⟩
    obtain ⟨content, pointers⟩ := (hash_eq_inboxChain_ptr_iff I injective contents).1 hashed
    exact Cell.ext content.symm pointers.symm index.symm

end

variable [DecidableEq T.PayloadsHash] [DecidableEq T.InboxHash]

theorem readInput_none_eq_some_iff {l n : Nat} {snapshot} {message} :
    readInput I l n snapshot cell none = some message ↔
      snapshot ≠ cell ∧ message = ⟨l + 1, 0, I.startOfLevelSerialized⟩ := by
  by_cases same : snapshot = cell
  · simp [readInput, same]
  · simp [readInput, same, eq_comm]

theorem goesOn_iff (inside : j ≤ contents.later.length)
    (hashed : hashHistoryProof H cell = (inboxChain I injective contents).ptr j) (n : Nat) (ended : Prop) :
    (∀ message, readInput I (contents.genesisLevel + j) n
        ((inboxChain I injective contents).cell contents.later.length) cell none = some message →
      message.inboxLevel = contents.genesisLevel + j + 1 →
        ended ∧ contents.genesisLevel + j ≠ contents.genesisLevel + contents.later.length) ↔
      (j = contents.later.length →
        cell.index = ((inboxChain I injective contents).cell contents.later.length).index) ∧
      (j ≠ contents.later.length → ended) := by
  have recognized := eq_snapshot_iff injective inside hashed
  rw [ne_eq, Nat.add_right_inj]
  constructor
  · intro next
    have goesOn (other : (inboxChain I injective contents).cell contents.later.length ≠ cell) :=
      next _ (readInput_none_eq_some_iff.2 ⟨other, rfl⟩) rfl
    rw [ne_eq, recognized] at goesOn
    constructor
    · intro atSnapshot
      by_contra relabelled
      exact (goesOn fun same => relabelled same.2).2 atSnapshot
    · intro before
      exact (goesOn fun same => before same.1).1
  · rintro ⟨index, ended⟩ message read -
    obtain ⟨other, -⟩ := readInput_none_eq_some_iff.1 read
    rw [ne_eq, recognized] at other
    have before : j ≠ contents.later.length := fun atSnapshot => other ⟨atSnapshot, index atSnapshot⟩
    exact ⟨ended before, before⟩

variable [DecidableEq T.MessageHash]

theorem verifyProof_cases {l n : Nat} {proof} {input} (accepted : verifyProof H I l n
      ((inboxChain I injective contents).cell contents.later.length) proof = .ok input) :
    ∃ j ≤ contents.later.length, ∃ cell first, proof.inclusionProof.getLast? = some cell ∧
      hashHistoryProof H cell = (inboxChain I injective contents).ptr j ∧
      proof.messageProof.proof.head? = some first ∧
      ((proof.messageProof.payload = none ∧ n = first.index + 1 ∧ input = readInput I l n
          ((inboxChain I injective contents).cell contents.later.length) cell none) ∨
        ∃ payload ∈ (contents.levelMessages I j).messages,
          proof.messageProof.payload = some payload ∧ input = some ⟨l, n, payload⟩) := by
  obtain ⟨cell, payload, included, proved, rfl⟩ := (verifyProof_eq_ok_iff H I).1 accepted
  obtain ⟨last, path⟩ := (verifyInclusionProof_eq_ok_iff H).1 included
  rw [← inboxChain_ptr] at path
  have addressed : ContentAddressed (inboxCellHash injective)
      (hashMapOf (hashHistoryProof H) proof.inclusionProof) :=
    fun ptr cell found => hash_of_hashMapOf _ found
  obtain ⟨j, inside, reached⟩ := validBackPath_sound addressed le_rfl path
  have content := ((hash_eq_inboxChain_ptr_iff I injective contents).1 reached).1
  obtain ⟨payloadCell, headCell, verified, known, shape⟩ :=
    (verifyPayloadsProof_eq_ok_iff H).1 proved
  rw [content] at known
  obtain ⟨first, -⟩ := (payloadHashes_verifyProof_eq_ok_iff H).1 verified
  refine ⟨j, inside, cell, headCell, last, reached, first, ?_⟩
  rcases shape with ⟨past, absent, -, rfl⟩ | ⟨-, -, payload, given_, hashed, rfl⟩
  · exact .inl ⟨absent, past, rfl⟩
  · obtain ⟨-, k, le, same⟩ := payloadCell_of_verifyProof injective verified known.symm
    rw [same, message_of_content injective le] at hashed
    exact .inr ⟨payload, List.mem_of_getElem? hashed, given_, rfl⟩

theorem verifyProof_speaksAboutLevel_iff (injective : H.Injective) (contents : Contents T.Payload)
    (inbox : V1 T) (built : contents.inbox H I = .ok inbox) (l n : Nat) (proof : Proof T)
    (input : Option (InboxMessage T.Payload))
    (accepted : verifyProof H I l n (takeSnapshot inbox) proof = .ok input) :
    (∃ i, SpeaksAboutLevel H I contents inbox l n proof input i) ↔
      CellsLabelled H I contents (takeSnapshot inbox) l proof := by
  rw [Contents.inbox_eq I injective, Except.ok.injEq] at built
  subst built
  simp only [takeSnapshot, inboxAt] at accepted ⊢
  obtain ⟨j, inside, cell, first, last, hashed, head, shape⟩ := verifyProof_cases injective accepted
  obtain ⟨content, pointers⟩ := (hash_eq_inboxChain_ptr_iff I injective contents).1 hashed
  have level : cell.content.level = contents.genesisLevel + j := by rw [content]; rfl
  have snapshotHash := hash_eq_snapshot_iff injective inside hashed
  have goesOn :=
    goesOn_iff injective inside hashed n ((contents.levelMessages I j).messages.length = n)
  constructor
  · rintro ⟨i, before, ⟨past, cell', reached, rfl, last', content', -⟩, -, next⟩
    cases last.symm.trans last'
    rw [Contents.inbox_upTo I injective contents before, Except.ok.injEq] at reached
    subst reached
    have sameLevel : cell.content.level = contents.genesisLevel + i := by rw [content']; rfl
    obtain rfl : j = i := by omega
    refine ⟨cell, last, sameLevel, ?_⟩
    intro absent
    rcases shape with ⟨-, past, rfl⟩ | ⟨payload, -, given_, -⟩
    · obtain ⟨index, ended⟩ := goesOn.1 next
      rw [ne_eq, snapshotHash]
      refine ⟨index, fun other => ⟨first, head, ?_⟩⟩
      have here : (inboxAt I injective contents j).level - contents.genesisLevel = j :=
        Nat.add_sub_cancel_left _ _
      rw [here]
      exact (Nat.succ.inj ((ended other).trans past)).symm
    · cases given_.symm.trans absent
  · rintro ⟨cell', last', atLevel, labelled⟩
    cases last.symm.trans last'
    obtain rfl : l = contents.genesisLevel + j := atLevel.symm.trans level
    refine ⟨j, inside, ⟨inboxAt I injective contents j, cell,
      Contents.inbox_upTo I injective contents inside, rfl, last, content, pointers⟩, ?_, ?_⟩
    · intro message read here
      rcases shape with ⟨-, -, rfl⟩ | ⟨payload, posted, -, rfl⟩
      · obtain ⟨-, rfl⟩ := readInput_none_eq_some_iff.1 read
        exact absurd here (Nat.succ_ne_self _)
      · cases read
        exact posted
    · intro message read beyond
      rcases shape with ⟨absent, past, rfl⟩ | ⟨payload, -, -, rfl⟩
      · have right := labelled absent
        rw [ne_eq, snapshotHash, Nat.add_sub_cancel_left] at right
        refine goesOn.2 ⟨right.1, ?_⟩ message read beyond
        intro other
        obtain ⟨first', head', indexed⟩ := right.2 other
        cases head.symm.trans head'
        rw [past, indexed]
        rfl
      · cases read
        exact absurd beyond (Nat.succ_ne_self _).symm

end Levels

namespace TwoLevels

def startPtr : Digest := .ofList [.atom 0]

def infoPtr : Digest := .ofList [.atom 2, startPtr]

def migrationPtr : Digest := .ofList [.atom 3, infoPtr]

def first : symbolicTypes.HistoryProof := ⟨⟨.ofList [.atom 1, migrationPtr], 5⟩, [], 0⟩

def lastPtr : Digest := .ofList [.atom 1, .ofList [.atom 4, startPtr]]

def second (index : Nat) : symbolicTypes.HistoryProof :=
  ⟨⟨lastPtr, 6⟩, [hashHistoryProof symbolicHashes first], index⟩

theorem inbox_eq : twoLevels.inbox symbolicHashes symbolicMessages = .ok ⟨6, second 1⟩ := rfl

-- A proof of the message 3 of level 5.
def olderLevel : Proof symbolicTypes where
  inclusionProof := [second 1, first]
  messageProof := ⟨[⟨.atom 1, [migrationPtr], 3⟩, ⟨.atom 3, [infoPtr], 2⟩], some 3⟩

-- A proof that level 6 has no message of index 3, from a relabelled snapshot.
def relabelledSnapshot : Proof symbolicTypes where
  inclusionProof := [second 7]
  messageProof := ⟨[⟨.atom 1, [.ofList [.atom 4, startPtr]], 2⟩], none⟩

end TwoLevels

open TwoLevels in
theorem twoLevels_speaksAboutLevel :
    (∃ i, SpeaksAboutLevel symbolicHashes symbolicMessages twoLevels ⟨6, second 1⟩ 5 2 olderLevel
      (some ⟨5, 2, 3⟩) i) ↔
    CellsLabelled symbolicHashes symbolicMessages twoLevels (second 1) 5 olderLevel :=
  verifyProof_speaksAboutLevel_iff symbolicHashes_injective twoLevels ⟨6, second 1⟩ inbox_eq 5 2
    olderLevel (some ⟨5, 2, 3⟩) rfl

open TwoLevels in
theorem verifyProof_accepts_other_level :
    symbolicHashes.Injective ∧ twoLevels.inbox symbolicHashes symbolicMessages = .ok ⟨6, second 1⟩ ∧
    (verifyProof symbolicHashes symbolicMessages 6 2 (second 1) olderLevel =
        .ok (some ⟨6, 2, 3⟩) ∧
      ¬ ∃ i, SpeaksAboutLevel symbolicHashes symbolicMessages twoLevels ⟨6, second 1⟩ 6 2
        olderLevel (some ⟨6, 2, 3⟩) i) ∧
    (verifyProof symbolicHashes symbolicMessages 6 3 (second 1) relabelledSnapshot =
        .ok (some ⟨7, 0, 0⟩) ∧
      ¬ ∃ i, SpeaksAboutLevel symbolicHashes symbolicMessages twoLevels ⟨6, second 1⟩ 6 3
        relabelledSnapshot (some ⟨7, 0, 0⟩) i) := by
  refine ⟨symbolicHashes_injective, inbox_eq, ⟨rfl, ?_⟩, ⟨rfl, ?_⟩⟩
  · rintro ⟨i, speaks⟩
    obtain ⟨past, cell, reached, level, last, content, -⟩ := speaks.cell
    cases last
    rcases Nat.le_one_iff_eq_zero_or_eq_one.1 speaks.inside with rfl | rfl
    · cases reached
      cases level
    · cases reached
      exact absurd (congrArg LevelProof.level content) (by decide)
  · rintro ⟨i, speaks⟩
    exact (speaks.next _ rfl rfl).2 rfl

end Octez.Proof.Inbox
