import Octez.Model.Inbox

namespace Octez.Proof.Inbox
open Octez.Lib Octez.SkipList Octez.Inbox

section CollectPath
variable {Content Ptr Err : Type} [DecidableEq Ptr] (hash : Cell Content Ptr → Ptr)

def hashMapOf (cells : List (Cell Content Ptr)) : Map Ptr (Cell Content Ptr) :=
  cells.foldl (fun map cell => Map.add (hash cell) cell map) Map.empty

theorem collectPath_eq (emptyError : Err) (map : Map Ptr (Cell Content Ptr)) (ptrs : List Ptr)
    (cells : List (Cell Content Ptr)) (target : Cell Content Ptr) :
    collectPath hash emptyError map ptrs (cells ++ [target]) =
      .ok ((cells ++ [target]).foldl (fun map cell => Map.add (hash cell) cell map) map,
        ptrs.reverse ++ (cells ++ [target]).map hash, target, hash target) := by
  induction cells generalizing map ptrs with
  | nil => simp [collectPath]
  | cons cell cells ih =>
    have unfolds : collectPath hash emptyError map ptrs (cell :: (cells ++ [target])) =
        collectPath hash emptyError (Map.add (hash cell) cell map) (hash cell :: ptrs)
          (cells ++ [target]) := by
      cases cells <;> rfl
    rw [List.cons_append, unfolds, ih]
    simp

variable {cells : List (Cell Content Ptr)} {cell : Cell Content Ptr}

theorem collectPath_eq_ok_iff {emptyError : Err} {result} :
    collectPath hash emptyError Map.empty [] cells = .ok result ↔
      ∃ target, cells.getLast? = some target ∧
        result = (hashMapOf hash cells, cells.map hash, target, hash target) := by
  rcases List.eq_nil_or_concat cells with rfl | ⟨init, target, rfl⟩
  · simp [collectPath]
  · simp [collectPath_eq, hashMapOf, eq_comm]

theorem hash_of_foldl_add {map} (addressed : ∀ ptr cell, map ptr = some cell → hash cell = ptr)
    (cells : List (Cell Content Ptr)) (ptr : Ptr) (cell : Cell Content Ptr)
    (found : cells.foldl (fun map cell => Map.add (hash cell) cell map) map ptr = some cell) :
    hash cell = ptr := by
  induction cells generalizing map with
  | nil => exact addressed ptr cell found
  | cons first cells ih =>
    refine ih ?_ found
    intro ptr' cell' added
    simp only [Map.add_apply] at added
    split at added
    · rename_i same
      cases added
      exact same.symm
    · exact addressed ptr' cell' added

theorem hash_of_hashMapOf {ptr : Ptr} (found : hashMapOf hash cells ptr = some cell) : hash cell = ptr :=
  hash_of_foldl_add hash (by simp [Map.empty]) cells ptr cell found

theorem hashMapOf_of_mem (member : cell ∈ cells)
    (unique : ∀ cell' ∈ cells, hash cell' = hash cell → cell' = cell) :
    hashMapOf hash cells (hash cell) = some cell := by
  induction cells using List.reverseRecOn with
  | nil => cases member
  | append_singleton cells last ih =>
    rw [hashMapOf, List.foldl_append, List.foldl_cons, List.foldl_nil, Map.add_apply]
    split
    · rename_i same
      rw [unique last (by simp) same.symm]
    · rename_i different
      have earlier : cell ∈ cells := by
        rcases List.mem_append.1 member with earlier | here
        · exact earlier
        · rw [List.mem_singleton] at here
          exact absurd (by rw [here]) different
      exact ih earlier fun cell' inside => unique cell' (List.mem_append_left _ inside)

end CollectPath

section Verifiers
variable {T : InboxTypes} (H : HashFunctions T) {snapshot : T.HistoryProof}

theorem verifyInclusionProof_eq_ok_iff [DecidableEq T.InboxHash] {inclusionProof} {target} :
    verifyInclusionProof H inclusionProof snapshot = .ok target ↔
      inclusionProof.getLast? = some target ∧
        validBackPath skipListParameters (hashMapOf (hashHistoryProof H) inclusionProof)
          (hashHistoryProof H snapshot) (hashHistoryProof H target)
          (inclusionProof.map (hashHistoryProof H)) = .ok true := by
  simp only [verifyInclusionProof, bind_eq_ok, collectPath_eq_ok_iff, liftRun_eq_ok,
    errorUnless_eq_ok, pure_eq_ok, Except.ok.injEq]
  constructor
  · rintro ⟨_, ⟨_, last, rfl⟩, valid, path, -, accepted, rfl⟩
    exact ⟨last, by rw [path, accepted]⟩
  · rintro ⟨last, path⟩
    exact ⟨_, ⟨target, last, rfl⟩, true, path, (), rfl, rfl⟩

variable [DecidableEq T.PayloadsHash]

theorem payloadHashes_verifyProof_eq_ok_iff {cells} {target cell} :
    PayloadHashes.verifyProof H cells = .ok (target, cell) ↔
      cells.head? = some cell ∧ cells.getLast? = some target ∧
        validBackPath skipListParameters (hashMapOf (PayloadHashes.hash H) cells)
          (PayloadHashes.hash H cell) (PayloadHashes.hash H target)
          (cells.map (PayloadHashes.hash H)) = .ok true := by
  cases cells with
  | nil => simp [PayloadHashes.verifyProof]
  | cons first cells =>
    simp only [PayloadHashes.verifyProof, ok_bind, bind_eq_ok, collectPath_eq_ok_iff,
      liftRun_eq_ok, errorUnless_eq_ok, pure_eq_ok, Except.ok.injEq, Prod.mk.injEq]
    constructor
    · rintro ⟨_, ⟨target', last, rfl⟩, valid, path, -, accepted, rfl, rfl⟩
      exact ⟨rfl, last, by rw [path, accepted]⟩
    · rintro ⟨head, last, path⟩
      cases head
      exact ⟨_, ⟨target, last, rfl⟩, true, path, (), rfl, rfl, rfl⟩

variable [DecidableEq T.MessageHash]

theorem verifyPayloadsProof_eq_ok_iff {payloadsProof}
    {headCellHash : T.PayloadsHash} {n : Nat} {result : Option T.Payload} :
    verifyPayloadsProof H payloadsProof headCellHash n = .ok result ↔
      ∃ payloadCell headCell, PayloadHashes.verifyProof H payloadsProof.proof = .ok (payloadCell, headCell) ∧
        headCellHash = PayloadHashes.hash H headCell ∧
        ((n = headCell.index + 1 ∧ payloadsProof.payload = none ∧ payloadCell = headCell ∧ result = none) ∨
          (n ≤ headCell.index ∧ n = payloadCell.index ∧ ∃ payload, payloadsProof.payload = some payload ∧
              H.hashSerializedMessage payload = payloadCell.content ∧ result = some payload)) := by
  rw [verifyPayloadsProof, bind_eq_ok, Prod.exists]
  refine exists_congr fun payloadCell => exists_congr fun headCell => and_congr_right fun _ => ?_
  simp only [bind_eq_ok, errorUnless_eq_ok, decide_eq_true_eq, exists_const]
  refine and_congr_right fun _ => ?_
  by_cases past : n = headCell.index + 1
  · have beyond : ¬ n ≤ headCell.index := by omega
    simp only [if_pos past, bind_eq_ok, errorUnless_eq_ok, Option.isNone_iff_eq_none,
      decide_eq_true_eq, exists_const, pure_eq_ok, Except.ok.injEq]
    constructor
    · rintro ⟨absent, same, rfl⟩
      exact .inl ⟨past, absent, same, rfl⟩
    · rintro (⟨-, absent, same, rfl⟩ | ⟨inside, -⟩)
      · exact ⟨absent, same, rfl⟩
      · exact absurd inside beyond
  · by_cases inside : n ≤ headCell.index
    · cases payloadsProof.payload with
      | none => simp [past, inside]
      | some payload =>
        simp only [if_neg past, if_pos inside, ok_bind, bind_eq_ok, errorUnless_eq_ok,
          decide_eq_true_eq, exists_const, pure_eq_ok, Except.ok.injEq]
        constructor
        · rintro ⟨hashed, indexed, rfl⟩
          exact .inr ⟨inside, indexed, payload, rfl, hashed, rfl⟩
        · rintro (⟨reached, -⟩ | ⟨-, indexed, _, ⟨⟩, hashed, rfl⟩)
          · exact absurd reached past
          · exact ⟨hashed, indexed, rfl⟩
    · simp [past, inside]

theorem verifyProof_eq_ok_iff [DecidableEq T.InboxHash] (I : InternalMessages T.Payload) {l n : Nat} {proof}
    {input} :
    verifyProof H I l n snapshot proof = .ok input ↔
      ∃ historyProof payload, verifyInclusionProof H proof.inclusionProof snapshot = .ok historyProof ∧
        verifyPayloadsProof H proof.messageProof historyProof.content.hash n = .ok payload ∧
        input = readInput I l n snapshot historyProof payload := by
  simp only [verifyProof, bind_eq_ok, pure_eq_ok, Except.ok.injEq]
  constructor
  · rintro ⟨historyProof, included, payload, proved, rfl⟩
    exact ⟨historyProof, payload, included, proved, rfl⟩
  · rintro ⟨historyProof, payload, included, proved, rfl⟩
    exact ⟨historyProof, included, payload, proved, rfl⟩

end Verifiers

end Octez.Proof.Inbox
