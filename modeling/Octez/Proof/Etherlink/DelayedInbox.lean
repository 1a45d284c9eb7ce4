import Octez.Proof.Etherlink.LinkedList
import Octez.Model.Etherlink.Upgrade

namespace Octez.Proof.Etherlink
open Octez.Lib Octez.Etherlink Durable

inductive Operation (Elt : Type) where
  | push (id : Bytes) (elt : Elt)
  | remove (id : Bytes)
  | popFirst
  | reload
deriving DecidableEq, Repr

namespace Operation
variable {Value Elt : Type}

/-- What the operation is for: a sequence with distinct ids, the oldest element first. -/
def apply (items : List (Bytes × Elt)) : Operation Elt → Option Elt × List (Bytes × Elt)
  | .push id elt => (none, if id ∈ keys items then items else items ++ [(id, elt)])
  | .remove id => (items.lookup id, items.eraseP fun item => item.1 = id)
  | .popFirst => (items.head?.map Prod.snd, items.tail)
  | .reload => (none, items)

def applyAll (items : List (Bytes × Elt)) :
    List (Operation Elt) → List (Option Elt) × List (Bytes × Elt)
  | [] => ([], items)
  | operation :: operations =>
    let (result, items) := operation.apply items
    let (results, items) := applyAll items operations
    (result :: results, items)

variable [Rlp Value Pointer] [Rlp Value LinkedList] [Rlp Value Elt]

def perform (list : LinkedList) (host : Host Value) :
    Operation Elt → Except Etherlink.StorageError (Option Elt × LinkedList × Host Value)
  | .push id elt => do
    let updated ← list.push host id elt
    return (none, updated)
  | .remove id => list.remove host id
  | .popFirst => list.popFirst host
  | .reload => do
    let list ← LinkedList.new list.path host
    return (none, list, host)

def performAll (list : LinkedList) (host : Host Value) :
    List (Operation Elt) → Except Etherlink.StorageError (List (Option Elt) × LinkedList × Host Value)
  | [] => return ([], list, host)
  | operation :: operations => do
    let (result, list, host) ← operation.perform list host
    let (results, list, host) ← performAll list host operations
    return (result :: results, list, host)

def usesStaleBack (list : LinkedList) (host : Host Value) : Operation Elt → Bool
  | .push id _ => Pointer.read host list.path id = .ok none ∧ ¬backUpToDate list host
  | _ => false

def neverUsesStaleBack (list : LinkedList) (host : Host Value) : List (Operation Elt) → Bool
  | [] => true
  | operation :: operations =>
    !operation.usesStaleBack list host &&
      match operation.perform list host with
      | .ok (_, list, host) => neverUsesStaleBack list host operations
      | .error _ => true

end Operation

section
variable {Value Elt : Type} [Rlp Value Pointer] [Rlp Value LinkedList] [Rlp Value Elt]
  {root : Path Step} {list : LinkedList} {host : Host Value} {items : List (Bytes × Elt)}
  {previous : Bytes → Option Bytes} {id : Bytes}

omit [Rlp Value Pointer] [Rlp Value LinkedList] [Rlp Value Elt] in
theorem split_of_mem (distinct : (keys items).Nodup) (present : id ∈ keys items) : ∃ left elt right,
    items = left ++ (id, elt) :: right ∧ (items.eraseP fun item => item.1 = id) = left ++ right ∧
      items.lookup id = some elt := by
  obtain ⟨item, member, rfl⟩ := List.mem_map.1 present
  obtain ⟨left, right, rfl⟩ := List.append_of_mem member
  have parts := distinct
  rw [Represents.keys_split, List.nodup_append] at parts
  have apart : ∀ other ∈ left, ¬(decide (other.1 = item.1) = true) := fun other member same =>
    parts.2.2 _ (List.mem_map_of_mem member) _ List.mem_cons_self (of_decide_eq_true same)
  refine ⟨left, item.2, right, rfl, ?_, Represents.lookup_split distinct⟩
  rw [List.eraseP_append_right _ apart, List.eraseP_cons_of_pos (by simp)]

theorem Represents.remove_member (rep : Represents previous root list host items)
    (present : id ∈ keys items) (leads : LeadsBack previous (keys items) id) : ∃ list' host',
    list.remove host id = .ok (items.lookup id, list', host') ∧
      Represents (relinked previous (keys items) id) root list' host'
        (items.eraseP fun item => item.1 = id) ∧ SameOutside root host host' := by
  obtain ⟨left, elt, right, rfl, erased, found⟩ := split_of_mem rep.distinct present
  rw [erased, found]
  exact rep.remove_present leads

/-- All links are right. -/
abbrev Linked (root : Path Step) (list : LinkedList) (host : Host Value) (items : List (Bytes × Elt)) : Prop :=
  Represents (keyBefore (keys items)) root list host items

namespace Linked
open Represents

theorem of_vacant (vacant : host.hasTree root = false) :
    Linked root { path := root, pointers := none } host ([] : List (Bytes × Elt)) := by
  refine ⟨rfl, List.nodup_nil, rfl, none, eq_content ?_ ?_ ?_ ?_, .inr ⟨rfl, rfl⟩⟩
  · exact hasTree_eq_false.1 vacant _
  · intro id
    exact hasTree_eq_false.1 vacant _
  · intro id
    exact hasTree_eq_false.1 vacant _
  · intro rest _ _ _
    exact hasTree_eq_false.1 vacant rest

section
variable (rep : Linked root list host items)
include rep

theorem remove (id : Bytes) : ∃ list' host', list.remove host id = .ok (items.lookup id, list', host') ∧
    Linked root list' host' (items.eraseP fun item => item.1 = id) := by
  by_cases present : id ∈ keys items
  · obtain ⟨left, elt, right, rfl, erased, found⟩ := split_of_mem rep.distinct present
    rw [erased, found]
    obtain ⟨list', host', removed, rep', -⟩ := rep.remove_present (leadsBack_keyBefore _ id)
    refine ⟨list', host', removed, rep'.congr fun other member => ?_⟩
    have distinct := rep.distinct
    rw [keys_append] at member
    rw [keys_split] at distinct ⊢
    rw [keys_append]
    exact relinked_keyBefore distinct member
  · have untouched : (items.eraseP fun item => item.1 = id) = items :=
      List.eraseP_of_forall_not fun item member same =>
        present (of_decide_eq_true same ▸ List.mem_map_of_mem member)
    rw [untouched, lookup_eq_none.2 present]
    exact ⟨list, host, rep.remove_absent present, rep⟩

theorem popFirst : ∃ list' host', list.popFirst host = .ok (items.head?.map Prod.snd, list', host') ∧
    Linked root list' host' items.tail := by
  unfold LinkedList.popFirst
  obtain ⟨pointers, rfl⟩ | ⟨ends, item, rest, pointers, rfl, front⟩ := rep.cases_ends
  · rw [pointers]
    exact ⟨list, host, rfl, rep⟩
  · rw [pointers]
    dsimp only
    rw [front]
    have removed := rep.remove item.1
    rwa [List.lookup_cons_self, List.eraseP_cons_of_pos (by simp)] at removed

theorem push {id : Bytes} {elt : Elt}
    (fresh : ¬(Operation.push id elt).usesStaleBack list host) : ∃ list' host',
    list.push host id elt = .ok (list', host') ∧
      Linked root list' host' (if id ∈ keys items then items else items ++ [(id, elt)]) := by
  split
  · rename_i present
    exact ⟨list, host, rep.push_present elt present, rep⟩
  · rename_i absent
    have upToDate : backUpToDate list host = true := by
      by_contra stale
      apply fresh
      simp only [Operation.usesStaleBack, rep.path, rep.read_pointer, pointerIn, if_neg absent]
      simpa using stale
    refine ⟨_, _, ?_, (rep.append elt absent).congr fun other member => ?_⟩
    · rw [LinkedList.push, rep.path, rep.read_pointer, pointerIn, if_neg absent]
      rfl
    · rw [keys_concat] at member ⊢
      refine pushed_keyBefore absent (fun last => ?_) member
      obtain ⟨pointers, rfl⟩ | ⟨ends, -, -, pointers, -, -⟩ := rep.cases_ends
      · cases last
      · have isLast := rep.ends
        rw [pointers] at isLast ⊢
        cases isLast.2.symm.trans last
        exact rep.back_previous pointers upToDate

theorem perform (operation : Operation Elt) (fresh : ¬operation.usesStaleBack list host) : ∃ list' host',
    operation.perform list host = .ok ((operation.apply items).1, list', host') ∧
      Linked root list' host' (operation.apply items).2 := by
  cases operation with
  | push id elt =>
    obtain ⟨list', host', pushed, rep'⟩ := rep.push fresh
    refine ⟨list', host', ?_, rep'⟩
    rw [Operation.perform, pushed]
    rfl
  | remove id =>
    obtain ⟨list', host', removed, rep'⟩ := rep.remove id
    exact ⟨list', host', removed, rep'⟩
  | popFirst =>
    obtain ⟨list', host', removed, rep'⟩ := rep.popFirst
    exact ⟨list', host', removed, rep'⟩
  | reload =>
    refine ⟨list, host, ?_, rep⟩
    rw [Operation.perform, rep.path, rep.reload]
    rfl

theorem performAll (operations : List (Operation Elt))
    (fresh : Operation.neverUsesStaleBack list host operations) : ∃ list' host',
    Operation.performAll list host operations =
        .ok ((Operation.applyAll items operations).1, list', host') ∧
      Linked root list' host' (Operation.applyAll items operations).2 := by
  induction operations generalizing list host items with
  | nil => exact ⟨list, host, rfl, rep⟩
  | cons operation operations ih =>
    rw [Operation.neverUsesStaleBack, Bool.and_eq_true, Bool.not_eq_true'] at fresh
    obtain ⟨list', host', performed, rep'⟩ := rep.perform operation (by simp [fresh.1])
    have later := fresh.2
    rw [performed] at later
    obtain ⟨list'', host'', rest, rep''⟩ := ih rep' later
    refine ⟨list'', host'', ?_, rep''⟩
    rw [Operation.performAll, performed, ok_bind]
    dsimp only
    rw [rest]
    rfl

end

end Linked

structure AnswersFor (list : LinkedList) (host : Host Value) (items : List (Bytes × Elt)) : Prop where
  distinct : (keys items).Nodup
  first : list.first Elt host = .ok (items.head?.map Prod.snd)
  firstWithId : list.firstWithId Elt host = .ok items.head?
  find : ∀ id, list.find host id = .ok (items.lookup id)
  isEmpty : list.isEmpty = items.isEmpty

/-- A run from an empty path is a run of the sequence, and returns what that returns. -/
theorem linkedList_runs_as_queue (root : Path Step) (host : Host Value)
    (vacant : host.hasTree root = false) (operations : List (Operation Elt)) :
    ∃ list, LinkedList.new root host = .ok list ∧
      (Operation.neverUsesStaleBack list host operations → ∃ list' host',
        Operation.performAll list host operations =
          .ok ((Operation.applyAll [] operations).1, list', host') ∧
        AnswersFor list' host' (Operation.applyAll [] operations).2) := by
  have rep : Linked root _ host ([] : List (Bytes × Elt)) := .of_vacant vacant
  refine ⟨_, rep.reload, fun fresh => ?_⟩
  obtain ⟨list', host', performed, rep'⟩ := rep.performAll operations fresh
  exact ⟨list', host', performed,
    ⟨rep'.distinct, rep'.first_eq, rep'.firstWithId_eq, rep'.find_eq, rep'.isEmpty_eq⟩⟩

end

inductive Cell where
  | pointer (pointer : Pointer)
  | list (list : LinkedList)
  | data (data : Nat)
deriving DecidableEq, Repr

instance : Rlp Cell Pointer where
  encode := .pointer
  decode | .pointer pointer => some pointer | _ => none
  decode_encode _ := rfl

instance : Rlp Cell LinkedList where
  encode := .list
  decode | .list list => some list | _ => none
  decode_encode _ := rfl

instance : Rlp Cell Nat where
  encode := .data
  decode | .data data => some data | _ => none
  decode_encode _ := rfl

theorem linkedList_runs_as_queue_popped : ∃ list list', ∃ host' : Host Cell,
    LinkedList.new [.name .data] (Durable.empty : Host Cell) = .ok list ∧
      Operation.performAll list Durable.empty [.push [1] 10, .push [2] 20, .remove [1], .popFirst] =
        .ok ([none, none, some 10, some 20], list', host') ∧ list'.isEmpty = true := by
  obtain ⟨list, created, runs⟩ := linkedList_runs_as_queue [.name .data] (empty : Host Cell)
    rfl [.push [1] 10, .push [2] 20, .remove [1], .popFirst]
  cases created
  obtain ⟨list', host', performed, answers⟩ := runs (by decide)
  exact ⟨_, list', host', rfl, performed, answers.isEmpty⟩

/-- Once the element before the last is removed, a push writes back the old link of the last one, and
removing that one skips the elements before it. -/
theorem linkedList_loses_element :
    Operation.applyAll [] [.push [1] 10, .push [2] 20, .push [3] 30, .remove [2], .push [4] 40,
      .remove [3]] = ([none, none, none, some 20, none, some 30], [([1], 10), ([4], 40)]) ∧
    ∃ list host, Operation.performAll { path := [.name .data], pointers := none }
        (Durable.empty : Host Cell) [.push [1] 10, .push [2] 20, .push [3] 30, .remove [2],
          .push [4] 40, .remove [3]] = .ok ([none, none, none, some 20, none, some 30], list, host) ∧
      list.first Nat host = .ok (some 40) := by
  exact ⟨by decide, _, _, rfl, rfl⟩

open DelayedInbox

abbrev DelayedItems := List (Bytes × DelayedInboxItem)

def InboxHolds (inbox : LinkedList) (host : Host Entry) (items : DelayedItems) : Prop :=
  ∃ previous, Represents previous delayedInboxPath inbox host items

variable {inbox : LinkedList} {host host' : Host Entry} {items : DelayedItems} {hash : Bytes}
  {root : Path Step} {previous : Bytes → Option Bytes}

theorem Represents.of_sameBelow (rep : Represents previous root inbox host items)
    (same : Durable.SameBelow root host host') : Represents previous root inbox host' items := by
  obtain ⟨path, distinct, ends, saved, stored, kept⟩ := rep
  exact ⟨path, distinct, ends, saved, fun rest => (same rest).trans (stored rest), kept⟩

theorem InboxHolds.lookup_unique {items' : DelayedItems}
    (holds : InboxHolds inbox host items) (holds' : InboxHolds inbox host items') (id : Bytes) :
    items.lookup id = items'.lookup id := by
  obtain ⟨_, rep⟩ := holds
  obtain ⟨_, rep'⟩ := holds'
  exact Except.ok.inj ((rep.find_eq id).symm.trans (rep'.find_eq id))

def without (items : DelayedItems) (hashes : List Bytes) : DelayedItems :=
  items.filter fun item => item.1 ∉ hashes

theorem eraseP_eq_without (distinct : (keys items).Nodup) :
    (items.eraseP fun item => item.1 = hash) = without items [hash] := by
  unfold without keys at *
  induction items with
  | nil => rfl
  | cons item items ih =>
    rw [List.map_cons, List.nodup_cons] at distinct
    by_cases same : item.1 = hash
    · rw [List.eraseP_cons_of_pos (by simpa using same), List.filter_cons_of_neg (by simpa using same),
        List.filter_eq_self.2]
      intro other member
      have different : other.1 ≠ hash := fun equal =>
        distinct.1 (same ▸ equal ▸ List.mem_map_of_mem member)
      simpa using different
    · rw [List.eraseP_cons_of_neg (by simpa using same), List.filter_cons_of_pos (by simpa using same),
        ih distinct.2]

theorem lookup_without (items : DelayedItems) (hashes : List Bytes) (other : Bytes) :
    (without items hashes).lookup other = if other ∈ hashes then none else items.lookup other := by
  unfold without
  induction items with
  | nil => simp
  | cons item items ih =>
    by_cases same : other = item.1
    · subst same
      by_cases gone : item.1 ∈ hashes
      · rw [List.filter_cons_of_neg (by simpa using gone), ih, if_pos gone, if_pos gone]
      · rw [List.filter_cons_of_pos (by simpa using gone), List.lookup_cons_self, if_neg gone,
          List.lookup_cons_self]
    · have skip : ∀ tail, List.lookup other (item :: tail) = tail.lookup other := fun tail => by
        rw [List.lookup_cons, beq_false_of_ne same]
      rw [List.filter_cons, skip]
      split
      · rw [skip, ih]
      · exact ih

variable {hashes : List Bytes}

theorem mem_keys_without {other : Bytes} :
    other ∈ keys (without items hashes) ↔ other ∈ keys items ∧ other ∉ hashes := by
  rw [← not_iff_not, ← lookup_eq_none, lookup_without]
  by_cases gone : other ∈ hashes
  · simp [gone]
  · rw [if_neg gone, lookup_eq_none]
    simp [gone]

theorem without_without (items : DelayedItems) (hashes hashes' : List Bytes) :
    without (without items hashes) hashes' = without items (hashes ++ hashes') := by
  simp [without, List.filter_filter, Bool.and_comm]

@[simp] theorem without_nil (items : DelayedItems) : without items [] = items := by
  simp [without]

def named (items : DelayedItems) (hashes : List Bytes) : List Transaction :=
  hashes.filterMap fun hash => (items.lookup hash).map fun item =>
    transactionFromDelayed hash item.transaction

def takenFrom (items : DelayedItems) : List Bytes → List Transaction × Option Bytes × DelayedItems
  | [] => ([], none, items)
  | hash :: hashes =>
    match items.lookup hash with
    | none => ([], some hash, items)
    | some item =>
      let (taken, missing, left) := takenFrom (without items [hash]) hashes
      (transactionFromDelayed hash item.transaction :: taken, missing, left)

/-- Each of the named elements that is there is removed along a link to the element before it. A removal
sets the link of the next element right. -/
def LinksRight (previous : Bytes → Option Bytes) (items : DelayedItems) : List Bytes → Prop
  | [] => True
  | hash :: hashes => hash ∈ keys items → LeadsBack previous (keys items) hash ∧
      LinksRight (relinked previous (keys items) hash) (without items [hash]) hashes

theorem takeDelayed_eq (rep : Represents previous delayedInboxPath inbox host items)
    (links : LinksRight previous items hashes) : ∃ inbox' host', takeDelayed inbox host hashes =
        .ok ((takenFrom items hashes).1, (takenFrom items hashes).2.1, inbox', host') ∧
      InboxHolds inbox' host' (takenFrom items hashes).2.2 ∧ SameOutside delayedInboxPath host host' := by
  induction hashes generalizing inbox host items previous with
  | nil => exact ⟨inbox, host, rfl, ⟨previous, rep⟩, fun _ _ => rfl⟩
  | cons hash hashes ih =>
    unfold takeDelayed takenFrom
    cases found : items.lookup hash with
    | none =>
      rw [findAndRemoveTransaction, remove, rep.remove_absent (lookup_eq_none.1 found)]
      exact ⟨inbox, host, rfl, ⟨previous, rep⟩, fun _ _ => rfl⟩
    | some item =>
      have present : hash ∈ keys items := by
        by_contra absent
        rw [lookup_eq_none.2 absent] at found
        cases found
      obtain ⟨leads, later⟩ := links present
      obtain ⟨inbox', host', removed, rep', outside⟩ := rep.remove_member present leads
      rw [eraseP_eq_without rep.distinct] at rep'
      obtain ⟨inbox'', host'', taken, rep'', outside'⟩ := ih rep' later
      refine ⟨inbox'', host'', ?_, rep'', outside.trans outside'⟩
      rw [findAndRemoveTransaction, remove, removed, found, ok_bind]
      dsimp only [pure_eq_ok]
      rw [ok_bind]
      dsimp only [Option.map_some]
      rw [taken]
      rfl

theorem takenFrom_missing_eq_none :
    (takenFrom items hashes).2.1 = none ↔ hashes.Nodup ∧ ∀ hash ∈ hashes, hash ∈ keys items := by
  induction hashes generalizing items with
  | nil => simp [takenFrom]
  | cons hash hashes ih =>
    unfold takenFrom
    cases found : items.lookup hash with
    | none =>
      have absent := lookup_eq_none.1 found
      simp [absent]
    | some item =>
      have present : hash ∈ keys items := by
        by_contra absent
        rw [lookup_eq_none.2 absent] at found
        cases found
      simp only [ih, mem_keys_without, List.nodup_cons, List.forall_mem_cons, present, List.mem_singleton]
      constructor
      · rintro ⟨distinct, all⟩
        exact ⟨⟨fun repeated => (all hash repeated).2 rfl, distinct⟩, trivial,
          fun other member => (all other member).1⟩
      · rintro ⟨⟨fresh, distinct⟩, -, all⟩
        exact ⟨distinct, fun other member => ⟨all other member, fun same => fresh (same ▸ member)⟩⟩

theorem takenFrom_of_complete (complete : (takenFrom items hashes).2.1 = none) :
    (takenFrom items hashes).1 = named items hashes ∧
      (takenFrom items hashes).2.2 = without items hashes := by
  induction hashes generalizing items with
  | nil => simp [takenFrom, named]
  | cons hash hashes ih =>
    have distinct := (takenFrom_missing_eq_none.1 complete).1
    rw [List.nodup_cons] at distinct
    unfold takenFrom at complete ⊢
    cases found : items.lookup hash with
    | none => simp [found] at complete
    | some item =>
      rw [found] at complete
      obtain ⟨taken, left⟩ := ih complete
      have rest : named (without items [hash]) hashes = named items hashes := by
        apply List.filterMap_congr
        intro other member
        have different : other ≠ hash := fun same => distinct.1 (same ▸ member)
        simp [lookup_without, different]
      dsimp only
      rw [taken, left, rest, without_without]
      simp [named, found]

theorem takenFrom_lookup_head (hashes : List Bytes) (present : hash ∈ keys items) :
    (takenFrom items (hash :: hashes)).2.2.lookup hash = none := by
  have shrinks : ∀ (items : DelayedItems) hashes, items.lookup hash = none →
      (takenFrom items hashes).2.2.lookup hash = none := by
    intro items hashes
    induction hashes generalizing items with
    | nil => exact id
    | cons other hashes ih =>
      intro absent
      unfold takenFrom
      cases items.lookup other with
      | none => exact absent
      | some item =>
        apply ih
        rw [lookup_without, absent, ite_self]
  obtain ⟨item, found⟩ := lookup_of_mem present
  unfold takenFrom
  rw [found]
  apply shrinks
  rw [lookup_without, if_pos (List.mem_singleton_self _)]

theorem takenFrom_of_head_absent (absent : ∀ hash rest, hashes = hash :: rest → hash ∉ keys items) :
    (takenFrom items hashes).2.2 = items := by
  cases hashes with
  | nil => rfl
  | cons hash hashes =>
    unfold takenFrom
    rw [lookup_eq_none.2 (absent hash hashes rfl)]

end Octez.Proof.Etherlink
