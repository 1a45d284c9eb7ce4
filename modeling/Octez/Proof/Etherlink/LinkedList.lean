import Octez.Lib.Neighbours
import Octez.Model.Etherlink.LinkedList

namespace Octez.Proof.Etherlink
open Octez.Lib Octez.Etherlink LinkedList

variable {Value Elt : Type} [Rlp Value Pointer] [Rlp Value LinkedList] [Rlp Value Elt]

def keys (items : List (Bytes × Elt)) : List Bytes := items.map Prod.fst

section
variable (previous : Bytes → Option Bytes) (ids : List Bytes)

def pointerIn (id : Bytes) : Option Pointer :=
  if id ∈ ids then some { id, previous := previous id, next := keyAfter ids id } else none

def content (saved : Option LinkedList) (items : List (Bytes × Elt)) : Path Step → Option Value
  | [.name .metadata] => saved.map Rlp.encode
  | [.hex id, .name .pointer] => (pointerIn previous (keys items) id).map Rlp.encode
  | [.hex id, .name .data] => (items.lookup id).map Rlp.encode
  | _ => none

/-- The ends in the handle are those of the elements. Of the rest of the copies nothing is said: the
links of the copied back pointer may differ from the stored ones. -/
def EndsOf : Option LinkedListPointer → Prop
  | none => ids = []
  | some ends => ids.head? = some ends.front.id ∧ ids.getLast? = some ends.back.id

/-- The elements are linked to the next ones. The links to the previous ones are as stored: a push may have
written back an old one. -/
structure Represents (root : Path Step) (list : LinkedList) (host : Host Value)
    (items : List (Bytes × Elt)) : Prop where
  path : list.path = root
  distinct : (keys items).Nodup
  ends : EndsOf (keys items) list.pointers
  stored : ∃ saved, (∀ rest, host.find (root ++ rest) = content previous saved items rest) ∧
    (saved = some list ∨ saved = none ∧ list.pointers = none)

/-- The link of the element, if it names one that is still stored, names the one before it. -/
def LeadsBack (id : Bytes) : Prop :=
  (previous id).filter (· ∈ ids) = keyBefore ids id

def relinked (gone id : Bytes) : Option Bytes :=
  if keyAfter ids gone = some id then keyBefore ids gone else previous id

def pushed (copied : Option Bytes) (new id : Bytes) : Option Bytes :=
  if id = new then ids.getLast? else if ids.getLast? = some id then copied else previous id

end

variable {previous : Bytes → Option Bytes} {root rest : Path Step} {list : LinkedList}
  {host : Host Value} {items : List (Bytes × Elt)} {id : Bytes} {elt : Elt} {saved : Option LinkedList}

section
omit [Rlp Value Pointer] [Rlp Value LinkedList] [Rlp Value Elt]

theorem lookup_eq_none : items.lookup id = none ↔ id ∉ keys items := by
  unfold keys
  induction items with
  | nil => simp
  | cons item items ih =>
    rw [List.lookup_cons]
    by_cases same : id = item.1
    · simp [same]
    · rw [beq_false_of_ne same]
      simp [same, ih]

theorem lookup_of_mem (member : id ∈ keys items) : ∃ elt, items.lookup id = some elt :=
  Option.ne_none_iff_exists'.1 (mt lookup_eq_none.1 (not_not.2 member))

variable {ids : List Bytes}

theorem pointerIn_of_mem (member : id ∈ ids) :
    pointerIn previous ids id = some { id, previous := previous id, next := keyAfter ids id } :=
  if_pos member

theorem leadsBack_keyBefore (ids : List Bytes) (id : Bytes) : LeadsBack (keyBefore ids) ids id := by
  unfold LeadsBack
  cases before : keyBefore ids id with
  | none => rfl
  | some other =>
    have member : other ∈ ids := List.takeWhile_subset _ (List.mem_of_getLast? before)
    rw [Option.filter_some, if_pos (decide_eq_true member)]

theorem relinked_keyBefore {left right : List Bytes} {gone : Bytes}
    (distinct : (left ++ gone :: right).Nodup) (member : id ∈ left ++ right) :
    relinked (keyBefore (left ++ gone :: right)) (left ++ gone :: right) gone id =
      keyBefore (left ++ right) id := by
  have apart := not_mem_left distinct
  rw [relinked, keyAfter_split _ apart, keyBefore_split _ apart, keyBefore_remove distinct member]

theorem pushed_keyBefore {new : Bytes} {copied : Option Bytes} (absent : new ∉ ids)
    (upToDate : ids.getLast? = some id → copied = keyBefore ids id) (member : id ∈ ids ++ [new]) :
    pushed (keyBefore ids) ids copied new id = keyBefore (ids ++ [new]) id := by
  unfold pushed
  split
  · rename_i same
    rw [same, keyBefore_split _ absent]
  · rename_i other
    have old : id ∈ ids := by simpa [other] using member
    rw [keyBefore_append _ old]
    split
    · exact upToDate ‹_›
    · rfl

theorem pointerIn_congr {other : Bytes → Option Bytes} (same : ∀ id ∈ ids, previous id = other id) :
    pointerIn previous ids = pointerIn other ids := by
  funext id
  unfold pointerIn
  split
  · rw [same id ‹_›]
  · rfl

theorem LeadsBack.bind_eq (leads : LeadsBack previous ids id) :
    (previous id).bind (pointerIn previous ids) = (keyBefore ids id).bind (pointerIn previous ids) := by
  rw [← show _ = _ from leads]
  cases previous id with
  | none => rfl
  | some link =>
    rw [Option.filter_some]
    by_cases member : link ∈ ids
    · rw [if_pos (decide_eq_true member)]
    · simp [pointerIn, member]

theorem pointerIn_concat {new : Bytes} (distinct : ids.Nodup)
    (absent : new ∉ ids) {copied : Option Bytes} :
    pointerIn (pushed previous ids copied new) (ids ++ [new]) id =
      if id = new then some { id := new, previous := ids.getLast?, next := none }
      else if ids.getLast? = some id then some { id, previous := copied, next := some new }
      else pointerIn previous ids id := by
  by_cases last : id = new
  · subst last
    rw [if_pos rfl, pointerIn_of_mem (by simp), keyAfter_split _ absent, pushed, if_pos rfl]
    rfl
  · rw [if_neg last]
    by_cases member : id ∈ ids
    · rw [pointerIn_of_mem (by simp [member]), pointerIn_of_mem member, pushed, if_neg last,
        keyAfter_concat distinct member]
      split <;> rfl
    · rw [if_neg fun final => member (List.mem_of_getLast? final)]
      simp [pointerIn, member, last]

theorem pointerIn_remove {left right : List Bytes} {gone : Bytes}
    (distinct : (left ++ gone :: right).Nodup) :
    pointerIn (relinked previous (left ++ gone :: right) gone) (left ++ right) id =
      if id = gone then none else (pointerIn previous (left ++ gone :: right) id).map fun pointer =>
        { pointer with
          previous := if right.head? = some id then left.getLast? else pointer.previous
          next := if left.getLast? = some id then right.head? else pointer.next } := by
  by_cases removed : id = gone
  · subst removed
    rw [if_pos rfl, pointerIn, if_neg (not_mem_split distinct)]
  · rw [if_neg removed]
    have apart := not_mem_left distinct
    by_cases member : id ∈ left ++ right
    · rw [pointerIn_of_mem member, pointerIn_of_mem (mem_split member), relinked,
        keyBefore_split _ apart, keyAfter_split _ apart, keyAfter_remove distinct member]
      rfl
    · have absent : id ∉ left ++ gone :: right := by
        simp at member ⊢
        tauto
      rw [pointerIn, pointerIn, if_neg member, if_neg absent]
      rfl

end

theorem content_of_other (not_metadata : rest ≠ [.name .metadata])
    (not_pointer : ∀ id, rest ≠ [.hex id, .name .pointer]) (not_data : ∀ id, rest ≠ [.hex id, .name .data]) :
    (content previous saved items rest : Option Value) = none := by
  unfold content
  split
  · exact absurd rfl not_metadata
  · exact absurd rfl (not_pointer _)
  · exact absurd rfl (not_data _)
  · rfl

theorem eq_content {found : Path Step → Option Value}
    (metadata : found [.name .metadata] = saved.map Rlp.encode)
    (pointer : ∀ id, found [.hex id, .name .pointer] = (pointerIn previous (keys items) id).map Rlp.encode)
    (data : ∀ id, found [.hex id, .name .data] = (items.lookup id).map Rlp.encode)
    (other : ∀ rest, rest ≠ [.name .metadata] → (∀ id, rest ≠ [.hex id, .name .pointer]) →
      (∀ id, rest ≠ [.hex id, .name .data]) → found rest = none) (rest : Path Step) :
    found rest = content previous saved items rest := by
  unfold content
  split
  · exact metadata
  · exact pointer _
  · exact data _
  · rename_i not_metadata not_pointer not_data
    exact other rest not_metadata not_pointer not_data

namespace Represents

theorem leaf (stored : ∀ rest, host.find (root ++ rest) = content previous saved items rest)
    {slot : Path Step} (closed : ∀ step rest, (content previous saved items (slot ++ step :: rest) :
      Option Value) = none) : host.hasSubtree (root ++ slot) = false := by
  rw [← Bool.not_eq_true, Durable.hasSubtree_iff]
  rintro ⟨step, rest, value, found⟩
  rw [List.append_assoc, stored, closed] at found
  cases found

section
variable (rep : Represents previous root list host items)
include rep

theorem read_pointer (id : Bytes) :
    Pointer.read host root id = .ok (pointerIn previous (keys items) id) := by
  obtain ⟨saved, stored, -⟩ := rep.stored
  apply readOptionalRlp_of_find
  · exact stored _
  · exact leaf stored fun step rest => rfl

theorem read_data (id : Bytes) :
    readOptionalRlp host (root ++ [.hex id, .name .data]) = .ok (items.lookup id) := by
  obtain ⟨saved, stored, -⟩ := rep.stored
  apply readOptionalRlp_of_find
  · exact stored _
  · exact leaf stored fun step rest => rfl

theorem getData_of_lookup (pointer : Pointer)
    (found : items.lookup pointer.id = some elt) : pointer.getData Elt host root = .ok elt := by
  obtain ⟨saved, stored, -⟩ := rep.stored
  apply readRlp_of_find
  rw [Pointer.dataPath, stored]
  exact congrArg (Option.map Rlp.encode) found

theorem reload : new root host = .ok list := by
  obtain ⟨saved, stored, same⟩ := rep.stored
  have read : read host root = .ok saved := by
    apply readOptionalRlp_of_find
    · exact stored _
    · exact leaf stored fun step rest => rfl
  rw [new, read, ok_bind, pure_eq_ok]
  rcases same with rfl | ⟨rfl, empty⟩
  · rfl
  · rw [Option.getD_none, ← rep.path, ← empty]

theorem cases_ends :
    list.pointers = none ∧ items = [] ∨ ∃ ends item rest, list.pointers = some ends ∧
      items = item :: rest ∧ ends.front.id = item.1 := by
  have ends := rep.ends
  cases pointers : list.pointers with
  | none =>
    rw [pointers] at ends
    exact .inl ⟨rfl, List.map_eq_nil_iff.1 ends⟩
  | some both =>
    rw [pointers] at ends
    cases items with
    | nil => cases ends.1
    | cons item rest => exact .inr ⟨both, item, rest, rfl, rfl, (Option.some.inj ends.1).symm⟩

theorem isEmpty_eq : list.isEmpty = items.isEmpty := by
  unfold isEmpty
  obtain ⟨pointers, rfl⟩ | ⟨ends, item, rest, pointers, rfl, -⟩ := rep.cases_ends <;>
    rw [pointers] <;> rfl

theorem find_eq (id : Bytes) : list.find host id = .ok (items.lookup id) := by
  rw [find, rep.path, rep.read_pointer id, ok_bind]
  by_cases member : id ∈ keys items
  · rw [pointerIn_of_mem member]
    exact rep.read_data id
  · rw [pointerIn, if_neg member, lookup_eq_none.2 member]
    rfl

end

theorem front_data {item : Bytes × Elt} {rest} {ends : LinkedListPointer}
    (rep : Represents previous root list host (item :: rest)) (front : ends.front.id = item.1) :
    ends.front.getData Elt host list.path = .ok item.2 := by
  rw [rep.path]
  apply rep.getData_of_lookup
  rw [front, List.lookup_cons_self]

theorem firstWithId_eq (rep : Represents previous root list host items) :
    list.firstWithId Elt host = .ok items.head? := by
  unfold firstWithId
  obtain ⟨pointers, rfl⟩ | ⟨ends, item, rest, pointers, rfl, front⟩ := rep.cases_ends
  · rw [pointers]
    rfl
  · rw [pointers]
    dsimp only
    rw [rep.front_data front, ok_bind, front]
    rfl

theorem first_eq (rep : Represents previous root list host items) :
    list.first Elt host = .ok (items.head?.map Prod.snd) := by
  unfold first
  obtain ⟨pointers, rfl⟩ | ⟨ends, item, rest, pointers, rfl, front⟩ := rep.cases_ends
  · rw [pointers]
    rfl
  · rw [pointers]
    dsimp only
    rw [rep.front_data front]
    rfl

end Represents

def SameOutside (root : Path Step) (host host' : Host Value) : Prop :=
  ∀ path, ¬root <+: path → host'.find path = host.find path

section
variable {host' host'' : Host Value}
omit [Rlp Value Pointer] [Rlp Value LinkedList]

theorem SameOutside.trans (first : SameOutside root host host')
    (second : SameOutside root host' host'') : SameOutside root host host'' :=
  fun path outside => (second path outside).trans (first path outside)

end

def backUpToDate (list : LinkedList) (host : Host Value) : Bool :=
  match list.pointers with
  | none => true
  | some ends =>
    match Pointer.read host list.path ends.back.id with
    | .ok (some stored) => stored.previous = ends.back.previous
    | _ => false

namespace Represents

section
variable (rep : Represents previous root list host items)
include rep

theorem congr {other : Bytes → Option Bytes} (same : ∀ id ∈ keys items, previous id = other id) :
    Represents other root list host items := by
  obtain ⟨path, distinct, ends, saved, stored, kept⟩ := rep
  refine ⟨path, distinct, ends, saved, fun rest => ?_, kept⟩
  rw [stored]
  unfold content
  rw [pointerIn_congr same]

theorem back_previous {ends}
    (pointers : list.pointers = some ends) (upToDate : backUpToDate list host = true) :
    ends.back.previous = previous ends.back.id := by
  have last := rep.ends
  rw [pointers] at last
  unfold backUpToDate at upToDate
  simp only [pointers, rep.path, rep.read_pointer, pointerIn_of_mem (List.mem_of_getLast? last.2)] at upToDate
  exact (of_decide_eq_true upToDate).symm

theorem push_present (elt : Elt) (present : id ∈ keys items) : list.push host id elt = .ok (list, host) := by
  rw [push, rep.path, rep.read_pointer, pointerIn_of_mem present]
  rfl

end

theorem keys_append (left right : List (Bytes × Elt)) : keys (left ++ right) = keys left ++ keys right :=
  List.map_append

theorem keys_concat (items : List (Bytes × Elt)) (id : Bytes) (elt : Elt) :
    keys (items ++ [(id, elt)]) = keys items ++ [id] := by
  simp [keys]

theorem lookup_concat (absent : id ∉ keys items) (other : Bytes) :
    (items ++ [(id, elt)]).lookup other = if other = id then some elt else items.lookup other := by
  rw [List.lookup_append, List.lookup_cons]
  by_cases same : other = id
  · rw [same, lookup_eq_none.2 absent]
    simp
  · rw [if_neg same, beq_false_of_ne same]
    simp

theorem append (rep : Represents previous root list host items) (elt : Elt) (absent : id ∉ keys items) :
    Represents (pushed previous (keys items) (list.pointers.bind (·.back.previous)) id) root
      (commit (list.append host id elt)).1
      (commit (list.append host id elt)).2 (items ++ [(id, elt)]) := by
  obtain ⟨saved, stored, -⟩ := rep.stored
  have path := rep.path
  subst path
  have distinct : (keys (items ++ [(id, elt)])).Nodup := by
    rw [keys_concat]
    exact List.nodup_append.2 ⟨rep.distinct, List.nodup_singleton _, by
      rintro other member new same rfl
      cases List.mem_singleton.1 same
      exact absent member⟩
  have last := rep.ends
  unfold commit append
  cases pointers : list.pointers with
  | none =>
    rw [pointers] at last
    have empty : items = [] := List.map_eq_nil_iff.1 last
    subst empty
    refine ⟨rfl, distinct, ⟨rfl, rfl⟩, _, eq_content ?_ ?_ ?_ ?_, .inl rfl⟩
    · exact Durable.find_write_self _ _ _
    · intro other
      rw [find_save, Pointer.find_saveData, Pointer.find_save, stored, keys_concat,
        pointerIn_concat rep.distinct absent]
      by_cases same : other = id <;> simp [same, keys, content]
    · intro other
      rw [find_save, Pointer.find_saveData, Pointer.find_save, stored, lookup_concat absent]
      by_cases same : other = id <;> simp [same, content]
    · intro rest not_metadata not_pointer not_data
      rw [find_save, Pointer.find_saveData, Pointer.find_save, stored, if_neg not_metadata,
        if_neg (not_data _), if_neg (not_pointer _)]
      exact content_of_other not_metadata not_pointer not_data
  | some ends =>
    rw [pointers] at last
    refine ⟨rfl, distinct, ⟨?_, ?_⟩, _, eq_content ?_ ?_ ?_ ?_, .inl rfl⟩
    · rw [keys_concat, List.head?_append, last.1]
      rfl
    · rw [keys_concat, List.getLast?_concat]
    · exact Durable.find_write_self _ _ _
    · intro other
      rw [find_save, Pointer.find_saveData, Pointer.find_save, Pointer.find_save, stored, keys_concat,
        pointerIn_concat rep.distinct absent, last.2]
      by_cases same : other = id
      · simp [same]
      · by_cases back : other = ends.back.id
        · subst back
          simp [same]
        · simp [same, back, Ne.symm back, content]
    · intro other
      rw [find_save, Pointer.find_saveData, Pointer.find_save, Pointer.find_save, stored,
        lookup_concat absent]
      by_cases same : other = id <;> simp [same, content]
    · intro rest not_metadata not_pointer not_data
      rw [find_save, Pointer.find_saveData, Pointer.find_save, Pointer.find_save, stored,
        if_neg not_metadata, if_neg (not_data _), if_neg (not_pointer _), if_neg (not_pointer _)]
      exact content_of_other not_metadata not_pointer not_data

section
variable {left right : List (Bytes × Elt)}

theorem keys_split (left right : List (Bytes × Elt)) (id : Bytes) (elt : Elt) :
    keys (left ++ (id, elt) :: right) = keys left ++ id :: keys right := by
  simp [keys]

theorem follow_eq (rep : Represents previous root list host items) (link : Option Bytes) :
    Pointer.follow host root link = .ok (link.bind (pointerIn previous (keys items))) := by
  cases link with
  | none => rfl
  | some id => exact rep.read_pointer id

theorem remove_absent (rep : Represents previous root list host items) (absent : id ∉ keys items) :
    list.remove host id = .ok ((none : Option Elt), list, host) := by
  unfold remove
  cases list.pointers with
  | none => rfl
  | some ends =>
    rw [rep.path, rep.read_pointer, pointerIn, if_neg absent]
    rfl

theorem lookup_split (distinct : (keys (left ++ (id, elt) :: right)).Nodup) :
    (left ++ (id, elt) :: right).lookup id = some elt := by
  rw [keys_split] at distinct
  rw [List.lookup_append, lookup_eq_none.2 (not_mem_left distinct), Option.none_or, List.lookup_cons_self]

theorem lookup_remove (distinct : (keys (left ++ (id, elt) :: right)).Nodup) (other : Bytes) :
    (left ++ right).lookup other =
      if other = id then none else (left ++ (id, elt) :: right).lookup other := by
  rw [keys_split] at distinct
  by_cases same : other = id
  · rw [same, if_pos rfl, lookup_eq_none, keys_append]
    exact not_mem_split distinct
  · rw [if_neg same, List.lookup_append, List.lookup_append, List.lookup_cons, beq_false_of_ne same]

theorem remove_eq (rep : Represents previous root list host (left ++ (id, elt) :: right))
    (leads : LeadsBack previous (keys (left ++ (id, elt) :: right)) id) :
    ∃ ends, list.pointers = some ends ∧ list.remove host id = .ok (some elt, commit
      (list.unlink ends (host.dropTree (root ++ [.hex id]))
        ((keys left).getLast?.bind (pointerIn previous (keys (left ++ (id, elt) :: right))))
        ((keys right).head?.bind (pointerIn previous (keys (left ++ (id, elt) :: right)))))) := by
  obtain ⟨-, empty⟩ | ⟨ends, item, rest, pointers, -, -⟩ := rep.cases_ends
  · simp at empty
  refine ⟨ends, pointers, ?_⟩
  have absent : id ∉ keys left := not_mem_left (keys_split left right id elt ▸ rep.distinct)
  have pointer : pointerIn previous (keys (left ++ (id, elt) :: right)) id =
      some { id, previous := previous id, next := (keys right).head? } := by
    rw [keys_split, pointerIn_of_mem (by simp), keyAfter_split _ absent]
  have back := leads.bind_eq
  rw [keys_split, keyBefore_split _ absent, ← keys_split left right id elt] at back
  have present : host.hasTree (root ++ [.hex id]) = true := by
    obtain ⟨saved, stored, -⟩ := rep.stored
    have found := stored [.hex id, .name .pointer]
    rw [content, pointer] at found
    exact Durable.hasTree_iff.2 ⟨[.name .pointer], _, by rw [List.append_assoc]; exact found⟩
  unfold remove
  rw [pointers]
  dsimp only
  rw [rep.path, rep.read_pointer, pointer, ok_bind, removeIn, removePointer,
    rep.path, rep.follow_eq, back, ok_bind, rep.follow_eq, ok_bind,
    rep.getData_of_lookup _ (lookup_split rep.distinct), ok_bind, Pointer.removeWithData,
    liftRuntime_eq_ok.2 (Durable.storeDelete_eq_ok.2 ⟨present, rfl⟩)]
  rfl

theorem of_unlinked (previous : Bytes → Option Bytes) {after : Bytes → Option Bytes}
    (saved : Option LinkedList) {updated : LinkedList × Host Value} (path : updated.1.path = root)
    (distinct : (keys (left ++ (id, elt) :: right)).Nodup)
    (ends : EndsOf (keys left ++ keys right) updated.1.pointers)
    (pointer : ∀ other, updated.2.find (root ++ [.hex other, .name .pointer]) =
      (pointerIn after (keys left ++ keys right) other).map Rlp.encode)
    (rest_eq : ∀ rest, (∀ other, rest ≠ [.hex other, .name .pointer]) →
      updated.2.find (root ++ rest) =
        if [.hex id] <+: rest then none else content previous saved (left ++ (id, elt) :: right) rest) :
    Represents after root (commit updated).1 (commit updated).2 (left ++ right) := by
  subst path
  have kept : (keys (left ++ right)).Nodup := by
    rw [keys_split] at distinct
    rw [keys_append]
    exact distinct.sublist (List.Sublist.append_left (List.sublist_cons_self _ _) _)
  refine ⟨rfl, kept, keys_append left right ▸ ends, _, eq_content ?_ ?_ ?_ ?_, .inl rfl⟩
  · exact Durable.find_write_self _ _ _
  · intro other
    rw [commit, find_save, if_neg (by simp), pointer, keys_append]
  · intro other
    rw [commit, find_save, if_neg (by simp), rest_eq _ (by simp), lookup_remove distinct]
    by_cases same : other = id
    · simp [same]
    · simp [same, Ne.symm same, content]
  · intro rest not_metadata not_pointer not_data
    rw [commit, find_save, if_neg not_metadata, rest_eq _ not_pointer,
      content_of_other not_metadata not_pointer not_data, ite_self]

theorem find_dropped (rep : Represents previous root list host (left ++ (id, elt) :: right)) :
    ∃ saved, ∀ rest, (host.dropTree (root ++ [.hex id])).find (root ++ rest) =
      if [.hex id] <+: rest then none else content previous saved (left ++ (id, elt) :: right) rest := by
  obtain ⟨saved, stored, -⟩ := rep.stored
  refine ⟨saved, fun rest => ?_⟩
  rw [Durable.find_dropTree_below, stored]

variable {links : Bytes → Option Pointer}

section
omit [Rlp Value LinkedList]

theorem unlink_path (list : LinkedList) (ends : LinkedListPointer) (host : Host Value)
    (previous next : Option Pointer) : (list.unlink ends host previous next).1.path = list.path := by
  cases previous <;> cases next <;> rfl

theorem find_unlink (list : LinkedList) (ends : LinkedListPointer) {previous next : Option Bytes}
    {gone : Bytes}
    (before_gone : ∀ id, previous = some id → id ≠ gone ∧ ∃ pointer, links id = some pointer ∧
      pointer.id = id) (after_gone : ∀ id, next = some id → id ≠ gone ∧ previous ≠ some id ∧
      ∃ pointer, links id = some pointer ∧ pointer.id = id)
    (found : ∀ other, host.find (list.path ++ [.hex other, .name .pointer]) =
      if other = gone then none else (links other).map Rlp.encode) (other : Bytes) :
    (list.unlink ends host (previous.bind links) (next.bind links)).2.find
      (list.path ++ [.hex other, .name .pointer]) =
    (if other = gone then none else (links other).map fun pointer =>
      { pointer with
        previous := if next = some other then previous else pointer.previous
        next := if previous = some other then next else pointer.next }).map Rlp.encode := by
  cases previous with
  | none =>
    cases next with
    | none => by_cases removed : other = gone <;> simp [unlink, found, removed]
    | some b =>
      obtain ⟨b_stays, -, pointer, linked, rfl⟩ := after_gone b rfl
      by_cases same : other = pointer.id
      · simp [unlink, Pointer.find_save, linked, same, b_stays]
      · by_cases removed : other = gone <;>
          simp [unlink, Pointer.find_save, found, linked, same, removed, Ne.symm same, Ne.symm b_stays]
  | some a =>
    obtain ⟨a_stays, left_pointer, left_linked, rfl⟩ := before_gone a rfl
    cases next with
    | none =>
      by_cases same : other = left_pointer.id
      · simp [unlink, Pointer.find_save, left_linked, same, a_stays]
      · by_cases removed : other = gone <;>
          simp [unlink, Pointer.find_save, found, left_linked, same, removed, Ne.symm same, Ne.symm a_stays]
    | some b =>
      obtain ⟨b_stays, apart, pointer, linked, rfl⟩ := after_gone b rfl
      have differ : left_pointer.id ≠ pointer.id := fun same => apart (congrArg some same)
      by_cases is_next : other = pointer.id
      · simp [unlink, Pointer.find_save, left_linked, linked, is_next, b_stays, differ]
      · by_cases is_previous : other = left_pointer.id
        · simp [unlink, Pointer.find_save, left_linked, linked, is_previous, a_stays, differ, Ne.symm differ]
        · by_cases removed : other = gone <;>
            simp [unlink, Pointer.find_save, found, left_linked, linked, is_next,
              is_previous, removed, Ne.symm is_next, Ne.symm is_previous, Ne.symm a_stays, Ne.symm b_stays]

theorem unlink_ends {ends} {before_ids after_ids : List Bytes}
    (pointers : list.pointers = some ends) (last : EndsOf (before_ids ++ id :: after_ids) (some ends))
    (linked : ∀ other ∈ before_ids ++ after_ids, ∃ pointer, links other = some pointer ∧
      pointer.id = other) :
    EndsOf (before_ids ++ after_ids) (list.unlink ends host (before_ids.getLast?.bind links)
      (after_ids.head?.bind links)).1.pointers := by
  rcases List.eq_nil_or_concat' before_ids with rfl | ⟨before_ids, a, rfl⟩
  · cases after_ids with
    | nil => rfl
    | cons b after_ids =>
      obtain ⟨pointer, found, rfl⟩ := linked b (by simp)
      simp [unlink, found, EndsOf] at last ⊢
      exact last.2
  · obtain ⟨left_pointer, left_found, rfl⟩ := linked a (by simp)
    cases after_ids with
    | nil =>
      simp [unlink, left_found, EndsOf] at last ⊢
      simpa using last.1
    | cons b after_ids =>
      obtain ⟨pointer, found, rfl⟩ := linked b (by simp)
      simp [unlink, left_found, found, EndsOf, pointers] at last ⊢
      exact last

end

theorem unlink_sameOutside (list : LinkedList) (ends : LinkedListPointer) (host : Host Value)
    (previous next : Option Pointer) : SameOutside list.path host
      (commit (list.unlink ends host previous next)).2 := by
  intro path outside
  cases previous <;> cases next <;> simp [commit, unlink, Pointer.save,
    save, storeRlp, Pointer.pointerPath, metadataPath, Durable.find_write_of_outside outside]

theorem remove_present (rep : Represents previous root list host (left ++ (id, elt) :: right))
    (leads : LeadsBack previous (keys (left ++ (id, elt) :: right)) id) :
    ∃ list' host', list.remove host id = .ok (some elt, list', host') ∧
      Represents (relinked previous (keys (left ++ (id, elt) :: right)) id) root list' host'
        (left ++ right) ∧ SameOutside root host host' := by
  obtain ⟨ends, pointers, removed⟩ := rep.remove_eq leads
  obtain ⟨saved, dropped⟩ := rep.find_dropped
  have distinct := rep.distinct
  rw [keys_split] at distinct
  have linked : ∀ other ∈ keys left ++ id :: keys right, ∃ pointer,
      pointerIn previous (keys (left ++ (id, elt) :: right)) other = some pointer ∧ pointer.id = other := by
    intro other member
    rw [keys_split, pointerIn_of_mem member]
    exact ⟨_, rfl, rfl⟩
  have parts := distinct
  rw [List.nodup_append, List.nodup_cons] at parts
  refine ⟨_, _, removed, ?_, ?_⟩
  · have path := rep.path
    subst path
    refine of_unlinked previous saved (unlink_path _ _ _ _ _) rep.distinct ?_ ?_ ?_
    · apply unlink_ends pointers
      · have last := rep.ends
        rwa [pointers, keys_split] at last
      · exact fun other member => linked other (mem_split member)
    · intro other
      rw [keys_split, pointerIn_remove distinct, ← keys_split left right id elt]
      refine find_unlink list ends ?_ ?_ ?_ other
      · intro before last
        have member := List.mem_of_getLast? last
        exact ⟨fun same => parts.2.2 _ member _ List.mem_cons_self same,
          linked _ (List.mem_append_left _ member)⟩
      · intro after first
        have member := List.mem_of_head? first
        refine ⟨fun same => parts.2.1.1 (same ▸ member), fun last => ?_,
          linked _ (List.mem_append_right _ (List.mem_cons_of_mem _ member))⟩
        exact parts.2.2 _ (List.mem_of_getLast? last) _ (List.mem_cons_of_mem _ member) rfl
      · intro other
        rw [dropped, content]
        by_cases same : other = id
        · simp [same]
        · simp [same, Ne.symm same]
    · intro rest not_pointer
      rw [← dropped]
      generalize (keys left).getLast?.bind _ = previous, (keys right).head?.bind _ = next
      cases previous <;> cases next <;> simp [unlink, Pointer.find_save, not_pointer]
  · have dropped_outside : SameOutside root host (host.dropTree (root ++ [.hex id])) :=
      fun path outside => Durable.find_dropTree_of_outside outside
    rw [← rep.path] at dropped_outside ⊢
    exact dropped_outside.trans (unlink_sameOutside _ _ _ _ _)

end

end Represents

end Octez.Proof.Etherlink
