import Octez.Model.Classification

namespace Octez.Proof.Prevalidator
open Octez.Lib Octez.Prevalidator
variable {T : MempoolTypes}

variable [DecidableEq T.Hash] {classes : Classes T}
variable {event : Event T} {op : Operation T}

def kindOf : Classification T.Trace → Option ErrorClass
  | .validated => none
  | .error kind _ => some kind

/-- The class holds the operation under this hash. -/
def Holds (classes : Classes T) (h : T.Hash) (op : Operation T) : Classification T.Trace → Prop
  | .validated => classes.validated.find h = some op
  | .error kind tztrace => (classes.errors kind).map.find h = some (op, tztrace)

def Agree (classes : Classes T) : Prop :=
  ∀ h op c, classes.inMempool.find h = some (op, c) ↔ Holds classes h op c

structure Consistent (limit : Nat) (classes : Classes T) : Prop where
  agree : Agree classes
  disjoint : ∀ h op op' c c', Holds classes h op c → Holds classes h op' c' → op = op' ∧ c = c'
  bounded : ∀ kind, (classes.errors kind).map.keys.length ≤ limit

/-- Only operations that are not present are added. -/
def Fresh (classes : Classes T) : Event T → Prop
  | .add _ op => classes.inMempool.find op.hash = none
  | _ => True

variable {limit : Nat} {kind : ErrorClass} {tztrace : T.Trace} {h : T.Hash} {Value : Type}

theorem mem_keys {t : Table T.Hash Value} : h ∈ t.keys ↔ ∃ value, t.find h = some value := by
  rw [← AList.mem_keys, ← AList.lookup_isSome, Option.isSome_iff_exists]
  rfl

theorem agree_of_removed {after : Classes T} (kind : Option ErrorClass)
    (gone : T.Hash → Prop) (agree : Agree classes) (index : ∀ h op c, after.inMempool.find h = some (op, c) ↔
      ¬gone h ∧ classes.inMempool.find h = some (op, c))
    (holds : ∀ h op c, Holds after h op c ↔ (kindOf c = kind → ¬gone h) ∧ Holds classes h op c)
    (only : ∀ h op c, gone h → classes.inMempool.find h = some (op, c) → kindOf c = kind) :
    Agree after := by
  intro h op c
  rw [index, holds, ← agree]
  constructor
  · rintro ⟨kept, found⟩
    exact ⟨fun _ => kept, found⟩
  · rintro ⟨kept, found⟩
    exact ⟨fun removed => kept (only h op c removed found) removed, found⟩

section Agreement
variable [RingBuffer T]

/-- What the ring gives up for an addition is in the class of the addition, or nowhere. -/
def Clean (classes : Classes T) : Event T → Prop
  | .add (.error kind _) op => ∀ h op' c, erased classes kind op.hash = some h →
      classes.inMempool.find h = some (op', c) → kindOf c = some kind
  | _ => True

/-- An addition neither discards nor forgets a validated operation. -/
def Keeps (classes : Classes T) (event : Event T) : Prop :=
  match event with
  | .add _ _ => ∀ h op, classes.validated.find h = some op → Holds (step classes event) h op .validated ∧
        (step classes event).inMempool.find h = some (op, .validated) ∧
        ∃ new, (step classes event).discarded = classes.discarded ++ new ∧ h ∉ new
  | _ => True

inductive Run (limit : Nat) : Classes T → Prop where
  | create {classes : _} (h : create limit = some classes) : Run limit classes
  | step {classes : _} (run : Run limit classes) (event : _) (fresh : Fresh classes event)
      (clean : Clean classes event) : Run limit (step classes event)

theorem find_handleError : (handleError classes op.hash op kind tztrace).inMempool.find h =
    if h = op.hash then some (op, .error kind tztrace)
    else if erased classes kind op.hash = some h then none else classes.inMempool.find h := by
  simp [handleError, Table.find_add, Table.find_removeAll]

theorem holds_handleError_of_ne {op'} {c : Classification T.Trace} (other : kindOf c ≠ some kind) :
    Holds (handleError classes op.hash op kind tztrace) h op' c ↔ Holds classes h op' c := by
  cases c with
  | validated => rfl
  | error kind' _ =>
    have differs : kind' ≠ kind := fun same => other (congrArg some same)
    simp [Holds, handleError, differs]

/-- What `ringo` says of its rings: they give up their oldest element when they are full. -/
class LawfulRing (T : MempoolTypes) [RingBuffer T] where
  capacity : T.Ring → Nat
  /-- The oldest first. -/
  elements : T.Ring → List T.Hash
  length_le : ∀ ring, (elements ring).length ≤ capacity ring
  create_eq : ∀ n ring, RingBuffer.create n = some ring → capacity ring = n ∧ elements ring = []
  capacity_add : ∀ ring h, capacity (RingBuffer.addAndReturnErased ring h).1 = capacity ring
  add_eq : ∀ ring h,
    (elements (RingBuffer.addAndReturnErased ring h).1, (RingBuffer.addAndReturnErased ring h).2) =
      if (elements ring).length < capacity ring then (elements ring ++ [h], none)
      else ((elements ring).tail ++ [h], (elements ring).head?)
  clear_eq : ∀ ring, capacity (RingBuffer.clear ring) = capacity ring ∧ elements (RingBuffer.clear ring) = []

open LawfulRing
variable [LawfulRing T]

omit [DecidableEq T.Hash] in
theorem addAndReturnErased_elements (ring : T.Ring) (h : T.Hash) :
    ∃ rest, elements (RingBuffer.addAndReturnErased ring h).1 = rest ++ [h] ∧
      (RingBuffer.addAndReturnErased ring h).2.toList ++ rest = elements ring := by
  have whole : ∀ elements : List T.Hash, elements.head?.toList ++ elements.tail = elements := by
    intro elements
    cases elements <;> rfl
  have added := add_eq ring h
  split at added <;> obtain ⟨now, gone⟩ := Prod.mk.inj added
  · exact ⟨elements ring, now, by rw [gone]; rfl⟩
  · exact ⟨(elements ring).tail, now, by rw [gone, whole]⟩

/-- The ring holds the hashes of the map. -/
def Fits (limit : Nat) (boundedMap : BoundedMap T) : Prop :=
  capacity boundedMap.ring = limit ∧ ∀ h, boundedMap.map.mem h = true → h ∈ elements boundedMap.ring

structure Sound (limit : Nat) (classes : Classes T) : Prop where
  agree : Agree classes
  fits : ∀ kind, Fits limit (classes.errors kind)

theorem Sound.consistent (sound : Sound limit classes) : Consistent limit classes where
  agree := sound.agree
  disjoint h op op' c c' first second := by
    rw [← sound.agree] at first second
    simpa [first] using second
  bounded kind := by
    obtain ⟨capacity, ringed⟩ := sound.fits kind
    have within : (classes.errors kind).map.keys ⊆ elements (classes.errors kind).ring :=
      fun h member => ringed h (Table.mem_eq_true.2 (mem_keys.1 member))
    have short := (List.subperm_of_subset (AList.keys_nodup _) within).length_le
    have bound := length_le (classes.errors kind).ring
    omega

theorem create_sound (h : create limit = some classes) : Sound limit classes := by
  obtain ⟨ring, created, made⟩ := Option.bind_eq_some_iff.1 h
  cases made
  refine ⟨?_, fun _ => ⟨(create_eq limit ring created).1, by simp [Table.mem]⟩⟩
  intro h op c
  cases c <;> simp [Holds]

section Additions
variable (sound : Sound limit classes) (absent : classes.inMempool.find op.hash = none)
  {c : Classification T.Trace}

include sound absent in
theorem handleValidated_sound : Sound limit (handleValidated classes op.hash op) := by
  refine ⟨?_, sound.fits⟩
  intro h op' c
  have agree := sound.agree h op' c
  by_cases same : h = op.hash
  · rw [same, absent] at agree
    cases c <;> simp_all [handleValidated, Holds]
  · cases c <;> simp_all [handleValidated, Holds, Table.find_add]

include sound absent

theorem handleError_agree (clean : Clean classes (.add (.error kind tztrace) op)) :
    Agree (handleError classes op.hash op kind tztrace) := by
  intro h op' c
  have agree := sound.agree h op' c
  rw [find_handleError]
  by_cases here : kindOf c = some kind
  · cases c with
    | validated => cases here
    | error kind' tztrace' =>
      cases here
      simp only [Holds, handleError, Function.update_self, Table.find_add, Table.find_removeAll,
        Option.mem_toList] at agree ⊢
      split
      · simp
      · split
        · simp
        · exact agree
  · rw [holds_handleError_of_ne here, ← agree]
    split
    · subst_vars
      have differs : Classification.error kind tztrace ≠ c := by
        rintro rfl
        exact here rfl
      simp [absent, differs]
    · split
      · rename_i gone
        simpa using fun found => here (clean h op' c gone found)
      · rfl

theorem handleError_sound (clean : Clean classes (.add (.error kind tztrace) op)) :
    Sound limit (handleError classes op.hash op kind tztrace) := by
  refine ⟨handleError_agree sound absent clean, (Function.forall_update_iff _ _).2
    ⟨⟨?_, ?_⟩, fun kind _ => sound.fits kind⟩⟩
  · exact (capacity_add _ op.hash).trans (sound.fits kind).1
  · intro h present
    obtain ⟨rest, now, before⟩ := addAndReturnErased_elements (classes.errors kind).ring op.hash
    rw [now]
    obtain new | ⟨kept, old⟩ := by simpa [Table.mem_add, Table.mem_removeAll] using present
    · simp [new]
    · have member := (sound.fits kind).2 h old
      rw [← before, List.mem_append, Option.mem_toList] at member
      simp [member.resolve_left kept]

theorem clean_of_agree (agree : Agree (handleError classes op.hash op kind tztrace)) :
    Clean classes (.add (.error kind tztrace) op) := by
  intro h op' c gone found
  by_contra elsewhere
  -- the class of the operation still holds it, and the index does not
  have held := (agree h op' c).2
    ((holds_handleError_of_ne elsewhere).2 ((sound.agree h op' c).1 found))
  have other : h ≠ op.hash := by
    rintro rfl
    simp [absent] at found
  simp [find_handleError, other, gone] at held

theorem step_keeps (clean : Clean classes (.add c op)) :
    Keeps classes (.add c op) := by
  intro h op' validated
  have indexed := (sound.agree h op' .validated).2 validated
  have other : h ≠ op.hash := by
    rintro rfl
    cases indexed.symm.trans absent
  cases c with
  | validated =>
    simp [step, add, handleValidated, Holds, Table.find_add_of_ne other, validated, indexed]
  | error kind tztrace =>
    have kept : erased classes kind op.hash ≠ some h := by
      intro gone
      cases clean h op' .validated gone indexed
    refine ⟨validated, ?_, _, List.append_assoc _ _ _, ?_⟩
    · simp [step, add, find_handleError, other, kept, indexed]
    · cases kind <;> simp [kept, other]

end Additions

section
variable (sound : Sound limit classes)
include sound

theorem remove_sound (oph : T.Hash) : Sound limit (remove classes oph).1 := by
  unfold remove
  split
  · exact sound
  · rename_i op c found
    have only : ∀ h op' c', h = oph → classes.inMempool.find h = some (op', c') →
        kindOf c' = kindOf c := by
      rintro h op' c' rfl found'
      cases found.symm.trans found'
      rfl
    cases c with
    | validated =>
      refine ⟨agree_of_removed _ (· = oph) sound.agree ?_ ?_ only, sound.fits⟩
      · simp [Table.find_remove]
      · intro h op' c'
        cases c' <;> simp [Holds, kindOf, Table.find_remove]
    | error kind tztrace =>
      refine ⟨agree_of_removed _ (· = oph) sound.agree ?_ ?_ only, (Function.forall_update_iff _ _).2
        ⟨⟨(sound.fits kind).1, ?_⟩, fun kind _ => sound.fits kind⟩⟩
      · simp [setMap, Table.find_remove]
      · intro h op' c'
        cases c' with
        | validated => simp [Holds, setMap, kindOf]
        | error kind' tztrace' =>
          by_cases same : kind' = kind
          · subst same
            simp [Holds, setMap, kindOf, Table.find_remove]
          · simp [Holds, setMap, kindOf, same]
      · intro h present
        exact (sound.fits kind).2 h (Table.mem_remove.1 present).2

theorem flushClass_sound (kind : ErrorClass) : Sound limit (flushClass classes kind) := by
  refine ⟨agree_of_removed (some kind) (· ∈ (classes.errors kind).map.keys) sound.agree ?_ ?_ ?_,
    (Function.forall_update_iff _ _).2
      ⟨⟨(clear_eq _).1.trans (sound.fits kind).1, by simp [Table.mem]⟩, fun kind _ => sound.fits kind⟩⟩
  · simp [flushClass, Table.find_removeAll]
  · intro h op c
    cases c with
    | validated => simp [Holds, flushClass, kindOf]
    | error kind' tztrace =>
      by_cases same : kind' = kind
      · subst same
        simpa [Holds, flushClass] using fun kept held => kept rfl (mem_keys.2 ⟨_, held⟩)
      · simp [Holds, flushClass, kindOf, same]
  · intro h op c member found
    obtain ⟨⟨op', tztrace⟩, held⟩ := mem_keys.1 member
    cases ((sound.agree h op' (.error kind tztrace)).2 held).symm.trans found
    rfl

theorem flushValidated_sound :
    Sound limit { classes with
      inMempool := classes.inMempool.removeAll classes.validated.keys
      unparsable := []
      validated := ∅ } := by
  refine ⟨agree_of_removed none (· ∈ classes.validated.keys) sound.agree ?_ ?_ ?_, sound.fits⟩
  · simp [Table.find_removeAll]
  · intro h op c
    cases c with
    | validated => simpa [Holds] using fun kept held => kept rfl (mem_keys.2 ⟨_, held⟩)
    | error kind tztrace => simp [Holds, kindOf]
  · intro h op c member found
    obtain ⟨op', held⟩ := mem_keys.1 member
    cases ((sound.agree h op' .validated).2 held).symm.trans found
    rfl

theorem flush_sound (handleBranchRefused : Bool) :
    Sound limit (flush classes handleBranchRefused) := by
  have refused : Sound limit
      (if handleBranchRefused then flushClass classes .branchRefused else classes) := by
    split
    · exact flushClass_sound sound _
    · exact sound
  exact flushValidated_sound (flushClass_sound refused .branchDelayed)

theorem step_sound (fresh : Fresh classes event)
    (clean : Clean classes event) : Sound limit (step classes event) := by
  cases event with
  | add c op =>
    cases c with
    | validated => exact handleValidated_sound sound fresh
    | error kind tztrace => exact handleError_sound sound fresh clean
  | remove oph => exact remove_sound sound oph
  | flush handleBranchRefused => exact flush_sound sound handleBranchRefused

end

theorem run_sound (run : Run limit classes) : Sound limit classes := by
  induction run with
  | create h => exact create_sound h
  | step run event fresh clean ih => exact step_sound ih fresh clean

/-- In every run whose events are clean the classes and the index agree, and the next event keeps it
so, and keeps the validated operations, exactly when it is clean. -/
theorem classes_agree (run : Run limit classes) :
    Consistent limit classes ∧ ∀ event, Fresh classes event →
      ((Consistent limit (step classes event) ∧ Keeps classes event) ↔ Clean classes event) := by
  have sound := run_sound run
  refine ⟨sound.consistent, ?_⟩
  intro event fresh
  have kept := fun clean => (step_sound sound fresh clean).consistent
  cases event with
  | remove | flush => exact ⟨fun _ => trivial, fun clean => ⟨kept clean, trivial⟩⟩
  | add c op =>
    refine ⟨?_, fun clean => ⟨kept clean, step_keeps sound fresh clean⟩⟩
    rintro ⟨consistent, -⟩
    cases c with
    | validated => trivial
    | error kind tztrace => exact clean_of_agree sound fresh consistent.agree

end Agreement

/-- A queue of at most `capacity` elements. -/
structure Queue where
  capacity : Nat
  positive : 0 < capacity
  elements : List Nat
  length_le : elements.length ≤ capacity

abbrev queueTypes (Contents : Type) : MempoolTypes := ⟨Queue, Nat, Contents, Unit, Nat, Nat⟩

instance queueRing {Contents : Type} : RingBuffer (queueTypes Contents) where
  create capacity := if positive : 0 < capacity then some ⟨capacity, positive, [], Nat.zero_le _⟩ else none
  addAndReturnErased queue h :=
    if room : queue.elements.length < queue.capacity then
      ({ queue with elements := queue.elements ++ [h], length_le := by simpa using room }, none)
    else
      ({ queue with
          elements := queue.elements.tail ++ [h]
          length_le := by
            have bound := queue.length_le
            have positive := queue.positive
            simp
            omega }, queue.elements.head?)
  clear queue := { queue with elements := [], length_le := Nat.zero_le _ }

instance lawfulQueue {Contents : Type} : LawfulRing (queueTypes Contents) where
  capacity := Queue.capacity
  elements := Queue.elements
  length_le := Queue.length_le
  create_eq n ring h := by
    simp only [RingBuffer.create] at h
    split at h <;> cases h
    exact ⟨rfl, rfl⟩
  capacity_add queue h := by
    simp only [RingBuffer.addAndReturnErased]
    split <;> rfl
  add_eq queue h := by
    simp only [RingBuffer.addAndReturnErased]
    split <;> rfl
  clear_eq queue := ⟨rfl, rfl⟩

def evicting : List (Event (queueTypes Unit)) :=
  [.add (.error .refused ()) ⟨1, ()⟩, .add .validated ⟨2, ()⟩, .add (.error .refused ()) ⟨3, ()⟩,
    .add (.error .refused ()) ⟨4, ()⟩, .remove 3]

/-- The third refused operation evicts the first one. -/
theorem evicted_classes_agree : ∃ start : Classes (queueTypes Unit), create 2 = some start ∧
    Consistent 2 (evicting.foldl step start) ∧ (evicting.foldl step start).inMempool.keys = [4, 2] := by
  have start : Run 2 (_ : Classes (queueTypes Unit)) := .create rfl
  have first := start.step (.add (.error .refused ()) ⟨1, ()⟩) rfl (by rintro h op c ⟨⟩)
  have second := (first.step (.add .validated ⟨2, ()⟩) rfl trivial).step
    (.add (.error .refused ()) ⟨3, ()⟩) rfl (by rintro h op c ⟨⟩)
  have third := second.step (.add (.error .refused ()) ⟨4, ()⟩) rfl (by
    rintro h op c ⟨⟩ ⟨⟩
    rfl)
  exact ⟨_, rfl, (classes_agree (third.step (.remove 3) trivial trivial)).1, rfl⟩

def refusedAgain : List (Event (queueTypes Unit)) :=
  [.add (.error .refused ()) ⟨1, ()⟩, .remove 1, .add .validated ⟨1, ()⟩, .add (.error .refused ()) ⟨2, ()⟩]

/-- An operation that was refused, removed and then validated is discarded and forgotten when the
ring of the refused operations is full. -/
theorem validated_forgotten : ∃ start : Classes (queueTypes Unit), create 1 = some start ∧
    (∀ i, ∀ event ∈ refusedAgain[i]?, Fresh ((refusedAgain.take i).foldl step start) event) ∧
    (refusedAgain.foldl step start).validated.find 1 = some ⟨1, ()⟩ ∧
    (refusedAgain.foldl step start).inMempool.find 1 = none ∧
    (refusedAgain.foldl step start).discarded = [1, 1, 2] := by
  refine ⟨_, rfl, ?_, rfl, rfl, rfl⟩
  intro i event member
  rcases i with _ | _ | _ | _ | i
  all_goals cases member
  all_goals first | rfl | trivial

open Table
variable {oph : T.Hash}

theorem find_addClass (accum : Table T.Hash (Operation T)) (toAdd : Table T.Hash (Operation T × T.Trace)) :
    (addClass accum toAdd).find oph = ((toAdd.find oph).map Prod.fst).or (accum.find oph) := by
  obtain ⟨entries, distinct⟩ := toAdd
  change (entries.foldl (fun accum entry => Table.add accum entry.1 entry.2.1) accum).find oph =
    ((entries.dlookup oph).map Prod.fst).or (accum.find oph)
  induction entries generalizing accum with
  | nil => simp
  | cons entry entries ih =>
    rw [List.nodupKeys_cons] at distinct
    rw [List.foldl_cons, ih _ distinct.2, find_add]
    by_cases h : oph = entry.1
    · subst h
      simp [List.dlookup_eq_none.2 distinct.1, List.dlookup]
    · simp [h, List.dlookup_cons_ne _ _ h]

theorem find_union (first second : Table T.Hash Value) :
    find (first ∪ second) oph = (first.find oph).or (second.find oph) := by
  unfold find
  cases h : first.lookup oph with
  | none => simp [AList.lookup_union_right (AList.lookup_eq_none.1 h)]
  | some value =>
    have member : oph ∈ first := AList.lookup_isSome.1 (by simp [h])
    simp [AList.lookup_union_left member, h]

/-- The table holds one of the operations that are offered under each hash. -/
structure Collects (t : Table T.Hash (Operation T)) (Offered : T.Hash → Operation T → Prop) : Prop where
  offered : ∀ oph op, t.find oph = some op → Offered oph op
  collected : ∀ oph op, Offered oph op → ∃ op', t.find oph = some op'

def Parsed (tools : Tools T) (raws : List T.Raw) (oph : T.Hash) (op : Operation T) : Prop :=
  ∃ raw ∈ raws, tools.hash raw = oph ∧ tools.parse oph raw = some op

def chain : Block T → List (Block T)
  | .root hash operations => [.root hash operations]
  | .child predecessor hash operations => .child predecessor hash operations :: chain predecessor

omit [DecidableEq T.Hash] in
theorem chain_cons (block : Block T) : ∃ rest, chain block = block :: rest := by
  cases block <;> exact ⟨_, rfl⟩

def rawOperations (blocks : List (Block T)) : List T.Raw :=
  blocks.flatMap fun block => block.operations.flatten

variable {tools : Tools T} {isBranchAlive : T.BlockHash → Bool} {state : Recycling T}

theorem popBlock_eq [DecidableEq T.BlockHash] (ancestor : T.BlockHash) (block : Block T) :
    popBlock tools ancestor block state =
      (rawOperations ((chain block).takeWhile (·.bhash ≠ ancestor))).foldl (popOperation tools) state := by
  induction block generalizing state with
  | root hash operations =>
    by_cases h : hash = ancestor
    · simp [popBlock, chain, rawOperations, Block.bhash, h]
    · simp [popBlock, chain, rawOperations, Block.bhash, Block.operations, h]
  | child predecessor hash operations ih =>
    by_cases h : hash = ancestor
    · simp [popBlock, chain, rawOperations, Block.bhash, h]
    · simp [popBlock, chain, rawOperations, Block.bhash, Block.operations, h, ih, List.foldl_append]

theorem foldl_popOperation {raws : List T.Raw} (state : Recycling T)
    {Offered : T.Hash → Operation T → Prop} (collects : Collects state.mempool Offered)
    (parsable : ∀ raw ∈ raws, (tools.parse (tools.hash raw) raw).isSome) :
    Collects (raws.foldl (popOperation tools) state).mempool
        (fun oph op => Offered oph op ∨ Parsed tools raws oph op) ∧
      (raws.foldl (popOperation tools) state).cleared = state.cleared := by
  induction raws generalizing state Offered with
  | nil => simpa [Parsed] using collects
  | cons raw raws ih =>
    obtain ⟨parsed, h⟩ := Option.isSome_iff_exists.1 (parsable raw (by simp))
    have step : Collects (popOperation tools state raw).mempool fun oph op =>
        Offered oph op ∨ tools.hash raw = oph ∧ tools.parse oph raw = some op := by
      constructor
      · intro oph op found
        simp only [popOperation, h, find_add] at found
        split at found
        · simp_all
        · exact .inl (collects.offered oph op found)
      · intro oph op found
        simp only [popOperation, h, find_add]
        split
        · simp
        · exact collects.collected oph op (found.resolve_right (by grind))
    obtain ⟨popped, cleared⟩ := ih _ step fun raw member => parsable raw (by simp [member])
    refine ⟨?_, by simpa [popOperation, h] using cleared⟩
    simpa [Parsed, or_assoc] using popped

def hashesOf (tools : Tools T) (path : List (Block T)) : List T.Hash :=
  path.flatMap fun block => (allOperationHashes tools block).flatten

theorem foldl_pushBlock (path : List (Block T)) :
    path.foldl (pushBlock tools) state = { state with
      cleared := state.cleared ++ hashesOf tools path
      mempool := state.mempool.removeAll (hashesOf tools path) } := by
  induction path generalizing state with
  | nil => simp [hashesOf, removeAll]
  | cons block path ih => simp [ih, pushBlock, hashesOf, removeAll, List.foldl_append]

theorem mem_outdated : oph ∈ state.mempool.keys.filter (fun oph =>
      (state.mempool.find oph).any fun op => !isBranchAlive (tools.branch op)) ↔
    ∃ op, state.mempool.find oph = some op ∧ isBranchAlive (tools.branch op) = false := by
  rw [List.mem_filter, mem_keys]
  constructor
  · rintro ⟨⟨op, found⟩, h⟩
    exact ⟨op, found, by simpa [found] using h⟩
  · rintro ⟨op, found, h⟩
    exact ⟨⟨op, found⟩, by simp [found, h]⟩

theorem find_clearOutdated : (clearOutdated tools isBranchAlive state).mempool.find oph = some op ↔
    state.mempool.find oph = some op ∧ isBranchAlive (tools.branch op) = true := by
  simp only [clearOutdated, find_removeAll, mem_outdated]
  cases state.mempool.find oph with
  | none => simp
  | some op' => by_cases alive : isBranchAlive (tools.branch op') <;> simp [alive] <;> grind

theorem mem_cleared_clearOutdated : oph ∈ (clearOutdated tools isBranchAlive state).cleared ↔
    oph ∈ state.cleared ∨
      ∃ op, state.mempool.find oph = some op ∧ isBranchAlive (tools.branch op) = false := by
  rw [← mem_outdated]
  exact List.mem_append

/-- What `new_blocks` promises. The hash of the ancestor is its own. -/
structure Branches (tools : Tools T)
    (fromBranch toBranch ancestor : Block T) (popped path : List (Block T)) : Prop where
  newBlocks : tools.newBlocks fromBranch toBranch = (ancestor, path)
  old : chain fromBranch = popped ++ chain ancestor
  new : chain toBranch = path.reverse ++ chain ancestor
  apart : ∀ block ∈ popped, block ∉ path
  distinct : ∀ block ∈ popped, block.bhash ≠ ancestor.bhash

section
variable (classes : Classes T) (pending : Table T.Hash (Operation T)) (handleBranchRefused : Bool)

def Classified (oph : T.Hash) (op : Operation T) : Prop :=
  pending.find oph = some op ∨ Holds classes oph op .validated ∨
    (∃ tztrace, Holds classes oph op (.error .branchDelayed tztrace)) ∨
    handleBranchRefused = true ∧ ∃ tztrace, Holds classes oph op (.error .branchRefused tztrace)

theorem collects_classified : Collects (toMap classes true true handleBranchRefused false false ∪ pending)
    (Classified classes pending handleBranchRefused) := by
  constructor
  · intro oph op h
    cases handleBranchRefused <;>
      simp [toMap, find_union, find_addClass] at h <;> simp [Classified, Holds] <;> grind
  · intro oph op h
    simp only [← Option.isSome_iff_exists]
    cases handleBranchRefused <;>
      simp [toMap, find_union, find_addClass] <;> simp [Classified, Holds] at h <;> grind

def Offered (tools : Tools T) (popped : List (Block T)) (oph : T.Hash) (op : Operation T) : Prop :=
  Classified classes pending handleBranchRefused oph op ∨ Parsed tools (rawOperations popped) oph op

/-- An operation, and with it its branch, is identified by its hash. -/
theorem recycled_exactly [RingBuffer T] [DecidableEq T.BlockHash]
    {fromBranch toBranch ancestor : Block T} {popped path : List (Block T)} (liveBlocks : List T.BlockHash)
    (branches : Branches tools fromBranch toBranch ancestor popped path)
    (parsable : ∀ raw ∈ rawOperations popped, (tools.parse (tools.hash raw) raw).isSome)
    (identified : ∀ oph op op', Offered classes pending handleBranchRefused tools popped oph op →
      Offered classes pending handleBranchRefused tools popped oph op' →
        tools.branch op = tools.branch op') :
    let offered := Offered classes pending handleBranchRefused tools popped
    let result := recycleOperations classes tools fromBranch toBranch liveBlocks pending handleBranchRefused
    (∀ oph op, result.mempool.find oph = some op → offered oph op ∧ oph ∉ result.cleared) ∧
    ∀ oph op, offered oph op →
      ((∃ op', result.mempool.find oph = some op') ↔
        oph ∉ hashesOf tools path ∧ tools.branch op ∈ liveBlocks) ∧
      (result.mempool.find oph = none → oph ∈ result.cleared) := by
  intro offered result
  obtain ⟨rest, whole⟩ := chain_cons ancestor
  have walked : (chain fromBranch).takeWhile (·.bhash ≠ ancestor.bhash) = popped := by
    rw [branches.old, List.takeWhile_append_of_pos (by simpa using branches.distinct), whole]
    simp
  obtain ⟨collects, cleared⟩ := foldl_popOperation
    ⟨classes, toMap classes true true handleBranchRefused false false ∪ pending, [], []⟩
    (collects_classified classes pending handleBranchRefused) parsable
  simp only [result, recycleOperations, handleLiveOperations, branches.newBlocks, popBlock_eq, walked,
    foldl_pushBlock, find_clearOutdated, mem_cleared_clearOutdated, find_removeAll, cleared,
    List.nil_append, Option.eq_none_iff_forall_ne_some, ne_eq, decide_eq_true_iff]
  refine ⟨fun oph op found => ?_, fun oph op h => ?_⟩
  · split_ifs at found ⊢ with gone
    · simp at found
    · exact ⟨collects.offered oph op found.1, by grind⟩
  · obtain ⟨op', found⟩ := collects.collected oph op h
    have same := identified oph op op' h (collects.offered oph op' found)
    by_cases gone : oph ∈ hashesOf tools path
    · simp [gone]
    · simp [gone, found, same]

end

def genesis : Block (queueTypes Nat) := .root 0 []

def oldHead : Block (queueTypes Nat) := .child genesis 1 [[10, 11]]

def newHead : Block (queueTypes Nat) := .child genesis 2 [[11]]

def sampleTools : Tools (queueTypes Nat) where
  hash := id
  parse oph raw := some ⟨oph, raw⟩
  branch op := op.contents
  newBlocks _ _ := (genesis, [newHead])

def noClasses : Classes (queueTypes Nat) := ⟨fun _ => ⟨⟨1, by decide, [], by decide⟩, ∅⟩, ∅, [], ∅, []⟩

def reorganization : Recycling (queueTypes Nat) :=
  recycleOperations noClasses sampleTools oldHead newHead [10, 11] ∅ true

/-- The operation that is in the new head as well is not recycled. -/
theorem reorganized : (∃ op, reorganization.mempool.find 10 = some op) ∧ 11 ∈ reorganization.cleared := by
  have parsed (oph op) : Offered noClasses ∅ true sampleTools [oldHead] oph op ↔
      (oph = 10 ∨ oph = 11) ∧ op = ⟨oph, oph⟩ := by
    simp [Offered, Classified, Holds, noClasses, Parsed, rawOperations, oldHead, Block.operations,
      sampleTools]
    grind
  have branches : Branches sampleTools oldHead newHead genesis [oldHead] [newHead] :=
    ⟨rfl, rfl, rfl, by simp [oldHead, newHead], by decide⟩
  obtain ⟨-, h⟩ := recycled_exactly noClasses ∅ true [10, 11] branches (by simp [sampleTools]) (by grind)
  exact ⟨(h 10 ⟨10, 10⟩ ((parsed _ _).2 (by simp))).1.2 (by decide),
    (h 11 ⟨11, 11⟩ ((parsed _ _).2 (by simp))).2 (by decide)⟩

end Octez.Proof.Prevalidator
