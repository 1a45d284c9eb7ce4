import Octez.Lib.Exn

/-! # Durable storage: a path is the key of a value and the root of a subtree -/

namespace Octez.Lib

abbrev Path (Step : Type) := List Step

inductive ValueType where
  | value
  | subtree
  | valueWithSubtree
deriving DecidableEq, Repr

inductive RuntimeError where
  | pathNotFound
  | storeNotAValue
  | decodingError
deriving DecidableEq, Repr

/-- The first entry of a path is its value. -/
structure Durable (Step Value : Type) where
  entries : List (Path Step × Value)
deriving DecidableEq

namespace Durable
variable {Step Value : Type} [DecidableEq Step]

def empty : Durable Step Value := ⟨[]⟩

section Store
variable (s : Durable Step Value) (path : Path Step)

def find : Option Value := s.entries.lookup path

def write (value : Value) : Durable Step Value :=
  ⟨(path, value) :: s.entries⟩

def dropTree : Durable Step Value :=
  ⟨s.entries.filter fun entry => ¬path <+: entry.1⟩

def rerooted (source target : Path Step) : List (Path Step × Value) :=
  s.entries.filterMap fun entry =>
    if source <+: entry.1 then some (target ++ entry.1.drop source.length, entry.2) else none

def copyTree (source target : Path Step) : Durable Step Value :=
  ⟨s.rerooted source target ++ (s.dropTree target).entries⟩

def moveTree (source target : Path Step) : Durable Step Value :=
  ⟨s.rerooted source target ++ ((s.dropTree source).dropTree target).entries⟩

def below : Durable Step Value := ⟨s.rerooted path []⟩

def graft (inner : Durable Step Value) :
    Durable Step Value :=
  ⟨inner.rerooted [] path ++ (s.dropTree path).entries⟩

def hasTree : Bool :=
  s.entries.any fun entry => path <+: entry.1

def hasSubtree : Bool :=
  s.entries.any fun entry => path <+: entry.1 ∧ entry.1 ≠ path

def children : List Step :=
  (s.entries.filterMap fun entry =>
    if path <+: entry.1 then (entry.1.drop path.length).head? else none).dedup

def storeHas : Option ValueType :=
  match (s.find path).isSome, s.hasSubtree path with
  | true, false => some .value
  | false, true => some .subtree
  | true, true => some .valueWithSubtree
  | false, false => none

def storeReadAll : Except RuntimeError Value :=
  match s.find path with
  | some value => .ok value
  | none => .error .storeNotAValue

def checkPathExists : Except RuntimeError Unit :=
  if s.hasTree path then .ok () else .error .pathNotFound

def storeDelete : Except RuntimeError (Durable Step Value) := do
  s.checkPathExists path
  return s.dropTree path

def storeMove (source target : Path Step) : Except RuntimeError (Durable Step Value) := do
  s.checkPathExists source
  return s.moveTree source target

def storeCopy (source target : Path Step) : Except RuntimeError (Durable Step Value) := do
  s.checkPathExists source
  return s.copyTree source target

/-- The host lists the value of a path beside the path's subtrees. -/
def storeCountSubkeys : Nat :=
  (s.children path).length + (if (s.find path).isSome then 1 else 0)

end Store

variable {s s' : Durable Step Value} {path path' source target : Path Step} {value : Value}

theorem lookup_cons (path : Path Step) (entry : Path Step × Value) (entries : List (Path Step × Value)) :
    (entry :: entries).lookup path =
      if path = entry.1 then some entry.2 else entries.lookup path := by
  rw [List.lookup_cons]
  by_cases same : path = entry.1
  · simp [same]
  · rw [beq_false_of_ne same, if_neg same]

theorem mem_entries_of_find (found : s.find path = some value) : (path, value) ∈ s.entries := by
  unfold find at found
  obtain ⟨entries⟩ := s
  induction entries with
  | nil => cases found
  | cons entry entries ih =>
    rw [lookup_cons] at found
    split at found
    · rename_i same
      cases found
      rw [same]
      exact List.mem_cons_self
    · exact List.mem_cons_of_mem _ (ih found)

theorem find_of_mem_entries {entry} (member : entry ∈ s.entries) :
    ∃ value, s.find entry.1 = some value := by
  unfold find
  obtain ⟨entries⟩ := s
  induction entries with
  | nil => cases member
  | cons first entries ih =>
    rw [lookup_cons]
    split
    · exact ⟨_, rfl⟩
    · rename_i different
      rcases List.mem_cons.1 member with same | later
      · exact absurd (congrArg Prod.fst same) different
      · exact ih later

theorem find_write (s : Durable Step Value) (path path' : Path Step) (value : Value) :
    (s.write path value).find path' = if path' = path then some value else s.find path' :=
  lookup_cons path' (path, value) s.entries

@[simp] theorem find_write_self (s : Durable Step Value) (path : Path Step) (value : Value) :
    (s.write path value).find path = some value := by
  rw [find_write, if_pos rfl]

theorem find_write_of_ne (other : path' ≠ path) :
    (s.write path value).find path' = s.find path' := by
  rw [find_write, if_neg other]

section
variable (s)

theorem find_dropTree (path path' : Path Step) :
    (s.dropTree path).find path' = if path <+: path' then none else s.find path' := by
  obtain ⟨entries⟩ := s
  unfold find dropTree
  induction entries with
  | nil => simp
  | cons entry entries ih =>
    rw [List.filter_cons, lookup_cons]
    by_cases below : path <+: entry.1
    · rw [if_neg (by simpa using below), ih]
      by_cases same : path' = entry.1
      · simp [same, below]
      · simp [same]
    · rw [if_pos (by simpa using below), lookup_cons, ih]
      by_cases same : path' = entry.1
      · simp [same, below]
      · simp [same]

theorem lookup_rerooted (source target path : Path Step) : (s.rerooted source target).lookup path =
      if target <+: path then s.find (source ++ path.drop target.length) else none := by
  obtain ⟨entries⟩ := s
  unfold find rerooted
  induction entries with
  | nil => simp
  | cons entry entries ih =>
    obtain ⟨key, value⟩ := entry
    rw [List.filterMap_cons, lookup_cons]
    by_cases below : source <+: key
    · obtain ⟨rest, rfl⟩ := below
      simp only [List.prefix_append, if_true, List.drop_left, lookup_cons, ih]
      by_cases under : target <+: path
      · obtain ⟨tail, rfl⟩ := under
        by_cases same : tail = rest <;> simp [same]
      · have different : path ≠ target ++ rest := by
          rintro rfl
          exact under (List.prefix_append _ _)
        simp [under, different]
    · have different : source ++ path.drop target.length ≠ key := by
        rintro rfl
        exact below (List.prefix_append _ _)
      simp [below, different, ih]

theorem find_transplant (inner : Durable Step Value) (source target path : Path Step) :
    find ⟨inner.rerooted source target ++ (s.dropTree target).entries⟩ path =
      if target <+: path then inner.find (source ++ path.drop target.length) else s.find path := by
  refine List.lookup_append.trans ?_
  rw [lookup_rerooted, show (s.dropTree target).entries.lookup path = _ from find_dropTree s target path]
  by_cases under : target <+: path <;> simp [under]

theorem find_copyTree (source target path : Path Step) : (s.copyTree source target).find path =
      if target <+: path then s.find (source ++ path.drop target.length) else s.find path :=
  find_transplant s s source target path

theorem find_moveTree (source target path : Path Step) : (s.moveTree source target).find path =
      if target <+: path then s.find (source ++ path.drop target.length)
      else if source <+: path then none else s.find path := by
  rw [← find_dropTree]
  exact find_transplant (s.dropTree source) s source target path

@[simp] theorem find_below (path rest : Path Step) :
    (s.below path).find rest = s.find (path ++ rest) := by
  rw [below, find, lookup_rerooted, if_pos List.nil_prefix]
  rfl

theorem find_graft (inner : Durable Step Value) (path path' : Path Step) :
    (s.graft path inner).find path' =
      if path <+: path' then inner.find (path'.drop path.length) else s.find path' :=
  find_transplant s inner [] path path'

@[simp] theorem find_graft_below (inner : Durable Step Value) (path rest : Path Step) :
    (s.graft path inner).find (path ++ rest) = inner.find rest := by
  rw [find_graft, if_pos (List.prefix_append _ _), List.drop_left]

theorem find_write_below (root slot rest : Path Step) (value : Value) :
    (s.write (root ++ slot) value).find (root ++ rest) =
      if rest = slot then some value else s.find (root ++ rest) := by
  rw [find_write]
  simp only [List.append_cancel_left_eq]

theorem find_dropTree_below (root slot rest : Path Step) :
    (s.dropTree (root ++ slot)).find (root ++ rest) =
      if slot <+: rest then none else s.find (root ++ rest) := by
  rw [find_dropTree]
  simp only [List.prefix_append_right_inj]

end

theorem find_write_of_outside {root slot : Path Step} (outside : ¬root <+: path') :
    (s.write (root ++ slot) value).find path' = s.find path' := by
  apply find_write_of_ne
  rintro rfl
  exact outside (List.prefix_append _ _)

theorem find_dropTree_of_outside {root slot : Path Step} (outside : ¬root <+: path') :
    (s.dropTree (root ++ slot)).find path' = s.find path' := by
  rw [find_dropTree, if_neg]
  intro below
  exact outside ((List.prefix_append _ _).trans below)

def Apart (path path' : Path Step) : Prop := ¬path <+: path' ∧ ¬path' <+: path

instance (path path' : Path Step) : Decidable (Apart path path') :=
  inferInstanceAs (Decidable (_ ∧ _))

omit [DecidableEq Step] in
theorem Apart.not_above (apart : Apart path path') (rest : Path Step) : ¬path <+: path' ++ rest :=
  fun below => (List.prefix_or_prefix_of_prefix below (List.prefix_append _ _)).elim apart.1 apart.2

omit [DecidableEq Step] in
theorem Apart.of_below (apart : Apart path path') (rest : Path Step) : Apart (path ++ rest) path' :=
  ⟨fun below => apart.1 ((List.prefix_append _ _).trans below),
    (show Apart path' path from ⟨apart.2, apart.1⟩).not_above rest⟩

omit [DecidableEq Step] in
theorem Apart.symm (apart : Apart path path') : Apart path' path := And.symm apart

def SameBelow (path : Path Step) (s s' : Durable Step Value) : Prop :=
  ∀ rest, s'.find (path ++ rest) = s.find (path ++ rest)

theorem SameBelow.refl (path : Path Step) (s : Durable Step Value) : SameBelow path s s :=
  fun _ => rfl

theorem SameBelow.trans {s''} (first : SameBelow path s s')
    (second : SameBelow path s' s'') : SameBelow path s s'' :=
  fun rest => (second rest).trans (first rest)

theorem SameBelow.find_eq (same : SameBelow path s s') : s'.find path = s.find path := by
  have value := same []
  rwa [List.append_nil] at value

section
variable (s)

theorem SameBelow.write (value : Value) (apart : Apart path' path) :
    SameBelow path s (s.write path' value) := fun rest =>
  find_write_of_ne fun same => apart.not_above rest (same ▸ List.prefix_refl _)

theorem SameBelow.dropTree (apart : Apart path' path) :
    SameBelow path s (s.dropTree path') := fun rest => by
  rw [find_dropTree, if_neg (apart.not_above rest)]

theorem SameBelow.copyTree (apart : Apart target path) :
    SameBelow path s (s.copyTree source target) := fun rest => by
  rw [find_copyTree, if_neg (apart.not_above rest)]

theorem SameBelow.moveTree (from_apart : Apart source path)
    (to_apart : Apart target path) : SameBelow path s (s.moveTree source target) := fun rest => by
  rw [find_moveTree, if_neg (to_apart.not_above rest), if_neg (from_apart.not_above rest)]

theorem SameBelow.graft (inner : Durable Step Value) (apart : Apart path' path) :
    SameBelow path s (s.graft path' inner) := fun rest => by
  rw [find_graft, if_neg (apart.not_above rest)]

end

theorem hasTree_iff : s.hasTree path = true ↔ ∃ rest value, s.find (path ++ rest) = some value := by
  unfold hasTree
  rw [List.any_eq_true]
  constructor
  · rintro ⟨entry, member, below⟩
    obtain ⟨rest, same⟩ := of_decide_eq_true below
    obtain ⟨value, found⟩ := find_of_mem_entries member
    exact ⟨rest, value, same ▸ found⟩
  · rintro ⟨rest, value, found⟩
    exact ⟨_, mem_entries_of_find found, decide_eq_true (List.prefix_append _ _)⟩

theorem hasTree_eq_false : s.hasTree path = false ↔ ∀ rest, s.find (path ++ rest) = none := by
  rw [← Bool.not_eq_true, hasTree_iff]
  push Not
  simp [Option.eq_none_iff_forall_ne_some]

theorem SameBelow.hasTree_eq (same : SameBelow path s s') : s'.hasTree path = s.hasTree path := by
  rw [Bool.eq_iff_iff, hasTree_iff, hasTree_iff]
  simp only [same _]

theorem hasSubtree_iff : s.hasSubtree path = true ↔
    ∃ step rest value, s.find (path ++ step :: rest) = some value := by
  unfold hasSubtree
  rw [List.any_eq_true]
  constructor
  · rintro ⟨entry, member, below⟩
    obtain ⟨⟨rest, same⟩, longer⟩ := of_decide_eq_true below
    obtain ⟨value, found⟩ := find_of_mem_entries member
    cases rest with
    | nil => exact absurd same.symm (by simpa using longer)
    | cons step rest => exact ⟨step, rest, value, same ▸ found⟩
  · rintro ⟨step, rest, value, found⟩
    refine ⟨_, mem_entries_of_find found, decide_eq_true ⟨List.prefix_append _ _, ?_⟩⟩
    simp

theorem mem_children {step : Step} : step ∈ s.children path ↔
    ∃ rest value, s.find (path ++ step :: rest) = some value := by
  unfold children
  rw [List.mem_dedup, List.mem_filterMap]
  constructor
  · rintro ⟨entry, member, first⟩
    split at first
    · rename_i below
      obtain ⟨rest, same⟩ := below
      rw [← same, List.drop_left] at first
      obtain ⟨value, found⟩ := find_of_mem_entries member
      cases rest with
      | nil => cases first
      | cons head rest =>
        cases first
        exact ⟨rest, value, same ▸ found⟩
    · cases first
  · rintro ⟨rest, value, found⟩
    refine ⟨_, mem_entries_of_find found, ?_⟩
    simp

theorem nodup_children (s : Durable Step Value) (path : Path Step) : (s.children path).Nodup :=
  List.nodup_dedup _

theorem storeReadAll_eq_ok : s.storeReadAll path = .ok value ↔ s.find path = some value := by
  unfold storeReadAll
  split <;> simp_all

theorem checkPathExists_eq_ok : s.checkPathExists path = .ok () ↔ s.hasTree path = true := by
  unfold checkPathExists
  split <;> simp_all

theorem storeDelete_eq_ok : s.storeDelete path = .ok s' ↔ s.hasTree path = true ∧ s.dropTree path = s' := by
  unfold storeDelete
  rw [unit_bind_eq_ok, checkPathExists_eq_ok, pure_eq_ok, Except.ok.injEq]

theorem storeMove_eq_ok :
    s.storeMove source target = .ok s' ↔ s.hasTree source = true ∧ s.moveTree source target = s' := by
  unfold storeMove
  rw [unit_bind_eq_ok, checkPathExists_eq_ok, pure_eq_ok, Except.ok.injEq]

theorem storeCopy_eq_ok :
    s.storeCopy source target = .ok s' ↔ s.hasTree source = true ∧ s.copyTree source target = s' := by
  unfold storeCopy
  rw [unit_bind_eq_ok, checkPathExists_eq_ok, pure_eq_ok, Except.ok.injEq]

theorem storeHas_eq_value : s.storeHas path = some .value ↔
    (∃ value, s.find path = some value) ∧ s.hasSubtree path = false := by
  unfold storeHas
  rw [← Option.isSome_iff_exists]
  cases (s.find path).isSome <;> cases s.hasSubtree path <;> simp

theorem storeHas_eq_none : s.storeHas path = none ↔ s.hasTree path = false := by
  unfold storeHas
  rw [hasTree_eq_false]
  constructor
  · intro nothing rest
    cases present : (s.find path).isSome <;> cases below : s.hasSubtree path <;>
      simp [present, below] at nothing
    cases rest with
    | nil => simpa using present
    | cons step rest =>
      by_contra some_value
      obtain ⟨value, found⟩ := Option.ne_none_iff_exists'.1 some_value
      rw [hasSubtree_iff.2 ⟨step, rest, value, found⟩] at below
      cases below
  · intro nothing
    have absent : s.find path = none := by simpa using nothing []
    have below : s.hasSubtree path = false := by
      rw [← Bool.not_eq_true, hasSubtree_iff]
      rintro ⟨step, rest, value, found⟩
      rw [nothing] at found
      cases found
    simp [absent, below]

end Durable

end Octez.Lib
