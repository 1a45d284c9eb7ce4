import Octez.Lib.Exn

/-! # Storage tables, whose operations may fail on a key -/

namespace Octez.Lib

inductive StorageError where
  | missingKey
  | existingKey
deriving DecidableEq, Repr

abbrev Table (Key Value : Type) := AList fun _ : Key => Value

namespace Table
variable {Key Value : Type} [DecidableEq Key]

section
variable (t : Table Key Value) (key : Key)

def find : Option Value := t.lookup key

def mem : Bool := (t.find key).isSome

def get : TzResult StorageError Value :=
  match t.find key with
  | some value => .ok value
  | none => tzfail .missingKey

def add (value : Value) : Table Key Value := t.insert key value

def remove : Table Key Value := t.erase key

def init (value : Value) : TzResult StorageError (Table Key Value) :=
  if t.mem key then tzfail .existingKey else .ok (t.add key value)

def update (value : Value) : TzResult StorageError (Table Key Value) :=
  if t.mem key then .ok (t.add key value) else tzfail .missingKey

def removeExisting : TzResult StorageError (Table Key Value) :=
  if t.mem key then .ok (t.remove key) else tzfail .missingKey

def removeAll (keys : List Key) : Table Key Value := keys.foldl remove t

end

variable {t t' : Table Key Value} {key key' : Key} {value : Value}

@[simp] theorem find_empty (key : Key) : find (∅ : Table Key Value) key = none := rfl

theorem mem_eq_true : t.mem key = true ↔ ∃ value, t.find key = some value :=
  Option.isSome_iff_exists

theorem mem_eq_false : t.mem key = false ↔ t.find key = none := by
  rw [mem, Option.isSome_eq_false_iff, Option.isNone_iff_eq_none]

theorem find_add (t : Table Key Value) (key key' : Key) (value : Value) :
    (t.add key value).find key' = if key' = key then some value else t.find key' := by
  by_cases same : key' = key
  · rw [same, if_pos rfl]
    exact AList.lookup_insert t
  · rw [if_neg same]
    exact AList.lookup_insert_ne same

@[simp] theorem find_add_self (t : Table Key Value) (key : Key) (value : Value) :
    (t.add key value).find key = some value := by
  rw [find_add, if_pos rfl]

theorem find_add_of_ne (other : key' ≠ key) : (t.add key value).find key' = t.find key' := by
  rw [find_add, if_neg other]

theorem mem_add : (t.add key value).mem key' = true ↔ key' = key ∨ t.mem key' = true := by
  rw [mem, find_add]
  by_cases same : key' = key
  · simp [same]
  · simp [same, mem]

theorem find_remove (t : Table Key Value) (key key' : Key) :
    (t.remove key).find key' = if key' = key then none else t.find key' := by
  by_cases same : key' = key
  · rw [same, if_pos rfl]
    exact AList.lookup_erase key t
  · rw [if_neg same]
    exact AList.lookup_erase_ne same

theorem find_remove_of_ne (other : key' ≠ key) : (t.remove key).find key' = t.find key' := by
  rw [find_remove, if_neg other]

theorem get_eq_ok : t.get key = .ok value ↔ t.find key = some value := by
  unfold get
  split <;> simp_all [tzfail]

theorem init_eq_ok : t.init key value = .ok t' ↔ t.find key = none ∧ t.add key value = t' := by
  unfold init
  rw [← mem_eq_false]
  split <;> simp_all [tzfail]

theorem update_eq_ok : t.update key value = .ok t' ↔ t.mem key = true ∧ t.add key value = t' := by
  unfold update
  split <;> simp_all [tzfail]

theorem removeExisting_eq_ok : t.removeExisting key = .ok t' ↔ t.mem key = true ∧ t.remove key = t' := by
  unfold removeExisting
  split <;> simp_all [tzfail]

theorem find_removeAll (t : Table Key Value) (keys : List Key) (key : Key) :
    (t.removeAll keys).find key = if key ∈ keys then none else t.find key := by
  induction keys generalizing t with
  | nil => simp [removeAll]
  | cons first keys ih =>
    change (removeAll (t.remove first) keys).find key = _
    rw [ih, find_remove]
    by_cases later : key ∈ keys
    · simp [later]
    · simp [later]

theorem liftError_removeExisting {Err : Type} (f : StorageError → Err)
    (present : t.mem key = true) : liftError f (t.removeExisting key) = .ok (t.remove key) :=
  liftError_eq_ok.2 (removeExisting_eq_ok.2 ⟨present, rfl⟩)

theorem mem_remove : (t.remove key).mem key' = true ↔ key' ≠ key ∧ t.mem key' = true := by
  rw [mem, find_remove]
  by_cases same : key' = key
  · simp [same]
  · simp [same, mem]

theorem mem_removeAll {keys : List Key} :
    (t.removeAll keys).mem key = true ↔ key ∉ keys ∧ t.mem key = true := by
  rw [mem, find_removeAll]
  by_cases removed : key ∈ keys
  · simp [removed]
  · simp [removed, mem]

theorem mem_remove_of_ne (other : key' ≠ key) : (t.remove key).mem key' = t.mem key' := by
  rw [mem, mem, find_remove_of_ne other]

end Table

end Octez.Lib
