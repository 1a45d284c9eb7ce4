import Octez.Lib.Storage

/-! # Sums over the entries of a table -/

namespace Octez.Lib.Table
variable {Key Value : Type}

def total (weight : Key → Value → Nat) (t : Table Key Value) : Nat :=
  (t.entries.map fun entry => weight entry.1 entry.2).sum

variable [DecidableEq Key]

def weightAt (weight : Key → Value → Nat) (t : Table Key Value) (key : Key) : Nat :=
  (t.find key).elim 0 (weight key)

variable {t : Table Key Value} {weight weight' : Key → Value → Nat} {key key' : Key} {value : Value}

theorem weightAt_of_find (found : t.find key = some value) : t.weightAt weight key = weight key value := by
  rw [weightAt, found]
  rfl

theorem weightAt_of_none (absent : t.find key = none) : t.weightAt weight key = 0 := by
  rw [weightAt, absent]
  rfl

theorem find_of_mem_entries {entry} (member : entry ∈ t.entries) :
    t.find entry.1 = some entry.2 :=
  AList.mem_lookup_iff.2 member

theorem total_congr (same : ∀ key value, t.find key = some value → weight' key value = weight key value) :
    t.total weight' = t.total weight := by
  apply congrArg List.sum
  apply List.map_congr_left
  intro entry member
  exact same entry.1 entry.2 (find_of_mem_entries member)

theorem total_eq_zero (zero : ∀ key value, t.find key = some value → weight key value = 0) :
    t.total weight = 0 := by
  apply List.sum_eq_zero
  intro x member
  obtain ⟨entry, inside, rfl⟩ := List.mem_map.1 member
  exact zero entry.1 entry.2 (find_of_mem_entries inside)

theorem sum_kerase (weight : Key → Value → Nat) (key : Key) (entries : List (Sigma fun _ : Key => Value)) :
    ((entries.kerase key).map fun entry => weight entry.1 entry.2).sum +
        (entries.dlookup key).elim 0 (weight key) =
      (entries.map fun entry => weight entry.1 entry.2).sum := by
  induction entries with
  | nil => rfl
  | cons entry rest ih =>
    obtain ⟨first, value⟩ := entry
    by_cases same : key = first
    · subst same
      have erased : List.kerase key (⟨key, value⟩ :: rest) = rest := List.kerase_cons_eq rfl
      rw [erased, List.dlookup_cons_eq, List.map_cons, List.sum_cons]
      exact Nat.add_comm _ _
    · rw [List.kerase_cons_ne same, List.dlookup_cons_ne _ _ same, List.map_cons, List.sum_cons,
        List.map_cons, List.sum_cons, Nat.add_assoc, ih]

theorem total_remove (t : Table Key Value) (key : Key) (weight : Key → Value → Nat) :
    (t.remove key).total weight + t.weightAt weight key = t.total weight :=
  sum_kerase weight key t.entries

theorem total_add (t : Table Key Value) (key : Key) (value : Value) (weight : Key → Value → Nat) :
    (t.add key value).total weight + t.weightAt weight key = t.total weight + weight key value := by
  have inserted : (t.add key value).total weight =
      weight key value + (t.remove key).total weight := by
    unfold total add
    rfl
  have removed := total_remove t key weight
  omega

def put (t : Table Key Value) (key : Key) : Option Value → Table Key Value
  | none => t.remove key
  | some value => t.add key value

theorem find_put_of_ne {new : Option Value} (other : key' ≠ key) :
    (t.put key new).find key' = t.find key' := by
  cases new with
  | none => exact find_remove_of_ne other
  | some value => exact find_add_of_ne other

@[simp] theorem find_put_self (t : Table Key Value) (key : Key) (new : Option Value) :
    (t.put key new).find key = new := by
  cases new with
  | none => exact (find_remove t key key).trans (if_pos rfl)
  | some value => exact find_add_self t key value

theorem weightAt_put (t : Table Key Value) (key : Key) (new : Option Value)
    (weight : Key → Value → Nat) (key' : Key) :
    (t.put key new).weightAt weight key' =
      if key' = key then new.elim 0 (weight key) else t.weightAt weight key' := by
  by_cases same : key' = key
  · rw [if_pos same, same, weightAt, find_put_self]
  · rw [if_neg same, weightAt, find_put_of_ne same, weightAt]

theorem total_put (t : Table Key Value) (key : Key) (new : Option Value) (weight : Key → Value → Nat) :
    (t.put key new).total weight + t.weightAt weight key = t.total weight + new.elim 0 (weight key) := by
  cases new with
  | none => exact total_remove t key weight
  | some value => exact total_add t key value weight

theorem total_reweigh (t : Table Key Value) (key : Key)
    (same : ∀ key' value, key' ≠ key → weight' key' value = weight key' value) :
    t.total weight' + t.weightAt weight key = t.total weight + t.weightAt weight' key := by
  have rest : (t.remove key).total weight' = (t.remove key).total weight := by
    apply total_congr
    intro key' value found
    apply same key' value
    rintro rfl
    rw [find_remove, if_pos rfl] at found
    cases found
  have before := total_remove t key weight
  have after := total_remove t key weight'
  omega

end Octez.Lib.Table
