import Octez.Lib.Exn

/-! # Association lists sorted by their keys -/

namespace Octez.Lib.SortedAssoc
variable {Value : Type}

def Sorted (entries : List (Nat × Value)) : Prop :=
  entries.Pairwise fun earlier later => earlier.1 < later.1

def insert (key : Nat) (value : Value) : List (Nat × Value) → List (Nat × Value)
  | [] => [(key, value)]
  | entry :: rest =>
    if entry.1 = key then (key, value) :: rest
    else if entry.1 < key then entry :: insert key value rest
    else (key, value) :: entry :: rest

def updateM {ε : Type} (f : Option Value → Except ε Value) (key : Nat) :
    List (Nat × Value) → Except ε (List (Nat × Value))
  | [] => do
    let value ← f none
    return [(key, value)]
  | entry :: rest =>
    if entry.1 = key then do
      let value ← f (some entry.2)
      return (entry.1, value) :: rest
    else if entry.1 < key then do
      let rest ← updateM f key rest
      return entry :: rest
    else do
      let value ← f none
      return (key, value) :: entry :: rest

section Lookup
variable {entries : List (Nat × Value)} {entry : Nat × Value} {key : Nat}

theorem Sorted.tail (sorted : Sorted (entry :: entries)) : Sorted entries :=
  (List.pairwise_cons.1 sorted).2

theorem Sorted.head_lt (sorted : Sorted (entry :: entries)) {later : Nat × Value}
    (member : later ∈ entries) : entry.1 < later.1 :=
  (List.pairwise_cons.1 sorted).1 later member

theorem lookup_cons (entry : Nat × Value) (entries : List (Nat × Value)) (key : Nat) :
    (entry :: entries).lookup key = if entry.1 = key then some entry.2 else entries.lookup key := by
  obtain ⟨k, value⟩ := entry
  by_cases same : k = key
  · subst same
    simp
  · have differs : (key == k) = false := beq_eq_false_iff_ne.2 (Ne.symm same)
    simp only [List.lookup_cons, differs, if_neg same]

theorem lookup_eq_none (absent : ∀ entry ∈ entries, entry.1 ≠ key) : entries.lookup key = none := by
  induction entries with
  | nil => rfl
  | cons entry rest ih =>
    rw [lookup_cons, if_neg (absent entry List.mem_cons_self)]
    exact ih fun later member => absent later (List.mem_cons_of_mem _ member)

theorem Sorted.lookup_tail_eq_none (sorted : Sorted (entry :: entries)) (small : key ≤ entry.1) :
    entries.lookup key = none := by
  apply lookup_eq_none
  intro later member
  exact Nat.ne_of_gt (Nat.lt_of_le_of_lt small (sorted.head_lt member))

end Lookup

section Insert
variable {entries : List (Nat × Value)} {key : Nat} {value : Value} {ε : Type}

theorem mem_insert {entry : Nat × Value} (member : entry ∈ insert key value entries) :
    entry = (key, value) ∨ entry ∈ entries := by
  induction entries with
  | nil => simpa [insert] using member
  | cons head rest ih =>
    rw [insert] at member
    split_ifs at member with same smaller
    · rcases List.mem_cons.1 member with rfl | member
      · exact .inl rfl
      · exact .inr (List.mem_cons_of_mem _ member)
    · rcases List.mem_cons.1 member with rfl | member
      · exact .inr List.mem_cons_self
      · exact (ih member).imp_right (List.mem_cons_of_mem _)
    · exact List.mem_cons.1 member

theorem Sorted.insert (sorted : Sorted entries) : Sorted (insert key value entries) := by
  induction entries with
  | nil => exact List.pairwise_singleton _ _
  | cons head rest ih =>
    rw [SortedAssoc.insert]
    split_ifs with same smaller
    · refine List.pairwise_cons.2 ⟨?_, sorted.tail⟩
      intro later member
      exact same ▸ sorted.head_lt member
    · refine List.pairwise_cons.2 ⟨?_, ih sorted.tail⟩
      intro later member
      rcases mem_insert member with rfl | member
      · exact smaller
      · exact sorted.head_lt member
    · have below : key < head.1 := by omega
      refine List.pairwise_cons.2 ⟨?_, sorted⟩
      intro later member
      rcases List.mem_cons.1 member with rfl | member
      · exact below
      · exact Nat.lt_trans below (sorted.head_lt member)

theorem lookup_insert (sorted : Sorted entries) (key' : Nat) :
    (insert key value entries).lookup key' =
      if key' = key then some value else entries.lookup key' := by
  induction entries with
  | nil => simp [insert, lookup_cons, eq_comm]
  | cons head rest ih =>
    rw [insert]
    split_ifs with same found smaller found found
    · rw [lookup_cons, if_pos found.symm]
    · rw [lookup_cons, lookup_cons, if_neg (Ne.symm found), if_neg (same ▸ Ne.symm found)]
    · rw [lookup_cons, if_neg (found ▸ same), ih sorted.tail, if_pos found]
    · rw [lookup_cons, lookup_cons, ih sorted.tail, if_neg found]
    · rw [lookup_cons, if_pos found.symm]
    · rw [lookup_cons, if_neg (Ne.symm found)]

theorem sum_insert (sorted : Sorted entries) (key : Nat) (value : Value) (weight : Nat → Value → Nat) :
    ((insert key value entries).map fun entry => weight entry.1 entry.2).sum +
        (entries.lookup key).elim 0 (weight key) =
      (entries.map fun entry => weight entry.1 entry.2).sum + weight key value := by
  induction entries with
  | nil => simp [insert]
  | cons head rest ih =>
    rw [insert]
    split_ifs with same smaller
    · rw [lookup_cons, if_pos same]
      subst same
      simp only [List.map_cons, List.sum_cons, Option.elim_some]
      omega
    · have rest_sum := ih sorted.tail
      rw [lookup_cons, if_neg same]
      simp only [List.map_cons, List.sum_cons]
      omega
    · rw [lookup_cons, if_neg same, sorted.lookup_tail_eq_none (by omega)]
      simp only [List.map_cons, List.sum_cons, Option.elim_none]
      omega

theorem updateM_eq (f : Option Value → Except ε Value) (sorted : Sorted entries) :
    updateM f key entries = f (entries.lookup key) >>= fun value => .ok (insert key value entries) := by
  induction entries with
  | nil => rfl
  | cons head rest ih =>
    rw [updateM, lookup_cons]
    split_ifs with same smaller
    · subst same
      simp [insert]
    · rw [ih sorted.tail]
      cases f (rest.lookup key) with
      | error failure => rfl
      | ok value => simp [insert, same, smaller]
    · rw [sorted.lookup_tail_eq_none (by omega)]
      cases f none with
      | error failure => rfl
      | ok value => simp [insert, same, smaller]

theorem updateM_sum {f : Option Value → Except ε Value}
    {entries'} (updated : updateM f key entries = .ok entries') :
    ∃ found value, f found = .ok value ∧ ∀ weight : Nat → Value → Nat,
      (entries'.map fun entry => weight entry.1 entry.2).sum + found.elim 0 (weight key) =
        (entries.map fun entry => weight entry.1 entry.2).sum + weight key value := by
  induction entries generalizing entries' with
  | nil =>
    obtain ⟨value, computed, updated⟩ := bind_eq_ok.1 updated
    cases updated
    exact ⟨none, value, computed, fun weight => by simp⟩
  | cons head rest ih =>
    rw [updateM] at updated
    split_ifs at updated with same smaller
    · obtain ⟨value, computed, updated⟩ := bind_eq_ok.1 updated
      cases updated
      subst same
      refine ⟨some head.2, value, computed, ?_⟩
      simp only [List.map_cons, List.sum_cons, Option.elim_some]
      omega
    · obtain ⟨rest', walked, updated⟩ := bind_eq_ok.1 updated
      cases updated
      obtain ⟨found, value, computed, sums⟩ := ih walked
      refine ⟨found, value, computed, ?_⟩
      intro weight
      have tail := sums weight
      simp only [List.map_cons, List.sum_cons]
      omega
    · obtain ⟨value, computed, updated⟩ := bind_eq_ok.1 updated
      cases updated
      refine ⟨none, value, computed, ?_⟩
      simp only [List.map_cons, List.sum_cons, Option.elim_none]
      omega

end Insert

end Octez.Lib.SortedAssoc
