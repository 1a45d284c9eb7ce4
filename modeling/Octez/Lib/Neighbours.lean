import Mathlib

/-! # Neighbours of a key in a list without repetitions -/

namespace Octez.Lib

variable {Key : Type} {key new gone : Key} {left right keys : List Key}

theorem not_mem_split (distinct : (left ++ key :: right).Nodup) : key ∉ left ++ right :=
  (List.nodup_cons.1 (List.nodup_middle.1 distinct)).1

theorem not_mem_left (distinct : (left ++ key :: right).Nodup) : key ∉ left :=
  mt (List.mem_append_left right) (not_mem_split distinct)

theorem mem_split (member : key ∈ left ++ right) : key ∈ left ++ gone :: right := by
  rw [List.mem_append, List.mem_cons]
  exact (List.mem_append.1 member).imp_right .inr

variable [DecidableEq Key]

def keyBefore (keys : List Key) (key : Key) : Option Key :=
  (keys.takeWhile fun other => other ≠ key).getLast?

def keyAfter (keys : List Key) (key : Key) : Option Key :=
  (keys.dropWhile fun other => other ≠ key).tail.head?

theorem takeWhile_split (absent : key ∉ left) :
    (left ++ key :: right).takeWhile (fun other => other ≠ key) = left := by
  rw [List.takeWhile_append_of_pos, List.takeWhile_cons_of_neg (by simp), List.append_nil]
  intro other member
  exact decide_eq_true fun same => absent (same ▸ member)

theorem dropWhile_split (absent : key ∉ left) :
    (left ++ key :: right).dropWhile (fun other => other ≠ key) = key :: right := by
  rw [List.dropWhile_append_of_pos, List.dropWhile_cons_of_neg (by simp)]
  intro other member
  exact decide_eq_true fun same => absent (same ▸ member)

theorem keyBefore_split (right : List Key) (absent : key ∉ left) :
    keyBefore (left ++ key :: right) key = left.getLast? := by
  rw [keyBefore, takeWhile_split absent]

theorem keyAfter_split (right : List Key) (absent : key ∉ left) :
    keyAfter (left ++ key :: right) key = right.head? := by
  rw [keyAfter, dropWhile_split absent, List.tail_cons]

theorem keyBefore_append (more : List Key) (member : key ∈ keys) :
    keyBefore (keys ++ more) key = keyBefore keys key := by
  obtain ⟨left, right, rfl, absent⟩ := List.eq_append_cons_of_mem member
  rw [List.append_assoc, List.cons_append, keyBefore_split _ absent, keyBefore_split _ absent]

theorem keyAfter_concat (distinct : keys.Nodup) (member : key ∈ keys) :
    keyAfter (keys ++ [new]) key = if keys.getLast? = some key then some new else keyAfter keys key := by
  obtain ⟨left, right, rfl, absent⟩ := List.eq_append_cons_of_mem member
  rw [List.append_assoc, List.cons_append, keyAfter_split _ absent, keyAfter_split _ absent]
  rcases List.eq_nil_or_concat' right with rfl | ⟨right, last, rfl⟩
  · simp
  · have other : last ≠ key := by
      rintro rfl
      simp [List.nodup_append] at distinct
    simp [List.getLast?_append, List.getLast?_cons, other]

theorem keyAfter_remove (distinct : (left ++ gone :: right).Nodup) (member : key ∈ left ++ right) :
    keyAfter (left ++ right) key =
      if left.getLast? = some key then right.head? else keyAfter (left ++ gone :: right) key := by
  rw [List.nodup_append] at distinct
  obtain ⟨distinct_left, distinct_right, apart⟩ := distinct
  rcases List.mem_append.1 member with on_left | on_right
  · obtain ⟨first, rest, rfl, not_first⟩ := List.eq_append_cons_of_mem on_left
    simp only [List.append_assoc, List.cons_append]
    rw [keyAfter_split _ not_first, keyAfter_split _ not_first]
    rcases List.eq_nil_or_concat' rest with rfl | ⟨rest, last, rfl⟩
    · simp
    · have other : last ≠ key := by
        rintro rfl
        simp [List.nodup_append] at distinct_left
      rw [if_neg (by simpa [List.getLast?_append, List.getLast?_cons] using other)]
      cases rest <;> simp
  · have absent : key ∉ left := fun on_left =>
      apart key on_left key (List.mem_cons_of_mem _ on_right) rfl
    have elsewhere : left.getLast? ≠ some key := fun last => absent (List.mem_of_getLast? last)
    obtain ⟨first, rest, rfl, not_first⟩ := List.eq_append_cons_of_mem on_right
    have shorter : key ∉ left ++ first := by simp [absent, not_first]
    have longer : key ∉ left ++ gone :: first := by
      have other : key ≠ gone := by
        rintro rfl
        simp at distinct_right
      simp [absent, other, not_first]
    have kept := keyAfter_split rest shorter
    have old := keyAfter_split rest longer
    simp only [List.append_assoc, List.cons_append] at kept old
    rw [if_neg elsewhere, kept, old]

theorem keyAfter_reverse (distinct : keys.Nodup) (member : key ∈ keys) :
    keyAfter keys.reverse key = keyBefore keys key := by
  obtain ⟨left, right, rfl, absent⟩ := List.eq_append_cons_of_mem member
  have later : key ∉ right.reverse := by
    rw [List.mem_reverse]
    exact (List.nodup_cons.1 (List.nodup_append.1 distinct).2.1).1
  rw [keyBefore_split _ absent, List.reverse_append, List.reverse_cons, List.append_assoc,
    List.singleton_append, keyAfter_split _ later, List.head?_reverse]

theorem keyBefore_remove (distinct : (left ++ gone :: right).Nodup) (member : key ∈ left ++ right) :
    keyBefore (left ++ right) key =
      if right.head? = some key then left.getLast? else keyBefore (left ++ gone :: right) key := by
  have reversed : (left ++ gone :: right).reverse = right.reverse ++ gone :: left.reverse := by simp
  have removed := keyAfter_remove (reversed ▸ List.nodup_reverse.2 distinct)
    (List.reverse_append ▸ List.mem_reverse.2 member)
  have kept : (left ++ right).Nodup := distinct.sublist (by simp)
  rwa [List.getLast?_reverse, List.head?_reverse, ← reversed, ← List.reverse_append,
    keyAfter_reverse kept member, keyAfter_reverse distinct (mem_split member)] at removed

end Octez.Lib
