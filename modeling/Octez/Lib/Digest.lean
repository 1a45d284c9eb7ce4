import Mathlib

/-! # Collision-free hashes: the digest of a list is the list itself -/

namespace Octez.Lib

inductive Digest where
  | atom (n : Nat)
  | nil
  | cons (head tail : Digest)
deriving DecidableEq, Repr

namespace Digest

def ofList : List Digest → Digest
  | [] => nil
  | head :: tail => cons head (ofList tail)

theorem ofList_injective : Function.Injective ofList := by
  intro digests
  induction digests with
  | nil =>
    intro other equal
    cases other with
    | nil => rfl
    | cons head tail => cases equal
  | cons head tail ih =>
    intro other equal
    cases other with
    | nil => cases equal
    | cons head' tail' =>
      obtain ⟨rfl, rest⟩ := Digest.cons.inj equal
      rw [ih rest]

end Digest

end Octez.Lib
