import Mathlib

/-!
# Finite maps, as the functions that look keys up
-/

namespace Octez.Lib

abbrev Map (Key Value : Type) := Key → Option Value

namespace Map
variable {Key Value : Type} [DecidableEq Key]

def empty : Map Key Value := fun _ => none

def add (key : Key) (value : Value) (map : Map Key Value) : Map Key Value :=
  Function.update map key (some value)

def remove (key : Key) (map : Map Key Value) : Map Key Value :=
  Function.update map key none

theorem add_apply (key key' : Key) (value : Value) (map : Map Key Value) :
    add key value map key' = if key' = key then some value else map key' := by
  simp [add, Function.update_apply]

end Map

end Octez.Lib
