import Octez.Lib.Exn
import Octez.Lib.MachineInt
import Octez.Lib.Map

/-! # Bounded histories (`src/proto_alpha/lib_protocol/bounded_history_repr.ml`) -/

namespace Octez.BoundedHistory
open Octez.Lib

structure KeyBoundToDifferentValue (Key Value : Type) where
  key : Key
  existingValue : Value
  givenValue : Value
deriving DecidableEq, Repr

structure History (Key Value : Type) where
  events : Map Key Value
  sequence : Map Int Key
  capacity : Int
  nextIndex : Int
  oldestIndex : Int
  size : Int

variable {Key Value : Type}

def empty (capacity : Int) : History Key Value :=
  { events := Map.empty, sequence := Map.empty, capacity,
    nextIndex := 0, oldestIndex := 0, size := 0 }

def find (key : Key) (t : History Key Value) : Option Value := t.events key

variable [DecidableEq Key] [DecidableEq Value]

-- The tail of `remember`, once the entry has been added: the oldest entry goes if it does not fit.
def evict (t : History Key Value) :
    TzResult (KeyBoundToDifferentValue Key Value) (History Key Value) :=
  if 0 < t.size ∧ t.size ≤ t.capacity then .ok t
  else
    match t.sequence t.oldestIndex with
    | none => .error (.raised .assertFalse)
    | some h =>
      .ok { nextIndex := t.nextIndex, capacity := t.capacity, size := t.capacity,
            oldestIndex := wrap64 (t.oldestIndex + 1),
            sequence := Map.remove t.oldestIndex t.sequence, events := Map.remove h t.events }

def push (key : Key) (value : Value) (t : History Key Value) : History Key Value :=
  { events := Map.add key value t.events, sequence := Map.add t.nextIndex key t.sequence,
    capacity := t.capacity, nextIndex := wrap64 (t.nextIndex + 1),
    oldestIndex := t.oldestIndex, size := wrap64 (t.size + 1) }

def remember (key : Key) (value : Value) (t : History Key Value) :
    TzResult (KeyBoundToDifferentValue Key Value) (History Key Value) :=
  if t.capacity ≤ 0 then .ok t
  else
    match t.events key with
    | some value' =>
      if value = value' then evict (push key value t)
      else tzfail ⟨key, value', value⟩
    | none => evict (push key value t)

end Octez.BoundedHistory
