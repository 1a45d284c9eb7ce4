import Octez.Lib.Exn

/-! # Skip lists (`src/lib_base/skip_list.ml`) -/

namespace Octez.SkipList
open Octez.Lib

/-- The functor's argument, with the condition that `Make` asserts. -/
structure Parameters where
  basis : Nat
  two_le_basis : 2 ≤ basis

@[ext] structure Cell (Content Ptr : Type) where
  content : Content
  backPointers : List Ptr
  index : Nat
deriving DecidableEq, Repr

variable {Content Ptr : Type}

def genesis (content : Content) : Cell Content Ptr :=
  { index := 0, content, backPointers := [] }

variable (cell : Cell Content Ptr)

def backPointer (i : Nat) : Option Ptr :=
  cell.backPointers[i]?

def backPointerUnsafe (i : Nat) : Run Ptr :=
  match backPointer cell i with
  | some ptr => .ok ptr
  | none => .error .assertFalse

/-- `back_pointer_i` in `next`. -/
def nextBackPointer (index : Nat) (prevCell : Cell Content Ptr) (prevCellPtr : Ptr)
    (power i : Nat) : Run Ptr :=
  if index % power = 0 then .ok prevCellPtr else backPointerUnsafe prevCell i

def nextAux (basis index : Nat) (prevCell : Cell Content Ptr) (prevCellPtr : Ptr) :
    Nat → Nat → List Ptr → Nat → Run (List Ptr)
  | 0, _, _, _ => .error .outOfFuel
  | fuel + 1, power, accu, i =>
    if index < power then .ok accu.reverse
    else do
      let backPointerI ← nextBackPointer index prevCell prevCellPtr power i
      nextAux basis index prevCell prevCellPtr fuel (power * basis) (backPointerI :: accu) (i + 1)

def next (P : Parameters) (prevCell : Cell Content Ptr) (prevCellPtr : Ptr) (content : Content) :
    Run (Cell Content Ptr) := do
  let index := prevCell.index + 1
  let backPointers ← nextAux P.basis index prevCell prevCellPtr (index + 1) 1 [] 0
  return { index, content, backPointers }

def listPowersAux (basis : Nat) : Nat → Nat → List Nat → List Nat
  | 0, _, p => p.reverse
  | n + 1, prev, p => listPowersAux basis n (basis * prev) (prev :: p)

/-- The powers are native integers in the source. They stay below the index of the cell, which
counts the calls of `next` that built it. -/
def listPowers (P : Parameters) (cell : Cell Content Ptr) : List Nat :=
  listPowersAux P.basis cell.backPointers.length 1 []

def pointedCellIndex (powers : List Nat) (i : Nat) : Run Int :=
  let power := powers.getD i 0
  if power = 0 then .error .divisionByZero
  else .ok ((cell.index : Int) - (cell.index % power : Nat) - 1)

def binarySearch (cell : Cell Content Ptr) (targetIndex : Nat) (powers : List Nat) :
    Nat → Nat → Nat → Run Nat
  | 0, _, _ => .error .outOfFuel
  | fuel + 1, startIdx, endIdx =>
    if endIdx ≤ startIdx then .ok startIdx
    else do
      let midIdx := startIdx + (endIdx - startIdx) / 2
      let midCellIndex ← pointedCellIndex cell powers midIdx
      if midCellIndex = targetIndex then .ok midIdx
      else if midCellIndex < targetIndex then
        binarySearch cell targetIndex powers fuel startIdx (midIdx - 1)
      else
        let prevMidCellIndex ← pointedCellIndex cell powers (midIdx + 1)
        if prevMidCellIndex = targetIndex then .ok (midIdx + 1)
        else if prevMidCellIndex < targetIndex then .ok midIdx
        else binarySearch cell targetIndex powers fuel (midIdx + 1) endIdx

/-- The `Some` around the result in the source is left out: every branch has it. -/
def bestSkip (targetIndex : Nat) (powers : List Nat) : Run Nat :=
  binarySearch cell targetIndex powers (cell.backPointers.length + 1) 0 (cell.backPointers.length - 1)

section Monadic
variable (P : Parameters) (deref : Ptr → Option (Cell Content Ptr))

def revBackPathAux (targetIndex : Nat) (powers : List Nat) :
    Nat → List Ptr → Ptr → Run (Option (List Ptr))
  | 0, _, _ => .error .outOfFuel
  | fuel + 1, path, ptr =>
    let path := ptr :: path
    match deref ptr with
    | none => .ok none
    | some cell =>
      if targetIndex = cell.index then .ok (some path)
      else if cell.index < targetIndex then .ok none
      else do
        let bestIdx ← bestSkip cell targetIndex powers
        match backPointer cell bestIdx with
        | none => .ok none
        | some ptr => revBackPathAux targetIndex powers fuel path ptr

def revBackPath (fuel : Nat) (cellPtr : Ptr) (targetIndex : Nat) : Run (Option (List Ptr)) :=
  match deref cellPtr with
  | none => .ok none
  | some cell => revBackPathAux deref targetIndex (listPowers P cell) fuel [] cellPtr

def backPath (fuel : Nat) (cellPtr : Ptr) (targetIndex : Nat) : Run (Option (List Ptr)) := do
  let path ← revBackPath P deref fuel cellPtr targetIndex
  return path.map List.reverse

def validPath [DecidableEq Ptr] (targetPtr : Ptr) (targetIndex : Nat) (powers : List Nat) :
    Nat → Ptr → List Ptr → Run Bool
  | index, finalCell, [] => .ok (decide (targetPtr = finalCell) && decide (index = targetIndex))
  | _, cellPtr, cellPtr' :: path =>
    match deref cellPtr with
    | none => .ok false
    | some cell =>
      match deref cellPtr' with
      | none => .ok false
      | some cell' =>
        if cellPtr' ∈ cell.backPointers then do
          let bestIdx ← bestSkip cell targetIndex powers
          match backPointer cell bestIdx with
          | none => .ok false
          | some bestPtr =>
            if bestPtr = cellPtr' then
              validPath targetPtr targetIndex powers cell'.index cellPtr' path
            else .ok false
        else .ok false

def validBackPath [DecidableEq Ptr] (cellPtr targetPtr : Ptr) (path : List Ptr) : Run Bool :=
  match deref targetPtr with
  | none => .ok false
  | some target =>
    match deref cellPtr with
    | none => .ok false
    | some cell =>
      match path with
      | [] => .ok false
      | firstCellPtr :: path =>
        if firstCellPtr = cellPtr then
          validPath deref targetPtr target.index (listPowers P cell) cell.index cellPtr path
        else .ok false

end Monadic

inductive SearchCellResult (Content Ptr : Type) where
  | found (cell : Cell Content Ptr)
  | nearest (lower : Cell Content Ptr) (upper : Option (Cell Content Ptr))
  | noExactOrLowerPtr
  | derefReturnedNone
deriving DecidableEq, Repr

structure SearchResult (Content Ptr : Type) where
  revPath : List (Cell Content Ptr)
  lastCell : SearchCellResult Content Ptr
deriving DecidableEq, Repr

section Search
variable (deref : Ptr → Option (Cell Content Ptr)) (compare : Content → Int)

def searchAux : Nat → List (Cell Content Ptr) → Cell Content Ptr → Option (Cell Content Ptr) →
    Nat → Run (SearchResult Content Ptr)
  | 0, _, _, _, _ => .error .outOfFuel
  | fuel + 1, revPath, cell, lastCandidate, ix =>
    let backPointersLength := cell.backPointers.length
    if backPointersLength = 0 then .ok { revPath, lastCell := .noExactOrLowerPtr }
    else do
      let candidatePtr ← backPointerUnsafe cell ix
      match deref candidatePtr with
      | none =>
        match lastCandidate with
        | none => .ok { revPath, lastCell := .derefReturnedNone }
        | some nextCell => searchAux fuel (nextCell :: revPath) nextCell none 0
      | some nextCell =>
        let comparison := compare nextCell.content
        if comparison = 0 then
          .ok { revPath := nextCell :: revPath, lastCell := .found nextCell }
        else if comparison > 0 then
          if ix < backPointersLength - 1 then
            searchAux fuel revPath cell (some nextCell) (ix + 1)
          else searchAux fuel (nextCell :: revPath) nextCell none 0
        else if ix = 0 then
          .ok { revPath := nextCell :: revPath, lastCell := .nearest nextCell (some cell) }
        else do
          let goodCandidatePtr ← backPointerUnsafe cell (ix - 1)
          match deref goodCandidatePtr with
          | none => .error .assertFalse
          | some goodNextCell =>
            searchAux fuel (goodNextCell :: revPath) goodNextCell none 0

def search (fuel : Nat) (cell : Cell Content Ptr) : Run (SearchResult Content Ptr) :=
  let comparison := compare cell.content
  if comparison = 0 then .ok { revPath := [cell], lastCell := .found cell }
  else if comparison < 0 then .ok { revPath := [cell], lastCell := .nearest cell none }
  else searchAux deref compare fuel [cell] cell none 0

end Search

end Octez.SkipList
