import Octez.Lib.Durable

/-!
# Durable storage of the kernel
-/

namespace Octez.Etherlink
open Octez.Lib

abbrev Bytes := List UInt8

instance Bytes.lawfulBEq : LawfulBEq Bytes := inferInstance

inductive Name where
  | pointer
  | data
  | metadata
  | evm
  | evmNode
  | blueprints
  | nbChunks
  | delayedInbox
  | worldState
  | blocks
  | current
  | number
  | hash
  | fees
  | baseFeePerGas
  | infoPerLevel
  | timestamp
  | stats
  | numbers
  | total
  | kernelUpgrade
  | kernelRootHash
  | sequencerUpgrade
  | sequencer
  | sequencerPoolAddress
  | kernel
  | bootWasm
  | env
  | reboot
  | backupKernel
  | rootHash
  | sdk
  | installer
  | reveal
  | ethAccounts
  | balance
  | nonce
  | code
  | codeHash
  | storage
  | indexed
  | burned
  | tmp
  | inProgress
  | transactionsReceipts
  | transactionsObjects
deriving DecidableEq, Repr

/-- A step of a path is a fixed name, a key written in hexadecimal, a number written in decimal or a
name with a number after a dot. -/
inductive Step where
  | name (name : Name)
  | hex (key : Bytes)
  | decimal (number : Nat)
  | layer (name : Name) (index : Nat)
deriving DecidableEq, Repr

inductive StorageError where
  | runtime (error : RuntimeError)
  | rlpDecoder
deriving DecidableEq, Repr

class Rlp (Value α : Type) where
  encode : α → Value
  decode : Value → Option α
  decode_encode : ∀ a, decode (encode a) = some a

abbrev Host (Value : Type) := Durable Step Value

variable {Value α : Type} {a : α} {host : Host Value} {path : Path Step}

def liftRuntime (result : Except RuntimeError α) : Except StorageError α :=
  match result with
  | .ok a => .ok a
  | .error error => .error (.runtime error)

def storeRlp [Rlp Value α] (a : α) (host : Host Value) (path : Path Step) : Host Value :=
  host.write path (Rlp.encode a)

def decodeRlp [Rlp Value α] (value : Value) : Except StorageError α :=
  match Rlp.decode value with
  | some a => .ok a
  | none => .error .rlpDecoder

def readRlp [Rlp Value α] (host : Host Value) (path : Path Step) : Except StorageError α := do
  let bytes ← liftRuntime (host.storeReadAll path)
  decodeRlp bytes

def readOptionalRlp [Rlp Value α] (host : Host Value) (path : Path Step) :
    Except StorageError (Option α) :=
  if host.storeHas path = some .value then do
    let elt ← readRlp host path
    return some elt
  else
    return none

theorem liftRuntime_eq_ok {result : Except RuntimeError α} : liftRuntime result = .ok a ↔ result = .ok a := by
  cases result with
  | ok b => exact Iff.rfl.trans (by simp [liftRuntime])
  | error e => simp [liftRuntime]

@[simp] theorem decodeRlp_encode [Rlp Value α] (a : α) :
    decodeRlp (Rlp.encode a : Value) = .ok a := by
  rw [decodeRlp, Rlp.decode_encode]

theorem readRlp_of_find [Rlp Value α]
    (found : host.find path = some (Rlp.encode a)) : readRlp host path = .ok a := by
  rw [readRlp, Durable.storeReadAll, found]
  exact decodeRlp_encode a

theorem readOptionalRlp_of_find [Rlp Value α] {a : Option α}
    (found : host.find path = a.map Rlp.encode) (leaf : host.hasSubtree path = false) :
    readOptionalRlp host path = .ok a := by
  unfold readOptionalRlp
  cases a with
  | none =>
    rw [if_neg]
    · rfl
    · rw [Durable.storeHas_eq_value]
      rintro ⟨⟨value, present⟩, -⟩
      rw [found] at present
      cases present
  | some a =>
    rw [if_pos (Durable.storeHas_eq_value.2 ⟨⟨_, found⟩, leaf⟩), readRlp_of_find found]
    rfl

/-! # Doubly linked list in the durable storage -/

structure Pointer where
  id : Bytes
  previous : Option Bytes
  next : Option Bytes
deriving DecidableEq, Repr

structure LinkedListPointer where
  front : Pointer
  back : Pointer
deriving DecidableEq, Repr

structure LinkedList where
  path : Path Step
  pointers : Option LinkedListPointer
deriving DecidableEq, Repr

variable {Value Elt : Type}

namespace Pointer

def pointerPath (id : Bytes) (root : Path Step) : Path Step := root ++ [.hex id, .name .pointer]

variable (pointer : Pointer)

def dataPath (root : Path Step) : Path Step :=
  root ++ [.hex pointer.id, .name .data]

def saveData [Rlp Value Elt] (host : Host Value) (root : Path Step) (data : Elt) : Host Value :=
  storeRlp data host (pointer.dataPath root)

def getData (Elt : Type) [Rlp Value Elt] (pointer : Pointer) (host : Host Value) (root : Path Step) :
    Except StorageError Elt :=
  readRlp host (pointer.dataPath root)

def read [Rlp Value Pointer] (host : Host Value) (root : Path Step) (id : Bytes) :
    Except StorageError (Option Pointer) :=
  readOptionalRlp host (pointerPath id root)

def save [Rlp Value Pointer] (host : Host Value) (root : Path Step) : Host Value :=
  storeRlp pointer host (pointerPath pointer.id root)

theorem find_save [Rlp Value Pointer] (host : Host Value)
    (root rest : Path Step) : (pointer.save host root).find (root ++ rest) =
      if rest = [.hex pointer.id, .name .pointer] then some (Rlp.encode pointer)
      else host.find (root ++ rest) :=
  Durable.find_write_below _ _ _ _ _

theorem find_saveData [Rlp Value Elt] (host : Host Value)
    (root rest : Path Step) (elt : Elt) : (pointer.saveData host root elt).find (root ++ rest) =
      if rest = [.hex pointer.id, .name .data] then some (Rlp.encode elt)
      else host.find (root ++ rest) :=
  Durable.find_write_below _ _ _ _ _

def removeWithData (host : Host Value) (root : Path Step) : Except StorageError (Host Value) :=
  liftRuntime (host.storeDelete (root ++ [.hex pointer.id]))

def follow [Rlp Value Pointer] (host : Host Value) (root : Path Step) :
    Option Bytes → Except StorageError (Option Pointer)
  | some id => read host root id
  | none => .ok none

end Pointer

namespace LinkedList

def metadataPath (root : Path Step) : Path Step := root ++ [.name .metadata]

variable (list : LinkedList)

def save [Rlp Value LinkedList] (host : Host Value) : Host Value :=
  storeRlp list host (metadataPath list.path)

theorem find_save [Rlp Value LinkedList] (host : Host Value)
    (rest : Path Step) : (list.save host).find (list.path ++ rest) =
      if rest = [.name .metadata] then some (Rlp.encode list) else host.find (list.path ++ rest) :=
  Durable.find_write_below _ _ _ _ _

def read [Rlp Value LinkedList] (host : Host Value) (path : Path Step) :
    Except StorageError (Option LinkedList) :=
  readOptionalRlp host (metadataPath path)

def new [Rlp Value LinkedList] (path : Path Step) (host : Host Value) :
    Except StorageError LinkedList := do
  let stored ← read host path
  return stored.getD { path, pointers := none }

def isEmpty : Bool := list.pointers.isNone

/-- The pointers of `push` for an id that is not there yet. -/
def append [Rlp Value Pointer] [Rlp Value Elt] (host : Host Value) (id : Bytes)
    (elt : Elt) : LinkedList × Host Value :=
  match list.pointers with
  | some { front, back } =>
    let penultimate := { back with next := some id }
    let back : Pointer := { id, previous := some penultimate.id, next := none }
    let host := penultimate.save host list.path
    let host := back.save host list.path
    ({ list with pointers := some { front, back } }, back.saveData host list.path elt)
  | none =>
    let back : Pointer := { id, previous := none, next := none }
    let host := back.save host list.path
    ({ list with pointers := some { front := back, back } }, back.saveData host list.path elt)

def commit [Rlp Value LinkedList] (updated : LinkedList × Host Value) : LinkedList × Host Value :=
  (updated.1, updated.1.save updated.2)

def push [Rlp Value Pointer] [Rlp Value LinkedList] [Rlp Value Elt]
    (host : Host Value) (id : Bytes) (elt : Elt) :
    Except StorageError (LinkedList × Host Value) := do
  let present ← Pointer.read host list.path id
  if present.isSome then
    return (list, host)
  else
    return commit (list.append host id elt)

def findData [Rlp Value Elt] (host : Host Value) (root : Path Step) :
    Option Pointer → Except StorageError (Option Elt)
  | some pointer => readOptionalRlp host (pointer.dataPath root)
  | none => .ok none

def find [Rlp Value Pointer] [Rlp Value Elt] (host : Host Value) (id : Bytes) :
    Except StorageError (Option Elt) := do
  let pointer ← Pointer.read host list.path id
  findData host list.path pointer

def unlink [Rlp Value Pointer] (ends : LinkedListPointer) (host : Host Value) :
    Option Pointer → Option Pointer → LinkedList × Host Value
  | none, none => ({ list with pointers := none }, host)
  | none, some next =>
    let newFront := { next with previous := none }
    ({ list with pointers := some { front := newFront, back := ends.back } }, newFront.save host list.path)
  | some previous, none =>
    let newBack := { previous with next := none }
    ({ list with pointers := some { front := ends.front, back := newBack } }, newBack.save host list.path)
  | some previous, some next =>
    let newPrevious := { previous with next := some next.id }
    let newNext := { next with previous := some previous.id }
    (list, newNext.save (newPrevious.save host list.path) list.path)

def removePointer [Rlp Value Pointer] [Rlp Value LinkedList] [Rlp Value Elt]
    (ends : LinkedListPointer) (host : Host Value) (pointer : Pointer) :
    Except StorageError (Option Elt × LinkedList × Host Value) := do
  let previous ← Pointer.follow host list.path pointer.previous
  let next ← Pointer.follow host list.path pointer.next
  let data ← pointer.getData Elt host list.path
  let host ← pointer.removeWithData host list.path
  return (some data, commit (list.unlink ends host previous next))

def removeIn [Rlp Value Pointer] [Rlp Value LinkedList] [Rlp Value Elt]
    (ends : LinkedListPointer) (host : Host Value) :
    Option Pointer → Except StorageError (Option Elt × LinkedList × Host Value)
  | some pointer => list.removePointer ends host pointer
  | none => .ok (none, list, host)

def remove [Rlp Value Pointer] [Rlp Value LinkedList] [Rlp Value Elt]
    (host : Host Value) (id : Bytes) : Except StorageError (Option Elt × LinkedList × Host Value) :=
  match list.pointers with
  | none => .ok (none, list, host)
  | some ends => do
    let pointer ← Pointer.read host list.path id
    list.removeIn ends host pointer

def first (Elt : Type) [Rlp Value Elt] (list : LinkedList) (host : Host Value) :
    Except StorageError (Option Elt) :=
  match list.pointers with
  | none => .ok none
  | some ends => do
    let data ← ends.front.getData Elt host list.path
    return some data

def firstWithId (Elt : Type) [Rlp Value Elt] (list : LinkedList) (host : Host Value) :
    Except StorageError (Option (Bytes × Elt)) :=
  match list.pointers with
  | none => .ok none
  | some ends => do
    let data ← ends.front.getData Elt host list.path
    return some (ends.front.id, data)

def popFirst [Rlp Value Pointer] [Rlp Value LinkedList] [Rlp Value Elt]
    (host : Host Value) : Except StorageError (Option Elt × LinkedList × Host Value) :=
  match list.pointers with
  | none => .ok (none, list, host)
  | some ends => list.remove host ends.front.id

end LinkedList

end Octez.Etherlink
