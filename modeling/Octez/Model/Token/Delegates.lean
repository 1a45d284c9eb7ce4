import Octez.Model.Token.Contracts

/-! # Registration and change of delegates (`src/proto_alpha/lib_protocol/delegate_storage.ml`) -/

namespace Octez.Token
open Octez.Lib

variable {T : TokenTypes}
variable [DecidableEq T.Pkh] [DecidableEq T.ContractHash]
variable (ctxt : Context T)

def isManagerKeyRevealed (manager : T.Pkh) : Bool :=
  match ctxt.manager.find (.implicit manager) with
  | some (.publicKey _) => true
  | _ => false

def getManagerKey (pkh : T.Pkh) (error : TokenError T.Pkh T.PublicKey T.ContractHash T.BondId) :
    Result T T.PublicKey :=
  match ctxt.manager.find (.implicit pkh) with
  | some (.publicKey key) => .ok key
  | _ => tzfail error

def registered (delegate : T.Pkh) : Bool :=
  ctxt.delegates.mem delegate

def initConsensusKey (delegate : T.Pkh) (key : T.PublicKey) : Result T (Context T) := do
  errorUnless (!ctxt.constants.isBls key) (.invalidConsensusKeyUpdateTz4 key)
  let pkh := ctxt.constants.hash key
  errorUnless (!ctxt.consensusKeys.mem pkh) .invalidConsensusKeyUpdateActive
  let ctxt := { ctxt with consensusKeys := ctxt.consensusKeys.add pkh () }
  let consensusKey ← liftStorage (ctxt.consensusKey.init delegate key)
  return { ctxt with consensusKey }

namespace DelegateStorage

variable (contract : T.Contract)

def init (delegate : T.Pkh) : Result T (Context T) := do
  errorUnless (isManagerKeyRevealed ctxt delegate) (.unregisteredDelegate delegate)
  errorUnless (registered ctxt delegate) (.unregisteredDelegate delegate)
  let ctxt ← ContractDelegate.init ctxt contract delegate
  let balanceAndFrozenBonds ← getBalanceAndFrozenBonds ctxt contract
  addDelegatedStake ctxt delegate balanceAndFrozenBonds

/-- `set_self_delegate` for a delegate that is registered already. -/
def refreshSelfDelegate (delegate : T.Pkh) : Result T (Context T) := do
  errorUnless (isInactive ctxt delegate) .activeDelegate
  setActive ctxt delegate

/-- `set_self_delegate` for a delegate that is not registered. -/
def register (delegate : T.Pkh) : Result T (Context T) := do
  let contract := Contract.implicit delegate
  let key ← getManagerKey ctxt delegate (.unregisteredDelegate delegate)
  errorUnless (allocated ctxt contract) (.emptyDelegateAccount delegate)
  let balanceAndFrozenBonds ← getBalanceAndFrozenBonds ctxt contract
  let ctxt ← removeContractDelegatedStake ctxt contract balanceAndFrozenBonds
  let ctxt ← ContractDelegate.set ctxt contract delegate
  let ctxt ← initializeDelegate ctxt delegate balanceAndFrozenBonds
  let ctxt := { ctxt with delegates := ctxt.delegates.add delegate () }
  let ctxt ← initConsensusKey ctxt delegate key
  setActive ctxt delegate

def setSelfDelegate (delegate : T.Pkh) : Result T (Context T) :=
  if registered ctxt delegate then refreshSelfDelegate ctxt delegate else register ctxt delegate

def checkNotDelegate : Result T Unit :=
  match contract with
  | .originated _ => .ok ()
  | .implicit pkh => errorUnless (!registered ctxt pkh) (.noDeletion pkh)

def checkNewDelegate (delegate : Option T.Pkh) : Result T Unit :=
  match delegate, ctxt.delegate.find contract with
  | some delegate, some currentDelegate => errorUnless (delegate ≠ currentDelegate) .currentDelegate
  | _, _ => .ok ()

/-- The end of `set_delegate`, once the former delegate has lost the stake of the contract. -/
def link (balanceAndFrozenBonds : Tez) (delegate : Option T.Pkh) : Result T (Context T) :=
  match delegate with
  | none => .ok (ContractDelegate.delete ctxt contract)
  | some delegate => do
    errorUnless (registered ctxt delegate) (.unregisteredDelegate delegate)
    let ctxt ← ContractDelegate.set ctxt contract delegate
    addDelegatedStake ctxt delegate balanceAndFrozenBonds

def setDelegate (delegate : Option T.Pkh) : Result T (Context T) := do
  checkNotDelegate ctxt contract
  checkNewDelegate ctxt contract delegate
  let balanceAndFrozenBonds ← getBalanceAndFrozenBonds ctxt contract
  let ctxt ← removeContractDelegatedStake ctxt contract balanceAndFrozenBonds
  link ctxt contract balanceAndFrozenBonds delegate

def set (delegate : Option T.Pkh) : Result T (Context T) :=
  match delegate, contract with
  | some delegate, .implicit source =>
    if source = delegate then setSelfDelegate ctxt delegate
    else setDelegate ctxt contract (some delegate)
  | _, _ => setDelegate ctxt contract delegate

end DelegateStorage

/-! ## Activity at the end of a cycle (`src/proto_alpha/lib_protocol/delegate_cycles.ml`) -/

def deactivateUntil (lastCycle : Nat) (acc : Context T × List T.Pkh) (delegate : T.Pkh) : Result T
      (Context T × List T.Pkh) := do
  let (ctxt, deactivated) := acc
  let cycle ← liftStorage (ctxt.delegateLastCycleBeforeDeactivation.get delegate)
  return if cycle ≤ lastCycle then (setInactive ctxt delegate, delegate :: deactivated)
    else (ctxt, deactivated)

/-- With the order in which the storage keeps the hashes. -/
def updateActivity (le : T.Pkh → T.Pkh → Bool) (lastCycle : Nat) : Result T
      (Context T × List T.Pkh) :=
  if lastCycle < ctxt.constants.consensusRightsDelay then .ok (ctxt, [])
  else (ctxt.activeDelegatesWithMinimalStake.keys.mergeSort le).foldlM (deactivateUntil lastCycle) (ctxt, [])

end Octez.Token
