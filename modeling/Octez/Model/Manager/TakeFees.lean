import Octez.Model.Manager.Validate

/-!
# Fees, counters and gas of a manager operation (`take_fees` of `apply.ml`)
-/

namespace Octez.Manager
open Octez.Lib Octez.Token

variable {T : TokenTypes} {Expr Oph : Type}
variable [DecidableEq T.Pkh] [DecidableEq T.ContractHash] [DecidableEq T.BondId] [DecidableEq T.Bpkh]

structure Raw (T : TokenTypes) where
  ctxt : Context T
  remainingBlockGas : Nat

variable (parameters : Parameters T Expr)

def consumeLimitInBlock (raw : Raw T) (gasLimit : Nat) : Result T Oph (Raw T) := do
  checkGasLimit parameters gasLimit
  errorUnless (gasLimit ≤ raw.remainingBlockGas) .blockQuotaExceeded
  return { raw with remainingBlockGas := Gas.sub raw.remainingBlockGas gasLimit }

def incrementCounter (ctxt : Context T) (manager : T.Pkh) :
    Token.Result T (Context T) := do
  let contract := Contract.implicit manager
  let ctxt := { ctxt with globalCounter := ctxt.globalCounter + 1 }
  let contractCounter ← liftStorage (ctxt.counter.get contract)
  let counter ← liftStorage (ctxt.counter.update contract (contractCounter + 1))
  return { ctxt with counter }

def contentsEffects (raw : Raw T) (contents : Contents T Expr) : Result T Oph (Raw T) := do
  let raw ← consumeLimitInBlock parameters raw contents.gasLimit
  let ctxt ← liftToken (incrementCounter raw.ctxt contents.source)
  let (ctxt, _) ← liftToken (transfer () ctxt (.container (.contract (.implicit contents.source)))
    (.container .blockFees) contents.fee)
  return { raw with ctxt }

def takeFees (raw : Raw T) :
    ContentsList T Expr → Result T Oph (Raw T)
  | .single contents => contentsEffects parameters raw contents
  | .cons contents rest => do
    let raw ← contentsEffects parameters raw contents
    takeFees raw rest

end Octez.Manager
