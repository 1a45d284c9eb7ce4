import Octez.Lib.Unsigned
import Octez.Model.Etherlink.Transaction

/-!
# Accounts and the layers they are stored in
-/

namespace Octez.Etherlink
open Octez.Lib Octez.Lib.Unsigned

inductive AccountStorageError where
  | durableStorage (error : RuntimeError)
  | balanceOverflow
  | nonceOverflow
deriving DecidableEq, Repr

/-- A value of another size than the one asked for counts as no value. -/
def readU256 (host : Host Entry) (path : Path Step) (default : U256) :
    Except AccountStorageError U256 :=
  match host.find path with
  | some (.wei amount) => .ok amount
  | some _ => .ok default
  | none =>
    if host.hasTree path then .error (.durableStorage .storeNotAValue) else .ok default

/-- Unlike `readU256`, this does not tell a path with entries below it from one without. -/
def readU64 (host : Host Entry) (path : Path Step) (default : UInt64) : UInt64 :=
  match host.find path with
  | some (.u64 value) => value
  | _ => default

def readH256 (host : Host Entry) (path : Path Step) (default : H256) :
    Except AccountStorageError H256 :=
  match host.find path with
  | some (.bytes bytes) => .ok (if bytes.length = 32 then bytes else default)
  | some _ => .ok default
  | none =>
    if host.hasTree path then .error (.durableStorage .storeNotAValue) else .ok default

structure EthereumAccount where
  path : Path Step
deriving DecidableEq, Repr

def evmAccountsPath : Path Step := [.name .evm, .name .worldState, .name .ethAccounts]

def accountPath (address : H160) : Path Step := [.hex address]

namespace EthereumAccount
variable (account : EthereumAccount) (host : Host Entry)

def noncePath : Path Step := account.path ++ [.name .nonce]

def balancePath : Path Step := account.path ++ [.name .balance]

def codeHashPath : Path Step := account.path ++ [.name .codeHash]

def codePath : Path Step := account.path ++ [.name .code]

def storageRootPath : Path Step := account.path ++ [.name .storage]

def storagePath (index : H256) : Path Step := account.path ++ [.name .storage, .hex index]

def nonce : UInt64 := readU64 host account.noncePath 0

def incrementNonce : Except AccountStorageError (Host Entry) :=
  let value := account.nonce host
  if value.toNat + 1 < 2 ^ 64 then .ok (host.write account.noncePath (.u64 (value + 1)))
  else .error .nonceOverflow

def decrementNonce : Host Entry :=
  let value := account.nonce host
  host.write account.noncePath (.u64 (if value = 0 then 0 else value - 1))

def balance : Except AccountStorageError U256 := readU256 host account.balancePath 0

def setBalance (balance : U256) : Host Entry := host.write account.balancePath (.wei balance)

def balanceAdd (amount : U256) : Except AccountStorageError (Host Entry) := do
  let value ← account.balance host
  match checkedAdd value amount with
  | some value => return account.setBalance host value
  | none => .error .balanceOverflow

def balanceRemove (amount : U256) : Except AccountStorageError (Bool × Host Entry) := do
  let value ← account.balance host
  match checkedSub value amount with
  | some value => return (true, account.setBalance host value)
  | none => return (false, host)

def clearStorage : Host Entry :=
  if host.hasTree account.storageRootPath then host.dropTree account.storageRootPath else host

def getStorage (index : H256) : Except AccountStorageError H256 :=
  readH256 host (account.storagePath index) (List.replicate 32 0)

def setStorage (index value : H256) : Host Entry :=
  host.write (account.storagePath index) (.bytes value)

def codeExists : Bool := (host.find account.codePath).isSome

def code : Except AccountStorageError Bytes :=
  match host.find account.codePath with
  | some (.bytes code) => .ok code
  | some _ => .ok []
  | none =>
    if host.hasTree account.codePath then .error (.durableStorage .storeNotAValue) else .ok []

def codeSize : Except AccountStorageError Nat := do
  let code ← account.code host
  return code.length

/-- The hash function is the caller's. -/
def setCode (keccak : Bytes → H256) (code : Bytes) : Host Entry :=
  let host := host.write account.codeHashPath (.bytes (keccak code))
  let host := if host.hasTree account.codePath then host.dropTree account.codePath else host
  host.write account.codePath (.bytes code)

end EthereumAccount

inductive TransactionStorageError where
  | noCurrentTransaction
  | runtime (error : RuntimeError)
deriving DecidableEq, Repr

/-- The first layer holds the accounts as they are outside of a transaction. A transaction that is
begun copies the layer on top, under the prefix with the new number of layers after a dot, so that
the number of transactions says where every layer is. -/
structure EthereumAccountStorage where
  transactions : Nat
deriving DecidableEq, Repr

def initAccountStorage : EthereumAccountStorage := ⟨0⟩

namespace EthereumAccountStorage
variable (accounts : EthereumAccountStorage) (host : Host Entry)

def layer : Nat → Path Step
  | 0 => evmAccountsPath
  | index + 1 => [.name .evm, .name .worldState, .layer .ethAccounts (index + 2)]

def top : Path Step := layer accounts.transactions

def getIn (layer : Path Step) (address : H160) : Option EthereumAccount :=
  let path := layer ++ accountPath address
  if host.hasSubtree path then some ⟨path⟩ else none

def get (address : H160) : Option EthereumAccount := getIn host accounts.top address

def getOrCreate (address : H160) : EthereumAccount := ⟨accounts.top ++ accountPath address⟩

def delete (address : H160) : Except TransactionStorageError (Host Entry) :=
  match host.storeDelete (accounts.top ++ accountPath address) with
  | .ok host => .ok host
  | .error error => .error (.runtime error)

def stackDepth : Nat := accounts.transactions

def beginTransaction : EthereumAccountStorage × Host Entry :=
  let next : EthereumAccountStorage := ⟨accounts.transactions + 1⟩
  (next, if host.hasTree accounts.top then host.copyTree accounts.top next.top else host)

/-- The layer below becomes what the one on top is, also when that is empty. -/
def consume (host : Host Entry) (top below : Path Step) : Host Entry :=
  if host.hasTree top then host.moveTree top below
  else if host.hasTree below then host.dropTree below
  else host

def discard (host : Host Entry) (top : Path Step) : Host Entry :=
  if host.hasTree top then host.dropTree top else host

def commitTransaction : Except TransactionStorageError (EthereumAccountStorage × Host Entry) :=
  match accounts.transactions with
  | 0 => .error .noCurrentTransaction
  | transactions + 1 =>
    let below : EthereumAccountStorage := ⟨transactions⟩
    .ok (below, consume host accounts.top below.top)

def rollbackTransaction : Except TransactionStorageError (EthereumAccountStorage × Host Entry) :=
  match accounts.transactions with
  | 0 => .error .noCurrentTransaction
  | transactions + 1 => .ok (⟨transactions⟩, discard host accounts.top)

end EthereumAccountStorage

/-! # Running a transaction -/

inductive ExitSucceed where
  | stopped
  | returned
  | suicided
deriving DecidableEq, Repr

inductive ExitError where
  | stackUnderflow
  | stackOverflow
  | invalidJump
  | invalidRange
  | designatedInvalid
  | callTooDeep
  | createCollision
  | createContractLimit
  | invalidCode (opcode : UInt8)
  | outOfOffset
  | outOfGas
  | outOfFund
  | pcUnderflow
  | createEmpty
  | maxNonce
  | other (message : String)
deriving DecidableEq, Repr

inductive ExitFatal where
  | notSupported
  | unhandledInterrupt
  | callErrorAsFatal (error : ExitError)
  | other (message : String)
deriving DecidableEq, Repr

inductive ExitReason where
  | succeed (reason : ExitSucceed)
  | error (error : ExitError)
  | revert
  | fatal (error : ExitFatal)
deriving DecidableEq, Repr

inductive ExtendedExitReason where
  | exit (reason : ExitReason)
  | outOfTicks
deriving DecidableEq, Repr

structure Log where
  address : H160
  topics : List H256
  data : Bytes
deriving DecidableEq, Repr

structure Withdrawal where
  target : Bytes
  amount : U256
deriving DecidableEq, Repr

structure ExecutionOutcome where
  gasUsed : UInt64
  isSuccess : Bool
  reason : ExtendedExitReason
  newAddress : Option H160
  logs : List Log
  result : Option Bytes
  withdrawals : List Withdrawal
  estimatedTicksUsed : UInt64
deriving DecidableEq, Repr

inductive EthereumError where
  | wrappedError (message : String)
  | precompileFailed (reason : ExitReason)
  | internalTrapError
  | ethereumStorageError (error : TransactionStorageError)
  | ethereumAccountError (error : AccountStorageError)
  | inconsistentTransactionStack (depth : Nat) (isInitial isBegin : Bool)
  | inconsistentTransactionData (depth size : Nat)
  | inconsistentState (message : String)
  | outOfTicks
  | gasPaymentOverflow
  | feesToGasOverflow
  | gasToFeesUnderflow
  | outOfFuel
deriving DecidableEq, Repr

def liftAccount {α : Type} : Except AccountStorageError α → Except EthereumError α
  | .ok a => .ok a
  | .error error => .error (.ethereumAccountError error)

def U256.ofUInt64 (value : UInt64) : U256 :=
  ⟨value.toNat, value.toNat_lt.trans (by decide)⟩

structure World where
  host : Host Entry
  accounts : EthereumAccountStorage

namespace World
variable (world : World)

variable (address : H160)

def account : EthereumAccount := world.accounts.getOrCreate address

def balance : Except AccountStorageError U256 :=
  (world.account address).balance world.host

def nonce : UInt64 := (world.account address).nonce world.host

def balanceAdd (amount : U256) : Except AccountStorageError World := do
  let host ← (world.account address).balanceAdd world.host amount
  return { world with host }

def balanceRemove (amount : U256) : Except AccountStorageError (Bool × World) := do
  let (paid, host) ← (world.account address).balanceRemove world.host amount
  return (paid, { world with host })

def decrementNonce : World :=
  { world with host := (world.account address).decrementNonce world.host }

end World

def gasPayment (gas : UInt64) (effectiveGasPrice : U256) : Except EthereumError U256 :=
  match checkedMul (U256.ofUInt64 gas) effectiveGasPrice with
  | some amount => .ok amount
  | none => .error .gasPaymentOverflow

def prePayTransactions (world : World) (caller : H160) (gasLimit : Option UInt64)
    (effectiveGasPrice : U256) : Except EthereumError (Bool × World) :=
  match gasLimit with
  | none => return (true, world)
  | some gasLimit => do
    let amount ← gasPayment gasLimit effectiveGasPrice
    liftAccount (world.balanceRemove caller amount)

def repayGas (world : World) (caller : H160) (unusedGas : Option UInt64) (effectiveGasPrice : U256) :
    Except EthereumError World :=
  match unusedGas with
  | none => return world
  | some unusedGas => do
    let amount ← gasPayment unusedGas effectiveGasPrice
    liftAccount (world.balanceAdd caller amount)

def doRefund (outcome : ExecutionOutcome) (payForGas : Bool) : Bool :=
  match outcome.reason with
  | .exit .revert | .outOfTicks => payForGas
  | _ => payForGas && outcome.isSuccess

def isRetried (outcome : ExecutionOutcome) (retriable : Bool) : Bool :=
  outcome.reason = .outOfTicks && retriable

def unusedGas (outcome : ExecutionOutcome) (gasLimit : Option UInt64) (retriable : Bool) :
    Option UInt64 :=
  if isRetried outcome retriable then gasLimit else gasLimit.map (· - outcome.gasUsed)

def settleGas (world : World) (outcome : ExecutionOutcome) (caller : H160) (gasLimit : Option UInt64)
    (effectiveGasPrice : U256) (payForGas retriable : Bool) : Except EthereumError World :=
  let world := if isRetried outcome retriable then world.decrementNonce caller else world
  if doRefund outcome payForGas then
    repayGas world caller (unusedGas outcome gasLimit retriable) effectiveGasPrice
  else return world

def prePayIf (payForGas : Bool) (world : World) (caller : H160) (gasLimit : Option UInt64)
    (effectiveGasPrice : U256) : Except EthereumError (Bool × World) :=
  if payForGas then prePayTransactions world caller gasLimit effectiveGasPrice
  else return (true, world)

/-- The call or the creation that the transaction asks for is a parameter. -/
def runPaid (execute : World → Except EthereumError (ExecutionOutcome × World)) (caller : H160)
    (gasLimit : Option UInt64) (effectiveGasPrice : U256) (payForGas retriable : Bool) :
    Bool × World → Except EthereumError (Option ExecutionOutcome × World)
  | (false, world) => return (none, world)
  | (true, world) => do
    let (outcome, world) ← execute world
    let world ← settleGas world outcome caller gasLimit effectiveGasPrice payForGas retriable
    return (some outcome, world)

def runTransaction (execute : World → Except EthereumError (ExecutionOutcome × World))
    (world : World) (caller : H160) (gasLimit : Option UInt64) (effectiveGasPrice : U256)
    (payForGas retriable : Bool) : Except EthereumError (Option ExecutionOutcome × World) := do
  let paid ← prePayIf payForGas world caller gasLimit effectiveGasPrice
  runPaid execute caller gasLimit effectiveGasPrice payForGas retriable paid

end Octez.Etherlink
