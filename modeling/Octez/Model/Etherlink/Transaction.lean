import Octez.Model.Etherlink.LinkedList

/-!
# Transactions, blueprints and the values that the kernel stores
-/

namespace Octez.Etherlink

abbrev H160 := Bytes

abbrev H256 := Bytes

abbrev U256 := Fin (2 ^ 256)

instance U256.neZero : NeZero (2 ^ 256) := ⟨by decide⟩

inductive TransactionType where
  | legacy
  | eip2930
  | eip1559
deriving DecidableEq, Repr

structure AccessListItem where
  address : H160
  storageKeys : List H256
deriving DecidableEq, Repr

structure TxSignature where
  v : U256
  r : H256
  s : H256
deriving DecidableEq, Repr

structure EthereumTransactionCommon where
  type : TransactionType
  chainId : Option U256
  nonce : UInt64
  maxPriorityFeePerGas : U256
  maxFeePerGas : U256
  gasLimit : UInt64
  to_ : Option H160
  value : U256
  data : Bytes
  accessList : List AccessListItem
  signature : Option TxSignature
deriving DecidableEq, Repr

structure Deposit where
  amount : U256
  receiver : H160
deriving DecidableEq, Repr

inductive TransactionContent where
  | ethereum (tx : EthereumTransactionCommon)
  | deposit (deposit : Deposit)
  | ethereumDelayed (tx : EthereumTransactionCommon)
deriving DecidableEq, Repr

structure Transaction where
  txHash : Bytes
  content : TransactionContent
deriving DecidableEq, Repr

def Transaction.isDelayed (transaction : Transaction) : Bool :=
  match transaction.content with
  | .deposit _ | .ethereumDelayed _ => true
  | .ethereum _ => false

structure Blueprint where
  transactions : List Transaction
  timestamp : Int
deriving DecidableEq, Repr

structure BlueprintWithDelayedHashes where
  parentHash : H256
  delayedHashes : List Bytes
  blueprint : Blueprint
deriving DecidableEq, Repr

structure UnsignedSequencerBlueprint where
  chunk : Bytes
  number : Nat
  nbChunks : UInt16
  chunkIndex : UInt16
deriving DecidableEq, Repr

inductive StoreBlueprint where
  | sequencerChunk (chunk : Bytes)
  | inboxBlueprint (blueprint : Blueprint)
deriving DecidableEq, Repr

inductive DelayedTransaction where
  | ethereum (tx : EthereumTransactionCommon)
  | deposit (deposit : Deposit)
deriving DecidableEq, Repr

structure DelayedInboxItem where
  transaction : DelayedTransaction
  timestamp : Int
  level : UInt32
deriving DecidableEq, Repr

structure KernelUpgrade where
  preimageHash : Bytes
  activationTimestamp : Int
deriving DecidableEq, Repr

structure SequencerUpgrade where
  sequencer : Bytes
  poolAddress : H160
  activationTimestamp : Int
deriving DecidableEq, Repr

structure BlockInProgress where
  number : Nat
  txQueue : List Transaction
  validTxs : List Bytes
  cumulativeGas : U256
  index : UInt32
  gasPrice : U256
  parentHash : H256
  estimatedTicksInRun : UInt64
  estimatedTicksInBlock : UInt64
  logsBloom : Bytes
  logsOffset : UInt64
  timestamp : Int
deriving DecidableEq, Repr

structure L2Block where
  number : Nat
  hash : H256
  parentHash : H256
  logsBloom : Bytes
  transactionsRoot : Bytes
  stateRoot : Bytes
  receiptsRoot : Bytes
  gasUsed : U256
  timestamp : Int
  transactions : List Bytes
deriving DecidableEq, Repr

inductive Entry where
  | pointer (pointer : Pointer)
  | list (list : LinkedList)
  | delayed (item : DelayedInboxItem)
  | blueprint (blueprint : StoreBlueprint)
  | u16 (value : UInt16)
  | u64 (value : UInt64)
  | wei (amount : U256)
  | u256 (value : Nat)
  | i64 (value : Int)
  | bytes (bytes : Bytes)
  | kernelUpgrade (upgrade : KernelUpgrade)
  | sequencerUpgrade (upgrade : SequencerUpgrade)
  | l2Block (block : L2Block)
  | blockInProgress (bip : BlockInProgress)
deriving DecidableEq, Repr

instance : Rlp Entry Pointer where
  encode := .pointer
  decode | .pointer pointer => some pointer | _ => none
  decode_encode _ := rfl

instance : Rlp Entry LinkedList where
  encode := .list
  decode | .list list => some list | _ => none
  decode_encode _ := rfl

instance : Rlp Entry DelayedInboxItem where
  encode := .delayed
  decode | .delayed item => some item | _ => none
  decode_encode _ := rfl

instance : Rlp Entry StoreBlueprint where
  encode := .blueprint
  decode | .blueprint blueprint => some blueprint | _ => none
  decode_encode _ := rfl

instance : Rlp Entry UInt16 where
  encode := .u16
  decode | .u16 value => some value | _ => none
  decode_encode _ := rfl

instance : Rlp Entry Nat where
  encode := .u256
  decode | .u256 value => some value | _ => none
  decode_encode _ := rfl

instance : Rlp Entry Int where
  encode := .i64
  decode | .i64 value => some value | _ => none
  decode_encode _ := rfl

instance : Rlp Entry Bytes where
  encode := .bytes
  decode | .bytes bytes => some bytes | _ => none
  decode_encode _ := rfl

instance : Rlp Entry KernelUpgrade where
  encode := .kernelUpgrade
  decode | .kernelUpgrade upgrade => some upgrade | _ => none
  decode_encode _ := rfl

instance : Rlp Entry SequencerUpgrade where
  encode := .sequencerUpgrade
  decode | .sequencerUpgrade upgrade => some upgrade | _ => none
  decode_encode _ := rfl

instance : Rlp Entry L2Block where
  encode := .l2Block
  decode | .l2Block block => some block | _ => none
  decode_encode _ := rfl

instance : Rlp Entry BlockInProgress where
  encode := .blockInProgress
  decode | .blockInProgress bip => some bip | _ => none
  decode_encode _ := rfl

end Octez.Etherlink
