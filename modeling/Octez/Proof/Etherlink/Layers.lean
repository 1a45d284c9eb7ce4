import Octez.Model.Etherlink.Handler
import Octez.Proof.Etherlink.Accounts

namespace Octez.Proof.Etherlink
open Octez.Lib Octez.Lib.Durable Octez.Lib.Stateful Octez.Etherlink EthereumAccountStorage

def OutsideLayers (path : Path Step) : Prop :=
  ∀ transactions, 1 ≤ transactions → Apart (layer transactions) path

def Untouched (base host : Host Entry) : Prop :=
  ∀ path, OutsideLayers path → SameBelow path base host

theorem outsideLayers_accounts : OutsideLayers evmAccountsPath := by
  intro transactions nested
  obtain ⟨index, rfl⟩ := Nat.exists_eq_add_of_le' nested
  simp [layer, Apart, evmAccountsPath]

/-- The execution is inside of a transaction, and what is stored outside of it is the given. -/
structure Inside (base : Host Entry) (world : World) : Prop where
  nested : 1 ≤ world.accounts.transactions
  same : Untouched base world.host

variable {base host : Host Entry} {world world' : World}

theorem Untouched.refl (host : Host Entry) : Untouched host host := fun path _ => .refl path host

theorem Untouched.trans {host' : Host Entry} (first : Untouched base host)
    (second : ∀ path, OutsideLayers path → SameBelow path host host') : Untouched base host' :=
  fun path outside => (first path outside).trans (second path outside)

variable {address : H160}

theorem incrementNonceIn_eq_ok : incrementNonceIn address world = .ok world' ↔
    (world.nonce address).toNat + 1 < 2 ^ 64 ∧ world.setNonce address (world.nonce address + 1) = world' := by
  unfold incrementNonceIn EthereumAccount.incrementNonce
  simp only [bind_eq_ok]
  constructor
  · rintro ⟨host, incremented, done⟩
    split at incremented
    · cases incremented
      cases done
      exact ⟨‹_›, rfl⟩
    · cases incremented
  · rintro ⟨fits, rfl⟩
    exact ⟨_, if_pos fits, rfl⟩

namespace Inside

section
variable (inside : Inside base world)
include inside

theorem top_apart {path : Path Step} (outside : OutsideLayers path) :
    Apart world.accounts.top path :=
  outside _ inside.nested

theorem write (rest : Path Step) (value : Entry) :
    Inside base { world with host := world.host.write (world.accounts.top ++ rest) value } :=
  ⟨inside.nested, inside.same.trans fun _ outside => .write _ _ ((inside.top_apart outside).of_below rest)⟩

theorem dropTree (rest : Path Step) :
    Inside base { world with host := world.host.dropTree (world.accounts.top ++ rest) } :=
  ⟨inside.nested, inside.same.trans fun _ outside => .dropTree _ ((inside.top_apart outside).of_below rest)⟩

theorem discard (rest : Path Step) :
    Inside base { world with host :=
      EthereumAccountStorage.discard world.host (world.accounts.top ++ rest) } := by
  unfold EthereumAccountStorage.discard
  split
  · exact inside.dropTree rest
  · exact inside

theorem setBalance (address : H160) (balance : U256) :
    Inside base (world.setBalance address balance) :=
  ⟨inside.nested, inside.same.trans fun _ outside =>
    World.sameBelow_write world (inside.top_apart outside)⟩

theorem incrementNonceIn
    (incremented : incrementNonceIn address world = .ok world') : Inside base world' := by
  obtain ⟨_, rfl⟩ := incrementNonceIn_eq_ok.1 incremented
  rw [World.setNonce, EthereumAccount.noncePath, World.account, getOrCreate, List.append_assoc]
  exact inside.write _ _

theorem clearStorageIn (address : H160) : Inside base (clearStorageIn address world) := by
  unfold Octez.Etherlink.clearStorageIn
  rw [get_eq]
  split
  · rename_i account present
    split at present
    · cases present
      rw [EthereumAccount.clearStorage, EthereumAccount.storageRootPath, getOrCreate, List.append_assoc]
      exact inside.discard _
    · cases present
  · exact inside

theorem setStorageIn (address : H160) (index value : H256) :
    Inside base (setStorageIn address index value world) := by
  rw [Octez.Etherlink.setStorageIn, EthereumAccount.setStorage, EthereumAccount.storagePath,
    World.account, getOrCreate, List.append_assoc]
  exact inside.write _ _

theorem transferIn {source target : H160} {value : U256} {reason : TransferExitReason}
    (transferred : transferIn source target value world = .ok (reason, world')) :
    Inside base world' := by
  unfold Octez.Etherlink.transferIn at transferred
  split at transferred
  · cases transferred
    exact inside
  · split at transferred
    · cases transferred
      exact inside
    · obtain ⟨⟨paid, middle⟩, removed, credited⟩ := bind_eq_ok.1 transferred
      obtain ⟨before, _, ⟨after, rfl, _, rfl⟩ | ⟨rfl, _, rfl⟩⟩ := World.balanceRemove_eq_ok.1 removed
      · obtain ⟨final, added, done⟩ := bind_eq_ok.1 credited
        obtain ⟨before', after', _, _, rfl⟩ := World.balanceAdd_eq_ok.1 added
        cases done
        exact (inside.setBalance source after).setBalance target after'
      · cases credited
        exact inside

theorem setCode (address : H160) (keccak : Bytes → H256) (code : Bytes) :
    Inside base { world with host := (world.account address).setCode world.host keccak code } := by
  rw [EthereumAccount.setCode, EthereumAccount.codeHashPath, EthereumAccount.codePath, World.account,
    getOrCreate, List.append_assoc, List.append_assoc]
  have hashed := inside.write (accountPath address ++ [.name .codeHash]) (.bytes (keccak code))
  have dropped := hashed.discard (accountPath address ++ [.name .code])
  exact dropped.write (accountPath address ++ [.name .code]) (.bytes code)

end

theorem beginTransaction (same : Untouched base world.host) :
    Inside base ⟨(world.accounts.beginTransaction world.host).2,
      (world.accounts.beginTransaction world.host).1⟩ := by
  have nested : 1 ≤ world.accounts.transactions + 1 := Nat.le_add_left 1 _
  refine ⟨nested, same.trans fun path outside => ?_⟩
  unfold EthereumAccountStorage.beginTransaction
  split
  · exact .copyTree _ (outside _ nested)
  · exact .refl _ _

theorem untouched_discard (inside : Inside base world) :
    Untouched base (EthereumAccountStorage.discard world.host world.accounts.top) := by
  refine inside.same.trans fun path outside => ?_
  unfold EthereumAccountStorage.discard
  split
  · exact .dropTree _ (inside.top_apart outside)
  · exact .refl _ _

variable {accounts : EthereumAccountStorage}

theorem commitTransaction (inside : Inside base world) (deep : 2 ≤ world.accounts.transactions)
    (committed : world.accounts.commitTransaction world.host = .ok (accounts, host)) :
    Inside base ⟨host, accounts⟩ := by
  unfold EthereumAccountStorage.commitTransaction at committed
  split at committed
  · cases committed
  · rename_i transactions count
    cases committed
    have nested : 1 ≤ transactions := by omega
    refine ⟨nested, inside.same.trans fun path outside => ?_⟩
    unfold consume
    split
    · exact .moveTree _ (inside.top_apart outside) (outside _ nested)
    · split
      · exact .dropTree _ (outside _ nested)
      · exact .refl _ _

theorem rollbackTransaction (inside : Inside base world) (deep : 2 ≤ world.accounts.transactions)
    (rolledBack : world.accounts.rollbackTransaction world.host = .ok (accounts, host)) :
    Inside base ⟨host, accounts⟩ := by
  unfold EthereumAccountStorage.rollbackTransaction at rolledBack
  split at rolledBack
  · cases rolledBack
  · rename_i transactions count
    cases rolledBack
    exact ⟨Nat.le_of_succ_le_succ (count ▸ deep), inside.untouched_discard⟩

end Inside

variable (inv : World → Prop)

section
variable {Gasometer α : Type}

abbrev Executing (base : Host Entry) (handler : EvmHandler Gasometer) : Prop := Inside base handler.world

theorem onTop_preserves {missing : α}
    {f : TransactionLayerData Gasometer → α × TransactionLayerData Gasometer} :
    Preserves (fun handler => inv handler.world) (onTop missing f) := by
  refine .get_bind fun handler inside => ?_
  cases handler.transactionData with
  | nil | cons layer layers => exact inside

theorem onWorld_preserves {f}
    (kept : ∀ world world', Inside base world → f world = .ok world' → Inside base world') :
    Preserves (Executing base) (onWorld f : Handle Gasometer Unit) := by
  refine .get_bind fun handler inside => ?_
  cases result : f handler.world with
  | error error => exact inside
  | ok world => exact kept _ _ inside result

variable {address target : H160} {index : H256} {value : U256}

theorem markStorageAsHot_preserves :
    Preserves (Executing base) (markStorageAsHot address index : Handle Gasometer _) := by
  refine .get_bind_of_forall fun handler => ?_
  split
  · exact onTop_preserves _
  · exact .of_pure

theorem markAddressAsHot_preserves :
    Preserves (Executing base) (markAddressAsHot address : Handle Gasometer _) := by
  refine .get_bind_of_forall fun handler => ?_
  split
  · exact onTop_preserves _
  · exact .of_pure

theorem warm_preserves {known : Bool} {mark : Handle Gasometer (Except ExitError Unit)}
    (marked : Preserves (Executing base) mark) : Preserves (Executing base) (warm known mark) := by
  unfold warm
  split
  · exact .of_pure
  · exact .bind_except marked (fun _ => .of_pure) fun _ => .of_pure

theorem addWithdrawals_preserves {withdrawals} :
    Preserves (Executing base) (addWithdrawals withdrawals : Handle Gasometer Unit) := by
  refine .bind (onTop_preserves _) fun added => ?_
  split
  · exact .of_pure
  · exact .of_throw

theorem incrementNonce_preserves :
    Preserves (Executing base) (incrementNonce address : Handle Gasometer Unit) :=
  onWorld_preserves fun _ _ inside incremented => inside.incrementNonceIn incremented

theorem clearStorage_preserves :
    Preserves (Executing base) (clearStorage address : Handle Gasometer Unit) := by
  refine onWorld_preserves fun world world' inside cleared => ?_
  rw [← Except.ok.inj cleared]
  exact inside.clearStorageIn address

theorem setStorage_preserves {value : H256} :
    Preserves (Executing base) (setStorage address index value : Handle Gasometer _) := by
  refine .bind (onWorld_preserves fun world world' inside written => ?_) fun _ => .of_pure
  rw [← Except.ok.inj written]
  exact inside.setStorageIn address index value

theorem executeTransfer_preserves {source : H160} :
    Preserves (Executing base) (executeTransfer source target value : Handle Gasometer _) := by
  refine .get_bind fun handler inside => ?_
  cases result : transferIn source target value handler.world with
  | error error => exact inside
  | ok transferred => exact inside.transferIn result

theorem orExitError_preserves {message : String} {x : Handle Gasometer α}
    (preserved : Preserves (Executing base) x) :
    Preserves (Executing base) (orExitError message x) :=
  .bind_except preserved.attempt (fun _ => .of_pure) fun _ => .of_pure

theorem resetBalance_preserves :
    Preserves (Executing base) (resetBalance address : Handle Gasometer Unit) := by
  refine .get_bind_of_forall fun handler => ?_
  split
  · refine onWorld_preserves fun world world' inside written => ?_
    rw [← Except.ok.inj written]
    exact inside.setBalance address 0
  · exact .of_throw

theorem markDelete_preserves :
    Preserves (Executing base) (markDelete address target : Handle Gasometer _) := by
  refine .bind (onTop_preserves _) fun newDeletion => ?_
  match newDeletion with
  | none | some false => exact .of_pure
  | some true =>
    refine .get_bind_of_forall fun handler => ?_
    split
    · exact orExitError_preserves resetBalance_preserves
    · exact orExitError_preserves executeTransfer_preserves

end

section
variable {evm : Evm} {gas : UInt64} {isStatic refundGas : Bool} {gasLimit : Option UInt64}
  {handler : evm.Handler} {result : CreateOutcome}

theorem recordStipend_preserves {stipend : UInt64} :
    Preserves (fun handler => inv handler.world) (evm.recordStipend stipend) := by
  refine .bind (onTop_preserves _) fun recorded => ?_
  match recorded with
  | none => exact .of_throw
  | some (.ok ()) => exact .of_pure
  | some (.error _) => exact .of_throw

theorem isCold_preserves {index : Option H256} :
    Preserves (Executing base) (evm.isCold address index) := by
  refine .get_bind_of_forall fun handler => ?_
  split
  · exact .of_pure
  · exact .of_pure
  · exact warm_preserves markStorageAsHot_preserves
  · unfold Evm.isAddressCold
    split
    · exact .of_pure
    · split
      · exact .of_pure
      · exact warm_preserves markAddressAsHot_preserves

theorem accountForTicks_preserves {opcode : UInt8} :
    Preserves (Executing base) (evm.accountForTicks opcode gas) := by
  refine .get_bind fun handler inside => ?_
  have counted : Preserves (Executing base) (set { handler with
      estimatedTicksUsed := handler.estimatedTicksUsed + evm.ticks opcode gas } : evm.Run PUnit) :=
    fun _ _ => inside
  refine Preserves.bind counted (fun _ => ?_) handler inside
  split
  · exact .of_throw
  · exact .of_pure

theorem beginInterTransaction_preserves :
    Preserves (Executing base) (evm.beginInterTransaction isStatic gasLimit) := by
  refine .get_bind_of_forall fun handler => ?_
  split
  · exact .of_throw
  · exact .of_throw
  · exact .get_bind fun _ inside => Inside.beginTransaction inside.same

theorem popLayer_preserves : Preserves (fun handler => inv handler.world) evm.popLayer := by
  refine .get_bind fun handler inside => ?_
  cases handler.transactionData with
  | nil | cons layer layers => exact inside

theorem refundIf_preserves :
    Preserves (fun handler => inv handler.world) (evm.refundIf refundGas gas) := by
  unfold Evm.refundIf
  split
  · exact recordStipend_preserves _
  · exact .of_pure

theorem commitLayer_ensures (inside : Executing base handler) (deep : 2 ≤ depth handler) :
    Ensures evm.commitLayer handler (fun _ => Executing base) (fun _ => Executing base) := by
  refine Ensures.get_bind ?_
  cases result : handler.world.accounts.commitTransaction handler.world.host with
  | error error => exact inside
  | ok committed => exact inside.commitTransaction deep result

theorem commitInterTransaction_preserves : Preserves (Executing base) evm.commitInterTransaction := by
  refine .get_bind fun handler inside => ?_
  split
  · exact inside
  · rename_i deep
    refine Ensures.bind (commitLayer_ensures inside (not_lt.1 deep)) fun _ => ?_
    refine Preserves.bind (popLayer_preserves _) fun committed => ?_
    cases committed with
    | none => exact .of_throw
    | some layer =>
      refine .bind (onTop_preserves _) fun merged => ?_
      split
      · exact recordStipend_preserves _
      · exact .of_throw

theorem rollbackInterTransaction_preserves :
    Preserves (Executing base) (evm.rollbackInterTransaction refundGas) := by
  refine .get_bind fun handler inside => ?_
  split
  · exact inside
  · rename_i deep
    -- Until the layer is dropped the number of layers is the one that was checked.
    let deepInside := fun world : World => Inside base world ∧ 2 ≤ world.accounts.transactions
    have popped := popLayer_preserves deepInside handler ⟨inside, not_lt.1 deep⟩
    refine Ensures.bind (popped.weaken (fun _ _ kept => kept) fun _ _ kept => kept.1) ?_
    intro _ s kept
    have refunded : Ensures (evm.refundIf refundGas (evm.gasRemaining handler)) s _ _ :=
      refundIf_preserves deepInside s kept
    refine Ensures.bind (refunded.weaken (fun _ _ kept => kept) fun _ _ kept => kept.1) ?_
    intro _ s kept
    refine Ensures.get_bind ?_
    cases result : s.world.accounts.rollbackTransaction s.world.host with
    | error error => exact kept.1
    | ok rolledBack => exact Inside.rollbackTransaction kept.1 kept.2 result

theorem orFailed_preserves {x : evm.Run Unit} (preserved : Preserves (Executing base) x) :
    Preserves (Executing base) (evm.orFailed result x) :=
  .bind_except preserved.attempt (fun _ => .of_pure) fun _ => .of_pure

theorem dropLayer_preserves :
    Preserves (Executing base) (evm.dropLayer result) :=
  .bind rollbackInterTransaction_preserves.attempt fun _ => .of_pure

theorem endInterTransaction_preserves {result} :
    Preserves (Executing base) (evm.endInterTransaction result) := by
  unfold Evm.endInterTransaction
  split
  · split
    · exact orFailed_preserves commitInterTransaction_preserves
    all_goals exact orFailed_preserves rollbackInterTransaction_preserves
  · exact dropLayer_preserves
  · exact dropLayer_preserves

theorem endCreate_preserves {runtime : evm.Runtime} {reason : ExitReason} :
    Preserves (Executing base) (evm.endCreate runtime address reason) := by
  unfold Evm.endCreate
  split
  · exact .of_pure
  · dsimp only
    split
    · exact .of_pure
    · split
      · exact .of_pure
      · refine .bind_except (onTop_preserves _) (fun _ => .of_pure) fun _ => ?_
        refine .bind (onWorld_preserves fun world world' inside written => ?_) fun _ => .of_pure
        rw [← Except.ok.inj written]
        exact inside.setCode address evm.keccak _
  · exact .of_pure
  · exact .of_pure

end

section
variable {evm : Evm} {execute : evm.Runtime → evm.Run (ExitReason × evm.Runtime)}
  (executed : ∀ runtime, Preserves (Executing base) (execute runtime)) {value : U256}
include executed

theorem executeCreate_preserves {caller address : H160} {initialCode : Bytes} :
    Preserves (Executing base) (evm.executeCreate execute caller value initialCode address) := by
  unfold Evm.executeCreate
  split
  · exact .of_pure
  · refine .bind_except (onTop_preserves _) (fun _ => .of_pure) fun _ => ?_
    refine .get_bind_of_forall fun handler => ?_
    refine .bind ?_ fun _ => endCreate_preserves
    unfold Evm.executeUnlessColliding
    split
    · exact .of_pure
    · exact .of_throw
    · refine .bind executeTransfer_preserves fun transfer => ?_
      cases transfer with
      | outOfFund => exact .of_pure
      | returned =>
        refine .bind incrementNonce_preserves fun _ => ?_
        exact .bind clearStorage_preserves fun _ => executed _

variable {arguments : CreateArguments} {gasLimit : UInt64}

theorem createAt_preserves :
    Preserves (Executing base) (evm.createAt execute arguments address) := by
  refine .bind_except markAddressAsHot_preserves (fun _ => .of_pure) fun _ => ?_
  refine .bind_except incrementNonce_preserves.attempt (fun _ => .of_pure) fun _ => ?_
  refine .get_bind_of_forall fun handler => ?_
  refine .bind_except (onTop_preserves _) (fun _ => .of_pure) fun _ => ?_
  refine .bind_except beginInterTransaction_preserves.attempt (fun _ => .of_pure) fun _ => ?_
  exact .bind (executeCreate_preserves executed).attempt fun _ => endInterTransaction_preserves

theorem create_preserves : Preserves (Executing base) (evm.create execute arguments) := by
  refine .get_bind_of_forall fun handler => ?_
  split
  · exact .of_pure
  · exact .of_pure
  · split
    · exact .of_pure
    · exact createAt_preserves executed

section
variable {call : CallArguments → evm.Run (ExitReason × Bytes)}
  (called : ∀ arguments, Preserves (Executing base) (call arguments)) {transfer : Option Transfer}
  {input : Bytes} {context : Context} {arguments : CallArguments}
include called

theorem interact_preserves {α : Type} (interaction : Interaction evm.Gasometer evm.DynamicCost α) :
    Preserves (Executing base) (evm.interact execute call interaction) := by
  induction interaction with
  | done a => exact .of_pure
  | observe next ih => exact .get_bind_of_forall ih
  | isCold address index next ih => exact .bind isCold_preserves ih
  | setStorage address index value next ih => exact .bind setStorage_preserves ih
  | log entry next ih => exact .bind (onTop_preserves _) ih
  | markDelete address target next ih => exact .bind markDelete_preserves ih
  | recordCost cost next ih | recordDynamicCost cost next ih => exact .bind (onTop_preserves _) ih
  | create arguments next ih => exact .bind (create_preserves executed) ih
  | call arguments next ih => exact .bind (called arguments) ih

theorem executeCode_preserves :
    Preserves (Executing base) (evm.executeCode execute call address transfer input context) := by
  refine .get_bind_of_forall fun handler => ?_
  split
  · refine .bind_except (interact_preserves executed called _) (fun _ => .of_throw) fun outcome => ?_
    refine .bind addWithdrawals_preserves fun _ => ?_
    exact .bind (fun _ inside => inside) fun _ => .of_pure
  · exact .bind (executed _) fun _ => .of_pure

theorem executeCall_preserves :
    Preserves (Executing base) (evm.executeCall execute call address transfer input context) := by
  have transferred : Preserves (Executing base) (evm.transferIfAny context transfer) := by
    cases transfer with
    | none => exact .of_pure
    | some transfer => exact executeTransfer_preserves
  refine .bind transferred fun reason => ?_
  cases reason with
  | outOfFund => exact .of_pure
  | returned => exact executeCode_preserves executed called

theorem callInLayer_preserves :
    Preserves (Executing base) (evm.callInLayer execute call arguments gasLimit) := by
  refine .bind_except beginInterTransaction_preserves.attempt (fun _ => .of_pure) fun _ => ?_
  refine .bind (executeCall_preserves executed called).attempt fun result => ?_
  exact .bind endInterTransaction_preserves fun _ => .of_pure

theorem callWith_preserves :
    Preserves (Executing base) (evm.callWith execute call arguments) := by
  refine .get_bind_of_forall fun handler => ?_
  split
  · refine .get_bind_of_forall fun handler => ?_
    refine .bind_except (onTop_preserves _) (fun _ => .of_pure) fun _ => ?_
    exact callInLayer_preserves executed called
  · exact .bind_except (refundIf_preserves _).attempt (fun _ => .of_pure) fun _ => .of_pure
  · exact .of_pure

end

theorem call_preserves (fuel : Nat) (arguments : CallArguments) :
    Preserves (Executing base) (evm.call execute fuel arguments) := by
  induction fuel generalizing arguments with
  | zero => exact .of_throw
  | succ fuel ih => exact callWith_preserves executed ih

end

theorem execute_preserves (evm : Evm) (fuel : Nat) (runtime : evm.Runtime) :
    Preserves (Executing base) (evm.execute fuel runtime) := by
  induction fuel generalizing runtime with
  | zero => exact .of_throw
  | succ fuel ih =>
    refine .get_bind_of_forall fun handler => ?_
    refine .bind (interact_preserves ih (call_preserves ih fuel) _) fun result => ?_
    have counted : Preserves (Executing base)
        (evm.accountForStep (evm.opcode runtime) (evm.gasUsed handler)) := by
      refine .get_bind_of_forall fun after => ?_
      split
      · exact accountForTicks_preserves
      · exact .of_pure
    refine .bind counted fun _ => ?_
    cases result with
    | next runtime => exact ih runtime
    | exit reason runtime => exact .of_pure
    | trap => exact .of_throw

end Octez.Proof.Etherlink
