import Octez.Proof.Etherlink.DelayedInbox

namespace Octez.Proof.Etherlink
open Octez.Lib Octez.Etherlink Durable

variable {decode : Bytes → Option BlueprintWithDelayedHashes} {reveal : Bytes → Option Bytes}
  {baseFeePerGas : Host Entry → Int → U256} {inbox : LinkedList} {host host' : Host Entry}
  {items : DelayedItems}

theorem liftStorage_eq_ok {α : Type} {result} {a : α} :
    liftStorage result = .ok a ↔ result = .ok a := by
  cases result with
  | ok b => exact Iff.rfl.trans (by simp [liftStorage])
  | error e => simp [liftStorage]

/-- The blueprint of the sequencer that is next, if all its chunks are there and can be decoded. -/
def pendingBlueprint (decode : Bytes → Option BlueprintWithDelayedHashes) (host : Host Entry) :
    Option BlueprintWithDelayedHashes :=
  match readNextBlueprintNumber host with
  | .error _ => none
  | .ok number =>
    match readRlp host (blueprintNbChunksPath (blueprintPath number)) with
    | .error _ => none
    | .ok nbChunks =>
      if UInt16.ofNat (host.storeCountSubkeys (blueprintPath number)) - 1 = nbChunks then
        match readAllChunks host (blueprintPath number) 0 nbChunks.toNat with
        | .ok (.sequencer chunks) => decode chunks.flatten
        | _ => none
      else none

/-- An upgrade is carried out if there is a kernel to back up, the new one is available and the
upgrade is still in the storage. -/
structure CarriedOut (reveal : Bytes → Option Bytes) (host : Host Entry) (rootHash : Bytes) : Prop where
  running : host.hasTree kernelBootPath = true
  available : (reveal rootHash).isSome = true
  pending : host.hasTree kernelUpgradePath = true

theorem backupRootHash_ok (host : Host Entry) : ∃ host', backupRootHash host = .ok host' ∧
    ∀ path, Apart backupKernelRootHash path → SameBelow path host host' := by
  unfold backupRootHash
  split
  · rename_i present
    have exists_tree : host.hasTree kernelRootHashPath = true := by
      by_contra absent
      rw [storeHas_eq_none.2 (Bool.not_eq_true _ ▸ absent)] at present
      cases present
    exact ⟨_, liftRuntime_eq_ok.2 (storeCopy_eq_ok.2 ⟨exists_tree, rfl⟩), fun path apart => .copyTree _ apart⟩
  · exact ⟨_, rfl, fun path apart => .write _ _ apart⟩

def installed (host : Host Entry) (kernel rootHash : Bytes) : Host Entry :=
  let host := host.copyTree kernelBootPath backupKernelBootPath
  let host := (storeRlp kernel host tmpRevealPath).moveTree tmpRevealPath kernelBootPath
  storeRlp rootHash host kernelRootHashPath

variable {path : Path Step}

theorem installed_sameBelow (host : Host Entry) (kernel rootHash : Bytes)
    (from_backup : Apart backupKernelBootPath path) (from_reveal : Apart tmpRevealPath path)
    (from_boot : Apart kernelBootPath path) (from_hash : Apart kernelRootHashPath path) :
    SameBelow path host (installed host kernel rootHash) :=
  (((SameBelow.copyTree host from_backup).trans (.write _ _ from_reveal)).trans
    (.moveTree _ from_reveal from_boot)).trans (.write _ _ from_hash)

variable {rootHash : Bytes}

theorem upgradeRevealFlow_eq_ok :
    upgradeRevealFlow reveal host rootHash = .ok host' ↔ ∃ kernel, reveal rootHash = some kernel ∧
      (storeRlp kernel host tmpRevealPath).moveTree tmpRevealPath kernelBootPath = host' := by
  unfold upgradeRevealFlow
  cases reveal rootHash with
  | none => simp
  | some kernel =>
    have written : (storeRlp kernel host tmpRevealPath).hasTree tmpRevealPath = true :=
      hasTree_iff.2 ⟨[], Rlp.encode kernel, by rw [List.append_nil]; exact find_write_self _ _ _⟩
    simp [storeMove_eq_ok.2 ⟨written, rfl⟩]

theorem upgrade_eq_ok {backed : Host Entry} (backup : backupRootHash host = .ok backed) :
    upgrade reveal host rootHash = .ok host' ↔ backed.hasTree kernelBootPath = true ∧
      ∃ kernel, reveal rootHash = some kernel ∧
        (installed backed kernel rootHash).hasTree kernelUpgradePath = true ∧
        storeRlp [(0 : UInt8)] ((installed backed kernel rootHash).dropTree kernelUpgradePath)
          rebootPath = host' := by
  unfold upgrade backupCurrentKernel
  simp only [backup, ok_bind, bind_eq_ok, liftStorage_eq_ok, liftRuntime_eq_ok,
    storeCopy_eq_ok, storeDelete_eq_ok, upgradeRevealFlow_eq_ok, pure_eq_ok, Except.ok.injEq, installed]
  constructor
  · rintro ⟨_, ⟨running, rfl⟩, _, ⟨kernel, available, rfl⟩, _, ⟨pending, rfl⟩, rfl⟩
    exact ⟨running, kernel, available, pending, rfl⟩
  · rintro ⟨running, kernel, available, pending, rfl⟩
    exact ⟨_, ⟨running, rfl⟩, _, ⟨kernel, available, rfl⟩, _, ⟨pending, rfl⟩, rfl⟩

theorem upgrade_carriedOut_iff :
    (∃ host', upgrade reveal host rootHash = .ok host') ↔ CarriedOut reveal host rootHash := by
  obtain ⟨backed, backup, frame⟩ := backupRootHash_ok host
  have boot := (frame kernelBootPath (by decide)).hasTree_eq
  have pending : ∀ kernel, (installed backed kernel rootHash).hasTree kernelUpgradePath =
      host.hasTree kernelUpgradePath := fun kernel =>
    ((frame _ (by decide)).trans (installed_sameBelow backed kernel rootHash (by decide) (by decide)
      (by decide) (by decide))).hasTree_eq
  simp only [upgrade_eq_ok backup, boot, pending]
  constructor
  · rintro ⟨_, running, kernel, available, stored, -⟩
    exact ⟨running, by rw [available]; rfl, stored⟩
  · rintro ⟨running, available, stored⟩
    obtain ⟨kernel, available⟩ := Option.isSome_iff_exists.1 available
    exact ⟨_, running, kernel, available, stored, rfl⟩

def upgradeRoots : List (Path Step) :=
  [backupKernelRootHash, backupKernelBootPath, tmpRevealPath, kernelBootPath, kernelRootHashPath,
    kernelUpgradePath, rebootPath]

theorem upgrade_sameBelow {path : Path Step} (off : ∀ root ∈ upgradeRoots, Apart root path)
    (upgraded : upgrade reveal host rootHash = .ok host') : SameBelow path host host' := by
  obtain ⟨backed, backup, frame⟩ := backupRootHash_ok host
  obtain ⟨-, kernel, -, -, rfl⟩ := (upgrade_eq_ok backup).1 upgraded
  have install : SameBelow path backed (installed backed kernel rootHash) :=
    installed_sameBelow backed kernel rootHash (off _ (by decide)) (off _ (by decide))
      (off _ (by decide)) (off _ (by decide))
  exact (((frame path (off _ (by decide))).trans install).trans
    (.dropTree _ (off _ (by decide)))).trans (.write _ _ (off _ (by decide)))

theorem storeHas_isSome : (host.storeHas path).isSome = host.hasTree path := by
  cases present : host.hasTree path with
  | false => rw [storeHas_eq_none.2 present]; rfl
  | true =>
    rw [Option.isSome_iff_ne_none, Ne, storeHas_eq_none, present]
    simp

theorem blueprintPath_apart (number : Nat) :
    Apart (blueprintPath number) delayedInboxPath := by
  simp [Apart, blueprintPath, evmBlueprints, delayedInboxPath]

variable {read : Option Blueprint × ConfigurationMode × Host Entry} {validity : BlueprintValidity}

theorem keepIfValid_of_invalid (invalid : ∀ blueprint, validity ≠ .valid blueprint) :
    keepIfValid path (validity, inbox, host) = .ok read ↔
      host.hasTree path = true ∧ (none, .sequencer inbox, host.dropTree path) = read := by
  have deletes : keepIfValid path (validity, inbox, host) = (do
      let host ← liftRuntime (host.storeDelete path)
      return (none, .sequencer inbox, host)) := by
    cases validity <;> first | rfl | exact absurd rfl (invalid _)
  simp only [deletes, bind_eq_ok, liftRuntime_eq_ok, storeDelete_eq_ok, pure_eq_ok, Except.ok.injEq]
  constructor
  · rintro ⟨_, ⟨present, rfl⟩, rfl⟩
    exact ⟨present, rfl⟩
  · rintro ⟨present, rfl⟩
    exact ⟨_, ⟨present, rfl⟩, rfl⟩

variable {blueprint : BlueprintWithDelayedHashes}

theorem readNextBlueprint_of_pending (pending : pendingBlueprint decode host = some blueprint) :
    ∃ number, host.hasTree (blueprintPath number) = true ∧
      readNextBlueprint decode (.sequencer inbox) host =
        (if validParentHash host blueprint then fetchDelayedTxs inbox host blueprint
          else .ok (.invalidParentHash, inbox, host)) >>= keepIfValid (blueprintPath number) := by
  unfold pendingBlueprint at pending
  split at pending
  · cases pending
  · rename_i number next
    split at pending
    · cases pending
    · rename_i nbChunks counted
      have present : host.hasTree (blueprintPath number) = true := by
        by_contra absent
        have uncounted : host.find (blueprintNbChunksPath (blueprintPath number)) = none :=
          hasTree_eq_false.1 (Bool.not_eq_true _ ▸ absent) _
        rw [readRlp, Durable.storeReadAll, uncounted] at counted
        cases counted
      refine ⟨number, present, ?_⟩
      split at pending
      · rename_i complete
        rw [readNextBlueprint, next, ok_bind, storeHas_isSome, if_pos present,
          readStoredBlueprint, counted, ok_bind]
        rw [if_pos complete, readAllChunksAndValidate]
        split at pending
        · rename_i chunks stored
          rw [stored, ok_bind, validateChunks, parseAndValidateBlueprint, pending]
          rfl
        · cases pending
      · cases pending

theorem readNextBlueprint_of_not_pending (not_pending : pendingBlueprint decode host = none)
    (h : readNextBlueprint decode (.sequencer inbox) host = .ok read) :
    read.2.1 = .sequencer inbox ∧ SameBelow delayedInboxPath host read.2.2 := by
  obtain ⟨number, next, h⟩ := bind_eq_ok.1 h
  split at h
  · obtain ⟨nbChunks, counted, h⟩ := bind_eq_ok.1 h
    dsimp only at h
    split at h
    · rename_i complete
      obtain ⟨chunks, stored, h⟩ := bind_eq_ok.1 h
      cases chunks with
      | inbox blueprint =>
        cases h
        exact ⟨rfl, .refl _ host⟩
      | sequencer chunks =>
        have undecodable : decode chunks.flatten = none := by
          simpa [pendingBlueprint, next, counted, complete, stored] using not_pending
        rw [validateChunks, parseAndValidateBlueprint, undecodable] at h
        have deleted : keepIfValid (blueprintPath number) (.decoderError, inbox, host) =
          .ok read := h
        obtain ⟨-, rfl⟩ := (keepIfValid_of_invalid (by simp)).1 deleted
        exact ⟨rfl, .dropTree host (blueprintPath_apart number)⟩
    · obtain ⟨host', dropped, h⟩ := bind_eq_ok.1 h
      cases h
      refine ⟨rfl, ?_⟩
      unfold dropIfInconsistent at dropped
      split at dropped
      · obtain ⟨-, rfl⟩ := storeDelete_eq_ok.1 (liftRuntime_eq_ok.1 dropped)
        exact .dropTree host (blueprintPath_apart number)
      · cases dropped
        exact .refl _ host
  · cases h
    exact ⟨rfl, .refl _ host⟩

/-- The next block leaves the inbox as it should: if there is none, the inbox is as before, and if there
is one, it starts with the transactions that its blueprint names, which are no longer in the inbox. -/
def KeepsDelayed (items : DelayedItems) (hashes : List Bytes) :
    Except KernelError (Option BlockInProgress × BlockConstants × ConfigurationMode × Host Entry) → Prop
  | .error _ => True
  | .ok (none, _, mode, host) => ∃ inbox, mode = .sequencer inbox ∧ InboxHolds inbox host items
  | .ok (some bip, _, mode, host) => ∃ inbox, mode = .sequencer inbox ∧
      InboxHolds inbox host (without items hashes) ∧
      (∀ hash ∈ hashes, hash ∈ keys items) ∧ named items hashes <+: bip.txQueue

/-- The blueprint does not become a block after the loop over its delayed hashes: one of them is missing
or repeated, the blueprint has a delayed transaction of its own, or the kernel is upgraded instead. -/
def Discarded (reveal : Bytes → Option Bytes) (host : Host Entry) (items : DelayedItems)
    (kernelUpgrade : Option KernelUpgrade) (blueprint : BlueprintWithDelayedHashes) : Prop :=
  ¬(blueprint.delayedHashes.Nodup ∧ ∀ hash ∈ blueprint.delayedHashes, hash ∈ keys items) ∨
    (host.hasTree evmNodeFlag = false ∧ blueprint.blueprint.transactions.any Transaction.isDelayed) ∨
    ∃ upgrade, kernelUpgrade = some upgrade ∧ upgrade.activationTimestamp ≤ blueprint.blueprint.timestamp ∧
      CarriedOut reveal host upgrade.preimageHash

/-- The blueprint takes transactions from the inbox and is discarded. -/
structure TakesInVain (reveal : Bytes → Option Bytes) (host : Host Entry) (items : DelayedItems)
    (kernelUpgrade : Option KernelUpgrade) (blueprint : BlueprintWithDelayedHashes) : Prop where
  parent : validParentHash host blueprint = true
  takes : ∃ hash hashes, blueprint.delayedHashes = hash :: hashes ∧ hash ∈ keys items
  discarded : Discarded reveal host items kernelUpgrade blueprint

section
variable {number : Nat} {parentHash : H256} {constants : BlockConstants} {ticks : UInt64}
  {kernelUpgrade : Option KernelUpgrade}

theorem inboxHolds_congr (same : SameBelow delayedInboxPath host host') :
    InboxHolds inbox host' items ↔ InboxHolds inbox host items :=
  exists_congr fun _ =>
    ⟨fun rep => rep.of_sameBelow fun rest => (same rest).symm, fun rep => rep.of_sameBelow same⟩

variable {hashes : List Bytes} {stored : Nat} {previous : Bytes → Option Bytes}

theorem bipFromBlueprint_keeps_iff {read} :
    KeepsDelayed items hashes (bipFromBlueprint reveal baseFeePerGas number parentHash constants ticks
      kernelUpgrade (read, .sequencer inbox, host)) ↔
    match read with
    | none => InboxHolds inbox host items
    | some blueprint =>
      match upgradeActivates blueprint kernelUpgrade with
      | some upgrade => CarriedOut reveal host upgrade.preimageHash → InboxHolds inbox host items
      | none => InboxHolds inbox host (without items hashes) ∧
          (∀ hash ∈ hashes, hash ∈ keys items) ∧ named items hashes <+: blueprint.transactions := by
  cases read with
  | none => simp [bipFromBlueprint, KeepsDelayed]
  | some blueprint =>
    unfold bipFromBlueprint
    dsimp only
    cases upgradeActivates blueprint kernelUpgrade with
    | some pending =>
      dsimp only
      cases upgraded : upgrade reveal host pending.preimageHash with
      | error e =>
        have impossible : ¬CarriedOut reveal host pending.preimageHash := by
          rw [← upgrade_carriedOut_iff, upgraded]
          simp
        simp [KeepsDelayed, impossible]
      | ok host' =>
        have possible := upgrade_carriedOut_iff.1 ⟨host', upgraded⟩
        rw [forall_prop_of_true possible, ← inboxHolds_congr (upgrade_sameBelow (by decide) upgraded)]
        simp [KeepsDelayed]
    | none =>
      have same : SameBelow delayedInboxPath host (storeRlp
          (baseFeePerGas host blueprint.timestamp).val host baseFeePerGasPath) :=
        .write _ _ (by decide)
      simp [KeepsDelayed, storeNewBaseFeePerGas, BlockInProgress.fromBlueprint, inboxHolds_congr same]

theorem inboxHolds_after_iff (rep : InboxHolds inbox host (takenFrom items hashes).2.2) :
    InboxHolds inbox host items ↔ ¬∃ hash rest, hashes = hash :: rest ∧ hash ∈ keys items := by
  constructor
  · rintro unchanged ⟨hash, rest, rfl, present⟩
    obtain ⟨item, found⟩ := lookup_of_mem present
    have gone := takenFrom_lookup_head rest present
    rw [rep.lookup_unique unchanged, found] at gone
    cases gone
  · intro nothing_taken
    rwa [takenFrom_of_head_absent fun hash rest same present =>
      nothing_taken ⟨hash, rest, same, present⟩] at rep

theorem sameBelow_of_sameOutside {root : Path Step} (path : Path Step)
    (same : SameOutside root host host') (apart : Apart root path) : SameBelow path host host' :=
  fun rest => same _ (apart.not_above rest)

theorem carriedOut_congr (same : SameOutside delayedInboxPath host host') :
    CarriedOut reveal host' rootHash ↔ CarriedOut reveal host rootHash := by
  have boot := (sameBelow_of_sameOutside kernelBootPath same (by decide)).hasTree_eq
  have pending := (sameBelow_of_sameOutside kernelUpgradePath same (by decide)).hasTree_eq
  constructor <;> rintro ⟨running, available, stored⟩ <;>
    exact ⟨boot ▸ running, available, pending ▸ stored⟩

theorem upgradeActivates_eq_some {blueprint : Blueprint} {upgrade : KernelUpgrade} :
    upgradeActivates blueprint kernelUpgrade = some upgrade ↔
      kernelUpgrade = some upgrade ∧ upgrade.activationTimestamp ≤ blueprint.timestamp := by
  unfold upgradeActivates
  simp

theorem keeps_of_invalid (invalid : ∀ blueprint, validity ≠ .valid blueprint)
    (present : host.hasTree (blueprintPath stored) = true) :
    KeepsDelayed items hashes (liftStorage (keepIfValid (blueprintPath stored)
        (validity, inbox, host)) >>= bipFromBlueprint reveal baseFeePerGas number parentHash constants
          ticks kernelUpgrade) ↔ InboxHolds inbox host items := by
  have deleted : keepIfValid (blueprintPath stored) (validity, inbox, host) = .ok _ :=
    (keepIfValid_of_invalid invalid).2 ⟨present, rfl⟩
  have same : SameBelow delayedInboxPath host (host.dropTree (blueprintPath stored)) :=
    .dropTree host (blueprintPath_apart stored)
  rw [deleted, liftStorage, ok_bind, bipFromBlueprint_keeps_iff]
  exact inboxHolds_congr same

theorem keepsDelayed_of_fetched {inbox' : LinkedList} (parent : validParentHash host blueprint = true)
    (rep' : InboxHolds inbox' host' (takenFrom items blueprint.delayedHashes).2.2)
    (outside : SameOutside delayedInboxPath host host')
    (present : host'.hasTree (blueprintPath stored) = true) :
    KeepsDelayed items blueprint.delayedHashes (liftStorage (keepIfValid (blueprintPath stored)
      (checkDelayed (host.hasTree evmNodeFlag) blueprint.blueprint
        (takenFrom items blueprint.delayedHashes).1 (takenFrom items blueprint.delayedHashes).2.1,
        inbox', host')) >>= bipFromBlueprint reveal baseFeePerGas number parentHash constants ticks
          kernelUpgrade) ↔ ¬TakesInVain reveal host items kernelUpgrade blueprint := by
  have vain_iff : ¬TakesInVain reveal host items kernelUpgrade blueprint ↔
      (Discarded reveal host items kernelUpgrade blueprint → InboxHolds inbox' host' items) := by
    rw [inboxHolds_after_iff rep']
    constructor
    · exact fun kept discarded takes => kept ⟨parent, takes, discarded⟩
    · exact fun kept vain => kept vain.discarded vain.takes
  rw [vain_iff]
  cases missing : (takenFrom items blueprint.delayedHashes).2.1 with
  | some hash =>
    have incomplete : Discarded reveal host items kernelUpgrade blueprint := by
      refine .inl ?_
      rw [← takenFrom_missing_eq_none, missing]
      simp
    rw [checkDelayed, keeps_of_invalid (by simp) present, forall_prop_of_true incomplete]
  | none =>
    have complete := takenFrom_missing_eq_none.1 missing
    obtain ⟨taken, left⟩ := takenFrom_of_complete missing
    rw [checkDelayed]
    split
    · rename_i unexpected
      have discarded : Discarded reveal host items kernelUpgrade blueprint :=
        .inr (.inl (by simpa using unexpected))
      rw [keeps_of_invalid (by simp) present, forall_prop_of_true discarded]
    · rename_i expected
      rw [keepIfValid, pure_eq_ok, liftStorage, ok_bind, bipFromBlueprint_keeps_iff]
      dsimp only
      cases activates : upgradeActivates _ kernelUpgrade with
      | some upgrade =>
        obtain ⟨rfl, due⟩ := upgradeActivates_eq_some.1 activates
        have discarded_iff : Discarded reveal host items (some upgrade) blueprint ↔
            CarriedOut reveal host upgrade.preimageHash := by
          constructor
          · rintro (incomplete | unexpected | ⟨_, same, -, carried⟩)
            · exact absurd complete incomplete
            · exact absurd (by simpa using unexpected) expected
            · cases same
              exact carried
          · exact fun carried => .inr (.inr ⟨upgrade, rfl, due, carried⟩)
        dsimp only
        rw [discarded_iff, carriedOut_congr outside]
      | none =>
        have not_discarded : ¬Discarded reveal host items kernelUpgrade blueprint := by
          rintro (incomplete | unexpected | ⟨upgrade, same, due, -⟩)
          · exact incomplete complete
          · exact expected (by simpa using unexpected)
          · exact absurd (activates.symm.trans (upgradeActivates_eq_some.2 ⟨same, due⟩)) (by simp)
        refine iff_of_true ⟨left ▸ rep', complete.2, ?_⟩ fun discarded =>
          absurd discarded not_discarded
        rw [taken]
        exact List.prefix_append _ _

/-- Where the removals go along right links, the inbox is kept exactly if the blueprint does not take
transactions in vain. -/
theorem nextBip_keepsDelayed_iff (decode : Bytes → Option BlueprintWithDelayedHashes)
    (reveal : Bytes → Option Bytes) (baseFeePerGas : Host Entry → Int → U256) (number : Nat)
    (parentHash : H256) (constants : BlockConstants) (ticks : UInt64)
    (kernelUpgrade : Option KernelUpgrade)
    (rep : Represents previous delayedInboxPath inbox host items)
    (links : ∀ blueprint, pendingBlueprint decode host = some blueprint →
      validParentHash host blueprint = true → LinksRight previous items blueprint.delayedHashes) :
    KeepsDelayed items ((pendingBlueprint decode host).elim [] (·.delayedHashes))
      (nextBipFromBlueprints decode reveal baseFeePerGas (.sequencer inbox) host number parentHash
        constants ticks kernelUpgrade) ↔
    ∀ blueprint, pendingBlueprint decode host = some blueprint →
      ¬TakesInVain reveal host items kernelUpgrade blueprint := by
  cases pending : pendingBlueprint decode host with
  | none =>
    refine iff_of_true ?_ (by simp)
    unfold nextBipFromBlueprints
    cases returned : readNextBlueprint decode (.sequencer inbox) host with
    | error e => trivial
    | ok read =>
      obtain ⟨blueprint, mode, host'⟩ := read
      obtain ⟨rfl, same⟩ := readNextBlueprint_of_not_pending pending returned
      have rep' := (inboxHolds_congr same).2 ⟨previous, rep⟩
      rw [liftStorage, ok_bind, bipFromBlueprint_keeps_iff]
      cases blueprint with
      | none => exact rep'
      | some blueprint =>
        dsimp only
        cases upgradeActivates blueprint kernelUpgrade with
        | some upgrade => exact fun _ => rep'
        | none => simpa [named] using rep'
  | some blueprint =>
    obtain ⟨stored, present, reads⟩ := readNextBlueprint_of_pending pending
    simp only [Option.some.injEq, forall_eq']
    rw [nextBipFromBlueprints, reads]
    split
    · rename_i parent
      obtain ⟨inbox', host', taken, rep', outside⟩ := takeDelayed_eq rep (links blueprint pending parent)
      have flag := (sameBelow_of_sameOutside evmNodeFlag outside (by decide)).hasTree_eq
      have kept := (sameBelow_of_sameOutside _ outside (blueprintPath_apart stored).symm).hasTree_eq
      rw [fetchDelayedTxs, taken, ok_bind]
      dsimp only
      rw [storeHas_isSome, flag]
      exact keepsDelayed_of_fetched parent rep' outside (kept ▸ present)
    · rename_i parent
      rw [ok_bind, Option.elim_some, keeps_of_invalid (by simp) present]
      exact iff_of_true ⟨previous, rep⟩ fun vain => parent vain.parent

end

def depositOf (amount : U256) : DelayedInboxItem :=
  { transaction := .deposit { amount, receiver := [2] }, timestamp := 0, level := 0 }

def vacantInbox : LinkedList := { path := delayedInboxPath, pointers := none }

def saved (state : LinkedList × Host Entry) (id : Bytes) (amount : U256) : LinkedList × Host Entry :=
  LinkedList.commit (state.1.append state.2 id (depositOf amount))

def oneDeposit : LinkedList × Host Entry := saved (vacantInbox, empty) [1] 5

def withBlueprint (host : Host Entry) : Host Entry :=
  storeSequencerBlueprint host { chunk := [7], number := 0, nbChunks := 1, chunkIndex := 0 }

def namingBlueprint (delayedHashes : List Bytes) (_ : Bytes) : Option BlueprintWithDelayedHashes :=
  some { parentHash := genesisParentHash, delayedHashes, blueprint := { transactions := [], timestamp := 9 } }

def firstBlockConstants : BlockConstants where
  number := 0
  coinbase := List.replicate 20 0
  timestamp := 0
  gasLimit := 1
  blockFees := { minimumBaseFeePerGas := 1, baseFeePerGas := 1, daFeePerByte := 1 }
  chainId := 1

def threeDeposits : LinkedList × Host Entry := saved (saved oneDeposit [2] 6) [3] 7

/-- Three deposits are saved, a blueprint takes the second one, and another deposit is saved: the link of the
third one is again the one to the second. -/
def depositsAfterTaking : LinkedList × Host Entry :=
  match DelayedInbox.remove threeDeposits.1 threeDeposits.2 [2] with
  | .ok (_, state) => saved state [4] 8
  | .error _ => threeDeposits

def staleLinks : Bytes → Option Bytes
  | [3] => some [2]
  | [4] => some [3]
  | _ => none

theorem oneDeposit_held : Linked delayedInboxPath oneDeposit.1 oneDeposit.2 [([1], depositOf 5)] := by
  have vacant : Linked delayedInboxPath vacantInbox (empty : Host Entry) ([] : DelayedItems) := .of_vacant rfl
  exact (vacant.append (depositOf 5) (by decide)).congr (by decide)

theorem depositsAfterTaking_held : Represents staleLinks delayedInboxPath depositsAfterTaking.1
    depositsAfterTaking.2 [([1], depositOf 5), ([3], depositOf 7), ([4], depositOf 8)] := by
  let two := saved oneDeposit [2] 6
  have second : Represents _ delayedInboxPath two.1 two.2 [([1], depositOf 5), ([2], depositOf 6)] :=
    oneDeposit_held.append (depositOf 6) (by decide)
  have third : Represents _ delayedInboxPath threeDeposits.1 threeDeposits.2
      [([1], depositOf 5), ([2], depositOf 6), ([3], depositOf 7)] :=
    second.append (depositOf 7) (by decide)
  obtain ⟨inbox, host, removed, taken, -⟩ := third.remove_member (List.mem_cons_of_mem [1] List.mem_cons_self) rfl
  cases removed
  exact (taken.append (depositOf 8) (by decide)).congr (by decide)

theorem withBlueprint_sameBelow (host : Host Entry) : SameBelow delayedInboxPath host (withBlueprint host) :=
  (SameBelow.write _ _ (by decide)).trans (.write _ _ (by decide))

/-- The first deposit is taken before the third, whose link then is right. -/
theorem deposits_delivered :
    KeepsDelayed [([1], depositOf 5), ([3], depositOf 7), ([4], depositOf 8)] [[1], [3]]
      (nextBipFromBlueprints (namingBlueprint [[1], [3]]) (fun _ => none) (fun _ _ => 1)
        (.sequencer depositsAfterTaking.1) (withBlueprint depositsAfterTaking.2) 0 genesisParentHash
        firstBlockConstants 0 none) := by
  have pending : pendingBlueprint (namingBlueprint [[1], [3]]) (withBlueprint depositsAfterTaking.2) =
      namingBlueprint [[1], [3]] [7] := by decide +kernel
  have kept := (nextBip_keepsDelayed_iff (namingBlueprint [[1], [3]]) (fun _ => none) (fun _ _ => 1) 0
    genesisParentHash firstBlockConstants 0 none
    (depositsAfterTaking_held.of_sameBelow (withBlueprint_sameBelow _)) ?_).2
  · rw [pending] at kept
    apply kept
    rintro blueprint same ⟨-, -, incomplete | ⟨-, unexpected⟩ | ⟨upgrade, none_pending, -⟩⟩
    · cases same
      exact incomplete (by decide)
    · cases same
      cases unexpected
    · cases none_pending
  · rintro blueprint same -
    cases pending.symm.trans same
    exact fun _ => ⟨rfl, fun _ => ⟨rfl, trivial⟩⟩

/-- A blueprint that names the deposit and then an unknown transaction is deleted, with the deposit. One that
names only the deposit whose link is wrong loses the deposit before it. -/
theorem deposits_lost : (∃ inbox host,
      nextBipFromBlueprints (namingBlueprint [[1], [2]]) (fun _ => none) (fun _ _ => 1)
        (.sequencer oneDeposit.1) (withBlueprint oneDeposit.2) 0 genesisParentHash firstBlockConstants 0 none =
          .ok (none, firstBlockConstants, .sequencer inbox, host) ∧
        inbox.isEmpty = true ∧ host.hasTree (blueprintPath 0) = false) ∧
    ∃ bip constants inbox host,
      nextBipFromBlueprints (namingBlueprint [[3]]) (fun _ => none) (fun _ _ => 1)
        (.sequencer depositsAfterTaking.1) (withBlueprint depositsAfterTaking.2) 0 genesisParentHash
          firstBlockConstants 0 none = .ok (some bip, constants, .sequencer inbox, host) ∧
        bip.txQueue = [{ txHash := [3], content := .deposit { amount := 7, receiver := [2] } }] ∧
        inbox.firstWithId DelayedInboxItem host = .ok (some ([4], depositOf 8)) :=
  ⟨⟨_, _, rfl, rfl, rfl⟩, _, _, _, _, rfl, rfl, rfl⟩

end Octez.Proof.Etherlink
