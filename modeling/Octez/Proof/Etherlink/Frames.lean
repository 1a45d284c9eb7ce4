import Octez.Model.Etherlink.Produce
import Octez.Proof.Etherlink.Discarded

namespace Octez.Proof.Etherlink
open Octez.Lib Octez.Lib.Durable Octez.Etherlink

variable {decode : Bytes → Option BlueprintWithDelayedHashes} {reveal : Bytes → Option Bytes}
  {baseFeePerGas : Host Entry → Int → U256} {inbox inbox' : LinkedList} {host host' : Host Entry}
  {mode mode' : ConfigurationMode} {path : Path Step}

def fetchRoots : List (Path Step) :=
  [delayedInboxPath, evmBlueprints, backupKernelRootHash, backupKernelBootPath, tmpRevealPath,
    kernelBootPath, kernelRootHashPath, kernelUpgradePath, rebootPath, baseFeePerGasPath,
    sequencerPath, sequencerPoolPath, sequencerUpgradePath]

def OffFetch (path : Path Step) : Prop := ∀ root ∈ fetchRoots, Apart root path

instance (path : Path Step) : Decidable (OffFetch path) := inferInstanceAs (Decidable (∀ _ ∈ _, _))

theorem evmBlocks_offFetch : OffFetch evmBlocks := by decide

theorem tmpPath_offFetch : OffFetch tmpPath := by decide

def InboxAt (mode : ConfigurationMode) : Prop :=
  ∀ inbox, mode = .sequencer inbox → inbox.path = delayedInboxPath

theorem remove_frame {Elt : Type} [Rlp Entry Elt] {id : Bytes} {elt : Option Elt}
    (removed : inbox.remove host id = .ok (elt, inbox', host')) :
    inbox'.path = inbox.path ∧ SameOutside inbox.path host host' := by
  unfold LinkedList.remove at removed
  split at removed
  · cases removed
    exact ⟨rfl, fun _ _ => rfl⟩
  · rename_i ends _
    obtain ⟨pointer, -, removed⟩ := bind_eq_ok.1 removed
    cases pointer with
    | none =>
      cases removed
      exact ⟨rfl, fun _ _ => rfl⟩
    | some pointer =>
      obtain ⟨previous, -, removed⟩ := bind_eq_ok.1 removed
      obtain ⟨next, -, removed⟩ := bind_eq_ok.1 removed
      obtain ⟨data, -, removed⟩ := bind_eq_ok.1 removed
      obtain ⟨dropped, delete, removed⟩ := bind_eq_ok.1 removed
      cases removed
      obtain ⟨-, rfl⟩ := storeDelete_eq_ok.1 (liftRuntime_eq_ok.1 delete)
      refine ⟨Represents.unlink_path _ _ _ _ _, ?_⟩
      have drop : SameOutside inbox.path host (host.dropTree (inbox.path ++ [.hex pointer.id])) :=
        fun path outside => find_dropTree_of_outside outside
      exact drop.trans (Represents.unlink_sameOutside _ _ _ _ _)

theorem takeDelayed_frame {hashes : List Bytes} {taken} {missing : Option Bytes}
    (took : takeDelayed inbox host hashes = .ok (taken, missing, inbox', host')) :
    inbox'.path = inbox.path ∧ SameOutside inbox.path host host' := by
  induction hashes generalizing inbox host taken with
  | nil =>
    cases took
    exact ⟨rfl, fun _ _ => rfl⟩
  | cons hash hashes ih =>
    obtain ⟨⟨tx, inbox₁, host₁⟩, found, took⟩ := bind_eq_ok.1 took
    obtain ⟨⟨item, _, _⟩, removed, same⟩ := bind_eq_ok.1 found
    cases same
    have step := remove_frame removed
    cases item with
    | none =>
      cases took
      exact step
    | some item =>
      obtain ⟨⟨_, _, _, _⟩, rest, same⟩ := bind_eq_ok.1 took
      cases same
      have later := ih rest
      rw [step.1] at later
      exact ⟨later.1, step.2.trans later.2⟩

variable {validity : BlueprintValidity}

theorem blueprintPath_apart_of_offFetch (off : OffFetch path) (number : Nat) :
    Apart (blueprintPath number) path :=
  (off evmBlueprints (by decide)).of_below _

variable {blueprint : Option Blueprint} {number : Nat}

theorem keepIfValid_frame {root : Path Step}
    (kept : keepIfValid root (validity, inbox, host) = .ok (blueprint, mode', host')) :
    mode' = .sequencer inbox ∧ (host' = host ∨ host' = host.dropTree root) := by
  cases validity with
  | valid _ =>
    cases kept
    exact ⟨rfl, .inl rfl⟩
  | _ =>
    obtain ⟨dropped, delete, result⟩ := bind_eq_ok.1 kept
    cases result
    obtain ⟨-, rfl⟩ := storeDelete_eq_ok.1 (liftRuntime_eq_ok.1 delete)
    exact ⟨rfl, .inr rfl⟩

theorem validateChunks_frame {chunks : Chunks} (off : OffFetch path) (at_ : InboxAt mode)
    (validated : validateChunks decode host (blueprintPath number) mode chunks =
      .ok (blueprint, mode', host')) : InboxAt mode' ∧ SameBelow path host host' := by
  cases chunks with
  | inbox _ =>
    cases mode <;> cases validated <;> exact ⟨at_, .refl _ _⟩
  | sequencer chunks =>
    cases mode with
    | proxy =>
      cases validated
      exact ⟨at_, .refl _ _⟩
    | sequencer inbox =>
      obtain ⟨⟨validity, inbox₁, host₁⟩, parsed, kept⟩ := bind_eq_ok.1 validated
      have frame : inbox₁.path = inbox.path ∧ SameOutside inbox.path host host₁ := by
        unfold parseAndValidateBlueprint at parsed
        split at parsed
        · cases parsed
          exact ⟨rfl, fun _ _ => rfl⟩
        · split at parsed
          · obtain ⟨⟨_, _, _, _⟩, took, same⟩ := bind_eq_ok.1 parsed
            cases same
            exact takeDelayed_frame took
          · cases parsed
            exact ⟨rfl, fun _ _ => rfl⟩
      rw [at_ inbox rfl] at frame
      have same : SameBelow path host host₁ :=
        sameBelow_of_sameOutside path frame.2 (off _ (by decide))
      obtain ⟨rfl, rfl | rfl⟩ := keepIfValid_frame kept
      · exact ⟨fun _ sameMode => (by cases sameMode; exact frame.1), same⟩
      · exact ⟨fun _ sameMode => (by cases sameMode; exact frame.1),
          same.trans (.dropTree _ (blueprintPath_apart_of_offFetch off number))⟩

theorem readNextBlueprint_frame (off : OffFetch path) (at_ : InboxAt mode)
    (read : readNextBlueprint decode mode host = .ok (blueprint, mode', host')) :
    InboxAt mode' ∧ SameBelow path host host' := by
  obtain ⟨number, -, read⟩ := bind_eq_ok.1 read
  split at read
  · obtain ⟨nbChunks, -, read⟩ := bind_eq_ok.1 read
    dsimp only at read
    split at read
    · obtain ⟨chunks, -, validated⟩ := bind_eq_ok.1 read
      exact validateChunks_frame off at_ validated
    · obtain ⟨dropped, drop, result⟩ := bind_eq_ok.1 read
      cases result
      refine ⟨at_, ?_⟩
      unfold dropIfInconsistent at drop
      split at drop
      · obtain ⟨-, rfl⟩ := storeDelete_eq_ok.1 (liftRuntime_eq_ok.1 drop)
        exact .dropTree _ (blueprintPath_apart_of_offFetch off number)
      · cases drop
        exact .refl _ _
  · cases read
    exact ⟨at_, .refl _ _⟩

theorem nextBipFromBlueprints_frame {parentHash : H256} {constants constants' : BlockConstants}
    {tickCounter : UInt64} {kernelUpgrade} {bip} (at_ : InboxAt mode)
    (fetched : nextBipFromBlueprints decode reveal baseFeePerGas mode host number parentHash constants
      tickCounter kernelUpgrade = .ok (bip, constants', mode', host')) :
    InboxAt mode' ∧ (∀ path, OffFetch path → SameBelow path host host') ∧
      constants'.number = constants.number ∧ ∀ some_, bip = some some_ → some_.number = number := by
  obtain ⟨⟨blueprint, mode₁, host₁⟩, read, made⟩ := bind_eq_ok.1 fetched
  have frame := fun path (off : OffFetch path) =>
    readNextBlueprint_frame off at_ (liftStorage_eq_ok.1 read)
  have at_₁ : InboxAt mode₁ := (frame tmpPath tmpPath_offFetch).1
  cases blueprint with
  | none =>
    cases made
    exact ⟨at_₁, fun path off => (frame path off).2, rfl, fun _ absent => nomatch absent⟩
  | some blueprint =>
    dsimp only [bipFromBlueprint] at made
    split at made
    · obtain ⟨upgraded, carried, result⟩ := bind_eq_ok.1 made
      cases result
      have roots : upgradeRoots ⊆ fetchRoots := by decide
      exact ⟨at_₁, fun path off => (frame path off).2.trans
        (upgrade_sameBelow (fun root member => off root (roots member)) carried), rfl,
        fun _ absent => nomatch absent⟩
    · cases made
      refine ⟨at_₁, fun path off => (frame path off).2.trans (.write _ _ (off _ (by decide))),
        rfl, ?_⟩
      intro _ same
      cases same
      rfl

theorem sequencerUpgrade_frame {pending} (off : OffFetch path)
    (upgraded : sequencerUpgrade host pending = .ok host') : SameBelow path host host' := by
  obtain ⟨-, rfl⟩ := storeDelete_eq_ok.1 (liftRuntime_eq_ok.1 upgraded)
  exact ((SameBelow.write host _ (off sequencerPath (by decide))).trans
    (.write _ _ (off sequencerPoolPath (by decide)))).trans
      (.dropTree _ (off sequencerUpgradePath (by decide)))

theorem possibleSequencerUpgrade_frame (off : OffFetch path)
    (upgraded : possibleSequencerUpgrade host = .ok host') : SameBelow path host host' := by
  obtain ⟨pending, -, upgraded⟩ := bind_eq_ok.1 upgraded
  cases pending with
  | none =>
    cases upgraded
    exact .refl _ _
  | some pending =>
    obtain ⟨timestamp, -, upgraded⟩ := bind_eq_ok.1 upgraded
    unfold upgradeSequencerIfDue at upgraded
    split at upgraded
    · obtain ⟨stored, store, cleared⟩ := bind_eq_ok.1 upgraded
      have stores := sequencerUpgrade_frame off store
      unfold clearAllBlueprint at cleared
      split at cleared
      · obtain ⟨-, rfl⟩ := storeDelete_eq_ok.1 (liftRuntime_eq_ok.1 cleared)
        exact stores.trans (.dropTree _ (off _ (by decide)))
      · cases cleared
        exact stores
    · cases upgraded
      exact .refl _ _

end Octez.Proof.Etherlink
