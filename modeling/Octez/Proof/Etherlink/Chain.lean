import Octez.Lib.Stateful
import Octez.Proof.Etherlink.Applications
import Octez.Proof.Etherlink.Frames

namespace Octez.Proof.Etherlink
open Octez.Etherlink Octez.Lib Octez.Lib.Durable Octez.Lib.Stateful

variable {producer : Producer} {host host' inner : Host Entry} {journal journal' : Journal}
  {progress progress' : Progress} {bip : BlockInProgress} {record : BlockRecord} {α : Type}
  {path : Path Step}

/-- What happens to the storage between two runs leaves alone the stored blocks and the storage of the
block in progress. -/
structure Environment (host host' : Host Entry) : Prop where
  blocks : SameBelow evmBlocks host host'
  tmp : SameBelow tmpPath host host'

/-- The storages that the runs of the kernel lead to, and what was produced by then. A run that fails
leaves the storage as it is. -/
inductive Chain (producer : Producer) : Host Entry → Journal → Prop where
  | idle {host : Host Entry} : host.find evmBlockInProgress = none →
      host.find (tmpPath ++ evmBlockInProgress) = none →
      Chain producer host { current := none, promoted := [] }
  | environment {host host' : Host Entry} {journal : Journal} : Chain producer host journal →
      Environment host host' → Chain producer host' journal
  | run {host : Host Entry} {journal : Journal} {mode : ConfigurationMode} {fuel : Nat}
      {chainId : U256} {blockFees : BlockFees} {result : ComputationResult} {progress : Progress} :
      Chain producer host journal → InboxAt mode →
      producer.produce fuel host mode chainId blockFees journal = .ok result progress →
      Chain producer progress.host progress.journal
  | failed {host : Host Entry} {journal : Journal} {mode : ConfigurationMode} {fuel : Nat}
      {chainId : U256} {blockFees : BlockFees} {error : ApplyError} {progress : Progress} :
      Chain producer host journal → InboxAt mode →
      producer.produce fuel host mode chainId blockFees journal = .error error progress →
      error ≠ .panic → error ≠ .outOfFuel → Chain producer progress.host progress.journal

theorem readRlp_congr [Rlp Entry α] {path' : Path Step} (same : host'.find path' = host.find path) :
    (readRlp host' path' : Except Etherlink.StorageError α) = readRlp host path := by
  unfold readRlp storeReadAll
  rw [same]

theorem readCurrentBlock_congr (hash : host'.find currentBlockHashPath = host.find currentBlockHashPath)
    (blocks : ∀ hash, host'.find (blockPath hash) = host.find (blockPath hash)) :
    readCurrentBlock host' = readCurrentBlock host := by
  unfold readCurrentBlock readCurrentBlockHash
  rw [readRlp_congr hash]
  cases (readRlp host currentBlockHashPath : Except Etherlink.StorageError H256) with
  | error _ => rfl
  | ok hash => exact readRlp_congr (blocks hash)

def nextNumber (host : Host Entry) : Nat :=
  match readCurrentBlock host with
  | .ok block => block.number + 1
  | .error _ => 0

theorem nextNumber_congr (same : SameBelow evmBlocks host host') : nextNumber host' = nextNumber host := by
  have agree : readCurrentBlock host' = readCurrentBlock host :=
    readCurrentBlock_congr (same [.name .current, .name .hash]) fun hash => same [.hex hash]
  rw [nextNumber, nextNumber, agree]

/-- The block that is being executed: what its transactions see, and what they were applied to. -/
structure OpenBlock (kernel : Kernel) (host : Host Entry) (record : BlockRecord) : Prop where
  context : ∀ a ∈ record.applications, a.constants.number = nextNumber host - 1
  opening : readBurnedFees (safeStorage record.start) = readBurnedFees record.start
  follows : Follows kernel (safeStorage record.start) record.applications (safeStorage host)

structure ClosedBlock (kernel : Kernel) (host : Host Entry) (record : BlockRecord) : Prop where
  context : ∃ block, readCurrentBlock host = .ok block ∧
    ∀ a ∈ record.applications, a.constants.number = block.number - 1
  opening : readBurnedFees (safeStorage record.start) = readBurnedFees record.start
  follows : ∃ inner, Follows kernel (safeStorage record.start) record.applications inner ∧
    readBurnedFees host = readBurnedFees inner

/-- What holds between runs. The world state proper has no block in progress. -/
structure Sound (producer : Producer) (host : Host Entry) (journal : Journal) : Prop where
  noBip : host.find evmBlockInProgress = none
  bip : ∀ bip : BlockInProgress, host.find (tmpPath ++ evmBlockInProgress) = some (Rlp.encode bip) →
    bip.number = nextNumber host ∧
      ∃ record, journal.current = some record ∧ OpenBlock producer.toKernel host record
  closed : ∀ block ∈ journal.promoted, ClosedBlock producer.toKernel block.2 block.1

def tmpBlockInProgress : Path Step := tmpPath ++ evmBlockInProgress

theorem Sound.of_noBip (sound : Sound producer host journal) (same : SameBelow evmBlocks host host')
    (noBip : host'.find tmpBlockInProgress = none)
    (closed : ∀ block ∈ journal'.promoted, ClosedBlock producer.toKernel block.2 block.1) :
    Sound producer host' journal' where
  noBip := (same [.name .inProgress]).trans sound.noBip
  bip _ found := nomatch noBip.symm.trans found
  closed := closed

abbrev StaysSound {α : Type} (producer : Producer) (_ : α) (progress : Progress) : Prop :=
  Sound producer progress.host progress.journal

structure Ready (producer : Producer) (progress : Progress) : Prop where
  sound : Sound producer progress.host progress.journal
  linked : progress.constants.number = progress.blockNumber - 1
  next : progress.blockNumber = nextNumber progress.host
  inbox : InboxAt progress.mode

variable {applications : List Application} {a : α}

theorem follows_kept {kernel : Kernel} {start : Host Entry}
    (follows : Follows kernel start applications host) (kept : FeesKept host host') :
    Follows kernel start applications host' := by
  have extended := follows_append follows (.nil kept)
  rwa [List.append_nil] at extended

theorem OpenBlock.of_environment (open_ : OpenBlock producer.toKernel host record)
    (environment : Environment host host') : OpenBlock producer.toKernel host' record where
  context a member := by rw [nextNumber_congr environment.blocks, open_.context a member]
  opening := open_.opening
  follows := follows_kept open_.follows
    ⟨fun rest => by simpa [safeStorage] using environment.tmp (burnedFeesPath ++ rest),
      fun rest => by simpa [safeStorage] using environment.tmp (sequencerPoolPath ++ rest)⟩

theorem Sound.of_environment (sound : Sound producer host journal)
    (environment : Environment host host') : Sound producer host' journal where
  noBip := by
    have same := environment.blocks [.name .inProgress]
    exact same.trans sound.noBip
  bip bip found := by
    rw [environment.tmp] at found
    obtain ⟨number, record, current, open_⟩ := sound.bip bip found
    exact ⟨number.trans (nextNumber_congr environment.blocks).symm, record, current,
      open_.of_environment environment⟩
  closed := sound.closed

theorem Ready.of_environment (ready : Ready producer progress)
    (environment : Environment progress.host host') : Ready producer { progress with host := host' } where
  sound := ready.sound.of_environment environment
  linked := ready.linked
  next := ready.next.trans (nextNumber_congr environment.blocks).symm
  inbox := ready.inbox

section
variable {f : Host Entry → Except ApplyError (Host Entry)} {post : Unit → Progress → Prop}
  {fail : ApplyError → Progress → Prop}

theorem ensures_liftExcept_bind {β : Type} {result} {f : α → Produce β}
    {post : β → Progress → Prop} (rest : ∀ a, result = .ok a → Ensures (f a) progress post fail)
    (failed : ∀ e, result = .error e → fail e progress) :
    Ensures (liftExcept result >>= f) progress post fail := by
  cases result with
  | ok a => exact rest a rfl
  | error e => exact failed e rfl

theorem ensures_onHost
    (holds : ∀ host', f progress.host = .ok host' → post () { progress with host := host' })
    (failed : ∀ e, f progress.host = .error e → fail e progress) :
    Ensures (onHost f) progress post fail := by
  exact ensures_liftExcept_bind (fun host' ok => Ensures.of_set (holds host' ok)) failed

theorem ensures_onJournal_bind {β : Type} {g} {f} {post : β → Progress → Prop}
    (rest : Ensures (f ()) { progress with journal := g progress.host progress.journal } post fail) :
    Ensures (onJournal g >>= f) progress post fail := rest

theorem ensures_environment (ready : Ready producer progress)
    (environment : ∀ host', f progress.host = .ok host' → Environment progress.host host') :
    Ensures (onHost f) progress (fun _ => Ready producer) (StaysSound producer) :=
  ensures_onHost (fun host' ok => ready.of_environment (environment host' ok)) fun _ _ => ready.sound

end

theorem liftApply_eq_ok {result} :
    liftApply result = .ok a ↔ result = .ok a := by
  cases result <;> simp [liftApply]

theorem find_safeStorage_graft (host inner : Host Entry) (path : Path Step) :
    (safeStorage (host.graft tmpPath inner)).find path = inner.find path := by
  simp [safeStorage]

theorem graft_blocks (host inner : Host Entry) :
    SameBelow evmBlocks host (host.graft tmpPath inner) :=
  .graft host inner (by decide)

/-- What the execution of a block leaves: the storage under `/tmp` and what was applied. -/
structure ExecutedBip (producer : Producer) (progress : Progress) (bip : BlockInProgress)
    (progress' : Progress) (inner : Host Entry) (applications : List Application) : Prop where
  host : progress'.host = progress.host.graft tmpPath inner
  mode : progress'.mode = progress.mode
  journal : progress'.journal = progress.journal.apply applications
  belong : ∀ a ∈ applications, BelongsTo bip.number progress.constants a
  follows : Follows producer.toKernel (safeStorage progress.host) applications inner

section
variable (host) (number : Nat) (hash : H256) (block : L2Block)

theorem find_addNewBlockHash {rest : Path Step}
    (off : ∀ n, ¬[Step.decimal n, .name .hash] <+: rest) :
    (addNewBlockHash host number hash).find (evmBlocks ++ rest) = host.find (evmBlocks ++ rest) := by
  have written : (storeRlp hash host (toBlockHashPath number)).find (evmBlocks ++ rest) =
      host.find (evmBlocks ++ rest) := by
    refine (find_write_below _ _ _ _ _).trans (if_neg ?_)
    rintro rfl
    exact off number (List.prefix_refl _)
  unfold addNewBlockHash
  split
  · exact ((find_dropTree_below _ _ _ _).trans (if_neg (off _))).trans written
  · exact written

theorem addNewBlockHash_sameBelow (apart : Apart evmBlocks path) :
    SameBelow path host (addNewBlockHash host number hash) := by
  have written : SameBelow path host (storeRlp hash host (toBlockHashPath number)) :=
    .write _ _ (apart.of_below _)
  unfold addNewBlockHash
  split
  · exact written.trans (.dropTree _ (apart.of_below _))
  · exact written

def numbered : Host Entry :=
  addNewBlockHash (storeCurrentBlockNumberAndHash host block.number block.hash) block.number block.hash

theorem numbered_sameBelow (apart : Apart evmBlocks path) : SameBelow path host (numbered host block) := by
  have written : SameBelow path host (storeCurrentBlockNumberAndHash host block.number block.hash) :=
    (SameBelow.write host _ (apart.of_below [.name .current, .name .number])).trans
      (.write _ _ (apart.of_below [.name .current, .name .hash]))
  exact written.trans (addNewBlockHash_sameBelow _ _ _ apart)

end

theorem storeCurrentBlock_spec {block : L2Block}
    (stored : producer.storeCurrentBlock host block = .ok host') :
    readCurrentBlock host' = .ok block ∧ FeesKept host host' ∧
      host'.find evmBlockInProgress = host.find evmBlockInProgress := by
  obtain ⟨indexed, index, stored⟩ := bind_eq_ok.1 stored
  cases stored
  have elsewhere := producer.indexBlock_elsewhere _ _ _ index
  have hash : (storeRlp block indexed (blockPath block.hash)).find currentBlockHashPath =
      some (Rlp.encode block.hash) := by
    refine (elsewhere.blocks [.name .current, .name .hash]).trans ?_
    exact (find_addNewBlockHash _ _ _ (by simp)).trans (find_write_self _ _ _)
  refine ⟨?_, ⟨?_, ?_⟩, ?_⟩
  · unfold readCurrentBlock readCurrentBlockHash
    rw [readRlp_of_find hash, ok_bind]
    exact readRlp_of_find (find_write_self _ _ _)
  · exact ((numbered_sameBelow host block (by decide)).trans elsewhere.burned).trans
      (.write _ _ ((show Apart evmBlocks burnedFeesPath by decide).of_below _))
  · exact ((numbered_sameBelow host block (by decide)).trans elsewhere.pool).trans
      (.write _ _ ((show Apart evmBlocks sequencerPoolPath by decide).of_below _))
  · refine (find_write_of_ne (by simp [evmBlockInProgress, blockPath, evmBlocks])).trans ?_
    refine (elsewhere.blocks [.name .inProgress]).trans ((find_addNewBlockHash _ _ _ (by simp)).trans ?_)
    exact (find_write_of_ne (by decide)).trans (find_write_of_ne (by decide))

/-- A block that is complete is the current one of the storage under `/tmp`, and the next one is
numbered after it. -/
structure Completed (progress' : Progress) (bip : BlockInProgress) (inner : Host Entry) : Prop where
  current : ∃ block, readCurrentBlock inner = .ok block ∧ block.number = bip.number
  linked : progress'.constants.number = bip.number
  next : progress'.blockNumber = bip.number + 1

theorem computeBip_finished (computed : producer.computeBip progress bip = .ok (.finished, progress')) :
    ∃ inner applications, ExecutedBip producer progress bip progress' inner applications ∧
      Completed progress' bip inner ∧
      inner.find evmBlockInProgress = (safeStorage progress.host).find evmBlockInProgress := by
  obtain ⟨⟨result, bip', world, applications⟩, compute, ended⟩ := bind_eq_ok.1 computed
  obtain ⟨number, belong, blocks, follows⟩ := computeQueue_spec compute
  cases result with
  | rebootNeeded => cases ended
  | finished =>
    obtain ⟨_, finish, same⟩ := bind_eq_ok.1 ended
    cases same
    obtain ⟨registered, register, finish⟩ := bind_eq_ok.1 finish
    obtain ⟨inner, store, finish⟩ := bind_eq_ok.1 finish
    cases finish
    unfold Producer.registerBlock at register
    split at register
    · cases register
    · have backlog := producer.updateTickBacklog_elsewhere _ _ _ _ register
      obtain ⟨current, kept, kept_bip⟩ := storeCurrentBlock_spec store
      refine ⟨inner, applications, ⟨rfl, rfl, rfl, belong, ?_⟩, ⟨⟨_, current, number⟩, number, ?_⟩, ?_⟩
      · exact follows_kept follows (feesKept_trans (feesKept_of_elsewhere backlog) kept)
      · exact congrArg (· + 1) number
      · exact (kept_bip.trans (backlog.blocks [.name .inProgress])).trans (blocks [.name .inProgress])

theorem computeBip_reboot (computed : producer.computeBip progress bip = .ok (.rebootNeeded, progress')) :
    ∃ inner applications, ∃ bip' : BlockInProgress,
      ExecutedBip producer progress bip progress' inner applications ∧ bip'.number = bip.number ∧
      inner.find evmBlockInProgress = some (Rlp.encode bip') := by
  obtain ⟨⟨result, bip', world, applications⟩, compute, ended⟩ := bind_eq_ok.1 computed
  obtain ⟨number, belong, -, follows⟩ := computeQueue_spec compute
  cases result with
  | finished =>
    obtain ⟨_, _, impossible⟩ := bind_eq_ok.1 ended
    cases impossible
  | rebootNeeded =>
    cases ended
    refine ⟨_, applications, { bip' with estimatedTicksInRun := 0 }, ⟨rfl, rfl, rfl, belong, ?_⟩,
      number, find_write_self _ _ _⟩
    exact follows_kept follows ⟨.write _ _ (by decide), .write _ _ (by decide)⟩

structure Executable (producer : Producer) (progress : Progress) (bip : BlockInProgress) : Prop where
  ready : Ready producer progress
  number : bip.number = progress.blockNumber
  started : ∃ record, progress.journal.current = some record ∧
    OpenBlock producer.toKernel progress.host record

section
variable (executable : Executable producer progress bip)
include executable

section
variable (executed : ExecutedBip producer progress bip progress' inner applications)
include executed

theorem Executable.open_of_executed :
    ∃ record, progress'.journal.current = some record ∧
      OpenBlock producer.toKernel progress'.host record := by
  obtain ⟨record, current, open_⟩ := executable.started
  refine ⟨{ record with applications := record.applications ++ applications }, ?_, ?_, open_.opening, ?_⟩
  · rw [executed.journal, Journal.apply, current]
    rfl
  · rw [executed.host, nextNumber_congr (graft_blocks _ _)]
    intro a member
    rcases List.mem_append.1 member with earlier | later
    · exact open_.context a earlier
    · rw [(executed.belong a later).2, executable.ready.linked, executable.ready.next]
  · rw [executed.host]
    exact follows_kept (follows_append open_.follows executed.follows)
      ⟨fun _ => find_safeStorage_graft _ _ _, fun _ => find_safeStorage_graft _ _ _⟩

theorem Executable.sound_of_executed
    (number : ∀ bip : BlockInProgress, inner.find evmBlockInProgress = some (Rlp.encode bip) →
      bip.number = nextNumber progress.host) : Sound producer progress'.host progress'.journal where
  noBip := by
    rw [executed.host]
    exact (graft_blocks _ _ [.name .inProgress]).trans executable.ready.sound.noBip
  bip bip found := by
    refine ⟨?_, executable.open_of_executed executed⟩
    rw [executed.host, find_graft_below] at found
    rw [executed.host, nextNumber_congr (graft_blocks _ _)]
    exact number bip found
  closed := by
    rw [executed.journal]
    exact executable.ready.sound.closed

end

end

structure Promotable (producer : Producer) (progress : Progress) (number : Nat) : Prop where
  sound : Sound producer progress.host progress.journal
  started : ∃ record, progress.journal.current = some record ∧
    OpenBlock producer.toKernel progress.host record
  next : nextNumber progress.host = number
  current : ∃ block, readCurrentBlock (safeStorage progress.host) = .ok block ∧ block.number = number
  linked : progress.constants.number = number
  after : progress.blockNumber = number + 1
  inbox : InboxAt progress.mode

theorem Executable.promotable_of_executed (executable : Executable producer progress bip)
    (executed : ExecutedBip producer progress bip progress' inner applications)
    (completed : Completed progress' bip inner)
    (kept : inner.find evmBlockInProgress = (safeStorage progress.host).find evmBlockInProgress) :
    Promotable producer progress' bip.number where
  sound := by
    apply executable.sound_of_executed executed
    intro bip found
    rw [kept, safeStorage, find_below] at found
    exact (executable.ready.sound.bip bip found).1
  started := executable.open_of_executed executed
  next := by
    rw [executed.host, nextNumber_congr (graft_blocks _ _), executable.number, executable.ready.next]
  current := by
    obtain ⟨block, current, number⟩ := completed.current
    refine ⟨block, ?_, number⟩
    rw [executed.host, ← current]
    exact readCurrentBlock_congr (find_safeStorage_graft _ _ _) fun _ => find_safeStorage_graft _ _ _
  linked := completed.linked
  after := completed.next
  inbox := by
    rw [executed.mode]
    exact executable.ready.inbox

variable {number processed : Nat} {resumed : Bool}

theorem Promotable.of_deleted (promotable : Promotable producer progress number)
    (deleted : progress.host.dropTree tmpBlockInProgress = host')
    (noBip : host'.find tmpBlockInProgress = none) :
    Promotable producer { progress with host := host' } number := by
  have blocks : SameBelow evmBlocks progress.host host' := deleted ▸ .dropTree _ (by decide)
  have off : ∀ rest : Path Step, ¬[Step.name .inProgress] <+: rest →
      (safeStorage host').find (evmBlocks ++ rest) =
        (safeStorage progress.host).find (evmBlocks ++ rest) := by
    intro rest outside
    simp only [safeStorage, find_below, ← List.append_assoc, ← deleted]
    exact (find_dropTree_below _ (tmpPath ++ evmBlocks) [.name .inProgress] rest).trans (if_neg outside)
  have kept : FeesKept (safeStorage progress.host) (safeStorage host') := by
    constructor <;>
      · intro rest
        simp only [safeStorage, find_below]
        rw [← deleted, find_dropTree, if_neg]
        simp [tmpBlockInProgress, tmpPath, evmBlockInProgress, evmBlocks, burnedFeesPath, sequencerPoolPath]
  obtain ⟨record, current, open_⟩ := promotable.started
  constructor
  · exact promotable.sound.of_noBip blocks noBip promotable.sound.closed
  · refine ⟨record, current, fun a member => ?_, open_.opening, follows_kept open_.follows kept⟩
    rw [nextNumber_congr blocks, open_.context a member]
  · exact (nextNumber_congr blocks).trans promotable.next
  · obtain ⟨block, stored, same⟩ := promotable.current
    refine ⟨block, ?_, same⟩
    rw [← stored]
    exact readCurrentBlock_congr (off [.name .current, .name .hash] (by simp))
      fun hash => off [.hex hash] (by simp)
  · exact promotable.linked
  · exact promotable.after
  · exact promotable.inbox

theorem Promotable.promote (promotable : Promotable producer progress number)
    (noBip : progress.host.find tmpBlockInProgress = none)
    (promoted : progress.host.moveTree tmpWorldStatePath worldStatePath = host') :
    Ready producer { progress with host := host', journal := progress.journal.promote host' } := by
  have moved : ∀ rest, host'.find (worldStatePath ++ rest) =
      (safeStorage progress.host).find (worldStatePath ++ rest) := by
    intro rest
    rw [← promoted, find_moveTree, if_pos (List.prefix_append _ _), List.drop_left, safeStorage,
      find_below, tmpWorldStatePath, List.append_assoc]
  obtain ⟨block, current, same⟩ := promotable.current
  have stored : readCurrentBlock host' = .ok block := by
    rw [← current]
    exact readCurrentBlock_congr (moved [.name .blocks, .name .current, .name .hash])
      fun hash => moved [.name .blocks, .hex hash]
  obtain ⟨record, isCurrent, open_⟩ := promotable.started
  refine ⟨⟨?_, ?_, ?_⟩, ?_, ?_, promotable.inbox⟩
  · refine (moved [.name .blocks, .name .inProgress]).trans ?_
    rw [safeStorage, find_below]
    exact noBip
  · intro bip found
    rw [← promoted, find_moveTree, if_neg (by decide), if_pos (by decide)] at found
    cases found
  · simp only [Journal.promote, isCurrent]
    intro closed member
    rcases List.mem_append.1 member with earlier | last
    · exact promotable.sound.closed closed earlier
    · rw [List.mem_singleton.1 last]
      refine ⟨⟨block, stored, ?_⟩, open_.opening, _, open_.follows, ?_⟩
      · intro a applied
        rw [open_.context a applied, promotable.next, same]
      · exact readBurnedFees_congr (moved [.name .fees, .name .burned])
  · rw [promotable.linked, promotable.after]
    rfl
  · rw [promotable.after, nextNumber, stored, ← same]

theorem dropBlueprint_environment
    (dropped : liftApply (dropBlueprint host number) = .ok host') : Environment host host' := by
  obtain ⟨-, rfl⟩ := storeDelete_eq_ok.1 (liftRuntime_eq_ok.1 (liftApply_eq_ok.1 dropped))
  exact ⟨.dropTree _ (blueprintPath_apart_of_offFetch evmBlocks_offFetch number),
    .dropTree _ (blueprintPath_apart_of_offFetch tmpPath_offFetch number)⟩

theorem announceBlock_environment (announced : producer.announceBlock host = .ok host') :
    Environment host host' := by
  obtain ⟨number, -, announced⟩ := bind_eq_ok.1 announced
  obtain ⟨hash, -, announced⟩ := bind_eq_ok.1 announced
  obtain ⟨blocks, tmp⟩ := producer.storeEvent_elsewhere _ _ _ _ announced
  exact ⟨blocks, tmp⟩

theorem deleteBlockInProgressIf_ensures (promotable : Promotable producer progress number)
    (noBip : resumed = false → progress.host.find tmpBlockInProgress = none) :
    Ensures (deleteBlockInProgressIf resumed) progress
      (fun _ progress' => Promotable producer progress' number ∧
        progress'.host.find tmpBlockInProgress = none) (StaysSound producer) := by
  cases resumed with
  | false => exact Ensures.of_pure ⟨promotable, noBip rfl⟩
  | true =>
    show Ensures (onHost fun host => liftApply (deleteBlockInProgress host)) progress _ _
    apply ensures_onHost _ fun _ _ => promotable.sound
    intro host' deleted
    obtain ⟨-, rfl⟩ := storeDelete_eq_ok.1 (liftRuntime_eq_ok.1 (liftApply_eq_ok.1 deleted))
    have noBip : (progress.host.dropTree tmpBlockInProgress).find tmpBlockInProgress = none := by
      rw [find_dropTree, if_pos (List.prefix_refl _)]
    exact ⟨promotable.of_deleted rfl noBip, noBip⟩

theorem promoteBlock_ensures {number : Nat} (promotable : Promotable producer progress number)
    (noBip : resumed = false → progress.host.find tmpBlockInProgress = none) :
    Ensures (producer.promoteBlock resumed processed) progress (fun _ => Ready producer)
      (StaysSound producer) := by
  apply Ensures.bind (deleteBlockInProgressIf_ensures promotable noBip)
  rintro - progress ⟨promotable, noBip⟩
  have moves : Ensures (onHost fun host => liftApply (SafeStorage.promote host)) progress
      (fun _ progress' => Ready producer
        { progress' with journal := progress'.journal.promote progress'.host }) (StaysSound producer) := by
    apply ensures_onHost _ fun _ _ => promotable.sound
    intro host' promoted
    obtain ⟨-, moved⟩ := storeMove_eq_ok.1 (liftRuntime_eq_ok.1 (liftApply_eq_ok.1 promoted))
    exact promotable.promote noBip moved
  apply Ensures.bind moves
  intro _ progress ready
  apply Ensures.bind (ensures_environment ready fun _ => dropBlueprint_environment)
  intro _ progress ready
  apply Ensures.bind (ensures_environment ready fun _ => announceBlock_environment)
  intro _ progress ready
  apply ensures_environment ready
  intro host' flushed
  cases flushed
  exact ⟨(producer.flushQueue_elsewhere _).1, (producer.flushQueue_elsewhere _).2⟩

theorem revertBlock_ensures (sound : Sound producer progress.host progress.journal) :
    Ensures (Producer.revertBlock processed) progress (StaysSound producer) (StaysSound producer) := by
  have reverts : Ensures (onHost fun host => liftApply (SafeStorage.revert host)) progress
      (fun _ progress' => Sound producer progress'.host progress'.journal.revert) (StaysSound producer) := by
    apply ensures_onHost _ fun _ _ => sound
    intro host' reverted
    obtain ⟨-, rfl⟩ := storeDelete_eq_ok.1 (liftRuntime_eq_ok.1 (liftApply_eq_ok.1 reverted))
    refine Sound.of_noBip sound (.dropTree _ (by decide)) ?_ sound.closed
    exact (find_dropTree _ _ _).trans (if_pos (List.prefix_append _ _))
  apply Ensures.bind reverts
  intro _ progress sound
  apply ensures_onJournal_bind
  apply ensures_onHost _ fun _ _ => sound
  intro host' dropped
  exact sound.of_environment (dropBlueprint_environment dropped)

def AfterBlock (producer : Producer) (result : ComputationResult) (progress : Progress) : Prop :=
  match result with
  | .finished => Ready producer progress
  | .rebootNeeded => Sound producer progress.host progress.journal

theorem executeBlock_ensures (processed : Nat) (resumed : Bool)
    (executable : Executable producer progress bip)
    (noBip : resumed = false → progress.host.find tmpBlockInProgress = none) :
    Ensures (producer.executeBlock resumed processed bip) progress (AfterBlock producer)
      (StaysSound producer) := by
  apply Ensures.get_bind
  cases computed : producer.computeBip progress bip with
  | error error =>
    have reverts : Ensures (do
        Producer.revertBlock processed
        return ComputationResult.rebootNeeded) progress (AfterBlock producer)
        (StaysSound producer) := by
      apply Ensures.bind (revertBlock_ensures executable.ready.sound)
      intro _ progress' sound
      exact Ensures.of_pure sound
    cases error with
    | panic => exact Ensures.of_throw executable.ready.sound
    | _ => exact reverts
  | ok ended =>
    obtain ⟨result, progress'⟩ := ended
    cases result with
    | rebootNeeded =>
      obtain ⟨inner, applications, bip', executed, number, stored⟩ := computeBip_reboot computed
      apply executable.sound_of_executed executed
      intro other found
      rw [stored, Option.some.injEq] at found
      cases found
      rw [number, executable.number, executable.ready.next]
    | finished =>
      obtain ⟨inner, applications, executed, completed, kept⟩ := computeBip_finished computed
      have promotable := executable.promotable_of_executed executed completed kept
      have noBip' : resumed = false → progress'.host.find tmpBlockInProgress = none := by
        intro fresh
        rw [executed.host, tmpBlockInProgress, find_graft_below, kept, safeStorage, find_below]
        exact noBip fresh
      apply Ensures.bind (promoteBlock_ensures promotable noBip')
      intro _ progress ready
      exact Ensures.of_pure ready

theorem liftKernel_eq_ok {result} : liftKernel result = .ok a ↔ result = .ok a := by
  cases result with
  | ok _ => simp [liftKernel]
  | error error => cases error <;> simp [liftKernel]

variable {kernelUpgrade : Option KernelUpgrade}

theorem nextBip_ensures (ready : Ready producer progress) :
    Ensures (producer.nextBip kernelUpgrade) progress
      (fun bip progress' => Ready producer progress' ∧
        ∀ some_, bip = some some_ → some_.number = progress'.blockNumber)
      (StaysSound producer) := by
  apply ensures_liftExcept_bind _ fun _ _ => ready.sound
  rintro ⟨bip, constants, mode, host⟩ fetched
  obtain ⟨inbox, frame, number, numbered⟩ :=
    nextBipFromBlueprints_frame ready.inbox (liftKernel_eq_ok.1 fetched)
  have environment : Environment progress.host host :=
    ⟨frame _ evmBlocks_offFetch, frame _ tmpPath_offFetch⟩
  have next := ready.of_environment environment
  exact ⟨⟨next.sound, number.trans ready.linked, next.next, inbox⟩, numbered⟩

theorem Ready.start (ready : Ready producer progress) (number : bip.number = progress.blockNumber)
    (copied : progress.host.copyTree worldStatePath tmpWorldStatePath = host') :
    Executable producer { progress with host := host', journal := progress.journal.start number' host' }
        bip ∧ host'.find tmpBlockInProgress = none := by
  have blocks : SameBelow evmBlocks progress.host host' := copied ▸ .copyTree _ (by decide)
  have copy : ∀ rest, (safeStorage host').find (worldStatePath ++ rest) =
      progress.host.find (worldStatePath ++ rest) := by
    intro rest
    have under : tmpPath ++ (worldStatePath ++ rest) = tmpWorldStatePath ++ rest :=
      (List.append_assoc _ _ _).symm
    rw [safeStorage, find_below, under, ← copied, find_copyTree, if_pos (List.prefix_append _ _),
      List.drop_left]
  have noBip : host'.find tmpBlockInProgress = none := by
    have same := copy [.name .blocks, .name .inProgress]
    rw [safeStorage, find_below] at same
    exact same.trans ready.sound.noBip
  have burned : readBurnedFees (safeStorage host') = readBurnedFees host' := by
    have bare : SameBelow burnedFeesPath progress.host host' := copied ▸ .copyTree _ (by decide)
    rw [readBurnedFees_sameBelow bare]
    exact readBurnedFees_congr (copy [.name .fees, .name .burned])
  refine ⟨⟨⟨ready.sound.of_noBip blocks noBip ready.sound.closed, ready.linked, ?_, ready.inbox⟩, number,
    ?_⟩, noBip⟩
  · exact ready.next.trans (nextNumber_congr blocks).symm
  · exact ⟨_, rfl, fun _ member => (nomatch member), burned, .nil (feesKept_refl _)⟩

theorem executeNewBlock_ensures (ready : Ready producer progress)
    (number : bip.number = progress.blockNumber) :
    Ensures (producer.executeNewBlock bip) progress (AfterBlock producer) (StaysSound producer) := by
  have starts : Ensures (onHost fun host => liftApply (SafeStorage.start host)) progress
      (fun _ progress' => Executable producer { progress' with
          journal := progress'.journal.start progress'.blockNumber progress'.host } bip ∧
        progress'.host.find tmpBlockInProgress = none) (StaysSound producer) := by
    apply ensures_onHost _ fun _ _ => ready.sound
    intro host' started
    obtain ⟨-, copied⟩ := storeCopy_eq_ok.1 (liftRuntime_eq_ok.1 (liftApply_eq_ok.1 started))
    exact ready.start number copied
  apply Ensures.bind starts
  rintro - progress ⟨executable, noBip⟩
  apply Ensures.get_bind
  exact executeBlock_ensures _ false executable fun _ => noBip

theorem produceLoop_ensures (fuel : Nat) (ready : Ready producer progress) :
    Ensures (producer.produceLoop kernelUpgrade fuel) progress (StaysSound producer)
      (StaysSound producer) := by
  induction fuel generalizing progress with
  | zero => exact Ensures.of_throw ready.sound
  | succ fuel ih =>
    apply Ensures.bind (nextBip_ensures ready)
    rintro bip progress ⟨ready, number⟩
    cases bip with
    | none => exact Ensures.of_pure ready.sound
    | some bip =>
      apply Ensures.bind (executeNewBlock_ensures ready (number bip rfl))
      intro result progress after
      cases result with
      | rebootNeeded => exact Ensures.of_pure after
      | finished => exact ih after

theorem produceBlocks_ensures (fuel : Nat) (ready : Ready producer progress) :
    Ensures (producer.produceBlocks fuel kernelUpgrade) progress (StaysSound producer)
      (StaysSound producer) := by
  have environment : ∀ host', liftApply (possibleSequencerUpgrade progress.host) = .ok host' →
      Environment progress.host host' := fun host' upgraded =>
    ⟨possibleSequencerUpgrade_frame evmBlocks_offFetch (liftApply_eq_ok.1 upgraded),
      possibleSequencerUpgrade_frame tmpPath_offFetch (liftApply_eq_ok.1 upgraded)⟩
  apply Ensures.bind (ensures_environment ready environment)
  intro _ progress ready
  exact produceLoop_ensures fuel ready

theorem find_of_readBlockInProgress (read : readBlockInProgress host = .ok (some bip)) :
    host.find evmBlockInProgress = some (Rlp.encode bip) := by
  unfold readBlockInProgress readOptionalRlp at read
  split at read
  · obtain ⟨stored, decoded, same⟩ := bind_eq_ok.1 read
    cases same
    obtain ⟨value, found, decode⟩ := bind_eq_ok.1 decoded
    rw [storeReadAll_eq_ok.1 (liftRuntime_eq_ok.1 found)]
    cases value <;> first | (cases decode; done) | (cases decode; rfl)
  · cases read

theorem initial_ready (sound : Sound producer host journal) {mode} {chainId} {blockFees} {next}
    (inbox : InboxAt mode) (constants : nextConstants host chainId blockFees = some next) :
    Ready producer (.initial host mode next journal) := by
  have number : next.2.1 = nextNumber host ∧ next.1.number = next.2.1 - 1 := by
    unfold nextConstants at constants
    unfold nextNumber
    cases current : readCurrentBlock host with
    | ok block =>
      rw [current] at constants
      cases constants
      exact ⟨rfl, rfl⟩
    | error _ =>
      rw [current] at constants
      obtain ⟨timestamp, -, same⟩ := Option.bind_eq_some_iff.1 constants
      cases same
      exact ⟨rfl, rfl⟩
  exact ⟨sound, number.2, number.1, inbox⟩

theorem produceIn_ensures (fuel : Nat) (ready : Ready producer progress) :
    Ensures (producer.produceIn fuel) progress (StaysSound producer) (StaysSound producer) := by
  apply ensures_liftExcept_bind _ fun _ _ => ready.sound
  intro kernelUpgrade _
  apply ensures_liftExcept_bind _ fun _ _ => ready.sound
  intro bip read
  cases bip with
  | none => exact produceBlocks_ensures fuel ready
  | some bip =>
    have stored := find_of_readBlockInProgress (liftApply_eq_ok.1 read)
    rw [safeStorage, find_below] at stored
    obtain ⟨number, started⟩ := ready.sound.bip bip stored
    have executable : Executable producer progress bip :=
      ⟨ready, number.trans ready.next.symm, started⟩
    apply Ensures.bind (executeBlock_ensures bip.number true executable Bool.noConfusion)
    intro result progress after
    cases result with
    | rebootNeeded => exact Ensures.of_pure after
    | finished => exact produceBlocks_ensures fuel after

theorem Chain.sound (chain : Chain producer host journal) : Sound producer host journal := by
  induction chain with
  | idle bare safe =>
    refine ⟨bare, ?_, fun _ member => nomatch member⟩
    intro bip found
    exact nomatch safe.symm.trans found
  | environment _ environment sound => exact sound.of_environment environment
  | run _ inbox produced sound =>
    unfold Producer.produce at produced
    split at produced
    · exact (produceIn_ensures _ (initial_ready sound inbox ‹_›)).of_ok produced
    · cases produced
  | failed _ inbox produced panics _ sound =>
    unfold Producer.produce at produced
    split at produced
    · exact (produceIn_ensures _ (initial_ready sound inbox ‹_›)).of_error produced
    · cases produced
      exact absurd rfl panics

end Octez.Proof.Etherlink
