import Octez.Model.Etherlink.Upgrade
import Octez.Proof.Etherlink.Discarded

namespace Octez.Proof.Etherlink
open Octez.Lib Octez.Etherlink Durable DelayedInbox

variable {inbox : LinkedList} {host host' : Host Entry} {items : DelayedItems}
  {previous : Bytes → Option Bytes}

def delayedTransactions (items : DelayedItems) : List Transaction :=
  items.map fun item => transactionFromDelayed item.1 item.2.transaction

def FrontRight (previous : Bytes → Option Bytes) (items : DelayedItems) : Prop :=
  ∀ id, (keys items).head? = some id → LeadsBack previous (keys items) id

/-- The inbox holds the transactions and they can be popped: once one is, the link of the next is right. -/
def Poppable (inbox : LinkedList) (host : Host Entry) (items : DelayedItems) : Prop :=
  ∃ previous, Represents previous delayedInboxPath inbox host items ∧ FrontRight previous items

theorem popUpTo_eq (poppable : Poppable inbox host items) (limit : Nat) : ∃ inbox' host',
    popUpTo inbox host limit =
        .ok (delayedTransactions (items.take limit), inbox', host') ∧
      Poppable inbox' host' (items.drop limit) ∧ SameOutside delayedInboxPath host host' := by
  induction limit generalizing inbox host items with
  | zero => exact ⟨inbox, host, rfl, poppable, fun _ _ => rfl⟩
  | succ limit ih =>
    obtain ⟨previous, rep, front⟩ := poppable
    unfold popUpTo popFirst
    rw [rep.firstWithId_eq, ok_bind]
    cases items with
    | nil => exact ⟨inbox, host, rfl, ⟨previous, rep, front⟩, fun _ _ => rfl⟩
    | cons item items =>
      have split : Represents previous delayedInboxPath inbox host ([] ++ item :: items) := rep
      obtain ⟨inbox', host', removed, rep', outside⟩ := split.remove_present (front item.1 rfl)
      have front' : FrontRight (relinked previous (keys (item :: items)) item.1) items := by
        intro id first
        have after : keyAfter (keys (item :: items)) item.1 = some id := by
          rw [← first]
          exact keyAfter_split (keys items) List.not_mem_nil
        have before : keyBefore (keys (item :: items)) item.1 = none :=
          keyBefore_split (keys items) List.not_mem_nil
        obtain ⟨rest, same⟩ := List.head?_eq_some_iff.1 first
        rw [LeadsBack, relinked, if_pos after, before, same]
        exact (keyBefore_split rest List.not_mem_nil).symm
      obtain ⟨inbox'', host'', rest, poppable', outside'⟩ := ih ⟨_, rep', front'⟩
      refine ⟨inbox'', host'', ?_, poppable', outside.trans outside'⟩
      rw [List.head?_cons, removeFirst, remove, removed]
      change popUpTo inbox' host' limit >>= _ = _
      rw [rest]
      rfl

theorem nextDelayedInboxBlueprint_eq (poppable : Poppable inbox host items) : ∃ inbox' host',
    nextDelayedInboxBlueprint inbox host = .ok (if items.isEmpty then none
      else some (delayedTransactions (items.take maxDelayedInboxBlueprintLength)), inbox', host') ∧
    Poppable inbox' host' (items.drop maxDelayedInboxBlueprintLength) ∧
    SameOutside delayedInboxPath host host' := by
  obtain ⟨inbox', host', popped, poppable', outside⟩ := popUpTo_eq poppable maxDelayedInboxBlueprintLength
  refine ⟨inbox', host', ?_, poppable', outside⟩
  rw [nextDelayedInboxBlueprint, popped]
  cases items <;> rfl

def forcedBlueprints (timestamp : Int) (items : DelayedItems) : List Blueprint :=
  if items.isEmpty then []
  else
    { transactions := delayedTransactions (items.take maxDelayedInboxBlueprintLength), timestamp } ::
      forcedBlueprints timestamp (items.drop maxDelayedInboxBlueprintLength)
termination_by items.length
decreasing_by
  rename_i some_items
  rw [List.isEmpty_iff] at some_items
  have positive := List.length_pos_iff.2 some_items
  simp only [List.length_drop, maxDelayedInboxBlueprintLength]
  omega

theorem forcedBlueprints_nil (timestamp : Int) : forcedBlueprints timestamp [] = [] := by
  rw [forcedBlueprints]
  rfl

theorem forcedBlueprints_of_ne_nil (timestamp : Int) (some_items : items ≠ []) :
    forcedBlueprints timestamp items =
      { transactions := delayedTransactions (items.take maxDelayedInboxBlueprintLength), timestamp } ::
        forcedBlueprints timestamp (items.drop maxDelayedInboxBlueprintLength) := by
  rw [forcedBlueprints, if_neg (by simpa using some_items)]

theorem forcedBlueprints_induction {motive : DelayedItems → Prop} (nil : motive [])
    (cons : ∀ items, items ≠ [] → motive (items.drop maxDelayedInboxBlueprintLength) → motive items)
    (items : DelayedItems) : motive items := by
  induction length : items.length using Nat.strong_induction_on generalizing items with
  | h n ih =>
    by_cases none_left : items = []
    · exact none_left ▸ nil
    · apply cons items none_left
      apply ih _ _ _ rfl
      have positive := List.length_pos_iff.2 none_left
      simp only [List.length_drop, maxDelayedInboxBlueprintLength]
      omega

theorem forcedBlueprints_transactions (timestamp : Int) (items : DelayedItems) :
    (forcedBlueprints timestamp items).flatMap (·.transactions) = delayedTransactions items := by
  induction items using forcedBlueprints_induction with
  | nil => rw [forcedBlueprints_nil]; rfl
  | cons items some_items ih =>
    rw [forcedBlueprints_of_ne_nil timestamp some_items, List.flatMap_cons, ih]
    unfold delayedTransactions
    rw [← List.map_append, List.take_append_drop]

def OnlyBlueprint (number : Nat) (blueprint : Blueprint) (host : Host Entry) : Prop :=
  ∀ rest, host.find (blueprintPath number ++ rest) =
    if rest = [.name .nbChunks] then some (Rlp.encode (1 : UInt16))
    else if rest = [.decimal 0] then some (Rlp.encode (StoreBlueprint.inboxBlueprint blueprint))
    else none

/-- Nothing is stored under the number that a forced blueprint does not overwrite: no chunk after the
first. -/
def NoLeftover (host : Host Entry) (number : Nat) : Prop :=
  ∀ rest, rest ≠ [.name .nbChunks] → rest ≠ [.decimal 0] → host.find (blueprintPath number ++ rest) = none

theorem blueprintPath_apart_of_ne {number other : Nat} (different : number ≠ other) :
    Apart (blueprintPath number) (blueprintPath other) := by
  simp [Apart, blueprintPath, evmBlueprints, different, different.symm]

variable {number : Nat}

theorem storeImmediateBlueprint_only (blueprint : Blueprint) (clean : NoLeftover host number) :
    OnlyBlueprint number blueprint (storeImmediateBlueprint host blueprint number) := by
  intro rest
  unfold storeImmediateBlueprint storeRlp blueprintChunkPath blueprintNbChunksPath
  rw [find_write_below, find_write_below]
  by_cases counts : rest = [.name .nbChunks]
  · simp [counts]
  · by_cases chunk : rest = [.decimal 0]
    · simp [chunk]
    · simp [counts, chunk, clean rest counts chunk]

theorem storeImmediateBlueprint_sameBelow (blueprint : Blueprint) {path : Path Step}
    (apart : Apart (blueprintPath number) path) :
    SameBelow path host (storeImmediateBlueprint host blueprint number) :=
  (SameBelow.write host _ (apart.of_below _)).trans (.write _ _ (apart.of_below _))

theorem NoLeftover.congr (clean : NoLeftover host number)
    (same : SameBelow (blueprintPath number) host host') : NoLeftover host' number := by
  intro rest not_count not_chunk
  rw [same]
  exact clean rest not_count not_chunk

/-- The blueprints are stored under successive numbers, and nothing else of the blueprints changes. -/
structure StoredFrom (start : Nat) (forced : List Blueprint) (host host' : Host Entry) : Prop where
  stored : ∀ i blueprint, forced[i]? = some blueprint → OnlyBlueprint (start + i) blueprint host'
  elsewhere : ∀ number, (∀ i < forced.length, number ≠ start + i) →
    SameBelow (blueprintPath number) host host'
  current : SameBelow evmCurrentBlock host host'

section
variable {popped : Host Entry} {first : Blueprint} {start : Nat}
  (outside : SameOutside delayedInboxPath host popped)
include outside

theorem popped_sameBelow (number : Nat) : SameBelow (blueprintPath number) host popped :=
  sameBelow_of_sameOutside _ outside (blueprintPath_apart number).symm

theorem StoredFrom.nil (start : Nat) : StoredFrom start [] host popped :=
  ⟨by simp, fun number _ => popped_sameBelow outside number, sameBelow_of_sameOutside _ outside (by decide)⟩

theorem storedFirst_sameBelow (different : number ≠ start) :
    SameBelow (blueprintPath number) host (storeImmediateBlueprint popped first start) :=
  (popped_sameBelow outside number).trans
    (storeImmediateBlueprint_sameBelow first (blueprintPath_apart_of_ne different.symm))

theorem StoredFrom.cons {next : Nat} {rest : List Blueprint} (clean : NoLeftover host start)
    (follows : ∀ i < rest.length, next + i = start + (i + 1))
    (later : StoredFrom next rest (storeImmediateBlueprint popped first start) host') :
    StoredFrom start (first :: rest) host host' := by
  refine ⟨fun i blueprint at_index => ?_, fun number apart => ?_, ?_⟩
  · cases i with
    | zero =>
      cases at_index
      intro rest
      rw [Nat.add_zero, later.elsewhere start fun i within => by rw [follows i within]; omega]
      exact storeImmediateBlueprint_only first (clean.congr (popped_sameBelow outside start)) rest
    | succ i =>
      rw [← follows i (by simpa using (List.getElem?_eq_some_iff.1 at_index).1)]
      exact later.stored i blueprint at_index
  · rw [List.length_cons] at apart
    refine (storedFirst_sameBelow outside (apart 0 (by omega))).trans (later.elsewhere number ?_)
    intro i within
    rw [follows i within]
    exact apart (i + 1) (by omega)
  · have popped_same : SameBelow evmCurrentBlock host popped :=
      sameBelow_of_sameOutside _ outside (by decide)
    exact (popped_same.trans (storeImmediateBlueprint_sameBelow first
      (by simp [Apart, blueprintPath, evmBlueprints, evmCurrentBlock]))).trans later.current

end

theorem storeForcedBlueprints_returns (timestamp : Int) (base : Nat) (offset : UInt32)
    (poppable : Poppable inbox host items)
    (small : offset.toNat + (forcedBlueprints timestamp items).length ≤ 2 ^ 32)
    (clean : ∀ i < (forcedBlueprints timestamp items).length, NoLeftover host (base + offset.toNat + i)) :
    ∃ inbox' host', Returns (fun fuel => storeForcedBlueprints timestamp base fuel offset inbox host)
        (inbox', host') ∧ InboxHolds inbox' host' [] ∧
      StoredFrom (base + offset.toNat) (forcedBlueprints timestamp items) host host' := by
  induction items using forcedBlueprints_induction generalizing inbox host offset with
  | nil =>
    obtain ⟨inbox', host', nothing, ⟨previous, rep', -⟩, outside⟩ := nextDelayedInboxBlueprint_eq poppable
    rw [forcedBlueprints_nil]
    refine ⟨inbox', host', Returns.of_succ fun fuel => ?_, ⟨previous, rep'⟩, .nil outside _⟩
    rw [storeForcedBlueprints, nothing]
    rfl
  | cons items some_items ih =>
    obtain ⟨inbox', popped, timed_out, ⟨previous, rep', front⟩, outside⟩ :=
      nextDelayedInboxBlueprint_eq poppable
    rw [if_neg (by simpa using some_items)] at timed_out
    rw [forcedBlueprints_of_ne_nil timestamp some_items] at small clean ⊢
    rw [List.length_cons] at small clean
    have incremented : (offset + 1).toNat = (offset.toNat + 1) % 2 ^ 32 := UInt32.toNat_add offset 1
    set rest := forcedBlueprints timestamp (items.drop maxDelayedInboxBlueprintLength)
    -- The offset wraps after the last of them at the most.
    have follows : ∀ i < rest.length, base + (offset + 1).toNat + i = base + offset.toNat + (i + 1) := by
      omega
    let first : Blueprint :=
      { transactions := delayedTransactions (items.take maxDelayedInboxBlueprintLength), timestamp }
    have stored_rep : Poppable inbox' (storeImmediateBlueprint popped first (base + offset.toNat))
        (items.drop maxDelayedInboxBlueprintLength) :=
      ⟨previous, rep'.of_sameBelow (storeImmediateBlueprint_sameBelow first (blueprintPath_apart _)), front⟩
    have clean_rest : ∀ i < rest.length, NoLeftover
        (storeImmediateBlueprint popped first (base + offset.toNat)) (base + (offset + 1).toNat + i) := by
      intro i within
      rw [follows i within]
      exact (clean (i + 1) (by omega)).congr (storedFirst_sameBelow outside (by omega))
    obtain ⟨inbox'', host', returns, rep'', later⟩ := ih (offset + 1) stored_rep (by omega) clean_rest
    refine ⟨inbox'', host', Returns.step (fun fuel => ?_) returns, rep'', ?_⟩
    · rw [storeForcedBlueprints, timed_out]
      rfl
    · exact .cons outside (clean 0 (by omega)) follows later

variable {blueprint : Blueprint}

theorem OnlyBlueprint.storeCountSubkeys_eq (only : OnlyBlueprint number blueprint host) :
    host.storeCountSubkeys (blueprintPath number) = 2 := by
  have children : (host.children (blueprintPath number)).Perm [.name .nbChunks, .decimal 0] := by
    rw [List.perm_ext_iff_of_nodup (nodup_children _ _) (by decide)]
    intro step
    rw [mem_children]
    constructor
    · rintro ⟨rest, value, found⟩
      rw [only] at found
      split_ifs at found with same same <;> simp [(List.cons.inj same).1]
    · intro member
      rcases List.mem_pair.1 member with rfl | rfl
      · exact ⟨[], _, only [.name .nbChunks]⟩
      · exact ⟨[], _, only [.decimal 0]⟩
  have no_value : host.find (blueprintPath number) = none := by simpa using only []
  rw [storeCountSubkeys, children.length_eq, no_value]
  rfl

variable {decode : Bytes → Option BlueprintWithDelayedHashes} {mode : ConfigurationMode}

theorem readNextBlueprint_of_only
    (next : readNextBlueprintNumber host = .ok number) (only : OnlyBlueprint number blueprint host) :
    readNextBlueprint decode mode host = .ok (some blueprint, mode, host) := by
  have present : host.hasTree (blueprintPath number) = true :=
    hasTree_iff.2 ⟨_, _, only [.name .nbChunks]⟩
  have counted : readRlp host (blueprintNbChunksPath (blueprintPath number)) =
      (.ok 1 : Except Etherlink.StorageError UInt16) := readRlp_of_find (only [.name .nbChunks])
  have chunk : readRlp host (blueprintChunkPath (blueprintPath number) 0) =
      .ok (StoreBlueprint.inboxBlueprint blueprint) := readRlp_of_find (only [.decimal 0])
  rw [readNextBlueprint, next, ok_bind, storeHas_isSome, if_pos present, readStoredBlueprint, counted,
    ok_bind]
  rw [only.storeCountSubkeys_eq, if_pos (by decide), readAllChunksAndValidate]
  have chunks : readAllChunks host (blueprintPath number) 0 (1 : UInt16).toNat =
      .ok (.inbox blueprint) := by
    rw [show (1 : UInt16).toNat = 1 from rfl, readAllChunks, chunk]
    rfl
  rw [chunks]
  cases mode <;> rfl

def SequencerUpgradeDue (host : Host Entry) : Prop :=
  ∃ upgrade timestamp, readSequencerUpgrade host = .ok (some upgrade) ∧
    readLastInfoPerLevelTimestamp host = .ok timestamp ∧ upgrade.activationTimestamp ≤ timestamp

theorem possibleSequencerUpgrade_of_not_due (not_due : ¬SequencerUpgradeDue host)
    (h : possibleSequencerUpgrade host = .ok host') : host' = host := by
  obtain ⟨pending, read, h⟩ := bind_eq_ok.1 h
  cases pending with
  | none =>
    cases h
    rfl
  | some upgrade =>
    obtain ⟨timestamp, time, h⟩ := bind_eq_ok.1 h
    rw [upgradeSequencerIfDue, if_neg fun due => not_due ⟨upgrade, timestamp, read, time, due⟩] at h
    cases h
    rfl

structure Executed (host executed : Host Entry) (number : Nat) : Prop where
  blueprints : SameBelow evmBlueprints host executed
  current : executed.find currentBlockNumberPath = some (Rlp.encode number)

/-- The states that block production goes through from a storage, with the number of promoted blocks.
Between the kernel runs and the blocks anything may be stored that is not a chunk of a blueprint. -/
inductive Production (decode : Bytes → Option BlueprintWithDelayedHashes) (allowed : Host Entry → Prop)
    (start : Host Entry) : Nat → ConfigurationMode → Host Entry → Prop
  | start (mode : ConfigurationMode) : Production decode allowed start 0 mode start
  | kernelRun {count mode host host'} : Production decode allowed start count mode host →
      allowed host → possibleSequencerUpgrade host = .ok host' →
      Production decode allowed start count mode host'
  | promoted {count mode mode' host read executed host' number blueprint} :
      Production decode allowed start count mode host → readNextBlueprintNumber host = .ok number →
      readNextBlueprint decode mode host = .ok (some blueprint, mode', read) →
      Executed read executed number → dropBlueprint executed number = .ok host' →
      Production decode allowed start (count + 1) mode' host'
  | other {count mode host host'} : Production decode allowed start count mode host →
      SameBelow evmBlueprints host host' → SameBelow evmCurrentBlock host host' →
      Production decode allowed start count mode host'

structure ForcedLeft (base : Nat) (forced : List Blueprint) (count : Nat) (host : Host Entry) : Prop where
  next : readNextBlueprintNumber host = .ok (base + count)
  stored : ∀ i blueprint, count ≤ i → forced[i]? = some blueprint → OnlyBlueprint (base + i) blueprint host

theorem readNextBlueprintNumber_congr (same : SameBelow evmCurrentBlock host host') :
    readNextBlueprintNumber host' = readNextBlueprintNumber host := by
  unfold readNextBlueprintNumber readCurrentBlockNumber readRlp storeReadAll
    currentBlockNumberPath
  rw [same]

theorem OnlyBlueprint.congr
    (only : OnlyBlueprint number blueprint host) (same : SameBelow evmBlueprints host host') :
    OnlyBlueprint number blueprint host' := by
  intro rest
  rw [← only rest, blueprintPath, List.append_assoc, same]

theorem Production.forcedLeft {start : Host Entry} {base count : Nat} {forced : List Blueprint}
    (fits : base + forced.length ≤ 2 ^ 64) (initially : ForcedLeft base forced 0 start)
    (reached : Production decode (fun host => ¬SequencerUpgradeDue host) start count mode host)
    (left : count < forced.length) : ForcedLeft base forced count host := by
  induction reached with
  | start mode => exact initially
  | kernelRun _ not_due upgraded ih =>
    rw [possibleSequencerUpgrade_of_not_due not_due upgraded]
    exact ih left
  | @promoted count mode mode' host read executed host' number blueprint _ next h ran dropped ih =>
    have before := ih (by omega)
    rw [before.next] at next
    cases next
    obtain ⟨expected, at_count⟩ : ∃ expected, forced[count]? = some expected :=
      ⟨_, List.getElem?_eq_getElem (by omega)⟩
    rw [readNextBlueprint_of_only before.next (before.stored count expected le_rfl at_count)] at h
    cases h
    obtain ⟨-, rfl⟩ := storeDelete_eq_ok.1 (liftRuntime_eq_ok.1 dropped)
    constructor
    · have current : readCurrentBlockNumber (executed.dropTree (blueprintPath (base + count))) =
          .ok ((base + count) % 2 ^ 64) := by
        have found : (executed.dropTree (blueprintPath (base + count))).find currentBlockNumberPath =
            some (Rlp.encode (base + count)) := by
          rw [find_dropTree, if_neg (by
            simp [blueprintPath, evmBlueprints, currentBlockNumberPath, evmCurrentBlock]), ran.current]
        rw [readCurrentBlockNumber, readRlp_of_find found]
        rfl
      rw [readNextBlueprintNumber, current, Nat.mod_eq_of_lt (by omega)]
      rfl
    · intro i blueprint later at_index
      have only := (before.stored i blueprint (by omega) at_index).congr ran.blueprints
      intro rest
      rw [← only rest]
      exact SameBelow.dropTree executed (blueprintPath_apart_of_ne (by omega)) rest
  | other _ blueprints current ih =>
    have before := ih left
    exact ⟨(readNextBlueprintNumber_congr current).trans before.next,
      fun i blueprint later at_index => (before.stored i blueprint later at_index).congr blueprints⟩

/-- All transactions of the inbox are moved to forced blueprints, and block production reads these
under the next numbers, unless chunks are left over under one of the numbers or an upgrade of the sequencer
clears the blueprints. -/
theorem forced_blueprints_produced (decode : Bytes → Option BlueprintWithDelayedHashes) {base : Nat}
    {timestamp : Int} (rep : Represents previous delayedInboxPath inbox host items)
    (front : FrontRight previous items) (now : currentTimestamp host = some timestamp)
    (next : readNextBlueprintNumber host = .ok base)
    (clean : ∀ i < (forcedBlueprints timestamp items).length, NoLeftover host (base + i))
    (fits : base + (forcedBlueprints timestamp items).length ≤ 2 ^ 64)
    (few : (forcedBlueprints timestamp items).length ≤ 2 ^ 32) :
    (forcedBlueprints timestamp items).flatMap (·.transactions) = delayedTransactions items ∧
    ∃ inbox' fetched, Returns (fun fuel => fetchDelayedTransactions fuel inbox host) (inbox', fetched) ∧
      InboxHolds inbox' fetched [] ∧
      ∀ count mode reached,
        Production decode (fun host => ¬SequencerUpgradeDue host) fetched count mode reached →
        ∀ blueprint, (forcedBlueprints timestamp items)[count]? = some blueprint →
          readNextBlueprintNumber reached = .ok (base + count) ∧
          readNextBlueprint decode mode reached = .ok (some blueprint, mode, reached) := by
  refine ⟨forcedBlueprints_transactions _ items, ?_⟩
  obtain ⟨inbox', fetched, returns, rep', forced⟩ :=
    storeForcedBlueprints_returns timestamp base 0 ⟨previous, rep, front⟩ (by simpa using few) clean
  refine ⟨inbox', fetched, ?_, rep', ?_⟩
  · obtain ⟨bound, returns⟩ := returns
    refine ⟨bound, fun fuel enough => ?_⟩
    unfold fetchDelayedTransactions
    rw [now, next]
    exact returns fuel enough
  · intro count mode reached run blueprint at_count
    have initially : ForcedLeft base (forcedBlueprints timestamp items) 0 fetched :=
      ⟨(readNextBlueprintNumber_congr forced.current).trans next, fun i blueprint _ => forced.stored i blueprint⟩
    have left := run.forcedLeft fits initially (List.getElem?_eq_some_iff.1 at_count).1
    exact ⟨left.next, readNextBlueprint_of_only left.next (left.stored count blueprint le_rfl at_count)⟩

/-- The deposits of the inbox become block 0. -/
theorem deposits_forced : ∃ inbox fetched,
    Returns (fun fuel => fetchDelayedTransactions fuel depositsAfterTaking.1 depositsAfterTaking.2)
        (inbox, fetched) ∧
      ∃ blueprint, blueprint.transactions = delayedTransactions
          [([1], depositOf 5), ([3], depositOf 7), ([4], depositOf 8)] ∧
        readNextBlueprint (fun _ => none) .proxy fetched = .ok (some blueprint, .proxy, fetched) := by
  have forced : forcedBlueprints 0 [([1], depositOf 5), ([3], depositOf 7), ([4], depositOf 8)] =
      [{ transactions := delayedTransactions [([1], depositOf 5), ([3], depositOf 7), ([4], depositOf 8)]
         timestamp := 0 }] := by
    rw [forcedBlueprints_of_ne_nil _ (by simp)]
    simp [forcedBlueprints_nil, maxDelayedInboxBlueprintLength]
  have now : currentTimestamp depositsAfterTaking.2 = some 0 := by decide +kernel
  have produced := forced_blueprints_produced (fun _ => none) depositsAfterTaking_held
    (fun id first => by cases first; rfl) now rfl
    (fun i small rest _ _ => by
      rw [forced, List.length_singleton, Nat.lt_one_iff] at small
      subst small
      exact hasTree_eq_false.1 (by decide) rest) (by rw [forced]; decide) (by rw [forced]; decide)
  rw [forced] at produced
  obtain ⟨-, inbox, fetched, returns, -, reads⟩ := produced
  exact ⟨inbox, fetched, returns, _, rfl, (reads 0 .proxy fetched (.start _) _ rfl).2⟩

def oneDepositWithLeftover : Host Entry :=
  storeSequencerBlueprint oneDeposit.2 { chunk := [7], number := 0, nbChunks := 2, chunkIndex := 1 }

def oneDepositWithUpgrade : Host Entry :=
  storeRlp (9 : Int) (storeRlp ({ sequencer := [1], poolAddress := [2], activationTimestamp := 5 } :
    SequencerUpgrade) oneDeposit.2 sequencerUpgradePath) infoPerLevelTimestampPath

/-- A chunk that is left over, or an upgrade of the sequencer, deletes the forced blueprint: the deposit is
neither in the inbox nor in a blueprint. -/
theorem oneDeposit_not_forced : (∃ inbox fetched host,
      fetchDelayedTransactions 2 oneDeposit.1 oneDepositWithLeftover = .ok (inbox, fetched) ∧
      readNextBlueprint (fun _ => none) (.sequencer inbox) fetched = .ok (none, .sequencer inbox, host) ∧
      inbox.isEmpty = true ∧ host.hasTree evmBlueprints = false) ∧
    ∃ inbox fetched host,
      fetchDelayedTransactions 2 oneDeposit.1 oneDepositWithUpgrade = .ok (inbox, fetched) ∧
      possibleSequencerUpgrade fetched = .ok host ∧
      inbox.isEmpty = true ∧ host.hasTree evmBlueprints = false :=
  ⟨⟨_, _, _, rfl, rfl, rfl, rfl⟩, ⟨_, _, _, rfl, rfl, rfl, rfl⟩⟩

end Octez.Proof.Etherlink
