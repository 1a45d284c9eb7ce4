import Octez.Proof.Etherlink.Chain

namespace Octez.Proof.Etherlink
open Octez.Etherlink Octez.Lib Octez.Lib.Unsigned Octez.Lib.Stateful

variable {producer : Producer} {host host' final : Host Entry} {journal : Journal}
  {record : BlockRecord} {application : Application} {applications : List Application}
  {info : ExecutionInfo} {updates : FeeUpdates} {pool : H160} {world : World}

/-- The transaction is executed as one of the block with this number: it sees the number, the hashes
of the last blocks and no other hash. -/
structure SeesBlock (number : Nat) (application : Application) : Prop where
  seen : application.constants.blockNumber = number
  hashes : ∀ k, 1 ≤ k → k ≤ min number 256 →
    ∃ hash, getBlockHash application.before.host (number - k) = .ok hash ∧
      application.constants.blockHash application.before.host (number - k) = hash
  others : ∀ n, (∀ k, 1 ≤ k → k ≤ min number 256 → n ≠ number - k) →
    application.constants.blockHash application.before.host n = zeroHash

/-- The constants of a block are those of the block before it. Only the first block has none before
it. -/
theorem sees_block_iff (chain : Chain producer host journal)
    (promoted : (record, final) ∈ journal.promoted) {block : L2Block}
    (stored : readCurrentBlock final = .ok block) (applied : application ∈ record.applications) :
    SeesBlock block.number application ↔ block.number = 0 := by
  obtain ⟨_, same, context⟩ := (chain.sound.closed _ promoted).context
  cases stored.symm.trans same
  have number := context application applied
  constructor
  · intro sees
    have seen := sees.seen
    unfold BlockConstants.blockNumber at seen
    omega
  · intro first
    rw [first] at number ⊢
    refine ⟨number, fun k positive bounded => ?_, fun n _ => ?_⟩
    · omega
    · rw [BlockConstants.blockHash, number, if_neg (by omega)]

def plainProducer : Producer where
  callerOf _ := some holder
  execute _ _ _ _ _ world := .ok (gasUsedUp 21000 true, world)
  postWithdrawals world _ := .ok world
  indexNewAccounts world _ := .ok world
  decode _ := none
  reveal _ := none
  baseFeePerGas _ _ := 1000000000
  logsToBloom _ := List.replicate bloomSize 0
  storeTransaction host _ _ _ := .ok (host, 0)
  updateTickBacklog host _ _ := .ok host
  storeGetHash _ _ := []
  hash bip _ _ _ := List.replicate 32 (UInt8.ofNat (bip.number + 1))
  indexBlock host _ := .ok host
  storeEvent host _ _ := .ok host
  flushQueue host := host
  execute_elsewhere _ _ _ _ _ _ _ _ executed := by cases executed; exact elsewhere_refl _
  postWithdrawals_elsewhere _ _ _ posted := by cases posted; exact elsewhere_refl _
  indexNewAccounts_elsewhere _ _ _ indexed := by cases indexed; exact elsewhere_refl _
  storeTransaction_elsewhere _ _ _ _ _ _ stored := by cases stored; exact elsewhere_refl _
  updateTickBacklog_elsewhere _ _ _ _ updated := by cases updated; exact elsewhere_refl _
  indexBlock_elsewhere _ _ _ indexed := by cases indexed; exact elsewhere_refl _
  storeEvent_elsewhere _ _ _ _ stored := by cases stored; exact ⟨.refl _ _, .refl _ _⟩
  flushQueue_elsewhere _ := ⟨.refl _ _, .refl _ _⟩

def poolAddress : H160 := List.replicate 20 0xb0

/-- A storage in which a pool is set, with blueprints of one transaction each and an account that can
pay for them. -/
def withBlueprints (count : Nat) : Host Entry :=
  (List.range count).foldl (fun host number => storeImmediateBlueprint host
      { transactions := [⟨[UInt8.ofNat number], .ethereum (plainTransfer 0)⟩], timestamp := 0 } number)
    (storeSequencerPoolAddress (holding 10000000000000000).host poolAddress)

def runOn (host : Host Entry) : EStateM.Result ApplyError Progress ComputationResult :=
  plainProducer.produce 3 host .proxy 42793 gweiConstants.blockFees { current := none, promoted := [] }

def promotes (check : BlockRecord → Host Entry → Application → Bool) (host : Host Entry) : Bool :=
  okAnd (fun _ progress => progress.journal.promoted.any fun block =>
    block.1.applications.any (check block.1 block.2)) (runOn host)

theorem exists_of_promotes {check : BlockRecord → Host Entry → Application → Prop}
    [∀ record final application, Decidable (check record final application)] (host : Host Entry)
    (bare : host.find evmBlockInProgress = none) (safe : host.find tmpBlockInProgress = none)
    (checked : promotes (fun record final application => check record final application) host = true) :
    ∃ host journal record final application, Chain plainProducer host journal ∧
      (record, final) ∈ journal.promoted ∧ application ∈ record.applications ∧
      check record final application := by
  obtain ⟨result, progress, produced, found⟩ := exists_of_okAnd checked
  obtain ⟨⟨record, final⟩, promoted, found⟩ := List.any_eq_true.1 found
  obtain ⟨application, applied, found⟩ := List.any_eq_true.1 found
  have inbox : InboxAt .proxy := fun _ sequencer => nomatch sequencer
  have chain : Chain plainProducer progress.host progress.journal :=
    .run (.idle bare safe) inbox produced
  exact ⟨_, _, record, final, application, chain, promoted, applied, of_decide_eq_true found⟩

def storedNumber (host : Host Entry) : Option Nat :=
  match readCurrentBlock host with
  | .ok block => some block.number
  | .error _ => none

theorem exists_of_storedNumber {number : Nat} (stored : storedNumber host = some number) :
    ∃ block, readCurrentBlock host = .ok block ∧ block.number = number := by
  unfold storedNumber at stored
  cases read : readCurrentBlock host with
  | error _ => rw [read] at stored; cases stored
  | ok block =>
    rw [read] at stored
    exact ⟨block, rfl, Option.some.inj stored⟩

theorem first_block_is_seen : ∃ host journal record final application block,
    (Chain plainProducer host journal ∧ (record, final) ∈ journal.promoted ∧
      readCurrentBlock final = .ok block ∧ application ∈ record.applications) ∧
    SeesBlock block.number application := by
  have checked : promotes (fun _ final _ => storedNumber final = some 0)
      (withBlueprints 1) = true := by decide +kernel
  obtain ⟨host, journal, record, final, application, chain, promoted, applied, number⟩ :=
    exists_of_promotes _ rfl rfl checked
  obtain ⟨block, stored, first⟩ := exists_of_storedNumber number
  exact ⟨host, journal, record, final, application, block, ⟨chain, promoted, stored, applied⟩,
    (sees_block_iff chain promoted stored applied).2 first⟩

/-- The transaction of the second block is told that its block has the number of the first one, and
gets no hash for that one, although it is stored. -/
theorem second_block_sees_the_first : ∃ host journal record final application,
    Chain plainProducer host journal ∧ (record, final) ∈ journal.promoted ∧
      application ∈ record.applications ∧ storedNumber final = some 1 ∧
      application.constants.blockNumber = 0 ∧
      getBlockHash application.before.host 0 = .ok (List.replicate 32 1) ∧
      application.constants.blockHash application.before.host 0 = zeroHash := by
  refine exists_of_promotes (withBlueprints 2) rfl rfl ?_
  decide +kernel

def credited (kernel : Kernel) (pool : H160) (application : Application) : Int :=
  match chargedIn kernel application with
  | .error _ => 0
  | .ok (updates, charged) =>
    match updates.distribute charged with
    | .error _ => 0
    | .ok distributed => held distributed - held charged
where
  held (world : World) : Int :=
    match world.balance pool with
    | .ok balance => balance.val
    | .error _ => 0

def feesOf (applications : List Application) : List FeeUpdates :=
  applications.filterMap fun application =>
    match application.result with
    | .valid info => some info.feeUpdates
    | _ => none

def toCompensate (applications : List Application) : Nat :=
  ((feesOf applications).map fun updates => updates.compensateSequencerAmount.val).sum

def toBurn (applications : List Application) : Nat :=
  ((feesOf applications).map fun updates => updates.burnAmount.val).sum

/-- The pool is paid for the availability of the block's transactions, and nothing else than what is
to be burned is. -/
structure FeesReachPool (kernel : Kernel) (pool : H160) (record : BlockRecord) (final : Host Entry) :
    Prop where
  paid : (record.applications.map (credited kernel pool)).sum = toCompensate record.applications
  burned : (readBurnedFees final).val =
    (readBurnedFees record.start).val + toBurn record.applications

theorem feesOf_cons_valid (valid : application.result = .valid info) :
    feesOf (application :: applications) = info.feeUpdates :: feesOf applications := by
  simp [feesOf, valid]

theorem feesOf_cons_not_valid (notValid : ∀ info, application.result ≠ .valid info) :
    feesOf (application :: applications) = feesOf applications := by
  unfold feesOf
  rw [List.filterMap_cons]
  cases result : application.result with
  | valid info => exact absurd result (notValid info)
  | _ => rfl

section
variable (applies : Applies producer.toKernel application)
include applies

theorem chargedIn_of_not_valid (notValid : ∀ info, application.result ≠ .valid info) :
    ∃ error, chargedIn producer.toKernel application = .error error := by
  obtain ⟨⟨result, settled⟩, applied, finished⟩ := bind_eq_ok.1 applies
  unfold chargedIn
  rw [applied, ok_bind]
  cases result with
  | invalid | retriable result => exact ⟨_, rfl⟩
  | valid result =>
    obtain ⟨⟨info, _⟩, _, same⟩ := bind_eq_ok.1 finished
    exact absurd (Prod.mk.inj (Except.ok.inj same)).1.symm (notValid info)

theorem credited_of_valid (valid : application.result = .valid info) :
    credited producer.toKernel pool application =
      if readSequencerPoolAddress application.before.host = some pool
      then info.feeUpdates.compensateSequencerAmount.val else 0 := by
  obtain ⟨charged, distributed, charge, before, distribute, -⟩ := distributed_of_valid applies valid
  rw [credited, charge]
  dsimp only
  rw [distribute]
  rw [← readSequencerPoolAddress_sameBelow before.pool]
  cases isPool : readSequencerPoolAddress charged.host with
  | none =>
    rw [distribute_of_no_pool isPool] at distribute
    cases distribute
    simp [credited.held]
  | some other =>
    obtain ⟨held, after, isHeld, sum, rfl⟩ := (distribute_of_pool isPool).1 distribute
    by_cases same : other = pool
    · subst same
      simp [credited.held, isHeld, sum]
    · have kept : ((charged.burn info.feeUpdates.burnAmount).setBalance other after).balance pool =
          charged.balance pool := by
        rw [World.balance_setBalance_of_ne _ _ same, World.balance_burn]
      simp [credited.held, kept, same]

theorem burned_of_valid (valid : application.result = .valid info)
    (nothing : (readSequencerPoolAddress application.before.host).isSome ∨
      info.feeUpdates.compensateSequencerAmount.val = 0) :
    (readBurnedFees application.after.host).val =
      min ((readBurnedFees application.before.host).val + info.feeUpdates.burnAmount.val) (2 ^ 256 - 1) := by
  obtain ⟨charged, distributed, -, before, distribute, after⟩ := distributed_of_valid applies valid
  rw [readBurnedFees_sameBelow after.burned, ← readBurnedFees_sameBelow before.burned]
  rw [← readSequencerPoolAddress_sameBelow before.pool] at nothing
  cases isPool : readSequencerPoolAddress charged.host with
  | none =>
    rw [isPool] at nothing
    have zero := nothing.resolve_left (by simp)
    rw [distribute_of_no_pool isPool] at distribute
    cases distribute
    rw [World.readBurnedFees_burn, val_saturatingAdd, val_saturatingAdd, zero]
    omega
  | some other =>
    obtain ⟨held, after, -, -, rfl⟩ := (distribute_of_pool isPool).1 distribute
    rw [World.readBurnedFees_setBalance, World.readBurnedFees_burn, val_saturatingAdd]

end

theorem credited_of_follows (pool : H160) (follows : Follows producer.toKernel host applications host') :
    (applications.map (credited producer.toKernel pool)).sum =
      if readSequencerPoolAddress host = some pool then (toCompensate applications : Int) else 0 := by
  induction follows with
  | nil => simp [toCompensate, feesOf]
  | @cons host _ application applications before applies _ ih =>
    have pool_kept := readSequencerPoolAddress_sameBelow
      (applies_frame (by decide) (fun elsewhere => elsewhere.pool) applies)
    rw [pool_kept, readSequencerPoolAddress_sameBelow before.pool] at ih
    rw [List.map_cons, List.sum_cons, ih]
    cases result : application.result with
    | valid info =>
      rw [credited_of_valid applies result, readSequencerPoolAddress_sameBelow before.pool,
        toCompensate, toCompensate, feesOf_cons_valid result]
      split <;> simp
    | _ =>
      have notValid : ∀ info, application.result ≠ .valid info :=
        fun _ valid => nomatch result.symm.trans valid
      obtain ⟨error, failed⟩ := chargedIn_of_not_valid applies notValid
      rw [credited, failed, toCompensate, toCompensate,
        feesOf_cons_not_valid notValid, Int.zero_add]

theorem burned_of_follows (follows : Follows producer.toKernel host applications host')
    (nothing : (readSequencerPoolAddress host).isSome ∨ toCompensate applications = 0) :
    (readBurnedFees host').val = min ((readBurnedFees host).val + toBurn applications) (2 ^ 256 - 1) := by
  induction follows with
  | @nil host host' kept =>
    rw [readBurnedFees_sameBelow kept.burned, toBurn, feesOf]
    simp only [List.filterMap_nil, List.map_nil, List.sum_nil]
    omega
  | @cons host _ application applications before applies _ ih =>
    have pool_kept := readSequencerPoolAddress_sameBelow
      (applies_frame (by decide) (fun elsewhere => elsewhere.pool) applies)
    rw [pool_kept, readSequencerPoolAddress_sameBelow before.pool] at ih
    rw [← readBurnedFees_sameBelow before.burned]
    cases result : application.result with
    | valid info =>
      rw [toCompensate, feesOf_cons_valid result, List.map_cons, List.sum_cons,
        Nat.add_eq_zero_iff] at nothing
      have here := burned_of_valid applies result (by
        rw [readSequencerPoolAddress_sameBelow before.pool]
        exact nothing.imp_right And.left)
      rw [ih (nothing.imp_right And.right), here, toBurn, toBurn, feesOf_cons_valid result,
        List.map_cons, List.sum_cons]
      omega
    | _ =>
      have notValid : ∀ info, application.result ≠ .valid info :=
        fun _ valid => nomatch result.symm.trans valid
      rw [toCompensate, feesOf_cons_not_valid notValid] at nothing
      rw [ih nothing, readBurnedFees_sameBelow (elsewhere_of_not_valid applies notValid).burned,
        toBurn, toBurn, feesOf_cons_not_valid notValid]

/-- The address of the pool is looked up under `/tmp`, where nothing puts it. Whatever pool is set in
the storage, the fees reach it only if it is set there as well, or if there are none for it. -/
theorem fees_reach_pool_iff (pool : H160) (chain : Chain producer host journal)
    (promoted : (record, final) ∈ journal.promoted) :
    FeesReachPool producer.toKernel pool record final ↔
      (readSequencerPoolAddress (safeStorage record.start) = some pool ∨
        toCompensate record.applications = 0) ∧
      (readBurnedFees record.start).val + toBurn record.applications < 2 ^ 256 := by
  have closed : ClosedBlock producer.toKernel final record := chain.sound.closed _ promoted
  obtain ⟨inner, follows, burned⟩ := closed.follows
  have credits := credited_of_follows pool follows
  constructor
  · intro reach
    have paid := reach.paid
    rw [credits] at paid
    refine (and_iff_left_of_imp fun nothing => ?_).2 ?_
    · have counted := burned_of_follows follows (nothing.imp_left fun isPool => by rw [isPool]; rfl)
      have total := reach.burned
      omega
    · split at paid
      · exact .inl ‹_›
      · exact .inr (by omega)
  · rintro ⟨nothing, fits⟩
    have counted := burned_of_follows follows (nothing.imp_left fun isPool => by rw [isPool]; rfl)
    refine ⟨?_, ?_⟩
    · rw [credits]
      split
      · rfl
      · rename_i other
        rw [nothing.resolve_left other]
        rfl
    · rw [burned, counted, closed.opening]
      omega

theorem pool_under_tmp_is_paid : ∃ host journal record final,
    (Chain plainProducer host journal ∧ (record, final) ∈ journal.promoted) ∧
    readSequencerPoolAddress record.start = some poolAddress ∧
    toCompensate record.applications = 600000000000000 ∧
    FeesReachPool plainProducer.toKernel poolAddress record final := by
  have checked : promotes (fun record _ _ =>
          readSequencerPoolAddress record.start = some poolAddress ∧
          toCompensate record.applications = 600000000000000 ∧
          readSequencerPoolAddress (safeStorage record.start) = some poolAddress ∧
          (readBurnedFees record.start).val + toBurn record.applications < 2 ^ 256)
      (storeRlp poolAddress (withBlueprints 1) (tmpPath ++ sequencerPoolPath)) = true := by decide +kernel
  obtain ⟨host, journal, record, final, -, chain, promoted, -, isSet, fees, underTmp, fits⟩ :=
    exists_of_promotes _ rfl rfl checked
  exact ⟨host, journal, record, final, ⟨chain, promoted⟩, isSet, fees,
    (fees_reach_pool_iff poolAddress chain promoted).2 ⟨.inl underTmp, fits⟩⟩

/-- The fees for the pool that is set are burned. -/
theorem pool_is_not_paid : ∃ host journal record final,
    Chain plainProducer host journal ∧ (record, final) ∈ journal.promoted ∧
      readSequencerPoolAddress record.start = some poolAddress ∧
      toCompensate record.applications = 600000000000000 ∧
      (record.applications.map (credited plainProducer.toKernel poolAddress)).sum = 0 ∧
      (readBurnedFees final).val = (readBurnedFees record.start).val +
        toBurn record.applications + toCompensate record.applications := by
  refine (exists_of_promotes (withBlueprints 1) rfl rfl ?_).imp fun host => Exists.imp fun journal =>
    Exists.imp fun record => Exists.imp fun final ⟨application, chain, promoted, _, found⟩ =>
      ⟨chain, promoted, found⟩
  decide +kernel

end Octez.Proof.Etherlink
