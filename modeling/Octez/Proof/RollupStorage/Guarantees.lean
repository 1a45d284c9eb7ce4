import Octez.Proof.RollupStorage.Cementation

namespace Octez.Proof.RollupStorage
open Octez.Lib Octez.Game Octez.RollupStorage Octez.RefutationProof.DalHelpers Table

variable {T : RollupTypes}

inductive Operation (T : RollupTypes) where
  | publish (staker : T.Staker) (commitment : T.Commitment)
  | cement
  | remove (staker : T.Staker)
  | withdraw (staker : T.Staker)

inductive Event (T : RollupTypes) where
  | published (staker : T.Staker) (commitment : T.Commitment)
  | cemented (commitment : T.Commitment)
  | left (staker : T.Staker)

def cemented (genesis : T.Commitment) : List (Event T) → List T.Commitment
  | [] => [genesis]
  | .cemented c :: log => c :: cemented genesis log
  | .published _ _ :: log => cemented genesis log
  | .left _ :: log => cemented genesis log

def publications : List (Event T) → List T.Commitment
  | [] => []
  | .published _ c :: log => c :: publications log
  | .cemented _ :: log => publications log
  | .left _ :: log => publications log

section Staker
variable [DecidableEq T.Staker]

/-- What a staker has published since it last became active. -/
def publishedWhileActive (staker : T.Staker) : List (Event T) → List T.Commitment
  | [] => []
  | .cemented _ :: log => publishedWhileActive staker log
  | .published staker' c :: log =>
    if staker' = staker then c :: publishedWhileActive staker log
    else publishedWhileActive staker log
  | .left staker' :: log => if staker' = staker then [] else publishedWhileActive staker log

variable [DecidableEq T.CommitmentHash]

def applyOperation (P : Protocol T) (level : Int) (s : Storage T) :
    Operation T → Result T (Storage T × Event T)
  | .publish staker c => do
    let (_, _, s) ← publishCommitment P level s staker c
    return (s, .published staker c)
  | .cement => do
    let (s, c, _) ← cementCommitment P level s
    return (s, .cemented c)
  | .remove staker => do
    let (s, _) ← removeStaker P s staker
    return (s, .left staker)
  | .withdraw staker => do
    let s ← withdrawStake P s staker
    return (s, .left staker)

/-- The states reached from the origination, at levels that do not decrease. An operation that
fails changes nothing; the ledger and the whitelist also change elsewhere. -/
inductive Reached (P : Protocol T) (genesis : T.Commitment) :
    Int → Storage T → List (Event T) → Prop
  | originated {level : Nat} {stateHash : T.Hash} {ledger : T.Ledger} {whitelist : Table T.Staker Unit}
      {s : Storage T} (commitment : genesis = genesisCommitment P level stateHash) (small : level < 2 ^ 31)
      (returned : originate P ledger whitelist genesis = .ok s) : Reached P genesis level s []
  | elsewhere {level : Int} {s : Storage T}
      {log : List (Event T)} (reached : Reached P genesis level s log)
      (ledger : T.Ledger) (whitelist : Table T.Staker Unit) :
      Reached P genesis level { s with ledger := ledger, whitelist := whitelist } log
  | step {level level' : Int} {s s' : Storage T}
      {log : List (Event T)}
      {operation : Operation T}
      {event : Event T} (reached : Reached P genesis level s log)
      (later : level ≤ level') (applied : applyOperation P level' s operation = .ok (s', event)) :
      Reached P genesis level' s' (event :: log)

/-- The publications of an active staker: those above the last cemented commitment are pending and
carry its stake. -/
structure Honoured (P : Protocol T) (lccLevel : Nat) (s : Storage T) (index : Nat)
    (published : List T.Commitment) : Prop where
  staked : ∀ c ∈ published, lccLevel < c.inboxLevel →
    ∃ h, Pending s lccLevel h c ∧ index ∈ SetOutOfList.get s.commitmentStakers h
  linked : ∀ c ∈ published, ∃ pred, P.commitmentHash pred = some c.predecessor ∧
    c.inboxLevel = pred.inboxLevel + P.constants.commitmentPeriodInBlocks
  level : ∃ last, s.stakers.find index = some last ∧
    ∀ c ∈ published, (c.inboxLevel : Int) ≤ last
  distinct : ∀ c ∈ published, ∀ c' ∈ published, c.inboxLevel = c'.inboxLevel → c = c'

structure RunInvariant (P : Protocol T) (genesis lcc : T.Commitment) (older : List T.Commitment)
    (s : Storage T) (log : List (Event T)) : Prop where
  chain : cemented genesis log = lcc :: older
  commitments : CommitmentsInvariant P genesis lcc older s
  stakers : StakersInvariant s
  inactive : ∀ staker, s.stakerIndex.find staker = none → publishedWhileActive staker log = []
  honoured : ∀ staker index, s.stakerIndex.find staker = some index →
    Honoured P lcc.inboxLevel s index (publishedWhileActive staker log)
  contents : ∀ h c, lcc.inboxLevel < c.inboxLevel →
    (s.commitments.find h = some c ↔ P.commitmentHash c = some h ∧ c ∈ publications log)

variable {P : Protocol T} {s s' : Storage T} {genesis lcc c : T.Commitment}
  {older : List T.Commitment} {h : T.CommitmentHash}
  {log : List (Event T)} {staker : T.Staker} {index : Nat} {level : Int}

omit [DecidableEq T.Staker] in
theorem Honoured.imp {lccLevel : Nat} {published} (honoured : Honoured P lccLevel s index published)
    (pending : ∀ h c, Pending s lccLevel h c → Pending s' lccLevel h c)
    (staked : ∀ h, index ∈ SetOutOfList.get s.commitmentStakers h →
      index ∈ SetOutOfList.get s'.commitmentStakers h)
    (level : s'.stakers.find index = s.stakers.find index) : Honoured P lccLevel s' index published where
  staked := fun c member above =>
    (honoured.staked c member above).imp fun h both => ⟨pending h c both.1, staked h both.2⟩
  linked := honoured.linked
  level := level ▸ honoured.level
  distinct := honoured.distinct

section
variable (inv : RunInvariant P genesis lcc older s log)
include inv

theorem RunInvariant.elsewhere (ledger : T.Ledger) (whitelist : Table T.Staker Unit) :
    RunInvariant P genesis lcc older { s with ledger := ledger, whitelist := whitelist } log := by
  have same : SameCommitments s { s with ledger := ledger, whitelist := whitelist } :=
    ⟨rfl, rfl, rfl, rfl, rfl, rfl⟩
  refine ⟨inv.chain, inv.commitments.congr same, ?_, inv.inactive, ?_, inv.contents⟩
  · exact ⟨inv.stakers.active, inv.stakers.unique, inv.stakers.bounded, inv.stakers.known, inv.stakers.single⟩
  · intro staker index found
    exact (inv.honoured staker index found).imp (fun _ _ => Pending.congr same) (fun _ => id) rfl

theorem RunInvariant.withStaker (absent : s.stakerIndex.find staker = none) (ledger : T.Ledger) :
    RunInvariant P genesis lcc older (withStaker s ledger staker) log := by
  have same : SameCommitments s (RollupStorage.withStaker s ledger staker) :=
    ⟨rfl, rfl, rfl, rfl, rfl, rfl⟩
  have found : ∀ {staker'}, staker' ≠ staker →
      (RollupStorage.withStaker s ledger staker).stakerIndex.find staker' =
        s.stakerIndex.find staker' := find_add_of_ne
  refine ⟨inv.chain, inv.commitments.congr same, stakersInvariant_withStaker inv.stakers absent ledger, ?_, ?_,
    inv.contents⟩
  · intro staker' none'
    by_cases own : staker' = staker
    · rw [own]
      exact inv.inactive staker absent
    · exact inv.inactive staker' ((found own).symm.trans none')
  · intro staker' index there
    by_cases own : staker' = staker
    · rw [own, inv.inactive staker absent]
      rw [own] at there
      cases (find_add_self s.stakerIndex staker s.stakerIndexCounter).symm.trans there
      exact ⟨nofun, nofun, ⟨_, find_add_self _ _ _, nofun⟩, nofun⟩
    · rw [found own] at there
      have known := inv.stakers.bounded staker' index there
      refine (inv.honoured staker' index there).imp (fun _ _ => Pending.congr same) (fun _ => id) ?_
      exact find_add_of_ne (Nat.ne_of_lt known)

theorem RunInvariant.withoutStaker (found : s.stakerIndex.find staker = some index) (ledger : T.Ledger) :
    RunInvariant P genesis lcc older (withoutStaker s ledger staker index) (.left staker :: log) := by
  have same : SameCommitments s (RollupStorage.withoutStaker s ledger staker index) :=
    ⟨rfl, rfl, rfl, rfl, rfl, rfl⟩
  have others : ∀ {staker'}, staker' ≠ staker →
      (RollupStorage.withoutStaker s ledger staker index).stakerIndex.find staker' =
        s.stakerIndex.find staker' := find_remove_of_ne
  refine ⟨inv.chain, inv.commitments.congr same,
    stakersInvariant_withoutStaker inv.stakers found ledger, ?_, ?_, inv.contents⟩
  · intro staker' none'
    rw [publishedWhileActive]
    split
    · rfl
    · next own =>
        exact inv.inactive staker' ((others fun same => own same.symm).symm.trans none')
  · intro staker' index' there
    by_cases own : staker' = staker
    · rw [own] at there
      change (s.stakerIndex.remove staker).find staker = _ at there
      rw [find_remove, if_pos rfl] at there
      cases there
    · rw [others own] at there
      rw [publishedWhileActive, if_neg fun same => own same.symm]
      refine (inv.honoured staker' index' there).imp (fun _ _ => Pending.congr same) (fun _ => id) ?_
      exact find_remove_of_ne fun same =>
        own (inv.stakers.unique staker' staker index (same ▸ there) found)

end

omit [DecidableEq T.Staker] in
theorem Honoured.published (free : CollisionFree P) (inv : CommitmentsInvariant P genesis lcc older s)
    (refined : Refined P index lcc.inboxLevel h c s s') {published}
    (honoured : Honoured P lcc.inboxLevel s index published) :
    Honoured P lcc.inboxLevel s' index (c :: published) := by
  have staked : ∀ {hash}, index ∈ SetOutOfList.get s.commitmentStakers hash →
      index ∈ SetOutOfList.get s'.commitmentStakers hash := by
    intro hash there
    rw [refined.stakers]
    exact mem_get_add.2 (.inr there)
  have onlyNew : ∀ c' ∈ published, c'.inboxLevel = c.inboxLevel → c' = c := by
    intro c' member same
    have above : lcc.inboxLevel < c.inboxLevel := Int.ofNat_lt.1 refined.above
    obtain ⟨h', pending, there⟩ := honoured.staked c' member (same ▸ above)
    have listed := (refined.pending_mono free inv.addressed pending).listed
    rw [same] at listed
    cases refined.single h' listed (staked there)
    exact free.injective c' c h (inv.addressed h c' pending.contents) refined.hashed
  refine ⟨List.forall_mem_cons.2 ⟨?_, ?_⟩, List.forall_mem_cons.2 ⟨?_, honoured.linked⟩, ?_, ?_⟩
  · intro _
    refine ⟨h, refined.pending, ?_⟩
    rw [refined.stakers]
    exact mem_get_add.2 (.inl ⟨rfl, rfl⟩)
  · intro c' member above
    obtain ⟨h', pending, there⟩ := honoured.staked c' member above
    exact ⟨h', refined.pending_mono free inv.addressed pending, staked there⟩
  · obtain ⟨pred, found, _, level⟩ := refined.level_eq inv.regular
    exact ⟨pred, inv.addressed _ _ found, level⟩
  · obtain ⟨last, before, bound⟩ := honoured.level
    obtain ⟨last', found, after⟩ := refined.level
    cases before.symm.trans found
    refine ⟨_, after, List.forall_mem_cons.2 ⟨Int.le_max_right _ _, ?_⟩⟩
    intro c' member
    exact Int.le_trans (bound c' member) (Int.le_max_left _ _)
  · intro c₁ member₁ c₂ member₂ same
    rcases List.mem_cons.1 member₁ with new₁ | old₁ <;>
      rcases List.mem_cons.1 member₂ with new₂ | old₂
    · rw [new₁, new₂]
    · rw [new₁]
      exact (onlyNew c₂ old₂ (same.symm.trans (congrArg _ new₁))).symm
    · rw [new₂]
      exact onlyNew c₁ old₁ (same.trans (congrArg _ new₂))
    · exact honoured.distinct c₁ old₁ c₂ old₂ same

theorem RunInvariant.published (free : CollisionFree P) (inv : RunInvariant P genesis lcc older s log)
    (found : s.stakerIndex.find staker = some index) (refined : Refined P index lcc.inboxLevel h c s s') :
    RunInvariant P genesis lcc older s' (.published staker c :: log) := by
  have commitments := refined.commitmentsInvariant free inv.commitments
  refine ⟨inv.chain, commitments, refined.stakersInvariant inv.stakers free inv.commitments commitments,
    ?_, ?_, ?_⟩
  · intro staker' absent
    rw [refined.stakerIndex] at absent
    have other : staker ≠ staker' := by
      rintro rfl
      exact nomatch found.symm.trans absent
    rw [publishedWhileActive, if_neg other]
    exact inv.inactive staker' absent
  · intro staker' index' there
    rw [refined.stakerIndex] at there
    by_cases own : staker = staker'
    · subst own
      cases found.symm.trans there
      rw [publishedWhileActive, if_pos rfl]
      exact (inv.honoured staker index found).published free inv.commitments refined
    · rw [publishedWhileActive, if_neg own]
      refine (inv.honoured staker' index' there).imp
        (fun _ _ => refined.pending_mono free inv.commitments.addressed) ?_ ?_
      · intro hash staked
        rw [refined.stakers]
        exact mem_get_add.2 (.inr staked)
      · exact refined.others index' fun same =>
          own (inv.stakers.unique staker staker' index found (same ▸ there))
  · intro h' c' above
    rw [refined.commitments, find_add, publications, List.mem_cons]
    split
    · next same =>
      subst same
      refine ⟨?_, fun published => ?_⟩
      · rintro ⟨⟩
        exact ⟨refined.hashed, .inl rfl⟩
      · rw [free.injective c c' _ refined.hashed published.1]
    · next other =>
      rw [inv.contents h' c' above]
      refine and_congr_right fun hashed => (or_iff_right ?_).symm
      rintro rfl
      exact other (Option.some.inj (hashed.symm.trans refined.hashed))

theorem RunInvariant.cemented (free : CollisionFree P) (inv : RunInvariant P genesis lcc older s log)
    {lccHash : T.CommitmentHash} (hashed : P.commitmentHash lcc = some lccHash) {next : Int}
    (sum : next = wrap32 (lcc.inboxLevel + P.constants.commitmentPeriodInBlocks))
    {dangling} (found : Found s lccHash next h c dangling) :
    RunInvariant P genesis c (lcc :: older) (cleaned P (lcc :: older) s h c.inboxLevel dangling)
      (.cemented c :: log) := by
  have commitments := found.commitmentsInvariant free inv.commitments sum hashed
  obtain ⟨_, pending⟩ := found.candidate_pending free inv.commitments sum
  refine ⟨congrArg (c :: ·) inv.chain, commitments,
    stakersInvariant_cleaned inv.stakers c.inboxLevel dangling, inv.inactive, ?_, ?_⟩
  · intro staker index there
    obtain ⟨staked, linked, level, distinct⟩ := inv.honoured staker index there
    refine ⟨?_, linked, level, distinct⟩
    intro c' member above
    obtain ⟨h', pending', staked⟩ := staked c' member (Nat.lt_trans pending.above above)
    have other : c'.inboxLevel ≠ c.inboxLevel := Nat.ne_of_gt above
    refine ⟨h', found.pending_later free inv.commitments sum pending' other, ?_⟩
    change index ∈ SetOutOfList.get (s.commitmentStakers.removeAll (h :: dangling)) h'
    rw [SetOutOfList.get, find_removeAll, if_neg fun member =>
      other ((found.mem_iff free inv.commitments sum h' c' pending').1 member)]
    exact staked
  · intro h' c' later
    have above := Nat.lt_trans pending.above later
    refine ⟨fun there => (inv.contents h' c' above).1 ?_, fun published => ?_⟩
    · rw [find_cleaned] at there
      split at there
      · cases there
      · exact there
    · have pending' := inv.commitments.pending_of_find ((inv.contents h' c' above).2 published) above
      exact (found.pending_later free inv.commitments sum pending' (Nat.ne_of_gt later)).contents

theorem RunInvariant.publish (free : CollisionFree P) (inv : RunInvariant P genesis lcc older s log)
    {added : Int} (returned : publishCommitment P level s staker c = .ok (h, added, s')) :
    RunInvariant P genesis lcc older s' (.published staker c :: log) := by
  obtain ⟨_, hashed, _⟩ := inv.commitments.lastCemented
  obtain ⟨_, returned⟩ := unit_bind_eq_ok.1 returned
  obtain ⟨⟨lccHash, lccLevel⟩, last, returned⟩ := bind_eq_ok.1 returned
  obtain ⟨_, returned⟩ := unit_bind_eq_ok.1 returned
  obtain ⟨⟨middle, index⟩, indexed, returned⟩ := bind_eq_ok.1 returned
  have refined := refineStake_eq_ok returned
  rw [lastCementedCommitmentHashWithLevel_eq free inv.commitments hashed] at last
  cases last
  rcases indexOfStaker_eq_ok indexed with ⟨found, rfl⟩ | ⟨absent, rfl, ledger, rfl⟩
  · exact inv.published free found refined
  · exact (inv.withStaker absent ledger).published free (find_add_self _ _ _) refined

theorem withdrawStake_eq_ok (h : withdrawStake P s staker = .ok s') :
    ∃ index ledger, s.stakerIndex.find staker = some index ∧ s' = withoutStaker s ledger staker index := by
  obtain ⟨_, _, h⟩ := bind_eq_ok.1 h
  obtain ⟨_, _, h⟩ := bind_eq_ok.1 h
  obtain ⟨_, h⟩ := unit_bind_eq_ok.1 h
  obtain ⟨ledger, _, h⟩ := bind_eq_ok.1 h
  obtain ⟨index, found, shape⟩ := stakerIndex_removeStaker_eq_ok h
  exact ⟨index, ledger, found, shape⟩

theorem RunInvariant.step (free : CollisionFree P) (inv : RunInvariant P genesis lcc older s log)
    {operation} {event} (applied : applyOperation P level s operation = .ok (s', event)) :
    ∃ lcc' older', RunInvariant P genesis lcc' older' s' (event :: log) := by
  cases operation with
  | publish staker c =>
    obtain ⟨⟨h, added, after⟩, returned, shape⟩ := bind_eq_ok.1 applied
    cases shape
    exact ⟨lcc, older, inv.publish free returned⟩
  | cement =>
    obtain ⟨⟨after, c, h⟩, returned, shape⟩ := bind_eq_ok.1 applied
    cases shape
    obtain ⟨lccHash, hashed, _⟩ := inv.commitments.lastCemented
    obtain ⟨dangling, found, rfl⟩ :=
      (cementCommitment_eq_ok free inv.commitments hashed).1 returned
    exact ⟨c, lcc :: older, inv.cemented free hashed rfl (findCommitmentToCement_eq_ok found)⟩
  | remove staker =>
    obtain ⟨⟨after, updates⟩, returned, shape⟩ := bind_eq_ok.1 applied
    cases shape
    obtain ⟨⟨ledger, _⟩, _, returned⟩ := bind_eq_ok.1 returned
    obtain ⟨removed, gone, returned⟩ := bind_eq_ok.1 returned
    cases returned
    obtain ⟨index, found, rfl⟩ := stakerIndex_removeStaker_eq_ok gone
    exact ⟨lcc, older, inv.withoutStaker found ledger⟩
  | withdraw staker =>
    obtain ⟨after, returned, shape⟩ := bind_eq_ok.1 applied
    cases shape
    obtain ⟨index, ledger, found, rfl⟩ := withdrawStake_eq_ok returned
    exact ⟨lcc, older, inv.withoutStaker found ledger⟩

theorem Reached.invariant (free : CollisionFree P)
    (reached : Reached P genesis level s log) : ∃ lcc older, RunInvariant P genesis lcc older s log := by
  induction reached with
  | originated commitment small h =>
    subst commitment
    refine ⟨_, [], rfl, commitmentsInvariant_originate h rfl small,
      stakersInvariant_originate h, fun _ _ => rfl, ?_, ?_⟩
    · intro staker index found
      obtain ⟨_, _, rfl⟩ := originate_eq_ok h
      cases found
    · intro hash c above
      obtain ⟨_, _, rfl⟩ := originate_eq_ok h
      refine ⟨fun there => ?_, nofun⟩
      change (add ∅ _ _).find hash = some c at there
      rw [find_add] at there
      split at there
      · cases there
        exact absurd above (Nat.lt_irrefl _)
      · cases there
  | elsewhere _ ledger whitelist ih =>
    obtain ⟨lcc, older, inv⟩ := ih
    exact ⟨lcc, older, inv.elsewhere ledger whitelist⟩
  | step _ _ applied ih =>
    obtain ⟨lcc, older, inv⟩ := ih
    exact inv.step free applied

end Staker

section Symbolic

inductive SymbolicHash where
  | zero
  | commitment (compressedState : Nat) (inboxLevel : Nat) (predecessor : SymbolicHash)
      (numberOfTicks : Nat)
deriving DecidableEq

abbrev symbolicTypes : RollupTypes where
  toGameTypes := ⟨Nat, Nat, Nat, Unit, Unit, Unit⟩
  Staker := Nat
  CommitmentHash := SymbolicHash
  Ledger := Unit

def smallConstants : Constants where
  commitmentPeriodInBlocks := 2
  challengeWindowInBlocks := 4
  maxLookaheadInBlocks := 100
  timeoutPeriodInBlocks := 10
  maxNumberOfStoredCementedCommitments := 1
  maxNumberOfParallelGames := 2
  numberOfSectionsInDissection := 3
  privateEnable := false
  period_pos := by decide
  period_lt := by decide
  timeout_int31 := by decide
  stored_pos := Nat.one_pos

def symbolicProtocol : Protocol symbolicTypes where
  constants := smallConstants
  commitmentHash c :=
    some (.commitment c.compressedState c.inboxLevel c.predecessor c.numberOfTicks)
  zeroHash := .zero
  tokens :=
    { deposit := fun _ ledger => .ok ledger
      withdraw := fun _ ledger => .ok ledger
      punish := fun _ ledger => .ok (ledger, true)
      reward := fun _ ledger => .ok ledger }

theorem symbolicProtocol_collisionFree : CollisionFree symbolicProtocol where
  injective := by
    rintro ⟨⟩ ⟨⟩ h first second
    cases first
    cases second
    rfl
  nonzero := by
    intro c zero
    cases zero

def symbolicGenesis : symbolicTypes.Commitment :=
  genesisCommitment symbolicProtocol 0 0

def genesisHash : SymbolicHash := .commitment 0 0 .zero 0

def firstCommitment : symbolicTypes.Commitment where
  compressedState := 1
  inboxLevel := 2
  predecessor := genesisHash
  numberOfTicks := 5

def firstHash : SymbolicHash := .commitment 1 2 genesisHash 5

def publishedStorage : Storage symbolicTypes where
  ledger := ()
  whitelist := ∅
  lastCementedCommitment := some genesisHash
  commitments := (add ∅ genesisHash symbolicGenesis).add firstHash firstCommitment
  commitmentAdded := (add ∅ genesisHash 0).add firstHash 3
  commitmentFirstPublicationLevel := (add ∅ 0 0).add 2 3
  commitmentsPerInboxLevel := (add ∅ 0 [genesisHash]).add 2 [firstHash]
  commitmentStakers := add ∅ firstHash [0]
  stakerIndexCounter := 1
  stakerIndex := add ∅ 7 0
  stakers := (add ∅ 0 0).add 0 2

theorem publishedStorage_reached : Reached symbolicProtocol symbolicGenesis 3 publishedStorage
    [.published 7 firstCommitment] := by
  have start : Reached symbolicProtocol symbolicGenesis 0 _ [] :=
    .originated rfl (by decide) (show originate symbolicProtocol () ∅ symbolicGenesis = _ from rfl)
  exact start.step (show (0 : Int) ≤ 3 by decide)
    (show applyOperation symbolicProtocol 3 _ (.publish 7 firstCommitment) = _ from rfl)

end Symbolic

theorem filter_eq_take {α : Type} {stored : α → Bool} {n : Nat} (items : List α)
    (stored_iff : ∀ i item, items[i]? = some item → (stored item = true ↔ i < n)) :
    items.filter stored = items.take n := by
  induction items generalizing n with
  | nil => simp
  | cons item items ih =>
    have here := stored_iff 0 item rfl
    cases n with
    | zero =>
      have none' : stored item = false := by
        rw [← Bool.not_eq_true, here]
        exact Nat.lt_irrefl 0
      have rest := ih (n := 0) fun i later found =>
        (stored_iff (i + 1) later found).trans (by omega)
      rw [List.filter_cons_of_neg (by rw [none']; exact Bool.false_ne_true), rest]
      rfl
    | succ n =>
      rw [List.filter_cons_of_pos (here.2 (Nat.succ_pos n)), List.take_succ_cons]
      exact congrArg _ (ih fun i later found =>
        (stored_iff (i + 1) later found).trans (by omega))

section Guarantees
variable {T : RollupTypes} [DecidableEq T.CommitmentHash] {P : Protocol T} {s s' : Storage T}
  {genesis lcc c : T.Commitment} {older : List T.Commitment} {h lccHash : T.CommitmentHash}
  {log : List (Event T)} {staker : T.Staker} {index : Nat}

/-- Nothing of an inbox level remains but the contents of its cemented commitment. -/
structure OnlyCemented (P : Protocol T) (s : Storage T) (level : Int) (h : T.CommitmentHash)
    (c : T.Commitment) : Prop where
  lastCemented : s.lastCementedCommitment = some h
  contents : s.commitments.find h = some c
  others : ∀ hash c', s.commitments.find hash = some c' → (c'.inboxLevel : Int) = level → c' = c
  perLevel : s.commitmentsPerInboxLevel.find level = none
  firstPublished : s.commitmentFirstPublicationLevel.find level = none
  added : ∀ c' hash, P.commitmentHash c' = some hash → (c'.inboxLevel : Int) = level →
    s.commitmentAdded.find hash = none
  stakers : ∀ c' hash, P.commitmentHash c' = some hash → (c'.inboxLevel : Int) = level →
    s.commitmentStakers.find hash = none

def isStored (P : Protocol T) (s : Storage T) (c : T.Commitment) : Bool :=
  (P.commitmentHash c).any s.commitments.mem

theorem filter_isStored (inv : CommitmentsInvariant P genesis lcc older s) :
    (lcc :: older).filter (isStored P s) =
      (lcc :: older).take P.constants.maxNumberOfStoredCementedCommitments := by
  apply filter_eq_take
  intro i c found
  obtain ⟨h, hashed⟩ := inv.linked.hashed (List.mem_of_getElem? found)
  rw [isStored, hashed]
  exact inv.stored i c h found hashed

theorem Found.onlyCemented (free : CollisionFree P) (inv : CommitmentsInvariant P genesis lcc older s)
    {next : Int} (sum : next = wrap32 (lcc.inboxLevel + P.constants.commitmentPeriodInBlocks))
    (hashed : P.commitmentHash lcc = some lccHash) {dangling} (found : Found s lccHash next h c dangling) :
    OnlyCemented P (cleaned P (lcc :: older) s h c.inboxLevel dangling) next h c := by
  obtain ⟨level, pending⟩ := found.candidate_pending free inv sum
  have after := found.commitmentsInvariant free inv sum hashed
  -- a commitment of this level is not pending any more, and only the last of the chain is this high
  have notPending : ∀ {hash c'}, (c'.inboxLevel : Int) = next →
      ¬Pending (cleaned P (lcc :: older) s h c.inboxLevel dangling) c.inboxLevel hash c' := by
    intro hash c' same pending'
    have above := pending'.above
    omega
  have notGenesis : ∀ {hash c'}, P.commitmentHash c' = some hash → (c'.inboxLevel : Int) = next →
      P.commitmentHash genesis ≠ some hash := by
    intro hash c' hashed' same first
    cases free.injective c' genesis hash hashed' first
    have below := inv.linked.level_le inv.linked.genesis_mem
    have above := pending.above
    omega
  subst level
  refine ⟨rfl, stored_contents free after P.constants.stored_pos rfl
    (inv.addressed h c pending.contents), ?_, ?_, ?_, ?_, ?_⟩
  · intro hash c' there same
    rcases after.known hash c' there with member | pending'
    · rcases List.mem_cons.1 member with rfl | member
      · rfl
      · have below := inv.linked.level_le member
        have above := pending.above
        omega
    · exact absurd pending' (notPending same)
  · change (s.commitmentsPerInboxLevel.remove _).find _ = none
    rw [find_remove, if_pos rfl]
  · change (s.commitmentFirstPublicationLevel.remove _).find _ = none
    rw [find_remove, if_pos rfl]
  · intro c' hash hashed' same
    apply mem_eq_false.1
    apply Bool.eq_false_iff.2
    intro added
    rcases after.addedOnly hash added with first | ⟨c'', pending'⟩
    · exact notGenesis hashed' same first
    · rw [after.pending_eq free pending' hashed'] at pending'
      exact notPending same pending'
  · intro c' hash hashed' same
    apply mem_eq_false.1
    apply Bool.eq_false_iff.2
    intro staked
    obtain ⟨c'', pending'⟩ := after.stakedOnly hash staked
    rw [after.pending_eq free pending' hashed'] at pending'
    exact notPending same pending'

variable [DecidableEq T.Staker]

section
variable (free : CollisionFree P) (inv : RunInvariant P genesis lcc older s log)
  (active : s.stakerIndex.find staker = some index) (published : c ∈ publishedWhileActive staker log)
include free inv active published

theorem RunInvariant.cement_eq (onLast : s.lastCementedCommitment = some c.predecessor) {level : Int}
    {c'} (returned : cementCommitment P level s = .ok (s', c', h)) :
    c' = c ∧ s'.lastCementedCommitment = P.commitmentHash c := by
  obtain ⟨lccHash, hashed, last⟩ := inv.commitments.lastCemented
  cases last.symm.trans onLast
  have honoured := inv.honoured staker index active
  obtain ⟨pred, predHashed, level_eq⟩ := honoured.linked c published
  cases free.injective pred lcc _ predHashed hashed
  have above : lcc.inboxLevel < c.inboxLevel := by
    have positive := P.constants.period_pos
    omega
  obtain ⟨own, pending, staked⟩ := honoured.staked c published above
  obtain ⟨dangling, found, rfl⟩ := (cementCommitment_eq_ok free inv.commitments hashed).1 returned
  have found := findCommitmentToCement_eq_ok found
  obtain ⟨newLevel, newPending⟩ := found.candidate_pending free inv.commitments rfl
  have sameLevel := nextLevel_eq free inv.commitments newLevel rfl
  have candidate : Candidate s c.predecessor own c :=
    ⟨pending.contents, rfl, index, staked, (inv.stakers.active index).2 ⟨staker, active⟩⟩
  have member := (found.mem_iff free inv.commitments rfl own c pending).2
    (level_eq.trans sameLevel.symm)
  rcases List.mem_cons.1 member with rfl | dangles
  · cases Option.some.inj (pending.contents.symm.trans newPending.contents)
    exact ⟨rfl, (inv.commitments.addressed own c pending.contents).symm⟩
  · exact absurd candidate (found.others own dangles c)

theorem RunInvariant.withdraw_eq (above : lcc.inboxLevel < c.inboxLevel) :
    withdrawStake P s staker = tzfail .notStakedOnLccOrAncestor := by
  obtain ⟨lccHash, hashed, _⟩ := inv.commitments.lastCemented
  obtain ⟨last, found, bound⟩ := (inv.honoured staker index active).level
  have stakedAbove : ¬last ≤ (lcc.inboxLevel : Int) := by
    have atMost := bound c published
    omega
  have indexed : StakerIndex.getStakerIndexUnsafe s staker = .ok index := by
    rw [StakerIndex.getStakerIndexUnsafe, active]
  have refused : assertStakedOnLccOrAncestor s index lcc.inboxLevel = tzfail .notStakedOnLccOrAncestor := by
    rw [assertStakedOnLccOrAncestor, get_eq_ok.2 found, liftError_ok, ok_bind, decide_eq_false stakedAbove]
    rfl
  rw [withdrawStake, lastCementedCommitmentHashWithLevel_eq free inv.commitments hashed, ok_bind]
  dsimp only
  rw [indexed, ok_bind, refused]
  rfl

end

theorem active_staker_not_overruled (free : CollisionFree P) {level : Int}
    (reached : Reached P genesis level s log) (active : s.stakerIndex.find staker = some index) :
    (∀ c ∈ publishedWhileActive staker log, s.lastCementedCommitment = some c.predecessor →
      ∀ level' s' c' h, cementCommitment P level' s = .ok (s', c', h) →
        c' = c ∧ s'.lastCementedCommitment = P.commitmentHash c) ∧
    (∀ c ∈ publishedWhileActive staker log, ∀ c' ∈ publishedWhileActive staker log,
      c.inboxLevel = c'.inboxLevel → c = c') ∧
    ∃ lccHash lccLevel, lastCementedCommitmentHashWithLevel s = .ok (lccHash, lccLevel) ∧
      ∀ c ∈ publishedWhileActive staker log, lccLevel < c.inboxLevel →
        withdrawStake P s staker = tzfail .notStakedOnLccOrAncestor := by
  obtain ⟨lcc, older, inv⟩ := reached.invariant free
  obtain ⟨lccHash, hashed, _⟩ := inv.commitments.lastCemented
  refine ⟨?_, (inv.honoured staker index active).distinct, lccHash, lcc.inboxLevel, ?_, ?_⟩
  · intro c published onLast level' s' c' h returned
    exact inv.cement_eq free active published onLast returned
  · exact lastCementedCommitmentHashWithLevel_eq free inv.commitments hashed
  · intro c published above
    exact inv.withdraw_eq free active published (Int.ofNat_lt.1 above)

theorem firstCommitment_not_overruled :
    publishedStorage.stakerIndex.find 7 = some 0 ∧
      publishedStorage.lastCementedCommitment = some firstCommitment.predecessor ∧
      ∀ level s' c h, cementCommitment symbolicProtocol level publishedStorage = .ok (s', c, h) →
        c = firstCommitment := by
  refine ⟨rfl, rfl, ?_⟩
  intro level s' c h returned
  exact ((active_staker_not_overruled symbolicProtocol_collisionFree publishedStorage_reached
    (show publishedStorage.stakerIndex.find 7 = some 0 from rfl)).1 firstCommitment
    List.mem_cons_self rfl level s' c h returned).1

def otherCommitment : symbolicTypes.Commitment := { firstCommitment with compressedState := 2 }

/-- A staker publishes, is removed and publishes another commitment of the same level, which is the one
that is cemented. -/
theorem readded_staker_overruled : ∃ s, Reached symbolicProtocol symbolicGenesis 3 s
    [.published 7 otherCommitment, .left 7, .published 7 firstCommitment] ∧ s.stakerIndex.find 7 = some 1 ∧
      s.lastCementedCommitment = some firstCommitment.predecessor ∧
      otherCommitment.inboxLevel = firstCommitment.inboxLevel ∧ otherCommitment ≠ firstCommitment ∧
      ∃ s' h, cementCommitment symbolicProtocol 8 s = .ok (s', otherCommitment, h) := by
  have removed := publishedStorage_reached.step (Int.le_refl 3)
    (show applyOperation symbolicProtocol 3 _ (.remove 7) = .ok (_, _) from rfl)
  have again := removed.step (Int.le_refl 3)
    (show applyOperation symbolicProtocol 3 _ (.publish 7 otherCommitment) = .ok (_, _) from rfl)
  exact ⟨_, again, rfl, rfl, rfl, by decide, _, _, rfl⟩

theorem cementation_total_and_clean (free : CollisionFree P) {level level' : Int}
    (reached : Reached P genesis level s log) {lccLevel newLevel : Int}
    (last : lastCementedCommitmentHashWithLevel s = .ok (lccHash, lccLevel))
    (next : addLevel lccLevel P.constants.commitmentPeriodInBlocks = .ok newLevel)
    {dangling : List T.CommitmentHash}
    (found : findCommitmentToCement P level' s lccHash newLevel = .ok ((c, h), dangling)) :
    ∃ s', cementCommitment P level' s = .ok (s', c, h) ∧ OnlyCemented P s' newLevel h c ∧
      (c :: cemented genesis log).filter (isStored P s') =
        (c :: cemented genesis log).take P.constants.maxNumberOfStoredCementedCommitments := by
  obtain ⟨lcc, older, inv⟩ := reached.invariant free
  obtain ⟨hash, hashed, _⟩ := inv.commitments.lastCemented
  rw [lastCementedCommitmentHashWithLevel_eq free inv.commitments hashed] at last
  cases last
  have sum := addLevel_eq_ok.1 next
  have candidate := findCommitmentToCement_eq_ok found
  rw [inv.chain]
  refine ⟨_, (cementCommitment_eq_ok free inv.commitments hashed).2 ⟨dangling, ?_, rfl⟩,
    candidate.onlyCemented free inv.commitments sum hashed,
    filter_isStored (candidate.commitmentsInvariant free inv.commitments sum hashed)⟩
  rw [← sum]
  exact found

theorem firstCommitment_cemented_clean :
    ∃ s', cementCommitment symbolicProtocol 8 publishedStorage =
        .ok (s', firstCommitment, firstHash) ∧ OnlyCemented symbolicProtocol s' 2 firstHash firstCommitment ∧
      [firstCommitment, symbolicGenesis].filter (isStored symbolicProtocol s') = [firstCommitment] := by
  have last : lastCementedCommitmentHashWithLevel publishedStorage = .ok (genesisHash, 0) := rfl
  have next : addLevel 0 smallConstants.commitmentPeriodInBlocks = .ok 2 := by decide
  have found : findCommitmentToCement symbolicProtocol 8 publishedStorage genesisHash 2 =
      .ok ((firstCommitment, firstHash), []) := by
    have candidate : cementableCandidateCommitmentOfInboxLevel publishedStorage genesisHash 2 =
        .ok (some (firstCommitment, firstHash), []) := rfl
    have added : publishedStorage.commitmentAdded.get firstHash = .ok 3 := rfl
    have minLevel : addLevel 3 symbolicProtocol.constants.challengeWindowInBlocks = .ok 7 := by
      decide
    rw [findCommitmentToCement, candidate, ok_bind]
    dsimp only
    rw [added, liftError_ok, ok_bind, minLevel]
    rfl
  exact cementation_total_and_clean symbolicProtocol_collisionFree publishedStorage_reached last
    next found

/-- The commitments published above the last cemented level are pending. -/
theorem stored_commitments_exact (free : CollisionFree P) {level : Int}
    (reached : Reached P genesis level s log) :
    ∃ lcc, (cemented genesis log).head? = some lcc ∧ Linked P genesis (cemented genesis log) ∧ ∀ h,
      (s.commitmentStakers.mem h = true ↔
        ∃ c ∈ publications log, lcc.inboxLevel < c.inboxLevel ∧ P.commitmentHash c = some h) ∧
      ∀ c, s.commitments.find h = some c ↔ P.commitmentHash c = some h ∧
        (c ∈ (cemented genesis log).take P.constants.maxNumberOfStoredCementedCommitments ∨
          c ∈ publications log ∧ lcc.inboxLevel < c.inboxLevel) := by
  obtain ⟨lcc, older, chain, inv, -, -, -, contents⟩ := reached.invariant free
  rw [chain, ← filter_isStored inv]
  refine ⟨lcc, rfl, inv.linked, fun h => ⟨⟨fun staked => ?_, ?_⟩, fun c => ⟨fun found => ?_, ?_⟩⟩⟩
  · obtain ⟨c, pending⟩ := inv.stakedOnly h staked
    obtain ⟨hashed, published⟩ := (contents h c pending.above).1 pending.contents
    exact ⟨c, published, pending.above, hashed⟩
  · rintro ⟨c, published, above, hashed⟩
    exact (inv.pending_of_find ((contents h c above).2 ⟨hashed, published⟩) above).staked
  · have hashed := inv.addressed h c found
    refine ⟨hashed, (inv.known h c found).imp (fun old => List.mem_filter.2 ⟨old, ?_⟩) fun pending => ?_⟩
    · rw [isStored, hashed]
      exact Table.mem_eq_true.2 ⟨c, found⟩
    · exact ⟨((contents h c pending.above).1 found).2, pending.above⟩
  · rintro ⟨hashed, kept | ⟨published, above⟩⟩
    · have stored := (List.mem_filter.1 kept).2
      rw [isStored, hashed] at stored
      obtain ⟨c', found⟩ := Table.mem_eq_true.1 stored
      rw [found, free.injective c' c h (inv.addressed h c' found) hashed]
    · exact (contents h c above).2 ⟨hashed, published⟩

/-- Once the commitment is cemented only its contents are stored. -/
theorem firstCommitment_stored : ∃ s, Reached symbolicProtocol symbolicGenesis 8 s
      [.cemented firstCommitment, .published 7 firstCommitment] ∧ (∀ h, s.commitmentStakers.mem h = false) ∧
      ∀ h c, s.commitments.find h = some c ↔ h = firstHash ∧ c = firstCommitment := by
  have reached := publishedStorage_reached.step (show (3 : Int) ≤ 8 by decide)
    (show applyOperation symbolicProtocol 8 _ .cement = .ok (_, _) from rfl)
  obtain ⟨lcc, head, -, tables⟩ := stored_commitments_exact symbolicProtocol_collisionFree reached
  cases head
  refine ⟨_, reached, fun h => ?_, fun h c => ((tables h).2 c).trans ⟨?_, ?_⟩⟩
  · refine Bool.eq_false_iff.2 fun staked => ?_
    obtain ⟨c, published, above, -⟩ := (tables h).1.1 staked
    cases List.mem_singleton.1 published
    exact absurd above (Nat.lt_irrefl _)
  · rintro ⟨hashed, kept | ⟨published, above⟩⟩
    · cases List.mem_singleton.1 kept
      exact ⟨(Option.some.inj hashed).symm, rfl⟩
    · cases List.mem_singleton.1 published
      exact absurd above (Nat.lt_irrefl _)
  · rintro ⟨rfl, rfl⟩
    exact ⟨rfl, .inl List.mem_cons_self⟩

end Guarantees

end Octez.Proof.RollupStorage
