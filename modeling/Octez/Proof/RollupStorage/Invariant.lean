import Octez.Model.RollupStorage.Stake

namespace Octez.Proof.RollupStorage
open Octez.Lib Octez.Game Octez.RollupStorage

variable {T : RollupTypes}

/-- The hash of commitments has no collision and never is the zero hash. -/
structure CollisionFree (P : Protocol T) : Prop where
  injective : ∀ c c' h, P.commitmentHash c = some h → P.commitmentHash c' = some h → c = c'
  nonzero : ∀ c, P.commitmentHash c ≠ some P.zeroHash

inductive Linked (P : Protocol T) (genesis : T.Commitment) : List T.Commitment → Prop
  | genesis {h : T.CommitmentHash} (hashed : P.commitmentHash genesis = some h)
      (first : genesis.predecessor = P.zeroHash) : Linked P genesis [genesis]
  | cons {c lcc : T.Commitment} {older : List T.Commitment}
      {h : T.CommitmentHash} (linked : Linked P genesis (lcc :: older)) (hashed : P.commitmentHash c = some h)
      (predecessor : P.commitmentHash lcc = some c.predecessor)
      (level : c.inboxLevel = lcc.inboxLevel + P.constants.commitmentPeriodInBlocks)
      (above : lcc.inboxLevel < c.inboxLevel) : Linked P genesis (c :: lcc :: older)

section Chain
variable {P : Protocol T} {genesis lcc c : T.Commitment} {chain older : List T.Commitment}

theorem Linked.hashed (linked : Linked P genesis chain) (member : c ∈ chain) :
    ∃ h, P.commitmentHash c = some h := by
  induction linked with
  | genesis hashed =>
    cases List.mem_singleton.1 member
    exact ⟨_, hashed⟩
  | cons _ hashed _ _ _ ih =>
    rcases List.mem_cons.1 member with rfl | member
    · exact ⟨_, hashed⟩
    · exact ih member

theorem Linked.genesis_mem (linked : Linked P genesis chain) : genesis ∈ chain := by
  induction linked with
  | genesis => exact List.mem_cons_self
  | cons _ _ _ _ _ ih => exact List.mem_cons_of_mem _ ih

theorem Linked.level_le (linked : Linked P genesis (lcc :: older)) (member : c ∈ lcc :: older) :
    c.inboxLevel ≤ lcc.inboxLevel := by
  generalize shape : lcc :: older = chain at linked
  induction linked generalizing lcc older with
  | genesis =>
    cases shape
    cases List.mem_singleton.1 member
    exact le_rfl
  | cons _ _ _ _ above ih =>
    cases shape
    rcases List.mem_cons.1 member with rfl | member
    · exact le_rfl
    · exact Nat.le_trans (ih member rfl) (Nat.le_of_lt above)

theorem Linked.nodup (linked : Linked P genesis chain) : chain.Nodup := by
  induction linked with
  | genesis => exact List.nodup_singleton _
  | cons linked hashed predecessor level above ih =>
    refine List.nodup_cons.2 ⟨fun member => ?_, ih⟩
    exact absurd above (Nat.not_lt.2 (linked.level_le member))

theorem Linked.aligned (linked : Linked P genesis chain) (member : c ∈ chain) :
    ∃ k, c.inboxLevel = genesis.inboxLevel + k * P.constants.commitmentPeriodInBlocks := by
  induction linked generalizing c with
  | genesis =>
    cases List.mem_singleton.1 member
    exact ⟨0, by simp⟩
  | cons _ _ _ level _ ih =>
    rcases List.mem_cons.1 member with rfl | member
    · obtain ⟨k, aligned⟩ := ih List.mem_cons_self
      exact ⟨k + 1, by rw [level, aligned, Nat.succ_mul, Nat.add_assoc]⟩
    · exact ih member

end Chain

/-- The inbox level of a commitment is an `int32`, a whole number of periods after the genesis, and
one period after its predecessor. -/
structure Regular (P : Protocol T) (genesis c : T.Commitment) : Prop where
  int32 : c.inboxLevel < 2 ^ 31
  aligned : ∃ k, c.inboxLevel = genesis.inboxLevel + k * P.constants.commitmentPeriodInBlocks
  predecessor : c = genesis ∨ ∃ pred, P.commitmentHash pred = some c.predecessor ∧
    c.inboxLevel = pred.inboxLevel + P.constants.commitmentPeriodInBlocks

variable [DecidableEq T.CommitmentHash]

structure Pending (s : Storage T) (lccLevel : Nat) (h : T.CommitmentHash) (c : T.Commitment) : Prop where
  contents : s.commitments.find h = some c
  above : lccLevel < c.inboxLevel
  listed : h ∈ SetOutOfList.get s.commitmentsPerInboxLevel (c.inboxLevel : Int)
  added : s.commitmentAdded.mem h = true
  staked : s.commitmentStakers.mem h = true
  firstPublished : s.commitmentFirstPublicationLevel.mem (c.inboxLevel : Int) = true

structure CommitmentsInvariant (P : Protocol T) (genesis lcc : T.Commitment) (older : List T.Commitment)
    (s : Storage T) : Prop where
  linked : Linked P genesis (lcc :: older)
  lastCemented : ∃ h, P.commitmentHash lcc = some h ∧ s.lastCementedCommitment = some h
  addressed : ∀ h c, s.commitments.find h = some c → P.commitmentHash c = some h
  regular : ∀ h c, s.commitments.find h = some c → Regular P genesis c
  known : ∀ h c, s.commitments.find h = some c →
    c ∈ lcc :: older ∨ Pending s lcc.inboxLevel h c
  stored : ∀ i c h, (lcc :: older)[i]? = some c → P.commitmentHash c = some h →
    (s.commitments.mem h = true ↔ i < P.constants.maxNumberOfStoredCementedCommitments)
  listed : ∀ l h, h ∈ SetOutOfList.get s.commitmentsPerInboxLevel l →
    (P.commitmentHash genesis = some h ∧ l = genesis.inboxLevel) ∨
      ∃ c, (c.inboxLevel : Int) = l ∧ Pending s lcc.inboxLevel h c
  nodup : ∀ l, (SetOutOfList.get s.commitmentsPerInboxLevel l).Nodup
  addedOnly : ∀ h, s.commitmentAdded.mem h = true →
    P.commitmentHash genesis = some h ∨ ∃ c, Pending s lcc.inboxLevel h c
  stakedOnly : ∀ h, s.commitmentStakers.mem h = true → ∃ c, Pending s lcc.inboxLevel h c
  firstPublishedOnly : ∀ l, s.commitmentFirstPublicationLevel.mem l = true →
    l = genesis.inboxLevel ∨ ∃ h c, (c.inboxLevel : Int) = l ∧ Pending s lcc.inboxLevel h c

section Facts
variable {P : Protocol T} {genesis lcc c : T.Commitment} {older : List T.Commitment}
  {s : Storage T} {h : T.CommitmentHash}

section
variable (inv : CommitmentsInvariant P genesis lcc older s)
include inv

theorem CommitmentsInvariant.pending_eq (free : CollisionFree P) {c'}
    {level : Nat} (pending : Pending s level h c') (hashed : P.commitmentHash c = some h) : c' = c :=
  free.injective c' c h (inv.addressed h c' pending.contents) hashed

theorem CommitmentsInvariant.pending_of_find (found : s.commitments.find h = some c)
    (above : lcc.inboxLevel < c.inboxLevel) : Pending s lcc.inboxLevel h c :=
  (inv.known h c found).resolve_left fun old => absurd above (Nat.not_lt.2 (inv.linked.level_le old))

theorem CommitmentsInvariant.level_eq
    (free : CollisionFree P) {l : Int} (listed : h ∈ SetOutOfList.get s.commitmentsPerInboxLevel l)
    (hashed : P.commitmentHash c = some h) : (c.inboxLevel : Int) = l := by
  rcases inv.listed l h listed with ⟨first, rfl⟩ | ⟨c', rfl, pending⟩
  · rw [free.injective c genesis h hashed first]
  · rw [inv.pending_eq free pending hashed]

theorem CommitmentsInvariant.staked_pending (free : CollisionFree P) {index : Nat}
    (staked : index ∈ SetOutOfList.get s.commitmentStakers h)
    (hashed : P.commitmentHash c = some h) : Pending s lcc.inboxLevel h c := by
  have present : s.commitmentStakers.mem h = true := by
    rw [Table.mem_eq_true]
    cases found : s.commitmentStakers.find h with
    | none =>
      rw [SetOutOfList.get, found] at staked
      cases staked
    | some stakers => exact ⟨stakers, rfl⟩
  obtain ⟨c', pending⟩ := inv.stakedOnly h present
  rw [inv.pending_eq free pending hashed] at pending
  exact pending

end

end Facts

structure StakersInvariant [DecidableEq T.Staker] (s : Storage T) : Prop where
  active : ∀ index, s.stakers.mem index = true ↔ ∃ staker, s.stakerIndex.find staker = some index
  unique : ∀ staker staker' index, s.stakerIndex.find staker = some index →
    s.stakerIndex.find staker' = some index → staker = staker'
  bounded : ∀ staker index, s.stakerIndex.find staker = some index → index < s.stakerIndexCounter
  known : ∀ h, ∀ index ∈ SetOutOfList.get s.commitmentStakers h, index < s.stakerIndexCounter
  single : ∀ index l h h', h ∈ SetOutOfList.get s.commitmentsPerInboxLevel l →
    h' ∈ SetOutOfList.get s.commitmentsPerInboxLevel l → index ∈ SetOutOfList.get s.commitmentStakers h →
    index ∈ SetOutOfList.get s.commitmentStakers h' → h = h'

end Octez.Proof.RollupStorage
