import Octez.Proof.RollupStorage.Invariant

namespace Octez.Proof.RollupStorage
open Octez.Lib Octez.Game Octez.RollupStorage Octez.RefutationProof.DalHelpers SetOutOfList

section Sets
variable {Key Value : Type} [DecidableEq Key] {t : Table Key (List Value)}
  {key key' : Key} {value value' : Value}

theorem get_table_add (t : Table Key (List Value)) (key key' : Key) (values : List Value) :
    SetOutOfList.get (t.add key values) key' =
      if key' = key then values else SetOutOfList.get t key' := by
  rw [SetOutOfList.get, Table.find_add]
  split <;> rfl

theorem get_remove (t : Table Key (List Value)) (key key' : Key) :
    SetOutOfList.get (t.remove key) key' = if key' = key then [] else SetOutOfList.get t key' := by
  rw [SetOutOfList.get, Table.find_remove]
  split <;> rfl

variable [DecidableEq Value]

theorem get_add_of_not_mem (fresh : value ∉ SetOutOfList.get t key) :
    add t key value = (t.add key (value :: SetOutOfList.get t key), value :: SetOutOfList.get t key) := by
  simp [add, mem, fresh]

theorem get_add_of_mem (present : value ∈ SetOutOfList.get t key) :
    add t key value = (t, SetOutOfList.get t key) := by
  simp [add, mem, present]

theorem mem_get_add : value' ∈ SetOutOfList.get (add t key value).1 key' ↔
    (key' = key ∧ value' = value) ∨ value' ∈ SetOutOfList.get t key' := by
  by_cases present : value ∈ SetOutOfList.get t key
  · rw [get_add_of_mem present]
    refine (or_iff_right_of_imp ?_).symm
    rintro ⟨rfl, rfl⟩
    exact present
  · rw [get_add_of_not_mem present, get_table_add]
    by_cases same : key' = key <;> simp [same]

theorem nodup_get_add (nodup : (SetOutOfList.get t key').Nodup) :
    (SetOutOfList.get (add t key value).1 key').Nodup := by
  by_cases present : value ∈ SetOutOfList.get t key
  · rwa [get_add_of_mem present]
  · rw [get_add_of_not_mem present, get_table_add]
    split
    · next same => exact List.nodup_cons.2 ⟨present, same ▸ nodup⟩
    · exact nodup

theorem add_snd (t : Table Key (List Value)) (key : Key) (value : Value) :
    (add t key value).2 = SetOutOfList.get (add t key value).1 key := by
  by_cases present : value ∈ SetOutOfList.get t key
  · rw [get_add_of_mem present]
  · rw [get_add_of_not_mem present, get_table_add, if_pos rfl]

end Sets

section Publication
variable {T : RollupTypes} {P : Protocol T} {s s' : Storage T} {genesis lcc c : T.Commitment}
  {older : List T.Commitment} {h : T.CommitmentHash} {index : Nat} {level inboxLevel : Int}

theorem hash_eq_ok : RollupStorage.hash P c = .ok h ↔ P.commitmentHash c = some h := by
  unfold RollupStorage.hash
  split <;> simp_all

theorem addLevel_eq_ok {next : Int} {n : Nat} :
    addLevel level n = .ok next ↔ next = wrap32 (level + n) := by
  rw [addLevel, if_neg (Int.not_lt.2 (Int.natCast_nonneg n)), Except.ok.injEq, eq_comm]

theorem setStakerLevel_eq_ok (h : setStakerLevel s index inboxLevel = .ok s') :
    ∃ stakers last, s' = { s with stakers := stakers } ∧ s.stakers.find index = some last ∧
      stakers.find index = some (max last inboxLevel) ∧ ∀ i, i ≠ index → stakers.find i = s.stakers.find i := by
  obtain ⟨last, found, h⟩ := bind_eq_ok.1 h
  have found := Table.get_eq_ok.1 (liftError_eq_ok.1 found)
  by_cases later : last < inboxLevel
  · rw [if_pos later] at h
    obtain ⟨stakers, updated, h⟩ := bind_eq_ok.1 h
    cases h
    obtain ⟨_, rfl⟩ := Table.update_eq_ok.1 (liftError_eq_ok.1 updated)
    refine ⟨_, last, rfl, found, ?_, fun i other => Table.find_add_of_ne other⟩
    rw [Table.find_add_self, Int.max_eq_right (Int.le_of_lt later)]
  · rw [if_neg later] at h
    cases h
    refine ⟨_, last, rfl, found, ?_, fun _ _ => rfl⟩
    rw [found, Int.max_eq_left (Int.not_lt.1 later)]

variable [DecidableEq T.CommitmentHash] {u : Unit} {lccHash : T.CommitmentHash}

structure Refined (P : Protocol T) (index : Nat) (lccLevel : Int) (h : T.CommitmentHash) (c : T.Commitment)
    (s s' : Storage T) : Prop where
  hashed : P.commitmentHash c = some h
  above : lccLevel < c.inboxLevel
  predecessor : ∃ pred, s.commitments.find c.predecessor = some pred ∧
    (c.inboxLevel : Int) = wrap32 (pred.inboxLevel + P.constants.commitmentPeriodInBlocks)
  lastCemented : s'.lastCementedCommitment = s.lastCementedCommitment
  commitments : s'.commitments = s.commitments.add h c
  added : ∀ h', s'.commitmentAdded.mem h' = true ↔ h' = h ∨ s.commitmentAdded.mem h' = true
  firstPublished : ∀ l, s'.commitmentFirstPublicationLevel.mem l = true ↔
    l = c.inboxLevel ∨ s.commitmentFirstPublicationLevel.mem l = true
  perLevel : s'.commitmentsPerInboxLevel =
    (add s.commitmentsPerInboxLevel (c.inboxLevel : Int) h).1
  stakers : s'.commitmentStakers = (add s.commitmentStakers h index).1
  fresh : index ∉ SetOutOfList.get s.commitmentStakers h
  single : ∀ h' ∈ SetOutOfList.get s'.commitmentsPerInboxLevel (c.inboxLevel : Int),
    index ∈ SetOutOfList.get s'.commitmentStakers h' → h' = h
  counter : s'.stakerIndexCounter = s.stakerIndexCounter
  stakerIndex : s'.stakerIndex = s.stakerIndex
  level : ∃ last, s.stakers.find index = some last ∧
    s'.stakers.find index = some (max last c.inboxLevel)
  others : ∀ i, i ≠ index → s'.stakers.find i = s.stakers.find i

theorem getCommitmentUnsafe_eq_ok : getCommitmentUnsafe s h = .ok c ↔ s.commitments.find h = some c := by
  unfold getCommitmentUnsafe
  split <;> simp_all

theorem assertRefineConditionsMet_eq_ok {lccLevel : Int}
    (h : assertRefineConditionsMet P level lccLevel s lccHash c = .ok s') :
    lccLevel < c.inboxLevel ∧ (∃ pred, s.commitments.find c.predecessor = some pred ∧
      (c.inboxLevel : Int) = wrap32 (pred.inboxLevel + P.constants.commitmentPeriodInBlocks)) ∧
    ∃ published, s' = { s with commitmentFirstPublicationLevel := published } ∧
      ∀ l, published.mem l = true ↔ l = c.inboxLevel ∨ s.commitmentFirstPublicationLevel.mem l = true := by
  obtain ⟨above, h⟩ := unit_bind_eq_ok.1 h
  obtain ⟨_, h⟩ := unit_bind_eq_ok.1 h
  obtain ⟨period, h⟩ := unit_bind_eq_ok.1 h
  obtain ⟨mid, curfew, h⟩ := bind_eq_ok.1 h
  obtain ⟨_, h⟩ := unit_bind_eq_ok.1 h
  cases h
  obtain ⟨pred, found, period⟩ := bind_eq_ok.1 period
  obtain ⟨expected, sum, period⟩ := bind_eq_ok.1 period
  refine ⟨by simpa using above, ⟨pred, getCommitmentUnsafe_eq_ok.1 found, ?_⟩, ?_⟩
  · rw [← addLevel_eq_ok.1 (liftRun_eq_ok.1 sum)]
    simpa using period
  · unfold assertCommitmentIsNotPastCurfew at curfew
    split at curfew
    · next oldest found =>
        obtain ⟨_, _, h⟩ := bind_eq_ok.1 curfew
        cases h
        refine ⟨_, rfl, fun l => (or_iff_right_of_imp ?_).symm⟩
        rintro rfl
        exact Table.mem_eq_true.2 ⟨_, found⟩
    · cases curfew
      exact ⟨_, rfl, fun l => Table.mem_add⟩

theorem setCommitmentAdded_fst (level : Int) :
    ∃ added, (setCommitmentAdded s h level).1 = { s with commitmentAdded := added } ∧
      ∀ h', added.mem h' = true ↔ h' = h ∨ s.commitmentAdded.mem h' = true := by
  unfold setCommitmentAdded
  split
  · next found =>
      refine ⟨_, rfl, fun h' => (or_iff_right_of_imp ?_).symm⟩
      rintro rfl
      exact Table.mem_eq_true.2 ⟨_, found⟩
  · exact ⟨_, rfl, fun h' => Table.mem_add⟩

theorem assertStakerDontDoubleStake_eq_ok {commitments}
    (returned : assertStakerDontDoubleStake s index commitments = .ok u)
    {h h' : T.CommitmentHash} (listed : h ∈ commitments)
    (listed' : h' ∈ commitments) (staked : index ∈ SetOutOfList.get s.commitmentStakers h)
    (staked' : index ∈ SetOutOfList.get s.commitmentStakers h') : h' = h := by
  have short : (commitments.filter fun h =>
      mem s.commitmentStakers h index).length ≤ 1 := by
    simpa [assertStakerDontDoubleStake] using returned
  have first : h ∈ commitments.filter fun h => mem s.commitmentStakers h index :=
    List.mem_filter.2 ⟨listed, by simpa [mem] using staked⟩
  have second : h' ∈ commitments.filter fun h => mem s.commitmentStakers h index :=
    List.mem_filter.2 ⟨listed', by simpa [mem] using staked'⟩
  obtain ⟨only, shape⟩ := List.length_eq_one_iff.1 (Nat.le_antisymm short (List.length_pos_of_mem first))
  rw [shape, List.mem_singleton] at first second
  rw [first, second]

theorem refineStake_eq_ok {lccLevel added : Int}
    (returned : refineStake P level s c index lccHash lccLevel = .ok (h, added, s')) :
    Refined P index lccLevel h c s s' := by
  obtain ⟨checked, conditions, returned⟩ := bind_eq_ok.1 returned
  obtain ⟨hash, hashed, returned⟩ := bind_eq_ok.1 returned
  obtain ⟨addedTable, stored, addedMem⟩ := setCommitmentAdded_fst (h := hash)
    (s := { checked with commitments := checked.commitments.add hash c }) level
  obtain ⟨last, staked, returned⟩ := bind_eq_ok.1 returned
  have staked : (setStakerCommitment
      { checked with commitments := checked.commitments.add hash c, commitmentAdded := addedTable }
      index c.inboxLevel hash : Result T _) =
        .ok last := by
    rw [← staked]
    exact congrArg (setStakerCommitment · index c.inboxLevel hash) stored.symm
  obtain ⟨double, returned⟩ := unit_bind_eq_ok.1 returned
  cases returned
  have double : (assertStakerDontDoubleStake
      { last with commitmentsPerInboxLevel :=
                    (add last.commitmentsPerInboxLevel (c.inboxLevel : Int) h).1 }
      index (SetOutOfList.get (add last.commitmentsPerInboxLevel
        (c.inboxLevel : Int) h).1 (c.inboxLevel : Int)) :
      Result T _) = .ok () := by
    rw [← add_snd]
    exact double
  obtain ⟨mid, set, staked⟩ := bind_eq_ok.1 staked
  obtain ⟨fresh, staked⟩ := unit_bind_eq_ok.1 staked
  cases staked
  obtain ⟨stakers, before, rfl, found, after, others⟩ := setStakerLevel_eq_ok set
  obtain ⟨above, predecessor, published, rfl, firstPublished⟩ :=
    assertRefineConditionsMet_eq_ok conditions
  refine ⟨hash_eq_ok.1 hashed, above, predecessor, rfl, rfl, addedMem, firstPublished, rfl, rfl,
    by simpa [mem] using fresh, ?_, rfl, rfl, ⟨before, found, after⟩, others⟩
  intro h' listed staked'
  exact assertStakerDontDoubleStake_eq_ok double (mem_get_add.2 (.inl ⟨rfl, rfl⟩)) listed
    (mem_get_add.2 (.inl ⟨rfl, rfl⟩)) staked'

variable {lccLevel : Int} {level : Nat}

theorem Refined.pending_mono (free : CollisionFree P)
    (addressed : ∀ h c, s.commitments.find h = some c → P.commitmentHash c = some h)
    (refined : Refined P index lccLevel h c s s')
    {h' : T.CommitmentHash} {c'} (pending : Pending s level h' c') : Pending s' level h' c' where
  contents := by
    rw [refined.commitments, Table.find_add]
    split
    · next same =>
        subst same
        rw [free.injective c c' _ refined.hashed (addressed _ _ pending.contents)]
    · exact pending.contents
  above := pending.above
  listed := by
    rw [refined.perLevel]
    exact mem_get_add.2 (.inr pending.listed)
  added := (refined.added _).2 (.inr pending.added)
  staked := by
    rw [refined.stakers, get_add_of_not_mem refined.fresh]
    exact Table.mem_add.2 (.inr pending.staked)
  firstPublished := (refined.firstPublished _).2 (.inr pending.firstPublished)

theorem Refined.pending (refined : Refined P index level h c s s') : Pending s' level h c where
  contents := by rw [refined.commitments, Table.find_add_self]
  above := Int.ofNat_lt.1 refined.above
  listed := by
    rw [refined.perLevel]
    exact mem_get_add.2 (.inl ⟨rfl, rfl⟩)
  added := (refined.added _).2 (.inl rfl)
  staked := by
    rw [refined.stakers, get_add_of_not_mem refined.fresh]
    exact Table.mem_add.2 (.inl rfl)
  firstPublished := (refined.firstPublished _).2 (.inl rfl)

theorem Refined.level_eq (refined : Refined P index lccLevel h c s s')
    (regular : ∀ h c, s.commitments.find h = some c → Regular P genesis c) :
    ∃ pred, s.commitments.find c.predecessor = some pred ∧ c.inboxLevel < 2 ^ 31 ∧
      c.inboxLevel = pred.inboxLevel + P.constants.commitmentPeriodInBlocks := by
  obtain ⟨pred, found, level⟩ := refined.predecessor
  have small := (regular _ _ found).int32
  have period := P.constants.period_lt
  refine ⟨pred, found, ?_⟩
  by_cases fits : pred.inboxLevel + P.constants.commitmentPeriodInBlocks < 2 ^ 31
  · rw [wrap32_of_fits (by omega) (by omega)] at level
    omega
  · have negative : wrap32 (pred.inboxLevel + P.constants.commitmentPeriodInBlocks) < 0 :=
      wrap32_neg (by omega) (by omega)
    omega

theorem Refined.regular (refined : Refined P index lccLevel h c s s')
    (addressed : ∀ h c, s.commitments.find h = some c → P.commitmentHash c = some h)
    (regular : ∀ h c, s.commitments.find h = some c → Regular P genesis c) :
    Regular P genesis c := by
  obtain ⟨pred, found, small, level⟩ := refined.level_eq regular
  obtain ⟨k, aligned⟩ := (regular _ _ found).aligned
  refine ⟨small, ⟨k + 1, ?_⟩, .inr ⟨pred, addressed _ _ found, level⟩⟩
  rw [level, aligned, Nat.succ_mul, Nat.add_assoc]

theorem Refined.commitmentsInvariant (free : CollisionFree P)
    (refined : Refined P index lcc.inboxLevel h c s s')
    (inv : CommitmentsInvariant P genesis lcc older s) : CommitmentsInvariant P genesis lcc older s' where
  linked := inv.linked
  lastCemented := by
    rw [refined.lastCemented]
    exact inv.lastCemented
  addressed := by
    intro h' c' found
    rw [refined.commitments, Table.find_add] at found
    split at found
    · next same =>
        cases found
        exact same ▸ refined.hashed
    · exact inv.addressed h' c' found
  regular := by
    intro h' c' found
    rw [refined.commitments, Table.find_add] at found
    split at found
    · cases found
      exact refined.regular inv.addressed inv.regular
    · exact inv.regular h' c' found
  known := by
    intro h' c' found
    rw [refined.commitments, Table.find_add] at found
    split at found
    · next same =>
        cases found
        exact .inr (same ▸ refined.pending)
    · exact (inv.known h' c' found).imp_right (refined.pending_mono free inv.addressed)
  stored := by
    intro i c' h' member hashed
    rw [← inv.stored i c' h' member hashed, refined.commitments, Table.mem_add]
    refine or_iff_right ?_
    rintro rfl
    have same := free.injective c c' h' refined.hashed hashed
    have below := inv.linked.level_le (same ▸ List.mem_of_getElem? member)
    exact absurd (Int.ofNat_lt.1 refined.above) (Nat.not_lt.2 below)
  listed := by
    intro l h' listed
    rw [refined.perLevel] at listed
    rcases mem_get_add.1 listed with ⟨rfl, rfl⟩ | listed
    · exact .inr ⟨c, rfl, refined.pending⟩
    · refine (inv.listed l h' listed).imp_right ?_
      rintro ⟨c', level, pending⟩
      exact ⟨c', level, refined.pending_mono free inv.addressed pending⟩
  nodup := by
    intro l
    rw [refined.perLevel]
    exact nodup_get_add (inv.nodup l)
  addedOnly := by
    intro h' added
    rcases (refined.added h').1 added with rfl | added
    · exact .inr ⟨c, refined.pending⟩
    · refine (inv.addedOnly h' added).imp_right ?_
      rintro ⟨c', pending⟩
      exact ⟨c', refined.pending_mono free inv.addressed pending⟩
  stakedOnly := by
    intro h' staked
    rw [refined.stakers, get_add_of_not_mem refined.fresh] at staked
    rcases Table.mem_add.1 staked with rfl | staked
    · exact ⟨c, refined.pending⟩
    · obtain ⟨c', pending⟩ := inv.stakedOnly h' staked
      exact ⟨c', refined.pending_mono free inv.addressed pending⟩
  firstPublishedOnly := by
    intro l published
    rcases (refined.firstPublished l).1 published with rfl | published
    · exact .inr ⟨h, c, rfl, refined.pending⟩
    · refine (inv.firstPublishedOnly l published).imp_right ?_
      rintro ⟨h', c', level, pending⟩
      exact ⟨h', c', level, refined.pending_mono free inv.addressed pending⟩

theorem Refined.mem_stakers (refined : Refined P index lccLevel h c s s')
    (i : Nat) : s'.stakers.mem i = true ↔ s.stakers.mem i = true := by
  obtain ⟨last, before, after⟩ := refined.level
  by_cases same : i = index
  · subst same
    exact ⟨fun _ => Table.mem_eq_true.2 ⟨_, before⟩, fun _ => Table.mem_eq_true.2 ⟨_, after⟩⟩
  · rw [Table.mem, Table.mem, refined.others i same]

theorem Refined.stakersInvariant [DecidableEq T.Staker]
    (refined : Refined P index lccLevel h c s s') (inv : StakersInvariant s)
    (free : CollisionFree P) (before : CommitmentsInvariant P genesis lcc older s)
    (after : CommitmentsInvariant P genesis lcc older s') : StakersInvariant s' where
  active := by
    intro i
    rw [refined.mem_stakers, refined.stakerIndex]
    exact inv.active i
  unique := by
    rw [refined.stakerIndex]
    exact inv.unique
  bounded := by
    rw [refined.stakerIndex, refined.counter]
    exact inv.bounded
  known := by
    intro h' i staked
    rw [refined.counter]
    rw [refined.stakers] at staked
    rcases mem_get_add.1 staked with ⟨_, rfl⟩ | staked
    · obtain ⟨last, before, _⟩ := refined.level
      obtain ⟨staker, found⟩ := (inv.active i).1 (Table.mem_eq_true.2 ⟨last, before⟩)
      exact inv.bounded staker i found
    · exact inv.known h' i staked
  single := by
    intro i l h₁ h₂ listed₁ listed₂ staked₁ staked₂
    by_cases here : i = index ∧ l = c.inboxLevel
    · obtain ⟨rfl, rfl⟩ := here
      rw [refined.single h₁ listed₁ staked₁, refined.single h₂ listed₂ staked₂]
    · have old : ∀ h' ∈ SetOutOfList.get s'.commitmentsPerInboxLevel l,
          i ∈ SetOutOfList.get s'.commitmentStakers h' → h' ∈ SetOutOfList.get s.commitmentsPerInboxLevel l ∧
            i ∈ SetOutOfList.get s.commitmentStakers h' := by
        intro h' listed staked
        have staked : i ∈ SetOutOfList.get s.commitmentStakers h' := by
          rw [refined.stakers] at staked
          rcases mem_get_add.1 staked with ⟨rfl, rfl⟩ | staked
          · exact absurd ⟨rfl, (after.level_eq free listed refined.hashed).symm⟩ here
          · exact staked
        rw [refined.perLevel] at listed
        rcases mem_get_add.1 listed with ⟨rfl, rfl⟩ | listed
        · exact ⟨(before.staked_pending free staked refined.hashed).listed, staked⟩
        · exact ⟨listed, staked⟩
      obtain ⟨listed₁, staked₁⟩ := old h₁ listed₁ staked₁
      obtain ⟨listed₂, staked₂⟩ := old h₂ listed₂ staked₂
      exact inv.single i l h₁ h₂ listed₁ listed₂ staked₁ staked₂

end Publication

end Octez.Proof.RollupStorage
