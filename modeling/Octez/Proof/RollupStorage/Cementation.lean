import Octez.Proof.RollupStorage.Publication

namespace Octez.Proof.RollupStorage
open Octez.Lib Octez.Game Octez.RollupStorage Table

variable {T : RollupTypes} [DecidableEq T.CommitmentHash] {P : Protocol T}
  {s s' : Storage T} {genesis lcc c : T.Commitment}
  {older chain : List T.Commitment} {h lccHash : T.CommitmentHash} {hashes dangling : List T.CommitmentHash}

structure Candidate (s : Storage T) (lccHash h : T.CommitmentHash) (c : T.Commitment) : Prop where
  contents : s.commitments.find h = some c
  predecessor : c.predecessor = lccHash
  staked : ∃ index ∈ SetOutOfList.get s.commitmentStakers h, s.stakers.mem index = true

omit [DecidableEq T.CommitmentHash] in
theorem active_pos {stakers : List Nat} :
    0 < (activeStakersIndex s stakers).length ↔ ∃ index ∈ stakers, s.stakers.mem index = true := by
  rw [List.length_pos_iff_exists_mem]
  exact exists_congr fun index => List.mem_filter

theorem isCementableCandidateCommitment_eq_ok {candidate}
    (returned : isCementableCandidateCommitment s lccHash h = .ok candidate) (c) :
    candidate = some c ↔ Candidate s lccHash h c := by
  obtain ⟨stored, found, returned⟩ := bind_eq_ok.1 returned
  have found := getCommitmentUnsafe_eq_ok.1 found
  have same : Candidate s lccHash h c → stored = c := fun candidate =>
    Option.some.inj (found.symm.trans candidate.contents)
  split at returned
  · next predecessor =>
      dsimp only at returned
      split at returned
      · next active =>
          cases returned
          constructor
          · rintro ⟨⟩
            exact ⟨found, predecessor, active_pos.1 active⟩
          · intro candidate
            rw [same candidate]
      · next inactive =>
          cases returned
          constructor
          · rintro ⟨⟩
          · intro candidate
            exact absurd (active_pos.2 candidate.staked) inactive
  · next other =>
      cases returned
      constructor
      · rintro ⟨⟩
      · intro candidate
        exact absurd (same candidate ▸ candidate.predecessor) other

theorem collectCommitments_of_some {candidate} {result}
    (returned : collectCommitments s lccHash (some candidate) dangling hashes = .ok result) :
    result = (some candidate, hashes.reverse ++ dangling) ∧
      ∀ h' ∈ hashes, ∀ c', ¬Candidate s lccHash h' c' := by
  induction hashes generalizing dangling with
  | nil =>
    cases returned
    exact ⟨rfl, nofun⟩
  | cons h hashes ih =>
    obtain ⟨found, checked, returned⟩ := bind_eq_ok.1 returned
    cases found with
    | some other => cases returned
    | none =>
      obtain ⟨rfl, rest⟩ := ih returned
      refine ⟨by simp, List.forall_mem_cons.2 ⟨?_, rest⟩⟩
      intro c' candidate
      exact nomatch (isCementableCandidateCommitment_eq_ok checked c').2 candidate

theorem collectCommitments_of_none {dangling'}
    (returned : collectCommitments s lccHash none dangling hashes = .ok (some (c, h), dangling')) :
    ∃ front back, hashes = front ++ h :: back ∧ dangling' = (front ++ back).reverse ++ dangling ∧
      Candidate s lccHash h c ∧ ∀ h' ∈ front ++ back, ∀ c', ¬Candidate s lccHash h' c' := by
  induction hashes generalizing dangling with
  | nil => cases returned
  | cons first hashes ih =>
    obtain ⟨found, checked, returned⟩ := bind_eq_ok.1 returned
    cases found with
    | some candidate =>
      obtain ⟨shape, rest⟩ := collectCommitments_of_some returned
      cases shape
      exact ⟨[], hashes, rfl, rfl, (isCementableCandidateCommitment_eq_ok checked _).1 rfl, rest⟩
    | none =>
      obtain ⟨front, back, rfl, rfl, candidate, rest⟩ := ih returned
      refine ⟨first :: front, back, rfl, by simp, candidate, ?_⟩
      refine List.forall_mem_cons.2 ⟨?_, rest⟩
      intro c' candidate'
      exact nomatch (isCementableCandidateCommitment_eq_ok checked c').2 candidate'

structure Found (s : Storage T) (lccHash : T.CommitmentHash)
    (level : Int) (h : T.CommitmentHash) (c : T.Commitment) (dangling : List T.CommitmentHash) : Prop where
  candidate : Candidate s lccHash h c
  level_perm : List.Perm (SetOutOfList.get s.commitmentsPerInboxLevel level) (h :: dangling)
  others : ∀ h' ∈ dangling, ∀ c', ¬Candidate s lccHash h' c'

theorem findCommitmentToCement_eq_ok {level newLevel : Int}
    (returned : findCommitmentToCement P level s lccHash newLevel = .ok ((c, h), dangling)) :
    Found s lccHash newLevel h c dangling := by
  obtain ⟨⟨candidate, others⟩, collected, returned⟩ := bind_eq_ok.1 returned
  rcases candidate with _ | ⟨c', h'⟩
  · cases returned
  · obtain ⟨added, _, returned⟩ := bind_eq_ok.1 returned
    obtain ⟨_, returned⟩ := unit_bind_eq_ok.1 returned
    cases returned
    obtain ⟨front, back, shape, rfl, candidate, rest⟩ := collectCommitments_of_none collected
    rw [List.append_nil]
    refine ⟨candidate, ?_, fun h' member => rest h' (List.mem_reverse.1 member)⟩
    rw [shape]
    exact List.perm_middle.trans ((List.reverse_perm _).symm.cons h)

theorem foldlM_deallocateCommitment (nodup : hashes.Nodup)
    (stored : ∀ h ∈ hashes, s.commitmentAdded.mem h = true ∧ s.commitments.mem h = true) :
    hashes.foldlM deallocateCommitment s =
      .ok { s with commitmentAdded := s.commitmentAdded.removeAll hashes
                   commitments := s.commitments.removeAll hashes } := by
  induction hashes generalizing s with
  | nil => rfl
  | cons h hashes ih =>
    obtain ⟨fresh, nodup⟩ := List.nodup_cons.1 nodup
    obtain ⟨here, stored⟩ := List.forall_mem_cons.1 stored
    have step : deallocateCommitment s h =
        .ok { s with commitmentAdded := s.commitmentAdded.remove h
                     commitments := s.commitments.remove h } := by
      simp [deallocateCommitment, deallocateCommitmentMetadata, deallocateCommitmentContents,
        liftError_removeExisting _ here.1, liftError_removeExisting _ here.2]
    rw [List.foldlM_cons, step, ok_bind]
    refine ih nodup fun h' member => ?_
    have other : h' ≠ h := fun same => fresh (same ▸ member)
    simpa only [mem_remove_of_ne other] using stored h' member

theorem foldlM_removeCommitmentStakers (nodup : hashes.Nodup)
    (staked : ∀ h ∈ hashes, s.commitmentStakers.mem h = true) :
    hashes.foldlM removeCommitmentStakers s =
      .ok { s with commitmentStakers := s.commitmentStakers.removeAll hashes } := by
  induction hashes generalizing s with
  | nil => rfl
  | cons h hashes ih =>
    obtain ⟨fresh, nodup⟩ := List.nodup_cons.1 nodup
    obtain ⟨here, staked⟩ := List.forall_mem_cons.1 staked
    have step : removeCommitmentStakers s h =
        .ok { s with commitmentStakers := s.commitmentStakers.remove h } := by
      simp [removeCommitmentStakers, liftError_removeExisting _ here]
    rw [List.foldlM_cons, step, ok_bind]
    refine ih nodup fun h' member => ?_
    have other : h' ≠ h := fun same => fresh (same ▸ member)
    exact (mem_remove_of_ne other).trans (staked h' member)

def levelCleaned (s : Storage T) (h : T.CommitmentHash) (level : Int)
    (dangling : List T.CommitmentHash) : Storage T :=
  { s with
    lastCementedCommitment := some h
    commitments := s.commitments.removeAll dangling
    commitmentAdded := (s.commitmentAdded.removeAll dangling).remove h
    commitmentFirstPublicationLevel := s.commitmentFirstPublicationLevel.remove level
    commitmentsPerInboxLevel := s.commitmentsPerInboxLevel.remove level
    commitmentStakers := s.commitmentStakers.removeAll (h :: dangling) }

theorem deallocateInboxLevel_eq {level : Int}
    (nodup : (h :: dangling).Nodup) (listed : s.commitmentsPerInboxLevel.mem level = true)
    (entered : ∀ h' ∈ h :: dangling, (s.commitmentAdded.mem h' = true ∧
      s.commitments.mem h' = true) ∧ s.commitmentStakers.mem h' = true)
    (published : s.commitmentFirstPublicationLevel.mem level = true) :
    (deallocateInboxLevel { s with lastCementedCommitment := some h } level h dangling :
      Result T _) = .ok (levelCleaned s h level dangling) := by
  obtain ⟨fresh, danglingNodup⟩ := List.nodup_cons.1 nodup
  have addedHere : (s.commitmentAdded.removeAll dangling).mem h = true := by
    rw [mem, find_removeAll, if_neg fresh]
    exact (entered h List.mem_cons_self).1.1
  let unlisted : Storage T :=
    { s with lastCementedCommitment := some h
             commitmentsPerInboxLevel := s.commitmentsPerInboxLevel.remove level }
  have dangled : dangling.foldlM deallocateCommitment unlisted = _ :=
    foldlM_deallocateCommitment danglingNodup fun h' member =>
      (entered h' (List.mem_cons_of_mem _ member)).1
  let deallocated : Storage T :=
    { unlisted with commitmentAdded := s.commitmentAdded.removeAll dangling
                    commitments := s.commitments.removeAll dangling }
  have unstaked : (h :: dangling).foldlM removeCommitmentStakers deallocated = _ :=
    foldlM_removeCommitmentStakers nodup fun h' member => (entered h' member).2
  have metadata : (deallocateCommitmentMetadata
      { deallocated with commitmentStakers := s.commitmentStakers.removeAll (h :: dangling) } h :
      Result T _) =
      .ok { levelCleaned s h level dangling with
            commitmentFirstPublicationLevel := s.commitmentFirstPublicationLevel } :=
    bind_of_eq_ok (liftError_removeExisting _ addedHere) _
  apply (bind_of_eq_ok (liftError_removeExisting _ listed) _).trans
  apply (bind_of_eq_ok dangled _).trans
  apply (bind_of_eq_ok unstaked _).trans
  apply (bind_of_eq_ok metadata _).trans
  exact bind_of_eq_ok (liftError_removeExisting _ published) _

theorem findToDeallocateAux_linked (linked : Linked P genesis (lcc :: older))
    (hashed : P.commitmentHash lcc = some h) (zero : s.commitments.find P.zeroHash = none) {n : Nat}
    (stored : ∀ i c h, i < n → (lcc :: older)[i]? = some c → P.commitmentHash c = some h →
      s.commitments.find h = some c) : (∀ c h', (lcc :: older)[n]? = some c → P.commitmentHash c = some h' →
      findToDeallocateAux s h n = some h') ∧ ((lcc :: older)[n]? = none → findToDeallocateAux s h n = none ∨
      findToDeallocateAux s h n = some P.zeroHash) := by
  induction n generalizing lcc older h with
  | zero =>
    constructor
    · intro c h' here hashed'
      cases here
      exact hashed.symm.trans hashed'
    · intro absent
      cases absent
  | succ n ih =>
    have contents := stored 0 lcc h (Nat.succ_pos n) rfl hashed
    have step : findToDeallocateAux s h (n + 1) = findToDeallocateAux s lcc.predecessor n := by
      simp [findToDeallocateAux, getPredecessorOptUnsafe, contents]
    rw [step]
    cases linked with
    | genesis _ first =>
      constructor
      · intro _ _ here
        cases here
      · intro _
        rw [first]
        cases n with
        | zero => exact .inr rfl
        | succ n => exact .inl (by simp [findToDeallocateAux, getPredecessorOptUnsafe, zero])
    | cons linked _ predecessor _ _ =>
      exact ih linked predecessor fun i c h small here => stored (i + 1) c h (by omega) here

def tooOld (P : Protocol T) (chain : List T.Commitment) : List T.CommitmentHash :=
  (chain[P.constants.maxNumberOfStoredCementedCommitments - 1]?.bind P.commitmentHash).toList

def cleaned (P : Protocol T) (chain : List T.Commitment) (s : Storage T)
    (h : T.CommitmentHash) (level : Int) (dangling : List T.CommitmentHash) : Storage T :=
  { levelCleaned s h level dangling with
    commitments := (s.commitments.removeAll dangling).removeAll (tooOld P chain) }

theorem find_cleaned (dangling : List T.CommitmentHash) (hash : T.CommitmentHash) :
    (cleaned P chain s h c.inboxLevel dangling).commitments.find hash =
      if hash ∈ tooOld P chain ∨ hash ∈ dangling then none else s.commitments.find hash := by
  change ((s.commitments.removeAll dangling).removeAll (tooOld P chain)).find hash = _
  rw [find_removeAll, find_removeAll]
  by_cases old : hash ∈ tooOld P chain <;> simp [old]

omit [DecidableEq T.CommitmentHash] in
theorem mem_tooOld : h ∈ tooOld P chain ↔
    ∃ c, chain[P.constants.maxNumberOfStoredCementedCommitments - 1]? = some c ∧
      P.commitmentHash c = some h := by
  rw [tooOld, Option.mem_toList, Option.bind_eq_some_iff]

section Invariant
variable (free : CollisionFree P) (inv : CommitmentsInvariant P genesis lcc older s) {i : Nat}
include free inv

theorem zero_not_stored : s.commitments.find P.zeroHash = none := by
  cases found : s.commitments.find P.zeroHash with
  | none => rfl
  | some c => exact absurd (inv.addressed _ _ found) (free.nonzero c)

theorem stored_contents (small : i < P.constants.maxNumberOfStoredCementedCommitments)
    (here : (lcc :: older)[i]? = some c) (hashed : P.commitmentHash c = some h) :
    s.commitments.find h = some c := by
  obtain ⟨c', found⟩ := mem_eq_true.1 ((inv.stored i c h here hashed).2 small)
  rw [found, free.injective c' c h (inv.addressed h c' found) hashed]

theorem lastCementedCommitmentHashWithLevel_eq (hashed : P.commitmentHash lcc = some lccHash) :
    lastCementedCommitmentHashWithLevel s = .ok (lccHash, (lcc.inboxLevel : Int)) := by
  obtain ⟨h, hashed', last⟩ := inv.lastCemented
  cases hashed.symm.trans hashed'
  have contents := stored_contents free inv P.constants.stored_pos rfl hashed
  simp [lastCementedCommitmentHashWithLevel, lastCementedCommitment, last, getCommitmentUnsafe, contents]

variable {c' : T.Commitment}

theorem not_pending_of_cemented (member : c ∈ lcc :: older) (hashed : P.commitmentHash c = some h)
    (pending : Pending s lcc.inboxLevel h c') : False := by
  have below := inv.linked.level_le member
  rw [← inv.pending_eq free pending hashed] at below
  exact absurd pending.above (Nat.not_lt.2 below)

theorem pending_not_tooOld (pending : Pending s lcc.inboxLevel h c) :
    h ∉ tooOld P (lcc :: older) := by
  intro member
  obtain ⟨old, here, hashed⟩ := mem_tooOld.1 member
  exact not_pending_of_cemented free inv (List.mem_of_getElem? here) hashed pending

theorem nextLevel_eq {next : Int} {l : Nat} (level : (l : Int) = next)
    (sum : next = wrap32 (lcc.inboxLevel + P.constants.commitmentPeriodInBlocks)) :
    l = lcc.inboxLevel + P.constants.commitmentPeriodInBlocks := by
  obtain ⟨h, hashed, _⟩ := inv.lastCemented
  have small := (inv.regular _ _ (stored_contents free inv P.constants.stored_pos rfl hashed)).int32
  have period := P.constants.period_lt
  by_cases fits : lcc.inboxLevel + P.constants.commitmentPeriodInBlocks < 2 ^ 31
  · rw [wrap32_of_fits (by omega) (by omega)] at sum
    omega
  · have negative : wrap32 (lcc.inboxLevel + P.constants.commitmentPeriodInBlocks) < 0 :=
      wrap32_neg (by omega) (by omega)
    omega

variable {level next : Int} {dangling : List T.CommitmentHash}
  (sum : next = wrap32 (lcc.inboxLevel + P.constants.commitmentPeriodInBlocks))
include sum

section
variable (found : Found s lccHash next h c dangling) {h' : T.CommitmentHash}
include found

theorem Found.pending (member : h' ∈ h :: dangling) :
    ∃ c', (c'.inboxLevel : Int) = next ∧ Pending s lcc.inboxLevel h' c' := by
  rcases inv.listed next h' (found.level_perm.mem_iff.2 member) with ⟨_, level⟩ | pending
  · have later := nextLevel_eq free inv level.symm sum
    have below := inv.linked.level_le inv.linked.genesis_mem
    have period := P.constants.period_pos
    omega
  · exact pending

theorem Found.candidate_pending : (c.inboxLevel : Int) = next ∧ Pending s lcc.inboxLevel h c := by
  obtain ⟨c', level, pending⟩ := found.pending free inv sum List.mem_cons_self
  cases Option.some.inj (pending.contents.symm.trans found.candidate.contents)
  exact ⟨level, pending⟩

theorem Found.levelCleaned_eq :
    (deallocateInboxLevel { s with lastCementedCommitment := some h } c.inboxLevel h dangling :
      Result T _) = .ok (levelCleaned s h c.inboxLevel dangling) := by
  obtain ⟨level, pending⟩ := found.candidate_pending free inv sum
  have listed : s.commitmentsPerInboxLevel.mem (c.inboxLevel : Int) = true := by
    have member := pending.listed
    rw [mem]
    cases entry : s.commitmentsPerInboxLevel.find (c.inboxLevel : Int) with
    | none =>
      rw [SetOutOfList.get, entry] at member
      cases member
    | some hashes => rfl
  refine deallocateInboxLevel_eq (found.level_perm.nodup_iff.1 (inv.nodup next)) listed ?_
    pending.firstPublished
  intro h' member
  obtain ⟨c', -, pending'⟩ := found.pending free inv sum member
  exact ⟨⟨pending'.added, mem_eq_true.2 ⟨c', pending'.contents⟩⟩, pending'.staked⟩

theorem Found.cemented_not_dangling (member : c' ∈ lcc :: older)
    (hashed : P.commitmentHash c' = some h') : h' ∉ h :: dangling := by
  intro dangles
  obtain ⟨other, _, pending⟩ := found.pending free inv sum dangles
  exact not_pending_of_cemented free inv member hashed pending

theorem Found.cleaned_eq (hashed : P.commitmentHash lcc = some lccHash) :
    updateSavedCementedCommitments P (levelCleaned s h c.inboxLevel dangling) lccHash =
      .ok (cleaned P (lcc :: older) s h c.inboxLevel dangling) := by
  have kept : ∀ i c' h', i < P.constants.maxNumberOfStoredCementedCommitments →
      (lcc :: older)[i]? = some c' → P.commitmentHash c' = some h' →
      (levelCleaned s h c.inboxLevel dangling).commitments.find h' = some c' := by
    intro i c' h' small here hashed'
    have safe := found.cemented_not_dangling free inv sum (List.mem_of_getElem? here) hashed'
    change (s.commitments.removeAll dangling).find h' = _
    rw [find_removeAll, if_neg fun member => safe (List.mem_cons_of_mem _ member)]
    exact stored_contents free inv small here hashed'
  have zero : (levelCleaned s h c.inboxLevel dangling).commitments.find P.zeroHash = none := by
    change (s.commitments.removeAll dangling).find _ = _
    rw [find_removeAll, zero_not_stored free inv, ite_self]
  have positive := P.constants.stored_pos
  obtain ⟨walks, ends⟩ := findToDeallocateAux_linked inv.linked hashed zero
    (n := P.constants.maxNumberOfStoredCementedCommitments - 1) fun i c' h' small => kept i c' h' (by omega)
  rw [updateSavedCementedCommitments, findCommitmentToDeallocate, cleaned, tooOld]
  cases last : (lcc :: older)[P.constants.maxNumberOfStoredCementedCommitments - 1]? with
  | none =>
    rcases ends last with stop | stop
    · rw [stop]
      rfl
    · rw [stop]
      exact if_pos rfl
  | some c' =>
    obtain ⟨h', hashed'⟩ := inv.linked.hashed (List.mem_of_getElem? last)
    have nonzero : h' ≠ P.zeroHash := fun same => free.nonzero c' (same ▸ hashed')
    have present := mem_eq_true.2 ⟨c', kept _ c' h' (by omega) last hashed'⟩
    rw [walks c' h' last hashed', Option.bind_some, hashed']
    dsimp only
    rw [if_neg nonzero]
    exact bind_of_eq_ok (liftError_removeExisting _ present) _

end

omit sum in
theorem cementCommitment_eq_ok (hashed : P.commitmentHash lcc = some lccHash) {s'} :
    cementCommitment P level s = .ok (s', c, h) ↔ ∃ dangling, findCommitmentToCement P level s lccHash
          (wrap32 (lcc.inboxLevel + P.constants.commitmentPeriodInBlocks)) =
          .ok ((c, h), dangling) ∧ s' = cleaned P (lcc :: older) s h c.inboxLevel dangling := by
  obtain ⟨last, hashed', lastCemented⟩ := inv.lastCemented
  have run : cementCommitment P level s = (do
      let found ← findCommitmentToCement P level s lccHash
        (wrap32 (lcc.inboxLevel + P.constants.commitmentPeriodInBlocks))
      let s ← updateLastCementedCommitment s found.1.2
      let s ← deallocateInboxLevel s found.1.1.inboxLevel found.1.2 found.2
      let s ← updateSavedCementedCommitments P s lccHash
      return (s, found.1)) := by
    rw [cementCommitment, lastCementedCommitmentHashWithLevel_eq free inv hashed, ok_bind]
    dsimp only
    rw [addLevel_eq_ok.2 rfl, liftRun_ok, ok_bind]
  have cleanup : ∀ c h dangling, findCommitmentToCement P level s lccHash
      (wrap32 (lcc.inboxLevel + P.constants.commitmentPeriodInBlocks)) = .ok ((c, h), dangling) →
      cementCommitment P level s = .ok (cleaned P (lcc :: older) s h c.inboxLevel dangling, c, h) := by
    intro c h dangling returned
    have found := findCommitmentToCement_eq_ok returned
    rw [run, returned, ok_bind]
    dsimp only
    rw [updateLastCementedCommitment, lastCemented]
    rw [ok_bind, found.levelCleaned_eq free inv rfl, ok_bind, found.cleaned_eq free inv rfl hashed, ok_bind]
    rfl
  constructor
  · intro returned
    have again := returned
    rw [run] at again
    obtain ⟨⟨⟨c', h'⟩, dangling⟩, found, _⟩ := bind_eq_ok.1 again
    rw [cleanup c' h' dangling found] at returned
    cases returned
    exact ⟨dangling, found, rfl⟩
  · rintro ⟨dangling, found, rfl⟩
    exact cleanup c h dangling found

section After
variable (found : Found s lccHash next h c dangling)
include found

theorem Found.linked (hashed : P.commitmentHash lcc = some lccHash) :
    Linked P genesis (c :: lcc :: older) := by
  obtain ⟨level, pending⟩ := found.candidate_pending free inv sum
  exact .cons inv.linked (inv.addressed h c pending.contents)
    (found.candidate.predecessor ▸ hashed) (nextLevel_eq free inv level sum) pending.above

theorem Found.mem_iff (hash : T.CommitmentHash) (c' : T.Commitment)
    (pending : Pending s lcc.inboxLevel hash c') : hash ∈ h :: dangling ↔ c'.inboxLevel = c.inboxLevel := by
  obtain ⟨level, _⟩ := found.candidate_pending free inv sum
  rw [← found.level_perm.mem_iff]
  constructor
  · intro listed
    have own := inv.level_eq free listed (inv.addressed _ _ pending.contents)
    omega
  · intro same
    rw [← level, ← same]
    exact pending.listed

theorem Found.pending_later {hash}
    (pending : Pending s lcc.inboxLevel hash c') (other : c'.inboxLevel ≠ c.inboxLevel) :
    Pending (cleaned P (lcc :: older) s h c.inboxLevel dangling) c.inboxLevel hash c' := by
  obtain ⟨level, _⟩ := found.candidate_pending free inv sum
  have outside : hash ∉ h :: dangling := fun member =>
    other ((found.mem_iff free inv sum hash c' pending).1 member)
  obtain ⟨notNew, notDangling⟩ := not_or.1 (List.mem_cons.not.1 outside)
  have otherLevel : (c'.inboxLevel : Int) ≠ c.inboxLevel := fun same => other (Int.ofNat.inj same)
  refine ⟨?_, ?_, ?_, ?_, ?_, ?_⟩
  · rw [find_cleaned, if_neg (not_or.2 ⟨pending_not_tooOld free inv pending, notDangling⟩)]
    exact pending.contents
  · have next := nextLevel_eq free inv level sum
    obtain ⟨k, aligned⟩ := inv.linked.aligned List.mem_cons_self
    obtain ⟨k', aligned'⟩ := (inv.regular _ _ pending.contents).aligned
    have above := pending.above
    rw [aligned, aligned'] at above
    have after : k < k' := Nat.lt_of_mul_lt_mul_right (Nat.lt_of_add_lt_add_left above)
    have room := Nat.mul_le_mul_right P.constants.commitmentPeriodInBlocks (Nat.succ_le_of_lt after)
    rw [Nat.succ_mul] at room
    omega
  · change hash ∈ SetOutOfList.get (s.commitmentsPerInboxLevel.remove _) _
    rw [get_remove, if_neg otherLevel]
    exact pending.listed
  · change ((s.commitmentAdded.removeAll dangling).remove h).mem hash = true
    rw [mem_remove_of_ne notNew, mem, find_removeAll, if_neg notDangling]
    exact pending.added
  · change (s.commitmentStakers.removeAll (h :: dangling)).mem hash = true
    rw [mem, find_removeAll, if_neg outside]
    exact pending.staked
  · change (s.commitmentFirstPublicationLevel.remove _).mem _ = true
    rw [mem_remove_of_ne otherLevel]
    exact pending.firstPublished

theorem Found.stored_iff {h'}
    (here : (lcc :: older)[i]? = some c') (hashed' : P.commitmentHash c' = some h') :
    (cleaned P (lcc :: older) s h c.inboxLevel dangling).commitments.mem h' = true ↔
      i + 1 < P.constants.maxNumberOfStoredCementedCommitments := by
  have safe : h' ∉ dangling := fun member =>
    found.cemented_not_dangling free inv sum (List.mem_of_getElem? here) hashed' (List.mem_cons_of_mem _ member)
  have old : h' ∈ tooOld P (lcc :: older) ↔
      i = P.constants.maxNumberOfStoredCementedCommitments - 1 := by
    rw [mem_tooOld]
    constructor
    · rintro ⟨old, there, oldHashed⟩
      cases free.injective old c' h' oldHashed hashed'
      obtain ⟨bound, _⟩ := List.getElem?_eq_some_iff.1 here
      exact (List.getElem?_inj bound inv.linked.nodup).1 (here.trans there.symm)
    · rintro rfl
      exact ⟨c', here, hashed'⟩
  have before := inv.stored i c' h' here hashed'
  rw [mem, find_cleaned]
  by_cases last : i = P.constants.maxNumberOfStoredCementedCommitments - 1
  · rw [if_pos (.inl (old.2 last))]
    simp only [Option.isSome_none, Bool.false_eq_true, false_iff]
    omega
  · rw [if_neg (not_or.2 ⟨fun member => last (old.1 member), safe⟩)]
    exact before.trans (by omega)

theorem Found.commitmentsInvariant (hashed : P.commitmentHash lcc = some lccHash) :
    CommitmentsInvariant P genesis c (lcc :: older) (cleaned P (lcc :: older) s h c.inboxLevel dangling) := by
  obtain ⟨level, pending⟩ := found.candidate_pending free inv sum
  have own := inv.addressed h c pending.contents
  have outside : ∀ {hash c'}, Pending s lcc.inboxLevel hash c' → hash ∉ h :: dangling →
      Pending (cleaned P (lcc :: older) s h c.inboxLevel dangling) c.inboxLevel hash c' := by
    intro hash c' pending' out
    exact found.pending_later free inv sum pending' fun same =>
      out ((found.mem_iff free inv sum hash c' pending').2 same)
  have before : ∀ {hash c'},
      (cleaned P (lcc :: older) s h c.inboxLevel dangling).commitments.find hash = some c' →
      hash ∉ dangling ∧ s.commitments.find hash = some c' := by
    intro hash c' there
    rw [find_cleaned] at there
    split at there
    · cases there
    · next out => exact ⟨fun member => out (.inr member), there⟩
  refine ⟨found.linked free inv sum hashed, ⟨h, own, rfl⟩, ?_, ?_, ?_, ?_, ?_, ?_, ?_, ?_, ?_⟩
  · intro hash c' there
    exact inv.addressed hash c' (before there).2
  · intro hash c' there
    exact inv.regular hash c' (before there).2
  · intro hash c' there
    obtain ⟨notDangling, contents⟩ := before there
    rcases inv.known hash c' contents with member | pending'
    · exact .inl (List.mem_cons_of_mem _ member)
    · by_cases new : hash = h
      · subst new
        cases Option.some.inj (contents.symm.trans pending.contents)
        exact .inl List.mem_cons_self
      · exact .inr (outside pending' (List.not_mem_cons_of_ne_of_not_mem new notDangling))
  · intro i c' h' here hashed'
    cases i with
    | zero =>
      cases here
      cases own.symm.trans hashed'
      have fresh := (List.nodup_cons.1 (found.level_perm.nodup_iff.1 (inv.nodup next))).1
      rw [mem, find_cleaned, if_neg (not_or.2 ⟨pending_not_tooOld free inv pending, fresh⟩), pending.contents]
      exact iff_of_true rfl P.constants.stored_pos
    | succ i => exact found.stored_iff free inv sum here hashed'
  · intro l hash listed
    change hash ∈ SetOutOfList.get (s.commitmentsPerInboxLevel.remove _) _ at listed
    rw [get_remove] at listed
    split at listed
    · cases listed
    · next other =>
        refine (inv.listed l hash listed).imp_right ?_
        rintro ⟨c', rfl, pending'⟩
        exact ⟨c', rfl, found.pending_later free inv sum pending' fun same => other (by rw [same])⟩
  · intro l
    change (SetOutOfList.get (s.commitmentsPerInboxLevel.remove _) l).Nodup
    rw [get_remove]
    split
    · exact List.nodup_nil
    · exact inv.nodup l
  · intro hash added
    change ((s.commitmentAdded.removeAll dangling).remove h).mem hash = true at added
    rw [mem_remove, mem_removeAll] at added
    obtain ⟨new, notDangling, added⟩ := added
    refine (inv.addedOnly hash added).imp_right ?_
    rintro ⟨c', pending'⟩
    exact ⟨c', outside pending' (List.not_mem_cons_of_ne_of_not_mem new notDangling)⟩
  · intro hash staked
    obtain ⟨out, staked⟩ := mem_removeAll.1 staked
    obtain ⟨c', pending'⟩ := inv.stakedOnly hash staked
    exact ⟨c', outside pending' out⟩
  · intro l published
    obtain ⟨other, published⟩ := mem_remove.1 published
    refine (inv.firstPublishedOnly l published).imp_right ?_
    rintro ⟨hash, c', rfl, pending'⟩
    exact ⟨hash, c', rfl, found.pending_later free inv sum pending' fun same =>
      other (by rw [same])⟩

end After

end Invariant

theorem stakersInvariant_cleaned [DecidableEq T.Staker] (inv : StakersInvariant s)
    (level : Int) (dangling : List T.CommitmentHash) :
    StakersInvariant (cleaned P chain s h level dangling) := by
  have staked : ∀ {hash index},
      index ∈ SetOutOfList.get (s.commitmentStakers.removeAll (h :: dangling)) hash →
      index ∈ SetOutOfList.get s.commitmentStakers hash := by
    intro hash index member
    rw [SetOutOfList.get, find_removeAll] at member
    split at member
    · cases member
    · exact member
  have listed : ∀ {l hash}, hash ∈ SetOutOfList.get (s.commitmentsPerInboxLevel.remove level) l →
      hash ∈ SetOutOfList.get s.commitmentsPerInboxLevel l := by
    intro l hash member
    rw [get_remove] at member
    split at member
    · cases member
    · exact member
  refine ⟨inv.active, inv.unique, inv.bounded, ?_, ?_⟩
  · intro hash index member
    exact inv.known hash index (staked member)
  · intro index l h₁ h₂ listed₁ listed₂ staked₁ staked₂
    exact inv.single index l h₁ h₂ (listed listed₁) (listed listed₂) (staked staked₁) (staked staked₂)

structure SameCommitments (s s' : Storage T) : Prop where
  lastCemented : s'.lastCementedCommitment = s.lastCementedCommitment
  commitments : s'.commitments = s.commitments
  added : s'.commitmentAdded = s.commitmentAdded
  firstPublished : s'.commitmentFirstPublicationLevel = s.commitmentFirstPublicationLevel
  perLevel : s'.commitmentsPerInboxLevel = s.commitmentsPerInboxLevel
  stakers : s'.commitmentStakers = s.commitmentStakers

theorem Pending.congr (same : SameCommitments s s') {level : Nat} (pending : Pending s level h c) :
    Pending s' level h c where
  contents := same.commitments ▸ pending.contents
  above := pending.above
  listed := same.perLevel ▸ pending.listed
  added := same.added ▸ pending.added
  staked := same.stakers ▸ pending.staked
  firstPublished := same.firstPublished ▸ pending.firstPublished

theorem CommitmentsInvariant.congr (same : SameCommitments s s')
    (inv : CommitmentsInvariant P genesis lcc older s) : CommitmentsInvariant P genesis lcc older s' where
  linked := inv.linked
  lastCemented := same.lastCemented ▸ inv.lastCemented
  addressed := same.commitments ▸ inv.addressed
  regular := same.commitments ▸ inv.regular
  known := fun h c found =>
    (inv.known h c (same.commitments ▸ found)).imp_right (Pending.congr same)
  stored := same.commitments ▸ inv.stored
  listed := fun l h listed => (inv.listed l h (same.perLevel ▸ listed)).imp_right
    fun ⟨c, level, pending⟩ => ⟨c, level, pending.congr same⟩
  nodup := same.perLevel ▸ inv.nodup
  addedOnly := fun h added => (inv.addedOnly h (same.added ▸ added)).imp_right
    fun ⟨c, pending⟩ => ⟨c, pending.congr same⟩
  stakedOnly := fun h staked =>
    (inv.stakedOnly h (same.stakers ▸ staked)).imp fun _ pending => pending.congr same
  firstPublishedOnly := fun l published =>
    (inv.firstPublishedOnly l (same.firstPublished ▸ published)).imp_right
      fun ⟨h, c, level, pending⟩ => ⟨h, c, level, pending.congr same⟩

variable {whitelist : Table T.Staker Unit} {ledger : T.Ledger}

theorem originate_eq_ok (returned : originate P ledger whitelist genesis = .ok s) :
    ∃ h, P.commitmentHash genesis = some h ∧
      s = { ledger := ledger
            whitelist := whitelist
            lastCementedCommitment := some h
            commitments := add ∅ h genesis
            commitmentAdded := add ∅ h (genesis.inboxLevel : Int)
            commitmentFirstPublicationLevel :=
              add ∅ (genesis.inboxLevel : Int) (genesis.inboxLevel : Int)
            commitmentsPerInboxLevel := add ∅ (genesis.inboxLevel : Int) [h]
            commitmentStakers := ∅
            stakerIndexCounter := 0
            stakerIndex := ∅
            stakers := ∅ } := by
  obtain ⟨h, hashed, returned⟩ := bind_eq_ok.1 returned
  cases returned
  exact ⟨h, hash_eq_ok.1 hashed, rfl⟩

theorem commitmentsInvariant_originate (returned : originate P ledger whitelist genesis = .ok s)
    (first : genesis.predecessor = P.zeroHash) (small : genesis.inboxLevel < 2 ^ 31) :
    CommitmentsInvariant P genesis genesis [] s := by
  obtain ⟨h, hashed, rfl⟩ := originate_eq_ok returned
  have only : ∀ {Key Value : Type} [DecidableEq Key] {key key' : Key} {value value' : Value},
      (add (∅ : Table Key Value) key value).find key' = some value' → key' = key ∧ value' = value := by
    intro Key Value _ key key' value value' found
    rw [find_add] at found
    split at found
    · next same => exact ⟨same, (Option.some.inj found).symm⟩
    · cases found
  have listed : ∀ {l h'}, h' ∈ SetOutOfList.get
      (add (∅ : Table Int (List T.CommitmentHash)) (genesis.inboxLevel : Int) [h]) l →
      h' = h ∧ l = genesis.inboxLevel := by
    intro l h' member
    rw [get_table_add] at member
    split at member
    · next same => exact ⟨List.mem_singleton.1 member, same⟩
    · cases member
  refine ⟨.genesis hashed first, ⟨h, hashed, rfl⟩, ?_, ?_, ?_, ?_, ?_, ?_, ?_, ?_, ?_⟩
  · intro h' c found
    obtain ⟨rfl, rfl⟩ := only found
    exact hashed
  · intro h' c found
    obtain ⟨rfl, rfl⟩ := only found
    exact ⟨small, ⟨0, by simp⟩, .inl rfl⟩
  · intro h' c found
    obtain ⟨rfl, rfl⟩ := only found
    exact .inl List.mem_cons_self
  · intro i c h' here hashed'
    cases i with
    | succ i => cases here
    | zero =>
      cases here
      cases hashed.symm.trans hashed'
      exact iff_of_true (mem_add.2 (.inl rfl)) P.constants.stored_pos
  · intro l h' member
    obtain ⟨rfl, rfl⟩ := listed member
    exact .inl ⟨hashed, rfl⟩
  · intro l
    rw [get_table_add]
    split
    · exact List.nodup_singleton h
    · exact List.nodup_nil
  · intro h' added
    obtain ⟨_, found⟩ := mem_eq_true.1 added
    obtain ⟨rfl, _⟩ := only found
    exact .inl hashed
  · intro h' staked
    cases staked
  · intro l published
    obtain ⟨_, found⟩ := mem_eq_true.1 published
    exact .inl (only found).1

section Stakers
variable [DecidableEq T.Staker] {staker : T.Staker} {index : Nat}

theorem stakersInvariant_originate
    (returned : originate P ledger whitelist genesis = .ok s) : StakersInvariant s := by
  obtain ⟨h, _, rfl⟩ := originate_eq_ok returned
  refine ⟨?_, nofun, nofun, nofun, ?_⟩
  · intro index
    exact ⟨nofun, nofun⟩
  · intro index l h₁ h₂ _ _ staked
    cases staked

def withStaker (s : Storage T) (ledger : T.Ledger) (staker : T.Staker) : Storage T :=
  { s with
    ledger := ledger
    stakerIndexCounter := s.stakerIndexCounter + 1
    stakerIndex := s.stakerIndex.add staker s.stakerIndexCounter
    stakers := s.stakers.add s.stakerIndexCounter StakerIndex.rootLevel }

def withoutStaker (s : Storage T) (ledger : T.Ledger) (staker : T.Staker) (index : Nat) : Storage T :=
  { s with
    ledger := ledger
    stakerIndex := s.stakerIndex.remove staker
    stakers := s.stakers.remove index }

omit [DecidableEq T.CommitmentHash] in
theorem indexOfStaker_eq_ok (h : indexOfStaker P s staker = .ok (s', index)) :
    (s.stakerIndex.find staker = some index ∧ s' = s) ∨
      (s.stakerIndex.find staker = none ∧ index = s.stakerIndexCounter ∧
        ∃ ledger, s' = withStaker s ledger staker) := by
  unfold indexOfStaker at h
  split at h
  · next absent =>
      obtain ⟨ledger, _, h⟩ := bind_eq_ok.1 h
      obtain ⟨stakerIndex, named, h⟩ := bind_eq_ok.1 h
      obtain ⟨stakers, registered, h⟩ := bind_eq_ok.1 h
      obtain ⟨_, rfl⟩ := init_eq_ok.1 (liftError_eq_ok.1 named)
      obtain ⟨_, rfl⟩ := init_eq_ok.1 (liftError_eq_ok.1 registered)
      cases h
      exact .inr ⟨absent, rfl, ledger, rfl⟩
  · next found =>
      cases h
      exact .inl ⟨found, rfl⟩

omit [DecidableEq T.CommitmentHash] in
theorem stakerIndex_removeStaker_eq_ok (h : (StakerIndex.removeStaker { s with ledger := ledger } staker :
      Result T _) = .ok s') :
    ∃ index, s.stakerIndex.find staker = some index ∧ s' = withoutStaker s ledger staker index := by
  obtain ⟨index, found, h⟩ := bind_eq_ok.1 h
  obtain ⟨stakerIndex, unnamed, h⟩ := bind_eq_ok.1 h
  obtain ⟨stakers, removed, h⟩ := bind_eq_ok.1 h
  obtain ⟨_, rfl⟩ := removeExisting_eq_ok.1 (liftError_eq_ok.1 unnamed)
  obtain ⟨_, rfl⟩ := removeExisting_eq_ok.1 (liftError_eq_ok.1 removed)
  cases h
  refine ⟨index, ?_, rfl⟩
  unfold StakerIndex.getStakerIndexUnsafe at found
  split at found
  · cases found
  · next here =>
      cases found
      exact here

theorem stakersInvariant_withStaker (inv : StakersInvariant s)
    (absent : s.stakerIndex.find staker = none) (ledger : T.Ledger) :
    StakersInvariant (withStaker s ledger staker) := by
  have lookup : ∀ {staker' index}, (withStaker s ledger staker).stakerIndex.find staker' =
      some index → (staker' = staker ∧ index = s.stakerIndexCounter) ∨
        s.stakerIndex.find staker' = some index := by
    intro staker' index found
    change (s.stakerIndex.add staker s.stakerIndexCounter).find staker' = _ at found
    rw [find_add] at found
    split at found
    · next same => exact .inl ⟨same, (Option.some.inj found).symm⟩
    · exact .inr found
  refine ⟨?_, ?_, ?_, ?_, inv.single⟩
  · intro index
    change (s.stakers.add _ _).mem index = true ↔ _
    rw [mem_add, inv.active]
    constructor
    · rintro (rfl | ⟨staker', found⟩)
      · exact ⟨staker, find_add_self _ _ _⟩
      · have other : staker' ≠ staker := fun same => by
          subst same
          cases absent.symm.trans found
        exact ⟨staker', (find_add_of_ne other).trans found⟩
    · rintro ⟨staker', found⟩
      rcases lookup found with ⟨_, rfl⟩ | found
      · exact .inl rfl
      · exact .inr ⟨staker', found⟩
  · intro staker₁ staker₂ index found₁ found₂
    rcases lookup found₁ with ⟨rfl, rfl⟩ | old₁ <;> rcases lookup found₂ with ⟨rfl, new⟩ | old₂
    · rfl
    · exact absurd (inv.bounded _ _ old₂) (Nat.lt_irrefl _)
    · subst new
      exact absurd (inv.bounded _ _ old₁) (Nat.lt_irrefl _)
    · exact inv.unique staker₁ staker₂ index old₁ old₂
  · intro staker' index found
    rcases lookup found with ⟨_, rfl⟩ | old
    · exact Nat.lt_succ_self _
    · exact Nat.lt_succ_of_lt (inv.bounded _ _ old)
  · intro hash index staked
    exact Nat.lt_succ_of_lt (inv.known hash index staked)

theorem stakersInvariant_withoutStaker (inv : StakersInvariant s)
    (found : s.stakerIndex.find staker = some index) (ledger : T.Ledger) :
    StakersInvariant (withoutStaker s ledger staker index) := by
  have lookup : ∀ {staker' i},
      (withoutStaker s ledger staker index).stakerIndex.find staker' = some i →
      staker' ≠ staker ∧ s.stakerIndex.find staker' = some i := by
    intro staker' i there
    change (s.stakerIndex.remove staker).find staker' = _ at there
    rw [find_remove] at there
    split at there
    · cases there
    · next other => exact ⟨other, there⟩
  refine ⟨?_, ?_, ?_, inv.known, inv.single⟩
  · intro i
    change (s.stakers.remove index).mem i = true ↔ _
    rw [mem_remove, inv.active]
    constructor
    · rintro ⟨other, staker', there⟩
      have otherStaker : staker' ≠ staker := fun same => by
        subst same
        exact other (Option.some.inj (there.symm.trans found))
      exact ⟨staker', (find_remove_of_ne otherStaker).trans there⟩
    · rintro ⟨staker', there⟩
      obtain ⟨other, there⟩ := lookup there
      exact ⟨fun same => other (inv.unique staker' staker index (same ▸ there) found), staker', there⟩
  · intro staker₁ staker₂ i found₁ found₂
    exact inv.unique staker₁ staker₂ i (lookup found₁).2 (lookup found₂).2
  · intro staker' i there
    exact inv.bounded staker' i (lookup there).2

end Stakers

end Octez.Proof.RollupStorage
