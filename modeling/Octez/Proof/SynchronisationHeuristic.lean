import Octez.Model.SynchronisationHeuristic

namespace Octez.Proof.SynchronisationHeuristic
open Octez.Lib Octez.SynchronisationHeuristic Core
variable {Peer : Type} {state : Core Peer} {candidate : Candidate Peer} {l r : Option (Candidate Peer)}

/-- The order of the entries. An entry without a candidate comes first. -/
def stamp : Option (Candidate Peer) → WithBot Int
  | none => ⊥
  | some (t, _) => t

@[simp] theorem stamp_some : stamp (some candidate) = candidate.1 := rfl

theorem earlierOrCoincidentO_iff : earlierOrCoincidentO l r = true ↔ stamp l ≤ stamp r := by
  rcases l with _ | ⟨i, _⟩ <;> rcases r with _ | ⟨j, _⟩ <;>
    simp [earlierOrCoincidentO, earlierO, coincidentO, stamp, le_iff_lt_or_eq]

theorem earlier_iff : earlier l candidate = true ↔ stamp l < candidate.1 := by
  rcases l with _ | ⟨i, _⟩ <;> simp [earlier, stamp]

theorem earlierRo_iff : earlierRo candidate r = true ↔ candidate.1 < stamp r := by
  rcases r with _ | ⟨j, _⟩ <;> simp [earlierRo, stamp]

section Entries
variable {size index oldest youngest : Nat} {entries : Nat → Option (Candidate Peer)}
  {history : List (Candidate Peer)} {t : Int} {peer : Peer}

/-- The entries are the latest candidates of their peers, and no entry is older than a candidate of
another peer. -/
structure Records (size : Nat) (entries : Nat → Option (Candidate Peer))
    (history : List (Candidate Peer)) : Prop where
  distinct : ∀ {i j s t peer}, i < size → j < size → entries i = some (s, peer) →
    entries j = some (t, peer) → i = j
  received : ∀ {i candidate}, i < size → entries i = some candidate → candidate ∈ history
  latest : ∀ {i s t peer}, i < size → entries i = some (t, peer) → (s, peer) ∈ history → s ≤ t
  forgotten : ∀ {s peer}, (s, peer) ∈ history →
    (∃ i < size, ∃ t, entries i = some (t, peer)) ∨ ∀ i < size, s ≤ stamp (entries i)

structure Pointers (size : Nat) (entries : Nat → Option (Candidate Peer)) (oldest youngest : Nat) :
    Prop where
  oldest_lt : oldest < size
  youngest_lt : youngest < size
  oldest_le : ∀ i < size, stamp (entries oldest) ≤ stamp (entries i)
  le_youngest : ∀ i < size, stamp (entries i) ≤ stamp (entries youngest)

theorem Records.kept (records : Records size entries history)
    (held : (∃ i < size, ∃ s, entries i = some (s, peer)) ∨ ∀ i < size, t ≤ stamp (entries i))
    (notLater : ∀ i < size, ∀ s, entries i = some (s, peer) → t ≤ s) :
    Records size entries ((t, peer) :: history) where
  distinct := records.distinct
  received bound found := .tail _ (records.received bound found)
  latest bound found member := by
    rcases List.mem_cons.1 member with same | member
    · cases same
      exact notLater _ bound _ found
    · exact records.latest bound found member
  forgotten member := by
    rcases List.mem_cons.1 member with same | member
    · cases same
      exact held
    · exact records.forgotten member

/-- The place of a candidate is the entry of its peer, or the oldest entry if its peer has none. -/
def Place (size : Nat) (entries : Nat → Option (Candidate Peer)) (peer : Peer) (index : Nat) : Prop :=
  (∃ s, entries index = some (s, peer)) ∨ (∀ i < size, ∀ s, entries i ≠ some (s, peer)) ∧
      ∀ i < size, stamp (entries index) ≤ stamp (entries i)

theorem Place.unique (place : Place size entries peer index) (records : Records size entries history)
    (bound : index < size) {i : Nat} {s : Int} (bound' : i < size) (found : entries i = some (s, peer)) :
    i = index := by
  rcases place with ⟨_, here⟩ | ⟨absent, -⟩
  · exact records.distinct bound' bound found here
  · exact absurd found (absent i bound' s)

theorem Records.written (records : Records size entries history) (bound : index < size)
    (place : Place size entries peer index) (later : stamp (entries index) < t) :
    Records size (Function.update entries index (some (t, peer))) ((t, peer) :: history) := by
  have old : ∀ s, (s, peer) ∈ history → s ≤ t := by
    intro s member
    suffices le : s ≤ stamp (entries index) from WithBot.coe_le_coe.1 (le.trans later.le)
    rcases records.forgotten member with ⟨i, bound', u, found⟩ | le
    · obtain rfl := place.unique records bound bound' found
      rw [found]
      exact WithBot.coe_le_coe.2 (records.latest bound found member)
    · exact le index bound
  obtain ⟨distinct, received, latest, forgotten⟩ := records
  constructor
  · intro i j s u p first second here there
    grind [Function.update_apply, Place]
  · grind [Function.update_apply]
  · intro i s u p bound here member
    grind [Function.update_apply, Place]
  · intro s p member
    -- What is below all the old entries is below all the new ones.
    have below (le : ∀ i < size, s ≤ stamp (entries i)) :
        ∀ i < size, s ≤ stamp (Function.update entries index (some (t, peer)) i) := by
      intro i bound'
      have here := (le index bound).trans_lt later
      grind [Function.update_apply, stamp_some]
    by_cases mine : p = peer
    · exact .inl ⟨index, bound, t, by rw [Function.update_self, mine]⟩
    rcases forgotten (by simpa [mine] using member) with ⟨i, bound', u, found⟩ | le
    · by_cases here : i = index
      · have oldest := (place.resolve_left (by grind)).2
        refine .inr (below fun j bound => le_trans ?_ (oldest j bound))
        rw [← here, found]
        exact WithBot.coe_le_coe.2 (latest bound' found (by simpa [mine] using member))
      · exact .inl ⟨i, bound', u, by rw [Function.update_of_ne here, found]⟩
    · exact .inr (below le)

theorem stamp_mayUpdateBinding (state : Core Peer) (candidate : Candidate Peer) (index i : Nat) :
    stamp ((state.mayUpdateBinding index candidate).candidates i) =
      if i = index then max (stamp (state.candidates i)) candidate.1 else stamp (state.candidates i) := by
  unfold mayUpdateBinding
  by_cases here : i = index
  · subst here
    split
    · rename_i later
      simp [(earlier_iff.1 later).le]
    · rename_i later
      rw [if_pos rfl, max_eq_left (le_of_not_gt fun lt => later (earlier_iff.2 lt))]
  · split <;> simp [here]

theorem Records.mayUpdateBinding (records : Records size state.candidates history) (bound : index < size)
    (place : Place size state.candidates candidate.2 index) :
    Records size (state.mayUpdateBinding index candidate).candidates (candidate :: history) := by
  unfold Core.mayUpdateBinding
  split
  · exact records.written bound place (earlier_iff.1 ‹_›)
  · rename_i later
    have le : candidate.1 ≤ stamp (state.candidates index) :=
      le_of_not_gt fun lt => later (earlier_iff.2 lt)
    refine records.kept ?_ fun i bound' s found => ?_
    · exact place.imp (fun held => ⟨index, bound, held⟩) fun oldest i bound' => le.trans (oldest.2 i bound')
    · obtain rfl := place.unique records bound bound' found
      rw [found] at le
      exact WithBot.coe_le_coe.1 le

end Entries

section Step

/-- What the scan has found in the first entries. -/
structure Scanned (state : Core Peer) (peer : Peer) (count : Nat) (found : Nat × Nat) : Prop where
  place : (found.1 < state.threshold.toNat ∧ ∃ s, state.candidates found.1 = some (s, peer)) ∨
    found.1 = state.indexOfOldestCandidate ∧ ∀ i < count, ∀ s, state.candidates i ≠ some (s, peer)
  second_lt : found.2 < state.threshold.toNat
  second_le : ∀ i < count, i ≠ state.indexOfOldestCandidate →
    stamp (state.candidates found.2) ≤ stamp (state.candidates i)
  second_ne : found.2 = state.indexOfOldestCandidate →
    found.2 = state.indexOfYoungestCandidate ∧ ∀ i < count, i = state.indexOfOldestCandidate

abbrev PointersOf (state : Core Peer) : Prop :=
  Pointers state.threshold.toNat state.candidates state.indexOfOldestCandidate state.indexOfYoungestCandidate

theorem pointers_updated {found : Nat × Nat} (two : 2 ≤ state.threshold.toNat) (pointers : PointersOf state)
    (scanned : Scanned state candidate.2 state.threshold.toNat found)
    (bound : found.1 < state.threshold.toNat)
    (notOlder : stamp (state.candidates state.indexOfOldestCandidate) ≤ candidate.1) :
    Pointers state.threshold.toNat (state.mayUpdateBinding found.1 candidate).candidates
      (if found.1 = state.indexOfOldestCandidate ∧
          earlier ((state.mayUpdateBinding found.1 candidate).candidates found.2) candidate
        then found.2 else state.indexOfOldestCandidate)
      (if earlier ((state.mayUpdateBinding found.1 candidate).candidates state.indexOfYoungestCandidate)
          candidate then found.1 else state.indexOfYoungestCandidate) := by
  have second_ne : found.2 ≠ state.indexOfOldestCandidate := by
    intro same
    have all := (scanned.second_ne same).2
    have first := all 0 (by omega)
    have next := all 1 (by omega)
    omega
  have entry := stamp_mayUpdateBinding state candidate found.1
  obtain ⟨oldest_lt, youngest_lt, oldest_le, le_youngest⟩ := pointers
  obtain ⟨place, second_lt, second_le, -⟩ := scanned
  simp only [earlier_iff]
  constructor
  · grind
  · grind
  · intro i bound
    grind
  · intro i bound
    grind

structure Sound (threshold latency : Int) (history : List (Candidate Peer)) (state : Core Peer) :
    Prop where
  threshold_eq : state.threshold = threshold
  latency_eq : state.latency = latency
  records : Records threshold.toNat state.candidates history
  pointers : Pointers threshold.toNat state.candidates state.indexOfOldestCandidate
    state.indexOfYoungestCandidate

variable {threshold latency : Int} {history : List (Candidate Peer)}

theorem create_sound (positive : 1 ≤ threshold) :
    Sound threshold latency [] (create threshold latency : Core Peer) where
  threshold_eq := rfl
  latency_eq := rfl
  records := ⟨nofun, nofun, nofun, nofun⟩
  pointers := ⟨by simp only [create]; omega, by simp only [create]; omega, fun _ _ => le_rfl,
    fun _ _ => le_rfl⟩

theorem mayUpdateBinding_kept (state : Core Peer) (candidate : Candidate Peer) (index : Nat) :
    (state.mayUpdateBinding index candidate).threshold = state.threshold ∧
      (state.mayUpdateBinding index candidate).latency = state.latency := by
  unfold mayUpdateBinding
  split <;> exact ⟨rfl, rfl⟩

variable [DecidableEq Peer]

theorem samePeer_iff (candidate : Candidate Peer) (l : Option (Candidate Peer)) :
    samePeer candidate l = true ↔ ∃ s, l = some (s, candidate.2) := by
  rcases l with _ | ⟨s, peer⟩ <;> simp [samePeer]

theorem scan_scanned (candidate : Candidate Peer) (pointers : PointersOf state) :
    Scanned state candidate.2 state.threshold.toNat (state.scan candidate) := by
  unfold scan
  suffices all : ∀ count ≤ state.threshold.toNat, Scanned state candidate.2 count
      ((List.range count).foldl _ (state.indexOfOldestCandidate, state.indexOfYoungestCandidate)) from
    all _ le_rfl
  intro count
  induction count with
  | zero =>
    intro _
    exact ⟨.inr ⟨rfl, by simp⟩, pointers.youngest_lt, by simp, fun same => ⟨rfl, by simp⟩⟩
  | succ count ih =>
    intro bound
    have scanned := ih (by omega)
    rw [List.range_succ, List.foldl_append, List.foldl_cons, List.foldl_nil]
    generalize (List.range count).foldl _ _ = found at scanned ⊢
    obtain ⟨place, second_lt, second_le, second_ne⟩ := scanned
    have le_youngest := pointers.le_youngest count bound
    have here := samePeer_iff candidate (state.candidates count)
    constructor <;> simp only [earlierOrCoincidentO_iff]
    · grind
    · grind
    · intro i before ne
      grind
    · split
      · grind
      · intro same
        obtain ⟨young, all⟩ := second_ne same
        rw [← young] at le_youngest
        refine ⟨young, fun i before => ?_⟩
        rcases Nat.lt_succ_iff_lt_or_eq.1 before with before | rfl
        · exact all i before
        · grind

theorem updateCandidates_sound (candidate : Candidate Peer) (positive : 1 ≤ threshold)
    (sound : Sound threshold latency history state) :
    Sound threshold latency (candidate :: history) (state.updateCandidates candidate) := by
  obtain ⟨rfl, rfl, records, pointers⟩ := sound
  unfold updateCandidates
  rw [if_neg (by omega)]
  split_ifs with single early
  · have only {i : Nat} (bound : i < state.threshold.toNat) : i = 0 := by omega
    have place : Place state.threshold.toNat state.candidates candidate.2 0 := by
      by_cases held : ∃ s, state.candidates 0 = some (s, candidate.2)
      · exact .inl held
      · refine .inr ⟨fun i bound s found => held ⟨s, only bound ▸ found⟩, fun i bound => ?_⟩
        rw [only bound]
    obtain ⟨threshold_eq, latency_eq⟩ := mayUpdateBinding_kept state candidate 0
    refine ⟨threshold_eq, latency_eq, records.mayUpdateBinding (by omega) place, ?_⟩
    have oldest := only pointers.oldest_lt
    have youngest := only pointers.youngest_lt
    unfold mayUpdateBinding
    split <;> refine ⟨pointers.oldest_lt, pointers.youngest_lt, fun i bound => ?_, fun i bound => ?_⟩ <;>
      simp [only bound, oldest, youngest]
  · have le : ∀ i < state.threshold.toNat, candidate.1 ≤ stamp (state.candidates i) :=
      fun i bound => (earlierRo_iff.1 early).le.trans (pointers.oldest_le i bound)
    refine ⟨rfl, rfl, records.kept (.inr le) fun i bound s found => ?_, pointers⟩
    have le := le i bound
    rw [found] at le
    exact WithBot.coe_le_coe.1 le
  · have scanned := scan_scanned candidate pointers
    have notOlder := le_of_not_gt fun lt => early (earlierRo_iff.2 lt)
    have bound : (state.scan candidate).1 < state.threshold.toNat := by
      rcases scanned.place with ⟨bound, -⟩ | ⟨same, -⟩
      · exact bound
      · exact same ▸ pointers.oldest_lt
    have place : Place state.threshold.toNat state.candidates candidate.2 (state.scan candidate).1 :=
      scanned.place.imp And.right fun ⟨same, absent⟩ => ⟨absent, same ▸ pointers.oldest_le⟩
    obtain ⟨threshold_eq, latency_eq⟩ := mayUpdateBinding_kept state candidate (state.scan candidate).1
    exact ⟨threshold_eq, latency_eq, records.mayUpdateBinding bound place,
      pointers_updated (by omega) pointers scanned bound notOlder⟩

theorem run_sound (positive : 1 ≤ threshold) (updates : List (Candidate Peer × Int)) :
    Sound threshold latency (updates.map Prod.fst).reverse (run threshold latency updates) := by
  induction updates using List.reverseRecOn with
  | nil => exact create_sound positive
  | append_singleton updates last ih =>
    unfold run at *
    rw [List.foldl_append, List.map_append, List.reverse_append]
    obtain ⟨threshold_eq, latency_eq, records, pointers⟩ :=
      updateCandidates_sound last.1 positive ih
    exact ⟨threshold_eq, latency_eq, records, pointers⟩

end Step

section Specification
variable [DecidableEq Peer] {threshold latency now t : Int} {history : List (Candidate Peer)}

def latest (history : List (Candidate Peer)) (peer : Peer) : Option Int :=
  ((history.filter (·.2 = peer)).map Prod.fst).max?

/-- These are the latest timestamps of `n` peers, or of all if there are fewer, and those of the other
peers are not greater. -/
def Greatest (n : Nat) (history : List (Candidate Peer)) (timestamps : List Int) : Prop :=
  ∃ best : List Peer, best.Nodup ∧ best.map (latest history) = timestamps.map some ∧
    best.length ≤ n ∧ (best.length = n ∨ ∀ candidate ∈ history, candidate.2 ∈ best) ∧
    ∀ peer ∉ best, ∀ s ∈ latest history peer, ∀ t ∈ timestamps, s ≤ t

def stored (state : Core Peer) : List Int :=
  (List.range state.threshold.toNat).filterMap fun i => (state.candidates i).map Prod.fst

def specifiedStatus (threshold latency now : Int) (stored : List Int) : Status :=
  match stored.min? with
  | none => .notSynchronised
  | some oldest =>
    if stored.length < threshold then .notSynchronised
    else if now - oldest ≤ latency then .synchronised false
    else if 2 ≤ threshold ∧ ∀ t ∈ stored, t = oldest then .synchronised true
    else .notSynchronised

theorem latest_eq_some {peer : Peer} : latest history peer = some t ↔
    (t, peer) ∈ history ∧ ∀ s, (s, peer) ∈ history → s ≤ t := by
  unfold latest
  rw [List.max?_eq_some_iff]
  simp

omit [DecidableEq Peer]

theorem mem_stored : t ∈ stored state ↔
    ∃ i < state.threshold.toNat, ∃ peer, state.candidates i = some (t, peer) := by
  simp [stored]

theorem length_filterMap {α : Type} {s : Int} (f : Candidate Peer → α)
    (le : ∀ i < state.threshold.toNat, s ≤ stamp (state.candidates i)) :
    ((List.range state.threshold.toNat).filterMap fun i => (state.candidates i).map f).length =
      state.threshold.toNat := by
  rw [List.filterMap_length_eq_length.2 fun i member => ?_, List.length_range]
  have le := le i (List.mem_range.1 member)
  cases here : state.candidates i with
  | none =>
    rw [here] at le
    exact absurd le (WithBot.not_coe_le_bot s)
  | some candidate => rfl

theorem stored_greatest [DecidableEq Peer] (sound : Sound threshold latency history state) :
    Greatest threshold.toNat history (stored state) := by
  obtain ⟨rfl, rfl, records, -⟩ := sound
  let best : List Peer := (List.range state.threshold.toNat).filterMap fun i =>
    (state.candidates i).map Prod.snd
  have below {s : Int} {peer : Peer} (other : peer ∉ best) (member : (s, peer) ∈ history) :
      ∀ i < state.threshold.toNat, s ≤ stamp (state.candidates i) :=
    (records.forgotten member).resolve_left fun ⟨i, bound, t, held⟩ =>
      other (List.mem_filterMap.2 ⟨i, List.mem_range.2 bound, by rw [held]; rfl⟩)
  refine ⟨best, ?_, ?_, ?_, ?_, ?_⟩
  · refine List.pairwise_filterMap.2 (List.nodup_range.imp_of_mem fun {i j} first second ne => ?_)
    rintro _ here _ there rfl
    obtain ⟨⟨s, _⟩, held, rfl⟩ := Option.map_eq_some_iff.1 here
    obtain ⟨⟨t, _⟩, held', same⟩ := Option.map_eq_some_iff.1 there
    subst same
    exact ne (records.distinct (List.mem_range.1 first) (List.mem_range.1 second) held held')
  · rw [stored, List.map_filterMap, List.map_filterMap]
    refine List.filterMap_congr fun i member => ?_
    have bound := List.mem_range.1 member
    cases held : state.candidates i with
    | none => rfl
    | some candidate =>
      exact congrArg some (latest_eq_some.2 ⟨records.received bound held, fun s => records.latest bound held⟩)
  · simpa using List.length_filterMap_le _ (List.range state.threshold.toNat)
  · refine or_iff_not_imp_right.2 fun missing => ?_
    push Not at missing
    obtain ⟨candidate, member, other⟩ := missing
    exact length_filterMap _ (below other member)
  · intro peer other s last t member
    obtain ⟨i, bound, peer, held⟩ := mem_stored.1 member
    have le := below other (latest_eq_some.1 last).1 i bound
    rw [held] at le
    exact WithBot.coe_le_coe.1 le

theorem computeStatus_eq (positive : 1 ≤ threshold) (sound : Sound threshold latency history state)
    (fits : ∀ oldest ∈ (stored state).min?, -2 ^ 63 ≤ oldest + latency ∧ oldest + latency ≤ maxInt64) :
    state.computeStatus now = specifiedStatus threshold latency now (stored state) := by
  obtain ⟨rfl, rfl, -, pointers⟩ := sound
  unfold computeStatus
  rw [if_neg (by omega), if_neg (by omega)]
  cases first : state.candidates state.indexOfOldestCandidate with
  | none =>
    have short : (stored state).length < state.threshold.toNat := by
      simpa [stored] using List.length_filterMap_lt_length_iff_exists.2
        ⟨_, List.mem_range.2 pointers.oldest_lt, congrArg (Option.map Prod.fst) first⟩
    rw [specifiedStatus]
    cases state.candidates state.indexOfYoungestCandidate <;> grind
  | some oldest =>
    have oldest_le := pointers.oldest_le
    have le_youngest := pointers.le_youngest
    rw [first] at oldest_le
    have full : (stored state).length = state.threshold.toNat := length_filterMap _ oldest_le
    cases last : state.candidates state.indexOfYoungestCandidate with
    | none => exact absurd (last ▸ oldest_le _ pointers.youngest_lt) (WithBot.not_coe_le_bot _)
    | some youngest =>
      rw [last] at le_youngest
      have between : ∀ t ∈ stored state, oldest.1 ≤ t ∧ t ≤ youngest.1 := by
        intro t member
        obtain ⟨i, bound, peer, here⟩ := mem_stored.1 member
        have lower := oldest_le i bound
        have upper := le_youngest i bound
        rw [here] at lower upper
        exact ⟨WithBot.coe_le_coe.1 lower, WithBot.coe_le_coe.1 upper⟩
      have inside : oldest.1 ∈ stored state := mem_stored.2 ⟨_, pointers.oldest_lt, _, first⟩
      have inside' : youngest.1 ∈ stored state := mem_stored.2 ⟨_, pointers.youngest_lt, _, last⟩
      have min : (stored state).min? = some oldest.1 :=
        List.min?_eq_some_iff.2 ⟨inside, fun t member => (between t member).1⟩
      obtain ⟨lower, upper⟩ := fits oldest.1 min
      have stuck : youngest.1 = oldest.1 ∧ state.threshold ≠ 1 ↔
          2 ≤ state.threshold ∧ ∀ t ∈ stored state, t = oldest.1 := by
        grind
      rw [specifiedStatus, min]
      simp only [wrap64_of_fits lower upper, stuck]
      rw [if_neg (c := _ < _) (by omega)]
      exact if_congr (by omega) rfl rfl

theorem heuristic_meets_specification [DecidableEq Peer] (threshold latency : Int)
    (positive : 1 ≤ threshold) (updates : List (Candidate Peer × Int)) (candidate : Candidate Peer)
    (now : Int) :
    let state := (run threshold latency updates).update candidate now
    Greatest threshold.toNat (candidate :: (updates.map Prod.fst).reverse) (stored state) ∧
    ((∀ oldest ∈ (stored state).min?, -2 ^ 63 ≤ oldest + latency ∧ oldest + latency ≤ maxInt64) →
      state.currentStatus = specifiedStatus threshold latency now (stored state)) := by
  have sound : Sound threshold latency (candidate :: (updates.map Prod.fst).reverse)
      ((run threshold latency updates).updateCandidates candidate) :=
    updateCandidates_sound candidate positive (run_sound positive updates)
  exact ⟨(stored_greatest sound :), fun fits => computeStatus_eq positive sound fits⟩

theorem two_of_three_synchronised :
    let state := (run 2 150 [((100, 0), 120), ((90, 1), 130)] : Core Nat).update (110, 2) 200
    Greatest 2 [(110, 2), (90, 1), (100, 0)] [100, 110] ∧ stored state = [100, 110] ∧
      state.currentStatus = .synchronised false := by
  obtain ⟨greatest, status⟩ := heuristic_meets_specification 2 150 (by decide)
    [((100, 0), 120), ((90, 1), 130)] ((110, 2) : Candidate Nat) 200
  exact ⟨greatest, rfl, status (by decide)⟩

/-- The sum of the timestamp and of the latency is too large for 64 bits. -/
theorem wrapped_sum_not_synchronised :
    let state := (create 1 (2 ^ 62 - 1) : Core Nat).update (2 ^ 62 + 1, 0) 10
    stored state = [2 ^ 62 + 1] ∧ |10 - (2 ^ 62 + 1 : Int)| ≤ 2 ^ 62 - 1 ∧
      specifiedStatus 1 (2 ^ 62 - 1) 10 (stored state) = .synchronised false ∧
      state.currentStatus = .notSynchronised := by
  refine ⟨rfl, by decide, rfl, rfl⟩

end Specification

end Octez.Proof.SynchronisationHeuristic
