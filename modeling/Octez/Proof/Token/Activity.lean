import Octez.Proof.Token.Delegates

namespace Octez.Proof.Token
open Octez.Lib Octez.Token Table DelegateStorage Octez.Proof.Slashing
open Octez.Proof.Staking (add_eq_ok)

/-- What the tables hold for one delegate. -/
structure Standing where
  active : Bool
  balance : Option FullStakingBalance
  flagged : Bool
  last : Option Nat
  registered : Bool

namespace Standing

def inactive (cycle : Nat) (s : Standing) : Bool := s.flagged || s.last.any (· < cycle)

/-- The delegate is in the set of active delegates when it should be, as seen from a cycle. -/
structure Sound (enough : FullStakingBalance → Bool) (delay cycle : Nat) (s : Standing) : Prop where
  active : s.active = (s.balance.any enough && !s.inactive cycle)
  registered : s.registered = s.balance.isSome
  -- nobody is deactivated before `update_activity` starts to look at the activity
  lasting : ∀ last, s.last = some last → delay ≤ last

variable {enough : FullStakingBalance → Bool} {delay now cycle last : Nat} {s : Standing}

theorem inactive_mono (later : now ≤ cycle) (inactive : s.inactive now = true) : s.inactive cycle = true := by
  simp only [Standing.inactive, Bool.or_eq_true, Option.any_eq_true, decide_eq_true_eq] at inactive ⊢
  rcases inactive with flagged | ⟨last, stored, before⟩
  · exact .inl flagged
  · exact .inr ⟨last, stored, before.trans_le later⟩

namespace Sound
variable (sound : s.Sound enough delay cycle)
include sound

/-- A delegate that is about to become inactive must not be added for its new balance. -/
theorem restaked {before after} (found : s.balance = some before) (early : now ≤ cycle)
    (steady : enough before = false → enough after = true → s.inactive cycle = true →
      s.inactive now = true) : Sound enough delay cycle { s with
      balance := some after
      active := if enough before ≠ enough after ∧ s.inactive now = false then enough after
        else s.active } := by
  have later := inactive_mono (s := s) early
  refine ⟨?_, by simp [sound.registered, found], sound.lasting⟩
  change _ = (_ && !s.inactive cycle)
  rw [sound.active, found]
  grind

theorem activated (lasting : delay ≤ last) (later : cycle ≤ last) : Sound enough delay cycle { s with
      flagged := false
      last := some last
      active := s.active || (s.inactive cycle && s.balance.any enough) } := by
  refine ⟨?_, sound.registered, ?_⟩
  · simp only [sound.active, inactive, Option.any_some, Bool.false_or, Nat.not_lt.2 later]
    grind
  · rintro _ ⟨⟩
    exact lasting

theorem deactivated (cycle' : Nat) : Sound enough delay cycle' { s with flagged := true, active := false } :=
  ⟨by simp [inactive], sound.registered, sound.lasting⟩

theorem registering {balance} (unknown : s.balance = none) (lasting : delay ≤ last)
    (later : cycle ≤ last) (inactive : Bool) : Sound enough delay cycle { s with
      balance := some balance
      registered := true
      flagged := false
      last := some last
      active := s.active || enough balance || (inactive && enough balance) } := by
  refine ⟨?_, rfl, ?_⟩
  · simp only [sound.active, unknown, Standing.inactive, Option.any_some, Option.any_none, Nat.not_lt.2 later]
    grind
  · rintro _ ⟨⟩
    exact lasting

theorem next (kept : s.active = true → s.last.any (· ≤ cycle) = false) :
    s.Sound enough delay (cycle + 1) := by
  refine ⟨?_, sound.registered, sound.lasting⟩
  have later := inactive_mono (s := s) (Nat.le_succ cycle)
  have known := sound.active
  cases active : s.active with
  | true => simp_all [inactive]
  | false => grind

end Sound

end Standing

variable {T : TokenTypes} [DecidableEq T.Pkh]

section
variable (ctxt : Context T) (delegate : T.Pkh)

def standing : Standing where
  active := ctxt.activeDelegatesWithMinimalStake.mem delegate
  balance := ctxt.stakingBalance.find delegate
  flagged := ctxt.inactiveDelegate.mem delegate
  last := ctxt.delegateLastCycleBeforeDeactivation.find delegate
  registered := registered ctxt delegate

theorem isInactive_eq :
    isInactive ctxt delegate = (standing ctxt delegate).inactive ctxt.currentLevel.cycle := by
  unfold isInactive standing Standing.inactive
  cases ctxt.inactiveDelegate.mem delegate with
  | true => rfl
  | false => cases ctxt.delegateLastCycleBeforeDeactivation.find delegate <;> rfl

end

/-- The runs that change the activity or the stake of delegates; `ended` once the activity has been
updated at the end of the cycle. -/
inductive Run [DecidableEq T.ContractHash] (le : T.Pkh → T.Pkh → Bool) : (ended : Bool) → Context T → Prop
  | genesis {ctxt} (nobody : ∀ delegate, standing ctxt delegate = ⟨false, none, false, none, false⟩) :
    Run le false ctxt
  | register {ctxt ctxt' delegate} (run : Run le false ctxt)
    (registered : setSelfDelegate ctxt delegate = .ok ctxt') : Run le false ctxt'
  | updateStake {ctxt ctxt' delegate f} (run : Run le false ctxt)
    (updated : updateStake f ctxt delegate = .ok ctxt') : Run le false ctxt'
  | setActive {ctxt ctxt' delegate} (run : Run le false ctxt)
    (activated : setActive ctxt delegate = .ok ctxt') : Run le false ctxt'
  | setInactive {ended ctxt} (delegate : T.Pkh) (run : Run le ended ctxt) :
    Run le ended (setInactive ctxt delegate)
  /-- Anything else, up to a level of the same cycle. -/
  | other {ended ctxt ctxt'} (run : Run le ended ctxt)
    (constants : ctxt'.constants = ctxt.constants)
    (cycle : ctxt'.currentLevel.cycle = ctxt.currentLevel.cycle)
    (kept : ∀ delegate, standing ctxt' delegate = standing ctxt delegate) : Run le ended ctxt'
  | endCycle {ctxt after} (run : Run le false ctxt)
    (updated : updateActivity ctxt le ctxt.currentLevel.cycle = .ok after) : Run le true after.1
  /-- `adjust_frozen_stakes` stakes for the active delegates and unstakes for those that have just
  been deactivated. -/
  | adjust {ctxt ctxt' delegate f} (run : Run le true ctxt)
    (chosen : ctxt.activeDelegatesWithMinimalStake.mem delegate ∨ ctxt.inactiveDelegate.mem delegate)
    (updated : Octez.Token.updateStake f ctxt delegate = .ok ctxt') : Run le true ctxt'
  /-- The requests of the chosen delegate that it finalizes may be to a delegate it had before. -/
  | finalize {ctxt ctxt' delegate amount} (run : Run le true ctxt)
    (removed : removeDelegatedStake ctxt delegate amount = .ok ctxt') : Run le true ctxt'
  | newCycle {ctxt} (level : Level) (run : Run le true ctxt)
    (next : level.cycle = ctxt.currentLevel.cycle + 1) : Run le false { ctxt with currentLevel := level }

variable {ctxt ctxt' ctxt'' : Context T} {delegate : T.Pkh}

/-- Only what the tables hold for one delegate changes. -/
structure ChangedAt (ctxt ctxt' : Context T) (delegate : T.Pkh) (change : Standing → Standing) : Prop where
  constants : ctxt'.constants = ctxt.constants
  level : ctxt'.currentLevel = ctxt.currentLevel
  others : ∀ other ≠ delegate, standing ctxt' other = standing ctxt other
  here : standing ctxt' delegate = change (standing ctxt delegate)

section Changes
variable {change change' : Standing → Standing}

theorem ChangedAt.trans (second : ChangedAt ctxt' ctxt'' delegate change')
    (first : ChangedAt ctxt ctxt' delegate change) :
    ChangedAt ctxt ctxt'' delegate fun s => change' (change s) where
  constants := second.constants.trans first.constants
  level := second.level.trans first.level
  others other differ := (second.others other differ).trans (first.others other differ)
  here := by rw [second.here, first.here]

variable (ctxt delegate)

theorem addIfMinimal_changed (minimal : Bool) : ChangedAt ctxt (addIfMinimal ctxt delegate minimal) delegate
    fun s => { s with active := s.active || minimal } := by
  cases minimal with
  | false => exact ⟨rfl, rfl, fun _ _ => rfl, by simp [addIfMinimal]⟩
  | true =>
    refine ⟨rfl, rfl, fun other differ => ?_, ?_⟩
    · simp [addIfMinimal, addActiveDelegate, standing, registered, Table.mem, find_add, differ]
    · simp [addIfMinimal, addActiveDelegate, standing, registered, Table.mem]

theorem setBalance_changed (balance : FullStakingBalance) : ChangedAt ctxt
    { ctxt with stakingBalance := ctxt.stakingBalance.add delegate balance } delegate
    fun s => { s with balance := some balance } := by
  refine ⟨rfl, rfl, fun other differ => ?_, ?_⟩
  · simp [standing, registered, find_add, differ]
  · simp [standing, registered]

theorem updateActiveDelegates_changed (had has : Bool) :
    ChangedAt ctxt (updateActiveDelegates ctxt delegate had has) delegate fun s => { s with
      active := if had ≠ has ∧ isInactive ctxt delegate = false then has else s.active } := by
  unfold updateActiveDelegates
  refine ⟨?_, ?_, fun other differ => ?_, ?_⟩ <;> cases had <;> cases has <;>
    cases inactive : isInactive ctxt delegate
  all_goals simp [addActiveDelegate, removeActiveDelegate, standing, registered, Table.mem, find_add,
    find_remove, *]

theorem activate_changed : ChangedAt ctxt (activate ctxt delegate).1 delegate fun s => { s with
    flagged := false, last := some (lastActiveCycle ctxt delegate (isInactive ctxt delegate)) } := by
  unfold activate
  cases inactive : isInactive ctxt delegate with
  | true =>
    refine ⟨rfl, rfl, fun other differ => ?_, ?_⟩
    · simp [standing, registered, Table.mem, find_add, find_remove, differ]
    · simp [standing, registered, Table.mem, find_remove]
  | false =>
    rw [isInactive_eq] at inactive
    refine ⟨rfl, rfl, fun other differ => ?_, ?_⟩
    · simp [standing, registered, find_add, differ]
    · simpa [standing, registered] using (Bool.or_eq_false_iff.1 inactive).1

theorem setInactive_changed : ChangedAt ctxt (setInactive ctxt delegate) delegate fun s =>
    { s with flagged := true, active := false } := by
  refine ⟨rfl, rfl, fun other differ => ?_, ?_⟩
  · simp [standing, setInactive, removeActiveDelegate, Table.mem, find_add, find_remove, differ, registered]
  · simp [standing, setInactive, removeActiveDelegate, Table.mem, find_remove, registered]

end Changes

variable {enough : FullStakingBalance → Bool}

omit [DecidableEq T.Pkh] in
/-- The kernel evaluates the sum of the balances when it meets `hasMinimalStake` at a context, so the
proofs keep it behind a name. -/
theorem hasMinimalStake_of_eq (minimal : hasMinimalStake ctxt = enough)
    (same : ctxt'.constants = ctxt.constants) : hasMinimalStake ctxt' = enough := by
  rw [← minimal]
  unfold hasMinimalStake
  rw [same]

theorem setActive_changed (minimal : hasMinimalStake ctxt = enough)
    (activated : setActive ctxt delegate = .ok ctxt') : ChangedAt ctxt ctxt' delegate fun s => { s with
      flagged := false
      last := some (lastActiveCycle ctxt delegate (isInactive ctxt delegate))
      active := s.active ||
        (isInactive ctxt delegate && (standing ctxt delegate).balance.any enough) } := by
  have changed := activate_changed ctxt delegate
  have inactive_eq : (activate ctxt delegate).2 = isInactive ctxt delegate := by
    unfold activate
    dsimp only
    split <;> rfl
  unfold setActive at activated
  cases inactive : isInactive ctxt delegate with
  | true =>
    simp only [inactive_eq, inactive, if_true] at activated
    obtain ⟨balance, got, h⟩ := bind_eq_ok.1 activated
    have found : (standing (activate ctxt delegate).1 delegate).balance = some balance :=
      get_eq_ok.1 (liftStorage_eq_ok.1 got)
    rw [changed.here] at found
    dsimp only at found
    rw [hasMinimalStake_of_eq minimal changed.constants] at h
    cases h
    have added := (addIfMinimal_changed _ delegate (enough balance)).trans changed
    simpa [found, inactive] using added
  | false =>
    simp only [inactive_eq, inactive, Bool.false_eq_true, if_false] at activated
    cases activated
    simpa [inactive] using changed

theorem initializeDelegate_changed {amount : Tez} (minimal : hasMinimalStake ctxt = enough)
    (initialized : initializeDelegate ctxt delegate amount = .ok ctxt') :
    ∃ balance, (standing ctxt delegate).balance = none ∧ ChangedAt ctxt ctxt' delegate fun s =>
      { s with balance := some balance, active := s.active || enough balance } := by
  obtain ⟨balances, written, initialized⟩ := bind_eq_ok.1 initialized
  obtain ⟨absent, rfl⟩ := init_eq_ok.1 (liftStorage_eq_ok.1 written)
  simp (disch := rfl) only [hasMinimalStake_of_eq minimal] at initialized
  cases initialized
  exact ⟨_, absent, (addIfMinimal_changed _ delegate _).trans (setBalance_changed ctxt delegate _)⟩

theorem lastActiveCycle_ge (lasting : ∀ last, (standing ctxt delegate).last = some last →
      ctxt.constants.consensusRightsDelay ≤ last) (inactive : Bool) :
    ctxt.constants.consensusRightsDelay ≤ lastActiveCycle ctxt delegate inactive ∧
      ctxt.currentLevel.cycle ≤ lastActiveCycle ctxt delegate inactive := by
  unfold lastActiveCycle
  cases stored : ctxt.delegateLastCycleBeforeDeactivation.find delegate with
  | none => constructor <;> dsimp only <;> omega
  | some last =>
    have bound := lasting last stored
    constructor <;> dsimp only <;> omega

/-- Every delegate is where it should be, each as seen from a cycle. -/
structure Consistent (enough : FullStakingBalance → Bool) (seen : T.Pkh → Nat)
    (ctxt : Context T) : Prop where
  minimal : hasMinimalStake ctxt = enough
  sound : ∀ delegate,
    (standing ctxt delegate).Sound enough ctxt.constants.consensusRightsDelay (seen delegate)

namespace Consistent
variable {seen seen' : T.Pkh → Nat} {cycle : Nat} {change : Standing → Standing}

theorem changed (consistent : Consistent enough seen ctxt) (changed : ChangedAt ctxt ctxt' delegate change)
    (sound : (change (standing ctxt delegate)).Sound enough ctxt.constants.consensusRightsDelay
      (seen' delegate))
    (others : ∀ other ≠ delegate, seen' other = seen other) : Consistent enough seen' ctxt' := by
  refine ⟨hasMinimalStake_of_eq consistent.minimal changed.constants, ?_⟩
  intro other
  rw [changed.constants]
  by_cases same : other = delegate
  · rw [same, changed.here]
    exact sound
  · rw [changed.others other same, others other same]
    exact consistent.sound other

theorem restaked (consistent : Consistent enough seen ctxt) {f}
    (updated : updateStake f ctxt delegate = .ok ctxt') (early : ctxt.currentLevel.cycle ≤ seen delegate)
    (steady : ∀ before after, (standing ctxt delegate).balance = some before → f before = .ok after →
      enough before = false → enough after = true →
      (standing ctxt delegate).inactive (seen delegate) = true → isInactive ctxt delegate = true) :
    Consistent enough seen ctxt' ∧ ctxt'.currentLevel = ctxt.currentLevel := by
  obtain ⟨before, got, updated⟩ := bind_eq_ok.1 updated
  obtain ⟨after, computed, updated⟩ := bind_eq_ok.1 updated
  obtain ⟨balances, written, updated⟩ := bind_eq_ok.1 updated
  obtain ⟨-, rfl⟩ := update_eq_ok.1 (liftStorage_eq_ok.1 written)
  rw [consistent.minimal] at updated
  cases updated
  have found := get_eq_ok.1 (liftStorage_eq_ok.1 got)
  have changed := (updateActiveDelegates_changed _ delegate (enough before) (enough after)).trans
    (setBalance_changed ctxt delegate after)
  rw [isInactive_eq] at changed steady
  exact ⟨consistent.changed changed ((consistent.sound delegate).restaked found early
    (steady before after found (liftTez_eq_ok.1 computed))) fun _ _ => rfl, changed.level⟩

theorem activated (consistent : Consistent enough (fun _ => ctxt.currentLevel.cycle) ctxt)
    (activated : setActive ctxt delegate = .ok ctxt') :
    Consistent enough (fun _ => ctxt'.currentLevel.cycle) ctxt' := by
  have changed := setActive_changed consistent.minimal activated
  have sound := consistent.sound delegate
  obtain ⟨lasting, later⟩ := lastActiveCycle_ge sound.lasting (isInactive ctxt delegate)
  rw [isInactive_eq] at changed lasting later
  rw [changed.level]
  exact consistent.changed changed (sound.activated lasting later) fun _ _ => rfl

/-- While `update_activity` goes through the active delegates, those behind it are seen from the
next cycle already. -/
def endingCycle (cycle : Nat) (remaining : List T.Pkh) (delegate : T.Pkh) : Nat :=
  if delegate ∈ remaining then cycle else cycle + 1

variable {remaining deactivated : List T.Pkh} {acc' : Context T × List T.Pkh}

theorem deactivateUntil (consistent : Consistent enough (endingCycle cycle (delegate :: remaining)) ctxt)
    (stepped : deactivateUntil cycle (ctxt, deactivated) delegate = .ok acc') :
    Consistent enough (endingCycle cycle remaining) acc'.1 ∧ acc'.1.currentLevel = ctxt.currentLevel := by
  obtain ⟨last, got, stepped⟩ := bind_eq_ok.1 stepped
  have stored : (standing ctxt delegate).last = some last := get_eq_ok.1 (liftStorage_eq_ok.1 got)
  have sound := consistent.sound delegate
  have others : ∀ other ≠ delegate,
      endingCycle cycle remaining other = endingCycle cycle (delegate :: remaining) other := by
    intro other differ
    simp [endingCycle, differ]
  cases stepped
  by_cases expired : last ≤ cycle
  · rw [if_pos expired]
    exact ⟨consistent.changed (setInactive_changed ctxt delegate) (sound.deactivated _) others, rfl⟩
  · rw [if_neg expired]
    have unchanged : ChangedAt ctxt ctxt delegate id := ⟨rfl, rfl, fun _ _ => rfl, rfl⟩
    refine ⟨consistent.changed unchanged ?_ others, rfl⟩
    simp only [endingCycle, List.mem_cons_self, if_true] at sound ⊢
    split
    · exact sound
    · exact sound.next fun _ => by simp [stored, expired]

theorem foldlM_deactivateUntil (consistent : Consistent enough (endingCycle cycle remaining) ctxt)
    (folded : remaining.foldlM (Octez.Token.deactivateUntil cycle) (ctxt, deactivated) = .ok acc') :
    Consistent enough (fun _ => cycle + 1) acc'.1 ∧ acc'.1.currentLevel = ctxt.currentLevel := by
  induction remaining generalizing ctxt deactivated with
  | nil =>
    cases folded
    exact ⟨consistent, rfl⟩
  | cons delegate remaining ih =>
    obtain ⟨mid, stepped, folded⟩ := bind_eq_ok.1 folded
    obtain ⟨stepped, level⟩ := consistent.deactivateUntil stepped
    exact (ih stepped folded).imp_right (·.trans level)

theorem updateActivity {le : T.Pkh → T.Pkh → Bool} (consistent : Consistent enough (fun _ => cycle) ctxt)
    (updated : updateActivity ctxt le cycle = .ok acc') :
    Consistent enough (fun _ => cycle + 1) acc'.1 ∧ acc'.1.currentLevel = ctxt.currentLevel := by
  unfold Octez.Token.updateActivity at updated
  split at updated
  case isTrue early =>
    cases updated
    refine ⟨⟨consistent.minimal, fun delegate => (consistent.sound delegate).next fun _ => ?_⟩, rfl⟩
    cases stored : (standing ctxt delegate).last with
    | none => rfl
    | some last =>
      have lasting := (consistent.sound delegate).lasting last stored
      simp
      omega
  case isFalse =>
    refine foldlM_deactivateUntil ⟨consistent.minimal, fun delegate => ?_⟩ updated
    have sound := consistent.sound delegate
    unfold endingCycle
    split
    case isTrue => exact sound
    case isFalse absent =>
      apply sound.next
      intro active
      refine absurd (List.mem_mergeSort.2 ?_) absent
      exact AList.lookup_isSome.1 active

variable [DecidableEq T.ContractHash]

theorem register (consistent : Consistent enough (fun _ => ctxt.currentLevel.cycle) ctxt)
    (updated : register ctxt delegate = .ok ctxt') :
    Consistent enough (fun _ => ctxt'.currentLevel.cycle) ctxt' := by
  obtain ⟨key, -, updated⟩ := bind_eq_ok.1 updated
  obtain ⟨-, updated⟩ := unit_bind_eq_ok.1 updated
  obtain ⟨amount, -, updated⟩ := bind_eq_ok.1 updated
  obtain ⟨undelegated, removing, updated⟩ := bind_eq_ok.1 updated
  obtain ⟨linked, setting, updated⟩ := bind_eq_ok.1 updated
  obtain ⟨started, starting, updated⟩ := bind_eq_ok.1 updated
  obtain ⟨keyed, keying, activating⟩ := bind_eq_ok.1 updated
  obtain ⟨removed, level⟩ : Consistent enough (fun _ => ctxt.currentLevel.cycle) undelegated ∧
      undelegated.currentLevel = ctxt.currentLevel := by
    unfold removeContractDelegatedStake at removing
    split at removing
    · cases removing
      exact ⟨consistent, rfl⟩
    · refine consistent.restaked removing le_rfl fun _ _ _ _ _ _ inactive => ?_
      rwa [isInactive_eq]
  obtain ⟨delegated, rfl⟩ := contractDelegate_set_eq_ok setting
  have minimal : hasMinimalStake { undelegated with
      delegate := undelegated.delegate.put (.implicit delegate) (some delegate), delegated } = enough :=
    hasMinimalStake_of_eq removed.minimal rfl
  obtain ⟨balance, absent, initialized⟩ := initializeDelegate_changed minimal starting
  have recorded : ChangedAt started keyed delegate fun s => { s with registered := true } := by
    obtain ⟨consensusKeys, consensusKey, rfl⟩ := initConsensusKey_eq_ok keying
    refine ⟨rfl, rfl, fun other differ => ?_, ?_⟩
    · simp [standing, registered, Table.mem, find_add, differ]
    · simp [standing, registered, Table.mem]
  have entered := recorded.trans initialized
  have changed := (setActive_changed (hasMinimalStake_of_eq minimal entered.constants) activating).trans entered
  have sound := removed.sound delegate
  obtain ⟨lasting, later⟩ := lastActiveCycle_ge (by
    rw [entered.here, entered.constants]
    exact sound.lasting) (isInactive keyed delegate)
  rw [entered.here] at changed
  rw [entered.constants] at lasting
  rw [entered.level, level] at later
  rw [changed.level, level]
  exact Consistent.changed ⟨minimal, removed.sound⟩ changed
    (sound.registering absent lasting later (isInactive keyed delegate)) fun _ _ => rfl

end Consistent

omit [DecidableEq T.Pkh] in
theorem hasMinimalStake_eq_true {balance} :
    hasMinimalStake ctxt balance = true ↔ ctxt.constants.minimalStake.mutez ≤
      balance.ownFrozen.mutez + balance.stakedFrozen.mutez + balance.delegated.mutez := by
  have bound := ctxt.constants.minimalStake.le_max
  have fits (fits : balance.ownFrozen.mutez + balance.stakedFrozen.mutez + balance.delegated.mutez ≤
      maxMutez) : ∃ total, balance.currentTotal = .ok total := by
    obtain ⟨frozen, added, frozen_eq⟩ :=
      add_of_fits balance.ownFrozen balance.stakedFrozen (Nat.le_of_add_right_le fits)
    rw [← frozen_eq] at fits
    obtain ⟨sum, summed, -⟩ := add_of_fits frozen balance.delegated fits
    exact ⟨sum, by rw [FullStakingBalance.currentTotal, added, ok_bind, summed]⟩
  have summed (total) (summed : balance.currentTotal = .ok total) : total.mutez =
      balance.ownFrozen.mutez + balance.stakedFrozen.mutez + balance.delegated.mutez := by
    obtain ⟨frozen, added, summed⟩ := bind_eq_ok.1 summed
    rw [add_eq_ok summed, add_eq_ok added]
  rw [hasMinimalStake, FullStakingBalance.hasMinimalStakeToBeConsidered_eq]
  beta_reduce
  generalize balance.currentTotal = total at fits summed
  generalize maxMutez = top at bound fits
  cases total with
  | ok total => rw [decide_eq_true_eq, summed total rfl]
  | error =>
    -- the sum only fails when it exceeds every amount, the minimal stake among them
    refine iff_of_true rfl (bound.trans (Nat.le_of_not_ge fun small => ?_))
    obtain ⟨_, ⟨⟩⟩ := fits small

theorem Run.consistent [DecidableEq T.ContractHash] {le} {ended : Bool} (run : Run le ended ctxt) :
    ∃ enough, Consistent enough (fun _ => ctxt.currentLevel.cycle + if ended then 1 else 0) ctxt := by
  induction run with
  | genesis nobody =>
    refine ⟨_, rfl, fun delegate => ?_⟩
    rw [nobody]
    exact ⟨rfl, rfl, nofun⟩
  | register run registered ih =>
    obtain ⟨enough, consistent⟩ := ih
    unfold setSelfDelegate at registered
    split at registered
    · exact ⟨enough, consistent.activated (unit_bind_eq_ok.1 registered).2⟩
    · exact ⟨enough, consistent.register registered⟩
  | updateStake run updated ih =>
    obtain ⟨enough, consistent⟩ := ih
    obtain ⟨consistent, level⟩ := consistent.restaked updated le_rfl fun _ _ _ _ _ _ inactive => by
      rwa [isInactive_eq]
    exact ⟨enough, level ▸ consistent⟩
  | setActive run activated ih =>
    obtain ⟨enough, consistent⟩ := ih
    exact ⟨enough, consistent.activated activated⟩
  | @setInactive _ ctxt delegate run ih =>
    obtain ⟨enough, consistent⟩ := ih
    exact ⟨enough, consistent.changed (setInactive_changed ctxt delegate)
      ((consistent.sound delegate).deactivated _) fun _ _ => rfl⟩
  | other run constants cycle kept ih =>
    obtain ⟨enough, consistent⟩ := ih
    refine ⟨enough, hasMinimalStake_of_eq consistent.minimal constants, fun delegate => ?_⟩
    rw [kept, constants, cycle]
    exact consistent.sound delegate
  | endCycle run updated ih =>
    obtain ⟨enough, consistent⟩ := ih
    obtain ⟨consistent, level⟩ := consistent.updateActivity updated
    exact ⟨enough, level ▸ consistent⟩
  | @adjust ctxt _ delegate f run chosen updated ih =>
    obtain ⟨enough, consistent⟩ := ih
    have active := (consistent.sound delegate).active
    obtain ⟨consistent, level⟩ := consistent.restaked updated (Nat.le_succ _) (by
      intro before _ found _ short _ _
      rcases chosen with chosen | flagged
      · -- its balance was enough
        have chosen : (standing ctxt delegate).active = true := chosen
        simp [active, found, short] at chosen
      · simp [isInactive, flagged])
    exact ⟨enough, level ▸ consistent⟩
  | @finalize ctxt _ delegate amount run removed ih =>
    obtain ⟨enough, consistent⟩ := ih
    obtain ⟨consistent, level⟩ := consistent.restaked removed (Nat.le_succ _) (by
      intro before after _ computed short reached _
      obtain ⟨own, staked, delegated⟩ := removeDelegated_changed computed
      rw [← consistent.minimal, hasMinimalStake_eq_true] at reached
      rw [← consistent.minimal, Bool.eq_false_iff, Ne, hasMinimalStake_eq_true] at short
      omega)
    exact ⟨enough, level ▸ consistent⟩
  | newCycle level run next ih =>
    obtain ⟨enough, consistent⟩ := ih
    refine ⟨enough, hasMinimalStake_of_eq consistent.minimal rfl, ?_⟩
    simp only [next]
    exact consistent.sound

theorem active_delegates_exact [DecidableEq T.ContractHash] {le : T.Pkh → T.Pkh → Bool}
    (run : Run le false ctxt) (delegate : T.Pkh) :
    ctxt.activeDelegatesWithMinimalStake.mem delegate = true ↔
      registered ctxt delegate = true ∧ isInactive ctxt delegate = false ∧
      ∃ balance, ctxt.stakingBalance.find delegate = some balance ∧
        ctxt.constants.minimalStake.mutez ≤
          balance.ownFrozen.mutez + balance.stakedFrozen.mutez + balance.delegated.mutez := by
  obtain ⟨enough, consistent⟩ := run.consistent
  have sound := consistent.sound delegate
  simp only [← hasMinimalStake_eq_true, consistent.minimal, isInactive_eq]
  have active : ctxt.activeDelegatesWithMinimalStake.mem delegate = _ := sound.active
  have known : registered ctxt delegate = _ := sound.registered
  rw [active, known]
  change _ ↔ _ ∧ _ ∧ ∃ balance, (standing ctxt delegate).balance = some balance ∧ _
  cases (standing ctxt delegate).balance <;> simp [and_comm]

def noDelegates : Context natTypes := { smallLedger with
  delegate := ∅
  delegated := ∅
  stakingBalance := ∅
  activeDelegatesWithMinimalStake := ∅
  delegateLastCycleBeforeDeactivation := ∅
  delegates := ∅
  consensusKeys := ∅
  consensusKey := ∅ }

def nextCycle (ctxt : Context natTypes) : Result natTypes (Context natTypes) := do
  let (ctxt, _) ← updateActivity ctxt Nat.ble ctxt.currentLevel.cycle
  return { ctxt with currentLevel := ⟨ctxt.currentLevel.level + 1, ctxt.currentLevel.cycle + 1⟩ }

theorem Run.nextCycle {ctxt ctxt' : Context natTypes} (run : Run Nat.ble false ctxt)
    (passed : nextCycle ctxt = .ok ctxt') : Run Nat.ble false ctxt' := by
  obtain ⟨after, updated, passed⟩ := bind_eq_ok.1 passed
  cases passed
  exact (run.endCycle updated).newCycle _ rfl

/-- An account that holds the minimal stake registers, and is deactivated when a later cycle ends. -/
theorem registered_delegate_counted : ∃ ctxt',
    (setSelfDelegate noDelegates 2 >>= (List.range 6).foldlM fun ctxt _ => nextCycle ctxt) = .ok ctxt' ∧
      isInactive ctxt' 2 = true ∧ (ctxt'.activeDelegatesWithMinimalStake.mem 2 = true ↔
        registered ctxt' 2 = true ∧ isInactive ctxt' 2 = false ∧
        ∃ balance, ctxt'.stakingBalance.find 2 = some balance ∧ ctxt'.constants.minimalStake.mutez ≤
          balance.ownFrozen.mutez + balance.stakedFrozen.mutez + balance.delegated.mutez) := by
  refine Exists.imp (p := fun ctxt' : Context natTypes => _ = Except.ok ctxt' ∧ isInactive ctxt' 2 = true)
    (fun ctxt' ⟨ran, deactivated⟩ => ⟨ran, deactivated, ?_⟩) (exists_ok_of ?_)
  · obtain ⟨ctxt, registered, passed⟩ := bind_eq_ok.1 ran
    have run : Run Nat.ble false ctxt' :=
      foldlM_preserves Run.nextCycle (.register (.genesis fun _ => rfl) registered) passed
    exact active_delegates_exact run 2
  · decide +kernel

end Octez.Proof.Token
