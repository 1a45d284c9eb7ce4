import Octez.Model.Outbox

namespace Octez.Proof.Outbox
open Octez.Lib Octez.Outbox

variable {Rollup CommitmentHash Proof Ledger Receipt Message External : Type}
variable {P : Protocol Rollup CommitmentHash Proof Ledger Receipt Message External}
variable [DecidableEq Rollup] {ctxt ctxt' : Context Rollup CommitmentHash Ledger} {rollup : Rollup}
variable {level lccLevel bitset : Nat} {index : Int}

omit [DecidableEq Rollup] in
theorem validateOutboxLevel_eq_ok :
    (validateOutboxLevel P level lccLevel : TzResult (Error External) Unit) = .ok () ↔
      level ≤ lccLevel ∧ lccLevel < level + P.maxActiveOutboxLevels := by
  simp only [validateOutboxLevel, errorUnless_eq_ok, Bool.and_eq_true, decide_eq_true_eq]
  omega

theorem testBit_add (hi : 0 ≤ index) (j : Nat) :
    (bitset ||| 2 ^ index.toNat).testBit j = true ↔ bitset.testBit j = true ∨ (j : Int) = index := by
  have : index.toNat = j ↔ (j : Int) = index := by omega
  simp [Nat.testBit_two_pow, this]

/-- What is left in the entry of a level: its own messages, or those of a level that is over. -/
def Free (entry : Option (Nat × Nat)) (level : Nat) (index : Int) (bitset : Nat) : Prop :=
  match entry with
  | none => 0 = bitset
  | some (existing, old) =>
    (existing = level ∧ old.testBit index.toNat = false ∧ old = bitset) ∨ (existing < level ∧ 0 = bitset)

theorem bitsetFor_eq_ok {entry} (hi : 0 ≤ index) :
    (bitsetFor entry level index : TzResult (Error External) Nat) = .ok bitset ↔
      Free entry level index bitset := by
  cases entry with
  | none => simp [bitsetFor, Free, Bitset.empty]
  | some entry =>
    simp only [bitsetFor, Free]
    split_ifs with same expired
    · simp [Bitset.mem, bind_eq_ok, hi, same]
    · simp only [tzfail_ne_ok, same, false_and, false_or, false_iff]
      omega
    · simp only [Except.ok.injEq, same, false_and, false_or, Bitset.empty, iff_and_self]
      omega

theorem recordAppliedMessage_eq_ok :
    recordAppliedMessage P ctxt rollup level index = .ok ctxt' ↔
      (0 ≤ index ∧ index < P.maxOutboxMessagesPerLevel) ∧ P.maxActiveOutboxLevels ≠ 0 ∧
      ∃ bitset, Free (ctxt.appliedOutboxMessages.find (rollup, level % P.maxActiveOutboxLevels))
          level index bitset ∧
        { ctxt with
          appliedOutboxMessages := ctxt.appliedOutboxMessages.add
            (rollup, level % P.maxActiveOutboxLevels) (level, bitset ||| 2 ^ index.toNat) } = ctxt' := by
  by_cases hi : 0 ≤ index
  · by_cases hz : P.maxActiveOutboxLevels = 0
    · simp [recordAppliedMessage, levelIndex, bind_eq_ok, hz]
    · simp [recordAppliedMessage, levelIndex, bind_eq_ok, Bitset.add, Nat.shiftLeft_eq,
        bitsetFor_eq_ok, hi, hz]
  · simp [recordAppliedMessage, bind_eq_ok, hi]

structure Chain (Rollup CommitmentHash Ledger : Type) where
  ctxt : Context Rollup CommitmentHash Ledger
  executed : List (Rollup × Nat × Int)

/-- The messages that were executed are recorded for the statements only. Between two executions
anything can happen to the rest of the context, but the last cemented level of a rollup does not
decrease. -/
inductive Reached (P : Protocol Rollup CommitmentHash Proof Ledger Receipt Message External) :
    Chain Rollup CommitmentHash Ledger → Prop
  | genesis {ctxt : _} (fresh : ctxt.appliedOutboxMessages = ∅) : Reached P ⟨ctxt, []⟩
  | other {chain} {ctxt' : _} (reached : Reached P chain)
    (same : ctxt'.appliedOutboxMessages = chain.ctxt.appliedOutboxMessages)
    (later : ∀ rollup hash lccLevel, chain.ctxt.lastCemented.find rollup = some (hash, lccLevel) →
      ∃ hash' lccLevel', ctxt'.lastCemented.find rollup = some (hash', lccLevel') ∧
        lccLevel ≤ lccLevel') : Reached P { chain with ctxt := ctxt' }
  | execute {chain cementedCommitment outputProof output receipt} {rollup ctxt' : _}
    (reached : Reached P chain)
    (decoded : P.validateAndDecodeOutputProof chain.ctxt.ledger cementedCommitment rollup
      outputProof = .ok output)
    (executed : executeOutboxMessage P chain.ctxt rollup cementedCommitment outputProof =
      .ok (receipt, ctxt')) :
    Reached P ⟨ctxt', (rollup, output.outboxLevel, output.messageIndex) :: chain.executed⟩

def NotAfterLcc (ctxt : Context Rollup CommitmentHash Ledger) (rollup : Rollup) (level : Nat) : Prop :=
  ∃ hash lccLevel, ctxt.lastCemented.find rollup = some (hash, lccLevel) ∧ level ≤ lccLevel

structure Sound (P : Protocol Rollup CommitmentHash Proof Ledger Receipt Message External)
    (chain : Chain Rollup CommitmentHash Ledger) : Prop where
  entry : ∀ rollup i level bitset,
    chain.ctxt.appliedOutboxMessages.find (rollup, i) = some (level, bitset) →
      i = level % P.maxActiveOutboxLevels ∧ NotAfterLcc chain.ctxt rollup level ∧
      ∀ j : Nat, bitset.testBit j = true ↔ (rollup, level, (j : Int)) ∈ chain.executed
  kept : ∀ message ∈ chain.executed, 0 ≤ message.2.2 ∧ ∃ level bitset,
    chain.ctxt.appliedOutboxMessages.find (message.1, message.2.1 % P.maxActiveOutboxLevels) =
      some (level, bitset) ∧ message.2.1 ≤ level
  nodup : chain.executed.Nodup

variable {chain : Chain Rollup CommitmentHash Ledger}

theorem Sound.not_executed (sound : Sound P chain) (hi : 0 ≤ index)
    (free : Free (chain.ctxt.appliedOutboxMessages.find
      (rollup, level % P.maxActiveOutboxLevels)) level index bitset) (j : Nat) :
    ((rollup, level, (j : Int)) ∈ chain.executed ↔ bitset.testBit j = true) ∧
      (rollup, level, index) ∉ chain.executed := by
  have absent {k : Int} (h : ∀ existing old, chain.ctxt.appliedOutboxMessages.find
      (rollup, level % P.maxActiveOutboxLevels) = some (existing, old) → existing < level) :
      (rollup, level, k) ∉ chain.executed := by
    intro member
    obtain ⟨-, existing, old, found, after⟩ := sound.kept _ member
    have before := h existing old found
    dsimp only at after
    omega
  cases found : chain.ctxt.appliedOutboxMessages.find (rollup, level % P.maxActiveOutboxLevels) with
  | none =>
    obtain rfl : 0 = bitset := by simpa only [Free, found] using free
    simp [absent, found]
  | some entry =>
    obtain ⟨existing, old⟩ := entry
    simp only [Free, found] at free
    rcases free with ⟨rfl, unset, rfl⟩ | ⟨before, rfl⟩
    · have bits := (sound.entry _ _ _ _ found).2.2
      refine ⟨(bits j).symm, ?_⟩
      rw [← Int.toNat_of_nonneg hi, ← bits, unset]
      simp
    · have none : ∀ k, (rollup, level, k) ∉ chain.executed :=
        fun k => absent fun _ _ h => by simp_all
      simp [none]

theorem Sound.execute {hash : CommitmentHash} {ledger : Ledger} (sound : Sound P chain)
    (found : chain.ctxt.lastCemented.find rollup = some (hash, lccLevel)) (before : level ≤ lccLevel)
    (h : recordAppliedMessage P { chain.ctxt with ledger } rollup level index = .ok ctxt') :
    Sound P ⟨ctxt', (rollup, level, index) :: chain.executed⟩ := by
  obtain ⟨⟨hi, -⟩, -, bitset, free, rfl⟩ := recordAppliedMessage_eq_ok.1 h
  have fresh := sound.not_executed hi free
  refine ⟨?_, ?_, List.nodup_cons.2 ⟨(fresh 0).2, sound.nodup⟩⟩
  · intro rollup' i level' bitset' found'
    simp only [Table.find_add, Prod.mk.injEq] at found'
    split_ifs at found' with here
    · obtain ⟨rfl, rfl⟩ := here
      cases found'
      refine ⟨rfl, ⟨hash, lccLevel, found, before⟩, fun j => ?_⟩
      rw [testBit_add hi, ← (fresh j).1, List.mem_cons, or_comm]
      simp
    · obtain ⟨rfl, notAfter, bits⟩ := sound.entry _ _ _ _ found'
      refine ⟨rfl, notAfter, fun j => ?_⟩
      rw [bits, List.mem_cons, or_iff_right]
      rintro ⟨rfl, rfl, -⟩
      exact here ⟨rfl, rfl⟩
  · intro message member
    simp only [Table.find_add, Prod.mk.injEq]
    rcases List.mem_cons.1 member with rfl | member
    · exact ⟨hi, level, _, by simp; rfl, le_rfl⟩
    · obtain ⟨hm, level', bitset', found', after⟩ := sound.kept message member
      refine ⟨hm, ?_⟩
      split_ifs with here
      · -- The entry now belongs to a level that is not before the one it belonged to.
        rw [here.1, here.2] at found'
        simp only [Free, found'] at free
        exact ⟨level, _, rfl, by omega⟩
      · exact ⟨level', bitset', found', after⟩

theorem Reached.sound (reached : Reached P chain) : Sound P chain := by
  induction reached with
  | @genesis ctxt fresh => constructor <;> simp [fresh]
  | other reached same later ih =>
    refine ⟨?_, by simpa only [same] using ih.kept, ih.nodup⟩
    intro rollup i level bitset found
    obtain ⟨hi, ⟨hash, lccLevel, found', before⟩, bits⟩ := ih.entry _ _ _ _ (same ▸ found)
    obtain ⟨hash', lccLevel', found'', after⟩ := later _ _ _ found'
    exact ⟨hi, ⟨hash', lccLevel', found'', by omega⟩, bits⟩
  | @execute chain rollup _ _ output _ _ reached decoded executed ih =>
    simp only [executeOutboxMessage, lastCementedCommitmentHashWithLevel, decoded, toInt,
      bind_eq_ok] at executed
    obtain ⟨⟨hash, lccLevel⟩, cemented, _, -, _, -, _, ⟨⟩, _, window, ⟨_, ledger⟩, -, _,
      ⟨_, -, ⟨⟩⟩, ctxt', h, ⟨⟩⟩ := executed
    split at cemented
    · cases cemented
    · rename_i lcc found
      cases cemented
      exact ih.execute found (validateOutboxLevel_eq_ok.1 window).1 h

/-- No message of a rollup is executed twice, and one that was not executed is not refused while its
level is active. -/
theorem outbox_messages_executed_once (reached : Reached P chain) :
    chain.executed.Nodup ∧
    ∀ rollup hash lccLevel level (index : Int), chain.ctxt.lastCemented.find rollup = some (hash, lccLevel) →
      (validateOutboxLevel P level lccLevel : TzResult (Error External) Unit) = .ok () →
      0 ≤ index → index < P.maxOutboxMessagesPerLevel → (rollup, level, index) ∉ chain.executed →
      ∀ ledger, ∃ ctxt',
        recordAppliedMessage P { chain.ctxt with ledger } rollup level index = .ok ctxt' := by
  have sound := reached.sound
  refine ⟨sound.nodup, ?_⟩
  intro rollup hash lccLevel level index found window hi small fresh ledger
  rw [validateOutboxLevel_eq_ok] at window
  simp only [recordAppliedMessage_eq_ok]
  cases entry : chain.ctxt.appliedOutboxMessages.find (rollup, level % P.maxActiveOutboxLevels) with
  | none => exact ⟨_, ⟨hi, small⟩, by omega, 0, by simp [Free], rfl⟩
  | some levelAndBitset =>
    obtain ⟨existing, old⟩ := levelAndBitset
    obtain ⟨remainder, ⟨hash', lccLevel', found', before⟩, bits⟩ := sound.entry _ _ _ _ entry
    cases found.symm.trans found'
    have own : ¬ level < existing := by
      intro after
      have apart : P.maxActiveOutboxLevels ≤ existing - level :=
        Nat.le_of_dvd (by omega) (Nat.dvd_of_mod_eq_zero (Nat.sub_mod_eq_zero_of_mod_eq remainder.symm))
      omega
    rcases Nat.lt_or_eq_of_le (not_lt.1 own) with expired | rfl
    · exact ⟨_, ⟨hi, small⟩, by omega, 0, by simp [Free, expired], rfl⟩
    · refine ⟨_, ⟨hi, small⟩, by omega, old, ?_, rfl⟩
      simp only [Free, true_and, and_true, lt_irrefl, false_and, or_false]
      rw [← Int.toNat_of_nonneg hi, ← bits] at fresh
      simpa using fresh

def smallProtocol : Protocol Nat Nat (Output Unit) Unit Unit Unit Unit where
  maxActiveOutboxLevels := 2
  maxOutboxMessagesPerLevel := 4
  checkIfCommitmentsAreRelated := fun _ _ _ _ => .ok true
  validateAndDecodeOutputProof := fun _ _ _ output => .ok output
  executeMessage := fun _ _ _ => .ok ((), ())

theorem next_message_not_refused :
    let output : Output Unit := ⟨3, 1, ()⟩
    ∃ ctxt, executeOutboxMessage smallProtocol ⟨Table.add ∅ 0 (7, 3), ∅, ()⟩ 0 7 output =
        .ok ((), ctxt) ∧ ∃ ctxt', recordAppliedMessage smallProtocol ctxt 0 3 2 = .ok ctxt' := by
  intro output
  have genesis : Reached smallProtocol ⟨⟨Table.add ∅ 0 (7, 3), ∅, ()⟩, []⟩ := .genesis rfl
  have executed : executeOutboxMessage smallProtocol ⟨Table.add ∅ 0 (7, 3), ∅, ()⟩ 0 7 output =
      .ok ((), ⟨Table.add ∅ 0 (7, 3), Table.add ∅ (0, 1) (3, 2), ()⟩) := by with_unfolding_all rfl
  have decoded : smallProtocol.validateAndDecodeOutputProof () 7 0 output = .ok output := rfl
  refine ⟨_, executed, ?_⟩
  exact (outbox_messages_executed_once (genesis.execute decoded executed)).2 0 7 3 3 2
    (by decide) (by decide) (by decide) (by decide) (by decide) ()

end Octez.Proof.Outbox
