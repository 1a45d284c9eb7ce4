import Octez.Model.RiscV.Machine

namespace Octez.Proof.RiscV
open Octez.RiscV CSRegisters

variable {ε : Type} {registers : CSRegisters} {register other : CSRegister} {value : CSRValue}
  {machine : MachineState} {trap : Trap} {returnPc : Address}

def IsSource (register : CSRegister) : Prop := sourceOf register = register

instance (register : CSRegister) : Decidable (IsSource register) :=
  inferInstanceAs (Decidable (_ = _))

theorem transformWrite_of_source (source : IsSource register) :
    registers.transformWrite register value = (register, value) := by
  unfold transformWrite
  split_ifs at source ⊢ with status pending enabled
  · rw [status] at source
    exact absurd source (by decide)
  · rw [pending] at source
    exact absurd source (by decide)
  · rw [enabled] at source
    exact absurd source (by decide)
  · rfl

theorem values_write_of_ne {number : Nat} (source : IsSource register) (different : number ≠ register.number) :
    (registers.write register value).values number = registers.values number := by
  unfold write
  split
  · rfl
  · rw [transformWrite_of_source source]
    exact if_neg different

theorem read_write_of_ne (source : IsSource register)
    (different : (sourceOf other).number ≠ register.number) :
    (registers.write register value).read other = registers.read other := by
  rw [CSRegisters.read, CSRegisters.raw, values_write_of_ne source different]
  rfl

section TakeTrap
variable (trap : Trap) (returnPc : Address) (hart : HartState)

def savedCs : CSRegisters :=
  let registers := trapRegisters (hart.csregisters.getTrapMode trap hart.mode)
  ((hart.csregisters.write registers.xepc returnPc).write registers.xcause trap.xcause).write
    registers.xtval trap.xtval

def statusFor (trapMode : TrapMode) (currentMode : Mode) (mstatus : CSRValue) : CSRValue :=
  match trappedMstatus trapMode currentMode mstatus with
  | .ok mstatus => mstatus
  | .error _ => 0

theorem trappedMstatus_eq (mstatus : CSRValue) :
    trappedMstatus (hart.csregisters.getTrapMode trap hart.mode) hart.mode mstatus =
      .ok (statusFor (hart.csregisters.getTrapMode trap hart.mode) hart.mode mstatus) := by
  cases target : hart.csregisters.getTrapMode trap hart.mode with
  | machine => cases hart.mode <;> rfl
  | supervisor =>
    cases mode : hart.mode with
    | user | supervisor => rfl
    | machine =>
      -- Nothing is delegated from the machine mode.
      rw [mode] at target
      cases target

def trappedHart : HartState :=
  let trapMode := hart.csregisters.getTrapMode trap hart.mode
  let saved := savedCs trap returnPc hart
  { hart with
    csregisters := saved.write .mstatus (statusFor trapMode hart.mode (saved.read .mstatus))
    mode := trapMode.asMode }

def handlerOf : Except Panic Address :=
  trap.trapHandlerAddress
    (hart.csregisters.read (trapRegisters (hart.csregisters.getTrapMode trap hart.mode)).xtvec)

theorem read_trappedHart
    (different : ∀ register ∈ [CSRegister.mstatus, .mepc, .mcause, .mtval, .sepc, .scause, .stval],
      (sourceOf other).number ≠ register.number) :
    (trappedHart trap returnPc hart).csregisters.read other = hart.csregisters.read other := by
  simp only [List.forall_mem_cons] at different
  unfold trappedHart savedCs
  cases hart.csregisters.getTrapMode trap hart.mode <;>
    simp (disch := first | decide | tauto) only [trapRegisters, read_write_of_ne]

theorem read_xtvec_trappedHart : (trappedHart trap returnPc hart).csregisters.read
        (trapRegisters (hart.csregisters.getTrapMode trap hart.mode)).xtvec =
      hart.csregisters.read (trapRegisters (hart.csregisters.getTrapMode trap hart.mode)).xtvec := by
  cases hart.csregisters.getTrapMode trap hart.mode <;> exact read_trappedHart _ _ _ (by decide)

def trapResult (address : Except Panic Address) (machine : MachineState) :
    EStateM.Result (Fault ε) MachineState Address :=
  match address with
  | .ok address => .ok address machine
  | .error panic => .error (.panicked panic) machine

theorem takeTrap_eq (machine : MachineState) :
    (takeTrap trap returnPc : Run ε Address) machine = trapResult (handlerOf trap machine.hart)
        { machine with hart := trappedHart trap returnPc machine.hart } := by
  have status := trappedMstatus_eq trap machine.hart
    ((savedCs trap returnPc machine.hart).read .mstatus)
  have unfolded : (takeTrap trap returnPc : Run ε Address) machine =
      (do
        let mstatus ← orPanic (trappedMstatus
          (machine.hart.csregisters.getTrapMode trap machine.hart.mode) machine.hart.mode
          ((savedCs trap returnPc machine.hart).read .mstatus))
        modifyCs fun cs => cs.write .mstatus mstatus
        writeMode (machine.hart.csregisters.getTrapMode trap machine.hart.mode).asMode
        let trapped ← get
        orPanic (trap.trapHandlerAddress (trapped.hart.csregisters.read
          (trapRegisters (machine.hart.csregisters.getTrapMode trap machine.hart.mode)).xtvec)) :
        Run ε Address)
      { machine with hart := { machine.hart with csregisters := savedCs trap returnPc machine.hart } } :=
    rfl
  rw [unfolded, status, handlerOf, ← read_xtvec_trappedHart trap returnPc]
  show (orPanic _ : Run ε Address) { machine with hart := trappedHart trap returnPc machine.hart } = _
  unfold orPanic trapResult trappedHart
  split
  · rename_i address found
    rw [found]
    rfl
  · rename_i panic found
    rw [found]
    rfl

end TakeTrap

variable {hart : HartState} {i j : Interrupt} {p : Interrupt → Bool} {mode : TrapMode}

def Precedes (j i : Interrupt) : Prop := interruptOrder.idxOf j < interruptOrder.idxOf i

instance (j i : Interrupt) : Decidable (Precedes j i) := inferInstanceAs (Decidable (_ < _))

theorem mem_interruptOrder (i : Interrupt) : i ∈ interruptOrder := by cases i <;> decide

theorem find_eq_some : interruptOrder.find? p = some i ↔ p i = true ∧ ∀ j, Precedes j i → p j = false := by
  have distinct : interruptOrder.Nodup := by decide
  rw [List.find?_eq_some_iff_getElem]
  constructor
  · rintro ⟨holds, n, bound, rfl, first⟩
    refine ⟨holds, fun j before => ?_⟩
    rw [Precedes, distinct.idxOf_getElem n bound] at before
    have inside : interruptOrder.idxOf j < interruptOrder.length := before.trans bound
    have isFirst := first _ before
    simpa using isFirst
  · rintro ⟨holds, first⟩
    have bound := List.idxOf_lt_length_of_mem (mem_interruptOrder i)
    refine ⟨holds, _, bound, List.getElem_idxOf bound, fun n before => ?_⟩
    have isFirst := first interruptOrder[n] (by
      rw [Precedes, distinct.idxOf_getElem]
      exact before)
    simp [isFirst]

theorem find_eq_none : interruptOrder.find? p = none ↔ ∀ i, p i = false := by
  rw [List.find?_eq_none]
  constructor
  · intro nothing i
    simpa using nothing i (mem_interruptOrder i)
  · intro nothing i _
    simp [nothing i]

section
variable (hart)

def bitOf (register : CSRegister) (i : Interrupt) : Bool :=
  (hart.csregisters.read register).getLsbD i.exceptionCode

def mieOf : Bool := Xstatus.MIE.get (hart.csregisters.read .mstatus)

def sieOf : Bool := Xstatus.SIE.get (hart.csregisters.read .mstatus)

def Qualifies (i : Interrupt) : TrapMode → Prop
  | .machine => (hart.mode ≠ .machine ∨ mieOf hart = true) ∧ bitOf hart .mip i = true ∧
      bitOf hart .mie i = true ∧ bitOf hart .mideleg i = false
  | .supervisor => bitOf hart .mideleg i = true ∧ bitOf hart .mip i = true ∧ bitOf hart .mie i = true ∧
      (hart.mode = .user ∨ hart.mode = .supervisor ∧ sieOf hart = true)

def takenInterrupt : Option (Interrupt × TrapMode) :=
  (getPendingInterrupt hart).map fun i => (i, hart.csregisters.getTrapMode (.interrupt i) hart.mode)

structure TakesQualified : Prop where
  none_iff : takenInterrupt hart = none ↔ ∀ i mode, ¬Qualifies hart i mode
  qualifies : ∀ i mode, takenInterrupt hart = some (i, mode) → Qualifies hart i mode
  first : ∀ i, takenInterrupt hart = some (i, .machine) →
    ∀ j, Precedes j i → ¬Qualifies hart j .machine

/-- An interrupt that qualifies for the machine mode goes before all those of the supervisor mode. -/
structure TakesEnabled : Prop extends TakesQualified hart where
  machine : ∀ i, Qualifies hart i .machine → ∃ j, takenInterrupt hart = some (j, .machine)

def isPossible (i : Interrupt) : Bool :=
  (hart.csregisters.possibleInterrupts hart.mode).getLsbD i.exceptionCode

theorem getPendingInterrupt_eq : getPendingInterrupt hart =
    interruptOrder.find? fun i => bitOf hart .mip i && isPossible hart i := by
  unfold getPendingInterrupt
  dsimp only
  split
  · rename_i nothing
    symm
    rw [find_eq_none]
    simp [isPossible, nothing]
  · simp only [BitVec.getLsbD_and]
    rfl

end

def isMachineLevel : Interrupt → Bool
  | .machineSoftware | .machineTimer | .machineExternal => true
  | _ => false

theorem machineBitMask_bit (i : Interrupt) : machineBitMask.getLsbD i.exceptionCode = isMachineLevel i := by
  cases i <;> decide

theorem supervisorBitMask_bit (i : Interrupt) :
    supervisorBitMask.getLsbD i.exceptionCode = !isMachineLevel i := by
  cases i <;> decide

theorem isPossible_of_user (user : hart.mode = .user) (i : Interrupt) : isPossible hart i = true := by
  simp only [isPossible, possibleInterrupts, user]
  simp only [BitVec.getLsbD_or, machineBitMask_bit, supervisorBitMask_bit, Bool.not_or_self]

theorem isPossible_of_supervisor (supervisor : hart.mode = .supervisor) (i : Interrupt) :
    isPossible hart i = (isMachineLevel i || sieOf hart && bitOf hart .mie i) := by
  have masked : hart.csregisters.read .sie = hart.csregisters.read .mie &&& supervisorBitMask := rfl
  simp only [isPossible, possibleInterrupts, supervisor]
  simp only [BitVec.getLsbD_or, machineBitMask_bit, masked, sieOf, bitOf]
  cases Xstatus.SIE.get (hart.csregisters.read .mstatus) with
  | false => simp
  | true =>
    simp only [if_true, BitVec.getLsbD_and, supervisorBitMask_bit, Bool.true_and]
    cases isMachineLevel i <;> simp

theorem isPossible_of_machine (machine : hart.mode = .machine) (i : Interrupt) :
    isPossible hart i = (mieOf hart && bitOf hart .mie i) := by
  simp only [isPossible, possibleInterrupts, machine]
  simp only [mieOf, bitOf]
  cases Xstatus.MIE.get (hart.csregisters.read .mstatus) <;> simp

theorem getTrapMode_of_below (below : hart.mode ≠ .machine) (i : Interrupt) :
    hart.csregisters.getTrapMode (.interrupt i) hart.mode =
      if bitOf hart .mideleg i then .supervisor else .machine := by
  cases mode : hart.mode with
  | machine => exact absurd mode below
  | user | supervisor => rfl

theorem getTrapMode_of_machine (machine : hart.mode = .machine) (i : Interrupt) :
    hart.csregisters.getTrapMode (.interrupt i) hart.mode = .machine := by
  rw [machine]
  rfl

def targetOf (hart : HartState) (i : Interrupt) : TrapMode :=
  hart.csregisters.getTrapMode (.interrupt i) hart.mode

theorem takenInterrupt_eq_some : takenInterrupt hart = some (i, mode) ↔
    getPendingInterrupt hart = some i ∧ targetOf hart i = mode := by
  simp [takenInterrupt, targetOf]

theorem takenInterrupt_eq_none : takenInterrupt hart = none ↔ getPendingInterrupt hart = none := by
  simp [takenInterrupt]

theorem takesQualified_iff
    (ordered : ∀ i j, getPendingInterrupt hart = some i → Precedes j i → ¬Qualifies hart j .machine) :
    TakesQualified hart ↔
      (∀ i, getPendingInterrupt hart = some i → Qualifies hart i (targetOf hart i)) ∧
      (getPendingInterrupt hart = none → ∀ i mode, ¬Qualifies hart i mode) := by
  constructor
  · intro takes
    refine ⟨fun i pending => ?_, fun nothing => ?_⟩
    · exact takes.qualifies i _ (takenInterrupt_eq_some.2 ⟨pending, rfl⟩)
    · exact takes.none_iff.1 (takenInterrupt_eq_none.2 nothing)
  · rintro ⟨taken, nothing⟩
    refine ⟨⟨fun none => nothing (takenInterrupt_eq_none.1 none), fun none => ?_⟩, ?_, ?_⟩
    · rw [takenInterrupt_eq_none]
      cases pending : getPendingInterrupt hart with
      | none => rfl
      | some i => exact absurd (taken i pending) (none i _)
    · intro i mode isTaken
      obtain ⟨pending, rfl⟩ := takenInterrupt_eq_some.1 isTaken
      exact taken i pending
    · intro i isTaken j before
      exact ordered i j (takenInterrupt_eq_some.1 isTaken).1 before

theorem getPendingInterrupt_eq_some : getPendingInterrupt hart = some i ↔
    (bitOf hart .mip i && isPossible hart i) = true ∧
      ∀ j, Precedes j i → (bitOf hart .mip j && isPossible hart j) = false := by
  rw [getPendingInterrupt_eq, find_eq_some]

theorem getPendingInterrupt_eq_none : getPendingInterrupt hart = none ↔
    ∀ i, (bitOf hart .mip i && isPossible hart i) = false := by
  rw [getPendingInterrupt_eq, find_eq_none]

theorem pending_of_qualifies (qualifies : Qualifies hart i mode) :
    bitOf hart .mip i = true ∧ bitOf hart .mie i = true := by
  cases mode with
  | machine | supervisor => exact ⟨qualifies.2.1, qualifies.2.2.1⟩

theorem qualifies_target (below : hart.mode ≠ .machine) (pending : bitOf hart .mip i = true)
    (enabled : bitOf hart .mie i = true) (on : bitOf hart .mideleg i = true →
      hart.mode = .user ∨ hart.mode = .supervisor ∧ sieOf hart = true) :
    Qualifies hart i (targetOf hart i) := by
  rw [targetOf, getTrapMode_of_below below]
  split
  · exact ⟨‹_›, pending, enabled, on ‹_›⟩
  · exact ⟨.inl below, pending, enabled, Bool.eq_false_iff.2 ‹_›⟩

theorem takesQualified_iff_of_possible
    (possible : ∀ i mode, Qualifies hart i mode → isPossible hart i = true) : TakesQualified hart ↔
      ∀ i, getPendingInterrupt hart = some i → Qualifies hart i (targetOf hart i) := by
  have unqualified (i : Interrupt) (mode : TrapMode)
      (absent : (bitOf hart .mip i && isPossible hart i) = false) : ¬Qualifies hart i mode := by
    intro qualifies
    rw [(pending_of_qualifies qualifies).1, possible i mode qualifies] at absent
    cases absent
  rw [takesQualified_iff]
  · exact and_iff_left fun nothing i mode =>
      unqualified i mode (getPendingInterrupt_eq_none.1 nothing i)
  · intro i j isFirst before
    exact unqualified j .machine ((getPendingInterrupt_eq_some.1 isFirst).2 j before)

/-- What has to hold of the bits for the interrupt that is taken to qualify. -/
def PendingEnabled (hart : HartState) : Prop :=
  match hart.mode with
  | .user => ∀ i, interruptOrder.find? (bitOf hart .mip) = some i → bitOf hart .mie i = true
  | .supervisor =>
    (∀ i, interruptOrder.find? (fun i => isMachineLevel i && bitOf hart .mip i) = some i →
      bitOf hart .mie i = true ∧ (bitOf hart .mideleg i = true → sieOf hart = true)) ∧
    (sieOf hart = true ∨ (∃ i, isMachineLevel i = true ∧ bitOf hart .mip i = true) ∨
      ∀ i, bitOf hart .mip i = true → bitOf hart .mie i = true → bitOf hart .mideleg i = true)
  | .machine => mieOf hart = true → ∀ i,
      interruptOrder.find? (fun i => bitOf hart .mip i && bitOf hart .mie i) = some i →
        bitOf hart .mideleg i = false

theorem takesQualified_of_user (user : hart.mode = .user) : TakesQualified hart ↔ PendingEnabled hart := by
  have pending : getPendingInterrupt hart = interruptOrder.find? (bitOf hart .mip) := by
    rw [getPendingInterrupt_eq]
    simp only [isPossible_of_user user, Bool.and_true]
  rw [takesQualified_iff_of_possible fun i _ _ => isPossible_of_user user i, pending, PendingEnabled, user]
  refine forall₂_congr fun i isFirst => ⟨fun taken => (pending_of_qualifies taken).2, fun enabled => ?_⟩
  exact qualifies_target (by rw [user]; decide) (find_eq_some.1 isFirst).1 enabled fun _ => .inl user

theorem takesQualified_of_machine (machine : hart.mode = .machine) :
    TakesQualified hart ↔ PendingEnabled hart := by
  have pending : getPendingInterrupt hart = interruptOrder.find? fun i =>
      mieOf hart && (bitOf hart .mip i && bitOf hart .mie i) := by
    rw [getPendingInterrupt_eq]
    simp only [isPossible_of_machine machine, Bool.and_left_comm]
  rw [takesQualified_iff_of_possible, pending, PendingEnabled, machine]
  · constructor
    · intro taken enabled i isFirst
      simp only [enabled, Bool.true_and] at taken
      have isTaken := taken i isFirst
      rw [targetOf, getTrapMode_of_machine machine] at isTaken
      exact isTaken.2.2.2
    · intro undelegated i isFirst
      have holds := (find_eq_some.1 isFirst).1
      simp only [Bool.and_eq_true] at holds
      obtain ⟨enabled, isPending, isEnabled⟩ := holds
      simp only [enabled, Bool.true_and] at isFirst
      rw [targetOf, getTrapMode_of_machine machine]
      exact ⟨.inr enabled, isPending, isEnabled, undelegated enabled i isFirst⟩
  · intro i mode qualifies
    rw [isPossible_of_machine machine, (pending_of_qualifies qualifies).2, Bool.and_true]
    cases mode with
    | machine => exact qualifies.1.resolve_left fun below => below machine
    | supervisor =>
      have below := qualifies.2.2.2
      rw [machine] at below
      simp at below

theorem isMachineLevel_of_precedes (before : Precedes j i) (machineLevel : isMachineLevel i = true) :
    isMachineLevel j = true := by
  revert before machineLevel
  cases i <;> cases j <;> decide

section
variable (supervisor : hart.mode = .supervisor)
include supervisor

theorem possible_of_supervisor (i : Interrupt) : (bitOf hart .mip i && isPossible hart i) = true ↔
    bitOf hart .mip i = true ∧ (isMachineLevel i = true ∨ sieOf hart = true ∧ bitOf hart .mie i = true) := by
  rw [isPossible_of_supervisor supervisor]
  simp

theorem getPendingInterrupt_of_machineLevel (machineLevel : isMachineLevel i = true) :
    getPendingInterrupt hart = some i ↔
      interruptOrder.find? (fun i => isMachineLevel i && bitOf hart .mip i) = some i := by
  rw [getPendingInterrupt_eq_some, find_eq_some]
  have self : (bitOf hart .mip i && isPossible hart i) =
      (isMachineLevel i && bitOf hart .mip i) := by
    rw [isPossible_of_supervisor supervisor, machineLevel, Bool.true_or, Bool.and_comm]
  have others : ∀ j, Precedes j i → (bitOf hart .mip j && isPossible hart j) =
      (isMachineLevel j && bitOf hart .mip j) := by
    intro j before
    rw [isPossible_of_supervisor supervisor, isMachineLevel_of_precedes before machineLevel,
      Bool.true_or, Bool.and_comm]
  rw [self]
  refine and_congr_right fun _ => ⟨fun first j before => ?_, fun first j before => ?_⟩
  · rw [← others j before]
    exact first j before
  · rw [others j before]
    exact first j before

theorem takesQualified_of_supervisor : TakesQualified hart ↔ PendingEnabled hart := by
  have possible := possible_of_supervisor supervisor
  have below : hart.mode ≠ .machine := by
    rw [supervisor]
    decide
  rw [takesQualified_iff, PendingEnabled, supervisor]
  · constructor
    · rintro ⟨taken, nothing⟩
      refine ⟨fun i isFirst => ?_, ?_⟩
      · have holds := (find_eq_some.1 isFirst).1
        rw [Bool.and_eq_true] at holds
        have isTaken := taken i ((getPendingInterrupt_of_machineLevel supervisor holds.1).2 isFirst)
        refine ⟨(pending_of_qualifies isTaken).2, fun delegated => ?_⟩
        rw [targetOf, getTrapMode_of_below below, if_pos delegated] at isTaken
        exact (isTaken.2.2.2.resolve_left (by rw [supervisor]; decide)).2
      · by_cases on : sieOf hart = true
        · exact .inl on
        · by_cases machinePending : ∃ i, isMachineLevel i = true ∧ bitOf hart .mip i = true
          · exact .inr (.inl machinePending)
          · refine .inr (.inr fun i isPending isEnabled => ?_)
            have none := nothing (getPendingInterrupt_eq_none.2 fun j => by
              rw [← Bool.not_eq_true, possible]
              rintro ⟨isPending, machineLevel | ⟨isOn, _⟩⟩
              · exact machinePending ⟨j, machineLevel, isPending⟩
              · exact on isOn)
            by_contra undelegated
            exact none i .machine ⟨.inl below, isPending, isEnabled, Bool.eq_false_iff.2 undelegated⟩
    · rintro ⟨enabled, off⟩
      refine ⟨fun i isFirst => ?_, fun nothing i mode qualifies => ?_⟩
      · obtain ⟨isPending, machineLevel | ⟨on, isEnabled⟩⟩ :=
          (possible i).1 (getPendingInterrupt_eq_some.1 isFirst).1
        · obtain ⟨isEnabled, on⟩ :=
            enabled i ((getPendingInterrupt_of_machineLevel supervisor machineLevel).1 isFirst)
          exact qualifies_target below isPending isEnabled fun delegated => .inr ⟨supervisor, on delegated⟩
        · exact qualifies_target below isPending isEnabled fun _ => .inr ⟨supervisor, on⟩
      · have absent (j : Interrupt) := Bool.eq_false_iff.1 (getPendingInterrupt_eq_none.1 nothing j)
        obtain ⟨isPending, isEnabled⟩ := pending_of_qualifies qualifies
        have notOn : sieOf hart ≠ true := fun on =>
          absent i ((possible i).2 ⟨isPending, .inr ⟨on, isEnabled⟩⟩)
        cases mode with
        | supervisor =>
          exact notOn (qualifies.2.2.2.resolve_left (by rw [supervisor]; decide)).2
        | machine =>
          obtain on | ⟨j, machineLevel, machinePending⟩ | delegated := off
          · exact notOn on
          · exact absent j ((possible j).2 ⟨machinePending, .inl machineLevel⟩)
          · have undelegated := qualifies.2.2.2
            rw [delegated i isPending isEnabled] at undelegated
            cases undelegated
  · intro i j isFirst before qualifies
    obtain ⟨isPending, isEnabled⟩ := pending_of_qualifies qualifies
    have absent := Bool.eq_false_iff.1 ((getPendingInterrupt_eq_some.1 isFirst).2 j before)
    obtain ⟨_, machineLevel | ⟨on, _⟩⟩ := (possible i).1 (getPendingInterrupt_eq_some.1 isFirst).1
    · exact absent ((possible j).2 ⟨isPending, .inl (isMachineLevel_of_precedes before machineLevel)⟩)
    · exact absent ((possible j).2 ⟨isPending, .inr ⟨on, isEnabled⟩⟩)

end

theorem takesQualified_iff_pendingEnabled (hart : HartState) :
    TakesQualified hart ↔ PendingEnabled hart := by
  cases mode : hart.mode with
  | user => exact takesQualified_of_user mode
  | supervisor => exact takesQualified_of_supervisor mode
  | machine => exact takesQualified_of_machine mode

/-- What has to hold of the bits for the interrupts to be taken as they should: when the first of those
pending and enabled is delegated, all of them are. -/
def EnabledFirst (hart : HartState) : Prop :=
  PendingEnabled hart ∧ (hart.mode ≠ .machine → ∀ i,
    interruptOrder.find? (fun i => bitOf hart .mip i && bitOf hart .mie i) = some i →
      bitOf hart .mideleg i = true →
      ∀ j, bitOf hart .mip j = true → bitOf hart .mie j = true → bitOf hart .mideleg j = true)

theorem find_of_getPendingInterrupt (below : hart.mode ≠ .machine)
    (pending : getPendingInterrupt hart = some i) (enabled : bitOf hart .mie i = true) :
    interruptOrder.find? (fun i => bitOf hart .mip i && bitOf hart .mie i) = some i := by
  obtain ⟨isPending, first⟩ := getPendingInterrupt_eq_some.1 pending
  rw [Bool.and_eq_true] at isPending
  rw [find_eq_some]
  refine ⟨by rw [isPending.1, enabled]; rfl, fun j before => ?_⟩
  -- An enabled interrupt that goes before a possible one is possible.
  have possible (isEnabled : bitOf hart .mie j = true) : isPossible hart j = true := by
    cases mode : hart.mode with
    | machine => exact absurd mode below
    | user => exact isPossible_of_user mode j
    | supervisor =>
      have possible := isPending.2
      rw [isPossible_of_supervisor mode, Bool.or_eq_true, Bool.and_eq_true] at possible
      rw [isPossible_of_supervisor mode, Bool.or_eq_true, Bool.and_eq_true]
      exact possible.imp (isMachineLevel_of_precedes before) fun on => ⟨on.1, isEnabled⟩
  have absent := first j before
  rw [Bool.and_eq_false_iff] at absent ⊢
  refine absent.imp_right fun impossible => ?_
  by_contra isEnabled
  rw [possible (by simpa using isEnabled)] at impossible
  cases impossible

theorem takesEnabled_iff_enabledFirst (hart : HartState) : TakesEnabled hart ↔ EnabledFirst hart := by
  constructor
  · intro takes
    refine ⟨(takesQualified_iff_pendingEnabled hart).1 takes.toTakesQualified, ?_⟩
    intro below i isFirst delegated j pending enabled
    by_contra undelegated
    obtain ⟨k, taken⟩ := takes.machine j ⟨.inl below, pending, enabled, Bool.eq_false_iff.2 undelegated⟩
    have qualifies := takes.qualifies k .machine taken
    have isFirst' := find_of_getPendingInterrupt below (takenInterrupt_eq_some.1 taken).1 qualifies.2.2.1
    obtain rfl : k = i := Option.some.inj (isFirst'.symm.trans isFirst)
    have notDelegated := qualifies.2.2.2
    rw [delegated] at notDelegated
    cases notDelegated
  · rintro ⟨enabled, undelegatedFirst⟩
    have takes := (takesQualified_iff_pendingEnabled hart).2 enabled
    refine ⟨takes, fun i qualifies => ?_⟩
    cases taken : takenInterrupt hart with
    | none => exact absurd qualifies (takes.none_iff.1 taken i .machine)
    | some chosen =>
      obtain ⟨k, mode⟩ := chosen
      cases mode with
      | machine => exact ⟨k, rfl⟩
      | supervisor =>
        obtain ⟨delegated, _, isEnabled, mode⟩ := takes.qualifies k .supervisor taken
        have below : hart.mode ≠ .machine := by
          obtain mode | ⟨mode, _⟩ := mode <;> rw [mode] <;> decide
        have isFirst := find_of_getPendingInterrupt below (takenInterrupt_eq_some.1 taken).1 isEnabled
        have undelegated := qualifies.2.2.2
        rw [undelegatedFirst below k isFirst delegated i qualifies.2.1 qualifies.2.2.1] at undelegated
        cases undelegated

def clearedHart (i : Interrupt) (hart : HartState) : HartState :=
  let mip := hart.csregisters.read .mip &&& ~~~bitMask i.exceptionCode
  { hart with csregisters := hart.csregisters.write .mip mip }

theorem addressOnInterrupt_eq {ε : Type} (i : Interrupt) (machine : MachineState) :
    (addressOnInterrupt i : Run ε Address) machine =
      trapResult (handlerOf (.interrupt i) (clearedHart i machine.hart)) { machine with
          hart := trappedHart (.interrupt i) machine.hart.pc (clearedHart i machine.hart) } :=
  takeTrap_eq (.interrupt i) machine.hart.pc { machine with hart := clearedHart i machine.hart }

theorem getTrapMode_clearedHart (i : Interrupt) (trap : Trap) (hart : HartState) (mode : Mode) :
    (clearedHart i hart).csregisters.getTrapMode trap mode = hart.csregisters.getTrapMode trap mode := by
  unfold getTrapMode clearedHart
  rw [read_write_of_ne (by decide) (by decide), read_write_of_ne (by decide) (by decide)]

theorem bitOf_clearedHart (i : Interrupt) (hart : HartState) : bitOf (clearedHart i hart) .mip i = false := by
  have written : (clearedHart i hart).csregisters.read .mip =
      hart.csregisters.read .mip &&& ~~~bitMask i.exceptionCode &&& BitVec.allOnes 64 &&&
        CSRegister.warlMaskMipMie := rfl
  have cleared : (~~~bitMask i.exceptionCode).getLsbD i.exceptionCode = false := by
    cases i <;> decide
  rw [bitOf, written]
  simp only [BitVec.getLsbD_and, cleared, Bool.and_false, Bool.false_and]

section
variable {machine : MachineState}

theorem nextInstrPc_eq : nextInstrPc machine = (match getPendingInterrupt machine.hart with
    | none => pure machine.hart.pc
    | some interrupt => addressOnInterrupt interrupt : Run EnvironException Address) machine := rfl

theorem nextInstrPc_of_none (nothing : getPendingInterrupt machine.hart = none) :
    nextInstrPc machine = .ok machine.hart.pc machine := by
  rw [nextInstrPc_eq, nothing]
  rfl

theorem nextInstrPc_of_pending (pending : getPendingInterrupt machine.hart = some i) :
    nextInstrPc machine = addressOnInterrupt i machine := by
  rw [nextInstrPc_eq, pending]

end

/-- A step starts with the interrupt that is taken, if there is one, and interrupts are taken exactly
when they are enabled if the bits are as described. -/
theorem interrupts_taken_iff (machine : MachineState) :
    (takenInterrupt machine.hart = none → nextInstrPc machine = .ok machine.hart.pc machine) ∧
    (∀ i mode, takenInterrupt machine.hart = some (i, mode) → ∃ address after,
      after.hart.mode = mode.asMode ∧ bitOf after.hart .mip i = false ∧
        nextInstrPc machine = trapResult address after) ∧
    (TakesEnabled machine.hart ↔ EnabledFirst machine.hart) := by
  refine ⟨fun nothing => ?_, fun i mode taken => ?_, takesEnabled_iff_enabledFirst machine.hart⟩
  · exact nextInstrPc_of_none (takenInterrupt_eq_none.1 nothing)
  · obtain ⟨pending, rfl⟩ := takenInterrupt_eq_some.1 taken
    refine ⟨_, _, ?_, ?_, (nextInstrPc_of_pending pending).trans (addressOnInterrupt_eq i machine)⟩
    · show ((clearedHart i machine.hart).csregisters.getTrapMode (.interrupt i) machine.hart.mode).asMode
        = (targetOf machine.hart i).asMode
      rw [getTrapMode_clearedHart, targetOf]
    · show bitOf (trappedHart (.interrupt i) machine.hart.pc (clearedHart i machine.hart)) .mip i = false
      rw [bitOf, read_trappedHart _ _ _ (by decide)]
      exact bitOf_clearedHart i machine.hart

def disabledTimer : HartState where
  xregisters := ⟨fun _ => 0⟩
  fregisters := fun _ => 0
  csregisters := ⟨fun number => if number = CSRegister.mip.number then bitMask 7 else 0⟩
  mode := .user
  pc := 0

/-- The interrupt is taken all the same. -/
theorem disabled_interrupt_is_taken :
    disabledTimer.csregisters.read .mie = 0 ∧ takenInterrupt disabledTimer = some (.machineTimer, .machine) ∧
      ∀ mode, ¬Qualifies disabledTimer .machineTimer mode := by
  refine ⟨by decide, by decide, fun mode qualifies => ?_⟩
  have enabled := (pending_of_qualifies qualifies).2
  exact absurd enabled (by decide)

end Octez.Proof.RiscV
