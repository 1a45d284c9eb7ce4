import Octez.Proof.RiscV.Transparency

namespace Octez.Proof.RiscV
open Octez.RiscV Octez.Lib.Stateful XRegisters

variable {ε α β : Type} {layout : MainMemoryLayout} {machine : MachineState} {instr : Instr} {pc : Address}
  {word : BitVec 32}

section
variable {x : Run ε α} {f : α → Run ε β}

def Atomic (x : Run ε α) : Prop := ∀ machine, Ensures x machine (fun _ _ => True) (RaisedIn machine)

def Total (x : Run ε α) : Prop := ∀ machine, Ensures x machine (fun _ _ => True) fun _ _ => False

theorem Total.atomic (total : Total x) : Atomic x := fun machine =>
  (total machine).weaken (fun _ _ _ => trivial) fun _ _ impossible => impossible.elim

theorem Total.of_pure {a : α} : Total (pure a : Run ε α) := fun _ => trivial

theorem Total.of_modifyHart {g} : Total (modifyHart g : Run ε Unit) := fun _ => trivial

theorem Total.bind (total : Total x) (rest : ∀ a, Total (f a)) : Total (x >>= f) := fun machine =>
  (total machine).bind fun a after _ => rest a after

theorem Total.get_bind {f : MachineState → Run ε β} (rest : ∀ machine, Total (f machine)) :
    Total (get >>= f) := fun machine => (rest machine machine).get_bind

theorem Looks.bind_atomic (looks : Looks x) (rest : ∀ a, Atomic (f a)) : Atomic (x >>= f) := fun machine =>
  (looks machine).bind fun a after same => by
    subst same
    exact rest a after

variable {error : ε}

theorem Atomic.of_raise : Atomic (raise error : Run ε α) := fun _ => ⟨⟨error, rfl⟩, rfl⟩

theorem Atomic.bind_total (atomic : Atomic x) (rest : ∀ a, Total (f a)) : Atomic (x >>= f) := fun machine =>
  (atomic machine).bind fun a after _ =>
    (rest a after).weaken (fun _ _ _ => trivial) fun _ _ impossible => impossible.elim

theorem Atomic.get_bind {f : MachineState → Run ε β} (rest : ∀ machine, Atomic (f machine)) :
    Atomic (get >>= f) := fun machine => (rest machine machine).get_bind

theorem busWrite_atomic {address : Address} {size : Nat} {value}
    (small : size ≤ 8) : Atomic (busWrite layout size address value error) := by
  unfold busWrite
  split
  · exact .of_raise
  · rename_i start located
    rw [inBounds_of_locate located small]
    refine orPanic_ok_looks.bind_atomic fun accessible => ?_
    split
    · exact fun _ => trivial
    · exact .of_raise

end

theorem privilege_ok (register : CSRegister) : ∃ privilege, register.privilege = .ok privilege := by
  have known : ∀ number ∈ csrNumbers, number / 0x100 < 16 := by decide +kernel
  have range := known register.number register.known
  unfold CSRegister.privilege
  generalize register.number / 0x100 = digit at range
  interval_cases digit <;> exact ⟨_, rfl⟩

variable {register : CSRegister} {value : XValue} {rd : XRegister}

theorem checkPrivilege_looks {mode : Mode} : Looks (checkPrivilege register mode) := by
  obtain ⟨privilege, found⟩ := privilege_ok register
  unfold checkPrivilege
  rw [found]
  refine orPanic_ok_looks.bind fun privilege => ?_
  split
  · exact .of_raise
  · exact .of_pure

theorem checkWrite_looks : Looks (checkWrite register) := by
  unfold checkWrite
  split
  · exact .of_raise
  · exact .of_pure

theorem csrReplace_atomic :
    Atomic (csrReplace register value rd) := by
  refine .get_bind fun machine => checkPrivilege_looks.bind_atomic fun _ =>
    checkWrite_looks.bind_atomic fun _ => Total.atomic ?_
  split
  · exact .of_modifyHart
  · exact Total.of_modifyHart.bind fun _ => .of_modifyHart

theorem csrUpdate_atomic {update} {nothing : Bool} :
    Atomic (csrUpdate update register nothing value rd) := by
  refine .get_bind fun machine => checkPrivilege_looks.bind_atomic fun _ => ?_
  split
  · exact Total.of_modifyHart.atomic
  · exact checkWrite_looks.bind_atomic fun _ =>
      (Total.of_modifyHart.bind fun _ => .of_modifyHart).atomic

theorem runMret_atomic : Atomic runMret := by
  refine .get_bind fun machine => ?_
  cases machine.hart.mode with
  | user | supervisor => exact .of_raise
  | machine =>
    exact (Total.of_modifyHart.bind fun _ => Total.of_modifyHart.bind fun _ =>
      .get_bind fun _ => .of_pure).atomic

theorem runSret_atomic : Atomic runSret := by
  refine .get_bind fun machine => ?_
  cases machine.hart.mode with
  | user => exact .of_raise
  | supervisor | machine =>
    dsimp only
    split
    · exact .of_raise
    · exact (Total.of_modifyHart.bind fun _ => Total.of_modifyHart.bind fun _ =>
        .get_bind fun _ => .of_pure).atomic

variable {args : ITypeArgs} {width : Nat} {run : Run Exception Unit} {registers : XRegisters}
  {f : XValue → Nat → XValue}

theorem andNext_atomic (atomic : Atomic run) : Atomic (andNext instr run) :=
  atomic.bind_total fun _ => .of_pure

theorem runShift_ok
    (small : args.imm.toNat < width) : ∃ after, registers.runShift width f args = .ok after := by
  unfold runShift shiftAmount
  rw [if_pos small]
  exact ⟨_, rfl⟩

theorem overXOrPanic_atomic {f} (ok : ∀ registers, ∃ after, f registers = .ok after) :
    Atomic (overXOrPanic instr f) := by
  refine andNext_atomic (.get_bind fun machine => ?_)
  obtain ⟨after, found⟩ := ok machine.hart.xregisters
  rw [found]
  exact orPanic_ok_looks.bind_atomic fun _ => Total.of_modifyHart.atomic

theorem runShift_error
    (large : width ≤ args.imm.toNat) : registers.runShift width f args = .error .overflow := by
  unfold runShift shiftAmount
  rw [if_neg (Nat.not_lt.2 large)]
  rfl

theorem overXOrPanic_of_error {f} {panic : Panic} (failed : f machine.hart.xregisters = .error panic) :
    overXOrPanic instr f machine = .error (.panicked panic) machine := by
  show ((orPanic (f machine.hart.xregisters) >>= fun registers => modifyX fun _ => registers) >>= fun _ =>
    pure (.add instr.width) : Run Exception ProgramCounterUpdate) machine = _
  rw [failed]
  rfl

def Fits : Instr → Prop
  | .slli args | .srli args | .slliw args => args.imm.toNat < 64
  | _ => True

def Overshifts : Instr → Prop
  | .srliw args => 32 ≤ args.imm.toNat
  | _ => False

theorem runInstr_atomic (fits : Fits instr) (short : ¬Overshifts instr) : Atomic (runInstr layout instr) := by
  cases instr with
  | beq | bne | blt | bge | bltu | bgeu => exact (Total.get_bind fun _ => .of_pure).atomic
  | jal | jalr => exact (Total.get_bind fun _ => Total.of_modifyHart.bind fun _ => .of_pure).atomic
  | auipc => exact andNext_atomic Total.of_modifyHart.atomic
  | ecall => exact .get_bind fun _ => .of_raise
  | mret => exact runMret_atomic.bind_total fun _ => .of_pure
  | sret => exact runSret_atomic.bind_total fun _ => .of_pure
  | fenceTso | ebreak | mnret | unknown | unknownCompressed => exact .of_raise
  | fence | fenceI | wfi => exact andNext_atomic Total.of_pure.atomic
  | lb | lh | lw | lbu | lhu | lwu | ld => 
    exact andNext_atomic (.get_bind fun _ =>
      (busRead_looks (by decide)).bind_atomic fun _ => Total.of_modifyHart.atomic)
  | sb | sh | sw | sd => exact andNext_atomic (.get_bind fun _ => busWrite_atomic (by decide))
  | csrrw => exact andNext_atomic (.get_bind fun _ => csrReplace_atomic)
  | csrrs | csrrc => exact andNext_atomic (.get_bind fun _ => csrUpdate_atomic)
  | csrrwi => exact andNext_atomic csrReplace_atomic
  | csrrsi | csrrci => exact andNext_atomic csrUpdate_atomic
  | slli | srli | slliw =>
    rw [runInstr]
    exact overXOrPanic_atomic fun _ => runShift_ok fits
  | srliw =>
    rw [runInstr]
    exact overXOrPanic_atomic fun _ => runShift_ok (Nat.lt_of_not_le short)
  | _ => exact andNext_atomic Total.of_modifyHart.atomic

theorem iImm_lt (none : imm11_6 word = 0) : (iImm word).toNat < 64 := by
  have high : word.toNat < 2 ^ 26 := by
    unfold imm11_6 bits at none
    omega
  have masked : (word &&& 0xFFF00000#32).toNat < 2 ^ 26 := by
    exact Nat.and_le_left.trans_lt high
  have positive : (word &&& 0xFFF00000#32).msb = false := by
    rw [BitVec.msb_eq_false_iff_two_mul_lt]
    omega
  have shifted : ((word &&& 0xFFF00000#32).sshiftRight 20).toNat < 64 := by
    rw [BitVec.sshiftRight_eq_of_msb_false positive, BitVec.toNat_ushiftRight, Nat.shiftRight_eq_div_pow]
    omega
  have positive' : ((word &&& 0xFFF00000#32).sshiftRight 20).msb = false := by
    rw [BitVec.msb_eq_false_iff_two_mul_lt]
    omega
  rw [iImm, BitVec.signExtend_eq_setWidth_of_msb_false positive', BitVec.toNat_setWidth]
  exact (Nat.mod_le _ _).trans_lt shifted

theorem parseArithI_fits : Fits (parseArithI word) := by
  unfold parseArithI
  split
  case h_5 =>
    split
    · rename_i nothing
      exact iImm_lt nothing
    · trivial
  case h_6 =>
    split
    · rename_i nothing
      exact iImm_lt nothing
    · split <;> trivial
  all_goals trivial

theorem parseArithIW_fits : Fits (parseArithIW word) := by
  unfold parseArithIW
  split
  case h_2 =>
    split
    · rename_i nothing
      exact iImm_lt nothing
    · trivial
  case h_3 => split_ifs <;> trivial
  all_goals trivial

theorem csrInstr_fits {make} (fits : ∀ args, Fits (make args)) : Fits (csrInstr word make) := by
  unfold csrInstr
  split
  · exact fits _
  · trivial

theorem csriInstr_fits {make} (fits : ∀ args, Fits (make args)) :
    Fits (csriInstr word make) := by
  unfold csriInstr
  split
  · exact fits _
  · trivial

theorem parseSys_fits : Fits (parseSys word) := by
  unfold parseSys
  split
  case h_1 =>
    unfold parseEnvironment
    split <;> trivial
  case h_2 | h_3 | h_4 => exact csrInstr_fits fun _ => trivial
  case h_5 | h_6 | h_7 => exact csriInstr_fits fun _ => trivial
  all_goals trivial

theorem parseUncompressedInstruction_fits : Fits (parseUncompressedInstruction word) := by
  unfold parseUncompressedInstruction
  split
  case h_1 =>
    unfold parseArith
    split <;> trivial
  case h_2 =>
    unfold parseArithW
    split <;> trivial
  case h_3 => exact parseArithI_fits
  case h_4 =>
    unfold parseLoad
    split <;> trivial
  case h_5 => exact parseArithIW_fits
  case h_6 =>
    unfold parseSynch
    split <;> trivial
  case h_7 => exact parseSys_fits
  case h_8 =>
    unfold parseStore
    split <;> trivial
  case h_9 =>
    unfold parseBranch
    split <;> trivial
  case h_13 =>
    unfold parseJalr
    split <;> trivial
  all_goals trivial

theorem parse_fits {lower : BitVec 16} :
    Ensures (parse layout pc lower) machine (fun instr _ => Fits instr) fun _ _ => True := by
  unfold parse
  split
  · exact Ensures.of_pure trivial
  · exact Ensures.of_true.bind fun _ _ _ => Ensures.of_true.bind fun _ _ _ =>
      Ensures.of_pure parseUncompressedInstruction_fits

theorem fits_of_fetchInstr {after : MachineState} (fetched : fetchInstr layout pc machine = .ok instr after) :
    Fits instr := by
  have fits : Ensures (fetchInstr layout pc) machine (fun instr _ => Fits instr) fun _ _ => True :=
    Ensures.of_true.bind fun _ _ _ => parse_fits
  exact fits.of_ok fetched

def IsNear : ProgramCounterUpdate → Prop
  | .set _ => True
  | .add width => width.toNat ≤ 4

theorem width_le (instr : Instr) : instr.width.toNat ≤ 4 := by
  unfold Instr.width
  split
  · decide
  · decide

theorem runInstr_isNear (instr : Instr) :
    Ensures (runInstr layout instr) machine (fun update _ => IsNear update) fun _ _ => True := by
  cases instr with
  | beq | bne | blt | bge | bltu | bgeu | jal | jalr | ecall | fenceTso | ebreak | mnret | unknown
  | unknownCompressed => trivial
  | mret | sret => exact Ensures.of_true.bind fun _ _ _ => trivial
  | _ => exact Ensures.of_true.bind fun _ _ _ => Ensures.of_pure (width_le _)

structure OnlyTrap (trapMode : TrapMode) (before after : MachineState) : Prop where
  xregisters : after.hart.xregisters = before.hart.xregisters
  fregisters : after.hart.fregisters = before.hart.fregisters
  memory : after.memory = before.memory
  csregisters : ∀ number, number ≠ CSRegister.mstatus.number →
    number ≠ (trapRegisters trapMode).xepc.number → number ≠ (trapRegisters trapMode).xcause.number →
    number ≠ (trapRegisters trapMode).xtval.number →
    after.hart.csregisters.values number = before.hart.csregisters.values number

def EndsIn (after : MachineState) : EStateM.Result (Fault EnvironException) MachineState Unit → Prop
  | .ok _ machine => machine = after
  | .error (.raised _) machine => machine = after
  | .error (.panicked _) _ => False

theorem settle_raised_endsIn (exception : Exception) (machine : MachineState) :
    ∃ after, EndsIn after (settle pc (.error (.raised exception)) machine) ∧
      OnlyTrap (machine.hart.csregisters.getTrapMode (.exception exception) machine.hart.mode) machine after := by
  rw [settle_raised, addressOnException]
  cases EnvironException.tryFrom exception with
  | some environ =>
    exact ⟨withPc pc machine, rfl, rfl, rfl, rfl, fun _ _ _ _ _ => rfl⟩
  | none =>
    have trapped : (takeTrap (.exception exception) pc : Run EnvironException Address) machine = _ :=
      takeTrap_eq (.exception exception) pc machine
    show ∃ after, EndsIn after (EStateM.bind (takeTrap (.exception exception) pc) writePc machine) ∧ _
    unfold EStateM.bind
    rw [trapped]
    refine ⟨_, rfl, rfl, rfl, rfl, fun number status epc cause tval => ?_⟩
    have sources : ∀ mode, IsSource (trapRegisters mode).xepc ∧ IsSource (trapRegisters mode).xcause ∧
        IsSource (trapRegisters mode).xtval := by
      intro mode
      cases mode <;> decide
    obtain ⟨epcSource, causeSource, tvalSource⟩ :=
      sources (machine.hart.csregisters.getTrapMode (.exception exception) machine.hart.mode)
    rw [trappedHart, savedCs, values_write_of_ne (by decide) status, values_write_of_ne tvalSource tval,
      values_write_of_ne causeSource cause, values_write_of_ne epcSource epc]

def HandlerFits (hart : HartState) (i : Interrupt) : Prop :=
  let xtvec := hart.csregisters.read
    (trapRegisters (hart.csregisters.getTrapMode (.interrupt i) hart.mode)).xtvec
  xtvec &&& 3 = 1 → (xtvec &&& ~~~3).toNat + 4 * i.exceptionCode < 2 ^ 64

/-- No address overflows and no word is shifted by too many bits. -/
structure InRange (layout : MainMemoryLayout) (machine : MachineState) : Prop where
  handler : ∀ i, getPendingInterrupt machine.hart = some i → HandlerFits machine.hart i
  shift : ∀ pc start instr, nextInstrPc machine = .ok pc start →
    fetchInstr layout pc start = .ok instr start → ¬Overshifts instr

/-- The step does not panic, and if its instruction raises an exception then only the trap happens. -/
structure Safe (layout : MainMemoryLayout) (machine : MachineState) : Prop where
  endsIn : ∃ after, EndsIn after (step layout machine)
  precise : ∀ pc start exception stopped, nextInstrPc machine = .ok pc start →
    runInstrAt layout pc start = .error (.raised exception) stopped →
    ∃ after, EndsIn after (step layout machine) ∧
      OnlyTrap (start.hart.csregisters.getTrapMode (.exception exception) start.hart.mode) start after

theorem handlerOf_clearedHart (i : Interrupt) (hart : HartState) :
    handlerOf (.interrupt i) (clearedHart i hart) = handlerOf (.interrupt i) hart := by
  show Trap.trapHandlerAddress (.interrupt i) ((clearedHart i hart).csregisters.read
    (trapRegisters ((clearedHart i hart).csregisters.getTrapMode (.interrupt i) hart.mode)).xtvec) = _
  rw [getTrapMode_clearedHart]
  unfold handlerOf clearedHart
  cases hart.csregisters.getTrapMode (.interrupt i) hart.mode with
  | machine | supervisor => rw [read_write_of_ne (by decide) (by decide)]

theorem handlerFits_iff {hart : HartState} {i : Interrupt} :
    HandlerFits hart i ↔ ∃ address, handlerOf (.interrupt i) hart = .ok address := by
  unfold HandlerFits handlerOf Trap.trapHandlerAddress
  dsimp only
  generalize hart.csregisters.read _ = xtvec
  have code : (BitVec.ofNat 64 (4 * i.exceptionCode)).toNat = 4 * i.exceptionCode := by
    cases i <;> decide
  by_cases vectored : xtvec &&& 3 = 1
  · rw [if_pos vectored, checkedAdd, code]
    split
    · rename_i fits
      exact ⟨fun _ => ⟨_, rfl⟩, fun _ _ => fits⟩
    · rename_i overflow
      exact ⟨fun fits => absurd (fits vectored) overflow, fun ⟨_, impossible⟩ => by cases impossible⟩
  · rw [if_neg vectored, checkedAdd, if_pos (by have := (xtvec &&& ~~~3).isLt; simpa using this)]
    exact ⟨fun _ => ⟨_, rfl⟩, fun _ impossible => absurd impossible vectored⟩

theorem nextInstrPc_ok (fits : ∀ i, getPendingInterrupt machine.hart = some i → HandlerFits machine.hart i) :
    ∃ pc start, nextInstrPc machine = .ok pc start := by
  cases pending : getPendingInterrupt machine.hart with
  | none => exact ⟨_, _, nextInstrPc_of_none pending⟩
  | some i =>
    obtain ⟨address, found⟩ := handlerFits_iff.1 (fits i pending)
    have entered : (addressOnInterrupt i : Run EnvironException Address) machine = _ :=
      addressOnInterrupt_eq i machine
    rw [handlerOf_clearedHart, found] at entered
    exact ⟨_, _, (nextInstrPc_of_pending pending).trans entered⟩

theorem step_of_next {start : MachineState} (next : nextInstrPc machine = .ok pc start) :
    step layout machine = executeAt layout pc start :=
  bind_of_ok next

section
variable (short : ∀ instr, fetchInstr layout pc machine = .ok instr machine → ¬Overshifts instr)
include short

theorem runInstrAt_atomic :
    Ensures (runInstrAt layout pc) machine
      (fun update _ => IsNear update ∧ ∃ start, locate layout pc = some start) (RaisedIn machine) := by
  cases fetched : fetchInstr layout pc machine with
  | error fault after =>
    rw [Ensures, show runInstrAt layout pc machine = _ from bind_of_error fetched]
    exact (fetchInstr_looks machine).of_error fetched
  | ok instr after =>
    obtain rfl := eq_of_fetchInstr fetched
    have atomic : Atomic (runInstr layout instr) :=
      runInstr_atomic (fits_of_fetchInstr fetched) (short instr fetched)
    rw [Ensures, runInstrAt_of_fetched fetched]
    cases run : runInstr layout instr after with
    | ok update final => exact ⟨(runInstr_isNear instr).of_ok run, locate_of_fetchInstr fetched⟩
    | error fault final => exact (atomic after).of_error run

theorem executeAt_endsIn :
    ∃ after, EndsIn after (executeAt layout pc machine) := by
  have atomic := runInstrAt_atomic short
  rw [executeAt_eq]
  cases run : runInstrAt layout pc machine with
  | ok update after =>
    obtain ⟨near, start, located⟩ := atomic.of_ok run
    cases update with
    | set address => exact ⟨_, rfl⟩
    | add width =>
      show ∃ final, EndsIn final ((orPanic (checkedAdd pc width) >>= writePc : Run EnvironException Unit) after)
      rw [checkedAdd_of_locate located near]
      exact ⟨_, rfl⟩
  | error fault after =>
    obtain ⟨⟨exception, rfl⟩, rfl⟩ := atomic.of_error run
    exact (settle_raised_endsIn exception after).imp fun _ ends => ends.1

end

theorem executeAt_of_overshifts (fetched : fetchInstr layout pc machine = .ok instr machine)
    (large : Overshifts instr) : executeAt layout pc machine = .error (.panicked .overflow) machine := by
  cases instr with
  | srliw args =>
    have panics : runInstr layout (.srliw args) machine = .error (.panicked .overflow) machine := by
      rw [runInstr]
      exact overXOrPanic_of_error (runShift_error large)
    rw [executeAt_eq, runInstrAt_of_fetched fetched, panics]
    rfl
  | _ => cases large

theorem InRange.of_endsIn (ends : ∃ after, EndsIn after (step layout machine)) : InRange layout machine := by
  obtain ⟨after, ends⟩ := ends
  constructor
  · intro i pending
    rw [handlerFits_iff]
    cases found : handlerOf (.interrupt i) machine.hart with
    | ok address => exact ⟨address, rfl⟩
    | error panic =>
      have entered : (addressOnInterrupt i : Run EnvironException Address) machine = _ :=
        addressOnInterrupt_eq i machine
      rw [handlerOf_clearedHart, found] at entered
      rw [step_of_pending pending, bind_of_error entered] at ends
      exact ends.elim
  · intro pc start instr next fetched large
    rw [step_of_next next, executeAt_of_overshifts fetched large] at ends
    exact ends

theorem Safe.of_inRange (inRange : InRange layout machine) : Safe layout machine := by
  obtain ⟨pc, start, next⟩ := nextInstrPc_ok inRange.handler
  constructor
  · rw [step_of_next next]
    exact executeAt_endsIn fun instr fetched => inRange.shift pc start instr next fetched
  · intro pc start exception stopped next raised
    have atomic := runInstrAt_atomic fun instr fetched => inRange.shift pc start instr next fetched
    obtain ⟨-, rfl⟩ := atomic.of_error raised
    rw [step_of_next next, executeAt_eq, raised]
    exact settle_raised_endsIn exception stopped

/-- The steps that do not panic, and trap precisely. -/
theorem step_safe_iff (layout : MainMemoryLayout) (machine : MachineState) :
    Safe layout machine ↔ InRange layout machine :=
  ⟨fun safe => .of_endsIn safe.endsIn, .of_inRange⟩

/-- A program of one instruction (`srliw x0, x0, 32`), loaded at the start of the memory. -/
def overshift : Program where
  entrypoint := startOfMainMemory
  segments := [(startOfMainMemory, [0x1B, 0x50, 0x00, 0x02])]

def overflows {α : Type} : EStateM.Result (Fault EnvironException) MachineState α → Bool
  | .error (.panicked .overflow) _ => true
  | _ => false

theorem eq_of_overflows {α : Type} {result : EStateM.Result (Fault EnvironException) MachineState α}
    (checked : overflows result = true) : ∃ after, result = .error (.panicked .overflow) after := by
  unfold overflows at checked
  split at checked
  · exact ⟨_, rfl⟩
  · cases checked

/-- Its first step panics. -/
theorem booted_overshift_panics :
    ∃ machine after, setupBoot smallLayout (fun _ => .ok []) overshift none .machine = .ok machine ∧
      step smallLayout machine = .error (.panicked .overflow) after := by
  have checked : (match setupBoot smallLayout (fun _ => .ok []) overshift none .machine with
      | .ok machine => overflows (step smallLayout machine)
      | .error _ => false) = true := by
    decide +kernel
  cases booted : setupBoot smallLayout (fun _ => .ok []) overshift none .machine with
  | error error =>
    rw [booted] at checked
    cases checked
  | ok machine =>
    rw [booted] at checked
    obtain ⟨after, panicked⟩ := eq_of_overflows checked
    exact ⟨machine, after, rfl, panicked⟩

end Octez.Proof.RiscV
