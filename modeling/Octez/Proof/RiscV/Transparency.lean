import Octez.Proof.RiscV.Interrupts

namespace Octez.Proof.RiscV
open Octez.RiscV Octez.Lib.Stateful HartState Commutes

variable {ε α β : Type} {layout : MainMemoryLayout} {machine : MachineState} {instr : Instr}
  {p pc handler : Address} {i : Interrupt}

def withPc (pc : Address) (machine : MachineState) : MachineState :=
  { machine with hart := { machine.hart with pc } }

def effect : EStateM.Result (Fault ε) MachineState α → Option (Except ε α × MachineState)
  | .ok a machine => some (.ok a, machine)
  | .error (.raised error) machine => some (.error error, machine)
  | .error (.panicked _) _ => none

/-- The trap is taken and the address of the handler is stored before an instruction is run there. -/
def stepAfterTrap (layout : MainMemoryLayout) (i : Interrupt) : Run EnvironException Unit := do
  let handler ← addressOnInterrupt i
  writePc handler
  executeAt layout handler

/-- The instructions whose result depends on the program counter that is stored. -/
def readsPc : Instr → Bool
  | .auipc args => args.rd ≠ 0
  | .jalr args => args.rd ≠ 0
  | .jal _ | .beq _ | .bne _ | .blt _ | .bge _ | .bltu _ | .bgeu _ => true
  | _ => false

variable {address : Address}

section
variable {x : Run ε α} {f : α → Run ε β} {error : ε}

def IgnoresPc (x : Run ε α) : Prop := ∀ p, Commutes (withPc p) x

theorem IgnoresPc.bind (first : IgnoresPc x) (rest : ∀ a, IgnoresPc (f a)) : IgnoresPc (x >>= f) :=
  fun p => (first p).bind fun a => rest a p

theorem IgnoresPc.get_bind {f : MachineState → Run ε β} (reads : ∀ p machine, f (withPc p machine) = f machine)
    (rest : ∀ machine, IgnoresPc (f machine)) : IgnoresPc (get >>= f) :=
  fun p => Commutes.get_bind (reads p) fun machine => rest machine p

theorem IgnoresPc.of_pure {a : α} : IgnoresPc (pure a : Run ε α) := fun _ => Commutes.of_pure

theorem IgnoresPc.of_raise : IgnoresPc (raise error : Run ε α) := fun _ => of_throw

theorem orPanic_ignoresPc {result : Except Panic α} : IgnoresPc (orPanic result : Run ε α) := by
  cases result with
  | ok a => exact IgnoresPc.of_pure
  | error panic => exact fun _ => of_throw

theorem modifyX_ignoresPc {f} : IgnoresPc (modifyX f : Run ε Unit) :=
  fun _ => of_modify fun _ => rfl

theorem modifyCs_ignoresPc {f} : IgnoresPc (modifyCs f : Run ε Unit) :=
  fun _ => of_modify fun _ => rfl

theorem writeMode_ignoresPc {mode : Mode} : IgnoresPc (writeMode mode : Run ε Unit) :=
  fun _ => of_modify fun _ => rfl

theorem busRead_ignoresPc {size : Nat} :
    IgnoresPc (busRead layout size address error) := by
  unfold busRead
  split
  · exact .of_raise
  · refine orPanic_ignoresPc.bind fun accessible => .get_bind (fun _ _ => rfl) fun machine => ?_
    split
    · exact .of_pure
    · exact .of_raise

theorem busWrite_ignoresPc {size : Nat} {value} :
    IgnoresPc (busWrite layout size address value error) := by
  unfold busWrite
  split
  · exact .of_raise
  · refine orPanic_ignoresPc.bind fun accessible => ?_
    split
    · exact fun _ => of_modify fun _ => rfl
    · exact .of_raise

end

variable {register : CSRegister}

theorem checkPrivilege_ignoresPc {mode : Mode} : IgnoresPc (checkPrivilege register mode) := by
  refine orPanic_ignoresPc.bind fun privilege => ?_
  split
  · exact .of_raise
  · exact .of_pure

theorem checkWrite_ignoresPc : IgnoresPc (checkWrite register) := by
  unfold checkWrite
  split
  · exact .of_raise
  · exact .of_pure

variable {value : XValue} {rd : XRegister} {size : Nat} {args : SBTypeArgs} {lower : BitVec 16}
  {after : MachineState} {trap : Trap} {q : Address}

theorem csrReplace_ignoresPc : IgnoresPc (csrReplace register value rd) := by
  refine .get_bind (fun _ _ => rfl) fun machine => checkPrivilege_ignoresPc.bind fun _ =>
    checkWrite_ignoresPc.bind fun _ => ?_
  split
  · exact modifyCs_ignoresPc
  · exact modifyCs_ignoresPc.bind fun _ => modifyX_ignoresPc

theorem csrUpdate_ignoresPc {update} {nothing : Bool} :
    IgnoresPc (csrUpdate update register nothing value rd) := by
  refine .get_bind (fun _ _ => rfl) fun machine => checkPrivilege_ignoresPc.bind fun _ => ?_
  split
  · exact modifyX_ignoresPc
  · exact checkWrite_ignoresPc.bind fun _ => modifyCs_ignoresPc.bind fun _ => modifyX_ignoresPc

theorem runMret_ignoresPc : IgnoresPc runMret := by
  refine .get_bind (fun _ _ => rfl) fun machine => ?_
  cases machine.hart.mode with
  | user | supervisor => exact .of_raise
  | machine =>
    exact modifyCs_ignoresPc.bind fun _ => writeMode_ignoresPc.bind fun _ =>
      .get_bind (fun _ _ => rfl) fun _ => .of_pure

theorem runSret_ignoresPc : IgnoresPc runSret := by
  refine .get_bind (fun _ _ => rfl) fun machine => ?_
  cases machine.hart.mode with
  | user => exact .of_raise
  | supervisor | machine =>
    dsimp only
    split
    · exact .of_raise
    · exact modifyCs_ignoresPc.bind fun _ => writeMode_ignoresPc.bind fun _ =>
        .get_bind (fun _ _ => rfl) fun _ => .of_pure

theorem andNext_ignoresPc {run} (ignores : IgnoresPc run) :
    IgnoresPc (andNext instr run) :=
  ignores.bind fun _ => .of_pure

theorem xret_ignoresPc {run} (ignores : IgnoresPc run) : IgnoresPc (xret run) :=
  ignores.bind fun _ => .of_pure

theorem write_zero (registers : XRegisters) (value : XValue) : registers.write 0 value = registers := rfl

theorem runInstr_ignoresPc (ignores : readsPc instr = false) : IgnoresPc (runInstr layout instr) := by
  cases instr with
  | beq | bne | blt | bge | bltu | bgeu | jal => cases ignores
  | auipc args =>
    have nowhere : args.rd = 0 := by simpa [readsPc] using ignores
    refine andNext_ignoresPc fun p => of_modify fun machine => ?_
    simp only [withPc, runAuipc, nowhere, write_zero]
  | jalr args =>
    have nowhere : args.rd = 0 := by simpa [readsPc] using ignores
    have unlinked : ∀ hart : HartState, (hart.runJalr args).2 = hart := fun hart => by
      simp only [runJalr, nowhere, write_zero]
    refine .get_bind (fun _ _ => rfl) fun machine => .bind (fun p => of_modify fun machine => ?_)
      fun _ => .of_pure
    simp only [unlinked]
  | ecall => exact .get_bind (fun _ _ => rfl) fun _ => .of_raise
  | mret => exact xret_ignoresPc runMret_ignoresPc
  | sret => exact xret_ignoresPc runSret_ignoresPc
  | fenceTso | ebreak | mnret | unknown | unknownCompressed => exact .of_raise
  | fence | fenceI | wfi => exact andNext_ignoresPc .of_pure
  | lb | lh | lw | lbu | lhu | lwu | ld => 
    exact andNext_ignoresPc (.get_bind (fun _ _ => rfl) fun _ => busRead_ignoresPc.bind fun _ => modifyX_ignoresPc)
  | sb | sh | sw | sd => exact andNext_ignoresPc (.get_bind (fun _ _ => rfl) fun _ => busWrite_ignoresPc)
  | csrrw | csrrs | csrrc =>
    first
      | exact andNext_ignoresPc (.get_bind (fun _ _ => rfl) fun _ => csrReplace_ignoresPc)
      | exact andNext_ignoresPc (.get_bind (fun _ _ => rfl) fun _ => csrUpdate_ignoresPc)
  | csrrwi => exact andNext_ignoresPc csrReplace_ignoresPc
  | csrrsi | csrrci => exact andNext_ignoresPc csrUpdate_ignoresPc
  | slli | srli | slliw | srliw =>
    exact andNext_ignoresPc (.get_bind (fun _ _ => rfl) fun _ => orPanic_ignoresPc.bind fun _ => modifyX_ignoresPc)
  | _ => exact andNext_ignoresPc modifyX_ignoresPc

theorem parse_ignoresPc : IgnoresPc (parse layout pc lower) := by
  unfold parse
  split
  · exact .of_pure
  · exact orPanic_ignoresPc.bind fun _ => busRead_ignoresPc.bind fun _ => .of_pure

theorem fetchInstr_ignoresPc : IgnoresPc (fetchInstr layout pc) :=
  busRead_ignoresPc.bind fun _ => parse_ignoresPc

section
variable {x : Run ε α} {f : α → Run ε β} {error : ε} {start : Nat} {a : α}

def RaisedIn (machine : MachineState) (fault : Fault ε) (after : MachineState) : Prop :=
  (∃ error, fault = .raised error) ∧ after = machine

def Looks (x : Run ε α) : Prop := ∀ machine, Ensures x machine (fun _ after => after = machine) (RaisedIn machine)

theorem Looks.of_pure : Looks (pure a : Run ε α) := fun _ => rfl

theorem Looks.of_raise : Looks (raise error : Run ε α) := fun _ => ⟨⟨error, rfl⟩, rfl⟩

theorem Looks.bind (looks : Looks x) (rest : ∀ a, Looks (f a)) : Looks (x >>= f) := fun machine =>
  (looks machine).bind fun a after same => by
    subst same
    exact rest a after

theorem Looks.get_bind {f : MachineState → Run ε β} (rest : ∀ machine, Looks (f machine)) :
    Looks (get >>= f) := fun machine => (rest machine machine).get_bind

theorem orPanic_ok_looks : Looks (orPanic (.ok a) : Run ε α) := fun _ => rfl

theorem inBounds_of_locate (located : locate layout address = some start)
    (small : size ≤ 8) : inBounds layout start size = .ok (start + size ≤ layout.bytes) := by
  have fits := layout.fits
  unfold locate at located
  dsimp only at located
  split_ifs at located with below inside
  obtain rfl := Option.some.inj located
  exact if_pos (by omega)

theorem busRead_looks (small : size ≤ 8) :
    Looks (busRead layout size address error) := by
  unfold busRead
  split
  · exact .of_raise
  · rename_i start located
    rw [inBounds_of_locate located small]
    refine orPanic_ok_looks.bind fun accessible => .get_bind fun machine => ?_
    split
    · exact .of_pure
    · exact .of_raise

theorem lt_of_locate (located : locate layout address = some start) : address.toNat < 2 ^ 31 + 2 ^ 63 := by
  have size : devicesAddressSpaceLength.toNat = 2 ^ 31 := by decide
  have fits := layout.fits
  unfold locate at located
  dsimp only at located
  split_ifs at located with below inside
  omega

theorem checkedAdd_of_locate {width : Address} (located : locate layout address = some start)
    (small : width.toNat ≤ 4) : checkedAdd address width = .ok (address + width) := by
  have bound := lt_of_locate located
  exact if_pos (by omega)

theorem parse_looks (located : locate layout pc = some start) :
    Looks (parse layout pc lower) := by
  unfold parse
  rw [checkedAdd_of_locate located (by decide)]
  split
  · exact .of_pure
  · exact orPanic_ok_looks.bind fun _ => (busRead_looks (by decide)).bind fun _ => .of_pure

end

theorem fetchInstr_looks : Looks (fetchInstr layout pc) := by
  cases located : locate layout pc with
  | some start => exact (busRead_looks (by decide)).bind fun _ => parse_looks located
  | none =>
    unfold fetchInstr busRead
    rw [located]
    exact fun _ => ⟨⟨_, rfl⟩, rfl⟩

theorem eq_of_fetchInstr (fetched : fetchInstr layout pc machine = .ok instr after) :
    after = machine :=
  (fetchInstr_looks machine).of_ok fetched

theorem locate_of_fetchInstr
    (fetched : fetchInstr layout pc machine = .ok instr after) : ∃ start, locate layout pc = some start := by
  cases located : locate layout pc with
  | some start => exact ⟨start, rfl⟩
  | none =>
    have nothing : fetchInstr layout pc machine = .error (.raised (.instructionAccessFault pc)) machine := by
      show (busRead layout 2 pc (.instructionAccessFault pc) >>= parse layout pc) machine = _
      rw [busRead, located]
      rfl
    rw [nothing] at fetched
    cases fetched

def ErasesPc (x : Run ε α) : Prop := ∀ p machine, effect (x (withPc p machine)) = effect (x machine)

def NeverRaises (x : Run ε α) : Prop := ∀ machine error after, x machine ≠ .error (.raised error) after

theorem orPanic_neverRaises {result : Except Panic α} : NeverRaises (orPanic result : Run ε α) := by
  intro machine error after run
  cases result with
  | ok a | error panic => cases run

theorem takeTrap_neverRaises : NeverRaises (takeTrap trap pc : Run ε Address) := by
  intro machine error after run
  rw [takeTrap_eq] at run
  cases found : handlerOf trap machine.hart with
  | ok address | error panic =>
    rw [found] at run
    cases run

theorem takeTrap_ignoresPc : IgnoresPc (takeTrap trap pc : Run ε Address) := by
  intro p machine
  rw [takeTrap_eq, takeTrap_eq]
  show trapResult (handlerOf trap machine.hart) _ = mapState _ (trapResult (handlerOf trap machine.hart) _)
  cases handlerOf trap machine.hart with
  | ok address | error panic => rfl

theorem ErasesPc.bind {x : Run ε α} {f : α → Run ε β} (ignores : IgnoresPc x) (quiet : NeverRaises x)
    (rest : ∀ a, ErasesPc (f a)) : ErasesPc (x >>= f) := by
  intro p machine
  show effect (EStateM.bind x f _) = effect (EStateM.bind x f _)
  unfold EStateM.bind
  rw [ignores p machine]
  cases run : x machine with
  | ok a after => exact rest a p after
  | error fault after =>
    cases fault with
    | raised error => exact absurd run (quiet machine error after)
    | panicked panic => rfl

theorem commitPc_erasesPc {update} : ErasesPc (commitPc pc update) := by
  cases update with
  | set address => exact fun _ _ => rfl
  | add width => exact .bind orPanic_ignoresPc orPanic_neverRaises fun _ _ _ => rfl

def settle (pc : Address) (result : Except (Fault Exception) ProgramCounterUpdate) :
    Run EnvironException Unit := do
  let update ← pcUpdate pc result
  commitPc pc update

theorem settle_raised (exception : Exception) :
    settle pc (.error (.raised exception)) = addressOnException exception pc >>= writePc := by
  show (addressOnException exception pc >>= fun address => pure (.set address)) >>= commitPc pc = _
  rw [bind_assoc]
  exact bind_congr fun address => pure_bind _ _

theorem settle_erasesPc {result} : ErasesPc (settle pc result) := by
  cases result with
  | ok update => exact commitPc_erasesPc
  | error fault =>
    cases fault with
    | panicked panic => exact fun _ _ => rfl
    | raised exception =>
      rw [settle_raised, addressOnException]
      cases EnvironException.tryFrom exception with
      | some environ => exact fun _ _ => rfl
      | none => exact .bind takeTrap_ignoresPc takeTrap_neverRaises fun _ _ _ => rfl

theorem executeAt_eq (pc : Address) (machine : MachineState) : executeAt layout pc machine =
    match runInstrAt layout pc machine with
    | .ok update after => settle pc (.ok update) after
    | .error fault after => settle pc (.error fault) after := by
  show EStateM.bind (attemptInstr layout pc) (settle pc) machine = _
  unfold EStateM.bind attemptInstr
  cases runInstrAt layout pc machine with
  | ok update after | error fault after => rfl

theorem runInstrAt_of_fetched (fetched : fetchInstr layout pc machine = .ok instr machine) :
    runInstrAt layout pc machine = runInstr layout instr machine :=
  bind_of_ok fetched

section
variable (ignores : ∀ instr, fetchInstr layout pc machine = .ok instr machine → readsPc instr = false)
include ignores

theorem runInstrAt_withPc :
    runInstrAt layout pc (withPc p machine) = mapState (withPc p) (runInstrAt layout pc machine) := by
  show EStateM.bind (fetchInstr layout pc) (runInstr layout) _ =
    mapState _ (EStateM.bind (fetchInstr layout pc) (runInstr layout) machine)
  unfold EStateM.bind
  rw [fetchInstr_ignoresPc p machine]
  cases fetched : fetchInstr layout pc machine with
  | error fault after => rfl
  | ok instr after =>
    obtain rfl := eq_of_fetchInstr fetched
    exact runInstr_ignoresPc (ignores instr fetched) p after

theorem executeAt_withPc :
    effect (executeAt layout pc (withPc p machine)) = effect (executeAt layout pc machine) := by
  rw [executeAt_eq, executeAt_eq, runInstrAt_withPc ignores]
  cases runInstrAt layout pc machine with
  | ok update after | error fault after => exact settle_erasesPc p after

end

theorem fetched_withPc (fetched : fetchInstr layout pc machine = .ok instr machine) :
    fetchInstr layout pc (withPc p machine) = .ok instr (withPc p machine) := by
  rw [fetchInstr_ignoresPc p machine, fetched]
  rfl

section
variable {after : MachineState} (fetched : fetchInstr layout pc machine = .ok instr machine)
include fetched

theorem executeAt_of_set (run : runInstr layout instr machine = .ok (.set address) after) :
    executeAt layout pc machine = .ok () (withPc address after) := by
  rw [executeAt_eq, runInstrAt_of_fetched fetched, run]
  rfl

theorem executeAt_of_add (run : runInstr layout instr machine = .ok (.add 4) after) :
    executeAt layout pc machine = .ok () (withPc (pc + 4) after) := by
  obtain ⟨start, located⟩ := locate_of_fetchInstr fetched
  rw [executeAt_eq, runInstrAt_of_fetched fetched, run]
  show (orPanic (checkedAdd pc 4) >>= writePc : Run EnvironException Unit) after = _
  rw [checkedAdd_of_locate located (by decide)]
  rfl

end

theorem eq_of_effect_eq {first second : MachineState}
    (same : effect (.ok () first : EStateM.Result (Fault ε) MachineState Unit) = effect (.ok () second)) :
    first = second := by
  cases same
  rfl

theorem read_write {registers : XRegisters} {register : XRegister} (somewhere : register ≠ 0) :
    (registers.write register value).read register = value := by
  rw [XRegisters.read, if_neg somewhere, XRegisters.write, if_neg somewhere]
  exact if_pos rfl

theorem eq_of_runBranch_eq {hart : HartState} {condition}
    (same : runBranch { hart with pc := p } condition args =
      runBranch { hart with pc := q } condition args) : p = q := by
  unfold runBranch at same
  by_cases holds : condition (hart.xregisters.read args.rs1) (hart.xregisters.read args.rs2) = true
  · rw [if_pos holds, if_pos holds] at same
    exact (BitVec.add_left_inj _).1 same
  · rw [if_neg holds, if_neg holds] at same
    exact (BitVec.add_left_inj _).1 same

theorem eq_of_executeAt_eq (fetched : fetchInstr layout pc machine = .ok instr machine)
    (reads : readsPc instr = true)
    (same : effect (executeAt layout pc (withPc p machine)) = effect (executeAt layout pc (withPc q machine))) :
    p = q := by
  have atP : fetchInstr layout pc (withPc p machine) = .ok instr (withPc p machine) := fetched_withPc fetched
  have atQ : fetchInstr layout pc (withPc q machine) = .ok instr (withPc q machine) := fetched_withPc fetched
  cases instr with
  | auipc args =>
    have somewhere : args.rd ≠ 0 := by simpa [readsPc] using reads
    rw [executeAt_of_add atP rfl, executeAt_of_add atQ rfl] at same
    have registers := congrArg (fun machine => machine.hart.xregisters.read args.rd) (eq_of_effect_eq same)
    dsimp only [withPc, runAuipc] at registers
    rw [read_write somewhere, read_write somewhere] at registers
    exact (BitVec.add_left_inj _).1 registers
  | jalr args =>
    have somewhere : args.rd ≠ 0 := by simpa [readsPc] using reads
    rw [executeAt_of_set atP rfl, executeAt_of_set atQ rfl] at same
    have registers := congrArg (fun machine => machine.hart.xregisters.read args.rd) (eq_of_effect_eq same)
    dsimp only [withPc, runJalr] at registers
    rw [read_write somewhere, read_write somewhere] at registers
    exact (BitVec.add_left_inj _).1 registers
  | jal args =>
    rw [executeAt_of_set atP rfl, executeAt_of_set atQ rfl] at same
    have target : p + args.imm = q + args.imm :=
      congrArg (fun machine => machine.hart.pc) (eq_of_effect_eq same)
    exact (BitVec.add_left_inj _).1 target
  | beq args | bne args | blt args | bge args | bltu args | bgeu args =>
    rw [executeAt_of_set atP rfl, executeAt_of_set atQ rfl] at same
    have target := congrArg (fun machine => machine.hart.pc) (eq_of_effect_eq same)
    simp only [withPc, runBeq, runBne, runBlt, runBge, runBltu, runBgeu] at target
    exact eq_of_runBranch_eq target
  | _ => cases reads

theorem step_of_pending (pending : getPendingInterrupt machine.hart = some i) :
    step layout machine = (addressOnInterrupt i >>= executeAt layout) machine := by
  show EStateM.bind nextInstrPc (executeAt layout) machine =
    EStateM.bind (addressOnInterrupt i) (executeAt layout) machine
  unfold EStateM.bind
  rw [nextInstrPc_of_pending pending]

theorem pc_of_addressOnInterrupt
    (taken : (addressOnInterrupt i : Run ε Address) machine = .ok handler after) :
    after.hart.pc = machine.hart.pc := by
  rw [addressOnInterrupt_eq] at taken
  cases found : handlerOf (.interrupt i) (clearedHart i machine.hart) with
  | ok address =>
    rw [found] at taken
    cases taken
    rfl
  | error panic =>
    rw [found] at taken
    cases taken

/-- The instruction at the handler sees the address of the handler: it does not look, or the program
counter that is stored is that address. -/
def SeesHandler (layout : MainMemoryLayout) (i : Interrupt) (machine : MachineState) : Prop :=
  ∀ handler after instr, (addressOnInterrupt i : Run EnvironException Address) machine = .ok handler after →
    fetchInstr layout handler after = .ok instr after → readsPc instr = true → machine.hart.pc = handler

theorem effect_step_eq_iff (pending : getPendingInterrupt machine.hart = some i) :
    effect (step layout machine) = effect (stepAfterTrap layout i machine) ↔ SeesHandler layout i machine := by
  rw [step_of_pending pending]
  show effect (EStateM.bind (addressOnInterrupt i) (executeAt layout) machine) =
    effect (EStateM.bind (addressOnInterrupt i) _ machine) ↔ _
  unfold EStateM.bind SeesHandler
  cases taken : (addressOnInterrupt i : Run EnvironException Address) machine with
  | error fault after =>
    constructor
    · intro _ handler after instr impossible
      cases impossible
    · intro _
      rfl
  | ok handler after =>
    have stored := pc_of_addressOnInterrupt taken
    have restored : withPc machine.hart.pc after = after := by
      rw [← stored]
      rfl
    show effect (executeAt layout handler after) =
      effect (executeAt layout handler (withPc handler after)) ↔ _
    constructor
    · intro same handler' after' instr taken' fetched reads
      cases taken'
      rw [← restored] at same
      exact eq_of_executeAt_eq fetched reads same
    · intro sees
      by_cases there : machine.hart.pc = handler
      · rw [← there, restored]
      · refine (executeAt_withPc fun instr fetched => ?_).symm
        by_contra reads
        exact there (sees handler after instr rfl fetched (by simpa using reads))

/-- One step of a machine with a pending interrupt does what the trap and a step from its handler do if
and only if the instruction sees the address of the handler. -/
theorem interrupt_transparent_iff (pending : getPendingInterrupt machine.hart = some i) :
    (∀ handler after, (addressOnInterrupt i : Run EnvironException Address) machine = .ok handler after →
      getPendingInterrupt after.hart = none →
        stepAfterTrap layout i machine = step layout (withPc handler after)) ∧
    (effect (step layout machine) = effect (stepAfterTrap layout i machine) ↔ SeesHandler layout i machine) := by
  refine ⟨fun handler after taken quiet => ?_, effect_step_eq_iff pending⟩
  have alone : step layout (withPc handler after) = executeAt layout handler (withPc handler after) :=
    bind_of_ok (nextInstrPc_of_none quiet)
  rw [alone]
  exact bind_of_ok taken

def smallLayout : MainMemoryLayout := ⟨16, by decide⟩

/-- A machine in user mode at the third instruction with a timer interrupt that is pending, whose handler
is the given instruction at the start of the memory. -/
def interrupted (handler : BitVec 32) : MachineState where
  hart :=
    { xregisters := ⟨fun _ => 0⟩
      fregisters := fun _ => 0
      csregisters := ⟨fun number =>
        if number = CSRegister.mip.number then bitMask 7
        else if number = CSRegister.mtvec.number then startOfMainMemory
        else 0⟩
      mode := .user
      pc := startOfMainMemory + 8 }
  memory := fun place => if place < 4 then (handler >>> (8 * place)).setWidth 8 else 0

/-- The first instruction of the handler adds nothing to the program counter (`auipc x1, 0`) and gets the
address of the instruction that was interrupted. -/
theorem auipc_sees_interrupted_address :
    getPendingInterrupt (interrupted 0x97).hart = some .machineTimer ∧
    (∃ u after, step smallLayout (interrupted 0x97) = .ok u after ∧
      after.hart.xregisters.read 1 = startOfMainMemory + 8) ∧
    (∃ u after, stepAfterTrap smallLayout .machineTimer (interrupted 0x97) = .ok u after ∧
      after.hart.xregisters.read 1 = startOfMainMemory) ∧ effect (step smallLayout (interrupted 0x97)) ≠
      effect (stepAfterTrap smallLayout .machineTimer (interrupted 0x97)) := by
  obtain ⟨u, after, stepped, found⟩ : ∃ u after, step smallLayout (interrupted 0x97) = .ok u after ∧
      decide (after.hart.xregisters.read 1 = startOfMainMemory + 8) = true :=
    exists_of_okAnd (by decide +kernel)
  obtain ⟨v, after', stepped', found'⟩ : ∃ u after,
      stepAfterTrap smallLayout .machineTimer (interrupted 0x97) = .ok u after ∧
        decide (after.hart.xregisters.read 1 = startOfMainMemory) = true :=
    exists_of_okAnd (by decide +kernel)
  have found := of_decide_eq_true found
  have found' := of_decide_eq_true found'
  refine ⟨by decide +kernel, ⟨u, after, stepped, found⟩, ⟨v, after', stepped', found'⟩, fun same => ?_⟩
  rw [stepped, stepped'] at same
  cases same
  rw [found'] at found
  exact absurd found (by decide)

/-- With a handler that starts with `nop` nobody sees the difference. -/
theorem nop_at_handler_transparent :
    getPendingInterrupt (interrupted 0x13).hart = some .machineTimer ∧
    effect (step smallLayout (interrupted 0x13)) =
      effect (stepAfterTrap smallLayout .machineTimer (interrupted 0x13)) := by
  refine (and_iff_left_of_imp fun pending => ?_).2 (by decide +kernel)
  refine (interrupt_transparent_iff pending).2.2 fun handler after instr taken fetched reads => ?_
  have unread : okAnd (fun handler after =>
      okAnd (fun instr _ => !readsPc instr) (fetchInstr smallLayout handler after))
      ((addressOnInterrupt .machineTimer : Run EnvironException Address) (interrupted 0x13)) = true := by
    decide +kernel
  rw [taken, okAnd, fetched, okAnd, reads] at unread
  cases unread

end Octez.Proof.RiscV
