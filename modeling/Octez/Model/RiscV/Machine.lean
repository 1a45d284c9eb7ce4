import Octez.Lib.Stateful
import Octez.Model.RiscV.Instruction

/-! # The machine and its step -/

namespace Octez.RiscV

/-- The size of the main memory in bytes; no array of the source's language is larger. -/
structure MainMemoryLayout where
  bytes : Nat
  fits : bytes < 2 ^ 63

structure XRegisters where
  values : XRegister → XValue

namespace XRegisters

def read (registers : XRegisters) (register : XRegister) : XValue :=
  if register = 0 then 0 else registers.values register

def write (registers : XRegisters) (register : XRegister) (value : XValue) : XRegisters :=
  if register = 0 then registers
  else ⟨fun other => if other = register then value else registers.values other⟩

end XRegisters

structure HartState where
  xregisters : XRegisters
  fregisters : Fin 32 → BitVec 64
  csregisters : CSRegisters
  mode : Mode
  pc : Address

structure MachineState where
  hart : HartState
  memory : Nat → BitVec 8

inductive Fault (ε : Type) where
  | raised (error : ε)
  | panicked (panic : Panic)
deriving DecidableEq, Repr

abbrev Run (ε α : Type) := EStateM (Fault ε) MachineState α

section
variable {ε α : Type}

def raise (error : ε) : Run ε α := throw (.raised error)

def orPanic (result : Except Panic α) : Run ε α :=
  match result with
  | .ok a => return a
  | .error panic => throw (.panicked panic)

def modifyHart (f : HartState → HartState) : Run ε Unit :=
  modify fun machine => { machine with hart := f machine.hart }

def modifyX (f : XRegisters → XRegisters) : Run ε Unit :=
  modifyHart fun hart => { hart with xregisters := f hart.xregisters }

def modifyCs (f : CSRegisters → CSRegisters) : Run ε Unit :=
  modifyHart fun hart => { hart with csregisters := f hart.csregisters }

def writePc (pc : Address) : Run ε Unit := modifyHart fun hart => { hart with pc }

def writeMode (mode : Mode) : Run ε Unit := modifyHart fun hart => { hart with mode }

end

section
variable (layout : MainMemoryLayout) {ε : Type}

def devicesAddressSpaceLength : Address := BitVec.ofNat 64 (2 * 1024 * 1024 * 1024)

/-- The place in the main memory of an address that belongs to it. Devices cannot be accessed. -/
def locate (address : Address) : Option Nat :=
  if address.toNat < devicesAddressSpaceLength.toNat then none
  else
    let local_ := address.toNat - devicesAddressSpaceLength.toNat
    if local_ < layout.bytes then some local_ else none

def littleEndian (memory : Nat → BitVec 8) (start : Nat) : Nat → Nat
  | 0 => 0
  | size + 1 => (memory start).toNat + 256 * littleEndian memory (start + 1) size

def inBounds (start size : Nat) : Except Panic Bool :=
  if start + size < 2 ^ 64 then .ok (start + size ≤ layout.bytes) else .error .overflow

def busRead (size : Nat) (address : Address) (error : ε) : Run ε (BitVec (8 * size)) :=
  match locate layout address with
  | none => raise error
  | some start => do
    let accessible ← orPanic (inBounds layout start size)
    let machine ← get
    if accessible then return BitVec.ofNat _ (littleEndian machine.memory start size) else raise error

def storeBytes (memory : Nat → BitVec 8) (start size : Nat) (value : BitVec (8 * size)) : Nat → BitVec 8 :=
  fun place => if start ≤ place ∧ place < start + size then
    BitVec.ofNat 8 (value.toNat >>> (8 * (place - start))) else memory place

def busWrite (size : Nat) (address : Address) (value : BitVec (8 * size)) (error : ε) : Run ε Unit :=
  match locate layout address with
  | none => raise error
  | some start => do
    let accessible ← orPanic (inBounds layout start size)
    if accessible then
      modify fun machine => { machine with memory := storeBytes machine.memory start size value }
    else raise error

end

inductive ProgramCounterUpdate where
  | set (address : Address)
  | add (width : BitVec 64)
deriving DecidableEq, Repr

namespace XRegisters
variable (registers : XRegisters)

def runRType (f : XValue → XValue → XValue) (args : RTypeArgs) : XRegisters :=
  registers.write args.rd (f (registers.read args.rs1) (registers.read args.rs2))

def runIType (f : XValue → XValue → XValue) (args : ITypeArgs) : XRegisters :=
  registers.write args.rd (f (registers.read args.rs1) args.imm)

def signExtend32 (value : XValue) : XValue := (value.setWidth 32).signExtend 64

def ofBool (condition : Bool) : XValue := if condition then 1 else 0

def runAdd := runRType registers (· + ·)
def runSub := runRType registers (· - ·)
def runXor := runRType registers (· ^^^ ·)
def runOr := runRType registers (· ||| ·)
def runAnd := runRType registers (· &&& ·)
def runSlt := runRType registers fun lhs rhs => ofBool (lhs.slt rhs)
def runSltu := runRType registers fun lhs rhs => ofBool (lhs.ult rhs)
def runAddw := runRType registers fun lhs rhs => signExtend32 (lhs + rhs)
def runSubw := runRType registers fun lhs rhs => signExtend32 (lhs - rhs)
def runAddi := runIType registers (· + ·)
def runXori := runIType registers (· ^^^ ·)
def runOri := runIType registers (· ||| ·)
def runAndi := runIType registers (· &&& ·)
def runSlti := runIType registers fun value imm => ofBool (value.slt imm)
def runSltiu := runIType registers fun value imm => ofBool (value.ult imm)
def runAddiw := runIType registers fun value imm => signExtend32 (value + imm)

def runLui (args : UJTypeArgs) : XRegisters := registers.write args.rd args.imm

/-- Shift amounts that are masked cannot be too large. -/
def runSll := runRType registers fun value amount => value <<< (amount &&& 0x3F).toNat
def runSrl := runRType registers fun value amount => value >>> (amount &&& 0x3F).toNat
def runSra := runRType registers fun value amount => value.sshiftRight (amount &&& 0x3F).toNat
def runSllw := runRType registers fun value amount => signExtend32 (value <<< (amount &&& 0x1F).toNat)
def runSrlw := runRType registers fun value amount =>
  (value.setWidth 32 >>> (amount &&& 0x1F).toNat).signExtend 64
def runSraw := runRType registers fun value amount =>
  ((value.setWidth 32).sshiftRight (amount &&& 0x1F).toNat).signExtend 64
def runSrai := runIType registers fun value imm => value.sshiftRight (imm &&& 0x3F).toNat
def runSraiw := runIType registers fun value imm =>
  ((value.setWidth 32).sshiftRight (imm &&& 0x1F).toNat).signExtend 64

/-- The whole immediate is a shift amount, which has to be below the width of what is shifted. -/
def shiftAmount (width : Nat) (imm : XValue) : Except Panic Nat :=
  if imm.toNat < width then .ok imm.toNat else .error .overflow

def runShift (width : Nat) (f : XValue → Nat → XValue) (args : ITypeArgs) : Except Panic XRegisters := do
  let amount ← shiftAmount width args.imm
  return registers.write args.rd (f (registers.read args.rs1) amount)

def runSlli := runShift registers 64 fun value amount => value <<< amount
def runSrli := runShift registers 64 fun value amount => value >>> amount
def runSlliw := runShift registers 64 fun value amount => signExtend32 (value <<< amount)
def runSrliw := runShift registers 32 fun value amount => (value.setWidth 32 >>> amount).signExtend 64

/-- The dividend is the remainder if the divisor is zero, and zero is if the division overflows. -/
def signedRem {w : Nat} (lhs rhs : BitVec w) : BitVec w :=
  if rhs = 0 then lhs
  else if rhs = BitVec.allOnes w ∧ lhs = BitVec.intMin w then 0
  else lhs.srem rhs

def unsignedRem {w : Nat} (lhs rhs : BitVec w) : BitVec w := if rhs = 0 then lhs else lhs % rhs

def runRem := runRType registers signedRem
def runRemu := runRType registers unsignedRem
def runRemw := runRType registers fun lhs rhs =>
  (signedRem (lhs.setWidth 32) (rhs.setWidth 32)).signExtend 64
def runRemuw := runRType registers fun lhs rhs =>
  (unsignedRem (lhs.setWidth 32) (rhs.setWidth 32)).signExtend 64

end XRegisters

namespace HartState
variable (hart : HartState)

/-- The instruction reads the program counter that is stored. -/
def runAuipc (args : UJTypeArgs) : HartState :=
  { hart with xregisters := hart.xregisters.write args.rd (hart.pc + args.imm) }

def runEcall : Exception :=
  match hart.mode with
  | .user => .envCallFromUMode
  | .supervisor => .envCallFromSMode
  | .machine => .envCallFromMMode

def runJalr (args : ITypeArgs) : Address × HartState :=
  ((hart.xregisters.read args.rs1 + args.imm) &&& ~~~1,
    { hart with xregisters := hart.xregisters.write args.rd (hart.pc + 4) })

def runJal (args : UJTypeArgs) : Address × HartState :=
  (hart.pc + args.imm, { hart with xregisters := hart.xregisters.write args.rd (hart.pc + 4) })

def runBranch (condition : XValue → XValue → Bool) (args : SBTypeArgs) : Address :=
  if condition (hart.xregisters.read args.rs1) (hart.xregisters.read args.rs2) then hart.pc + args.imm
  else hart.pc + 4

def runBeq := runBranch hart (· == ·)
def runBne := runBranch hart (· != ·)
def runBlt := runBranch hart fun lhs rhs => lhs.slt rhs
def runBge := runBranch hart fun lhs rhs => rhs.sle lhs
def runBltu := runBranch hart fun lhs rhs => lhs.ult rhs
def runBgeu := runBranch hart fun lhs rhs => rhs.ule lhs

end HartState

def Mode.rank : Mode → Nat
  | .user => 0
  | .supervisor => 1
  | .machine => 3

def checkPrivilege (register : CSRegister) (mode : Mode) : Run Exception Unit := do
  let privilege ← orPanic register.privilege
  if mode.rank < privilege.rank then raise .illegalInstruction else return ()

def checkWrite (register : CSRegister) : Run Exception Unit :=
  if register.isReadOnly then raise .illegalInstruction else return ()

def csrReplace (register : CSRegister) (value : XValue) (rd : XRegister) : Run Exception Unit := do
  let machine ← get
  checkPrivilege register machine.hart.mode
  checkWrite register
  if rd = 0 then modifyCs fun registers => registers.write register value
  else do
    modifyCs fun registers => (registers.replace register value).2
    modifyX fun registers => registers.write rd (machine.hart.csregisters.replace register value).1

def runCsrrw (args : CsrArgs) : Run Exception Unit := do
  let machine ← get
  csrReplace args.csr (machine.hart.xregisters.read args.rs1) args.rd

def runCsrrwi (args : CsriArgs) : Run Exception Unit := csrReplace args.csr (args.imm &&& 0x1F) args.rd

def csrUpdate (update : CSRegisters → CSRegister → CSRValue → CSRValue × CSRegisters)
    (register : CSRegister) (nothing : Bool) (value : XValue) (rd : XRegister) : Run Exception Unit := do
  let machine ← get
  checkPrivilege register machine.hart.mode
  if nothing then modifyX fun registers => registers.write rd (machine.hart.csregisters.read register)
  else do
    checkWrite register
    modifyCs fun registers => (update registers register value).2
    modifyX fun registers => registers.write rd (update machine.hart.csregisters register value).1

def runCsrrs (args : CsrArgs) : Run Exception Unit := do
  let machine ← get
  csrUpdate CSRegisters.setBits args.csr (args.rs1 = 0) (machine.hart.xregisters.read args.rs1) args.rd

def runCsrrsi (args : CsriArgs) : Run Exception Unit :=
  csrUpdate CSRegisters.setBits args.csr (args.imm &&& 0x1F = 0) (args.imm &&& 0x1F) args.rd

def runCsrrc (args : CsrArgs) : Run Exception Unit := do
  let machine ← get
  csrUpdate CSRegisters.clearBits args.csr (args.rs1 = 0) (machine.hart.xregisters.read args.rs1) args.rd

def runCsrrci (args : CsriArgs) : Run Exception Unit :=
  csrUpdate CSRegisters.clearBits args.csr (args.imm &&& 0x1F = 0) (args.imm &&& 0x1F) args.rd

def returnedMstatus (mstatus : CSRValue) : CSRValue :=
  let previous := Xstatus.MPP.get mstatus
  let mstatus := Xstatus.MIE.set mstatus (Xstatus.MPIE.get mstatus)
  let mstatus := Xstatus.MPP.set (Xstatus.MPIE.set mstatus true) .user
  if previous ≠ .machine then Xstatus.MPRV.set mstatus false else mstatus

def modeOfMPP : MPPValue → Mode
  | .user => .user
  | .supervisor => .supervisor
  | .machine => .machine

def runMret : Run Exception Address := do
  let machine ← get
  match machine.hart.mode with
  | .user | .supervisor => raise .illegalInstruction
  | .machine => do
    let mstatus := machine.hart.csregisters.read .mstatus
    modifyCs fun registers => registers.write .mstatus (returnedMstatus mstatus)
    writeMode (modeOfMPP (Xstatus.MPP.get mstatus))
    let machine ← get
    return machine.hart.csregisters.read .mepc

def returnedSstatus (mstatus : CSRValue) : CSRValue :=
  let mstatus := Xstatus.SIE.set mstatus (Xstatus.SPIE.get mstatus)
  let mstatus := Xstatus.SPP.set (Xstatus.SPIE.set mstatus true) .user
  Xstatus.MPRV.set mstatus false

def modeOfSPP : SPPValue → Mode
  | .user => .user
  | .supervisor => .supervisor

def runSret : Run Exception Address := do
  let machine ← get
  match machine.hart.mode with
  | .user => raise .illegalInstruction
  | .supervisor | .machine =>
    let mstatus := machine.hart.csregisters.read .mstatus
    if Xstatus.TSR.get mstatus then raise .illegalInstruction
    else do
      modifyCs fun registers => registers.write .mstatus (returnedSstatus mstatus)
      writeMode (modeOfSPP (Xstatus.SPP.get mstatus))
      let machine ← get
      return machine.hart.csregisters.read .sepc

section
variable (layout : MainMemoryLayout)

def addressOf (args : ITypeArgs) (machine : MachineState) : Address :=
  machine.hart.xregisters.read args.rs1 + args.imm

def runLoad (size : Nat) (extend : BitVec (8 * size) → XValue) (args : ITypeArgs) : Run Exception Unit := do
  let machine ← get
  let address := addressOf args machine
  let value ← busRead layout size address (.loadAccessFault address)
  modifyX fun registers => registers.write args.rd (extend value)

def runLd := runLoad layout 8 fun value => value.signExtend 64
def runLw := runLoad layout 4 fun value => value.signExtend 64
def runLh := runLoad layout 2 fun value => value.signExtend 64
def runLb := runLoad layout 1 fun value => value.signExtend 64
def runLwu := runLoad layout 4 fun value => value.setWidth 64
def runLhu := runLoad layout 2 fun value => value.setWidth 64
def runLbu := runLoad layout 1 fun value => value.setWidth 64

def runStore (size : Nat) (args : SBTypeArgs) : Run Exception Unit := do
  let machine ← get
  let address := machine.hart.xregisters.read args.rs1 + args.imm
  busWrite layout size address ((machine.hart.xregisters.read args.rs2).setWidth (8 * size))
    (.storeAccessFault address)

def runSd := runStore layout 8
def runSw := runStore layout 4
def runSh := runStore layout 2
def runSb := runStore layout 1

def andNext (instr : Instr) (run : Run Exception Unit) : Run Exception ProgramCounterUpdate := do
  run
  return .add instr.width

def overX (instr : Instr) (f : XRegisters → XRegisters) : Run Exception ProgramCounterUpdate :=
  andNext instr (modifyX f)

def overXOrPanic (instr : Instr) (f : XRegisters → Except Panic XRegisters) :
    Run Exception ProgramCounterUpdate :=
  andNext instr (do
    let machine ← get
    let registers ← orPanic (f machine.hart.xregisters)
    modifyX fun _ => registers)

def branch (target : HartState → Address) : Run Exception ProgramCounterUpdate := do
  let machine ← get
  return .set (target machine.hart)

def jump (f : HartState → Address × HartState) : Run Exception ProgramCounterUpdate := do
  let machine ← get
  modifyHart fun hart => (f hart).2
  return .set (f machine.hart).1

def xret (run : Run Exception Address) : Run Exception ProgramCounterUpdate := do
  let address ← run
  return .set address

def runInstr (instr : Instr) : Run Exception ProgramCounterUpdate :=
  match instr with
  | .add args => overX instr fun x => x.runAdd args
  | .sub args => overX instr fun x => x.runSub args
  | .xor args => overX instr fun x => x.runXor args
  | .or args => overX instr fun x => x.runOr args
  | .and args => overX instr fun x => x.runAnd args
  | .sll args => overX instr fun x => x.runSll args
  | .srl args => overX instr fun x => x.runSrl args
  | .sra args => overX instr fun x => x.runSra args
  | .slt args => overX instr fun x => x.runSlt args
  | .sltu args => overX instr fun x => x.runSltu args
  | .addw args => overX instr fun x => x.runAddw args
  | .subw args => overX instr fun x => x.runSubw args
  | .sllw args => overX instr fun x => x.runSllw args
  | .srlw args => overX instr fun x => x.runSrlw args
  | .sraw args => overX instr fun x => x.runSraw args
  | .addi args => overX instr fun x => x.runAddi args
  | .addiw args => overX instr fun x => x.runAddiw args
  | .xori args => overX instr fun x => x.runXori args
  | .ori args => overX instr fun x => x.runOri args
  | .andi args => overX instr fun x => x.runAndi args
  | .slli args => overXOrPanic instr fun x => x.runSlli args
  | .srli args => overXOrPanic instr fun x => x.runSrli args
  | .srai args => overX instr fun x => x.runSrai args
  | .slliw args => overXOrPanic instr fun x => x.runSlliw args
  | .srliw args => overXOrPanic instr fun x => x.runSrliw args
  | .sraiw args => overX instr fun x => x.runSraiw args
  | .slti args => overX instr fun x => x.runSlti args
  | .sltiu args => overX instr fun x => x.runSltiu args
  | .lb args => andNext instr (runLb layout args)
  | .lh args => andNext instr (runLh layout args)
  | .lw args => andNext instr (runLw layout args)
  | .lbu args => andNext instr (runLbu layout args)
  | .lhu args => andNext instr (runLhu layout args)
  | .lwu args => andNext instr (runLwu layout args)
  | .ld args => andNext instr (runLd layout args)
  | .fence _ => andNext instr (return ())
  | .fenceTso _ => raise .illegalInstruction
  | .ecall => do
    let machine ← get
    raise machine.hart.runEcall
  | .ebreak => raise .breakpoint
  | .sb args => andNext instr (runSb layout args)
  | .sh args => andNext instr (runSh layout args)
  | .sw args => andNext instr (runSw layout args)
  | .sd args => andNext instr (runSd layout args)
  | .beq args => branch fun hart => hart.runBeq args
  | .bne args => branch fun hart => hart.runBne args
  | .blt args => branch fun hart => hart.runBlt args
  | .bge args => branch fun hart => hart.runBge args
  | .bltu args => branch fun hart => hart.runBltu args
  | .bgeu args => branch fun hart => hart.runBgeu args
  | .lui args => overX instr fun x => x.runLui args
  | .auipc args => andNext instr (modifyHart fun hart => hart.runAuipc args)
  | .jal args => jump fun hart => hart.runJal args
  | .jalr args => jump fun hart => hart.runJalr args
  | .rem args => overX instr fun x => x.runRem args
  | .remu args => overX instr fun x => x.runRemu args
  | .remw args => overX instr fun x => x.runRemw args
  | .remuw args => overX instr fun x => x.runRemuw args
  | .csrrw args => andNext instr (runCsrrw args)
  | .csrrs args => andNext instr (runCsrrs args)
  | .csrrc args => andNext instr (runCsrrc args)
  | .csrrwi args => andNext instr (runCsrrwi args)
  | .csrrsi args => andNext instr (runCsrrsi args)
  | .csrrci args => andNext instr (runCsrrci args)
  | .fenceI => andNext instr (return ())
  | .mret => xret runMret
  | .sret => xret runSret
  | .mnret => raise .illegalInstruction
  | .wfi => andNext instr (return ())
  | .unknown _ => raise .illegalInstruction
  | .unknownCompressed _ => raise .illegalInstruction

def parse (pc : Address) (lower : BitVec 16) : Run Exception Instr :=
  if isCompressed lower then return parseCompressedInstruction lower
  else do
    let next ← orPanic (checkedAdd pc 2)
    let upper ← busRead layout 2 next (.instructionAccessFault pc)
    return parseUncompressedInstruction (combine lower upper)

def fetchInstr (pc : Address) : Run Exception Instr := do
  let lower ← busRead layout 2 pc (.instructionAccessFault pc)
  parse layout pc lower

def runInstrAt (pc : Address) : Run Exception ProgramCounterUpdate := do
  let instr ← fetchInstr layout pc
  runInstr layout instr

end

def interruptOrder : List Interrupt :=
  [.machineExternal, .machineSoftware, .machineTimer, .supervisorExternal, .supervisorSoftware,
    .supervisorTimer]

def getPendingInterrupt (hart : HartState) : Option Interrupt :=
  let possible := hart.csregisters.possibleInterrupts hart.mode
  if possible = 0 then none
  else
    let activeInterrupts := hart.csregisters.read .mip &&& possible
    interruptOrder.find? fun interrupt => activeInterrupts.getLsbD interrupt.exceptionCode

structure TrapRegisters where
  xtvec : CSRegister
  xepc : CSRegister
  xcause : CSRegister
  xtval : CSRegister

def trapRegisters : TrapMode → TrapRegisters
  | .supervisor => ⟨.stvec, .sepc, .scause, .stval⟩
  | .machine => ⟨.mtvec, .mepc, .mcause, .mtval⟩

/-- A trap to the supervisor mode cannot come from the machine mode. -/
def trappedMstatus (trapMode : TrapMode) (currentMode : Mode) (mstatus : CSRValue) :
    Except Panic CSRValue :=
  match trapMode with
  | .supervisor =>
    let mstatus := Xstatus.SIE.set (Xstatus.SPIE.set mstatus (Xstatus.SIE.get mstatus)) false
    match currentMode with
    | .user => .ok (Xstatus.SPP.set mstatus .user)
    | .supervisor => .ok (Xstatus.SPP.set mstatus .supervisor)
    | .machine => .error .unreachable
  | .machine =>
    let mstatus := Xstatus.MIE.set (Xstatus.MPIE.set mstatus (Xstatus.MIE.get mstatus)) false
    match currentMode with
    | .user => .ok (Xstatus.MPP.set mstatus .user)
    | .supervisor => .ok (Xstatus.MPP.set mstatus .supervisor)
    | .machine => .ok (Xstatus.MPP.set mstatus .machine)

section
variable {ε : Type}

def takeTrap (trap : Trap) (returnPc : Address) : Run ε Address := do
  let machine ← get
  let trapMode := machine.hart.csregisters.getTrapMode trap machine.hart.mode
  let registers := trapRegisters trapMode
  modifyCs fun cs => cs.write registers.xepc returnPc
  modifyCs fun cs => cs.write registers.xcause trap.xcause
  modifyCs fun cs => cs.write registers.xtval trap.xtval
  let saved ← get
  let mstatus ← orPanic
    (trappedMstatus trapMode machine.hart.mode (saved.hart.csregisters.read .mstatus))
  modifyCs fun cs => cs.write .mstatus mstatus
  writeMode trapMode.asMode
  let trapped ← get
  orPanic (trap.trapHandlerAddress (trapped.hart.csregisters.read registers.xtvec))

def addressOnInterrupt (interrupt : Interrupt) : Run ε Address := do
  let machine ← get
  let mip := machine.hart.csregisters.read .mip
  modifyCs fun cs => cs.write .mip (mip &&& ~~~bitMask interrupt.exceptionCode)
  takeTrap (.interrupt interrupt) machine.hart.pc

end

/-- The environment has to handle calls to it; the program counter is stored for it. -/
def addressOnException (exception : Exception) (currentPc : Address) : Run EnvironException Address :=
  match EnvironException.tryFrom exception with
  | some environ => do
    writePc currentPc
    raise environ
  | none => takeTrap (.exception exception) currentPc

def nextInstrPc : Run EnvironException Address := do
  let machine ← get
  match getPendingInterrupt machine.hart with
  | none => return machine.hart.pc
  | some interrupt => addressOnInterrupt interrupt

section
variable (layout : MainMemoryLayout)

def pcUpdate (instrPc : Address) :
    Except (Fault Exception) ProgramCounterUpdate → Run EnvironException ProgramCounterUpdate
  | .ok update => return update
  | .error (.raised exception) => do
    let address ← addressOnException exception instrPc
    return .set address
  | .error (.panicked panic) => throw (.panicked panic)

def commitPc (instrPc : Address) : ProgramCounterUpdate → Run EnvironException Unit
  | .set address => writePc address
  | .add width => do
    let next ← orPanic (checkedAdd instrPc width)
    writePc next

def attemptInstr (instrPc : Address) :
    Run EnvironException (Except (Fault Exception) ProgramCounterUpdate) := fun machine =>
  match runInstrAt layout instrPc machine with
  | .ok update machine => .ok (.ok update) machine
  | .error fault machine => .ok (.error fault) machine

def executeAt (instrPc : Address) : Run EnvironException Unit := do
  let result ← attemptInstr layout instrPc
  let update ← pcUpdate instrPc result
  commitPc instrPc update

def step : Run EnvironException Unit := do
  let instrPc ← nextInstrPc
  executeAt layout instrPc

end

structure Program where
  entrypoint : Address
  segments : List (Address × List (BitVec 8))

inductive MachineError where
  | addressError
  | deviceTreeError
deriving DecidableEq, Repr

def storeAll (memory : Nat → BitVec 8) (start : Nat) (data : List (BitVec 8)) : Nat → BitVec 8 :=
  fun place => if start ≤ place then (data[place - start]?).getD (memory place) else memory place

section
variable (layout : MainMemoryLayout)

def writeAll (memory : Nat → BitVec 8) (address : Address) (data : List (BitVec 8)) :
    Except MachineError (Nat → BitVec 8) :=
  match locate layout address with
  | some start =>
    if start + data.length ≤ layout.bytes then .ok (storeAll memory start data)
    else .error .addressError
  | none => .error .addressError

def writeSegments (memory : Nat → BitVec 8) :
    List (Address × List (BitVec 8)) → Except MachineError (Nat → BitVec 8)
  | [] => .ok memory
  | (address, data) :: segments => do
    let memory ← writeAll layout memory address data
    writeSegments memory segments

def startOfMainMemory : Address := devicesAddressSpaceLength

def initrdAddress (program : Program) : Address :=
  match (program.segments.map fun segment => segment.1.toNat + segment.2.length).max? with
  | some last => BitVec.ofNat 64 last
  | none => startOfMainMemory

def writeInitrd (memory : Nat → BitVec 8) (address : Address) :
    Option (List (BitVec 8)) → Except MachineError (Address × (Nat → BitVec 8))
  | none => .ok (address, memory)
  | some initrd => do
    let memory ← writeAll layout memory address initrd
    return (address + BitVec.ofNat 64 initrd.length, memory)

def resetHart : HartState where
  xregisters := ⟨fun _ => 0⟩
  fregisters := fun _ => 0
  csregisters := CSRegisters.reset
  mode := .machine
  pc := startOfMainMemory

/-- The device tree is a parameter: it is generated from the start and the length of the initial
ramdisk by another library. -/
def setupBoot (generate : Option (Address × Nat) → Except MachineError (List (BitVec 8)))
    (program : Program) (initrd : Option (List (BitVec 8))) (mode : Mode) :
    Except MachineError MachineState := do
  let memory ← writeSegments layout (fun _ => 0) program.segments
  let initrdAddress := initrdAddress program
  let (dtbAddress, memory) ← writeInitrd layout memory initrdAddress initrd
  let fdt ← generate (initrd.map fun data => (initrdAddress, data.length))
  let memory ← writeAll layout memory dtbAddress fdt
  let xregisters := (resetHart.xregisters.write 10 0).write 11 dtbAddress
  let csregisters := (resetHart.csregisters.write .medeleg (BitVec.allOnes 64)).write .mideleg
    (BitVec.allOnes 64)
  return { memory, hart := { resetHart with xregisters, csregisters, mode, pc := program.entrypoint } }

end

end Octez.RiscV
