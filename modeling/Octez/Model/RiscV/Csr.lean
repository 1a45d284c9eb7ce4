import Mathlib

/-!
# Control and state registers of the interpreter
-/

namespace Octez.RiscV

abbrev CSRValue := BitVec 64

abbrev Address := BitVec 64

inductive Panic where
  | overflow
  | unreachable
deriving DecidableEq, Repr

/-- The addition of a build with overflow checks. -/
def checkedAdd {w : Nat} (a b : BitVec w) : Except Panic (BitVec w) :=
  if a.toNat + b.toNat < 2 ^ w then .ok (a + b) else .error .overflow

inductive Mode where
  | user
  | supervisor
  | machine
deriving DecidableEq, Repr

inductive TrapMode where
  | supervisor
  | machine
deriving DecidableEq, Repr

def TrapMode.asMode : TrapMode → Mode
  | .supervisor => .supervisor
  | .machine => .machine

inductive Exception where
  | instructionAccessFault (address : Address)
  | illegalInstruction
  | breakpoint
  | loadAccessFault (address : Address)
  | storeAccessFault (address : Address)
  | envCallFromUMode
  | envCallFromSMode
  | envCallFromMMode
deriving DecidableEq, Repr

inductive EnvironException where
  | envCallFromUMode
  | envCallFromSMode
  | envCallFromMMode
deriving DecidableEq, Repr

def EnvironException.tryFrom : Exception → Option EnvironException
  | .envCallFromUMode => some .envCallFromUMode
  | .envCallFromSMode => some .envCallFromSMode
  | .envCallFromMMode => some .envCallFromMMode
  | _ => none

inductive Interrupt where
  | supervisorSoftware
  | machineSoftware
  | supervisorTimer
  | machineTimer
  | supervisorExternal
  | machineExternal
deriving DecidableEq, Repr

def Interrupt.exceptionCode : Interrupt → Nat
  | .supervisorSoftware => 1
  | .machineSoftware => 3
  | .supervisorTimer => 5
  | .machineTimer => 7
  | .supervisorExternal => 9
  | .machineExternal => 11

def bitMask (code : Nat) : CSRValue := 1 <<< code

def supervisorBitMask : CSRValue := bitMask 1 ||| bitMask 5 ||| bitMask 9

def machineBitMask : CSRValue := bitMask 3 ||| bitMask 7 ||| bitMask 11

/-- What is asked of an exception or an interrupt when a trap is taken. -/
inductive Trap where
  | exception (cause : Exception)
  | interrupt (cause : Interrupt)
deriving DecidableEq, Repr

namespace Trap

def exceptionCode : Trap → Nat
  | .exception (.instructionAccessFault _) => 1
  | .exception .illegalInstruction => 2
  | .exception .breakpoint => 3
  | .exception (.loadAccessFault _) => 5
  | .exception (.storeAccessFault _) => 7
  | .exception .envCallFromUMode => 8
  | .exception .envCallFromSMode => 9
  | .exception .envCallFromMMode => 11
  | .interrupt cause => cause.exceptionCode

def xcause (trap : Trap) : CSRValue :=
  match trap with
  | .exception _ => BitVec.ofNat 64 trap.exceptionCode
  | .interrupt _ => bitMask 63 ||| BitVec.ofNat 64 trap.exceptionCode

def xtval : Trap → CSRValue
  | .exception (.instructionAccessFault address) => address
  | .exception (.loadAccessFault address) => address
  | .exception (.storeAccessFault address) => address
  | _ => 0

def trapHandlerAddress (trap : Trap) (xtvec : CSRValue) : Except Panic Address :=
  match trap with
  | .exception _ => .ok (xtvec &&& ~~~3)
  | .interrupt cause =>
    let handlerOffset : BitVec 64 :=
      if xtvec &&& 3 = 1 then BitVec.ofNat 64 (4 * cause.exceptionCode) else 0
    checkedAdd (xtvec &&& ~~~3) handlerOffset

end Trap

def ones (n : Nat) : CSRValue := BitVec.allOnes 64 >>> (64 - n)

/-- A field of a register: where it is and what its bits stand for. -/
structure Field (α : Type) where
  offset : Nat
  width : Nat
  new : CSRValue → α
  rawBits : α → CSRValue

namespace Field
variable {α : Type} (field : Field α)

def get (register : CSRValue) : α := field.new ((register >>> field.offset) &&& ones field.width)

def set (register : CSRValue) (value : α) : CSRValue :=
  (register &&& ~~~(ones field.width <<< field.offset)) |||
    ((field.rawBits value &&& ones field.width) <<< field.offset)

def mask : CSRValue := ones field.width <<< field.offset

end Field

def boolField (offset : Nat) : Field Bool where
  offset
  width := 1
  new value := value &&& 1 = 1
  rawBits value := if value then 1 else 0

inductive MPPValue where
  | user
  | supervisor
  | machine
deriving DecidableEq, Repr

inductive SPPValue where
  | user
  | supervisor
deriving DecidableEq, Repr

inductive XLenValue where
  | mxl32
  | mxl64
  | mxl128
deriving DecidableEq, Repr

inductive ExtensionValue where
  | off
  | initial
  | clean
  | dirty
deriving DecidableEq, Repr

/-- The value that is not used counts as the user mode. -/
def mppField (offset : Nat) : Field MPPValue where
  offset
  width := 2
  new value := if value &&& 3 = 1 then .supervisor else if value &&& 3 = 3 then .machine else .user
  rawBits
    | .user => 0
    | .supervisor => 1
    | .machine => 3

def xlenField (offset : Nat) : Field XLenValue where
  offset
  width := 2
  new value := if value &&& 3 = 1 then .mxl32 else if value &&& 3 = 3 then .mxl128 else .mxl64
  rawBits
    | .mxl32 => 1
    | .mxl64 => 2
    | .mxl128 => 3

def extensionField (offset : Nat) : Field ExtensionValue where
  offset
  width := 2
  new value :=
    if value &&& 3 = 0 then .off
    else if value &&& 3 = 1 then .initial
    else if value &&& 3 = 2 then .clean
    else .dirty
  rawBits
    | .off => 0
    | .initial => 1
    | .clean => 2
    | .dirty => 3

namespace Xstatus

def SD : Field Bool := boolField 63
def SXL : Field XLenValue := xlenField 34
def UXL : Field XLenValue := xlenField 32
def TSR : Field Bool := boolField 22
def MXR : Field Bool := boolField 19
def SUM : Field Bool := boolField 18
def MPRV : Field Bool := boolField 17
def XS : Field ExtensionValue := extensionField 15
def FS : Field ExtensionValue := extensionField 13
def MPP : Field MPPValue := mppField 11
def VS : Field ExtensionValue := extensionField 9
def MPIE : Field Bool := boolField 7
def UBE : Field Bool := boolField 6
def SPIE : Field Bool := boolField 5
def MIE : Field Bool := boolField 3
def SIE : Field Bool := boolField 1
def MNPP : Field MPPValue := mppField 11
def MNPV : Field Bool := boolField 7
def NMIE : Field Bool := boolField 3

def SPP : Field SPPValue where
  offset := 8
  width := 1
  new value := if value &&& 1 = 1 then .supervisor else .user
  rawBits
    | .user => 0
    | .supervisor => 1

def sstatusFieldsMask : CSRValue :=
  SD.mask ||| UXL.mask ||| MXR.mask ||| SUM.mask ||| XS.mask ||| FS.mask ||| VS.mask ||| SPP.mask |||
    UBE.mask ||| SPIE.mask ||| SIE.mask

def applyWarlSstatus (mstatus : CSRValue) : CSRValue :=
  let dirty := XS.get mstatus = .dirty ∨ FS.get mstatus = .dirty ∨ VS.get mstatus = .dirty
  UXL.set (SD.set mstatus (decide dirty)) .mxl64

def applyWarlMstatus (mstatus : CSRValue) : CSRValue :=
  let mstatus := SXL.set (applyWarlSstatus mstatus) .mxl64
  MPP.set mstatus (MPP.get mstatus)

def applyWarlMnstatus (mnstatus : CSRValue) : CSRValue :=
  let mnstatus := NMIE.set (MNPV.set mnstatus false) true
  MNPP.set mnstatus (MNPP.get mnstatus)

def sstatusFromMstatus (mstatus : CSRValue) : CSRValue := mstatus &&& sstatusFieldsMask

end Xstatus

def numbers (first last : Nat) : List Nat := (List.range (last + 1 - first)).map (first + ·)

def csrNumbers : List Nat :=
  numbers 0x001 0x003 ++ numbers 0xC00 0xC1F ++
  [0x100, 0x104, 0x105, 0x106, 0x10A] ++ numbers 0x140 0x144 ++ [0x180, 0x5A8] ++
  [0x600, 0x602, 0x603, 0x604, 0x606, 0x607, 0x643, 0x644, 0x645, 0x64A, 0xE12, 0x60A, 0x680, 0x6A8,
    0x605] ++
  [0x200, 0x204, 0x205] ++ numbers 0x240 0x244 ++ [0x280] ++
  numbers 0xF11 0xF15 ++ numbers 0x300 0x306 ++ numbers 0x340 0x344 ++ [0x34A, 0x34B, 0x30A, 0x747] ++
  (numbers 0 7).map (fun n => 0x3A0 + 2 * n) ++ numbers 0x3B0 0x3EF ++ [0x740, 0x741, 0x742, 0x744] ++
  [0xB00] ++ numbers 0xB02 0xB1F ++ [0x320] ++ numbers 0x323 0x33F ++
  numbers 0x7A0 0x7A3 ++ [0x7A5, 0x7A8] ++ numbers 0x7B0 0x7B3

structure CSRegister where
  number : Nat
  known : number ∈ csrNumbers
deriving DecidableEq

namespace CSRegister

def sstatus : CSRegister := ⟨0x100, by decide⟩
def sie : CSRegister := ⟨0x104, by decide⟩
def stvec : CSRegister := ⟨0x105, by decide⟩
def scounteren : CSRegister := ⟨0x106, by decide⟩
def senvcfg : CSRegister := ⟨0x10A, by decide⟩
def sepc : CSRegister := ⟨0x141, by decide⟩
def scause : CSRegister := ⟨0x142, by decide⟩
def stval : CSRegister := ⟨0x143, by decide⟩
def sip : CSRegister := ⟨0x144, by decide⟩
def satp : CSRegister := ⟨0x180, by decide⟩
def mstatus : CSRegister := ⟨0x300, by decide⟩
def misa : CSRegister := ⟨0x301, by decide⟩
def medeleg : CSRegister := ⟨0x302, by decide⟩
def mideleg : CSRegister := ⟨0x303, by decide⟩
def mie : CSRegister := ⟨0x304, by decide⟩
def mtvec : CSRegister := ⟨0x305, by decide⟩
def mcounteren : CSRegister := ⟨0x306, by decide⟩
def menvcfg : CSRegister := ⟨0x30A, by decide⟩
def mepc : CSRegister := ⟨0x341, by decide⟩
def mcause : CSRegister := ⟨0x342, by decide⟩
def mtval : CSRegister := ⟨0x343, by decide⟩
def mip : CSRegister := ⟨0x344, by decide⟩
def mseccfg : CSRegister := ⟨0x747, by decide⟩
def mnepc : CSRegister := ⟨0x741, by decide⟩
def mncause : CSRegister := ⟨0x742, by decide⟩
def mnstatus : CSRegister := ⟨0x744, by decide⟩

def tryParse (r : Nat) : Option CSRegister := if known : r ∈ csrNumbers then some ⟨r, known⟩ else none

inductive Privilege where
  | unprivileged
  | supervisor
  | hypervisor
  | machine
deriving DecidableEq, Repr

def Privilege.rank : Privilege → Nat
  | .unprivileged => 0
  | .supervisor => 1
  | .hypervisor => 2
  | .machine => 3

variable (register : CSRegister)

/-- The ranges of the numbers are given by their two highest digits. -/
def privilege : Except Panic Privilege :=
  match register.number / 0x100 with
  | 0x0 | 0x4 | 0x8 | 0xC => .ok .unprivileged
  | 0x1 | 0x5 | 0x9 | 0xD => .ok .supervisor
  | 0x2 | 0x6 | 0xA | 0xE => .ok .hypervisor
  | 0x3 | 0x7 | 0xB | 0xF => .ok .machine
  | _ => .error .unreachable

def isReadOnly : Bool := (register.number >>> 10) &&& 3 = 3

def wpriMask : CSRValue :=
  if register = mstatus then
    ~~~(ones 1 <<< 0 ||| ones 1 <<< 2 ||| ones 1 <<< 4 ||| ones 9 <<< 23 ||| ones 25 <<< 38)
  else if register = menvcfg then ~~~(ones 3 <<< 1 ||| ones 54 <<< 8)
  else if register = mseccfg then ~~~(ones 5 <<< 3 ||| ones (64 - 10) <<< 10)
  else if register = sstatus then
    ~~~(ones 1 <<< 0 ||| ones 3 <<< 2 ||| ones 1 <<< 7 ||| ones 2 <<< 11 ||| ones 1 <<< 17 |||
      ones 12 <<< 20 ||| ones 29 <<< 34)
  else if register = senvcfg then ~~~(ones 3 <<< 1 ||| ones (64 - 8) <<< 8)
  else if register = mncause then ~~~(ones 1 <<< 63)
  else if register = mnstatus then
    ~~~(ones 3 <<< 0 ||| ones 3 <<< 4 ||| ones 3 <<< 8 ||| ones (64 - 13) <<< 13)
  else BitVec.allOnes 64

def clearWpriFields (value : CSRValue) : CSRValue :=
  value &&& register.wpriMask

def wlrlMcauseValues : List CSRValue :=
  [1, 3, 5, 7, 9, 11].map (fun code => bitMask 63 ||| code) ++ [0, 1, 2, 3, 4, 5, 6, 7, 8, 9, 11, 12, 13, 15]

def wlrlScauseValues : List CSRValue :=
  [1, 5, 9].map (fun code => bitMask 63 ||| code) ++ [0, 1, 2, 3, 4, 5, 6, 7, 8, 9, 12, 13, 15]

def legalValues : List CSRValue :=
  if register = mcause then wlrlMcauseValues
  else if register = scause then wlrlScauseValues
  else []

def isLegal (value : CSRValue) : Bool :=
  register.legalValues = [] || value ∈ register.legalValues

def warlMisaValue : CSRValue :=
  (2 : CSRValue) <<< 62 ||| bitMask 0 ||| bitMask 2 ||| bitMask 3 ||| bitMask 5 ||| bitMask 8 |||
    bitMask 12 ||| bitMask 18 ||| bitMask 20

def warlMaskMedeleg : CSRValue := ~~~(ones 1 <<< 10 ||| ones 1 <<< 11 ||| ones 1 <<< 14 ||| ones 48 <<< 16)

def warlMaskMideleg : CSRValue :=
  ~~~(ones 1 <<< 0 ||| ones 1 <<< 2 ||| ones 1 <<< 4 ||| ones 1 <<< 6 ||| ones 1 <<< 8 |||
    ones 1 <<< 10 ||| ones 4 <<< 12 ||| ones 48 <<< 16)

def warlMaskXtvec : CSRValue := ~~~(ones 1 <<< 1)

def warlMaskMipMie : CSRValue := machineBitMask ||| supervisorBitMask

def warlMaskSipSie : CSRValue := supervisorBitMask

def warlMaskXepc : CSRValue := ~~~1

def satpDefaultValue : CSRValue := 0

def transformSatp (value : CSRValue) : Option CSRValue :=
  match ((value >>> 60) &&& ones 4).toNat with
  | 0 => some satpDefaultValue
  | 8 | 9 | 10 => some value
  | _ => none

def transformWarlFields (value : CSRValue) : Option CSRValue :=
  if register = misa then some warlMisaValue
  else if register = medeleg then some (value &&& warlMaskMedeleg)
  else if register = mideleg then some (value &&& warlMaskMideleg)
  else if register = mtvec ∨ register = stvec then some (value &&& warlMaskXtvec)
  else if register = mip ∨ register = mie then some (value &&& warlMaskMipMie)
  else if register = sip ∨ register = sie then some (value &&& warlMaskSipSie)
  else if register = mepc ∨ register = sepc ∨ register = mnepc then some (value &&& warlMaskXepc)
  else if register = satp then transformSatp value
  else if register = mstatus then some (Xstatus.applyWarlMstatus value)
  else if register = sstatus then some (Xstatus.applyWarlSstatus value)
  else if register = mnstatus then some (Xstatus.applyWarlMnstatus value)
  else some value

def makeValueWritable (value : CSRValue) : Option CSRValue := do
  let value ← register.transformWarlFields (register.clearWpriFields value)
  if register.isLegal value then some value else none

/-- The machine starts with interrupts off, after a supervisor mode, with extensions in their initial
state and with access of the supervisor to the pages of the user. -/
def defaultMstatus : CSRValue :=
  let mstatus := Xstatus.SPP.set 0 .supervisor
  let mstatus := Xstatus.MPP.set mstatus .supervisor
  let mstatus := Xstatus.VS.set mstatus .initial
  let mstatus := Xstatus.FS.set mstatus .initial
  let mstatus := Xstatus.XS.set mstatus .initial
  let mstatus := Xstatus.UXL.set mstatus .mxl64
  let mstatus := Xstatus.SXL.set mstatus .mxl64
  Xstatus.SUM.set mstatus true

def defaultValue : CSRValue :=
  if register = mnstatus then Xstatus.applyWarlMnstatus 0
  else if register = mncause then ones 1 <<< 31
  else if register = scounteren ∨ register = mcounteren then ones 32
  else if register = misa then warlMisaValue
  else if register = sstatus then Xstatus.sstatusFromMstatus defaultMstatus
  else if register = mstatus then defaultMstatus
  else if register = medeleg ∨ register = mideleg then ones 64
  else 0

end CSRegister

/-- The region of values that the numbers of the registers are indices of. -/
structure CSRegisters where
  values : Nat → CSRValue

namespace CSRegisters
open CSRegister
variable (registers : CSRegisters)

variable (register : CSRegister)

def raw : CSRValue := registers.values register.number

def setRaw (value : CSRValue) : CSRegisters :=
  ⟨fun number => if number = register.number then value else registers.values number⟩

def transformWrite (value : CSRValue) : CSRegister × CSRValue :=
  if register = sstatus then
    (mstatus, Xstatus.sstatusFromMstatus value ||| (registers.raw mstatus &&& ~~~Xstatus.sstatusFieldsMask))
  else if register = sip then
    (mip, (value &&& warlMaskSipSie) ||| (registers.raw mip &&& ~~~warlMaskSipSie))
  else if register = sie then
    (mie, (value &&& warlMaskSipSie) ||| (registers.raw mie &&& ~~~warlMaskSipSie))
  else (register, value)

def sourceOf : CSRegister :=
  if register = sstatus then mstatus
  else if register = sip then mip
  else if register = sie then mie
  else register

def viewOf (source : CSRValue) : CSRValue :=
  if register = sstatus then Xstatus.sstatusFromMstatus source
  else if register = sip then source &&& warlMaskSipSie
  else if register = sie then source &&& warlMaskSipSie
  else source

def read : CSRValue := viewOf register (registers.raw (sourceOf register))

def write (value : CSRValue) : CSRegisters :=
  match register.makeValueWritable value with
  | none => registers
  | some value =>
    let (register, value) := registers.transformWrite register value
    registers.setRaw register value

def replace (value : CSRValue) : CSRValue × CSRegisters :=
  match register.makeValueWritable value with
  | none => (registers.read register, registers)
  | some value =>
    let (updated, value) := registers.transformWrite register value
    (viewOf register (registers.raw updated), registers.setRaw updated value)

def setBits (bits : CSRValue) : CSRValue × CSRegisters :=
  (registers.read register, registers.write register (registers.read register ||| bits))

def clearBits (bits : CSRValue) : CSRValue × CSRegisters :=
  (registers.read register, registers.write register (registers.read register &&& ~~~bits))

def possibleInterrupts (currentMode : Mode) : CSRValue :=
  let status := registers.read mstatus
  let ieMachine := if Xstatus.MIE.get status then registers.read mie else 0
  let ieSupervisor := if Xstatus.SIE.get status then registers.read sie else 0
  match currentMode with
  | .user => supervisorBitMask ||| machineBitMask
  | .supervisor => ieSupervisor ||| machineBitMask
  | .machine => ieMachine

def getTrapMode (trap : Trap) (currentMode : Mode) : TrapMode :=
  match currentMode with
  | .machine => .machine
  | .user | .supervisor =>
    let delegation := match trap with
      | .interrupt _ => registers.read mideleg
      | .exception _ => registers.read medeleg
    if delegation.getLsbD trap.exceptionCode then .supervisor else .machine

def resetKnown : List Nat → CSRegisters → CSRegisters
  | [], registers => registers
  | number :: rest, registers =>
    resetKnown rest (match tryParse number with
      | some register => registers.write register register.defaultValue
      | none => registers)

def reset : CSRegisters := resetKnown csrNumbers ⟨fun _ => 0⟩

end CSRegisters

end Octez.RiscV
