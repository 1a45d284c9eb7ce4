import Octez.Model.RiscV.Csr

/-!
# Instructions and their parser
-/

namespace Octez.RiscV

/-- The register `x0` has no value of its own. -/
abbrev XRegister := Fin 32

instance XRegister.neZero : NeZero 32 := ⟨by decide⟩

abbrev XValue := BitVec 64

structure RTypeArgs where
  rd : XRegister
  rs1 : XRegister
  rs2 : XRegister
deriving DecidableEq, Repr

structure ITypeArgs where
  rd : XRegister
  rs1 : XRegister
  imm : XValue
deriving DecidableEq, Repr

structure SBTypeArgs where
  rs1 : XRegister
  rs2 : XRegister
  imm : XValue
deriving DecidableEq, Repr

structure UJTypeArgs where
  rd : XRegister
  imm : XValue
deriving DecidableEq, Repr

structure CsrArgs where
  rd : XRegister
  rs1 : XRegister
  csr : CSRegister
deriving DecidableEq

structure CsriArgs where
  rd : XRegister
  imm : XValue
  csr : CSRegister
deriving DecidableEq

structure FenceSet where
  i : Bool
  o : Bool
  r : Bool
  w : Bool
deriving DecidableEq, Repr

structure FenceArgs where
  pred : FenceSet
  succ : FenceSet
deriving DecidableEq, Repr

inductive Instr where
  | add (args : RTypeArgs)
  | sub (args : RTypeArgs)
  | xor (args : RTypeArgs)
  | or (args : RTypeArgs)
  | and (args : RTypeArgs)
  | sll (args : RTypeArgs)
  | srl (args : RTypeArgs)
  | sra (args : RTypeArgs)
  | slt (args : RTypeArgs)
  | sltu (args : RTypeArgs)
  | addw (args : RTypeArgs)
  | subw (args : RTypeArgs)
  | sllw (args : RTypeArgs)
  | srlw (args : RTypeArgs)
  | sraw (args : RTypeArgs)
  | addi (args : ITypeArgs)
  | addiw (args : ITypeArgs)
  | xori (args : ITypeArgs)
  | ori (args : ITypeArgs)
  | andi (args : ITypeArgs)
  | slli (args : ITypeArgs)
  | srli (args : ITypeArgs)
  | srai (args : ITypeArgs)
  | slliw (args : ITypeArgs)
  | srliw (args : ITypeArgs)
  | sraiw (args : ITypeArgs)
  | slti (args : ITypeArgs)
  | sltiu (args : ITypeArgs)
  | lb (args : ITypeArgs)
  | lh (args : ITypeArgs)
  | lw (args : ITypeArgs)
  | lbu (args : ITypeArgs)
  | lhu (args : ITypeArgs)
  | lwu (args : ITypeArgs)
  | ld (args : ITypeArgs)
  | fence (args : FenceArgs)
  | fenceTso (args : FenceArgs)
  | ecall
  | ebreak
  | sb (args : SBTypeArgs)
  | sh (args : SBTypeArgs)
  | sw (args : SBTypeArgs)
  | sd (args : SBTypeArgs)
  | beq (args : SBTypeArgs)
  | bne (args : SBTypeArgs)
  | blt (args : SBTypeArgs)
  | bge (args : SBTypeArgs)
  | bltu (args : SBTypeArgs)
  | bgeu (args : SBTypeArgs)
  | lui (args : UJTypeArgs)
  | auipc (args : UJTypeArgs)
  | jal (args : UJTypeArgs)
  | jalr (args : ITypeArgs)
  | rem (args : RTypeArgs)
  | remu (args : RTypeArgs)
  | remw (args : RTypeArgs)
  | remuw (args : RTypeArgs)
  | csrrw (args : CsrArgs)
  | csrrs (args : CsrArgs)
  | csrrc (args : CsrArgs)
  | csrrwi (args : CsriArgs)
  | csrrsi (args : CsriArgs)
  | csrrci (args : CsriArgs)
  | fenceI
  | mret
  | sret
  | mnret
  | wfi
  | unknown (instr : BitVec 32)
  | unknownCompressed (instr : BitVec 16)
deriving DecidableEq

def Instr.width : Instr → BitVec 64
  | .unknownCompressed _ => 2
  | _ => 4

variable (instr : BitVec 32)

def bits (pos n : Nat) : Nat := (instr.toNat >>> pos) % 2 ^ n

def bit (pos : Nat) : Bool := instr.getLsbD pos

def opcode : Nat := bits instr 0 7

def funct3 : Nat := bits instr 12 3

def funct7 : Nat := bits instr 25 7

def registerAt (pos : Nat) : XRegister :=
  ⟨bits instr pos 5, Nat.mod_lt _ (by decide)⟩

def rd : XRegister := registerAt instr 7

def rs1 : XRegister := registerAt instr 15

def rs2 : XRegister := registerAt instr 20

def rs1Bits : Nat := bits instr 15 5

def rs2Bits : Nat := bits instr 20 5

def imm11_6 : Nat := bits instr 26 6 <<< 1

def fm : Nat := bits instr 28 4

def csr : Option CSRegister := CSRegister.tryParse (bits instr 20 12)

/-- Signed shifts extend the sign, which is the highest bit of the instruction. -/
def iImm : XValue := ((instr &&& 0xFFF00000#32).sshiftRight 20).signExtend 64

def sImm : XValue :=
  ((instr &&& 0xFE000000#32).sshiftRight 20 ||| (instr &&& 0x00000F80#32).sshiftRight 7).signExtend 64

def bImm : XValue :=
  ((instr &&& 0x80000000#32).sshiftRight 19 ||| ((instr &&& 0x00000080#32) <<< 4) |||
    (instr &&& 0x7E000000#32).sshiftRight 20 ||| (instr &&& 0x00000F00#32).sshiftRight 7).signExtend 64

def uImm : XValue := (instr &&& 0xFFFFF000#32).signExtend 64

def jImm : XValue :=
  ((instr &&& 0x80000000#32).sshiftRight 11 ||| (instr &&& 0x000FF000#32) |||
    (instr &&& 0x00100000#32).sshiftRight 9 ||| (instr &&& 0x7FE00000#32).sshiftRight 20).signExtend 64

section
variable (instr : BitVec 32)

def rArgs : RTypeArgs := ⟨rd instr, rs1 instr, rs2 instr⟩

def iArgs : ITypeArgs := ⟨rd instr, rs1 instr, iImm instr⟩

def sArgs : SBTypeArgs := ⟨rs1 instr, rs2 instr, sImm instr⟩

def bArgs : SBTypeArgs := ⟨rs1 instr, rs2 instr, bImm instr⟩

def uArgs : UJTypeArgs := ⟨rd instr, uImm instr⟩

def jArgs : UJTypeArgs := ⟨rd instr, jImm instr⟩

def fenceArgs : FenceArgs where
  pred := ⟨bit instr 27, bit instr 26, bit instr 25, bit instr 24⟩
  succ := ⟨bit instr 23, bit instr 22, bit instr 21, bit instr 20⟩

def csrInstr (make : CsrArgs → Instr) : Instr :=
  match csr instr with
  | some csr => make ⟨rd instr, rs1 instr, csr⟩
  | none => .unknown instr

def csriInstr (make : CsriArgs → Instr) : Instr :=
  match csr instr with
  | some csr => make ⟨rd instr, BitVec.ofNat 64 (bits instr 15 5), csr⟩
  | none => .unknown instr

def parseArith : Instr :=
  match funct3 instr, funct7 instr with
  | 0b000, 0b0 => .add (rArgs instr)
  | 0b000, 0b10_0000 => .sub (rArgs instr)
  | 0b100, 0b0 => .xor (rArgs instr)
  | 0b110, 0b0 => .or (rArgs instr)
  | 0b110, 0b1 => .rem (rArgs instr)
  | 0b111, 0b0 => .and (rArgs instr)
  | 0b111, 0b1 => .remu (rArgs instr)
  | 0b001, 0b0 => .sll (rArgs instr)
  | 0b101, 0b0 => .srl (rArgs instr)
  | 0b101, 0b10_0000 => .sra (rArgs instr)
  | 0b010, 0b0 => .slt (rArgs instr)
  | 0b011, 0b0 => .sltu (rArgs instr)
  | _, _ => .unknown instr

def parseArithW : Instr :=
  match funct3 instr, funct7 instr with
  | 0b000, 0b0 => .addw (rArgs instr)
  | 0b000, 0b10_0000 => .subw (rArgs instr)
  | 0b001, _ => .sllw (rArgs instr)
  | 0b101, 0b0 => .srlw (rArgs instr)
  | 0b101, 0b10_0000 => .sraw (rArgs instr)
  | 0b110, 0b1 => .remw (rArgs instr)
  | 0b111, 0b1 => .remuw (rArgs instr)
  | _, _ => .unknown instr

def parseArithI : Instr :=
  match funct3 instr with
  | 0b000 => .addi (iArgs instr)
  | 0b100 => .xori (iArgs instr)
  | 0b110 => .ori (iArgs instr)
  | 0b111 => .andi (iArgs instr)
  | 0b001 =>
    if imm11_6 instr = 0b0 then .slli (iArgs instr)
    else .unknown instr
  | 0b101 =>
    if imm11_6 instr = 0b0 then .srli (iArgs instr)
    else if imm11_6 instr = 0b10_0000 then .srai (iArgs instr)
    else .unknown instr
  | 0b010 => .slti (iArgs instr)
  | 0b011 => .sltiu (iArgs instr)
  | _ => .unknown instr

def parseLoad : Instr :=
  match funct3 instr with
  | 0b000 => .lb (iArgs instr)
  | 0b001 => .lh (iArgs instr)
  | 0b010 => .lw (iArgs instr)
  | 0b011 => .ld (iArgs instr)
  | 0b100 => .lbu (iArgs instr)
  | 0b101 => .lhu (iArgs instr)
  | 0b110 => .lwu (iArgs instr)
  | _ => .unknown instr

def parseArithIW : Instr :=
  match funct3 instr with
  | 0b000 => .addiw (iArgs instr)
  | 0b001 =>
    if imm11_6 instr = 0b0 then .slliw (iArgs instr)
    else .unknown instr
  | 0b101 =>
    if imm11_6 instr = 0b0 then .srliw (iArgs instr)
    else if imm11_6 instr = 0b10_0000 then .sraiw (iArgs instr)
    else .unknown instr
  | _ => .unknown instr

def parseSynch : Instr :=
  match funct3 instr, fm instr with
  | 0b000, 0b0 => .fence (fenceArgs instr)
  | 0b000, 0b1000 => .fenceTso (fenceArgs instr)
  | 0b001, _ => .fenceI
  | _, _ => .unknown instr

def parseEnvironment : Instr :=
  match rs1Bits instr, rs2Bits instr, funct7 instr with
  | 0b0, 0b0, 0b0 => .ecall
  | 0b0, 0b1, 0b0 => .ebreak
  | 0b0, 0b10, 0b000_1000 => .sret
  | 0b0, 0b10, 0b001_1000 => .mret
  | 0b0, 0b10, 0b011_1000 => .mnret
  | 0b0, 0b101, 0b000_1000 => .wfi
  | _, _, _ => .unknown instr

def parseSys : Instr :=
  match funct3 instr with
  | 0b000 => parseEnvironment instr
  | 0b001 => csrInstr instr .csrrw
  | 0b010 => csrInstr instr .csrrs
  | 0b011 => csrInstr instr .csrrc
  | 0b101 => csriInstr instr .csrrwi
  | 0b110 => csriInstr instr .csrrsi
  | 0b111 => csriInstr instr .csrrci
  | _ => .unknown instr

def parseStore : Instr :=
  match funct3 instr with
  | 0b000 => .sb (sArgs instr)
  | 0b001 => .sh (sArgs instr)
  | 0b010 => .sw (sArgs instr)
  | 0b011 => .sd (sArgs instr)
  | _ => .unknown instr

def parseBranch : Instr :=
  match funct3 instr with
  | 0b000 => .beq (bArgs instr)
  | 0b001 => .bne (bArgs instr)
  | 0b100 => .blt (bArgs instr)
  | 0b101 => .bge (bArgs instr)
  | 0b110 => .bltu (bArgs instr)
  | 0b111 => .bgeu (bArgs instr)
  | _ => .unknown instr

def parseJalr : Instr := if funct3 instr = 0b000 then .jalr (iArgs instr) else .unknown instr

def parseUncompressedInstruction : Instr :=
  match opcode instr with
  | 0b011_0011 => parseArith instr
  | 0b011_1011 => parseArithW instr
  | 0b001_0011 => parseArithI instr
  | 0b000_0011 => parseLoad instr
  | 0b001_1011 => parseArithIW instr
  | 0b000_1111 => parseSynch instr
  | 0b111_0011 => parseSys instr
  | 0b010_0011 => parseStore instr
  | 0b110_0011 => parseBranch instr
  | 0b011_0111 => .lui (uArgs instr)
  | 0b001_0111 => .auipc (uArgs instr)
  | 0b110_1111 => .jal (jArgs instr)
  | 0b110_0111 => parseJalr instr
  | _ => .unknown instr

end

def parseCompressedInstruction (bytes : BitVec 16) : Instr := .unknownCompressed bytes

def isCompressed (bytes : BitVec 16) : Bool := bytes &&& 0b11 ≠ 0b11

def combine (lower upper : BitVec 16) : BitVec 32 := upper ++ lower

end Octez.RiscV
