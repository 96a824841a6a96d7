import WaspSim.Shader.Decode

/-!
# Operands of a PTX instruction

The operands as the grammar builds them, and the part of `pre_decode` that walks
over them twice: once for the registers an operand names, once for the address
registers inside memory operands. The second walk keeps the registers of one
memory operand only.
-/

namespace WaspSim

/-- A register number; 0 stands for no register. -/
@[ext]
structure RegNum where
  num : Nat
  pos : 0 < num
  deriving Repr

instance : DecidableEq RegNum := fun _ _ => decidable_of_iff _ RegNum.ext_iff.symm

/-- What an identifier of an operand stands for. -/
inductive Symbol where
  | register (name : List Char) (reg : RegNum)
  /-- The register `_`, which is no architectural register. -/
  | nullRegister
  | label (name : List Char)
  /-- A variable with an address. -/
  | var
  deriving DecidableEq, Repr

namespace Symbol

/-- `reg_num`. -/
def regNum : Symbol → Nat
  | .register _ reg => reg.num
  | _ => 0

/-- The type of the symbol is a register type. -/
def isReg : Symbol → Bool
  | .register _ _ | .nullRegister => true
  | _ => false

end Symbol

/-- The address in a memory operand. -/
inductive AddressForm where
  /-- A symbol with an offset, which is 0 when there is none. -/
  | expression (symbol : Symbol) (offset : Int)
  /-- `g[$r1+=0x4]`. -/
  | increment (symbol : Symbol) (offset : Int)
  | immediate (value : Nat)
  /-- `s[$r1+$r2]` and `g[$r1+=$r2]`. -/
  | twin (first second : Symbol)
  deriving DecidableEq, Repr

/-- `operand_info`, by the rule of the grammar that builds it. -/
inductive OperandInfo where
  | literal (value : Nat)
  | scalar (symbol : Symbol)
  | vector (symbols : List Symbol)
  /-- A memory operand, with or without an address space before the bracket. -/
  | memory (addrSpace : Bool) (address : AddressForm)
  /-- A special register, a floating-point literal or an identifier with an offset. The
  class that says whether a floating-point literal counts as a literal is not among the
  sources; it does not here. -/
  | other
  deriving DecidableEq, Repr

namespace OperandInfo

/-- The operand as the queue number is read from it. -/
def operand : OperandInfo → Operand
  | .literal value => .literal value
  | .scalar (.register name _) | .scalar (.label name) => .name name
  | .scalar .nullRegister => .name ['_']
  | .scalar .var => .other
  | .vector _ => .vector
  | .memory _ _ | .other => .other

/-- `is_memory_operand2`: an address space stands before the bracket. -/
def isMemoryOperand2 : OperandInfo → Bool
  | .memory addrSpace _ => addrSpace
  | _ => false

/-- `get_vect_nelem` of a vector, and 1 for any other destination. -/
def elements : OperandInfo → Nat
  | .vector symbols => symbols.length
  | _ => 1

end OperandInfo

/-- `memory_space_t`, as far as a queue load looks at it. -/
inductive MemorySpace where
  | generic
  | global
  | other
  deriving DecidableEq, Repr

/-- A parsed PTX instruction with its operands. -/
structure PtxInstruction where
  opcode : Opcode
  options : List PtxOption
  operands : List OperandInfo
  space : MemorySpace := .global
  /-- The guard predicate. -/
  pred : Option RegNum := none
  deriving DecidableEq, Repr

/-- The registers of an instruction that the scoreboard compares. -/
structure Registers where
  /-- `out[MAX_OUTPUT_VALUES]`. -/
  out : List Nat := List.replicate 8 0
  /-- `in[MAX_INPUT_VALUES]`. -/
  ins : List Nat := List.replicate 24 0
  pred : Nat := 0
  ar1 : Nat := 0
  ar2 : Nat := 0
  deriving DecidableEq, Repr

namespace Registers

/-- `outcount`. -/
def outcount (r : Registers) : Nat := r.out.countP (0 < ·)

/-- `incount`. -/
def incount (r : Registers) : Nat := r.ins.countP (0 < ·)

/-- Write register numbers into consecutive entries. -/
def place (entries : List Nat) (start : Nat) (regs : List Nat) : List Nat :=
  (regs.zipIdx start).foldl (fun entries (reg, i) => entries.set i reg) entries

/-- The destination operand. -/
def destination (r : Registers) : OperandInfo → Registers
  | .scalar (.register _ reg) => { r with out := r.out.set 0 reg.num }
  | .vector symbols => { r with out := place r.out 0 ((symbols.take 8).map Symbol.regNum) }
  | _ => r

/-- A source operand, with the number of source registers before it. -/
def source : Registers × Nat → OperandInfo → Registers × Nat
  | (r, m), .scalar (.register _ reg) =>
    (if m < 3 then { r with ins := r.ins.set m reg.num } else r, m + 1)
  | (r, m), .vector symbols =>
    ({ r with ins := place r.ins m ((symbols.take 8).map Symbol.regNum) }, m + symbols.length)
  | (r, m), _ => (r, m)

/-- The first walk over the operands. -/
def processOperands (hasDst : Bool) : List OperandInfo → Registers
  | [] => {}
  | o :: operands =>
    if hasDst then (operands.foldl source (destination {} o, 0)).1
    else ((o :: operands).foldl source ({}, 0)).1

/-- The second walk: the address registers of an operand replace those before. -/
def addressRegisters (r : Registers) : OperandInfo → Except DecodeError Registers
  | .memory addrSpace address =>
    match address with
    | .expression symbol _ => do
      require .nullAddress (symbol ≠ .nullRegister)
      pure (if addrSpace || symbol.isReg then { r with ar1 := symbol.regNum } else r)
    | .increment symbol _ => do
      require .nullAddress (symbol ≠ .nullRegister)
      pure (if addrSpace then { r with ar1 := symbol.regNum } else r)
    | .immediate _ => pure r
    | .twin first second =>
      pure (if addrSpace then { r with ar1 := first.regNum, ar2 := second.regNum } else r)
  | _ => pure r

end Registers

namespace PtxInstruction

/-- The instruction as the queue flags are decoded from it. -/
def toPtxInst (i : PtxInstruction) : PtxInst where
  opcode := i.opcode
  options := i.options
  operands := i.operands.map OperandInfo.operand

/-- `has_memory_read() || has_memory_write()`. -/
def accessesMemory (i : PtxInstruction) : Bool :=
  i.opcode == .ld || i.operands.any OperandInfo.isMemoryOperand2

/-- `pre_decode` of a queue instruction. Whether an opcode has a destination is a column of
the opcode table. -/
def preDecode (hasDst : Opcode → Bool) (i : PtxInstruction) :
    Except DecodeError (Option (QueueInst × Registers)) := do
  let inst? ← i.toPtxInst.decode
  let r := Registers.processOperands (hasDst i.opcode) i.operands
  match inst? with
  | none => pure none
  | some inst =>
    let r := if inst.load then { r with out := List.replicate 8 0 } else r
    let r := { r with pred := (i.pred.map RegNum.num).getD 0 }
    let r ← (if i.accessesMemory then i.operands else []).foldlM Registers.addressRegisters r
    pure (some (inst, r))

end PtxInstruction
end WaspSim
