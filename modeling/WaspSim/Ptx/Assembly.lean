import Mathlib.Data.List.Basic
import WaspSim.Core.Checked

/-!
# Assembling the functions of a kernel

`ptx_assemble` places the instructions of a function one after another, 4 or 8 bytes each, in the
memory of the function and in the one table of all PCs. A label stands for the offset of the next
instruction, and the branches look up its PC once every instruction has one.
-/

namespace WaspSim

/-- `m_opcode`, as far as control flow depends on it. -/
inductive FlowOpcode where
  | bra
  | ret
  | exit
  | retp
  /-- `BREAK_OP`. -/
  | brk
  | breakaddr
  | call
  | callp
  | other
  deriving DecidableEq, Repr

/-- The part of a `ptx_instruction` that assembly and control-flow analysis read. -/
structure FlowInst where
  opcode : FlowOpcode
  /-- `has_pred`. -/
  hasPred : Bool := false
  /-- The name of the first operand, `dst().name()`. -/
  target : String := ""
  /-- `HALF_OPTION`, which sets `m_inst_size` to 4. -/
  half : Bool := false
  deriving DecidableEq, Repr

/-- An entry of `m_instructions`. -/
inductive PtxLine where
  | label (name : String)
  | inst (pI : FlowInst)
  deriving DecidableEq, Repr

/-- What stops the assembly of a function. -/
inductive AssemblyFault where
  /-- The assertion that an instruction is found at its PC. -/
  | misplaced
  /-- The assertion on `MAX_INST_SIZE`. -/
  | instTooLong
  /-- A branch label that does not appear in the function. -/
  | unknownLabel
  /-- The memory behind the last instruction is read. -/
  | pastEnd
  deriving DecidableEq, Repr

/-- `MAX_INST_SIZE`. -/
def maxInstSize : Nat := 8

/-- `inst_size`. -/
def FlowInst.instSize (pI : FlowInst) : Nat := if pI.half = true then 4 else maxInstSize

namespace PtxLine

/-- `is_label`. -/
def isLabel : PtxLine → Bool
  | label _ => true
  | inst _ => false

/-- The bytes a line takes up. -/
def size : PtxLine → Nat
  | label _ => 0
  | inst pI => pI.instSize

end PtxLine

/-- `find_next_real_instruction`, from line `k` on. -/
def findNextRealInstruction (lines : List PtxLine) (k : Nat) : Option Nat :=
  ((lines.drop k).findIdx? fun line => !line.isLabel).map (k + ·)

/-- A function while it is assembled, together with the tables of all functions. -/
structure Assembly where
  /-- `labels`. -/
  labels : String → Option Nat := fun _ => none
  /-- `m_instr_mem` up to the offset `n`, with the lines of the instructions. -/
  instrMem : List (Option Nat) := []
  /-- `m_instr_mem_index` and `m_PC` of the lines before this one. -/
  placed : List (Option (Nat × Nat)) := []
  /-- `s_g_pc_to_insn`, with functions and lines. -/
  pcToInsn : List (Option (Nat × Nat))
  /-- `g_pc_to_finfo`. -/
  pcToFinfo : Nat → Option Nat
  pc : Nat

namespace Assembly

/-- A label gets the offset of the next instruction. -/
def addLabel (a : Assembly) (name : String) : Assembly :=
  { a with
    labels := Function.update a.labels name (some a.instrMem.length)
    placed := a.placed ++ [none] }

/-- An instruction of function `f` is placed, and the bytes after its first hold none. -/
def addInst (f : Nat) (a : Assembly) (pI : FlowInst) : Assembly :=
  { a with
    instrMem := a.instrMem ++ some a.placed.length :: List.replicate (pI.instSize - 1) none
    placed := a.placed ++ [some (a.instrMem.length, a.pc)]
    pcToInsn := a.pcToInsn ++ some (f, a.placed.length) :: List.replicate (pI.instSize - 1) none
    pcToFinfo := Function.update a.pcToFinfo a.pc (some f)
    pc := a.pc + pI.instSize }

/-- One round of the first loop of `ptx_assemble`, for line `placed.length` of function `f`. -/
def place (f : Nat) (a : Assembly) : PtxLine → Except AssemblyFault Assembly
  | .label name => pure (a.addLabel name)
  | .inst pI => do
    let pushed := a.pcToInsn ++ [some (f, a.placed.length)]
    require .misplaced (pushed[a.pc]? = some (some (f, a.placed.length)))
    require .instTooLong (pI.instSize ≤ maxInstSize)
    pure (a.addInst f pI)

/-- The PC of the instruction at an offset of the function. -/
def pcAt (a : Assembly) (offset : Nat) : Except AssemblyFault Nat := do
  let cell ← fetch .pastEnd a.instrMem[offset]?
  let k ← fetch .pastEnd cell
  let entry ← fetch .pastEnd a.placed[k]?
  let (_, pc) ← fetch .pastEnd entry
  pure pc

/-- One round of the second loop: the address of the label that an instruction names. -/
def resolve (a : Assembly) (table : String → Option Nat) :
    PtxLine → Except AssemblyFault (String → Option Nat)
  | .label _ => pure table
  | .inst pI =>
    if pI.opcode = .bra ∨ pI.opcode = .breakaddr ∨ pI.opcode = .callp then do
      let index ← fetch .unknownLabel (a.labels pI.target)
      let pc ← a.pcAt index
      pure (Function.update table pI.target (some pc))
    else pure table

end Assembly

/-- What `ptx_assemble` leaves in a `function_info`. -/
structure AssembledFunction where
  /-- `m_instructions`. -/
  lines : List PtxLine
  /-- `m_start_PC`. -/
  startPc : Nat
  labels : String → Option Nat
  instrMem : List (Option Nat)
  placed : List (Option (Nat × Nat))
  /-- The label addresses in `m_symtab`. -/
  labelAddress : String → Option Nat

/-- The tables that all functions share, and the functions assembled so far. -/
structure Loader where
  /-- `g_assemble_code_next_pc`. -/
  nextPc : Nat := 0
  pcToInsn : List (Option (Nat × Nat)) := []
  pcToFinfo : Nat → Option Nat := fun _ => none
  functions : List AssembledFunction := []

namespace Loader

/-- `ptx_assemble` of the next function. -/
def ptxAssemble (l : Loader) (lines : List PtxLine) : Except AssemblyFault Loader := do
  -- start the function on an aligned address
  let skip := l.nextPc % maxInstSize
  let a ← lines.foldlM (Assembly.place l.functions.length)
    { pcToInsn := l.pcToInsn ++ List.replicate skip none
      pcToFinfo := l.pcToFinfo
      pc := l.nextPc + skip }
  let labelAddress ← lines.foldlM a.resolve fun _ => none
  pure
    { nextPc := a.pc
      pcToInsn := a.pcToInsn
      pcToFinfo := a.pcToFinfo
      functions := l.functions ++
        [{ lines, startPc := l.nextPc + skip, labels := a.labels, instrMem := a.instrMem
           placed := a.placed, labelAddress }] }

/-- Assemble one function after another. -/
def assembleAll (l : Loader) (program : List (List PtxLine)) : Except AssemblyFault Loader :=
  program.foldlM ptxAssemble l

end Loader

end WaspSim
