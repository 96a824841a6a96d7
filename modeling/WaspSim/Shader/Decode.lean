import WaspSim.Core.Related
import WaspSim.Core.Text
import WaspSim.Shader.Instruction

/-!
# Decoding a queue instruction

The parser turns `ld.rfq`, `mov.rfq`, `ld.smemq` and `mov.smemq` into flags of the
instruction, and `pre_decode` reads the queue number from an operand. The two
options have their own flags; `.rfq` alone refuses the other option.
-/

namespace WaspSim

/-- The option tokens that decide how a queue instruction is decoded. -/
inductive PtxOption where
  | rfq
  | smemq
  | v2
  | v3
  | v4
  | ca
  | nc
  | cg
  /-- Another cache operator. -/
  | cacheOther
  | other
  deriving DecidableEq, Repr

/-- `m_opcode`, as far as the queue options allow it. -/
inductive Opcode where
  | ld
  | mov
  | other
  deriving DecidableEq, Repr

/-- `operand_info`, as far as the decoder looks at it. -/
inductive Operand where
  | literal (value : Nat)
  /-- A register or a label. -/
  | name (chars : List Char)
  | vector
  | other
  deriving DecidableEq, Repr

/-- A parsed PTX instruction. -/
structure PtxInst where
  opcode : Opcode
  options : List PtxOption
  operands : List Operand
  deriving DecidableEq, Repr

/-- The assertions of the decoder. -/
inductive DecodeError where
  /-- `.rfq` together with `.smemq`. -/
  | bothOptions
  /-- A queue option on an instruction other than `ld` and `mov`. -/
  | opcode
  /-- The queue operand is missing. -/
  | noOperand
  /-- The queue operand is neither a literal nor a name that ends in digits. -/
  | operand
  /-- The null register is the address of a memory operand. -/
  | nullAddress
  deriving DecidableEq, Repr

/-- The flags of one queue option in an instruction. -/
structure QueueFlags where
  load : Bool := false
  move : Bool := false
  payloadWordsPerLane : Nat := 0

namespace PtxInst

/-- `m_vector_spec`: the last vector specifier wins. -/
def vectorSpec (options : List PtxOption) : Option PtxOption :=
  options.foldl (fun spec o =>
    match o with
    | .v2 | .v3 | .v4 => some o
    | _ => spec) none

/-- `cache_op`, from the last cache option or the default of the opcode. -/
def cacheOp (opcode : Opcode) (options : List PtxOption) : CacheOp :=
  options.foldl (fun op o =>
    match o with
    | .ca => .all
    | .nc => .l1
    | .cg => .global
    | .cacheOther => .other
    | _ => op) (if opcode = .ld then .all else .other)

/-- The digits at the end of a name. -/
def trailingDigits (chars : List Char) : List Char :=
  (chars.reverse.takeWhile Char.isDigit).reverse

/-- `wasp_queue_id_from_operand`. -/
def waspQueueIdFromOperand : Operand → Except DecodeError Nat
  | .literal value => pure (u32 value)
  | .name chars =>
    if trailingDigits chars = [] then .error .operand
    else pure (Text.atoi (trailingDigits chars))
  | .vector | .other => .error .operand

/-- What the parser sets for an option that was seen. -/
def queueFlags (i : PtxInst) (seen : Bool) : Except DecodeError QueueFlags :=
  if seen then do
    require .opcode (i.opcode = .ld ∨ i.opcode = .mov)
    pure {
      load := i.opcode = .ld
      move := i.opcode = .mov
      payloadWordsPerLane := if vectorSpec i.options = some .v3 then 3 else 1 }
  else pure {}

/-- What `pre_decode` sets for an option: the queue is the first operand of a load and
the second operand of a move. -/
def queueId (i : PtxInst) (flags : QueueFlags) : Except DecodeError Nat :=
  if flags.load || flags.move then do
    let operand ← fetch .noOperand i.operands[if flags.load then 0 else 1]?
    waspQueueIdFromOperand operand
  else pure 0

/-- The queue instruction of a set of flags. -/
def queueInst (i : PtxInst) (kind : QueueKind) (flags : QueueFlags) (queueId : Nat) :
    QueueInst where
  kind
  load := flags.load
  queueId
  v3 := flags.payloadWordsPerLane = 3
  vectorDst := i.operands[0]? = some .vector
  cacheOp := cacheOp i.opcode i.options

/-- Parsing and `pre_decode`: the queue instruction, if it is one. -/
def decode (i : PtxInst) : Except DecodeError (Option QueueInst) := do
  let sawRfqOption := i.options.contains .rfq
  let sawSmemqOption := i.options.contains .smemq
  require .bothOptions (sawRfqOption = false ∨ sawSmemqOption = false)
  let rfq ← i.queueFlags sawRfqOption
  let smemq ← i.queueFlags sawSmemqOption
  let rfqQueueId ← i.queueId rfq
  let smemqQueueId ← i.queueId smemq
  pure <|
    if rfq.load || rfq.move then some (i.queueInst .rfq rfq rfqQueueId)
    else if smemq.load || smemq.move then some (i.queueInst .smemq smemq smemqQueueId)
    else none

/-- The option that replaces an option when `.rfq` becomes `.smemq`. -/
def optionToSmemq : PtxOption → PtxOption
  | .rfq => .smemq
  | o => o

/-- The instruction with `.smemq` for `.rfq`. -/
def toSmemq (i : PtxInst) : PtxInst := { i with options := i.options.map optionToSmemq }

end PtxInst

/-- The same instruction on the shared-memory queue. -/
def QueueInst.toSmemq (inst : QueueInst) : QueueInst := { inst with kind := .smemq }

namespace PtxInst

variable {i : PtxInst}

/-- The twin of an instruction has as many words. -/
theorem vectorSpec_toSmemq (options : List PtxOption) :
    vectorSpec (options.map optionToSmemq) = vectorSpec options := by
  unfold vectorSpec
  rw [List.foldl_map]
  congr 1
  funext spec o
  cases o <;> rfl

/-- The twin of an instruction has the same cache operator. -/
theorem cacheOp_toSmemq (opcode : Opcode) (options : List PtxOption) :
    cacheOp opcode (options.map optionToSmemq) = cacheOp opcode options := by
  unfold cacheOp
  rw [List.foldl_map]
  congr 1
  funext op o
  cases o <;> rfl

/-- The twin of an instruction has the same flags. -/
theorem queueFlags_toSmemq (seen : Bool) : i.toSmemq.queueFlags seen = i.queueFlags seen := by
  simp only [queueFlags, toSmemq, vectorSpec_toSmemq]
  rfl

/-- The twin of an instruction is decoded to the twin. -/
theorem queueInst_toSmemq (flags : QueueFlags) (queueId : Nat) :
    i.toSmemq.queueInst .smemq flags queueId = (i.queueInst .rfq flags queueId).toSmemq := by
  simp only [queueInst, toSmemq, cacheOp_toSmemq, QueueInst.toSmemq]
  rfl

/-- Replacing the option leaves no `.rfq`, and `.smemq` where an option was seen. -/
theorem options_toSmemq (h : PtxOption.smemq ∉ i.options) :
    i.toSmemq.options.contains .rfq = false ∧
      i.toSmemq.options.contains .smemq = i.options.contains .rfq := by
  have hmem : ∀ o ∈ i.options, optionToSmemq o ≠ .rfq ∧ (optionToSmemq o = .smemq ↔ o = .rfq) := by
    intro o ho
    cases o with
    | smemq => exact absurd ho h
    | _ => simp [optionToSmemq]
  constructor
  · rw [List.contains_eq_mem, decide_eq_false_iff_not]
    intro hin
    obtain ⟨o, ho, heq⟩ := List.mem_map.mp hin
    exact (hmem o ho).1 heq
  · rw [List.contains_eq_mem, List.contains_eq_mem, decide_eq_decide]
    constructor
    · intro hin
      obtain ⟨o, ho, heq⟩ := List.mem_map.mp hin
      exact (hmem o ho).2.mp heq ▸ ho
    · intro hin
      exact List.mem_map.mpr ⟨.rfq, hin, rfl⟩

/-- Decoding commutes with the replacement of `.rfq`, failures included. -/
theorem decode_toSmemq (h : PtxOption.smemq ∉ i.options) :
    Related (fun a b => b = a.map QueueInst.toSmemq) i.decode i.toSmemq.decode := by
  obtain ⟨hrfq, hsmemq⟩ := options_toSmemq h
  have hnone : i.options.contains .smemq = false := by simpa using h
  simp only [decode, hrfq, hsmemq, hnone, queueFlags_toSmemq]
  refine .bind (.require (by simp)) fun _ _ _ => ?_
  cases i.options.contains .rfq with
  | false =>
    simp only [queueFlags, queueId, Bool.false_eq_true, ↓reduceIte, pure_bind, Bool.or_self]
    exact .pure rfl
  | true =>
    cases hflags : i.queueFlags true with
    | error e => exact .error e
    | ok flags =>
      have hempty : i.queueFlags false = .ok {} := rfl
      have hzero : ∀ j : PtxInst, j.queueId {} = .ok 0 := fun _ => rfl
      have hid : i.toSmemq.queueId flags = i.queueId flags := rfl
      simp only [hempty, hzero, hid, bind, Except.bind]
      cases i.queueId flags with
      | error e => exact .error e
      | ok queueId =>
        refine .pure ?_
        rw [queueInst_toSmemq]
        by_cases hqueue : (flags.load || flags.move) = true
        · simp [hqueue]
        · simp [hqueue]

end PtxInst
end WaspSim
