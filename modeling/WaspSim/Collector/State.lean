import Mathlib.Data.Finset.Insert
import WaspSim.Core.Checked
import WaspSim.Queue.State

/-!
# State of the operand collector

Instructions leave the scheduler through pipeline register sets, wait in collector units
until the banks of the register file have delivered their source operands, and leave
through another register set. The printouts of the collector are left out, and with them
the operand that a bank allocation remembers.
-/

namespace WaspSim

/-- The assertions of the operand collector, and the accesses beyond its arrays. -/
inductive RfuFault where
  /-- A vector was indexed beyond its end. -/
  | indexOutOfRange
  /-- `register_bank` computed a bank beyond the register file. -/
  | bankOutOfRange
  /-- A request comes from a collector unit that the arbiter does not know. -/
  | unknownCollector
  /-- `alloc_read` or `alloc_write` found the bank allocated. -/
  | bankBusy
  /-- The front of an empty request queue. -/
  | noRequest
  /-- An allocated collector unit holds no instruction. -/
  | noWarp
  /-- `collector_unit_t::allocate` on a unit that is not free. -/
  | unitBusy
  /-- `collector_unit_t::allocate` or `dispatch` with operands outstanding. -/
  | operandsOutstanding
  /-- `get_ready_reg_id` on an empty register set. -/
  | noReadyRegister
  /-- `get_free` found every register taken. -/
  | noFreeRegister
  /-- A collector set that the schedulers do not divide. -/
  | unevenSet
  deriving DecidableEq, Repr

/-- The part of `warp_inst_t` that the operand collector reads. -/
structure CollectorInst where
  /-- `m_uid`. -/
  uid : Nat
  /-- `m_warp_id`. -/
  warpId : Nat
  /-- `m_scheduler_id`. -/
  schedId : Nat
  /-- `m_warp_active_mask`. -/
  activeMask : ActiveMask
  /-- `arch_reg.src`, with `MAX_REG_OPERANDS` entries, negative where there is no operand. -/
  src : List Int
  /-- `arch_reg.dst`, likewise. -/
  dst : List Int
  /-- `num_operands`. -/
  numOperands : Nat := 0
  /-- `num_regs`. -/
  numRegs : Nat := 0
  deriving DecidableEq, Repr

namespace CollectorInst

/-- `get_num_operands() - get_num_regs()`, on unsigned numbers. -/
def nonRegs (inst : CollectorInst) : Nat :=
  (inst.numOperands + 4294967296 - inst.numRegs) % 4294967296

/-- `get_regs_written`. -/
def regsWritten (inst : CollectorInst) : List Int := inst.dst.filter fun reg => 0 ≤ reg

end CollectorInst

/-- The registers of a `register_set`, none for an empty one. -/
abbrev PipeRegs := List (Option CollectorInst)

namespace PipeRegs

/-- `has_ready`. -/
def hasReady (regs : PipeRegs) : Bool := regs.any Option.isSome

/-- `has_free`. -/
def hasFree (regs : PipeRegs) (subCoreModel : Bool) (regId : Nat) : Except RfuFault Bool :=
  if subCoreModel = true then do
    let reg ← fetch .indexOutOfRange regs[regId]?
    pure reg.isNone
  else pure (regs.any Option.isNone)

/-- `get_free`, as the index of the register. -/
def getFree (regs : PipeRegs) (subCoreModel : Bool) (regId : Nat) : Except RfuFault Nat :=
  if subCoreModel = true then do
    let reg ← fetch .indexOutOfRange regs[regId]?
    require .noFreeRegister (reg = none)
    pure regId
  else fetch .noFreeRegister (regs.findIdx? Option.isNone)

/-- The scan of `get_ready`: the ready register so far gives way to one of no larger uid. -/
def oldest : Option (Nat × CollectorInst) → Nat → PipeRegs → Option (Nat × CollectorInst)
  | ready, _, [] => ready
  | ready, i, none :: regs => oldest ready (i + 1) regs
  | none, i, some inst :: regs => oldest (some (i, inst)) (i + 1) regs
  | some (k, old), i, some inst :: regs =>
    if old.uid < inst.uid then oldest (some (k, old)) (i + 1) regs
    else oldest (some (i, inst)) (i + 1) regs

/-- `get_ready`, with the number that `get_ready_reg_id` gives it. -/
def getReady (regs : PipeRegs) : Option (Nat × CollectorInst) := oldest none 0 regs

end PipeRegs

/-- A call of `add_cu_set`. Each set is added once. -/
structure CuSet where
  setId : Nat
  numCu : Nat
  numDispatch : Nat
  deriving DecidableEq, Repr

/-- `input_port_t`. The ports name their register sets by number. -/
structure InputPort where
  /-- `m_in`. -/
  input : List Nat
  /-- `m_out`. -/
  output : List Nat
  /-- `m_cu_sets`. -/
  cuSets : List Nat
  /-- What the constructor asserts. -/
  sizes : input.length = output.length

/-- A collector set in `m_cu`: its first unit and its size. -/
structure UnitRange where
  base : Nat
  size : Nat
  deriving DecidableEq, Repr

/-- The collector units of all sets. -/
def countUnits : List CuSet → Nat
  | [] => 0
  | s :: sets => s.numCu + countUnits sets

/-- The set with a number, behind the units of the sets added before it. -/
def findCuSet : List CuSet → Nat → Nat → UnitRange
  | [], _, _ => ⟨0, 0⟩
  | s :: sets, base, setId =>
    if s.setId = setId then ⟨base, s.numCu⟩ else findCuSet sets (base + s.numCu) setId

/-- One dispatch unit after another, as `add_cu_set` makes them. -/
def dispatchRanges : List CuSet → Nat → List UnitRange
  | [], _ => []
  | s :: sets, base =>
    List.replicate s.numDispatch ⟨base, s.numCu⟩ ++ dispatchRanges sets (base + s.numCu)

/-- What `add_cu_set`, `add_port` and `init` set up, and the options that the collector reads. -/
structure RfuConfig where
  /-- The collector sets in the order in which they were added. -/
  cuSets : List CuSet
  /-- `m_in_ports`. -/
  inPorts : List InputPort
  /-- `m_num_banks`. -/
  numBanks : Nat
  /-- `sub_core_model`. -/
  subCoreModel : Bool
  /-- `m_num_warp_scheds`. -/
  numWarpScheds : Nat
  /-- `warp_size`. -/
  warpSize : Nat
  /-- `gpgpu_clock_gated_reg_file`. -/
  clockGated : Bool := false
  /-- `n_regfile_gating_group`. -/
  gatingGroup : Nat := 1
  /-- Whole groups gate the lanes of a warp. -/
  gating : clockGated = true → 0 < gatingGroup ∧ warpSize % gatingGroup = 0 ∧ warpSize ≤ 32
  /-- What `arbiter_t::init` and `init` assert. -/
  numCu_pos : 0 < countUnits cuSets
  numBanks_pos : 0 < numBanks
  numBanks_mod : subCoreModel = true → numBanks % numWarpScheds = 0
  /-- A division by the number of schedulers. -/
  numWarpScheds_pos : 0 < numWarpScheds
  /-- What `allocate_cu` asserts of every set that it looks into. -/
  even_sets : subCoreModel = true → ∀ s ∈ cuSets,
    s.numCu % numWarpScheds = 0 ∧ numWarpScheds ≤ s.numCu
  /-- The ports look into sets that were added. -/
  known_sets : ∀ p ∈ inPorts, ∀ setId ∈ p.cuSets, ∃ s ∈ cuSets, s.setId = setId

namespace RfuConfig

variable (c : RfuConfig)

/-- `m_cu.size()`. -/
def numCu : Nat := countUnits c.cuSets

/-- `m_num_banks_per_sched`. -/
def banksPerSched : Nat := c.numBanks / c.numWarpScheds

/-- `m_reg_id` of a collector unit. -/
def regId (cu : Nat) : Nat :=
  if c.subCoreModel = true then cu / (c.numCu / c.numWarpScheds) else 0

/-- The units of each dispatch unit. -/
def dispatchUnits : List UnitRange := dispatchRanges c.cuSets 0

/-- `m_cus[set_id]`. -/
def cuSet (setId : Nat) : UnitRange := findCuSet c.cuSets 0 setId

/-- `register_bank`. -/
def registerBank (regnum wid schedId : Nat) : Except RfuFault Nat :=
  let bank := regnum + wid
  if c.subCoreModel = true then do
    let bankNum := bank % c.banksPerSched + schedId * c.banksPerSched
    require .bankOutOfRange (bankNum < c.numBanks)
    pure bankNum
  else pure (bank % c.numBanks)

/-- The lanes whose access to the register file is counted: all of them, or the groups
with an active lane. -/
def countedLanes (mask : ActiveMask) : Nat :=
  if c.clockGated = true then
    (List.range (c.warpSize / c.gatingGroup)).foldl (fun activeCount g =>
      if (List.range c.gatingGroup).any fun j => mask.getLsbD (g * c.gatingGroup + j)
      then activeCount + c.gatingGroup else activeCount) 0
  else c.warpSize

end RfuConfig

/-- A valid `op_t` of a collector unit. -/
structure ReadOp where
  /-- The number of the collector unit `m_cu`. -/
  cu : Nat
  /-- `m_operand`. -/
  operand : Nat
  /-- `m_register`. -/
  reg : Nat
  /-- `m_bank`. -/
  bank : Nat
  /-- `m_shced_id`. -/
  schedId : Nat
  deriving DecidableEq, Repr

/-- `alloc_t`. -/
inductive BankAlloc where
  | noAlloc
  | readAlloc
  | writeAlloc
  deriving DecidableEq, Repr

/-- `collector_unit_t`. -/
structure CollectorUnit where
  /-- `m_free`. -/
  free : Bool := true
  /-- `m_warp_id`, -1 before the first instruction. -/
  warpId : Nat := 4294967295
  /-- `m_warp`, none when it is empty. -/
  warp : Option CollectorInst := none
  /-- `m_output_register`, by the number of the register set. -/
  output : Option Nat := none
  /-- `m_src_op`, none where the operand is not valid. -/
  srcOp : List (Option ReadOp) := []
  /-- `m_not_ready`. -/
  notReady : Finset Nat := ∅
  deriving DecidableEq

/-- The operand collector, the register sets at its ports and the counters it drives, which are
`unsigned`. -/
structure Rfu where
  /-- `m_cu`. -/
  units : List CollectorUnit
  /-- `m_arbiter.m_queue`. -/
  queue : List (List ReadOp)
  /-- `m_arbiter.m_allocated_bank`. -/
  allocatedBank : List BankAlloc
  /-- `m_arbiter.m_last_cu`. -/
  lastCu : Nat := 0
  /-- `m_last_cu` of every dispatch unit. -/
  dispatchLast : List Nat
  /-- The register sets of the pipeline. -/
  pipe : List PipeRegs
  /-- `incregfile_reads`. -/
  regfileReads : Nat := 0
  /-- `incregfile_writes`. -/
  regfileWrites : Nat := 0
  /-- `incnon_rf_operands`. -/
  nonRfOperands : Nat := 0

/-- The collector after `init`, with the register sets at its ports. -/
def RfuConfig.start (c : RfuConfig) (pipe : List PipeRegs) : Rfu where
  units := List.replicate c.numCu {}
  queue := List.replicate c.numBanks []
  allocatedBank := List.replicate c.numBanks .noAlloc
  dispatchLast := c.dispatchUnits.map fun _ => 0
  pipe := pipe

end WaspSim
