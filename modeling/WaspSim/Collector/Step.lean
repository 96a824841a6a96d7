import Mathlib.Data.Finset.Dedup
import Mathlib.Data.Finset.Erase
import Mathlib.Data.Finset.Lattice.Basic
import Mathlib.Data.List.ReduceOption
import WaspSim.Collector.State

/-!
# The operand collector

One step of the collector: the dispatch units send instructions with all their operands
on, the arbiter grants the banks, the ports fill free collector units and the banks become
free again. Write requests of finished instructions arrive between the steps.
-/

namespace WaspSim

namespace Arbiter

/-- `_request`: the front of the queue of a bank comes from this collector. -/
def request (queue : List (List ReadOp)) (input output : Nat) : Bool :=
  match queue[input]? with
  | some (op :: _) => op.cu == output
  | _ => false

/-- `_inmatch` before the allocation: a write gets priority. -/
def writes (allocatedBank : List BankAlloc) : List (Option Nat) :=
  allocatedBank.map fun a => if a = .writeAlloc then some 0 else none

/-- Step through one diagonal of the request matrix. -/
def diagonal (request : Nat → Nat → Bool) (outputs : Nat) :
    Nat → Nat → List (Option Nat) → List (Option Nat)
  | _, _, [] => []
  | input, output, m :: inmatch =>
    (if m = none ∧ request input output = true then some output else m) ::
      diagonal request outputs (input + 1) ((output + 1) % outputs) inmatch

/-- Loop through the diagonals of the request matrix. `_outmatch`, which nothing reads, is
left out. -/
def wavefront (request : Nat → Nat → Bool) (outputs square pri : Nat)
    (inmatch : List (Option Nat)) : List (Option Nat) :=
  (List.range square).foldl (fun inmatch p =>
    diagonal request outputs 0 ((pri + p) % outputs) inmatch) inmatch

/-- Take the front of every queue whose bank was matched and is not written. -/
def grant : List (Option Nat) → List BankAlloc → List (List ReadOp) →
    Except RfuFault (List ReadOp × List (List ReadOp))
  | m :: inmatch, a :: allocatedBank, q :: queue => do
    let (result, rest) ← grant inmatch allocatedBank queue
    if m ≠ none ∧ a ≠ .writeAlloc then
      match q with
      | [] => throw .noRequest
      | op :: ops => pure (op :: result, ops :: rest)
    else pure (result, q :: rest)
  | _, _, queue => pure ([], queue)

/-- `allocate_reads`: the granted requests, the queues without them and the next
`m_last_cu`. -/
def allocateReads (numCollectors : Nat) (queue : List (List ReadOp))
    (allocatedBank : List BankAlloc) (lastCu : Nat) :
    Except RfuFault (List ReadOp × List (List ReadOp) × Nat) := do
  require .unknownCollector
    (∀ q ∈ queue, ∀ op ∈ q.head?, op.cu < numCollectors)
  let inmatch := wavefront (request queue) numCollectors (max queue.length numCollectors) lastCu
    (writes allocatedBank)
  let (result, queue) ← grant inmatch allocatedBank queue
  pure (result, queue, (lastCu + 1) % numCollectors)

end Arbiter

/-- `collect_operand`. -/
def CollectorUnit.collectOperand (u : CollectorUnit) (op : Nat) : CollectorUnit :=
  { u with notReady := u.notReady.erase op }

/-- A collector unit after its instruction was moved out. -/
def CollectorUnit.freed (u : CollectorUnit) : CollectorUnit :=
  { u with
    free := true
    output := none
    warp := none
    srcOp := u.srcOp.map fun _ => none }

namespace RfuConfig

variable (c : RfuConfig)

/-- The loop of `collector_unit_t::allocate` over the source operands: a register that was
seen before is not read again. -/
def sourceOps (cu : Nat) (inst : CollectorInst) :
    Nat → List Int → List Int → Except RfuFault (List (Option ReadOp))
  | _, _, [] => pure []
  | op, prevRegs, reg :: regs =>
    if 0 ≤ reg ∧ reg ∉ prevRegs then do
      let bank ← c.registerBank reg.toNat inst.warpId inst.schedId
      let rest ← sourceOps cu inst (op + 1) (prevRegs ++ [reg]) regs
      pure (some ⟨cu, op, reg.toNat, bank, inst.schedId⟩ :: rest)
    else do
      let rest ← sourceOps cu inst (op + 1) prevRegs regs
      pure (none :: rest)

/-- `collector_unit_t::allocate`, with the register sets. -/
def allocate (pipe : List PipeRegs) (cu : Nat) (u : CollectorUnit) (input output : Nat) :
    Except RfuFault (Bool × CollectorUnit × List PipeRegs) := do
  require .unitBusy (u.free = true)
  require .operandsOutstanding (u.notReady = ∅)
  let regs ← fetch .indexOutOfRange pipe[input]?
  match regs.getReady with
  | some (reg, inst) => do
    let ops ← c.sourceOps cu inst 0 [] inst.src
    let u : CollectorUnit := { u with
      free := false
      output := some output
      warpId := inst.warpId
      warp := some inst
      srcOp := ops ++ u.srcOp.drop ops.length
      notReady := u.notReady ∪ (ops.reduceOption.map ReadOp.operand).toFinset }
    pure (true, u, pipe.set input (regs.set reg none))
  | none => pure (false, { u with free := false, output := some output }, pipe)

/-- `collector_unit_t::ready`. -/
def ready (s : Rfu) (cu : Nat) (u : CollectorUnit) : Except RfuFault Bool :=
  if u.free = false ∧ u.notReady = ∅ then do
    let output ← fetch .indexOutOfRange u.output
    let regs ← fetch .indexOutOfRange s.pipe[output]?
    regs.hasFree c.subCoreModel (c.regId cu)
  else pure false

/-- `collector_unit_t::dispatch`, with what `dispatch_ready_cu` counts. -/
def dispatch (s : Rfu) (cu : Nat) (u : CollectorUnit) : Except RfuFault Rfu := do
  require .operandsOutstanding (u.notReady = ∅)
  let inst ← fetch .noWarp u.warp
  let output ← fetch .indexOutOfRange u.output
  let regs ← fetch .indexOutOfRange s.pipe[output]?
  let reg ← regs.getFree c.subCoreModel (c.regId cu)
  pure { s with
    units := s.units.set cu u.freed
    pipe := s.pipe.set output (regs.set reg (some inst))
    nonRfOperands := u32 (s.nonRfOperands + inst.nonRegs * c.countedLanes inst.activeMask) }

/-- The first unit that `find_ready` looks at, as a distance from the last one. -/
def rrIncrement (units : UnitRange) (last : Nat) : Nat :=
  if c.subCoreModel = true then
    units.size / c.numWarpScheds - last % (units.size / c.numWarpScheds)
  else 1

/-- The loop of `dispatch_unit_t::find_ready`, over the distances to look at. -/
def findReady (s : Rfu) (units : UnitRange) (start : Nat) :
    List Nat → Except RfuFault (Option Nat)
  | [] => pure none
  | n :: ns => do
    let k := (start + n) % units.size
    let u ← fetch .indexOutOfRange s.units[units.base + k]?
    let isReady ← c.ready s (units.base + k) u
    if isReady = true then pure (some k) else findReady s units start ns

/-- The turn of one dispatch unit in `dispatch_ready_cu`. -/
def dispatchOne (s : Rfu) (p : Nat) : Except RfuFault Rfu := do
  let units ← fetch .indexOutOfRange c.dispatchUnits[p]?
  let last ← fetch .indexOutOfRange s.dispatchLast[p]?
  let found ← c.findReady s units (last + c.rrIncrement units last) (List.range units.size)
  match found with
  | some k => do
    let u ← fetch .indexOutOfRange s.units[units.base + k]?
    c.dispatch { s with dispatchLast := s.dispatchLast.set p k } (units.base + k) u
  | none => pure s

/-- `dispatch_ready_cu`. -/
def dispatchReadyCu (s : Rfu) : Except RfuFault Rfu :=
  (List.range c.dispatchUnits.length).foldlM c.dispatchOne s

/-- `allocate_for_read`, on the bank that the request names now. -/
def allocateForRead (s : Rfu) (op : ReadOp) : Except RfuFault Rfu := do
  let u ← fetch .unknownCollector s.units[op.cu]?
  let bank ← c.registerBank op.reg u.warpId op.schedId
  let a ← fetch .indexOutOfRange s.allocatedBank[bank]?
  require .bankBusy (a = .noAlloc)
  pure { s with allocatedBank := s.allocatedBank.set bank .readAlloc }

/-- The arrival of a granted operand, and the read that is counted for it. -/
def collect (s : Rfu) (op : ReadOp) : Except RfuFault Rfu := do
  let u ← fetch .unknownCollector s.units[op.cu]?
  let inst ← fetch .noWarp u.warp
  pure { s with
    units := s.units.set op.cu (u.collectOperand op.operand)
    regfileReads := u32 (s.regfileReads + c.countedLanes inst.activeMask) }

/-- `opndcoll_rfu_t::allocate_reads`. The bank of each request was found free before it
enters `read_ops`, so that no entry there replaces another. -/
def allocateReads (s : Rfu) : Except RfuFault Rfu := do
  let (allocated, queue, lastCu) ← Arbiter.allocateReads c.numCu s.queue s.allocatedBank s.lastCu
  let s ← allocated.foldlM c.allocateForRead { s with queue := queue, lastCu := lastCu }
  allocated.foldlM c.collect s

/-- One request of `add_read_requests`. -/
def addReadRequest (s : Rfu) (op : ReadOp) : Except RfuFault Rfu := do
  let q ← fetch .indexOutOfRange s.queue[op.bank]?
  pure { s with queue := s.queue.set op.bank (q ++ [op]) }

/-- Allocate a collector unit to an input and request its operands. -/
def occupy (s : Rfu) (cu input output : Nat) : Except RfuFault (Bool × Rfu) := do
  let u ← fetch .indexOutOfRange s.units[cu]?
  let (allocated, u, pipe) ← c.allocate s.pipe cu u input output
  let s ← u.srcOp.reduceOption.foldlM addReadRequest
    { s with units := s.units.set cu u, pipe := pipe }
  pure (allocated, s)

/-- The units of a set that may take the instruction of an input: those of the scheduler
that issued it, or all. -/
def unitBounds (regs : PipeRegs) (units : UnitRange) : Except RfuFault (Nat × Nat) :=
  if c.subCoreModel = true then do
    let (_, inst) ← fetch .noReadyRegister regs.getReady
    require .unevenSet
      (units.size % c.numWarpScheds = 0 ∧ c.numWarpScheds ≤ units.size)
    let cusPerSched := units.size / c.numWarpScheds
    require .unevenSet (inst.schedId * cusPerSched + cusPerSched ≤ units.size)
    pure (inst.schedId * cusPerSched, cusPerSched)
  else pure (0, units.size)

/-- The loop over the collector sets of a port, up to the first one that has a free unit. -/
def searchSets (s : Rfu) (input output : Nat) : List Nat → Except RfuFault Rfu
  | [] => pure s
  | setId :: sets => do
    let regs ← fetch .indexOutOfRange s.pipe[input]?
    let units := c.cuSet setId
    let (lower, count) ← c.unitBounds regs units
    match (List.range' (units.base + lower) count).find? fun cu =>
        (s.units[cu]?.map CollectorUnit.free).getD false with
    | some cu => do
      let (allocated, s) ← c.occupy s cu input output
      if allocated = true then pure s else searchSets s input output sets
    | none => searchSets s input output sets

/-- The service of one input of a port. -/
def serve (sets : List Nat) (s : Rfu) (port : Nat × Nat) : Except RfuFault Rfu := do
  let regs ← fetch .indexOutOfRange s.pipe[port.1]?
  if regs.hasReady = true then c.searchSets s port.1 port.2 sets else pure s

/-- `allocate_cu`. -/
def allocateCu (s : Rfu) (p : InputPort) : Except RfuFault Rfu :=
  (p.input.zip p.output).foldlM (c.serve p.cuSets) s

/-- `process_banks`. -/
def processBanks (s : Rfu) : Rfu :=
  { s with allocatedBank := s.allocatedBank.map fun _ => .noAlloc }

/-- `step`. -/
def step (s : Rfu) : Except RfuFault Rfu := do
  let s ← c.dispatchReadyCu s
  let s ← c.allocateReads s
  let s ← c.inPorts.foldlM c.allocateCu s
  pure (processBanks s)

/-- The loop of `writeback` over the destinations: whether each of them got its bank, the
destinations left, and the banks. A register that got its bank is struck out. -/
def allocateWrites (warpId schedId : Nat) :
    List Int → List BankAlloc → Except RfuFault (Bool × List Int × List BankAlloc)
  | [], banks => pure (true, [], banks)
  | reg :: regs, banks =>
    if 0 ≤ reg then do
      let bank ← c.registerBank reg.toNat warpId schedId
      let a ← fetch .indexOutOfRange banks[bank]?
      if a = .noAlloc then do
        let (done, rest, banks) ← allocateWrites warpId schedId regs (banks.set bank .writeAlloc)
        pure (done, -1 :: rest, banks)
      else pure (false, reg :: regs, banks)
    else do
      let (done, rest, banks) ← allocateWrites warpId schedId regs banks
      pure (done, reg :: rest, banks)

/-- `writeback`: whether it is done, and the instruction with the destinations left. -/
def writeback (s : Rfu) (inst : CollectorInst) :
    Except RfuFault (Bool × CollectorInst × Rfu) := do
  let (done, dst, banks) ← c.allocateWrites inst.warpId inst.schedId inst.dst s.allocatedBank
  let writes := if done = true then inst.regsWritten.length else 0
  pure (done, { inst with dst := dst }, { s with
    allocatedBank := banks
    regfileWrites := u32 (s.regfileWrites + writes * c.countedLanes inst.activeMask) })

end RfuConfig

end WaspSim
