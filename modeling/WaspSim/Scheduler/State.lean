import Mathlib.Data.Finset.SDiff
import WaspSim.Scheduler.Instruction
import WaspSim.Shader.Machine

/-!
# State of the issue stage

The core that a warp scheduler works on: the queue machine of the core, the
i-buffers and CDP counters of its warps, SIMT stacks, scoreboard, barriers and
output register sets. The scoreboard, the SIMT stacks and the functional execution
of other instructions come from code outside the modelled sources, which is a
parameter with the facts that the scheduler relies on.
-/

namespace WaspSim

/-- A slot of the i-buffer. -/
structure IbufferEntry where
  /-- `m_inst`. -/
  inst : Option SchedInst := none
  /-- `m_valid`. -/
  valid : Bool := false
  deriving DecidableEq, Repr

/-- The part of `shd_warp_t` that the schedulers use; the rest is in the queue machine. -/
structure SchedWarp where
  /-- `m_ibuffer`, of `IBUFFER_SIZE` slots. -/
  ibuffer : Fin 2 → IbufferEntry := fun _ => {}
  /-- `m_next`. -/
  next : Fin 2 := 0
  /-- `m_next_pc`. -/
  nextPc : Nat := 0
  /-- `m_cdp_latency`. -/
  cdpLatency : Nat := 0
  /-- `m_cdp_dummy`. -/
  cdpDummy : Bool := false
  /-- `m_membar`. -/
  membar : Bool := false
  /-- `m_n_atomic`. -/
  nAtomic : Nat := 0

namespace SchedWarp

/-- `ibuffer_empty`. -/
def ibufferEmpty (w : SchedWarp) : Bool := !(w.ibuffer 0).valid && !(w.ibuffer 1).valid

/-- `num_inst_in_buffer`. -/
def numInstInBuffer (w : SchedWarp) : Nat := (w.ibuffer 0).valid.toNat + (w.ibuffer 1).valid.toNat

/-- `ibuffer_next_inst`. -/
def ibufferNextInst (w : SchedWarp) : Option SchedInst := (w.ibuffer w.next).inst

/-- `ibuffer_next_valid`. -/
def ibufferNextValid (w : SchedWarp) : Bool := (w.ibuffer w.next).valid

/-- `ibuffer_free`. -/
def ibufferFree (w : SchedWarp) : SchedWarp :=
  { w with ibuffer := Function.update w.ibuffer w.next {} }

/-- `ibuffer_step`. -/
def ibufferStep (w : SchedWarp) : SchedWarp := { w with next := w.next + 1 }

/-- Empty every slot, as `ibuffer_flush` does. -/
def ibufferClear (w : SchedWarp) : SchedWarp := { w with ibuffer := fun _ => {} }

end SchedWarp

/-- An issued instruction in a pipeline register. -/
structure PipeInst extends SchedInst where
  /-- `m_warp_id`. -/
  warpId : Nat
  /-- `m_warp_active_mask`. -/
  activeMask : ActiveMask
  /-- `m_scheduler_id`. -/
  schedId : Nat
  deriving DecidableEq, Repr

/-- `register_set`: its registers, none for an empty one. -/
abbrev RegisterSet := List (Option PipeInst)

namespace RegisterSet

/-- `has_free`. -/
def hasFree (regs : RegisterSet) (subCoreModel : Bool) (regId : Nat) : Except Halt Bool :=
  if subCoreModel = false then pure (regs.any Option.isNone)
  else do
    let reg ← fetch .indexOutOfRange regs[regId]?
    pure reg.isNone

/-- `get_free`, as the index of the register. -/
def getFree (regs : RegisterSet) (subCoreModel : Bool) (regId : Nat) : Except Halt Nat :=
  if subCoreModel = false then fetch .noFreeRegister (regs.findIdx? Option.isNone)
  else do
    let reg ← fetch .indexOutOfRange regs[regId]?
    require .noFreeRegister (reg.isNone = true)
    pure regId

end RegisterSet

/-- `barrier_set_t`. -/
structure BarrierSet where
  /-- `m_warp_active`. -/
  warpActive : Finset Nat := ∅
  /-- `m_warp_at_barrier`. -/
  warpAtBarrier : Finset Nat := ∅
  /-- `m_bar_id_to_warps`. -/
  barIdToWarps : Nat → Finset Nat := fun _ => ∅
  /-- `m_cta_to_warps`. -/
  ctaToWarps : List (Nat × Finset Nat) := []

namespace BarrierSet

/-- Release the warps of a set from a named barrier. -/
def release (b : BarrierSet) (barId : Nat) (warps : Finset Nat) : BarrierSet :=
  { b with
    barIdToWarps := Function.update b.barIdToWarps barId (b.barIdToWarps barId \ warps)
    warpAtBarrier := b.warpAtBarrier \ warps }

/-- `warp_reaches_barrier`, with the warps whose reduction is broadcast. -/
def warpReachesBarrier (b : BarrierSet) (warpSize ctaId warpId : Nat) (inst : SchedInst) :
    Except Halt (BarrierSet × Finset Nat) := do
  let (_, warpsInCta) ← fetch .noBarrier (b.ctaToWarps.find? fun e => e.1 == ctaId)
  require .noBarrier (warpId ∈ warpsInCta)
  let b := { b with
    barIdToWarps := Function.update b.barIdToWarps inst.barId
      (insert warpId (b.barIdToWarps inst.barId)) }
  let b :=
    if inst.barType = .sync ∨ inst.barType = .red then
      { b with warpAtBarrier := insert warpId b.warpAtBarrier }
    else b
  let atBarrier := warpsInCta ∩ b.barIdToWarps inst.barId
  let reached : Bool :=
    match inst.barCount with
    | none => decide (atBarrier = warpsInCta ∩ b.warpActive)
    | some count => atBarrier.card * warpSize == count
  pure <|
    if reached then (b.release inst.barId atBarrier, if inst.barType = .red then atBarrier else ∅)
    else (b, ∅)

/-- `warp_exit`. -/
def warpExit (b : BarrierSet) (maxBarriersPerCta warpId : Nat) : Except Halt BarrierSet := do
  let b := { b with warpActive := b.warpActive.erase warpId }
  let (_, warpsInCta) ← fetch .noBarrier (b.ctaToWarps.find? fun e => decide (warpId ∈ e.2))
  let active := warpsInCta ∩ b.warpActive
  pure ((List.range maxBarriersPerCta).foldl (fun b barId =>
    let atBarrier := warpsInCta ∩ b.barIdToWarps barId
    if atBarrier = active then b.release barId atBarrier else b) b)

end BarrierSet

/-- What the functional execution of an instruction without a queue leaves behind. -/
structure ExecEffect (Mem Threads : Type) where
  mem : Mem
  threads : Threads
  /-- The active mask without the lanes whose guard is off. -/
  activeMask : ActiveMask
  /-- The threads that ended in it. -/
  exited : Nat
  /-- The lanes that count an atomic, 0 unless `isatomic`. -/
  atomics : Nat

/-- The code outside the modelled sources that the issue stage calls. -/
structure Outside (Mem Threads Simt Score : Type) where
  /-- Functional read of global memory. -/
  read : Mem → BitVec 64 → Nat → BitVec 64
  /-- What the thread contexts of a warp supply to a queue instruction. -/
  laneInput : Threads → Nat → QueueInst → LaneInput
  /-- The destination registers of queue moves. -/
  writeBack : Threads → List Event → Threads
  /-- `execute_warp_inst_t`. -/
  executeWarpInst : Mem → Threads → PipeInst → ExecEffect Mem Threads
  /-- `broadcast_barrier_reduction` on each warp of a set. -/
  broadcastBarrierReduction : Threads → Finset Nat → Threads
  /-- The PC of `get_pdom_stack_top_info`. -/
  pdomStackTop : Simt → Nat
  /-- `get_active_mask` of a SIMT stack. -/
  activeMask : Simt → ActiveMask
  /-- The lanes of the top of a SIMT stack are never all off. -/
  activeMask_ne_zero : ∀ simt, activeMask simt ≠ 0
  /-- `updateSIMTStack`, which updates the stack of the warp of an instruction. -/
  updateSimtStack : Threads → PipeInst → Simt → Simt
  checkCollision : Score → Nat → SchedInst → Bool
  pendingWrites : Score → Nat → Bool
  reserveRegisters : Score → PipeInst → Score
  /-- The scoreboard keeps the registers of each warp apart. -/
  checkCollision_reserveRegisters : ∀ score pipe warpId inst, warpId ≠ pipe.warpId →
    checkCollision (reserveRegisters score pipe) warpId inst = checkCollision score warpId inst

namespace QueueTable

/-- A table after a test: as it was when the test found its queue. A list that stands for
a map may only change its order then, which does not count. -/
def settle (t t' : QueueTable) : QueueTable :=
  if ∀ key ∈ t'.keys, t.lookup key = t'.lookup key then t else t'

end QueueTable

/-- The core as its schedulers see it. -/
structure IssueState (Mem Threads Simt Score : Type) where
  /-- The queue tables, the retirement state of the warps and global memory. -/
  shader : Shader Mem
  schedWarps : Nat → SchedWarp
  /-- `m_simt_stack`. -/
  simtStack : Nat → Simt
  /-- `m_scoreboard`. -/
  scoreboard : Score
  /-- `m_pipeline_reg` and `m_specilized_dispatch_reg`. -/
  out : OutPort → RegisterSet
  /-- `m_barriers`. -/
  barriers : BarrierSet
  threads : Threads

namespace IssueState

variable {Mem Threads Simt Score : Type}

/-- Change the scheduler's part of one warp. -/
def setSchedWarp (c : IssueState Mem Threads Simt Score) (w : Nat) (g : SchedWarp → SchedWarp) :
    IssueState Mem Threads Simt Score :=
  { c with schedWarps := Function.update c.schedWarps w (g (c.schedWarps w)) }

/-- The core after a test of the queues. -/
def settle (c : IssueState Mem Threads Simt Score) (shader : Shader Mem) :
    IssueState Mem Threads Simt Score :=
  { c with shader := { shader with
      tables := fun kind => (c.shader.tables kind).settle (shader.tables kind) } }

/-- `done_exit`. -/
def doneExit (c : IssueState Mem Threads Simt Score) (w : Nat) : Bool := (c.shader.warps w).doneExit

/-- `functional_done`. -/
def functionalDone (c : IssueState Mem Threads Simt Score) (w : Nat) : Bool :=
  (c.shader.warps w).functionalDone

/-- `inst_in_pipeline`. -/
def instInPipeline (c : IssueState Mem Threads Simt Score) (w : Nat) : Bool :=
  0 < (c.shader.warps w).instInPipeline

/-- `warp_waiting_at_mem_barrier`, which ends the wait once no write is pending. -/
def warpWaitingAtMemBarrier (O : Outside Mem Threads Simt Score)
    (c : IssueState Mem Threads Simt Score) (w : Nat) :
    IssueState Mem Threads Simt Score × Bool :=
  if (c.schedWarps w).membar = false then (c, false)
  else if O.pendingWrites c.scoreboard w = false then
    (c.setSchedWarp w fun sw => { sw with membar := false }, false)
  else (c, true)

/-- `waiting`. -/
def waiting (O : Outside Mem Threads Simt Score) (c : IssueState Mem Threads Simt Score) (w : Nat) :
    IssueState Mem Threads Simt Score × Bool :=
  if c.functionalDone w then (c, true)
  else if w ∈ c.barriers.warpAtBarrier then (c, true)
  else
    let (c, atMemBarrier) := c.warpWaitingAtMemBarrier O w
    (c, atMemBarrier || 0 < (c.schedWarps w).nAtomic)

/-- `ibuffer_flush`. -/
def ibufferFlush (O : Outside Mem Threads Simt Score) (cfg : SchedConfig)
    (c : IssueState Mem Threads Simt Score) (w : Nat) :
    Except Halt (IssueState Mem Threads Simt Score) := do
  let buffered := (c.schedWarps w).numInstInBuffer
  let shader := c.shader.setWarp w fun v => { v with ibuffered := buffered }
  let (shader, _) ← Shader.step cfg.toConfig O.read shader (.flush w)
  pure ({ c with shader }.setSchedWarp w SchedWarp.ibufferClear)

end IssueState

/-- Straight-line code without register hazards; a SIMT stack is the PC of its top. -/
def Outside.sample : Outside Unit Unit Nat Unit where
  read _ _ _ := 5
  laneInput _ _ _ := { skip := fun _ => false, addr := fun _ _ => 0, size := 4, accesses := 1 }
  writeBack threads _ := threads
  executeWarpInst mem threads pipe :=
    { mem, threads, activeMask := pipe.activeMask, exited := 0, atomics := 0 }
  broadcastBarrierReduction threads _ := threads
  pdomStackTop pc := pc
  activeMask _ := BitVec.allOnes 32
  activeMask_ne_zero _ := by decide
  updateSimtStack _ pipe _ := pipe.pc + pipe.isize
  checkCollision _ _ _ := false
  pendingWrites _ _ := false
  reserveRegisters score _ := score
  checkCollision_reserveRegisters _ _ _ _ _ := rfl

/-- An ALU instruction without a queue. -/
def SchedInst.sample : SchedInst := { pc := 8, op := .aluOp }

/-- A core whose only warp presents an instruction and has `latency` cycles left to wait for
the device runtime. -/
def IssueState.sample (inst : SchedInst) (latency : Nat) : IssueState Unit Unit Nat Unit where
  shader := (Shader.initial ()).setWarp 0 fun v =>
    { v with running := 32, registered := 32, instInPipeline := 1, doneExit := false }
  schedWarps := Function.update (fun _ => {}) 0
    { ibuffer := Function.update (fun _ => {}) 0 { inst := some inst, valid := true }
      cdpLatency := latency
      cdpDummy := 0 < latency }
  simtStack _ := inst.pc
  scoreboard := ()
  out _ := [none]
  barriers := {}
  threads := ()

end WaspSim
