import WaspSim.Scheduler.State

/-!
# Issue of any instruction

`issue_warp` moves the next instruction of a warp into a free register of an
execution unit, executes it functionally and updates the barriers, the SIMT stack
and the scoreboard of its warp. A queue instruction is issued by the queue
machine of the core.
-/

namespace WaspSim
namespace IssueState

variable {Mem Threads Simt Score : Type}

/-- `func_exec_inst` with the queue functions that `issue_warp` calls around it. -/
def funcExecInst (O : Outside Mem Threads Simt Score) (cfg : SchedConfig)
    (c : IssueState Mem Threads Simt Score) (pipe : PipeInst) :
    Except Halt (IssueState Mem Threads Simt Score × PipeInst) :=
  match pipe.queue with
  | some inst => do
    let input := O.laneInput c.threads pipe.warpId inst
    let (shader, events) ←
      Shader.issueWarp cfg.toConfig O.read c.shader pipe.warpId inst pipe.activeMask input
    let activeMask := Shader.maskAfter cfg.warpSize input pipe.activeMask
    pure ({ c with shader, threads := O.writeBack c.threads events }, { pipe with activeMask })
  | none => do
    let e := O.executeWarpInst c.shader.mem c.threads pipe
    let (shader, _) ← Shader.step cfg.toConfig O.read c.shader (.issueOther pipe.warpId)
    let (shader, _) ← Shader.step cfg.toConfig O.read shader (.storeMem e.mem)
    let (shader, _) ← Shader.step cfg.toConfig O.read shader (.exit pipe.warpId e.exited)
    let c := { c with shader, threads := e.threads }.setSchedWarp pipe.warpId fun sw =>
      { sw with nAtomic := sw.nAtomic + e.atomics }
    let pipe := { pipe with activeMask := e.activeMask }
    if e.exited = 0 then pure (c, pipe)
    else do
      let c ← c.ibufferFlush O cfg pipe.warpId
      if c.functionalDone pipe.warpId then
        let barriers ← c.barriers.warpExit cfg.maxBarriersPerCta pipe.warpId
        pure ({ c with barriers }, pipe)
      else pure (c, pipe)

/-- The barriers and memory barriers of `issue_warp`. -/
def issueBarrier (O : Outside Mem Threads Simt Score) (cfg : SchedConfig)
    (c : IssueState Mem Threads Simt Score) (w : Nat) (inst : SchedInst) :
    Except Halt (IssueState Mem Threads Simt Score) :=
  match inst.op with
  | .barrierOp => do
    let (barriers, reduced) ←
      c.barriers.warpReachesBarrier cfg.warpSize (c.shader.warps w).ctaId w inst
    pure { c with barriers, threads := O.broadcastBarrierReduction c.threads reduced }
  | .memoryBarrierOp => pure (c.setSchedWarp w fun sw => { sw with membar := true })
  | _ => pure c

/-- `issue_warp`. -/
def issueWarp (O : Outside Mem Threads Simt Score) (cfg : SchedConfig)
    (c : IssueState Mem Threads Simt Score) (port : OutPort) (inst : SchedInst)
    (activeMask : ActiveMask) (w schedId : Nat) :
    Except Halt (IssueState Mem Threads Simt Score) := do
  let regId ← RegisterSet.getFree (c.out port) cfg.subCoreModel schedId
  let buffered := (c.schedWarps w).numInstInBuffer
  let shader := c.shader.setWarp w fun v => { v with ibuffered := buffered }
  let c := { c with shader }.setSchedWarp w SchedWarp.ibufferFree
  let (c, pipe) ← c.funcExecInst O cfg { inst with warpId := w, activeMask, schedId }
  let c := { c with out := Function.update c.out port ((c.out port).set regId (some pipe)) }
  let c ← c.issueBarrier O cfg w inst
  let c := { c with
    simtStack := Function.update c.simtStack w (O.updateSimtStack c.threads pipe (c.simtStack w))
    scoreboard := O.reserveRegisters c.scoreboard pipe }
  pure (c.setSchedWarp w fun sw => { sw with nextPc := inst.pc + inst.isize })

end IssueState
end WaspSim
