import WaspSim.Core.Run
import WaspSim.Shader.LoadStore

/-!
# The shader core as a machine

A run of the core takes one action at a time, in any order: eligibility tests and
issues of any warps, one load/store unit step, thread exit, reclaiming a finished
warp with the retirement of its CTA, launching a CTA into a free hardware slot,
and writes to global memory by anyone.
-/

namespace WaspSim

/-- One action of the core or its surroundings. -/
inductive Action (Mem : Type) where
  /-- The scheduler tests the next instruction of a warp that is not waiting with both
  `can_issue` functions. -/
  | test (warpId : Nat) (inst : QueueInst) (countStall : Bool)
  /-- `issue_warp` of a queue instruction. -/
  | issue (warpId : Nat) (inst : QueueInst) (activeMask : ActiveMask) (input : LaneInput)
  | dispatch (i : Nat) (port : Port)
  | l1Latency (i : Nat) (status : CacheStatus)
  | respond (i : Nat)
  | writeback (client : WritebackClient)
  /-- `decode` puts an instruction into the i-buffer. -/
  | decode (warpId : Nat)
  /-- Issue of an instruction that is not a queue instruction. -/
  | issueOther (warpId : Nat)
  /-- An instruction in another pipeline is done. -/
  | finishOther (warpId : Nat)
  /-- `ibuffer_flush`. -/
  | flush (warpId : Nat)
  /-- A store leaves the core. -/
  | storeReq (warpId : Nat)
  /-- A store is acknowledged. -/
  | storeAck (warpId : Nat)
  /-- Threads of a warp exit functionally. -/
  | exit (warpId threads : Nat)
  /-- `fetch` reclaims a finished warp. -/
  | reclaim (warpId : Nat)
  /-- `issue_block2core` puts a CTA into a free slot. -/
  | launch (ctaHwId : Nat)
  /-- Global memory is written. -/
  | storeMem (mem : Mem)

namespace Shader

variable {Mem : Type}

/-- `erase_cta` on both tables. -/
def eraseCta (s : Shader Mem) (ctaHwId : Nat) : Shader Mem :=
  { s with tables := fun kind => (s.tables kind).eraseCta ctaHwId }

/-- `register_cta_thread_exit`. -/
def registerCtaThreadExit (s : Shader Mem) (ctaHwId : Nat) :
    Except Halt (Shader Mem × List Event) := do
  require .ctaEmpty (0 < s.ctaStatus ctaHwId)
  let s := { s with ctaStatus := Function.update s.ctaStatus ctaHwId (s.ctaStatus ctaHwId - 1) }
  pure (if s.ctaStatus ctaHwId = 0 then (s.eraseCta ctaHwId, [.retired ctaHwId]) else (s, []))

/-- Register the exit of a number of threads, one after the other. -/
def registerExits (s : Shader Mem) (ctaHwId : Nat) : Nat → Except Halt (Shader Mem × List Event)
  | 0 => pure (s, [])
  | n + 1 => do
    let (s, events) ← s.registerCtaThreadExit ctaHwId
    let (s, rest) ← s.registerExits ctaHwId n
    pure (s, events ++ rest)

/-- The part of `fetch` that reclaims a finished warp. -/
def reclaim (s : Shader Mem) (warpId : Nat) : Except Halt (Shader Mem × List Event) := do
  let w := s.warps warpId
  require .disabled (w.hardwareDone = true ∧ w.doneExit = false)
  let (s, events) ← s.registerExits w.ctaId w.registered
  pure (s.setWarp warpId fun w =>
    { w with registered := 0, doneExit := w.doneExit || 0 < w.registered }, events)

/-- The threads of a CTA's warp `i` below `threads_per_cta`. -/
def threadsInWarp (cfg : Config) (i : Nat) : Nat :=
  min cfg.warpSize (cfg.threadsPerCta - i * cfg.warpSize)

/-- Reset and initialise one warp of a CTA. -/
def initWarp (cfg : Config) (ctaHwId : Nat) (s : Shader Mem) (i : Nat) :
    Except Halt (Shader Mem) := do
  let warpId := ctaHwId * cfg.warpsPerCta + i
  require .warpOutOfRange (warpId < cfg.maxWarpsPerShader)
  require .warpBusy ((s.warps warpId).storesOutstanding = 0 ∧
    (s.warps warpId).instInPipeline = 0)
  pure (s.setWarp warpId fun w =>
    { w with
      ctaId := ctaHwId
      running := threadsInWarp cfg i
      registered := threadsInWarp cfg i
      doneExit := false })

/-- `issue_block2core` into the hardware slot `ctaHwId`, which must be free. -/
def issueBlock2core (cfg : Config) (s : Shader Mem) (ctaHwId : Nat) :
    Except Halt (Shader Mem × List Event) := do
  require .disabled (ctaHwId < cfg.kernelMaxCtaPerShader ∧ s.ctaStatus ctaHwId = 0)
  let s ← (List.range cfg.warpsPerCta).foldlM (initWarp cfg ctaHwId) s
  let nthreadsInBlock := ((List.range cfg.warpsPerCta).map (threadsInWarp cfg)).sum
  pure ({ s with ctaStatus := Function.update s.ctaStatus ctaHwId nthreadsInBlock }, [])

/-- One action of the core. -/
def step (cfg : Config) (read : Mem → BitVec 64 → Nat → BitVec 64) (s : Shader Mem) :
    Action Mem → Except Halt (Shader Mem × List Event)
  | .test warpId inst countStall => do
    require .disabled (0 < (s.warps warpId).ibuffered ∧ (s.warps warpId).functionalDone = false)
    let (s, _) ← waspRfqCanIssue cfg s warpId inst countStall
    let (s, _) ← smemqCanIssue cfg s warpId inst countStall
    pure (s, [])
  | .issue warpId inst activeMask input => issueWarp cfg read s warpId inst activeMask input
  | .dispatch i port => dispatchCycle cfg s i port
  | .l1Latency i status => l1LatencyQueueCycle cfg s i status
  | .respond i => respond cfg s i
  | .writeback client => writeback cfg s client
  | .decode warpId =>
    pure (s.setWarp warpId fun w =>
      { w with ibuffered := w.ibuffered + 1, instInPipeline := w.instInPipeline + 1 }, [])
  | .issueOther warpId => do
    require .disabled (0 < (s.warps warpId).ibuffered ∧ (s.warps warpId).functionalDone = false)
    pure (s.setWarp warpId fun w =>
      { w with ibuffered := w.ibuffered - 1, elsewhere := w.elsewhere + 1 }, [])
  | .finishOther warpId => do
    require .disabled (0 < (s.warps warpId).elsewhere)
    let s ← s.decInstInPipeline warpId
    pure (s.setWarp warpId fun w => { w with elsewhere := w.elsewhere - 1 }, [])
  | .flush warpId => do
    require .pipelineEmpty ((s.warps warpId).ibuffered ≤ (s.warps warpId).instInPipeline)
    pure (s.setWarp warpId fun w =>
      { w with ibuffered := 0, instInPipeline := w.instInPipeline - w.ibuffered }, [])
  | .storeReq warpId =>
    pure (s.setWarp warpId fun w => { w with storesOutstanding := w.storesOutstanding + 1 }, [])
  | .storeAck warpId => do
    require .disabled (0 < (s.warps warpId).storesOutstanding)
    pure (s.setWarp warpId fun w => { w with storesOutstanding := w.storesOutstanding - 1 }, [])
  | .exit warpId threads => do
    require .disabled (threads ≤ (s.warps warpId).running)
    pure (s.setWarp warpId fun w => { w with running := w.running - threads }, [])
  | .reclaim warpId => s.reclaim warpId
  | .launch ctaHwId => issueBlock2core cfg s ctaHwId
  | .storeMem mem => pure ({ s with mem }, [])

end Shader
end WaspSim
