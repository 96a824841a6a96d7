import WaspSim.Shader.Issue

/-!
# Queue loads in the load/store unit

The paths an access of a queue load can take: straight to the interconnect, into
the L1 latency queue, or, without L1 latency, an L1 access at once; then back
through `m_next_global` or `next_access` into `m_next_wb`. Each answer marks the
entry, and the load completes at its dispatch when nothing is pending or with
its last answer.
-/

namespace WaspSim

/-- `cache_request_status`, by what becomes of a read that missed: `miss` is one for which
a fetch is sent, `hitReserved` one that waits for a fetch on its way, which the cache may
also report as a miss. -/
inductive CacheStatus where
  | hit
  | hitReserved
  | miss
  | reservationFail
  deriving DecidableEq, Repr

/-- What the interconnect and the L1 answer to a load in the dispatch register. -/
structure Port where
  /-- The interconnect cannot take a request. -/
  icntFull : Bool := false
  /-- How many accesses find a free first stage of the latency queue. -/
  freeBanks : Nat := 0
  /-- The status of an L1 access without latency. -/
  status : CacheStatus := .reservationFail
  deriving DecidableEq, Repr

/-- The writeback clients that return queue loads. -/
inductive WritebackClient where
  | nextGlobal
  | l1dAccess (i : Nat)

namespace Shader

variable {Mem : Type}

/-- `bypassL1D` when a load is sent. -/
def bypassL1D (cfg : Config) (inst : WarpInst) : Bool :=
  inst.cacheOp == .global || !cfg.hasL1D || (cfg.gmemSkipL1D && inst.cacheOp != .l1)

/-- `bypassL1D` when a response arrives. -/
def bypassL1DResponse (cfg : Config) (inst : WarpInst) : Bool :=
  inst.cacheOp == .global || !cfg.hasL1D || cfg.gmemSkipL1D

/-- Mark a response on the version of the instruction's kind. -/
def markResponse (cfg : Config) (s : Shader Mem) (inst : WarpInst) :
    Except Halt (Shader Mem × Bool) :=
  match inst.kind with
  | .rfq => waspRfqMarkMemResponse cfg s inst
  | .smemq => smemqMarkMemResponse cfg s inst

/-- The answer to an access outside `process_cache_access`: mark the response and
complete the load with the last one. -/
def answer (cfg : Config) (s : Shader Mem) (inst : WarpInst) :
    Except Halt (Shader Mem × List Event) := do
  let (s, last) ← markResponse cfg s inst
  pure (s, if last then [.answered inst.uid, .completed inst.uid] else [.answered inst.uid])

/-- Take accesses off the queue of a load. -/
def accessqPop (inst : WarpInst) (n : Nat) : WarpInst :=
  { inst with accessqCount := inst.accessqCount - n }

/-- `process_cache_access`, which drops the result of marking a hit. -/
def processCacheAccess (cfg : Config) (s : Shader Mem) (inst : WarpInst) (status : CacheStatus) :
    Except Halt (Shader Mem × WarpInst × List Event) :=
  match status with
  | .hit => do
    let (s, _) ← markResponse cfg s (accessqPop inst 1)
    pure (s, accessqPop inst 1, [.answered inst.uid])
  | .reservationFail => pure (s, inst, [])
  | .miss | .hitReserved =>
    pure (s.setLdst { s.ldst with memory := s.ldst.memory ++ [inst] }, accessqPop inst 1, [])

/-- `memory_cycle`: send accesses of the load in the dispatch register. The flag tells
that the load is done here, which it is once its access queue is empty. -/
def memoryCycle (cfg : Config) (s : Shader Mem) (inst : WarpInst) (port : Port) :
    Except Halt (Shader Mem × WarpInst × Bool × List Event) :=
  if inst.activeMask = 0 ∨ inst.accessqCount = 0 then pure (s, inst, true, [])
  else if bypassL1D cfg inst then
    if port.icntFull then pure (s, inst, false, [])
    else
      pure (s.setLdst { s.ldst with memory := s.ldst.memory ++ [inst] }, accessqPop inst 1,
        (accessqPop inst 1).accessqCount == 0, [])
  else if 0 < cfg.l1Latency then
    let n := min port.freeBanks (min cfg.l1Banks inst.accessqCount)
    pure (s.setLdst { s.ldst with
      l1LatencyQueue := s.ldst.l1LatencyQueue ++ List.replicate n inst }, accessqPop inst n,
      (accessqPop inst n).accessqCount == 0, [])
  else do
    let (s, inst, events) ← processCacheAccess cfg s inst port.status
    pure (s, inst, inst.accessqCount == 0, events)

/-- The version of `load_pending` for the instruction's kind. -/
def pendingRequests (cfg : Config) (s : Shader Mem) (inst : WarpInst) : Except Halt Bool :=
  match inst.kind with
  | .rfq => waspRfqLoadPending cfg s inst
  | .smemq => smemqLoadPending cfg s inst

/-- `dec_inst_in_pipeline`. -/
def decInstInPipeline (s : Shader Mem) (warpId : Nat) : Except Halt (Shader Mem) := do
  require .pipelineEmpty (0 < (s.warps warpId).instInPipeline)
  pure (s.setWarp warpId fun w => { w with instInPipeline := w.instInPipeline - 1 })

/-- The part of `ldst_unit::cycle` for load `i` in the dispatch register: when all its
accesses are gone it leaves, and completes here unless responses are pending. -/
def dispatchCycle (cfg : Config) (s : Shader Mem) (i : Nat) (port : Port) :
    Except Halt (Shader Mem × List Event) := do
  let inst ← fetch .disabled s.ldst.dispatch[i]?
  let (s, inst, done, events) ← memoryCycle cfg s inst port
  if done then
    let pending ← pendingRequests cfg s inst
    let s ← s.decInstInPipeline inst.warpId
    let s := s.setLdst { s.ldst with dispatch := s.ldst.dispatch.eraseIdx i }
    pure (s, if pending then events else events ++ [.completed inst.uid])
  else
    pure (s.setLdst { s.ldst with dispatch := s.ldst.dispatch.set i inst }, events)

/-- `L1_latency_queue_cycle` for the access `i` that reaches the end of the queue. -/
def l1LatencyQueueCycle (cfg : Config) (s : Shader Mem) (i : Nat) (status : CacheStatus) :
    Except Halt (Shader Mem × List Event) := do
  let inst ← fetch .disabled s.ldst.l1LatencyQueue[i]?
  let out := s.setLdst { s.ldst with l1LatencyQueue := s.ldst.l1LatencyQueue.eraseIdx i }
  match status with
  | .hit => out.answer cfg inst
  | .reservationFail => pure (s, [])
  | .miss | .hitReserved =>
    pure (out.setLdst { out.ldst with memory := out.ldst.memory ++ [inst] }, [])

/-- The response to the outstanding access `i` reaches the head of `m_response_fifo`. -/
def respond (cfg : Config) (s : Shader Mem) (i : Nat) : Except Halt (Shader Mem × List Event) := do
  let inst ← fetch .disabled s.ldst.memory[i]?
  let out := { s.ldst with memory := s.ldst.memory.eraseIdx i }
  if bypassL1DResponse cfg inst then
    require .disabled (s.ldst.nextGlobal = none)
    pure (s.setLdst { out with nextGlobal := some inst }, [])
  else pure (s.setLdst { out with l1dReady := out.l1dReady ++ [inst] }, [])

/-- `writeback`: the load in `m_next_wb` is answered, or a client fills it. -/
def writeback (cfg : Config) (s : Shader Mem) (client : WritebackClient) :
    Except Halt (Shader Mem × List Event) :=
  match s.ldst.nextWb with
  | some inst => do
    let (s, events) ← s.answer cfg inst
    pure (s.setLdst { s.ldst with nextWb := none }, events)
  | none =>
    match client with
    | .nextGlobal => do
      let inst ← fetch .disabled s.ldst.nextGlobal
      pure (s.setLdst { s.ldst with nextGlobal := none, nextWb := some inst }, [])
    | .l1dAccess i => do
      let inst ← fetch .disabled s.ldst.l1dReady[i]?
      pure (s.setLdst { s.ldst with
        l1dReady := s.ldst.l1dReady.eraseIdx i, nextWb := some inst }, [])

end Shader
end WaspSim
