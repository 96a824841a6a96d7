import WaspSim.Shader.Key

/-!
# The queue functions of a shader core

The functions that `issue_warp` and the load/store unit call for a queue
instruction. The RFQ and the SMEMQ versions differ in the options and the table
they use, and in the stage counters that only the RFQ version keeps; each is the
common body at its own kind.
-/

namespace WaspSim
namespace Shader

variable {Mem : Type}

/-- Find or create the queue that a warp's instruction names. -/
def queueFor (kind : QueueKind) (cfg : Config) (s : Shader Mem) (warpId : Nat)
    (inst : QueueInst) : Except Halt (Shader Mem × QueueKey × Queue) := do
  let key ← keyForWarp kind cfg s warpId inst.queueId
  let (table, queue) ← (s.tables kind).getOrCreate key (cfg.options kind).entries
    inst.payloadWords cfg.warpSize
  pure (s.setTable kind table, key, queue)

/-- `wasp_rfq_can_issue` and `smemq_can_issue`. -/
def canIssue (kind : QueueKind) (cfg : Config) (s : Shader Mem) (warpId : Nat)
    (inst : QueueInst) (countStall : Bool) : Except Halt (Shader Mem × Bool) :=
  if inst.kind ≠ kind then pure (s, true)
  else do
    require .queueDisabled (cfg.enabled kind = true)
    let (s, _, queue) ← queueFor kind cfg s warpId inst
    let stall (g : QueueStats → QueueStats) : Shader Mem := if countStall then s.count kind g else s
    if inst.load then
      if queue.full then
        pure (stall fun c => { c with fullStalls := c.fullStalls + 1 }, false)
      else pure (s, true)
    else if queue.empty then
      pure (stall fun c => { c with emptyStalls := c.emptyStalls + 1 }, false)
    else if !queue.headReady then
      pure (stall fun c => { c with headNotReadyStalls := c.headNotReadyStalls + 1 }, false)
    else pure (s, true)

/-- Count an issue in `wasp_stage_issue_count`, which only the RFQ version does. -/
def countStage (s : Shader Mem) (kind : QueueKind) (stage : Nat) : Shader Mem :=
  match kind with
  | .rfq => { s with
      stageIssueCount := Function.update s.stageIssueCount stage (s.stageIssueCount stage + 1) }
  | .smemq => s

/-- `wasp_rfq_prepare_issue` and `smemq_prepare_issue`. -/
def prepareIssue (kind : QueueKind) (cfg : Config) (s : Shader Mem) (inst : WarpInst) :
    Except Halt (Shader Mem × WarpInst) :=
  if cfg.enabled kind = false ∨ inst.kind ≠ kind then pure (s, inst)
  else do
    let (s, key, queue) ← queueFor kind cfg s inst.warpId inst.toQueueInst
    if inst.load then
      require .queueFull (queue.full = false)
      let (queue, token) ← queue.reserveTail key inst.activeMask 0
      let s := s.putQueue kind key queue
      let s := s.count kind fun c => { c with
        reservations := c.reservations + 1
        maxOccupancy := max c.maxOccupancy queue.occupancy }
      pure (s.countStage kind 0, inst.writeTokenToInst token)
    else
      let token : Token := { key, payloadWordsPerLane := inst.payloadWords, valid := true }
      pure (s.countStage kind 1, inst.writeTokenToInst token)

/-- `wasp_rfq_after_func_exec` and `smemq_after_func_exec`. -/
def afterFuncExec (kind : QueueKind) (cfg : Config) (s : Shader Mem) (inst : WarpInst) :
    Except Halt (Shader Mem) :=
  if cfg.enabled kind = false ∨ inst.kind ≠ kind then pure s
  else do
    let token := inst.tokenFromInst
    let queue ← (s.tables kind).find token.key
    if inst.load then
      let queue ← queue.setPendingResponses token inst.accessqCount
      pure (s.putQueue kind token.key queue)
    else
      require .headNotReady (queue.headReady = true)
      let queue ← queue.consumeHead
      let s := s.putQueue kind token.key queue
      pure (s.count kind fun c => { c with consumes := c.consumes + 1 })

/-- `wasp_rfq_load_pending` and `smemq_load_pending`. -/
def loadPending (kind : QueueKind) (cfg : Config) (s : Shader Mem) (inst : WarpInst) :
    Except Halt Bool :=
  if cfg.enabled kind = false ∨ inst.kind ≠ kind ∨ inst.load = false then pure false
  else do
    let token := inst.tokenFromInst
    let queue ← (s.tables kind).find token.key
    queue.hasPendingResponses token

/-- `wasp_rfq_mark_mem_response` and `smemq_mark_mem_response`. -/
def markMemResponse (kind : QueueKind) (cfg : Config) (s : Shader Mem) (inst : WarpInst) :
    Except Halt (Shader Mem × Bool) :=
  if cfg.enabled kind = false ∨ inst.kind ≠ kind ∨ inst.load = false then pure (s, true)
  else do
    let token := inst.tokenFromInst
    let queue ← (s.tables kind).find token.key
    let s := s.count kind fun c => { c with memoryFills := c.memoryFills + 1 }
    let (queue, last) ← queue.markResponse token
    pure (s.putQueue kind token.key queue, last)

/-- `wasp_rfq_functional_store_lane` and `smemq_functional_store_lane`. -/
def functionalStoreLane (kind : QueueKind) (cfg : Config) (s : Shader Mem) (inst : WarpInst)
    (lane word : Nat) (value : BitVec 64) : Except Halt (Shader Mem) :=
  if cfg.modelsData kind = false then pure s
  else do
    let token := inst.tokenFromInst
    let queue ← (s.tables kind).find token.key
    let queue ← queue.setLaneValue token lane word value
    pure (s.putQueue kind token.key queue)

/-- `wasp_rfq_functional_read_lane` and `smemq_functional_read_lane`. -/
def functionalReadLane (kind : QueueKind) (cfg : Config) (s : Shader Mem) (inst : WarpInst)
    (lane word : Nat) : Except Halt (BitVec 64) :=
  if cfg.modelsData kind = false then pure 0
  else do
    let queue ← (s.tables kind).find inst.tokenFromInst.key
    queue.headLaneValue lane word

/-- `wasp_rfq_can_issue`. -/
def waspRfqCanIssue (cfg : Config) (s : Shader Mem) := canIssue .rfq cfg s

/-- `smemq_can_issue`. -/
def smemqCanIssue (cfg : Config) (s : Shader Mem) := canIssue .smemq cfg s

/-- `wasp_rfq_prepare_issue`. -/
def waspRfqPrepareIssue (cfg : Config) (s : Shader Mem) := prepareIssue .rfq cfg s

/-- `smemq_prepare_issue`. -/
def smemqPrepareIssue (cfg : Config) (s : Shader Mem) := prepareIssue .smemq cfg s

/-- `wasp_rfq_after_func_exec`. -/
def waspRfqAfterFuncExec (cfg : Config) (s : Shader Mem) := afterFuncExec .rfq cfg s

/-- `smemq_after_func_exec`. -/
def smemqAfterFuncExec (cfg : Config) (s : Shader Mem) := afterFuncExec .smemq cfg s

/-- `wasp_rfq_load_pending`. -/
def waspRfqLoadPending (cfg : Config) (s : Shader Mem) := loadPending .rfq cfg s

/-- `smemq_load_pending`. -/
def smemqLoadPending (cfg : Config) (s : Shader Mem) := loadPending .smemq cfg s

/-- `wasp_rfq_mark_mem_response`. -/
def waspRfqMarkMemResponse (cfg : Config) (s : Shader Mem) := markMemResponse .rfq cfg s

/-- `smemq_mark_mem_response`. -/
def smemqMarkMemResponse (cfg : Config) (s : Shader Mem) := markMemResponse .smemq cfg s

/-- `wasp_rfq_functional_store_lane`. -/
def waspRfqFunctionalStoreLane (cfg : Config) (s : Shader Mem) := functionalStoreLane .rfq cfg s

/-- `smemq_functional_store_lane`. -/
def smemqFunctionalStoreLane (cfg : Config) (s : Shader Mem) := functionalStoreLane .smemq cfg s

/-- `wasp_rfq_functional_read_lane`. -/
def waspRfqFunctionalReadLane (cfg : Config) (s : Shader Mem) := functionalReadLane .rfq cfg s

/-- `smemq_functional_read_lane`. -/
def smemqFunctionalReadLane (cfg : Config) (s : Shader Mem) := functionalReadLane .smemq cfg s

end Shader
end WaspSim
