import WaspSim.Shader.Config

/-!
# Queue instructions

What the decoder leaves in a `ld.rfq`, `mov.rfq`, `ld.smemq` or `mov.smemq`, and
what issue adds to the copy that travels through the pipeline. The decoder makes
a queue instruction either a load or a move of exactly one kind.
-/

namespace WaspSim

/-- `cache_operator_type`, as far as the bypass decisions distinguish it. -/
inductive CacheOp where
  | all
  | l1
  | global
  | other
  deriving DecidableEq, Repr

/-- A decoded queue instruction. -/
structure QueueInst where
  /-- The option that was seen, `.rfq` or `.smemq`. -/
  kind : QueueKind
  /-- `m_wasp_rfq_load` or `m_smemq_load`; otherwise the instruction is a move. -/
  load : Bool
  /-- The number of the queue operand. -/
  queueId : Nat
  /-- The vector specifier is `.v3`. -/
  v3 : Bool
  /-- The destination of a move is a vector. -/
  vectorDst : Bool := true
  /-- `cache_op`. -/
  cacheOp : CacheOp := .all
  deriving DecidableEq, Repr

/-- The payload width that the decoder stores. -/
def QueueInst.payloadWordsPerLane (inst : QueueInst) : Nat := if inst.v3 then 3 else 1

/-- The width that the queue functions use, where a stored 0 counts as 1. -/
def QueueInst.payloadWords (inst : QueueInst) : Nat := orDefault inst.payloadWordsPerLane 1

/-- The stored width is never 0, so the queue functions use it as it is. -/
theorem QueueInst.payloadWords_eq (inst : QueueInst) :
    inst.payloadWords = inst.payloadWordsPerLane := by
  unfold payloadWords payloadWordsPerLane
  cases inst.v3 <;> rfl

/-- A lane has one to three words. -/
theorem QueueInst.payloadWords_le (inst : QueueInst) :
    0 < inst.payloadWords ∧ inst.payloadWords ≤ 3 := by
  unfold payloadWords payloadWordsPerLane
  cases inst.v3 <;> decide

/-- The part of `warp_inst_t` that the queue mechanism uses. -/
structure WarpInst extends QueueInst where
  /-- `m_uid`. -/
  uid : Nat
  /-- `m_warp_id`. -/
  warpId : Nat
  /-- `m_warp_active_mask`. -/
  activeMask : ActiveMask
  tokenValid : Bool := false
  tokenCtaHwId : Nat := 0
  tokenOriginalWarpId : Nat := 0
  tokenSlotIndex : Nat := 0
  tokenSequence : Nat := 0
  /-- The accesses still in `m_accessq`. -/
  accessqCount : Nat := 0
  deriving DecidableEq, Repr

namespace WarpInst

/-- `wasp_rfq_token_from_inst` and `smemq_token_from_inst`. -/
def tokenFromInst (inst : WarpInst) : Token where
  key := { ctaHwId := inst.tokenCtaHwId, originalWarpId := inst.tokenOriginalWarpId,
           srcStageId := 0, dstStageId := 1, queueId := inst.queueId }
  slotIndex := inst.tokenSlotIndex
  sequence := inst.tokenSequence
  payloadWordsPerLane := inst.payloadWordsPerLane
  valid := inst.tokenValid

/-- `wasp_rfq_write_token_to_inst` and `smemq_write_token_to_inst`. -/
def writeTokenToInst (inst : WarpInst) (token : Token) : WarpInst :=
  { inst with
    tokenValid := token.valid
    tokenCtaHwId := token.key.ctaHwId
    tokenOriginalWarpId := token.key.originalWarpId
    tokenSlotIndex := token.slotIndex
    tokenSequence := token.sequence }

/-- The token read from an instruction is the one written to it, when it names a
queue of the two stages and has the width of the instruction. -/
theorem tokenFromInst_writeTokenToInst {inst : WarpInst} {token : Token}
    (hqueue : token.key.queueId = inst.queueId) (hsrc : token.key.srcStageId = 0)
    (hdst : token.key.dstStageId = 1)
    (hwidth : token.payloadWordsPerLane = inst.payloadWordsPerLane) :
    (inst.writeTokenToInst token).tokenFromInst = token := by
  obtain ⟨⟨cta, warp, src, dst, queue⟩, slot, seq, width, valid⟩ := token
  obtain rfl : src = 0 := hsrc
  obtain rfl : dst = 1 := hdst
  obtain rfl : queue = inst.queueId := hqueue
  obtain rfl : width = inst.payloadWordsPerLane := hwidth
  rfl

end WarpInst
end WaspSim
