import Mathlib.Algebra.Ring.Nat
import Mathlib.Data.List.AList
import WaspSim.Core.Checked

/-!
# Queue state

`wasp_rfq` and `smemq` are one class written twice, under the two names; `Queue`
is that class. Fields are C++ `unsigned`, kept here as natural numbers; the
places where the 32-bit width can show reduce by `u32`.
-/

namespace WaspSim

/-- The value of an `unsigned` computation. -/
def u32 (n : Nat) : Nat := n % 2 ^ 32

theorem u32_eq_self {n : Nat} (h : n < 2 ^ 32) : u32 n = n := Nat.mod_eq_of_lt h

theorem u32_lt (n : Nat) : u32 n < 2 ^ 32 := Nat.mod_lt _ (by decide)

theorem u32_succ (n : Nat) : u32 (u32 n + 1) = u32 (n + 1) := by
  simp [u32]

theorem u32_u32_add (a b : Nat) : u32 (u32 a + b) = u32 (a + b) := by
  simp [u32]

theorem u32_add_right {a b : Nat} (h : u32 a = u32 b) (k : Nat) : u32 (a + k) = u32 (b + k) := by
  rw [← u32_u32_add, h, u32_u32_add]

/-- The C++ choice `n ? n : d`. -/
def orDefault (n d : Nat) : Nat := if n = 0 then d else n

theorem orDefault_pos {n d : Nat} (hd : 0 < d) : 0 < orDefault n d := by
  unfold orDefault
  split
  · exact hd
  · rename_i hn
    exact Nat.pos_of_ne_zero hn

@[simp] theorem orDefault_zero (d : Nat) : orDefault 0 d = d := rfl

theorem orDefault_of_pos {n d : Nat} (hn : 0 < n) : orDefault n d = n := by
  simp [orDefault, Nat.ne_of_gt hn]

/-- The assertions of the modelled code, each stopping the simulator, and the mark
of an action that a state does not offer. -/
inductive Halt where
  /-- `configure` found another entry count, payload width or warp size. -/
  | reconfigured
  /-- `configure` was given a zero size. -/
  | zeroSize
  /-- `reserve_tail` on a queue that was never configured. -/
  | notConfigured
  /-- `reserve_tail` on a full queue. -/
  | queueFull
  /-- `reserve_tail` found its slot occupied. -/
  | slotNotFree
  /-- `consume_head` on an empty queue. -/
  | queueEmpty
  /-- The head was read or consumed before it was ready. -/
  | headNotReady
  /-- `entry_for_token` was given a token that was never filled in. -/
  | tokenInvalid
  /-- `entry_for_token` was given a slot beyond the ring. -/
  | slotOutOfRange
  /-- `entry_for_token` found another sequence number in the slot. -/
  | staleToken
  /-- `mark_response` found a free slot. -/
  | entryFree
  /-- `mark_response` found no response outstanding. -/
  | noResponseDue
  /-- A lane beyond the warp. -/
  | laneOutOfRange
  /-- A payload word beyond the width of the entry. -/
  | wordOutOfRange
  /-- A vector was indexed beyond its end. -/
  | indexOutOfRange
  /-- A queue that must exist is not in the table. -/
  | noQueue
  /-- A queue instruction reached a core whose queue mechanism is off. -/
  | queueDisabled
  /-- A warp number beyond `m_warp`. -/
  | warpOutOfRange
  /-- The metadata leaves a CTA without consumer warps. -/
  | noConsumerWarp
  /-- RFQ and SMEMQ are enabled together. -/
  | bothQueuesEnabled
  /-- A division by a zero CTA size. -/
  | divideByZero
  /-- More resident CTAs than `MAX_CTA_PER_SHADER`. -/
  | tooManyCtas
  /-- A kernel requires more resources than the core has. -/
  | tooFewResources
  /-- The resources that `can_issue_1block` found could not be occupied. -/
  | notOccupied
  /-- `issue_block2core` found no free CTA context. -/
  | noCtaSlot
  /-- A hardware CTA slot that still names a thread range. -/
  | slotNotErased
  /-- More resources would be released than are occupied. -/
  | occupancyUnderflow
  /-- `register_cta_thread_exit` on a CTA without threads. -/
  | ctaEmpty
  /-- `dec_inst_in_pipeline` on an idle warp. -/
  | pipelineEmpty
  /-- A warp was reset with stores or instructions still in flight. -/
  | warpBusy
  /-- `get_free` found every register taken. -/
  | noFreeRegister
  /-- A warp at a barrier whose CTA has none. -/
  | noBarrier
  /-- The i-buffer names an instruction but marks its slot empty. -/
  | ibufferInvalid
  /-- An instruction is issued for a warp without instructions in the pipeline. -/
  | notInPipeline
  /-- The two CDP fields of a warp contradict each other. -/
  | cdpState
  /-- A specialized unit beyond `m_specialized_unit`. -/
  | noSpecializedUnit
  /-- A two-level scheduler promoted another number of warps than it demoted. -/
  | unbalancedPromotion
  /-- `get_addr` on an instruction of which no lane has set an address. -/
  | noAddress
  /-- No shared-memory option holds the CTAs of a kernel. -/
  | noSharedOption
  /-- The action is not one the hardware can take in this state. -/
  | disabled
  deriving DecidableEq, Repr

/-- `active_mask_t`, a bit for each of the `MAX_WARP_SIZE` lanes. -/
abbrev ActiveMask := BitVec 32

/-- `wasp_rfq_key` and `smemq_key`. -/
structure QueueKey where
  ctaHwId : Nat := 0
  originalWarpId : Nat := 0
  srcStageId : Nat := 0
  dstStageId : Nat := 1
  queueId : Nat := 0
  deriving DecidableEq, Repr

/-- `operator<` of the keys, the order of the map that holds the queues. -/
def QueueKey.lt (a b : QueueKey) : Bool :=
  if a.ctaHwId ≠ b.ctaHwId then a.ctaHwId < b.ctaHwId
  else if a.originalWarpId ≠ b.originalWarpId then a.originalWarpId < b.originalWarpId
  else if a.srcStageId ≠ b.srcStageId then a.srcStageId < b.srcStageId
  else if a.dstStageId ≠ b.dstStageId then a.dstStageId < b.dstStageId
  else a.queueId < b.queueId

/-- `wasp_rfq_token` and `smemq_token`: the slot a load reserved. -/
structure Token where
  key : QueueKey := {}
  slotIndex : Nat := 0
  sequence : Nat := 0
  payloadWordsPerLane : Nat := 0
  valid : Bool := false
  deriving DecidableEq, Repr

/-- `entry_state`. -/
inductive EntryState where
  | free
  | reserved
  | ready
  deriving DecidableEq, Repr

/-- `entry`: one slot of the ring. -/
structure Entry where
  state : EntryState := .free
  sequence : Nat := 0
  pendingResponses : Nat := 0
  payloadWordsPerLane : Nat := 0
  activeMask : ActiveMask := 0
  lanePayload : List (BitVec 64) := []
  deriving DecidableEq, Repr

/-- `wasp_rfq` and `smemq`, as constructed. -/
structure Queue where
  entries : Nat := 0
  payloadWordsPerLane : Nat := 0
  warpSize : Nat := 0
  head : Nat := 0
  tail : Nat := 0
  occupancy : Nat := 0
  nextSequence : Nat := 1
  storage : List Entry := []
  deriving DecidableEq, Repr

/-- The map behind `wasp_rfq_table` and `smemq_table`. -/
abbrev QueueTable := AList fun _ : QueueKey => Queue

/-- `wasp_rfq`. -/
abbrev WaspRfq := Queue

/-- `smemq`. -/
abbrev Smemq := Queue

/-- `wasp_rfq_table`. -/
abbrev WaspRfqTable := AList fun _ : QueueKey => WaspRfq

/-- `smemq_table`. -/
abbrev SmemqTable := AList fun _ : QueueKey => Smemq

/-- Keys that the map's order does not separate are equal, so the map finds a
queue under exactly the key it was stored with. -/
theorem QueueKey.eq_of_not_lt {a b : QueueKey} (hab : a.lt b = false) (hba : b.lt a = false) :
    a = b := by
  obtain ⟨a₁, a₂, a₃, a₄, a₅⟩ := a
  obtain ⟨b₁, b₂, b₃, b₄, b₅⟩ := b
  simp only [QueueKey.lt] at hab hba
  grind

end WaspSim
