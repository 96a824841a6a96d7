import WaspSim.Shader.Config

/-!
# The footprint of a CTA

What a CTA takes of a core: padded threads, registers with the RFQ entries, and
shared memory with the SMEMQ entries. The simulator computes it in 32 bits; the
exact footprint is the same sums and products without a width.
-/

namespace WaspSim

theorem u32_u32_mul (a b : Nat) : u32 (u32 a * b) = u32 (a * b) := by
  simp [u32, Nat.mul_mod]

theorem u32_add_u32 (a b : Nat) : u32 (a + u32 b) = u32 (a + b) := by
  simp [u32]

/-- What a core offers its CTAs. -/
structure Capacities where
  /-- `n_thread_per_shader`. -/
  nThreadPerShader : Nat
  /-- `gpgpu_shader_registers`. -/
  gpgpuShaderRegisters : Nat
  /-- `gpgpu_shmem_size`. -/
  gpgpuShmemSize : Nat
  /-- `max_cta_per_core`. -/
  maxCtaPerCore : Nat
  nThreadPerShader_lt : nThreadPerShader < 2 ^ 32
  gpgpuShaderRegisters_lt : gpgpuShaderRegisters < 2 ^ 32
  gpgpuShmemSize_lt : gpgpuShmemSize < 2 ^ 32
  maxCtaPerCore_lt : maxCtaPerCore < 2 ^ 32

/-- The options that `shader_core_config` reads for the occupancy of a core. -/
structure OccupancyConfig extends Capacities where
  /-- `warp_size`. -/
  warpSize : Nat
  warpSize_pos : 0 < warpSize
  /-- `gpgpu_wasp_enable`. -/
  gpgpuWaspEnable : Bool
  rfq : QueueOptions
  /-- `gpgpu_wasp_rfq_count_register_pressure`. -/
  countRegisterPressure : Bool := true
  smemq : QueueOptions

/-- The needs of a kernel. -/
structure KernelInfo where
  /-- `threads_per_cta`. -/
  threadsPerCta : Nat
  /-- `smem`, an `int`. -/
  smem : Nat
  /-- `regs`, an `int` that the rounding up does not leave. -/
  regs : Nat
  threadsPerCta_pos : 0 < threadsPerCta
  threadsPerCta_lt : threadsPerCta < 2 ^ 32
  smem_lt : smem < 2 ^ 31
  regs_lt : regs + 3 < 2 ^ 31

/-- `wasp_rfq_payload_words_per_lane` and `smemq_payload_words_per_lane`. -/
def QueueOptions.payloadWordsPerLane (o : QueueOptions) : Nat :=
  orDefault o.metadataPayloadWordsPerLane 1

/-- `wasp_rfq_queues_per_original_warp` and `smemq_queues_per_original_warp`. -/
def QueueOptions.queuesPerOriginalWarp (o : QueueOptions) : Nat :=
  orDefault o.metadataQueuesPerOriginalWarp 1

/-- A register count rounded up to a multiple of 4, `(regs + 3) & ~3`. -/
def roundup4 (regs : Nat) : Nat := (regs + 3) / 4 * 4

namespace OccupancyConfig

variable (cfg : OccupancyConfig) (k : KernelInfo)

/-- `padded_cta_size`. -/
def paddedCtaSize : Nat :=
  if k.threadsPerCta % cfg.warpSize ≠ 0 then
    u32 ((k.threadsPerCta / cfg.warpSize + 1) * cfg.warpSize)
  else k.threadsPerCta

/-- `wasp_rfq_producer_warps_per_cta` and `smemq_producer_warps_per_cta`. -/
def producerWarpsPerCta (o : QueueOptions) : Except Halt Nat := do
  let warpsPerCta := cfg.paddedCtaSize k / cfg.warpSize
  if 0 < o.metadataProducerWarpsPerCta then
    require .noConsumerWarp (o.metadataProducerWarpsPerCta < warpsPerCta)
    pure o.metadataProducerWarpsPerCta
  else pure (orDefault (warpsPerCta / 2) 1)

/-- The entries of a CTA's queues at `unit` for each word. -/
def entriesPerCta (o : QueueOptions) (unit : Nat) : Except Halt Nat := do
  let producers ← cfg.producerWarpsPerCta k o
  pure (u32 (producers * o.queuesPerOriginalWarp * o.entries * o.payloadWordsPerLane *
    cfg.warpSize * unit))

/-- RFQ entries count as registers. -/
def countsRfq : Bool := cfg.gpgpuWaspEnable && cfg.rfq.enable && cfg.countRegisterPressure

/-- `wasp_rfq_regs_per_cta`. -/
def waspRfqRegsPerCta : Except Halt Nat :=
  if cfg.countsRfq then cfg.entriesPerCta k cfg.rfq 1 else pure 0

/-- `smemq_shared_bytes_per_cta`. -/
def smemqSharedBytesPerCta : Except Halt Nat :=
  if cfg.smemq.enable then cfg.entriesPerCta k cfg.smemq 4 else pure 0

/-- The producers that a CTA is charged for. -/
def producers (o : QueueOptions) : Nat :=
  orDefault o.metadataProducerWarpsPerCta (orDefault (cfg.paddedCtaSize k / cfg.warpSize / 2) 1)

/-- The metadata leaves a CTA at least one consumer warp. -/
def LeavesConsumer (o : QueueOptions) : Prop :=
  o.metadataProducerWarpsPerCta = 0 ∨
    o.metadataProducerWarpsPerCta < cfg.paddedCtaSize k / cfg.warpSize

/-- The entries of a CTA's queues without a width. -/
def exactEntries (o : QueueOptions) (unit : Nat) : Nat :=
  cfg.producers k o * o.queuesPerOriginalWarp * o.entries * o.payloadWordsPerLane * cfg.warpSize *
    unit

theorem producerWarpsPerCta_eq {o : QueueOptions} (h : cfg.LeavesConsumer k o) :
    cfg.producerWarpsPerCta k o = .ok (cfg.producers k o) := by
  unfold producerWarpsPerCta producers orDefault
  rcases h with hzero | hlt
  · simp [hzero, pure, Except.pure]
  · by_cases hzero : o.metadataProducerWarpsPerCta = 0
    · simp [hzero, pure, Except.pure]
    · simp [hzero, Nat.pos_of_ne_zero hzero, hlt, require, pure, Except.pure, bind, Except.bind]

/-- A CTA is charged for its producers. -/
theorem producers_of_ok {o : QueueOptions} {n : Nat} (h : cfg.producerWarpsPerCta k o = .ok n) :
    n = cfg.producers k o := by
  by_cases hleaves : cfg.LeavesConsumer k o
  · rw [cfg.producerWarpsPerCta_eq k hleaves, Except.ok.injEq] at h
    exact h.symm
  · unfold LeavesConsumer at hleaves
    have hpos : 0 < o.metadataProducerWarpsPerCta := by omega
    simp only [producerWarpsPerCta, hpos, ↓reduceIte, bind_eq_ok, require_eq_ok] at h
    obtain ⟨_, hlt, _⟩ := h
    exact absurd (.inr hlt) hleaves

theorem entriesPerCta_eq {o : QueueOptions} (h : cfg.LeavesConsumer k o) (unit : Nat) :
    cfg.entriesPerCta k o unit = .ok (u32 (cfg.exactEntries k o unit)) := by
  simp [entriesPerCta, cfg.producerWarpsPerCta_eq k h, exactEntries, bind, Except.bind, pure,
    Except.pure]

/-- An accepted charge is the exact one in 32 bits. -/
theorem exact_of_ok {o : QueueOptions} {unit n : Nat} (h : cfg.entriesPerCta k o unit = .ok n) :
    n = u32 (cfg.exactEntries k o unit) := by
  simp only [entriesPerCta, bind_eq_ok, pure_eq_ok] at h
  obtain ⟨p, hp, rfl⟩ := h
  rw [cfg.producers_of_ok k hp]
  rfl

/-- The exact size of a CTA in whole warps. -/
def exactPadded : Nat :=
  if k.threadsPerCta % cfg.warpSize ≠ 0 then (k.threadsPerCta / cfg.warpSize + 1) * cfg.warpSize
  else k.threadsPerCta

theorem paddedCtaSize_eq : cfg.paddedCtaSize k = u32 (cfg.exactPadded k) := by
  unfold paddedCtaSize exactPadded
  split
  · rfl
  · exact (u32_eq_self k.threadsPerCta_lt).symm

/-- The exact register slots of a CTA's RFQ entries. -/
def exactRfqRegs : Nat := if cfg.countsRfq then cfg.exactEntries k cfg.rfq 1 else 0

/-- The exact bytes of a CTA's SMEMQ entries. -/
def exactSmemqBytes : Nat := if cfg.smemq.enable then cfg.exactEntries k cfg.smemq 4 else 0

end OccupancyConfig

/-- What a CTA takes of a core. -/
structure Footprint where
  threads : Nat
  regs : Nat
  smem : Nat
  deriving DecidableEq, Repr

namespace OccupancyConfig

variable (cfg : OccupancyConfig) (k : KernelInfo)

/-- The exact footprint of a CTA. -/
def footprint : Footprint where
  threads := cfg.exactPadded k
  regs := cfg.exactPadded k * roundup4 k.regs + cfg.exactRfqRegs k
  smem := k.smem + cfg.exactSmemqBytes k

/-- The metadata that a CTA is charged by is accepted. -/
structure Charges : Prop where
  exclusive : ¬(cfg.gpgpuWaspEnable = true ∧ cfg.rfq.enable = true ∧ cfg.smemq.enable = true)
  rfq : cfg.countsRfq = true → cfg.LeavesConsumer k cfg.rfq
  smemq : cfg.smemq.enable = true → cfg.LeavesConsumer k cfg.smemq

variable {cfg k}

theorem waspRfqRegsPerCta_eq (h : cfg.Charges k) :
    cfg.waspRfqRegsPerCta k = .ok (u32 (cfg.exactRfqRegs k)) := by
  unfold waspRfqRegsPerCta exactRfqRegs
  split
  · rename_i hcounts
    exact cfg.entriesPerCta_eq k (h.rfq hcounts) 1
  · rfl

theorem smemqSharedBytesPerCta_eq (h : cfg.Charges k) :
    cfg.smemqSharedBytesPerCta k = .ok (u32 (cfg.exactSmemqBytes k)) := by
  unfold smemqSharedBytesPerCta exactSmemqBytes
  split
  · rename_i henabled
    exact cfg.entriesPerCta_eq k (h.smemq henabled) 4
  · rfl

/-- The threads of a CTA are not fewer in whole warps. -/
theorem threads_pos : 0 < (cfg.footprint k).threads := by
  have hpos := k.threadsPerCta_pos
  change 0 < cfg.exactPadded k
  unfold exactPadded
  split
  · exact Nat.mul_pos (Nat.succ_pos _) cfg.warpSize_pos
  · exact hpos

end OccupancyConfig
end WaspSim
