import WaspSim.Queue.State

/-!
# Configuration

The options of the shader core that the queue mechanism reads, after the option
parser and `init` have accepted them. The two queue kinds have the same options
under two names.
-/

namespace WaspSim

/-- The two queue mechanisms. -/
inductive QueueKind where
  | rfq
  | smemq
  deriving DecidableEq, Repr

/-- The options of one queue mechanism, with the parser's defaults. -/
structure QueueOptions where
  /-- `gpgpu_wasp_rfq_enable` or `gpgpu_smemq_enable`. -/
  enable : Bool := false
  /-- `gpgpu_wasp_rfq_entries` or `gpgpu_smemq_entries`. -/
  entries : Nat := 32
  /-- `gpgpu_wasp_rfq_model_data` or `gpgpu_smemq_model_data`. -/
  modelData : Bool := true
  /-- `gpgpu_wasp_rfq_assert_mask_match` or `gpgpu_smemq_assert_mask_match`, which no
  function reads. -/
  assertMaskMatch : Bool := true
  /-- `wasp_metadata_producer_warps_per_cta` or its SMEMQ twin; 0 asks for the default. -/
  metadataProducerWarpsPerCta : Nat := 0
  /-- `wasp_metadata_queues_per_original_warp` or its SMEMQ twin. -/
  metadataQueuesPerOriginalWarp : Nat := 1
  /-- `wasp_metadata_payload_words_per_lane` or its SMEMQ twin. -/
  metadataPayloadWordsPerLane : Nat := 3
  deriving DecidableEq, Repr

/-- The options of a shader core. -/
structure Config where
  /-- `warp_size`. -/
  warpSize : Nat
  warpSize_pos : 0 < warpSize
  /-- A warp instruction asserts `warp_size <= MAX_WARP_SIZE`. -/
  warpSize_le : warpSize ≤ 32
  /-- `max_warps_per_shader`, the length of `m_warp`. -/
  maxWarpsPerShader : Nat
  /-- `gpgpu_wasp_enable`. -/
  gpgpuWaspEnable : Bool
  rfq : QueueOptions
  smemq : QueueOptions
  /-- Whether the core has an L1 data cache at all. -/
  hasL1D : Bool
  /-- `gmem_skip_L1D`. -/
  gmemSkipL1D : Bool
  /-- `l1_latency`. -/
  l1Latency : Nat
  /-- `l1_banks`. -/
  l1Banks : Nat
  /-- `threads_per_cta` of the kernel that the core runs. -/
  threadsPerCta : Nat
  /-- `kernel_max_cta_per_shader`. -/
  kernelMaxCtaPerShader : Nat

namespace Config

/-- The options of one queue kind. -/
def options (cfg : Config) : QueueKind → QueueOptions
  | .rfq => cfg.rfq
  | .smemq => cfg.smemq

/-- `wasp_rfq_enabled`. -/
def waspRfqEnabled (cfg : Config) : Bool := cfg.gpgpuWaspEnable && cfg.rfq.enable

/-- `smemq_enabled`. -/
def smemqEnabled (cfg : Config) : Bool := cfg.smemq.enable

/-- Whether a queue kind is enabled. -/
def enabled (cfg : Config) : QueueKind → Bool
  | .rfq => cfg.waspRfqEnabled
  | .smemq => cfg.smemqEnabled

/-- Lane payloads are stored and read back, not only timed. -/
def modelsData (cfg : Config) (kind : QueueKind) : Bool :=
  cfg.enabled kind && (cfg.options kind).modelData

/-- `padded_cta_size`: the threads of a CTA, rounded up to whole warps. -/
def paddedCtaSize (cfg : Config) : Nat :=
  if cfg.threadsPerCta % cfg.warpSize ≠ 0 then
    (cfg.threadsPerCta / cfg.warpSize + 1) * cfg.warpSize
  else cfg.threadsPerCta

/-- The warps of a CTA as the key functions count them. -/
def warpsPerCta (cfg : Config) : Nat := orDefault (cfg.paddedCtaSize / cfg.warpSize) 8

/-- The producer warps of a CTA as the key functions count them. -/
def producerWarps (cfg : Config) (kind : QueueKind) : Nat :=
  orDefault (orDefault (cfg.options kind).metadataProducerWarpsPerCta (cfg.warpsPerCta / 2)) 1

/-- A CTA has a warp. -/
theorem warpsPerCta_pos (cfg : Config) : 0 < cfg.warpsPerCta := orDefault_pos (by decide)

/-- A CTA has a producer warp. -/
theorem producerWarps_pos (cfg : Config) (kind : QueueKind) : 0 < cfg.producerWarps kind :=
  orDefault_pos (by decide)

/-- A core with room for 16 warps that runs one CTA of a kernel of `threads` threads
a CTA, with queues of the given depth and the default metadata. -/
def sample (threads entries : Nat) : Config where
  warpSize := 32
  warpSize_pos := by decide
  warpSize_le := by decide
  maxWarpsPerShader := 16
  gpgpuWaspEnable := true
  rfq := { enable := true, entries }
  smemq := { enable := false, entries }
  hasL1D := true
  gmemSkipL1D := false
  l1Latency := 1
  l1Banks := 1
  threadsPerCta := threads
  kernelMaxCtaPerShader := 1

end Config
end WaspSim
