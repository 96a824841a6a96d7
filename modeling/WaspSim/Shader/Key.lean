import WaspSim.Shader.State

/-!
# Queue keys

A producer warp and the consumer warp it feeds name their queue by the same key:
the CTA, the number of the original warp and the queue id. Producers are the
first warps of a CTA, and a consumer's original warp is found by subtracting
their number.
-/

namespace WaspSim
namespace Shader

variable {Mem : Type}

/-- The original warp of a CTA's local warp. -/
def originalWarpId (producerWarps localWarp : Nat) : Nat :=
  if localWarp < producerWarps then localWarp else localWarp - producerWarps

/-- `wasp_rfq_key_for_warp` and `smemq_key_for_warp`, which differ in the metadata
they read. -/
def keyForWarp (kind : QueueKind) (cfg : Config) (s : Shader Mem) (warpId queueId : Nat) :
    Except Halt QueueKey := do
  require .warpOutOfRange (warpId < cfg.maxWarpsPerShader)
  let localWarp := warpId % cfg.warpsPerCta
  require .noConsumerWarp (cfg.producerWarps kind < cfg.warpsPerCta)
  pure {
    ctaHwId := (s.warps warpId).ctaId
    originalWarpId := originalWarpId (cfg.producerWarps kind) localWarp
    srcStageId := 0
    dstStageId := 1
    queueId }

/-- `wasp_rfq_key_for_warp`. -/
def waspRfqKeyForWarp (cfg : Config) (s : Shader Mem) := keyForWarp .rfq cfg s

/-- `smemq_key_for_warp`. -/
def smemqKeyForWarp (cfg : Config) (s : Shader Mem) := keyForWarp .smemq cfg s

/-- The key of a warp that passes the assertions. -/
theorem keyForWarp_eq_ok {kind : QueueKind} {cfg : Config} {s : Shader Mem}
    {warpId queueId : Nat} {key : QueueKey} :
    keyForWarp kind cfg s warpId queueId = .ok key ↔
      warpId < cfg.maxWarpsPerShader ∧ cfg.producerWarps kind < cfg.warpsPerCta ∧
      key = ⟨(s.warps warpId).ctaId,
        originalWarpId (cfg.producerWarps kind) (warpId % cfg.warpsPerCta), 0, 1, queueId⟩ := by
  simp only [keyForWarp, bind_eq_ok, require_eq_ok, pure_eq_ok]
  constructor
  · rintro ⟨_, hwarp, _, hprod, rfl⟩
    exact ⟨hwarp, hprod, rfl⟩
  · rintro ⟨hwarp, hprod, rfl⟩
    exact ⟨(), hwarp, (), hprod, rfl⟩

/-- `is_wasp_producer_warp` of the scheduler, which reads the metadata of whichever
mechanism is enabled. -/
def isWaspProducerWarp (cfg : Config) (warpId : Nat) : Except Halt Bool := do
  let producerWarps :=
    if cfg.smemqEnabled ∧ cfg.smemq.metadataProducerWarpsPerCta ≠ 0 then
      cfg.smemq.metadataProducerWarpsPerCta
    else if cfg.waspRfqEnabled ∧ cfg.rfq.metadataProducerWarpsPerCta ≠ 0 then
      cfg.rfq.metadataProducerWarpsPerCta
    else cfg.warpsPerCta / 2
  let producerWarps := orDefault producerWarps 1
  require .noConsumerWarp (producerWarps < cfg.warpsPerCta)
  pure (warpId % cfg.warpsPerCta < producerWarps)

/-- The scheduler and the keys agree on the producers when one mechanism is enabled. -/
theorem isWaspProducerWarp_eq {kind : QueueKind} {cfg : Config}
    (henabled : ∀ kind', cfg.enabled kind' = true ↔ kind' = kind) (warpId : Nat) :
    isWaspProducerWarp cfg warpId =
      (require .noConsumerWarp (cfg.producerWarps kind < cfg.warpsPerCta) >>= fun _ =>
        pure (decide (warpId % cfg.warpsPerCta < cfg.producerWarps kind))) := by
  have hrfq := henabled .rfq
  have hsmemq := henabled .smemq
  simp only [Config.enabled] at hrfq hsmemq
  unfold isWaspProducerWarp Config.producerWarps
  cases kind with
  | rfq =>
    by_cases hzero : cfg.rfq.metadataProducerWarpsPerCta = 0
    · simp [hrfq, hsmemq, hzero, Config.options]
    · simp [hrfq, hsmemq, hzero, Config.options, orDefault]
  | smemq =>
    by_cases hzero : cfg.smemq.metadataProducerWarpsPerCta = 0
    · simp [hrfq, hsmemq, hzero, Config.options]
    · simp [hsmemq, hzero, Config.options, orDefault]

end Shader
end WaspSim
