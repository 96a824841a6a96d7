import Mathlib.Data.Nat.Periodic
import WaspSim.Occupancy.Admission
import WaspSim.Shader.Key

/-!
# The producer geometry of a CTA

The occupancy computation, the queue keys and the scheduler each work out how many
warps of a CTA are producers. They agree on every CTA of two warps or more; a CTA
of one warp is charged for a producer that the others do not accept.
-/

namespace WaspSim

namespace OccupancyConfig

variable (cfg : OccupancyConfig) (k : KernelInfo)

/-- The options of one queue kind. -/
def options : QueueKind → QueueOptions
  | .rfq => cfg.rfq
  | .smemq => cfg.smemq

/-- The warps of a CTA. -/
def ctaWarps : Nat := cfg.paddedCtaSize k / cfg.warpSize

/-- `wasp_rfq_metadata_bits_per_cta` and `smemq_metadata_bits_per_cta` of an enabled queue. -/
def metadataBitsPerCta (o : QueueOptions) : Except Halt Nat := do
  let producers ← cfg.producerWarpsPerCta k o
  pure (u32 (producers * o.queuesPerOriginalWarp * 128))

/-- `wasp_rfq_metadata_bits_per_cta`. -/
def waspRfqMetadataBitsPerCta : Except Halt Nat :=
  if cfg.gpgpuWaspEnable && cfg.rfq.enable then cfg.metadataBitsPerCta k cfg.rfq else pure 0

/-- `smemq_metadata_bits_per_cta`. -/
def smemqMetadataBitsPerCta : Except Halt Nat :=
  if cfg.smemq.enable then cfg.metadataBitsPerCta k cfg.smemq else pure 0

/-- The count of `set_max_cta`, with the sizes that it and the report of `max_cta` evaluate. -/
def setMaxCta (numBlocks numShader : Nat) (ignoreResourcesLimitation : Bool) :
    Except Halt Nat := do
  let n ← cfg.maxCta k numBlocks numShader ignoreResourcesLimitation
  let _ ← cfg.waspRfqMetadataBitsPerCta k
  let _ ← cfg.smemqMetadataBitsPerCta k
  pure n

end OccupancyConfig

/-- A core with the options of an occupancy configuration that runs a kernel. -/
structure Config.Runs (core : Config) (cfg : OccupancyConfig) (k : KernelInfo) : Prop where
  /-- `set_max_cta` padded the CTA size. -/
  warps_eq : core.paddedCtaSize / core.warpSize = cfg.ctaWarps k
  gpgpuWaspEnable_eq : core.gpgpuWaspEnable = cfg.gpgpuWaspEnable
  rfq_eq : core.rfq = cfg.rfq
  smemq_eq : core.smemq = cfg.smemq

variable {Mem : Type} {core : Config} {cfg : OccupancyConfig} {k : KernelInfo} {kind : QueueKind}

namespace Shader

/-- The copies of the producer geometry accept the same CTAs and count the same producers. -/
structure GeometryAgrees (Mem : Type) (kind : QueueKind) (core : Config) (cfg : OccupancyConfig)
    (k : KernelInfo) : Prop where
  role_ok_iff : ∀ w, (∃ producer, isWaspProducerWarp core w = .ok producer) ↔
    ∃ n, cfg.producerWarpsPerCta k (cfg.options kind) = .ok n
  key_ok_iff : ∀ (s : Shader Mem) (w queueId : Nat), w < core.maxWarpsPerShader →
    ((∃ key, keyForWarp kind core s w queueId = .ok key) ↔
      ∃ n, cfg.producerWarpsPerCta k (cfg.options kind) = .ok n)
  /-- The warps of a CTA, wherever it starts, that the scheduler takes for producers. -/
  card_eq : ∀ n, cfg.producerWarpsPerCta k (cfg.options kind) = .ok n → ∀ first,
    ((Finset.Ico first (first + cfg.ctaWarps k)).filter
      fun w => isWaspProducerWarp core w = .ok true).card = n
  /-- The split of the keys. -/
  split_eq : ∀ n, cfg.producerWarpsPerCta k (cfg.options kind) = .ok n →
    ∀ (s : Shader Mem) (w queueId : Nat) (key : QueueKey),
      keyForWarp kind core s w queueId = .ok key →
        key.originalWarpId = originalWarpId n (w % cfg.ctaWarps k)

/-- The scheduler accepts a CTA when its producers leave a consumer. -/
theorem isWaspProducerWarp_ok_iff (honly : ∀ kind', core.enabled kind' = true ↔ kind' = kind)
    (w : Nat) :
    (∃ producer, isWaspProducerWarp core w = .ok producer) ↔
      core.producerWarps kind < core.warpsPerCta := by
  rw [isWaspProducerWarp_eq honly]
  simp only [bind_eq_ok, require_eq_ok, pure_eq_ok]
  constructor
  · rintro ⟨_, _, hlt, _⟩
    exact hlt
  · intro hlt
    exact ⟨_, (), hlt, rfl⟩

theorem isWaspProducerWarp_eq_true_iff
    (honly : ∀ kind', core.enabled kind' = true ↔ kind' = kind)
    (hlt : core.producerWarps kind < core.warpsPerCta) (w : Nat) :
    isWaspProducerWarp core w = .ok true ↔ w % core.warpsPerCta < core.producerWarps kind := by
  rw [isWaspProducerWarp_eq honly]
  simp only [bind_eq_ok, require_eq_ok, pure_eq_ok, decide_eq_true_eq]
  constructor
  · rintro ⟨_, _, hw⟩
    exact hw
  · intro hw
    exact ⟨(), hlt, hw⟩

/-- Any window of consecutive warps as long as a CTA holds as many producers. -/
theorem card_producers {warps producers : Nat} (h : producers ≤ warps) (first : Nat) :
    ((Finset.Ico first (first + warps)).filter fun w => w % warps < producers).card =
      producers := by
  have hperiodic : Function.Periodic (fun w => w % warps < producers) warps := by
    intro w
    simp only [Nat.add_mod_right]
  rw [Nat.filter_Ico_card_eq_of_periodic _ _ _ hperiodic, Nat.count_eq_card_filter_range]
  have hrange : (Finset.range warps).filter (fun w => w % warps < producers) =
      Finset.range producers := by
    ext w
    simp only [Finset.mem_filter, Finset.mem_range]
    constructor
    · rintro ⟨hw, hlt⟩
      rwa [Nat.mod_eq_of_lt hw] at hlt
    · intro hlt
      have hw : w < warps := by omega
      exact ⟨hw, by rwa [Nat.mod_eq_of_lt hw]⟩
  rw [hrange, Finset.card_range]

/-- The metadata that a core reads. -/
theorem options_eq (hruns : core.Runs cfg k) (kind : QueueKind) :
    core.options kind = cfg.options kind := by
  cases kind with
  | rfq => exact hruns.rfq_eq
  | smemq => exact hruns.smemq_eq

/-- A CTA of two warps or more has the same producers everywhere. -/
theorem producerWarps_of_two_le (hruns : core.Runs cfg k) (hwarps : 2 ≤ cfg.ctaWarps k) :
    core.warpsPerCta = cfg.ctaWarps k ∧
      core.producerWarps kind = cfg.producers k (cfg.options kind) := by
  have hcta : core.warpsPerCta = cfg.ctaWarps k := by
    unfold Config.warpsPerCta orDefault
    rw [hruns.warps_eq, if_neg (by omega)]
  refine ⟨hcta, ?_⟩
  have hhalf : cfg.ctaWarps k / 2 ≠ 0 := by omega
  unfold Config.producerWarps OccupancyConfig.producers
  rw [hcta, options_eq hruns, ← OccupancyConfig.ctaWarps]
  unfold orDefault
  rw [if_neg hhalf]
  split
  · rfl
  · rfl

/-- A CTA of one warp has no default producer that leaves a consumer, and a size that wraps to
less than a warp is taken for 8 warps by some copies. -/
theorem producerWarps_of_lt_two (hruns : core.Runs cfg k) (hwarps : cfg.ctaWarps k < 2) :
    core.warpsPerCta = (if cfg.ctaWarps k = 0 then 8 else 1) ∧
      core.producerWarps kind = orDefault (cfg.options kind).metadataProducerWarpsPerCta
        (if cfg.ctaWarps k = 0 then 4 else 1) := by
  have hcases : cfg.ctaWarps k = 0 ∨ cfg.ctaWarps k = 1 := by omega
  unfold Config.producerWarps Config.warpsPerCta
  rw [hruns.warps_eq, options_eq hruns]
  unfold orDefault
  rcases hcases with hzero | hone
  · rw [hzero]
    refine ⟨rfl, ?_⟩
    by_cases hmeta : (cfg.options kind).metadataProducerWarpsPerCta = 0
    · simp [hmeta]
    · simp [hmeta]
  · rw [hone]
    refine ⟨rfl, ?_⟩
    by_cases hmeta : (cfg.options kind).metadataProducerWarpsPerCta = 0
    · simp [hmeta]
    · simp [hmeta]

end Shader

namespace OccupancyConfig

/-- A CTA has two warps, or the metadata names a number of producers that every copy
rejects. -/
def SafeGeometry (cfg : OccupancyConfig) (k : KernelInfo) (o : QueueOptions) : Prop :=
  2 ≤ cfg.ctaWarps k ∨
    o.metadataProducerWarpsPerCta ≠ 0 ∧
      (cfg.ctaWarps k = 1 ∨ 8 ≤ o.metadataProducerWarpsPerCta)

/-- The occupancy computation accepts metadata that leaves a consumer. -/
theorem producerWarpsPerCta_ok_iff {o : QueueOptions} :
    (∃ n, cfg.producerWarpsPerCta k o = .ok n) ↔ cfg.LeavesConsumer k o := by
  constructor
  · rintro ⟨n, hn⟩
    exact leavesConsumer_of_ok hn
  · intro hleaves
    exact ⟨_, cfg.producerWarpsPerCta_eq k hleaves⟩

/-- A kernel that a core runs has its enabled metadata accepted. -/
theorem leavesConsumer_of_setMaxCta {numBlocks numShader n : Nat} {ignore : Bool}
    (hruns : core.Runs cfg k) (henabled : core.enabled kind = true)
    (h : cfg.setMaxCta k numBlocks numShader ignore = .ok n) :
    cfg.LeavesConsumer k (cfg.options kind) := by
  simp only [setMaxCta, bind_eq_ok] at h
  obtain ⟨_, _, _, hrfq, _, hsmemq, _⟩ := h
  rw [← producerWarpsPerCta_ok_iff]
  cases kind with
  | rfq =>
    have hon : (cfg.gpgpuWaspEnable && cfg.rfq.enable) = true := by
      rw [← hruns.gpgpuWaspEnable_eq, ← hruns.rfq_eq]
      exact henabled
    rw [waspRfqMetadataBitsPerCta, if_pos hon, metadataBitsPerCta, bind_eq_ok] at hrfq
    obtain ⟨producers, hproducers, _⟩ := hrfq
    exact ⟨producers, hproducers⟩
  | smemq =>
    have hon : cfg.smemq.enable = true := by
      rw [← hruns.smemq_eq]
      exact henabled
    rw [smemqMetadataBitsPerCta, if_pos hon, metadataBitsPerCta, bind_eq_ok] at hsmemq
    obtain ⟨producers, hproducers, _⟩ := hsmemq
    exact ⟨producers, hproducers⟩

end OccupancyConfig

namespace Shader

/-- The key functions accept a CTA when its producers leave a consumer. -/
theorem keyForWarp_ok_iff {s : Shader Mem} {w queueId : Nat} (hw : w < core.maxWarpsPerShader) :
    (∃ key, keyForWarp kind core s w queueId = .ok key) ↔
      core.producerWarps kind < core.warpsPerCta := by
  simp only [keyForWarp_eq_ok]
  constructor
  · rintro ⟨_, _, hlt, _⟩
    exact hlt
  · intro hlt
    exact ⟨_, hw, hlt, rfl⟩

/-- A CTA of two warps or more. -/
private theorem geometryAgrees_of_two_le (hruns : core.Runs cfg k)
    (honly : ∀ kind', core.enabled kind' = true ↔ kind' = kind) (hwarps : 2 ≤ cfg.ctaWarps k) :
    GeometryAgrees Mem kind core cfg k := by
  obtain ⟨hcta, hproducers⟩ := @producerWarps_of_two_le core cfg k kind hruns hwarps
  have haccepts : cfg.LeavesConsumer k (cfg.options kind) ↔
      core.producerWarps kind < core.warpsPerCta := by
    rw [hcta, hproducers, OccupancyConfig.LeavesConsumer, OccupancyConfig.producers,
      ← OccupancyConfig.ctaWarps]
    unfold orDefault
    split
    · rename_i hzero
      refine iff_of_true (.inl hzero) ?_
      split
      · omega
      · omega
    · rename_i hmeta
      exact or_iff_right hmeta
  have hcount : ∀ n, cfg.producerWarpsPerCta k (cfg.options kind) = .ok n →
      core.producerWarps kind < core.warpsPerCta ∧ n = core.producerWarps kind := by
    intro n hn
    refine ⟨haccepts.mp (OccupancyConfig.leavesConsumer_of_ok hn), ?_⟩
    rw [hproducers]
    exact cfg.producers_of_ok k hn
  constructor
  · intro w
    rw [isWaspProducerWarp_ok_iff honly, OccupancyConfig.producerWarpsPerCta_ok_iff, haccepts]
  · intro s w queueId hw
    rw [keyForWarp_ok_iff hw, OccupancyConfig.producerWarpsPerCta_ok_iff, haccepts]
  · intro n hn first
    obtain ⟨hlt, rfl⟩ := hcount n hn
    simp only [isWaspProducerWarp_eq_true_iff honly hlt, ← hcta]
    exact card_producers hlt.le first
  · intro n hn s w queueId key hkey
    obtain ⟨_, rfl⟩ := hcount n hn
    obtain ⟨_, _, rfl⟩ := keyForWarp_eq_ok.mp hkey
    rw [← hcta]

/-- A CTA that every copy rejects. -/
private theorem geometryAgrees_of_rejected (hruns : core.Runs cfg k)
    (honly : ∀ kind', core.enabled kind' = true ↔ kind' = kind) (hwarps : cfg.ctaWarps k < 2)
    (hmeta : (cfg.options kind).metadataProducerWarpsPerCta ≠ 0)
    (hmany : cfg.ctaWarps k = 1 ∨ 8 ≤ (cfg.options kind).metadataProducerWarpsPerCta) :
    GeometryAgrees Mem kind core cfg k := by
  obtain ⟨hcta, hproducers⟩ := @producerWarps_of_lt_two core cfg k kind hruns hwarps
  have hnone : ¬∃ n, cfg.producerWarpsPerCta k (cfg.options kind) = .ok n := by
    rw [OccupancyConfig.producerWarpsPerCta_ok_iff, OccupancyConfig.LeavesConsumer,
      ← OccupancyConfig.ctaWarps]
    omega
  have hrejects : ¬core.producerWarps kind < core.warpsPerCta := by
    rw [hcta, hproducers, orDefault, if_neg hmeta]
    split
    · omega
    · omega
  constructor
  · intro w
    rw [isWaspProducerWarp_ok_iff honly]
    exact iff_of_false hrejects hnone
  · intro s w queueId hw
    rw [keyForWarp_ok_iff hw]
    exact iff_of_false hrejects hnone
  · intro n hn
    exact absurd ⟨n, hn⟩ hnone
  · intro n hn
    exact absurd ⟨n, hn⟩ hnone

/-- A geometry on which the copies agree is safe. -/
private theorem GeometryAgrees.safe (hruns : core.Runs cfg k)
    (honly : ∀ kind', core.enabled kind' = true ↔ kind' = kind)
    (h : GeometryAgrees Mem kind core cfg k) : cfg.SafeGeometry k (cfg.options kind) := by
  by_cases hwarps : 2 ≤ cfg.ctaWarps k
  · exact .inl hwarps
  obtain ⟨hcta, hproducers⟩ := @producerWarps_of_lt_two core cfg k kind hruns (by omega)
  have haccepts := h.role_ok_iff 0
  rw [isWaspProducerWarp_ok_iff honly, OccupancyConfig.producerWarpsPerCta_ok_iff,
    OccupancyConfig.LeavesConsumer, ← OccupancyConfig.ctaWarps, hcta, hproducers, orDefault]
    at haccepts
  have hcases : cfg.ctaWarps k = 0 ∨ cfg.ctaWarps k = 1 := by omega
  by_cases hmeta : (cfg.options kind).metadataProducerWarpsPerCta = 0
  · exfalso
    rw [hmeta] at haccepts
    rcases hcases with hzero | hone
    · -- an empty CTA is charged for a producer
      have hok := cfg.producerWarpsPerCta_eq k (o := cfg.options kind) (.inl hmeta)
      have hcard := h.card_eq _ hok 0
      rw [hzero, Nat.add_zero, Finset.Ico_self, Finset.filter_empty, Finset.card_empty,
        OccupancyConfig.producers, ← OccupancyConfig.ctaWarps, hmeta, hzero] at hcard
      cases hcard
    · simp [hone] at haccepts
  · refine .inr ⟨hmeta, hcases.symm.imp id fun hzero => ?_⟩
    rw [if_neg hmeta, hzero] at haccepts
    simp only [↓reduceIte, hmeta, Nat.not_lt_zero, or_self, iff_false, not_lt] at haccepts
    exact haccepts

private theorem sample_honly (threads : Nat) (kind : QueueKind) :
    (Config.sample threads 32).enabled kind = true ↔ kind = .rfq := by
  cases kind with
  | rfq => exact iff_of_true rfl rfl
  | smemq => exact iff_of_false (fun h => by cases h) (fun h => by cases h)

end Shader
end WaspSim
