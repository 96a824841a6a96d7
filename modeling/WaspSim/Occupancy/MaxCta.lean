import WaspSim.Core.Capacity
import WaspSim.Occupancy.Footprint

/-!
# The number of resident CTAs

`max_cta` takes the smallest of the counts that threads, shared memory, registers
and the CTA limit allow. While the footprint of a CTA fits in 32 bits this is the
greatest number of CTAs whose exact footprints fit the core, and a larger queue
never raises it. A footprint that wraps is taken for a smaller one.
-/

namespace WaspSim

/-- The counts that `max_cta` computes before the clamp by the number of blocks. -/
structure CtaLimits where
  /-- `result`. -/
  result : Nat
  /-- `result_before_rfq`. -/
  resultBeforeRfq : Nat
  /-- `result_before_smemq`. -/
  resultBeforeSmemq : Nat
  deriving DecidableEq, Repr

/-- `(unsigned)-1`, which stands for no limit. -/
def unlimited : Nat := 2 ^ 32 - 1

/-- The smallest of four counts, as `max_cta` takes it. -/
def smallest (thread shmem regs cta : Nat) : Nat := min (min (min thread shmem) regs) cta

/-- A footprint as the simulator holds it. -/
def Footprint.wrapped (fp : Footprint) : Footprint := ⟨u32 fp.threads, u32 fp.regs, u32 fp.smem⟩

/-- Every part of a footprint fits in 32 bits. -/
structure Footprint.Unwrapped (fp : Footprint) : Prop where
  threads : fp.threads < 2 ^ 32
  regs : fp.regs < 2 ^ 32
  smem : fp.smem < 2 ^ 32

theorem Footprint.Unwrapped.wrapped_eq {fp : Footprint} (h : fp.Unwrapped) : fp.wrapped = fp := by
  unfold Footprint.wrapped
  rw [u32_eq_self h.threads, u32_eq_self h.regs, u32_eq_self h.smem]

namespace OccupancyConfig

/-- `max_cta` up to its report, where it has its counts. The report goes on to evaluate the
metadata sizes of the queues and can stop at their assertions; `setMaxCta` does so. -/
def ctaLimits (cfg : OccupancyConfig) (k : KernelInfo) : Except Halt CtaLimits := do
  require .bothQueuesEnabled
    (¬(cfg.gpgpuWaspEnable = true ∧ cfg.rfq.enable = true ∧ cfg.smemq.enable = true))
  let paddedCtaSize := cfg.paddedCtaSize k
  require .divideByZero (0 < paddedCtaSize)
  let resultThread := cfg.nThreadPerShader / paddedCtaSize
  let smemqSharedBytes ← cfg.smemqSharedBytesPerCta k
  let totalSmemPerCta := u32 (k.smem + smemqSharedBytes)
  let resultShmemBeforeSmemq := quota unlimited cfg.gpgpuShmemSize k.smem
  let resultShmem := quota unlimited cfg.gpgpuShmemSize totalSmemPerCta
  let normalRegsPerCta := if 0 < k.regs then u32 (paddedCtaSize * roundup4 k.regs) else 0
  let rfqRegsPerCta ← cfg.waspRfqRegsPerCta k
  let regsPerCta := u32 (normalRegsPerCta + rfqRegsPerCta)
  let resultRegsBeforeRfq := quota unlimited cfg.gpgpuShaderRegisters normalRegsPerCta
  let resultRegs := quota unlimited cfg.gpgpuShaderRegisters regsPerCta
  pure {
    result := smallest resultThread resultShmem resultRegs cfg.maxCtaPerCore
    resultBeforeRfq := smallest resultThread resultShmem resultRegsBeforeRfq cfg.maxCtaPerCore
    resultBeforeSmemq := smallest resultThread resultShmemBeforeSmemq resultRegs cfg.maxCtaPerCore }

/-- The clamp for a grid that does not keep all cores busy. -/
def clampByBlocks (numBlocks numShader result : Nat) : Nat :=
  if numBlocks < u32 (result * numShader) then
    if numBlocks % numShader ≠ 0 then u32 (numBlocks / numShader + 1)
    else u32 (numBlocks / numShader)
  else result

/-- `max_cta`, without the report and the adaptive cache configuration that follows. -/
def maxCta (cfg : OccupancyConfig) (k : KernelInfo) (numBlocks numShader : Nat)
    (ignoreResourcesLimitation : Bool) : Except Halt Nat := do
  let limits ← cfg.ctaLimits k
  let result := clampByBlocks numBlocks numShader limits.result
  require .tooManyCtas (result ≤ 32)
  if result < 1 then
    require .tooFewResources (ignoreResourcesLimitation = true)
    pure 1
  else pure result

/-- `n` CTAs of a footprint are within the capacities of a core. -/
structure Fits (caps : Capacities) (fp : Footprint) (n : Nat) : Prop where
  threads : n * fp.threads ≤ caps.nThreadPerShader
  regs : n * fp.regs ≤ caps.gpgpuShaderRegisters
  smem : n * fp.smem ≤ caps.gpgpuShmemSize
  ctas : n ≤ caps.maxCtaPerCore

variable {cfg cfg₀ : OccupancyConfig} {k : KernelInfo} {limits limits₀ : CtaLimits} {n : Nat}

/-- The count that a footprint allows. -/
def countFor (caps : Capacities) (fp : Footprint) : Nat :=
  smallest (caps.nThreadPerShader / fp.threads) (quota unlimited caps.gpgpuShmemSize fp.smem)
    (quota unlimited caps.gpgpuShaderRegisters fp.regs) caps.maxCtaPerCore

/-- The count is the greatest number of CTAs that fit. -/
theorem le_countFor_iff {caps : Capacities} {fp : Footprint} (hthreads : 0 < fp.threads) :
    n ≤ countFor caps fp ↔ Fits caps fp n := by
  unfold countFor smallest
  rw [Nat.le_min, Nat.le_min, Nat.le_min, Nat.le_div_iff_mul_le hthreads]
  have hmax := caps.maxCtaPerCore_lt
  constructor
  · rintro ⟨⟨⟨hthread, hshmem⟩, hregs⟩, hcta⟩
    have htop : n ≤ unlimited := by
      unfold unlimited
      omega
    exact ⟨hthread, (le_quota_iff htop).mp hregs, (le_quota_iff htop).mp hshmem, hcta⟩
  · intro h
    have hcta := h.ctas
    have htop : n ≤ unlimited := by
      unfold unlimited
      omega
    exact ⟨⟨⟨h.threads, (le_quota_iff htop).mpr h.smem⟩, (le_quota_iff htop).mpr h.regs⟩, hcta⟩

/-- Registers before the RFQ, which has no special case for a kernel without registers. -/
private theorem normalRegs_eq (cfg : OccupancyConfig) (k : KernelInfo) :
    (if 0 < k.regs then u32 (cfg.paddedCtaSize k * roundup4 k.regs) else 0) =
      u32 (cfg.exactPadded k * roundup4 k.regs) := by
  split
  · rw [cfg.paddedCtaSize_eq, u32_u32_mul]
  · rename_i hregs
    have hzero : roundup4 k.regs = 0 := by
      unfold roundup4
      omega
    simp [hzero, u32]

/-- What `max_cta` computes are the counts of wrapped footprints. -/
theorem ctaLimits_eq (h : cfg.Charges k) (hthreads : 0 < u32 (cfg.exactPadded k)) :
    cfg.ctaLimits k = .ok {
      result := countFor cfg.toCapacities ((cfg.footprint k).wrapped)
      resultBeforeRfq := countFor cfg.toCapacities
        ⟨u32 (cfg.exactPadded k), u32 (cfg.exactPadded k * roundup4 k.regs),
          u32 (cfg.footprint k).smem⟩
      resultBeforeSmemq := countFor cfg.toCapacities
        ⟨u32 (cfg.exactPadded k), u32 (cfg.footprint k).regs, k.smem⟩ } := by
  simp only [ctaLimits, require, h.exclusive, not_false_eq_true, ↓reduceIte,
    cfg.paddedCtaSize_eq, hthreads, waspRfqRegsPerCta_eq h, smemqSharedBytesPerCta_eq h, bind,
    Except.bind, pure, Except.pure]
  have hnormal := normalRegs_eq cfg k
  rw [cfg.paddedCtaSize_eq] at hnormal
  simp only [countFor, Footprint.wrapped, footprint, hnormal, u32_u32_add, u32_add_u32]

/-- A count needs a CTA size that is not zero in 32 bits. -/
theorem padded_pos_of_ctaLimits (h : cfg.ctaLimits k = .ok limits) :
    0 < u32 (cfg.exactPadded k) := by
  simp only [ctaLimits, bind_eq_ok, require_eq_ok] at h
  obtain ⟨_, _, _, hpadded, _⟩ := h
  rw [← cfg.paddedCtaSize_eq]
  exact hpadded

/-- The metadata of one configuration asks for no more queue entries than another. -/
structure LowerQueues (cfg₀ cfg : OccupancyConfig) (k : KernelInfo) (o₀ o : QueueOptions) :
    Prop where
  producers : cfg₀.producers k o₀ ≤ cfg.producers k o
  queues : o₀.queuesPerOriginalWarp ≤ o.queuesPerOriginalWarp
  entries : o₀.entries ≤ o.entries
  payload : o₀.payloadWordsPerLane ≤ o.payloadWordsPerLane

/-- A configuration of the same core that enables no more queues and no larger ones. -/
structure Lowers (cfg₀ cfg : OccupancyConfig) (k : KernelInfo) : Prop where
  capacities : cfg₀.toCapacities = cfg.toCapacities
  warpSize : cfg₀.warpSize = cfg.warpSize
  rfq : cfg₀.countsRfq = true → cfg.countsRfq = true ∧ LowerQueues cfg₀ cfg k cfg₀.rfq cfg.rfq
  smemq : cfg₀.smemq.enable = true →
    cfg.smemq.enable = true ∧ LowerQueues cfg₀ cfg k cfg₀.smemq cfg.smemq

/-- Lower queues have fewer entries. -/
private theorem LowerQueues.exactEntries_le {o₀ o : QueueOptions}
    (h : LowerQueues cfg₀ cfg k o₀ o) (hwarp : cfg₀.warpSize = cfg.warpSize) (unit : Nat) :
    cfg₀.exactEntries k o₀ unit ≤ cfg.exactEntries k o unit := by
  unfold exactEntries
  rw [hwarp]
  apply Nat.mul_le_mul_right
  apply Nat.mul_le_mul_right
  exact Nat.mul_le_mul (Nat.mul_le_mul (Nat.mul_le_mul h.producers h.queues) h.entries) h.payload

/-- Lower queues leave a CTA the same threads and no larger footprint. -/
private theorem Lowers.footprint_le (h : Lowers cfg₀ cfg k) :
    (cfg₀.footprint k).threads = (cfg.footprint k).threads ∧
      (cfg₀.footprint k).regs ≤ (cfg.footprint k).regs ∧
      (cfg₀.footprint k).smem ≤ (cfg.footprint k).smem := by
  have hpadded : cfg₀.exactPadded k = cfg.exactPadded k := by
    unfold exactPadded
    rw [h.warpSize]
  refine ⟨hpadded, ?_, ?_⟩
  · change cfg₀.exactPadded k * roundup4 k.regs + cfg₀.exactRfqRegs k ≤
      cfg.exactPadded k * roundup4 k.regs + cfg.exactRfqRegs k
    rw [hpadded]
    apply Nat.add_le_add_left
    unfold exactRfqRegs
    by_cases hcounts : cfg₀.countsRfq = true
    · obtain ⟨hcounts', hlower⟩ := h.rfq hcounts
      rw [if_pos hcounts, if_pos hcounts']
      exact hlower.exactEntries_le h.warpSize 1
    · rw [if_neg hcounts]
      exact Nat.zero_le _
  · apply Nat.add_le_add_left
    unfold exactSmemqBytes
    by_cases henabled : cfg₀.smemq.enable = true
    · obtain ⟨henabled', hlower⟩ := h.smemq henabled
      rw [if_pos henabled, if_pos henabled']
      exact hlower.exactEntries_le h.warpSize 4
    · rw [if_neg henabled]
      exact Nat.zero_le _

/-- The configuration with the RFQ disabled. -/
def withoutRfq (cfg : OccupancyConfig) : OccupancyConfig :=
  { cfg with rfq := { cfg.rfq with enable := false } }

/-- The configuration with SMEMQ disabled. -/
def withoutSmemq (cfg : OccupancyConfig) : OccupancyConfig :=
  { cfg with smemq := { cfg.smemq with enable := false } }

/-- What `max_cta` promises of its counts, in exact arithmetic. -/
structure Exact (cfg : OccupancyConfig) (k : KernelInfo) (limits : CtaLimits) : Prop where
  sound : Fits cfg.toCapacities (cfg.footprint k) limits.result
  maximal : ¬Fits cfg.toCapacities (cfg.footprint k) (limits.result + 1)
  monotone : ∀ cfg₀, Lowers cfg₀ cfg k → cfg₀.Charges k →
    ∃ limits₀, cfg₀.ctaLimits k = .ok limits₀ ∧ limits.result ≤ limits₀.result
  beforeRfq : cfg.gpgpuWaspEnable = true → cfg.rfq.enable = true →
    ∃ limits₀, cfg.withoutRfq.ctaLimits k = .ok limits₀ ∧
      limits₀.result = limits.resultBeforeRfq
  beforeSmemq : cfg.smemq.enable = true →
    ∃ limits₀, cfg.withoutSmemq.ctaLimits k = .ok limits₀ ∧
      limits₀.result = limits.resultBeforeSmemq

/-- The footprint of a CTA fits in 32 bits, or what is left of it there exceeds a
capacity already. -/
def Countable (cfg : OccupancyConfig) (k : KernelInfo) : Prop :=
  0 < u32 (cfg.exactPadded k) ∧
    ((cfg.footprint k).Unwrapped ∨ ¬Fits cfg.toCapacities (cfg.footprint k).wrapped 1)

/-- The count before the RFQ is the count without it. -/
private theorem withoutRfq_eq (h : cfg.Charges k) (hthreads : 0 < u32 (cfg.exactPadded k)) :
    ∃ limits₀, cfg.withoutRfq.ctaLimits k = .ok limits₀ ∧ limits₀.result =
      countFor cfg.toCapacities ⟨u32 (cfg.exactPadded k),
        u32 (cfg.exactPadded k * roundup4 k.regs), u32 (cfg.footprint k).smem⟩ := by
  have hcounts : cfg.withoutRfq.countsRfq = false := by
    simp [countsRfq, withoutRfq]
  have hcharges : cfg.withoutRfq.Charges k := by
    refine ⟨fun hboth => ?_, fun hrfq => ?_, h.smemq⟩
    · exact absurd hboth.2.1 (by simp [withoutRfq])
    · rw [hcounts] at hrfq
      cases hrfq
  have hregs : (cfg.withoutRfq.footprint k).regs = cfg.exactPadded k * roundup4 k.regs := by
    change _ + cfg.withoutRfq.exactRfqRegs k = _
    rw [exactRfqRegs, hcounts]
    rfl
  refine ⟨_, ctaLimits_eq hcharges hthreads, ?_⟩
  simp only [Footprint.wrapped, hregs]
  rfl

/-- The count before SMEMQ is the count without it. -/
private theorem withoutSmemq_eq (h : cfg.Charges k) (hthreads : 0 < u32 (cfg.exactPadded k)) :
    ∃ limits₀, cfg.withoutSmemq.ctaLimits k = .ok limits₀ ∧ limits₀.result =
      countFor cfg.toCapacities
        ⟨u32 (cfg.exactPadded k), u32 (cfg.footprint k).regs, k.smem⟩ := by
  have hcharges : cfg.withoutSmemq.Charges k := by
    refine ⟨fun hboth => ?_, h.rfq, fun hsmemq => ?_⟩
    · exact absurd hboth.2.2 (by simp [withoutSmemq])
    · exact absurd hsmemq (by simp [withoutSmemq])
  have hsmem : u32 (cfg.withoutSmemq.footprint k).smem = k.smem := by
    have hlt := k.smem_lt
    exact u32_eq_self (by change k.smem + 0 < _; omega)
  refine ⟨_, ctaLimits_eq hcharges hthreads, ?_⟩
  simp only [Footprint.wrapped, hsmem]
  rfl

/-- CTAs whose footprint does not fit in 32 bits do not fit the core either. -/
private theorem eq_zero_of_fits {caps : Capacities} {fp : Footprint} (hfits : Fits caps fp n)
    (hwraps : ¬fp.Unwrapped) : n = 0 := by
  by_contra hne
  have hpos : 0 < n := Nat.pos_of_ne_zero hne
  have hword : ∀ {part capacity : Nat}, n * part ≤ capacity → capacity < 2 ^ 32 →
      part < 2 ^ 32 := fun hle hlt =>
    ((Nat.le_mul_of_pos_left _ hpos).trans hle).trans_lt hlt
  exact hwraps ⟨hword hfits.threads caps.nThreadPerShader_lt,
    hword hfits.regs caps.gpgpuShaderRegisters_lt, hword hfits.smem caps.gpgpuShmemSize_lt⟩

/-- A smaller footprint fits as often. -/
private theorem Fits.anti {caps : Capacities} {fp fp' : Footprint} (h : Fits caps fp n)
    (hthreads : fp'.threads ≤ fp.threads) (hregs : fp'.regs ≤ fp.regs)
    (hsmem : fp'.smem ≤ fp.smem) : Fits caps fp' n where
  threads := (Nat.mul_le_mul_left n hthreads).trans h.threads
  regs := (Nat.mul_le_mul_left n hregs).trans h.regs
  smem := (Nat.mul_le_mul_left n hsmem).trans h.smem
  ctas := h.ctas

/-- For a footprint of 32 bits the count is the greatest that fits, and a lower
configuration counts as many. -/
private theorem exact_of_unwrapped (h : cfg.Charges k) (hfp : (cfg.footprint k).Unwrapped)
    (hthreads : 0 < u32 (cfg.exactPadded k)) :
    ∃ limits, cfg.ctaLimits k = .ok limits ∧ Exact cfg k limits := by
  have hcount : ∀ n, n ≤ countFor cfg.toCapacities (cfg.footprint k).wrapped ↔
      Fits cfg.toCapacities (cfg.footprint k) n := by
    intro n
    rw [hfp.wrapped_eq]
    exact le_countFor_iff threads_pos
  refine ⟨_, ctaLimits_eq h hthreads, (hcount _).mp (le_refl _), fun hfits => ?_,
    fun cfg₀ hlower hcharges => ?_, fun _ _ => withoutRfq_eq h hthreads,
    fun _ => withoutSmemq_eq h hthreads⟩
  · exact Nat.not_succ_le_self _ ((hcount _).mpr hfits)
  · obtain ⟨heq, hregs, hsmem⟩ := hlower.footprint_le
    have hfp₀ : (cfg₀.footprint k).Unwrapped :=
      ⟨heq.trans_lt hfp.threads, hregs.trans_lt hfp.regs, hsmem.trans_lt hfp.smem⟩
    have hpadded : cfg₀.exactPadded k = cfg.exactPadded k := heq
    refine ⟨_, ctaLimits_eq hcharges (hpadded ▸ hthreads), ?_⟩
    change countFor cfg.toCapacities _ ≤ countFor cfg₀.toCapacities _
    rw [hlower.capacities, hfp₀.wrapped_eq, le_countFor_iff threads_pos]
    exact ((hcount _).mp (le_refl _)).anti heq.le hregs hsmem

/-- A count of zero is exact when the footprint wraps. -/
private theorem exact_of_zero (h : cfg.Charges k) (hfp : ¬(cfg.footprint k).Unwrapped)
    (hthreads : 0 < u32 (cfg.exactPadded k))
    (hnone : ¬Fits cfg.toCapacities (cfg.footprint k).wrapped 1) :
    ∃ limits, cfg.ctaLimits k = .ok limits ∧ Exact cfg k limits := by
  have hzero : countFor cfg.toCapacities (cfg.footprint k).wrapped = 0 := by
    by_contra hne
    exact hnone ((le_countFor_iff hthreads).mp (Nat.pos_of_ne_zero hne))
  refine ⟨_, ctaLimits_eq h hthreads, ?_, fun hfits => ?_, fun cfg₀ hlower hcharges => ?_,
    fun _ _ => withoutRfq_eq h hthreads, fun _ => withoutSmemq_eq h hthreads⟩
  · rw [hzero]
    exact ⟨by simp, by simp, by simp, Nat.zero_le _⟩
  · cases eq_zero_of_fits hfits hfp
  · have hpadded : cfg₀.exactPadded k = cfg.exactPadded k := hlower.footprint_le.1
    refine ⟨_, ctaLimits_eq hcharges (hpadded ▸ hthreads), ?_⟩
    rw [hzero]
    exact Nat.zero_le _

/-- The counts of `max_cta` are sound, maximal and monotone in exact arithmetic, and its
counts before a queue are those without the queue, exactly when the footprint of a
CTA does not wrap to one that fits. -/
theorem ctaLimits_exact_iff (h : cfg.Charges k) :
    (∃ limits, cfg.ctaLimits k = .ok limits ∧ Exact cfg k limits) ↔ Countable cfg k := by
  constructor
  · rintro ⟨limits, hlimits, hexact⟩
    have hthreads := padded_pos_of_ctaLimits hlimits
    refine ⟨hthreads, ?_⟩
    by_cases hfp : (cfg.footprint k).Unwrapped
    · exact .inl hfp
    · right
      intro hfits
      rw [ctaLimits_eq h hthreads, Except.ok.injEq] at hlimits
      have hzero := eq_zero_of_fits hexact.sound hfp
      have hone := (le_countFor_iff hthreads).mpr hfits
      rw [← hlimits] at hzero
      exact absurd hone (by simp only at hzero; omega)
  · rintro ⟨hthreads, hfp⟩
    by_cases hunwrapped : (cfg.footprint k).Unwrapped
    · exact exact_of_unwrapped h hunwrapped hthreads
    · exact exact_of_zero h hunwrapped hthreads (hfp.resolve_left hunwrapped)

/-- A core with the capacities of the H200 configuration and an RFQ of the given depth. -/
def sample (entries : Nat) : OccupancyConfig where
  nThreadPerShader := 2048
  gpgpuShaderRegisters := 65536
  gpgpuShmemSize := 49152
  maxCtaPerCore := 32
  nThreadPerShader_lt := by decide
  gpgpuShaderRegisters_lt := by decide
  gpgpuShmemSize_lt := by decide
  maxCtaPerCore_lt := by decide
  warpSize := 32
  warpSize_pos := (Config.sample 1 1).warpSize_pos
  gpgpuWaspEnable := true
  rfq := { enable := true, entries }
  smemq := {}

/-- A kernel of 256 threads a CTA with 32 registers each. -/
def sampleKernel : KernelInfo where
  threadsPerCta := 256
  smem := 0
  regs := 32
  threadsPerCta_pos := by decide
  threadsPerCta_lt := by decide
  smem_lt := by decide
  regs_lt := by decide

private theorem sample_charges (entries : Nat) : (sample entries).Charges sampleKernel where
  exclusive := by
    rintro ⟨_, _, hsmemq⟩
    cases hsmemq
  rfq _ := .inl rfl
  smemq hsmemq := by cases hsmemq

theorem ctaLimits_exact_at_depth_32 :
    ∃ limits, (sample 32).ctaLimits sampleKernel = .ok limits ∧
      Exact (sample 32) sampleKernel limits :=
  (ctaLimits_exact_iff (sample_charges 32)).mpr
    ⟨by decide, .inl ⟨by decide, by decide, by decide⟩⟩

/-- At depth 2^27 the RFQ entries of a CTA wrap to no registers at all, so the deeper
queue raises the count beyond what the registers hold. -/
theorem ctaLimits_wraps_at_depth_2_27 :
    (sample 32).ctaLimits sampleKernel = .ok ⟨3, 8, 3⟩ ∧
      (sample (2 ^ 27)).ctaLimits sampleKernel = .ok ⟨8, 8, 8⟩ ∧
      ¬Fits (sample (2 ^ 27)).toCapacities ((sample (2 ^ 27)).footprint sampleKernel) 8 := by
  refine ⟨by decide +kernel, by decide +kernel, fun hfits => ?_⟩
  have hregs := hfits.regs
  revert hregs
  decide +kernel

end OccupancyConfig
end WaspSim
