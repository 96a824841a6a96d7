import WaspSim.Occupancy.Allocation

/-!
# The two admission tests

`max_cta` counts in closed form how many CTAs of a kernel a core can hold. The
test for concurrent kernels admits one CTA after another against running sums and
a search for free threads. For a footprint of 32 bits an empty core admits exactly
as many CTAs as `max_cta` counts.
-/

namespace WaspSim

namespace OccupancyConfig

variable {cfg : OccupancyConfig} {k : KernelInfo} {limits : CtaLimits} {n : Nat}

/-- An accepted charge of the RFQ is the exact one in 32 bits. -/
theorem rfqRegs_of_ok (h : cfg.waspRfqRegsPerCta k = .ok n) : n = u32 (cfg.exactRfqRegs k) := by
  unfold waspRfqRegsPerCta at h
  unfold exactRfqRegs
  cases hcounts : cfg.countsRfq with
  | true =>
    rw [hcounts] at h
    exact exact_of_ok cfg k h
  | false =>
    rw [hcounts] at h
    exact (pure_eq_ok.mp h).symm

/-- An accepted charge of SMEMQ is the exact one in 32 bits. -/
theorem smemqBytes_of_ok (h : cfg.smemqSharedBytesPerCta k = .ok n) :
    n = u32 (cfg.exactSmemqBytes k) := by
  unfold smemqSharedBytesPerCta at h
  unfold exactSmemqBytes
  cases henabled : cfg.smemq.enable with
  | true =>
    rw [henabled] at h
    exact exact_of_ok cfg k h
  | false =>
    rw [henabled] at h
    exact (pure_eq_ok.mp h).symm

/-- The register count of a CTA in 32 bits. -/
theorem usedRegs_eq (cfg : OccupancyConfig) (k : KernelInfo) :
    u32 (u32 (cfg.paddedCtaSize k * roundup4 k.regs) + u32 (cfg.exactRfqRegs k)) =
      u32 (cfg.footprint k).regs := by
  rw [cfg.paddedCtaSize_eq, u32_u32_mul, u32_u32_add, u32_add_u32]
  rfl

/-- An accepted count of producers leaves a consumer. -/
theorem leavesConsumer_of_ok {o : QueueOptions} (h : cfg.producerWarpsPerCta k o = .ok n) :
    cfg.LeavesConsumer k o := by
  unfold producerWarpsPerCta at h
  by_cases hpos : 0 < o.metadataProducerWarpsPerCta
  · simp only [hpos, ↓reduceIte, bind_eq_ok, require_eq_ok] at h
    obtain ⟨_, hlt, _⟩ := h
    exact .inr hlt
  · exact .inl (by omega)

/-- Where `max_cta` counts, it accepts the metadata that a CTA is charged by. -/
theorem charges_of_ctaLimits (h : cfg.ctaLimits k = .ok limits) : cfg.Charges k := by
  simp only [ctaLimits, bind_eq_ok, require_eq_ok] at h
  obtain ⟨_, hexclusive, _, _, _, hsmemq, _, hrfq, _⟩ := h
  constructor
  · exact hexclusive
  · intro hcounts
    unfold waspRfqRegsPerCta entriesPerCta at hrfq
    rw [if_pos hcounts, bind_eq_ok] at hrfq
    obtain ⟨_, hproducers, _⟩ := hrfq
    exact leavesConsumer_of_ok hproducers
  · intro henabled
    unfold smemqSharedBytesPerCta entriesPerCta at hsmemq
    rw [if_pos henabled, bind_eq_ok] at hsmemq
    obtain ⟨_, hproducers, _⟩ := hsmemq
    exact leavesConsumer_of_ok hproducers

end OccupancyConfig

namespace Residency

open OccupancyConfig (Fits)

variable {cfg : CoreConfig} {s s' : Residency} {k : KernelInfo} {limits : CtaLimits} {n r : Nat}

/-- The 32-bit tests of the counters against a footprint succeed. -/
structure Room (cfg : CoreConfig) (s : Residency) (fp : Footprint) : Prop where
  threads : u32 (s.occupiedNThreads + fp.threads) ≤ cfg.nThreadPerShader
  smem : u32 (s.occupiedShmem + fp.smem) ≤ cfg.gpgpuShmemSize
  regs : u32 (s.occupiedRegs + fp.regs) ≤ cfg.gpgpuShaderRegisters
  ctas : u32 (s.occupiedCtas + 1) ≤ cfg.maxCtaPerCore

instance (fp : Footprint) : Decidable (Room cfg s fp) :=
  decidable_of_iff (u32 (s.occupiedNThreads + fp.threads) ≤ cfg.nThreadPerShader ∧
      u32 (s.occupiedShmem + fp.smem) ≤ cfg.gpgpuShmemSize ∧
      u32 (s.occupiedRegs + fp.regs) ≤ cfg.gpgpuShaderRegisters ∧
      u32 (s.occupiedCtas + 1) ≤ cfg.maxCtaPerCore)
    ⟨fun ⟨hthreads, hsmem, hregs, hctas⟩ => ⟨hthreads, hsmem, hregs, hctas⟩,
      fun h => ⟨h.threads, h.smem, h.regs, h.ctas⟩⟩

/-- The counters with one footprint more. -/
def occupied (s : Residency) (fp : Footprint) : Residency :=
  { s with
    occupiedNThreads := u32 (s.occupiedNThreads + fp.threads)
    occupiedShmem := u32 (s.occupiedShmem + fp.smem)
    occupiedRegs := u32 (s.occupiedRegs + fp.regs)
    occupiedCtas := u32 (s.occupiedCtas + 1) }

/-- Without threads to spare no CTA is occupied. -/
theorem occupyShaderResource1block_full
    (h : cfg.nThreadPerShader < u32 (s.occupiedNThreads + (cfg.footprint k).threads)) :
    occupyShaderResource1block cfg s k true = .ok (s, false) := by
  have hpadded : u32 (s.occupiedNThreads + cfg.paddedCtaSize k) =
      u32 (s.occupiedNThreads + (cfg.footprint k).threads) := by
    rw [cfg.paddedCtaSize_eq, u32_add_u32]
    rfl
  simp only [occupyShaderResource1block, hpadded, h, ↓reduceIte]
  rfl

/-- With free threads a CTA is occupied exactly when its footprint has room. -/
theorem occupyShaderResource1block_eq (hcharges : cfg.Charges k)
    (hfound : findAvailableHwtid cfg s (cfg.paddedCtaSize k) = .ok (some r)) :
    occupyShaderResource1block cfg s k true =
      .ok (if Room cfg s (cfg.footprint k) then (s.occupied (cfg.footprint k), true)
        else (s, false)) := by
  have hthreads : u32 (s.occupiedNThreads + cfg.paddedCtaSize k) =
      u32 (s.occupiedNThreads + (cfg.footprint k).threads) := by
    rw [cfg.paddedCtaSize_eq, u32_add_u32]
    rfl
  have hsmem : u32 (s.occupiedShmem + k.smem + u32 (cfg.exactSmemqBytes k)) =
      u32 (s.occupiedShmem + (cfg.footprint k).smem) := by
    rw [u32_add_u32, Nat.add_assoc]
    rfl
  have hsum : u32 (s.occupiedShmem + u32 (k.smem + u32 (cfg.exactSmemqBytes k))) =
      u32 (s.occupiedShmem + (cfg.footprint k).smem) := by
    rw [u32_add_u32, ← Nat.add_assoc, hsmem]
  have hregs : u32 (s.occupiedRegs + u32 (cfg.footprint k).regs) =
      u32 (s.occupiedRegs + (cfg.footprint k).regs) := u32_add_u32 _ _
  simp only [occupyShaderResource1block, hfound, OccupancyConfig.waspRfqRegsPerCta_eq hcharges,
    OccupancyConfig.smemqSharedBytesPerCta_eq hcharges, bind, Except.bind, Option.isNone_some,
    Bool.false_eq_true, OccupancyConfig.usedRegs_eq, hthreads, hsmem, hsum, hregs, ↓reduceIte]
  split
  · rename_i hfull
    rw [if_neg fun hroom : Room cfg s _ => absurd hroom.threads (by omega)]
    rfl
  split
  · rename_i hfull
    rw [if_neg fun hroom : Room cfg s _ => absurd hroom.smem (by omega)]
    rfl
  split
  · rename_i hfull
    rw [if_neg fun hroom : Room cfg s _ => absurd hroom.regs (by omega)]
    rfl
  split
  · rename_i hfull
    rw [if_neg fun hroom : Room cfg s _ => absurd hroom.ctas (by omega)]
    rfl
  · rw [if_pos ⟨by omega, by omega, by omega, by omega⟩]
    rfl

/-- `occupy_shader_resource_1block(k, true)` followed by
`find_available_hwtid(padded, true)`, when both succeed. -/
def admitOne (cfg : CoreConfig) (k : KernelInfo) (s : Residency) :
    Except Halt (Option Residency) := do
  let (s, ok) ← occupyShaderResource1block cfg s k true
  if ok then
    let found ← findAvailableHwtid cfg s (cfg.paddedCtaSize k)
    pure (found.map fun start => s.setHwtid start (cfg.paddedCtaSize k))
  else pure none

/-- `n` admissions, one after another while they succeed. -/
def admitTimes (cfg : CoreConfig) (k : KernelInfo) (s : Residency) :
    Nat → Except Halt (Option Residency)
  | 0 => pure (some s)
  | n + 1 => do
    let o ← admitTimes cfg k s n
    match o with
    | none => pure none
    | some s => admitOne cfg k s

/-- A core after `n` admissions. -/
def admitted (fp : Footprint) (v n : Nat) : Residency :=
  { empty v with
    occupiedNThreads := n * fp.threads
    occupiedShmem := n * fp.smem
    occupiedRegs := n * fp.regs
    occupiedCtas := n
    occupiedHwtid := fun t => decide (t < n * fp.threads) }

/-- A counter below 2^31 that holds `n` equal demands takes one more without a wrap. -/
private theorem u32_succ_mul {n demand capacity : Nat} (hdemand : demand < 2 ^ 32)
    (hcapacity : capacity < 2 ^ 31) (h : n * demand ≤ capacity) :
    u32 (n * demand + demand) = (n + 1) * demand := by
  rw [Nat.succ_mul]
  apply u32_eq_self
  cases n with
  | zero => simpa using hdemand
  | succ n =>
    have hone : demand ≤ (n + 1) * demand := Nat.le_mul_of_pos_left _ (Nat.succ_pos n)
    omega

/-- The capacities of a core are below 2^31. -/
structure Below31 (caps : Capacities) : Prop where
  threads : caps.nThreadPerShader < 2 ^ 31
  regs : caps.gpgpuShaderRegisters < 2 ^ 31
  smem : caps.gpgpuShmemSize < 2 ^ 31
  ctas : caps.maxCtaPerCore < 2 ^ 31

/-- The tests of a core with `n` CTAs succeed exactly when one more fits. -/
private theorem room_admitted_iff (hfp : (cfg.footprint k).Unwrapped)
    (hcaps : Below31 cfg.toCapacities) (v : Nat)
    (hfits : Fits cfg.toCapacities (cfg.footprint k) n) :
    Room cfg (admitted (cfg.footprint k) v n) (cfg.footprint k) ↔
      Fits cfg.toCapacities (cfg.footprint k) (n + 1) := by
  have hthreads := u32_succ_mul hfp.threads hcaps.threads hfits.threads
  have hsmem := u32_succ_mul hfp.smem hcaps.smem hfits.smem
  have hregs := u32_succ_mul hfp.regs hcaps.regs hfits.regs
  have hctas : u32 (n + 1) = n + 1 := by
    have hle := hfits.ctas
    have hlt := hcaps.ctas
    exact u32_eq_self (by omega)
  constructor
  · intro h
    exact ⟨hthreads ▸ h.threads, hregs ▸ h.regs, hsmem ▸ h.smem, hctas ▸ h.ctas⟩
  · intro h
    exact ⟨hthreads.trans_le h.threads, hsmem.trans_le h.smem, hregs.trans_le h.regs,
      hctas.trans_le h.ctas⟩

/-- When one more CTA fits the threads, the search finds the range after the last one. -/
private theorem findAvailableHwtid_admitted (hfp : (cfg.footprint k).Unwrapped) (v : Nat)
    (hthreads : (n + 1) * (cfg.footprint k).threads ≤ cfg.nThreadPerShader) :
    findAvailableHwtid cfg (admitted (cfg.footprint k) v n) (cfg.paddedCtaSize k) =
      .ok (some (n * (cfg.footprint k).threads)) := by
  have hpadded : cfg.paddedCtaSize k = (cfg.footprint k).threads := by
    rw [cfg.paddedCtaSize_eq]
    exact u32_eq_self hfp.threads
  rw [hpadded]
  exact firstFit_prefix OccupancyConfig.threads_pos hthreads cfg.nThreadPerShader_le
    (Nat.le_refl _)

/-- The counters and the bits of one CTA more. -/
private theorem setHwtid_occupied_admitted (hfp : (cfg.footprint k).Unwrapped)
    (hcaps : Below31 cfg.toCapacities) (v : Nat)
    (hfits : Fits cfg.toCapacities (cfg.footprint k) n) :
    ((admitted (cfg.footprint k) v n).occupied (cfg.footprint k)).setHwtid
        (n * (cfg.footprint k).threads) (cfg.footprint k).threads =
      admitted (cfg.footprint k) v (n + 1) := by
  have hctas : u32 (n + 1) = n + 1 := by
    have hle := hfits.ctas
    have hlt := hcaps.ctas
    exact u32_eq_self (by omega)
  unfold setHwtid occupied admitted
  simp only [u32_succ_mul hfp.threads hcaps.threads hfits.threads,
    u32_succ_mul hfp.smem hcaps.smem hfits.smem, u32_succ_mul hfp.regs hcaps.regs hfits.regs,
    hctas, mk.injEq, true_and, and_true]
  funext t
  rw [Nat.succ_mul]
  by_cases hnew : n * (cfg.footprint k).threads ≤ t ∧
      t < n * (cfg.footprint k).threads + (cfg.footprint k).threads
  · rw [if_pos hnew, decide_eq_true hnew.2]
  · rw [if_neg hnew]
    exact decide_eq_decide.mpr (by omega)

/-- A core with `n` CTAs admits another one exactly when one more fits. -/
theorem admit_admitted (hcharges : cfg.Charges k) (hfp : (cfg.footprint k).Unwrapped)
    (hcaps : Below31 cfg.toCapacities) (v : Nat)
    (hfits : Fits cfg.toCapacities (cfg.footprint k) n) :
    (Fits cfg.toCapacities (cfg.footprint k) (n + 1) ∧
        admitOne cfg k (admitted (cfg.footprint k) v n) =
          .ok (some (admitted (cfg.footprint k) v (n + 1)))) ∨
      ¬Fits cfg.toCapacities (cfg.footprint k) (n + 1) ∧
        admitOne cfg k (admitted (cfg.footprint k) v n) = .ok none := by
  have hroom := room_admitted_iff hfp hcaps v hfits
  by_cases hthreads : (n + 1) * (cfg.footprint k).threads ≤ cfg.nThreadPerShader
  · have hfound := findAvailableHwtid_admitted hfp v hthreads
    have hoccupy := occupyShaderResource1block_eq hcharges hfound
    by_cases hnext : Fits cfg.toCapacities (cfg.footprint k) (n + 1)
    · left
      refine ⟨hnext, ?_⟩
      rw [if_pos (hroom.mpr hnext)] at hoccupy
      have hpadded : cfg.paddedCtaSize k = (cfg.footprint k).threads := by
        rw [cfg.paddedCtaSize_eq]
        exact u32_eq_self hfp.threads
      -- the counters do not matter for the search
      have hfound' : findAvailableHwtid cfg
          ((admitted (cfg.footprint k) v n).occupied (cfg.footprint k)) (cfg.paddedCtaSize k) =
          .ok (some (n * (cfg.footprint k).threads)) := hfound
      simp only [admitOne, hoccupy, hfound', bind, Except.bind, pure, Except.pure, ↓reduceIte,
        Option.map_some]
      rw [hpadded, setHwtid_occupied_admitted hfp hcaps v hfits]
    · right
      refine ⟨hnext, ?_⟩
      rw [if_neg fun h => hnext (hroom.mp h)] at hoccupy
      simp [admitOne, hoccupy, bind, Except.bind, pure, Except.pure]
  · right
    refine ⟨fun h => hthreads h.threads, ?_⟩
    have hfull : cfg.nThreadPerShader <
        u32 ((admitted (cfg.footprint k) v n).occupiedNThreads + (cfg.footprint k).threads) := by
      have heq := u32_succ_mul hfp.threads hcaps.threads hfits.threads
      change _ < u32 (n * _ + _)
      omega
    simp [admitOne, occupyShaderResource1block_full hfull, bind, Except.bind, pure, Except.pure]

/-- For a footprint of 32 bits and capacities below 2^31, an empty core admits exactly as
many CTAs, one after another, as `max_cta` counts. -/
theorem admitTimes_iff_le_ctaLimits (h : cfg.ctaLimits k = .ok limits)
    (hfp : (cfg.footprint k).Unwrapped) (hcaps : Below31 cfg.toCapacities) (v n : Nat) :
    ∃ o, admitTimes cfg k (empty v) n = .ok o ∧ (o.isSome = true ↔ n ≤ limits.result) := by
  have hcharges := OccupancyConfig.charges_of_ctaLimits h
  have hcount : ∀ n, n ≤ limits.result ↔ Fits cfg.toCapacities (cfg.footprint k) n := by
    intro n
    rw [OccupancyConfig.ctaLimits_eq hcharges (OccupancyConfig.padded_pos_of_ctaLimits h),
      Except.ok.injEq] at h
    rw [← h, hfp.wrapped_eq]
    exact OccupancyConfig.le_countFor_iff OccupancyConfig.threads_pos
  -- up to the count the core is the one with `n` CTAs, beyond it no admission succeeds
  suffices hall : (n ≤ limits.result ∧
      admitTimes cfg k (empty v) n = .ok (some (admitted (cfg.footprint k) v n))) ∨
      ¬n ≤ limits.result ∧ admitTimes cfg k (empty v) n = .ok none by
    rcases hall with ⟨hle, hrun⟩ | ⟨hgt, hrun⟩
    · exact ⟨_, hrun, by simp [hle]⟩
    · exact ⟨_, hrun, by simp [hgt]⟩
  induction n with
  | zero =>
    left
    refine ⟨Nat.zero_le _, ?_⟩
    simp [admitTimes, admitted, empty, pure, Except.pure]
  | succ n ih =>
    unfold admitTimes
    rcases ih with ⟨hle, hrun⟩ | ⟨hgt, hrun⟩
    · rw [hrun, hcount]
      exact admit_admitted hcharges hfp hcaps v ((hcount n).mp hle)
    · right
      refine ⟨by omega, ?_⟩
      rw [hrun]
      rfl

/-- A core with the capacities and options of `OccupancyConfig.sample`. -/
def sampleCore (concurrent : Bool) (entries : Nat) : CoreConfig where
  toOccupancyConfig := .sample entries
  gpgpuConcurrentKernelSm := concurrent
  numShader := 1
  nThreadPerShader_le := Nat.le_refl 2048
  warpSize_dvd := ⟨64, rfl⟩

theorem admitTimes_three :
    ∃ o, admitTimes (sampleCore true 32) OccupancyConfig.sampleKernel (empty 0) 3 = .ok o ∧
      o.isSome = true := by
  have hlimits : (sampleCore true 32).ctaLimits OccupancyConfig.sampleKernel = .ok ⟨3, 8, 3⟩ := by
    decide +kernel
  obtain ⟨o, hrun, hsome⟩ := admitTimes_iff_le_ctaLimits hlimits
    ⟨by decide, by decide, by decide⟩ ⟨by decide, by decide, by decide, by decide⟩ 0 3
  exact ⟨o, hrun, hsome.mpr (by decide)⟩

end Residency
end WaspSim
