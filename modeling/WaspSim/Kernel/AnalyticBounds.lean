import WaspSim.Kernel.AnalyticOccupancy

/-!
# The bounds of the analytic model

The predicted time is not shorter than what computing and memory traffic take at their
effective rates, so neither rate is exceeded, and the one that names the bottleneck is
reached. All this and the bounds of the occupancy hold just for the kernels of which one
CTA fits an SM, where the waves outweigh the drain.
-/

namespace WaspSim
namespace StreamModel

/-- The rates stay within the effective ones, and the bottleneck is exhausted. -/
structure Prediction.Physical (p : Prediction) : Prop where
  tops_le : p.predictedTops ≤ p.effectiveFpuTops
  dramUtilization_le : p.effectiveDramUtilizationPct ≤ 100
  compute_eq : p.bottleneck = .compute → p.predictedTops = p.effectiveFpuTops
  dram_eq : p.bottleneck = .dram → p.effectiveDramUtilizationPct = 100

/-- How the times and rates of a prediction depend on each other. -/
structure Prediction.Rates (p : Prediction) : Prop where
  ops_pos : 0 < p.ops
  fpuTops_pos : 0 < p.effectiveFpuTops
  dramBw_pos : 0 < p.effectiveDramBwGbps
  computeTime_eq : p.computeTimeS = p.ops / (p.effectiveFpuTops * 1000000000000)
  dramTime_eq : p.dramTimeS = p.modelDramBytes / (p.effectiveDramBwGbps * 1000000000)
  time_eq : p.predictedTimeS = max p.computeTimeS p.dramTimeS
  tops_eq : p.predictedTops = p.ops / p.predictedTimeS / 1000000000000
  dramUtilization_eq : p.effectiveDramUtilizationPct =
    p.modelDramBytes / p.predictedTimeS / 1000000000 / p.effectiveDramBwGbps * 100
  bottleneck_eq : p.bottleneck = if p.dramTimeS ≤ p.computeTimeS then .compute else .dram

/-- What the model predicts is possible on the hardware. -/
def Physical (pow : ℚ → ℚ → ℚ) (kernel : KernelParams) (hw : HardwareParams)
    (resources? : Option KernelResources) (resources : KernelResources) : Prop :=
  ∃ o p, predictOccupancy kernel hw resources = .ok o ∧ o.Physical kernel hw resources ∧
    predict pow kernel hw resources? = .ok p ∧ p.occupancy = o ∧ p.Physical

/-- No more CTAs fit one SM. -/
structure LargestFit (kernel : KernelParams) (hw : HardwareParams) (resources : KernelResources)
    (ctas : ℤ) : Prop where
  pos : 1 ≤ ctas
  fits : Fits kernel hw resources ctas
  largest : ∀ more, ctas < more → ¬Fits kernel hw resources more

/-- One CTA fits, the waves outweigh the drain, and the kernel moves bytes. -/
structure Feasible (kernel : KernelParams) (hw : HardwareParams) (resources : KernelResources) :
    Prop where
  fits : Fits kernel hw resources 1
  sharedMem : 0 ≤ resources.sharedMemBytesPerCta ∨ ¬Fits kernel hw resources 2
  drains : ∀ ctas, LargestFit kernel hw resources ctas →
    0 < wavesOf kernel hw ctas + hw.waveDrainWaves
  bytes : hw.dramBytesPerElement ≠ 0

variable {pow : ℚ → ℚ → ℚ} {kernel : KernelParams} {hw : HardwareParams}
  {resources? : Option KernelResources} {resources : KernelResources} {o : OccupancyPrediction}
  {p : Prediction}

/-- A guarded quotient. -/
theorem guarded_ok {c : Prop} [Decidable c] {x y : ℚ} (h : c → y ≠ 0) :
    (if c then trueDiv x y else pure 0) = .ok (if c then x / y else 0) := by
  split
  · rename_i hguard
    exact trueDiv_eq_ok.mpr ⟨h hguard, rfl⟩
  · rfl

/-- A guarded percentage. -/
theorem guarded_pct_ok {c : Prop} [Decidable c] {x y : ℚ} (h : c → y ≠ 0) :
    (if c then (· * 100) <$> trueDiv x y else pure 0) = .ok (if c then x / y * 100 else 0) := by
  split
  · rename_i hguard
    rw [map_eq_ok]
    exact ⟨x / y, trueDiv_eq_ok.mpr ⟨h hguard, rfl⟩, rfl⟩
  · rfl

/-- The scheduler part always has an answer. -/
theorem predictScheduler_ok (hmemory : kernel.memoryIters ∈ supportedMemoryIters)
    (computeTimeS dramTimeS predictedTimeS : ℚ) :
    ∃ s, predictScheduler pow kernel hw o computeTimeS dramTimeS predictedTimeS = .ok s := by
  have hlog : mathLog2 kernel.memoryIters = .ok (Nat.log2 kernel.memoryIters.toNat) := by
    simp [mathLog2, memoryIters_pos hmemory]
  have hcast : ∀ {k : ℤ}, k ≠ 0 → (k : ℚ) ≠ 0 := fun h => Int.cast_ne_zero.mpr h
  simp only [predictScheduler, bind_eq_ok, pure_eq_ok]
  exact ⟨_, _, guarded_ok fun h => h.ne', _, hlog, _, guarded_ok hcast, _, guarded_pct_ok hcast,
    rfl⟩

/-- The utilization of the effective bandwidth over a positive time. -/
theorem predictDramBwUtilization_ok {modelDramBytes predictedTimeS effective : ℚ}
    (htime : 0 < predictedTimeS) (heffective : effective ≠ 0) :
    ∃ u, predictDramBwUtilization modelDramBytes predictedTimeS hw effective = .ok u ∧
      u.2.2 = modelDramBytes / predictedTimeS / 1000000000 / effective * 100 := by
  unfold predictDramBwUtilization
  rw [if_neg htime.not_ge]
  simp only [bind_eq_ok, pure_eq_ok]
  refine ⟨_, ⟨_, trueDiv_eq_ok.mpr ⟨htime.ne', rfl⟩, _, guarded_pct_ok id, _, guarded_pct_ok id,
    rfl⟩, ?_⟩
  exact if_pos heffective

/-- A prediction holds the predicted occupancy, and the kernel moves bytes. -/
theorem of_predict (hres : resourcesFor kernel resources? = .ok resources)
    (h : predict pow kernel hw resources? = .ok p) :
    predictOccupancy kernel hw resources = .ok p.occupancy ∧ hw.dramBytesPerElement ≠ 0 := by
  simp only [predict, hres, bind_eq_ok, Except.ok.injEq, exists_eq_left', trueDiv_eq_ok,
    pure_eq_ok] at h
  obtain ⟨-, -, -, -, o, ho, -, -, -, -, -, -, -, -, -, -, -, -, -, -, -, ⟨hbytes, -⟩, rfl⟩ := h
  exact ⟨ho, right_ne_zero_of_mul hbytes⟩

/-- The work of a kernel is positive. -/
theorem ops_pos (hk : kernel.Valid) : (0 : ℚ) < kernel.n * (6 * kernel.computeIters + 2) := by
  have hn : (0 : ℚ) < kernel.n := Int.cast_pos.mpr hk.n_pos
  have hcompute : (0 : ℚ) ≤ kernel.computeIters := Int.cast_nonneg hk.computeIters_nonneg
  positivity

/-- On a predicted occupancy with active warps there is a prediction. -/
theorem predict_ok (hk : kernel.Valid) (hhw : hw.Admissible)
    (hres : resourcesFor kernel resources? = .ok resources)
    (ho : predictOccupancy kernel hw resources = .ok o)
    (hactive : 0 < o.estimatedActiveWarpsPerSm) (hbytes : hw.dramBytesPerElement ≠ 0) :
    ∃ p, predict pow kernel hw resources? = .ok p ∧ p.occupancy = o ∧ p.Rates := by
  obtain ⟨m, hm, -⟩ := predictMapping_ok hk hhw.warpSize_eq
  have hn : (kernel.n : ℚ) ≠ 0 := Int.cast_ne_zero.mpr hk.n_pos.ne'
  have hops := ops_pos hk
  have hfpu : 0 < hw.fpuTops * hw.computeEfficiency :=
    mul_pos hhw.fpuTops_pos hhw.computeEfficiency.1
  have hscale : 0 < min 1 (o.estimatedActiveWarpsPerSm / hw.warpsForFullDramBw) :=
    lt_min one_pos (div_pos hactive hhw.warpsForFullDramBw_pos)
  have hdram : 0 < hw.dramBwGbps * hw.dramEfficiency *
      min 1 (o.estimatedActiveWarpsPerSm / hw.warpsForFullDramBw) :=
    mul_pos (mul_pos hhw.dramBwGbps_pos hhw.dramEfficiency.1) hscale
  have hcomputeTime : 0 < (kernel.n * (6 * kernel.computeIters + 2) : ℚ) /
      (hw.fpuTops * hw.computeEfficiency * 1000000000000) := by positivity
  have htime : ∀ dramTimeS : ℚ, 0 < max ((kernel.n * (6 * kernel.computeIters + 2) : ℚ) /
      (hw.fpuTops * hw.computeEfficiency * 1000000000000)) dramTimeS :=
    fun _ => lt_max_of_lt_left hcomputeTime
  obtain ⟨s, hs⟩ := @predictScheduler_ok pow kernel hw o hk.memoryIters_mem
    (kernel.n * (6 * kernel.computeIters + 2) /
      (hw.fpuTops * hw.computeEfficiency * 1000000000000))
    (kernel.n * hw.dramBytesPerElement / (hw.dramBwGbps * hw.dramEfficiency *
      min 1 (o.estimatedActiveWarpsPerSm / hw.warpsForFullDramBw) * 1000000000)) _
  obtain ⟨u, hu, hutil⟩ := @predictDramBwUtilization_ok hw (kernel.n * hw.dramBytesPerElement) _ _
    (htime (kernel.n * hw.dramBytesPerElement / (hw.dramBwGbps * hw.dramEfficiency *
      min 1 (o.estimatedActiveWarpsPerSm / hw.warpsForFullDramBw) * 1000000000))) hdram.ne'
  simp only [predict, hres, hm, ho, bind_eq_ok, Except.ok.injEq, exists_eq_left', trueDiv_eq_ok,
    pure_eq_ok, validate_eq_ok]
  refine ⟨_, ⟨(), hk, _, ⟨hhw.warpsForFullDramBw_pos.ne', rfl⟩, _, ⟨by positivity, rfl⟩, _,
    ⟨by positivity, rfl⟩, _, ⟨(htime _).ne', rfl⟩, _, hs, _, hu, _, ⟨by positivity, rfl⟩, _,
    ⟨mul_ne_zero hn hbytes, rfl⟩, rfl⟩, rfl, ?_⟩
  exact ⟨hops, hfpu, hdram, rfl, rfl, rfl, rfl, hutil, rfl⟩

/-- Rates that depend on each other so are physical: the time is not shorter than either
part takes at its effective rate. -/
theorem Prediction.Rates.physical (h : p.Rates) : p.Physical := by
  have hfpu : 0 < p.effectiveFpuTops * 1000000000000 := mul_pos h.fpuTops_pos (by norm_num)
  have hdram : 0 < p.effectiveDramBwGbps * 1000000000 := mul_pos h.dramBw_pos (by norm_num)
  have hcompute : 0 < p.computeTimeS := by
    rw [h.computeTime_eq]
    exact div_pos h.ops_pos hfpu
  have hcomputeLe : p.ops / (p.effectiveFpuTops * 1000000000000) ≤ p.predictedTimeS := by
    rw [← h.computeTime_eq, h.time_eq]
    exact le_max_left _ _
  have hdramLe : p.modelDramBytes / (p.effectiveDramBwGbps * 1000000000) ≤ p.predictedTimeS := by
    rw [← h.dramTime_eq, h.time_eq]
    exact le_max_right _ _
  have htime : 0 < p.predictedTimeS := by
    rw [h.time_eq]
    exact lt_max_of_lt_left hcompute
  have hutil : ∀ rate : ℚ, p.modelDramBytes / p.predictedTimeS = rate →
      p.effectiveDramUtilizationPct = rate / (p.effectiveDramBwGbps * 1000000000) * 100 := by
    rintro rate rfl
    rw [h.dramUtilization_eq, div_div _ (1000000000 : ℚ), mul_comm (1000000000 : ℚ)]
  constructor
  · rw [h.tops_eq, div_le_iff₀ (by norm_num)]
    exact (div_le_comm₀ hfpu htime).mp hcomputeLe
  · have hrate := (div_le_comm₀ hdram htime).mp hdramLe
    rw [hutil _ rfl]
    have hshare := (div_le_one hdram).mpr hrate
    linarith
  · intro hbottleneck
    have hmax : p.predictedTimeS = p.computeTimeS := by
      rw [h.time_eq, max_eq_left]
      by_contra hle
      rw [h.bottleneck_eq, if_neg hle] at hbottleneck
      cases hbottleneck
    rw [h.tops_eq, hmax, h.computeTime_eq, div_div_cancel₀ h.ops_pos.ne']
    exact mul_div_cancel_right₀ _ (by norm_num)
  · intro hbottleneck
    have hlt : p.computeTimeS < p.dramTimeS := by
      by_contra hle
      rw [h.bottleneck_eq, if_pos (not_lt.mp hle)] at hbottleneck
      cases hbottleneck
    have hbytes : p.modelDramBytes ≠ 0 := by
      intro hzero
      rw [h.dramTime_eq, hzero, zero_div] at hlt
      exact hlt.not_gt hcompute
    have hmax : p.predictedTimeS = p.dramTimeS := by rw [h.time_eq, max_eq_right hlt.le]
    have hrate : p.modelDramBytes / p.predictedTimeS = p.effectiveDramBwGbps * 1000000000 := by
      rw [hmax, h.dramTime_eq, div_div_cancel₀ hbytes]
    rw [hutil _ hrate, div_self hdram.ne', one_mul]

/-- The hardware without efficiencies is admissible. -/
theorem makePeakRooflineHardware_admissible (h : hw.Admissible) :
    (makePeakRooflineHardware hw).Admissible where
  warpSize_eq := h.warpSize_eq
  smCount_pos := h.smCount_pos
  fpuTops_pos := h.fpuTops_pos
  dramBwGbps_pos := h.dramBwGbps_pos
  maxWarpsPerSm_pos := h.maxWarpsPerSm_pos
  maxCtasPerSm_pos := h.maxCtasPerSm_pos
  registersPerSm_pos := h.registersPerSm_pos
  sharedMemBytesPerSm_pos := h.sharedMemBytesPerSm_pos
  warpsForFullDramBw_pos := one_pos
  computeEfficiency := ⟨one_pos, le_rfl⟩
  dramEfficiency := ⟨one_pos, le_rfl⟩
  occupancyEfficiencyCap := ⟨one_pos, le_rfl⟩

/-- Without the efficiencies a kernel is feasible where its CTAs fit the hardware. -/
theorem feasible_makePeakRooflineHardware (hk : kernel.Valid) (hhw : hw.Admissible)
    (hshared : 0 ≤ resources.sharedMemBytesPerCta) :
    Feasible kernel (makePeakRooflineHardware hw) resources ↔ Fits kernel hw resources 1 := by
  constructor
  · intro h
    exact ⟨h.fits.ctas_le, h.fits.warps_le, h.fits.registers_le, h.fits.sharedMem_le⟩
  · intro h
    refine ⟨⟨h.ctas_le, h.warps_le, h.registers_le, h.sharedMem_le⟩, .inl hshared, ?_, ?_⟩
    · intro ctas hctas
      exact add_pos_of_pos_of_nonneg (wavesOf_pos hk hhw.smCount_pos hctas.pos) le_rfl
    · exact OfNat.ofNat_ne_zero 16

/-- The model stays physical exactly for feasible kernels. -/
theorem physical_iff_feasible (pow : ℚ → ℚ → ℚ) (hvalid : kernel.validate = .ok ())
    (hhw : hw.Admissible)
    (hregs : 0 < resources.registersPerThread)
    (hres : resourcesFor kernel resources? = .ok resources) :
    Physical pow kernel hw resources? resources ↔ Feasible kernel hw resources := by
  have hk := validate_eq_ok.mp hvalid
  constructor
  · rintro ⟨o, p, ho, hphysical, hp, -, -⟩
    rcases @predictOccupancy_cases kernel hw resources hk hhw with
      ⟨-, hraise⟩ | ⟨-, o', ho', hcomputed⟩
    · rw [hraise] at ho
      cases ho
    · rw [ho] at ho'
      cases ho'
      obtain ⟨⟨hone, hshared⟩, hdrains⟩ := (hcomputed.physical_iff hk hhw hregs).mp hphysical
      refine ⟨hone, hshared, ?_, (of_predict hres hp).2⟩
      intro ctas hctas
      have hunique : ctas = o.residentCtasPerSm := by
        rcases lt_trichotomy ctas o.residentCtasPerSm with hlt | heq | hlt
        · exact absurd hphysical.fits (hctas.largest _ hlt)
        · exact heq
        · exact absurd hctas.fits (hphysical.largest _ hlt)
      rw [hunique]
      exact hdrains
  · intro hfeasible
    have hresident := (resident_largest_iff hk hhw hregs).mpr
      ⟨hfeasible.fits, hfeasible.sharedMem⟩
    have hdrains := hfeasible.drains _ ⟨Int.le_max_left _ _, hresident.1, hresident.2⟩
    rcases @predictOccupancy_cases kernel hw resources hk hhw with
      ⟨hzero, -⟩ | ⟨-, o, ho, hcomputed⟩
    · exact absurd hzero hdrains.ne'
    · rw [← hcomputed.resident_eq] at hdrains
      have hphysical := (hcomputed.physical_iff hk hhw hregs).mpr
        ⟨⟨hfeasible.fits, hfeasible.sharedMem⟩, hdrains⟩
      have hactive : 0 < o.estimatedActiveWarpsPerSm := by
        rw [hcomputed.active_eq]
        exact mul_pos hphysical.achieved_pos (Int.cast_pos.mpr hhw.maxWarpsPerSm_pos)
      obtain ⟨p, hp, hpo, hrates⟩ := @predict_ok pow kernel hw resources? resources o hk hhw hres ho
        hactive hfeasible.bytes
      exact ⟨o, p, ho, hphysical, hp, hpo, hrates.physical⟩

/-- The default kernel on the default hardware, but for an exponent whose powers are
rational. -/
theorem physical_at_default :
    Physical (fun x y => x ^ y.floor.toNat) { n := 1032192, computeIters := 16, memoryIters := 4 }
      { eligibleComputeAlpha := 2 } none ⟨36, 0⟩ := by
  have hrounded : rounded 36 8 = 40 := by
    have hround := roundUp_eq 36 8
    have hforty : roundUp 36 8 = .ok 40 := by rfl
    rw [hforty, Except.ok.injEq] at hround
    exact hround.symm
  have hadmissible : HardwareParams.Admissible { eligibleComputeAlpha := 2 } := by
    constructor <;> norm_num
  have hvalid : KernelParams.validate { n := 1032192, computeIters := 16, memoryIters := 4 } =
      .ok () := by rfl
  apply (physical_iff_feasible _ hvalid hadmissible (by decide) (by rfl)).mpr
  constructor
  · constructor
    · decide
    · decide
    · rw [hrounded]
      decide
    · decide
  · exact .inl (Int.le_refl 0)
  · intro ctas hctas
    have hwaves := wavesOf_pos (validate_eq_ok.mp hvalid) hadmissible.smCount_pos hctas.pos
    have hdrain : (0 : ℚ) < 0.25 := by norm_num
    exact add_pos hwaves hdrain
  · norm_num

/-- A CTA of 64 warps is resident on an SM that holds 48. -/
theorem physical_fails_at_2048_threads :
    let kernel : KernelParams :=
      { n := 2048, computeIters := 16, memoryIters := 1, threadsPerCta := 2048 }
    kernel.validate = .ok () ∧ HardwareParams.Admissible {} ∧
      resourcesFor kernel none = .ok ⟨12, 0⟩ ∧
        (predictOccupancy kernel {} ⟨12, 0⟩).map (·.theoreticalOccupancy) = .ok (4 / 3) ∧
          ∀ pow, ¬Physical pow kernel {} none ⟨12, 0⟩ := by
  intro kernel
  have hadmissible : HardwareParams.Admissible {} := by constructor <;> norm_num
  have hoccupancy : (predictOccupancy kernel {} ⟨12, 0⟩).map (·.theoreticalOccupancy) =
      .ok (4 / 3) := by decide +kernel
  refine ⟨by rfl, hadmissible, by rfl, hoccupancy, ?_⟩
  rintro pow ⟨o, p, ho, hphysical, -⟩
  rw [ho] at hoccupancy
  have htheoretical : o.theoreticalOccupancy = 4 / 3 := Except.ok.inj hoccupancy
  have hle := hphysical.theoretical_le
  rw [htheoretical] at hle
  norm_num at hle

end StreamModel
end WaspSim
