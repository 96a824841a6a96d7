import Mathlib.Tactic.Positivity
import WaspSim.Core.Capacity
import WaspSim.Kernel.Analytic

/-!
# The occupancy that the analytic model predicts

The resident CTAs are meant to be as many as fit one SM. They are where one CTA fits at
all: the model then takes the smallest of the limits, while it counts one resident CTA
also where none fits. The achieved occupancy is positive as long as the waves that fill
the SMs outweigh the drain.
-/

namespace WaspSim
namespace StreamModel

/-- The parameters that `validate` accepts. -/
structure KernelParams.Valid (k : KernelParams) : Prop where
  n_pos : 0 < k.n
  computeIters_nonneg : 0 ≤ k.computeIters
  memoryIters_mem : k.memoryIters ∈ supportedMemoryIters
  threads_pos : 0 < k.threadsPerCta
  warps : 32 ∣ k.threadsPerCta
  tiles : k.elementsPerCta ∣ k.n

/-- The hardware has 32 threads in a warp, positive limits, and efficiencies that are
shares. -/
structure HardwareParams.Admissible (hw : HardwareParams) : Prop where
  warpSize_eq : hw.warpSize = 32
  smCount_pos : 0 < hw.smCount
  fpuTops_pos : 0 < hw.fpuTops
  dramBwGbps_pos : 0 < hw.dramBwGbps
  maxWarpsPerSm_pos : 0 < hw.maxWarpsPerSm
  maxCtasPerSm_pos : 0 < hw.maxCtasPerSm
  registersPerSm_pos : 0 < hw.registersPerSm
  sharedMemBytesPerSm_pos : 0 < hw.sharedMemBytesPerSm
  warpsForFullDramBw_pos : 0 < hw.warpsForFullDramBw
  computeEfficiency : 0 < hw.computeEfficiency ∧ hw.computeEfficiency ≤ 1
  dramEfficiency : 0 < hw.dramEfficiency ∧ hw.dramEfficiency ≤ 1
  occupancyEfficiencyCap : 0 < hw.occupancyEfficiencyCap ∧ hw.occupancyEfficiencyCap ≤ 1

/-- A number of registers in whole allocation units. -/
def rounded (value unit : ℤ) : ℤ := if 0 < unit then ⌈(value : ℚ) / unit⌉ * unit else value

/-- So many CTAs fit one SM together. -/
structure Fits (kernel : KernelParams) (hw : HardwareParams) (resources : KernelResources)
    (ctas : ℤ) : Prop where
  ctas_le : ctas ≤ hw.maxCtasPerSm
  warps_le : ctas * (kernel.threadsPerCta / hw.warpSize) ≤ hw.maxWarpsPerSm
  registers_le : ctas * (rounded resources.registersPerThread hw.registerAllocUnitPerThread *
    kernel.threadsPerCta) ≤ hw.registersPerSm
  sharedMem_le : ctas * resources.sharedMemBytesPerCta ≤ hw.sharedMemBytesPerSm

/-- The resident CTAs fit one SM and cannot be raised, and the occupancies are shares. -/
structure OccupancyPrediction.Physical (kernel : KernelParams) (hw : HardwareParams)
    (resources : KernelResources) (o : OccupancyPrediction) : Prop where
  fits : Fits kernel hw resources o.residentCtasPerSm
  largest : ∀ ctas, o.residentCtasPerSm < ctas → ¬Fits kernel hw resources ctas
  achieved_pos : 0 < o.estimatedAchievedOccupancy
  achieved_le : o.estimatedAchievedOccupancy ≤ o.theoreticalOccupancy
  theoretical_le : o.theoreticalOccupancy ≤ 1

section

variable {a b : ℤ} {x y : ℚ} {c : ℤ} {z : ℚ}

@[simp] theorem floorDiv_eq_ok : floorDiv a b = .ok c ↔ b ≠ 0 ∧ a.fdiv b = c := by
  simp [floorDiv]

@[simp] theorem floorMod_eq_ok : floorMod a b = .ok c ↔ b ≠ 0 ∧ a.fmod b = c := by
  simp [floorMod]

@[simp] theorem trueDiv_eq_ok : trueDiv x y = .ok z ↔ y ≠ 0 ∧ x / y = z := by
  simp [trueDiv]

end

variable {kernel : KernelParams} {hw : HardwareParams} {resources : KernelResources}
  {mapping : Mapping} {o : OccupancyPrediction}

theorem memoryIters_pos (h : kernel.memoryIters ∈ supportedMemoryIters) :
    0 < kernel.memoryIters := by
  simp only [supportedMemoryIters, List.mem_cons, List.not_mem_nil, or_false] at h
  omega

theorem validate_eq_ok {u : Unit} : kernel.validate = .ok u ↔ kernel.Valid := by
  simp only [KernelParams.validate, bind_eq_ok, require_eq_ok, floorMod_eq_ok]
  constructor
  · rintro ⟨-, hn, -, hcompute, -, hmemory, -, ⟨hthreads, hwarps⟩, rest, ⟨-, hrest⟩, rfl⟩
    have hpos : 0 < kernel.elementsPerCta := Int.mul_pos hthreads (memoryIters_pos hmemory)
    rw [Int.fmod_eq_emod_of_nonneg _ (by decide)] at hwarps
    rw [Int.fmod_eq_emod_of_nonneg _ hpos.le] at hrest
    exact ⟨hn, hcompute, hmemory, hthreads, Int.dvd_of_emod_eq_zero hwarps,
      Int.dvd_of_emod_eq_zero hrest⟩
  · intro h
    have hpos : 0 < kernel.elementsPerCta :=
      Int.mul_pos h.threads_pos (memoryIters_pos h.memoryIters_mem)
    refine ⟨(), h.n_pos, (), h.computeIters_nonneg, (), h.memoryIters_mem, (),
      ⟨h.threads_pos, ?_⟩, 0, ⟨hpos.ne', ?_⟩, rfl⟩
    · rw [Int.fmod_eq_emod_of_nonneg _ (by decide)]
      exact Int.emod_eq_zero_of_dvd h.warps
    · rw [Int.fmod_eq_emod_of_nonneg _ hpos.le]
      exact Int.emod_eq_zero_of_dvd h.tiles

/-- Rounding up is exact. -/
theorem roundUp_eq (value unit : ℤ) : roundUp value unit = .ok (rounded value unit) := by
  unfold roundUp rounded
  by_cases hunit : 0 < unit
  · have hceil : (value + unit - 1).fdiv unit = ⌈(value : ℚ) / unit⌉ := by
      have hunitQ : (0 : ℚ) < unit := Int.cast_pos.mpr hunit
      rw [Int.fdiv_eq_ediv_of_nonneg _ hunit.le, eq_comm, Int.ceil_eq_iff, lt_div_iff₀ hunitQ,
        div_le_iff₀ hunitQ]
      have hdiv := Int.mul_ediv_add_emod (value + unit - 1) unit
      have hlow := Int.emod_nonneg (value + unit - 1) hunit.ne'
      have hhigh := Int.emod_lt_of_pos (value + unit - 1) hunit
      generalize (value + unit - 1) / unit = units at *
      constructor
      · have hlt : (units - 1) * unit < value := by
          rw [Int.sub_mul, Int.one_mul, Int.mul_comm]
          omega
        exact_mod_cast hlt
      · have hle : value ≤ units * unit := by
          rw [Int.mul_comm]
          omega
        exact_mod_cast hle
    rw [if_neg (by omega), if_pos hunit, ceilDiv, bind_eq_ok]
    refine ⟨_, floorDiv_eq_ok.mpr ⟨hunit.ne', hceil⟩, rfl⟩
  · rw [if_pos (by omega), if_neg hunit]
    rfl

theorem le_rounded (value unit : ℤ) : value ≤ rounded value unit := by
  unfold rounded
  split
  · rename_i hunit
    have hunitQ : (0 : ℚ) < unit := Int.cast_pos.mpr hunit
    have hceil := Int.le_ceil ((value : ℚ) / unit)
    rw [div_le_iff₀ hunitQ] at hceil
    exact_mod_cast hceil
  · exact Int.le_refl value

theorem max_one_cast_ne_zero (k : ℤ) : ((max 1 k : ℤ) : ℚ) ≠ 0 := by
  rw [Int.cast_ne_zero]
  omega

/-- A CTA has a warp. -/
theorem warps_pos (hk : kernel.Valid) (hhw : hw.warpSize = 32) :
    0 < kernel.threadsPerCta / hw.warpSize := by
  rw [hhw]
  exact Int.ediv_pos_of_pos_of_dvd hk.threads_pos (by decide) hk.warps

/-- What a mapping says about its kernel. -/
structure Mapping.Maps (kernel : KernelParams) (hw : HardwareParams) (m : Mapping) : Prop where
  ctas_eq : m.ctas = kernel.n / kernel.elementsPerCta
  warps_pos : 0 < m.warpsPerCta
  warps_eq : m.warpsPerCta = kernel.threadsPerCta / hw.warpSize

/-- Valid kernels are mapped. -/
theorem predictMapping_ok (hk : kernel.Valid) (hhw : hw.warpSize = 32) :
    ∃ m, predictMapping kernel hw = .ok m ∧ m.Maps kernel hw := by
  have hpos : 0 < kernel.elementsPerCta :=
    Int.mul_pos hk.threads_pos (memoryIters_pos hk.memoryIters_mem)
  have hctas : kernel.n.fdiv kernel.elementsPerCta = kernel.n / kernel.elementsPerCta :=
    Int.fdiv_eq_ediv_of_nonneg _ hpos.le
  have hwarps : kernel.threadsPerCta.fdiv hw.warpSize = kernel.threadsPerCta / hw.warpSize :=
    Int.fdiv_eq_ediv_of_nonneg _ (by omega)
  have hwarpsPos := warps_pos hk hhw
  have hok : ∃ m, predictMapping kernel hw = .ok m ∧ m.ctas = kernel.n / kernel.elementsPerCta ∧
      m.warpsPerCta = kernel.threadsPerCta / hw.warpSize := by
    simp only [predictMapping, bind_eq_ok, validate_eq_ok, floorDiv_eq_ok, trueDiv_eq_ok,
      pure_eq_ok]
    exact ⟨_, ⟨(), hk, _, ⟨hpos.ne', hctas⟩, _, ⟨by omega, hwarps⟩, _, ⟨hwarpsPos.ne', rfl⟩, _,
      ⟨max_one_cast_ne_zero _, rfl⟩, rfl⟩, rfl, rfl⟩
  obtain ⟨m, hm, hctasEq, hwarpsEq⟩ := hok
  exact ⟨m, hm, hctasEq, by rw [hwarpsEq]; exact hwarpsPos, hwarpsEq⟩

/-- The smallest of the limits on the resident CTAs. -/
def residentLimit (kernel : KernelParams) (hw : HardwareParams) (resources : KernelResources) : ℤ :=
  min (min (min hw.maxCtasPerSm (hw.maxWarpsPerSm.fdiv (kernel.threadsPerCta / hw.warpSize)))
      (intQuota hw.maxCtasPerSm hw.registersPerSm
        (rounded resources.registersPerThread hw.registerAllocUnitPerThread *
          kernel.threadsPerCta)))
    (intQuota hw.maxCtasPerSm hw.sharedMemBytesPerSm resources.sharedMemBytesPerCta)

/-- How often the grid fills all SMs with so many CTAs each. -/
def wavesOf (kernel : KernelParams) (hw : HardwareParams) (ctas : ℤ) : ℚ :=
  (kernel.n / kernel.elementsPerCta : ℤ) / (hw.smCount * ctas : ℤ)

/-- The numbers of an occupancy prediction. -/
structure OccupancyPrediction.Computed (kernel : KernelParams) (hw : HardwareParams)
    (resources : KernelResources) (o : OccupancyPrediction) : Prop where
  resident_eq : o.residentCtasPerSm = max 1 (residentLimit kernel hw resources)
  theoretical_eq : o.theoreticalOccupancy =
    (o.residentCtasPerSm * (kernel.threadsPerCta / hw.warpSize) : ℤ) / hw.maxWarpsPerSm
  achieved_eq : o.estimatedAchievedOccupancy = min o.theoreticalOccupancy
    (o.theoreticalOccupancy * hw.occupancyEfficiencyCap *
      min 1 (wavesOf kernel hw o.residentCtasPerSm /
        (wavesOf kernel hw o.residentCtasPerSm + hw.waveDrainWaves)))
  active_eq : o.estimatedActiveWarpsPerSm = o.estimatedAchievedOccupancy * hw.maxWarpsPerSm

theorem resourceLimit_eq (hw : HardwareParams) (perSm perCta : ℤ) :
    resourceLimit hw perSm perCta = .ok (intQuota hw.maxCtasPerSm perSm perCta) := by
  unfold resourceLimit intQuota
  split
  · rename_i hne
    exact floorDiv_eq_ok.mpr ⟨hne, rfl⟩
  · rfl

theorem wavesOf_pos (hk : kernel.Valid) (hsm : 0 < hw.smCount) {ctas : ℤ} (hctas : 1 ≤ ctas) :
    0 < wavesOf kernel hw ctas := by
  have hpos : 0 < kernel.elementsPerCta :=
    Int.mul_pos hk.threads_pos (memoryIters_pos hk.memoryIters_mem)
  have hgrid : 0 < kernel.n / kernel.elementsPerCta :=
    Int.ediv_pos_of_pos_of_dvd hk.n_pos hpos.le hk.tiles
  unfold wavesOf
  apply div_pos
  · exact Int.cast_pos.mpr hgrid
  · exact Int.cast_pos.mpr (Int.mul_pos hsm (by omega))

/-- The prediction exists unless the drain cancels the waves. -/
theorem predictOccupancy_cases (hk : kernel.Valid) (hhw : hw.Admissible) :
    let waves := wavesOf kernel hw (max 1 (residentLimit kernel hw resources))
    (waves + hw.waveDrainWaves = 0 ∧ predictOccupancy kernel hw resources = .error .zeroDivision) ∨
      waves + hw.waveDrainWaves ≠ 0 ∧
        ∃ o, predictOccupancy kernel hw resources = .ok o ∧ o.Computed kernel hw resources := by
  intro waves
  obtain ⟨m, hm, hmaps⟩ := predictMapping_ok hk hhw.warpSize_eq
  have hpos : 0 < waves := wavesOf_pos hk hhw.smCount_pos (Int.le_max_left _ _)
  have hmaxWarps : (hw.maxWarpsPerSm : ℚ) ≠ 0 := Int.cast_ne_zero.mpr hhw.maxWarpsPerSm_pos.ne'
  have hwarpLimit : floorDiv hw.maxWarpsPerSm m.warpsPerCta =
      .ok (hw.maxWarpsPerSm.fdiv (kernel.threadsPerCta / hw.warpSize)) := by
    rw [floorDiv_eq_ok, ← hmaps.warps_eq]
    exact ⟨hmaps.warps_pos.ne', rfl⟩
  have hcount : max 1 (hw.smCount * max 1 (residentLimit kernel hw resources)) =
      hw.smCount * max 1 (residentLimit kernel hw resources) := by
    have hone : 0 < hw.smCount * max 1 (residentLimit kernel hw resources) :=
      Int.mul_pos hhw.smCount_pos (by omega)
    omega
  have hwaves : trueDiv m.ctas ↑(max 1 (hw.smCount * max 1 (residentLimit kernel hw resources))) =
      .ok waves := by
    rw [trueDiv_eq_ok]
    refine ⟨max_one_cast_ne_zero _, ?_⟩
    rw [hcount, hmaps.ctas_eq]
    rfl
  have htheoretical : ∀ warps : ℚ,
      trueDiv warps hw.maxWarpsPerSm = .ok (warps / hw.maxWarpsPerSm) := fun _ =>
    trueDiv_eq_ok.mpr ⟨hmaxWarps, rfl⟩
  unfold residentLimit at hwaves
  by_cases hdrain : waves + hw.waveDrainWaves = 0
  · have hraise : trueDiv waves (waves + hw.waveDrainWaves) = .error .zeroDivision := by
      simp [trueDiv, hdrain, require, bind, Except.bind]
    refine .inl ⟨hdrain, ?_⟩
    simp only [predictOccupancy, hm, roundUp_eq, resourceLimit_eq, hwarpLimit, htheoretical,
      hwaves, bind, Except.bind, if_pos hpos, hraise]
  · have hfactor : trueDiv waves (waves + hw.waveDrainWaves) =
        .ok (waves / (waves + hw.waveDrainWaves)) := trueDiv_eq_ok.mpr ⟨hdrain, rfl⟩
    refine .inr ⟨hdrain, ?_⟩
    simp only [predictOccupancy, hm, roundUp_eq, resourceLimit_eq, hwarpLimit, htheoretical,
      hwaves, bind, Except.bind, if_pos hpos, hfactor, pure, Except.pure]
    rw [hmaps.warps_eq]
    exact ⟨_, rfl, ⟨rfl, rfl, rfl, rfl⟩⟩

/-- Fewer CTAs fit as well. -/
theorem Fits.mono (hk : kernel.Valid) (hhw : hw.Admissible)
    (hregs : 0 < resources.registersPerThread) {ctas ctas' : ℤ} (h : Fits kernel hw resources ctas)
    (hone : 1 ≤ ctas') (hle : ctas' ≤ ctas) : Fits kernel hw resources ctas' := by
  have hdemand : ∀ {d limit : ℤ}, 0 ≤ d → ctas * d ≤ limit → ctas' * d ≤ limit := by
    intro d limit hd hlimit
    exact (Int.mul_le_mul_of_nonneg_right hle hd).trans hlimit
  constructor
  · exact hle.trans h.ctas_le
  · apply hdemand _ h.warps_le
    rw [hhw.warpSize_eq]
    exact Int.ediv_nonneg hk.threads_pos.le (by decide)
  · apply hdemand _ h.registers_le
    exact Int.mul_nonneg (hregs.le.trans (le_rounded _ _)) hk.threads_pos.le
  · by_cases hshared : 0 ≤ resources.sharedMemBytesPerCta
    · exact hdemand hshared h.sharedMem_le
    · have hneg : ctas' * resources.sharedMemBytesPerCta ≤ 0 :=
        Int.mul_nonpos_of_nonneg_of_nonpos (by omega) (by omega)
      exact hneg.trans hhw.sharedMemBytesPerSm_pos.le

/-- The limits together are the fitting counts. -/
theorem fits_iff_le (hk : kernel.Valid) (hhw : hw.Admissible)
    (hregs : 0 < resources.registersPerThread) (hshared : 0 ≤ resources.sharedMemBytesPerCta)
    (ctas : ℤ) : Fits kernel hw resources ctas ↔ ctas ≤ residentLimit kernel hw resources := by
  have hwarps := warps_pos hk hhw.warpSize_eq
  have hregisters : 0 ≤ rounded resources.registersPerThread hw.registerAllocUnitPerThread *
      kernel.threadsPerCta :=
    Int.mul_nonneg (hregs.le.trans (le_rounded _ _)) hk.threads_pos.le
  have hwarpLimit : ctas ≤ hw.maxWarpsPerSm.fdiv (kernel.threadsPerCta / hw.warpSize) ↔
      ctas * (kernel.threadsPerCta / hw.warpSize) ≤ hw.maxWarpsPerSm := by
    rw [Int.fdiv_eq_ediv_of_nonneg _ hwarps.le]
    exact Int.le_ediv_iff_mul_le hwarps
  unfold residentLimit
  simp only [le_min_iff, hwarpLimit]
  constructor
  · intro h
    exact ⟨⟨⟨h.ctas_le, h.warps_le⟩,
      (le_intQuota_iff hregisters hhw.registersPerSm_pos.le h.ctas_le).mpr h.registers_le⟩,
      (le_intQuota_iff hshared hhw.sharedMemBytesPerSm_pos.le h.ctas_le).mpr h.sharedMem_le⟩
  · rintro ⟨⟨⟨hctas, hwarps⟩, hregs⟩, hmem⟩
    exact ⟨hctas, hwarps, (le_intQuota_iff hregisters hhw.registersPerSm_pos.le hctas).mp hregs,
      (le_intQuota_iff hshared hhw.sharedMemBytesPerSm_pos.le hctas).mp hmem⟩

/-- The resident CTAs are the largest number that fits, when one fits. Less than no shared
memory would count as none of it, and leave one CTA. -/
theorem resident_largest_iff (hk : kernel.Valid) (hhw : hw.Admissible)
    (hregs : 0 < resources.registersPerThread) :
    (Fits kernel hw resources (max 1 (residentLimit kernel hw resources)) ∧
        ∀ ctas, max 1 (residentLimit kernel hw resources) < ctas → ¬Fits kernel hw resources ctas) ↔
      Fits kernel hw resources 1 ∧
        (0 ≤ resources.sharedMemBytesPerCta ∨ ¬Fits kernel hw resources 2) := by
  by_cases hshared : 0 ≤ resources.sharedMemBytesPerCta
  · rw [max_one_largest_iff fun ctas _ => fits_iff_le hk hhw hregs hshared ctas]
    simp only [hshared, true_or, and_true]
  · have hlimit : residentLimit kernel hw resources < 0 :=
      (min_le_right _ _).trans_lt
        (intQuota_neg (by omega) hhw.sharedMemBytesPerSm_pos)
    have hresident : max 1 (residentLimit kernel hw resources) = 1 := by omega
    simp only [hresident, hshared, false_or]
    constructor
    · rintro ⟨hone, hmore⟩
      exact ⟨hone, hmore 2 (by decide)⟩
    · rintro ⟨hone, htwo⟩
      refine ⟨hone, ?_⟩
      intro ctas hctas hfits
      exact htwo (hfits.mono hk hhw hregs (by decide) (by omega))

/-- A prediction is physical when its resident CTAs are, and the waves outweigh the drain. -/
theorem OccupancyPrediction.Computed.physical_iff (hk : kernel.Valid) (hhw : hw.Admissible)
    (hregs : 0 < resources.registersPerThread) (h : o.Computed kernel hw resources) :
    o.Physical kernel hw resources ↔
      (Fits kernel hw resources 1 ∧
          (0 ≤ resources.sharedMemBytesPerCta ∨ ¬Fits kernel hw resources 2)) ∧
        0 < wavesOf kernel hw o.residentCtasPerSm + hw.waveDrainWaves := by
  have hone : 1 ≤ o.residentCtasPerSm := by
    rw [h.resident_eq]
    exact Int.le_max_left _ _
  have hwaves := wavesOf_pos hk hhw.smCount_pos hone
  have hmaxWarps : (0 : ℚ) < hw.maxWarpsPerSm := Int.cast_pos.mpr hhw.maxWarpsPerSm_pos
  have htheoretical : 0 < o.theoreticalOccupancy := by
    rw [h.theoretical_eq]
    apply div_pos _ hmaxWarps
    exact Int.cast_pos.mpr (Int.mul_pos (by omega) (warps_pos hk hhw.warpSize_eq))
  have hachieved : 0 < o.estimatedAchievedOccupancy ↔
      0 < wavesOf kernel hw o.residentCtasPerSm + hw.waveDrainWaves := by
    have hcap := mul_pos htheoretical hhw.occupancyEfficiencyCap.1
    rw [h.achieved_eq, lt_min_iff, mul_pos_iff_of_pos_left hcap, lt_min_iff,
      div_pos_iff_of_pos_left hwaves]
    simp only [htheoretical, zero_lt_one, true_and]
  rw [← resident_largest_iff hk hhw hregs, ← h.resident_eq, ← hachieved]
  constructor
  · intro hphysical
    exact ⟨⟨hphysical.fits, hphysical.largest⟩, hphysical.achieved_pos⟩
  · rintro ⟨⟨hfits, hlargest⟩, hpos⟩
    refine ⟨hfits, hlargest, hpos, ?_, ?_⟩
    · rw [h.achieved_eq]
      exact min_le_left _ _
    · rw [h.theoretical_eq, div_le_one hmaxWarps, Int.cast_le]
      exact hfits.warps_le

end StreamModel
end WaspSim
