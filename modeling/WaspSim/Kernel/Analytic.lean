import Mathlib.Data.Rat.Floor
import WaspSim.Core.Checked

/-!
# The analytic model of the stream kernel

The script that predicts the speed of the stream kernel, with its floating-point numbers
as exact rationals. It maps the elements to CTAs, estimates the occupancy of an SM, and
takes the slower of computing and memory traffic for the time of the kernel.
-/

namespace WaspSim
namespace StreamModel

/-- What a computation raises. -/
inductive PyError where
  | valueError (message : String)
  | zeroDivision
  deriving DecidableEq, Repr

/-- `//`, which rounds down. -/
def floorDiv (a b : ℤ) : Except PyError ℤ := do
  require .zeroDivision (b ≠ 0)
  pure (a.fdiv b)

/-- `%`, the remainder of `//`. -/
def floorMod (a b : ℤ) : Except PyError ℤ := do
  require .zeroDivision (b ≠ 0)
  pure (a.fmod b)

/-- `/`. -/
def trueDiv (a b : ℚ) : Except PyError ℚ := do
  require .zeroDivision (b ≠ 0)
  pure (a / b)

/-- `math.log2`, of a power of two. -/
def mathLog2 (n : ℤ) : Except PyError ℚ := do
  require (.valueError "math domain error") (0 < n)
  pure (Nat.log2 n.toNat)

/-- `SUPPORTED_MEMORY_ITERS`. -/
def supportedMemoryIters : List ℤ := [1, 2, 4, 8]

/-- `DEFAULT_REGISTERS_PER_THREAD`. -/
def defaultRegistersPerThread : ℤ → Option ℤ
  | 1 => some 12
  | 2 => some 20
  | 4 => some 36
  | 8 => some 40
  | _ => none

structure KernelParams where
  n : ℤ
  computeIters : ℤ
  memoryIters : ℤ
  threadsPerCta : ℤ := 256
  deriving DecidableEq, Repr

/-- The elements of a CTA. -/
def KernelParams.elementsPerCta (k : KernelParams) : ℤ := k.threadsPerCta * k.memoryIters

def KernelParams.validate (k : KernelParams) : Except PyError Unit := do
  require (.valueError "n must be positive") (0 < k.n)
  require (.valueError "compute_iters must be non-negative") (0 ≤ k.computeIters)
  require (.valueError "memory_iters must be one of 1, 2, 4, 8")
    (k.memoryIters ∈ supportedMemoryIters)
  require (.valueError "threads_per_cta must be a positive multiple of 32")
    (0 < k.threadsPerCta ∧ k.threadsPerCta.fmod 32 = 0)
  let rest ← floorMod k.n k.elementsPerCta
  require (.valueError ("stream_fma_v6 uses full CTA tiles: require " ++
    "n % (threads_per_cta * memory_iters) == 0, got " ++ toString k.n ++ " % " ++
    toString k.elementsPerCta)) (rest = 0)

structure HardwareParams where
  smCount : ℤ := 84
  fpuTops : ℚ := 55.9104
  dramBwGbps : ℚ := 941.44
  maxWarpsPerSm : ℤ := 48
  maxCtasPerSm : ℤ := 24
  registersPerSm : ℤ := 65536
  registerAllocUnitPerThread : ℤ := 8
  sharedMemBytesPerSm : ℤ := 228 * 1024
  warpSize : ℤ := 32
  smspsPerSm : ℤ := 4
  computeEfficiency : ℚ := 0.69
  dramEfficiency : ℚ := 0.855
  dramBytesPerElement : ℚ := 12
  occupancyEfficiencyCap : ℚ := 0.87
  waveDrainWaves : ℚ := 0.25
  warpsForFullDramBw : ℚ := 32
  eligibleFloor : ℚ := 0.014
  eligibleComputeGain : ℚ := 0.54
  eligibleComputeAlpha : ℚ := 1.75
  eligibleMemoryBatchGain : ℚ := 0.015
  deriving DecidableEq, Repr

structure KernelResources where
  registersPerThread : ℤ
  sharedMemBytesPerCta : ℤ := 0
  deriving DecidableEq, Repr

/-- `for_memory_iters`. -/
def KernelResources.forMemoryIters (memoryIters : ℤ) : Except PyError KernelResources := do
  let registers ← fetch (.valueError "memory_iters must be one of 1, 2, 4, 8")
    (defaultRegistersPerThread memoryIters)
  pure { registersPerThread := registers, sharedMemBytesPerCta := 0 }

structure Mapping where
  elementsPerCta : ℤ
  ctas : ℤ
  warpsPerCta : ℤ
  totalWarps : ℤ
  fullResidentWaves : ℚ
  deriving DecidableEq, Repr

structure OccupancyPrediction where
  roundedRegistersPerThread : ℤ
  registersPerCta : ℤ
  blockLimitCtasPerSm : ℤ
  warpLimitCtasPerSm : ℤ
  registerLimitCtasPerSm : ℤ
  sharedMemLimitCtasPerSm : ℤ
  residentCtasPerSm : ℤ
  residentWarpsPerSm : ℤ
  theoreticalOccupancy : ℚ
  estimatedActiveWarpsPerSm : ℚ
  estimatedAchievedOccupancy : ℚ
  deriving DecidableEq, Repr

structure SchedulerPrediction where
  overlappedTimeS : ℚ
  exposedMemoryTimeS : ℚ
  exposedComputeTimeS : ℚ
  computeExposureFraction : ℚ
  eligibleReadyFraction : ℚ
  estimatedEligibleWarpsPerSm : ℚ
  estimatedEligibleWarpsPerSchedulerCycle : ℚ
  estimatedEligibleWarpsPct : ℚ
  deriving DecidableEq, Repr

inductive Bottleneck where
  | compute
  | dram
  deriving DecidableEq, Repr

structure Prediction where
  kernel : KernelParams
  hardware : HardwareParams
  resources : KernelResources
  mapping : Mapping
  occupancy : OccupancyPrediction
  scheduler : SchedulerPrediction
  ops : ℚ
  algorithmBytes : ℚ
  modelDramBytes : ℚ
  operationalIntensityAlgorithm : ℚ
  operationalIntensityDram : ℚ
  computeTimeS : ℚ
  dramTimeS : ℚ
  predictedTimeS : ℚ
  predictedTops : ℚ
  bottleneck : Bottleneck
  effectiveFpuTops : ℚ
  effectiveDramBwGbps : ℚ
  predictedDramGbps : ℚ
  predictedDramUtilizationPct : ℚ
  effectiveDramUtilizationPct : ℚ
  deriving Repr

def ceilDiv (a b : ℤ) : Except PyError ℤ := floorDiv (a + b - 1) b

def roundUp (value unit : ℤ) : Except PyError ℤ :=
  if unit ≤ 0 then pure value
  else do
    let units ← ceilDiv value unit
    pure (units * unit)

/-- The hardware without the calibrated efficiencies. -/
def makePeakRooflineHardware (hw : HardwareParams) : HardwareParams :=
  { hw with
    computeEfficiency := 1
    dramEfficiency := 1
    dramBytesPerElement := 16
    occupancyEfficiencyCap := 1
    waveDrainWaves := 0
    warpsForFullDramBw := 1 }

def predictMapping (kernel : KernelParams) (hw : HardwareParams) : Except PyError Mapping := do
  kernel.validate
  let elementsPerCta := kernel.elementsPerCta
  let ctas ← floorDiv kernel.n elementsPerCta
  let warpsPerCta ← floorDiv kernel.threadsPerCta hw.warpSize
  let totalWarps := ctas * warpsPerCta
  let warpLimit ← floorDiv hw.maxWarpsPerSm warpsPerCta
  let residentCtasByWarps := max 1 warpLimit
  let fullResidentWaves ← trueDiv ctas ↑(max 1 (hw.smCount * residentCtasByWarps))
  pure { elementsPerCta, ctas, warpsPerCta, totalWarps, fullResidentWaves }

/-- How many CTAs a resource holds, where a CTA that takes none of it leaves the limit of
the SM. -/
def resourceLimit (hw : HardwareParams) (perSm perCta : ℤ) : Except PyError ℤ :=
  if perCta ≠ 0 then floorDiv perSm perCta else pure hw.maxCtasPerSm

def predictOccupancy (kernel : KernelParams) (hw : HardwareParams) (resources : KernelResources) :
    Except PyError OccupancyPrediction := do
  let mapping ← predictMapping kernel hw
  let roundedRegs ← roundUp resources.registersPerThread hw.registerAllocUnitPerThread
  let registersPerCta := roundedRegs * kernel.threadsPerCta
  let registerLimit ← resourceLimit hw hw.registersPerSm registersPerCta
  let sharedLimit ← resourceLimit hw hw.sharedMemBytesPerSm resources.sharedMemBytesPerCta
  let blockLimit := hw.maxCtasPerSm
  let warpLimit ← floorDiv hw.maxWarpsPerSm mapping.warpsPerCta
  let residentCtas := max 1 (min (min (min blockLimit warpLimit) registerLimit) sharedLimit)
  let residentWarps := residentCtas * mapping.warpsPerCta
  let theoretical ← trueDiv residentWarps hw.maxWarpsPerSm
  let fullWaves ← trueDiv mapping.ctas ↑(max 1 (hw.smCount * residentCtas))
  let drainFactor ←
    (if 0 < fullWaves then trueDiv fullWaves (fullWaves + hw.waveDrainWaves) else pure 0)
  let achieved := min theoretical (theoretical * hw.occupancyEfficiencyCap * min 1 drainFactor)
  let activeWarps := achieved * hw.maxWarpsPerSm
  pure {
    roundedRegistersPerThread := roundedRegs
    registersPerCta
    blockLimitCtasPerSm := blockLimit
    warpLimitCtasPerSm := warpLimit
    registerLimitCtasPerSm := registerLimit
    sharedMemLimitCtasPerSm := sharedLimit
    residentCtasPerSm := residentCtas
    residentWarpsPerSm := residentWarps
    theoreticalOccupancy := theoretical
    estimatedActiveWarpsPerSm := activeWarps
    estimatedAchievedOccupancy := achieved }

/-- The bandwidth, and its percentage of the peak and of the effective bandwidth. -/
def predictDramBwUtilization (modelDramBytes predictedTimeS : ℚ) (hw : HardwareParams)
    (effectiveDramBwGbps : ℚ) : Except PyError (ℚ × ℚ × ℚ) :=
  if predictedTimeS ≤ 0 then pure (0, 0, 0)
  else do
    let bytesPerS ← trueDiv modelDramBytes predictedTimeS
    let predictedDramGbps := bytesPerS / 1000000000
    let peakUtilization ←
      (if hw.dramBwGbps ≠ 0 then (· * 100) <$> trueDiv predictedDramGbps hw.dramBwGbps
        else pure 0)
    let effectiveUtilization ←
      (if effectiveDramBwGbps ≠ 0 then (· * 100) <$> trueDiv predictedDramGbps effectiveDramBwGbps
        else pure 0)
    pure (predictedDramGbps, peakUtilization, effectiveUtilization)

def clamp (value low high : ℚ) : ℚ := max low (min high value)

section

-- `**` leaves the rationals.
variable (pow : ℚ → ℚ → ℚ)

def predictScheduler (kernel : KernelParams) (hw : HardwareParams)
    (occupancy : OccupancyPrediction) (computeTimeS dramTimeS predictedTimeS : ℚ) :
    Except PyError SchedulerPrediction := do
  let overlappedTimeS := min computeTimeS dramTimeS
  let exposedMemoryTimeS := max 0 (dramTimeS - computeTimeS)
  let exposedComputeTimeS := max 0 (computeTimeS - dramTimeS)
  let computeExposureFraction ←
    (if 0 < predictedTimeS then trueDiv computeTimeS predictedTimeS else pure 0)
  let batches ← mathLog2 kernel.memoryIters
  let memoryBatchRelief := max 0 (batches - 2)
  let eligibleReadyFraction := clamp
    (hw.eligibleFloor
      + hw.eligibleComputeGain * pow computeExposureFraction hw.eligibleComputeAlpha
      + hw.eligibleMemoryBatchGain * memoryBatchRelief) 0 1
  let estimatedEligibleWarpsPerSm := occupancy.estimatedActiveWarpsPerSm * eligibleReadyFraction
  let estimatedEligibleWarpsPerSchedulerCycle ←
    (if hw.smspsPerSm ≠ 0 then trueDiv estimatedEligibleWarpsPerSm hw.smspsPerSm else pure 0)
  let estimatedEligibleWarpsPct ←
    (if hw.maxWarpsPerSm ≠ 0 then
      (· * 100) <$> trueDiv estimatedEligibleWarpsPerSm hw.maxWarpsPerSm
      else pure 0)
  pure {
    overlappedTimeS, exposedMemoryTimeS, exposedComputeTimeS, computeExposureFraction,
    eligibleReadyFraction, estimatedEligibleWarpsPerSm,
    estimatedEligibleWarpsPerSchedulerCycle, estimatedEligibleWarpsPct }

/-- The resources of a prediction, which default to those of the compiled kernel. -/
def resourcesFor (kernel : KernelParams) : Option KernelResources → Except PyError KernelResources
  | none => KernelResources.forMemoryIters kernel.memoryIters
  | some resources => pure resources

def predict (kernel : KernelParams) (hw : HardwareParams)
    (resources : Option KernelResources := none) : Except PyError Prediction := do
  kernel.validate
  let resources ← resourcesFor kernel resources
  let mapping ← predictMapping kernel hw
  let occupancy ← predictOccupancy kernel hw resources
  let ops : ℚ := kernel.n * (6 * kernel.computeIters + 2)
  let algorithmBytes : ℚ := kernel.n * 16
  let modelDramBytes : ℚ := kernel.n * hw.dramBytesPerElement
  let effectiveFpuTops := hw.fpuTops * hw.computeEfficiency
  let warpsShare ← trueDiv occupancy.estimatedActiveWarpsPerSm hw.warpsForFullDramBw
  let occupancyBwScale := min 1 warpsShare
  let effectiveDramBwGbps := hw.dramBwGbps * hw.dramEfficiency * occupancyBwScale
  let computeTimeS ← trueDiv ops (effectiveFpuTops * 1000000000000)
  let dramTimeS ← trueDiv modelDramBytes (effectiveDramBwGbps * 1000000000)
  let predictedTimeS := max computeTimeS dramTimeS
  let opsPerS ← trueDiv ops predictedTimeS
  let predictedTops := opsPerS / 1000000000000
  let bottleneck := if dramTimeS ≤ computeTimeS then .compute else .dram
  let scheduler ←
    predictScheduler pow kernel hw occupancy computeTimeS dramTimeS predictedTimeS
  let (predictedDramGbps, predictedDramUtilizationPct, effectiveDramUtilizationPct) ←
    predictDramBwUtilization modelDramBytes predictedTimeS hw effectiveDramBwGbps
  let operationalIntensityAlgorithm ← trueDiv ops algorithmBytes
  let operationalIntensityDram ← trueDiv ops modelDramBytes
  pure {
    kernel, hardware := hw, resources, mapping, occupancy, scheduler, ops, algorithmBytes,
    modelDramBytes, operationalIntensityAlgorithm, operationalIntensityDram, computeTimeS,
    dramTimeS, predictedTimeS, predictedTops, bottleneck, effectiveFpuTops,
    effectiveDramBwGbps, predictedDramGbps, predictedDramUtilizationPct,
    effectiveDramUtilizationPct }

end

end StreamModel
end WaspSim
