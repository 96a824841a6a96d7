import Mathlib.Logic.Function.Basic
import WaspSim.Core.FirstFit
import WaspSim.Occupancy.MaxCta

/-!
# CTAs on a core

The part of a core that decides whether a CTA may be launched and where its
threads go. With concurrent kernels the core counts what its CTAs occupy and
searches a bitset for a free range of hardware threads; with a single kernel a
CTA's range follows from its hardware slot.
-/

namespace WaspSim

/-- The options of a core that issues CTAs. -/
structure CoreConfig extends OccupancyConfig where
  /-- `gpgpu_concurrent_kernel_sm`. -/
  gpgpuConcurrentKernelSm : Bool
  /-- `num_shader`. -/
  numShader : Nat
  /-- `gpgpu_ignore_resources_limitation`. -/
  gpgpuIgnoreResourcesLimitation : Bool := false
  /-- `init` stops beyond `MAX_THREAD_PER_SM`. -/
  nThreadPerShader_le : nThreadPerShader ≤ 2048
  /-- `init` asserts that the threads make whole warps. -/
  warpSize_dvd : warpSize ∣ nThreadPerShader

/-- `kernel_info_t`. -/
structure Kernel extends KernelInfo where
  /-- `m_uid`. -/
  uid : Nat
  /-- `num_blocks`. -/
  numBlocks : Nat

deriving instance DecidableEq for KernelInfo
deriving instance DecidableEq for Kernel

/-- A CTA on a core: the kernel of its threads and its first hardware thread. -/
structure Cta where
  kernel : Kernel
  startThread : Nat

/-- The CTAs of a core and what they occupy. -/
structure Residency where
  /-- `m_occupied_n_threads`. -/
  occupiedNThreads : Nat := 0
  /-- `m_occupied_shmem`. -/
  occupiedShmem : Nat := 0
  /-- `m_occupied_regs`. -/
  occupiedRegs : Nat := 0
  /-- `m_occupied_ctas`. -/
  occupiedCtas : Nat := 0
  /-- `m_occupied_hwtid`. -/
  occupiedHwtid : Nat → Bool := fun _ => false
  /-- `m_occupied_cta_to_hwtid`. -/
  occupiedCtaToHwtid : Nat → Option Nat := fun _ => none
  /-- `m_cta_status`. -/
  ctaStatus : Nat → Nat := fun _ => 0
  /-- The CTA whose threads have a hardware slot's number as `m_cta_id`. -/
  resident : Nat → Option Cta := fun _ => none
  /-- `m_n_active_cta`. -/
  nActiveCta : Nat := 0
  /-- `m_kernel`. -/
  kernel : Option Kernel := none
  /-- `kernel_max_cta_per_shader`. -/
  kernelMaxCtaPerShader : Nat := 0
  /-- `kernel_padded_threads_per_cta`, which the constructor leaves as it is. -/
  kernelPaddedThreadsPerCta : Nat

namespace Residency

variable (cfg : CoreConfig) (s : Residency)

/-- `find_available_hwtid`, without marking the range. -/
def findAvailableHwtid (ctaSize : Nat) : Except Halt (Option Nat) :=
  firstFit .indexOutOfRange 2048 s.occupiedHwtid cfg.nThreadPerShader ctaSize
    cfg.nThreadPerShader 0

/-- Mark the range that `find_available_hwtid` found. -/
def setHwtid (start ctaSize : Nat) : Residency :=
  { s with occupiedHwtid := fun t =>
      if start ≤ t ∧ t < start + ctaSize then true else s.occupiedHwtid t }

/-- `occupy_shader_resource_1block`. -/
def occupyShaderResource1block (k : KernelInfo) (occupy : Bool) :
    Except Halt (Residency × Bool) := do
  let paddedCtaSize := cfg.paddedCtaSize k
  if cfg.nThreadPerShader < u32 (s.occupiedNThreads + paddedCtaSize) then pure (s, false)
  else
    let found ← findAvailableHwtid cfg s paddedCtaSize
    if found.isNone then pure (s, false)
    else
      let smemqSharedBytes ← cfg.smemqSharedBytesPerCta k
      if cfg.gpgpuShmemSize < u32 (s.occupiedShmem + k.smem + smemqSharedBytes) then pure (s, false)
      else
        let rfqRegs ← cfg.waspRfqRegsPerCta k
        let usedRegs := u32 (u32 (paddedCtaSize * roundup4 k.regs) + rfqRegs)
        if cfg.gpgpuShaderRegisters < u32 (s.occupiedRegs + usedRegs) then pure (s, false)
        else if cfg.maxCtaPerCore < u32 (s.occupiedCtas + 1) then pure (s, false)
        else if occupy then
          pure ({ s with
            occupiedNThreads := u32 (s.occupiedNThreads + paddedCtaSize)
            occupiedShmem := u32 (s.occupiedShmem + u32 (k.smem + smemqSharedBytes))
            occupiedRegs := u32 (s.occupiedRegs + usedRegs)
            occupiedCtas := u32 (s.occupiedCtas + 1) }, true)
        else pure (s, true)

/-- `release_shader_resource_1block`. -/
def releaseShaderResource1block (hwCtaid : Nat) (k : KernelInfo) : Except Halt Residency :=
  if cfg.gpgpuConcurrentKernelSm then do
    let paddedCtaSize := cfg.paddedCtaSize k
    require .occupancyUnderflow (paddedCtaSize ≤ s.occupiedNThreads)
    let startThread := (s.occupiedCtaToHwtid hwCtaid).getD 0
    require .indexOutOfRange (startThread + paddedCtaSize ≤ 2048)
    let smemqSharedBytes ← cfg.smemqSharedBytesPerCta k
    let smem := u32 (k.smem + smemqSharedBytes)
    require .occupancyUnderflow (smem ≤ s.occupiedShmem)
    let rfqRegs ← cfg.waspRfqRegsPerCta k
    let usedRegs := u32 (u32 (paddedCtaSize * roundup4 k.regs) + rfqRegs)
    require .occupancyUnderflow (usedRegs ≤ s.occupiedRegs)
    require .occupancyUnderflow (1 ≤ s.occupiedCtas)
    pure { s with
      occupiedNThreads := s.occupiedNThreads - paddedCtaSize
      occupiedHwtid := fun t =>
        if startThread ≤ t ∧ t < startThread + paddedCtaSize then false else s.occupiedHwtid t
      occupiedCtaToHwtid := Function.update s.occupiedCtaToHwtid hwCtaid none
      occupiedShmem := s.occupiedShmem - smem
      occupiedRegs := s.occupiedRegs - usedRegs
      occupiedCtas := s.occupiedCtas - 1 }
  else pure s

/-- `max_cta` of a kernel. -/
def maxCta (k : Kernel) : Except Halt Nat :=
  cfg.toOccupancyConfig.maxCta k.toKernelInfo k.numBlocks cfg.numShader
    cfg.gpgpuIgnoreResourcesLimitation

/-- `can_issue_1block`. -/
def canIssue1block (k : Kernel) : Except Halt Bool := do
  let n ← maxCta cfg k
  if cfg.gpgpuConcurrentKernelSm then
    if n < 1 then pure false
    else
      let (_, ok) ← occupyShaderResource1block cfg s k.toKernelInfo false
      pure ok
  else pure (s.nActiveCta < n)

/-- `set_max_cta`. -/
def setMaxCta (k : Kernel) : Except Halt Residency := do
  let n ← maxCta cfg k
  pure { s with
    kernelMaxCtaPerShader := n
    kernelPaddedThreadsPerCta := cfg.paddedCtaSize k.toKernelInfo }

/-- The first hardware slot below `n` that is free, from slot `i` on. The array has
`MAX_CTA_PER_SHADER` slots. -/
def freeCtaHwId (n : Nat) : Nat → Except Halt Nat
  | 0 => .error .noCtaSlot
  | fuel + 1 => do
    let i := n - (fuel + 1)
    require .indexOutOfRange (i < 32)
    if s.ctaStatus i = 0 then pure i else freeCtaHwId n fuel

/-- The range of a CTA's hardware threads, marked when kernels are concurrent. -/
def placeCta (k : Kernel) (freeCtaHwId : Nat) : Except Halt (Residency × Nat) :=
  let paddedCtaSize := cfg.paddedCtaSize k.toKernelInfo
  if cfg.gpgpuConcurrentKernelSm then do
    let found ← findAvailableHwtid cfg s paddedCtaSize
    let startThread ← fetch .notOccupied found
    require .slotNotErased (s.occupiedCtaToHwtid freeCtaHwId = none)
    let s := s.setHwtid startThread paddedCtaSize
    pure ({ s with occupiedCtaToHwtid :=
      Function.update s.occupiedCtaToHwtid freeCtaHwId (some startThread) }, startThread)
  else pure (s, u32 (freeCtaHwId * paddedCtaSize))

/-- The part of `issue_block2core` that takes the resources of a CTA. -/
def takeResources (k : Kernel) : Except Halt Residency :=
  if cfg.gpgpuConcurrentKernelSm then do
    let (s, ok) ← occupyShaderResource1block cfg s k.toKernelInfo true
    require .notOccupied (ok = true)
    pure s
  else setMaxCta cfg s k

/-- `issue_block2core`. -/
def issueBlock2core (k : Kernel) : Except Halt Residency := do
  let s ← takeResources cfg s k
  let slots := if cfg.gpgpuConcurrentKernelSm then cfg.maxCtaPerCore else s.kernelMaxCtaPerShader
  let slot ← s.freeCtaHwId slots slots
  let (s, startThread) ← placeCta cfg s k slot
  -- every thread of the block is initialised and counted
  let nthreadsInBlock := k.threadsPerCta
  require .tooFewResources (0 < nthreadsInBlock ∧ nthreadsInBlock ≤ cfg.nThreadPerShader)
  pure { s with
    ctaStatus := Function.update s.ctaStatus slot nthreadsInBlock
    resident := Function.update s.resident slot (some ⟨k, startThread⟩)
    nActiveCta := s.nActiveCta + 1 }

/-- `register_cta_thread_exit`, with the kernel of the exiting thread. -/
def registerCtaThreadExit (ctaNum : Nat) : Except Halt Residency := do
  require .ctaEmpty (0 < s.ctaStatus ctaNum)
  let s := { s with ctaStatus := Function.update s.ctaStatus ctaNum (s.ctaStatus ctaNum - 1) }
  if s.ctaStatus ctaNum = 0 then
    let cta ← fetch .disabled (s.resident ctaNum)
    let nActiveCta := s.nActiveCta - 1
    let s := { s with
      nActiveCta
      kernel := if nActiveCta = 0 then none else s.kernel
      resident := Function.update s.resident ctaNum none }
    releaseShaderResource1block cfg s ctaNum cta.kernel.toKernelInfo
  else pure s

end Residency

/-- What happens to the CTAs of a core. -/
inductive CtaAction where
  /-- The cluster issues a CTA of a kernel that the core can take. -/
  | launch (k : Kernel)
  /-- A thread of a CTA exits. -/
  | exitThread (ctaNum : Nat)

namespace Residency

/-- One action. With a single kernel the cluster binds another one only to a core
without threads. -/
def step (cfg : CoreConfig) (s : Residency) : CtaAction → Except Halt Residency
  | .launch k => do
    require .disabled
      (cfg.gpgpuConcurrentKernelSm = true ∨ s.kernel = some k ∨ s.nActiveCta = 0)
    let ok ← canIssue1block cfg s k
    require .disabled (ok = true)
    issueBlock2core cfg { s with kernel := some k } k
  | .exitThread ctaNum => registerCtaThreadExit cfg s ctaNum

/-- A core after its constructor, whatever the field that it does not set holds. -/
def empty (kernelPaddedThreadsPerCta : Nat) : Residency := { kernelPaddedThreadsPerCta }

end Residency
end WaspSim
