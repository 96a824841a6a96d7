import WaspSim.Dispatch.Threads
import WaspSim.Occupancy.Allocation

/-!
# Kernels and the cores they run on

The GPU holds the running kernels in slots. The clusters take turns: each asks its cores one
after another, and the first core that can take a CTA gets the next one of a kernel that has
CTAs left. When the last thread of a CTA exits, the core gives its resources back, and the last
CTA of a kernel ends the kernel. Warps and their SIMT stacks, statistics, time stamps and
checkpoints are left out.
-/

namespace WaspSim

/-- The assertions between the GPU and its cores. -/
inductive GpuHalt where
  /-- An assertion within a core. -/
  | core (h : Halt)
  /-- An assertion of the initialisation of threads. -/
  | init (f : InitFault)
  /-- `launch` of a kernel whose CTAs are larger than a core. -/
  | ctaTooLarge
  /-- `launch` found every slot taken. -/
  | noSlot
  /-- `select_kernel` took a kernel for new that had run before. -/
  | executedBefore
  /-- `set_kernel_done` of a kernel without a slot. -/
  | notRunning
  /-- `dec_running` of a kernel without running CTAs. -/
  | noneRunning
  /-- A core became empty while its kernel had CTAs left. -/
  | emptyTooEarly
  | indexOutOfRange
  /-- A thread exits or is done that no CTA of the core has. -/
  | noSuchThread
  /-- A thread executes after its end. -/
  | alreadyDone
  deriving DecidableEq, Repr

/-- The options of the GPU that its dispatcher reads. -/
structure GpuConfig where
  core : CoreConfig
  /-- `gpu_max_cta_opt`, where 0 stands for no limit. -/
  gpuMaxCtaOpt : Nat := 0
  /-- `max_concurrent_kernel`. -/
  maxConcurrentKernel : Nat
  /-- `n_simt_clusters`. -/
  nSimtClusters : Nat
  /-- `n_simt_cores_per_cluster`. -/
  nSimtCoresPerCluster : Nat
  maxConcurrentKernel_pos : 0 < maxConcurrentKernel
  nSimtCoresPerCluster_pos : 0 < nSimtCoresPerCluster
  numShader_eq : core.numShader = nSimtClusters * nSimtCoresPerCluster

namespace GpuConfig

/-- `cid_to_sid`. -/
def cidToSid (cfg : GpuConfig) (cid clusterId : Nat) : Nat :=
  clusterId * cfg.nSimtCoresPerCluster + cid

/-- Where core `cid` of a cluster initialises threads. -/
def site (cfg : GpuConfig) (clusterId cid : Nat) : InitSite where
  sid := cfg.cidToSid cid clusterId
  numShaders := cfg.core.numShader
  warpSize := cfg.core.warpSize
  nThreadPerShader := cfg.core.nThreadPerShader

end GpuConfig

/-- `kernel_info_t` as it is launched. -/
structure KernelLaunch where
  kernel : Kernel
  gridDim : Dim3
  blockDim : Dim3
  /-- `m_kernel_TB_latency`. -/
  tbLatency : Nat := 0
  threads_eq : kernel.threadsPerCta = blockDim.volume
  blocks_eq : kernel.numBlocks = u32 gridDim.volume

/-- The state that the constructor of `kernel_info_t` gives a kernel. -/
def KernelLaunch.initial (l : KernelLaunch) : KernelState where
  gridDim := l.gridDim
  blockDim := l.blockDim
  tbLatency := l.tbLatency

/-- `shader_core_ctx`, as far as CTAs come and go. Its tables of threads have
`n_thread_per_shader` places. -/
structure SimtCore where
  residency : Residency
  /-- `m_not_completed`. -/
  notCompleted : Nat := 0
  /-- `m_thread`. -/
  thread : Nat → Option PtxThreadInfo := fun _ => none
  /-- `m_threadState`. -/
  threadState : Nat → ThreadCtx := fun _ => {}
  /-- `m_active_threads`. -/
  activeThreads : Nat → Bool := fun _ => false

namespace SimtCore

/-- The CTA of the thread that a hardware thread has. -/
def ctaidAt (core : SimtCore) (tid : Nat) : Dim3 := (core.thread tid).elim ⟨0, 0, 0⟩ (·.ctaid)

/-- `reinit` of all threads. -/
def reinit (core : SimtCore) : SimtCore :=
  { core with
    residency := { core.residency with
      occupiedNThreads := 0
      occupiedShmem := 0
      occupiedRegs := 0
      occupiedCtas := 0
      occupiedHwtid := fun _ => false
      occupiedCtaToHwtid := fun _ => none }
    notCompleted := 0
    threadState := fun tid => { core.threadState tid with ctaId := none }
    activeThreads := fun _ => false }

end SimtCore

/-- `gpgpu_sim` with its clusters, as far as kernels and CTAs come and go. -/
structure GpgpuSim where
  /-- `m_running_kernels`. -/
  runningKernels : List (Option Kernel)
  /-- The `kernel_info_t` objects, by `m_uid`. -/
  kernels : Nat → KernelState
  /-- `m_last_issued_kernel`. -/
  lastIssuedKernel : Nat := 0
  /-- `m_executed_kernel_uids`. -/
  executedKernelUids : List Nat := []
  /-- `m_finished_kernel`. -/
  finishedKernel : List Nat := []
  /-- `ptx_cta_lookup`, which all cores share. -/
  ctaLookup : Nat → Option PtxCtaInfo := fun _ => none
  /-- `m_core` of each cluster. -/
  cores : List (List SimtCore)
  /-- `m_cta_issue_next_core` of each cluster. -/
  ctaIssueNextCore : List Nat
  /-- `m_last_cluster_issue`. -/
  lastClusterIssue : Nat
  /-- `m_total_cta_launched`. -/
  totalCtaLaunched : Nat := 0
  /-- `gpu_tot_issued_cta`. -/
  gpuTotIssuedCta : Nat := 0

/-- What happens to the kernels and CTAs of a GPU. -/
inductive DispatchEvent where
  | launched (l : KernelLaunch)
  | ctaIssued (uid : Nat) (cta : Dim3) (sid slot : Nat)
  | ctaCompleted (uid : Nat) (cta : Dim3) (sid slot : Nat)
  | kernelDone (uid : Nat)
  /-- `finished_kernel` handed out the number of a kernel. -/
  | reported (uid : Nat)

namespace DispatchEvent

/-- The launch that an event is. -/
def launch? : DispatchEvent → Option KernelLaunch
  | .launched l => some l
  | _ => none

/-- The CTA that an event issues. -/
def issued? : DispatchEvent → Option (Nat × Dim3)
  | .ctaIssued uid cta _ _ => some (uid, cta)
  | _ => none

/-- The CTA that an event completes. -/
def completed? : DispatchEvent → Option (Nat × Dim3)
  | .ctaCompleted uid cta _ _ => some (uid, cta)
  | _ => none

/-- The kernel that an event ends. -/
def done? : DispatchEvent → Option Nat
  | .kernelDone uid => some uid
  | _ => none

/-- The kernel that an event reports. -/
def reported? : DispatchEvent → Option Nat
  | .reported uid => some uid
  | _ => none

end DispatchEvent

/-- The kernels launched so far. -/
def launches (log : List DispatchEvent) : List KernelLaunch := log.filterMap DispatchEvent.launch?

/-- The CTAs issued so far, each with the number of its kernel. -/
def issuedCtas (log : List DispatchEvent) : List (Nat × Dim3) := log.filterMap DispatchEvent.issued?

/-- The CTAs completed so far. -/
def completedCtas (log : List DispatchEvent) : List (Nat × Dim3) :=
  log.filterMap DispatchEvent.completed?

/-- The kernels that have ended so far. -/
def doneUids (log : List DispatchEvent) : List Nat := log.filterMap DispatchEvent.done?

/-- The kernels reported so far. -/
def reportedUids (log : List DispatchEvent) : List Nat := log.filterMap DispatchEvent.reported?

/-- The CTAs of one kernel issued so far. -/
def issuedOf (uid : Nat) (log : List DispatchEvent) : List Dim3 :=
  ((issuedCtas log).filter fun a => a.1 == uid).map (·.2)

section

variable (log log' : List DispatchEvent)

@[simp] theorem launches_append : launches (log ++ log') = launches log ++ launches log' :=
  List.filterMap_append

@[simp] theorem issuedCtas_append : issuedCtas (log ++ log') = issuedCtas log ++ issuedCtas log' :=
  List.filterMap_append

@[simp] theorem completedCtas_append :
    completedCtas (log ++ log') = completedCtas log ++ completedCtas log' := List.filterMap_append

@[simp] theorem doneUids_append : doneUids (log ++ log') = doneUids log ++ doneUids log' :=
  List.filterMap_append

@[simp] theorem reportedUids_append :
    reportedUids (log ++ log') = reportedUids log ++ reportedUids log' := List.filterMap_append

@[simp] theorem issuedOf_append (uid : Nat) :
    issuedOf uid (log ++ log') = issuedOf uid log ++ issuedOf uid log' := by
  rw [issuedOf, issuedCtas_append, List.filter_append, List.map_append]
  rfl

end

/-- The errors of a core are errors of the GPU. -/
def liftCore {α : Type} : Except Halt α → Except GpuHalt α
  | .ok a => .ok a
  | .error h => .error (.core h)

/-- The errors of the initialisation of threads are errors of the GPU. -/
def liftInit {α : Type} : Except InitFault α → Except GpuHalt α
  | .ok a => .ok a
  | .error f => .error (.init f)

/-- The hardware slot and the first hardware thread that `issue_block2core` chooses. -/
def Residency.issueSite (cfg : CoreConfig) (s : Residency) (k : Kernel) :
    Except Halt (Nat × Nat) := do
  let s ← takeResources cfg s k
  let slots := if cfg.gpgpuConcurrentKernelSm then cfg.maxCtaPerCore else s.kernelMaxCtaPerShader
  let slot ← s.freeCtaHwId slots slots
  let (_, startThread) ← placeCta cfg s k slot
  pure (slot, startThread)

namespace GpgpuSim

variable (cfg : GpuConfig) (s : GpgpuSim)

/-- A slot that `launch` may take: empty, or with a kernel that is `done`. -/
def freeSlot : Option Kernel → Bool
  | none => true
  | some k => (s.kernels k.uid).done

/-- `can_start_kernel`. -/
def canStartKernel : Bool := s.runningKernels.any s.freeSlot

/-- `launch`. -/
def launch (l : KernelLaunch) : Except GpuHalt GpgpuSim := do
  require .ctaTooLarge (l.kernel.threadsPerCta ≤ cfg.core.nThreadPerShader)
  let n ← fetch .noSlot (s.runningKernels.findIdx? s.freeSlot)
  pure { s with
    runningKernels := s.runningKernels.set n (some l.kernel)
    kernels := Function.update s.kernels l.kernel.uid l.initial }

/-- `hit_max_cta_count`. -/
def hitMaxCtaCount : Bool :=
  cfg.gpuMaxCtaOpt != 0 && cfg.gpuMaxCtaOpt ≤ s.gpuTotIssuedCta + s.totalCtaLaunched

/-- `no_more_ctas_to_run` of a kernel. -/
def noMoreCtasToRun (k : Kernel) : Bool := (s.kernels k.uid).noMoreCtasToRun

/-- `kernel_more_cta_left`. -/
def kernelMoreCtaLeft : Option Kernel → Bool
  | none => false
  | some k => !s.hitMaxCtaCount cfg && !s.noMoreCtasToRun k

/-- `decrement_kernel_latency`. -/
def decrementKernelLatency : GpgpuSim :=
  { s with kernels := s.runningKernels.foldl (fun kernels slot =>
      match slot with
      | none => kernels
      | some k => Function.update kernels k.uid
          { kernels k.uid with tbLatency := (kernels k.uid).tbLatency - 1 }) s.kernels }

/-- The loop of `select_kernel` over the other slots: the slot and its kernel. -/
def findKernel : List Nat → Except GpuHalt (Option (Nat × Kernel))
  | [] => pure none
  | n :: ns => do
    let idx := (n + s.lastIssuedKernel + 1) % cfg.maxConcurrentKernel
    let slot ← fetch .indexOutOfRange s.runningKernels[idx]?
    match slot with
    | none => findKernel ns
    | some k =>
      if s.kernelMoreCtaLeft cfg slot = true ∧ (s.kernels k.uid).tbLatency = 0 then
        pure (some (idx, k))
      else findKernel ns

/-- `select_kernel`. -/
def selectKernel : Except GpuHalt (GpgpuSim × Option Kernel) := do
  let last ← fetch .indexOutOfRange s.runningKernels[s.lastIssuedKernel]?
  match last.filter fun k => !s.noMoreCtasToRun k && (s.kernels k.uid).tbLatency == 0 with
  | some k =>
    if k.uid ∈ s.executedKernelUids then pure (s, some k)
    else pure ({ s with executedKernelUids := s.executedKernelUids ++ [k.uid] }, some k)
  | none => do
    let found ← s.findKernel cfg (List.range s.runningKernels.length)
    match found with
    | none => pure (s, none)
    | some (idx, k) => do
      require .executedBefore (k.uid ∉ s.executedKernelUids)
      pure ({ s with
        lastIssuedKernel := idx
        executedKernelUids := s.executedKernelUids ++ [k.uid] }, some k)

/-- `finished_kernel`. -/
def takeFinishedKernel : GpgpuSim × List DispatchEvent :=
  match s.finishedKernel with
  | [] => (s, [])
  | uid :: rest => ({ s with finishedKernel := rest }, [.reported uid])

/-- `set_kernel_done`. -/
def setKernelDone (k : Kernel) : Except GpuHalt GpgpuSim := do
  let n ← fetch .notRunning (s.runningKernels.findIdx? fun slot => slot.any (·.uid == k.uid))
  pure { s with
    finishedKernel := s.finishedKernel ++ [k.uid]
    runningKernels := s.runningKernels.set n none }

/-- The core with number `i` of cluster `c`. -/
def core? (c i : Nat) : Option SimtCore := s.cores[c]?.bind (·[i]?)

/-- Replace one core. -/
def setCore (c i : Nat) (core : SimtCore) : GpgpuSim :=
  { s with cores := s.cores.modify c (·.set i core) }

/-- The kernel that a cluster asks a CTA of for core `i`. -/
def pickKernel (c i : Nat) : Except GpuHalt (GpgpuSim × Option Kernel) :=
  if cfg.core.gpgpuConcurrentKernelSm then s.selectKernel cfg
  else do
    let core ← fetch .indexOutOfRange (s.core? c i)
    let kernel := core.residency.kernel
    if s.kernelMoreCtaLeft cfg kernel = true ∨ core.notCompleted ≠ 0 then pure (s, kernel)
    else do
      let (s, selected) ← s.selectKernel cfg
      match selected with
      | none => pure (s, none)
      | some k =>
        let residency := { core.residency with kernel := some k }
        pure (s.setCore c i { core with residency }, some k)

/-- `shader_core_ctx::issue_block2core`. -/
def issueBlock2core (c i : Nat) (k : Kernel) : Except GpuHalt (GpgpuSim × DispatchEvent) := do
  let core ← fetch .indexOutOfRange (s.core? c i)
  let (slot, startThread) ← liftCore (core.residency.issueSite cfg.core k)
  let residency ← liftCore (core.residency.issueBlock2core cfg.core k)
  let kernel := s.kernels k.uid
  let block ← liftInit (initBlock (cfg.site c i) slot startThread {
    thread := core.thread
    threadState := core.threadState
    kernel := kernel.incRunning
    ctaLookup := s.ctaLookup })
  let (nActive, activeThreads) ← liftInit (initWarps cfg.core.warpSize startThread
    (startThread + kernel.threadsPerCta) core.activeThreads)
  let s := s.setCore c i {
    residency := { residency with
      ctaStatus := Function.update residency.ctaStatus slot block.nthreadsInBlock }
    notCompleted := core.notCompleted + nActive
    thread := block.thread
    threadState := block.threadState
    activeThreads := activeThreads }
  pure ({ s with
      kernels := Function.update s.kernels k.uid block.kernel
      ctaLookup := block.ctaLookup },
    .ctaIssued k.uid kernel.nextCta (cfg.cidToSid i c) slot)

/-- The loop of `simt_core_cluster::issue_block2core` over the cores. -/
def tryCores (c next : Nat) : List Nat → GpgpuSim → Except GpuHalt (GpgpuSim × Option DispatchEvent)
  | [], s => pure (s, none)
  | i :: is, s => do
    let i := (i + next + 1) % cfg.nSimtCoresPerCluster
    let (s, kernel) ← s.pickKernel cfg c i
    match kernel with
    | none => tryCores c next is s
    | some k =>
      if s.kernelMoreCtaLeft cfg (some k) = true then do
        let core ← fetch .indexOutOfRange (s.core? c i)
        let ok ← liftCore (core.residency.canIssue1block cfg.core k)
        if ok = true then do
          let (s, e) ← s.issueBlock2core cfg c i k
          pure ({ s with ctaIssueNextCore := s.ctaIssueNextCore.set c i }, some e)
        else tryCores c next is s
      else tryCores c next is s

/-- `gpgpu_sim::issue_block2core`. -/
def issueBlocks : Except GpuHalt (GpgpuSim × List DispatchEvent) :=
  let lastIssued := s.lastClusterIssue
  (List.range cfg.nSimtClusters).foldlM (fun r i => do
    let idx := (i + lastIssued + 1) % cfg.nSimtClusters
    let next ← fetch .indexOutOfRange r.1.ctaIssueNextCore[idx]?
    let (s, issued) ← tryCores cfg idx next (List.range cfg.nSimtCoresPerCluster) r.1
    match issued with
    | none => pure (s, r.2)
    | some e => pure ({ s with
        lastClusterIssue := idx
        totalCtaLaunched := s.totalCtaLaunched + 1 }, r.2 ++ [e])) (s, [])

/-- `dec_running` of a kernel, after its assertion. -/
def decRunning (uid : Nat) : GpgpuSim :=
  { s with kernels := Function.update s.kernels uid (s.kernels uid).decRunning }

/-- `set_done` and `registerExit`, when a thread executes its last instruction. -/
def setDone (c i tid : Nat) : Except GpuHalt GpgpuSim := do
  let core ← fetch .indexOutOfRange (s.core? c i)
  let thd ← fetch .noSuchThread (core.thread tid)
  require .alreadyDone (thd.done = false)
  let info ← fetch .noSuchThread (s.ctaLookup thd.smIdx)
  let s := s.setCore c i { core with
    thread := Function.update core.thread tid (some { thd with done := true }) }
  pure { s with ctaLookup :=
    Function.update s.ctaLookup thd.smIdx (some { info with exited := info.exited + 1 }) }

/-- What `fetch` does with a hardware thread of a warp that is done: an active one exits from its
CTA by `register_cta_thread_exit`. -/
def exitThread (c i tid : Nat) : Except GpuHalt (GpgpuSim × List DispatchEvent) := do
  let core ← fetch .indexOutOfRange (s.core? c i)
  require .indexOutOfRange (tid < cfg.core.nThreadPerShader)
  let ctx := core.threadState tid
  if ctx.active = false then pure (s, [])
  else do
    let slot ← fetch .noSuchThread ctx.ctaId
    let cta ← fetch .noSuchThread (core.residency.resident slot)
    let residency ← liftCore (core.residency.registerCtaThreadExit cfg.core slot)
    let core' : SimtCore := {
      residency
      notCompleted := core.notCompleted - 1
      thread := core.thread
      threadState := Function.update core.threadState tid { ctx with active := false }
      activeThreads := Function.update core.activeThreads tid false }
    if residency.ctaStatus slot ≠ 0 then pure (s.setCore c i core', [])
    else do
      let k := cta.kernel
      require .emptyTooEarly (residency.nActiveCta = 0 → core.residency.kernel ≠ some k →
        s.kernelMoreCtaLeft cfg core.residency.kernel = false)
      let kernel := s.kernels k.uid
      require .noneRunning (0 < kernel.numCoresRunning)
      let s := s.decRunning k.uid
      let completed := .ctaCompleted k.uid (core.ctaidAt tid) (cfg.cidToSid i c) slot
      if s.kernelMoreCtaLeft cfg (some k) = true ∨ 1 < kernel.numCoresRunning then
        pure (s.setCore c i core', [completed])
      else do
        let residency := if residency.kernel = some k then { residency with kernel := none }
          else residency
        let s ← (s.setCore c i { core' with residency }).setKernelDone k
        pure (s, [completed, .kernelDone k.uid])

/-- The part of `update_stats` that counts CTAs. -/
def updateStats : GpgpuSim :=
  { s with gpuTotIssuedCta := s.gpuTotIssuedCta + s.totalCtaLaunched, totalCtaLaunched := 0 }

/-- The part of `gpgpu_sim::init` that counts CTAs and starts the cores anew. -/
def init : GpgpuSim :=
  { s with
    totalCtaLaunched := 0
    cores := s.cores.map (·.map SimtCore.reinit) }

end GpgpuSim

/-- What the simulator does with kernels and CTAs. -/
inductive DispatchAction where
  | launch (l : KernelLaunch)
  | issueBlocks
  | decrementKernelLatency
  /-- A thread executes its last instruction. -/
  | setDone (c i tid : Nat)
  | exitThread (c i tid : Nat)
  | takeFinishedKernel
  | updateStats
  | init
  /-- `clear_executed_kernel_info`. -/
  | clearExecutedKernelInfo

namespace GpgpuSim

/-- One action. -/
def step (cfg : GpuConfig) (s : GpgpuSim) :
    DispatchAction → Except GpuHalt (GpgpuSim × List DispatchEvent)
  | .launch l => do
    let s ← s.launch cfg l
    pure (s, [.launched l])
  | .issueBlocks => s.issueBlocks cfg
  | .decrementKernelLatency => pure (s.decrementKernelLatency, [])
  | .setDone c i tid => do
    let s ← s.setDone c i tid
    pure (s, [])
  | .exitThread c i tid => s.exitThread cfg c i tid
  | .takeFinishedKernel => pure s.takeFinishedKernel
  | .updateStats => pure (s.updateStats, [])
  | .init => pure (s.init, [])
  | .clearExecutedKernelInfo => pure ({ s with executedKernelUids := [] }, [])

/-- What the surroundings promise: a kernel is launched once, when a slot is free, with CTAs
that fit a core. A thread executes nothing after its end, and a warp is done only when its threads
are. The GPU starts anew when no CTA is left on a core and all that were issued are folded into
the total. -/
def Permitted (cfg : GpuConfig) (s : GpgpuSim × List DispatchEvent) : DispatchAction → Prop
  | .launch l => s.1.canStartKernel = true ∧ (∀ l' ∈ launches s.2, l'.kernel.uid ≠ l.kernel.uid) ∧
      l.kernel.threadsPerCta ≤ cfg.core.nThreadPerShader
  | .setDone c i tid => ((s.1.core? c i).bind (·.thread tid)).any (!·.done) = true
  | .exitThread c i tid => tid < cfg.core.nThreadPerShader ∧
      ((s.1.core? c i).any fun core => (core.thread tid).all (·.done)) = true
  | .init => s.1.totalCtaLaunched = 0 ∧
      ∀ row ∈ s.1.cores, ∀ core ∈ row, core.residency.nActiveCta = 0
  | _ => True

instance (cfg : GpuConfig) (r : GpgpuSim × List DispatchEvent) (a : DispatchAction) :
    Decidable (Permitted cfg r a) :=
  match a with
  | .launch _ => inferInstanceAs (Decidable (_ ∧ _ ∧ _))
  | .setDone .. => inferInstanceAs (Decidable (_ = true))
  | .exitThread .. => inferInstanceAs (Decidable (_ ∧ _ = true))
  | .init => inferInstanceAs (Decidable (_ ∧ _))
  | .issueBlocks | .decrementKernelLatency | .takeFinishedKernel | .updateStats
  | .clearExecutedKernelInfo => isTrue trivial

/-- The GPU after its constructors. -/
def initial (cfg : GpuConfig) (kernelPaddedThreadsPerCta : Nat) : GpgpuSim where
  runningKernels := List.replicate cfg.maxConcurrentKernel none
  kernels := fun _ => { gridDim := ⟨0, 0, 0⟩, blockDim := ⟨0, 0, 0⟩ }
  cores := List.replicate cfg.nSimtClusters
    (List.replicate cfg.nSimtCoresPerCluster { residency := .empty kernelPaddedThreadsPerCta })
  ctaIssueNextCore := List.replicate cfg.nSimtClusters (cfg.nSimtCoresPerCluster - 1)
  lastClusterIssue := cfg.nSimtClusters - 1

end GpgpuSim

end WaspSim
