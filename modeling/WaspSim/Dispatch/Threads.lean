import WaspSim.Core.Meets
import WaspSim.Core.Range
import WaspSim.Dispatch.Grid

/-!
# The threads of a CTA

The first thread of a CTA that a core initialises creates the threads of the whole CTA, and
each hardware thread takes the next of them, in the place of a thread that is done. The values of
the kernel parameters, the checkpoints and the deleted threads that a CTA remembers are left out.
-/

namespace WaspSim

/-- The assertions on the way from a kernel to the threads of a core. -/
inductive InitFault where
  /-- The hardware thread still runs another thread. -/
  | notDone
  /-- `check_cta_thread_status_and_reset` found threads that have not exited. -/
  | stillRunning
  /-- More threads wait than the CTA has hardware threads left. -/
  | tooManyActive
  /-- A CTA that no core can hold. -/
  | ctaTooLarge
  /-- The front of an empty list of threads. -/
  | noActiveThread
  /-- The loop over the threads of a CTA did not end. -/
  | outOfFuel
  /-- A hardware thread beyond `m_thread`. -/
  | indexOutOfRange
  /-- `init_warps` found a thread active. -/
  | alreadyActive
  deriving DecidableEq, Repr

/-- The hardware context that `ptx_thread_info::init` writes down. -/
structure HwContext where
  sid : Nat
  hwCtaId : Nat
  hwWarpId : Nat
  hwTid : Nat
  deriving DecidableEq, Repr

/-- `ptx_thread_info` as far as it is set up for its CTA. -/
structure PtxThreadInfo where
  ctaid : Dim3
  tid : Dim3
  /-- The key `sm_idx` of its shared memory and of its `ptx_cta_info`. -/
  smIdx : Nat
  /-- The keys of its local memory: the core and the number of the thread there. -/
  localMem : Nat × Nat
  /-- The key of its `ptx_warp_info`. -/
  warpInfo : Nat
  hw : Option HwContext := none
  /-- `is_done`. -/
  done : Bool := false
  deriving DecidableEq, Repr

/-- `ptx_cta_info`, by the number of threads that it was given and of those that have exited. -/
structure PtxCtaInfo where
  given : Nat := 0
  exited : Nat := 0
  deriving DecidableEq, Repr

/-- The `ptx_cta_info` for a new CTA: a new one, or the old one after
`check_cta_thread_status_and_reset`. -/
def PtxCtaInfo.renew : Option PtxCtaInfo → Except InitFault PtxCtaInfo
  | none => pure {}
  | some info => do
    require .stillRunning (info.exited = info.given)
    pure {}

/-- The part of `kernel_info_t` that changes while a kernel runs, with its dimensions. -/
structure KernelState where
  /-- `m_grid_dim`. -/
  gridDim : Dim3
  /-- `m_block_dim`. -/
  blockDim : Dim3
  /-- `m_next_cta`. -/
  nextCta : Dim3 := ⟨0, 0, 0⟩
  /-- `m_next_tid`. -/
  nextTid : Dim3 := ⟨0, 0, 0⟩
  /-- `m_active_threads`. -/
  activeThreads : List PtxThreadInfo := []
  /-- `m_num_cores_running`. -/
  numCoresRunning : Nat := 0
  /-- `m_kernel_TB_latency`. -/
  tbLatency : Nat := 0
  deriving DecidableEq, Repr

namespace KernelState

/-- `threads_per_cta`. -/
def threadsPerCta (k : KernelState) : Nat := k.blockDim.volume

/-- `no_more_ctas_to_run`. -/
def noMoreCtasToRun (k : KernelState) : Bool := k.gridDim.past k.nextCta

/-- `increment_cta_id`. -/
def incrementCtaId (k : KernelState) : KernelState :=
  { k with nextCta := k.nextCta.incrementXThenYThenZ k.gridDim, nextTid := ⟨0, 0, 0⟩ }

/-- `inc_running`. -/
def incRunning (k : KernelState) : KernelState :=
  { k with numCoresRunning := k.numCoresRunning + 1 }

/-- `dec_running`, after its assertion. -/
def decRunning (k : KernelState) : KernelState :=
  { k with numCoresRunning := k.numCoresRunning - 1 }

/-- `done`. -/
def done (k : KernelState) : Bool := k.noMoreCtasToRun && k.numCoresRunning == 0

end KernelState

/-- Where a core initialises threads: its number, the number of all cores and its sizes. -/
structure InitSite where
  sid : Nat
  /-- `gpgpu_param_num_shaders`. -/
  numShaders : Nat
  warpSize : Nat
  /-- `n_thread_per_shader`. -/
  nThreadPerShader : Nat

/-- `sm_idx`. -/
def InitSite.smIdx (site : InitSite) (hwCtaId : Nat) : Nat := hwCtaId * site.numShaders + site.sid

/-- The thread of the next CTA with number `next_tid`, created for hardware thread `tid`. -/
def KernelState.newThread (k : KernelState) (site : InitSite) (tid hwCtaId hwWarpId : Nat) :
    PtxThreadInfo where
  ctaid := k.nextCta
  tid := k.nextTid
  smIdx := site.smIdx hwCtaId
  localMem := (site.sid, k.blockDim.linear k.nextTid + tid)
  warpInfo := hwWarpId

/-- The loop of `ptx_sim_init_thread` over the threads of a new CTA. -/
def createThreads (site : InitSite) (tid hwCtaId hwWarpId : Nat) :
    Nat → KernelState → PtxCtaInfo → Option (KernelState × PtxCtaInfo)
  | 0, _, _ => none
  | fuel + 1, k, info =>
    if k.blockDim.past k.nextTid = true then some (k, info)
    else createThreads site tid hwCtaId hwWarpId fuel
      { k with
        nextTid := k.nextTid.incrementXThenYThenZ k.blockDim
        activeThreads := k.activeThreads ++ [k.newThread site tid hwCtaId hwWarpId] }
      { info with given := info.given + 1 }

/-- What `ptx_sim_init_thread` returns and leaves. -/
structure InitResult where
  count : Nat
  /-- `*thread_info`. -/
  thread : Option PtxThreadInfo
  kernel : KernelState
  /-- `ptx_cta_lookup`. -/
  ctaLookup : Nat → Option PtxCtaInfo

/-- `ptx_sim_init_thread`, for a hardware thread that has `thread`. -/
def ptxSimInitThread (site : InitSite) (ctaLookup : Nat → Option PtxCtaInfo)
    (thread : Option PtxThreadInfo) (k : KernelState) (tid threadsLeft hwCtaId hwWarpId : Nat) :
    Except InitFault InitResult := do
  require .notDone (thread.all (·.done) = true)
  let context : HwContext := ⟨site.sid, hwCtaId, hwWarpId, tid⟩
  match k.activeThreads with
  | thd :: rest => do
    require .tooManyActive (k.activeThreads.length ≤ threadsLeft)
    pure ⟨1, some { thd with hw := some context }, { k with activeThreads := rest }, ctaLookup⟩
  | [] =>
    if k.noMoreCtasToRun = true then pure ⟨0, none, k, ctaLookup⟩
    else if threadsLeft < k.threadsPerCta then pure ⟨0, none, k, ctaLookup⟩
    else do
      require .ctaTooLarge (0 < site.nThreadPerShader / k.threadsPerCta)
      let info ← PtxCtaInfo.renew (ctaLookup (site.smIdx hwCtaId))
      let (k, info) ← fetch .outOfFuel
        (createThreads site tid hwCtaId hwWarpId (k.threadsPerCta + 1) k info)
      let ctaLookup := Function.update ctaLookup (site.smIdx hwCtaId) (some info)
      let k := k.incrementCtaId
      require .tooManyActive (k.activeThreads.length ≤ threadsLeft)
      match k.activeThreads with
      | thd :: rest =>
        pure ⟨1, some { thd with hw := some context }, { k with activeThreads := rest }, ctaLookup⟩
      | [] => throw .noActiveThread

/-- `thread_ctx_t`. -/
structure ThreadCtx where
  /-- `m_cta_id`, none for -1. -/
  ctaId : Option Nat := none
  /-- `m_active`. -/
  active : Bool := false
  deriving DecidableEq, Repr

/-- What the thread loop of `issue_block2core` changes. -/
structure BlockState where
  /-- `nthreads_in_block`. -/
  nthreadsInBlock : Nat := 0
  /-- `m_thread`. -/
  thread : Nat → Option PtxThreadInfo
  /-- `m_threadState`. -/
  threadState : Nat → ThreadCtx
  kernel : KernelState
  /-- `ptx_cta_lookup`. -/
  ctaLookup : Nat → Option PtxCtaInfo

/-- The body of the thread loop of `issue_block2core`, for thread `i` of `ctaSize`. -/
def initThread (site : InitSite) (ctaSize hwCtaId startThread : Nat) (b : BlockState) (i : Nat) :
    Except InitFault BlockState := do
  let tid := startThread + i
  require .indexOutOfRange (tid < site.nThreadPerShader)
  let r ← ptxSimInitThread site b.ctaLookup (b.thread tid) b.kernel tid (ctaSize - i) hwCtaId
    (tid / site.warpSize)
  pure {
    nthreadsInBlock := b.nthreadsInBlock + r.count
    thread := Function.update b.thread tid r.thread
    threadState := Function.update b.threadState tid ⟨some hwCtaId, true⟩
    kernel := r.kernel
    ctaLookup := r.ctaLookup }

/-- The thread loop of `issue_block2core`. -/
def initBlock (site : InitSite) (hwCtaId startThread : Nat) (b : BlockState) :
    Except InitFault BlockState :=
  (List.range b.kernel.threadsPerCta).foldlM
    (initThread site b.kernel.threadsPerCta hwCtaId startThread) b

/-- The loop of `init_warps` over the threads of its warps, which marks them in
`m_active_threads` and counts them. -/
def initWarps (warpSize startThread endThread : Nat) (activeThreads : Nat → Bool) :
    Except InitFault (Nat × (Nat → Bool)) :=
  let first := startThread / warpSize * warpSize
  (List.range (endThread - first)).foldlM (fun s t => do
    require .alreadyActive (s.2 (first + t) = false)
    pure (s.1 + 1, Function.update s.2 (first + t) true)) (0, activeThreads)

/-- Thread number `i` of the next CTA as the loop over its threads creates it. -/
def KernelState.nthThread (k : KernelState) (site : InitSite) (hwCtaId startThread i : Nat) :
    PtxThreadInfo where
  ctaid := k.nextCta
  tid := k.blockDim.nth i
  smIdx := site.smIdx hwCtaId
  localMem := (site.sid, startThread + i)
  warpInfo := startThread / site.warpSize

/-- Thread number `i` of the next CTA with the hardware thread that it runs on. -/
def KernelState.boundThread (k : KernelState) (site : InitSite) (hwCtaId startThread i : Nat) :
    PtxThreadInfo :=
  { k.nthThread site hwCtaId startThread i with
    hw := some ⟨site.sid, hwCtaId, (startThread + i) / site.warpSize, startThread + i⟩ }

section

variable {site : InitSite} {k : KernelState} {info : PtxCtaInfo} {hwCtaId startThread n : Nat}

/-- The loop creates every thread that is left, in order. -/
theorem createThreads_eq {m : Nat} (hm : m + n = k.threadsPerCta)
    (hnext : k.nextTid = k.blockDim.nth m) {fuel : Nat} (hfuel : n < fuel) :
    createThreads site startThread hwCtaId (startThread / site.warpSize) fuel k info =
      some ({ k with
        nextTid := k.blockDim.nth k.threadsPerCta
        activeThreads := k.activeThreads ++ (List.range' m n).map
          (k.nthThread site hwCtaId startThread) }, { info with given := info.given + n }) := by
  induction n generalizing m k info fuel with
  | zero =>
    obtain ⟨fuel, rfl⟩ : ∃ f, fuel = f + 1 := ⟨fuel - 1, by omega⟩
    have hm' : m = k.threadsPerCta := hm
    have hpast : k.blockDim.past k.nextTid = true := by
      rw [hnext, Dim3.past_nth (Nat.le_of_eq hm')]
      exact hm'
    rw [createThreads, if_pos hpast, List.range'_zero, List.map_nil, List.append_nil, ← hm',
      ← hnext, Nat.add_zero]
  | succ n ih =>
    obtain ⟨fuel, rfl⟩ : ∃ f, fuel = f + 1 := ⟨fuel - 1, by omega⟩
    have hlt : m < k.blockDim.volume := by
      have hvolume : k.threadsPerCta = k.blockDim.volume := rfl
      omega
    have hpast : ¬k.blockDim.past k.nextTid = true := by
      rw [hnext, Dim3.past_nth (Nat.le_of_lt hlt)]
      exact Nat.ne_of_lt hlt
    have hthread : k.newThread site startThread hwCtaId (startThread / site.warpSize) =
        k.nthThread site hwCtaId startThread m := by
      unfold KernelState.newThread KernelState.nthThread
      rw [hnext, Dim3.linear_nth, Nat.add_comm m]
    rw [createThreads, if_neg hpast, hthread]
    refine (ih (m := m + 1) ?_ ?_ (Nat.lt_of_succ_lt_succ hfuel)).trans ?_
    · rw [Nat.add_assoc, Nat.add_comm 1]
      exact hm
    · rw [← Dim3.increment_nth hlt, ← hnext]
    · rw [List.range'_succ, List.map_cons, List.append_assoc, Nat.add_assoc, Nat.add_comm 1 n]
      rfl

variable {ctaLookup : Nat → Option PtxCtaInfo} {thread : Option PtxThreadInfo}

/-- The first thread of a CTA creates all of them and takes its own. -/
theorem ptxSimInitThread_first (hdone : thread.all (·.done) = true)
    (hinfo : ∀ info, ctaLookup (site.smIdx hwCtaId) = some info → info.exited = info.given)
    (hnext : k.nextTid = ⟨0, 0, 0⟩) (hactive : k.activeThreads = [])
    (hmore : k.noMoreCtasToRun = false) (hn : k.threadsPerCta = n + 1)
    (hle : k.threadsPerCta ≤ site.nThreadPerShader) :
    Meets (ptxSimInitThread site ctaLookup thread k startThread k.threadsPerCta hwCtaId
        (startThread / site.warpSize))
      (· = ⟨1, some (k.boundThread site hwCtaId startThread 0), { k.incrementCtaId with
        activeThreads := (List.range' 1 n).map (k.nthThread site hwCtaId startThread) },
        Function.update ctaLookup (site.smIdx hwCtaId) (some ⟨k.threadsPerCta, 0⟩)⟩) := by
  have hrenew : PtxCtaInfo.renew (ctaLookup (site.smIdx hwCtaId)) = .ok {} := by
    cases hlookup : ctaLookup (site.smIdx hwCtaId) with
    | none => rfl
    | some info => exact bind_eq_ok.mpr ⟨(), require_eq_ok.mpr (hinfo info hlookup), rfl⟩
  have hcreate : createThreads site startThread hwCtaId (startThread / site.warpSize)
      (k.threadsPerCta + 1) k {} = some ({ k with
        nextTid := k.blockDim.nth k.threadsPerCta
        activeThreads := (List.range' 0 (n + 1)).map (k.nthThread site hwCtaId startThread) },
        ⟨k.threadsPerCta, 0⟩) := by
    rw [createThreads_eq (m := 0) (n := n + 1) (by rw [hn, Nat.zero_add])
      (by rw [hnext, Dim3.nth_zero]) (by omega), hactive, List.nil_append, ← hn, Nat.zero_add]
  have hlen : ((List.range' 0 (n + 1)).map (k.nthThread site hwCtaId startThread)).length ≤
      k.threadsPerCta := by
    rw [List.length_map, List.length_range', hn]
  unfold ptxSimInitThread
  simp only [hactive, hmore, Bool.false_eq_true, ↓reduceIte, Nat.lt_irrefl]
  refine .require hdone (.require (Nat.div_pos hle (by omega)) (.bind_ok hrenew ?_))
  exact .fetch hcreate (.require hlen (.pure rfl))

/-- Every other thread of a CTA takes the next one. -/
theorem ptxSimInitThread_next (hdone : thread.all (·.done) = true) {thd : PtxThreadInfo}
    {rest : List PtxThreadInfo} {tid threadsLeft warp : Nat}
    (hactive : k.activeThreads = thd :: rest) (hlen : rest.length + 1 ≤ threadsLeft) :
    Meets (ptxSimInitThread site ctaLookup thread k tid threadsLeft hwCtaId warp)
      (· = ⟨1, some { thd with hw := some ⟨site.sid, hwCtaId, warp, tid⟩ },
        { k with activeThreads := rest }, ctaLookup⟩) := by
  unfold ptxSimInitThread
  simp only [hactive]
  exact .require hdone (.require hlen (.pure rfl))

/-- The kernel after `i` threads of its next CTA. -/
def KernelState.issuing (k : KernelState) (site : InitSite) (hwCtaId startThread i : Nat) :
    KernelState :=
  if i = 0 then k
  else { k.incrementCtaId with
    activeThreads := (List.range' i (k.threadsPerCta - i)).map
      (k.nthThread site hwCtaId startThread) }

/-- A core may initialise the next CTA of a kernel in a hardware slot, from a hardware thread on:
the threads there are done, and those of the last CTA in the slot have exited. -/
structure BlockState.Vacant (b : BlockState) (site : InitSite) (hwCtaId startThread : Nat) :
    Prop where
  nextTid : b.kernel.nextTid = ⟨0, 0, 0⟩
  activeThreads : b.kernel.activeThreads = []
  more : b.kernel.noMoreCtasToRun = false
  pos : 0 < b.kernel.threadsPerCta
  fits : b.kernel.threadsPerCta ≤ site.nThreadPerShader
  done : ∀ t < b.kernel.threadsPerCta, (b.thread (startThread + t)).all (·.done) = true
  exited : ∀ info, b.ctaLookup (site.smIdx hwCtaId) = some info → info.exited = info.given

/-- A core with the first `i` threads of the next CTA of a kernel. -/
def BlockState.initialized (b : BlockState) (site : InitSite) (hwCtaId startThread i : Nat) :
    BlockState where
  nthreadsInBlock := b.nthreadsInBlock + i
  thread := overlay b.thread startThread i fun t =>
    some (b.kernel.boundThread site hwCtaId startThread t)
  threadState := overlay b.threadState startThread i fun _ => ⟨some hwCtaId, true⟩
  kernel := b.kernel.issuing site hwCtaId startThread i
  ctaLookup := if i = 0 then b.ctaLookup
    else Function.update b.ctaLookup (site.smIdx hwCtaId) (some ⟨b.kernel.threadsPerCta, 0⟩)

namespace BlockState

variable {b : BlockState}

/-- The next hardware thread takes the next thread of the CTA. -/
theorem Vacant.initThread (h : b.Vacant site hwCtaId startThread) {i : Nat}
    (hi : i < b.kernel.threadsPerCta) (hin : startThread + i < site.nThreadPerShader) :
    Meets (WaspSim.initThread site b.kernel.threadsPerCta hwCtaId startThread
        (b.initialized site hwCtaId startThread i) i)
      (· = b.initialized site hwCtaId startThread (i + 1)) := by
  obtain ⟨m, hm⟩ : ∃ m, b.kernel.threadsPerCta = i + 1 + m :=
    ⟨b.kernel.threadsPerCta - (i + 1), by omega⟩
  have hthread : (b.initialized site hwCtaId startThread i).thread (startThread + i) =
      b.thread (startThread + i) := if_neg (by omega)
  -- what is left of the list after thread `i`
  have hrest : b.kernel.issuing site hwCtaId startThread (i + 1) = { b.kernel.incrementCtaId with
      activeThreads := (List.range' (i + 1) m).map
        (b.kernel.nthThread site hwCtaId startThread) } := by
    rw [KernelState.issuing, if_neg (Nat.succ_ne_zero i), hm, Nat.add_sub_cancel_left]
  have hresult : Meets (ptxSimInitThread site (b.initialized site hwCtaId startThread i).ctaLookup
      ((b.initialized site hwCtaId startThread i).thread (startThread + i))
      (b.initialized site hwCtaId startThread i).kernel (startThread + i)
      (b.kernel.threadsPerCta - i) hwCtaId ((startThread + i) / site.warpSize))
      (· = ⟨1, some (b.kernel.boundThread site hwCtaId startThread i),
        b.kernel.issuing site hwCtaId startThread (i + 1),
        (b.initialized site hwCtaId startThread (i + 1)).ctaLookup⟩) := by
    rw [hthread, hrest]
    cases i with
    | zero =>
      have hcount : b.kernel.threadsPerCta = m + 1 := by omega
      exact ptxSimInitThread_first (h.done 0 hi) h.exited h.nextTid h.activeThreads h.more
        hcount h.fits
    | succ i =>
      have hlist : (b.kernel.issuing site hwCtaId startThread (i + 1)).activeThreads =
          b.kernel.nthThread site hwCtaId startThread (i + 1) ::
            (List.range' (i + 2) m).map (b.kernel.nthThread site hwCtaId startThread) := by
        have hleft : b.kernel.threadsPerCta - (i + 1) = m + 1 := by omega
        rw [KernelState.issuing, if_neg (Nat.succ_ne_zero i), hleft]
        rfl
      have hlen : ((List.range' (i + 2) m).map
          (b.kernel.nthThread site hwCtaId startThread)).length + 1 ≤
          b.kernel.threadsPerCta - (i + 1) := by
        rw [List.length_map, List.length_range']
        omega
      refine (ptxSimInitThread_next (h.done (i + 1) hi) hlist hlen).mono ?_
      rintro _ rfl
      simp only [initialized, KernelState.issuing, Nat.add_eq_zero_iff, Nat.one_ne_zero, and_false,
        ↓reduceIte]
      rfl
  refine .require hin (.bind hresult ?_)
  rintro _ rfl
  refine .pure ?_
  simp only [initialized, overlay_succ, Nat.add_assoc]

/-- A kernel without threads under way gives the hardware threads of a CTA the threads of its next
block in order, unless the core has no such hardware threads. -/
theorem Vacant.initBlock (h : b.Vacant site hwCtaId startThread) :
    MeetsUnless (fun e => e = .indexOutOfRange ∧
        site.nThreadPerShader < startThread + b.kernel.threadsPerCta)
      (WaspSim.initBlock site hwCtaId startThread b)
      (fun b' => startThread + b.kernel.threadsPerCta ≤ site.nThreadPerShader ∧
        b' = b.initialized site hwCtaId startThread b.kernel.threadsPerCta) := by
  have hstart : b.initialized site hwCtaId startThread 0 = b := by
    rw [initialized, overlay_zero, overlay_zero]
    rfl
  refine MeetsUnless.mono (.foldlM_range (fun i b' => (0 < i → startThread + i ≤
    site.nThreadPerShader) ∧ b' = b.initialized site hwCtaId startThread i)
    (fun i b' hi hb' => ?_) ⟨fun hzero => absurd hzero (Nat.lt_irrefl 0), hstart.symm⟩)
    fun b' hb' => ⟨hb'.1 h.pos, hb'.2⟩
  rw [hb'.2]
  by_cases hin : startThread + i < site.nThreadPerShader
  · exact .of_meets ((h.initThread hi hin).mono fun b'' hb'' => ⟨fun _ => hin, hb''⟩)
  · refine .inl ⟨.indexOutOfRange, ?_, rfl, by omega⟩
    rw [WaspSim.initThread, require, if_neg hin]
    rfl

end BlockState

/-- The threads of a CTA become active when none of them was. -/
theorem initWarps_eq {warpSize : Nat} {activeThreads : Nat → Bool}
    (haligned : warpSize ∣ startThread) (hidle : ∀ t < n, activeThreads (startThread + t) = false) :
    initWarps warpSize startThread (startThread + n) activeThreads =
      .ok (n, overlay activeThreads startThread n fun _ => true) := by
  have hrun : Meets (initWarps warpSize startThread (startThread + n) activeThreads)
      (· = (n, overlay activeThreads startThread n fun _ => true)) := by
    unfold initWarps
    simp only [Nat.div_mul_cancel haligned, Nat.add_sub_cancel_left]
    refine .foldlM_range (fun t s => s = (t, overlay activeThreads startThread t fun _ => true))
      (fun t s ht hs => ?_) (by rw [overlay_zero])
    subst hs
    refine .require ?_ (.pure (by rw [overlay_succ]))
    rw [← hidle t ht]
    exact if_neg (by omega)
  obtain ⟨_, hok, rfl⟩ := hrun
  exact hok

end

end WaspSim
