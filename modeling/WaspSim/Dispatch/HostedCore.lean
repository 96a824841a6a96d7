import WaspSim.Correctness.Residency
import WaspSim.Correctness.Runs
import WaspSim.Dispatch.Barriers
import WaspSim.Dispatch.Runs

/-!
# The core with queues and the CTAs dispatched to it

The core with queues takes a CTA into any hardware slot that is free. A core of the dispatcher
chooses the slot and the hardware threads, and counts the threads that are left. Beside each other
on one kernel the two count the same: the slot that is chosen is one that the core with queues
takes, and the queues of a CTA are erased when the CTA leaves.
-/

namespace WaspSim

/-- A core with queues that has the geometry of a core of the dispatcher with one kernel. -/
structure Config.Hosts (core : Config) (cfg : CoreConfig) (k : Kernel) : Prop where
  single : cfg.gpgpuConcurrentKernelSm = false
  warpSize_eq : core.warpSize = cfg.warpSize
  threadsPerCta_eq : core.threadsPerCta = k.threadsPerCta
  maxWarps_eq : core.maxWarpsPerShader = cfg.nThreadPerShader / cfg.warpSize
  /-- `set_max_cta`. -/
  maxCta_eq : Residency.maxCta cfg k = .ok core.kernelMaxCtaPerShader

/-- Less than a warp is added to the threads of a CTA. -/
theorem Residency.threads_lt (cfg : CoreConfig) (k : KernelInfo) :
    (cfg.footprint k).threads < k.threadsPerCta + cfg.warpSize := by
  change cfg.exactPadded k < _
  have hpos := cfg.warpSize_pos
  have hdiv := Nat.div_add_mod' k.threadsPerCta cfg.warpSize
  unfold OccupancyConfig.exactPadded
  split
  · rw [Nat.succ_mul]
    omega
  · omega

variable {Mem : Type} {core : Config} {cfg : CoreConfig} {k : Kernel}

namespace Config.Hosts

variable (hosts : core.Hosts cfg k)
include hosts

/-- Both pad a CTA to the same size. -/
theorem paddedCtaSize_eq : core.paddedCtaSize = (cfg.footprint k.toKernelInfo).threads := by
  change _ = cfg.exactPadded k.toKernelInfo
  unfold paddedCtaSize OccupancyConfig.exactPadded
  rw [hosts.warpSize_eq, hosts.threadsPerCta_eq]

/-- A CTA is made of whole warps. -/
theorem warpsPerCta_mul :
    core.warpsPerCta * cfg.warpSize = (cfg.footprint k.toKernelInfo).threads := by
  have hdvd := Residency.warpSize_dvd_threads cfg k.toKernelInfo
  have hpos : 0 < (cfg.footprint k.toKernelInfo).threads / cfg.warpSize :=
    Nat.div_pos (Nat.le_of_dvd OccupancyConfig.threads_pos hdvd) cfg.warpSize_pos
  unfold warpsPerCta
  rw [hosts.paddedCtaSize_eq, hosts.warpSize_eq, orDefault_of_pos hpos, Nat.div_mul_cancel hdvd]

/-- The warps of a CTA have its threads. -/
theorem sum_threadsInWarp :
    ∑ i ∈ Finset.range core.warpsPerCta, Shader.threadsInWarp core i = k.threadsPerCta := by
  have hsum : ∀ n, ∑ i ∈ Finset.range n, Shader.threadsInWarp core i =
      min core.threadsPerCta (n * core.warpSize) := by
    intro n
    induction n with
    | zero => simp
    | succ n ih =>
      rw [Finset.sum_range_succ, ih, Nat.succ_mul, Shader.threadsInWarp]
      omega
  rw [hsum, hosts.warpSize_eq, hosts.warpsPerCta_mul, hosts.threadsPerCta_eq]
  exact Nat.min_eq_left (Residency.threadsPerCta_le cfg k.toKernelInfo)

/-- The warps of the hardware threads of a CTA are those that the core with queues gives to its
slot. -/
theorem mem_warps {slot w : Nat} {cta : Cta} (hk : cta.kernel = k)
    (hstart : cta.startThread = slot * (cfg.footprint k.toKernelInfo).threads) :
    w ∈ cta.warps cfg.warpSize ↔ w / core.warpsPerCta = slot := by
  have hmul := hosts.warpsPerCta_mul
  have hpos := core.warpsPerCta_pos
  have hplace : ∀ t, (slot * (cfg.footprint k.toKernelInfo).threads + t) / cfg.warpSize =
      slot * core.warpsPerCta + t / cfg.warpSize := by
    intro t
    rw [← hmul, ← Nat.mul_assoc, Nat.add_comm, Nat.add_mul_div_right _ _ cfg.warpSize_pos,
      Nat.add_comm]
  simp only [Cta.warps, hk, hstart, Finset.mem_image, Finset.mem_range, hplace]
  constructor
  · rintro ⟨t, ht, rfl⟩
    have hle := Residency.threadsPerCta_le cfg k.toKernelInfo
    have hlt : t / cfg.warpSize < core.warpsPerCta := by
      rw [Nat.div_lt_iff_lt_mul cfg.warpSize_pos, hmul]
      exact ht.trans_le hle
    rw [Nat.add_comm, Nat.add_mul_div_right _ _ hpos, Nat.div_eq_of_lt hlt, Nat.zero_add]
  · rintro rfl
    -- the first thread of the warp is one of the CTA
    refine ⟨w % core.warpsPerCta * cfg.warpSize, ?_, ?_⟩
    · have hfirst : w % core.warpsPerCta * cfg.warpSize + cfg.warpSize ≤
          core.warpsPerCta * cfg.warpSize := by
        rw [← Nat.succ_mul]
        exact Nat.mul_le_mul_right _ (Nat.mod_lt w hpos)
      have hlt := Residency.threads_lt cfg k.toKernelInfo
      omega
    · rw [Nat.mul_div_cancel _ cfg.warpSize_pos]
      exact Nat.div_add_mod' w core.warpsPerCta

end Config.Hosts

namespace Shader

variable {s s' : Shader Mem} {es log : List Event} {a : Action Mem} {w slot : Nat}
  {read : Mem → BitVec 64 → Nat → BitVec 64}

/-- Actions that neither launch a CTA nor register exits leave the CTA slots alone. -/
theorem ctaStatus_step (hp : Provenance core s log)
    (hlaunch : ∀ slot, a ≠ .launch slot) (hreclaim : ∀ w, a ≠ .reclaim w)
    (h : step core read s a = .ok (s', es)) : s'.ctaStatus = s.ctaStatus := by
  cases a with
  | test w inst countStall =>
    simp only [step, bind_eq_ok, pure_eq_ok, Prod.exists, Prod.mk.injEq] at h
    obtain ⟨_, _, s₁, _, hrfq, s₂, _, hsmemq, rfl, rfl⟩ := h
    exact ((canIssue_core hrfq).trans (canIssue_core hsmemq)).ctaStatus_eq
  | issue w inst mask input =>
    cases hload : inst.load with
    | true =>
      obtain ⟨_, _, hissued, _⟩ := issueWarp_load_frame hload h
      exact hissued.ctaStatus_eq
    | false =>
      obtain ⟨_, _, _, hissued, _⟩ := issueWarp_move_frame hload h
      exact hissued.ctaStatus_eq
  | dispatch i port =>
    obtain ⟨_, _, _, hout⟩ :=
      dispatchCycle_cases (fun inst hi => hp.off (List.mem_of_getElem? hi)) h
    exact hout.ctaStatus_eq
  | l1Latency i status => exact (l1LatencyQueueCycle_cases h).2.ctaStatus_eq
  | respond i => exact (respond_cases h).2.ctaStatus_eq
  | writeback client => exact (writeback_cases h).2.ctaStatus_eq
  | reclaim w => exact absurd rfl (hreclaim w)
  | launch slot => exact absurd rfl (hlaunch slot)
  | finishOther w =>
    simp only [step, bind_eq_ok, pure_eq_ok, Prod.mk.injEq] at h
    obtain ⟨_, _, m, hdec, rfl, rfl⟩ := h
    obtain ⟨_, rfl⟩ := decInstInPipeline_eq_ok hdec
    rfl
  | decode | storeReq | storeMem =>
    simp only [step, pure_eq_ok, Prod.mk.injEq] at h
    obtain ⟨rfl, rfl⟩ := h
    rfl
  | issueOther | flush | storeAck | exit =>
    simp only [step, bind_eq_ok, pure_eq_ok, Prod.mk.injEq] at h
    obtain ⟨_, _, rfl, rfl⟩ := h
    rfl

/-- A finished warp erases the queues of the CTA that it retires. -/
theorem retired_mem_iff (h : s.reclaim w = .ok (s', es)) :
    .retired slot ∈ es ↔ retires s (.reclaim w) = some slot := by
  obtain ⟨_, _, _, _, _, _, _, ⟨c, hret, _, rfl⟩ | ⟨hret, _, rfl⟩⟩ := reclaim_cases h
  · rw [hret, List.mem_singleton, Event.retired.injEq, Option.some.injEq]
    exact eq_comm
  · rw [hret]
    exact iff_of_false List.not_mem_nil fun hsome => by cases hsome

/-- The warps of a CTA can be initialised when nothing of them is left. -/
theorem exists_issueBlock2core (hslot : slot < core.kernelMaxCtaPerShader)
    (hfree : s.ctaStatus slot = 0) (hwarps : ∀ w, w / core.warpsPerCta = slot →
      w < core.maxWarpsPerShader ∧ (s.warps w).storesOutstanding = 0 ∧
        (s.warps w).instInPipeline = 0) :
    ∃ s', issueBlock2core core s slot = .ok (s', []) := by
  have hinit : Meets ((List.range core.warpsPerCta).foldlM (initWarp core slot) s)
      fun m => ∀ w, (m.warps w).storesOutstanding = (s.warps w).storesOutstanding ∧
        (m.warps w).instInPipeline = (s.warps w).instInPipeline := by
    refine .foldlM _ (fun m i hi hm => ?_) fun w => ⟨rfl, rfl⟩
    have hw : (slot * core.warpsPerCta + i) / core.warpsPerCta = slot := by
      rw [Nat.add_comm, Nat.add_mul_div_right _ _ core.warpsPerCta_pos,
        Nat.div_eq_of_lt (List.mem_range.mp hi), Nat.zero_add]
    obtain ⟨hmax, hstores, hpipeline⟩ := hwarps _ hw
    refine .require hmax (.require ⟨(hm _).1.trans hstores, (hm _).2.trans hpipeline⟩ ?_)
    refine .pure fun u => ?_
    by_cases hu : u = slot * core.warpsPerCta + i
    · subst hu
      simpa [setWarp] using hm (slot * core.warpsPerCta + i)
    · simpa [setWarp, hu] using hm u
  obtain ⟨m, hm, _⟩ := hinit
  simp only [issueBlock2core, bind_eq_ok, require_eq_ok, pure_eq_ok, Prod.mk.injEq]
  exact ⟨_, (), ⟨hslot, hfree⟩, m, hm, rfl, trivial⟩

end Shader

namespace Residency

/-- Register the exit of a number of threads of a CTA, one after the other. -/
def registerExits (cfg : CoreConfig) (s : Residency) (slot : Nat) : Nat → Except Halt Residency
  | 0 => pure s
  | n + 1 => do
    let s ← registerCtaThreadExit cfg s slot
    registerExits cfg s slot n

variable {s s' : Residency} {slot n : Nat}

/-- Exits count threads down in one slot, and bring no CTA. -/
theorem registerExits_frame (hs : s.Spread cfg) (h : registerExits cfg s slot n = .ok s') :
    s'.Spread cfg ∧ s'.ctaStatus = Function.update s.ctaStatus slot (s.ctaStatus slot - n) ∧
      ∀ i cta, s'.resident i = some cta → s.resident i = some cta := by
  induction n generalizing s with
  | zero =>
    simp only [registerExits, pure_eq_ok] at h
    subst h
    exact ⟨hs, (Function.update_eq_self ..).symm, fun _ _ hcta => hcta⟩
  | succ n ih =>
    simp only [registerExits, bind_eq_ok] at h
    obtain ⟨s₁, hexit, hrest⟩ := h
    obtain ⟨hspread, hstatus, hkept⟩ := ih (hs.exit hexit) hrest
    obtain ⟨hstatus₁, hresident₁, -⟩ := exit_frame hexit
    refine ⟨hspread, ?_, fun i cta hcta => ?_⟩
    · rw [hstatus, hstatus₁, Function.update_self, Function.update_idem, Nat.sub_sub,
        Nat.add_comm 1]
    · have hbefore := hkept i cta hcta
      rcases hresident₁ with heq | heq
      · rwa [heq] at hbefore
      · rw [heq] at hbefore
        by_cases hi : i = slot
        · rw [hi, Function.update_self] at hbefore
          cases hbefore
        · rwa [Function.update_of_ne hi] at hbefore

/-- The threads that a slot counts can exit. -/
theorem exists_registerExits (hs : s.Spread cfg) (hsingle : cfg.gpgpuConcurrentKernelSm = false)
    (hle : n ≤ s.ctaStatus slot) : ∃ s', registerExits cfg s slot n = .ok s' := by
  induction n generalizing s with
  | zero => exact ⟨s, rfl⟩
  | succ n ih =>
    obtain ⟨cta, hcta⟩ : ∃ cta, s.resident slot = some cta :=
      Option.ne_none_iff_exists'.mp fun hnone => by
        have hzero := (hs.status slot).mpr hnone
        omega
    rcases hs.exit_meets hcta with ⟨_, _, hconcurrent, _⟩ | ⟨s₁, hexit, _⟩
    · rw [hsingle] at hconcurrent
      cases hconcurrent
    · obtain ⟨s', hrest⟩ := ih (hs.exit hexit) (by
        rw [(exit_frame hexit).1, Function.update_self]
        omega)
      exact ⟨s', bind_eq_ok.mpr ⟨s₁, hexit, hrest⟩⟩

/-- A launch issues a CTA of the kernel in a slot below the count of `max_cta`. -/
theorem launch_issued (hs : s.Spread cfg) (hsingle : cfg.gpgpuConcurrentKernelSm = false)
    (hkernel : ∀ slot cta, s.resident slot = some cta → cta.kernel = k)
    (h : step cfg s (.launch k) = .ok s') :
    Spread cfg { s with kernel := some k } ∧
      ∃ slot start, Issued cfg { s with kernel := some k } k slot start s' := by
  simp only [step, bind_eq_ok, require_eq_ok] at h
  obtain ⟨_, _, ok, hcan, _, rfl, hissue⟩ := h
  have hbound : Spread cfg { s with kernel := some k } :=
    hs.withKernel (fun _ slot cta hcta => congrArg some (hkernel slot cta hcta).symm)
      fun htrue => absurd (hsingle.symm.trans htrue) (by decide)
  have hcan : canIssue1block cfg { s with kernel := some k } k = .ok true := by
    simpa only [canIssue1block, hsingle, Bool.false_eq_true, ↓reduceIte] using hcan
  have hfits : k.threadsPerCta ≤ cfg.nThreadPerShader := by
    simp only [issueBlock2core, bind_eq_ok, require_eq_ok, Prod.exists] at hissue
    obtain ⟨_, _, _, _, _, _, _, _, hthreads, _⟩ := hissue
    exact hthreads.2
  obtain ⟨site, _, s₁, hissue₁, hissued⟩ := hbound.issue_single hsingle hcan hfits
  obtain rfl : s₁ = s' := Except.ok.inj (hissue₁.symm.trans hissue)
  exact ⟨hbound, site.1, site.2, hissued⟩

end Residency

/-- A core with its CTAs as the dispatcher sees them, and with its queues. -/
structure HostedCore (Mem : Type) where
  residency : Residency
  shader : Shader Mem

namespace HostedCore

/-- What an action does to the CTAs of a core that runs one kernel: a launch is one into the slot
that the core finds, and a finished warp registers the exit of its threads. -/
def follow (cfg : CoreConfig) (k : Kernel) (q : HostedCore Mem) :
    Action Mem → Except Halt Residency
  | .launch slot => do
    let s ← q.residency.step cfg (.launch k)
    require .disabled (q.residency.ctaStatus slot = 0 ∧ 0 < s.ctaStatus slot)
    pure s
  | .reclaim w =>
    q.residency.registerExits cfg (q.shader.warps w).ctaId (q.shader.warps w).registered
  | _ => pure q.residency

/-- An action of both. -/
def step (core : Config) (cfg : CoreConfig) (k : Kernel)
    (read : Mem → BitVec 64 → Nat → BitVec 64) (q : HostedCore Mem) (a : Action Mem) :
    Except Halt (HostedCore Mem × List Event) := do
  let residency ← q.follow cfg k a
  let (shader, events) ← q.shader.step core read a
  pure (⟨residency, shader⟩, events)

/-- Both count the same threads in the same slots. -/
structure Agrees (cfg : CoreConfig) (k : Kernel) (q : HostedCore Mem) : Prop where
  spread : q.residency.Spread cfg
  kernel : ∀ slot cta, q.residency.resident slot = some cta → cta.kernel = k
  ctaStatus : q.shader.ctaStatus = q.residency.ctaStatus

variable {q q' : HostedCore Mem} {a : Action Mem} {es log : List Event}
  {read : Mem → BitVec 64 → Nat → BitVec 64}

/-- An empty core counts no threads. -/
theorem Agrees.initial (cfg : CoreConfig) (k : Kernel) (v : Nat) (mem : Mem) :
    Agrees cfg k ⟨.empty v, .initial mem⟩ where
  spread := .empty cfg v
  kernel _ _ hcta := by cases hcta
  ctaStatus := rfl

/-- An action of both is one of each. -/
theorem step_eq_ok : step core cfg k read q a = .ok (q', es) ↔
    q.follow cfg k a = .ok q'.residency ∧ q.shader.step core read a = .ok (q'.shader, es) := by
  obtain ⟨residency, shader⟩ := q'
  simp only [step, bind_eq_ok, pure_eq_ok, Prod.exists, Prod.mk.injEq, mk.injEq]
  constructor
  · rintro ⟨_, hfollow, _, _, hstep, ⟨rfl, rfl⟩, rfl⟩
    exact ⟨hfollow, hstep⟩
  · rintro ⟨hfollow, hstep⟩
    exact ⟨_, hfollow, _, _, hstep, ⟨rfl, rfl⟩, rfl⟩

/-- An action of both keeps the slots in agreement. -/
theorem Agrees.step (hq : q.Agrees cfg k) (hosts : core.Hosts cfg k)
    (hp : Shader.Provenance core q.shader log)
    (h : step core cfg k read q a = .ok (q', es)) : q'.Agrees cfg k := by
  obtain ⟨hfollow, hstep⟩ := step_eq_ok.mp h
  cases a with
  | launch slot =>
    simp only [follow, bind_eq_ok, require_eq_ok, pure_eq_ok] at hfollow
    obtain ⟨s', hlaunch, _, ⟨hfree, hbusy⟩, rfl⟩ := hfollow
    obtain ⟨hbound, slot', start, hi⟩ :=
      Residency.launch_issued hq.spread hosts.single hq.kernel hlaunch
    obtain rfl : slot = slot' := by
      by_contra hne
      rw [hi.ctaStatus, Function.update_of_ne hne] at hbusy
      exact absurd hfree (Nat.ne_of_gt hbusy)
    refine ⟨hbound.issue hi (.inr rfl), fun i cta hcta => ?_, ?_⟩
    · rw [hi.resident] at hcta
      by_cases heq : i = slot
      · rw [heq, Function.update_self] at hcta
        rw [← Option.some.inj hcta]
      · rw [Function.update_of_ne heq] at hcta
        exact hq.kernel i cta hcta
    · rw [(Shader.Residency.issueBlock2core_warps hstep).2.1, hi.ctaStatus, hq.ctaStatus,
        hosts.sum_threadsInWarp]
  | reclaim w =>
    obtain ⟨hspread, hstatus, hkept⟩ := Residency.registerExits_frame hq.spread hfollow
    refine ⟨hspread, fun i cta hcta => hq.kernel i cta (hkept i cta hcta), ?_⟩
    rw [(Shader.reclaim_cases hstep).2.2.1, hstatus, hq.ctaStatus]
  | _ =>
    have hsame : q.residency = q'.residency := pure_eq_ok.mp hfollow
    have hstatus := Shader.ctaStatus_step hp (fun _ heq => by cases heq) (fun _ heq => by cases heq)
      hstep
    exact ⟨hsame ▸ hq.spread, hsame ▸ hq.kernel, hsame ▸ hstatus.trans hq.ctaStatus⟩

/-- A run of both from an empty core, and the events of the queues. -/
def Run (core : Config) (cfg : CoreConfig) (k : Kernel)
    (read : Mem → BitVec 64 → Nat → BitVec 64) (v : Nat) (mem : Mem) (q : HostedCore Mem)
    (log : List Event) : Prop :=
  Reaches (logged (step core cfg k read)) (fun _ _ => True) (⟨.empty v, .initial mem⟩, []) (q, log)

variable {v slot w : Nat} {mem : Mem} {s' : Residency}

/-- The cores agree in every run. -/
theorem Run.sound (h : Run core cfg k read v mem q log) (hosts : core.Hosts cfg k) :
    q.Agrees cfg k ∧ Shader.Provenance core q.shader log ∧ Shader.Residency core q.shader := by
  refine Reaches.invariant (fun p => p.1.Agrees cfg k ∧ Shader.Provenance core p.1.shader p.2 ∧
      Shader.Residency core p.1.shader)
    ⟨.initial cfg k v mem, .initial core mem, .initial core mem⟩ ?_ h
  rintro ⟨q, log⟩ a ⟨q', log'⟩ ⟨hq, hp, hr⟩ _ hstep
  obtain ⟨es, hstep, rfl⟩ := logged_eq_ok.mp hstep
  have hshader := (step_eq_ok.mp hstep).2
  exact ⟨hq.step hosts hp hstep, hp.step (hp.accessStep hshader), hr.step hp hshader⟩

/-- The queues are those of a run of their core, which takes any free slot. -/
theorem Run.shader (h : Run core cfg k read v mem q log) :
    Shader.Run core read Shader.anyAction mem q.shader log := by
  refine Reaches.invariant
    (fun p => Shader.Run core read Shader.anyAction mem p.1.shader p.2) ?_ ?_ h
  · exact .start
  · rintro ⟨q, log⟩ a ⟨q', log'⟩ hq _ hstep
    obtain ⟨es, hstep, rfl⟩ := logged_eq_ok.mp hstep
    exact .next hq trivial (logged_eq_ok.mpr ⟨es, (step_eq_ok.mp hstep).2, rfl⟩)

/-- In every run a warp with threads is one of the warps of the CTA in its slot. -/
theorem warp_resident (h : Run core cfg k read v mem q log) (hosts : core.Hosts cfg k)
    (hw : 0 < (q.shader.warps w).registered) :
    ∃ cta, q.residency.resident (q.shader.warps w).ctaId = some cta ∧
      w ∈ cta.warps cfg.warpSize := by
  obtain ⟨hq, _, hr⟩ := h.sound hosts
  obtain ⟨hhome, hmax⟩ := hr.home w hw
  have hbusy : q.residency.ctaStatus (q.shader.warps w).ctaId ≠ 0 := by
    rw [← hq.ctaStatus, hr.total]
    intro hzero
    have hterm := Finset.sum_eq_zero_iff.mp hzero w (Finset.mem_range.mpr hmax)
    rw [if_pos rfl] at hterm
    omega
  obtain ⟨cta, hcta⟩ := Option.ne_none_iff_exists'.mp fun hnone =>
    hbusy ((hq.spread.status _).mpr hnone)
  refine ⟨cta, hcta, ?_⟩
  have hkernel := hq.kernel _ cta hcta
  have hstart := hq.spread.start hosts.single _ cta hcta
  rw [hkernel] at hstart
  exact (hosts.mem_warps hkernel hstart).mpr hhome.symm

/-- In every run the registration of a finished warp's threads goes on for both, and the queues of
a slot are erased when its CTA leaves. -/
theorem reclaim_followed (h : Run core cfg k read v mem q log) (hosts : core.Hosts cfg k)
    {shader : Shader Mem} (hreclaim : q.shader.step core read (.reclaim w) = .ok (shader, es)) :
    ∃ s', step core cfg k read q (.reclaim w) = .ok (⟨s', shader⟩, es) ∧
      ∀ slot, .retired slot ∈ es ↔
        q.residency.resident slot ≠ none ∧ s'.resident slot = none := by
  obtain ⟨hq, _⟩ := h.sound hosts
  have hle := (Shader.reclaim_cases hreclaim).2.1
  rw [hq.ctaStatus] at hle
  obtain ⟨s', hexits⟩ := Residency.exists_registerExits hq.spread hosts.single hle
  obtain ⟨hspread, hstatus, _⟩ := Residency.registerExits_frame hq.spread hexits
  refine ⟨s', step_eq_ok.mpr ⟨hexits, hreclaim⟩, fun slot => ?_⟩
  rw [Shader.retired_mem_iff hreclaim, Shader.retires, Option.ite_none_right_eq_some,
    Option.some.injEq, hq.ctaStatus, Ne, ← hq.spread.status, ← hspread.status, hstatus]
  by_cases hslot : (q.shader.warps w).ctaId = slot
  · subst hslot
    rw [Function.update_self]
    omega
  · rw [Function.update_of_ne (Ne.symm hslot)]
    exact iff_of_false (fun hret => hslot hret.2) fun hboth => hboth.1 hboth.2

/-- In every run the core with queues takes a CTA into the slot that the dispatcher's core finds
for it, when no earlier instruction or store of its warps is left. -/
theorem launch_accepted (h : Run core cfg k read v mem q log) (hosts : core.Hosts cfg k)
    (hlaunch : q.residency.step cfg (.launch k) = .ok s') :
    ∃ slot cta, q.residency.resident slot = none ∧ s'.resident slot = some cta ∧
      ((∀ w ∈ cta.warps cfg.warpSize, (q.shader.warps w).storesOutstanding = 0 ∧
          (q.shader.warps w).instInPipeline = 0) →
        ∃ shader, step core cfg k read q (.launch slot) = .ok (⟨s', shader⟩, [])) := by
  obtain ⟨hq, _⟩ := h.sound hosts
  obtain ⟨_, slot, start, hi⟩ :=
    Residency.launch_issued hq.spread hosts.single hq.kernel hlaunch
  obtain ⟨hstart, hfits⟩ := hi.place hosts.single
  have hmem : ∀ w, w ∈ Cta.warps cfg.warpSize ⟨k, start⟩ ↔ w / core.warpsPerCta = slot :=
    fun w => hosts.mem_warps rfl hstart
  refine ⟨slot, ⟨k, start⟩, (hq.spread.status slot).mp hi.status, ?_, fun hidle => ?_⟩
  · rw [hi.resident, Function.update_self]
  have hbelow : ∀ w ∈ Cta.warps cfg.warpSize ⟨k, start⟩, w < core.maxWarpsPerShader := by
    intro w hw
    obtain ⟨tid, ⟨_, htid⟩, rfl⟩ := Cta.mem_warps.mp hw
    rw [hosts.maxWarps_eq, Nat.div_lt_iff_lt_mul cfg.warpSize_pos,
      Nat.div_mul_cancel cfg.warpSize_dvd]
    exact htid.trans_le hfits
  have hfree : q.shader.ctaStatus slot = 0 := hq.ctaStatus ▸ hi.status
  obtain ⟨shader, hshader⟩ := Shader.exists_issueBlock2core
    (hi.counted hosts.single _ hosts.maxCta_eq) hfree
    fun w hw => ⟨hbelow w ((hmem w).mpr hw), hidle w ((hmem w).mpr hw)⟩
  refine ⟨shader, step_eq_ok.mpr ⟨?_, hshader⟩⟩
  simp only [follow, bind_eq_ok, require_eq_ok, pure_eq_ok]
  refine ⟨s', hlaunch, (), ⟨hi.status, ?_⟩, rfl⟩
  rw [hi.ctaStatus, Function.update_self]
  exact k.threadsPerCta_pos

/-- The first core of two, with queues. -/
def sampleCore : Config :=
  { Config.sample 2 32 with
    maxWarpsPerShader := 64
    kernelMaxCtaPerShader := 2 }

theorem sampleCore_hosts :
    sampleCore.Hosts GpgpuSim.twoCores.core GpgpuSim.threeCtas.kernel where
  single := rfl
  warpSize_eq := rfl
  threadsPerCta_eq := rfl
  maxWarps_eq := by decide
  maxCta_eq := by decide +kernel

/-- Of two CTAs the first one leaves. -/
example : ∃ q log, Run sampleCore GpgpuSim.twoCores.core GpgpuSim.threeCtas.kernel
    Shader.sampleRead 0 () q log ∧ q.Agrees GpgpuSim.twoCores.core GpgpuSim.threeCtas.kernel ∧
      q.residency.nActiveCta = 1 := by
  obtain ⟨p, hrun, hone⟩ : ∃ p : HostedCore Unit × List Event,
      Run sampleCore GpgpuSim.twoCores.core GpgpuSim.threeCtas.kernel Shader.sampleRead 0 ()
        p.1 p.2 ∧ p.1.residency.nActiveCta = 1 :=
    Reaches.exists_of_foldlM (e := .disabled) [.launch 0, .launch 1, .exit 0 2, .reclaim 0]
      (by decide +kernel)
  exact ⟨p.1, p.2, hrun, (hrun.sound sampleCore_hosts).1, hone⟩

end HostedCore

end WaspSim
