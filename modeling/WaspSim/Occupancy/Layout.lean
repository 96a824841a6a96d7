import WaspSim.Occupancy.Conservation

/-!
# Where a core's CTAs lie and how warps find their role

A warp finds its number within its CTA from its hardware number and the one CTA size
that the core holds, which only a launch with a single kernel sets. Along a run this
agrees with where the CTAs lie exactly when every launch with concurrent kernels has
the size that the core was constructed with.
-/

namespace WaspSim
namespace Residency

variable {cfg : CoreConfig} {s s' : Residency} {k : Kernel} {slot start : Nat}

/-- `warps_per_cta` of the key functions and of `is_wasp_producer_warp`. -/
def warpsPerCta (cfg : CoreConfig) (s : Residency) : Nat :=
  orDefault (s.kernelPaddedThreadsPerCta / cfg.warpSize) 8

/-- `local_warp` of the key functions and of `is_wasp_producer_warp`. -/
def localWarp (cfg : CoreConfig) (s : Residency) (warpId : Nat) : Nat :=
  warpId % s.warpsPerCta cfg

/-- A CTA counts its own warps, and each of its threads is in the warp whose number within
the CTA the core computes. -/
structure Agrees (cfg : CoreConfig) (s : Residency) (cta : Cta) : Prop where
  warps : s.warpsPerCta cfg = cfg.paddedCtaSize cta.kernel.toKernelInfo / cfg.warpSize
  local_eq : ∀ t, cta.startThread ≤ t → t < cta.startThread + cta.kernel.threadsPerCta →
    s.localWarp cfg (t / cfg.warpSize) = (t - cta.startThread) / cfg.warpSize

/-- After a step every resident CTA agrees with the core. -/
def StepAgrees (cfg : CoreConfig) (s : Residency) (a : CtaAction) : Prop :=
  ∀ s', step cfg s a = .ok s' → ∀ slot cta, s'.resident slot = some cta → Agrees cfg s' cta

/-- With concurrent kernels a launched CTA has the warps that the core counts already. -/
def LaunchMatches (cfg : CoreConfig) (s : Residency) : CtaAction → Prop
  | .launch k => cfg.gpgpuConcurrentKernelSm = true →
      s.warpsPerCta cfg = cfg.paddedCtaSize k.toKernelInfo / cfg.warpSize
  | .exitThread _ => True

/-- A thread in a range that starts at a multiple of the range's size in warps. -/
theorem div_mod_of_aligned {warpSize warps m t : Nat} (hpos : 0 < warpSize)
    (hlo : m * (warps * warpSize) ≤ t) (hhi : t < m * (warps * warpSize) + warps * warpSize) :
    t / warpSize % warps = (t - m * (warps * warpSize)) / warpSize := by
  obtain ⟨r, rfl⟩ := Nat.exists_eq_add_of_le hlo
  have hlt : r / warpSize < warps := by
    rw [Nat.div_lt_iff_lt_mul hpos]
    omega
  rw [Nat.add_sub_cancel_left, ← Nat.mul_assoc, Nat.add_comm, Nat.add_mul_div_right _ _ hpos,
    Nat.add_mul_mod_self_right, Nat.mod_eq_of_lt hlt]

/-- A launch, with or without concurrent kernels. -/
structure Placement (cfg : CoreConfig) (s : Residency) (k : Kernel) (slot start : Nat)
    (s' : Residency) : Prop where
  slot_lt : slot < 32
  status : s.ctaStatus slot = 0
  threads_le : k.threadsPerCta ≤ cfg.nThreadPerShader
  allowed : cfg.gpgpuConcurrentKernelSm = true ∨ s.kernel = some k ∨ s.nActiveCta = 0
  aligned : ∃ m, start = m * (cfg.footprint k.toKernelInfo).threads
  field : s'.kernelPaddedThreadsPerCta =
    if cfg.gpgpuConcurrentKernelSm then s.kernelPaddedThreadsPerCta
    else (cfg.footprint k.toKernelInfo).threads
  ctaStatus : s'.ctaStatus = Function.update s.ctaStatus slot k.threadsPerCta
  resident : s'.resident = Function.update s.resident slot (some ⟨k, start⟩)
  nActiveCta : s'.nActiveCta = s.nActiveCta + 1
  kernel : s'.kernel = some k

/-- Where a launch places its CTA. -/
theorem launch_placement (h : step cfg s (.launch k) = .ok s') :
    ∃ slot start, Placement cfg s k slot start s' := by
  cases hconcurrent : cfg.gpgpuConcurrentKernelSm with
  | true =>
    obtain ⟨slot, start, hl⟩ := launch_cases hconcurrent h
    obtain ⟨haligned, _⟩ := hl.start_eq
    refine ⟨slot, start, hl.slot_lt, hl.status, hl.threads_le, .inl hconcurrent, haligned, ?_, ?_,
      ?_, ?_, ?_⟩
    · rw [if_pos hconcurrent, hl.eq]
      rfl
    · rw [hl.eq]
    · rw [hl.eq]
    · rw [hl.eq]
    · rw [hl.eq]
  | false =>
    simp only [step, issueBlock2core, takeResources, setMaxCta, placeCta, hconcurrent,
      Bool.false_eq_true, ↓reduceIte, false_or, bind_eq_ok, require_eq_ok, pure_eq_ok,
      Prod.exists, Prod.mk.injEq] at h
    obtain ⟨_, hallowed, _, _, _, _, s₁, ⟨n, _, rfl⟩, slot, hslot, s₂, start, ⟨rfl, rfl⟩, _,
      hthreads, rfl⟩ := h
    obtain ⟨hlt, hzero⟩ := of_freeCtaHwId hslot
    have hle := threads_le_of_launch cfg hthreads.2
    have hpadded := paddedCtaSize_eq_threads cfg hle
    -- 32 slots of at most 2048 threads do not wrap
    have hstart : u32 (slot * cfg.paddedCtaSize k.toKernelInfo) =
        slot * (cfg.footprint k.toKernelInfo).threads := by
      rw [hpadded]
      apply u32_eq_self
      have hmax := cfg.nThreadPerShader_le
      calc slot * (cfg.footprint k.toKernelInfo).threads ≤ 32 * 2048 :=
            Nat.mul_le_mul (by omega) (hle.trans hmax)
        _ < 2 ^ 32 := by decide
    refine ⟨slot, _, hlt, hzero, hthreads.2, .inr hallowed, ⟨slot, hstart⟩, ?_, rfl, rfl, rfl, rfl⟩
    rw [if_neg (by simp [hconcurrent])]
    exact hpadded

/-- The release of a CTA's resources moves no CTA. -/
theorem releaseShaderResource1block_frame {k : KernelInfo}
    (h : releaseShaderResource1block cfg s slot k = .ok s') :
    s'.kernelPaddedThreadsPerCta = s.kernelPaddedThreadsPerCta ∧ s'.resident = s.resident ∧
      s'.nActiveCta = s.nActiveCta ∧ s'.kernel = s.kernel ∧ s'.ctaStatus = s.ctaStatus := by
  unfold releaseShaderResource1block at h
  split at h
  · simp only [bind_eq_ok, pure_eq_ok] at h
    obtain ⟨_, _, _, _, _, _, _, _, _, _, _, _, _, _, rfl⟩ := h
    exact ⟨rfl, rfl, rfl, rfl, rfl⟩
  · rw [pure_eq_ok] at h
    subst h
    exact ⟨rfl, rfl, rfl, rfl, rfl⟩

/-- What the exit of a thread leaves of the placement of the CTAs. -/
theorem exit_placement (h : registerCtaThreadExit cfg s slot = .ok s') :
    s'.kernelPaddedThreadsPerCta = s.kernelPaddedThreadsPerCta ∧
    ((1 < s.ctaStatus slot ∧ s'.resident = s.resident ∧ s'.nActiveCta = s.nActiveCta ∧
        s'.kernel = s.kernel ∧
        s'.ctaStatus = Function.update s.ctaStatus slot (s.ctaStatus slot - 1)) ∨
      ∃ cta, s.resident slot = some cta ∧
        s'.resident = Function.update s.resident slot none ∧
        s'.nActiveCta = s.nActiveCta - 1 ∧
        s'.kernel = (if s.nActiveCta - 1 = 0 then none else s.kernel) ∧
        s'.ctaStatus = Function.update s.ctaStatus slot 0) := by
  simp only [registerCtaThreadExit, bind_eq_ok, require_eq_ok, Function.update_self] at h
  obtain ⟨_, hpos, h⟩ := h
  split at h
  · rename_i hlast
    simp only [bind_eq_ok, fetch_eq_ok] at h
    obtain ⟨cta, hcta, hrelease⟩ := h
    obtain ⟨hfield, hresident, hactive, hkernel, hstatus⟩ :=
      releaseShaderResource1block_frame hrelease
    refine ⟨hfield, .inr ⟨cta, hcta, hresident, hactive, hkernel, ?_⟩⟩
    rw [hstatus, hlast]
  · rename_i hlast
    rw [pure_eq_ok] at h
    subst h
    exact ⟨rfl, .inl ⟨by omega, rfl, rfl, rfl, rfl⟩⟩

/-- Where the CTAs of a core lie as long as they agree with it. -/
structure LaidOut (cfg : CoreConfig) (s : Residency) : Prop where
  active : s.nActiveCta = s.total cfg fun _ => 1
  status : ∀ slot, s.ctaStatus slot = 0 ↔ s.resident slot = none
  slot_lt : ∀ slot cta, s.resident slot = some cta → slot < 32
  bound : cfg.gpgpuConcurrentKernelSm = false →
    ∀ slot cta, s.resident slot = some cta → s.kernel = some cta.kernel
  threads_le : ∀ slot cta, s.resident slot = some cta →
    (cfg.footprint cta.kernel.toKernelInfo).threads ≤ cfg.nThreadPerShader
  aligned : ∀ slot cta, s.resident slot = some cta →
    ∃ m, cta.startThread = m * (cfg.footprint cta.kernel.toKernelInfo).threads
  warps : ∀ slot cta, s.resident slot = some cta →
    s.warpsPerCta cfg = (cfg.footprint cta.kernel.toKernelInfo).threads / cfg.warpSize

/-- A CTA does not have more threads than its whole warps. -/
theorem threadsPerCta_le (cfg : CoreConfig) (k : KernelInfo) :
    k.threadsPerCta ≤ (cfg.footprint k).threads := by
  change _ ≤ cfg.exactPadded k
  unfold OccupancyConfig.exactPadded
  split
  · rw [Nat.succ_mul]
    have hrest := Nat.mod_lt k.threadsPerCta cfg.warpSize_pos
    have hdiv := Nat.div_add_mod' k.threadsPerCta cfg.warpSize
    omega
  · exact Nat.le_refl _

theorem LaidOut.agrees (h : LaidOut cfg s) {cta : Cta} (hcta : s.resident slot = some cta) :
    Agrees cfg s cta := by
  have hpadded := paddedCtaSize_eq_threads cfg (h.threads_le slot cta hcta)
  have hwarps := h.warps slot cta hcta
  obtain ⟨m, hm⟩ := h.aligned slot cta hcta
  obtain ⟨warps, hthreads⟩ := warpSize_dvd_threads cfg cta.kernel.toKernelInfo
  have hle := threadsPerCta_le cfg cta.kernel.toKernelInfo
  rw [hthreads] at hm hle
  constructor
  · rw [hwarps, hpadded]
  · intro t hlo hhi
    unfold localWarp
    rw [hwarps, hthreads, Nat.mul_div_cancel_left _ cfg.warpSize_pos]
    rw [Nat.mul_comm cfg.warpSize] at hm hle
    rw [hm] at hlo hhi ⊢
    exact div_mod_of_aligned cfg.warpSize_pos hlo (by omega)

theorem Placement.warps_eq (hp : Placement cfg s k slot start s')
    (hmatch : LaunchMatches cfg s (.launch k)) :
    s'.warpsPerCta cfg = (cfg.footprint k.toKernelInfo).threads / cfg.warpSize := by
  have hpadded := paddedCtaSize_eq_threads cfg (threads_le_of_launch cfg hp.threads_le)
  unfold warpsPerCta
  rw [hp.field]
  cases hconcurrent : cfg.gpgpuConcurrentKernelSm with
  | true =>
    rw [if_pos rfl, ← hpadded]
    exact hmatch hconcurrent
  | false =>
    rw [if_neg (by decide)]
    apply orDefault_of_pos
    apply Nat.div_pos _ cfg.warpSize_pos
    exact Nat.le_of_dvd OccupancyConfig.threads_pos (warpSize_dvd_threads cfg k.toKernelInfo)

/-- With a single kernel every resident CTA is one of the launched kernel. -/
theorem LaidOut.eq_of_placement (h : LaidOut cfg s) (hp : Placement cfg s k slot start s')
    (hconcurrent : cfg.gpgpuConcurrentKernelSm = false) {i : Nat} {cta : Cta}
    (hcta : s.resident i = some cta) : cta.kernel = k := by
  rcases hp.allowed with htrue | hkernel | hidle
  · rw [hconcurrent] at htrue
    cases htrue
  · rw [h.bound hconcurrent i cta hcta, Option.some.injEq] at hkernel
    exact hkernel
  · have hone := demand_le_total cfg (h.slot_lt i cta hcta) hcta fun _ => 1
    rw [← h.active, hidle] at hone
    omega

/-- A launch that matches the core keeps its CTAs laid out. -/
theorem LaidOut.launch (h : LaidOut cfg s) (hp : Placement cfg s k slot start s')
    (hmatch : LaunchMatches cfg s (.launch k)) : LaidOut cfg s' := by
  have hnone : s.resident slot = none := (h.status slot).mp hp.status
  have htotal := total_launch cfg hp.slot_lt hnone hp.resident fun _ => 1
  -- the launched CTA and those from before
  have hcases : ∀ i cta, s'.resident i = some cta →
      (i = slot ∧ cta = ⟨k, start⟩) ∨ s.resident i = some cta := by
    intro i cta hcta
    rw [hp.resident] at hcta
    by_cases hi : i = slot
    · rw [hi, Function.update_self, Option.some.injEq] at hcta
      exact .inl ⟨hi, hcta.symm⟩
    · rw [Function.update_of_ne hi] at hcta
      exact .inr hcta
  constructor
  · rw [hp.nActiveCta, h.active, htotal]
  · intro i
    rw [hp.ctaStatus, hp.resident]
    by_cases hi : i = slot
    · have hpos := k.threadsPerCta_pos
      rw [hi, Function.update_self, Function.update_self]
      constructor
      · intro hzero
        omega
      · intro hcontra
        cases hcontra
    · rw [Function.update_of_ne hi, Function.update_of_ne hi]
      exact h.status i
  · intro i cta hcta
    rcases hcases i cta hcta with ⟨rfl, rfl⟩ | hold
    · exact hp.slot_lt
    · exact h.slot_lt i cta hold
  · intro hconcurrent i cta hcta
    rw [hp.kernel]
    rcases hcases i cta hcta with ⟨rfl, rfl⟩ | hold
    · rfl
    · rw [h.eq_of_placement hp hconcurrent hold]
  · intro i cta hcta
    rcases hcases i cta hcta with ⟨rfl, rfl⟩ | hold
    · exact threads_le_of_launch cfg hp.threads_le
    · exact h.threads_le i cta hold
  · intro i cta hcta
    rcases hcases i cta hcta with ⟨rfl, rfl⟩ | hold
    · exact hp.aligned
    · exact h.aligned i cta hold
  · intro i cta hcta
    rcases hcases i cta hcta with ⟨rfl, rfl⟩ | hold
    · exact hp.warps_eq hmatch
    · cases hconcurrent : cfg.gpgpuConcurrentKernelSm with
      | true =>
        have hfield := hp.field
        rw [if_pos hconcurrent] at hfield
        rw [← h.warps i cta hold]
        unfold warpsPerCta
        rw [hfield]
      | false =>
        rw [h.eq_of_placement hp hconcurrent hold]
        exact hp.warps_eq hmatch

/-- The exit of a thread keeps the CTAs of a core laid out. -/
theorem LaidOut.exit (h : LaidOut cfg s) (hexit : registerCtaThreadExit cfg s slot = .ok s') :
    LaidOut cfg s' := by
  obtain ⟨hfield, hcases⟩ := exit_placement hexit
  have hwarps : s'.warpsPerCta cfg = s.warpsPerCta cfg := by
    unfold warpsPerCta
    rw [hfield]
  rcases hcases with ⟨hmore, hresident, hactive, hkernel, hstatus⟩ |
    ⟨cta, hcta, hresident, hactive, hkernel, hstatus⟩
  · have htotal : s'.total cfg (fun _ => 1) = s.total cfg fun _ => 1 := by
      unfold total
      rw [hresident]
    constructor
    · rw [hactive, htotal, h.active]
    · intro i
      rw [hresident, ← h.status i, hstatus]
      by_cases hi : i = slot
      · rw [hi, Function.update_self]
        omega
      · rw [Function.update_of_ne hi]
    · rw [hresident]
      exact h.slot_lt
    · rw [hresident, hkernel]
      exact h.bound
    · rw [hresident]
      exact h.threads_le
    · rw [hresident]
      exact h.aligned
    · rw [hresident, hwarps]
      exact h.warps
  · have htotal := total_retire cfg (h.slot_lt slot cta hcta) hcta hresident fun _ => 1
    -- the CTAs that stay were there before
    have hold : ∀ i cta, s'.resident i = some cta → i ≠ slot ∧ s.resident i = some cta := by
      intro i cta hcta'
      rw [hresident] at hcta'
      by_cases hi : i = slot
      · rw [hi, Function.update_self] at hcta'
        cases hcta'
      · rw [Function.update_of_ne hi] at hcta'
        exact ⟨hi, hcta'⟩
    constructor
    · rw [hactive, h.active]
      omega
    · intro i
      rw [hstatus, hresident]
      by_cases hi : i = slot
      · rw [hi, Function.update_self, Function.update_self]
        exact ⟨fun _ => rfl, fun _ => rfl⟩
      · rw [Function.update_of_ne hi, Function.update_of_ne hi]
        exact h.status i
    · intro i cta' hcta'
      exact h.slot_lt i cta' (hold i cta' hcta').2
    · intro hconcurrent i cta' hcta'
      obtain ⟨hne, hstays⟩ := hold i cta' hcta'
      have hone : 1 ≤ s'.total cfg fun _ => 1 :=
        demand_le_total cfg (h.slot_lt i cta' hstays) hcta' fun _ => 1
      rw [hkernel, if_neg (by rw [h.active]; omega)]
      exact h.bound hconcurrent i cta' hstays
    · intro i cta' hcta'
      exact h.threads_le i cta' (hold i cta' hcta').2
    · intro i cta' hcta'
      exact h.aligned i cta' (hold i cta' hcta').2
    · intro i cta' hcta'
      rw [hwarps]
      exact h.warps i cta' (hold i cta' hcta').2

theorem LaidOut.empty (cfg : CoreConfig) (v : Nat) : LaidOut cfg (empty v) where
  active := (Finset.sum_eq_zero fun _ _ => rfl).symm
  status _ := ⟨fun _ => rfl, fun _ => rfl⟩
  slot_lt slot cta hcta := by cases hcta
  bound _ slot cta hcta := by cases hcta
  threads_le slot cta hcta := by cases hcta
  aligned slot cta hcta := by cases hcta
  warps slot cta hcta := by cases hcta

/-- After a step the CTAs agree with the core exactly when the step matches it. -/
theorem LaidOut.step_iff (h : LaidOut cfg s) {a : CtaAction} (hstep : step cfg s a = .ok s') :
    (StepAgrees cfg s a ↔ LaunchMatches cfg s a) ∧ (LaunchMatches cfg s a → LaidOut cfg s') := by
  have hkept : LaunchMatches cfg s a → LaidOut cfg s' := by
    intro hmatch
    cases a with
    | launch k =>
      obtain ⟨slot, start, hp⟩ := launch_placement hstep
      exact h.launch hp hmatch
    | exitThread slot => exact h.exit hstep
  refine ⟨⟨fun hagrees => ?_, fun hmatch s'' hstep' slot cta hcta => ?_⟩, hkept⟩
  · cases a with
    | launch k =>
      intro hconcurrent
      obtain ⟨slot, start, hp⟩ := launch_placement hstep
      have hcta : s'.resident slot = some ⟨k, start⟩ := by
        rw [hp.resident, Function.update_self]
      have hwarps := (hagrees s' hstep slot _ hcta).warps
      have hfield := hp.field
      rw [if_pos hconcurrent] at hfield
      rw [← hwarps]
      unfold warpsPerCta
      rw [hfield]
    | exitThread slot => exact trivial
  · obtain rfl : s' = s'' := Except.ok.inj (hstep.symm.trans hstep')
    exact (hkept hmatch).agrees hcta

/-- Along any run, the CTAs of the core agree with it after every step if and only if
every launch with concurrent kernels has the warps that the core counts already. -/
theorem layout_agrees_iff_launches_match (cfg : CoreConfig) (v : Nat) (as : List CtaAction) :
    Along (step cfg) (StepAgrees cfg) as (empty v) ↔
      Along (step cfg) (LaunchMatches cfg) as (empty v) := by
  exact Along.iff_of_invariant (LaidOut cfg) (fun _ _ _ hs hstep => hs.step_iff hstep) as
    (.empty cfg v)

/-- With concurrent kernels and a zero in the field, a CTA of four warps is taken for one of
eight: its consumers are warps 2 and 3, and the core takes the first four for producers. -/
theorem four_warps_taken_for_eight :
    ¬Along (step (core1536 true)) (StepAgrees (core1536 true))
      [.launch (kernelOfSize 128 (by decide) (by decide))] (empty 0) := by
  intro hall
  have heval : (step (core1536 true) (empty 0)
      (.launch (kernelOfSize 128 (by decide) (by decide)))).toOption.any (fun s =>
        decide (s.warpsPerCta (core1536 true) = 8 ∧ (s.resident 0).map
          (fun cta => (core1536 true).paddedCtaSize cta.kernel.toKernelInfo / 32) = some 4)) =
      true := by
    decide +kernel
  cases hstep : step (core1536 true) (empty 0)
      (.launch (kernelOfSize 128 (by decide) (by decide))) with
  | error e =>
    rw [hstep] at heval
    cases heval
  | ok s =>
    simp only [hstep, Except.toOption, Option.any_some, decide_eq_true_eq,
      Option.map_eq_some_iff] at heval
    obtain ⟨height, cta, hcta, hfour⟩ := heval
    have hwarps := ((hall s hstep).1 s hstep 0 cta hcta).warps
    rw [height] at hwarps
    exact absurd (hwarps.trans hfour) (by decide)

end Residency
end WaspSim
