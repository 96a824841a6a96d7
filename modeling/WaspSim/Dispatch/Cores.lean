import WaspSim.Dispatch.Spread

/-!
# The threads of one core

What a core keeps while CTAs are issued to it and their threads end and exit: the hardware
threads of every resident CTA have the threads of one CTA of a launched kernel, the counters agree
with them, and every other hardware thread is free for a new CTA.
-/

namespace WaspSim

/-- Thread number `t` of CTA number `n` of a kernel, in a hardware slot of a core. -/
def KernelLaunch.thread (l : KernelLaunch) (site : InitSite) (n slot start t : Nat) :
    PtxThreadInfo :=
  ({ l.initial with nextCta := l.gridDim.nth n } : KernelState).boundThread site slot start t

/-- Two numbers with a quotient and a remainder are equal in both. -/
theorem mul_add_inj {d a a' b b' : Nat} (hb : b < d) (hb' : b' < d)
    (h : a * d + b = a' * d + b') : a = a' ∧ b = b' := by
  have hrest : b = b' := by
    rw [← Nat.mul_add_mod_of_lt (a := a) hb, h, Nat.mul_add_mod_of_lt hb']
  rw [hrest] at h
  exact ⟨Nat.eq_of_mul_eq_mul_right (Nat.zero_lt_of_lt hb) (Nat.add_right_cancel h), hrest⟩

/-- Another hardware slot of a core has another shared memory. -/
theorem InitSite.smIdx_ne {site : InitSite} (hsid : site.sid < site.numShaders) {i slot : Nat}
    (hne : i ≠ slot) : site.smIdx i ≠ site.smIdx slot :=
  fun heq => hne (mul_add_inj hsid hsid heq).1

namespace SimtCore

/-- Whether a hardware thread is active. -/
def activeAt (core : SimtCore) (tid : Nat) : Bool := (core.threadState tid).active

/-- Whether a hardware thread has a thread that is done. -/
def doneAt (core : SimtCore) (tid : Nat) : Bool := (core.thread tid).any (·.done)

/-- Whether a hardware thread runs: it has a thread, which is not done. -/
def runsAt (core : SimtCore) (tid : Nat) : Bool := (core.thread tid).any (!·.done)

/-- The CTA in a hardware slot, by its kernel and its position in the grid. -/
def ctaOf (core : SimtCore) (slot : Nat) : Multiset (Nat × Dim3) :=
  match core.residency.resident slot with
  | none => 0
  | some cta => {(cta.kernel.uid, core.ctaidAt cta.startThread)}

/-- The CTAs of a core. -/
def residentCtas (core : SimtCore) : Multiset (Nat × Dim3) :=
  ∑ slot ∈ Finset.range 32, core.ctaOf slot

/-- A CTA in a hardware slot of a core with its hardware threads. -/
structure Running (ls : List KernelLaunch) (site : InitSite) (lookup : Nat → Option PtxCtaInfo)
    (core : SimtCore) (slot : Nat) (cta : Cta) : Prop where
  contained : cta.startThread + cta.kernel.threadsPerCta ≤ site.nThreadPerShader
  threads : ∃ l ∈ ls, ∃ n < l.gridDim.volume, l.kernel = cta.kernel ∧
    ∀ t < cta.kernel.threadsPerCta, ∃ d, core.thread (cta.startThread + t) =
      some { l.thread site n slot cta.startThread t with done := d }
  ctaId : ∀ t < cta.kernel.threadsPerCta,
    (core.threadState (cta.startThread + t)).ctaId = some slot
  status : core.residency.ctaStatus slot =
    countIn core.activeAt cta.startThread cta.kernel.threadsPerCta
  info : lookup (site.smIdx slot) = some ⟨cta.kernel.threadsPerCta,
    countIn core.doneAt cta.startThread cta.kernel.threadsPerCta⟩

/-- The invariant of a core that runs kernels of the given launches. -/
structure Sound (cfg : GpuConfig) (ls : List KernelLaunch) (site : InitSite)
    (lookup : Nat → Option PtxCtaInfo) (core : SimtCore) : Prop where
  spread : core.residency.Spread cfg.core
  notCompleted : core.notCompleted = ∑ slot ∈ Finset.range 32, core.residency.ctaStatus slot
  bound : ∀ k, core.residency.kernel = some k → ∃ l ∈ ls, l.kernel = k
  running : ∀ slot cta, core.residency.resident slot = some cta →
    core.Running ls site lookup slot cta
  /-- An active hardware thread belongs to a CTA. -/
  owner : ∀ tid, core.activeAt tid = true →
    ∃ slot cta, core.residency.resident slot = some cta ∧ cta.Has tid
  /-- Another hardware thread has at most a thread that is done. -/
  done : ∀ tid, core.activeAt tid = false → (core.thread tid).all (·.done) = true
  bits : ∀ tid, core.activeThreads tid = core.activeAt tid
  /-- The threads of the last CTA in a free slot have exited. -/
  exited : ∀ slot, core.residency.resident slot = none →
    ∀ info, lookup (site.smIdx slot) = some info → info.exited = info.given

variable {cfg : GpuConfig} {ls ls' : List KernelLaunch} {site : InitSite}
  {lookup lookup' : Nat → Option PtxCtaInfo} {core : SimtCore} {r : Residency} {l : KernelLaunch}
  {k : Kernel} {slot start n tid : Nat} {cta : Cta} {thd : PtxThreadInfo}

theorem ctaOf_some (h : core.residency.resident slot = some cta) :
    core.ctaOf slot = {(cta.kernel.uid, core.ctaidAt cta.startThread)} := by
  rw [ctaOf, h]

theorem ctaOf_none (h : core.residency.resident slot = none) : core.ctaOf slot = 0 := by
  rw [ctaOf, h]

/-- The hardware threads of a CTA, by their numbers in the CTA. -/
theorem exists_of_has (h : cta.Has tid) :
    ∃ t < cta.kernel.threadsPerCta, tid = cta.startThread + t := by
  obtain ⟨hlo, hhi⟩ := h
  exact ⟨tid - cta.startThread, by omega, by omega⟩

theorem has_startThread (cta : Cta) : cta.Has cta.startThread :=
  ⟨Nat.le_refl _, Nat.lt_add_of_pos_right cta.kernel.threadsPerCta_pos⟩

/-- The threads of a CTA are those of one position in the grid of its kernel. -/
theorem Running.ctaidAt (h : core.Running ls site lookup slot cta) :
    ∃ l ∈ ls, ∃ n < l.gridDim.volume, l.kernel = cta.kernel ∧
      ∀ tid, cta.Has tid → core.ctaidAt tid = l.gridDim.nth n := by
  obtain ⟨l, hl, n, hn, hk, hthreads⟩ := h.threads
  refine ⟨l, hl, n, hn, hk, fun tid htid => ?_⟩
  obtain ⟨t, ht, rfl⟩ := exists_of_has htid
  obtain ⟨d, hd⟩ := hthreads t ht
  rw [SimtCore.ctaidAt, hd]
  rfl

/-- A CTA stays as it is while its hardware threads, their count and its information do. -/
theorem Running.congr {core' : SimtCore} (h : core.Running ls site lookup slot cta)
    (hthread : ∀ tid, cta.Has tid → core'.thread tid = core.thread tid)
    (hstate : ∀ tid, cta.Has tid → core'.threadState tid = core.threadState tid)
    (hstatus : core'.residency.ctaStatus slot = core.residency.ctaStatus slot)
    (hinfo : lookup' (site.smIdx slot) = lookup (site.smIdx slot)) :
    core'.Running ls site lookup' slot cta := by
  have hhas : ∀ t < cta.kernel.threadsPerCta, cta.Has (cta.startThread + t) := fun t ht =>
    ⟨Nat.le_add_right _ _, Nat.add_lt_add_left ht _⟩
  obtain ⟨l, hl, n, hn, hk, hthreads⟩ := h.threads
  refine ⟨h.contained, ⟨l, hl, n, hn, hk, fun t ht => ?_⟩, fun t ht => ?_, ?_, ?_⟩
  · rw [hthread _ (hhas t ht)]
    exact hthreads t ht
  · rw [hstate _ (hhas t ht)]
    exact h.ctaId t ht
  · rw [hstatus, h.status]
    exact countIn_congr fun t ht => congrArg ThreadCtx.active (hstate _ (hhas t ht)).symm
  · rw [hinfo, h.info]
    congr 2
    exact countIn_congr fun t ht => congrArg (Option.any _) (hthread _ (hhas t ht)).symm

/-- A resident CTA is counted. -/
theorem Sound.mem_residentCtas (h : core.Sound cfg ls site lookup)
    (hcta : core.residency.resident slot = some cta) :
    (cta.kernel.uid, core.ctaidAt cta.startThread) ∈ core.residentCtas := by
  have hslot := h.spread.slot_lt slot cta hcta
  refine Multiset.mem_sum.mpr ⟨slot, Finset.mem_range.mpr hslot, ?_⟩
  rw [ctaOf_some hcta]
  exact Multiset.mem_singleton_self _

/-- A counted CTA is resident. -/
theorem exists_of_mem_residentCtas {a : Nat × Dim3} (ha : a ∈ core.residentCtas) :
    ∃ slot cta, core.residency.resident slot = some cta ∧ cta.kernel.uid = a.1 ∧
      core.ctaidAt cta.startThread = a.2 := by
  obtain ⟨slot, _, hmem⟩ := Multiset.mem_sum.mp ha
  cases hcta : core.residency.resident slot with
  | none =>
    rw [ctaOf_none hcta] at hmem
    exact absurd hmem (Multiset.notMem_zero a)
  | some cta =>
    rw [ctaOf_some hcta, Multiset.mem_singleton] at hmem
    exact ⟨slot, cta, hcta, by rw [hmem], by rw [hmem]⟩

theorem Sound.mono (h : core.Sound cfg ls site lookup) (hle : ∀ l ∈ ls, l ∈ ls') :
    core.Sound cfg ls' site lookup :=
  { h with
    bound := fun k hk => by
      obtain ⟨l, hl, heq⟩ := h.bound k hk
      exact ⟨l, hle l hl, heq⟩
    running := fun slot cta hcta => by
      have hrunning := h.running slot cta hcta
      obtain ⟨l, hl, hrest⟩ := hrunning.threads
      exact { hrunning with threads := ⟨l, hle l hl, hrest⟩ } }

/-- Only the information about the slots of the core matters. -/
theorem Sound.congr (h : core.Sound cfg ls site lookup)
    (hinfo : ∀ slot, lookup' (site.smIdx slot) = lookup (site.smIdx slot)) :
    core.Sound cfg ls site lookup' :=
  { h with
    running := fun slot cta hcta =>
      (h.running slot cta hcta).congr (fun _ _ => rfl) (fun _ _ => rfl) rfl (hinfo slot)
    exited := fun slot hfree info hlookup =>
      h.exited slot hfree info ((hinfo slot).symm.trans hlookup) }

/-- A core without unfinished threads has no CTA. -/
theorem Sound.none_of_notCompleted (h : core.Sound cfg ls site lookup)
    (hzero : core.notCompleted = 0) (slot : Nat) : core.residency.resident slot = none := by
  cases hcta : core.residency.resident slot with
  | none => rfl
  | some cta =>
    have hsum := h.notCompleted
    rw [hzero] at hsum
    have hstatus := Finset.sum_eq_zero_iff.mp hsum.symm slot
      (Finset.mem_range.mpr (h.spread.slot_lt slot cta hcta))
    rw [← hcta]
    exact (h.spread.status slot).mp hstatus

/-- The kernel that a core is bound to may change as far as its CTAs allow. -/
theorem Sound.withKernel (h : core.Sound cfg ls site lookup) {o : Option Kernel}
    (hbound : ∀ k, o = some k → ∃ l ∈ ls, l.kernel = k)
    (hsingle : cfg.core.gpgpuConcurrentKernelSm = false →
      ∀ slot cta, core.residency.resident slot = some cta → o = some cta.kernel)
    (hunbound : cfg.core.gpgpuConcurrentKernelSm = true → o = none) :
    Sound cfg ls site lookup
      { core with residency := { core.residency with kernel := o } } :=
  { h with
    spread := h.spread.withKernel hsingle hunbound
    bound := hbound
    running := fun slot cta hcta =>
      (h.running slot cta hcta).congr (fun _ _ => rfl) (fun _ _ => rfl) rfl rfl }

/-- An idle core may be bound to another kernel. -/
theorem Sound.bind (h : core.Sound cfg ls site lookup) (hidle : core.notCompleted = 0)
    (hsingle : cfg.core.gpgpuConcurrentKernelSm = false) (hl : l ∈ ls) :
    Sound cfg ls site lookup { core with
      residency := { core.residency with kernel := some l.kernel } } := by
  refine h.withKernel (fun k hk => ⟨l, hl, Option.some.inj hk⟩) (fun _ slot cta hcta => ?_)
    fun htrue => ?_
  · rw [h.none_of_notCompleted hidle slot] at hcta
    cases hcta
  · rw [hsingle] at htrue
    cases htrue

/-- A core lets go of a kernel of which it has no CTA left. -/
theorem Sound.release (h : core.Sound cfg ls site lookup) (hk : core.residency.kernel = some k)
    (hnone : ∀ slot cta, core.residency.resident slot = some cta → cta.kernel ≠ k) :
    Sound cfg ls site lookup
      { core with residency := { core.residency with kernel := none } } := by
  refine h.withKernel (fun k hk => by cases hk) (fun hsingle slot cta hcta => ?_) fun _ => rfl
  have heq := h.spread.single hsingle slot cta hcta
  rw [hk, Option.some.injEq] at heq
  exact absurd heq.symm (hnone slot cta hcta)

/-- The core after a CTA with `count` threads was issued to it. -/
def issued (core : SimtCore) (r : Residency) (slot start count : Nat)
    (threads : Nat → PtxThreadInfo) : SimtCore where
  residency := r
  notCompleted := core.notCompleted + count
  thread := overlay core.thread start count fun t => some (threads t)
  threadState := overlay core.threadState start count fun _ => ⟨some slot, true⟩
  activeThreads := overlay core.activeThreads start count fun _ => true

section

variable {count t : Nat} {threads : Nat → PtxThreadInfo}

/-- The hardware threads of the CTA that was issued. -/
theorem issued_inside (ht : t < count) :
    (core.issued r slot start count threads).thread (start + t) = some (threads t) ∧
      (core.issued r slot start count threads).threadState (start + t) = ⟨some slot, true⟩ ∧
      (core.issued r slot start count threads).activeThreads (start + t) = true := by
  simp only [issued]
  exact ⟨overlay_inside ht, overlay_inside ht, overlay_inside ht⟩

/-- The other hardware threads stay. -/
theorem issued_outside (h : ¬(start ≤ tid ∧ tid < start + count)) :
    (core.issued r slot start count threads).thread tid = core.thread tid ∧
      (core.issued r slot start count threads).threadState tid = core.threadState tid ∧
      (core.issued r slot start count threads).activeThreads tid = core.activeThreads tid := by
  simp only [issued]
  exact ⟨overlay_outside h, overlay_outside h, overlay_outside h⟩

/-- A hardware thread is one of the CTA that was issued, or stays. -/
theorem issued_cases (start count tid : Nat) : (∃ t < count, tid = start + t) ∨
    ¬(start ≤ tid ∧ tid < start + count) := by
  by_cases h : start ≤ tid ∧ tid < start + count
  · exact .inl ⟨tid - start, by omega, by omega⟩
  · exact .inr h

end

/-- The hardware threads that a CTA is issued to belong to no other CTA. -/
theorem Sound.issue_apart (h : core.Sound cfg ls site lookup)
    (hi : core.residency.Issued cfg.core k slot start r)
    (hkernel : cfg.core.gpgpuConcurrentKernelSm = true ∨ core.residency.kernel = some k)
    {i : Nat} (hcta : core.residency.resident i = some cta) (htid : cta.Has tid) :
    ¬(start ≤ tid ∧ tid < start + k.threadsPerCta) := by
  intro hnew
  have hfree : core.residency.resident slot = none := (h.spread.status slot).mp hi.status
  have hne : i ≠ slot := by
    rintro rfl
    rw [hfree] at hcta
    cases hcta
  have hslot : r.resident slot = some ⟨k, start⟩ := by
    rw [hi.resident, Function.update_self]
  have hother : r.resident i = some cta := by
    rw [hi.resident, Function.update_of_ne hne]
    exact hcta
  exact hne ((h.spread.issue hi hkernel).disjoint hother hslot htid hnew)

/-- The hardware threads that a CTA is issued to are not active. -/
theorem Sound.issue_idle (h : core.Sound cfg ls site lookup)
    (hi : core.residency.Issued cfg.core k slot start r)
    (hkernel : cfg.core.gpgpuConcurrentKernelSm = true ∨ core.residency.kernel = some k) {t : Nat}
    (ht : t < k.threadsPerCta) : core.activeAt (start + t) = false := by
  rw [← Bool.not_eq_true]
  intro hactive
  obtain ⟨i, cta, hcta, htid⟩ := h.owner _ hactive
  exact h.issue_apart hi hkernel hcta htid ⟨Nat.le_add_right _ _, Nat.add_lt_add_left ht _⟩

/-- A core keeps its invariant when it gets a CTA of a launched kernel. -/
theorem Sound.issue (h : core.Sound cfg ls site lookup) (hsid : site.sid < site.numShaders)
    (hi : core.residency.Issued cfg.core l.kernel slot start r) (hl : l ∈ ls)
    (hn : n < l.gridDim.volume)
    (hkernel : cfg.core.gpgpuConcurrentKernelSm = true ∨
      core.residency.kernel = some l.kernel)
    (hend : start + l.kernel.threadsPerCta ≤ site.nThreadPerShader) :
    Sound cfg ls site
      (Function.update lookup (site.smIdx slot) (some ⟨l.kernel.threadsPerCta, 0⟩))
      (core.issued r slot start l.kernel.threadsPerCta (l.thread site n slot start)) := by
  have hfree : core.residency.resident slot = none := (h.spread.status slot).mp hi.status
  have hold : ∀ i cta, r.resident i = some cta → i ≠ slot →
      core.residency.resident i = some cta := by
    intro i cta hcta hne
    rwa [hi.resident, Function.update_of_ne hne] at hcta
  constructor
  · exact h.spread.issue hi hkernel
  · have hsum := sum_update (Finset.mem_range.mpr hi.slot_lt) core.residency.ctaStatus
      l.kernel.threadsPerCta id
    rw [hi.status, id_eq, Nat.add_zero, id_eq] at hsum
    calc core.notCompleted + l.kernel.threadsPerCta
        = ∑ i ∈ Finset.range 32, core.residency.ctaStatus i + l.kernel.threadsPerCta := by
          rw [h.notCompleted]
      _ = ∑ i ∈ Finset.range 32, r.ctaStatus i := by rw [hi.ctaStatus]; exact hsum.symm
  · intro k hk
    exact h.bound k (hi.kernel ▸ hk)
  · intro i cta hcta
    by_cases heq : i = slot
    · have hcta : r.resident i = some cta := hcta
      rw [hi.resident, heq, Function.update_self, Option.some.injEq] at hcta
      subst hcta heq
      refine ⟨hend, ⟨l, hl, n, hn, rfl, fun t ht => ⟨false, (issued_inside ht).1⟩⟩, fun t ht => ?_,
        ?_, ?_⟩
      · exact congrArg ThreadCtx.ctaId (issued_inside ht).2.1
      · change r.ctaStatus i = _
        rw [hi.ctaStatus, Function.update_self]
        exact (countIn_all fun t ht => congrArg ThreadCtx.active (issued_inside ht).2.1).symm
      · rw [Function.update_self]
        congr 2
        exact (countIn_eq_zero.mpr fun t ht => congrArg (Option.any _) (issued_inside ht).1).symm
    · have hcta := hold i cta hcta heq
      refine (h.running i cta hcta).congr (fun tid htid => ?_) (fun tid htid => ?_) ?_ ?_
      · exact (issued_outside (h.issue_apart hi hkernel hcta htid)).1
      · exact (issued_outside (h.issue_apart hi hkernel hcta htid)).2.1
      · change r.ctaStatus i = _
        rw [hi.ctaStatus, Function.update_of_ne heq]
      · exact Function.update_of_ne (InitSite.smIdx_ne hsid heq) ..
  · intro tid hactive
    rcases issued_cases start l.kernel.threadsPerCta tid with
      ⟨t, ht, rfl⟩ | hout
    · refine ⟨slot, ⟨l.kernel, start⟩, ?_, Nat.le_add_right _ _, Nat.add_lt_add_left ht _⟩
      change r.resident slot = _
      rw [hi.resident, Function.update_self]
    · rw [activeAt, (issued_outside hout).2.1] at hactive
      obtain ⟨i, cta, hcta, htid⟩ := h.owner tid hactive
      have hne : i ≠ slot := by
        rintro rfl
        rw [hfree] at hcta
        cases hcta
      refine ⟨i, cta, ?_, htid⟩
      change r.resident i = _
      rw [hi.resident, Function.update_of_ne hne]
      exact hcta
  · intro tid hidle
    rcases issued_cases start l.kernel.threadsPerCta tid with
      ⟨t, ht, rfl⟩ | hout
    · rw [activeAt, (issued_inside ht).2.1] at hidle
      cases hidle
    · rw [activeAt, (issued_outside hout).2.1] at hidle
      rw [(issued_outside hout).1]
      exact h.done tid hidle
  · intro tid
    rcases issued_cases start l.kernel.threadsPerCta tid with
      ⟨t, ht, rfl⟩ | hout
    · rw [activeAt, (issued_inside ht).2.1, (issued_inside ht).2.2]
    · rw [activeAt, (issued_outside hout).2.1, (issued_outside hout).2.2]
      exact h.bits tid
  · intro i hnone info hinfo
    have hnone : r.resident i = none := hnone
    rw [hi.resident] at hnone
    have hne : i ≠ slot := by
      rintro rfl
      rw [Function.update_self] at hnone
      cases hnone
    rw [Function.update_of_ne hne] at hnone
    rw [Function.update_of_ne (InitSite.smIdx_ne hsid hne)] at hinfo
    exact h.exited i hnone info hinfo

/-- The CTA that is issued is counted with the others. -/
theorem Sound.residentCtas_issue (h : core.Sound cfg ls site lookup)
    (hi : core.residency.Issued cfg.core l.kernel slot start r)
    (hkernel : cfg.core.gpgpuConcurrentKernelSm = true ∨
      core.residency.kernel = some l.kernel) :
    (core.issued r slot start l.kernel.threadsPerCta (l.thread site n slot start)).residentCtas =
      (l.kernel.uid, l.gridDim.nth n) ::ₘ core.residentCtas := by
  have hfree : core.residency.resident slot = none := (h.spread.status slot).mp hi.status
  have hold : ∀ i, i ≠ slot → (core.issued r slot start l.kernel.threadsPerCta
      (l.thread site n slot start)).ctaOf i = core.ctaOf i := by
    intro i hne
    have hresident : (core.issued r slot start l.kernel.threadsPerCta
        (l.thread site n slot start)).residency.resident i = core.residency.resident i := by
      change r.resident i = _
      rw [hi.resident, Function.update_of_ne hne]
    cases hcta : core.residency.resident i with
    | none => rw [ctaOf_none hcta, ctaOf_none (hresident.trans hcta)]
    | some cta =>
      have hout := h.issue_apart hi hkernel hcta (has_startThread cta)
      rw [ctaOf_some hcta, ctaOf_some (hresident.trans hcta), SimtCore.ctaidAt, SimtCore.ctaidAt,
        (issued_outside hout).1]
  have hnew : (core.issued r slot start l.kernel.threadsPerCta
      (l.thread site n slot start)).ctaOf slot = {(l.kernel.uid, l.gridDim.nth n)} := by
    have hresident : (core.issued r slot start l.kernel.threadsPerCta
        (l.thread site n slot start)).residency.resident slot = some ⟨l.kernel, start⟩ := by
      change r.resident slot = _
      rw [hi.resident, Function.update_self]
    have hthread : (core.issued r slot start l.kernel.threadsPerCta
        (l.thread site n slot start)).thread start = some (l.thread site n slot start 0) :=
      (issued_inside (t := 0) l.kernel.threadsPerCta_pos).1
    rw [ctaOf_some hresident, SimtCore.ctaidAt, hthread]
    rfl
  have hsum := sum_except (Finset.mem_range.mpr hi.slot_lt) hold
  rw [ctaOf_none hfree, add_zero, hnew, Multiset.add_comm] at hsum
  exact hsum

/-- A core that may have got CTAs: those it had stay as they are, and the threads of a new one
all run. -/
structure Grows (cfg : GpuConfig) (core core' : SimtCore) : Prop where
  keep : ∀ slot cta, core.residency.resident slot = some cta →
    core'.residency.resident slot = some cta ∧
      ∀ tid, cta.Has tid → core'.thread tid = core.thread tid
  new : ∀ slot cta, core.residency.resident slot = none →
    core'.residency.resident slot = some cta →
      slot < max 1 cfg.core.maxCtaPerCore ∧ ∀ tid, cta.Has tid → core'.runsAt tid = true

namespace Grows

variable {core₁ core₂ core₃ : SimtCore}

/-- A core that keeps its CTAs and threads. -/
theorem of_eq (hresident : core₂.residency.resident = core₁.residency.resident)
    (hthread : core₂.thread = core₁.thread) : core₁.Grows cfg core₂ where
  keep _ _ hcta := ⟨hresident ▸ hcta, fun _ _ => by rw [hthread]⟩
  new _ _ hnone hcta := by
    rw [hresident, hnone] at hcta
    cases hcta

theorem trans (h : core₁.Grows cfg core₂) (h' : core₂.Grows cfg core₃) :
    core₁.Grows cfg core₃ where
  keep slot cta hcta := by
    obtain ⟨hcta₂, hsame⟩ := h.keep slot cta hcta
    obtain ⟨hcta₃, hsame'⟩ := h'.keep slot cta hcta₂
    exact ⟨hcta₃, fun tid htid => (hsame' tid htid).trans (hsame tid htid)⟩
  new slot cta hnone hcta := by
    cases hmid : core₂.residency.resident slot with
    | none => exact h'.new slot cta hmid hcta
    | some cta' =>
      obtain ⟨hcta', hsame⟩ := h'.keep slot cta' hmid
      obtain rfl : cta' = cta := Option.some.inj (hcta'.symm.trans hcta)
      obtain ⟨hslot, hruns⟩ := h.new slot cta' hnone hmid
      refine ⟨hslot, fun tid htid => ?_⟩
      rw [runsAt, hsame tid htid]
      exact hruns tid htid

end Grows

/-- A core gets a CTA whose threads all run. -/
theorem Sound.grows_issue (h : core.Sound cfg ls site lookup)
    (hi : core.residency.Issued cfg.core l.kernel slot start r)
    (hkernel : cfg.core.gpgpuConcurrentKernelSm = true ∨
      core.residency.kernel = some l.kernel) :
    core.Grows cfg
      (core.issued r slot start l.kernel.threadsPerCta (l.thread site n slot start)) where
  keep i cta hcta := by
    have hne : i ≠ slot := by
      rintro rfl
      rw [(h.spread.status i).mp hi.status] at hcta
      cases hcta
    refine ⟨?_, fun tid htid => (issued_outside (h.issue_apart hi hkernel hcta htid)).1⟩
    change r.resident i = _
    rw [hi.resident, Function.update_of_ne hne]
    exact hcta
  new i cta hnone hcta := by
    have hcta : r.resident i = some cta := hcta
    rw [hi.resident] at hcta
    by_cases heq : i = slot
    · rw [heq, Function.update_self, Option.some.injEq] at hcta
      subst hcta heq
      refine ⟨hi.slot_below, fun tid htid => ?_⟩
      obtain ⟨t, ht, rfl⟩ := exists_of_has htid
      rw [runsAt, (issued_inside ht).1]
      rfl
    · rw [Function.update_of_ne heq, hnone] at hcta
      cases hcta

/-- The core after a hardware thread has left it. -/
def exited (core : SimtCore) (r : Residency) (tid : Nat) : SimtCore where
  residency := r
  notCompleted := core.notCompleted - 1
  thread := core.thread
  threadState := Function.update core.threadState tid { core.threadState tid with active := false }
  activeThreads := Function.update core.activeThreads tid false

theorem activeAt_exited (core : SimtCore) (r : Residency) (tid : Nat) :
    (core.exited r tid).activeAt = Function.update core.activeAt tid false := by
  funext i
  simp only [activeAt, exited]
  by_cases heq : i = tid
  · rw [heq, Function.update_self, Function.update_self]
  · rw [Function.update_of_ne heq, Function.update_of_ne heq]
    rfl

/-- What the exit of an active hardware thread does to the CTAs of its core. -/
structure Exits (cfg : GpuConfig) (core : SimtCore) (r : Residency) (slot tid : Nat) (cta : Cta) :
    Prop where
  resident : core.residency.resident slot = some cta
  has : cta.Has tid
  active : core.activeAt tid = true
  exit : core.residency.registerCtaThreadExit cfg.core slot = .ok r

/-- The CTAs that stay were there before. -/
theorem Exits.resident_of (h : core.Exits cfg r slot tid cta) {i : Nat} {cta' : Cta}
    (hcta : r.resident i = some cta') : core.residency.resident i = some cta' := by
  rcases (Residency.exit_frame h.exit).2.1 with heq | heq
  · exact heq ▸ hcta
  · rw [heq] at hcta
    by_cases hi : i = slot
    · rw [hi, Function.update_self] at hcta
      cases hcta
    · rwa [Function.update_of_ne hi] at hcta

/-- The other CTAs stay. -/
theorem Exits.resident_ne (h : core.Exits cfg r slot tid cta) {i : Nat} (hi : i ≠ slot) :
    r.resident i = core.residency.resident i := by
  rcases (Residency.exit_frame h.exit).2.1 with heq | heq
  · rw [heq]
  · rw [heq, Function.update_of_ne hi]

/-- The count of a CTA is that of its active threads, also after one has left. -/
theorem Exits.status_eq (h : core.Exits cfg r slot tid cta) (hs : core.Sound cfg ls site lookup) :
    r.ctaStatus slot =
      countIn (core.exited r tid).activeAt cta.startThread cta.kernel.threadsPerCta := by
  have hcount := countIn_update_inside (p := core.activeAt) (b := false) h.has.1 h.has.2
  rw [h.active, Bool.toNat_true, Bool.toNat_false, ← (hs.running slot cta h.resident).status]
    at hcount
  rw [(Residency.exit_frame h.exit).1, Function.update_self, activeAt_exited]
  omega

/-- One thread less that is not completed. -/
theorem Exits.notCompleted (h : core.Exits cfg r slot tid cta)
    (hs : core.Sound cfg ls site lookup) :
    core.notCompleted - 1 = ∑ i ∈ Finset.range 32, r.ctaStatus i := by
  have hslot := Finset.mem_range.mpr (hs.spread.slot_lt slot cta h.resident)
  have hsum := sum_update hslot core.residency.ctaStatus (core.residency.ctaStatus slot - 1) id
  have hpos : core.residency.ctaStatus slot ≠ 0 := fun hzero => by
    have hnone := (hs.spread.status slot).mp hzero
    rw [h.resident] at hnone
    cases hnone
  simp only [id_eq] at hsum
  rw [(Residency.exit_frame h.exit).1, hs.notCompleted]
  omega

/-- A CTA leaves a core when all its threads are done. -/
theorem Exits.done_of_gone (hx : core.Exits cfg r slot tid cta)
    (h : core.Sound cfg ls site lookup) (hdone : (core.thread tid).all (·.done) = true)
    (hgone : r.resident slot = none) {tid' : Nat} (hhas : cta.Has tid') :
    (core.thread tid').all (·.done) = true := by
  have hzero := hx.status_eq h
  rw [((h.spread.exit hx.exit).status slot).mpr hgone] at hzero
  obtain ⟨t, ht, rfl⟩ := exists_of_has hhas
  by_cases heq : cta.startThread + t = tid
  · rw [heq]
    exact hdone
  · have hidle := countIn_eq_zero.mp hzero.symm t ht
    rw [activeAt_exited, Function.update_of_ne heq] at hidle
    exact h.done _ hidle

/-- A core keeps its invariant when a hardware thread whose thread is done leaves it. -/
theorem Sound.exit (h : core.Sound cfg ls site lookup) (hx : core.Exits cfg r slot tid cta)
    (hdone : (core.thread tid).all (·.done) = true) :
    (core.exited r tid).Sound cfg ls site lookup := by
  have hspread := h.spread.exit hx.exit
  obtain ⟨hstatus, _, hkernel⟩ := Residency.exit_frame hx.exit
  have hactive := activeAt_exited core r tid
  constructor
  · exact hspread
  · exact hx.notCompleted h
  · intro k hk
    rcases hkernel with heq | heq
    · exact h.bound k (heq ▸ hk)
    · have hk : r.kernel = some k := hk
      rw [heq] at hk
      cases hk
  · intro i cta' hcta'
    have hold := hx.resident_of hcta'
    by_cases hi : i = slot
    · subst hi
      obtain rfl : cta' = cta := Option.some.inj (hold.symm.trans hx.resident)
      have hrunning := h.running i cta' hold
      refine ⟨hrunning.contained, hrunning.threads, fun t ht => ?_, hx.status_eq h, hrunning.info⟩
      change (Function.update core.threadState tid _ _).ctaId = _
      by_cases heq : cta'.startThread + t = tid
      · rw [heq, Function.update_self, ← heq]
        exact hrunning.ctaId t ht
      · rw [Function.update_of_ne heq]
        exact hrunning.ctaId t ht
    · refine (h.running i cta' hold).congr (fun _ _ => rfl) (fun tid' htid' => ?_) ?_ rfl
      · refine Function.update_of_ne (fun heq => hi ?_) ..
        exact h.spread.disjoint hold hx.resident (heq ▸ htid') hx.has
      · change r.ctaStatus i = _
        rw [hstatus, Function.update_of_ne hi]
  · intro tid' htid'
    have hne : tid' ≠ tid := by
      rintro rfl
      rw [hactive, Function.update_self] at htid'
      cases htid'
    have hbefore : core.activeAt tid' = true := by
      rwa [hactive, Function.update_of_ne hne] at htid'
    obtain ⟨i, cta', hcta', hhas⟩ := h.owner tid' hbefore
    by_cases hi : i = slot
    · subst hi
      obtain rfl : cta' = cta := Option.some.inj (hcta'.symm.trans hx.resident)
      cases hres : r.resident i with
      | some cta'' =>
        obtain rfl : cta'' = cta' := Option.some.inj ((hx.resident_of hres).symm.trans hcta')
        exact ⟨i, cta'', hres, hhas⟩
      | none =>
        -- the CTA would not have left with this thread active
        have hzero := hx.status_eq h
        rw [(hspread.status i).mpr hres] at hzero
        obtain ⟨t, ht, rfl⟩ := exists_of_has hhas
        rw [countIn_eq_zero.mp hzero.symm t ht] at htid'
        cases htid'
    · exact ⟨i, cta', (hx.resident_ne hi).trans hcta', hhas⟩
  · intro tid' htid'
    by_cases heq : tid' = tid
    · rw [heq]
      exact hdone
    · rw [hactive, Function.update_of_ne heq] at htid'
      exact h.done tid' htid'
  · intro tid'
    rw [hactive]
    change Function.update core.activeThreads tid false tid' = _
    by_cases heq : tid' = tid
    · rw [heq, Function.update_self, Function.update_self]
    · rw [Function.update_of_ne heq, Function.update_of_ne heq]
      exact h.bits tid'
  · intro i hnone info hinfo
    by_cases hi : i = slot
    · subst hi
      have hrunning := h.running i cta hx.resident
      rw [hrunning.info, Option.some.injEq] at hinfo
      subst hinfo
      refine countIn_all fun t ht => ?_
      obtain ⟨l, _, n, _, _, hthreads⟩ := hrunning.threads
      obtain ⟨d, hd⟩ := hthreads t ht
      have hall := hx.done_of_gone h hdone hnone
        ⟨Nat.le_add_right _ _, Nat.add_lt_add_left ht _⟩
      rw [doneAt, hd]
      rw [hd] at hall
      exact hall
    · exact h.exited i ((hx.resident_ne hi).symm.trans hnone) info hinfo

/-- A CTA with a thread left stays counted, and the last thread takes the count of its CTA
along. -/
theorem Sound.residentCtas_exit (h : core.Sound cfg ls site lookup)
    (hx : core.Exits cfg r slot tid cta) :
    (r.ctaStatus slot ≠ 0 → (core.exited r tid).residentCtas = core.residentCtas) ∧
      (r.ctaStatus slot = 0 → core.residentCtas =
        (cta.kernel.uid, core.ctaidAt tid) ::ₘ (core.exited r tid).residentCtas) := by
  have hctaid : core.ctaidAt tid = core.ctaidAt cta.startThread := by
    obtain ⟨l, _, n, _, _, hall⟩ := (h.running slot cta hx.resident).ctaidAt
    rw [hall tid hx.has, hall _ (has_startThread cta)]
  have hspread := h.spread.exit hx.exit
  have hold : ∀ i, i ≠ slot → (core.exited r tid).ctaOf i = core.ctaOf i := by
    intro i hne
    unfold ctaOf
    change (match r.resident i with | none => _ | some cta => _) = _
    rw [hx.resident_ne hne]
    rfl
  have hsum := sum_except
    (Finset.mem_range.mpr (h.spread.slot_lt slot cta hx.resident)) hold
  refine ⟨fun hne => ?_, fun hzero => ?_⟩
  · cases hres : r.resident slot with
    | none => exact absurd ((hspread.status slot).mpr hres) hne
    | some cta' =>
      obtain rfl : cta' = cta := Option.some.inj ((hx.resident_of hres).symm.trans hx.resident)
      have hsame : (core.exited r tid).ctaOf slot = core.ctaOf slot := by
        rw [ctaOf_some hx.resident]
        exact ctaOf_some hres
      rw [hsame] at hsum
      exact add_right_cancel hsum
  · have hgone : (core.exited r tid).ctaOf slot = 0 := ctaOf_none ((hspread.status slot).mp hzero)
    rw [hgone, add_zero, ctaOf_some hx.resident, Multiset.add_comm, ← hctaid] at hsum
    exact hsum.symm

/-- The core after the thread of a hardware thread has executed its last instruction. -/
def finished (core : SimtCore) (tid : Nat) (thd : PtxThreadInfo) : SimtCore :=
  { core with thread := Function.update core.thread tid (some { thd with done := true }) }

/-- A thread that is not done is one of a CTA on the core. -/
theorem Sound.running_of_not_done (h : core.Sound cfg ls site lookup)
    (hthd : core.thread tid = some thd) (hdone : thd.done = false) :
    ∃ slot cta, core.residency.resident slot = some cta ∧ cta.Has tid := by
  refine h.owner tid (Bool.not_eq_false _ ▸ fun hidle => ?_)
  have hall := h.done tid hidle
  rw [hthd, Option.all_some, hdone] at hall
  cases hall

/-- A thread of a CTA has its information under the number of its hardware slot. -/
theorem Running.smIdx_eq (h : core.Running ls site lookup slot cta) (htid : cta.Has tid)
    (hthd : core.thread tid = some thd) : thd.smIdx = site.smIdx slot := by
  obtain ⟨l, _, n, _, _, hthreads⟩ := h.threads
  obtain ⟨t, ht, rfl⟩ := exists_of_has htid
  obtain ⟨d, hd⟩ := hthreads t ht
  rw [hthd, Option.some.injEq] at hd
  rw [hd]
  rfl

theorem doneAt_finished (core : SimtCore) (tid : Nat) (thd : PtxThreadInfo) :
    (core.finished tid thd).doneAt = Function.update core.doneAt tid true := by
  funext i
  simp only [doneAt, finished]
  by_cases heq : i = tid
  · rw [heq, Function.update_self, Function.update_self]
    rfl
  · rw [Function.update_of_ne heq, Function.update_of_ne heq]
    rfl

/-- A CTA of which a thread ends counts one thread more that has exited. -/
theorem Running.finish (h : core.Running ls site lookup slot cta) (htid : cta.Has tid)
    (hthd : core.thread tid = some thd) (hdone : thd.done = false) :
    (core.finished tid thd).Running ls site (Function.update lookup (site.smIdx slot)
      (some ⟨cta.kernel.threadsPerCta,
        countIn core.doneAt cta.startThread cta.kernel.threadsPerCta + 1⟩)) slot cta := by
  have hcount := countIn_update_inside (p := core.doneAt) (b := true) htid.1 htid.2
  have hbefore : core.doneAt tid = false := by
    rw [doneAt, hthd, Option.any_some, hdone]
  rw [hbefore, Bool.toNat_true, Bool.toNat_false, Nat.add_zero, ← doneAt_finished core tid thd]
    at hcount
  obtain ⟨l, hl, n, hn, hk, hthreads⟩ := h.threads
  refine ⟨h.contained, ⟨l, hl, n, hn, hk, fun t ht => ?_⟩, h.ctaId, h.status, ?_⟩
  · obtain ⟨d, hd⟩ := hthreads t ht
    change ∃ d, Function.update core.thread tid _ _ = _
    by_cases heq : cta.startThread + t = tid
    · rw [heq, hthd, Option.some.injEq] at hd
      rw [heq, Function.update_self, hd]
      exact ⟨true, rfl⟩
    · rw [Function.update_of_ne heq]
      exact ⟨d, hd⟩
  · rw [Function.update_self, hcount]

/-- A core keeps its invariant when a thread of one of its CTAs ends. -/
theorem Sound.finish (h : core.Sound cfg ls site lookup) (hsid : site.sid < site.numShaders)
    (hcta : core.residency.resident slot = some cta) (htid : cta.Has tid)
    (hthd : core.thread tid = some thd) (hdone : thd.done = false) :
    (core.finished tid thd).Sound cfg ls site (Function.update lookup (site.smIdx slot)
      (some ⟨cta.kernel.threadsPerCta,
        countIn core.doneAt cta.startThread cta.kernel.threadsPerCta + 1⟩)) :=
  { h with
    running := fun i cta' hcta' => by
      by_cases hi : i = slot
      · subst hi
        obtain rfl : cta' = cta := Option.some.inj (hcta'.symm.trans hcta)
        exact (h.running i cta' hcta').finish htid hthd hdone
      · refine (h.running i cta' hcta').congr (fun tid' htid' => ?_) (fun _ _ => rfl) rfl
          (Function.update_of_ne (InitSite.smIdx_ne hsid hi) ..)
        refine Function.update_of_ne (fun heq => hi ?_) ..
        exact h.spread.disjoint hcta' hcta (heq ▸ htid') htid
    done := fun tid' hidle => by
      change (Function.update core.thread tid _ tid').all _ = true
      by_cases heq : tid' = tid
      · rw [heq, Function.update_self]
        rfl
      · rw [Function.update_of_ne heq]
        exact h.done tid' hidle
    exited := fun i hnone info hinfo => by
      have hne : i ≠ slot := by
        rintro rfl
        cases hcta.symm.trans hnone
      rw [Function.update_of_ne (InitSite.smIdx_ne hsid hne)] at hinfo
      exact h.exited i hnone info hinfo }

/-- The CTAs of a core stay when a thread ends. -/
theorem residentCtas_finished (hthd : core.thread tid = some thd) :
    (core.finished tid thd).residentCtas = core.residentCtas := by
  have hctaid : (core.finished tid thd).ctaidAt = core.ctaidAt := by
    funext i
    simp only [SimtCore.ctaidAt, finished]
    by_cases heq : i = tid
    · rw [heq, Function.update_self, hthd]
      rfl
    · rw [Function.update_of_ne heq]
  refine Finset.sum_congr rfl fun slot _ => ?_
  unfold ctaOf
  rw [hctaid]
  rfl

/-- A core that counts no CTA has none. -/
theorem Sound.none_of_idle (h : core.Sound cfg ls site lookup)
    (hidle : core.residency.nActiveCta = 0) (slot : Nat) : core.residency.resident slot = none := by
  cases hcta : core.residency.resident slot with
  | none => rfl
  | some cta =>
    have hone : 1 ≤ core.residency.total cfg.core fun _ => 1 :=
      Residency.demand_le_total cfg.core (h.spread.slot_lt slot cta hcta) hcta fun _ => 1
    have hcount := h.spread.active
    omega

/-- A core without CTAs can start anew. -/
theorem Sound.reinit (h : core.Sound cfg ls site lookup)
    (hidle : core.residency.nActiveCta = 0) : core.reinit.Sound cfg ls site lookup := by
  have hnone := h.none_of_idle hidle
  have hinactive : ∀ tid, core.activeAt tid = false := by
    intro tid
    rw [← Bool.not_eq_true]
    intro hactive
    obtain ⟨slot, cta, hcta, _⟩ := h.owner tid hactive
    rw [hnone slot] at hcta
    cases hcta
  have hnocta : ∀ {p : Prop} {slot cta}, core.residency.resident slot = some cta → p := by
    intro p slot cta hcta
    rw [hnone slot] at hcta
    cases hcta
  have htotal : core.residency.total cfg.core (fun _ => 1) = 0 := h.spread.active.symm.trans hidle
  constructor
  · refine { h.spread with packed := fun _ => ?_, hwtid := fun _ slot => ?_, ctas := fun _ => ?_ }
    · have hranges : ∀ slot, core.residency.ranges cfg.core slot = none := by
        intro slot
        unfold Residency.ranges
        rw [Function.comp_apply, hnone slot]
        rfl
      constructor
      · intro t
        constructor
        · intro hbit
          cases hbit
        · rintro ⟨i, hi⟩
          exact absurd hi (not_inRange (hranges i))
      · intro i j t hi
        exact absurd hi (not_inRange (hranges i))
    · change none = (core.residency.resident slot).map _
      rw [hnone slot]
      rfl
    · exact htotal.symm
  · change 0 = ∑ slot ∈ Finset.range 32, core.residency.ctaStatus slot
    exact (Finset.sum_eq_zero fun slot _ => (h.spread.status slot).mpr (hnone slot)).symm
  · exact h.bound
  · exact fun slot cta hcta => hnocta hcta
  · intro tid hactive
    cases (hinactive tid).symm.trans hactive
  · exact h.done
  · exact fun tid => (hinactive tid).symm
  · exact h.exited

end SimtCore

end WaspSim
