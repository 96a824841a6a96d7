import WaspSim.Dispatch.Select

/-!
# The issue of CTAs

A core that is asked for a kernel with CTAs left gives the next of them a slot, and its
hardware threads the threads of that CTA.
-/

namespace WaspSim

/-- The errors that the dispatcher does not answer for: those of `max_cta` for a launched kernel,
and with concurrent kernels an index beyond an array of the core and a counter below zero. -/
def GpuHalt.Excused (cfg : GpuConfig) (ls : List KernelLaunch) : GpuHalt → Prop
  | .core e => (∃ l ∈ ls, Residency.maxCta cfg.core l.kernel = .error e) ∨
      cfg.core.gpgpuConcurrentKernelSm = true ∧ (e = .indexOutOfRange ∨ e = .occupancyUnderflow)
  | .init f => cfg.core.gpgpuConcurrentKernelSm = true ∧ f = .indexOutOfRange
  | _ => False

/-- A computation of a core, with what follows its success. -/
theorem MeetsUnless.liftCore {α β : Type} {cfg : GpuConfig} {ls : List KernelLaunch}
    {E : Halt → Prop} {x : Except Halt α} {f : α → Except GpuHalt β} {P : α → Prop} {R : β → Prop}
    (hx : MeetsUnless E x P) (hE : ∀ e, E e → GpuHalt.Excused cfg ls (.core e))
    (hf : ∀ a, P a → MeetsUnless (GpuHalt.Excused cfg ls) (f a) R) :
    MeetsUnless (GpuHalt.Excused cfg ls) (liftCore x >>= f) R := by
  rcases hx with ⟨e, rfl, he⟩ | ⟨a, rfl, ha⟩
  · exact .inl ⟨.core e, rfl, hE e he⟩
  · exact hf a ha

/-- An initialisation of threads, with what follows its success. -/
theorem MeetsUnless.liftInit {α β : Type} {cfg : GpuConfig} {ls : List KernelLaunch}
    {E : InitFault → Prop} {x : Except InitFault α} {f : α → Except GpuHalt β} {P : α → Prop}
    {R : β → Prop} (hx : MeetsUnless E x P) (hE : ∀ e, E e → GpuHalt.Excused cfg ls (.init e))
    (hf : ∀ a, P a → MeetsUnless (GpuHalt.Excused cfg ls) (f a) R) :
    MeetsUnless (GpuHalt.Excused cfg ls) (liftInit x >>= f) R := by
  rcases hx with ⟨e, rfl, he⟩ | ⟨a, rfl, ha⟩
  · exact .inl ⟨.init e, rfl, hE e he⟩
  · exact hf a ha

/-- The threads of a CTA depend on the kernel by its next CTA and the size of its blocks. -/
theorem KernelState.boundThread_congr {k k' : KernelState} (hcta : k.nextCta = k'.nextCta)
    (hblock : k.blockDim = k'.blockDim) : k.boundThread = k'.boundThread := by
  unfold boundThread nthThread
  rw [hcta, hblock]

namespace GpgpuSim

variable {cfg : GpuConfig} {s s' : GpgpuSim} {core core' : SimtCore} {c i : Nat}
  {log log' : List DispatchEvent} {l l' : KernelLaunch} {k : Kernel} {uid : Nat}
  {lookup : Nat → Option PtxCtaInfo}

/-- More CTAs do not bring the count below the limit. -/
theorem hitMaxCtaCount_mono (hle : s.gpuTotIssuedCta + s.totalCtaLaunched ≤
    s'.gpuTotIssuedCta + s'.totalCtaLaunched) (h : s'.hitMaxCtaCount cfg = false) :
    s.hitMaxCtaCount cfg = false := by
  simp only [hitMaxCtaCount, Bool.and_eq_false_iff, bne_eq_false_iff_eq, decide_eq_false_iff_not,
    Nat.not_le] at h ⊢
  omega

/-- A kernel with CTAs left has not issued all of them. -/
theorem Progress.lt_volume (h : s.Progress cfg log l) (hmore : s.noMoreCtasToRun l.kernel = false) :
    (issuedOf l.kernel.uid log).length < l.gridDim.volume := by
  refine Nat.lt_of_le_of_ne h.issued_le fun heq => ?_
  have hpast := (Dim3.past_nth h.issued_le).mpr heq
  rw [noMoreCtasToRun, KernelState.noMoreCtasToRun, h.gridDim, h.nextCta, hpast] at hmore
  cases hmore

/-- The state after a CTA was issued to a core. -/
def withIssue (s : GpgpuSim) (c i : Nat) (core' : SimtCore) (uid : Nat)
    (lookup : Nat → Option PtxCtaInfo) : GpgpuSim :=
  { s.setCore c i core' with
    kernels := Function.update s.kernels uid (s.kernels uid).incRunning.incrementCtaId
    ctaLookup := lookup
    totalCtaLaunched := s.totalCtaLaunched + 1 }

/-- One more CTA on the cores. -/
theorem residentCtas_add (hcore : s.core? c i = some core) {a : Nat × Dim3}
    (hadd : core'.residentCtas = a ::ₘ core.residentCtas) :
    (s.setCore c i core').residentCtas = a ::ₘ s.residentCtas := by
  have hmoved := residentCtas_setCore core' hcore
  rw [hadd, Multiset.add_cons, ← Multiset.cons_add] at hmoved
  exact add_right_cancel hmoved

/-- The kernel whose CTA is issued keeps its part of the invariant. -/
theorem Progress.issue (h : s.Progress cfg log l)
    (hleft : s.kernelMoreCtaLeft cfg (some l.kernel) = true)
    (hcount : ctasOf l.kernel.uid s'.residentCtas = ctasOf l.kernel.uid s.residentCtas + 1)
    (hkernel : s'.kernels l.kernel.uid = (s.kernels l.kernel.uid).incRunning.incrementCtaId)
    (hrunning : s'.runningKernels = s.runningKernels) {sid slot : Nat} :
    s'.Progress cfg
      (log ++ [.ctaIssued l.kernel.uid (s.kernels l.kernel.uid).nextCta sid slot]) l := by
  obtain ⟨hhit, hmore⟩ := kernelMoreCtaLeft_some.mp hleft
  have hlt := h.lt_volume hmore
  have hin : s'.InSlot l.kernel := by
    obtain ⟨n, hn⟩ := h.slot_of_left hleft
    exact ⟨n, hrunning ▸ hn⟩
  have hissued : issuedOf l.kernel.uid
      (log ++ [.ctaIssued l.kernel.uid (s.kernels l.kernel.uid).nextCta sid slot]) =
      issuedOf l.kernel.uid log ++ [l.gridDim.nth (issuedOf l.kernel.uid log).length] := by
    rw [issuedOf_append, h.nextCta]
    simp [issuedOf, issuedCtas, DispatchEvent.issued?]
  have hdone : doneUids (log ++
      [.ctaIssued l.kernel.uid (s.kernels l.kernel.uid).nextCta sid slot]) = doneUids log := by
    rw [doneUids_append]
    exact List.append_nil _
  constructor
  · rw [hkernel]
    exact h.gridDim
  · rw [hkernel]
    exact h.blockDim
  · rw [hkernel]
    rfl
  · rw [hkernel]
    exact h.activeThreads
  · exact h.fits
  · rw [hkernel, hissued, List.length_append, List.length_singleton, ← Dim3.increment_nth hlt,
      ← h.nextCta, ← h.gridDim]
    rfl
  · rw [hissued, List.length_append, List.length_singleton]
    exact hlt
  · rw [hissued, List.length_append, List.length_singleton, List.range_succ, List.map_append,
      ← h.issued, List.map_singleton]
  · rw [hkernel, hcount, ← h.running]
    rfl
  · exact fun _ => hin
  · exact fun _ => hin
  · intro hmem
    rw [hdone] at hmem
    exact absurd (h.slot_of_left hleft) (h.ended hmem).1
  · intro _ _ hzero
    rw [hkernel] at hzero
    cases hzero

/-- A kernel of another number keeps its part of the invariant. -/
theorem Sound.progress_other (h : s.Sound cfg log) (hl : l' ∈ launches log)
    (hne : l'.kernel.uid ≠ uid) (hcore : s.core? c i = some core) {cta : Dim3}
    (hadd : core'.residentCtas = (uid, cta) ::ₘ core.residentCtas) {sid slot : Nat} :
    (s.withIssue c i core' uid lookup).Progress cfg (log ++ [.ctaIssued uid cta sid slot]) l' := by
  have hcount : (s.withIssue c i core' uid lookup).residentCtas =
      (uid, cta) ::ₘ s.residentCtas := residentCtas_add hcore hadd
  refine (h.progress l' hl).frame ⟨⟨_, Function.update_of_ne hne ..⟩, ?_, ?_, ?_, id,
    fun hslot _ => hslot, ?_⟩
  · simp [issuedOf, issuedCtas, DispatchEvent.issued?, Ne.symm hne]
  · rw [doneUids_append]
    simp [doneUids, DispatchEvent.done?]
  · rw [hcount, ctasOf_cons_ne (Ne.symm hne)]
  · exact hitMaxCtaCount_mono (Nat.le_succ _)

/-- The issue of a CTA keeps the invariant. -/
theorem Sound.issue (h : s.Sound cfg log) (hp : s.Picked cfg log c i l core)
    (hleft : s.kernelMoreCtaLeft cfg (some l.kernel) = true)
    (hsound : core'.Sound cfg (launches log) (cfg.site c i) lookup)
    (hlookup : ∀ idx, (∀ slot, idx ≠ (cfg.site c i).smIdx slot) → lookup idx = s.ctaLookup idx)
    (hadd : core'.residentCtas =
      (l.kernel.uid, (s.kernels l.kernel.uid).nextCta) ::ₘ core.residentCtas) {sid slot : Nat} :
    (s.withIssue c i core' l.kernel.uid lookup).Sound cfg
      (log ++ [.ctaIssued l.kernel.uid (s.kernels l.kernel.uid).nextCta sid slot]) := by
  obtain ⟨hhit, hmore⟩ := kernelMoreCtaLeft_some.mp hleft
  have hresident : (s.withIssue c i core' l.kernel.uid lookup).residentCtas =
      (l.kernel.uid, (s.kernels l.kernel.uid).nextCta) ::ₘ s.residentCtas :=
    residentCtas_add hp.found hadd
  have hkernel : (s.withIssue c i core' l.kernel.uid lookup).kernels l.kernel.uid =
      (s.kernels l.kernel.uid).incRunning.incrementCtaId := Function.update_self ..
  have hlaunches : launches
      (log ++ [.ctaIssued l.kernel.uid (s.kernels l.kernel.uid).nextCta sid slot]) =
      launches log := by
    rw [launches_append]
    exact List.append_nil _
  have hissued : issuedCtas
      (log ++ [.ctaIssued l.kernel.uid (s.kernels l.kernel.uid).nextCta sid slot]) =
      issuedCtas log ++ [(l.kernel.uid, (s.kernels l.kernel.uid).nextCta)] :=
    issuedCtas_append ..
  have hdone : doneUids
      (log ++ [.ctaIssued l.kernel.uid (s.kernels l.kernel.uid).nextCta sid slot]) =
      doneUids log := by
    rw [doneUids_append]
    exact List.append_nil _
  -- the time stamps of the other kernels and of this one stay
  have hlatency : ∀ uid, ((s.withIssue c i core' l.kernel.uid lookup).kernels uid).tbLatency =
      (s.kernels uid).tbLatency := by
    intro uid
    by_cases heq : uid = l.kernel.uid
    · rw [heq, hkernel]
      rfl
    · exact congrArg KernelState.tbLatency (Function.update_of_ne heq ..)
  have hbefore : ∀ k, (s.withIssue c i core' l.kernel.uid lookup).noMoreCtasToRun k = false →
      s.noMoreCtasToRun k = false := by
    intro k hk
    by_cases heq : k.uid = l.kernel.uid
    · unfold noMoreCtasToRun at hmore ⊢
      rw [heq]
      exact hmore
    · unfold noMoreCtasToRun at hk ⊢
      rw [← hk]
      exact congrArg KernelState.noMoreCtasToRun (Function.update_of_ne heq ..).symm
  constructor
  · have hshape := h.shape.setCore core' hp.found
    exact ⟨hshape.running, hshape.last_lt, hshape.clusters, hshape.row, hshape.next⟩
  · rw [hlaunches]
    refine ⟨h.slots.launched, h.slots.inj, fun uid huid => ?_, fun n k hk huid hmore' => ?_⟩
    · obtain ⟨hl, hzero⟩ := h.slots.executed uid huid
      exact ⟨hl, (hlatency uid).trans hzero⟩
    · exact h.slots.executed_last n k hk huid (hbefore k hmore')
  · rw [hlaunches]
    intro l' hl'
    by_cases heq : l'.kernel.uid = l.kernel.uid
    · obtain rfl := h.launch_inj hl' hp.launched heq
      refine (h.progress l' hl').issue hleft ?_ hkernel rfl
      rw [hresident]
      exact ctasOf_cons_self rfl
    · exact h.progress_other hl' heq hp.found hadd
  · rw [hlaunches]
    exact cores_setCore h.shape h.cores hp.found hsound hlookup
  · rw [hlaunches]
    exact h.once
  · rw [hissued, hlaunches]
    intro a ha
    rcases List.mem_append.mp ha with hold | hnew
    · exact h.issued_launched a hold
    · rw [List.mem_singleton.mp hnew]
      exact ⟨l, hp.launched, rfl⟩
  · have hcompleted : completedCtas
        (log ++ [.ctaIssued l.kernel.uid (s.kernels l.kernel.uid).nextCta sid slot]) =
        completedCtas log := by
      rw [completedCtas_append]
      exact List.append_nil _
    rw [hissued, hresident, hcompleted, ← Multiset.coe_add, h.ledger, Multiset.coe_singleton,
      add_assoc, add_comm s.residentCtas, Multiset.singleton_add]
  · rw [hissued, List.length_append, h.counted]
    rfl
  · intro hlimit
    have hle := h.limited hlimit
    simp only [hitMaxCtaCount, Bool.and_eq_false_iff, bne_eq_false_iff_eq,
      decide_eq_false_iff_not] at hhit
    change s.gpuTotIssuedCta + (s.totalCtaLaunched + 1) ≤ _
    omega
  · rw [hdone, hlaunches]
    exact h.done_launched
  · rw [hdone]
    exact h.done_once
  · rw [hdone, h.reported, reportedUids_append]
    exact congrArg (· ++ s.finishedKernel) (List.append_nil _).symm

/-- The counters of the round-robins do not matter. -/
theorem Sound.mark (h : s.Sound cfg log) {next : List Nat} (last : Nat)
    (hlen : next.length = cfg.nSimtClusters) :
    Sound cfg { s with
      ctaIssueNextCore := next
      lastClusterIssue := last } log where
  shape := ⟨h.shape.running, h.shape.last_lt, h.shape.clusters, h.shape.row, hlen⟩
  slots := ⟨h.slots.launched, h.slots.inj, h.slots.executed, h.slots.executed_last⟩
  progress := fun l hl => (h.progress l hl).frame
    ⟨⟨_, rfl⟩, rfl, Iff.rfl, rfl, id, fun hslot _ => hslot, id⟩
  cores := h.cores
  once := h.once
  issued_launched := h.issued_launched
  ledger := h.ledger
  counted := h.counted
  limited := h.limited
  done_launched := h.done_launched
  done_once := h.done_once
  reported := h.reported

/-- The state with one CTA more counted as launched. -/
def countIssue (s : GpgpuSim) : GpgpuSim := { s with totalCtaLaunched := s.totalCtaLaunched + 1 }

/-- The core before it takes a CTA, as the thread loop sees it. -/
def blockState (s : GpgpuSim) (core : SimtCore) (uid : Nat) : BlockState where
  thread := core.thread
  threadState := core.threadState
  kernel := (s.kernels uid).incRunning
  ctaLookup := s.ctaLookup

/-- The hardware threads of a CTA that is issued are free for it. -/
theorem Sound.vacant (h : s.Sound cfg log) (hp : s.Picked cfg log c i l core)
    (hleft : s.kernelMoreCtaLeft cfg (some l.kernel) = true) {r : Residency} {slot start : Nat}
    (hi : core.residency.Issued cfg.core l.kernel slot start r) :
    (s.blockState core l.kernel.uid).Vacant (cfg.site c i) slot start := by
  have hprogress := h.progress l hp.launched
  have hcore := h.cores c i core hp.found
  have hthreads : (s.blockState core l.kernel.uid).kernel.threadsPerCta =
      l.kernel.threadsPerCta := by
    rw [l.threads_eq, ← hprogress.blockDim]
    rfl
  constructor
  · exact hprogress.nextTid
  · exact hprogress.activeThreads
  · exact (kernelMoreCtaLeft_some.mp hleft).2
  · rw [hthreads]
    exact l.kernel.threadsPerCta_pos
  · rw [hthreads]
    exact hprogress.fits
  · intro t ht
    rw [hthreads] at ht
    exact hcore.done _ (hcore.issue_idle hi hp.bound ht)
  · exact hcore.exited slot ((hcore.spread.status slot).mp hi.status)

/-- The core that the loops of `issue_block2core` leave. -/
theorem Progress.issued_eq (h : s.Progress cfg log l) (core : SimtCore) (r : Residency)
    (slot start : Nat) :
    (s.blockState core l.kernel.uid).initialized (cfg.site c i) slot start
        l.kernel.threadsPerCta = {
      nthreadsInBlock := l.kernel.threadsPerCta
      thread := (core.issued r slot start l.kernel.threadsPerCta
        (l.thread (cfg.site c i) (issuedOf l.kernel.uid log).length slot start)).thread
      threadState := (core.issued r slot start l.kernel.threadsPerCta
        (l.thread (cfg.site c i) (issuedOf l.kernel.uid log).length slot start)).threadState
      kernel := (s.kernels l.kernel.uid).incRunning.incrementCtaId
      ctaLookup := Function.update s.ctaLookup ((cfg.site c i).smIdx slot)
        (some ⟨l.kernel.threadsPerCta, 0⟩) } := by
  have hne : l.kernel.threadsPerCta ≠ 0 := Nat.ne_of_gt l.kernel.threadsPerCta_pos
  have hthreads : (s.kernels l.kernel.uid).incRunning.threadsPerCta =
      l.kernel.threadsPerCta := by
    rw [l.threads_eq, ← h.blockDim]
    rfl
  have hbound : (s.kernels l.kernel.uid).incRunning.boundThread =
      ({ l.initial with nextCta := l.gridDim.nth (issuedOf l.kernel.uid log).length } :
        KernelState).boundThread := KernelState.boundThread_congr h.nextCta h.blockDim
  have hkernel : (s.kernels l.kernel.uid).incRunning.issuing (cfg.site c i) slot start
      l.kernel.threadsPerCta = (s.kernels l.kernel.uid).incRunning.incrementCtaId := by
    rw [KernelState.issuing, if_neg hne, hthreads, Nat.sub_self, List.range'_zero, List.map_nil,
      ← h.activeThreads]
    rfl
  simp only [BlockState.initialized, blockState, hbound, hkernel, hthreads, hne, ↓reduceIte,
    Nat.zero_add]
  rfl

/-- A core issues a CTA of a kernel that has some left. -/
theorem issueBlock2core_meets (h : s.Sound cfg log) (hp : s.Picked cfg log c i l core)
    (hleft : s.kernelMoreCtaLeft cfg (some l.kernel) = true)
    (hcan : core.residency.canIssue1block cfg.core l.kernel = .ok true) :
    MeetsUnless (GpuHalt.Excused cfg (launches log)) (s.issueBlock2core cfg c i l.kernel) fun r =>
      s.Grows cfg r.1 ∧ r.2.launch? = none ∧ r.1.countIssue.Sound cfg (log ++ [r.2]) := by
  have hprogress := h.progress l hp.launched
  have hcore := h.cores c i core hp.found
  unfold issueBlock2core
  refine .fetch hp.found (.liftCore (hcore.spread.issue_meets hcan hprogress.fits)
    (fun e he => .inr ⟨he.1, .inl he.2⟩) ?_)
  rintro ⟨slot, start⟩ ⟨r, hblock, hi⟩
  refine .liftCore (E := fun _ => False) (P := (r = ·)) (.of_meets ⟨r, hblock, rfl⟩)
    (fun e he => he.elim) ?_
  rintro _ rfl
  have hvacant := h.vacant hp hleft hi
  have hthreads : (s.blockState core l.kernel.uid).kernel.threadsPerCta =
      l.kernel.threadsPerCta := by
    rw [l.threads_eq, ← hprogress.blockDim]
    rfl
  -- with one kernel the place of the CTA is on the core
  refine .liftInit hvacant.initBlock (fun e he => ?_) fun b hb => ?_
  · refine ⟨Bool.not_eq_false _ ▸ fun hsingle => ?_, he.1⟩
    have hend := (hi.place hsingle).2
    have hbeyond : cfg.core.nThreadPerShader < _ := he.2
    rw [hthreads] at hbeyond
    omega
  obtain ⟨hend, rfl⟩ := hb
  have hsize : (s.kernels l.kernel.uid).threadsPerCta = l.kernel.threadsPerCta := hthreads
  rw [hthreads] at hend ⊢
  rw [hprogress.issued_eq core r, hsize]
  have hwarps : initWarps cfg.core.warpSize start (start + l.kernel.threadsPerCta)
      core.activeThreads = .ok (l.kernel.threadsPerCta,
        overlay core.activeThreads start l.kernel.threadsPerCta fun _ => true) :=
    initWarps_eq hi.aligned fun t ht =>
      (hcore.bits _).trans (hcore.issue_idle hi hp.bound ht)
  have hsound := hcore.issue (h.shape.sid_lt hp.found) hi hp.launched
    (hprogress.lt_volume (kernelMoreCtaLeft_some.mp hleft).2) hp.bound hend
  have hadd : (core.issued r slot start l.kernel.threadsPerCta (l.thread (cfg.site c i)
      (issuedOf l.kernel.uid log).length slot start)).residentCtas =
      (l.kernel.uid, l.gridDim.nth (issuedOf l.kernel.uid log).length) ::ₘ core.residentCtas :=
    hcore.residentCtas_issue hi hp.bound
  rw [← hprogress.nextCta] at hadd
  refine .liftInit (E := fun _ => False) (.of_meets ⟨_, hwarps, rfl⟩) (fun e he => he.elim) ?_
  rintro _ rfl
  have hstatus : Function.update r.ctaStatus slot l.kernel.threadsPerCta = r.ctaStatus := by
    rw [hi.ctaStatus, Function.update_idem]
  simp only [hstatus]
  refine .pure ⟨?_, rfl, h.issue hp hleft hsound
    (fun idx hidx => Function.update_of_ne (hidx slot) ..) hadd⟩
  exact Grows.trans (.setCore hp.found (hcore.grows_issue hi hp.bound)) (.of_eq rfl)

/-- One round over the cores of a cluster issues at most one CTA. -/
theorem tryCores_meets (h : s.Sound cfg log) (hc : c < cfg.nSimtClusters) (next : Nat)
    (is : List Nat) : MeetsUnless (GpuHalt.Excused cfg (launches log)) (tryCores cfg c next is s)
      fun r => s.Grows cfg r.1 ∧ match r.2 with
        | none => r.1.Sound cfg log
        | some e => e.launch? = none ∧ r.1.countIssue.Sound cfg (log ++ [e]) := by
  induction is generalizing s with
  | nil => exact .pure ⟨.of_eq rfl, h⟩
  | cons i is ih =>
    obtain ⟨core, hcore⟩ := h.shape.exists_core hc
      (Nat.mod_lt (i + next + 1) cfg.nSimtCoresPerCluster_pos)
    rw [tryCores]
    refine .bind (.of_meets (pickKernel_meets h hcore)) fun r hr => ?_
    obtain ⟨s', o⟩ := r
    obtain ⟨hgrows, hsound, hpicked⟩ := hr
    have hnext := (ih hsound).mono fun r hr => And.intro (hgrows.trans hr.1) hr.2
    cases o with
    | none => exact hnext
    | some k =>
      obtain ⟨l, core', rfl, hp⟩ := hpicked k rfl
      refine .ite (fun hleft => .fetch hp.found ?_) fun _ => hnext
      refine .liftCore Residency.canIssue_meets (fun e he => ?_) fun ok hok => ?_
      · exact he.imp (fun hmax => ⟨l, hp.launched, hmax⟩) fun hindex => ⟨hindex.1, .inl hindex.2⟩
      refine .ite (fun htrue => ?_) fun _ => hnext
      refine .bind (issueBlock2core_meets hsound hp hleft (htrue ▸ hok)) fun r hr => ?_
      obtain ⟨hgrows', hlaunch, hissued⟩ := hr
      refine .pure ⟨(hgrows.trans hgrows').trans (.of_eq rfl), hlaunch,
        hissued.mark r.1.lastClusterIssue ?_⟩
      rw [List.length_set]
      exact hissued.shape.next

/-- A cycle of the clusters keeps the invariant. -/
theorem issueBlocks_meets (h : s.Sound cfg log) :
    MeetsUnless (GpuHalt.Excused cfg (launches log)) (s.issueBlocks cfg) fun r =>
      s.Grows cfg r.1 ∧ r.1.Sound cfg (log ++ r.2) := by
  have hstart : s.Grows cfg s ∧ launches (log ++ []) = launches log ∧ s.Sound cfg (log ++ []) := by
    rw [List.append_nil]
    exact ⟨.of_eq rfl, rfl, h⟩
  refine MeetsUnless.mono (.foldlM (fun r : GpgpuSim × List DispatchEvent => s.Grows cfg r.1 ∧
    launches (log ++ r.2) = launches log ∧ r.1.Sound cfg (log ++ r.2)) (fun r n hn hr => ?_) hstart)
    fun r hr => ⟨hr.1, hr.2.2⟩
  obtain ⟨hgrows, hr⟩ := hr
  have hpos : 0 < cfg.nSimtClusters := Nat.zero_lt_of_lt (List.mem_range.mp hn)
  have hidx : (n + s.lastClusterIssue + 1) % cfg.nSimtClusters < cfg.nSimtClusters :=
    Nat.mod_lt _ hpos
  refine .fetch (List.getElem?_eq_getElem (hr.2.shape.next ▸ hidx)) ?_
  have hround := fun next => tryCores_meets hr.2 hidx next (List.range cfg.nSimtCoresPerCluster)
  simp only [hr.1] at hround
  refine .bind (hround _) fun r' hr' => ?_
  obtain ⟨s', o⟩ := r'
  obtain ⟨hgrows', hr'⟩ := hr'
  cases o with
  | none => exact .pure ⟨hgrows.trans hgrows', hr.1, hr'⟩
  | some e =>
    obtain ⟨hlaunch, hsound⟩ : e.launch? = none ∧ s'.countIssue.Sound cfg (log ++ r.2 ++ [e]) := hr'
    have hsame : launches (log ++ r.2 ++ [e]) = launches log := by
      have hnone : launches [e] = [] := by
        rw [launches, List.filterMap_cons, hlaunch]
        rfl
      rw [launches_append, hr.1, hnone, List.append_nil]
    rw [List.append_assoc] at hsound hsame
    exact .pure ⟨(hgrows.trans hgrows').trans (.of_eq rfl), hsame,
      Sound.mark hsound _ hsound.shape.next⟩

end GpgpuSim

end WaspSim
