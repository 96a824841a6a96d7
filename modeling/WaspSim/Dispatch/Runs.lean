import WaspSim.Dispatch.Launch
import WaspSim.Occupancy.Admission

/-!
# Runs of the dispatcher

Kernels are launched, clusters issue CTAs, threads exit and ended kernels are handed out, in any
order. Every CTA of a kernel is issued once, in the order of the grid, and a kernel ends once,
with its last CTA.
-/

namespace WaspSim

namespace GpgpuSim

variable {cfg : GpuConfig} {s s' : GpgpuSim} {log : List DispatchEvent} {l l' : KernelLaunch}
  {k : Kernel} {r : GpgpuSim × List DispatchEvent}

/-- A step that only counts latencies and statistics keeps the invariant. -/
theorem Sound.count (h : s.Sound cfg log) {kernels : Nat → KernelState} {executed : List Nat}
    {total issued : Nat}
    (hkernels : ∀ uid, ∃ t, kernels uid = { s.kernels uid with tbLatency := t } ∧
      t ≤ (s.kernels uid).tbLatency)
    (hexecuted : ∀ uid ∈ executed, uid ∈ s.executedKernelUids)
    (htotal : issued + total = s.gpuTotIssuedCta + s.totalCtaLaunched) :
    Sound cfg { s with
      kernels := kernels
      executedKernelUids := executed
      totalCtaLaunched := total
      gpuTotIssuedCta := issued } log where
  shape := ⟨h.shape.running, h.shape.last_lt, h.shape.clusters, h.shape.row, h.shape.next⟩
  slots := by
    refine ⟨h.slots.launched, h.slots.inj, fun uid huid => ?_, fun n k hk huid hmore => ?_⟩
    · obtain ⟨hl, hzero⟩ := h.slots.executed uid (hexecuted uid huid)
      obtain ⟨t, ht, hle⟩ := hkernels uid
      refine ⟨hl, ?_⟩
      change (kernels uid).tbLatency = 0
      rw [ht]
      exact Nat.le_zero.mp (hzero ▸ hle)
    · obtain ⟨t, ht, _⟩ := hkernels k.uid
      refine h.slots.executed_last n k hk (hexecuted _ huid) ?_
      change (kernels k.uid).noMoreCtasToRun = false at hmore
      rw [ht] at hmore
      exact hmore
  progress := fun l hl => by
    obtain ⟨t, ht, _⟩ := hkernels l.kernel.uid
    exact (h.progress l hl).frame ⟨⟨t, ht⟩, rfl, Iff.rfl, rfl, id, fun hslot _ => hslot,
      hitMaxCtaCount_mono (Nat.le_of_eq htotal.symm)⟩
  cores := h.cores
  once := h.once
  issued_launched := h.issued_launched
  ledger := h.ledger
  counted := h.counted.trans htotal.symm
  limited := fun hlimit => (Nat.le_of_eq htotal).trans (h.limited hlimit)
  done_launched := h.done_launched
  done_once := h.done_once
  reported := h.reported

/-- The latencies of the kernels with a slot count down. -/
theorem decrementKernelLatency_le (slots : List (Option Kernel)) (kernels : Nat → KernelState)
    (uid : Nat) : ∃ t, slots.foldl (fun kernels slot =>
      match slot with
      | none => kernels
      | some k => Function.update kernels k.uid
          { kernels k.uid with tbLatency := (kernels k.uid).tbLatency - 1 }) kernels uid =
        { kernels uid with tbLatency := t } ∧ t ≤ (kernels uid).tbLatency := by
  induction slots generalizing kernels with
  | nil => exact ⟨_, rfl, Nat.le_refl _⟩
  | cons slot slots ih =>
    cases slot with
    | none => exact ih kernels
    | some k =>
      obtain ⟨t, ht, hle⟩ := ih (Function.update kernels k.uid
        { kernels k.uid with tbLatency := (kernels k.uid).tbLatency - 1 })
      refine ⟨t, ?_, ?_⟩
      · rw [List.foldl_cons, ht]
        by_cases heq : uid = k.uid
        · rw [heq, Function.update_self]
        · rw [Function.update_of_ne heq]
      · by_cases heq : uid = k.uid
        · rw [heq, Function.update_self] at hle
          exact hle.trans (heq ▸ Nat.sub_le _ _)
        · rw [Function.update_of_ne heq] at hle
          exact hle

/-- An ended kernel is handed out. -/
theorem Sound.takeFinishedKernel (h : s.Sound cfg log) :
    s.takeFinishedKernel.1.Sound cfg (log ++ s.takeFinishedKernel.2) := by
  unfold GpgpuSim.takeFinishedKernel
  cases hfinished : s.finishedKernel with
  | nil => rwa [List.append_nil]
  | cons uid rest =>
    have hlaunches : launches (log ++ [.reported uid]) = launches log := by
      rw [launches_append]
      exact List.append_nil _
    have hissued : issuedCtas (log ++ [.reported uid]) = issuedCtas log := by
      rw [issuedCtas_append]
      exact List.append_nil _
    have hcompleted : completedCtas (log ++ [.reported uid]) = completedCtas log := by
      rw [completedCtas_append]
      exact List.append_nil _
    have hdone : doneUids (log ++ [.reported uid]) = doneUids log := by
      rw [doneUids_append]
      exact List.append_nil _
    exact {
      shape := ⟨h.shape.running, h.shape.last_lt, h.shape.clusters, h.shape.row, h.shape.next⟩
      slots := by
        rw [hlaunches]
        exact ⟨h.slots.launched, h.slots.inj, h.slots.executed, h.slots.executed_last⟩
      progress := fun l hl => (h.progress l (hlaunches ▸ hl)).frame
        ⟨⟨_, rfl⟩, by rw [issuedOf, hissued, issuedOf], by rw [hdone], rfl, id,
          fun hslot _ => hslot, id⟩
      cores := by rw [hlaunches]; exact h.cores
      once := by rw [hlaunches]; exact h.once
      issued_launched := by rw [hissued, hlaunches]; exact h.issued_launched
      ledger := by rw [hissued, hcompleted]; exact h.ledger
      counted := by rw [hissued]; exact h.counted
      limited := h.limited
      done_launched := by rw [hdone, hlaunches]; exact h.done_launched
      done_once := by rw [hdone]; exact h.done_once
      reported := by
        rw [hdone, h.reported, hfinished, reportedUids_append, List.append_assoc]
        rfl }

/-- The cores that start anew. -/
theorem init_core {c i : Nat} {core' : SimtCore} (h : s.init.core? c i = some core') :
    ∃ core, s.core? c i = some core ∧ core' = core.reinit := by
  obtain ⟨row, hrow, hi⟩ := core?_eq_some.mp h
  rw [GpgpuSim.init, List.getElem?_map, Option.map_eq_some_iff] at hrow
  obtain ⟨row₀, hrow₀, rfl⟩ := hrow
  rw [List.getElem?_map, Option.map_eq_some_iff] at hi
  obtain ⟨core, hcore, rfl⟩ := hi
  exact ⟨core, core?_eq_some.mpr ⟨row₀, hrow₀, hcore⟩, rfl⟩

/-- The start of an idle GPU keeps the invariant. -/
theorem Sound.init (h : s.Sound cfg log) (hp : Permitted cfg (s, log) .init) :
    s.init.Sound cfg log := by
  obtain ⟨hfolded, hidle⟩ := hp
  have hresident : s.init.residentCtas = s.residentCtas := by
    unfold residentCtas GpgpuSim.init
    simp only [holding_map]
    rfl
  have htotal : s.init.gpuTotIssuedCta + s.init.totalCtaLaunched =
      s.gpuTotIssuedCta + s.totalCtaLaunched := by
    change s.gpuTotIssuedCta + 0 = s.gpuTotIssuedCta + s.totalCtaLaunched
    rw [hfolded]
  exact {
    shape := by
      refine ⟨h.shape.running, h.shape.last_lt, ?_, fun row hrow => ?_, h.shape.next⟩
      · exact (List.length_map _).trans h.shape.clusters
      · obtain ⟨row₀, hrow₀, rfl⟩ := List.mem_map.mp hrow
        rw [List.length_map]
        exact h.shape.row row₀ hrow₀
    slots := ⟨h.slots.launched, h.slots.inj, h.slots.executed, h.slots.executed_last⟩
    progress := fun l hl => (h.progress l hl).frame
      ⟨⟨_, rfl⟩, rfl, Iff.rfl, congrArg _ hresident, id, fun hslot _ => hslot,
        hitMaxCtaCount_mono (Nat.le_of_eq htotal.symm)⟩
    cores := fun c i core' hcore' => by
      obtain ⟨core, hcore, rfl⟩ := init_core hcore'
      obtain ⟨row, hrow, hi⟩ := core?_eq_some.mp hcore
      exact (h.cores c i core hcore).reinit
        (hidle row (List.mem_of_getElem? hrow) core (List.mem_of_getElem? hi))
    once := h.once
    issued_launched := h.issued_launched
    ledger := h.ledger.trans (congrArg _ hresident.symm)
    counted := h.counted.trans htotal.symm
    limited := fun hlimit => (Nat.le_of_eq htotal).trans (h.limited hlimit)
    done_launched := h.done_launched
    done_once := h.done_once
    reported := h.reported }

/-- Every action that is permitted keeps the invariant, unless it ends with an error that the
dispatcher does not answer for. -/
theorem step_meets (h : s.Sound cfg log) {a : DispatchAction} (hp : Permitted cfg (s, log) a) :
    MeetsUnless (GpuHalt.Excused cfg (launches log)) (step cfg s a) fun r =>
      r.1.Sound cfg (log ++ r.2) := by
  cases a with
  | launch l => exact .bind (.of_meets (launch_meets h hp)) fun s' hs' => .pure hs'
  | issueBlocks => exact (issueBlocks_meets h).mono fun r hr => hr.2
  | decrementKernelLatency =>
    refine .pure ?_
    rw [List.append_nil]
    exact h.count (decrementKernelLatency_le s.runningKernels s.kernels) (fun _ huid => huid) rfl
  | setDone c i tid =>
    obtain ⟨thd, hthd, hrun⟩ := (Option.any_eq_true _ _).mp hp
    obtain ⟨core, hcore, htid⟩ := Option.bind_eq_some_iff.mp hthd
    refine .bind (.of_meets (setDone_meets h hcore htid (by simpa using hrun))) fun s' hs' => ?_
    refine .pure ?_
    rw [List.append_nil]
    exact hs'
  | exitThread c i tid =>
    obtain ⟨htid, hany⟩ := hp
    obtain ⟨core, hcore, hdone⟩ := (Option.any_eq_true _ _).mp hany
    exact exitThread_meets h hcore htid hdone
  | takeFinishedKernel => exact .pure h.takeFinishedKernel
  | updateStats =>
    refine .pure ?_
    rw [List.append_nil]
    exact h.count (fun uid => ⟨_, rfl, Nat.le_refl _⟩) (fun _ huid => huid) (Nat.add_zero _)
  | init =>
    refine .pure ?_
    rw [List.append_nil]
    exact h.init hp
  | clearExecutedKernelInfo =>
    refine .pure ?_
    rw [List.append_nil]
    exact h.count (fun uid => ⟨_, rfl, Nat.le_refl _⟩) (fun _ huid => by cases huid) rfl

theorem initial_core {c i v : Nat} {core : SimtCore} (h : (initial cfg v).core? c i = some core) :
    core = { residency := .empty v } := by
  obtain ⟨row, hrow, hi⟩ := core?_eq_some.mp h
  obtain rfl := List.eq_of_mem_replicate (List.mem_of_getElem? hrow)
  exact List.eq_of_mem_replicate (List.mem_of_getElem? hi)

/-- No kernel has a slot at first. -/
theorem initial_slot {v n : Nat} (h : (initial cfg v).runningKernels[n]? = some (some k)) :
    False := by
  cases List.eq_of_mem_replicate (List.mem_of_getElem? h)

theorem initial_sound (cfg : GpuConfig) (v : Nat) : (initial cfg v).Sound cfg [] := by
  have hresident : (initial cfg v).residentCtas = 0 := by
    refine Multiset.eq_zero_of_forall_notMem fun a ha => ?_
    obtain ⟨c, i, core, hcore, hmem⟩ := mem_residentCtas.mp ha
    obtain ⟨slot, cta, hcta, _⟩ := SimtCore.exists_of_mem_residentCtas hmem
    rw [initial_core hcore] at hcta
    cases hcta
  constructor
  · refine ⟨List.length_replicate, cfg.maxConcurrentKernel_pos, List.length_replicate,
      fun row hrow => ?_, List.length_replicate⟩
    rw [List.eq_of_mem_replicate hrow, List.length_replicate]
  · exact ⟨fun _ _ hk => (initial_slot hk).elim, fun _ _ _ _ hk => (initial_slot hk).elim,
      fun _ huid => absurd huid List.not_mem_nil, fun _ _ hk => (initial_slot hk).elim⟩
  · exact fun l hl => by cases hl
  · intro c i core hcore
    obtain rfl := initial_core hcore
    have hnone : ∀ {slot cta}, (Residency.empty v).resident slot = some cta → False := by
      intro slot cta hcta
      cases hcta
    have hfree : ∀ {k}, (Residency.empty v).kernel = some k → False := by
      intro k hk
      cases hk
    exact {
      spread := .empty cfg.core v
      notCompleted := (Finset.sum_eq_zero fun _ _ => rfl).symm
      bound := fun _ hk => (hfree hk).elim
      running := fun _ _ hcta => (hnone hcta).elim
      owner := fun _ hactive => by cases hactive
      done := fun _ _ => rfl
      bits := fun _ => rfl
      exited := fun _ _ _ hinfo => by cases hinfo }
  · exact List.nodup_nil
  · exact fun a ha => by cases ha
  · rw [hresident]
    rfl
  · rfl
  · exact fun _ => Nat.zero_le _
  · exact fun _ huid => by cases huid
  · exact List.nodup_nil
  · rfl

/-- The runs of the dispatcher. -/
abbrev Runs (cfg : GpuConfig) (v : Nat) : GpgpuSim × List DispatchEvent → Prop :=
  Reaches (logged (step cfg)) (Permitted cfg) (initial cfg v, [])

/-- The invariant holds in every run. -/
theorem sound_of_runs {v : Nat} (h : Runs cfg v r) : r.1.Sound cfg r.2 := by
  refine h.invariant (fun r => r.1.Sound cfg r.2) (initial_sound cfg v) fun r a r' hr hp hstep => ?_
  obtain ⟨es, hok, heq⟩ := logged_eq_ok.mp hstep
  rw [heq]
  exact (step_meets hr hp).of_ok hok

/-- Two clusters of one core each, with room for one kernel. -/
def twoCores : GpuConfig where
  core := { Residency.sampleCore false 32 with numShader := 2 }
  maxConcurrentKernel := 1
  nSimtClusters := 2
  nSimtCoresPerCluster := 1
  maxConcurrentKernel_pos := Nat.one_pos
  nSimtCoresPerCluster_pos := Nat.one_pos
  numShader_eq := rfl

/-- A kernel of three CTAs with two threads each. -/
def threeCtas : KernelLaunch where
  kernel := { OccupancyConfig.sampleKernel with
    threadsPerCta := 2
    threadsPerCta_pos := Nat.two_pos
    threadsPerCta_lt := by decide
    uid := 1
    numBlocks := 3 }
  gridDim := ⟨3, 1, 1⟩
  blockDim := ⟨2, 1, 1⟩
  threads_eq := rfl
  blocks_eq := rfl

/-- A hardware thread ends and leaves its core. -/
def leave (c tid : Nat) : List DispatchAction := [.setDone c 0 tid, .exitThread c 0 tid]

/-- The actions from the launch of the kernel to the end of its first CTA. -/
def firstCta : List DispatchAction :=
  [.launch threeCtas, .issueBlocks, .decrementKernelLatency] ++ leave 0 0 ++ leave 0 1

/-- A run that may be tested. -/
theorem exists_run (cfg : GpuConfig) (as : List DispatchAction)
    {P : GpgpuSim × List DispatchEvent → Prop} [DecidablePred P]
    (h : ((as.foldlM (guarded (logged (step cfg)) (Permitted cfg) .noSuchThread)
      (initial cfg 0, [])).toOption.any fun r => decide (P r)) = true) :
    ∃ r, Runs cfg 0 r ∧ P r := Reaches.exists_of_foldlM as h

/-- The assertions of the dispatcher never fail: in every run each action that the surroundings
may take succeeds, or ends with an error that the dispatcher does not answer for. -/
theorem dispatcher_goes_on {v : Nat} (h : Runs cfg v r) {a : DispatchAction}
    (hp : Permitted cfg r a) :
    (∃ e, step cfg r.1 a = .error e ∧ e.Excused cfg (launches r.2)) ∨
      ∃ s' es, step cfg r.1 a = .ok (s', es) := by
  rcases step_meets (sound_of_runs h) hp with hexcused | ⟨⟨s', es⟩, hok, _⟩
  · exact .inl hexcused
  · exact .inr ⟨s', es, hok⟩

theorem dispatcher_goes_on_twoCores : ∃ r, Runs twoCores 0 r ∧
    Permitted twoCores r (.setDone 1 0 0) ∧
    ((∃ e, step twoCores r.1 (.setDone 1 0 0) = .error e ∧ e.Excused twoCores (launches r.2)) ∨
      ∃ s' es, step twoCores r.1 (.setDone 1 0 0) = .ok (s', es)) := by
  obtain ⟨r, hr, hp⟩ := exists_run twoCores firstCta
    (P := fun r => Permitted twoCores r (.setDone 1 0 0)) (by decide +kernel)
  exact ⟨r, hr, hp, dispatcher_goes_on hr hp⟩

/-- No CTA is issued twice. -/
theorem Sound.issued_nodup (h : s.Sound cfg log) : (issuedCtas log).Nodup := by
  refine List.nodup_iff_count_le_one.mpr fun a => ?_
  by_cases ha : a ∈ issuedCtas log
  · obtain ⟨l, hl, huid⟩ := h.issued_launched a ha
    have hof : (issuedOf a.1 log).Nodup := by
      rw [← huid, (h.progress l hl).issued]
      exact List.nodup_range.map Dim3.nth_injective
    have hfilter : ((issuedCtas log).filter fun b => b.1 == a.1).Nodup := hof.of_map _
    rw [← List.count_filter (p := fun b : Nat × Dim3 => b.1 == a.1) (beq_self_eq_true a.1)]
    exact List.nodup_iff_count_le_one.mp hfilter a
  · rw [List.count_eq_zero_of_not_mem ha]
    exact Nat.zero_le 1

/-- In every run a kernel has issued the first CTAs of its grid, x before y before z and each one
once, and the CTAs issued are those completed and those on the cores. -/
theorem ctas_in_order {v : Nat} (h : Runs cfg v r) :
    (∀ l ∈ launches r.2, ∃ n ≤ l.gridDim.volume,
      issuedOf l.kernel.uid r.2 = (List.range n).map l.gridDim.nth) ∧
    (issuedCtas r.2).Nodup ∧
    (issuedCtas r.2 : Multiset (Nat × Dim3)) = completedCtas r.2 + r.1.residentCtas := by
  have hs := sound_of_runs h
  exact ⟨fun l hl => ⟨_, (hs.progress l hl).issued_le, (hs.progress l hl).issued⟩,
    hs.issued_nodup, hs.ledger⟩

theorem ctas_in_order_twoCores : ∃ r, Runs twoCores 0 r ∧
    issuedCtas r.2 = [(1, ⟨0, 0, 0⟩), (1, ⟨1, 0, 0⟩)] ∧ completedCtas r.2 = [(1, ⟨0, 0, 0⟩)] ∧
    (issuedCtas r.2).Nodup ∧
    (issuedCtas r.2 : Multiset (Nat × Dim3)) = completedCtas r.2 + r.1.residentCtas := by
  obtain ⟨r, hr, hissued, hcompleted⟩ := exists_run twoCores firstCta
    (P := fun r => issuedCtas r.2 = [(1, ⟨0, 0, 0⟩), (1, ⟨1, 0, 0⟩)] ∧
      completedCtas r.2 = [(1, ⟨0, 0, 0⟩)]) (by decide +kernel)
  exact ⟨r, hr, hissued, hcompleted, (ctas_in_order hr).2⟩

/-- A kernel has issued its whole grid exactly when it has no more CTAs to run. -/
theorem Progress.noMore_iff (h : s.Progress cfg log l) :
    s.noMoreCtasToRun l.kernel = true ↔
      (issuedOf l.kernel.uid log).length = l.gridDim.volume := by
  rw [noMoreCtasToRun, KernelState.noMoreCtasToRun, h.gridDim, h.nextCta, Dim3.past_nth h.issued_le]

/-- A kernel has CTAs running exactly when some are on the cores. -/
theorem Progress.running_eq_zero (h : s.Progress cfg log l) :
    (s.kernels l.kernel.uid).numCoresRunning = 0 ↔
      ∀ a ∈ s.residentCtas, a.1 ≠ l.kernel.uid := by
  rw [h.running, ctasOf, Multiset.countP_eq_zero]

/-- In every run a kernel ends once, when it has no CTA on a core and either its whole grid is
issued or the limit of CTAs is reached; once its whole grid is issued and done with, it has ended.
The ended kernels are handed out in order. -/
theorem kernels_end {v : Nat} (h : Runs cfg v r) :
    (doneUids r.2).Nodup ∧ doneUids r.2 = reportedUids r.2 ++ r.1.finishedKernel ∧
    ∀ l ∈ launches r.2,
      (l.kernel.uid ∈ doneUids r.2 → (∀ a ∈ r.1.residentCtas, a.1 ≠ l.kernel.uid) ∧
        ((issuedOf l.kernel.uid r.2).length = l.gridDim.volume ∨
          r.1.hitMaxCtaCount cfg = true)) ∧
      (0 < l.gridDim.volume → (issuedOf l.kernel.uid r.2).length = l.gridDim.volume →
        (∀ a ∈ r.1.residentCtas, a.1 ≠ l.kernel.uid) → l.kernel.uid ∈ doneUids r.2) := by
  have hs := sound_of_runs h
  refine ⟨hs.done_once, hs.reported, fun l hl => ⟨fun hdone => ?_, fun hpos hall hnone => ?_⟩⟩
  · have hprogress := hs.progress l hl
    obtain ⟨_, hzero, hleft⟩ := hprogress.ended hdone
    refine ⟨hprogress.running_eq_zero.mp hzero, ?_⟩
    rw [← hprogress.noMore_iff]
    cases hmore : r.1.noMoreCtasToRun l.kernel with
    | true => exact .inl rfl
    | false =>
      refine .inr (Bool.not_eq_false _ ▸ fun hhit => ?_)
      rw [kernelMoreCtaLeft_some.mpr ⟨hhit, hmore⟩] at hleft
      cases hleft
  · have hprogress := hs.progress l hl
    refine hprogress.ends (hprogress.noMore_iff.mpr hall) (fun hnil => ?_)
      (hprogress.running_eq_zero.mpr hnone)
    rw [hnil] at hall
    exact absurd hall (Nat.ne_of_lt hpos)

/-- The actions from the launch of the kernel to its report. -/
def wholeKernel : List DispatchAction :=
  firstCta ++ [.issueBlocks] ++ leave 1 0 ++ leave 0 0 ++ leave 1 1 ++ leave 0 1 ++
    [.takeFinishedKernel]

theorem kernels_end_twoCores : ∃ r, Runs twoCores 0 r ∧ reportedUids r.2 = [1] ∧
    (doneUids r.2).Nodup ∧ doneUids r.2 = reportedUids r.2 ++ r.1.finishedKernel := by
  obtain ⟨r, hr, hreported⟩ := exists_run twoCores wholeKernel
    (P := fun r => reportedUids r.2 = [1]) (by decide +kernel)
  have hend := kernels_end hr
  exact ⟨r, hr, hreported, hend.1, hend.2.1⟩

/-- In every run with a limit on the CTAs no more are issued than it allows, over all kernels and
whatever counts are folded into the total in between. -/
theorem cta_limit {v : Nat} (h : Runs cfg v r) (hlimit : cfg.gpuMaxCtaOpt ≠ 0) :
    (issuedCtas r.2).length ≤ cfg.gpuMaxCtaOpt := by
  have hs := sound_of_runs h
  rw [hs.counted]
  exact hs.limited hlimit

/-- Two clusters with a limit of two CTAs. -/
def twoCtas : GpuConfig := { twoCores with gpuMaxCtaOpt := 2 }

/-- Both CTAs that the limit allows are issued, and a core with room gets no third one. -/
theorem cta_limit_twoCtas : ∃ r, Runs twoCtas 0 r ∧
    issuedCtas r.2 = [(1, ⟨0, 0, 0⟩), (1, ⟨1, 0, 0⟩)] ∧
    r.1.noMoreCtasToRun threeCtas.kernel = false ∧
    ((r.1.core? 0 0).any fun core => decide (core.residency.nActiveCta = 0)) = true ∧
    (issuedCtas r.2).length ≤ 2 := by
  obtain ⟨r, hr, hissued, hmore, hroom⟩ := exists_run twoCtas
    (firstCta ++ [.updateStats, .issueBlocks]) (P := fun r =>
      issuedCtas r.2 = [(1, ⟨0, 0, 0⟩), (1, ⟨1, 0, 0⟩)] ∧
      r.1.noMoreCtasToRun threeCtas.kernel = false ∧
      ((r.1.core? 0 0).any fun core => decide (core.residency.nActiveCta = 0)) = true)
    (by decide +kernel)
  exact ⟨r, hr, hissued, hmore, hroom, cta_limit hr (by decide)⟩

end GpgpuSim

end WaspSim
