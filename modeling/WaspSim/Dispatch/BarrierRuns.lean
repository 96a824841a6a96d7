import WaspSim.Dispatch.Barriers
import WaspSim.Dispatch.Runs

/-!
# Runs of the GPU with the barriers of a core

Each step of the dispatcher ends a thread of the core, or lets its CTAs come or go, or concerns
other cores, and the warps that run reach barriers in between. No assertion of the barriers fails
but one that a `bar.arrive` brings about. The barriers are in a run of their own, so that what
holds in those holds here.
-/

namespace WaspSim

namespace GpgpuSim

variable {cfg : GpuConfig} {s s' : GpgpuSim} {core core' : SimtCore} {c i tid : Nat}
  {log es : List DispatchEvent}

theorem liftCore_eq_ok {α : Type} {x : Except Halt α} {a : α} :
    liftCore x = .ok a ↔ x = .ok a := by
  cases x with
  | error e => simp [liftCore]
  | ok b => simp [liftCore]

/-- A hardware thread that leaves a core changes that core only, and nothing when it is not
active. -/
theorem exitThread_cases (h : s.exitThread cfg c i tid = .ok (s', es))
    (hcore : s.core? c i = some core) : s' = s ∨
    core.activeAt tid = true ∧ ∃ slot cta r core', (core.threadState tid).ctaId = some slot ∧
      core.residency.resident slot = some cta ∧
      core.residency.registerCtaThreadExit cfg.core slot = .ok r ∧
      core'.thread = core.thread ∧ core'.residency.resident = r.resident ∧
      s'.cores = (s.setCore c i core').cores := by
  simp only [exitThread, bind_eq_ok, fetch_eq_ok, hcore, Option.some.injEq, require_eq_ok] at h
  obtain ⟨_, rfl, _, _, h⟩ := h
  split at h
  · rw [pure_eq_ok, Prod.mk.injEq] at h
    exact .inl h.1.symm
  rename_i hactive
  simp only [bind_eq_ok, fetch_eq_ok, liftCore_eq_ok] at h
  obtain ⟨slot, hslot, cta, hcta, r, hr, h⟩ := h
  refine .inr ⟨Bool.not_eq_false _ ▸ hactive, slot, cta, r, ?_⟩
  split at h
  · rw [pure_eq_ok, Prod.mk.injEq] at h
    exact ⟨core.exited r tid, hslot, hcta, hr, rfl, rfl, by rw [← h.1]; rfl⟩
  simp only [bind_eq_ok, require_eq_ok] at h
  obtain ⟨_, _, _, _, h⟩ := h
  split at h
  · rw [pure_eq_ok, Prod.mk.injEq] at h
    exact ⟨core.exited r tid, hslot, hcta, hr, rfl, rfl, by rw [← h.1]; rfl⟩
  · simp only [setKernelDone, bind_eq_ok, fetch_eq_ok, pure_eq_ok, Prod.mk.injEq] at h
    obtain ⟨_, ⟨n, _, rfl⟩, rfl, _⟩ := h
    refine ⟨{ core.exited r tid with
      residency := if r.kernel = some cta.kernel then { r with kernel := none } else r },
      hslot, hcta, hr, rfl, ?_, rfl⟩
    dsimp only
    split
    · rfl
    · rfl

/-- The CTAs of a core change as the exit of a hardware thread says. -/
theorem exitThread_changes (h : s.Sound cfg log) (hdone : (core.thread tid).all (·.done) = true)
    (hcore : s.core? c i = some core) (hstep : s.exitThread cfg c i tid = .ok (s', es))
    (hcore' : s'.core? c i = some core') : core.Changes cfg core' := by
  have hold := h.cores c i core hcore
  rcases exitThread_cases hstep hcore with rfl | ⟨hactive, slot, cta, r, core₁, hslot, hcta, hr,
    hthread, hresident, hcores⟩
  · obtain rfl : core' = core := Option.some.inj (hcore'.symm.trans hcore)
    exact .of_eq rfl rfl
  · obtain ⟨i', cta', hcta', hhas⟩ := hold.owner tid hactive
    have hi' : i' = slot := by
      obtain ⟨t, ht, rfl⟩ := SimtCore.exists_of_has hhas
      exact Option.some.inj (((hold.running i' cta' hcta').ctaId t ht).symm.trans hslot)
    subst hi'
    obtain rfl : cta' = cta := Option.some.inj (hcta'.symm.trans hcta)
    have hx : core.Exits cfg r i' tid cta' := ⟨hcta, hhas, hactive, hr⟩
    have hnew : s'.core? c i = (s.setCore c i core₁).core? c i := by rw [core?, hcores, core?]
    rw [hnew, core?_setCore hcore, if_pos ⟨rfl, rfl⟩, Option.some.injEq] at hcore'
    subst hcore'
    exact hx.changes hold hdone hthread hresident

/-- A hardware thread of another core leaves a core as it is. -/
theorem exitThread_core_ne {c' i' : Nat} (hcore : s.core? c i = some core)
    (hstep : s.exitThread cfg c' i' tid = .ok (s', es)) (hne : ¬(c = c' ∧ i = i')) :
    s'.core? c i = some core := by
  cases hother : s.core? c' i' with
  | none => simp [exitThread, hother, fetch] at hstep
  | some other =>
    rcases exitThread_cases hstep hother with rfl | ⟨_, _, _, _, _, _, _, _, _, _, hcores⟩
    · exact hcore
    · rw [core?, hcores]
      exact ((core?_setCore hother c i).trans (if_neg hne)).trans hcore

/-- A thread that ends changes its own core only. -/
theorem setDone_cases {c' i' : Nat} (hcore : s.core? c i = some core)
    (hstep : s.setDone c' i' tid = .ok s') :
    if c' = c ∧ i' = i then ∃ thd, core.thread tid = some thd ∧ thd.done = false ∧
      s'.core? c i = some (core.finished tid thd)
    else s'.core? c i = some core := by
  simp only [setDone, bind_eq_ok, fetch_eq_ok, require_eq_ok, pure_eq_ok] at hstep
  obtain ⟨core₁, hcore₁, thd, hthd, _, hrun, info, _, rfl⟩ := hstep
  change if c' = c ∧ i' = i then ∃ thd, core.thread tid = some thd ∧ thd.done = false ∧
    (s.setCore c' i' _).core? c i = some (core.finished tid thd)
    else (s.setCore c' i' _).core? c i = some core
  simp only [core?_setCore hcore₁]
  split
  · rename_i heq
    obtain ⟨rfl, rfl⟩ := heq
    obtain rfl : core₁ = core := Option.some.inj (hcore₁.symm.trans hcore)
    exact ⟨thd, hthd, hrun, if_pos ⟨rfl, rfl⟩⟩
  · rename_i hne
    rw [if_neg fun hand => hne ⟨hand.1.symm, hand.2.symm⟩]
    exact hcore

/-- The CTAs of a core change in a step that ends none of its threads. -/
theorem step_changes {a : DispatchAction} (h : s.Sound cfg log)
    (hp : Permitted cfg (s, log) a) (hstep : step cfg s a = .ok (s', es))
    (hmax : 0 < cfg.core.maxCtaPerCore) (hcore : s.core? c i = some core)
    (hcore' : s'.core? c i = some core') (hends : ∀ tid, a ≠ .setDone c i tid) :
    core.Changes cfg core' := by
  have hsame : s'.cores = s.cores → core.Changes cfg core' := by
    intro heq
    rw [core?, heq] at hcore'
    obtain rfl : core' = core := Option.some.inj (hcore'.symm.trans hcore)
    exact .of_eq rfl rfl
  have hsound' := (step_meets h hp).of_ok hstep
  cases a with
  | launch l =>
    simp only [step, launch, bind_eq_ok, require_eq_ok, fetch_eq_ok, pure_eq_ok,
      Prod.mk.injEq] at hstep
    obtain ⟨_, ⟨_, _, _, _, rfl⟩, rfl, _⟩ := hstep
    exact hsame rfl
  | issueBlocks =>
    obtain ⟨core₁, hcore₁, hgrows⟩ := ((issueBlocks_meets h).of_ok hstep).1 c i core' hcore'
    obtain rfl : core₁ = core := Option.some.inj (hcore₁.symm.trans hcore)
    exact hgrows.changes (h.cores c i core₁ hcore) (hsound'.cores c i core' hcore') hmax
  | setDone c' i' tid =>
    simp only [step, bind_eq_ok, pure_eq_ok, Prod.mk.injEq] at hstep
    obtain ⟨s₁, hdone, rfl, _⟩ := hstep
    have hcases := setDone_cases hcore hdone
    rw [if_neg fun hand => hends tid (by rw [hand.1, hand.2]), hcore', Option.some.injEq] at hcases
    rw [hcases]
    exact .of_eq rfl rfl
  | exitThread c' i' tid =>
    by_cases heq : c = c' ∧ i = i'
    · obtain ⟨rfl, rfl⟩ := heq
      obtain ⟨core₁, hcore₁, hdone⟩ := (Option.any_eq_true _ _).mp hp.2
      obtain rfl : core₁ = core := Option.some.inj (hcore₁.symm.trans hcore)
      exact exitThread_changes h hdone hcore hstep hcore'
    · rw [exitThread_core_ne hcore hstep heq, Option.some.injEq] at hcore'
      rw [← hcore']
      exact .of_eq rfl rfl
  | takeFinishedKernel =>
    simp only [step, pure_eq_ok] at hstep
    refine hsame ?_
    unfold takeFinishedKernel at hstep
    split at hstep
    · rw [← (Prod.mk.inj hstep).1]
    · rw [← (Prod.mk.inj hstep).1]
  | decrementKernelLatency | updateStats | clearExecutedKernelInfo =>
    simp only [step, pure_eq_ok, Prod.mk.injEq] at hstep
    exact hsame (congrArg GpgpuSim.cores hstep.1).symm
  | init =>
    simp only [step, pure_eq_ok, Prod.mk.injEq] at hstep
    rw [← hstep.1] at hcore'
    obtain ⟨core₁, hcore₁, rfl⟩ := init_core hcore'
    obtain rfl : core₁ = core := Option.some.inj (hcore₁.symm.trans hcore)
    exact .of_eq rfl rfl

end GpgpuSim

/-- One core of a GPU, with its `max_barriers_per_cta`. -/
structure CorePlace (cfg : GpuConfig) where
  cluster : Nat
  core : Nat
  maxBarriersPerCta : Nat
  cluster_lt : cluster < cfg.nSimtClusters
  core_lt : core < cfg.nSimtCoresPerCluster

/-- A GPU in a run with the barriers of one core. -/
structure GpuBarriers where
  run : GpgpuSim × List DispatchEvent
  /-- `m_barriers`. -/
  barriers : BarrierHistory := {}

/-- What happens to a GPU, seen from the barriers of one core. -/
inductive CoreAction where
  | dispatch (a : DispatchAction)
  /-- The warp of a hardware thread of the core issues a barrier instruction. -/
  | reach (tid : Nat) (inst : SchedInst)

/-- The assertions of the dispatcher and of the barriers. -/
inductive CoreHalt where
  | gpu (h : GpuHalt)
  | barrier (h : BarrierHalt)

namespace GpuBarriers

variable {cfg : GpuConfig} (place : CorePlace cfg) (s : GpuBarriers)

/-- The core of the barriers. -/
def core? (run : GpgpuSim × List DispatchEvent) : Option SimtCore :=
  run.1.core? place.cluster place.core

/-- A thread of the core that ends calls `exitCore`, and so `warp_exit` for its warp. -/
def exitCore (core' : SimtCore) (h : BarrierHistory) :
    DispatchAction → Except BarrierHalt BarrierHistory
  | .setDone c i tid =>
    if c = place.cluster ∧ i = place.core then
      h.warpExitOf (cfg.barriers place.maxBarriersPerCta) core'.thread (tid / cfg.core.warpSize)
    else pure h
  | _ => pure h

/-- What a step of the dispatcher does to the barriers of the core. -/
def follow (core core' : SimtCore) (h : BarrierHistory) (a : DispatchAction) :
    Except BarrierHalt BarrierHistory := do
  let h ← exitCore place core' h a
  h.moveCtas (cfg.barriers place.maxBarriersPerCta) core.residency.resident
    core'.residency.resident

/-- One action. -/
def step : CoreAction → Except CoreHalt GpuBarriers
  | .dispatch a => do
    let run ← (logged (GpgpuSim.step cfg) s.run a).mapError .gpu
    let core ← fetch (.gpu .indexOutOfRange) (core? place s.run)
    let core' ← fetch (.gpu .indexOutOfRange) (core? place run)
    let barriers ← (follow place core core' s.barriers a).mapError .barrier
    pure ⟨run, barriers⟩
  | .reach tid inst => do
    let core ← fetch (.gpu .indexOutOfRange) (core? place s.run)
    let slot ← fetch (.gpu .noSuchThread) (core.threadState tid).ctaId
    let barriers ← (s.barriers.step (cfg.barriers place.maxBarriersPerCta)
      (.reach slot (tid / cfg.core.warpSize) inst)).mapError .barrier
    pure { s with barriers }

/-- The warp of a thread of the core that ends does not wait. -/
def Free : DispatchAction → Prop
  | .setDone c i tid => c = place.cluster → i = place.core →
    tid / cfg.core.warpSize ∉ s.barriers.warpAtBarrier
  | _ => True

/-- A warp that waits at a barrier issues no instruction, and one that issues a barrier has a
thread that runs. The barrier is one of the hardware. -/
def Permitted : CoreAction → Prop
  | .dispatch a => GpgpuSim.Permitted cfg s.run a ∧ s.Free place a
  | .reach tid inst => (core? place s.run).any (·.runsAt tid) = true ∧
      tid / cfg.core.warpSize ∉ s.barriers.warpAtBarrier ∧ inst.barType ≠ .notBar ∧
      inst.barId < place.maxBarriersPerCta

instance (a : DispatchAction) : Decidable (s.Free place a) :=
  match a with
  | .setDone .. => inferInstanceAs (Decidable (_ → _ → _))
  | .launch _ | .issueBlocks | .decrementKernelLatency | .exitThread .. | .takeFinishedKernel
  | .updateStats | .init | .clearExecutedKernelInfo => isTrue trivial

instance (a : CoreAction) : Decidable (s.Permitted place a) :=
  match a with
  | .dispatch _ => inferInstanceAs (Decidable (_ ∧ _))
  | .reach .. => inferInstanceAs (Decidable (_ ∧ _))

/-- The errors that an action may end with: those that the dispatcher does not answer for, and
the assertion of `deallocate_barrier` that no barrier counts a warp, for a CTA that leaves with a
warp which has issued a `bar.arrive`. -/
def Excused (a : CoreAction) : CoreHalt → Prop
  | .gpu e => e.Excused cfg (launches s.run.2)
  | .barrier e => ∃ d run core core', a = .dispatch d ∧
      logged (GpgpuSim.step cfg) s.run d = .ok run ∧ core? place s.run = some core ∧
      core? place run = some core' ∧
      s.barriers.ArriveMoved (cfg.barriers place.maxBarriersPerCta) core.residency.resident
        core'.residency.resident e

/-- The invariant of a GPU with the barriers of a core. -/
structure Sound (core : SimtCore) : Prop where
  gpu : s.run.1.Sound cfg s.run.2
  at_place : core? place s.run = some core
  agrees : core.Agrees cfg place.maxBarriersPerCta s.barriers

variable {place : CorePlace cfg} {s : GpuBarriers} {core core' : SimtCore} {a : CoreAction}
  {d : DispatchAction} {h : BarrierHistory}

theorem exitCore_of_ne (hends : ∀ tid, d ≠ .setDone place.cluster place.core tid) :
    exitCore place core' h d = pure h := by
  cases d with
  | setDone c i tid => exact if_neg fun hand => hends tid (by rw [hand.1, hand.2])
  | _ => rfl

/-- The barriers of the core follow a step of the dispatcher. -/
theorem Sound.follow_meets (hs : s.Sound place core) (hmax : 0 < cfg.core.maxCtaPerCore)
    (hp : s.Permitted place (.dispatch d)) {r : GpgpuSim × List DispatchEvent}
    (hstep : GpgpuSim.step cfg s.run.1 d = .ok r)
    (hsound : r.1.Sound cfg (s.run.2 ++ r.2))
    (hcore' : r.1.core? place.cluster place.core = some core') :
    MeetsUnless (s.barriers.ArriveMoved (cfg.barriers place.maxBarriersPerCta)
        core.residency.resident core'.residency.resident)
      (follow place core core' s.barriers d) (core'.Agrees cfg place.maxBarriersPerCta) := by
  have hold := hs.gpu.cores _ _ core hs.at_place
  have hnew := hsound.cores _ _ core' hcore'
  by_cases hends : ∃ tid, d = .setDone place.cluster place.core tid
  · obtain ⟨tid, rfl⟩ := hends
    simp only [GpgpuSim.step, bind_eq_ok, pure_eq_ok] at hstep
    obtain ⟨s', hdone, rfl⟩ := hstep
    have hcases := GpgpuSim.setDone_cases hs.at_place hdone
    rw [if_pos ⟨rfl, rfl⟩] at hcases
    obtain ⟨thd, hthd, hrun, hfinished⟩ := hcases
    obtain rfl : core' = core.finished tid thd := Option.some.inj (hcore'.symm.trans hfinished)
    have hruns : core.runsAt tid = true := by
      rw [SimtCore.runsAt, hthd, Option.any_some, hrun]
      rfl
    have hexit := hs.agrees.finish thd hruns (hp.2 rfl rfl)
    rw [follow, exitCore, if_pos ⟨rfl, rfl⟩]
    refine .bind (.of_meets hexit) fun h hh => (hh.move hnew hnew (.of_eq rfl rfl)).weaken ?_
    -- no CTA leaves when a thread ends
    rintro e ⟨_, slot, cta, hcta, hnone, _⟩
    cases hcta.symm.trans hnone
  · push Not at hends
    rw [follow, exitCore_of_ne hends]
    exact hs.agrees.move hold hnew
      (GpgpuSim.step_changes hs.gpu hp.1 hstep hmax hs.at_place hcore' hends)

/-- A step of the dispatcher and what it does to the barriers of the core. -/
theorem Sound.dispatch (hs : s.Sound place core) (hmax : 0 < cfg.core.maxCtaPerCore)
    (hp : s.Permitted place (.dispatch d)) :
    MeetsUnless (s.Excused place (.dispatch d)) (s.step place (.dispatch d)) fun s' =>
      ∃ core', s'.Sound place core' := by
  rcases GpgpuSim.step_meets hs.gpu hp.1 with ⟨e, he, hexcused⟩ | ⟨r, hok, hsound⟩
  · refine .inl ⟨.gpu e, ?_, hexcused⟩
    rw [step, logged, he]
    rfl
  have hrun : logged (GpgpuSim.step cfg) s.run d = .ok (r.1, s.run.2 ++ r.2) :=
    logged_eq_ok.mpr ⟨r.2, hok, rfl⟩
  obtain ⟨core', hcore'⟩ := hsound.shape.exists_core place.cluster_lt place.core_lt
  have hok' : (logged (GpgpuSim.step cfg) s.run d).mapError CoreHalt.gpu =
      .ok (r.1, s.run.2 ++ r.2) := by
    rw [hrun]
    rfl
  refine .bind_ok hok' (.fetch hs.at_place (.fetch hcore' ?_))
  rcases hs.follow_meets hmax hp hok hsound hcore' with ⟨e, he, harrive⟩ | ⟨h, hbarriers, hagrees⟩
  · refine .inl ⟨.barrier e, ?_, d, _, core, core', rfl, hrun, hs.at_place, hcore', harrive⟩
    rw [he]
    rfl
  · refine .bind_ok (a := h) ?_ (.pure ⟨core', hsound, hcore', hagrees⟩)
    rw [hbarriers]
    rfl

/-- A warp of the core reaches a barrier. -/
theorem Sound.reach (hs : s.Sound place core) {tid : Nat} {inst : SchedInst}
    (hp : s.Permitted place (.reach tid inst)) :
    Meets (s.step place (.reach tid inst)) fun s' => s'.Sound place core := by
  obtain ⟨hany, hfree, hbar, hlt⟩ := hp
  have hold := hs.gpu.cores _ _ core hs.at_place
  rw [hs.at_place, Option.any_some] at hany
  obtain ⟨slot, cta, hcta, hhas⟩ := hold.exists_of_runs hany
  have hslot : (core.threadState tid).ctaId = some slot := by
    obtain ⟨t, ht, rfl⟩ := SimtCore.exists_of_has hhas
    exact (hold.running slot cta hcta).ctaId t ht
  have hw : tid / cfg.core.warpSize ∈ cta.warps cfg.core.warpSize :=
    Cta.mem_warps.mpr ⟨tid, hhas, rfl⟩
  have he : (slot, cta.warps cfg.core.warpSize) ∈ s.barriers.ctaToWarps :=
    (hs.agrees.holds _).mpr ⟨cta, hcta, rfl⟩
  have hactive := (hs.agrees.active _).mpr ⟨tid, hany, rfl⟩
  have hperm : s.barriers.Permitted (cfg.barriers place.maxBarriersPerCta)
      (.reach slot (tid / cfg.core.warpSize) inst) :=
    ⟨⟨_, he, rfl, hw⟩, hactive, hfree, hbar, hlt⟩
  have hsound := BarrierHistory.sound_of_reaches hs.agrees.run
  refine .fetch hs.at_place (.fetch hslot (.bind
    ((BarrierHistory.reach_meets hsound he hw).self.mapError _) fun h hh => .pure ?_))
  obtain ⟨hok, _, hset⟩ := hh
  -- the CTAs and the active warps stay
  have hkept : h.ctaToWarps = s.barriers.ctaToWarps ∧ h.warpActive = s.barriers.warpActive := by
    rcases hset with ⟨_, hset⟩ | ⟨_, hset⟩
    · rw [hset]
      exact ⟨rfl, rfl⟩
    · rw [hset]
      exact ⟨rfl, rfl⟩
  refine ⟨hs.gpu, hs.at_place, .next hs.agrees.run hperm hok, fun e => ?_, fun w => ?_⟩
  · rw [hkept.1]
    exact hs.agrees.holds e
  · rw [hkept.2]
    exact hs.agrees.active w

/-- Every action that is permitted keeps the invariant, unless its error is excused. -/
theorem Sound.step_meets (hs : s.Sound place core) (hmax : 0 < cfg.core.maxCtaPerCore)
    (hp : s.Permitted place a) :
    MeetsUnless (s.Excused place a) (s.step place a) fun s' => ∃ core', s'.Sound place core' := by
  cases a with
  | dispatch d => exact hs.dispatch hmax hp
  | reach tid inst => exact .of_meets ((hs.reach hp).mono fun s' hs' => ⟨core, hs'⟩)

/-- The GPU after its constructors. -/
def initial (cfg : GpuConfig) (kernelPaddedThreadsPerCta : Nat) : GpuBarriers where
  run := (GpgpuSim.initial cfg kernelPaddedThreadsPerCta, [])

/-- The runs of a GPU with the barriers of a core. -/
abbrev Runs (place : CorePlace cfg) (v : Nat) : GpuBarriers → Prop :=
  Reaches (step place) (Permitted place) (initial cfg v)

/-- The invariant holds in every run. -/
theorem sound_of_runs {v : Nat} (hrun : Runs place v s) (hmax : 0 < cfg.core.maxCtaPerCore) :
    ∃ core, s.Sound place core := by
  refine hrun.invariant (fun s => ∃ core, s.Sound place core) ?_ ?_
  · have hsound := GpgpuSim.initial_sound cfg v
    obtain ⟨core, hcore⟩ := hsound.shape.exists_core place.cluster_lt place.core_lt
    refine ⟨core, hsound, hcore, .start, fun e => ?_, fun w => ?_⟩
    · rw [GpgpuSim.initial_core hcore]
      exact iff_of_false (fun he => by cases he) fun ⟨_, hnone, _⟩ => by cases hnone
    · rw [GpgpuSim.initial_core hcore]
      exact iff_of_false (Finset.notMem_empty w) fun ⟨_, hnone, _⟩ => by cases hnone
  · rintro s a s' ⟨core, hs⟩ hp hstep
    exact (hs.step_meets hmax hp).of_ok hstep

/-- In every run of the GPU the barriers of a core are in a run of their own, and each action
that is permitted succeeds, unless its error is one that the dispatcher does not answer for, or a
CTA leaves with a warp that a barrier still counts after a `bar.arrive`. -/
theorem barriers_go_on {v : Nat} (hrun : Runs place v s) (hmax : 0 < cfg.core.maxCtaPerCore) :
    Reaches (BarrierHistory.step (cfg.barriers place.maxBarriersPerCta))
      (BarrierHistory.Permitted (cfg.barriers place.maxBarriersPerCta)) {} s.barriers ∧
    ∀ a, s.Permitted place a → (∃ s', s.step place a = .ok s') ∨
      ∃ e, s.step place a = .error e ∧ s.Excused place a e := by
  obtain ⟨core, hs⟩ := sound_of_runs hrun hmax
  refine ⟨hs.agrees.run, fun a hp => ?_⟩
  rcases hs.step_meets hmax hp with herror | ⟨s', hok, _⟩
  · exact .inr herror
  · exact .inl ⟨s', hok⟩

/-- Two clusters whose warps have one thread each. -/
def narrowWarps : GpuConfig :=
  { GpgpuSim.twoCores with
    core := { GpgpuSim.twoCores.core with
      warpSize := 1
      warpSize_pos := Nat.one_pos
      warpSize_dvd := one_dvd _ } }

/-- The core of the first cluster. -/
def firstCore : CorePlace narrowWarps where
  cluster := 0
  core := 0
  maxBarriersPerCta := 16
  cluster_lt := Nat.two_pos
  core_lt := Nat.one_pos

/-- A run of a list of actions reaches a state, which may be tested. -/
theorem exists_run (place : CorePlace cfg) (as : List CoreAction) {P : GpuBarriers → Prop}
    [DecidablePred P]
    (h : ((as.foldlM (guarded (step place) (Permitted place) (.gpu .noSuchThread))
      (initial cfg 0)).toOption.any fun s => decide (P s)) = true) :
    ∃ s, Runs place 0 s ∧ P s := Reaches.exists_of_foldlM as h

/-- The actions from the launch of a kernel to the end of its first CTA, of which one warp waits
at a barrier where the other one only arrives. -/
def untilEnd : List CoreAction :=
  [.dispatch (.launch GpgpuSim.threeCtas), .dispatch .issueBlocks,
    .reach 0 (BarrierHistory.sampleInst .sync 3), .reach 1 (BarrierHistory.sampleInst .arrive 3),
    .dispatch (.setDone 0 0 1), .dispatch (.exitThread 0 0 1), .dispatch (.setDone 0 0 0)]

/-- The last thread of the CTA leaves the core with it. -/
theorem barriers_go_on_firstCore : ∃ s, Runs firstCore 0 s ∧
    s.barriers.ctaToWarps = [(0, {0, 1})] ∧ s.barriers.warpActive = ∅ ∧
    s.Permitted firstCore (.dispatch (.exitThread 0 0 0)) ∧
    ((∃ s', s.step firstCore (.dispatch (.exitThread 0 0 0)) = .ok s') ∨
      ∃ e, s.step firstCore (.dispatch (.exitThread 0 0 0)) = .error e ∧
        s.Excused firstCore (.dispatch (.exitThread 0 0 0)) e) := by
  obtain ⟨s, hrun, hctas, hactive, hp⟩ := exists_run firstCore untilEnd
    (P := fun s => s.barriers.ctaToWarps = [(0, {0, 1})] ∧ s.barriers.warpActive = ∅ ∧
      s.Permitted firstCore (.dispatch (.exitThread 0 0 0))) (by decide +kernel)
  exact ⟨s, hrun, hctas, hactive, hp, (barriers_go_on hrun (by decide)).2 _ hp⟩

end GpuBarriers

end WaspSim
