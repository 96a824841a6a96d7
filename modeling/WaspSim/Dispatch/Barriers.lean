import WaspSim.Barrier.Step
import WaspSim.Dispatch.Cores

/-!
# The barriers of a core and its CTAs

A core allocates the warps of a CTA in its barriers when the CTA is issued to it, takes a warp out
of them when the threads of the warp are done, and deallocates the warps when the CTA leaves. What
the barriers rely on is what the dispatcher keeps: a free slot, warps that no other CTA has, and
no active warp in a CTA that leaves.
-/

namespace WaspSim

/-- The warps of the hardware threads of a CTA. -/
def Cta.warps (warpSize : Nat) (cta : Cta) : Finset Nat :=
  (Finset.range cta.kernel.threadsPerCta).image fun t => (cta.startThread + t) / warpSize

theorem Cta.mem_warps {warpSize w : Nat} {cta : Cta} :
    w ∈ cta.warps warpSize ↔ ∃ tid, cta.Has tid ∧ tid / warpSize = w := by
  simp only [warps, Finset.mem_image, Finset.mem_range]
  constructor
  · rintro ⟨t, ht, rfl⟩
    exact ⟨_, ⟨Nat.le_add_right _ _, Nat.add_lt_add_left ht _⟩, rfl⟩
  · rintro ⟨tid, htid, rfl⟩
    obtain ⟨t, ht, rfl⟩ := SimtCore.exists_of_has htid
    exact ⟨t, ht, rfl⟩

/-- No warp is in two CTAs of a core. -/
theorem Residency.Spread.warps_apart {cfg : CoreConfig} {s : Residency} (h : s.Spread cfg)
    {i j w : Nat} {cta cta' : Cta} (hi : s.resident i = some cta) (hj : s.resident j = some cta')
    (hw : w ∈ cta.warps cfg.warpSize) (hw' : w ∈ cta'.warps cfg.warpSize) : i = j := by
  -- the first hardware thread of the warp is in both
  have hfirst : ∀ i cta, s.resident i = some cta → w ∈ cta.warps cfg.warpSize →
      cta.Has (w * cfg.warpSize) := by
    intro i cta hi hw
    obtain ⟨tid, ⟨hlo, hhi⟩, rfl⟩ := Cta.mem_warps.mp hw
    obtain ⟨m, hm⟩ := h.aligned i cta hi
    refine ⟨?_, (Nat.div_mul_le_self tid cfg.warpSize).trans_lt hhi⟩
    rw [hm, Nat.mul_comm] at hlo ⊢
    exact Nat.mul_le_mul_right _ ((Nat.le_div_iff_mul_le cfg.warpSize_pos).mpr hlo)
  exact h.disjoint hi hj (hfirst i cta hi hw) (hfirst j cta' hj hw')

namespace BarrierHistory

/-- What a core does with its barriers when the CTAs in its hardware slots change:
`allocate_barrier` in `issue_block2core`, `deallocate_barrier` in `register_cta_thread_exit`. -/
def moveCtas (cfg : BarrierConfig) (before after : Nat → Option Cta) (h : BarrierHistory) :
    Except BarrierHalt BarrierHistory :=
  (List.range 32).foldlM (fun h slot =>
    match before slot, after slot with
    | none, some cta => h.step cfg (.allocate slot (cta.warps cfg.warpSize))
    | some _, none => h.step cfg (.deallocate slot)
    | _, _ => pure h) h

/-- `shader_core_ctx::warp_exit`, on the hardware threads of a core. -/
def warpExitOf (cfg : BarrierConfig) (thread : Nat → Option PtxThreadInfo) (warpId : Nat)
    (h : BarrierHistory) : Except BarrierHalt BarrierHistory :=
  if ∀ j < cfg.warpSize, (thread (warpId * cfg.warpSize + j)).all (·.done) = true then
    h.step cfg (.exit warpId)
  else pure h

variable {cfg : BarrierConfig} {before after : Nat → Option Cta} {h h' : BarrierHistory}

/-- The CTAs of a core while its slots change one after another. -/
def between (before after : Nat → Option Cta) (n slot : Nat) : Option Cta :=
  if slot < n then after slot else before slot

theorem between_self (before after : Nat → Option Cta) (n : Nat) :
    between before after n n = before n := if_neg (Nat.lt_irrefl n)

theorem between_of_ne {n slot : Nat} (hne : slot ≠ n) :
    between before after (n + 1) slot = between before after n slot := by
  unfold between
  by_cases hlt : slot < n
  · rw [if_pos hlt, if_pos (Nat.lt_succ_of_lt hlt)]
  · rw [if_neg hlt, if_neg (by omega)]

theorem between_succ (before after : Nat → Option Cta) (n : Nat) :
    between before after (n + 1) n = after n := if_pos (Nat.lt_succ_self n)

theorem between_cases {n slot : Nat} {cta : Cta} (hcta : between before after n slot = some cta) :
    before slot = some cta ∨ after slot = some cta := by
  unfold between at hcta
  split at hcta
  · exact .inr hcta
  · exact .inl hcta

/-- The barriers hold the warps of the CTAs. -/
def Holds (cfg : BarrierConfig) (resident : Nat → Option Cta) (h : BarrierHistory) : Prop :=
  ∀ e, e ∈ h.ctaToWarps ↔ ∃ cta, resident e.1 = some cta ∧ e.2 = cta.warps cfg.warpSize

/-- CTAs that move as the barriers allow: into slots that exist, apart from each other, and out
of slots whose warps are not active. -/
structure Movable (cfg : BarrierConfig) (before after : Nat → Option Cta) (h : BarrierHistory) :
    Prop where
  slot_lt : ∀ slot cta, before slot = none → after slot = some cta → slot < cfg.maxCtaPerCore
  keep : ∀ slot cta cta', before slot = some cta → after slot = some cta' → cta' = cta
  apart : ∀ i j cta cta', i ≠ j → before i = some cta ∨ after i = some cta →
    before j = some cta' ∨ after j = some cta' →
    Disjoint (cta.warps cfg.warpSize) (cta'.warps cfg.warpSize)
  gone : ∀ slot cta, before slot = some cta → after slot = none →
    Disjoint (cta.warps cfg.warpSize) h.warpActive

/-- The barriers after the first slots have changed. -/
structure Moved (cfg : BarrierConfig) (before after : Nat → Option Cta) (h : BarrierHistory)
    (n : Nat) (h' : BarrierHistory) : Prop where
  run : Reaches (step cfg) (Permitted cfg) {} h'
  holds : h'.Holds cfg (between before after n)
  active : ∀ w, w ∈ h'.warpActive ↔ w ∈ h.warpActive ∨ ∃ slot < n, before slot = none ∧
    ∃ cta, after slot = some cta ∧ w ∈ cta.warps cfg.warpSize
  reached : ∀ w, h'.reached w = h.reached w ∨ h'.reached w = []
  counted : ∀ i, h'.barIdToWarps i ⊆ h.barIdToWarps i

/-- A CTA leaves with a warp that a barrier still counts, after `bar.arrive`. -/
def ArriveMoved (cfg : BarrierConfig) (before after : Nat → Option Cta) (h : BarrierHistory)
    (e : BarrierHalt) : Prop :=
  e = .stuckAtSpecificBarrier ∧ ∃ slot cta, before slot = some cta ∧ after slot = none ∧
    ∃ w ∈ cta.warps cfg.warpSize, (∃ i, w ∈ h.barIdToWarps i) ∧
      ∃ inst ∈ h.reached w, inst.barType = .arrive

variable {n : Nat} {cta : Cta}

/-- A slot that keeps its CTA. -/
theorem Moved.keep (hm : Moved cfg before after h n h') (heq : after n = before n) :
    Moved cfg before after h (n + 1) h' := by
  have hbetween : between before after (n + 1) = between before after n := by
    funext slot
    by_cases hslot : slot = n
    · rw [hslot, between_succ, between_self, heq]
    · exact between_of_ne hslot
  refine { hm with
    holds := hbetween ▸ hm.holds
    active := fun w => (hm.active w).trans (or_congr_right ⟨?_, ?_⟩) }
  · rintro ⟨slot, hslot, hrest⟩
    exact ⟨slot, Nat.lt_succ_of_lt hslot, hrest⟩
  · rintro ⟨slot, hslot, hnone, cta, hcta, hw⟩
    refine ⟨slot, Nat.lt_of_le_of_ne (Nat.le_of_lt_succ hslot) fun hn => ?_, hnone, cta, hcta, hw⟩
    rw [hn] at hnone hcta
    rw [heq, hnone] at hcta
    cases hcta

/-- A slot that gets a CTA. -/
theorem Moved.allocate (hm : Moved cfg before after h n h')
    (hmov : Movable cfg before after h) (hbefore : before n = none) (hafter : after n = some cta) :
    Meets (h'.step cfg (.allocate n (cta.warps cfg.warpSize)))
      (Moved cfg before after h (n + 1)) := by
  have hperm : h'.Permitted cfg (.allocate n (cta.warps cfg.warpSize)) := by
    refine ⟨hmov.slot_lt n cta hbefore hafter, fun e he => ?_⟩
    obtain ⟨cta', hcta', hwarps⟩ := (hm.holds e).mp he
    have hne : e.1 ≠ n := by
      intro heq
      rw [heq, between_self, hbefore] at hcta'
      cases hcta'
    rw [hwarps]
    exact ⟨hne, hmov.apart e.1 n cta' cta hne (between_cases hcta') (.inr hafter)⟩
  refine ((allocate_meets (sound_of_reaches hm.run) hperm).self).mono ?_
  rintro h'' ⟨hok, hreached, _, hctas, hactive, _, hcounted⟩
  refine ⟨.next hm.run hperm hok, fun e => ?_, fun w => ?_, fun w => ?_, fun i => ?_⟩
  · rw [hctas e]
    by_cases heq : e.1 = n
    · rw [heq, between_succ, hafter]
      constructor
      · rintro (rfl | he)
        · exact ⟨cta, rfl, rfl⟩
        · exact absurd heq (hperm.2 e he).1
      · rintro ⟨cta', hcta', hwarps⟩
        rw [Option.some.injEq] at hcta'
        exact .inl (Prod.ext heq (hcta' ▸ hwarps))
    · rw [between_of_ne heq, ← hm.holds e]
      exact or_iff_right fun hnew => heq (congrArg Prod.fst hnew)
  · rw [hactive, Finset.mem_union, hm.active w, or_assoc]
    refine or_congr_right ⟨?_, ?_⟩
    · rintro (⟨slot, hslot, hrest⟩ | hw)
      · exact ⟨slot, Nat.lt_succ_of_lt hslot, hrest⟩
      · exact ⟨n, Nat.lt_succ_self n, hbefore, cta, hafter, hw⟩
    · rintro ⟨slot, hslot, hnone, cta', hcta', hw⟩
      by_cases heq : slot = n
      · rw [heq, hafter, Option.some.injEq] at hcta'
        exact .inr (hcta' ▸ hw)
      · exact .inl ⟨slot, by omega, hnone, cta', hcta', hw⟩
  · rw [hreached w]
    split
    · exact .inr rfl
    · exact hm.reached w
  · rw [hcounted i]
    exact Finset.sdiff_subset.trans (hm.counted i)

/-- A slot whose CTA leaves. -/
theorem Moved.deallocate (hm : Moved cfg before after h n h')
    (hmov : Movable cfg before after h) (hbefore : before n = some cta) (hafter : after n = none) :
    MeetsUnless (h.ArriveMoved cfg before after) (h'.step cfg (.deallocate n))
      (Moved cfg before after h (n + 1)) := by
  have hwarps : ∀ e ∈ h'.ctaToWarps, e.1 = n → e.2 = cta.warps cfg.warpSize := by
    intro e he heq
    obtain ⟨cta', hcta', hwarps⟩ := (hm.holds e).mp he
    rw [heq, between_self, hbefore, Option.some.injEq] at hcta'
    rw [hwarps, hcta']
  have hperm : h'.Permitted cfg (.deallocate n) := by
    intro e he heq
    rw [hwarps e he heq, Finset.disjoint_left]
    intro w hw hactive
    rcases (hm.active w).mp hactive with hold | ⟨slot, hslot, _, cta', hcta', hnew⟩
    · exact Finset.disjoint_left.mp (hmov.gone n cta hbefore hafter) hw hold
    · exact Finset.disjoint_left.mp (hmov.apart n slot cta cta' (Ne.symm (Nat.ne_of_lt hslot))
        (.inl hbefore) (.inr hcta')) hw hnew
  have hmeets := (deallocate_meets (sound_of_reaches hm.run) hperm).self
  refine (hmeets.weaken fun e he => ?_).mono fun h'' hh'' => ?_
  · obtain ⟨rfl, e', he', hslot, w, hw, ⟨i, hi⟩, inst, hinst, harrive⟩ := he
    have hslot : n = e'.1 := BarrierAction.deallocate.inj hslot
    refine ⟨rfl, n, cta, hbefore, hafter, w, hwarps e' he' hslot.symm ▸ hw,
      ⟨i, hm.counted i hi⟩, inst, ?_, harrive⟩
    rcases hm.reached w with heq | heq
    · exact heq ▸ hinst
    · rw [heq] at hinst
      cases hinst
  obtain ⟨hok, hreached, _, hctas, hactive, _, hcounted⟩ := hh''
  refine ⟨.next hm.run hperm hok, fun e => ?_, fun w => ?_, fun w => ?_, fun i => ?_⟩
  · rw [hctas e, hm.holds e]
    by_cases heq : e.1 = n
    · rw [heq, between_succ, hafter]
      exact ⟨fun hand => absurd rfl hand.2, fun ⟨_, hnone, _⟩ => by cases hnone⟩
    · rw [between_of_ne heq]
      exact and_iff_left heq
  · rw [hactive, hm.active w]
    refine or_congr_right ⟨?_, ?_⟩
    · rintro ⟨slot, hslot, hrest⟩
      exact ⟨slot, Nat.lt_succ_of_lt hslot, hrest⟩
    · rintro ⟨slot, hslot, hnone, hrest⟩
      refine ⟨slot, Nat.lt_of_le_of_ne (Nat.le_of_lt_succ hslot) fun hn => ?_, hnone, hrest⟩
      rw [hn, hbefore] at hnone
      cases hnone
  · rw [hreached]
    exact hm.reached w
  · rw [hcounted]
    exact hm.counted i

/-- Barriers that hold the CTAs of a core follow them when they move. -/
theorem moveCtas_meets (hrun : Reaches (step cfg) (Permitted cfg) {} h)
    (hholds : h.Holds cfg before) (hmov : Movable cfg before after h) :
    MeetsUnless (h.ArriveMoved cfg before after) (h.moveCtas cfg before after)
      (Moved cfg before after h 32) := by
  refine .foldlM_range (Moved cfg before after h) (fun n h' _ hm => ?_)
    ⟨hrun, hholds, fun w => (or_iff_left ?_).symm, fun w => .inl rfl, fun i => Finset.Subset.refl _⟩
  swap
  · rintro ⟨_, hslot, _⟩
    exact absurd hslot (Nat.not_lt_zero _)
  cases hbefore : before n with
  | none =>
    cases hafter : after n with
    | none => exact .pure (hm.keep (hafter.trans hbefore.symm))
    | some cta => exact .of_meets (hm.allocate hmov hbefore hafter)
  | some cta =>
    cases hafter : after n with
    | none => exact hm.deallocate hmov hbefore hafter
    | some cta' =>
      obtain rfl := hmov.keep n cta cta' hbefore hafter
      exact .pure (hm.keep (hafter.trans hbefore.symm))

end BarrierHistory

/-- What the barriers of a core are constructed with, for `max_barriers_per_cta`. -/
def GpuConfig.barriers (cfg : GpuConfig) (maxBarriersPerCta : Nat) : BarrierConfig where
  maxCtaPerCore := cfg.core.maxCtaPerCore
  maxBarriersPerCta := maxBarriersPerCta
  warpSize := cfg.core.warpSize

namespace SimtCore

open BarrierHistory

variable {cfg : GpuConfig} {ls ls' : List KernelLaunch} {site : InitSite}
  {lookup lookup' : Nat → Option PtxCtaInfo} {core core' : SimtCore} {h h' : BarrierHistory}
  {r : Residency} {thd : PtxThreadInfo} {cta : Cta} {slot tid w maxBarriersPerCta : Nat}

/-- A warp has a hardware thread that runs. -/
def WarpRuns (cfg : GpuConfig) (core : SimtCore) (w : Nat) : Prop :=
  ∃ tid, core.runsAt tid = true ∧ tid / cfg.core.warpSize = w

/-- The barriers of a core hold the warps of its CTAs, of which those are active that run. -/
structure Agrees (cfg : GpuConfig) (maxBarriersPerCta : Nat) (core : SimtCore)
    (h : BarrierHistory) : Prop where
  run : Reaches (step (cfg.barriers maxBarriersPerCta))
    (Permitted (cfg.barriers maxBarriersPerCta)) {} h
  holds : h.Holds (cfg.barriers maxBarriersPerCta) core.residency.resident
  active : ∀ w, w ∈ h.warpActive ↔ core.WarpRuns cfg w

theorem runsAt_eq_false : core.runsAt tid = false ↔ (core.thread tid).all (·.done) = true := by
  unfold runsAt
  cases core.thread tid with
  | none => simp
  | some thd => simp

/-- A hardware thread that runs is one of a CTA. -/
theorem Sound.exists_of_runs (hs : core.Sound cfg ls site lookup) (hruns : core.runsAt tid = true) :
    ∃ slot cta, core.residency.resident slot = some cta ∧ cta.Has tid := by
  obtain ⟨thd, hthd, hrun⟩ := (Option.any_eq_true _ _).mp hruns
  exact hs.running_of_not_done hthd (by simpa using hrun)

/-- How the CTAs of a core change in a step that ends no thread. -/
structure Changes (cfg : GpuConfig) (core core' : SimtCore) : Prop where
  slot_lt : ∀ slot cta, core.residency.resident slot = none →
    core'.residency.resident slot = some cta → slot < cfg.core.maxCtaPerCore
  keep : ∀ slot cta cta', core.residency.resident slot = some cta →
    core'.residency.resident slot = some cta' → cta' = cta
  /-- CTAs come or go, and not both. -/
  oneWay : (∀ slot cta, core.residency.resident slot = some cta →
    core'.residency.resident slot = some cta) ∨
    ∀ slot cta, core'.residency.resident slot = some cta → core.residency.resident slot = some cta
  /-- A CTA that leaves has no thread that runs. -/
  gone : ∀ slot cta, core.residency.resident slot = some cta →
    core'.residency.resident slot = none → ∀ tid, cta.Has tid → core.runsAt tid = false
  runs : ∀ tid, core'.runsAt tid = true ↔ core.runsAt tid = true ∨
    ∃ slot cta, core.residency.resident slot = none ∧
      core'.residency.resident slot = some cta ∧ cta.Has tid

/-- A core that keeps its CTAs and threads. -/
theorem Changes.of_eq (hresident : core'.residency.resident = core.residency.resident)
    (hthread : core'.thread = core.thread) : core.Changes cfg core' where
  slot_lt slot cta hnone hcta := by
    rw [hresident, hnone] at hcta
    cases hcta
  keep slot cta cta' hcta hcta' := Option.some.inj (hcta'.symm.trans (hresident ▸ hcta))
  oneWay := .inl fun slot cta hcta => hresident ▸ hcta
  gone slot cta hcta hnone := by
    rw [hresident, hcta] at hnone
    cases hnone
  runs tid := by
    have hsame : core'.runsAt tid = core.runsAt tid := by rw [runsAt, hthread, runsAt]
    rw [hsame]
    refine (or_iff_left ?_).symm
    rintro ⟨slot, cta, hnone, hcta, _⟩
    rw [hresident, hnone] at hcta
    cases hcta

/-- A core that may have got CTAs has changed so. -/
theorem Grows.changes (hg : core.Grows cfg core') (hs : core.Sound cfg ls site lookup)
    (hs' : core'.Sound cfg ls' site lookup') (hmax : 0 < cfg.core.maxCtaPerCore) :
    core.Changes cfg core' where
  slot_lt slot cta hnone hcta := by
    have hlt := (hg.new slot cta hnone hcta).1
    omega
  keep slot cta cta' hcta hcta' := Option.some.inj (hcta'.symm.trans (hg.keep slot cta hcta).1)
  oneWay := .inl fun slot cta hcta => (hg.keep slot cta hcta).1
  gone slot cta hcta hnone := by
    cases hnone.symm.trans (hg.keep slot cta hcta).1
  runs tid := by
    constructor
    · intro hruns
      obtain ⟨slot, cta, hcta', hhas⟩ := hs'.exists_of_runs hruns
      cases hcta : core.residency.resident slot with
      | none => exact .inr ⟨slot, cta, hcta, hcta', hhas⟩
      | some cta₀ =>
        obtain ⟨hkept, hsame⟩ := hg.keep slot cta₀ hcta
        obtain rfl : cta₀ = cta := Option.some.inj (hkept.symm.trans hcta')
        rw [runsAt, hsame tid hhas] at hruns
        exact .inl hruns
    · rintro (hruns | ⟨slot, cta, hnone, hcta', hhas⟩)
      · obtain ⟨slot, cta, hcta, hhas⟩ := hs.exists_of_runs hruns
        rw [runsAt, (hg.keep slot cta hcta).2 tid hhas]
        exact hruns
      · exact (hg.new slot cta hnone hcta').2 tid hhas

/-- A core that a hardware thread leaves has changed so. -/
theorem Exits.changes (hx : core.Exits cfg r slot tid cta) (hs : core.Sound cfg ls site lookup)
    (hdone : (core.thread tid).all (·.done) = true) (hthread : core'.thread = core.thread)
    (hresident : core'.residency.resident = r.resident) : core.Changes cfg core' where
  slot_lt i cta' hnone hcta := by
    rw [hresident] at hcta
    cases hnone.symm.trans (hx.resident_of hcta)
  keep i cta' cta'' hcta hcta' := by
    rw [hresident] at hcta'
    exact Option.some.inj ((hx.resident_of hcta').symm.trans hcta)
  oneWay := .inr fun i cta' hcta => hx.resident_of (hresident ▸ hcta)
  gone i cta' hcta hnone tid' hhas := by
    rw [hresident] at hnone
    have hi : i = slot := by
      by_contra hne
      cases hcta.symm.trans ((hx.resident_ne hne).symm.trans hnone)
    subst hi
    obtain rfl : cta' = cta := Option.some.inj (hcta.symm.trans hx.resident)
    exact runsAt_eq_false.mpr (hx.done_of_gone hs hdone hnone hhas)
  runs tid' := by
    have hsame : core'.runsAt tid' = core.runsAt tid' := by rw [runsAt, hthread, runsAt]
    rw [hsame]
    refine (or_iff_left ?_).symm
    rintro ⟨i, cta', hnone, hcta', _⟩
    rw [hresident] at hcta'
    cases hnone.symm.trans (hx.resident_of hcta')

/-- The barriers of a core follow its CTAs. -/
theorem Agrees.move (ha : core.Agrees cfg maxBarriersPerCta h)
    (hs : core.Sound cfg ls site lookup) (hs' : core'.Sound cfg ls' site lookup')
    (hc : core.Changes cfg core') :
    MeetsUnless
      (h.ArriveMoved (cfg.barriers maxBarriersPerCta) core.residency.resident
        core'.residency.resident)
      (h.moveCtas (cfg.barriers maxBarriersPerCta) core.residency.resident
        core'.residency.resident)
      (core'.Agrees cfg maxBarriersPerCta) := by
  have hmov : Movable (cfg.barriers maxBarriersPerCta) core.residency.resident
      core'.residency.resident h := by
    refine ⟨hc.slot_lt, hc.keep, fun i j cta cta' hne hi hj => ?_, fun slot cta hcta hnone => ?_⟩
    · rw [Finset.disjoint_left]
      intro w hw hw'
      -- both CTAs are on the core before the step, or both after it
      rcases hc.oneWay with hkeep | hkeep
      · exact hne (hs'.spread.warps_apart (hi.elim (hkeep i cta) id)
          (hj.elim (hkeep j cta') id) hw hw')
      · exact hne (hs.spread.warps_apart (hi.elim id (hkeep i cta))
          (hj.elim id (hkeep j cta')) hw hw')
    · rw [Finset.disjoint_left]
      intro w hw hactive
      obtain ⟨tid, hruns, heq⟩ := (ha.active w).mp hactive
      obtain ⟨slot', cta', hcta', hhas⟩ := hs.exists_of_runs hruns
      obtain rfl := hs.spread.warps_apart hcta hcta' hw (Cta.mem_warps.mpr ⟨tid, hhas, heq⟩)
      obtain rfl : cta' = cta := Option.some.inj (hcta'.symm.trans hcta)
      rw [hc.gone slot cta' hcta hnone tid hhas] at hruns
      cases hruns
  refine (moveCtas_meets ha.run ha.holds hmov).mono fun h' hm => ⟨hm.run, fun e => ?_, fun w => ?_⟩
  · rw [hm.holds e]
    by_cases hlt : e.1 < 32
    · rw [between, if_pos hlt]
    · have hnone : core.residency.resident e.1 = none := Option.eq_none_iff_forall_ne_some.mpr
        fun cta hcta => hlt (hs.spread.slot_lt e.1 cta hcta)
      have hnone' : core'.residency.resident e.1 = none := Option.eq_none_iff_forall_ne_some.mpr
        fun cta hcta => hlt (hs'.spread.slot_lt e.1 cta hcta)
      rw [between, if_neg hlt, hnone, hnone']
  · rw [hm.active w, ha.active w]
    constructor
    · rintro (⟨tid, hruns, heq⟩ | ⟨slot, _, hnone, cta, hcta, hw⟩)
      · exact ⟨tid, (hc.runs tid).mpr (.inl hruns), heq⟩
      · obtain ⟨tid, hhas, heq⟩ := Cta.mem_warps.mp hw
        exact ⟨tid, (hc.runs tid).mpr (.inr ⟨slot, cta, hnone, hcta, hhas⟩), heq⟩
    · rintro ⟨tid, hruns, heq⟩
      rcases (hc.runs tid).mp hruns with hold | ⟨slot, cta, hnone, hcta, hhas⟩
      · exact .inl ⟨tid, hold, heq⟩
      · exact .inr ⟨slot, hs'.spread.slot_lt slot cta hcta, hnone, cta, hcta,
          Cta.mem_warps.mpr ⟨tid, hhas, heq⟩⟩

theorem runsAt_finished (core : SimtCore) (tid : Nat) (thd : PtxThreadInfo) (t : Nat) :
    (core.finished tid thd).runsAt t = true ↔ core.runsAt t = true ∧ t ≠ tid := by
  simp only [runsAt, finished]
  by_cases heq : t = tid
  · rw [heq, Function.update_self]
    simp
  · rw [Function.update_of_ne heq]
    exact (and_iff_left heq).symm

/-- A thread ends, and its warp exits the barriers when it was the last one. -/
theorem Agrees.finish (ha : core.Agrees cfg maxBarriersPerCta h) (thd : PtxThreadInfo)
    (hruns : core.runsAt tid = true) (hfree : tid / cfg.core.warpSize ∉ h.warpAtBarrier) :
    Meets (h.warpExitOf (cfg.barriers maxBarriersPerCta) (core.finished tid thd).thread
      (tid / cfg.core.warpSize)) ((core.finished tid thd).Agrees cfg maxBarriersPerCta) := by
  have hwarp : ∀ w, w ≠ tid / cfg.core.warpSize →
      ((core.finished tid thd).WarpRuns cfg w ↔ core.WarpRuns cfg w) := by
    intro w hne
    refine exists_congr fun t => ?_
    rw [runsAt_finished]
    refine ⟨fun hand => ⟨hand.1.1, hand.2⟩, fun hand => ⟨⟨hand.1, ?_⟩, hand.2⟩⟩
    rintro rfl
    exact hne hand.2.symm
  have hactive : tid / cfg.core.warpSize ∈ h.warpActive := (ha.active _).mpr ⟨tid, hruns, rfl⟩
  refine .ite (fun hall => ?_) fun hleft => .pure ⟨ha.run, ha.holds, fun w => ?_⟩
  · have hsound := sound_of_reaches ha.run
    have hperm : h.Permitted (cfg.barriers maxBarriersPerCta)
        (.exit (tid / cfg.core.warpSize)) := ⟨hactive, hfree⟩
    obtain ⟨e, he, hw⟩ := hsound.active_resident _ hactive
    refine (exit_meets hsound he hw).self.mono ?_
    rintro h' ⟨hok, _, hset⟩
    refine ⟨.next ha.run hperm hok, fun e' => ?_, fun w => ?_⟩
    · rw [hset, BarrierSet.releaseAll_ctaToWarps]
      exact ha.holds e'
    · rw [hset, BarrierSet.releaseAll_warpActive, Finset.mem_erase, ha.active w]
      by_cases heq : w = tid / cfg.core.warpSize
      · refine iff_of_false (fun hand => hand.1 heq) ?_
        rintro ⟨t, ht, hquot⟩
        have hdone := hall (t % cfg.core.warpSize) (Nat.mod_lt _ cfg.core.warpSize_pos)
        rw [← heq, ← hquot] at hdone
        change ((core.finished tid thd).thread
          (t / cfg.core.warpSize * cfg.core.warpSize + t % cfg.core.warpSize)).all _ = true at hdone
        rw [Nat.div_add_mod', ← runsAt_eq_false, ht] at hdone
        cases hdone
      · rw [hwarp w heq]
        exact and_iff_right heq
  · rw [ha.active w]
    by_cases heq : w = tid / cfg.core.warpSize
    · refine iff_of_true ⟨tid, hruns, heq.symm⟩ ?_
      obtain ⟨j, hj⟩ := not_forall.mp hleft
      obtain ⟨hlt, hnot⟩ := Classical.not_imp.mp hj
      have hlt : j < cfg.core.warpSize := hlt
      refine ⟨w * cfg.core.warpSize + j, ?_, ?_⟩
      · rw [← Bool.not_eq_false, runsAt_eq_false, heq]
        exact hnot
      · rw [Nat.mul_comm, Nat.mul_add_div cfg.core.warpSize_pos, Nat.div_eq_of_lt hlt, Nat.add_zero]
    · exact (hwarp w heq).symm

end SimtCore

end WaspSim
