import WaspSim.Core.Related
import WaspSim.Scheduler.Candidates
import WaspSim.Scheduler.Fallback

/-!
# A failed co-issue is transparent

A co-issue that issues nothing leaves the core as sampling left it and hands the
loop over the warps two flags. The loop reads neither these nor the counters of
co-issue, so the cycle ends as it would without co-issue, up to the bucket of the
stalled cycle: that differs exactly when warps present instructions and each of
them waits for a device runtime call.
-/

namespace WaspSim

variable {Mem Threads Simt Score : Type} {O : Outside Mem Threads Simt Score} {cfg : SchedConfig}

/-- The stage with other co-issue counters. -/
def Stage.setCoissue (g : Stage Mem Threads Simt Score) (k : CoissueStats) :
    Stage Mem Threads Simt Score :=
  { g with stats := { g.stats with coissue := k } }

/-- Co-issue is enabled together with a queue mechanism. -/
def SchedConfig.coissues (cfg : SchedConfig) : Bool :=
  cfg.gpgpuWaspPcCoissueEnable && (cfg.waspRfqEnabled || cfg.smemqEnabled)

namespace IssueLoop

variable {v : IssueLoop Mem Threads Simt Score} {w : Nat} {k : CoissueStats} {f : IssueFlags}

/-- The loop after a co-issue that left other counters and flags. -/
def relabel (k : CoissueStats) (f : IssueFlags) (v : IssueLoop Mem Threads Simt Score) :
    IssueLoop Mem Threads Simt Score :=
  { v with stage := v.stage.setCoissue k, flags := f.or v.flags }

/-- A pass does not read the counters and flags of a co-issue. -/
theorem act_relabel (verdict : Verdict) :
    (v.relabel k f).act O cfg w verdict =
      (v.act O cfg w verdict).map fun r => (r.1.relabel k f, r.2) := by
  cases verdict with
  | cdpWait | cdpStart | skip | blocked | held =>
    simp only [act, relabel, Stage.setCoissue, IssueFlags.or_assoc]
    rfl
  | flush pc =>
    simp only [act, relabel, Stage.setCoissue, IssueFlags.or_assoc]
    cases (v.stage.core.setSchedWarp w fun sw => { sw with nextPc := pc }).ibufferFlush O cfg w with
    | error e => rfl
    | ok core => rfl
  | issue port execType inst =>
    simp only [act, relabel, Stage.setCoissue, Stage.issueWarp, IssueFlags.or_assoc]
    cases (v.stage.core.setSchedWarp w fun sw =>
        { sw with
          cdpDummy := sw.cdpDummy && !(inst.isCdp != 0 && IssueState.runsCdp port) }).issueWarp
      O cfg port inst (O.activeMask (v.stage.core.simtStack w)) w v.stage.sched.id with
    | error e => rfl
    | ok core => rfl

/-- The loop over one warp does not read the counters and flags of a co-issue. -/
theorem run_relabel (n : Nat) :
    Related (fun a b => b = a.relabel k f) (run O cfg w n v) (run O cfg w n (v.relabel k f)) := by
  induction n generalizing v with
  | zero => exact .pure rfl
  | succ n ih =>
    simp only [run]
    refine .ite Iff.rfl (fun _ => .pure rfl) fun _ => ?_
    refine .bind (.of_eq rfl) fun r r' hr => ?_
    subst hr
    have hact :=
      @act_relabel _ _ _ _ O cfg { v with stage := { v.stage with core := r.1 } } w k f r.2
    refine .bind (.of_map hact) fun a b hab => ?_
    subst hab
    exact .ite Iff.rfl (fun _ => .pure rfl) fun _ => ih

end IssueLoop

namespace Stage

variable {g g₁ g₂ : Stage Mem Threads Simt Score} {k : CoissueStats} {f flags : IssueFlags}

/-- The loop over the warps does not read the counters and flags of a co-issue. -/
theorem issueWarps_relabel (rest : List (Option Nat)) :
    Related (fun a b => b = (a.1.setCoissue k, f.or a.2)) (g.issueWarps O cfg flags rest)
      ((g.setCoissue k).issueWarps O cfg (f.or flags) rest) := by
  induction rest generalizing g flags with
  | nil => exact .pure rfl
  | cons entry rest ih =>
    cases entry with
    | none => exact ih
    | some w =>
      simp only [issueWarps]
      refine .ite Iff.rfl (fun _ => ih) fun _ => ?_
      refine .bind (IssueLoop.run_relabel _) fun v v' hv => ?_
      subst hv
      refine .ite Iff.rfl (fun _ => ?_) fun _ => ih
      refine .pure ?_
      have hcount : ∀ (s : IssueStats) (id n : Nat),
          ({ s with coissue := k } : IssueStats).countIssue id n =
            { s.countIssue id n with coissue := k } := by
        intro s id n
        unfold IssueStats.countIssue
        split
        · rfl
        · rfl
      simp only [finishIssue, setCoissue, IssueLoop.relabel, hcount]
      rfl

/-- The loop over one warp does not read the option. -/
theorem run_withoutCoissue (w n : Nat) (v : IssueLoop Mem Threads Simt Score) :
    IssueLoop.run O cfg.withoutCoissue w n v = IssueLoop.run O cfg w n v := by
  induction n generalizing v with
  | zero => rfl
  | succ n ih =>
    have hinspect : ∀ (c : IssueState Mem Threads Simt Score) (id : Nat) (t : ExecUnitType),
        c.inspect O cfg.withoutCoissue id w t = c.inspect O cfg id w t := fun _ _ _ => rfl
    have hact : ∀ (u : IssueLoop Mem Threads Simt Score) (verdict : Verdict),
        u.act O cfg.withoutCoissue w verdict = u.act O cfg w verdict := fun _ _ => rfl
    have hmax : cfg.withoutCoissue.gpgpuMaxInsnIssuePerWarp = cfg.gpgpuMaxInsnIssuePerWarp := rfl
    simp only [IssueLoop.run, hinspect, hact, hmax, ih]

/-- The loop over the warps does not read the option. -/
theorem issueWarps_withoutCoissue (rest : List (Option Nat)) :
    g.issueWarps O cfg.withoutCoissue flags rest = g.issueWarps O cfg flags rest := by
  induction rest generalizing g flags with
  | nil => rfl
  | cons entry rest ih =>
    cases entry with
    | none => exact ih
    | some w =>
      have hmax : cfg.withoutCoissue.gpgpuMaxInsnIssuePerWarp = cfg.gpgpuMaxInsnIssuePerWarp := rfl
      simp only [issueWarps, run_withoutCoissue, hmax, ih]

/-- Trying pairs changes the co-issue counters alone. -/
theorem tryProducers_stats (s : IssueStats) (consumers producers : List IssueCandidate) :
    ∃ k, (s.tryProducers consumers producers).1 = { s with coissue := k } := by
  have hconsumers : ∀ (s : IssueStats) (prod : IssueCandidate) (consumers : List IssueCandidate),
      ∃ k, (s.tryConsumers prod consumers).1 = { s with coissue := k } := by
    intro s prod consumers
    induction consumers generalizing s with
    | nil => exact ⟨s.coissue, rfl⟩
    | cons cons rest ih =>
      simp only [IssueStats.tryConsumers]
      split
      · exact ⟨_, rfl⟩
      · obtain ⟨k, hk⟩ := ih _
        exact ⟨k, hk⟩
  induction producers generalizing s with
  | nil => exact ⟨s.coissue, rfl⟩
  | cons prod rest ih =>
    obtain ⟨k, hk⟩ := hconsumers s prod consumers
    simp only [IssueStats.tryProducers]
    split
    · rename_i s' pair heq
      rw [heq] at hk
      exact ⟨k, hk⟩
    · rename_i s' heq
      rw [heq] at hk
      obtain ⟨k', hk'⟩ := ih s'
      refine ⟨k', hk'.trans ?_⟩
      rw [show s' = { s with coissue := k } from hk]

/-- The candidates of settled warps: the core is unchanged, and the flags say what the warps
presented. -/
theorem collect_spec {c : IssueState Mem Threads Simt Score} {schedId : Nat}
    {rest : List (Option Nat)} {r r' : Collected Mem Threads Simt Score}
    (hsettled : ∀ w, some w ∈ rest → IssueState.Settled O cfg c w) (hcore : r.core = c)
    (h : rest.foldlM (Collected.add O cfg schedId) r = .ok r') :
    r'.core = c ∧ r'.flags.issuedInst = r.flags.issuedInst ∧
      (r'.flags.validInst = true ↔
        r.flags.validInst = true ∨ ∃ w inst, some w ∈ rest ∧ c.Presents O w inst) ∧
      (r'.flags.readyInst = true → r.flags.readyInst = true ∨
        ∃ w inst, some w ∈ rest ∧ c.Presents O w inst ∧ inst.isCdp = 0 ∧ c.Passes O cfg w) := by
  induction rest generalizing r with
  | nil =>
    simp only [foldlM_nil_eq_ok] at h
    subst h
    exact ⟨hcore, rfl, by simp, fun hr => .inl hr⟩
  | cons entry rest ih =>
    obtain ⟨m, hadd, hrest⟩ := foldlM_cons_eq_ok.mp h
    have hsame := (Collected.core_of_add
      (fun w hw => hcore ▸ hsettled w (by rw [hw]; exact List.mem_cons_self)) hadd).trans hcore
    obtain ⟨hc, hissued, hvalid, hready⟩ :=
      ih (fun w hw => hsettled w (List.mem_cons_of_mem _ hw)) hsame hrest
    obtain ⟨core, _, hcollect, ⟨rfl, rfl⟩ | ⟨x, _, rfl, _, rfl⟩⟩ := Collected.add_eq_ok hadd
    · refine ⟨hc, hissued, hvalid.trans (or_congr Iff.rfl ?_), fun hr => (hready hr).imp id ?_⟩
      · constructor
        · rintro ⟨w, inst, hw, hp⟩
          exact ⟨w, inst, List.mem_cons_of_mem _ hw, hp⟩
        · rintro ⟨w, inst, hw, hp⟩
          rcases List.mem_cons.mp hw with heq | hw
          · rw [← heq, hcore] at hcollect
            exact absurd hp ((IssueState.collectIssueCandidate_none hcollect).2 inst)
          · exact ⟨w, inst, hw, hp⟩
      · rintro ⟨w, inst, hw, hp⟩
        exact ⟨w, inst, List.mem_cons_of_mem _ hw, hp⟩
    · dsimp only at hsame
      rw [hcore, hsame] at hcollect
      obtain ⟨hentry, hpresents, _⟩ := IssueState.collectIssueCandidate_some hcollect
      have hw : some x.warpId ∈ entry :: rest := by
        rw [hentry]
        exact List.mem_cons_self
      refine ⟨hc, hissued, ?_, fun hr => ?_⟩
      · rw [hvalid]
        exact iff_of_true (.inl rfl) (.inr ⟨x.warpId, x.inst, hw, hpresents⟩)
      · rcases hready hr with hr | ⟨w, inst, hw, hp⟩
        · simp only [Bool.or_eq_true] at hr
          refine hr.imp id fun hcand => ?_
          obtain ⟨t, ht⟩ : ∃ t, x.target = .ok t := by
            cases htarget : x.target with
            | ok t => exact ⟨t, rfl⟩
            | error e =>
              rw [IssueCandidate.ready, htarget] at hcand
              cases hcand
          obtain ⟨hpasses, hclass, _⟩ := IssueState.collectIssueCandidate_ready hcollect ht
          rw [(hsettled x.warpId hw).next_eq] at hpasses
          exact ⟨x.warpId, x.inst, hw, hpresents, (IssueState.classifyIssueTarget_some hclass).1,
            x.inst, hpresents, hpasses⟩
        · exact .inr ⟨w, inst, List.mem_cons_of_mem _ hw, hp⟩

/-- A co-issue that issues nothing changes only its counters, and its flags say what the
settled warps presented. -/
theorem tryPcCoissue_false (hcoissue : cfg.coissues = true)
    (hsettled : ∀ w, some w ∈ g.sched.prioritized → IssueState.Settled O cfg g.core w)
    (h : g.tryPcCoissue O cfg {} = .ok (g₁, flags, false)) :
    (∃ k, g₁ = g.setCoissue k) ∧ flags.issuedInst = false ∧
      (flags.validInst = true ↔
        ∃ w inst, some w ∈ g.sched.prioritized ∧ g.core.Presents O w inst) ∧
      (flags.readyInst = true → ∃ w inst, some w ∈ g.sched.prioritized ∧
        g.core.Presents O w inst ∧ inst.isCdp = 0 ∧ g.core.Passes O cfg w) := by
  have hon : ¬(cfg.gpgpuWaspPcCoissueEnable = false ∨
      (cfg.waspRfqEnabled = false ∧ cfg.smemqEnabled = false)) := by
    simp only [SchedConfig.coissues, Bool.and_eq_true, Bool.or_eq_true] at hcoissue
    grind
  simp only [tryPcCoissue, hon, ↓reduceIte, bind_eq_ok] at h
  obtain ⟨r, hcollect, h⟩ := h
  obtain ⟨hcore, hissued, hvalid, hready⟩ := collect_spec hsettled rfl hcollect
  obtain ⟨k, hk⟩ := tryProducers_stats g.stats r.consumers r.producers
  split at h
  · rename_i stats heq
    rw [pure_eq_ok, Prod.mk.injEq, Prod.mk.injEq] at h
    obtain ⟨rfl, rfl, _⟩ := h
    rw [heq] at hk
    refine ⟨⟨k, ?_⟩, hissued, ?_, fun hr => ?_⟩
    · rw [hcore, show stats = { g.stats with coissue := k } from hk]
      rfl
    · rw [hvalid]
      exact or_iff_right Bool.false_ne_true
    · exact (hready hr).resolve_left Bool.false_ne_true
  · simp at h

/-- Two stages agree, apart from the counters of co-issue. -/
structure AgreeUpToCoissue (a b : Stage Mem Threads Simt Score) : Prop where
  core_eq : a.core = b.core
  sched_eq : a.sched = b.sched
  stats_eq : { a.stats with coissue := {} } = { b.stats with coissue := {} }

/-- Counting a stalled cycle does not touch the counters of co-issue. -/
theorem countStall_setCoissue (g : Stage Mem Threads Simt Score) (k : CoissueStats)
    (f : IssueFlags) : (g.setCoissue k).countStall f = (g.countStall f).setCoissue k := by
  rcases countStall_cases f with hnone | ⟨i, hcount⟩
  · rw [hnone, hnone]
  · rw [hcount, hcount]
    rfl

theorem agreeUpToCoissue_setCoissue (g : Stage Mem Threads Simt Score) (k : CoissueStats) :
    AgreeUpToCoissue g (g.setCoissue k) := ⟨rfl, rfl, rfl⟩

/-- A cycle counted as idle and the same cycle counted as waiting or stalled do not agree. -/
theorem not_agreeUpToCoissue_countStall {f f' : IssueFlags} (hidle : f.validInst = false)
    (hvalid : f'.validInst = true) (hissued : f'.issuedInst = false) :
    ¬AgreeUpToCoissue (g.countStall f) ((g.setCoissue k).countStall f') := by
  intro hagree
  have hdistro := congrArg (fun s => s.shaderCycleDistro 0) hagree.stats_eq
  have hzero : (g.countStall f).stats.shaderCycleDistro 0 =
      u32 (g.stats.shaderCycleDistro 0 + 1) := by
    simp [countStall, hidle, IssueStats.countDistro, addAt]
  have hsame : ((g.setCoissue k).countStall f').stats.shaderCycleDistro 0 =
      g.stats.shaderCycleDistro 0 := by
    rw [countStall_setCoissue]
    cases hready : f'.readyInst with
    | false => simp [countStall, hvalid, hready, IssueStats.countDistro, addAt, setCoissue]
    | true =>
      simp [countStall, hvalid, hready, hissued, IssueStats.countDistro, addAt, setCoissue]
  rw [hzero, hsame, u32] at hdistro
  omega

/-- Warps present instructions, but every one of them waits for a device runtime call (or no
instruction may issue at all). -/
def OnlyCdpWaits (O : Outside Mem Threads Simt Score) (cfg : SchedConfig)
    (g : Stage Mem Threads Simt Score) : Prop :=
  (∃ w inst, some w ∈ g.sched.prioritized ∧ g.core.Presents O w inst) ∧
    ∀ w, some w ∈ g.sched.prioritized → ¬g.core.Tests O cfg w

/-- The cycle after a co-issue that issued nothing agrees with the cycle without co-issue
unless warps present only device runtime calls that they wait for. -/
theorem coissue_transparent_iff (hcoissue : cfg.coissues = true)
    (hsample : g.sample O cfg = .ok g₁)
    (htry : g₁.tryPcCoissue O cfg {} = .ok (g₂, flags, false)) :
    Related (fun a b => AgreeUpToCoissue a b ↔ ¬OnlyCdpWaits O cfg g)
      (g.cycle O cfg.withoutCoissue) (g.cycle O cfg) := by
  obtain ⟨hkeeps, hsettled, hsched⟩ := sample_settles hsample
  have honly : OnlyCdpWaits O cfg g ↔ OnlyCdpWaits O cfg g₁ := by
    unfold OnlyCdpWaits
    simp only [hsched, (hkeeps _).presents_iff, (hkeeps _).tests_iff]
  rw [honly]
  obtain ⟨⟨k, rfl⟩, hissued, hvalid, hready⟩ := tryPcCoissue_false hcoissue hsettled htry
  -- both cycles go on with the same loop over the warps
  have hon : g.cycle O cfg = (g₁.setCoissue k).issueSingle O cfg flags := by
    simp [cycle, hsample, htry, bind, Except.bind]
  have hoff : g.cycle O cfg.withoutCoissue = g₁.issueSingle O cfg {} := by
    have hsample' : g.sample O cfg.withoutCoissue = .ok g₁ := hsample
    have htry' : g₁.tryPcCoissue O cfg.withoutCoissue {} = .ok (g₁, {}, false) :=
      if_pos (.inl rfl)
    simp [cycle, hsample', htry', bind, Except.bind, issueSingle, issueWarps_withoutCoissue]
  rw [hon, hoff]
  unfold issueSingle
  have hloop := @issueWarps_relabel _ _ _ _ O cfg g₁ k flags {} g₁.sched.prioritized
  rw [IssueFlags.or_none] at hloop
  cases hplain : g₁.issueWarps O cfg {} g₁.sched.prioritized with
  | error e =>
    have herror := hloop.eq_error hplain
    rw [show (g₁.setCoissue k).sched = g₁.sched from rfl, herror]
    exact .error e
  | ok r =>
    obtain ⟨g₃, f⟩ := r
    obtain ⟨b, hb, rfl⟩ := hloop.exists_ok hplain
    rw [show (g₁.setCoissue k).sched = g₁.sched from rfl, hb]
    refine .ok ?_
    have hspec := issueWarps_spec g₁.sched.prioritized_nodup
      (fun w hw => ⟨hsettled w hw, .refl w _⟩) hplain
    have hsame : ∀ f' : IssueFlags, f' = f → AgreeUpToCoissue (g₃.countStall f)
        ((g₃.setCoissue k).countStall f') := by
      intro f' hf'
      rw [hf', countStall_setCoissue]
      exact agreeUpToCoissue_setCoissue _ _
    have htested : (∃ w, some w ∈ g₁.sched.prioritized ∧ g₁.core.Tests O cfg w) →
        ¬OnlyCdpWaits O cfg g₁ := by
      rintro ⟨w, hw, htests⟩ ⟨_, hnone⟩
      exact hnone w hw htests
    rcases hspec with ⟨rfl, htests⟩ | ⟨fl, hfl, _, hnotissued, hflvalid, hflready⟩
    · -- a warp issued
      rw [IssueFlags.or_all]
      exact iff_of_true (hsame _ rfl) (htested htests)
    · rw [IssueFlags.none_or] at hfl
      subst hfl
      by_cases htests : ∃ w, some w ∈ g₁.sched.prioritized ∧ g₁.core.Tests O cfg w
      · -- the loop sets every flag that the co-issue set
        refine iff_of_true (hsame _ ?_) (htested htests)
        have hmax : 0 < cfg.gpgpuMaxInsnIssuePerWarp := htests.choose_spec.2.1
        have hreadyle : flags.readyInst = true → f.readyInst = true := by
          intro hr
          obtain ⟨w, inst, hw, hpresents, hcdp, hpasses⟩ := hready hr
          exact hflready w hw ⟨hmax, inst, hpresents, fun hwaits => hwaits.1 hcdp⟩ hpasses
        exact IssueFlags.or_eq_right hissued (hflvalid.mpr htests) hreadyle
      · have hidle : f.validInst = false := by
          rw [← Bool.not_eq_true, hflvalid]
          exact htests
        have hnone : ∀ w, some w ∈ g₁.sched.prioritized → ¬g₁.core.Tests O cfg w :=
          fun w hw ht => htests ⟨w, hw, ht⟩
        cases hv : flags.validInst with
        | true =>
          have hnot := not_agreeUpToCoissue_countStall (g := g₃) (k := k) hidle
            (show (flags.or f).validInst = true by simp [IssueFlags.or, hv])
            (by simp [IssueFlags.or, hissued, hnotissued])
          exact iff_of_false hnot fun h => h ⟨hvalid.mp hv, hnone⟩
        | false =>
          have hquiet : ¬∃ w inst, some w ∈ g₁.sched.prioritized ∧ g₁.core.Presents O w inst := by
            rw [← hvalid, hv]
            exact Bool.false_ne_true
          have hnotready : flags.readyInst = false := by
            rw [← Bool.not_eq_true]
            intro hr
            obtain ⟨w, inst, hw, hpresents, _⟩ := hready hr
            exact hquiet ⟨w, inst, hw, hpresents⟩
          have hflags : flags = {} := IssueFlags.ext hv hnotready hissued
          refine iff_of_true (hsame _ (by rw [hflags, IssueFlags.none_or])) fun honly => ?_
          exact hquiet honly.1

/-- A producer warp whose instruction has no partner. -/
theorem coissue_transparent_iff_of_lone_producer :
    Related (fun a b => AgreeUpToCoissue a b ↔
        ¬OnlyCdpWaits .sample (.sample 64 1) (ofWarp (.sample { pc := 8, op := .aluOp } 0)))
      ((ofWarp (.sample { pc := 8, op := .aluOp } 0)).cycle .sample
        (SchedConfig.sample 64 1).withoutCoissue)
      ((ofWarp (.sample { pc := 8, op := .aluOp } 0)).cycle .sample (.sample 64 1)) :=
  coissue_transparent_iff (by decide) rfl rfl

/-- A producer warp that waits for a device runtime call: the co-issue fails, and turns an
idle cycle into a waiting one. -/
theorem coissue_counts_cdp_wait :
    ∃ g₁ g₂ flags on off,
      let g := ofWarp (.sample { pc := 8, op := .callOps, isCdp := 1 } 7)
      g.sample .sample (.sample 64 1) = .ok g₁ ∧
        g₁.tryPcCoissue .sample (.sample 64 1) {} = .ok (g₂, flags, false) ∧
        g.cycle .sample (.sample 64 1) = .ok on ∧
        g.cycle .sample (SchedConfig.sample 64 1).withoutCoissue = .ok off ∧
        (on.stats.shaderCycleDistro 0 = 0 ∧ on.stats.shaderCycleDistro 1 = 1) ∧
        off.stats.shaderCycleDistro 0 = 1 ∧ off.stats.shaderCycleDistro 1 = 0 :=
  ⟨_, _, _, _, _, rfl, rfl, rfl, rfl, by decide, by decide, by decide⟩

end Stage
end WaspSim
