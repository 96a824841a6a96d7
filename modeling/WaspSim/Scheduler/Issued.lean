import WaspSim.Scheduler.Fallback
import WaspSim.Scheduler.Outcome

/-!
# The instructions that a cycle issues

An issued instruction fills a register of an output set that was free. Within one
cycle only warps that passed the scoreboard and the queues when they were sampled
fill registers.
-/

namespace WaspSim

variable {Mem Threads Simt Score : Type} {O : Outside Mem Threads Simt Score} {cfg : SchedConfig}

theorem RegisterSet.getFree_spec {regs : RegisterSet} {subCore : Bool} {schedId regId : Nat}
    (h : RegisterSet.getFree regs subCore schedId = .ok regId) : regs[regId]? = some none := by
  unfold RegisterSet.getFree at h
  split at h
  · rw [fetch_eq_ok, List.findIdx?_eq_some_iff_getElem] at h
    obtain ⟨hlt, hnone, _⟩ := h
    rw [List.getElem?_eq_getElem hlt, Option.isNone_iff_eq_none.mp hnone]
  · simp only [bind_eq_ok, fetch_eq_ok, require_eq_ok, pure_eq_ok] at h
    obtain ⟨reg, hreg, _, hnone, rfl⟩ := h
    rw [hreg, Option.isNone_iff_eq_none.mp hnone]

namespace IssueState

variable {c c' c₂ : IssueState Mem Threads Simt Score} {w : Nat} {P Q : Nat → Prop}

/-- Between two cores an instruction of a warp was issued. -/
def Issued (c c' : IssueState Mem Threads Simt Score) (w : Nat) (inst : SchedInst) : Prop :=
  ∃ (port : OutPort) (regId : Nat) (pipe : PipeInst), (c.out port)[regId]? = some none ∧
    (c'.out port)[regId]? = some (some pipe) ∧ pipe.warpId = w ∧ pipe.toSchedInst = inst

/-- Only warps in `P` fill free registers, and no other register changes. -/
def IssuesOnly (P : Nat → Prop) (c c' : IssueState Mem Threads Simt Score) : Prop :=
  ∀ (port : OutPort) (regId : Nat), (c'.out port)[regId]? = (c.out port)[regId]? ∨
    ∃ pipe : PipeInst, (c.out port)[regId]? = some none ∧ (c'.out port)[regId]? = some (some pipe) ∧
      P pipe.warpId

namespace IssuesOnly

theorem of_out_eq (h : c'.out = c.out) : IssuesOnly P c c' := by
  intro port regId
  rw [h]
  exact .inl rfl

theorem trans (h : IssuesOnly P c c₂) (h' : IssuesOnly P c₂ c') : IssuesOnly P c c' := by
  intro port regId
  rcases h port regId with heq | ⟨pipe, hnone, hsome, hp⟩
  · rw [← heq]
    exact h' port regId
  · rcases h' port regId with heq | ⟨_, hnone', _⟩
    · exact .inr ⟨pipe, hnone, heq.trans hsome, hp⟩
    · rw [hsome] at hnone'
      cases hnone'

theorem mono (hle : ∀ w, P w → Q w) (h : IssuesOnly P c c') : IssuesOnly Q c c' := by
  intro port regId
  rcases h port regId with heq | ⟨pipe, hnone, hsome, hp⟩
  · exact .inl heq
  · exact .inr ⟨pipe, hnone, hsome, hle _ hp⟩

/-- A warp that issued is one of them. -/
theorem of_issued (h : IssuesOnly P c c') {inst : SchedInst} (hissued : c.Issued c' w inst) :
    P w := by
  obtain ⟨port, regId, pipe, hnone, hsome, rfl, _⟩ := hissued
  rcases h port regId with heq | ⟨pipe', _, hsome', hp⟩
  · rw [heq, hnone] at hsome
    cases hsome
  · rw [hsome, Option.some.injEq, Option.some.injEq] at hsome'
    rw [hsome']
    exact hp

end IssuesOnly

@[simp] theorem setSchedWarp_out (g : SchedWarp → SchedWarp) : (c.setSchedWarp w g).out = c.out :=
  rfl

theorem waiting_out (w : Nat) : (c.waiting O w).1.out = c.out :=
  (waiting_keeps w w).out_eq

theorem ibufferFlush_out (h : c.ibufferFlush O cfg w = .ok c') : c'.out = c.out := by
  simp only [ibufferFlush, bind_eq_ok, pure_eq_ok, Prod.exists] at h
  obtain ⟨_, _, _, rfl⟩ := h
  rfl

/-- Functional execution leaves the output registers and the warp of the instruction. -/
theorem funcExecInst_out {pipe pipe' : PipeInst}
    (h : c.funcExecInst O cfg pipe = .ok (c', pipe')) :
    c'.out = c.out ∧ pipe'.warpId = pipe.warpId ∧ pipe'.toSchedInst = pipe.toSchedInst := by
  unfold funcExecInst at h
  split at h
  · simp only [bind_eq_ok, pure_eq_ok, Prod.exists, Prod.mk.injEq] at h
    obtain ⟨_, _, _, rfl, rfl⟩ := h
    exact ⟨rfl, rfl, rfl⟩
  · simp only [bind_eq_ok, Prod.exists] at h
    obtain ⟨_, _, _, _, _, _, _, _, _, h⟩ := h
    split at h
    · simp only [pure_eq_ok, Prod.mk.injEq] at h
      obtain ⟨rfl, rfl⟩ := h
      exact ⟨rfl, rfl, rfl⟩
    · rw [bind_eq_ok] at h
      obtain ⟨m, hflush, h⟩ := h
      have hout := ibufferFlush_out hflush
      split at h
      · simp only [bind_eq_ok, pure_eq_ok, Prod.mk.injEq] at h
        obtain ⟨_, _, rfl, rfl⟩ := h
        exact ⟨hout, rfl, rfl⟩
      · simp only [pure_eq_ok, Prod.mk.injEq] at h
        obtain ⟨rfl, rfl⟩ := h
        exact ⟨hout, rfl, rfl⟩

theorem issueBarrier_out {inst : SchedInst} (h : c.issueBarrier O cfg w inst = .ok c') :
    c'.out = c.out := by
  unfold issueBarrier at h
  split at h
  · simp only [bind_eq_ok, pure_eq_ok, Prod.exists] at h
    obtain ⟨_, _, _, rfl⟩ := h
    rfl
  · rw [pure_eq_ok] at h
    subst h
    rfl
  · rw [pure_eq_ok] at h
    rw [h]

/-- `issue_warp` fills one free register, with its own warp. -/
theorem issueWarp_issuesOnly {port : OutPort} {inst : SchedInst} {mask : ActiveMask} {schedId : Nat}
    (h : c.issueWarp O cfg port inst mask w schedId = .ok c') : IssuesOnly (· = w) c c' := by
  simp only [issueWarp, bind_eq_ok, pure_eq_ok, Prod.exists] at h
  obtain ⟨regId, hfree, c₁, pipe, hexec, c₂, hbarrier, rfl⟩ := h
  obtain ⟨hout, hwarp, _⟩ := funcExecInst_out hexec
  have hout₂ := issueBarrier_out hbarrier
  have hnone := RegisterSet.getFree_spec hfree
  have hset : c₂.out = Function.update c.out port ((c.out port).set regId (some pipe)) := by
    rw [hout₂, hout]
    rfl
  intro port' regId'
  simp only [setSchedWarp_out, hset]
  by_cases hport : port' = port
  · subst hport
    rw [Function.update_self]
    by_cases hreg : regId' = regId
    · subst hreg
      have hlt := (List.getElem?_eq_some_iff.mp hnone).1
      exact .inr ⟨pipe, hnone, List.getElem?_set_self hlt, hwarp⟩
    · rw [List.getElem?_set_ne (Ne.symm hreg)]
      exact .inl rfl
  · rw [Function.update_of_ne hport]
    exact .inl rfl

end IssueState

namespace IssueLoop

variable {v v' : IssueLoop Mem Threads Simt Score} {w : Nat}

/-- Acting on a pass fills a register only when it counts an issue. -/
theorem act_issuesOnly {verdict : Verdict} {leave : Bool}
    (h : v.act O cfg w verdict = .ok (v', leave)) :
    IssueState.IssuesOnly (fun u => u = w ∧ v.issued < v'.issued) v.stage.core v'.stage.core := by
  cases verdict with
  | issue port execType inst =>
    simp only [act, Stage.issueWarp, bind_eq_ok, pure_eq_ok, Prod.mk.injEq] at h
    obtain ⟨_, ⟨core, hissue, rfl⟩, rfl, _⟩ := h
    exact (IssueState.issueWarp_issuesOnly hissue).mono fun u hu => ⟨hu, Nat.lt_succ_self _⟩
  | flush pc =>
    simp only [act, bind_eq_ok, pure_eq_ok, Prod.mk.injEq] at h
    obtain ⟨core, hflush, rfl, _⟩ := h
    have hout := IssueState.ibufferFlush_out hflush
    rw [IssueState.setSchedWarp_out] at hout
    exact .of_out_eq hout
  | cdpWait | cdpStart | skip | blocked | held =>
    simp only [act, pure_eq_ok, Prod.mk.injEq] at h
    obtain ⟨rfl, _⟩ := h
    exact .of_out_eq rfl

/-- The loop over the instructions of a warp fills registers only when it counts an issue. -/
theorem run_issuesOnly {n : Nat} (h : run O cfg w n v = .ok v') :
    IssueState.IssuesOnly (fun u => u = w ∧ v.issued < v'.issued) v.stage.core v'.stage.core := by
  induction n generalizing v with
  | zero =>
    rw [run, pure_eq_ok] at h
    subst h
    exact .of_out_eq (IssueState.waiting_out w)
  | succ n ih =>
    simp only [run] at h
    have hwait := IssueState.waiting_out (O := O) (c := v.stage.core) w
    split at h
    · rw [pure_eq_ok] at h
      subst h
      exact .of_out_eq hwait
    · rename_i hgo
      simp only [not_or, Bool.not_eq_true] at hgo
      simp only [bind_eq_ok, Prod.exists] at h
      obtain ⟨core, verdict, hinspect, v₁, leave, hact, h⟩ := h
      have hinspected := (IssueState.inspect_keeps hgo.2.1 hinspect w).out_eq
      have hacted := act_issuesOnly hact
      obtain ⟨_, hissued, _⟩ := act_eq_ok hact
      have hle : v.issued ≤ v₁.issued := hissued ▸ Nat.le_add_right _ _
      have hbefore : IssueState.IssuesOnly (fun u => u = w ∧ v.issued < v₁.issued)
          v.stage.core v₁.stage.core :=
        (IssueState.IssuesOnly.of_out_eq (hinspected.trans hwait)).trans hacted
      split at h
      · rw [pure_eq_ok] at h
        subst h
        exact hbefore
      · have hafter := (run_quiet h).1
        refine (hbefore.mono ?_).trans ((ih h).mono ?_)
        · rintro u ⟨hu, hlt⟩
          exact ⟨hu, hlt.trans_le hafter⟩
        · rintro u ⟨hu, hlt⟩
          exact ⟨hu, hle.trans_lt hlt⟩

end IssueLoop

namespace Stage

variable {g g' : Stage Mem Threads Simt Score}

/-- The loop over the warps: the warp that issues passed its tests in the earlier core `c` in
which all of them were settled. -/
theorem issueWarps_issuesOnly {c : IssueState Mem Threads Simt Score} {flags flags' : IssueFlags}
    {rest : List (Option Nat)} (hnodup : rest.reduceOption.Nodup)
    (hsettled : ∀ w, some w ∈ rest →
      IssueState.Settled O cfg c w ∧ IssueState.KeepsFor O w c g.core)
    (h : g.issueWarps O cfg flags rest = .ok (g', flags')) :
    IssueState.IssuesOnly (fun w => some w ∈ rest ∧ c.Passes O cfg w) g.core g'.core := by
  induction rest generalizing g flags with
  | nil =>
    simp only [issueWarps, pure_eq_ok, Prod.mk.injEq] at h
    obtain ⟨rfl, _⟩ := h
    exact .of_out_eq rfl
  | cons entry rest ih =>
    have hlater : ∀ w, some w ∈ rest ∧ c.Passes O cfg w →
        some w ∈ entry :: rest ∧ c.Passes O cfg w :=
      fun w hw => ⟨List.mem_cons_of_mem _ hw.1, hw.2⟩
    cases entry with
    | none =>
      have htail := ih hnodup (fun w hw => hsettled w (List.mem_cons_of_mem _ hw)) h
      exact htail.mono hlater
    | some w =>
      obtain ⟨hw, hkeepsw⟩ := hsettled w List.mem_cons_self
      rw [List.reduceOption_cons_of_some, List.nodup_cons] at hnodup
      simp only [issueWarps] at h
      split at h
      · have htail := ih hnodup.2 (fun u hu => hsettled u (List.mem_cons_of_mem _ hu)) h
        exact htail.mono hlater
      · rename_i hdone
        have hdone' : g.core.doneExit w = false := by simpa using hdone
        have hgw := hw.mono hkeepsw
        rw [hgw.waiting_eq hdone', bind_eq_ok] at h
        obtain ⟨v, hrun, h⟩ := h
        have hfills := IssueLoop.run_issuesOnly hrun
        rcases IssueLoop.run_spec (v := { stage := g, flags }) rfl rfl hdone' hgw hrun with
          ⟨hpos, _, _, hpasses⟩ | ⟨hzero, _, _, htried⟩
        · rw [if_pos hpos, pure_eq_ok, Prod.mk.injEq] at h
          obtain ⟨rfl, _⟩ := h
          refine hfills.mono ?_
          rintro u ⟨rfl, _⟩
          exact ⟨List.mem_cons_self, (hw.passes_iff hkeepsw).mp hpasses⟩
        · rw [if_neg (by omega)] at h
          have hquiet : IssueState.IssuesOnly
              (fun u => some u ∈ some w :: rest ∧ c.Passes O cfg u) g.core v.stage.core := by
            refine hfills.mono ?_
            rintro u ⟨_, hlt⟩
            dsimp only at hlt
            omega
          have htail := ih hnodup.2 (fun u hu => ?_) h
          · exact hquiet.trans (htail.mono hlater)
          · have hne : u ≠ w := by
              rintro rfl
              exact hnodup.1 (List.reduceOption_mem_iff.mpr hu)
            obtain ⟨hsu, hku⟩ := hsettled u (List.mem_cons_of_mem _ hu)
            exact ⟨hsu, hku.trans (htried.keeps u hne)⟩

/-- The candidates of settled warps are collected from one and the same core. -/
theorem collect_from {c : IssueState Mem Threads Simt Score} {schedId : Nat}
    {rest : List (Option Nat)} {r r' : Collected Mem Threads Simt Score}
    (hsettled : ∀ w, some w ∈ rest → IssueState.Settled O cfg c w) (hcore : r.core = c)
    (h : rest.foldlM (Collected.add O cfg schedId) r = .ok r') :
    r'.core = c ∧ ∀ cand ∈ r'.producers ++ r'.consumers, cand ∈ r.producers ++ r.consumers ∨
      some cand.warpId ∈ rest ∧
        c.collectIssueCandidate O cfg schedId (some cand.warpId) = .ok (c, some cand) := by
  induction rest generalizing r with
  | nil =>
    simp only [foldlM_nil_eq_ok] at h
    subst h
    exact ⟨hcore, fun cand hcand => .inl hcand⟩
  | cons entry rest ih =>
    obtain ⟨m, hadd, hrest⟩ := foldlM_cons_eq_ok.mp h
    have hsame := Collected.core_of_add
      (fun w hw => hcore ▸ hsettled w (by rw [hw]; exact List.mem_cons_self)) hadd
    rw [hcore] at hsame
    obtain ⟨hc, hfrom⟩ := ih (fun w hw => hsettled w (List.mem_cons_of_mem _ hw)) hsame hrest
    refine ⟨hc, fun cand hcand => ?_⟩
    rcases hfrom cand hcand with hmid | ⟨hmem, hfound⟩
    · rcases Collected.mem_of_add hadd hmid with hold | hcollect
      · exact .inl hold
      · rw [hcore, hsame] at hcollect
        obtain ⟨rfl, _⟩ := IssueState.collectIssueCandidate_some hcollect
        exact .inr ⟨List.mem_cons_self, hcollect⟩
    · exact .inr ⟨List.mem_cons_of_mem _ hmem, hfound⟩

/-- A pair that is issued fills registers with its own warps. -/
theorem issuePair_issuesOnly {pair : CoissuePair} (h : g.issuePair O cfg pair = .ok g') :
    IssueState.IssuesOnly (fun w => w = pair.producer.warpId ∨ w = pair.consumer.warpId)
      g.core g'.core := by
  simp only [issuePair, issueWarp, bind_eq_ok, require_eq_ok, pure_eq_ok] at h
  obtain ⟨_, _, _, _, _, ⟨core, hprod, rfl⟩, _, ⟨core', hcons, rfl⟩, rfl⟩ := h
  have hfirst := (IssueState.issueWarp_issuesOnly hprod).mono fun w hw =>
    Or.inl (b := w = pair.consumer.warpId) hw
  have hsecond := (IssueState.issueWarp_issuesOnly hcons).mono fun w hw =>
    Or.inr (a := w = pair.producer.warpId) hw
  exact hfirst.trans hsecond

/-- A co-issue fills registers with warps that passed their tests. -/
theorem tryPcCoissue_issuesOnly {flags flags' : IssueFlags} {coissued : Bool}
    (hsettled : ∀ w, some w ∈ g.sched.prioritized → IssueState.Settled O cfg g.core w)
    (h : g.tryPcCoissue O cfg flags = .ok (g', flags', coissued)) :
    IssueState.IssuesOnly (fun w => some w ∈ g.sched.prioritized ∧ g.core.Passes O cfg w)
      g.core g'.core ∧ (coissued = false → g'.core = g.core ∧ g'.sched = g.sched) := by
  unfold tryPcCoissue at h
  split at h
  · rw [pure_eq_ok, Prod.mk.injEq] at h
    obtain ⟨rfl, _⟩ := h
    exact ⟨.of_out_eq rfl, fun _ => ⟨rfl, rfl⟩⟩
  · simp only [bind_eq_ok] at h
    obtain ⟨r, hcollect, h⟩ := h
    obtain ⟨hcore, hfrom⟩ := collect_from hsettled rfl hcollect
    simp only [List.append_nil, List.not_mem_nil, false_or] at hfrom
    have hpasses : ∀ cand ∈ r.producers ++ r.consumers, ∀ t, cand.target = .ok t →
        some cand.warpId ∈ g.sched.prioritized ∧ g.core.Passes O cfg cand.warpId := by
      intro cand hcand t ht
      obtain ⟨hmem, hfound⟩ := hfrom cand hcand
      obtain ⟨_, hpresents, _⟩ := IssueState.collectIssueCandidate_some hfound
      obtain ⟨hpass, _⟩ := IssueState.collectIssueCandidate_ready hfound ht
      rw [(hsettled _ hmem).next_eq] at hpass
      exact ⟨hmem, cand.inst, hpresents, hpass⟩
    split at h
    · rw [pure_eq_ok, Prod.mk.injEq] at h
      obtain ⟨rfl, _⟩ := h
      exact ⟨.of_out_eq (by rw [hcore]), fun _ => ⟨hcore, rfl⟩⟩
    · rename_i stats pair htry
      simp only [bind_eq_ok, pure_eq_ok, Prod.mk.injEq] at h
      obtain ⟨g₁, hissue, rfl, _, rfl⟩ := h
      obtain ⟨hsound, _⟩ := collect_sound (by simp) hcollect
      obtain ⟨_, _, _, _, hfound⟩ := IssueStats.tryProducers_spec
        (fun prod hprod => hsound prod (List.mem_append_left _ hprod))
        (fun cons hcons => hsound cons (List.mem_append_right _ hcons)) htry
      obtain ⟨prod, hprod, cons, hcons, htest⟩ := hfound pair rfl
      obtain ⟨hp, hc, hpt, hct, _⟩ := testPair_eq_ok htest
      have hfills := issuePair_issuesOnly hissue
      rw [hcore, hp, hc] at hfills
      refine ⟨hfills.mono ?_, fun hfalse => by cases hfalse⟩
      rintro w (rfl | rfl)
      · exact hpasses prod (List.mem_append_left _ hprod) _ hpt
      · exact hpasses cons (List.mem_append_right _ hcons) _ hct

/-- A cycle fills registers with prioritized warps that passed their tests when they were
sampled. -/
theorem cycle_issuesOnly {g₁ : Stage Mem Threads Simt Score} (hsample : g.sample O cfg = .ok g₁)
    (h : g.cycle O cfg = .ok g') :
    IssueState.IssuesOnly (fun w => some w ∈ g.sched.prioritized ∧ g₁.core.Passes O cfg w)
      g.core g'.core := by
  simp only [cycle, hsample, bind_eq_ok, Prod.exists] at h
  obtain ⟨_, heq, g₂, flags, coissued, htry, h⟩ := h
  obtain rfl := Except.ok.inj heq
  obtain ⟨hkeeps, hsettled, hsame⟩ := sample_settles hsample
  obtain ⟨hfills, hfailed⟩ := tryPcCoissue_issuesOnly hsettled htry
  have hsampled : IssueState.IssuesOnly (fun w => some w ∈ g₁.sched.prioritized ∧
      g₁.core.Passes O cfg w) g.core g₁.core := .of_out_eq (hkeeps 0).out_eq
  rw [← hsame]
  cases coissued with
  | true =>
    simp only [↓reduceIte, pure_eq_ok] at h
    subst h
    exact hsampled.trans hfills
  | false =>
    obtain ⟨hcore, hsched⟩ := hfailed rfl
    simp only [Bool.false_eq_true, ↓reduceIte, issueSingle, bind_eq_ok, pure_eq_ok,
      Prod.exists, hsched] at h
    obtain ⟨g₃, flags', hloop, rfl⟩ := h
    have hlater := issueWarps_issuesOnly g₁.sched.prioritized_nodup
      (fun w hw => ⟨hsettled w hw, by rw [hcore]; exact .refl w _⟩) hloop
    rw [hcore] at hlater
    exact (hsampled.trans hlater).trans (.of_out_eq (by rw [countStall_core]))

end Stage
end WaspSim
