import WaspSim.Scheduler.Candidates
import WaspSim.Scheduler.Passes

/-!
# What a cycle counts

A cycle records the pairs that it tried in vain and ends in one outcome: a pair
that issues, the issue of instructions of one warp, or a stalled cycle. The
counters of active lanes and eligible warps are left aside.
-/

namespace WaspSim

variable {Mem Threads Simt Score : Type} {O : Outside Mem Threads Simt Score} {cfg : SchedConfig}

/-- A mask with some lane on counts a lane. -/
theorem activeCount_pos {mask : ActiveMask} (h : mask ≠ 0) : 0 < activeCount mask := by
  rw [activeCount, List.countP_pos_iff]
  by_contra hnone
  push Not at hnone
  apply h
  apply BitVec.eq_of_getLsbD_eq
  intro i hi
  simpa using hnone i (List.mem_range.mpr hi)

/-- How a cycle ends. -/
inductive CycleOutcome where
  | coissue
  /-- `issued` instructions of one warp. -/
  | issue (issued : Nat)
  /-- A stalled cycle, by its bucket of `shader_cycle_distro`. -/
  | stall (bucket : Nat)

namespace CycleOutcome

/-- A cycle ends so. -/
def Possible : CycleOutcome → Prop
  | .coissue => True
  | .issue issued => 0 < issued
  | .stall bucket => bucket < 3

/-- The attempts that succeed. -/
def pairs : CycleOutcome → Nat
  | .coissue => 1
  | _ => 0

end CycleOutcome

/-- A candidate as it is collected: a reason when it is not ready, active lanes when it is. -/
structure IssueCandidate.Sound (cand : IssueCandidate) : Prop where
  reason_ne : ∀ reason, cand.target = .error reason → reason ≠ .none
  activeMask_ne : ∀ target, cand.target = .ok target → target.activeMask ≠ 0

theorem testPair_eq_ok {prod cons : IssueCandidate} {pair : CoissuePair}
    (h : testPair prod cons = .ok pair) :
    pair.producer = prod ∧ pair.consumer = cons ∧ prod.target = .ok pair.producerTarget ∧
      cons.target = .ok pair.consumerTarget ∧
      pair.producerTarget.execType ≠ pair.consumerTarget.execType := by
  simp only [testPair, bind_eq_ok, require_eq_ok, pure_eq_ok] at h
  obtain ⟨t, ht, t', ht', _, hne, rfl⟩ := h
  exact ⟨rfl, rfl, ht, ht', hne⟩

theorem testPair_reason_ne {prod cons : IssueCandidate} {reason : PcCoissueFailReason}
    (hprod : prod.Sound) (hcons : cons.Sound) (h : testPair prod cons = .error reason) :
    reason ≠ .none := by
  unfold testPair at h
  cases htarget : prod.target with
  | error e =>
    rw [htarget] at h
    cases h
    exact hprod.reason_ne _ htarget
  | ok t =>
    cases htarget' : cons.target with
    | error e =>
      rw [htarget, htarget'] at h
      cases h
      exact hcons.reason_ne _ htarget'
    | ok t' =>
      rw [htarget, htarget'] at h
      simp only [bind, Except.bind, require] at h
      split at h
      · rename_i heq
        split at heq
        · cases heq
        · cases heq
          cases h
          split
          · exact PcCoissueFailReason.noConfusion
          · exact PcCoissueFailReason.noConfusion
      · cases h

namespace IssueStats

/-- The counters of issues and stalls. -/
def accounts (s : IssueStats) : IssueStats :=
  { s with
    shaderCycleDistro := fun bucket => if bucket < 3 then s.shaderCycleDistro bucket else 0
    eligibleWarpCount := fun _ => 0
    eligibleWarpSlotCount := fun _ => 0
    eligibleWarpSampleCount := fun _ => 0 }

/-- Attempts that fail for the given reasons. -/
def recordFails (s : IssueStats) (fails : List PcCoissueFailReason) : IssueStats :=
  fails.foldl (fun s reason => s.countAttempt.recordPcCoissueFail reason) s

/-- Count the end of a cycle. -/
def recordOutcome (s : IssueStats) (schedId : Nat) : CycleOutcome → IssueStats
  | .coissue => s.countAttempt.countCoissue schedId
  | .issue issued => s.countIssue schedId issued
  | .stall bucket => s.countDistro bucket

variable {s s' : IssueStats}

@[simp] theorem accounts_sampleEligible (schedId eligible slots : Nat) :
    (s.sampleEligible schedId eligible slots).accounts = s.accounts := rfl

/-- An issue counts no stalled cycle. -/
theorem accounts_countLanes {mask : ActiveMask} (h : mask ≠ 0) :
    (s.countLanes mask).accounts = s.accounts := by
  have hpos := activeCount_pos h
  simp only [accounts, countLanes, countDistro, mk.injEq, true_and, and_true]
  ext bucket
  split
  · have hne : bucket ≠ 2 + activeCount mask := by omega
    exact Function.update_of_ne hne _ _
  · rfl

@[simp] theorem accounts_countCoissue (schedId : Nat) :
    (s.countCoissue schedId).accounts = s.accounts.countCoissue schedId := rfl

@[simp] theorem accounts_countIssue (schedId issued : Nat) :
    (s.countIssue schedId issued).accounts = s.accounts.countIssue schedId issued := by
  unfold countIssue
  split
  · rfl
  · rfl

theorem accounts_countDistro {bucket : Nat} (h : bucket < 3) :
    (s.countDistro bucket).accounts = s.accounts.countDistro bucket := by
  simp only [accounts, countDistro, mk.injEq, true_and, and_true]
  ext i
  by_cases hi : i = bucket
  · simp [hi, h, addAt]
  · simp [addAt, hi]

@[simp] theorem accounts_countAttempt : s.countAttempt.accounts = s.accounts.countAttempt := rfl

@[simp] theorem accounts_recordFails (fails : List PcCoissueFailReason) :
    (s.recordFails fails).accounts = s.accounts.recordFails fails := by
  induction fails generalizing s with
  | nil => rfl
  | cons reason fails ih => exact ih

theorem recordFails_append (fails fails' : List PcCoissueFailReason) :
    s.recordFails (fails ++ fails') = (s.recordFails fails).recordFails fails' :=
  List.foldl_append

/-- The pairs of one producer: those before the one that issues fail for a reason. -/
theorem tryConsumers_spec {prod : IssueCandidate} {consumers : List IssueCandidate}
    {found : Option CoissuePair} (hprod : prod.Sound) (hcons : ∀ cons ∈ consumers, cons.Sound)
    (h : s.tryConsumers prod consumers = (s', found)) :
    ∃ fails, .none ∉ fails ∧ fails.length + found.toList.length ≤ consumers.length ∧
      s' = found.elim (s.recordFails fails) (fun _ => (s.recordFails fails).countAttempt) ∧
      ∀ pair ∈ found, ∃ cons ∈ consumers, testPair prod cons = .ok pair := by
  induction consumers generalizing s with
  | nil =>
    cases h
    exact ⟨[], by simp, by simp, rfl, by simp⟩
  | cons cons rest ih =>
    simp only [tryConsumers] at h
    split at h
    · rename_i pair hpair
      cases h
      exact ⟨[], by simp, by simp, rfl, fun pair' hp =>
        ⟨cons, List.mem_cons_self, (Option.mem_some_iff.mp hp) ▸ hpair⟩⟩
    · rename_i reason hpair
      have hne := testPair_reason_ne hprod (hcons cons List.mem_cons_self) hpair
      obtain ⟨fails, hnone, hlen, hs', hfound⟩ :=
        ih (fun c hc => hcons c (List.mem_cons_of_mem _ hc)) h
      refine ⟨reason :: fails, ?_, ?_, hs', fun pair hp => ?_⟩
      · rw [List.mem_cons, not_or]
        exact ⟨hne.symm, hnone⟩
      · simp only [List.length_cons]
        omega
      · obtain ⟨c, hc, htest⟩ := hfound pair hp
        exact ⟨c, List.mem_cons_of_mem _ hc, htest⟩

/-- All pairs, producer first. -/
theorem tryProducers_spec {consumers producers : List IssueCandidate} {found : Option CoissuePair}
    (hprods : ∀ prod ∈ producers, prod.Sound) (hcons : ∀ cons ∈ consumers, cons.Sound)
    (h : s.tryProducers consumers producers = (s', found)) :
    ∃ fails, .none ∉ fails ∧
      fails.length + found.toList.length ≤ producers.length * consumers.length ∧
      s' = found.elim (s.recordFails fails) (fun _ => (s.recordFails fails).countAttempt) ∧
      ∀ pair ∈ found, ∃ prod ∈ producers, ∃ cons ∈ consumers, testPair prod cons = .ok pair := by
  induction producers generalizing s with
  | nil =>
    cases h
    exact ⟨[], by simp, by simp, rfl, by simp⟩
  | cons prod rest ih =>
    have hprod := hprods prod List.mem_cons_self
    simp only [tryProducers] at h
    split at h
    · rename_i s₁ pair htry
      cases h
      obtain ⟨fails, hnone, hlen, hs', hfound⟩ := tryConsumers_spec hprod hcons htry
      refine ⟨fails, hnone, ?_, hs', fun pair hp => ?_⟩
      · simp only [List.length_cons, Nat.succ_mul]
        omega
      · obtain ⟨c, hc, htest⟩ := hfound pair hp
        exact ⟨prod, List.mem_cons_self, c, hc, htest⟩
    · rename_i s₁ htry
      obtain ⟨fails, hnone, hlen, hs₁, _⟩ := tryConsumers_spec hprod hcons htry
      obtain ⟨fails', hnone', hlen', hs', hfound⟩ :=
        ih (fun p hp => hprods p (List.mem_cons_of_mem _ hp)) h
      subst hs₁
      refine ⟨fails ++ fails', ?_, ?_, ?_, fun pair hp => ?_⟩
      · rw [List.mem_append, not_or]
        exact ⟨hnone, hnone'⟩
      · simp only [List.length_append, List.length_cons, Nat.succ_mul] at hlen ⊢
        simp only [Option.toList_none, List.length_nil] at hlen
        omega
      · rw [recordFails_append]
        exact hs'
      · obtain ⟨p, hp, c, hc, htest⟩ := hfound pair hp
        exact ⟨p, List.mem_cons_of_mem _ hp, c, hc, htest⟩

end IssueStats

namespace IssueState

variable {c c' : IssueState Mem Threads Simt Score}

theorem collectIssueCandidate_sound {schedId : Nat} {entry : Option Nat} {cand : IssueCandidate}
    (h : c.collectIssueCandidate O cfg schedId entry = .ok (c', some cand)) : cand.Sound := by
  constructor
  · intro reason hreason
    rcases collectIssueCandidate_reason h hreason with rfl | rfl | rfl
    · exact PcCoissueFailReason.noConfusion
    · exact PcCoissueFailReason.noConfusion
    · exact PcCoissueFailReason.noConfusion
  · intro target htarget
    obtain ⟨_, _, hmask⟩ := collectIssueCandidate_ready h htarget
    rw [hmask]
    exact O.activeMask_ne_zero _

end IssueState

namespace Stage

variable {g g' : Stage Mem Threads Simt Score}

/-- Collecting sets no `issued_inst`, and no entry gives two candidates. -/
theorem collect_sound {schedId : Nat} {rest : List (Option Nat)}
    {r r' : Collected Mem Threads Simt Score}
    (hsound : ∀ cand ∈ r.producers ++ r.consumers, cand.Sound)
    (h : rest.foldlM (Collected.add O cfg schedId) r = .ok r') :
    (∀ cand ∈ r'.producers ++ r'.consumers, cand.Sound) ∧
      r'.flags.issuedInst = r.flags.issuedInst ∧
      r'.producers.length + r'.consumers.length ≤
        r.producers.length + r.consumers.length + rest.length := by
  induction rest generalizing r with
  | nil =>
    simp only [foldlM_nil_eq_ok] at h
    subst h
    exact ⟨hsound, rfl, by simp⟩
  | cons entry rest ih =>
    obtain ⟨m, hadd, hrest⟩ := foldlM_cons_eq_ok.mp h
    have hmid : ∀ cand ∈ m.producers ++ m.consumers, cand.Sound := by
      intro cand hcand
      rcases Collected.mem_of_add hadd hcand with hold | hcollect
      · exact hsound cand hold
      · exact IssueState.collectIssueCandidate_sound hcollect
    have hflags : m.flags.issuedInst = r.flags.issuedInst ∧
        m.producers.length + m.consumers.length ≤ r.producers.length + r.consumers.length + 1 := by
      obtain ⟨core, _, _, ⟨rfl, rfl⟩ | ⟨x, producer, rfl, _, rfl⟩⟩ := Collected.add_eq_ok hadd
      · exact ⟨rfl, Nat.le_succ _⟩
      · refine ⟨rfl, ?_⟩
        cases producer with
        | true =>
          simp only [↓reduceIte, List.length_append, List.length_singleton]
          omega
        | false =>
          simp only [Bool.false_eq_true, ↓reduceIte, List.length_append, List.length_singleton]
          omega
    obtain ⟨hissued, hlen⟩ := hflags
    obtain ⟨hsound', hissued', hlen'⟩ := ih hmid hrest
    refine ⟨hsound', hissued'.trans hissued, ?_⟩
    simp only [List.length_cons]
    omega

theorem issueWarp_accounts {port : OutPort} {inst : SchedInst} {mask : ActiveMask} {w : Nat}
    (h : g.issueWarp O cfg port inst mask w = .ok g') (hmask : mask ≠ 0) :
    g'.stats.accounts = g.stats.accounts ∧ g'.sched = g.sched := by
  simp only [issueWarp, bind_eq_ok, pure_eq_ok] at h
  obtain ⟨core, _, rfl⟩ := h
  exact ⟨IssueStats.accounts_countLanes hmask, rfl⟩

/-- A pair is counted once. -/
theorem issuePair_accounts {pair : CoissuePair} (h : g.issuePair O cfg pair = .ok g')
    (hprod : pair.producerTarget.activeMask ≠ 0) (hcons : pair.consumerTarget.activeMask ≠ 0) :
    g'.stats.accounts = g.stats.accounts.countCoissue g.sched.id := by
  simp only [issuePair, bind_eq_ok, require_eq_ok, pure_eq_ok] at h
  obtain ⟨_, _, _, _, g₁, hissue, g₂, hissue', rfl⟩ := h
  obtain ⟨h₁, hsched₁⟩ := issueWarp_accounts hissue hprod
  obtain ⟨h₂, hsched₂⟩ := issueWarp_accounts hissue' hcons
  have hid : g₂.sched.id = g.sched.id := by rw [hsched₂, hsched₁]
  have haccounts : g₂.stats.accounts = g.stats.accounts := h₂.trans h₁
  simp only [doOnWarpIssued, IssueStats.accounts_countCoissue, haccounts, hid]

end Stage

namespace IssueLoop

variable {v v' : IssueLoop Mem Threads Simt Score} {w : Nat}

/-- A pass counts at most the lanes of an issue, so it keeps what they do not count for. -/
theorem act_stats {β : Type} {f : IssueStats → β}
    (hf : ∀ s mask, mask ≠ 0 → f (s.countLanes mask) = f s) {verdict : Verdict} {leave : Bool}
    (h : v.act O cfg w verdict = .ok (v', leave)) :
    f v'.stage.stats = f v.stage.stats ∧ v'.stage.sched = v.stage.sched := by
  cases hi : verdict.flags.issuedInst with
  | false =>
    obtain ⟨hstats, hsched, _⟩ := (act_eq_ok h).2.2.2 hi
    rw [hstats, hsched]
    exact ⟨rfl, rfl⟩
  | true =>
    cases verdict with
    | issue port execType inst =>
      simp only [act, Stage.issueWarp, bind_eq_ok, pure_eq_ok, Prod.mk.injEq] at h
      obtain ⟨_, ⟨core, _, rfl⟩, rfl, _⟩ := h
      exact ⟨hf _ _ (O.activeMask_ne_zero _), rfl⟩
    | cdpWait | cdpStart | skip | blocked | held | flush => cases hi

theorem run_stats {β : Type} {f : IssueStats → β}
    (hf : ∀ s mask, mask ≠ 0 → f (s.countLanes mask) = f s) {n : Nat}
    (h : run O cfg w n v = .ok v') :
    f v'.stage.stats = f v.stage.stats ∧ v'.stage.sched = v.stage.sched := by
  induction n generalizing v with
  | zero =>
    simp only [run, pure_eq_ok] at h
    subst h
    exact ⟨rfl, rfl⟩
  | succ n ih =>
    simp only [run] at h
    split at h
    · rw [pure_eq_ok] at h
      subst h
      exact ⟨rfl, rfl⟩
    · simp only [bind_eq_ok, Prod.exists] at h
      obtain ⟨core, verdict, _, v₁, leave, hact, h⟩ := h
      obtain ⟨hstats, hsched⟩ := act_stats hf hact
      split at h
      · rw [pure_eq_ok] at h
        subst h
        exact ⟨hstats, hsched⟩
      · obtain ⟨hstats', hsched'⟩ := ih h
        exact ⟨hstats'.trans hstats, hsched'.trans hsched⟩

/-- A loop that issues nothing more sets no `issued_inst`. -/
theorem run_quiet {n : Nat} (h : run O cfg w n v = .ok v') :
    v.issued ≤ v'.issued ∧
      (v'.issued = v.issued → v'.flags.issuedInst = v.flags.issuedInst) := by
  induction n generalizing v with
  | zero =>
    simp only [run, pure_eq_ok] at h
    exact h ▸ ⟨le_refl _, fun _ => rfl⟩
  | succ n ih =>
    simp only [run] at h
    split at h
    · rw [pure_eq_ok] at h
      exact h ▸ ⟨le_refl _, fun _ => rfl⟩
    · simp only [bind_eq_ok, Prod.exists] at h
      obtain ⟨core, verdict, _, v₁, leave, hact, h⟩ := h
      obtain ⟨hflags, hissued, _⟩ := act_eq_ok hact
      have hle : v.issued ≤ v₁.issued := by
        rw [hissued]
        exact Nat.le_add_right _ _
      have hquiet : v₁.issued = v.issued → v₁.flags.issuedInst = v.flags.issuedInst := by
        intro heq
        cases hv : verdict.flags.issuedInst with
        | false => simp [hflags, IssueFlags.or, hv]
        | true =>
          simp only [hv, Bool.toNat_true] at hissued
          omega
      split at h
      · rw [pure_eq_ok] at h
        exact h ▸ ⟨hle, hquiet⟩
      · obtain ⟨hle', hquiet'⟩ := ih h
        refine ⟨hle.trans hle', fun heq => ?_⟩
        exact (hquiet' (by omega)).trans (hquiet (by omega))

end IssueLoop

namespace Stage

variable {g g' : Stage Mem Threads Simt Score}

/-- The loop over the warps counts one issue and sets all flags, or it counts nothing and
sets no `issued_inst`. -/
theorem issueWarps_accounts {flags flags' : IssueFlags} {rest : List (Option Nat)}
    (hflags : flags.issuedInst = false) (h : g.issueWarps O cfg flags rest = .ok (g', flags')) :
    (∃ issued, 0 < issued ∧ flags' = .all ∧
        g'.stats.accounts = g.stats.accounts.countIssue g.sched.id issued) ∨
      (flags'.issuedInst = false ∧ g'.stats.accounts = g.stats.accounts) := by
  induction rest generalizing g flags with
  | nil =>
    simp only [issueWarps, pure_eq_ok, Prod.mk.injEq] at h
    obtain ⟨rfl, rfl⟩ := h
    exact .inr ⟨hflags, rfl⟩
  | cons entry rest ih =>
    cases entry with
    | none => exact ih hflags h
    | some w =>
      simp only [issueWarps] at h
      split at h
      · exact ih hflags h
      · rw [bind_eq_ok] at h
        obtain ⟨v, hrun, h⟩ := h
        obtain ⟨hstats, hsched⟩ :=
          IssueLoop.run_stats (fun _ _ => IssueStats.accounts_countLanes) hrun
        split at h
        · rename_i hpos
          rw [pure_eq_ok, Prod.mk.injEq] at h
          obtain ⟨rfl, rfl⟩ := h
          have hset := (IssueLoop.run_flagsSet hrun fun hp => absurd hp (Nat.lt_irrefl 0)).1
          refine .inl ⟨v.issued, hpos, hset hpos, ?_⟩
          simp only [finishIssue, IssueStats.accounts_countIssue, hstats, hsched]
        · rename_i hzero
          have hquiet := (IssueLoop.run_quiet hrun).2 (Nat.eq_zero_of_not_pos hzero)
          rcases ih (hquiet.trans hflags) h with
            ⟨issued, hpos, hall, haccounts⟩ | ⟨hnone, haccounts⟩
          · refine .inl ⟨issued, hpos, hall, ?_⟩
            rw [haccounts, hstats, hsched]
          · exact .inr ⟨hnone, haccounts.trans hstats⟩

/-- The end of a cycle after a failed co-issue. -/
theorem issueSingle_accounts {flags : IssueFlags} (hflags : flags.issuedInst = false)
    (h : g.issueSingle O cfg flags = .ok g') :
    ∃ outcome : CycleOutcome, outcome.Possible ∧ outcome.pairs = 0 ∧
      g'.stats.accounts = g.stats.accounts.recordOutcome g.sched.id outcome := by
  simp only [issueSingle, bind_eq_ok, pure_eq_ok, Prod.exists] at h
  obtain ⟨g₁, flags', hloop, rfl⟩ := h
  rcases issueWarps_accounts hflags hloop with ⟨issued, hpos, rfl, haccounts⟩ | ⟨hnone, haccounts⟩
  · exact ⟨.issue issued, hpos, rfl, haccounts⟩
  · have hstall : ∀ bucket < 3, (g₁.stats.countDistro bucket).accounts =
        g.stats.accounts.recordOutcome g.sched.id (.stall bucket) := by
      intro bucket hbucket
      rw [IssueStats.accounts_countDistro hbucket, haccounts]
      rfl
    simp only [countStall, hnone, ↓reduceIte]
    split
    · exact ⟨.stall 0, Nat.succ_pos _, rfl, hstall 0 (by decide)⟩
    · split
      · exact ⟨.stall 1, Nat.le_succ _, rfl, hstall 1 (by decide)⟩
      · exact ⟨.stall 2, Nat.lt_succ_self _, rfl, hstall 2 (by decide)⟩

/-- The attempts of a co-issue, and whether the last one succeeds. -/
theorem tryPcCoissue_accounts {flags : IssueFlags} {coissued : Bool}
    (h : g.tryPcCoissue O cfg {} = .ok (g', flags, coissued)) :
    ∃ fails, .none ∉ fails ∧ fails.length + coissued.toNat ≤ g.sched.prioritized.length ^ 2 ∧
      (coissued = false → flags.issuedInst = false ∧ g'.sched = g.sched ∧
        g'.stats.accounts = g.stats.accounts.recordFails fails) ∧
      (coissued = true → g'.stats.accounts =
        (g.stats.accounts.recordFails fails).recordOutcome g.sched.id .coissue) := by
  unfold tryPcCoissue at h
  split at h
  · rw [pure_eq_ok, Prod.mk.injEq, Prod.mk.injEq] at h
    obtain ⟨rfl, rfl, rfl⟩ := h
    exact ⟨[], by simp, by simp, fun _ => ⟨rfl, rfl, rfl⟩, fun hc => by cases hc⟩
  · rw [bind_eq_ok] at h
    obtain ⟨r, hcollect, h⟩ := h
    obtain ⟨hsound, hissued, hlen⟩ := collect_sound (by simp) hcollect
    simp only [List.length_nil, Nat.zero_add] at hlen
    have hprods : ∀ prod ∈ r.producers, prod.Sound :=
      fun prod hp => hsound prod (List.mem_append_left _ hp)
    have hcons : ∀ cons ∈ r.consumers, cons.Sound :=
      fun cons hc => hsound cons (List.mem_append_right _ hc)
    have harea : r.producers.length * r.consumers.length ≤ g.sched.prioritized.length ^ 2 := by
      rw [sq]
      exact Nat.mul_le_mul (by omega) (by omega)
    split at h
    · rename_i stats htry
      rw [pure_eq_ok, Prod.mk.injEq, Prod.mk.injEq] at h
      obtain ⟨rfl, rfl, rfl⟩ := h
      obtain ⟨fails, hnone, hle, rfl, _⟩ := IssueStats.tryProducers_spec hprods hcons htry
      exact ⟨fails, hnone, hle.trans harea,
        fun _ => ⟨hissued, rfl, IssueStats.accounts_recordFails fails⟩, fun hc => by cases hc⟩
    · rename_i stats pair htry
      rw [bind_eq_ok] at h
      obtain ⟨g₁, hissue, h⟩ := h
      rw [pure_eq_ok, Prod.mk.injEq, Prod.mk.injEq] at h
      obtain ⟨rfl, _, rfl⟩ := h
      obtain ⟨fails, hnone, hle, rfl, hfound⟩ := IssueStats.tryProducers_spec hprods hcons htry
      obtain ⟨prod, hp, cons, hc, htest⟩ := hfound pair rfl
      obtain ⟨_, _, hprod, hcon, _⟩ := testPair_eq_ok htest
      refine ⟨fails, hnone, hle.trans harea, fun hf => (by cases hf), fun _ => ?_⟩
      rw [issuePair_accounts hissue ((hprods prod hp).activeMask_ne _ hprod)
        ((hcons cons hc).activeMask_ne _ hcon)]
      simp only [Option.elim_some, IssueStats.accounts_countAttempt,
        IssueStats.accounts_recordFails]
      rfl

/-- What a cycle counts: its failed attempts, then its outcome. -/
theorem cycle_accounts (h : g.cycle O cfg = .ok g') :
    ∃ (fails : List PcCoissueFailReason) (outcome : CycleOutcome), .none ∉ fails ∧
      fails.length + outcome.pairs ≤ g.sched.prioritized.length ^ 2 ∧ outcome.Possible ∧
      g'.stats.accounts =
        (g.stats.accounts.recordFails fails).recordOutcome g.sched.id outcome := by
  simp only [cycle, bind_eq_ok, Prod.exists] at h
  obtain ⟨g₁, hsample, g₂, flags, coissued, htry, h⟩ := h
  have hsampled : g₁.stats.accounts = g.stats.accounts ∧ g₁.sched = g.sched := by
    simp only [sample, bind_eq_ok, pure_eq_ok, Prod.exists] at hsample
    obtain ⟨core, n, _, rfl⟩ := hsample
    exact ⟨rfl, rfl⟩
  obtain ⟨fails, hnone, hle, hfail, hpair⟩ := tryPcCoissue_accounts htry
  rw [hsampled.1, hsampled.2] at hfail hpair
  rw [hsampled.2] at hle
  cases coissued with
  | true =>
    simp only [↓reduceIte, pure_eq_ok] at h
    subst h
    exact ⟨fails, .coissue, hnone, hle, trivial, hpair rfl⟩
  | false =>
    simp only [Bool.false_eq_true, ↓reduceIte] at h
    obtain ⟨hflags, hsched, haccounts⟩ := hfail rfl
    obtain ⟨outcome, hpossible, hpairs, hstats⟩ := issueSingle_accounts hflags h
    rw [haccounts, hsched] at hstats
    exact ⟨fails, outcome, hnone, by rw [hpairs]; exact hle, hpossible, hstats⟩

end Stage
end WaspSim
