import Mathlib.Algebra.Order.BigOperators.Group.Finset
import WaspSim.Scheduler.Outcome

/-!
# Accounting of issues

Schedulers of any cores take turns on one statistics object. Its counters show an
exact tally of what the cycles counted, wrapped at their widths; the identities
hold of the tally, so they hold of the counters in the counters' own arithmetic.
-/

namespace WaspSim

open Finset

variable {Mem Threads Simt Score : Type} {O : Outside Mem Threads Simt Score} {cfg : SchedConfig}

/-- One cycle of a scheduler: the core that it finds, and its own state. -/
abbrev Turn (Mem Threads Simt Score : Type) := IssueState Mem Threads Simt Score × Scheduler

/-- The pairs of prioritized warps of some turns, which bound the attempts. -/
def Turn.pairs (ts : List (Turn Mem Threads Simt Score)) : Nat :=
  (ts.map fun t => t.2.prioritized.length ^ 2).sum

/-- The cycles of one scheduler of each core. -/
def Turn.ofSched (ts : List (Turn Mem Threads Simt Score)) (schedId : Nat) : Nat :=
  ts.countP fun t => t.2.id == schedId

/-- The statistics after some cycles. -/
def IssueStats.turns (O : Outside Mem Threads Simt Score) (cfg : SchedConfig) (s : IssueStats)
    (ts : List (Turn Mem Threads Simt Score)) : Except Halt IssueStats :=
  ts.foldlM (fun stats t => do
    let g ← Stage.cycle O cfg { core := t.1, stats, sched := t.2 }
    pure g.stats) s

/-- Exact counts, of issues for each scheduler and of failures for each reason. -/
structure Tally where
  single : Nat → Nat := fun _ => 0
  coissued : Nat → Nat := fun _ => 0
  fallback : Nat → Nat := fun _ => 0
  failed : PcCoissueFailReason → Nat := fun _ => 0

namespace Tally

/-- The failures, where an LSU conflict is a conflict of execution units. -/
def failures (t : Tally) : Nat :=
  t.failed .scoreboard + (t.failed .fuConflict + t.failed .lsuLsuConflict) +
    t.failed .structural + t.failed .dispatchPort + t.failed .resultBus

/-- The cycles of a scheduler that issued. -/
def issues (t : Tally) (schedId : Nat) : Nat :=
  t.single schedId + t.coissued schedId + t.fallback schedId

/-- Count one more of something. -/
def bump {ι : Type} [DecidableEq ι] (count : ι → Nat) (i : ι) : ι → Nat :=
  Function.update count i (count i + 1)

theorem bump_apply {ι : Type} [DecidableEq ι] (count : ι → Nat) (i j : ι) :
    bump count i j = count j + if j = i then 1 else 0 := by
  unfold bump
  by_cases h : j = i
  · subst h
    simp
  · simp [h]

theorem sum_bump {n i : Nat} (h : i < n) (count : Nat → Nat) :
    ∑ j ∈ range n, bump count i j = ∑ j ∈ range n, count j + 1 := by
  simp only [bump_apply, sum_add_distrib, sum_ite_eq', mem_range, h, ↓reduceIte]

/-- Count a failed attempt. -/
def fail (t : Tally) (reason : PcCoissueFailReason) : Tally :=
  { t with failed := bump t.failed reason }

/-- Count the end of a cycle. -/
def record (t : Tally) (schedId : Nat) : CycleOutcome → Tally
  | .coissue => { t with coissued := bump t.coissued schedId }
  | .issue issued =>
    if issued = 1 then { t with single := bump t.single schedId }
    else { t with fallback := bump t.fallback schedId }
  | .stall _ => t

theorem failures_fail (t : Tally) {reason : PcCoissueFailReason} (h : reason ≠ .none) :
    (t.fail reason).failures = t.failures + 1 := by
  cases reason with
  | none => exact absurd rfl h
  | scoreboard | fuConflict | lsuLsuConflict | structural | dispatchPort | resultBus =>
    simp [failures, fail, bump_apply]
    omega

theorem failures_record (t : Tally) (schedId : Nat) (outcome : CycleOutcome) :
    (t.record schedId outcome).failures = t.failures := by
  cases outcome with
  | coissue | stall => rfl
  | issue issued =>
    simp only [record]
    split
    · rfl
    · rfl

/-- The attempts that succeed are the co-issued cycles. -/
theorem sum_coissued_record {n schedId : Nat} (h : schedId < n) (t : Tally)
    (outcome : CycleOutcome) :
    ∑ i ∈ range n, (t.record schedId outcome).coissued i =
      ∑ i ∈ range n, t.coissued i + outcome.pairs := by
  cases outcome with
  | coissue => exact sum_bump h t.coissued
  | stall => rfl
  | issue issued =>
    simp only [record]
    split
    · rfl
    · rfl

/-- A cycle issues at most once. -/
theorem issues_record_le (t : Tally) (schedId : Nat) (outcome : CycleOutcome) (i : Nat) :
    (t.record schedId outcome).issues i ≤ t.issues i + if i = schedId then 1 else 0 := by
  cases outcome with
  | coissue =>
    simp only [record, issues, bump_apply]
    omega
  | stall => exact Nat.le_add_right _ _
  | issue issued =>
    simp only [record]
    split
    · simp only [issues, bump_apply]
      omega
    · simp only [issues, bump_apply]
      omega

end Tally

/-- The counters show a tally over `n` schedulers, each wrapped at its width. -/
structure Shows (n : Nat) (s : IssueStats) (t : Tally) : Prop where
  attempts : s.coissue.attempts = u64 (∑ i ∈ range n, t.coissued i + t.failures)
  success : s.coissue.success = u64 (∑ i ∈ range n, t.coissued i)
  scoreboard : s.coissue.failScoreboard = u64 (t.failed .scoreboard)
  fuConflict : s.coissue.failFuConflict =
    u64 (t.failed .fuConflict + t.failed .lsuLsuConflict)
  lsuLsuConflict : s.coissue.failLsuLsuConflict = u64 (t.failed .lsuLsuConflict)
  structural : s.coissue.failStructuralConflict = u64 (t.failed .structural)
  dispatchPort : s.coissue.failDispatchPort = u64 (t.failed .dispatchPort)
  resultBus : s.coissue.failResultBus = u64 (t.failed .resultBus)
  sameWarp : s.sameWarpDualIssueFallback = u64 (∑ i ∈ range n, t.fallback i)
  singleFallback : s.singleIssueFallback = u64 (∑ i ∈ range n, t.single i)
  total : s.totalIssueCount = u64 (∑ i ∈ range n, t.single i +
    (∑ i ∈ range n, t.coissued i + ∑ i ∈ range n, t.fallback i))
  single : s.singleIssueCount = u64 (∑ i ∈ range n, t.single i)
  dual : s.dualIssueCount = u64 (∑ i ∈ range n, t.coissued i + ∑ i ∈ range n, t.fallback i)
  singleNums : ∀ i, s.singleIssueNums i = u32 (t.single i)
  dualNums : ∀ i, s.dualIssueNums i = u32 (t.coissued i + t.fallback i)

theorem u64_succ (m : Nat) : u64 (u64 m + 1) = u64 (m + 1) := by
  unfold u64
  omega

/-- A counter that shows `k` shows `m` after one more. -/
theorem u64_add_one {count k m : Nat} (h : count = u64 k) (hm : m = k + 1) :
    u64 (count + 1) = u64 m := by
  rw [h, hm, u64_succ]

namespace Shows

variable {n schedId : Nat} {s : IssueStats} {t : Tally}

theorem initial (n : Nat) : Shows n {} {} := by
  constructor
  all_goals simp [u64, u32, Tally.failures]

/-- A failed attempt. -/
theorem fail (h : Shows n s t) {reason : PcCoissueFailReason} (hreason : reason ≠ .none) :
    Shows n (s.countAttempt.recordPcCoissueFail reason) (t.fail reason) := by
  have hattempts : u64 (s.coissue.attempts + 1) =
      u64 (∑ i ∈ range n, (t.fail reason).coissued i + (t.fail reason).failures) :=
    u64_add_one h.attempts (by rw [t.failures_fail hreason]; rfl)
  cases reason with
  | none => exact absurd rfl hreason
  | scoreboard =>
    exact { h with attempts := hattempts, scoreboard := u64_add_one h.scoreboard rfl }
  | fuConflict =>
    exact { h with
      attempts := hattempts
      fuConflict := u64_add_one h.fuConflict (Nat.add_right_comm _ _ _) }
  | lsuLsuConflict =>
    exact { h with
      attempts := hattempts
      fuConflict := u64_add_one h.fuConflict rfl
      lsuLsuConflict := u64_add_one h.lsuLsuConflict rfl }
  | structural =>
    exact { h with attempts := hattempts, structural := u64_add_one h.structural rfl }
  | dispatchPort =>
    exact { h with attempts := hattempts, dispatchPort := u64_add_one h.dispatchPort rfl }
  | resultBus =>
    exact { h with attempts := hattempts, resultBus := u64_add_one h.resultBus rfl }

/-- Counting one more issue of a scheduler. -/
private theorem nums {nums count count' : Nat → Nat} (h : ∀ i, nums i = u32 (count i))
    (hcount : ∀ i, count' i = count i + if i = schedId then 1 else 0) (i : Nat) :
    addAt u32 nums schedId 1 i = u32 (count' i) := by
  rw [hcount]
  unfold addAt
  by_cases hi : i = schedId
  · subst hi
    rw [Function.update_self, if_pos rfl, h, u32_succ]
  · rw [Function.update_of_ne hi, if_neg hi, h, Nat.add_zero]

/-- The end of a cycle. -/
theorem record (h : Shows n s t) (hid : schedId < n) (outcome : CycleOutcome) :
    Shows n (s.recordOutcome schedId outcome) (t.record schedId outcome) := by
  cases outcome with
  | coissue =>
    have hsum := Tally.sum_bump hid t.coissued
    refine { h with
      attempts := u64_add_one h.attempts ?_
      success := u64_add_one h.success hsum
      total := u64_add_one h.total ?_
      dual := u64_add_one h.dual ?_
      dualNums := nums h.dualNums fun i => ?_ }
    · simp only [Tally.record, hsum, Tally.failures]
      omega
    · simp only [Tally.record, hsum]
      omega
    · simp only [Tally.record, hsum]
      omega
    · simp only [Tally.record, Tally.bump_apply]
      omega
  | issue issued =>
    by_cases hone : issued = 1
    · have hsum := Tally.sum_bump hid t.single
      simp only [IssueStats.recordOutcome, IssueStats.countIssue, Tally.record, hone, ↓reduceIte]
      refine { h with
        singleFallback := u64_add_one h.singleFallback hsum
        total := u64_add_one h.total ?_
        single := u64_add_one h.single hsum
        singleNums := nums h.singleNums (Tally.bump_apply _ _) }
      simp only [hsum]
      omega
    · have hsum := Tally.sum_bump hid t.fallback
      simp only [IssueStats.recordOutcome, IssueStats.countIssue, Tally.record, hone, ↓reduceIte]
      refine { h with
        sameWarp := u64_add_one h.sameWarp hsum
        total := u64_add_one h.total ?_
        dual := u64_add_one h.dual ?_
        dualNums := nums h.dualNums fun i => ?_ }
      · simp only [hsum]
        omega
      · simp only [hsum]
        omega
      · simp only [Tally.bump_apply]
        omega
  | stall bucket => exact { h with }

end Shows

/-- The counters of which a cycle adds to one. -/
inductive CycleBucket where
  | single
  | dual
  | idle
  | waiting
  | stalled

/-- The width of the counter. -/
def CycleBucket.wrap : CycleBucket → Nat → Nat
  | .single | .dual => u64
  | .idle | .waiting | .stalled => u32

namespace IssueStats

/-- The counter of a bucket. -/
def bucket (s : IssueStats) : CycleBucket → Nat
  | .single => s.singleIssueCount
  | .dual => s.dualIssueCount
  | .idle => s.shaderCycleDistro 0
  | .waiting => s.shaderCycleDistro 1
  | .stalled => s.shaderCycleDistro 2

/-- The statistics `s'` count one more in a single bucket. -/
def AddsToOne (s s' : IssueStats) : Prop :=
  ∃ b : CycleBucket, s'.bucket b = b.wrap (s.bucket b + 1) ∧
    ∀ other, other ≠ b → s'.bucket other = s.bucket other

variable {s : IssueStats}

theorem bucket_accounts (b : CycleBucket) : s.accounts.bucket b = s.bucket b := by
  cases b with
  | single | dual | idle | waiting | stalled => rfl

/-- Failed attempts count in no bucket. -/
theorem bucket_recordFails (fails : List PcCoissueFailReason) (b : CycleBucket) :
    (s.recordFails fails).bucket b = s.bucket b := by
  induction fails generalizing s with
  | nil => rfl
  | cons reason fails ih =>
    refine ih.trans ?_
    cases b with
    | single | dual | idle | waiting | stalled => rfl

/-- The end of a cycle counts in one bucket. -/
theorem addsToOne_recordOutcome {outcome : CycleOutcome} (h : outcome.Possible) (schedId : Nat) :
    s.AddsToOne (s.recordOutcome schedId outcome) := by
  cases outcome with
  | coissue =>
    refine ⟨.dual, rfl, fun other hother => ?_⟩
    cases other with
    | dual => exact absurd rfl hother
    | single | idle | waiting | stalled => rfl
  | issue issued =>
    simp only [recordOutcome, countIssue]
    split
    · refine ⟨.single, rfl, fun other hother => ?_⟩
      cases other with
      | single => exact absurd rfl hother
      | dual | idle | waiting | stalled => rfl
    · refine ⟨.dual, rfl, fun other hother => ?_⟩
      cases other with
      | dual => exact absurd rfl hother
      | single | idle | waiting | stalled => rfl
  | stall k =>
    match k, h with
    | 0, _ =>
      refine ⟨.idle, rfl, fun other hother => ?_⟩
      cases other with
      | idle => exact absurd rfl hother
      | single | dual | waiting | stalled => rfl
    | 1, _ =>
      refine ⟨.waiting, rfl, fun other hother => ?_⟩
      cases other with
      | waiting => exact absurd rfl hother
      | single | dual | idle | stalled => rfl
    | 2, _ =>
      refine ⟨.stalled, rfl, fun other hother => ?_⟩
      cases other with
      | stalled => exact absurd rfl hother
      | single | dual | idle | waiting => rfl

end IssueStats

namespace Stage

variable {g g' : Stage Mem Threads Simt Score}

/-- A cycle counts as one issue or one stall. -/
theorem cycle_addsToOne (h : g.cycle O cfg = .ok g') : g.stats.AddsToOne g'.stats := by
  obtain ⟨fails, outcome, _, _, hpossible, haccounts⟩ := cycle_accounts h
  obtain ⟨b, hself, hothers⟩ := IssueStats.addsToOne_recordOutcome hpossible g.sched.id
  rw [← haccounts] at hself hothers
  simp only [IssueStats.bucket_accounts, IssueStats.bucket_recordFails] at hself hothers
  exact ⟨b, hself, hothers⟩

end Stage

namespace Shows

variable {n : Nat} {s s' : IssueStats} {t : Tally}

theorem accounts_iff : Shows n s.accounts t ↔ Shows n s t :=
  ⟨fun h => { h with }, fun h => { h with }⟩

theorem recordFails (h : Shows n s t) {fails : List PcCoissueFailReason} (hnone : .none ∉ fails) :
    ∃ t', Shows n (s.recordFails fails) t' ∧ t'.failures = t.failures + fails.length ∧
      t'.single = t.single ∧ t'.coissued = t.coissued ∧ t'.fallback = t.fallback := by
  induction fails generalizing s t with
  | nil => exact ⟨t, h, rfl, rfl, rfl, rfl⟩
  | cons reason fails ih =>
    rw [List.mem_cons, not_or] at hnone
    obtain ⟨t', ht', hlen, hrest⟩ := ih (h.fail (Ne.symm hnone.1)) hnone.2
    refine ⟨t', ht', ?_, hrest⟩
    rw [hlen, t.failures_fail (Ne.symm hnone.1), List.length_cons]
    omega

/-- One cycle: its tally, and how much it adds. -/
theorem cycle {g g' : Stage Mem Threads Simt Score} (h : Shows n g.stats t)
    (hid : g.sched.id < n) (hcycle : g.cycle O cfg = .ok g') :
    ∃ t', Shows n g'.stats t' ∧
      ∑ i ∈ range n, t'.coissued i + t'.failures ≤
        ∑ i ∈ range n, t.coissued i + t.failures + g.sched.prioritized.length ^ 2 ∧
      ∑ i ∈ range n, t'.issues i ≤ ∑ i ∈ range n, t.issues i + 1 ∧
      ∀ i, t'.issues i ≤ t.issues i + if i = g.sched.id then 1 else 0 := by
  obtain ⟨fails, outcome, hnone, hle, _, haccounts⟩ := Stage.cycle_accounts hcycle
  obtain ⟨t₁, ht₁, hfailures, hsingle, hcoissued, hfallback⟩ :=
    (accounts_iff.mpr h).recordFails hnone
  have hshows := ht₁.record hid outcome
  rw [← haccounts, accounts_iff] at hshows
  have hissues : ∀ i, t₁.issues i = t.issues i := by
    intro i
    simp only [Tally.issues, hsingle, hcoissued, hfallback]
  have hadds : ∀ i, (t₁.record g.sched.id outcome).issues i ≤
      t.issues i + if i = g.sched.id then 1 else 0 := by
    intro i
    rw [← hissues]
    exact t₁.issues_record_le g.sched.id outcome i
  refine ⟨_, hshows, ?_, ?_, hadds⟩
  · rw [Tally.sum_coissued_record hid, Tally.failures_record, hcoissued, hfailures]
    omega
  · refine (sum_le_sum fun i _ => hadds i).trans (le_of_eq ?_)
    simp only [sum_add_distrib, sum_ite_eq', mem_range, hid, ↓reduceIte]

/-- The tally of a run, and how much the run adds to it. -/
theorem turns {ts : List (Turn Mem Threads Simt Score)} (h : Shows n s t)
    (hids : ∀ turn ∈ ts, turn.2.id < n) (hrun : s.turns O cfg ts = .ok s') :
    ∃ t', Shows n s' t' ∧
      ∑ i ∈ range n, t'.coissued i + t'.failures ≤
        ∑ i ∈ range n, t.coissued i + t.failures + Turn.pairs ts ∧
      ∑ i ∈ range n, t'.issues i ≤ ∑ i ∈ range n, t.issues i + ts.length ∧
      ∀ i, t'.issues i ≤ t.issues i + Turn.ofSched ts i := by
  induction ts generalizing s t with
  | nil =>
    simp only [IssueStats.turns, foldlM_nil_eq_ok] at hrun
    subst hrun
    exact ⟨t, h, Nat.le_add_right _ _, Nat.le_add_right _ _, fun i => Nat.le_add_right _ _⟩
  | cons turn ts ih =>
    obtain ⟨s₁, hcycle, hrest⟩ := foldlM_cons_eq_ok.mp hrun
    rw [bind_eq_ok] at hcycle
    obtain ⟨g, hcycle, heq⟩ := hcycle
    rw [pure_eq_ok] at heq
    subst heq
    obtain ⟨t₁, ht₁, hpairs, hsum, hissues⟩ := h.cycle (hids turn List.mem_cons_self) hcycle
    dsimp only at hpairs hissues
    obtain ⟨t', ht', hpairs', hsum', hissues'⟩ :=
      ih ht₁ (fun u hu => hids u (List.mem_cons_of_mem _ hu)) hrest
    refine ⟨t', ht', ?_, ?_, fun i => ?_⟩
    · simp only [Turn.pairs, List.map_cons, List.sum_cons] at hpairs' ⊢
      omega
    · simp only [List.length_cons]
      omega
    · have h₁ := hissues i
      have h₂ := hissues' i
      simp only [Turn.ofSched, List.countP_cons, beq_iff_eq, @eq_comm _ turn.2.id] at h₁ h₂ ⊢
      omega

end Shows

namespace IssueStats

/-- The identities between the counters, in the arithmetic of the counters. -/
structure Balanced (n : Nat) (s : IssueStats) : Prop where
  total_eq : s.totalIssueCount = u64 (s.singleIssueCount + s.dualIssueCount)
  dual_eq : s.dualIssueCount = u64 (s.coissue.success + s.sameWarpDualIssueFallback)
  single_eq : s.singleIssueCount = s.singleIssueFallback
  singleNums_eq : u32 (∑ i ∈ range n, s.singleIssueNums i) = u32 s.singleIssueCount
  dualNums_eq : u32 (∑ i ∈ range n, s.dualIssueNums i) = u32 s.dualIssueCount
  attempts_eq : s.coissue.attempts = u64 (s.coissue.success + (s.coissue.failScoreboard +
    s.coissue.failFuConflict + s.coissue.failStructuralConflict + s.coissue.failDispatchPort +
    s.coissue.failResultBus))

/-- The identities between the counters as numbers. -/
structure Exact (n : Nat) (s : IssueStats) : Prop where
  total_eq : s.totalIssueCount = s.singleIssueCount + s.dualIssueCount
  dual_eq : s.dualIssueCount = s.coissue.success + s.sameWarpDualIssueFallback
  single_eq : s.singleIssueCount = s.singleIssueFallback
  singleNums_eq : ∑ i ∈ range n, s.singleIssueNums i = s.singleIssueCount
  dualNums_eq : ∑ i ∈ range n, s.dualIssueNums i = s.dualIssueCount
  attempts_eq : s.coissue.attempts = s.coissue.success + (s.coissue.failScoreboard +
    s.coissue.failFuConflict + s.coissue.failStructuralConflict + s.coissue.failDispatchPort +
    s.coissue.failResultBus)

end IssueStats

namespace Shows

variable {n : Nat} {s : IssueStats} {t : Tally}

/-- Counters of schedulers add up modulo their width. -/
private theorem sum_nums {nums count : Nat → Nat} (h : ∀ i, nums i = u32 (count i)) {total : Nat}
    (htotal : total = u64 (∑ i ∈ range n, count i)) : u32 (∑ i ∈ range n, nums i) = u32 total := by
  have hsum : u32 (∑ i ∈ range n, nums i) = u32 (∑ i ∈ range n, count i) := by
    simp only [h, u32]
    exact (sum_nat_mod _ _ _).symm
  rw [hsum, htotal, u32, u32, u64]
  omega

theorem balanced (h : Shows n s t) : s.Balanced n where
  total_eq := by
    rw [h.total, h.single, h.dual]
    unfold u64
    omega
  dual_eq := by
    rw [h.dual, h.success, h.sameWarp]
    unfold u64
    omega
  single_eq := h.single.trans h.singleFallback.symm
  singleNums_eq := sum_nums h.singleNums h.single
  dualNums_eq := sum_nums h.dualNums (h.dual.trans (by rw [sum_add_distrib]))
  attempts_eq := by
    rw [h.attempts, h.success, h.scoreboard, h.fuConflict, h.structural, h.dispatchPort,
      h.resultBus, Tally.failures]
    unfold u64
    omega

/-- A conflict of two memory instructions also counts as one of execution units. -/
theorem lsuLsuConflict_le (h : Shows n s t) (hfailures : t.failures < 2 ^ 64) :
    s.coissue.failLsuLsuConflict ≤ s.coissue.failFuConflict := by
  rw [h.lsuLsuConflict, h.fuConflict, u64, u64]
  unfold Tally.failures at hfailures
  omega

theorem exact (h : Shows n s t) (hattempts : ∑ i ∈ range n, t.coissued i + t.failures < 2 ^ 64)
    (hissues : ∑ i ∈ range n, t.issues i < 2 ^ 64) (hsched : ∀ i, t.issues i < 2 ^ 32) :
    s.Exact n := by
  simp only [Tally.issues, sum_add_distrib] at hissues hsched
  have hsingle : ∀ i, s.singleIssueNums i = t.single i := by
    intro i
    have hi := hsched i
    rw [h.singleNums, u32_eq_self (by omega)]
  have hdual : ∀ i, s.dualIssueNums i = t.coissued i + t.fallback i := by
    intro i
    have hi := hsched i
    rw [h.dualNums, u32_eq_self (by omega)]
  unfold Tally.failures at hattempts
  constructor
  · rw [h.total, h.single, h.dual, u64, u64, u64]
    omega
  · rw [h.dual, h.success, h.sameWarp, u64, u64, u64]
    omega
  · exact h.single.trans h.singleFallback.symm
  · simp only [hsingle, h.single, u64]
    omega
  · simp only [hdual, h.dual, u64, sum_add_distrib]
    omega
  · rw [h.attempts, h.success, h.scoreboard, h.fuConflict, h.structural, h.dispatchPort,
      h.resultBus, Tally.failures]
    unfold u64
    omega

end Shows

/-- Issue accounting on every run of schedulers that share one statistics object. -/
theorem IssueStats.issue_accounting {ts : List (Turn Mem Threads Simt Score)} {s : IssueStats}
    (hids : ∀ turn ∈ ts, turn.2.id < cfg.gpgpuNumSchedPerCore)
    (hrun : ({} : IssueStats).turns O cfg ts = .ok s) :
    s.Balanced cfg.gpgpuNumSchedPerCore ∧
      (Turn.pairs ts < 2 ^ 64 → s.coissue.failLsuLsuConflict ≤ s.coissue.failFuConflict) ∧
      (ts.length < 2 ^ 64 → Turn.pairs ts < 2 ^ 64 → (∀ i, Turn.ofSched ts i < 2 ^ 32) →
        s.Exact cfg.gpgpuNumSchedPerCore) ∧
      ∀ g g' : Stage Mem Threads Simt Score, g.cycle O cfg = .ok g' →
        g.stats.AddsToOne g'.stats := by
  obtain ⟨t, ht, hpairs, hsum, hissues⟩ := (Shows.initial cfg.gpgpuNumSchedPerCore).turns hids hrun
  have hzero : ({} : Tally).failures = 0 := rfl
  have hnone : ∀ i, ({} : Tally).issues i = 0 := fun _ => rfl
  simp only [hzero, hnone, sum_const_zero, Nat.zero_add] at hpairs hsum hissues
  refine ⟨ht.balanced, fun hp => ht.lsuLsuConflict_le (by omega), fun hlen hp hsched => ?_,
    fun g g' hcycle => Stage.cycle_addsToOne hcycle⟩
  exact ht.exact (by omega) (by omega) fun i => (hissues i).trans_lt (hsched i)

/-- A scheduler whose only warp issues one instruction. -/
def Turn.lone : Turn Unit Unit Nat Unit :=
  (.sample .sample 0, (Stage.ofWarp (.sample .sample 0)).sched)

/-- A scheduler of warps 0 and 1, which present an instruction each. -/
def Turn.two (a b : SchedInst) : Turn Unit Unit Nat Unit :=
  let c := IssueState.sample a 0
  let core := { c with
    shader := c.shader.setWarp 1 fun v =>
      { v with running := 32, registered := 32, instInPipeline := 1, doneExit := false }
    schedWarps := Function.update c.schedWarps 1 ((IssueState.sample b 0).schedWarps 0)
    simtStack := Function.update (fun _ => b.pc) 0 a.pc }
  (core, (Stage.ofPair core).sched)

/-- A scheduler whose only warp finds no output register free. -/
def Turn.stalled : Turn Unit Unit Nat Unit :=
  ({ Turn.lone.1 with out := fun _ => [] }, Turn.lone.2)

namespace IssueStats

/-- A cycle that issues one instruction, from any counters. -/
theorem turns_lone_cons (s : IssueStats) (ts : List (Turn Unit Unit Nat Unit)) :
    ∃ s' : IssueStats,
      s.turns .sample (.sample 64 1) (.lone :: ts) = s'.turns .sample (.sample 64 1) ts ∧
      s'.singleIssueNums 0 = u32 (s.singleIssueNums 0 + 1) ∧
      s'.singleIssueCount = u64 (s.singleIssueCount + 1) :=
  ⟨_, rfl, rfl, rfl⟩

/-- Cycles that each issue one instruction. -/
theorem turns_lone_replicate (n : Nat) {k : Nat} {s : IssueStats}
    (hnums : s.singleIssueNums 0 = u32 k) (hcount : s.singleIssueCount = u64 k) :
    ∃ s' : IssueStats, s.turns .sample (.sample 64 1) (List.replicate n .lone) = .ok s' ∧
      s'.singleIssueNums 0 = u32 (k + n) ∧ s'.singleIssueCount = u64 (k + n) := by
  induction n generalizing k s with
  | zero => exact ⟨s, rfl, hnums, hcount⟩
  | succ n ih =>
    obtain ⟨s₁, hrun, hnums₁, hcount₁⟩ := s.turns_lone_cons (List.replicate n .lone)
    rw [hnums, u32_succ] at hnums₁
    rw [hcount, u64_succ] at hcount₁
    obtain ⟨s', hrun', hnums', hcount'⟩ := ih hnums₁ hcount₁
    refine ⟨s', hrun.trans hrun', ?_, ?_⟩
    · rw [hnums', Nat.add_assoc, Nat.add_comm 1]
    · rw [hcount', Nat.add_assoc, Nat.add_comm 1]

/-- A single issue, a pair, a pair of memory instructions of which one issues, and a stall. -/
theorem issue_accounting_of_turns :
    ∃ s, ({} : IssueStats).turns .sample (.sample 64 1)
        [.lone, .two { pc := 8, op := .aluOp } { pc := 16, op := .loadOp },
          .two { pc := 8, op := .loadOp } { pc := 16, op := .loadOp }, .stalled] = .ok s ∧
      (s.singleIssueCount = 2 ∧ s.coissue.attempts = 2 ∧ s.coissue.success = 1 ∧
        s.coissue.failLsuLsuConflict = 1 ∧ s.shaderCycleDistro 2 = 1) ∧
      s.Balanced 1 ∧ s.coissue.failLsuLsuConflict ≤ s.coissue.failFuConflict ∧ s.Exact 1 := by
  have hcounts : (fun s : IssueStats => (s.singleIssueCount, s.coissue.attempts,
      s.coissue.success, s.coissue.failLsuLsuConflict, s.shaderCycleDistro 2)) <$>
        ({} : IssueStats).turns .sample (.sample 64 1)
          [.lone, .two { pc := 8, op := .aluOp } { pc := 16, op := .loadOp },
            .two { pc := 8, op := .loadOp } { pc := 16, op := .loadOp }, .stalled] =
      .ok (2, 2, 1, 1, 1) := by
    decide +kernel
  obtain ⟨s, hrun, heq⟩ := map_eq_ok.mp hcounts
  obtain ⟨hbalanced, hlsu, hexact, _⟩ := issue_accounting (by decide) hrun
  simp only [Prod.mk.injEq] at heq
  exact ⟨s, hrun, heq, hbalanced, hlsu (by decide), hexact (by decide) (by decide) fun i =>
    List.countP_le_length.trans_lt (by decide)⟩

/-- The counter of one scheduler wraps at 32 bits, the counter of all of them does not. -/
theorem singleIssueNums_wrap :
    ∃ (ts : List (Turn Unit Unit Nat Unit)) (s : IssueStats),
      (∀ turn ∈ ts, turn.2.id < (SchedConfig.sample 64 1).gpgpuNumSchedPerCore) ∧
        ({} : IssueStats).turns .sample (.sample 64 1) ts = .ok s ∧
        ∑ i ∈ range (SchedConfig.sample 64 1).gpgpuNumSchedPerCore, s.singleIssueNums i ≠
          s.singleIssueCount := by
  obtain ⟨s, hrun, hnums, hcount⟩ := turns_lone_replicate (2 ^ 32) (k := 0) (s := {}) rfl rfl
  refine ⟨_, s, ?_, hrun, ?_⟩
  · intro turn hturn
    rw [List.eq_of_mem_replicate hturn]
    decide
  · have hsum : ∑ i ∈ range (SchedConfig.sample 64 1).gpgpuNumSchedPerCore, s.singleIssueNums i =
        s.singleIssueNums 0 := sum_range_one _
    rw [hsum, hnums, hcount]
    decide

end IssueStats
end WaspSim
