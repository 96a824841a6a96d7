import WaspSim.Scheduler.Eligible
import WaspSim.Scheduler.Transparency

/-!
# The eligible fraction

Schedulers of any cores take turns on one statistics object. Each turn orders the
warps, samples the eligible ones and issues; the counters of eligible warps stay
below those of slots as long as every order has its slots.
-/

namespace WaspSim

variable {Mem Threads Simt Score : Type} {O : Outside Mem Threads Simt Score} {cfg : SchedConfig}

namespace IssueStats

/-- The counters of eligible warps and of slots. -/
def sampled (s : IssueStats) : (Nat → Nat) × (Nat → Nat) :=
  (s.eligibleWarpCount, s.eligibleWarpSlotCount)

@[simp] theorem sampled_countLanes (s : IssueStats) (mask : ActiveMask) :
    (s.countLanes mask).sampled = s.sampled := rfl

@[simp] theorem sampled_countIssue (s : IssueStats) (schedId issued : Nat) :
    (s.countIssue schedId issued).sampled = s.sampled := by
  unfold countIssue
  split
  · rfl
  · rfl

end IssueStats

namespace Stage

variable {g g' : Stage Mem Threads Simt Score}

/-- The loop over the warps samples nothing. -/
theorem issueWarps_sampled {flags flags' : IssueFlags} {rest : List (Option Nat)}
    (h : g.issueWarps O cfg flags rest = .ok (g', flags')) :
    g'.stats.sampled = g.stats.sampled := by
  induction rest generalizing g flags with
  | nil =>
    simp only [issueWarps, pure_eq_ok, Prod.mk.injEq] at h
    rw [h.1]
  | cons entry rest ih =>
    cases entry with
    | none => exact ih h
    | some w =>
      simp only [issueWarps] at h
      split at h
      · exact ih h
      · rw [bind_eq_ok] at h
        obtain ⟨v, hrun, h⟩ := h
        obtain ⟨hstats, _⟩ :=
          IssueLoop.run_stats (fun s mask _ => s.sampled_countLanes mask) hrun
        split at h
        · rw [pure_eq_ok, Prod.mk.injEq] at h
          rw [← h.1]
          exact (IssueStats.sampled_countIssue _ _ _).trans hstats
        · exact (ih h).trans hstats

/-- A co-issue samples nothing. -/
theorem tryPcCoissue_sampled {flags flags' : IssueFlags} {coissued : Bool}
    (h : g.tryPcCoissue O cfg flags = .ok (g', flags', coissued)) :
    g'.stats.sampled = g.stats.sampled := by
  unfold tryPcCoissue at h
  split at h
  · rw [pure_eq_ok, Prod.mk.injEq] at h
    rw [h.1]
  · rw [bind_eq_ok] at h
    obtain ⟨r, _, h⟩ := h
    obtain ⟨k, hk⟩ := tryProducers_stats g.stats r.consumers r.producers
    split at h
    · rename_i stats heq
      rw [heq] at hk
      rw [pure_eq_ok, Prod.mk.injEq] at h
      rw [← h.1, show stats = { g.stats with coissue := k } from hk]
      rfl
    · rename_i stats pair heq
      rw [heq] at hk
      simp only [issuePair, issueWarp, bind_eq_ok, pure_eq_ok, Prod.mk.injEq] at h
      obtain ⟨_, ⟨_, _, _, _, _, ⟨_, _, rfl⟩, _, ⟨_, _, rfl⟩, rfl⟩, rfl, _⟩ := h
      rw [show stats = { g.stats with coissue := k } from hk]
      rfl

theorem countStall_sampled (g : Stage Mem Threads Simt Score) (flags : IssueFlags) :
    (g.countStall flags).stats.sampled = g.stats.sampled := by
  rcases countStall_cases flags with hnone | ⟨i, hcount⟩
  · rw [hnone]
  · rw [hcount]
    rfl

/-- A cycle samples once. -/
theorem cycle_sampled {g₁ : Stage Mem Threads Simt Score} (hsample : g.sample O cfg = .ok g₁)
    (h : g.cycle O cfg = .ok g') : g'.stats.sampled = g₁.stats.sampled := by
  simp only [cycle, hsample, bind_eq_ok, Prod.exists] at h
  obtain ⟨_, heq, g₂, flags, coissued, htry, h⟩ := h
  obtain rfl := Except.ok.inj heq
  have hfirst := tryPcCoissue_sampled htry
  cases coissued with
  | true =>
    simp only [↓reduceIte, pure_eq_ok] at h
    rw [← h, hfirst]
  | false =>
    simp only [Bool.false_eq_true, ↓reduceIte, issueSingle, bind_eq_ok, pure_eq_ok,
      Prod.exists] at h
    obtain ⟨g₃, flags', hloop, rfl⟩ := h
    rw [countStall_sampled, issueWarps_sampled hloop, hfirst]

end Stage

namespace SchedulerUnit

/-- What `cycle` uses of a scheduler class after `order_warps`. -/
def ordered (u : SchedulerUnit) (ws : List Nat) (hnodup : ws.Nodup) : Scheduler where
  id := u.id
  prioritized := ws.map some
  prioritized_nodup := by
    simpa [List.reduceOption, List.filterMap_map] using hnodup
  supervised := u.supervised
  lastSupervisedIssued := u.lastSupervisedIssued
  numIssuedLastCycle := u.numIssuedLastCycle

/-- `cycle` of a scheduler class: the core and the counters after it, with the scheduler's
state in the form that the issue stage reads. -/
def cycle (O : Outside Mem Threads Simt Score) (cfg : SchedConfig) (order : OrderOracle Score)
    (u : SchedulerUnit) (c : IssueState Mem Threads Simt Score) (stats : IssueStats) :
    Except Halt (Stage Mem Threads Simt Score) :=
  match h : u.orderWarps O cfg order c with
  | .error e => .error e
  | .ok (core, ws, _, _) =>
    Stage.cycle O cfg { core, stats, sched := u.ordered ws (orderWarps_spec h).2.1 }

end SchedulerUnit

/-- One cycle of a scheduler class: the core that it finds, its own state, and what the order
of its warps depends on. Core and scheduler are any at each cycle, so the turns of a run that
hands them on from one cycle to the next are among them. -/
structure UnitTurn (Mem Threads Simt Score : Type) where
  core : IssueState Mem Threads Simt Score
  unit : SchedulerUnit
  order : OrderOracle Score

namespace UnitTurn

/-- The stage after the cycle. -/
def run (O : Outside Mem Threads Simt Score) (cfg : SchedConfig)
    (t : UnitTurn Mem Threads Simt Score) (s : IssueStats) :
    Except Halt (Stage Mem Threads Simt Score) := t.unit.cycle O cfg t.order t.core s

/-- The slots of all cycles. -/
def slots (ts : List (UnitTurn Mem Threads Simt Score)) : Nat :=
  (ts.map fun t => t.unit.supervised.length).sum

/-- What a cycle adds to the counters: the warps in `counted`. -/
structure Counts (O : Outside Mem Threads Simt Score) (cfg : SchedConfig)
    (t : UnitTurn Mem Threads Simt Score) (s : IssueStats) (g : Stage Mem Threads Simt Score)
    (counted : Finset Nat) : Prop where
  /-- The eligible warps of the order are counted, and each of them once. -/
  counted_iff : ∃ core ws pending turn sampled,
    t.unit.orderWarps O cfg t.order t.core = .ok (core, ws, pending, turn) ∧
      core.eligibleWarps O cfg (ws.map some) = .ok (sampled, counted.card) ∧
      ∀ w, w ∈ counted ↔ w ∈ ws ∧ sampled.Passes O cfg w
  count_eq : g.stats.eligibleWarpCount = addAt u64 s.eligibleWarpCount t.unit.id counted.card
  slotCount_eq : g.stats.eligibleWarpSlotCount =
    addAt u64 s.eligibleWarpSlotCount t.unit.id t.unit.supervised.length
  /-- Every warp that issues was counted. -/
  issued : ∀ w inst, t.core.Issued g.core w inst → w ∈ counted
  card_le_iff : counted.card ≤ t.unit.supervised.length ↔ t.unit.HasSlots ∨ counted = ∅

variable {t : UnitTurn Mem Threads Simt Score} {s : IssueStats} {g : Stage Mem Threads Simt Score}

/-- Only a scheduler without registered warps lacks slots. -/
theorem supervised_of_not_hasSlots {u : SchedulerUnit} (h : ¬u.HasSlots) : u.supervised = [] := by
  unfold SchedulerUnit.HasSlots at h
  split at h
  · rename_i n hpolicy
    exact u.supervised_twoLevel n hpolicy
  · exact not_not.mp h
  · exact absurd trivial h

/-- A cycle counts the eligible warps of its order. -/
theorem exists_counts (h : t.run O cfg s = .ok g) : ∃ counted, t.Counts O cfg s g counted := by
  unfold run SchedulerUnit.cycle at h
  split at h
  · cases h
  · rename_i core ws pending turn horder
    obtain ⟨hout, hnodup, hfits⟩ := SchedulerUnit.orderWarps_spec horder
    -- the sample of the cycle
    have hcycle := h
    rw [Stage.cycle, bind_eq_ok] at hcycle
    obtain ⟨g₁, hsample, _⟩ := hcycle
    have hstats := Stage.cycle_sampled hsample h
    have hfills := Stage.cycle_issuesOnly hsample h
    simp only [Stage.sample, bind_eq_ok, pure_eq_ok, Prod.exists] at hsample
    obtain ⟨sampled, n, heligible, rfl⟩ := hsample
    obtain ⟨counted, rfl, hcounted⟩ := IssueState.eligibleWarps_counted hnodup heligible
    refine ⟨counted, ⟨core, ws, pending, turn, sampled, horder, heligible, hcounted⟩,
      congrArg Prod.fst hstats, congrArg Prod.snd hstats, fun w inst hissued => ?_, ?_⟩
    · have hfrom : t.core.IssuesOnly (fun w => some w ∈ ws.map some ∧ sampled.Passes O cfg w)
          g.core := (IssueState.IssuesOnly.of_out_eq hout).trans hfills
      obtain ⟨hmem, hpasses⟩ := hfrom.of_issued hissued
      rw [hcounted]
      exact ⟨by simpa using hmem, hpasses⟩
    · constructor
      · intro hle
        by_cases hslots : t.unit.HasSlots
        · exact .inl hslots
        · rw [supervised_of_not_hasSlots hslots] at hle
          exact .inr (Finset.card_eq_zero.mp (Nat.le_zero.mp hle))
      · rintro (hslots | rfl)
        · have hsub : counted ⊆ ws.toFinset := by
            intro w hw
            exact List.mem_toFinset.mpr ((hcounted w).mp hw).1
          calc
            counted.card ≤ ws.toFinset.card := Finset.card_le_card hsub
            _ ≤ ws.length := List.toFinset_card_le ws
            _ ≤ t.unit.supervised.length := hfits hslots
        · exact Nat.zero_le _

/-- The statistics after some cycles. -/
def runs (O : Outside Mem Threads Simt Score) (cfg : SchedConfig) (s : IssueStats)
    (ts : List (UnitTurn Mem Threads Simt Score)) : Except Halt IssueStats :=
  ts.foldlM (fun s t => do
    let g ← t.run O cfg s
    pure g.stats) s

/-- Adding a smaller number below the width keeps the order of two counters. -/
theorem addAt_le {count slots : Nat → Nat} {i n m : Nat} (hle : ∀ j, count j ≤ slots j)
    (hnm : n ≤ m) (hwidth : slots i + m < 2 ^ 64) (j : Nat) :
    addAt u64 count i n j ≤ addAt u64 slots i m j := by
  unfold addAt
  by_cases hj : j = i
  · subst hj
    have hsum := Nat.add_le_add (hle j) hnm
    rw [Function.update_self, Function.update_self, u64, u64,
      Nat.mod_eq_of_lt (hsum.trans_lt hwidth), Nat.mod_eq_of_lt hwidth]
    exact hsum
  · rw [Function.update_of_ne hj, Function.update_of_ne hj]
    exact hle j

/-- The slots grow by at most the slots of the cycle. -/
theorem addAt_slots_le {slots : Nat → Nat} {i m bound : Nat} (h : ∀ j, slots j ≤ bound) (j : Nat) :
    addAt u64 slots i m j ≤ bound + m := by
  unfold addAt
  by_cases hj : j = i
  · subst hj
    rw [Function.update_self]
    exact (Nat.mod_le _ _).trans (Nat.add_le_add_right (h j) m)
  · rw [Function.update_of_ne hj]
    exact Nat.le_add_right_of_le (h j)

/-- The counters of eligible warps stay below those of slots along a run. -/
theorem runs_count_le {ts : List (UnitTurn Mem Threads Simt Score)} {s s' : IssueStats}
    {bound : Nat}
    (hslots : ∀ t ∈ ts, t.unit.HasSlots) (hwidth : bound + slots ts < 2 ^ 64)
    (hle : ∀ id, s.eligibleWarpCount id ≤ s.eligibleWarpSlotCount id)
    (hbound : ∀ id, s.eligibleWarpSlotCount id ≤ bound) (h : runs O cfg s ts = .ok s') (id : Nat) :
    s'.eligibleWarpCount id ≤ s'.eligibleWarpSlotCount id := by
  induction ts generalizing s bound with
  | nil =>
    simp only [runs, foldlM_nil_eq_ok] at h
    rw [← h]
    exact hle id
  | cons t ts ih =>
    obtain ⟨s₁, hrun, hrest⟩ := foldlM_cons_eq_ok.mp h
    rw [bind_eq_ok] at hrun
    obtain ⟨g, hrun, heq⟩ := hrun
    rw [pure_eq_ok] at heq
    obtain ⟨counted, hcounts⟩ := exists_counts hrun
    have hcard := hcounts.card_le_iff.mpr (.inl (hslots t List.mem_cons_self))
    simp only [slots, List.map_cons, List.sum_cons] at hwidth
    have hwidth₁ : bound + t.unit.supervised.length + slots ts < 2 ^ 64 := by
      rw [slots]
      omega
    apply ih (fun u hu => hslots u (List.mem_cons_of_mem _ hu)) hwidth₁ _ _ hrest
    · intro j
      rw [← heq, hcounts.count_eq, hcounts.slotCount_eq]
      refine addAt_le hle hcard ?_ j
      have := hbound t.unit.id
      omega
    · intro j
      rw [← heq, hcounts.slotCount_eq]
      exact addAt_slots_le hbound j

/-- In a run whose orders have their slots, every cycle counts no more eligible warps than
slots, and so do the counters at its end. -/
theorem eligible_fraction_le_one {ts : List (UnitTurn Mem Threads Simt Score)} {s : IssueStats}
    (hslots : ∀ t ∈ ts, t.unit.HasSlots) (hwidth : slots ts < 2 ^ 64)
    (h : runs O cfg {} ts = .ok s) :
    (∀ id, s.eligibleWarpCount id ≤ s.eligibleWarpSlotCount id) ∧
      ∀ t ∈ ts, ∀ s₀ g, t.run O cfg s₀ = .ok g →
        ∃ counted, t.Counts O cfg s₀ g counted ∧ counted.card ≤ t.unit.supervised.length := by
  constructor
  · intro id
    have hwidth₀ : 0 + slots ts < 2 ^ 64 := by rwa [Nat.zero_add]
    exact runs_count_le hslots hwidth₀ (fun _ => le_refl 0) (fun _ => le_refl 0) h id
  · intro t ht s₀ g hrun
    obtain ⟨counted, hcounts⟩ := exists_counts hrun
    exact ⟨counted, hcounts, hcounts.card_le_iff.mpr (.inl (hslots t ht))⟩

/-- A scheduler of the only warp of a sample core. -/
def sample (policy : Policy) : UnitTurn Unit Unit Nat Unit where
  core := .sample .sample 0
  unit :=
    ((SchedulerUnit.empty policy 0).addSupervisedWarpId 0 List.not_mem_nil
      List.not_mem_nil).doneAddingSupervisedWarps
  order := {
    sort := fun _ l => l
    sort_perm := fun _ l => .refl l
    asked := []
    dynamicWarpId := fun _ => 0
    longOp := fun _ _ _ => false }

/-- A greedy scheduler counts its warp and has a slot for it. -/
theorem eligible_fraction_le_one_of_gto :
    ∃ s, runs .sample (.sample 64 1) {} [sample .gto] = .ok s ∧ s.eligibleWarpCount 0 = 1 ∧
      s.eligibleWarpCount 0 ≤ s.eligibleWarpSlotCount 0 := by
  have hslots : ∀ t ∈ [sample .gto], t.unit.HasSlots := by
    intro t ht
    rw [List.mem_singleton.mp ht]
    exact trivial
  refine ⟨_, rfl, by decide, ?_⟩
  exact (@eligible_fraction_le_one _ _ _ _ .sample (.sample 64 1) _ _ hslots (by decide) rfl).1 0

/-- The two-level scheduler counts an eligible warp and has no slot. -/
theorem eligible_without_slots :
    ∃ g, (sample (.twoLevelActive 1)).run .sample (.sample 64 1) {} = .ok g ∧
      g.stats.eligibleWarpCount 0 = 1 ∧ g.stats.eligibleWarpSlotCount 0 = 0 :=
  ⟨_, rfl, by decide, by decide⟩

end UnitTurn
end WaspSim
