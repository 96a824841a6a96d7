import WaspSim.Scheduler.Passes

/-!
# The loop over the warps

Either some warp issues, which sets all flags, or every warp of the priority list
was tried once and the flags say what the warps presented when they were sampled.
-/

namespace WaspSim

variable {Mem Threads Simt Score : Type} {O : Outside Mem Threads Simt Score} {cfg : SchedConfig}

namespace IssueState

variable {c c' : IssueState Mem Threads Simt Score} {w : Nat}

/-- A pass over the warp tests the instruction that it presents. -/
def Tests (O : Outside Mem Threads Simt Score) (cfg : SchedConfig)
    (c : IssueState Mem Threads Simt Score) (w : Nat) : Prop :=
  0 < cfg.gpgpuMaxInsnIssuePerWarp ∧ ∃ inst, c.Presents O w inst ∧ ¬c.CdpWaits w inst

/-- The instruction that the warp presents passes the scoreboard and the queues. -/
def Passes (O : Outside Mem Threads Simt Score) (cfg : SchedConfig)
    (c : IssueState Mem Threads Simt Score) (w : Nat) : Prop :=
  ∃ inst, c.Presents O w inst ∧ c.passesScoreboard O cfg w inst false = .ok (c, true)

theorem KeepsFor.tests_iff (h : KeepsFor O w c c') : c'.Tests O cfg w ↔ c.Tests O cfg w := by
  simp only [Tests, h.presents_iff, h.cdpWaits_iff]

theorem Passes.mono (hpass : c.Passes O cfg w) (h : KeepsFor O w c c') : c'.Passes O cfg w := by
  obtain ⟨inst, hpresents, hpasses⟩ := hpass
  obtain ⟨c₃, hc₃, hsame⟩ := passesScoreboard_again hpasses h false
  obtain rfl := hsame rfl
  exact ⟨inst, (h.presents_iff inst).mpr hpresents, hc₃⟩

/-- Whether a settled warp passes does not change while its tests are kept. -/
theorem Settled.passes_iff (hsettled : Settled O cfg c w) (h : KeepsFor O w c c') :
    c'.Passes O cfg w ↔ c.Passes O cfg w := by
  refine ⟨?_, fun hpass => hpass.mono h⟩
  rintro ⟨inst, hpresents, hpasses⟩
  have hpresents₀ := (h.presents_iff inst).mp hpresents
  obtain ⟨b, hb⟩ := hsettled.passes inst hpresents₀
  obtain ⟨c₃, hc₃, _⟩ := passesScoreboard_again hb h false
  rw [hc₃, Except.ok.injEq, Prod.mk.injEq] at hpasses
  rw [hpasses.2] at hb
  exact ⟨inst, hpresents₀, hb⟩

/-- What a warp presents, once it is known whether it waits. -/
theorem presents_iff (hdone : c.doneExit w = false) (inst : SchedInst) :
    c.Presents O w inst ↔ (c.waiting O w).2 = false ∧ c.presented O w = some inst := by
  have hsame : (c.waiting O w).1.presented O w = c.presented O w := (waiting_keeps w w).presented_eq
  simp only [Presents, nextToIssue, hdone, Bool.false_eq_true, ↓reduceIte, hsame]
  cases (c.waiting O w).2 with
  | true => simp
  | false => simp

theorem Settled.waiting_eq (h : Settled O cfg c w) (hdone : c.doneExit w = false) :
    (c.waiting O w).1 = c := by
  have hnext := h.next_eq
  simpa only [nextToIssue, hdone, Bool.false_eq_true, ↓reduceIte] using hnext

/-- A settled warp passes when a test of the instruction that it presents lets it pass. -/
theorem Settled.passes_iff_test {inst : SchedInst} {count b : Bool} (hsettled : Settled O cfg c w)
    (hpresents : c.Presents O w inst) (h : c.passesScoreboard O cfg w inst count = .ok (c', b)) :
    c.Passes O cfg w ↔ b = true := by
  obtain ⟨b', hb'⟩ := hsettled.passes inst hpresents
  obtain ⟨c₃, hc₃, _⟩ := passesScoreboard_again hb' (.refl w _) count
  rw [hc₃, Except.ok.injEq, Prod.mk.injEq] at h
  obtain ⟨_, rfl⟩ := h
  constructor
  · rintro ⟨inst', hpresents', hpasses⟩
    obtain rfl : inst' = inst := Option.some.inj (hpresents'.symm.trans hpresents)
    rw [hb', Except.ok.injEq, Prod.mk.injEq] at hpasses
    exact hpasses.2
  · intro hb
    rw [hb] at hb'
    exact ⟨inst, hpresents, hb'⟩

/-- What the flags of a pass over a settled warp say. -/
theorem Settled.inspect_flags {schedId : Nat} {previous : ExecUnitType} {verdict : Verdict}
    (hsettled : Settled O cfg c w) (hmax : 0 < cfg.gpgpuMaxInsnIssuePerWarp)
    (hdone : c.doneExit w = false) (hwait : (c.waiting O w).2 = false)
    (hfull : (c.schedWarps w).ibufferEmpty = false)
    (h : c.inspect O cfg schedId w previous = .ok (c', verdict)) :
    (verdict.flags.validInst = true ↔ c.Tests O cfg w) ∧
      (c.Tests O cfg w → (verdict.flags.readyInst = true ↔ c.Passes O cfg w)) ∧
      (verdict.flags.issuedInst = true → verdict.flags = .all) := by
  have hpresents : ∀ inst, c.Presents O w inst ↔ c.presented O w = some inst :=
    fun inst => (presents_iff hdone inst).trans (and_iff_right hwait)
  rcases inspect_cases hfull h with
    ⟨_, hnone, hall⟩ | ⟨inst, b, hp, hcdp, hpasses, hvalid, hready, hissued⟩
  · have hnot : ¬c.Tests O cfg w := by
      rintro ⟨_, inst, hp, hcdp⟩
      exact hcdp (hall inst ((hpresents inst).mp hp))
    rw [hnone]
    exact ⟨iff_of_false Bool.false_ne_true hnot, fun htests => absurd htests hnot,
      fun hissued => absurd hissued Bool.false_ne_true⟩
  · have hp' := (hpresents inst).mpr hp
    refine ⟨iff_of_true hvalid ⟨hmax, inst, hp', hcdp⟩, fun _ => ?_, hissued⟩
    rw [hready, hsettled.passes_iff_test hp' hpasses]

end IssueState

/-- What trying a warp without issuing leaves behind. -/
structure TriedWarp (O : Outside Mem Threads Simt Score) (cfg : SchedConfig) (w : Nat)
    (g g' : Stage Mem Threads Simt Score) (fl : IssueFlags) : Prop where
  stats_eq : g'.stats = g.stats
  sched_eq : g'.sched = g.sched
  keeps : ∀ u, u ≠ w → IssueState.KeepsFor O u g.core g'.core
  issued_eq : fl.issuedInst = false
  valid_iff : fl.validInst = true ↔ g.core.Tests O cfg w
  ready_of_passes : g.core.Tests O cfg w → g.core.Passes O cfg w → fl.readyInst = true

namespace IssueLoop

variable {v v' : IssueLoop Mem Threads Simt Score} {w : Nat}

/-- A loop that tests nothing. -/
private theorem triedWarp_of_not_tests {g' : Stage Mem Threads Simt Score}
    (hnot : ¬v.stage.core.Tests O cfg w) (hstats : g'.stats = v.stage.stats)
    (hsched : g'.sched = v.stage.sched)
    (hkeeps : ∀ u, u ≠ w → IssueState.KeepsFor O u v.stage.core g'.core) :
    TriedWarp O cfg w v.stage g' {} :=
  ⟨hstats, hsched, hkeeps, rfl, ⟨fun hf => (by cases hf), fun ht => absurd ht hnot⟩,
    fun ht => absurd ht hnot⟩

/-- The loop over the instructions of a settled warp. -/
theorem run_spec (hchecked : v.checked = 0) (hissued : v.issued = 0)
    (hdone : v.stage.core.doneExit w = false)
    (hsettled : IssueState.Settled O cfg v.stage.core w)
    (h : run O cfg w cfg.gpgpuMaxInsnIssuePerWarp v = .ok v') :
    (0 < v'.issued ∧ v'.flags = .all ∧ v.stage.core.Tests O cfg w ∧
        v.stage.core.Passes O cfg w) ∨
      (v'.issued = 0 ∧ ∃ fl, v'.flags = v.flags.or fl ∧ TriedWarp O cfg w v.stage v'.stage fl) := by
  have hwait := hsettled.waiting_eq hdone
  cases hmax : cfg.gpgpuMaxInsnIssuePerWarp with
  | zero =>
    rw [hmax] at h
    simp only [run, hwait, pure_eq_ok] at h
    subst h
    have hnot : ¬v.stage.core.Tests O cfg w := by
      rintro ⟨hpos, _⟩
      omega
    exact .inr ⟨hissued, {}, by simp,
      triedWarp_of_not_tests hnot rfl rfl fun u _ => .refl u _⟩
  | succ n =>
    rw [hmax] at h
    simp only [run] at h
    rw [hwait] at h
    split at h
    · -- the warp waits or has an empty i-buffer
      rename_i hstop
      rw [pure_eq_ok] at h
      subst h
      have hnot : ¬v.stage.core.Tests O cfg w := by
        rintro ⟨_, inst, hpresents, _⟩
        obtain ⟨hw, hp⟩ := (IssueState.presents_iff hdone inst).mp hpresents
        rcases hstop with htrue | hempty | hgo
        · rw [hw] at htrue
          cases htrue
        · simp [IssueState.presented, hempty] at hp
        · exact hgo ⟨by omega, by omega⟩
      exact .inr ⟨hissued, {}, by simp,
        triedWarp_of_not_tests hnot rfl rfl fun u _ => .refl u _⟩
    · rename_i hgo
      simp only [not_or, Bool.not_eq_true] at hgo
      obtain ⟨hw, hfull, _⟩ := hgo
      simp only [bind_eq_ok, Prod.exists] at h
      obtain ⟨core, verdict, hinspect, v₁, leave, hact, h⟩ := h
      have hkeeps := IssueState.inspect_keeps hfull hinspect
      obtain ⟨hvalid, hready, hall⟩ := hsettled.inspect_flags (by omega) hdone hw hfull hinspect
      obtain ⟨hflags, hcount, hnext, hquiet⟩ := act_eq_ok hact
      cases hi : verdict.flags.issuedInst with
      | true =>
        have htests : v.stage.core.Tests O cfg w := hvalid.mp (by rw [hall hi]; rfl)
        have hpasses : v.stage.core.Passes O cfg w := (hready htests).mp (by rw [hall hi]; rfl)
        have hset₁ : v₁.FlagsSet := fun _ => by rw [hflags, hall hi, IssueFlags.or_all]
        have hpos : 0 < v₁.issued := by
          rw [hcount, hi]
          exact Nat.succ_pos _
        split at h
        · rw [pure_eq_ok] at h
          subst h
          exact .inl ⟨hpos, hset₁ hpos, htests, hpasses⟩
        · obtain ⟨hset', hle⟩ := run_flagsSet h hset₁
          exact .inl ⟨hpos.trans_le hle, hset' (hpos.trans_le hle), htests, hpasses⟩
      | false =>
        obtain ⟨hstats, hsched, hothers⟩ := hquiet hi
        have hzero : v₁.issued = 0 := by
          rw [hcount, hi]
          exact hissued
        -- the loop ends here or at its next test
        have hend : ∃ core', v' = { v₁ with stage := { v₁.stage with core := core' } } ∧
            ∀ u, IssueState.KeepsFor O u v₁.stage.core core' := by
          cases leave with
          | true =>
            simp only [↓reduceIte, pure_eq_ok] at h
            exact ⟨v₁.stage.core, h.symm, fun u => .refl u _⟩
          | false =>
            simp only [Bool.false_eq_true, ↓reduceIte] at h
            have hone := hnext rfl
            exact run_stops h (by omega)
        obtain ⟨core', rfl, hlast⟩ := hend
        exact .inr ⟨hzero, verdict.flags, hflags, hstats, hsched,
          fun u hu => ((hkeeps u).trans (hothers u hu)).trans (hlast u), hi, hvalid,
          fun htests hpasses => (hready htests).mpr hpasses⟩

end IssueLoop

namespace Stage

variable {g g' : Stage Mem Threads Simt Score}

/-- The loop over the warps, from warps that were settled in an earlier core `c`: either
one of them issued, or the flags say what they presented. -/
theorem issueWarps_spec {c : IssueState Mem Threads Simt Score} {flags flags' : IssueFlags}
    {rest : List (Option Nat)} (hnodup : rest.reduceOption.Nodup)
    (hsettled : ∀ w, some w ∈ rest →
      IssueState.Settled O cfg c w ∧ IssueState.KeepsFor O w c g.core)
    (h : g.issueWarps O cfg flags rest = .ok (g', flags')) :
    (flags' = .all ∧ ∃ w, some w ∈ rest ∧ c.Tests O cfg w) ∨
      ∃ fl, flags' = flags.or fl ∧ g'.stats = g.stats ∧ fl.issuedInst = false ∧
        (fl.validInst = true ↔ ∃ w, some w ∈ rest ∧ c.Tests O cfg w) ∧
        ∀ w, some w ∈ rest → c.Tests O cfg w → c.Passes O cfg w → fl.readyInst = true := by
  induction rest generalizing g flags with
  | nil =>
    simp only [issueWarps, pure_eq_ok, Prod.mk.injEq] at h
    obtain ⟨rfl, rfl⟩ := h
    exact .inr ⟨{}, by simp, rfl, rfl, by simp, by simp⟩
  | cons entry rest ih =>
    -- what the rest says about an entry that adds `fl₀`
    have hskip : ∀ {g₁ : Stage Mem Threads Simt Score} (fl₀ : IssueFlags),
        rest.reduceOption.Nodup → g₁.stats = g.stats →
        (∀ w, some w ∈ rest → IssueState.KeepsFor O w c g₁.core) → fl₀.issuedInst = false →
        (fl₀.validInst = true ↔ ∃ w, some w = entry ∧ c.Tests O cfg w) →
        (∀ w, some w = entry → c.Tests O cfg w → c.Passes O cfg w → fl₀.readyInst = true) →
        g₁.issueWarps O cfg (flags.or fl₀) rest = .ok (g', flags') →
        (flags' = .all ∧ ∃ w, some w ∈ entry :: rest ∧ c.Tests O cfg w) ∨
          ∃ fl, flags' = flags.or fl ∧ g'.stats = g.stats ∧ fl.issuedInst = false ∧
            (fl.validInst = true ↔ ∃ w, some w ∈ entry :: rest ∧ c.Tests O cfg w) ∧
            ∀ w, some w ∈ entry :: rest → c.Tests O cfg w → c.Passes O cfg w →
              fl.readyInst = true := by
      intro g₁ fl₀ hnd hstats hkeeps hissued hvalid hready hrest
      rcases ih hnd (fun w hw => ⟨(hsettled w (List.mem_cons_of_mem _ hw)).1, hkeeps w hw⟩) hrest
        with ⟨hall, w, hw, htests⟩ | ⟨fl, hfl, hstats', hissued', hvalid', hready'⟩
      · exact .inl ⟨hall, w, List.mem_cons_of_mem _ hw, htests⟩
      · refine .inr ⟨fl₀.or fl, by rw [hfl, IssueFlags.or_assoc], hstats'.trans hstats,
          by simp [IssueFlags.or, hissued, hissued'], ?_, fun w hw htests hpasses => ?_⟩
        · simp only [IssueFlags.or, Bool.or_eq_true, hvalid, hvalid', List.mem_cons, or_and_right,
            exists_or]
        · rcases List.mem_cons.mp hw with heq | hw
          · simp [IssueFlags.or, hready w heq htests hpasses]
          · simp [IssueFlags.or, hready' w hw htests hpasses]
    cases entry with
    | none =>
      simp only [issueWarps] at h
      refine hskip {} hnodup rfl
        (fun w hw => (hsettled w (List.mem_cons_of_mem _ hw)).2) rfl (by simp) (by simp) ?_
      rw [IssueFlags.or_none]
      exact h
    | some w =>
      obtain ⟨hw, hkeepsw⟩ := hsettled w List.mem_cons_self
      have hnotin : w ∉ rest.reduceOption ∧ rest.reduceOption.Nodup := by
        rwa [List.reduceOption_cons_of_some, List.nodup_cons] at hnodup
      simp only [issueWarps] at h
      split at h
      · rename_i hdone
        have hnot : ¬c.Tests O cfg w := by
          rintro ⟨_, inst, hpresents, _⟩
          have hp := (hkeepsw.presents_iff inst).mpr hpresents
          simp [IssueState.Presents, IssueState.nextToIssue, hdone] at hp
        refine hskip {} hnotin.2 rfl
          (fun u hu => (hsettled u (List.mem_cons_of_mem _ hu)).2) rfl (by simp [hnot]) ?_ ?_
        · rintro u heq htests
          obtain rfl := Option.some.inj heq
          exact absurd htests hnot
        · rw [IssueFlags.or_none]
          exact h
      · rename_i hdone
        have hdone' : g.core.doneExit w = false := by simpa using hdone
        have hgw := hw.mono hkeepsw
        rw [hgw.waiting_eq hdone', bind_eq_ok] at h
        obtain ⟨v, hrun, h⟩ := h
        rcases IssueLoop.run_spec (v := { stage := g, flags }) rfl rfl hdone' hgw hrun with
          ⟨hpos, hall, htests, _⟩ | ⟨hzero, fl, hfl, htried⟩
        · rw [if_pos hpos, pure_eq_ok, Prod.mk.injEq] at h
          refine .inl ⟨h.2 ▸ hall, w, List.mem_cons_self, hkeepsw.tests_iff.mp htests⟩
        · rw [if_neg (by omega), hfl] at h
          refine hskip fl hnotin.2 htried.stats_eq (fun u hu => ?_) htried.issued_eq ?_ ?_ h
          · have hne : u ≠ w := by
              rintro rfl
              exact hnotin.1 (List.reduceOption_mem_iff.mpr hu)
            exact (hsettled u (List.mem_cons_of_mem _ hu)).2.trans (htried.keeps u hne)
          · rw [htried.valid_iff, hkeepsw.tests_iff]
            simp
          · rintro u heq htests hpasses
            obtain rfl := Option.some.inj heq
            exact htried.ready_of_passes (hkeepsw.tests_iff.mpr htests) (hpasses.mono hkeepsw)

end Stage
end WaspSim
