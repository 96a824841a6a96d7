import WaspSim.Scheduler.Settled

/-!
# The passes over a warp

A pass that issues nothing changes its own warp alone, so the tests of the warps
behind it come out as they did when they were sampled. The flags then say what
the warps presented.
-/

namespace WaspSim

variable {Mem Threads Simt Score : Type} {O : Outside Mem Threads Simt Score} {cfg : SchedConfig}

/-- All three flags are set. -/
def IssueFlags.all : IssueFlags where
  validInst := true
  readyInst := true
  issuedInst := true

@[simp] theorem IssueFlags.or_none (f : IssueFlags) : f.or {} = f := by
  simp [IssueFlags.or]

@[simp] theorem IssueFlags.none_or (f : IssueFlags) : IssueFlags.or {} f = f := by
  simp [IssueFlags.or]

@[simp] theorem IssueFlags.or_all (f : IssueFlags) : f.or .all = .all := by
  simp [IssueFlags.or, IssueFlags.all]

@[simp] theorem IssueFlags.all_or (f : IssueFlags) : IssueFlags.all.or f = .all := by
  simp [IssueFlags.or, IssueFlags.all]

theorem IssueFlags.or_assoc (f g k : IssueFlags) : (f.or g).or k = f.or (g.or k) := by
  simp [IssueFlags.or, Bool.or_assoc]

/-- Flags add nothing to flags that say at least as much. -/
theorem IssueFlags.or_eq_right {f f' : IssueFlags} (hissued : f.issuedInst = false)
    (hvalid : f'.validInst = true) (hready : f.readyInst = true → f'.readyInst = true) :
    f.or f' = f' := by
  ext
  · simp [IssueFlags.or, hvalid]
  · cases hr : f.readyInst with
    | false => simp [IssueFlags.or, hr]
    | true => simp [IssueFlags.or, hr, hready hr]
  · simp [IssueFlags.or, hissued]

namespace IssueState

variable {c c' c₁ : IssueState Mem Threads Simt Score} {w : Nat}

/-- The warp waits for the latency of the device runtime call `inst`. -/
def CdpWaits (c : IssueState Mem Threads Simt Score) (w : Nat) (inst : SchedInst) : Prop :=
  inst.isCdp ≠ 0 ∧ 0 < (c.schedWarps w).cdpLatency

instance (c : IssueState Mem Threads Simt Score) (w : Nat) (inst : SchedInst) :
    Decidable (c.CdpWaits w inst) := inferInstanceAs (Decidable (_ ∧ _))

theorem KeepsFor.cdpWaits_iff (h : KeepsFor O w c c') (inst : SchedInst) :
    c'.CdpWaits w inst ↔ c.CdpWaits w inst := by
  rcases h.sched_eq with heq | ⟨_, _, heq⟩
  · simp only [CdpWaits, heq]
  · simp only [CdpWaits, heq]

/-- A pass over an instruction that the warp presents tests it; any other pass sets no flag. -/
theorem inspect_cases {schedId : Nat} {previous : ExecUnitType} {verdict : Verdict}
    (hfull : (c.schedWarps w).ibufferEmpty = false)
    (h : c.inspect O cfg schedId w previous = .ok (c', verdict)) :
    (c' = c ∧ verdict.flags = {} ∧ ∀ inst, c.presented O w = some inst → c.CdpWaits w inst) ∨
      ∃ inst b, c.presented O w = some inst ∧ ¬c.CdpWaits w inst ∧
        c.passesScoreboard O cfg w inst true = .ok (c', b) ∧ verdict.flags.validInst = true ∧
        verdict.flags.readyInst = b ∧ (verdict.flags.issuedInst = true → verdict.flags = .all) := by
  unfold inspect at h
  cases hinst : (c.schedWarps w).ibufferNextInst with
  | none =>
    simp only [hinst, pure_eq_ok, Prod.mk.injEq] at h
    obtain ⟨rfl, rfl⟩ := h
    refine .inl ⟨rfl, ?_, fun inst hp => ?_⟩
    · split
      · rfl
      · rfl
    · simp [presented, hfull, hinst] at hp
  | some inst =>
    simp only [hinst] at h
    split at h
    · rename_i hcdp
      simp only [bind_eq_ok, pure_eq_ok, Prod.mk.injEq] at h
      obtain ⟨_, _, rfl, rfl⟩ := h
      refine .inl ⟨rfl, rfl, fun inst' hp => ?_⟩
      have hsame : inst = inst' := by
        simp only [presented, hfull, hinst, Bool.false_eq_true, ↓reduceIte] at hp
        split at hp
        · exact Option.some.inj hp
        · cases hp
      exact hsame ▸ hcdp
    · rename_i hcdp
      simp only [bind_eq_ok, require_eq_ok] at h
      obtain ⟨_, hvalid, h⟩ := h
      split at h
      · rename_i hpc
        simp only [pure_eq_ok, Prod.mk.injEq] at h
        obtain ⟨rfl, rfl⟩ := h
        refine .inl ⟨rfl, rfl, fun inst' hp => ?_⟩
        simp [presented, hfull, hinst, hvalid, hpc] at hp
      · rename_i hpc
        have hp : c.presented O w = some inst := by
          simpa [presented, hfull, hinst, hvalid] using hpc
        simp only [bind_eq_ok, Prod.exists] at h
        obtain ⟨m, b, hpasses, h⟩ := h
        cases b with
        | false =>
          simp only [↓reduceIte, pure_eq_ok, Prod.mk.injEq] at h
          obtain ⟨rfl, rfl⟩ := h
          exact .inr ⟨inst, false, hp, hcdp, hpasses, rfl, rfl, fun hi => by cases hi⟩
        | true =>
          simp only [Bool.true_eq_false, ↓reduceIte, bind_eq_ok] at h
          obtain ⟨_, _, unit, _, h⟩ := h
          cases unit with
          | none =>
            simp only [pure_eq_ok, Prod.mk.injEq] at h
            obtain ⟨rfl, rfl⟩ := h
            exact .inr ⟨inst, true, hp, hcdp, hpasses, rfl, rfl, fun hi => by cases hi⟩
          | some unit =>
            obtain ⟨port, execType⟩ := unit
            simp only at h
            split at h
            · simp only [pure_eq_ok, Prod.mk.injEq] at h
              obtain ⟨rfl, rfl⟩ := h
              exact .inr ⟨inst, true, hp, hcdp, hpasses, rfl, rfl, fun hi => by cases hi⟩
            · simp only [pure_eq_ok, Prod.mk.injEq] at h
              obtain ⟨rfl, rfl⟩ := h
              exact .inr ⟨inst, true, hp, hcdp, hpasses, rfl, rfl, fun _ => rfl⟩

/-- A pass keeps what the tests depend on. -/
theorem inspect_keeps {schedId : Nat} {previous : ExecUnitType} {verdict : Verdict}
    (hfull : (c.schedWarps w).ibufferEmpty = false)
    (h : c.inspect O cfg schedId w previous = .ok (c', verdict)) (v : Nat) : KeepsFor O v c c' := by
  rcases inspect_cases hfull h with ⟨rfl, _⟩ | ⟨inst, b, _, _, hpasses, _⟩
  · exact .refl v _
  · exact passesScoreboard_keeps hpasses v

/-- Changing one warp keeps the tests of the others. -/
theorem KeepsFor.setSchedWarp {v : Nat} (hne : w ≠ v) (g : SchedWarp → SchedWarp) :
    KeepsFor O w c (c.setSchedWarp v g) :=
  ⟨rfl, .inl (by simp [IssueState.setSchedWarp, hne]), rfl, rfl, rfl, rfl, fun _ _ _ _ hq => hq⟩

/-- A flush keeps the tests of the other warps. -/
theorem ibufferFlush_keeps {v : Nat} (hne : w ≠ v) (h : c.ibufferFlush O cfg v = .ok c') :
    KeepsFor O w c c' := by
  simp only [ibufferFlush, Shader.step, bind_eq_ok, require_eq_ok, pure_eq_ok, Prod.exists,
    Prod.mk.injEq] at h
  obtain ⟨_, _, ⟨_, _, rfl, _⟩, rfl⟩ := h
  refine ⟨?_, .inl ?_, rfl, rfl, rfl, rfl, fun _ _ _ _ hq => hq⟩
  · simp [IssueState.setSchedWarp, Shader.setWarp, hne]
  · simp [IssueState.setSchedWarp, hne]

end IssueState

namespace IssueLoop

variable {v v' : IssueLoop Mem Threads Simt Score} {w : Nat}

/-- What acting on a pass does to the variables of the loop. -/
theorem act_eq_ok {verdict : Verdict} {leave : Bool} (h : v.act O cfg w verdict = .ok (v', leave)) :
    v'.flags = v.flags.or verdict.flags ∧
      v'.issued = v.issued + verdict.flags.issuedInst.toNat ∧
      (leave = false → v'.checked = v.checked + 1) ∧
      (verdict.flags.issuedInst = false → v'.stage.stats = v.stage.stats ∧
        v'.stage.sched = v.stage.sched ∧
        ∀ u, u ≠ w → IssueState.KeepsFor O u v.stage.core v'.stage.core) := by
  cases verdict with
  | cdpWait =>
    simp only [act, pure_eq_ok, Prod.mk.injEq] at h
    obtain ⟨rfl, rfl⟩ := h
    refine ⟨rfl, rfl, fun hl => (by cases hl), fun _ => ⟨rfl, rfl, fun u hu => ?_⟩⟩
    dsimp only
    exact .setSchedWarp hu _
  | cdpStart inst =>
    simp only [act, pure_eq_ok, Prod.mk.injEq] at h
    obtain ⟨rfl, rfl⟩ := h
    refine ⟨rfl, rfl, fun hl => (by cases hl), fun _ => ⟨rfl, rfl, fun u hu => ?_⟩⟩
    dsimp only
    exact .setSchedWarp hu _
  | flush pc =>
    simp only [act, bind_eq_ok, pure_eq_ok, Prod.mk.injEq] at h
    obtain ⟨core, hflush, rfl, rfl⟩ := h
    exact ⟨rfl, rfl, fun _ => rfl, fun _ => ⟨rfl, rfl, fun u hu =>
      (IssueState.KeepsFor.setSchedWarp hu _).trans (IssueState.ibufferFlush_keeps hu hflush)⟩⟩
  | skip =>
    simp only [act, pure_eq_ok, Prod.mk.injEq] at h
    obtain ⟨rfl, rfl⟩ := h
    exact ⟨rfl, rfl, fun _ => rfl, fun _ => ⟨rfl, rfl, fun u _ => .refl u _⟩⟩
  | blocked =>
    simp only [act, pure_eq_ok, Prod.mk.injEq] at h
    obtain ⟨rfl, rfl⟩ := h
    exact ⟨rfl, rfl, fun _ => rfl, fun _ => ⟨rfl, rfl, fun u _ => .refl u _⟩⟩
  | held =>
    simp only [act, pure_eq_ok, Prod.mk.injEq] at h
    obtain ⟨rfl, rfl⟩ := h
    exact ⟨rfl, rfl, fun _ => rfl, fun _ => ⟨rfl, rfl, fun u _ => .refl u _⟩⟩
  | issue port execType inst =>
    simp only [act, bind_eq_ok, pure_eq_ok, Prod.mk.injEq] at h
    obtain ⟨stage, _, rfl, rfl⟩ := h
    exact ⟨rfl, rfl, fun _ => rfl, fun hi => (by cases hi)⟩

/-- Once an instruction has issued, all flags are set. -/
def FlagsSet (v : IssueLoop Mem Threads Simt Score) : Prop := 0 < v.issued → v.flags = .all

/-- The loop never takes an issued instruction back, and sets all flags with the first. -/
theorem run_flagsSet {n : Nat} (h : run O cfg w n v = .ok v') (hset : v.FlagsSet) :
    v'.FlagsSet ∧ v.issued ≤ v'.issued := by
  induction n generalizing v with
  | zero =>
    simp only [run, pure_eq_ok] at h
    exact h ▸ ⟨hset, le_refl _⟩
  | succ n ih =>
    simp only [run] at h
    split at h
    · rw [pure_eq_ok] at h
      exact h ▸ ⟨hset, le_refl _⟩
    · rename_i hgo
      simp only [not_or] at hgo
      simp only [bind_eq_ok, Prod.exists] at h
      obtain ⟨core, verdict, hinspect, v₁, leave, hact, h⟩ := h
      obtain ⟨hflags, hissued, _⟩ := act_eq_ok hact
      have hset₁ : v₁.FlagsSet := by
        intro hpos
        rw [hflags]
        cases hi : verdict.flags.issuedInst with
        | true =>
          rcases IssueState.inspect_cases (by simpa using hgo.2.1) hinspect with
            ⟨_, hnone, _⟩ | ⟨_, _, _, _, _, _, _, hall⟩
          · rw [hnone] at hi
            cases hi
          · rw [hall hi, IssueFlags.or_all]
        | false =>
          rw [hissued, hi] at hpos
          rw [hset hpos, IssueFlags.all_or]
      have hle : v.issued ≤ v₁.issued := by
        rw [hissued]
        exact Nat.le_add_right _ _
      split at h
      · rw [pure_eq_ok] at h
        exact h ▸ ⟨hset₁, hle⟩
      · obtain ⟨hset', hle'⟩ := ih h hset₁
        exact ⟨hset', hle.trans hle'⟩

/-- A loop whose first pass issued nothing stops at the second. -/
theorem run_stops {n : Nat} (h : run O cfg w n v = .ok v') (hstop : ¬v.checked ≤ v.issued) :
    ∃ core, v' = { v with stage := { v.stage with core } } ∧
      ∀ u, IssueState.KeepsFor O u v.stage.core core := by
  cases n with
  | zero =>
    simp only [run, pure_eq_ok] at h
    exact ⟨_, h.symm, fun u => IssueState.waiting_keeps w u⟩
  | succ n =>
    simp only [run] at h
    rw [if_pos (.inr (.inr fun hgo => hstop hgo.1)), pure_eq_ok] at h
    exact ⟨_, h.symm, fun u => IssueState.waiting_keeps w u⟩

end IssueLoop
end WaspSim
