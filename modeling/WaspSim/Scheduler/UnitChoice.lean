import WaspSim.Scheduler.Candidates
import WaspSim.Scheduler.Cycle

/-!
# The two choices of an execution unit

Co-issue classifies an instruction with its own copy of the routing in `cycle`.
Both choose the same register set, but the copy does not ask whether an SFU, a
tensor core or a specialized unit exists, so the two agree on an instruction
exactly when such a unit exists or its register set has no free register.
-/

namespace WaspSim

/-- The operations that the SP and INT units execute. -/
def OpType.onSpInt : OpType → Bool
  | .noOp | .aluOp | .spOp | .intpOp | .aluSfuOp | .branchOp | .barrierOp | .callOps | .retOps
  | .exitOps => true
  | _ => false

namespace SchedConfig

/-- The execution units behind an output register set; there is always a load/store unit. -/
def units (cfg : SchedConfig) : OutPort → Nat
  | .sp => cfg.gpgpuNumSpUnits
  | .dp => cfg.gpgpuNumDpUnits
  | .sfu => cfg.gpgpuNumSfuUnits
  | .int => cfg.gpgpuNumIntUnits
  | .tensorCore => cfg.gpgpuNumTensorCoreUnits
  | .mem => 1
  | .specCore specId => cfg.specializedUnit[specId]?.getD 0

/-- The register set of an operation that `classify_issue_target` routes without asking for
units. -/
def uncheckedPort (cfg : SchedConfig) : OpType → Option OutPort
  | .sfuOp => some .sfu
  | .dpOp => if 0 < cfg.gpgpuNumDpUnits then none else some .sfu
  | .tensorCoreOp => some .tensorCore
  | .specializedUnitOp specId =>
    if specId < cfg.specializedUnit.length then some (.specCore specId) else none
  | _ => none

end SchedConfig

namespace IssueState

variable {Mem Threads Simt Score : Type} {O : Outside Mem Threads Simt Score} {cfg : SchedConfig}
  {c c' : IssueState Mem Threads Simt Score} {schedId w : Nat} {inst : SchedInst}

/-- `create_front_pipeline` asserts that every scheduler of a sub-core has its own register in
the sets that are used. -/
structure Partitioned (cfg : SchedConfig) (c : IssueState Mem Threads Simt Score) : Prop where
  sp : cfg.subCoreModel = true → (c.out .sp).length = cfg.gpgpuNumSchedPerCore
  int : cfg.subCoreModel = true → 0 < cfg.gpgpuNumIntUnits →
    (c.out .int).length = cfg.gpgpuNumSchedPerCore

/-- A set with a register for the scheduler can be asked for a free one. -/
theorem exists_hasFree {regs : RegisterSet} {subCore : Bool}
    (hid : schedId < cfg.gpgpuNumSchedPerCore)
    (h : subCore = true → regs.length = cfg.gpgpuNumSchedPerCore) :
    ∃ free, RegisterSet.hasFree regs subCore schedId = .ok free := by
  unfold RegisterSet.hasFree
  split
  · exact ⟨_, rfl⟩
  · rename_i hsub
    have hlt : schedId < regs.length := by
      rw [h (by simpa using hsub)]
      exact hid
    refine ⟨regs[schedId].isNone, ?_⟩
    simp [List.getElem?_eq_getElem hlt, fetch, bind, Except.bind]

/-- The choice agrees with a target whose unit exists, if it agrees when the target is free. -/
theorem agrees_iff_of_target {port : OutPort} {execType : ExecUnitType}
    {choice : Except Halt (Option (OutPort × ExecUnitType))}
    (hchoice : 0 < cfg.units port →
      RegisterSet.hasFree (c.out port) cfg.subCoreModel schedId = .ok true →
      choice = .ok (some (port, execType))) :
    (∀ port' execType',
        (RegisterSet.hasFree (c.out port) cfg.subCoreModel schedId >>= fun free =>
          pure (some port, execType, free)) = Except.ok (some port', execType', true) →
        choice = .ok (some (port', execType')) ∧ 0 < cfg.units port') ↔
      (RegisterSet.hasFree (c.out port) cfg.subCoreModel schedId = .ok true →
        0 < cfg.units port) := by
  constructor
  · intro hall hfree
    exact (hall port execType (by rw [hfree]; rfl)).2
  · intro hunits port' execType' htarget
    simp only [bind_eq_ok, pure_eq_ok, Prod.mk.injEq, Option.some.injEq] at htarget
    obtain ⟨free, hfree, rfl, rfl, rfl⟩ := htarget
    have hpos := hunits hfree
    exact ⟨hchoice hpos hfree, hpos⟩

/-- The plain choice for an operation of the SP and INT units. -/
theorem chooseUnit_spInt (hid : schedId < cfg.gpgpuNumSchedPerCore) (hregs : c.Partitioned cfg)
    {op : OpType} (hop : op.onSpInt = true) :
    (op ≠ .spOp → 0 < cfg.gpgpuNumIntUnits →
        RegisterSet.hasFree (c.out .int) cfg.subCoreModel schedId = .ok true →
        c.chooseUnit cfg schedId op .none = .ok (some (.int, .int))) ∧
      ((cfg.gpgpuNumIntUnits = 0 ∨ op = .spOp) → 0 < cfg.gpgpuNumSpUnits →
        RegisterSet.hasFree (c.out .sp) cfg.subCoreModel schedId = .ok true →
        c.chooseUnit cfg schedId op .none = .ok (some (.sp, .sp))) := by
  obtain ⟨spFree, hsp⟩ := exists_hasFree hid hregs.sp
  have hint : 0 < cfg.gpgpuNumIntUnits →
      ∃ free, RegisterSet.hasFree (c.out .int) cfg.subCoreModel schedId = .ok free :=
    fun hpos => exists_hasFree hid fun hsub => hregs.int hsub hpos
  let avail (units : Nat) (port : OutPort) : Except Halt Bool :=
    if 0 < units then RegisterSet.hasFree (c.out port) cfg.subCoreModel schedId else pure false
  have hchoice : c.chooseUnit cfg schedId op .none =
      avail cfg.gpgpuNumSpUnits .sp >>= fun spPipeAvail =>
      avail cfg.gpgpuNumIntUnits .int >>= fun intPipeAvail =>
      pure <|
        if 0 < cfg.gpgpuNumIntUnits ∧ intPipeAvail = true ∧ op ≠ .spOp ∧
            (!(cfg.gpgpuDualIssueDiffExecUnits && ExecUnitType.none == .int)) = true then
          some (.int, .int)
        else if spPipeAvail = true ∧ (cfg.gpgpuNumIntUnits = 0 ∨ op = .spOp) ∧
            (!(cfg.gpgpuDualIssueDiffExecUnits && ExecUnitType.none == .sp)) = true then
          some (.sp, .sp)
        else none := by
    cases op with
    | noOp | aluOp | spOp | intpOp | aluSfuOp | branchOp | barrierOp | callOps | retOps | exitOps =>
      rfl
    | _ => cases hop
  have hint' : (ExecUnitType.none == .int) = false := rfl
  have hsp' : (ExecUnitType.none == .sp) = false := rfl
  simp only [hchoice, avail, hint', hsp', Bool.and_false, Bool.not_false, and_true]
  constructor
  · intro hne hpos hfree
    by_cases hspUnits : 0 < cfg.gpgpuNumSpUnits
    · simp [hspUnits, hsp, hpos, hfree, hne, bind, Except.bind, pure, Except.pure]
    · simp [hspUnits, hpos, hfree, hne, bind, Except.bind, pure, Except.pure]
  · intro hone hpos hfree
    by_cases hintUnits : 0 < cfg.gpgpuNumIntUnits
    · obtain ⟨free, hintFree⟩ := hint hintUnits
      have hspOp := hone.resolve_left (by omega)
      simp [hintUnits, hintFree, hpos, hfree, hspOp, bind, Except.bind, pure, Except.pure]
    · simp [hintUnits, hpos, hfree, hone, bind, Except.bind, pure, Except.pure]

/-- The target of co-issue is the unit that the plain scheduler chooses, and it exists, if and
only if no unit that co-issue does not ask for is missing behind a free register. -/
theorem classifyIssueTarget_agrees_iff (hid : schedId < cfg.gpgpuNumSchedPerCore)
    (hregs : c.Partitioned cfg) (inst : SchedInst) :
    (∀ port execType, c.classifyIssueTarget cfg schedId inst = .ok (some port, execType, true) →
        c.chooseUnit cfg schedId inst.op .none = .ok (some (port, execType)) ∧
          0 < cfg.units port) ↔
      ∀ port, cfg.uncheckedPort inst.op = some port → inst.isCdp = 0 →
        RegisterSet.hasFree (c.out port) cfg.subCoreModel schedId = .ok true →
        0 < cfg.units port := by
  by_cases hguard : inst.op = .barrierOp ∨ inst.op = .memoryBarrierOp ∨ inst.isCdp ≠ 0
  · -- such an instruction has no target, and no operation that is routed unchecked
    refine iff_of_true (fun port execType hclass => ?_) fun port hport hcdp => ?_
    · rw [classifyIssueTarget, if_pos hguard] at hclass
      cases hclass
    · rcases hguard with hop | hop | hne
      · rw [hop] at hport
        cases hport
      · rw [hop] at hport
        cases hport
      · exact absurd hcdp hne
  · simp only [classifyIssueTarget, hguard, ↓reduceIte]
    simp only [not_or, not_not] at hguard
    obtain ⟨hbarrier, hmembar, hcdp⟩ := hguard
    cases hop : inst.op with
    | barrierOp => exact absurd hop hbarrier
    | memoryBarrierOp => exact absurd hop hmembar
    | loadOp | storeOp | tensorCoreLoadOp | tensorCoreStoreOp =>
      refine iff_of_true (agrees_iff_of_target ?_ |>.mpr fun _ => Nat.one_pos) ?_
      · intro _ hfree
        simp [chooseUnit, hfree, bind, Except.bind, pure, Except.pure]
      · intro port hport
        cases hport
    | sfuOp =>
      refine (agrees_iff_of_target fun hpos hfree => ?_).trans ?_
      · simp only [SchedConfig.units] at hpos
        simp [chooseUnit, hpos, hfree, bind, Except.bind, pure, Except.pure]
      · simp [SchedConfig.uncheckedPort, hcdp]
    | tensorCoreOp =>
      refine (agrees_iff_of_target fun hpos hfree => ?_).trans ?_
      · simp only [SchedConfig.units] at hpos
        simp [chooseUnit, hpos, hfree, bind, Except.bind, pure, Except.pure]
      · simp [SchedConfig.uncheckedPort, hcdp]
    | dpOp =>
      by_cases hdp : 0 < cfg.gpgpuNumDpUnits
      · simp only [hdp, ↓reduceIte]
        refine iff_of_true (agrees_iff_of_target (fun hpos hfree => ?_) |>.mpr fun _ => hdp) ?_
        · simp [chooseUnit, hdp, hfree, bind, Except.bind, pure, Except.pure]
        · simp [SchedConfig.uncheckedPort, hdp]
      · simp only [hdp, ↓reduceIte]
        refine (agrees_iff_of_target fun hpos hfree => ?_).trans ?_
        · simp only [SchedConfig.units] at hpos
          simp [chooseUnit, hdp, hpos, hfree, bind, Except.bind, pure, Except.pure]
        · simp [SchedConfig.uncheckedPort, hdp, hcdp]
    | specializedUnitOp specId =>
      by_cases hspec : specId < cfg.specializedUnit.length
      · simp only [require, hspec, ↓reduceIte]
        refine (agrees_iff_of_target fun hpos hfree => ?_).trans ?_
        · simp only [SchedConfig.units, List.getElem?_eq_getElem hspec, Option.getD_some] at hpos
          simp [chooseUnit, fetch, List.getElem?_eq_getElem hspec, hpos, hfree, bind, Except.bind,
            pure, Except.pure]
        · simp [SchedConfig.uncheckedPort, hspec, hcdp]
      · refine iff_of_true (fun port execType hclass => ?_) fun port hport => ?_
        · simp only [require, hspec, ↓reduceIte] at hclass
          cases hclass
        · simp [SchedConfig.uncheckedPort, hspec] at hport
    | noOp | aluOp | spOp | intpOp | aluSfuOp | branchOp | callOps | retOps | exitOps =>
      obtain ⟨hint, hsp⟩ :=
        chooseUnit_spInt hid hregs (show inst.op.onSpInt = true by rw [hop]; rfl)
      rw [hop] at hint hsp
      refine iff_of_true (fun port execType => ?_) fun port hport => ?_
      · dsimp only
        split
        · rename_i hroute
          have hunits : 0 < cfg.units .int := hroute.1
          exact (agrees_iff_of_target fun _ => hint hroute.2 hroute.1).mpr (fun _ => hunits) port
            execType
        · split
          · rename_i hroute
            have hunits : 0 < cfg.units .sp := hroute.1
            exact (agrees_iff_of_target fun _ => hsp hroute.2 hroute.1).mpr (fun _ => hunits) port
              execType
          · intro hclass
            cases hclass
      · cases hport

theorem classifyIssueTarget_agrees_iff_at_alu :
    ∃ c : IssueState Unit Unit Nat Unit,
      c.classifyIssueTarget (.sample 64 1) 0 { pc := 8, op := .aluOp } =
          .ok (some .int, .int, true) ∧
        c.chooseUnit (.sample 64 1) 0 .aluOp .none = .ok (some (.int, .int)) := by
  have hid : 0 < (SchedConfig.sample 64 1).gpgpuNumSchedPerCore := by decide
  have hregs : (IssueState.sample { pc := 8, op := .aluOp } 0).Partitioned (.sample 64 1) :=
    ⟨fun _ => rfl, fun _ _ => rfl⟩
  have hagrees := (classifyIssueTarget_agrees_iff hid hregs { pc := 8, op := .aluOp }).mpr
    fun _ hport => by cases hport
  exact ⟨_, rfl, (hagrees .int .int rfl).1⟩

/-- Co-issue takes an instruction for a special function unit on a core that has none. -/
theorem classifyIssueTarget_missing_sfu :
    ∃ c : IssueState Unit Unit Nat Unit, ∃ inst,
      let cfg := { SchedConfig.sample 64 1 with gpgpuNumSfuUnits := 0 }
      c.classifyIssueTarget cfg 0 inst = .ok (some .sfu, .sfu, true) ∧ cfg.units .sfu = 0 ∧
        c.chooseUnit cfg 0 inst.op .none = .ok none :=
  ⟨.sample { pc := 8, op := .sfuOp } 0, { pc := 8, op := .sfuOp }, rfl, rfl, rfl⟩

end IssueState
end WaspSim
