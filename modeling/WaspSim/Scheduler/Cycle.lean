import WaspSim.Scheduler.Coissue

/-!
# A scheduler cycle

`cycle` counts the eligible warps, tries to issue a producer and a consumer
together, and otherwise issues from the first warp that can: up to
`gpgpu_max_insn_issue_per_warp` instructions of it.
-/

namespace WaspSim

variable {Mem Threads Simt Score : Type}

/-- What a pass over the next instruction of a warp finds. -/
inductive Verdict where
  /-- A device runtime call still has latency to wait for. -/
  | cdpWait
  /-- The instruction is not the one that the SIMT stack asks for. -/
  | flush (pc : Nat)
  /-- An empty slot of the i-buffer. -/
  | skip
  /-- The scoreboard or a queue holds the instruction back. -/
  | blocked
  /-- The execution unit holds the instruction back. -/
  | held
  /-- A device runtime call begins to wait. -/
  | cdpStart (inst : SchedInst)
  | issue (port : OutPort) (execType : ExecUnitType) (inst : SchedInst)
  deriving DecidableEq

/-- The flags that a pass sets. -/
def Verdict.flags : Verdict → IssueFlags
  | .cdpWait | .flush _ | .skip => {}
  | .blocked => { validInst := true }
  | .held | .cdpStart _ => { validInst := true, readyInst := true }
  | .issue .. => { validInst := true, readyInst := true, issuedInst := true }

/-- Set the flags of both. -/
def IssueFlags.or (f g : IssueFlags) : IssueFlags where
  validInst := f.validInst || g.validInst
  readyInst := f.readyInst || g.readyInst
  issuedInst := f.issuedInst || g.issuedInst

namespace IssueState

/-- Whether an entry of the priority list counts as eligible. -/
def eligible (O : Outside Mem Threads Simt Score) (cfg : SchedConfig)
    (c : IssueState Mem Threads Simt Score) :
    Option Nat → Except Halt (IssueState Mem Threads Simt Score × Bool)
  | none => pure (c, false)
  | some w =>
    match c.nextToIssue O w with
    | (c, none) => pure (c, false)
    | (c, some inst) => c.passesScoreboard O cfg w inst false

/-- The eligible warps at the start of `cycle`. -/
def eligibleWarps (O : Outside Mem Threads Simt Score) (cfg : SchedConfig)
    (c : IssueState Mem Threads Simt Score) (prioritized : List (Option Nat)) :
    Except Halt (IssueState Mem Threads Simt Score × Nat) :=
  prioritized.foldlM (fun acc entry => do
    let (c, counts) ← acc.1.eligible O cfg entry
    pure (c, acc.2 + counts.toNat)) (c, 0)

/-- The execution unit that takes a ready instruction after one of the unit `previous`. -/
def chooseUnit (cfg : SchedConfig) (c : IssueState Mem Threads Simt Score) (schedId : Nat)
    (op : OpType) (previous : ExecUnitType) : Except Halt (Option (OutPort × ExecUnitType)) :=
  let differs (execType : ExecUnitType) : Bool :=
    !(cfg.gpgpuDualIssueDiffExecUnits && previous == execType)
  let avail (units : Nat) (port : OutPort) : Except Halt Bool :=
    if 0 < units then RegisterSet.hasFree (c.out port) cfg.subCoreModel schedId else pure false
  let unit (units : Nat) (port : OutPort) (execType : ExecUnitType) :
      Except Halt (Option (OutPort × ExecUnitType)) := do
    let free ← avail units port
    pure (if free then some (port, execType) else none)
  match op with
  | .loadOp | .storeOp | .memoryBarrierOp | .tensorCoreLoadOp | .tensorCoreStoreOp => do
    let free ← RegisterSet.hasFree (c.out .mem) cfg.subCoreModel schedId
    pure (if free && differs .mem then some (.mem, .mem) else none)
  | .dpOp =>
    if 0 < cfg.gpgpuNumDpUnits then
      if differs .dp then unit cfg.gpgpuNumDpUnits .dp .dp else pure none
    else if differs .sfu then unit cfg.gpgpuNumSfuUnits .sfu .sfu
    else pure none
  | .sfuOp => if differs .sfu then unit cfg.gpgpuNumSfuUnits .sfu .sfu else pure none
  | .tensorCoreOp =>
    if differs .tensor then unit cfg.gpgpuNumTensorCoreUnits .tensorCore .tensor else pure none
  | .specializedUnitOp specId =>
    if differs .specialized then do
      let units ← fetch .noSpecializedUnit cfg.specializedUnit[specId]?
      unit units (.specCore specId) .specialized
    else pure none
  | op => do
    let spPipeAvail ← avail cfg.gpgpuNumSpUnits .sp
    let intPipeAvail ← avail cfg.gpgpuNumIntUnits .int
    pure <|
      if 0 < cfg.gpgpuNumIntUnits ∧ intPipeAvail = true ∧ op ≠ .spOp ∧ differs .int = true then
        some (.int, .int)
      else if spPipeAvail = true ∧ (cfg.gpgpuNumIntUnits = 0 ∨ op = .spOp) ∧
          differs .sp = true then
        some (.sp, .sp)
      else none

/-- The units that run device runtime calls. -/
def runsCdp (port : OutPort) : Bool := port == .sp || port == .int

/-- Look at the next instruction of a warp. -/
def inspect (O : Outside Mem Threads Simt Score) (cfg : SchedConfig)
    (c : IssueState Mem Threads Simt Score) (schedId w : Nat) (previous : ExecUnitType) :
    Except Halt (IssueState Mem Threads Simt Score × Verdict) :=
  let sw := c.schedWarps w
  let pc := O.pdomStackTop (c.simtStack w)
  match sw.ibufferNextInst with
  | none => pure (c, if sw.ibufferNextValid then .flush pc else .skip)
  | some inst =>
    if inst.isCdp ≠ 0 ∧ 0 < sw.cdpLatency then do
      require .cdpState (sw.cdpDummy = true)
      pure (c, .cdpWait)
    else do
      require .ibufferInvalid (sw.ibufferNextValid = true)
      if pc ≠ inst.pc then pure (c, .flush pc)
      else do
        let (c, passes) ← c.passesScoreboard O cfg w inst true
        if passes = false then pure (c, .blocked)
        else do
          require .notInPipeline (c.instInPipeline w = true)
          let unit ← c.chooseUnit cfg schedId inst.op previous
          match unit with
          | none => pure (c, .held)
          | some (port, execType) =>
            if inst.isCdp ≠ 0 ∧ runsCdp port = true ∧ sw.cdpDummy = false then
              pure (c, .cdpStart inst)
            else pure (c, .issue port execType inst)

/-- `m_cdp_latency` of a device runtime call on a number of threads. -/
def startLatency (cfg : SchedConfig) (isCdp threads : Nat) : Nat :=
  if isCdp = 1 then u32 (cfg.cdpLatency (isCdp - 1))
  else u32 (cfg.cdpLatency (isCdp - 1) + cfg.cdpLatency isCdp * threads)

end IssueState

/-- The variables of the loop over the instructions of one warp. -/
structure IssueLoop (Mem Threads Simt Score : Type) where
  stage : Stage Mem Threads Simt Score
  flags : IssueFlags
  checked : Nat := 0
  issued : Nat := 0
  /-- `previous_issued_inst_exec_type`. -/
  previous : ExecUnitType := .none

namespace IssueLoop

/-- Act on what a pass found; the flag is true when it leaves the loop. -/
def act (O : Outside Mem Threads Simt Score) (cfg : SchedConfig)
    (v : IssueLoop Mem Threads Simt Score) (w : Nat) (verdict : Verdict) :
    Except Halt (IssueLoop Mem Threads Simt Score × Bool) :=
  let v := { v with flags := v.flags.or verdict.flags }
  let core := v.stage.core
  let activeMask := O.activeMask (core.simtStack w)
  match verdict with
  | .cdpWait =>
    let core := core.setSchedWarp w fun sw => { sw with cdpLatency := sw.cdpLatency - 1 }
    pure ({ v with stage := { v.stage with core } }, true)
  | .cdpStart inst =>
    let core := core.setSchedWarp w fun sw =>
      { sw with
        cdpLatency := IssueState.startLatency cfg inst.isCdp (activeCount activeMask)
        cdpDummy := true }
    pure ({ v with stage := { v.stage with core } }, true)
  | .flush pc => do
    let core ← (core.setSchedWarp w fun sw => { sw with nextPc := pc }).ibufferFlush O cfg w
    pure ({ v with stage := { v.stage with core }, checked := v.checked + 1 }, false)
  | .skip | .blocked | .held => pure ({ v with checked := v.checked + 1 }, false)
  | .issue port execType inst => do
    let core := core.setSchedWarp w fun sw =>
      { sw with cdpDummy := sw.cdpDummy && !(inst.isCdp != 0 && IssueState.runsCdp port) }
    let stage ← { v.stage with core }.issueWarp O cfg port inst activeMask w
    pure ({ v with
      stage := stage.doOnWarpIssued w
      checked := v.checked + 1
      issued := v.issued + 1
      previous := execType }, false)

/-- The loop over the instructions of one warp, with the passes that are left. -/
def run (O : Outside Mem Threads Simt Score) (cfg : SchedConfig) (w : Nat) :
    Nat → IssueLoop Mem Threads Simt Score → Except Halt (IssueLoop Mem Threads Simt Score)
  | 0, v =>
    -- the condition of the loop is tested once more, which may end the wait at a memory barrier
    pure { v with stage := { v.stage with core := (v.stage.core.waiting O w).1 } }
  | n + 1, v =>
    let (core, waiting) := v.stage.core.waiting O w
    let v := { v with stage := { v.stage with core } }
    if waiting = true ∨ (core.schedWarps w).ibufferEmpty = true ∨
        ¬(v.checked ≤ v.issued ∧ v.issued < cfg.gpgpuMaxInsnIssuePerWarp) then
      pure v
    else do
      let (core, verdict) ← core.inspect O cfg v.stage.sched.id w v.previous
      let (v, leave) ← { v with stage := { v.stage with core } }.act O cfg w verdict
      if leave then pure v else run O cfg w n v

end IssueLoop

namespace Stage

/-- Note the warp that issued, and count its instructions. -/
def finishIssue (g : Stage Mem Threads Simt Score) (w issued : Nat) :
    Stage Mem Threads Simt Score :=
  let last := (List.range g.sched.supervised.length).foldl
    (fun last i => if g.sched.supervised[i]? = some w then i else last) g.sched.lastSupervisedIssued
  { g with
    sched := { g.sched with lastSupervisedIssued := last, numIssuedLastCycle := issued }
    stats := g.stats.countIssue g.sched.id issued }

/-- The loop over the prioritized warps, which ends with the first one that issues. -/
def issueWarps (O : Outside Mem Threads Simt Score) (cfg : SchedConfig)
    (g : Stage Mem Threads Simt Score) (flags : IssueFlags) :
    List (Option Nat) → Except Halt (Stage Mem Threads Simt Score × IssueFlags)
  | [] => pure (g, flags)
  | none :: rest => issueWarps O cfg g flags rest
  | some w :: rest =>
    if g.core.doneExit w then issueWarps O cfg g flags rest
    else do
      -- the test for a debug message, which may end a memory barrier
      let core := (g.core.waiting O w).1
      let v ← IssueLoop.run O cfg w cfg.gpgpuMaxInsnIssuePerWarp
        { stage := { g with core }, flags }
      if 0 < v.issued then pure (v.stage.finishIssue w v.issued, v.flags)
      else issueWarps O cfg v.stage v.flags rest

/-- The issue stall statistics at the end of `cycle`. -/
def countStall (g : Stage Mem Threads Simt Score) (flags : IssueFlags) :
    Stage Mem Threads Simt Score :=
  if flags.validInst = false then { g with stats := g.stats.countDistro 0 }
  else if flags.readyInst = false then { g with stats := g.stats.countDistro 1 }
  else if flags.issuedInst = false then { g with stats := g.stats.countDistro 2 }
  else g

/-- The rest of `cycle` after a co-issue that issued nothing. -/
def issueSingle (O : Outside Mem Threads Simt Score) (cfg : SchedConfig)
    (g : Stage Mem Threads Simt Score) (flags : IssueFlags) :
    Except Halt (Stage Mem Threads Simt Score) := do
  let (g, flags) ← g.issueWarps O cfg flags g.sched.prioritized
  pure (g.countStall flags)

/-- The start of `cycle`, which samples the eligible warps. -/
def sample (O : Outside Mem Threads Simt Score) (cfg : SchedConfig)
    (g : Stage Mem Threads Simt Score) : Except Halt (Stage Mem Threads Simt Score) := do
  let (core, eligible) ← g.core.eligibleWarps O cfg g.sched.prioritized
  pure { g with
    core, stats := g.stats.sampleEligible g.sched.id eligible g.sched.supervised.length }

/-- `cycle`, after `order_warps`. -/
def cycle (O : Outside Mem Threads Simt Score) (cfg : SchedConfig)
    (g : Stage Mem Threads Simt Score) : Except Halt (Stage Mem Threads Simt Score) := do
  let g ← g.sample O cfg
  let (g, flags, coissued) ← g.tryPcCoissue O cfg {}
  if coissued then pure g else g.issueSingle O cfg flags

end Stage
end WaspSim
