import Mathlib.Data.List.ReduceOption
import WaspSim.Scheduler.Issue
import WaspSim.Scheduler.Stats

/-!
# Producer/consumer co-issue

`try_pc_coissue` collects the next instruction of every warp as a candidate, and
issues the first ready pair of a producer and a consumer that use different
execution units.
-/

namespace WaspSim

variable {Mem Threads Simt Score : Type}

/-- `scheduler_unit`, after `order_warps`. -/
structure Scheduler where
  /-- `m_id`. -/
  id : Nat
  /-- `m_next_cycle_prioritized_warps`, an order of some supervised warps. -/
  prioritized : List (Option Nat)
  prioritized_nodup : prioritized.reduceOption.Nodup
  /-- `m_supervised_warps`. -/
  supervised : List Nat
  /-- `m_last_supervised_issued`. -/
  lastSupervisedIssued : Nat := 0
  /-- `m_num_issued_last_cycle`. -/
  numIssuedLastCycle : Nat := 0

/-- What one scheduler of a core works on. -/
structure Stage (Mem Threads Simt Score : Type) where
  core : IssueState Mem Threads Simt Score
  stats : IssueStats
  sched : Scheduler

/-- A scheduler of warp 0 alone. -/
def Stage.ofWarp (core : IssueState Mem Threads Simt Score) : Stage Mem Threads Simt Score where
  core
  stats := {}
  sched := { id := 0, prioritized := [some 0], prioritized_nodup := by decide, supervised := [0] }

/-- A scheduler of warps 0 and 1. -/
def Stage.ofPair (core : IssueState Mem Threads Simt Score) : Stage Mem Threads Simt Score where
  core
  stats := {}
  sched := {
    id := 0
    prioritized := [some 0, some 1]
    prioritized_nodup := by decide
    supervised := [0, 1] }

/-- The three flags of `cycle`. -/
@[ext]
structure IssueFlags where
  validInst : Bool := false
  readyInst : Bool := false
  issuedInst : Bool := false
  deriving DecidableEq, Repr

/-- The fields of an `issue_candidate` that are set once it is ready. -/
structure IssueTarget where
  activeMask : ActiveMask
  out : OutPort
  execType : ExecUnitType
  deriving DecidableEq, Repr

/-- `issue_candidate`, when it is valid: its target, or why it is not ready. -/
structure IssueCandidate where
  warpId : Nat
  inst : SchedInst
  target : Except PcCoissueFailReason IssueTarget
  deriving DecidableEq

/-- `ready`. -/
def IssueCandidate.ready (cand : IssueCandidate) : Bool := cand.target.isOk

/-- What a candidate becomes from the outputs and the result of `classify_issue_target`. -/
def issueTarget (activeMask : ActiveMask) (execType : ExecUnitType) :
    Option OutPort → Bool → Except PcCoissueFailReason IssueTarget
  | some out, true => .ok { activeMask, out, execType }
  | some _, false => .error .dispatchPort
  | none, _ => .error .structural

namespace IssueState

/-- The next instruction in the i-buffer of a warp, when its PC is the top of the warp's
SIMT stack. -/
def presented (O : Outside Mem Threads Simt Score) (c : IssueState Mem Threads Simt Score)
    (w : Nat) : Option SchedInst :=
  let sw := c.schedWarps w
  if sw.ibufferEmpty then none
  else
    match sw.ibufferNextInst with
    | some inst =>
      if sw.ibufferNextValid && O.pdomStackTop (c.simtStack w) == inst.pc then some inst else none
    | none => none

/-- The instruction that a warp presents, if it is neither done nor waiting. -/
def nextToIssue (O : Outside Mem Threads Simt Score) (c : IssueState Mem Threads Simt Score)
    (w : Nat) : IssueState Mem Threads Simt Score × Option SchedInst :=
  if c.doneExit w then (c, none)
  else
    let (c, waiting) := c.waiting O w
    (c, if waiting then none else c.presented O w)

/-- The scoreboard and the queues let an instruction pass. -/
def passesScoreboard (O : Outside Mem Threads Simt Score) (cfg : SchedConfig)
    (c : IssueState Mem Threads Simt Score) (w : Nat) (inst : SchedInst) (countStall : Bool) :
    Except Halt (IssueState Mem Threads Simt Score × Bool) :=
  if O.checkCollision c.scoreboard w inst then pure (c, false)
  else
    match inst.queue with
    | none => pure (c, true)
    | some q => do
      let (shader, passes) ← Shader.waspRfqCanIssue cfg.toConfig c.shader w q countStall
      let c := c.settle shader
      if passes = false then pure (c, false)
      else do
        let (shader, passes) ← Shader.smemqCanIssue cfg.toConfig c.shader w q countStall
        pure (c.settle shader, passes)

/-- `classify_issue_target`, with its two outputs and its result. -/
def classifyIssueTarget (cfg : SchedConfig) (c : IssueState Mem Threads Simt Score)
    (schedId : Nat) (inst : SchedInst) : Except Halt (Option OutPort × ExecUnitType × Bool) :=
  let target (port : OutPort) (execType : ExecUnitType) :
      Except Halt (Option OutPort × ExecUnitType × Bool) := do
    let free ← RegisterSet.hasFree (c.out port) cfg.subCoreModel schedId
    pure (some port, execType, free)
  if inst.op = .barrierOp ∨ inst.op = .memoryBarrierOp ∨ inst.isCdp ≠ 0 then
    pure (none, .none, false)
  else
    match inst.op with
    | .loadOp | .storeOp | .tensorCoreLoadOp | .tensorCoreStoreOp => target .mem .mem
    | .tensorCoreOp => target .tensorCore .tensor
    | .sfuOp => target .sfu .sfu
    | .dpOp => if 0 < cfg.gpgpuNumDpUnits then target .dp .dp else target .sfu .sfu
    | .specializedUnitOp specId => do
      require .noSpecializedUnit (specId < cfg.specializedUnit.length)
      target (.specCore specId) .specialized
    | op =>
      if 0 < cfg.gpgpuNumIntUnits ∧ op ≠ .spOp then target .int .int
      else if 0 < cfg.gpgpuNumSpUnits ∧ (cfg.gpgpuNumIntUnits = 0 ∨ op = .spOp) then
        target .sp .sp
      else pure (none, .none, false)

/-- `collect_issue_candidate`. -/
def collectIssueCandidate (O : Outside Mem Threads Simt Score) (cfg : SchedConfig)
    (c : IssueState Mem Threads Simt Score) (schedId : Nat) :
    Option Nat → Except Halt (IssueState Mem Threads Simt Score × Option IssueCandidate)
  | none => pure (c, none)
  | some w =>
    match c.nextToIssue O w with
    | (c, none) => pure (c, none)
    | (c, some inst) => do
      let (c, passes) ← c.passesScoreboard O cfg w inst false
      if passes = false then pure (c, some { warpId := w, inst, target := .error .scoreboard })
      else do
        let (out, execType, free) ← c.classifyIssueTarget cfg schedId inst
        let target := issueTarget (O.activeMask (c.simtStack w)) execType out free
        pure (c, some { warpId := w, inst, target })

end IssueState

/-- The candidates collected so far. -/
structure Collected (Mem Threads Simt Score : Type) where
  core : IssueState Mem Threads Simt Score
  flags : IssueFlags
  producers : List IssueCandidate := []
  consumers : List IssueCandidate := []

/-- Collect the candidate of one entry of the priority list. -/
def Collected.add (O : Outside Mem Threads Simt Score) (cfg : SchedConfig) (schedId : Nat)
    (r : Collected Mem Threads Simt Score) (entry : Option Nat) :
    Except Halt (Collected Mem Threads Simt Score) := do
  let (core, cand) ← r.core.collectIssueCandidate O cfg schedId entry
  match cand with
  | none => pure { r with core }
  | some cand => do
    let flags := { r.flags with validInst := true, readyInst := r.flags.readyInst || cand.ready }
    let producer ← Shader.isWaspProducerWarp cfg.toConfig cand.warpId
    if producer then pure { r with core, flags, producers := r.producers ++ [cand] }
    else pure { r with core, flags, consumers := r.consumers ++ [cand] }

/-- A pair of ready candidates. -/
structure CoissuePair where
  producer : IssueCandidate
  consumer : IssueCandidate
  producerTarget : IssueTarget
  consumerTarget : IssueTarget
  deriving DecidableEq

/-- Test a pair of candidates. -/
def testPair (prod cons : IssueCandidate) : Except PcCoissueFailReason CoissuePair := do
  let producerTarget ← prod.target
  let consumerTarget ← cons.target
  require (if producerTarget.execType = .mem then .lsuLsuConflict else .fuConflict)
    (producerTarget.execType ≠ consumerTarget.execType)
  pure { producer := prod, consumer := cons, producerTarget, consumerTarget }

namespace IssueStats

/-- Try the pairs of one producer, in order. -/
def tryConsumers (s : IssueStats) (prod : IssueCandidate) :
    List IssueCandidate → IssueStats × Option CoissuePair
  | [] => (s, none)
  | cons :: rest =>
    match testPair prod cons with
    | .ok pair => (s.countAttempt, some pair)
    | .error reason => tryConsumers (s.countAttempt.recordPcCoissueFail reason) prod rest

/-- Try all pairs, producer first. -/
def tryProducers (s : IssueStats) (consumers : List IssueCandidate) :
    List IssueCandidate → IssueStats × Option CoissuePair
  | [] => (s, none)
  | prod :: rest =>
    match s.tryConsumers prod consumers with
    | (s, some pair) => (s, some pair)
    | (s, none) => tryProducers s consumers rest

end IssueStats

namespace Stage

/-- `issue_warp`, with its count of active lanes. -/
def issueWarp (O : Outside Mem Threads Simt Score) (cfg : SchedConfig)
    (g : Stage Mem Threads Simt Score) (port : OutPort) (inst : SchedInst)
    (activeMask : ActiveMask) (w : Nat) : Except Halt (Stage Mem Threads Simt Score) := do
  let core ← g.core.issueWarp O cfg port inst activeMask w g.sched.id
  pure { g with core, stats := g.stats.countLanes activeMask }

/-- `do_on_warp_issued`. -/
def doOnWarpIssued (g : Stage Mem Threads Simt Score) (w : Nat) : Stage Mem Threads Simt Score :=
  { g with core := g.core.setSchedWarp w SchedWarp.ibufferStep }

/-- Issue a pair, the producer first. -/
def issuePair (O : Outside Mem Threads Simt Score) (cfg : SchedConfig)
    (g : Stage Mem Threads Simt Score) (pair : CoissuePair) :
    Except Halt (Stage Mem Threads Simt Score) := do
  let prod := pair.producer
  let cons := pair.consumer
  require .notInPipeline (g.core.instInPipeline prod.warpId = true)
  require .notInPipeline (g.core.instInPipeline cons.warpId = true)
  let g ← g.issueWarp O cfg pair.producerTarget.out prod.inst pair.producerTarget.activeMask
    prod.warpId
  let g ← g.issueWarp O cfg pair.consumerTarget.out cons.inst pair.consumerTarget.activeMask
    cons.warpId
  let g := (g.doOnWarpIssued prod.warpId).doOnWarpIssued cons.warpId
  let last := (g.sched.supervised.findIdx? (· = cons.warpId)).getD g.sched.lastSupervisedIssued
  let sched := { g.sched with lastSupervisedIssued := last, numIssuedLastCycle := 2 }
  pure { g with sched, stats := g.stats.countCoissue g.sched.id }

/-- Collect the candidates of all prioritized warps. -/
def collectCandidates (O : Outside Mem Threads Simt Score) (cfg : SchedConfig)
    (g : Stage Mem Threads Simt Score) (flags : IssueFlags) :
    Except Halt (Collected Mem Threads Simt Score) :=
  g.sched.prioritized.foldlM (Collected.add O cfg g.sched.id) { core := g.core, flags }

/-- `try_pc_coissue`, with its flags and its result. -/
def tryPcCoissue (O : Outside Mem Threads Simt Score) (cfg : SchedConfig)
    (g : Stage Mem Threads Simt Score) (flags : IssueFlags) :
    Except Halt (Stage Mem Threads Simt Score × IssueFlags × Bool) :=
  if cfg.gpgpuWaspPcCoissueEnable = false ∨
      (cfg.waspRfqEnabled = false ∧ cfg.smemqEnabled = false) then
    pure (g, flags, false)
  else do
    let r ← g.collectCandidates O cfg flags
    match g.stats.tryProducers r.consumers r.producers with
    | (stats, none) => pure ({ g with core := r.core, stats }, r.flags, false)
    | (stats, some pair) => do
      let g ← issuePair O cfg { g with core := r.core, stats } pair
      pure (g, { r.flags with issuedInst := true }, true)

end Stage
end WaspSim
