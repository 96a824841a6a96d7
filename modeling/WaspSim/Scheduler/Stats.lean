import WaspSim.Scheduler.Instruction

/-!
# Issue statistics

The counters of `shader_core_stats` that the schedulers share. The cycle
distribution and the counters of each scheduler are `unsigned`, the others
`unsigned long long`; both wrap around.
-/

namespace WaspSim

/-- The value of an `unsigned long long` computation. -/
def u64 (n : Nat) : Nat := n % 2 ^ 64

/-- `active_count`. -/
def activeCount (activeMask : ActiveMask) : Nat := (List.range 32).countP activeMask.getLsbD

/-- `pc_coissue_fail_reason`. -/
inductive PcCoissueFailReason where
  | none
  | scoreboard
  | fuConflict
  | lsuLsuConflict
  | structural
  | dispatchPort
  | resultBus
  deriving DecidableEq, Repr

/-- The counters of `try_pc_coissue`. -/
structure CoissueStats where
  attempts : Nat := 0
  success : Nat := 0
  failScoreboard : Nat := 0
  failFuConflict : Nat := 0
  failLsuLsuConflict : Nat := 0
  failStructuralConflict : Nat := 0
  failDispatchPort : Nat := 0
  failResultBus : Nat := 0
  deriving DecidableEq, Repr

/-- The counters of the issue stage. -/
structure IssueStats where
  coissue : CoissueStats := {}
  sameWarpDualIssueFallback : Nat := 0
  singleIssueFallback : Nat := 0
  totalIssueCount : Nat := 0
  singleIssueCount : Nat := 0
  dualIssueCount : Nat := 0
  /-- `single_issue_nums`, for each scheduler of a core. -/
  singleIssueNums : Nat → Nat := fun _ => 0
  /-- `dual_issue_nums`, for each scheduler of a core. -/
  dualIssueNums : Nat → Nat := fun _ => 0
  /-- `shader_cycle_distro`: idle, waiting and stalled cycles, then issues by active lanes. -/
  shaderCycleDistro : Nat → Nat := fun _ => 0
  eligibleWarpCount : Nat → Nat := fun _ => 0
  eligibleWarpSlotCount : Nat → Nat := fun _ => 0
  eligibleWarpSampleCount : Nat → Nat := fun _ => 0

/-- Add to one counter of an array, wrapping with `wrap`. -/
def addAt (wrap : Nat → Nat) (counters : Nat → Nat) (i n : Nat) : Nat → Nat :=
  Function.update counters i (wrap (counters i + n))

namespace CoissueStats

/-- `record_pc_coissue_fail`. -/
def recordFail (s : CoissueStats) : PcCoissueFailReason → CoissueStats
  | .scoreboard => { s with failScoreboard := u64 (s.failScoreboard + 1) }
  | .fuConflict => { s with failFuConflict := u64 (s.failFuConflict + 1) }
  | .lsuLsuConflict =>
    { s with
      failLsuLsuConflict := u64 (s.failLsuLsuConflict + 1)
      failFuConflict := u64 (s.failFuConflict + 1) }
  | .structural => { s with failStructuralConflict := u64 (s.failStructuralConflict + 1) }
  | .dispatchPort => { s with failDispatchPort := u64 (s.failDispatchPort + 1) }
  | .resultBus => { s with failResultBus := u64 (s.failResultBus + 1) }
  | .none => s

end CoissueStats

namespace IssueStats

/-- Count a cycle in `shader_cycle_distro`. -/
def countDistro (s : IssueStats) (bucket : Nat) : IssueStats :=
  { s with shaderCycleDistro := addAt u32 s.shaderCycleDistro bucket 1 }

/-- Count an issued instruction by its active lanes. -/
def countLanes (s : IssueStats) (activeMask : ActiveMask) : IssueStats :=
  s.countDistro (2 + activeCount activeMask)

/-- Sample the eligible warps of a scheduler. -/
def sampleEligible (s : IssueStats) (schedId eligible slots : Nat) : IssueStats :=
  { s with
    eligibleWarpCount := addAt u64 s.eligibleWarpCount schedId eligible
    eligibleWarpSlotCount := addAt u64 s.eligibleWarpSlotCount schedId slots
    eligibleWarpSampleCount := addAt u64 s.eligibleWarpSampleCount schedId 1 }

/-- Begin an attempt to issue a pair. -/
def countAttempt (s : IssueStats) : IssueStats :=
  { s with coissue := { s.coissue with attempts := u64 (s.coissue.attempts + 1) } }

/-- `record_pc_coissue_fail`. -/
def recordPcCoissueFail (s : IssueStats) (reason : PcCoissueFailReason) : IssueStats :=
  { s with coissue := s.coissue.recordFail reason }

/-- Count an issued pair. -/
def countCoissue (s : IssueStats) (schedId : Nat) : IssueStats :=
  { s with
    coissue := { s.coissue with success := u64 (s.coissue.success + 1) }
    dualIssueNums := addAt u32 s.dualIssueNums schedId 1
    totalIssueCount := u64 (s.totalIssueCount + 1)
    dualIssueCount := u64 (s.dualIssueCount + 1) }

/-- Count the issue of `issued` instructions of one warp. -/
def countIssue (s : IssueStats) (schedId issued : Nat) : IssueStats :=
  let s := { s with totalIssueCount := u64 (s.totalIssueCount + 1) }
  if issued = 1 then
    { s with
      singleIssueNums := addAt u32 s.singleIssueNums schedId 1
      singleIssueCount := u64 (s.singleIssueCount + 1)
      singleIssueFallback := u64 (s.singleIssueFallback + 1) }
  else
    { s with
      dualIssueNums := addAt u32 s.dualIssueNums schedId 1
      dualIssueCount := u64 (s.dualIssueCount + 1)
      sameWarpDualIssueFallback := u64 (s.sameWarpDualIssueFallback + 1) }

end IssueStats
end WaspSim
