import WaspSim.Shader.Instruction

/-!
# Instructions and configuration of the scheduler

What a scheduler reads of a decoded instruction, and the options of the core that
decide which execution unit takes it. The instructions of the trace-driven front
end, whose flags no PTX instruction has, are left out.
-/

namespace WaspSim

/-- `op_type`. -/
inductive OpType where
  | noOp
  | aluOp
  | sfuOp
  | tensorCoreOp
  | dpOp
  | spOp
  | intpOp
  | aluSfuOp
  | loadOp
  | tensorCoreLoadOp
  | tensorCoreStoreOp
  | storeOp
  | branchOp
  | barrierOp
  | memoryBarrierOp
  | callOps
  | retOps
  | exitOps
  /-- The operations from `SPEC_UNIT_START_ID` on, by their distance to it. -/
  | specializedUnitOp (specId : Nat)
  deriving DecidableEq, Repr

/-- `exec_unit_type_t`. -/
inductive ExecUnitType where
  | none
  | sp
  | sfu
  | mem
  | dp
  | int
  | tensor
  | specialized
  deriving DecidableEq, Repr

/-- The output register set of a scheduler that feeds an execution unit: `m_sp_out`,
`m_dp_out`, `m_sfu_out`, `m_int_out`, `m_tensor_core_out`, `m_mem_out` and
`m_spec_cores_out`. -/
inductive OutPort where
  | sp
  | dp
  | sfu
  | int
  | tensorCore
  | mem
  | specCore (specId : Nat)
  deriving DecidableEq, Repr

/-- `barrier_type`. -/
inductive BarrierType where
  | notBar
  | sync
  | arrive
  | red
  deriving DecidableEq, Repr

/-- A decoded instruction. The code that interprets it further finds it by its PC. -/
structure SchedInst where
  pc : Nat
  isize : Nat := 8
  op : OpType
  /-- `m_is_cdp`, which is not 0 for a call into the device runtime. -/
  isCdp : Nat := 0
  barType : BarrierType := .notBar
  barId : Nat := 0
  /-- `bar_count`, none for -1. -/
  barCount : Option Nat := none
  /-- The queue that a `ld` or `mov` with a queue option names. -/
  queue : Option QueueInst := none
  /-- `set_opcode_and_latency` makes every `ld` a load, and a `mov` an ALU operation
  unless an operand is in memory. -/
  op_of_queue : ∀ q ∈ queue, (q.load = true → op = .loadOp) ∧
    (q.load = false → op = .aluOp ∨ op = .loadOp ∨ op = .storeOp) := by simp
  deriving DecidableEq, Repr

/-- The options that the issue stage of a core reads. -/
structure SchedConfig extends Config where
  /-- `gpgpu_wasp_pc_coissue_enable`. -/
  gpgpuWaspPcCoissueEnable : Bool
  /-- `sub_core_model`. -/
  subCoreModel : Bool := false
  /-- `gpgpu_num_sched_per_core`. -/
  gpgpuNumSchedPerCore : Nat := 1
  /-- `gpgpu_max_insn_issue_per_warp`. -/
  gpgpuMaxInsnIssuePerWarp : Nat := 2
  /-- `gpgpu_dual_issue_diff_exec_units`. -/
  gpgpuDualIssueDiffExecUnits : Bool := true
  /-- `gpgpu_num_sp_units`. -/
  gpgpuNumSpUnits : Nat := 1
  /-- `gpgpu_num_dp_units`. -/
  gpgpuNumDpUnits : Nat := 0
  /-- `gpgpu_num_int_units`. -/
  gpgpuNumIntUnits : Nat := 0
  /-- `gpgpu_num_sfu_units`. -/
  gpgpuNumSfuUnits : Nat := 1
  /-- `gpgpu_num_tensor_core_units`. -/
  gpgpuNumTensorCoreUnits : Nat := 0
  /-- `num_units` of each entry of `m_specialized_unit`. -/
  specializedUnit : List Nat := []
  /-- `max_barriers_per_cta`. -/
  maxBarriersPerCta : Nat := 16
  /-- `cdp_latency`. -/
  cdpLatency : Nat → Nat := fun _ => 0

namespace SchedConfig

/-- The same core with producer/consumer co-issue switched off. -/
def withoutCoissue (cfg : SchedConfig) : SchedConfig :=
  { cfg with gpgpuWaspPcCoissueEnable := false }

/-- A small core with an INT unit beside the SP unit. -/
def sample (threads entries : Nat) : SchedConfig where
  toConfig := .sample threads entries
  gpgpuWaspPcCoissueEnable := true
  gpgpuNumIntUnits := 1

end SchedConfig
end WaspSim
