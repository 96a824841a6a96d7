import WaspSim.Shader.Decode
import WaspSim.Shader.Machine

/-!
# Corresponding machines

A core that runs a program on the register queues and a core that runs the same
program on the shared-memory queues. Corresponding states hold the same queues
and counters, each under its own kind, the same warps, and the same instructions
in the load/store unit up to their kind.
-/

namespace WaspSim

/-- Configurations of the two cores: one enables RFQ alone and the other SMEMQ alone,
with equal options. -/
structure Config.Twin (cfg cfg' : Config) : Prop where
  rfq_enabled : ∀ kind, cfg.enabled kind = true ↔ kind = .rfq
  smemq_enabled : ∀ kind, cfg'.enabled kind = true ↔ kind = .smemq
  entries_eq : cfg'.smemq.entries = cfg.rfq.entries
  modelData_eq : cfg'.smemq.modelData = cfg.rfq.modelData
  metadata_eq : cfg'.smemq.metadataProducerWarpsPerCta = cfg.rfq.metadataProducerWarpsPerCta
  warpSize_eq : cfg'.warpSize = cfg.warpSize
  maxWarpsPerShader_eq : cfg'.maxWarpsPerShader = cfg.maxWarpsPerShader
  threadsPerCta_eq : cfg'.threadsPerCta = cfg.threadsPerCta
  hasL1D_eq : cfg'.hasL1D = cfg.hasL1D
  gmemSkipL1D_eq : cfg'.gmemSkipL1D = cfg.gmemSkipL1D
  l1Latency_eq : cfg'.l1Latency = cfg.l1Latency
  l1Banks_eq : cfg'.l1Banks = cfg.l1Banks

namespace Config.Twin

variable {cfg cfg' : Config}

/-- Twin cores have as many warps in a CTA. -/
theorem warpsPerCta_eq (h : Twin cfg cfg') : cfg'.warpsPerCta = cfg.warpsPerCta := by
  simp only [warpsPerCta, paddedCtaSize, h.threadsPerCta_eq, h.warpSize_eq]

/-- Twin cores have as many producer warps. -/
theorem producerWarps_eq (h : Twin cfg cfg') :
    cfg'.producerWarps .smemq = cfg.producerWarps .rfq := by
  simp only [producerWarps, options, h.metadata_eq, h.warpsPerCta_eq]

/-- Twin cores agree on whether the queues hold data. -/
theorem modelsData_eq (h : Twin cfg cfg') : cfg'.modelsData .smemq = cfg.modelsData .rfq := by
  simp only [modelsData, options, (h.rfq_enabled .rfq).mpr rfl, (h.smemq_enabled .smemq).mpr rfl,
    h.modelData_eq]

/-- The two schedulers give every warp the same role. -/
theorem isWaspProducerWarp_eq (h : Twin cfg cfg') (warpId : Nat) :
    Shader.isWaspProducerWarp cfg' warpId = Shader.isWaspProducerWarp cfg warpId := by
  rw [Shader.isWaspProducerWarp_eq h.rfq_enabled, Shader.isWaspProducerWarp_eq h.smemq_enabled,
    h.producerWarps_eq, h.warpsPerCta_eq]

end Config.Twin

/-- The instruction in the other core. -/
def WarpInst.toSmemq (inst : WarpInst) : WarpInst :=
  { inst with toQueueInst := inst.toQueueInst.toSmemq }

@[simp] theorem WarpInst.tokenFromInst_toSmemq (inst : WarpInst) :
    inst.toSmemq.tokenFromInst = inst.tokenFromInst := rfl

@[simp] theorem WarpInst.kind_toSmemq (inst : WarpInst) : inst.toSmemq.kind = .smemq := rfl

/-- The load/store unit of the other core. -/
def LdstUnit.toSmemq (u : LdstUnit) : LdstUnit where
  dispatch := u.dispatch.map WarpInst.toSmemq
  l1LatencyQueue := u.l1LatencyQueue.map WarpInst.toSmemq
  memory := u.memory.map WarpInst.toSmemq
  l1dReady := u.l1dReady.map WarpInst.toSmemq
  nextGlobal := u.nextGlobal.map WarpInst.toSmemq
  nextWb := u.nextWb.map WarpInst.toSmemq

/-- Every instruction in the unit is on the register queues. -/
structure LdstUnit.OnlyRfq (u : LdstUnit) : Prop where
  dispatch : ∀ inst ∈ u.dispatch, inst.kind = .rfq
  l1LatencyQueue : ∀ inst ∈ u.l1LatencyQueue, inst.kind = .rfq
  memory : ∀ inst ∈ u.memory, inst.kind = .rfq
  l1dReady : ∀ inst ∈ u.l1dReady, inst.kind = .rfq
  nextGlobal : ∀ inst ∈ u.nextGlobal, inst.kind = .rfq
  nextWb : ∀ inst ∈ u.nextWb, inst.kind = .rfq

/-- The event in the other core. -/
def Event.toSmemq : Event → Event
  | .loaded inst executed value => .loaded inst.toSmemq executed value
  | .moved inst executed written => .moved inst.toSmemq executed written
  | .answered uid => .answered uid
  | .completed uid => .completed uid
  | .retired ctaHwId => .retired ctaHwId

/-- The action in the other core. -/
def Action.toSmemq {Mem : Type} : Action Mem → Action Mem
  | .test warpId inst countStall => .test warpId inst.toSmemq countStall
  | .issue warpId inst activeMask input => .issue warpId inst.toSmemq activeMask input
  | a => a

namespace Shader

variable {Mem : Type} {cfg cfg' : Config} {s s' : Shader Mem}

/-- Corresponding states of the two cores. -/
structure Corresponds (s s' : Shader Mem) : Prop where
  table_eq : s'.smemqTable = s.waspRfqTable
  stats_eq : s'.stats .smemq = s.stats .rfq
  warps_eq : s'.warps = s.warps
  ctaStatus_eq : s'.ctaStatus = s.ctaStatus
  ldst_eq : s'.ldst = s.ldst.toSmemq
  onlyRfq : s.ldst.OnlyRfq
  mem_eq : s'.mem = s.mem
  nextUid_eq : s'.nextUid = s.nextUid

namespace Corresponds

theorem initial (mem : Mem) : Corresponds (Shader.initial mem) (Shader.initial mem) :=
  ⟨rfl, rfl, rfl, rfl, rfl, by constructor <;> simp [Shader.initial], rfl, rfl⟩

theorem tables_eq (h : Corresponds s s') : s'.tables .smemq = s.tables .rfq := h.table_eq

theorem setTable (h : Corresponds s s') (table : QueueTable) :
    Corresponds (s.setTable .rfq table) (s'.setTable .smemq table) :=
  { h with table_eq := by simp [smemqTable, waspRfqTable, Shader.setTable] }

theorem putQueue (h : Corresponds s s') (key : QueueKey) (q : Queue) :
    Corresponds (s.putQueue .rfq key q) (s'.putQueue .smemq key q) := by
  unfold Shader.putQueue
  rw [h.tables_eq]
  exact h.setTable _

theorem count (h : Corresponds s s') (g : QueueStats → QueueStats) :
    Corresponds (s.count .rfq g) (s'.count .smemq g) :=
  { h with stats_eq := by simp [Shader.count, h.stats_eq] }

theorem countStage (h : Corresponds s s') (stage : Nat) :
    Corresponds (s.countStage .rfq stage) (s'.countStage .smemq stage) :=
  { h with }

theorem setWarp (h : Corresponds s s') (w : Nat) (g : Warp → Warp) :
    Corresponds (s.setWarp w g) (s'.setWarp w g) :=
  { h with warps_eq := by simp [Shader.setWarp, h.warps_eq] }

theorem setLdst (h : Corresponds s s') {u u' : LdstUnit} (hu : u' = u.toSmemq)
    (honly : u.OnlyRfq) : Corresponds (s.setLdst u) (s'.setLdst u') :=
  { h with ldst_eq := hu, onlyRfq := honly }

theorem eraseCta (h : Corresponds s s') (ctaHwId : Nat) :
    Corresponds (s.eraseCta ctaHwId) (s'.eraseCta ctaHwId) :=
  { h with table_eq := by simp only [smemqTable, waspRfqTable, Shader.eraseCta, h.tables_eq] }

theorem find_eq (h : Corresponds s s') (key : QueueKey) :
    (s'.tables .smemq).find key = (s.tables .rfq).find key := by
  rw [h.tables_eq]

end Corresponds

/-- Corresponding states with a second result that is the image of the first core's. -/
def Both {α : Type} (g : α → α) (x y : Shader Mem × α) : Prop :=
  Corresponds x.1 y.1 ∧ y.2 = g x.2

namespace Corresponds

variable (hcfg : cfg.Twin cfg') (h : Corresponds s s')
include hcfg h

/-- Twin cores compute the same key. -/
theorem keyForWarp_eq (warpId queueId : Nat) :
    keyForWarp .smemq cfg' s' warpId queueId = keyForWarp .rfq cfg s warpId queueId := by
  simp only [keyForWarp, hcfg.maxWarpsPerShader_eq, hcfg.warpsPerCta_eq, hcfg.producerWarps_eq,
    h.warps_eq]

/-- Twin cores find the same queue, or create it alike. -/
theorem queueFor (warpId : Nat) (inst : QueueInst) :
    Related (Both id) (queueFor .rfq cfg s warpId inst)
      (queueFor .smemq cfg' s' warpId inst.toSmemq) := by
  unfold Shader.queueFor
  refine .bind (.of_eq (h.keyForWarp_eq hcfg warpId inst.queueId).symm) ?_
  rintro key _ rfl
  refine .bind (.of_eq ?_) ?_
  · rw [h.tables_eq, hcfg.warpSize_eq]
    simp only [Config.options, hcfg.entries_eq]
    rfl
  · rintro ⟨table, queue⟩ _ rfl
    exact .pure ⟨h.setTable table, rfl⟩

/-- `can_issue` gives the same answer and counts the same stall. -/
theorem canIssue (warpId : Nat) {inst : QueueInst} (hkind : inst.kind = .rfq) (countStall : Bool) :
    Related (Both id) (canIssue .rfq cfg s warpId inst countStall)
      (canIssue .smemq cfg' s' warpId inst.toSmemq countStall) := by
  have hsmemq : inst.toSmemq.kind = .smemq := rfl
  have hstall : ∀ {m m' : Shader Mem} (g : QueueStats → QueueStats), Corresponds m m' →
      Corresponds (if countStall then m.count .rfq g else m)
        (if countStall then m'.count .smemq g else m') := by
    intro m m' g hm
    cases countStall with
    | true => exact hm.count g
    | false => exact hm
  simp only [Shader.canIssue, hkind, hsmemq, ne_eq, not_true_eq_false, ↓reduceIte]
  refine .bind (.require (by simp [hcfg.rfq_enabled, hcfg.smemq_enabled])) fun _ _ _ => ?_
  refine .bind (h.queueFor hcfg warpId inst) ?_
  rintro ⟨m, key, queue⟩ ⟨m', _⟩ ⟨hm, rfl⟩
  refine .ite Iff.rfl (fun _ => .ite Iff.rfl (fun _ => ?_) fun _ => ?_)
    fun _ => .ite Iff.rfl (fun _ => ?_) fun _ => .ite Iff.rfl (fun _ => ?_) fun _ => ?_
  · exact .pure ⟨hstall _ hm, rfl⟩
  · exact .pure ⟨hm, rfl⟩
  · exact .pure ⟨hstall _ hm, rfl⟩
  · exact .pure ⟨hstall _ hm, rfl⟩
  · exact .pure ⟨hm, rfl⟩

/-- Twin cores prepare twin instructions alike. -/
theorem prepareIssue {inst : WarpInst} (hkind : inst.kind = .rfq) :
    Related (fun x y => Both WarpInst.toSmemq x y ∧ x.2.kind = .rfq)
      (prepareIssue .rfq cfg s inst) (prepareIssue .smemq cfg' s' inst.toSmemq) := by
  have hsmemq : inst.toSmemq.kind = .smemq := rfl
  simp only [Shader.prepareIssue, (hcfg.rfq_enabled .rfq).mpr rfl,
    (hcfg.smemq_enabled .smemq).mpr rfl, hkind, hsmemq, ne_eq, not_true_eq_false, or_self,
    Bool.true_eq_false, ↓reduceIte]
  refine .bind (h.queueFor hcfg inst.warpId inst.toQueueInst) ?_
  rintro ⟨m, key, queue⟩ ⟨m', _⟩ ⟨hm, rfl⟩
  refine .ite Iff.rfl (fun _ => ?_) fun _ => ?_
  · refine .bind (.of_eq rfl) fun _ _ _ => .bind (.of_eq rfl) ?_
    rintro ⟨queue', token⟩ _ rfl
    exact .pure ⟨⟨((hm.putQueue key queue').count _).countStage 0, rfl⟩, hkind⟩
  · exact .pure ⟨⟨hm.countStage 1, rfl⟩, hkind⟩

/-- Twin cores finish twin instructions alike. -/
theorem afterFuncExec {inst : WarpInst} (hkind : inst.kind = .rfq) :
    Related Corresponds (afterFuncExec .rfq cfg s inst)
      (afterFuncExec .smemq cfg' s' inst.toSmemq) := by
  have hsmemq : inst.toSmemq.kind = .smemq := rfl
  simp only [Shader.afterFuncExec, (hcfg.rfq_enabled .rfq).mpr rfl,
    (hcfg.smemq_enabled .smemq).mpr rfl, hkind, hsmemq, ne_eq, not_true_eq_false, or_self,
    Bool.true_eq_false, ↓reduceIte, WarpInst.tokenFromInst_toSmemq]
  refine .bind (.of_eq (h.find_eq _).symm) ?_
  rintro queue _ rfl
  refine .ite Iff.rfl (fun _ => ?_) fun _ => ?_
  · refine .bind (.of_eq rfl) ?_
    rintro queue' _ rfl
    exact .pure (h.putQueue _ queue')
  · refine .bind (.of_eq rfl) fun _ _ _ => .bind (.of_eq rfl) ?_
    rintro queue' _ rfl
    exact .pure ((h.putQueue _ queue').count _)

/-- The pending check of a dispatched load gives the same answer. -/
theorem loadPending {inst : WarpInst} (hkind : inst.kind = .rfq) :
    Related Eq (loadPending .rfq cfg s inst) (loadPending .smemq cfg' s' inst.toSmemq) := by
  have hsmemq : inst.toSmemq.kind = .smemq := rfl
  have hload : inst.toSmemq.load = inst.load := rfl
  simp only [Shader.loadPending, (hcfg.rfq_enabled .rfq).mpr rfl,
    (hcfg.smemq_enabled .smemq).mpr rfl, hkind, hsmemq, hload, ne_eq, not_true_eq_false, false_or,
    Bool.true_eq_false, WarpInst.tokenFromInst_toSmemq, h.find_eq]
  exact .of_eq rfl

/-- Marking a response tells both cores alike whether it was the last. -/
theorem markMemResponse {inst : WarpInst} (hkind : inst.kind = .rfq) :
    Related (Both id) (markMemResponse .rfq cfg s inst)
      (markMemResponse .smemq cfg' s' inst.toSmemq) := by
  have hsmemq : inst.toSmemq.kind = .smemq := rfl
  have hload : inst.toSmemq.load = inst.load := rfl
  simp only [Shader.markMemResponse, (hcfg.rfq_enabled .rfq).mpr rfl,
    (hcfg.smemq_enabled .smemq).mpr rfl, hkind, hsmemq, hload, ne_eq, not_true_eq_false, false_or,
    Bool.true_eq_false, WarpInst.tokenFromInst_toSmemq]
  refine .ite Iff.rfl (fun _ => .pure ⟨h, rfl⟩) fun _ => ?_
  refine .bind (.of_eq (h.find_eq _).symm) ?_
  rintro queue _ rfl
  refine .bind (.of_eq rfl) ?_
  rintro ⟨queue', last⟩ _ rfl
  exact .pure ⟨(h.count _).putQueue _ queue', rfl⟩

/-- Twin cores store a word alike. -/
theorem functionalStoreLane (inst : WarpInst) (lane word : Nat) (value : BitVec 64) :
    Related Corresponds (waspRfqFunctionalStoreLane cfg s inst lane word value)
      (smemqFunctionalStoreLane cfg' s' inst.toSmemq lane word value) := by
  simp only [waspRfqFunctionalStoreLane, smemqFunctionalStoreLane, Shader.functionalStoreLane,
    hcfg.modelsData_eq, WarpInst.tokenFromInst_toSmemq]
  refine .ite Iff.rfl (fun _ => .pure h) fun _ => ?_
  refine .bind (.of_eq (h.find_eq _).symm) ?_
  rintro queue _ rfl
  refine .bind (.of_eq rfl) ?_
  rintro queue' _ rfl
  exact .pure (h.putQueue _ queue')

/-- A lane reads the same word. -/
theorem functionalReadLane_eq (inst : WarpInst) (lane word : Nat) :
    smemqFunctionalReadLane cfg' s' inst.toSmemq lane word =
      waspRfqFunctionalReadLane cfg s inst lane word := by
  simp only [smemqFunctionalReadLane, waspRfqFunctionalReadLane, functionalReadLane,
    hcfg.modelsData_eq, WarpInst.tokenFromInst_toSmemq,
    h.find_eq]

end Corresponds
end Shader
end WaspSim
