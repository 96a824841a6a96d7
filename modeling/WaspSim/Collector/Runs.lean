import Mathlib.Algebra.BigOperators.Group.Multiset.Basic
import WaspSim.Collector.Occupy
import WaspSim.Core.Run

/-!
# Runs of the operand collector

Around the steps of the collector the schedulers issue instructions into the input
registers, finished instructions write their results back and the execution units take
instructions from the output registers. Whatever the order, no assertion of the collector
fails, no instruction is lost or doubled, and every source register is read once.
-/

namespace WaspSim

/-- What the rest of the core does to the collector between and with its steps. -/
inductive RfuAction where
  | step
  /-- A scheduler fills an empty register of an input. -/
  | issue (set reg : Nat) (inst : CollectorInst)
  /-- An execution unit writes the results of an instruction. -/
  | writeback (inst : CollectorInst)
  /-- An execution unit takes an instruction out of a register set. -/
  | drain (set reg : Nat)

/-- The collector with the instructions that have come and those that have gone. -/
structure RfuRun where
  rfu : Rfu
  issued : Multiset CollectorInst := 0
  drained : Multiset CollectorInst := 0

namespace RfuConfig

variable (c : RfuConfig)

/-- One action. -/
def act (r : RfuRun) : RfuAction → Except RfuFault RfuRun
  | .step => do
    let rfu ← c.step r.rfu
    pure { r with rfu := rfu }
  | .issue set reg inst => do
    let regs ← fetch .indexOutOfRange r.rfu.pipe[set]?
    pure { r with
      rfu := { r.rfu with pipe := r.rfu.pipe.set set (regs.set reg (some inst)) }
      issued := inst ::ₘ r.issued }
  | .writeback inst => do
    let (_, _, rfu) ← c.writeback r.rfu inst
    pure { r with rfu := rfu }
  | .drain set reg => do
    let regs ← fetch .indexOutOfRange r.rfu.pipe[set]?
    let inst ← fetch .indexOutOfRange regs[reg]?
    pure { r with
      rfu := { r.rfu with pipe := r.rfu.pipe.set set (regs.set reg none) }
      drained := inst.toList + r.drained }

/-- The actions that the core may take: an issue finds the register empty, and the input
registers are left to the collector. -/
def Offers (r : RfuRun) : RfuAction → Prop
  | .step => True
  | .issue set reg inst => set ∈ c.inputs ∧ c.Accepts inst ∧
      ∃ regs, r.rfu.pipe[set]? = some regs ∧ regs[reg]? = some none
  | .writeback inst => c.Accepts inst
  | .drain set reg => set ∉ c.inputs ∧
      ∃ regs inst, r.rfu.pipe[set]? = some regs ∧ regs[reg]? = some (some inst)

/-- The collector after `init`, with empty register sets of the given sizes. -/
def startRun (sizes : List Nat) : RfuRun where
  rfu := c.start (sizes.map fun n => List.replicate n none)

/-- The invariant of a run. -/
structure Sound (sizes : List Nat) (r : RfuRun) : Prop where
  coherent : r.rfu.Coherent c sizes 0
  clear : ∀ a ∈ r.rfu.allocatedBank, a ≠ .readAlloc
  instructions : r.rfu.resident + r.drained = r.issued
  reads : u32 (r.rfu.regfileReads + r.rfu.owed c) = u32 (r.issued.map c.readCost).sum

variable {c} {sizes : List Nat} {s : Rfu} {r : RfuRun}

/-- What the step does, besides keeping the instructions and the ledger of reads: every bank
that is not written serves the front of its queue. -/
structure Steps (c : RfuConfig) (sizes : List Nat) (s s' : Rfu) : Prop where
  coherent : s'.Coherent c sizes 0
  keeps : Rfu.Keeps c { s with queue := Arbiter.served s.allocatedBank s.queue } s'
  clear : ∀ a ∈ s'.allocatedBank, a ≠ .readAlloc

/-- The step of the collector. -/
theorem step_meets (hw : c.Wired sizes) (h : s.Coherent c sizes 0)
    (hclear : ∀ a ∈ s.allocatedBank, a ≠ .readAlloc) :
    Meets (c.step s) (c.Steps sizes s) := by
  refine .bind (dispatchReadyCu_meets hw h) fun s₁ h₁ => ?_
  refine .bind (allocateReads_meets h₁.coherent (h₁.banks ▸ hclear)) fun s₂ h₂ => ?_
  have hports : Meets (c.inPorts.foldlM c.allocateCu s₂) fun s₃ =>
      s₃.Coherent c sizes 0 ∧ s₂.Keeps c s₃ := by
    refine .foldlM (fun m => m.Coherent c sizes 0 ∧ s₂.Keeps c m) (fun m p hp hm => ?_)
      ⟨h₂.1, .refl s₂⟩
    exact (allocateCu_meets hw hm.1 hp).mono fun m' hm' => ⟨hm'.1, hm.2.trans hm'.2⟩
  refine .bind hports fun s₃ h₃ => .pure ⟨?_, ?_, ?_⟩
  · exact ⟨h₃.1.units_length, h₃.1.queue_length, by simpa [processBanks] using h₃.1.banks_length,
      h₃.1.dispatch_length, h₃.1.sizes, h₃.1.unit, h₃.1.bank, h₃.1.balance, h₃.1.accepts⟩
  · have hkeeps := h₂.2.trans h₃.2
    rw [h₁.banks, h₁.queue] at hkeeps
    exact ⟨hkeeps.resident.trans h₁.keeps.resident, hkeeps.reads.trans h₁.keeps.reads,
      hkeeps.queue⟩
  · intro a ha
    obtain ⟨-, -, rfl⟩ := List.mem_map.mp ha
    exact BankAlloc.noConfusion

/-- A write-back allocates banks for writing only. -/
theorem allocateWrites_meets {inst : CollectorInst} (ha : c.Accepts inst) (dst : List Int)
    {banks : List BankAlloc} (hlen : banks.length = c.numBanks)
    (hclear : ∀ a ∈ banks, a ≠ .readAlloc) :
    Meets (c.allocateWrites inst.warpId inst.schedId dst banks) fun r =>
      r.2.2.length = c.numBanks ∧ ∀ a ∈ r.2.2, a ≠ .readAlloc := by
  induction dst generalizing banks with
  | nil => exact .pure ⟨hlen, hclear⟩
  | cons reg dst ih =>
    rw [allocateWrites]
    refine .ite (fun _ => ?_) fun _ => ?_
    · refine .bind (registerBank_meets ha _) fun bank hbank => ?_
      refine .fetch (List.getElem?_eq_getElem (hlen ▸ hbank)) (.ite (fun _ => ?_) fun _ => ?_)
      · have hset : ∀ a ∈ banks.set bank .writeAlloc, a ≠ .readAlloc := by
          intro a hmem
          rcases List.mem_or_eq_of_mem_set hmem with hmem | rfl
          · exact hclear a hmem
          · exact BankAlloc.noConfusion
        exact .bind (ih (by rwa [List.length_set]) hset) fun r hr => .pure hr
      · exact .pure ⟨hlen, hclear⟩
    · exact .bind (ih hlen hclear) fun r hr => .pure hr

/-- Empty register sets hold nothing. -/
theorem holding_empty {β : Type} [AddCommMonoid β] {f : Nat → Nat → Option CollectorInst → β}
    (hf : ∀ i k, f i k none = 0) :
    holding (fun i => holding (f i)) (sizes.map fun n => List.replicate n none) = 0 := by
  refine holding_eq_zero fun i regs hregs => holding_eq_zero fun k reg hreg => ?_
  obtain ⟨n, -, rfl⟩ := List.mem_map.mp (List.mem_of_getElem? hregs)
  rw [List.eq_of_mem_replicate (List.mem_of_getElem? hreg)]
  exact hf i k

/-- The units of a collector after `init` are free. -/
theorem start_unit {pipe : List PipeRegs} {cu : Nat} {u : CollectorUnit}
    (hu : (c.start pipe).units[cu]? = some u) : u = {} :=
  List.eq_of_mem_replicate (List.mem_of_getElem? hu)

theorem start_sound : c.Sound sizes (c.startRun sizes) := by
  have hqueued : (c.startRun sizes).rfu.queued = 0 := by
    refine holding_eq_zero fun b q hq => ?_
    rw [List.eq_of_mem_replicate (List.mem_of_getElem? hq)]
    rfl
  have hpending : (c.startRun sizes).rfu.pending = 0 := by
    refine holding_eq_zero fun cu u hu => ?_
    rw [start_unit hu]
    rfl
  have hresident : (c.startRun sizes).rfu.resident = 0 := by
    have hunits : (c.startRun sizes).rfu.collecting = 0 := by
      refine holding_eq_zero fun cu u hu => ?_
      rw [start_unit hu]
      rfl
    rw [Rfu.resident, hunits, zero_add]
    exact holding_empty fun _ _ => rfl
  have howed : (c.startRun sizes).rfu.owed c = 0 := by
    have hunits : holding (fun _ u => c.unitDue u) (c.startRun sizes).rfu.units = 0 := by
      refine holding_eq_zero fun cu u hu => ?_
      rw [start_unit hu]
      exact Nat.zero_mul _
    rw [Rfu.owed, hunits, Nat.add_zero]
    exact holding_empty fun i _ => by simp [due]
  refine ⟨⟨List.length_replicate, List.length_replicate, List.length_replicate,
    List.length_map _, ?_, fun cu u hu => ?_, fun b q hq op hop => ?_, ?_, ?_⟩, ?_, ?_, ?_⟩
  · simp [startRun, start, Function.comp_def]
  · rw [start_unit hu]
    exact ⟨fun _ => ⟨rfl, rfl, rfl⟩, fun h => by cases h⟩
  · rw [List.eq_of_mem_replicate (List.mem_of_getElem? hq)] at hop
    cases hop
  · rw [hqueued, hpending]
    rfl
  · rw [hresident]
    exact fun inst hinst => absurd hinst (Multiset.notMem_zero inst)
  · intro a ha
    rw [List.eq_of_mem_replicate ha]
    exact BankAlloc.noConfusion
  · rw [hresident]
    rfl
  · rw [howed]
    rfl

/-- The rest of the core changes a register of a register set. -/
theorem pipe_coherent (h : s.Coherent c sizes 0) {i k : Nat} {regs : PipeRegs}
    {reg : Option CollectorInst} (reg' : Option CollectorInst) (hi : s.pipe[i]? = some regs)
    (hk : regs[k]? = some reg) (ha : ∀ inst ∈ reg', c.Accepts inst) :
    Rfu.Coherent c sizes { s with pipe := s.pipe.set i (regs.set k reg') } 0 ∧
      Rfu.resident { s with pipe := s.pipe.set i (regs.set k reg') } + reg.toList =
        s.resident + reg'.toList := by
  have hresident : Rfu.resident { s with pipe := s.pipe.set i (regs.set k reg') } + reg.toList =
      s.resident + reg'.toList := by
    have hpiped := Rfu.piped_set reg' hi hk
    unfold Rfu.resident
    rw [add_assoc, add_assoc, ← hpiped]
    rfl
  refine ⟨⟨h.units_length, h.queue_length, h.banks_length, h.dispatch_length,
    (Rfu.sizes_set hi).trans h.sizes, h.unit, h.bank, h.balance, fun inst hinst => ?_⟩, hresident⟩
  have hmem : inst ∈ s.resident + (reg'.toList : Multiset CollectorInst) := by
    rw [← hresident]
    exact Multiset.mem_add.mpr (.inl hinst)
  rcases Multiset.mem_add.mp hmem with hmem | hmem
  · exact h.accepts inst hmem
  · exact ha inst (by simpa using hmem)

/-- Every action that the core offers goes through and keeps the invariant. -/
theorem act_meets (hw : c.Wired sizes) (h : c.Sound sizes r) {a : RfuAction}
    (ha : c.Offers r a) : Meets (c.act r a) (c.Sound sizes) := by
  cases a with
  | step =>
    refine .bind (step_meets hw h.coherent h.clear) fun s' hs' => .pure ?_
    obtain ⟨hco, hkeeps, hclear⟩ := hs'
    refine ⟨hco, hclear, ?_, hkeeps.reads.trans h.reads⟩
    rw [hkeeps.resident]
    exact h.instructions
  | issue i k inst =>
    obtain ⟨hin, hacc, regs, hi, hk⟩ := ha
    refine .fetch hi (.pure ?_)
    obtain ⟨hco, hres⟩ := pipe_coherent h.coherent (some inst) hi hk
      (by simpa using hacc)
    have hdue := Rfu.due_set (c := c) (some inst) hi hk
    refine ⟨hco, h.clear, ?_, ?_⟩
    · simp only [Option.toList_none, Multiset.coe_nil, add_zero, Option.toList_some,
        Multiset.coe_singleton] at hres
      rw [hres, add_right_comm, h.instructions, add_comm, Multiset.singleton_add]
    · have hreads := u32_add_right h.reads (c.readCost inst)
      simp only [Rfu.owed, due, hin, ↓reduceIte, Option.elim_none, Option.elim_some,
        Nat.add_zero, Multiset.map_cons, Multiset.sum_cons] at hdue hreads ⊢
      rw [hdue, Nat.add_comm (c.readCost inst), ← hreads]
      exact congrArg u32 (by omega)
  | writeback inst =>
    have hwrite : Meets (c.writeback r.rfu inst) fun w =>
        c.Sound sizes { r with rfu := w.2.2 } := by
      refine .bind (allocateWrites_meets ha inst.dst h.coherent.banks_length h.clear)
        fun w hw' => .pure ?_
      obtain ⟨hco, -, hinst, hreads⟩ := h
      exact ⟨⟨hco.units_length, hco.queue_length, hw'.1, hco.dispatch_length, hco.sizes,
        hco.unit, hco.bank, hco.balance, hco.accepts⟩, hw'.2, hinst, hreads⟩
    exact .bind hwrite fun w hw' => .pure hw'
  | drain i k =>
    obtain ⟨hout, regs, inst, hi, hk⟩ := ha
    refine .fetch hi (.fetch hk (.pure ?_))
    obtain ⟨hco, hres⟩ := pipe_coherent h.coherent none hi hk (by simp)
    have hdue := Rfu.due_set (c := c) none hi hk
    refine ⟨hco, h.clear, ?_, ?_⟩
    · simp only [Option.toList_none, Multiset.coe_nil, add_zero] at hres
      rw [← add_assoc, hres]
      exact h.instructions
    · have hreads := h.reads
      simp only [Rfu.owed, due, hout, ↓reduceIte, Nat.add_zero] at hdue hreads ⊢
      rw [hdue]
      exact hreads

/-- Every reached state is sound. -/
theorem reaches_sound (hw : c.Wired sizes)
    (hr : Reaches c.act c.Offers (c.startRun sizes) r) : c.Sound sizes r :=
  hr.invariant (c.Sound sizes) start_sound fun _ _ _ h ha hs => (act_meets hw h ha).of_ok hs

/-- The operands that a unit waits for differ. -/
theorem nodup_pending (h : s.Coherent c sizes 0) : s.pending.Nodup := by
  refine nodup_holding ReadOp.cu 0 (fun cu u hu => ?_) fun cu u hu op hop => ?_
  · cases hfree : u.free with
    | true => simp [CollectorUnit.outstanding, ((h.unit cu u hu).idle hfree).2.1]
    | false =>
      obtain ⟨inst, -, -, -, -, -, hreq⟩ := (h.unit cu u hu).busy hfree
      exact Multiset.coe_nodup.mpr ((hreq.operands.of_map _).filter _)
  · obtain ⟨_, -, -, -, hone⟩ := request_of_outstanding (h.unit cu u hu) hop
    rw [hone.unit, Nat.zero_add]

/-- Two sub-cores with two collector units and two banks each, behind one port. -/
def twoCores : RfuConfig where
  cuSets := [⟨6, 4, 2⟩]
  inPorts := [⟨[0], [1], [6], rfl⟩]
  numBanks := 4
  subCoreModel := true
  numWarpScheds := 2
  warpSize := 32
  gating := by decide
  numCu_pos := by decide
  numBanks_pos := by decide
  numBanks_mod := by decide
  numWarpScheds_pos := by decide
  even_sets := by decide
  known_sets := by decide

theorem twoCores_wired : twoCores.Wired [2, 2] where
  inputs := by decide
  outputs := by
    intro i hi
    obtain rfl : i = 1 := by simpa [outputs, twoCores] using hi
    exact ⟨2, rfl, fun _ => Nat.le_refl 2⟩
  apart := by decide

/-- An instruction of the first scheduler that names one of its sources twice. -/
def twoCoresInst : CollectorInst where
  uid := 1
  warpId := 0
  schedId := 0
  activeMask := 4294967295
  src := [3, 4, 3, 5, -1]
  dst := [7]

/-- That instruction was issued and has taken a collector unit. -/
def twoCoresRun : RfuRun :=
  ([RfuAction.issue 0 0 twoCoresInst, .step].foldlM twoCores.act
    (twoCores.startRun [2, 2])).toOption.getD (twoCores.startRun [2, 2])

theorem twoCores_reaches :
    Reaches twoCores.act twoCores.Offers (twoCores.startRun [2, 2]) twoCoresRun := by
  refine .next (a := .step) (.next (a := .issue 0 0 twoCoresInst) .start ?_ rfl) trivial rfl
  exact ⟨by decide, fun _ => by decide, [none, none], rfl, rfl⟩

/-- In every run the requests in the queues are the operands that the units wait for, each
queued once, in the bank of its register. -/
theorem collector_requests (hw : c.Wired sizes)
    (hr : Reaches c.act c.Offers (c.startRun sizes) r) :
    r.rfu.queued = r.rfu.pending ∧ r.rfu.queued.Nodup ∧
      ∀ (b : Nat) q, r.rfu.queue[b]? = some q → ∀ op ∈ q, ∃ u inst,
        r.rfu.units[op.cu]? = some u ∧ u.warp = some inst ∧ op ∈ u.outstanding ∧
          op.reg ∈ inst.sources ∧
          c.registerBank op.reg inst.warpId inst.schedId = .ok b := by
  have h := (reaches_sound hw hr).coherent
  have hbalance : r.rfu.queued = r.rfu.pending := by simpa using h.balance
  refine ⟨hbalance, hbalance ▸ nodup_pending h, fun b q hq op hop => ?_⟩
  obtain ⟨u, inst, hu, hwarp, -, hout, hreq, hone⟩ := exists_unit h (pending_of_queued h hq hop)
  refine ⟨u, inst, hu, hwarp, hout, ?_, ?_⟩
  · have hmem : op ∈ u.operands := (List.mem_filter.mp (Multiset.mem_coe.mp hout)).1
    exact CollectorInst.mem_sources.mpr ((hreq.mem_regs _).mp (List.mem_map_of_mem hmem))
  · rw [← h.bank b q hq op hop]
    exact hone.bank

theorem collector_requests_twoCores :
    twoCoresRun.rfu.queue = [[⟨0, 1, 4, 0, 0⟩], [⟨0, 0, 3, 1, 0⟩, ⟨0, 3, 5, 1, 0⟩], [], []] ∧
      twoCoresRun.rfu.queued.Nodup :=
  ⟨rfl, (collector_requests twoCores_wired twoCores_reaches).2.1⟩

/-- In every run the collector stops at no assertion, whatever the core does next. -/
theorem collector_goes_on (hw : c.Wired sizes)
    (hr : Reaches c.act c.Offers (c.startRun sizes) r) {a : RfuAction} (ha : c.Offers r a) :
    ∃ r', c.act r a = .ok r' := by
  obtain ⟨r', hr', -⟩ := act_meets hw (reaches_sound hw hr) ha
  exact ⟨r', hr'⟩

theorem collector_goes_on_twoCores : ∃ r', twoCores.act twoCoresRun .step = .ok r' :=
  collector_goes_on twoCores_wired twoCores_reaches trivial

/-- In every run the instructions that were issued are those that have left and those in the
collector and its register sets. The reads counted so far and those that the instructions on
their way still owe are one for each source register of an issued instruction, up to the width
of the counter. -/
theorem collector_ledger (hw : c.Wired sizes)
    (hr : Reaches c.act c.Offers (c.startRun sizes) r) :
    r.rfu.resident + r.drained = r.issued ∧
      u32 (r.rfu.regfileReads + r.rfu.owed c) = u32 (r.issued.map c.readCost).sum :=
  ⟨(reaches_sound hw hr).instructions, (reaches_sound hw hr).reads⟩

theorem collector_ledger_twoCores :
    twoCoresRun.rfu.regfileReads = 0 ∧
      u32 (twoCoresRun.rfu.regfileReads + twoCoresRun.rfu.owed twoCores) =
        u32 (twoCoresRun.issued.map twoCores.readCost).sum :=
  ⟨rfl, (collector_ledger twoCores_wired twoCores_reaches).2⟩

end RfuConfig

end WaspSim
