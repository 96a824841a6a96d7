import Mathlib.Data.Finset.Card
import WaspSim.Collector.Operands

/-!
# The invariant of the operand collector

A collector unit keeps its instruction until every operand has arrived, and the operands
that it still waits for are exactly the ones in the queues of the banks, each in the queue
of its bank. Requests that are on their way between a queue and a unit are counted apart.
-/

namespace WaspSim

namespace CollectorUnit

/-- The valid operands of `m_src_op`. -/
def operands (u : CollectorUnit) : List ReadOp := u.srcOp.reduceOption

/-- The operands that have not been collected. -/
def outstanding (u : CollectorUnit) : Multiset ReadOp :=
  (u.operands.filter fun op => op.operand ∈ u.notReady : List ReadOp)

/-- The instruction in the unit. -/
def held (u : CollectorUnit) : Multiset CollectorInst := u.warp.toList

end CollectorUnit

/-- The requests in the queues of the banks. -/
def Arbiter.requests (queue : List (List ReadOp)) : Multiset ReadOp :=
  holding (fun _ (q : List ReadOp) => (q : Multiset ReadOp)) queue

namespace CollectorInst

/-- The source registers. -/
def sources (inst : CollectorInst) : Finset Nat :=
  ((inst.src.filter fun reg => 0 ≤ reg).map Int.toNat).toFinset

@[simp] theorem mem_sources {inst : CollectorInst} {reg : Nat} :
    reg ∈ inst.sources ↔ (reg : Int) ∈ inst.src := by
  simp only [sources, List.mem_toFinset, List.mem_map, List.mem_filter, decide_eq_true_eq]
  constructor
  · rintro ⟨r, ⟨hr, hpos⟩, rfl⟩
    rwa [Int.toNat_of_nonneg hpos]
  · intro h
    exact ⟨reg, ⟨h, Int.natCast_nonneg reg⟩, Int.toNat_natCast reg⟩

end CollectorInst

namespace RfuConfig

variable (c : RfuConfig)

/-- The register sets at the inputs of the ports. -/
def inputs : List Nat := c.inPorts.flatMap InputPort.input

/-- The register sets at the outputs of the ports. -/
def outputs : List Nat := c.inPorts.flatMap InputPort.output

/-- Register sets of these sizes fit the ports: they exist, the inputs are no outputs, and
in the sub-core model an output has a register for every scheduler. -/
structure Wired (sizes : List Nat) : Prop where
  inputs : ∀ i ∈ c.inputs, i < sizes.length
  outputs : ∀ i ∈ c.outputs, ∃ n, sizes[i]? = some n ∧
    (c.subCoreModel = true → c.numWarpScheds ≤ n)
  apart : ∀ i ∈ c.outputs, i ∉ c.inputs

/-- What reading the source registers of an instruction adds to the count of reads. -/
def readCost (inst : CollectorInst) : Nat := inst.sources.card * c.countedLanes inst.activeMask

/-- What an instruction in a register set will still add to the count of reads. -/
def due (i : Nat) (reg : Option CollectorInst) : Nat :=
  if i ∈ c.inputs then reg.elim 0 c.readCost else 0

/-- What the operands that a unit waits for will add to the count of reads. -/
def unitDue (u : CollectorUnit) : Nat :=
  u.warp.elim 0 (fun inst => c.countedLanes inst.activeMask) * u.outstanding.card

end RfuConfig

/-- A free unit holds nothing. A busy one holds an instruction, with a request for each of
its source registers, and knows where to send it. -/
structure CollectorUnit.Coherent (c : RfuConfig) (cu : Nat) (u : CollectorUnit) : Prop where
  idle : u.free = true → u.warp = none ∧ u.operands = [] ∧ u.notReady = ∅
  busy : u.free = false → ∃ inst output, u.warp = some inst ∧ u.warpId = inst.warpId ∧
    u.output = some output ∧ output ∈ c.outputs ∧ c.Requests cu inst u.operands

namespace Rfu

/-- The requests that wait for their banks. -/
def queued (s : Rfu) : Multiset ReadOp := Arbiter.requests s.queue

/-- The operands that the units wait for. -/
def pending (s : Rfu) : Multiset ReadOp := holding (fun _ u => u.outstanding) s.units

/-- The instructions in the units. -/
def collecting (s : Rfu) : Multiset CollectorInst := holding (fun _ u => u.held) s.units

/-- The instructions in the register sets. -/
def piped (s : Rfu) : Multiset CollectorInst :=
  holding (fun _ => holding fun _ reg => (reg.toList : Multiset CollectorInst)) s.pipe

/-- The instructions in the collector and in the register sets at its ports. -/
def resident (s : Rfu) : Multiset CollectorInst := s.collecting + s.piped

/-- The reads that the instructions on the way through the collector will still count. -/
def owed (c : RfuConfig) (s : Rfu) : Nat :=
  holding (fun i => holding fun _ reg => c.due i reg) s.pipe +
    holding (fun _ u => c.unitDue u) s.units

/-- The invariant, with `inflight` requests taken from the queues but not yet collected. -/
structure Coherent (c : RfuConfig) (sizes : List Nat) (s : Rfu) (inflight : Multiset ReadOp) :
    Prop where
  units_length : s.units.length = c.numCu
  queue_length : s.queue.length = c.numBanks
  banks_length : s.allocatedBank.length = c.numBanks
  dispatch_length : s.dispatchLast.length = c.dispatchUnits.length
  sizes : s.pipe.map List.length = sizes
  unit : ∀ (cu : Nat) u, s.units[cu]? = some u → u.Coherent c cu
  bank : ∀ (b : Nat) q, s.queue[b]? = some q → ∀ op ∈ q, op.bank = b
  balance : s.queued + inflight = s.pending
  accepts : ∀ inst ∈ s.resident, c.Accepts inst

/-- The queues grow at their ends only. -/
def Appends (queue queue' : List (List ReadOp)) : Prop :=
  ∀ (b : Nat) q, queue[b]? = some q → ∃ new, queue'[b]? = some (q ++ new)

theorem Appends.refl (queue : List (List ReadOp)) : Appends queue queue :=
  fun _ q hq => ⟨[], by rwa [List.append_nil]⟩

theorem Appends.trans {q₁ q₂ q₃ : List (List ReadOp)} (h : Appends q₁ q₂) (h' : Appends q₂ q₃) :
    Appends q₁ q₃ := by
  intro b q hq
  obtain ⟨new, hnew⟩ := h b q hq
  obtain ⟨new', hnew'⟩ := h' b _ hnew
  exact ⟨new ++ new', by rwa [← List.append_assoc]⟩

/-- No instruction enters or leaves, what is read is no longer owed (up to the width of the
counter), and no request is
taken out of a queue. -/
structure Keeps (c : RfuConfig) (s s' : Rfu) : Prop where
  resident : s'.resident = s.resident
  reads : u32 (s'.regfileReads + s'.owed c) = u32 (s.regfileReads + s.owed c)
  queue : Appends s.queue s'.queue

theorem Keeps.refl {c : RfuConfig} (s : Rfu) : Keeps c s s := ⟨rfl, rfl, .refl _⟩

theorem Keeps.trans {c : RfuConfig} {s₁ s₂ s₃ : Rfu} (h : Keeps c s₁ s₂) (h' : Keeps c s₂ s₃) :
    Keeps c s₁ s₃ :=
  ⟨h'.resident.trans h.resident, h'.reads.trans h.reads, h.queue.trans h'.queue⟩

section

variable {c : RfuConfig} {sizes : List Nat} {s : Rfu} {inflight : Multiset ReadOp} {cu : Nat}
  {u : CollectorUnit}

theorem pending_set (u' : CollectorUnit) (hu : s.units[cu]? = some u) :
    holding (fun _ u => u.outstanding) (s.units.set cu u') + u.outstanding =
      s.pending + u'.outstanding := holding_set (f := fun _ u => CollectorUnit.outstanding u) hu

theorem collecting_set (u' : CollectorUnit) (hu : s.units[cu]? = some u) :
    holding (fun _ u => u.held) (s.units.set cu u') + u.held = s.collecting + u'.held :=
  holding_set (f := fun _ u => CollectorUnit.held u) hu

theorem unitDue_set (u' : CollectorUnit) (hu : s.units[cu]? = some u) :
    holding (fun _ u => c.unitDue u) (s.units.set cu u') + c.unitDue u =
      holding (fun _ u => c.unitDue u) s.units + c.unitDue u' :=
  holding_set (f := fun _ u => c.unitDue u) hu

/-- Replacing the contents of a register of a register set. -/
theorem piped_set {regs : PipeRegs} {i k : Nat} {reg : Option CollectorInst}
    (reg' : Option CollectorInst) (hi : s.pipe[i]? = some regs) (hk : regs[k]? = some reg) :
    holding (fun _ => holding fun _ reg => (reg.toList : Multiset CollectorInst))
        (s.pipe.set i (regs.set k reg')) + reg.toList = s.piped + reg'.toList :=
  holding_set_set (f := fun _ _ reg => (reg.toList : Multiset CollectorInst)) hi hk

theorem due_set {regs : PipeRegs} {i k : Nat} {reg : Option CollectorInst}
    (reg' : Option CollectorInst) (hi : s.pipe[i]? = some regs) (hk : regs[k]? = some reg) :
    holding (fun i => holding fun _ reg => c.due i reg) (s.pipe.set i (regs.set k reg')) +
        c.due i reg = holding (fun i => holding fun _ reg => c.due i reg) s.pipe + c.due i reg' :=
  holding_set_set (f := fun i _ reg => c.due i reg) hi hk

/-- The units of an updated table are coherent when the new one is. -/
theorem coherent_set {u' : CollectorUnit} (h : ∀ (k : Nat) v, s.units[k]? = some v → v.Coherent c k)
    (hu' : u'.Coherent c cu) (k : Nat) (v : CollectorUnit)
    (hv : (s.units.set cu u')[k]? = some v) : v.Coherent c k := by
  rw [List.getElem?_set] at hv
  split at hv
  · next heq =>
    split at hv
    · rw [← Option.some.inj hv, ← heq]
      exact hu'
    · cases hv
  · exact h k v hv

/-- A register set keeps its size when one of its registers is replaced. -/
theorem sizes_set {pipe : List PipeRegs} {regs : PipeRegs} {i k : Nat}
    {reg : Option CollectorInst} (hi : pipe[i]? = some regs) :
    (pipe.set i (regs.set k reg)).map List.length = pipe.map List.length := by
  apply List.ext_getElem?
  intro j
  rw [List.getElem?_map, List.getElem?_set, List.getElem?_map]
  split
  · next heq =>
    subst heq
    rw [if_pos (List.getElem?_eq_some_iff.mp hi).1, hi, Option.map_some, Option.map_some,
      List.length_set]
  · rfl

end

end Rfu

end WaspSim
