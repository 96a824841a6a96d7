import WaspSim.Queue.Table
import WaspSim.Shader.Instruction
import Mathlib.Logic.Function.Basic

/-!
# Shader core state

The parts of a shader core that the queue mechanism touches: its warps, the
hardware CTA slots, the two queue tables, the queue loads in the load/store unit
and global memory. Other instructions appear only through the counts that keep
their warp busy.
-/

namespace WaspSim

/-- The part of `shd_warp_t` and of the thread states behind retirement. -/
structure Warp where
  /-- `m_cta_id`. -/
  ctaId : Nat := 0
  /-- Threads not yet completed, `m_warp_size - n_completed`. -/
  running : Nat := 0
  /-- Threads whose `m_active` is still set. -/
  registered : Nat := 0
  /-- `m_inst_in_pipeline`. -/
  instInPipeline : Nat := 0
  /-- `num_inst_in_buffer`. -/
  ibuffered : Nat := 0
  /-- Issued instructions other than queue loads, in any pipeline. -/
  elsewhere : Nat := 0
  /-- `m_stores_outstanding`. -/
  storesOutstanding : Nat := 0
  /-- `m_done_exit`. -/
  doneExit : Bool := true
  deriving DecidableEq, Repr

namespace Warp

/-- `functional_done`. -/
def functionalDone (w : Warp) : Bool := w.running == 0

/-- `hardware_done`. -/
def hardwareDone (w : Warp) : Bool :=
  w.functionalDone && w.storesOutstanding == 0 && w.instInPipeline == 0

end Warp

/-- The queue loads in `ldst_unit`; each access of a dispatched load travels as a
copy of its instruction. -/
structure LdstUnit where
  /-- Issued loads on their way to `m_dispatch_reg`, and the one in it. -/
  dispatch : List WarpInst := []
  /-- `l1_latency_queue`. -/
  l1LatencyQueue : List WarpInst := []
  /-- Accesses sent to the interconnect or merged into an L1 miss. -/
  memory : List WarpInst := []
  /-- Filled misses that `next_access` of the L1 will return. -/
  l1dReady : List WarpInst := []
  /-- `m_next_global`. -/
  nextGlobal : Option WarpInst := none
  /-- `m_next_wb`. -/
  nextWb : Option WarpInst := none
  deriving DecidableEq, Repr

/-- The counters of one queue kind in `shader_core_stats`. The source has them in 64 bits; each
event adds 1, which no run repeats often enough to wrap, so they are numbers. -/
structure QueueStats where
  reservations : Nat := 0
  memoryFills : Nat := 0
  consumes : Nat := 0
  fullStalls : Nat := 0
  emptyStalls : Nat := 0
  headNotReadyStalls : Nat := 0
  maxOccupancy : Nat := 0
  deriving DecidableEq, Repr

/-- A shader core, over a type of global memories. -/
structure Shader (Mem : Type) where
  /-- `m_wasp_rfq_table` and `m_smemq_table`. -/
  tables : QueueKind → QueueTable
  stats : QueueKind → QueueStats
  /-- `wasp_stage_issue_count`. -/
  stageIssueCount : Nat → Nat
  /-- `m_warp`. -/
  warps : Nat → Warp
  /-- `m_cta_status`. -/
  ctaStatus : Nat → Nat
  ldst : LdstUnit
  /-- Global memory. -/
  mem : Mem
  /-- The uid of the next issued instruction. -/
  nextUid : Nat

namespace Shader

variable {Mem : Type}

/-- A core without resident CTAs. -/
def initial (mem : Mem) : Shader Mem where
  tables _ := ∅
  stats _ := {}
  stageIssueCount _ := 0
  warps _ := {}
  ctaStatus _ := 0
  ldst := {}
  mem
  nextUid := 0

/-- `m_wasp_rfq_table`. -/
def waspRfqTable (s : Shader Mem) : WaspRfqTable := s.tables .rfq

/-- `m_smemq_table`. -/
def smemqTable (s : Shader Mem) : SmemqTable := s.tables .smemq

/-- Replace the table of one queue kind. -/
def setTable (s : Shader Mem) (kind : QueueKind) (table : QueueTable) : Shader Mem :=
  { s with tables := Function.update s.tables kind table }

/-- Change the counters of one queue kind. -/
def count (s : Shader Mem) (kind : QueueKind) (g : QueueStats → QueueStats) : Shader Mem :=
  { s with stats := Function.update s.stats kind (g (s.stats kind)) }

/-- Change one warp. -/
def setWarp (s : Shader Mem) (w : Nat) (g : Warp → Warp) : Shader Mem :=
  { s with warps := Function.update s.warps w (g (s.warps w)) }

/-- Replace the load/store unit. -/
def setLdst (s : Shader Mem) (ldst : LdstUnit) : Shader Mem := { s with ldst }

/-- Store the changed queue of a key. -/
def putQueue (s : Shader Mem) (kind : QueueKind) (key : QueueKey) (q : Queue) : Shader Mem :=
  s.setTable kind ((s.tables kind).insert key q)

/-- The queue stored under a key. -/
def queue? (s : Shader Mem) (kind : QueueKind) (key : QueueKey) : Option Queue :=
  (s.tables kind).lookup key

/-- The queue that was replaced. -/
theorem queue?_putQueue (s : Shader Mem) (kind : QueueKind) (key : QueueKey) (q : Queue) :
    (s.putQueue kind key q).queue? kind key = some q := by
  simp [queue?, putQueue, setTable]

/-- The other queues stay. -/
theorem queue?_putQueue_of_ne {s : Shader Mem} {kind kind' : QueueKind} {key key' : QueueKey}
    {q : Queue} (h : ¬(kind' = kind ∧ key' = key)) :
    (s.putQueue kind key q).queue? kind' key' = s.queue? kind' key' := by
  unfold queue? putQueue setTable
  by_cases hk : kind' = kind
  · subst hk
    have hkey : key' ≠ key := fun he => h ⟨rfl, he⟩
    simp [AList.lookup_insert_ne hkey]
  · simp [hk]

@[simp] theorem queue?_count (s : Shader Mem) (kind kind' : QueueKind)
    (g : QueueStats → QueueStats) (key : QueueKey) :
    (s.count kind g).queue? kind' key = s.queue? kind' key := rfl

@[simp] theorem queue?_setWarp (s : Shader Mem) (w : Nat) (g : Warp → Warp) (kind : QueueKind)
    (key : QueueKey) : (s.setWarp w g).queue? kind key = s.queue? kind key := rfl

@[simp] theorem queue?_setLdst (s : Shader Mem) (ldst : LdstUnit) (kind : QueueKind)
    (key : QueueKey) : (s.setLdst ldst).queue? kind key = s.queue? kind key := rfl

/-- Two states that differ in their queue tables and counters alone. -/
structure SameCore (s s' : Shader Mem) : Prop where
  warps_eq : s'.warps = s.warps
  ctaStatus_eq : s'.ctaStatus = s.ctaStatus
  ldst_eq : s'.ldst = s.ldst
  mem_eq : s'.mem = s.mem
  nextUid_eq : s'.nextUid = s.nextUid

theorem SameCore.refl (s : Shader Mem) : SameCore s s := ⟨rfl, rfl, rfl, rfl, rfl⟩

theorem SameCore.trans {a b c : Shader Mem} (hab : SameCore a b) (hbc : SameCore b c) :
    SameCore a c :=
  ⟨hbc.warps_eq.trans hab.warps_eq, hbc.ctaStatus_eq.trans hab.ctaStatus_eq,
    hbc.ldst_eq.trans hab.ldst_eq, hbc.mem_eq.trans hab.mem_eq,
    hbc.nextUid_eq.trans hab.nextUid_eq⟩

/-- A step on one queue: the other queues and the rest of the core are untouched. -/
structure OnQueue (kind : QueueKind) (key : QueueKey) (s s' : Shader Mem) : Prop where
  core : SameCore s s'
  others : ∀ kind' key', ¬(kind' = kind ∧ key' = key) → s'.queue? kind' key' = s.queue? kind' key'

namespace OnQueue

variable {kind : QueueKind} {key : QueueKey} {a b c s : Shader Mem}

theorem refl (kind : QueueKind) (key : QueueKey) (s : Shader Mem) : OnQueue kind key s s :=
  ⟨.refl s, fun _ _ _ => rfl⟩

theorem trans (hab : OnQueue kind key a b) (hbc : OnQueue kind key b c) : OnQueue kind key a c :=
  ⟨hab.core.trans hbc.core, fun k κ h => (hbc.others k κ h).trans (hab.others k κ h)⟩

/-- A queue that is replaced concerns itself only. -/
theorem putQueue (s : Shader Mem) (kind : QueueKind) (key : QueueKey) (q : Queue) :
    OnQueue kind key s (s.putQueue kind key q) :=
  ⟨⟨rfl, rfl, rfl, rfl, rfl⟩, fun _ _ h => queue?_putQueue_of_ne h⟩

theorem count (s : Shader Mem) (kind' : QueueKind) (g : QueueStats → QueueStats) :
    OnQueue kind key s (s.count kind' g) :=
  ⟨⟨rfl, rfl, rfl, rfl, rfl⟩, fun _ _ _ => rfl⟩

end OnQueue
end Shader
end WaspSim
