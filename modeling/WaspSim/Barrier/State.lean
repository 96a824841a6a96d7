import Mathlib.Data.List.Sort
import WaspSim.Scheduler.State

/-!
# The barriers of a core

`barrier_set_t` keeps the warps of each resident CTA, those still active, those waiting, and
for each barrier of the hardware those that have reached it. A CTA is allocated when it is
issued and deallocated when its last thread has exited.
-/

namespace WaspSim

/-- Where `barrier_set_t` stops. -/
inductive BarrierHalt where
  /-- In `warp_reaches_barrier` or `warp_exit`. -/
  | issue (halt : Halt)
  /-- `allocate_barrier` for a slot beyond `m_max_cta_per_core`. -/
  | ctaTooLarge
  /-- `allocate_barrier` for a slot that still has a CTA. -/
  | ctaAllocated
  /-- More CTAs than slots. -/
  | tooManyCtas
  /-- `deallocate_barrier` with a warp that waits. -/
  | stuckAtBarrier
  /-- `deallocate_barrier` with a warp that runs. -/
  | stillRunning
  /-- `deallocate_barrier` with a warp that one of the barriers still counts. -/
  | stuckAtSpecificBarrier
  deriving DecidableEq, Repr

/-- What `barrier_set_t` is constructed with. -/
structure BarrierConfig where
  /-- `m_max_cta_per_core`. -/
  maxCtaPerCore : Nat
  /-- `m_max_barriers_per_cta`. -/
  maxBarriersPerCta : Nat
  /-- `m_warp_size`. -/
  warpSize : Nat
  deriving DecidableEq, Repr

namespace BarrierSet

/-- `allocate_barrier`. -/
def allocateBarrier (cfg : BarrierConfig) (b : BarrierSet) (ctaId : Nat) (warps : Finset Nat) :
    Except BarrierHalt BarrierSet := do
  require .ctaTooLarge (ctaId < cfg.maxCtaPerCore)
  require .ctaAllocated ((b.ctaToWarps.find? fun e => e.1 == ctaId) = none)
  let ctaToWarps := b.ctaToWarps.orderedInsert (fun e e' => e.1 ≤ e'.1) (ctaId, warps)
  require .tooManyCtas (ctaToWarps.length ≤ cfg.maxCtaPerCore)
  pure
    { warpActive := b.warpActive ∪ warps
      warpAtBarrier := b.warpAtBarrier \ warps
      barIdToWarps := fun i =>
        if i < cfg.maxBarriersPerCta then b.barIdToWarps i \ warps else b.barIdToWarps i
      ctaToWarps := ctaToWarps }

/-- `deallocate_barrier`. -/
def deallocateBarrier (cfg : BarrierConfig) (b : BarrierSet) (ctaId : Nat) :
    Except BarrierHalt BarrierSet :=
  match b.ctaToWarps.find? fun e => e.1 == ctaId with
  | none => pure b
  | some (_, warps) => do
    require .stuckAtBarrier (warps ∩ b.warpAtBarrier = ∅)
    require .stillRunning (warps ∩ b.warpActive = ∅)
    require .stuckAtSpecificBarrier
      (∀ i < cfg.maxBarriersPerCta, warps ∩ b.barIdToWarps i = ∅)
    pure
      { warpActive := b.warpActive \ warps
        warpAtBarrier := b.warpAtBarrier \ warps
        barIdToWarps := fun i =>
          if i < cfg.maxBarriersPerCta then b.barIdToWarps i \ warps else b.barIdToWarps i
        ctaToWarps := b.ctaToWarps.filter fun e => e.1 != ctaId }

end BarrierSet

/-- What happens to the barriers of a core. -/
inductive BarrierAction where
  /-- A CTA is issued to a slot. -/
  | allocate (ctaId : Nat) (warps : Finset Nat)
  /-- A warp of a CTA issues a barrier instruction. -/
  | reach (ctaId warpId : Nat) (inst : SchedInst)
  /-- The last thread of a warp exits. -/
  | exit (warpId : Nat)
  /-- The last thread of a CTA has exited. -/
  | deallocate (ctaId : Nat)
  deriving DecidableEq

/-- The barriers of a core, with the barrier instructions that each warp has issued since its
CTA was allocated. -/
structure BarrierHistory extends BarrierSet where
  reached : Nat → List SchedInst := fun _ => []

namespace BarrierHistory

/-- One action on the barriers. -/
def step (cfg : BarrierConfig) (h : BarrierHistory) :
    BarrierAction → Except BarrierHalt BarrierHistory
  | .allocate ctaId warps => do
    let b ← h.allocateBarrier cfg ctaId warps
    pure { b with reached := fun w => if w ∈ warps then [] else h.reached w }
  | .reach ctaId warpId inst => do
    let (b, _) ←
      (h.warpReachesBarrier cfg.warpSize ctaId warpId inst).mapError BarrierHalt.issue
    pure { b with reached := Function.update h.reached warpId (h.reached warpId ++ [inst]) }
  | .exit warpId => do
    let b ← (h.warpExit cfg.maxBarriersPerCta warpId).mapError BarrierHalt.issue
    pure { b with reached := h.reached }
  | .deallocate ctaId => do
    let b ← h.deallocateBarrier cfg ctaId
    pure { b with reached := h.reached }

/-- What the core does with its barriers: CTAs get free slots and warps that no resident CTA
has, only a warp that is active and does not wait issues, at a barrier with an id below
`m_max_barriers_per_cta`, and a CTA is deallocated when none of its warps is active. -/
def Permitted (cfg : BarrierConfig) (h : BarrierHistory) : BarrierAction → Prop
  | .allocate ctaId warps => ctaId < cfg.maxCtaPerCore ∧
      ∀ e ∈ h.ctaToWarps, e.1 ≠ ctaId ∧ Disjoint e.2 warps
  | .reach ctaId warpId inst => (∃ e ∈ h.ctaToWarps, e.1 = ctaId ∧ warpId ∈ e.2) ∧
      warpId ∈ h.warpActive ∧ warpId ∉ h.warpAtBarrier ∧ inst.barType ≠ .notBar ∧
      inst.barId < cfg.maxBarriersPerCta
  | .exit warpId => warpId ∈ h.warpActive ∧ warpId ∉ h.warpAtBarrier
  | .deallocate ctaId => ∀ e ∈ h.ctaToWarps, e.1 = ctaId → Disjoint e.2 h.warpActive

instance (cfg : BarrierConfig) (h : BarrierHistory) (a : BarrierAction) :
    Decidable (h.Permitted cfg a) :=
  match a with
  | .allocate _ _ => inferInstanceAs (Decidable (_ ∧ _))
  | .reach _ _ _ => inferInstanceAs (Decidable (_ ∧ _))
  | .exit _ => inferInstanceAs (Decidable (_ ∧ _))
  | .deallocate _ => inferInstanceAs (Decidable (∀ e ∈ h.ctaToWarps, _ → _))

end BarrierHistory
end WaspSim
