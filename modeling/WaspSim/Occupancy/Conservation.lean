import Mathlib.Algebra.Order.BigOperators.Group.Finset
import WaspSim.Core.Run
import WaspSim.Occupancy.Admission

/-!
# Conservation of a core's resources

With concurrent kernels a core counts what its CTAs occupy, and its CTAs own
disjoint ranges of threads. This holds along every run in which no launch makes a
counter wrap and each one finds a free range that ends on the core.
-/

namespace WaspSim
namespace Residency

variable {cfg : CoreConfig} {s s' : Residency} {k : Kernel} {slot start : Nat}

/-- The ranges of the threads of the CTAs, in whole warps. -/
def ranges (cfg : CoreConfig) (s : Residency) : Nat → Option (Nat × Nat) :=
  Option.map (fun cta => (cta.startThread, (cfg.footprint cta.kernel.toKernelInfo).threads)) ∘
    s.resident

/-- What a slot takes of one resource. -/
def demand (cfg : CoreConfig) (f : Footprint → Nat) : Option Cta → Nat
  | none => 0
  | some cta => f (cfg.footprint cta.kernel.toKernelInfo)

@[simp] theorem demand_none (cfg : CoreConfig) (f : Footprint → Nat) : demand cfg f none = 0 := rfl

@[simp] theorem demand_some (cfg : CoreConfig) (f : Footprint → Nat) (cta : Cta) :
    demand cfg f (some cta) = f (cfg.footprint cta.kernel.toKernelInfo) := rfl

/-- What the CTAs take together of one resource. A core has `MAX_CTA_PER_SHADER` slots. -/
def total (cfg : CoreConfig) (s : Residency) (f : Footprint → Nat) : Nat :=
  ∑ slot ∈ Finset.range 32, demand cfg f (s.resident slot)

/-- What conservation promises of a core. -/
structure Conserved (cfg : CoreConfig) (s : Residency) : Prop where
  threads : s.occupiedNThreads = s.total cfg (·.threads)
  smem : s.occupiedShmem = s.total cfg (·.smem)
  regs : s.occupiedRegs = s.total cfg (·.regs)
  ctas : s.occupiedCtas = s.total cfg fun _ => 1
  threads_le : s.occupiedNThreads ≤ cfg.nThreadPerShader
  smem_le : s.occupiedShmem ≤ cfg.gpgpuShmemSize
  regs_le : s.occupiedRegs ≤ cfg.gpgpuShaderRegisters
  ctas_le : s.occupiedCtas ≤ cfg.maxCtaPerCore
  aligned : ∀ slot cta, s.resident slot = some cta → cfg.warpSize ∣ cta.startThread
  contained : ∀ slot cta, s.resident slot = some cta →
    cta.startThread + (cfg.footprint cta.kernel.toKernelInfo).threads ≤ cfg.nThreadPerShader
  disjoint : ∀ i j t, InRange (s.ranges cfg) i t → InRange (s.ranges cfg) j t → i = j
  /-- No assertion stops the exit of a thread, the release of its CTA included. -/
  releases : ∀ slot, 0 < s.ctaStatus slot → ∃ s', registerCtaThreadExit cfg s slot = .ok s'
  drained : (∀ slot, s.resident slot = none) → s.occupiedNThreads = 0 ∧ s.occupiedShmem = 0 ∧
    s.occupiedRegs = 0 ∧ s.occupiedCtas = 0 ∧ ∀ t, s.occupiedHwtid t = false

/-- A launch makes no counter wrap and some candidate range is free and ends on the core. -/
def Roomy (cfg : CoreConfig) (s : Residency) : CtaAction → Prop
  | .launch k =>
    s.occupiedShmem + (cfg.footprint k.toKernelInfo).smem < 2 ^ 32 ∧
    s.occupiedRegs + (cfg.footprint k.toKernelInfo).regs < 2 ^ 32 ∧
    ∃ m, (m + 1) * (cfg.footprint k.toKernelInfo).threads ≤ cfg.nThreadPerShader ∧
      ∀ t, m * (cfg.footprint k.toKernelInfo).threads ≤ t →
        t < (m + 1) * (cfg.footprint k.toKernelInfo).threads → s.occupiedHwtid t = false
  | .exitThread _ => True

/-- The charges of a kernel's queues are accepted. -/
structure Charged (cfg : CoreConfig) (k : KernelInfo) : Prop where
  rfq : cfg.waspRfqRegsPerCta k = .ok (u32 (cfg.exactRfqRegs k))
  smemq : cfg.smemqSharedBytesPerCta k = .ok (u32 (cfg.exactSmemqBytes k))

/-- A launch into a hardware slot. -/
structure Launched (cfg : CoreConfig) (s : Residency) (k : Kernel) (slot start : Nat)
    (s' : Residency) : Prop where
  room : Room cfg s (cfg.footprint k.toKernelInfo)
  found : findAvailableHwtid cfg s (cfg.paddedCtaSize k.toKernelInfo) = .ok (some start)
  charged : Charged cfg k.toKernelInfo
  slot_lt : slot < 32
  status : s.ctaStatus slot = 0
  threads_le : k.threadsPerCta ≤ cfg.nThreadPerShader
  eq : s' = { (s.occupied (cfg.footprint k.toKernelInfo)).setHwtid start
      (cfg.paddedCtaSize k.toKernelInfo) with
    kernel := some k
    occupiedCtaToHwtid := Function.update s.occupiedCtaToHwtid slot (some start)
    ctaStatus := Function.update s.ctaStatus slot k.threadsPerCta
    resident := Function.update s.resident slot (some ⟨k, start⟩)
    nActiveCta := s.nActiveCta + 1 }

private theorem ite_false_eq_ok {p : Prop} [Decidable p] {x : Except Halt (Residency × Bool)} :
    (if p then pure (s, false) else x) = .ok (s', true) ↔ ¬p ∧ x = .ok (s', true) := by
  split
  · rename_i hp
    simp [hp]
  · rename_i hp
    simp [hp]

/-- A CTA that is occupied, or that the test finds room for, has room, free threads and accepted
charges. -/
theorem of_occupyShaderResource1block {k : KernelInfo} {occupy : Bool}
    (h : occupyShaderResource1block cfg s k occupy = .ok (s', true)) :
    Room cfg s (cfg.footprint k) ∧ Charged cfg k ∧
      (∃ start, findAvailableHwtid cfg s (cfg.paddedCtaSize k) = .ok (some start)) ∧
      s' = if occupy = true then s.occupied (cfg.footprint k) else s := by
  simp only [occupyShaderResource1block, ite_false_eq_ok, bind_eq_ok] at h
  obtain ⟨hthreads, found, hfound, hsome, smemq, hsmemq, hsmem, rfq, hrfq, hregs, hctas, hs'⟩ := h
  obtain rfl := OccupancyConfig.smemqBytes_of_ok hsmemq
  obtain rfl := OccupancyConfig.rfqRegs_of_ok hrfq
  have hbytes : s.occupiedShmem + (cfg.footprint k).smem =
      s.occupiedShmem + k.smem + cfg.exactSmemqBytes k := (Nat.add_assoc _ _ _).symm
  have hpadded : cfg.paddedCtaSize k = u32 (cfg.footprint k).threads := cfg.paddedCtaSize_eq k
  rw [hpadded, u32_add_u32] at hthreads
  rw [u32_add_u32, ← hbytes] at hsmem
  rw [OccupancyConfig.usedRegs_eq, u32_add_u32] at hregs
  refine ⟨⟨?_, ?_, ?_, ?_⟩, ⟨hrfq, hsmemq⟩, ?_, ?_⟩
  · exact Nat.not_lt.mp hthreads
  · exact Nat.not_lt.mp hsmem
  · exact Nat.not_lt.mp hregs
  · exact Nat.not_lt.mp hctas
  · cases found with
    | none => simp at hsome
    | some start => exact ⟨start, hfound⟩
  · cases occupy with
    | false =>
      simp only [Bool.false_eq_true, ↓reduceIte, pure_eq_ok, Prod.mk.injEq, and_true] at hs'
      exact hs'.symm
    | true =>
      simp only [↓reduceIte, pure_eq_ok, Prod.mk.injEq, and_true] at hs'
      have hsum : u32 (s.occupiedShmem + u32 (k.smem + u32 (cfg.exactSmemqBytes k))) =
          u32 (s.occupiedShmem + (cfg.footprint k).smem) := by
        rw [u32_add_u32, ← Nat.add_assoc, u32_add_u32, hbytes]
      rw [if_pos rfl, ← hs', OccupancyConfig.usedRegs_eq, hsum, hpadded, u32_add_u32, u32_add_u32]
      rfl

theorem of_freeCtaHwId {n fuel i : Nat} (h : s.freeCtaHwId n fuel = .ok i) :
    i < 32 ∧ s.ctaStatus i = 0 := by
  induction fuel with
  | zero => cases h
  | succ fuel ih =>
    simp only [freeCtaHwId, bind_eq_ok, require_eq_ok] at h
    obtain ⟨_, hlt, h⟩ := h
    split at h
    · rename_i hzero
      rw [pure_eq_ok] at h
      rw [← h]
      exact ⟨hlt, hzero⟩
    · exact ih h

/-- What a launch with concurrent kernels does. -/
theorem launch_cases (hconcurrent : cfg.gpgpuConcurrentKernelSm = true)
    (h : step cfg s (.launch k) = .ok s') : ∃ slot start, Launched cfg s k slot start s' := by
  simp only [step, issueBlock2core, takeResources, placeCta, hconcurrent, ↓reduceIte, bind_eq_ok,
    require_eq_ok, fetch_eq_ok, pure_eq_ok, Prod.exists] at h
  obtain ⟨_, _, _, _, _, _, s₁, ⟨s₂, ok, hoccupy, _, rfl, rfl⟩, slot, hslot, s₃, start,
    ⟨_, hfound, _, rfl, _, _, rfl, rfl⟩, _, hthreads, rfl⟩ := h
  obtain ⟨hroom, hcharged, _, hoccupied⟩ := of_occupyShaderResource1block hoccupy
  obtain rfl := hoccupied.trans (if_pos rfl)
  obtain ⟨hlt, hzero⟩ := of_freeCtaHwId hslot
  -- the search sees the bits of the state before the launch
  exact ⟨slot, start, ⟨hroom.threads, hroom.smem, hroom.regs, hroom.ctas⟩, hfound, hcharged, hlt,
    hzero, hthreads.2, rfl⟩

/-- A CTA in its slot, with its range on the core. -/
structure Placed (cfg : CoreConfig) (s : Residency) (slot : Nat) (cta : Cta) : Prop where
  slot_lt : slot < 32
  hwtid : s.occupiedCtaToHwtid slot = some cta.startThread
  charged : Charged cfg cta.kernel.toKernelInfo
  aligned : cfg.warpSize ∣ cta.startThread
  contained :
    cta.startThread + (cfg.footprint cta.kernel.toKernelInfo).threads ≤ cfg.nThreadPerShader

/-- What a core keeps along a run without a wrap and without a range beyond its end. -/
structure Conserves (cfg : CoreConfig) (s : Residency) : Prop where
  threads : s.occupiedNThreads = s.total cfg (·.threads)
  smem : s.occupiedShmem = s.total cfg (·.smem)
  regs : s.occupiedRegs = s.total cfg (·.regs)
  ctas : s.occupiedCtas = s.total cfg fun _ => 1
  threads_le : s.occupiedNThreads ≤ cfg.nThreadPerShader
  smem_le : s.occupiedShmem ≤ cfg.gpgpuShmemSize
  regs_le : s.occupiedRegs ≤ cfg.gpgpuShaderRegisters
  ctas_le : s.occupiedCtas ≤ cfg.maxCtaPerCore
  packed : Packed s.occupiedHwtid (s.ranges cfg)
  status : ∀ slot, s.ctaStatus slot = 0 ↔ s.resident slot = none
  placed : ∀ slot cta, s.resident slot = some cta → Placed cfg s slot cta

variable (cfg) in
/-- A CTA more changes a total by its demand. -/
theorem total_launch (hslot : slot < 32) (hfree : s.resident slot = none)
    (hresident : s'.resident = Function.update s.resident slot (some ⟨k, start⟩))
    (f : Footprint → Nat) :
    s'.total cfg f = s.total cfg f + f (cfg.footprint k.toKernelInfo) := by
  have hsum := sum_update (Finset.mem_range.mpr hslot) s.resident (some ⟨k, start⟩)
    (demand cfg f)
  rw [hfree, ← hresident, demand_none, demand_some, Nat.add_zero] at hsum
  exact hsum

variable (cfg) in
/-- A CTA less changes a total by its demand. -/
theorem total_retire {cta : Cta} (hslot : slot < 32) (hcta : s.resident slot = some cta)
    (hresident : s'.resident = Function.update s.resident slot none) (f : Footprint → Nat) :
    s'.total cfg f + f (cfg.footprint cta.kernel.toKernelInfo) = s.total cfg f := by
  have hsum := sum_update (Finset.mem_range.mpr hslot) s.resident none (demand cfg f)
  rw [hcta, ← hresident, demand_none, demand_some, Nat.add_zero] at hsum
  exact hsum

/-- The size of a CTA in threads is within the core, so that it does not wrap. -/
theorem threads_le_of_launch (cfg : CoreConfig) {k : KernelInfo}
    (h : k.threadsPerCta ≤ cfg.nThreadPerShader) :
    (cfg.footprint k).threads ≤ cfg.nThreadPerShader := by
  change cfg.exactPadded k ≤ _
  obtain ⟨warps, hwarps⟩ := cfg.warpSize_dvd
  unfold OccupancyConfig.exactPadded
  split
  · rename_i hrest
    -- a size that is no multiple of whole warps is below the multiple that bounds it
    have hlt : k.threadsPerCta / cfg.warpSize < warps := by
      rw [Nat.div_lt_iff_lt_mul cfg.warpSize_pos, Nat.mul_comm]
      rw [hwarps] at h
      rcases Nat.lt_or_eq_of_le h with hlt | heq
      · exact hlt
      · rw [heq, Nat.mul_mod_right] at hrest
        exact absurd rfl hrest
    rw [hwarps, Nat.mul_comm cfg.warpSize]
    exact Nat.mul_le_mul_right _ hlt
  · exact h

theorem paddedCtaSize_eq_threads (cfg : CoreConfig) {k : KernelInfo}
    (h : (cfg.footprint k).threads ≤ cfg.nThreadPerShader) :
    cfg.paddedCtaSize k = (cfg.footprint k).threads := by
  rw [cfg.paddedCtaSize_eq]
  exact u32_eq_self (h.trans_lt cfg.nThreadPerShader_lt)

theorem warpSize_dvd_threads (cfg : CoreConfig) (k : KernelInfo) :
    cfg.warpSize ∣ (cfg.footprint k).threads := by
  change _ ∣ cfg.exactPadded k
  unfold OccupancyConfig.exactPadded
  split
  · exact Nat.dvd_mul_left _ _
  · rename_i hdvd
    exact Nat.dvd_of_mod_eq_zero (not_not.mp hdvd)

theorem total_ctas_le (cfg : CoreConfig) (s : Residency) : s.total cfg (fun _ => 1) ≤ 32 := by
  have hle : ∀ slot ∈ Finset.range 32, demand cfg (fun _ => 1) (s.resident slot) ≤ 1 := by
    intro slot _
    cases s.resident slot with
    | none => exact Nat.zero_le 1
    | some cta => exact Nat.le_refl 1
  have hsum := Finset.sum_le_card_nsmul _ _ 1 hle
  rw [Finset.card_range] at hsum
  exact hsum

variable (cfg) in
/-- A resident CTA's demand is part of the total. -/
theorem demand_le_total {cta : Cta} (hslot : slot < 32) (hcta : s.resident slot = some cta)
    (f : Footprint → Nat) : f (cfg.footprint cta.kernel.toKernelInfo) ≤ s.total cfg f := by
  have hle := Finset.single_le_sum (fun i _ => Nat.zero_le (demand cfg f (s.resident i)))
    (Finset.mem_range.mpr hslot)
  rw [hcta, demand_some] at hle
  exact hle

/-- The range of a launched CTA is a candidate that was free, and no later than any other
free candidate. -/
theorem Launched.start_eq (h : Launched cfg s k slot start s') :
    (∃ m, start = m * (cfg.footprint k.toKernelInfo).threads) ∧
      (∀ t, start ≤ t → t < start + (cfg.footprint k.toKernelInfo).threads →
        s.occupiedHwtid t = false) ∧
      ∀ m, (∀ t, m * (cfg.footprint k.toKernelInfo).threads ≤ t →
        t < (m + 1) * (cfg.footprint k.toKernelInfo).threads → s.occupiedHwtid t = false) →
        start ≤ m * (cfg.footprint k.toKernelInfo).threads := by
  have hfound := h.found
  unfold findAvailableHwtid at hfound
  rw [paddedCtaSize_eq_threads cfg (threads_le_of_launch cfg h.threads_le)] at hfound
  obtain ⟨m, hm, _, hfree, _⟩ := firstFit_eq_some hfound
  rw [Nat.zero_add] at hm
  refine ⟨⟨m, hm⟩, fun t hlo hhi => (hfree t hlo hhi).2, fun m' hm' => ?_⟩
  refine firstFit_le hfound fun t hlo hhi => hm' t hlo ?_
  rw [Nat.succ_mul]
  exact hhi

/-- A launch adds its range to those of the residents. -/
theorem Launched.ranges_eq (h : Launched cfg s k slot start s') :
    s'.ranges cfg =
      Function.update (s.ranges cfg) slot
        (some (start, (cfg.footprint k.toKernelInfo).threads)) := by
  rw [h.eq]
  exact Function.comp_update _ _ _ _

/-- A launch with room for its CTA conserves the resources of the core. -/
theorem Conserves.launch (h : Conserves cfg s) (hl : Launched cfg s k slot start s')
    (hroomy : Roomy cfg s (.launch k)) : Conserves cfg s' := by
  obtain ⟨hsmem, hregs, m, hm, hfree⟩ := hroomy
  obtain ⟨⟨j, hj⟩, hrange, hfirst⟩ := hl.start_eq
  have hthreads := threads_le_of_launch cfg hl.threads_le
  have hpadded := paddedCtaSize_eq_threads cfg hthreads
  have hend : start + (cfg.footprint k.toKernelInfo).threads ≤ cfg.nThreadPerShader := by
    have hstart := hfirst m hfree
    rw [Nat.succ_mul] at hm
    omega
  have hnone : s.resident slot = none := (h.status slot).mp hl.status
  have hmax := cfg.nThreadPerShader_le
  have hctas := total_ctas_le cfg s
  have hresident : s'.resident = Function.update s.resident slot (some ⟨k, start⟩) := by
    rw [hl.eq]
  have htotal := total_launch cfg hl.slot_lt hnone hresident
  -- no counter wraps
  have hthreads' : u32 (s.occupiedNThreads + (cfg.footprint k.toKernelInfo).threads) =
      s.occupiedNThreads + (cfg.footprint k.toKernelInfo).threads := by
    have hle := h.threads_le
    exact u32_eq_self (by omega)
  have hsmem' := u32_eq_self hsmem
  have hregs' := u32_eq_self hregs
  have hctas' : u32 (s.occupiedCtas + 1) = s.occupiedCtas + 1 := by
    have heq := h.ctas
    exact u32_eq_self (by omega)
  have hroom := hl.room
  have hranges := hl.ranges_eq
  obtain rfl := hl.eq
  constructor
  · rw [htotal, ← h.threads]
    exact hthreads'
  · rw [htotal, ← h.smem]
    exact hsmem'
  · rw [htotal, ← h.regs]
    exact hregs'
  · rw [htotal, ← h.ctas]
    exact hctas'
  · exact hroom.threads
  · exact hroom.smem
  · exact hroom.regs
  · exact hroom.ctas
  · rw [hranges]
    change Packed (fun t => if start ≤ t ∧ t < start + cfg.paddedCtaSize k.toKernelInfo then true
      else s.occupiedHwtid t) _
    rw [hpadded]
    refine h.packed.insert ?_ hrange
    unfold ranges
    rw [Function.comp_apply, hnone]
    rfl
  · intro i
    by_cases hi : i = slot
    · subst hi
      have hpos := k.threadsPerCta_pos
      simp only [Function.update_self]
      constructor
      · intro hzero
        omega
      · intro hcontra
        cases hcontra
    · simp only [Function.update_of_ne hi]
      exact h.status i
  · intro i cta hcta
    by_cases hi : i = slot
    · subst hi
      simp only [Function.update_self, Option.some.injEq] at hcta
      subst hcta
      refine ⟨hl.slot_lt, Function.update_self i _ _, hl.charged, ?_, hend⟩
      rw [hj]
      exact Nat.dvd_mul_left_of_dvd (warpSize_dvd_threads cfg k.toKernelInfo) j
    · simp only [Function.update_of_ne hi] at hcta
      have hplaced := h.placed i cta hcta
      refine ⟨hplaced.slot_lt, ?_, hplaced.charged, hplaced.aligned, hplaced.contained⟩
      simp only [Function.update_of_ne hi]
      exact hplaced.hwtid

/-- When a launch keeps the counters and the ranges of a core right, it had room for its
CTA. -/
theorem Conserves.roomy (h : Conserves cfg s) (hl : Launched cfg s k slot start s')
    (hconserved : Conserved cfg s') : Roomy cfg s (.launch k) := by
  obtain ⟨⟨j, hj⟩, hrange, _⟩ := hl.start_eq
  have hnone : s.resident slot = none := (h.status slot).mp hl.status
  have hresident : s'.resident = Function.update s.resident slot (some ⟨k, start⟩) := by
    rw [hl.eq]
  have htotal := total_launch cfg hl.slot_lt hnone hresident
  have hcontained := hconserved.contained slot ⟨k, start⟩ (by rw [hresident, Function.update_self])
  refine ⟨?_, ?_, j, ?_, ?_⟩
  · have hsmem := hconserved.smem
    rw [htotal, ← h.smem, hl.eq] at hsmem
    rw [← hsmem]
    exact u32_lt _
  · have hregs := hconserved.regs
    rw [htotal, ← h.regs, hl.eq] at hregs
    rw [← hregs]
    exact u32_lt _
  · rw [Nat.succ_mul, ← hj]
    exact hcontained
  · intro t hlo hhi
    rw [Nat.succ_mul, ← hj] at hhi
    exact hrange t (hj ▸ hlo) hhi

/-- A core without the resources of a CTA. -/
def released (cfg : CoreConfig) (s : Residency) (slot : Nat) (cta : Cta) : Residency :=
  { s with
    occupiedNThreads := s.occupiedNThreads - (cfg.footprint cta.kernel.toKernelInfo).threads
    occupiedHwtid := fun t =>
      if cta.startThread ≤ t ∧
          t < cta.startThread + (cfg.footprint cta.kernel.toKernelInfo).threads then false
      else s.occupiedHwtid t
    occupiedCtaToHwtid := Function.update s.occupiedCtaToHwtid slot none
    occupiedShmem := s.occupiedShmem - (cfg.footprint cta.kernel.toKernelInfo).smem
    occupiedRegs := s.occupiedRegs - (cfg.footprint cta.kernel.toKernelInfo).regs
    occupiedCtas := s.occupiedCtas - 1 }

/-- A core whose CTA has exited with its last thread and still holds its resources. -/
def left (s : Residency) (slot : Nat) : Residency :=
  { s with
    ctaStatus := Function.update s.ctaStatus slot 0
    nActiveCta := s.nActiveCta - 1
    kernel := if s.nActiveCta - 1 = 0 then none else s.kernel
    resident := Function.update s.resident slot none }

/-- The resources of a placed CTA can be released while the counters hold them. -/
theorem releaseShaderResource1block_eq {cta : Cta}
    (hconcurrent : cfg.gpgpuConcurrentKernelSm = true) (hplaced : Placed cfg s slot cta)
    (hthreads : (cfg.footprint cta.kernel.toKernelInfo).threads ≤ s.occupiedNThreads)
    (hsmem : (cfg.footprint cta.kernel.toKernelInfo).smem ≤ s.occupiedShmem)
    (hregs : (cfg.footprint cta.kernel.toKernelInfo).regs ≤ s.occupiedRegs)
    (hctas : 1 ≤ s.occupiedCtas) (hsmem_lt : s.occupiedShmem < 2 ^ 32)
    (hregs_lt : s.occupiedRegs < 2 ^ 32) :
    releaseShaderResource1block cfg s slot cta.kernel.toKernelInfo =
      .ok (released cfg s slot cta) := by
  have hend := hplaced.contained
  have hmax := cfg.nThreadPerShader_le
  have hpadded := paddedCtaSize_eq_threads cfg (k := cta.kernel.toKernelInfo) (by omega)
  have hbytes : u32 (cta.kernel.smem + u32 (cfg.exactSmemqBytes cta.kernel.toKernelInfo)) =
      (cfg.footprint cta.kernel.toKernelInfo).smem := by
    rw [u32_add_u32]
    exact u32_eq_self (hsmem.trans_lt hsmem_lt)
  have hused := cfg.usedRegs_eq cta.kernel.toKernelInfo
  rw [u32_eq_self (hregs.trans_lt hregs_lt), hpadded] at hused
  have hbits : cta.startThread + (cfg.footprint cta.kernel.toKernelInfo).threads ≤ 2048 := by
    omega
  simp only [releaseShaderResource1block, hconcurrent, hplaced.hwtid, hplaced.charged.smemq,
    hplaced.charged.rfq, hpadded, hbytes, hused, Option.getD_some, require, hthreads, hbits, hsmem,
    hregs, hctas, bind, Except.bind, pure, Except.pure, ↓reduceIte]
  rfl

/-- The last thread of a resident CTA can exit, and its resources return to the core. -/
theorem Conserves.retire (hconcurrent : cfg.gpgpuConcurrentKernelSm = true) (h : Conserves cfg s)
    {cta : Cta} (hpos : 0 < s.ctaStatus slot) (hcta : s.resident slot = some cta)
    (hlast : s.ctaStatus slot - 1 = 0) :
    ∃ s', registerCtaThreadExit cfg s slot = .ok s' ∧ Conserves cfg s' := by
  have hplaced := h.placed slot cta hcta
  have hle := fun f => demand_le_total cfg hplaced.slot_lt hcta f
  have hsmem_lt := h.smem_le.trans_lt cfg.gpgpuShmemSize_lt
  have hregs_lt := h.regs_le.trans_lt cfg.gpgpuShaderRegisters_lt
  have hplaced' : Placed cfg (left s slot) slot cta :=
    ⟨hplaced.slot_lt, hplaced.hwtid, hplaced.charged, hplaced.aligned, hplaced.contained⟩
  have hrelease := releaseShaderResource1block_eq hconcurrent hplaced'
    (h.threads ▸ hle (·.threads)) (h.smem ▸ hle (·.smem)) (h.regs ▸ hle (·.regs))
    (h.ctas ▸ hle fun _ => 1) hsmem_lt hregs_lt
  have htotal : ∀ f, (released cfg (left s slot) slot cta).total cfg f +
      f (cfg.footprint cta.kernel.toKernelInfo) = s.total cfg f :=
    total_retire cfg hplaced.slot_lt hcta rfl
  have hranges : (released cfg (left s slot) slot cta).ranges cfg =
      Function.update (s.ranges cfg) slot none := Function.comp_update _ _ _ _
  refine ⟨released cfg (left s slot) slot cta, ?_, ?_⟩
  · simp only [registerCtaThreadExit, require, hpos, hcta, fetch, Function.update_self, hlast,
      bind, Except.bind, ↓reduceIte]
    exact hrelease
  constructor
  · exact Nat.sub_eq_of_eq_add (h.threads.trans (htotal (·.threads)).symm)
  · exact Nat.sub_eq_of_eq_add (h.smem.trans (htotal (·.smem)).symm)
  · exact Nat.sub_eq_of_eq_add (h.regs.trans (htotal (·.regs)).symm)
  · exact Nat.sub_eq_of_eq_add (h.ctas.trans (htotal fun _ => 1).symm)
  · exact (Nat.sub_le _ _).trans h.threads_le
  · exact (Nat.sub_le _ _).trans h.smem_le
  · exact (Nat.sub_le _ _).trans h.regs_le
  · exact (Nat.sub_le _ _).trans h.ctas_le
  · rw [hranges]
    refine h.packed.remove ?_
    unfold ranges
    rw [Function.comp_apply, hcta]
    rfl
  · intro i
    by_cases hi : i = slot
    · subst hi
      simp [released, left]
    · simp only [released, left, Function.update_of_ne hi]
      exact h.status i
  · intro i cta' hi
    have hne : i ≠ slot := by
      rintro rfl
      simp [released, left] at hi
    simp only [released, left, Function.update_of_ne hne] at hi
    have hkept := h.placed i cta' hi
    refine ⟨hkept.slot_lt, ?_, hkept.charged, hkept.aligned, hkept.contained⟩
    simp only [released, left, Function.update_of_ne hne]
    exact hkept.hwtid

/-- A thread of a resident CTA can exit, and the resources of the core are conserved. -/
theorem Conserves.exit (hconcurrent : cfg.gpgpuConcurrentKernelSm = true) (h : Conserves cfg s)
    (hpos : 0 < s.ctaStatus slot) :
    ∃ s', registerCtaThreadExit cfg s slot = .ok s' ∧ Conserves cfg s' := by
  cases hcta : s.resident slot with
  | none =>
    rw [(h.status slot).mpr hcta] at hpos
    exact absurd hpos (Nat.lt_irrefl 0)
  | some cta =>
    by_cases hlast : s.ctaStatus slot - 1 = 0
    · exact h.retire hconcurrent hpos hcta hlast
    · refine ⟨{ s with
        ctaStatus := Function.update s.ctaStatus slot (s.ctaStatus slot - 1) }, ?_, ?_⟩
      · simp [registerCtaThreadExit, require, hpos, hlast, bind, Except.bind, pure, Except.pure]
      · refine { h with status := fun i => ?_, placed := fun i cta hi => ?_ }
        · by_cases hi : i = slot
          · subst hi
            simp [hlast, hcta]
          · simp only [Function.update_of_ne hi]
            exact h.status i
        · have hplaced := h.placed i cta hi
          exact ⟨hplaced.slot_lt, hplaced.hwtid, hplaced.charged, hplaced.aligned,
            hplaced.contained⟩

/-- What is conserved meets every promise. -/
theorem Conserves.conserved (hconcurrent : cfg.gpgpuConcurrentKernelSm = true)
    (h : Conserves cfg s) : Conserved cfg s where
  threads := h.threads
  smem := h.smem
  regs := h.regs
  ctas := h.ctas
  threads_le := h.threads_le
  smem_le := h.smem_le
  regs_le := h.regs_le
  ctas_le := h.ctas_le
  aligned slot cta hcta := (h.placed slot cta hcta).aligned
  contained slot cta hcta := (h.placed slot cta hcta).contained
  disjoint := h.packed.disjoint
  releases slot hpos := by
    obtain ⟨s', hexit, _⟩ := h.exit hconcurrent hpos
    exact ⟨s', hexit⟩
  drained hnone := by
    have hzero : ∀ f, s.total cfg f = 0 := by
      intro f
      apply Finset.sum_eq_zero
      intro slot _
      rw [hnone slot, demand_none]
    refine ⟨?_, ?_, ?_, ?_, fun t => ?_⟩
    · rw [h.threads, hzero]
    · rw [h.smem, hzero]
    · rw [h.regs, hzero]
    · rw [h.ctas, hzero]
    · apply h.packed.eq_false
      intro slot
      unfold ranges
      rw [Function.comp_apply, hnone slot]
      rfl

theorem Conserves.empty (cfg : CoreConfig) (v : Nat) : Conserves cfg (empty v) := by
  have hzero : ∀ f, (Residency.empty v).total cfg f = 0 := fun f =>
    Finset.sum_eq_zero fun _ _ => rfl
  constructor
  · exact (hzero _).symm
  · exact (hzero _).symm
  · exact (hzero _).symm
  · exact (hzero _).symm
  · exact Nat.zero_le _
  · exact Nat.zero_le _
  · exact Nat.zero_le _
  · exact Nat.zero_le _
  · constructor
    · intro t
      constructor
      · intro hbit
        cases hbit
      · rintro ⟨i, hi⟩
        exact absurd hi (not_inRange rfl)
    · intro i j t hi
      exact absurd hi (not_inRange rfl)
  · intro slot
    exact ⟨fun _ => rfl, fun _ => rfl⟩
  · intro slot cta hcta
    cases hcta

/-- Every state that a step leads to is conserved. -/
def StepConserved (cfg : CoreConfig) (s : Residency) (a : CtaAction) : Prop :=
  ∀ s', step cfg s a = .ok s' → Conserved cfg s'

/-- A step conserves the resources of a core exactly when it is roomy. -/
theorem Conserves.step_iff (hconcurrent : cfg.gpgpuConcurrentKernelSm = true)
    (h : Conserves cfg s) {a : CtaAction} (hstep : step cfg s a = .ok s') :
    (StepConserved cfg s a ↔ Roomy cfg s a) ∧ (Roomy cfg s a → Conserves cfg s') := by
  have hkept : Roomy cfg s a → Conserves cfg s' := by
    intro hroomy
    cases a with
    | launch k =>
      obtain ⟨slot, start, hl⟩ := launch_cases hconcurrent hstep
      exact h.launch hl hroomy
    | exitThread slot =>
      have hpos : 0 < s.ctaStatus slot := by
        simp only [step, registerCtaThreadExit, bind_eq_ok, require_eq_ok] at hstep
        exact hstep.choose_spec.1
      obtain ⟨s'', hexit, hs''⟩ := h.exit hconcurrent hpos
      obtain rfl : s'' = s' := Except.ok.inj (hexit.symm.trans hstep)
      exact hs''
  refine ⟨⟨fun hconserved => ?_, fun hroomy s'' hstep' => ?_⟩, hkept⟩
  · cases a with
    | launch k =>
      obtain ⟨slot, start, hl⟩ := launch_cases hconcurrent hstep
      exact h.roomy hl (hconserved s' hstep)
    | exitThread slot => exact trivial
  · obtain rfl : s' = s'' := Except.ok.inj (hstep.symm.trans hstep')
    exact (hkept hroomy).conserved hconcurrent

/-- Along any run with concurrent kernels, every state conserves the resources of the core
if and only if every launch makes no counter wrap and has a free candidate range that ends
on the core. -/
theorem conserved_iff_roomy (hconcurrent : cfg.gpgpuConcurrentKernelSm = true) (v : Nat)
    (as : List CtaAction) :
    Along (step cfg) (StepConserved cfg) as (empty v) ↔
      Along (step cfg) (Roomy cfg) as (empty v) := by
  exact Along.iff_of_invariant (Conserves cfg)
    (fun _ _ _ hs hstep => hs.step_iff hconcurrent hstep) as (.empty cfg v)

/-- A kernel of the given CTA size with 16 registers for each thread. -/
def kernelOfSize (threads : Nat) (hpos : 0 < threads) (hlt : threads < 2 ^ 32) : Kernel where
  threadsPerCta := threads
  smem := 0
  regs := 16
  threadsPerCta_pos := hpos
  threadsPerCta_lt := hlt
  smem_lt := OccupancyConfig.sampleKernel.smem_lt
  regs_lt := by decide
  uid := threads
  numBlocks := 64

/-- A core of 1536 threads. -/
def core1536 (concurrent : Bool) : CoreConfig where
  toOccupancyConfig := { OccupancyConfig.sample 1 with
    nThreadPerShader := 1536
    nThreadPerShader_lt := by decide }
  gpgpuConcurrentKernelSm := concurrent
  numShader := 1
  nThreadPerShader_le := by decide
  warpSize_dvd := ⟨48, rfl⟩

theorem conserved_after_launch :
    ∃ s, step (core1536 true) (empty 0) (.launch (kernelOfSize 1024 (by decide) (by decide))) =
        .ok s ∧ Conserved (core1536 true) s := by
  have hall := (@conserved_iff_roomy (core1536 true) rfl 0
    [.launch (kernelOfSize 1024 (by decide) (by decide))]).mpr fun s hstep =>
      ⟨⟨by decide, by decide, 0, by decide, fun _ _ _ => rfl⟩, trivial⟩
  have hsome : (step (core1536 true) (empty 0)
      (.launch (kernelOfSize 1024 (by decide) (by decide)))).toOption.isSome = true := by
    decide +kernel
  cases hstep : step (core1536 true) (empty 0)
      (.launch (kernelOfSize 1024 (by decide) (by decide))) with
  | error e =>
    rw [hstep] at hsome
    cases hsome
  | ok s => exact ⟨s, rfl, (hall s hstep).1 s hstep⟩

/-- A CTA of one warp takes the first threads of the core. The search for 1024 threads then
finds the range from thread 1024 on, which ends beyond the last thread. -/
theorem range_beyond_core :
    ¬Along (step (core1536 true)) (StepConserved (core1536 true))
      [.launch (kernelOfSize 32 (by decide) (by decide)),
        .launch (kernelOfSize 1024 (by decide) (by decide))] (empty 0) := by
  intro hall
  have heval : ([CtaAction.launch (kernelOfSize 32 (by decide) (by decide)),
      .launch (kernelOfSize 1024 (by decide) (by decide))].foldlM (step (core1536 true))
      (empty 0)).toOption.any
      (fun s => decide (s.ranges (core1536 true) 1 = some (1024, 1024))) = true := by
    decide +kernel
  cases hrun : [CtaAction.launch (kernelOfSize 32 (by decide) (by decide)),
      .launch (kernelOfSize 1024 (by decide) (by decide))].foldlM (step (core1536 true))
      (empty 0) with
  | error e =>
    rw [hrun] at heval
    cases heval
  | ok s =>
    simp only [hrun, Except.toOption, Option.any_some, decide_eq_true_eq] at heval
    obtain ⟨s₁, hfirst, hrest⟩ := foldlM_cons_eq_ok.mp hrun
    obtain ⟨s₂, hsecond, hnil⟩ := foldlM_cons_eq_ok.mp hrest
    obtain rfl : s₂ = s := foldlM_nil_eq_ok.mp hnil
    have hconserved := ((hall s₁ hfirst).2 s₂ hsecond).1 s₂ hsecond
    unfold ranges at heval
    rw [Function.comp_apply, Option.map_eq_some_iff] at heval
    obtain ⟨cta, hcta, heq⟩ := heval
    have hle := hconserved.contained 1 cta hcta
    rw [Prod.mk.injEq] at heq
    rw [heq.1, heq.2] at hle
    exact absurd hle (by decide)

end Residency
end WaspSim
