import WaspSim.Core.Meets
import WaspSim.Dispatch.Gpu
import WaspSim.Occupancy.Layout

/-!
# The CTAs of a core apart from each other

A CTA that a core accepts finds a hardware slot and hardware threads that no other CTA has. With
one kernel on a core its slot gives it the place, and `max_cta` keeps the place on the core. With
concurrent kernels the bitset of the hardware threads does, and the place may end beyond the core.
-/

namespace WaspSim

/-- A hardware thread is one of those of a CTA. -/
def Cta.Has (cta : Cta) (tid : Nat) : Prop :=
  cta.startThread ≤ tid ∧ tid < cta.startThread + cta.kernel.threadsPerCta

/-- The clamp does not raise the count. -/
theorem OccupancyConfig.clampByBlocks_le (numBlocks numShader result : Nat) :
    OccupancyConfig.clampByBlocks numBlocks numShader result ≤ result := by
  unfold OccupancyConfig.clampByBlocks
  split
  · rename_i hlt
    have hlt : numBlocks < result * numShader := hlt.trans_le (Nat.mod_le _ _)
    have hshare : numBlocks / numShader < result := Nat.div_lt_of_lt_mul (Nat.mul_comm _ _ ▸ hlt)
    split
    · exact (Nat.mod_le _ _).trans hshare
    · exact (Nat.mod_le _ _).trans hshare.le
  · exact Nat.le_refl _

namespace Residency

variable {cfg : CoreConfig} {s s' : Residency} {k : Kernel} {slot start : Nat} {cta : Cta}

/-- What `issue_block2core` changes of the CTAs of a core. -/
structure Issued (cfg : CoreConfig) (s : Residency) (k : Kernel) (slot start : Nat)
    (s' : Residency) : Prop where
  slot_lt : slot < 32
  slot_below : slot < max 1 cfg.maxCtaPerCore
  status : s.ctaStatus slot = 0
  fits : k.threadsPerCta ≤ cfg.nThreadPerShader
  aligned : cfg.warpSize ∣ start
  ctaStatus : s'.ctaStatus = Function.update s.ctaStatus slot k.threadsPerCta
  resident : s'.resident = Function.update s.resident slot (some ⟨k, start⟩)
  nActiveCta : s'.nActiveCta = s.nActiveCta + 1
  kernel : s'.kernel = s.kernel
  /-- With one kernel the slot gives the CTA its place, which is on the core. -/
  place : cfg.gpgpuConcurrentKernelSm = false →
    start = slot * (cfg.footprint k.toKernelInfo).threads ∧
      start + k.threadsPerCta ≤ cfg.nThreadPerShader
  counted : cfg.gpgpuConcurrentKernelSm = false → ∀ n, maxCta cfg k = .ok n → slot < n
  free : cfg.gpgpuConcurrentKernelSm = true → ∀ t, start ≤ t →
    t < start + (cfg.footprint k.toKernelInfo).threads → s.occupiedHwtid t = false
  occupiedHwtid : cfg.gpgpuConcurrentKernelSm = true → s'.occupiedHwtid = fun t =>
    if start ≤ t ∧ t < start + (cfg.footprint k.toKernelInfo).threads then true
    else s.occupiedHwtid t
  occupiedCtaToHwtid : cfg.gpgpuConcurrentKernelSm = true →
    s'.occupiedCtaToHwtid = Function.update s.occupiedCtaToHwtid slot (some start)
  occupiedCtas : cfg.gpgpuConcurrentKernelSm = true → s'.occupiedCtas = u32 (s.occupiedCtas + 1)
  charged : cfg.gpgpuConcurrentKernelSm = true → Charged cfg k.toKernelInfo

/-- The invariant of the CTAs of a core. -/
structure Spread (cfg : CoreConfig) (s : Residency) : Prop where
  status : ∀ slot, s.ctaStatus slot = 0 ↔ s.resident slot = none
  slot_lt : ∀ slot cta, s.resident slot = some cta → slot < 32
  active : s.nActiveCta = s.total cfg fun _ => 1
  single : cfg.gpgpuConcurrentKernelSm = false →
    ∀ slot cta, s.resident slot = some cta → s.kernel = some cta.kernel
  unbound : cfg.gpgpuConcurrentKernelSm = true → s.kernel = none
  fits : ∀ slot cta, s.resident slot = some cta → cta.kernel.threadsPerCta ≤ cfg.nThreadPerShader
  aligned : ∀ slot cta, s.resident slot = some cta → cfg.warpSize ∣ cta.startThread
  /-- With one kernel the place of a CTA follows from its slot. -/
  start : cfg.gpgpuConcurrentKernelSm = false → ∀ slot cta, s.resident slot = some cta →
    cta.startThread = slot * (cfg.footprint cta.kernel.toKernelInfo).threads
  packed : cfg.gpgpuConcurrentKernelSm = true → Packed s.occupiedHwtid (s.ranges cfg)
  hwtid : cfg.gpgpuConcurrentKernelSm = true →
    ∀ slot, s.occupiedCtaToHwtid slot = (s.resident slot).map (·.startThread)
  ctas : cfg.gpgpuConcurrentKernelSm = true → s.occupiedCtas = s.total cfg fun _ => 1
  charged : cfg.gpgpuConcurrentKernelSm = true →
    ∀ slot cta, s.resident slot = some cta → Charged cfg cta.kernel.toKernelInfo

/-- No hardware thread is in two CTAs. -/
theorem Spread.disjoint (h : s.Spread cfg) {i j tid : Nat} {cta' : Cta}
    (hi : s.resident i = some cta) (hj : s.resident j = some cta') (hcta : cta.Has tid)
    (hcta' : cta'.Has tid) : i = j := by
  have hle := threadsPerCta_le cfg cta.kernel.toKernelInfo
  have hle' := threadsPerCta_le cfg cta'.kernel.toKernelInfo
  obtain ⟨hlo, hhi⟩ := hcta
  obtain ⟨hlo', hhi'⟩ := hcta'
  cases hconcurrent : cfg.gpgpuConcurrentKernelSm with
  | true =>
    refine (h.packed hconcurrent).disjoint i j tid ⟨_, _, congrArg _ hi, hlo, ?_⟩
      ⟨_, _, congrArg _ hj, hlo', ?_⟩
    · exact hhi.trans_le (Nat.add_le_add_left hle _)
    · exact hhi'.trans_le (Nat.add_le_add_left hle' _)
  | false =>
    -- both are the part of `tid` above the size of a CTA
    have hkernel : cta'.kernel = cta.kernel := Option.some.inj
      ((h.single hconcurrent j cta' hj).symm.trans (h.single hconcurrent i cta hi))
    rw [h.start hconcurrent i cta hi] at hlo hhi
    rw [h.start hconcurrent j cta' hj, hkernel] at hlo' hhi'
    rw [hkernel] at hle'
    calc i = tid / (cfg.footprint cta.kernel.toKernelInfo).threads :=
          (Nat.div_eq_of_lt_le hlo (by rw [Nat.succ_mul]; omega)).symm
      _ = j := Nat.div_eq_of_lt_le hlo' (by rw [Nat.succ_mul]; omega)

/-- With fewer CTAs than slots a slot is free. -/
theorem Spread.exists_free (h : s.Spread cfg) {n : Nat} (hlt : s.total cfg (fun _ => 1) < n) :
    ∃ slot < n, s.ctaStatus slot = 0 := by
  by_contra hnone
  push Not at hnone
  have hbusy : ∀ slot < n, ∃ cta, s.resident slot = some cta := fun slot hslot =>
    Option.ne_none_iff_exists'.mp fun hfree => hnone slot hslot ((h.status slot).mpr hfree)
  have hn : n ≤ 32 := by
    by_contra hgt
    obtain ⟨cta, hcta⟩ := hbusy 32 (by omega)
    exact absurd (h.slot_lt 32 cta hcta) (Nat.lt_irrefl 32)
  have hsum : ∑ slot ∈ Finset.range n, 1 ≤ s.total cfg fun _ => 1 := by
    calc ∑ slot ∈ Finset.range n, 1
        ≤ ∑ slot ∈ Finset.range n, demand cfg (fun _ => 1) (s.resident slot) :=
          Finset.sum_le_sum fun slot hslot => by
            obtain ⟨cta, hcta⟩ := hbusy slot (Finset.mem_range.mp hslot)
            rw [hcta, demand_some]
      _ ≤ s.total cfg fun _ => 1 :=
          Finset.sum_le_sum_of_subset (Finset.range_subset_range.mpr hn)
  rw [Finset.sum_const, Finset.card_range, smul_eq_mul, Nat.mul_one] at hsum
  omega

/-- The search for a free slot finds one, unless it runs beyond the array. -/
theorem freeCtaHwId_meets {n fuel : Nat} (hle : fuel ≤ n)
    (hfree : ∃ slot, n - fuel ≤ slot ∧ slot < n ∧ s.ctaStatus slot = 0) :
    MeetsUnless (fun e => e = .indexOutOfRange ∧ 32 < n) (s.freeCtaHwId n fuel) (· < n) := by
  induction fuel with
  | zero =>
    obtain ⟨slot, hlo, hhi, _⟩ := hfree
    omega
  | succ fuel ih =>
    rw [freeCtaHwId]
    by_cases hin : n - (fuel + 1) < 32
    · refine .require hin (.ite (fun _ => .pure (by omega)) fun hbusy => ih (by omega) ?_)
      obtain ⟨slot, hlo, hhi, hzero⟩ := hfree
      have hne : slot ≠ n - (fuel + 1) := fun heq => hbusy (heq ▸ hzero)
      exact ⟨slot, by omega, hhi, hzero⟩
    · refine .inl ⟨.indexOutOfRange, ?_, rfl, by omega⟩
      rw [require, if_neg hin]
      rfl

/-- The test of the resources stops only at the end of the bitset. -/
theorem occupy_meets {k : KernelInfo} {occupy : Bool} (hcharges : cfg.Charges k) :
    MeetsUnless (· = .indexOutOfRange) (occupyShaderResource1block cfg s k occupy)
      fun _ => True := by
  have hsearch : MeetsUnless (· = .indexOutOfRange)
      (findAvailableHwtid cfg s (cfg.paddedCtaSize k)) fun _ => True := by
    cases hfound : findAvailableHwtid cfg s (cfg.paddedCtaSize k) with
    | error e => exact .inl ⟨e, rfl, firstFit_error hfound⟩
    | ok found => exact .pure trivial
  refine .ite (fun _ => .pure trivial) fun _ => .bind hsearch fun found _ => ?_
  refine .ite (fun _ => .pure trivial) fun _ => ?_
  refine .bind_ok (OccupancyConfig.smemqSharedBytesPerCta_eq hcharges) ?_
  refine .ite (fun _ => .pure trivial) fun _ => ?_
  refine .bind_ok (OccupancyConfig.waspRfqRegsPerCta_eq hcharges) ?_
  refine .ite (fun _ => .pure trivial) fun _ => .ite (fun _ => .pure trivial) fun _ => ?_
  exact .ite (fun _ => .pure trivial) fun _ => .pure trivial

/-- Whether a core can take a CTA is known where `max_cta` counts, unless kernels are concurrent
and an index is beyond an array. -/
theorem canIssue_meets : MeetsUnless
    (fun e => maxCta cfg k = .error e ∨
      cfg.gpgpuConcurrentKernelSm = true ∧ e = .indexOutOfRange)
    (canIssue1block cfg s k) fun ok => canIssue1block cfg s k = .ok ok := by
  refine (?_ : MeetsUnless _ _ fun _ => True).self.mono fun ok hok => hok.1
  unfold canIssue1block
  cases hmax : maxCta cfg k with
  | error e => exact .inl ⟨e, rfl, .inl rfl⟩
  | ok n =>
    obtain ⟨limits, hlimits, _⟩ := bind_eq_ok.mp hmax
    have hcharges := OccupancyConfig.charges_of_ctaLimits hlimits
    refine .ite (fun hconcurrent => .ite (fun _ => .pure trivial) fun _ => ?_)
      fun _ => .pure trivial
    refine .bind ((occupy_meets hcharges).weaken fun e he => .inr ⟨hconcurrent, he⟩) ?_
    exact fun r _ => .pure trivial

/-- A CTA that is issued is apart from the others. -/
theorem Spread.issue (h : s.Spread cfg) (hi : Issued cfg s k slot start s')
    (hkernel : cfg.gpgpuConcurrentKernelSm = true ∨ s.kernel = some k) : s'.Spread cfg := by
  have hfree : s.resident slot = none := (h.status slot).mp hi.status
  have htotal := total_launch cfg hi.slot_lt hfree hi.resident fun _ => 1
  -- the CTA that is issued and those from before
  have hcases : ∀ i cta, s'.resident i = some cta →
      (i = slot ∧ cta = ⟨k, start⟩) ∨ s.resident i = some cta := by
    intro i cta hcta
    rw [hi.resident] at hcta
    by_cases heq : i = slot
    · rw [heq, Function.update_self, Option.some.injEq] at hcta
      exact .inl ⟨heq, hcta.symm⟩
    · rw [Function.update_of_ne heq] at hcta
      exact .inr hcta
  constructor
  · intro i
    rw [hi.ctaStatus, hi.resident]
    by_cases heq : i = slot
    · have hpos := k.threadsPerCta_pos
      rw [heq, Function.update_self, Function.update_self]
      exact ⟨fun hzero => absurd hzero (Nat.ne_of_gt hpos), fun hnone => by cases hnone⟩
    · rw [Function.update_of_ne heq, Function.update_of_ne heq]
      exact h.status i
  · intro i cta hcta
    rcases hcases i cta hcta with ⟨rfl, _⟩ | hold
    · exact hi.slot_lt
    · exact h.slot_lt i cta hold
  · rw [hi.nActiveCta, h.active, htotal]
  · intro hsingle i cta hcta
    rw [hi.kernel]
    rcases hcases i cta hcta with ⟨_, rfl⟩ | hold
    · refine hkernel.resolve_left fun htrue => ?_
      rw [hsingle] at htrue
      cases htrue
    · exact h.single hsingle i cta hold
  · intro hconcurrent
    rw [hi.kernel]
    exact h.unbound hconcurrent
  · intro i cta hcta
    rcases hcases i cta hcta with ⟨_, rfl⟩ | hold
    · exact hi.fits
    · exact h.fits i cta hold
  · intro i cta hcta
    rcases hcases i cta hcta with ⟨_, rfl⟩ | hold
    · exact hi.aligned
    · exact h.aligned i cta hold
  · intro hsingle i cta hcta
    rcases hcases i cta hcta with ⟨rfl, rfl⟩ | hold
    · exact (hi.place hsingle).1
    · exact h.start hsingle i cta hold
  · intro hconcurrent
    have hranges : s'.ranges cfg = Function.update (s.ranges cfg) slot
        (some (start, (cfg.footprint k.toKernelInfo).threads)) := by
      unfold ranges
      rw [hi.resident]
      exact Function.comp_update _ _ _ _
    rw [hi.occupiedHwtid hconcurrent, hranges]
    exact (h.packed hconcurrent).insert (congrArg _ hfree) (hi.free hconcurrent)
  · intro hconcurrent i
    rw [hi.occupiedCtaToHwtid hconcurrent, hi.resident]
    by_cases heq : i = slot
    · rw [heq, Function.update_self, Function.update_self]
      rfl
    · rw [Function.update_of_ne heq, Function.update_of_ne heq]
      exact h.hwtid hconcurrent i
  · intro hconcurrent
    have hle := total_ctas_le cfg s
    rw [hi.occupiedCtas hconcurrent, htotal, h.ctas hconcurrent]
    exact u32_eq_self (by omega)
  · intro hconcurrent i cta hcta
    rcases hcases i cta hcta with ⟨_, rfl⟩ | hold
    · exact hi.charged hconcurrent
    · exact h.charged hconcurrent i cta hold

/-- The site and the result of an issue, from its three parts. -/
theorem issue_eq {s₁ s₂ : Residency} (htake : takeResources cfg s k = .ok s₁)
    (hslot : s₁.freeCtaHwId
      (if cfg.gpgpuConcurrentKernelSm then cfg.maxCtaPerCore else s₁.kernelMaxCtaPerShader)
      (if cfg.gpgpuConcurrentKernelSm then cfg.maxCtaPerCore else s₁.kernelMaxCtaPerShader) =
        .ok slot)
    (hplace : placeCta cfg s₁ k slot = .ok (s₂, start))
    (hfits : k.threadsPerCta ≤ cfg.nThreadPerShader) :
    issueBlock2core cfg s k = .ok { s₂ with
      ctaStatus := Function.update s₂.ctaStatus slot k.threadsPerCta
      resident := Function.update s₂.resident slot (some ⟨k, start⟩)
      nActiveCta := s₂.nActiveCta + 1 } := by
  simp only [issueBlock2core, bind_eq_ok, require_eq_ok, pure_eq_ok, Prod.exists]
  exact ⟨s₁, htake, slot, hslot, s₂, start, hplace, (), ⟨k.threadsPerCta_pos, hfits⟩, rfl⟩

/-- The CTAs that `max_cta` allows have their places on the core, and slots in the array. -/
theorem maxCta_places {n : Nat} (h : maxCta cfg k = .ok n)
    (hfits : k.threadsPerCta ≤ cfg.nThreadPerShader) :
    n ≤ 32 ∧ n ≤ max 1 cfg.maxCtaPerCore ∧
      ∀ slot < n, slot * (cfg.footprint k.toKernelInfo).threads + k.threadsPerCta ≤
        cfg.nThreadPerShader := by
  have hthreads := threads_le_of_launch cfg hfits
  have hsize := threadsPerCta_le cfg k.toKernelInfo
  simp only [maxCta, OccupancyConfig.maxCta, bind_eq_ok, require_eq_ok] at h
  obtain ⟨limits, hlimits, _, hle, h⟩ := h
  split at h
  · -- a kernel that does not fit, but is let through, is alone
    simp only [bind_eq_ok, require_eq_ok, pure_eq_ok] at h
    obtain ⟨_, _, rfl⟩ := h
    refine ⟨by decide, Nat.le_max_left _ _, fun slot hslot => ?_⟩
    obtain rfl : slot = 0 := by omega
    rw [Nat.zero_mul, Nat.zero_add]
    exact hfits
  · rw [pure_eq_ok] at h
    subst h
    have hpositive := OccupancyConfig.padded_pos_of_ctaLimits hlimits
    rw [OccupancyConfig.ctaLimits_eq (OccupancyConfig.charges_of_ctaLimits hlimits) hpositive,
      Except.ok.injEq] at hlimits
    have hclamped : OccupancyConfig.clampByBlocks k.numBlocks cfg.numShader limits.result ≤
        OccupancyConfig.countFor cfg.toCapacities (cfg.footprint k.toKernelInfo).wrapped := by
      rw [← hlimits]
      exact OccupancyConfig.clampByBlocks_le ..
    refine ⟨hle, ((OccupancyConfig.le_countFor_iff hpositive).mp hclamped).ctas.trans
      (Nat.le_max_right _ _), fun slot hslot => ?_⟩
    have hall := ((OccupancyConfig.le_countFor_iff hpositive).mp (hslot.trans_le hclamped)).threads
    change (slot + 1) * u32 (cfg.footprint k.toKernelInfo).threads ≤ _ at hall
    rw [u32_eq_self (hthreads.trans_lt cfg.nThreadPerShader_lt), Nat.succ_mul] at hall
    exact (Nat.add_le_add_left hsize _).trans hall

/-- With one kernel a core that has fewer CTAs than `max_cta` allows places one more. -/
theorem Spread.issue_single (h : s.Spread cfg) (hsingle : cfg.gpgpuConcurrentKernelSm = false)
    (hcan : canIssue1block cfg s k = .ok true) (hfits : k.threadsPerCta ≤ cfg.nThreadPerShader) :
    Meets (issueSite cfg s k) fun site => ∃ s', issueBlock2core cfg s k = .ok s' ∧
      Issued cfg s k site.1 site.2 s' := by
  have hpadded := paddedCtaSize_eq_threads cfg (threads_le_of_launch cfg hfits)
  simp only [canIssue1block, hsingle, Bool.false_eq_true, ↓reduceIte, bind_eq_ok, pure_eq_ok,
    decide_eq_true_eq] at hcan
  obtain ⟨n, hn, hlt⟩ := hcan
  obtain ⟨hmax, hbelow, hplaces⟩ := maxCta_places hn hfits
  rw [h.active] at hlt
  have htake : takeResources cfg s k = .ok { s with
      kernelMaxCtaPerShader := n
      kernelPaddedThreadsPerCta := cfg.paddedCtaSize k.toKernelInfo } := by
    simp only [takeResources, setMaxCta, hsingle, Bool.false_eq_true, ↓reduceIte, bind_eq_ok,
      pure_eq_ok]
    exact ⟨n, hn, rfl⟩
  have hsearch := freeCtaHwId_meets (s := { s with
      kernelMaxCtaPerShader := n
      kernelPaddedThreadsPerCta := cfg.paddedCtaSize k.toKernelInfo }) (Nat.le_refl n) (by
    obtain ⟨slot, hslot, hzero⟩ := h.exists_free hlt
    exact ⟨slot, by omega, hslot, hzero⟩)
  rcases hsearch with ⟨_, _, _, hgt⟩ | ⟨slot, hslot, hslot_lt⟩
  · omega
  have hplace : placeCta cfg { s with
      kernelMaxCtaPerShader := n
      kernelPaddedThreadsPerCta := cfg.paddedCtaSize k.toKernelInfo } k slot = .ok ({ s with
        kernelMaxCtaPerShader := n
        kernelPaddedThreadsPerCta := cfg.paddedCtaSize k.toKernelInfo },
      slot * (cfg.footprint k.toKernelInfo).threads) := by
    have hstart : u32 (slot * (cfg.footprint k.toKernelInfo).threads) =
        slot * (cfg.footprint k.toKernelInfo).threads := by
      have hend := hplaces slot hslot_lt
      have hlt := cfg.nThreadPerShader_lt
      exact u32_eq_self (by omega)
    rw [placeCta, hsingle, hpadded, hstart]
    rfl
  have hblock := issue_eq htake (by rw [hsingle]; exact hslot) hplace hfits
  obtain ⟨hslot32, hzero⟩ := of_freeCtaHwId hslot
  have hfalse : cfg.gpgpuConcurrentKernelSm ≠ true := by
    rw [hsingle]
    decide
  refine ⟨(slot, slot * (cfg.footprint k.toKernelInfo).threads), ?_, _, hblock, ?_⟩
  · simp only [issueSite, bind_eq_ok, pure_eq_ok, Prod.exists]
    exact ⟨_, htake, slot, by rw [hsingle]; exact hslot, _, _, hplace, rfl⟩
  · exact {
      slot_lt := hslot32
      slot_below := hslot_lt.trans_le hbelow
      status := hzero
      fits := hfits
      aligned := Nat.dvd_mul_left_of_dvd (warpSize_dvd_threads cfg k.toKernelInfo) slot
      ctaStatus := rfl
      resident := rfl
      nActiveCta := rfl
      kernel := rfl
      place := fun _ => ⟨rfl, hplaces slot hslot_lt⟩
      counted := fun _ m hm => by rwa [← Except.ok.inj (hn.symm.trans hm)]
      free := fun htrue => absurd htrue hfalse
      occupiedHwtid := fun htrue => absurd htrue hfalse
      occupiedCtaToHwtid := fun htrue => absurd htrue hfalse
      occupiedCtas := fun htrue => absurd htrue hfalse
      charged := fun htrue => absurd htrue hfalse }

/-- With concurrent kernels a core that has the resources of a CTA places it, unless the search
for a slot runs beyond the array. -/
theorem Spread.issue_concurrent (h : s.Spread cfg)
    (hconcurrent : cfg.gpgpuConcurrentKernelSm = true) (hcan : canIssue1block cfg s k = .ok true)
    (hfits : k.threadsPerCta ≤ cfg.nThreadPerShader) :
    MeetsUnless (· = .indexOutOfRange) (issueSite cfg s k) fun site =>
      ∃ s', issueBlock2core cfg s k = .ok s' ∧ Issued cfg s k site.1 site.2 s' := by
  have hpadded := paddedCtaSize_eq_threads cfg (threads_le_of_launch cfg hfits)
  simp only [canIssue1block, hconcurrent, ↓reduceIte, bind_eq_ok] at hcan
  obtain ⟨n, hn, hcan⟩ := hcan
  split at hcan
  · cases hcan
  simp only [bind_eq_ok, pure_eq_ok, Prod.exists] at hcan
  obtain ⟨_, _, hoccupy, rfl⟩ := hcan
  obtain ⟨hroom, hcharged, ⟨start, hfound⟩, _⟩ := of_occupyShaderResource1block hoccupy
  obtain ⟨limits, hlimits, _⟩ := bind_eq_ok.mp hn
  have htake : takeResources cfg s k = .ok (s.occupied (cfg.footprint k.toKernelInfo)) := by
    simp only [takeResources, hconcurrent, ↓reduceIte,
      occupyShaderResource1block_eq (OccupancyConfig.charges_of_ctaLimits hlimits) hfound, hroom]
    rfl
  have hlt : s.total cfg (fun _ => 1) < cfg.maxCtaPerCore := by
    have hctas := hroom.ctas
    have hle := total_ctas_le cfg s
    rw [h.ctas hconcurrent, u32_eq_self (by omega)] at hctas
    exact hctas
  have hsearch := freeCtaHwId_meets (s := s.occupied (cfg.footprint k.toKernelInfo))
    (Nat.le_refl cfg.maxCtaPerCore) (by
      obtain ⟨slot, hslot, hzero⟩ := h.exists_free hlt
      exact ⟨slot, by omega, hslot, hzero⟩)
  have hslots : (if cfg.gpgpuConcurrentKernelSm = true then cfg.maxCtaPerCore
      else (s.occupied (cfg.footprint k.toKernelInfo)).kernelMaxCtaPerShader) =
      cfg.maxCtaPerCore := if_pos hconcurrent
  unfold issueSite
  refine .bind_ok htake ?_
  simp only [hslots]
  refine .bind (hsearch.self.weaken fun e he => he.1) fun slot hslot => ?_
  obtain ⟨hslot32, hzero⟩ := of_freeCtaHwId hslot.1
  have hunused : s.occupiedCtaToHwtid slot = none := by
    rw [h.hwtid hconcurrent, (h.status slot).mp hzero]
    rfl
  have hplace : placeCta cfg (s.occupied (cfg.footprint k.toKernelInfo)) k slot = .ok
      ({ (s.occupied (cfg.footprint k.toKernelInfo)).setHwtid start
          (cfg.paddedCtaSize k.toKernelInfo) with
        occupiedCtaToHwtid := Function.update s.occupiedCtaToHwtid slot (some start) }, start) := by
    simp only [placeCta, hconcurrent, ↓reduceIte, bind_eq_ok, fetch_eq_ok, require_eq_ok,
      pure_eq_ok]
    exact ⟨some start, hfound, start, rfl, (), hunused, rfl⟩
  refine .bind_ok hplace
    (.pure ⟨_, issue_eq htake (by rw [hslots]; exact hslot.1) hplace hfits, ?_⟩)
  unfold findAvailableHwtid at hfound
  rw [hpadded] at hfound ⊢
  obtain ⟨m, hm, _, hfree, _⟩ := firstFit_eq_some hfound
  rw [Nat.zero_add] at hm
  exact {
    slot_lt := hslot32
    slot_below := hslot.2.trans_le (Nat.le_max_right _ _)
    status := hzero
    fits := hfits
    aligned := hm ▸ Nat.dvd_mul_left_of_dvd (warpSize_dvd_threads cfg k.toKernelInfo) m
    ctaStatus := rfl
    resident := rfl
    nActiveCta := rfl
    kernel := rfl
    place := fun hfalse => absurd (hconcurrent.symm.trans hfalse) (by decide)
    counted := fun hfalse => absurd (hconcurrent.symm.trans hfalse) (by decide)
    free := fun _ t hlo hhi => (hfree t hlo hhi).2
    occupiedHwtid := fun _ => rfl
    occupiedCtaToHwtid := fun _ => rfl
    occupiedCtas := fun _ => rfl
    charged := fun _ => hcharged }

/-- A core that can take a CTA places it, unless kernels are concurrent and an index is beyond an
array. -/
theorem Spread.issue_meets (h : s.Spread cfg) (hcan : canIssue1block cfg s k = .ok true)
    (hfits : k.threadsPerCta ≤ cfg.nThreadPerShader) :
    MeetsUnless (fun e => cfg.gpgpuConcurrentKernelSm = true ∧ e = .indexOutOfRange)
      (issueSite cfg s k) fun site => ∃ s', issueBlock2core cfg s k = .ok s' ∧
        Issued cfg s k site.1 site.2 s' := by
  cases hconcurrent : cfg.gpgpuConcurrentKernelSm with
  | true => exact (h.issue_concurrent hconcurrent hcan hfits).weaken fun e he => ⟨rfl, he⟩
  | false => exact .of_meets (h.issue_single hconcurrent hcan hfits)

/-- The exit of a thread: the CTA has another one left, or gives its resources back. -/
theorem exit_cases (h : registerCtaThreadExit cfg s slot = .ok s') :
    (1 < s.ctaStatus slot ∧ s' = { s with
      ctaStatus := Function.update s.ctaStatus slot (s.ctaStatus slot - 1) }) ∨
    ∃ cta, s.resident slot = some cta ∧ s.ctaStatus slot = 1 ∧
      releaseShaderResource1block cfg (left s slot) slot cta.kernel.toKernelInfo = .ok s' := by
  simp only [registerCtaThreadExit, bind_eq_ok, require_eq_ok, Function.update_self] at h
  obtain ⟨_, hpos, h⟩ := h
  split at h
  · rename_i hlast
    simp only [bind_eq_ok, fetch_eq_ok, hlast] at h
    obtain ⟨cta, hcta, hrelease⟩ := h
    exact .inr ⟨cta, hcta, by omega, hrelease⟩
  · rw [pure_eq_ok] at h
    exact .inl ⟨by omega, h.symm⟩

/-- The exit of a thread counts one thread less, and its CTA may go. -/
theorem exit_frame (h : registerCtaThreadExit cfg s slot = .ok s') :
    s'.ctaStatus = Function.update s.ctaStatus slot (s.ctaStatus slot - 1) ∧
      (s'.resident = s.resident ∨ s'.resident = Function.update s.resident slot none) ∧
      (s'.kernel = s.kernel ∨ s'.kernel = none) := by
  rcases exit_cases h with ⟨_, rfl⟩ | ⟨cta, _, hone, hrelease⟩
  · exact ⟨rfl, .inl rfl, .inl rfl⟩
  · obtain ⟨-, hresident, -, hkernel, hstatus⟩ := releaseShaderResource1block_frame hrelease
    have hkernel : s'.kernel = if s.nActiveCta - 1 = 0 then none else s.kernel := hkernel
    rw [hone]
    refine ⟨hstatus, .inr hresident, ?_⟩
    split at hkernel
    · exact .inr hkernel
    · exact .inl hkernel

/-- What the release of a CTA gives back with concurrent kernels. -/
theorem release_concurrent {k : KernelInfo} (hconcurrent : cfg.gpgpuConcurrentKernelSm = true)
    (h : releaseShaderResource1block cfg s slot k = .ok s') :
    s'.occupiedHwtid = (fun t => if (s.occupiedCtaToHwtid slot).getD 0 ≤ t ∧
        t < (s.occupiedCtaToHwtid slot).getD 0 + cfg.paddedCtaSize k then false
      else s.occupiedHwtid t) ∧
    s'.occupiedCtaToHwtid = Function.update s.occupiedCtaToHwtid slot none ∧
    s'.occupiedCtas = s.occupiedCtas - 1 := by
  simp only [releaseShaderResource1block, hconcurrent, ↓reduceIte, bind_eq_ok, pure_eq_ok] at h
  obtain ⟨_, _, _, _, _, _, _, _, _, _, _, _, _, _, rfl⟩ := h
  exact ⟨rfl, rfl, rfl⟩

/-- The CTAs that stay are apart from each other. -/
theorem Spread.exit (h : s.Spread cfg) (hexit : registerCtaThreadExit cfg s slot = .ok s') :
    s'.Spread cfg := by
  rcases exit_cases hexit with ⟨hmore, rfl⟩ | ⟨cta, hcta, _, hrelease⟩
  · refine { h with status := fun i => ?_ }
    change Function.update s.ctaStatus slot (s.ctaStatus slot - 1) i = 0 ↔ s.resident i = none
    by_cases heq : i = slot
    · rw [heq, Function.update_self]
      have hbusy := h.status slot
      constructor
      · intro hzero
        omega
      · intro hnone
        have hzero := hbusy.mpr hnone
        omega
    · rw [Function.update_of_ne heq]
      exact h.status i
  obtain ⟨-, hresident, hactive, hkernel, hstatus⟩ := releaseShaderResource1block_frame hrelease
  have hresident : s'.resident = Function.update s.resident slot none := hresident
  have hkernel : s'.kernel = if s.nActiveCta - 1 = 0 then none else s.kernel := hkernel
  have hstatus : s'.ctaStatus = Function.update s.ctaStatus slot 0 := hstatus
  have htotal := total_retire cfg (h.slot_lt slot cta hcta) hcta hresident fun _ => 1
  -- the CTAs that stay were there before
  have hold : ∀ i cta, s'.resident i = some cta → s.resident i = some cta := by
    intro i cta hi
    rw [hresident] at hi
    by_cases heq : i = slot
    · rw [heq, Function.update_self] at hi
      cases hi
    · rwa [Function.update_of_ne heq] at hi
  constructor
  · intro i
    rw [hstatus, hresident]
    by_cases heq : i = slot
    · rw [heq, Function.update_self, Function.update_self]
      exact ⟨fun _ => rfl, fun _ => rfl⟩
    · rw [Function.update_of_ne heq, Function.update_of_ne heq]
      exact h.status i
  · exact fun i cta hi => h.slot_lt i cta (hold i cta hi)
  · have hcount := h.active
    rw [hactive]
    change s.nActiveCta - 1 = _
    omega
  · intro hsingle i cta' hi
    have hone : 1 ≤ s'.total cfg fun _ => 1 :=
      demand_le_total cfg (h.slot_lt i cta' (hold i cta' hi)) hi fun _ => 1
    have hcount := h.active
    rw [hkernel, if_neg (by omega)]
    exact h.single hsingle i cta' (hold i cta' hi)
  · intro hconcurrent
    rw [hkernel, h.unbound hconcurrent]
    exact ite_self none
  · exact fun i cta hi => h.fits i cta (hold i cta hi)
  · exact fun i cta hi => h.aligned i cta (hold i cta hi)
  · exact fun hsingle i cta hi => h.start hsingle i cta (hold i cta hi)
  · intro hconcurrent
    have hpadded := paddedCtaSize_eq_threads cfg (threads_le_of_launch cfg (h.fits slot cta hcta))
    have hranges : s'.ranges cfg = Function.update (s.ranges cfg) slot none := by
      unfold ranges
      rw [hresident]
      exact Function.comp_update _ _ _ _
    have hstart : (left s slot).occupiedCtaToHwtid slot = some cta.startThread := by
      change s.occupiedCtaToHwtid slot = _
      rw [h.hwtid hconcurrent, hcta]
      rfl
    rw [(release_concurrent hconcurrent hrelease).1, hstart, hpadded, hranges]
    exact (h.packed hconcurrent).remove (congrArg _ hcta)
  · intro hconcurrent i
    rw [(release_concurrent hconcurrent hrelease).2.1, hresident]
    by_cases heq : i = slot
    · rw [heq, Function.update_self, Function.update_self]
      rfl
    · rw [Function.update_of_ne heq, Function.update_of_ne heq]
      exact h.hwtid hconcurrent i
  · intro hconcurrent
    have hcount := h.ctas hconcurrent
    rw [(release_concurrent hconcurrent hrelease).2.2]
    change s.occupiedCtas - 1 = _
    omega
  · exact fun hconcurrent i cta hi => h.charged hconcurrent i cta (hold i cta hi)

/-- The errors that a release may end with where kernels are concurrent. -/
def ReleaseFails (cfg : CoreConfig) (e : Halt) : Prop :=
  cfg.gpgpuConcurrentKernelSm = true ∧ (e = .indexOutOfRange ∨ e = .occupancyUnderflow)

theorem release_meets {k : KernelInfo}
    (hcharged : cfg.gpgpuConcurrentKernelSm = true → Charged cfg k) :
    MeetsUnless (ReleaseFails cfg) (releaseShaderResource1block cfg s slot k) fun _ => True := by
  refine .ite (fun hconcurrent => ?_) fun _ => .pure trivial
  have hindex : ReleaseFails cfg .indexOutOfRange := ⟨hconcurrent, .inl rfl⟩
  have hunder : ReleaseFails cfg .occupancyUnderflow := ⟨hconcurrent, .inr rfl⟩
  refine .check hunder fun _ => .check hindex fun _ => ?_
  refine .bind_ok (hcharged hconcurrent).smemq (.check hunder fun _ => ?_)
  refine .bind_ok (hcharged hconcurrent).rfq (.check hunder fun _ => .check hunder fun _ => ?_)
  exact .pure trivial

/-- A thread of a CTA on a core can exit, unless kernels are concurrent and the release of its CTA
fails. -/
theorem Spread.exit_meets (h : s.Spread cfg) (hcta : s.resident slot = some cta) :
    MeetsUnless (ReleaseFails cfg) (registerCtaThreadExit cfg s slot) fun _ => True := by
  have hpos : 0 < s.ctaStatus slot := Nat.pos_of_ne_zero fun hzero => by
    rw [(h.status slot).mp hzero] at hcta
    cases hcta
  refine .require hpos (.ite (fun _ => .fetch hcta ?_) fun _ => .pure trivial)
  exact release_meets fun hconcurrent => h.charged hconcurrent slot cta hcta

/-- The kernel that a core is bound to may change as far as its CTAs allow. -/
theorem Spread.withKernel (h : s.Spread cfg) {o : Option Kernel}
    (hsingle : cfg.gpgpuConcurrentKernelSm = false →
      ∀ slot cta, s.resident slot = some cta → o = some cta.kernel)
    (hunbound : cfg.gpgpuConcurrentKernelSm = true → o = none) :
    Spread cfg { s with kernel := o } :=
  { h with
    single := hsingle
    unbound := hunbound }

theorem Spread.empty (cfg : CoreConfig) (v : Nat) : (empty v).Spread cfg where
  status _ := ⟨fun _ => rfl, fun _ => rfl⟩
  slot_lt _ _ hcta := by cases hcta
  active := (Finset.sum_eq_zero fun _ _ => rfl).symm
  single _ _ _ hcta := by cases hcta
  unbound _ := rfl
  fits _ _ hcta := by cases hcta
  aligned _ _ hcta := by cases hcta
  start _ _ _ hcta := by cases hcta
  packed _ := (Conserves.empty cfg v).packed
  hwtid _ _ := rfl
  ctas _ := (Finset.sum_eq_zero fun _ _ => rfl).symm
  charged _ _ _ hcta := by cases hcta

end Residency

end WaspSim
