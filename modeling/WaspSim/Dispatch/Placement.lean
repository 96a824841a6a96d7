import WaspSim.Dispatch.Runs

/-!
# Which threads run where

The hardware threads of a CTA on a core run the threads of its block, in order. Different CTAs on
the cores are different CTAs of the grids, and have different shared memories.
-/

namespace WaspSim

namespace GpgpuSim

variable {cfg : GpuConfig} {s : GpgpuSim} {log : List DispatchEvent}
  {r : GpgpuSim × List DispatchEvent} {c i c' i' slot slot' : Nat} {core core' : SimtCore}
  {cta cta' : Cta}

theorem Sound.residentCtas_nodup (h : s.Sound cfg log) : s.residentCtas.Nodup := by
  refine Multiset.nodup_of_le ?_ (Multiset.coe_nodup.mpr h.issued_nodup)
  rw [h.ledger]
  exact Multiset.le_add_left _ _

/-- A CTA is in one hardware slot of one core. -/
theorem Sound.place_unique (h : s.Sound cfg log) (hcore : s.core? c i = some core)
    (hcore' : s.core? c' i' = some core') (hcta : core.residency.resident slot = some cta)
    (hcta' : core'.residency.resident slot' = some cta')
    (huid : cta.kernel.uid = cta'.kernel.uid)
    (hctaid : core.ctaidAt cta.startThread = core'.ctaidAt cta'.startThread) :
    c = c' ∧ i = i' ∧ slot = slot' := by
  have hmem := (h.cores c i core hcore).mem_residentCtas hcta
  have hmem' := (h.cores c' i' core' hcore').mem_residentCtas hcta'
  rw [← huid, ← hctaid] at hmem'
  obtain ⟨row, hrow, hi⟩ := core?_eq_some.mp hcore
  obtain ⟨row', hrow', hi'⟩ := core?_eq_some.mp hcore'
  obtain ⟨rfl, hnodup⟩ := unique_of_nodup_holding h.residentCtas_nodup hrow hrow'
    (mem_holding.mpr ⟨i, core, hi, hmem⟩) (mem_holding.mpr ⟨i', core', hi', hmem'⟩)
  obtain rfl : row = row' := Option.some.inj (hrow.symm.trans hrow')
  obtain ⟨rfl, hcoreNodup⟩ := unique_of_nodup_holding hnodup hi hi' hmem hmem'
  obtain rfl : core = core' := Option.some.inj (hi.symm.trans hi')
  refine ⟨rfl, rfl, unique_of_nodup_sum hcoreNodup ?_ ?_
    (b := (cta.kernel.uid, core.ctaidAt cta.startThread)) ?_ ?_⟩
  · exact Finset.mem_range.mpr ((h.cores c i core hcore).spread.slot_lt slot cta hcta)
  · exact Finset.mem_range.mpr ((h.cores c i core hcore).spread.slot_lt slot' cta' hcta')
  · rw [SimtCore.ctaOf_some hcta]
    exact Multiset.mem_singleton_self _
  · rw [SimtCore.ctaOf_some hcta', huid, hctaid]
    exact Multiset.mem_singleton_self _

/-- What a functional thread of a CTA in a hardware slot is set up with. -/
structure Bound (cfg : GpuConfig) (l : KernelLaunch) (n sid slot start t : Nat)
    (thd : PtxThreadInfo) : Prop where
  ctaid : thd.ctaid = l.gridDim.nth n
  tid : thd.tid = l.blockDim.nth t
  hw : thd.hw = some ⟨sid, slot, (start + t) / cfg.core.warpSize, start + t⟩
  localMem : thd.localMem = (sid, start + t)
  smIdx : thd.smIdx = slot * cfg.core.numShader + sid

/-- In every run the hardware threads of a CTA on a core, which has them all, have the threads of
one issued CTA of a launched kernel, one after another, each with the local memory of its hardware
thread and the shared memory of its hardware slot. -/
theorem threads_bound {v : Nat} (h : Runs cfg v r) (hcore : r.1.core? c i = some core)
    (hcta : core.residency.resident slot = some cta) :
    ∃ l ∈ launches r.2, ∃ n < (issuedOf l.kernel.uid r.2).length, l.kernel = cta.kernel ∧
      cta.startThread + l.blockDim.volume ≤ cfg.core.nThreadPerShader ∧
      ∀ t < l.blockDim.volume, ∃ thd, core.thread (cta.startThread + t) = some thd ∧
        (core.threadState (cta.startThread + t)).ctaId = some slot ∧
        Bound cfg l n (cfg.cidToSid i c) slot cta.startThread t thd := by
  have hs := sound_of_runs h
  have hold := hs.cores c i core hcore
  have hrunning := hold.running slot cta hcta
  obtain ⟨l, hl, n, hn, hk, hthreads⟩ := hrunning.threads
  have hprogress := hs.progress l hl
  have hctaid : core.ctaidAt cta.startThread = l.gridDim.nth n := by
    obtain ⟨d, hd⟩ := hthreads 0 cta.kernel.threadsPerCta_pos
    rw [SimtCore.ctaidAt, ← Nat.add_zero cta.startThread, hd]
    rfl
  -- the CTA is one of those issued
  have hissued : (l.kernel.uid, l.gridDim.nth n) ∈ issuedCtas r.2 := by
    have hmem := mem_residentCtas.mpr ⟨c, i, core, hcore, hold.mem_residentCtas hcta⟩
    rw [hctaid, ← hk] at hmem
    rw [← Multiset.mem_coe, hs.ledger]
    exact Multiset.mem_add.mpr (.inr hmem)
  have hlt : n < (issuedOf l.kernel.uid r.2).length := by
    have hof : l.gridDim.nth n ∈ issuedOf l.kernel.uid r.2 :=
      List.mem_map.mpr ⟨_, List.mem_filter.mpr ⟨hissued, beq_self_eq_true _⟩, rfl⟩
    rw [hprogress.issued] at hof
    obtain ⟨m, hm, heq⟩ := List.mem_map.mp hof
    obtain rfl : m = n := Dim3.nth_injective heq
    exact List.mem_range.mp hm
  refine ⟨l, hl, n, hlt, hk, ?_, fun t ht => ?_⟩
  · rw [← l.threads_eq, hk]
    exact hrunning.contained
  · rw [← l.threads_eq, hk] at ht
    obtain ⟨d, hd⟩ := hthreads t ht
    exact ⟨_, hd, hrunning.ctaId t ht, rfl, rfl, rfl, rfl, rfl⟩

/-- Both cores have a CTA after the first cycle. -/
theorem exists_busy : ∃ r core core' cta cta', Runs twoCores 0 r ∧
    (launches r.2).map (fun l => l.blockDim.volume) = [2] ∧ r.1.core? 0 0 = some core ∧
    r.1.core? 1 0 = some core' ∧ core.residency.resident 0 = some cta ∧
    core'.residency.resident 0 = some cta' := by
  obtain ⟨r, hr, hvolume, hfirst, hsecond⟩ := exists_run twoCores
    [.launch threeCtas, .issueBlocks]
    (P := fun r => (launches r.2).map (fun l => l.blockDim.volume) = [2] ∧
      ((r.1.core? 0 0).bind fun core => core.residency.resident 0).isSome = true ∧
      ((r.1.core? 1 0).bind fun core => core.residency.resident 0).isSome = true)
    (by decide +kernel)
  obtain ⟨cta, hcta⟩ := Option.isSome_iff_exists.mp hfirst
  obtain ⟨cta', hcta'⟩ := Option.isSome_iff_exists.mp hsecond
  obtain ⟨core, hcore, hres⟩ := Option.bind_eq_some_iff.mp hcta
  obtain ⟨core', hcore', hres'⟩ := Option.bind_eq_some_iff.mp hcta'
  exact ⟨r, core, core', cta, cta', hr, hvolume, hcore, hcore', hres, hres'⟩

theorem threads_bound_twoCores : ∃ r core cta l n thd, Runs twoCores 0 r ∧
    r.1.core? 1 0 = some core ∧ core.residency.resident 0 = some cta ∧ l ∈ launches r.2 ∧
    core.thread (cta.startThread + 1) = some thd ∧
    Bound twoCores l n 1 0 cta.startThread 1 thd := by
  obtain ⟨r, _, core, _, cta, hr, hvolume, _, hcore, _, hcta⟩ := exists_busy
  obtain ⟨l, hl, n, _, _, _, hthreads⟩ := threads_bound hr hcore hcta
  have htwo : l.blockDim.volume = 2 := by
    have hmem := List.mem_map_of_mem (f := fun l : KernelLaunch => l.blockDim.volume) hl
    rw [hvolume] at hmem
    exact List.mem_singleton.mp hmem
  obtain ⟨thd, hget, _, hbound⟩ := hthreads 1 (by omega)
  exact ⟨r, core, cta, l, n, thd, hr, hcore, hcta, hl, hget, hbound⟩

/-- In every run two CTAs in different slots or on different cores are different CTAs of the
grids, and their threads have different shared memories. -/
theorem ctas_apart {v : Nat} (h : Runs cfg v r) (hcore : r.1.core? c i = some core)
    (hcore' : r.1.core? c' i' = some core') (hcta : core.residency.resident slot = some cta)
    (hcta' : core'.residency.resident slot' = some cta')
    (hne : (c, i, slot) ≠ (c', i', slot')) :
    (cta.kernel.uid, core.ctaidAt cta.startThread) ≠
        (cta'.kernel.uid, core'.ctaidAt cta'.startThread) ∧
      ∀ tid tid' thd thd', cta.Has tid → core.thread tid = some thd →
        cta'.Has tid' → core'.thread tid' = some thd' → thd.smIdx ≠ thd'.smIdx := by
  have hs := sound_of_runs h
  obtain ⟨hc, hi⟩ := hs.shape.core_lt hcore
  obtain ⟨hc', hi'⟩ := hs.shape.core_lt hcore'
  constructor
  · intro heq
    obtain ⟨huid, hctaid⟩ := Prod.mk.inj heq
    obtain ⟨rfl, rfl, rfl⟩ := hs.place_unique hcore hcore' hcta hcta' huid hctaid
    exact hne rfl
  · intro tid tid' thd thd' htid hthd htid' hthd' heq
    have hrunning := (hs.cores c i core hcore).running slot cta hcta
    have hrunning' := (hs.cores c' i' core' hcore').running slot' cta' hcta'
    rw [hrunning.smIdx_eq htid hthd, hrunning'.smIdx_eq htid' hthd'] at heq
    obtain ⟨rfl, rfl, rfl⟩ := cfg.smIdx_inj hc hi hc' hi' heq
    exact hne rfl

theorem ctas_apart_twoCores : ∃ r core core' cta cta' thd thd', Runs twoCores 0 r ∧
    r.1.core? 0 0 = some core ∧ r.1.core? 1 0 = some core' ∧
    core.residency.resident 0 = some cta ∧ core'.residency.resident 0 = some cta' ∧
    (cta.kernel.uid, core.ctaidAt cta.startThread) ≠
      (cta'.kernel.uid, core'.ctaidAt cta'.startThread) ∧
    core.thread cta.startThread = some thd ∧ core'.thread cta'.startThread = some thd' ∧
    thd.smIdx ≠ thd'.smIdx := by
  obtain ⟨r, core, core', cta, cta', hr, _, hcore, hcore', hcta, hcta'⟩ := exists_busy
  have hrunning := ((sound_of_runs hr).cores 0 0 core hcore).running 0 cta hcta
  have hrunning' := ((sound_of_runs hr).cores 1 0 core' hcore').running 0 cta' hcta'
  obtain ⟨_, _, _, _, _, hthreads⟩ := hrunning.threads
  obtain ⟨_, _, _, _, _, hthreads'⟩ := hrunning'.threads
  obtain ⟨_, hthd⟩ := hthreads 0 cta.kernel.threadsPerCta_pos
  obtain ⟨_, hthd'⟩ := hthreads' 0 cta'.kernel.threadsPerCta_pos
  obtain ⟨hctas, hshared⟩ := ctas_apart hr hcore hcore' hcta hcta' (by decide)
  exact ⟨r, core, core', cta, cta', _, _, hr, hcore, hcore', hcta, hcta', hctas, hthd, hthd',
    hshared _ _ _ _ (SimtCore.has_startThread cta) hthd (SimtCore.has_startThread cta') hthd'⟩

end GpgpuSim

end WaspSim
