import WaspSim.Collector.Runs

/-!
# Sub-cores

With one collector set, the sub-core model cuts the collector into independent parts. The
instructions of a scheduler meet only its own collector units, its own banks and its own
register of every output.
-/

namespace WaspSim

/-- The instructions of the schedulers keep to their units and to their output registers. -/
structure Rfu.Isolated (c : RfuConfig) (s : Rfu) : Prop where
  units : ∀ (cu : Nat) u inst, s.units[cu]? = some u → u.warp = some inst →
    inst.schedId = c.regId cu
  outputs : ∀ i ∈ c.outputs, ∀ regs, s.pipe[i]? = some regs →
    ∀ (k : Nat) inst, regs[k]? = some (some inst) → inst.schedId = k

namespace RfuConfig

variable {c : RfuConfig} {sizes : List Nat} {s s' : Rfu} {cu : Nat} {u u' : CollectorUnit}

/-- Replacing a unit by one that holds an instruction of its own scheduler, or none. -/
theorem isolated_units (h : s.Isolated c)
    (hu' : ∀ inst, u'.warp = some inst → inst.schedId = c.regId cu) (k : Nat) (v : CollectorUnit)
    (inst : CollectorInst) (hv : (s.units.set cu u')[k]? = some v) (hinst : v.warp = some inst) :
    inst.schedId = c.regId k := by
  rw [List.getElem?_set] at hv
  split at hv
  · next heq =>
    split at hv
    · rw [← Option.some.inj hv] at hinst
      rw [← heq]
      exact hu' inst hinst
    · cases hv
  · exact h.units k v inst hv hinst

/-- Replacing a register, in an output only by the register of its scheduler. -/
theorem isolated_pipe (h : s.Isolated c) {i k : Nat} {regs : PipeRegs}
    {reg : Option CollectorInst} (hi : s.pipe[i]? = some regs)
    (hreg : i ∈ c.outputs → ∀ inst ∈ reg, inst.schedId = k) (j : Nat) (hj : j ∈ c.outputs)
    (regs' : PipeRegs) (hregs' : (s.pipe.set i (regs.set k reg))[j]? = some regs') (k' : Nat)
    (inst : CollectorInst) (hk' : regs'[k']? = some (some inst)) : inst.schedId = k' := by
  rw [List.getElem?_set] at hregs'
  split at hregs'
  · next heq =>
    split at hregs'
    · rw [← Option.some.inj hregs', List.getElem?_set] at hk'
      split at hk'
      · next hkk =>
        split at hk'
        · rw [← hkk]
          exact hreg (heq ▸ hj) inst (Option.some.inj hk')
        · cases hk'
      · exact h.outputs i (heq ▸ hj) regs hi k' inst hk'
    · cases hregs'
  · exact h.outputs j hj regs' hregs' k' inst hk'

/-- A dispatched instruction goes to the register of its unit. -/
theorem dispatch_isolated (hsub : c.subCoreModel = true) (h : s.Isolated c)
    (hu : s.units[cu]? = some u) (hs : c.dispatch s cu u = .ok s') : s'.Isolated c := by
  simp only [dispatch, bind_eq_ok, fetch_eq_ok, require_eq_ok, pure_eq_ok] at hs
  obtain ⟨-, -, inst, hwarp, output, -, regs, hregs, k, hk, rfl⟩ := hs
  simp only [PipeRegs.getFree, if_pos hsub, bind_eq_ok, pure_eq_ok] at hk
  obtain ⟨-, -, -, -, rfl⟩ := hk
  refine ⟨isolated_units h fun inst hinst => ?_, isolated_pipe h hregs fun _ inst' hinst' => ?_⟩
  · cases hinst
  · rw [← Option.mem_some.mp hinst']
    exact h.units cu u inst hu hwarp

/-- The turn of a dispatch unit keeps the sub-cores apart. -/
theorem dispatchOne_isolated (hsub : c.subCoreModel = true) (h : s.Isolated c) {p : Nat}
    (hs : c.dispatchOne s p = .ok s') : s'.Isolated c := by
  simp only [dispatchOne, bind_eq_ok, fetch_eq_ok] at hs
  obtain ⟨units, -, last, -, found, -, hs⟩ := hs
  cases found with
  | none =>
    rw [← pure_eq_ok.mp hs]
    exact h
  | some k =>
    obtain ⟨u, hu, hs⟩ := bind_eq_ok.mp hs
    have h' : Rfu.Isolated c { s with dispatchLast := s.dispatchLast.set p k } :=
      ⟨h.units, h.outputs⟩
    exact dispatch_isolated hsub h' (fetch_eq_ok.mp hu) hs

/-- Reading operands moves no instruction. -/
theorem allocateReads_isolated (h : s.Isolated c) (hs : c.allocateReads s = .ok s') :
    s'.Isolated c := by
  simp only [allocateReads, bind_eq_ok] at hs
  obtain ⟨⟨allocated, queue, lastCu⟩, -, m, hm, hs⟩ := hs
  have hmid : m.Isolated c := by
    refine foldlM_invariant (Rfu.Isolated c) (fun m op m' _ hiso hstep => ?_) hm
      ⟨h.units, h.outputs⟩
    simp only [allocateForRead, bind_eq_ok, pure_eq_ok] at hstep
    obtain ⟨-, -, -, -, -, -, -, -, rfl⟩ := hstep
    exact ⟨hiso.units, hiso.outputs⟩
  refine foldlM_invariant (Rfu.Isolated c) (fun m op m' _ hiso hstep => ?_) hs hmid
  simp only [collect, bind_eq_ok, fetch_eq_ok, pure_eq_ok] at hstep
  obtain ⟨u, hu, inst, -, rfl⟩ := hstep
  exact ⟨isolated_units hiso fun inst hinst => hiso.units op.cu u inst hu hinst, hiso.outputs⟩

/-- With one collector set, a port finds all units of the collector in it. -/
theorem cuSet_single {cuSet : CuSet} (hset : c.cuSets = [cuSet]) {setId : Nat}
    (hid : ∃ s ∈ c.cuSets, s.setId = setId) : c.cuSet setId = ⟨0, c.numCu⟩ := by
  rw [hset] at hid
  obtain ⟨s, hs, rfl⟩ := hid
  obtain rfl := List.mem_singleton.mp hs
  simp [RfuConfig.cuSet, hset, findCuSet, numCu, countUnits]

/-- Filling a unit with an instruction of its scheduler. -/
theorem occupy_isolated (h : s.Isolated c) {input output : Nat} {regs : PipeRegs} {k : Nat}
    {inst : CollectorInst} (hregs : s.pipe[input]? = some regs)
    (hready : regs.getReady = some (k, inst)) (hcu : inst.schedId = c.regId cu)
    {allocated : Bool} (hs : c.occupy s cu input output = .ok (allocated, s')) :
    s'.Isolated c := by
  simp only [occupy, allocate, bind_eq_ok, fetch_eq_ok, require_eq_ok] at hs
  obtain ⟨u, -, ⟨allocated', u', pipe⟩, ⟨-, -, -, -, regs', hregs', hfill⟩, s₁, hs₁, hs⟩ := hs
  obtain rfl : regs = regs' := Option.some.inj (hregs.symm.trans hregs')
  rw [hready] at hfill
  simp only [bind_eq_ok, pure_eq_ok, Prod.mk.injEq] at hfill hs
  obtain ⟨ops, -, -, rfl, rfl⟩ := hfill
  obtain ⟨-, rfl⟩ := hs
  refine foldlM_invariant (Rfu.Isolated c) (fun m op m' _ hiso hstep => ?_) hs₁ ?_
  · simp only [addReadRequest, bind_eq_ok, pure_eq_ok] at hstep
    obtain ⟨-, -, rfl⟩ := hstep
    exact ⟨hiso.units, hiso.outputs⟩
  · refine ⟨isolated_units h fun inst' hinst' => ?_, isolated_pipe h hregs fun _ inst' hinst' => ?_⟩
    · rw [← Option.some.inj hinst']
      exact hcu
    · cases hinst'

/-- A unit found for an instruction belongs to the scheduler that issued it. -/
theorem regId_of_bounds (hsub : c.subCoreModel = true) {schedId : Nat}
    (hmem : cu ∈ List.range' (schedId * (c.numCu / c.numWarpScheds))
      (c.numCu / c.numWarpScheds)) : schedId = c.regId cu := by
  obtain ⟨i, hi, rfl⟩ := List.mem_range'.mp hmem
  rw [regId, if_pos hsub, Nat.one_mul, Nat.mul_comm,
    Nat.mul_add_div (Nat.zero_lt_of_lt hi), Nat.div_eq_of_lt hi, Nat.add_zero]

/-- The search of a port keeps the sub-cores apart. -/
theorem searchSets_isolated (hsub : c.subCoreModel = true) {cuSet : CuSet}
    (hset : c.cuSets = [cuSet]) {input output : Nat} {sets : List Nat}
    (hsets : ∀ setId ∈ sets, ∃ s ∈ c.cuSets, s.setId = setId) (h : s.Isolated c)
    (hs : c.searchSets s input output sets = .ok s') : s'.Isolated c := by
  induction sets generalizing s with
  | nil =>
    rw [← pure_eq_ok.mp hs]
    exact h
  | cons setId sets ih =>
    have hrest : ∀ setId ∈ sets, ∃ s ∈ c.cuSets, s.setId = setId :=
      fun id hid => hsets id (List.mem_cons_of_mem setId hid)
    simp only [searchSets, bind_eq_ok, fetch_eq_ok, cuSet_single hset
      (hsets setId List.mem_cons_self), unitBounds, if_pos hsub, require_eq_ok, pure_eq_ok] at hs
    obtain ⟨regs, hregs, ⟨lower, count⟩, ⟨⟨k, inst⟩, hready, -, -, -, -, hbounds⟩, hs⟩ := hs
    obtain ⟨rfl, rfl⟩ := Prod.mk.inj hbounds
    rw [Nat.zero_add] at hs
    split at hs
    · next cu hfind =>
      have hcu := regId_of_bounds hsub (List.mem_of_find?_eq_some hfind)
      obtain ⟨⟨allocated, m⟩, hm, hs⟩ := bind_eq_ok.mp hs
      have hmid := occupy_isolated h hregs hready hcu hm
      split at hs
      · rw [← pure_eq_ok.mp hs]
        exact hmid
      · exact ih hrest hmid hs
    · exact ih hrest h hs

/-- The step of the collector keeps the sub-cores apart. -/
theorem step_isolated (hsub : c.subCoreModel = true) {cuSet : CuSet}
    (hset : c.cuSets = [cuSet]) (h : s.Isolated c) (hs : c.step s = .ok s') : s'.Isolated c := by
  simp only [step, dispatchReadyCu, bind_eq_ok, pure_eq_ok] at hs
  obtain ⟨s₁, h₁, s₂, h₂, s₃, h₃, rfl⟩ := hs
  have hdispatch : s₁.Isolated c := foldlM_invariant (Rfu.Isolated c)
    (fun _ _ _ _ hiso hstep => dispatchOne_isolated hsub hiso hstep) h₁ h
  have hreads := allocateReads_isolated hdispatch h₂
  have hports : s₃.Isolated c := by
    refine foldlM_invariant (Rfu.Isolated c) (fun m p m' hp hiso hport => ?_) h₃ hreads
    refine foldlM_invariant (Rfu.Isolated c) (fun m port m' _ hiso hserve => ?_) hport hiso
    simp only [serve, bind_eq_ok] at hserve
    obtain ⟨regs, -, hserve⟩ := hserve
    split at hserve
    · exact searchSets_isolated hsub hset (c.known_sets p hp) hiso hserve
    · rw [← pure_eq_ok.mp hserve]
      exact hiso
  exact ⟨hports.units, hports.outputs⟩

variable {r r' : RfuRun}

/-- No action of the core mixes the sub-cores. -/
theorem act_isolated (hw : c.Wired sizes) (hsub : c.subCoreModel = true) {cuSet : CuSet}
    (hset : c.cuSets = [cuSet]) (h : r.rfu.Isolated c) {a : RfuAction} (ha : c.Offers r a)
    (hs : c.act r a = .ok r') : r'.rfu.Isolated c := by
  cases a with
  | step =>
    obtain ⟨s', hstep, hr'⟩ := bind_eq_ok.mp hs
    rw [← pure_eq_ok.mp hr']
    exact step_isolated hsub hset h hstep
  | issue i k inst =>
    obtain ⟨regs, hregs, hr'⟩ := bind_eq_ok.mp hs
    rw [← pure_eq_ok.mp hr']
    exact ⟨h.units, isolated_pipe h (fetch_eq_ok.mp hregs) fun hi => absurd ha.1 (hw.apart i hi)⟩
  | writeback inst =>
    obtain ⟨w, hwrite, hr'⟩ := bind_eq_ok.mp hs
    obtain ⟨v, -, hv⟩ := bind_eq_ok.mp hwrite
    rw [← pure_eq_ok.mp hr', ← pure_eq_ok.mp hv]
    exact ⟨h.units, h.outputs⟩
  | drain i k =>
    obtain ⟨regs, hregs, hr'⟩ := bind_eq_ok.mp hs
    obtain ⟨reg, -, hr'⟩ := bind_eq_ok.mp hr'
    rw [← pure_eq_ok.mp hr']
    refine ⟨h.units, isolated_pipe h (fetch_eq_ok.mp hregs) fun _ inst hinst => ?_⟩
    cases hinst

/-- The bank of a register lies in the part of the scheduler. -/
theorem registerBank_sched (hsub : c.subCoreModel = true) {reg wid schedId b : Nat}
    (hb : c.registerBank reg wid schedId = .ok b) : b / c.banksPerSched = schedId := by
  have hdvd : c.numWarpScheds * c.banksPerSched = c.numBanks :=
    Nat.mul_div_cancel' (Nat.dvd_of_mod_eq_zero (c.numBanks_mod hsub))
  have hpos : 0 < c.banksPerSched := Nat.pos_of_mul_pos_left (hdvd.symm ▸ c.numBanks_pos)
  simp only [registerBank, if_pos hsub, bind_eq_ok, pure_eq_ok] at hb
  obtain ⟨-, -, rfl⟩ := hb
  rw [Nat.add_mul_div_right _ _ hpos, Nat.div_eq_of_lt (Nat.mod_lt _ hpos), Nat.zero_add]

/-- With one collector set, in every run of the sub-core model the instructions of a
scheduler are only in its own collector units, ask only its own banks and reach only its own
register of an output. -/
theorem sub_cores_apart (hw : c.Wired sizes) (hsub : c.subCoreModel = true) {cuSet : CuSet}
    (hset : c.cuSets = [cuSet]) (hr : Reaches c.act c.Offers (c.startRun sizes) r) :
    (∀ (cu : Nat) u inst, r.rfu.units[cu]? = some u → u.warp = some inst →
      c.regId cu = inst.schedId) ∧
    (∀ (b : Nat) q, r.rfu.queue[b]? = some q → ∀ op ∈ q,
      op.schedId = b / c.banksPerSched ∧ c.regId op.cu = b / c.banksPerSched) ∧
    ∀ i ∈ c.outputs, ∀ regs, r.rfu.pipe[i]? = some regs → ∀ (k : Nat) inst,
      regs[k]? = some (some inst) → inst.schedId = k := by
  have hiso : r.rfu.Isolated c := by
    refine hr.invariant (fun r => r.rfu.Isolated c) ⟨fun cu u inst hu hinst => ?_,
      fun i _ regs hregs k inst hk => ?_⟩ fun _ _ _ h ha hs => act_isolated hw hsub hset h ha hs
    · rw [start_unit hu] at hinst
      cases hinst
    · obtain ⟨n, -, rfl⟩ := List.mem_map.mp (List.mem_of_getElem? hregs)
      cases List.eq_of_mem_replicate (List.mem_of_getElem? hk)
  refine ⟨fun cu u inst hu hinst => (hiso.units cu u inst hu hinst).symm, ?_, hiso.outputs⟩
  intro b q hq op hop
  have hco := (reaches_sound hw hr).coherent
  obtain ⟨u, inst, hu, hwarp, -, -, -, hone⟩ := exists_unit hco (pending_of_queued hco hq hop)
  have hbank := registerBank_sched hsub hone.bank
  rw [hco.bank b q hq op hop] at hbank
  rw [hbank]
  exact ⟨hone.sched, (hiso.units op.cu u inst hu hwarp).symm⟩

theorem sub_cores_apart_twoCores :
    twoCoresRun.rfu.queue[1]? = some [⟨0, 0, 3, 1, 0⟩, ⟨0, 3, 5, 1, 0⟩] ∧
      0 = 1 / twoCores.banksPerSched ∧ twoCores.regId 0 = 1 / twoCores.banksPerSched :=
  ⟨rfl, (sub_cores_apart twoCores_wired rfl rfl twoCores_reaches).2.1 1 _ rfl ⟨0, 3, 5, 1, 0⟩
    (by decide)⟩

end RfuConfig

end WaspSim
