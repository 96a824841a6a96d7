import WaspSim.Collector.Invariant

/-!
# Dispatch

A unit whose operands have all arrived sends its instruction to a free register of its
output. The round-robin search looks at units of its own set only, and what it finds is
ready.
-/

namespace WaspSim

namespace RfuConfig

variable {c : RfuConfig} {sizes : List Nat} {s : Rfu} {cu : Nat} {u : CollectorUnit}

/-- A dispatch step keeps the invariant, the ledgers and the banks. -/
structure Dispatches (c : RfuConfig) (sizes : List Nat) (s s' : Rfu) : Prop where
  coherent : s'.Coherent c sizes 0
  keeps : s.Keeps c s'
  banks : s'.allocatedBank = s.allocatedBank
  queue : s'.queue = s.queue

/-- The schedulers divide the units evenly. -/
theorem numWarpScheds_dvd (hsub : c.subCoreModel = true) : c.numWarpScheds ∣ c.numCu := by
  have hall : ∀ sets : List CuSet, (∀ s ∈ sets, s.numCu % c.numWarpScheds = 0) →
      c.numWarpScheds ∣ countUnits sets := by
    intro sets hsets
    induction sets with
    | nil => exact Nat.dvd_zero _
    | cons s sets ih =>
      refine Nat.dvd_add (Nat.dvd_of_mod_eq_zero (hsets s List.mem_cons_self)) (ih fun s' hs' => ?_)
      exact hsets s' (List.mem_cons_of_mem _ hs')
  exact hall c.cuSets fun s hs => (c.even_sets hsub s hs).1

/-- The register of a unit is that of one of the schedulers. -/
theorem regId_lt (hsub : c.subCoreModel = true) (hcu : cu < c.numCu) :
    c.regId cu < c.numWarpScheds := by
  rw [regId, if_pos hsub]
  obtain ⟨k, hk⟩ := numWarpScheds_dvd hsub
  have hkpos : 0 < k := by
    rcases Nat.eq_zero_or_pos k with rfl | hpos
    · omega
    · exact hpos
  rw [hk, Nat.mul_div_cancel_left k c.numWarpScheds_pos]
  rw [hk] at hcu
  exact Nat.div_lt_of_lt_mul (by rwa [Nat.mul_comm] at hcu)

/-- An output of a port has a register for the unit. -/
theorem output_meets (hw : c.Wired sizes) (hs : s.pipe.map List.length = sizes) {output : Nat}
    (ho : output ∈ c.outputs) (hcu : cu < c.numCu) :
    ∃ regs, s.pipe[output]? = some regs ∧
      Meets (regs.hasFree c.subCoreModel (c.regId cu)) fun _ => True := by
  obtain ⟨n, hn, hsub⟩ := hw.outputs output ho
  rw [← hs, List.getElem?_map, Option.map_eq_some_iff] at hn
  obtain ⟨regs, hregs, rfl⟩ := hn
  exact ⟨regs, hregs, PipeRegs.hasFree_meets fun h => (regId_lt h hcu).trans_le (hsub h)⟩

/-- A unit that can send its instruction on. -/
def CanDispatch (c : RfuConfig) (s : Rfu) (cu : Nat) (u : CollectorUnit) : Prop :=
  u.free = false ∧ u.notReady = ∅ ∧ ∀ output, u.output = some output →
    ∀ regs, s.pipe[output]? = some regs → regs.hasFree c.subCoreModel (c.regId cu) = .ok true

/-- `ready` answers, and says yes only of a unit that can be dispatched. -/
theorem ready_meets (hw : c.Wired sizes) (h : s.Coherent c sizes 0) (hu : s.units[cu]? = some u) :
    Meets (c.ready s cu u) fun r => r = true → c.CanDispatch s cu u := by
  unfold ready
  refine .ite (fun hready => ?_) fun _ => .pure (fun hr => by cases hr)
  obtain ⟨inst, output, -, -, houtput, hmem, -⟩ := (h.unit cu u hu).busy hready.1
  have hcu : cu < c.numCu := h.units_length ▸ (List.getElem?_eq_some_iff.mp hu).1
  obtain ⟨regs, hregs, hfree⟩ := output_meets hw h.sizes hmem hcu
  refine .fetch houtput (.fetch hregs (hfree.self.mono fun r hr htrue => ?_))
  refine ⟨hready.1, hready.2, fun output' ho' regs' hr' => ?_⟩
  obtain rfl : output = output' := Option.some.inj (houtput.symm.trans ho')
  obtain rfl : regs = regs' := Option.some.inj (hregs.symm.trans hr')
  rw [hr.1, htrue]

/-- The search of a dispatch unit finds a unit that can be dispatched, if any. -/
theorem findReady_meets (hw : c.Wired sizes) (h : s.Coherent c sizes 0) {units : UnitRange}
    (hunits : units.base + units.size ≤ c.numCu) (hpos : 0 < units.size) (start : Nat)
    (ns : List Nat) :
    Meets (c.findReady s units start ns) fun r => ∀ k, r = some k →
      ∃ u, s.units[units.base + k]? = some u ∧ c.CanDispatch s (units.base + k) u := by
  induction ns with
  | nil => exact .pure (fun k hk => by cases hk)
  | cons n ns ih =>
    rw [findReady]
    have hk : (start + n) % units.size < units.size := Nat.mod_lt _ hpos
    have hlt : units.base + (start + n) % units.size < s.units.length := by
      rw [h.units_length]
      omega
    obtain ⟨u, hu⟩ : ∃ u, s.units[units.base + (start + n) % units.size]? = some u :=
      ⟨_, List.getElem?_eq_getElem hlt⟩
    refine .fetch hu (.bind (ready_meets hw h hu) fun r hr => ?_)
    refine .ite (fun htrue => .pure fun k hk => ?_) fun _ => ih
    obtain rfl := Option.some.inj hk
    exact ⟨u, hu, hr htrue⟩

/-- An outstanding operand is one of the operands. -/
theorem outstanding_eq_zero (h : u.notReady = ∅) : u.outstanding = 0 := by
  simp [CollectorUnit.outstanding, h]

theorem operands_freed : u.freed.operands = [] := by
  simp [CollectorUnit.operands, CollectorUnit.freed, List.reduceOption]

theorem outstanding_freed : u.freed.outstanding = 0 := by
  simp [CollectorUnit.outstanding, operands_freed]

theorem warp_freed : u.freed.warp = none := rfl

/-- Dispatching a unit that is ready moves its instruction to the output. -/
theorem dispatch_meets (hw : c.Wired sizes) (h : s.Coherent c sizes 0)
    (hu : s.units[cu]? = some u) (hready : c.CanDispatch s cu u) :
    Meets (c.dispatch s cu u) (c.Dispatches sizes s) := by
  obtain ⟨hbusy, hnone, hfree⟩ := hready
  obtain ⟨inst, output, hwarp, -, houtput, hmem, -⟩ := (h.unit cu u hu).busy hbusy
  have hcu : cu < c.numCu := h.units_length ▸ (List.getElem?_eq_some_iff.mp hu).1
  obtain ⟨regs, hregs, -⟩ := output_meets hw h.sizes hmem hcu
  refine .require hnone (.fetch hwarp (.fetch houtput (.fetch hregs ?_)))
  refine .bind (PipeRegs.getFree_meets (hfree output houtput regs hregs)) fun k hk => .pure ?_
  have hzero := outstanding_eq_zero hnone
  have hpending : holding (fun _ u => u.outstanding) (s.units.set cu u.freed) = s.pending := by
    simpa [hzero, outstanding_freed] using Rfu.pending_set u.freed hu
  have hcollecting : holding (fun _ u => u.held) (s.units.set cu u.freed) + {inst} =
      s.collecting := by
    simpa [CollectorUnit.held, hwarp, warp_freed] using Rfu.collecting_set u.freed hu
  have hpiped : holding (fun _ => holding fun _ reg => (reg.toList : Multiset CollectorInst))
      (s.pipe.set output (regs.set k (some inst))) = s.piped + {inst} := by
    simpa using Rfu.piped_set (some inst) hregs hk
  have hdue : holding (fun i => holding fun _ reg => c.due i reg)
      (s.pipe.set output (regs.set k (some inst))) =
      holding (fun i => holding fun _ reg => c.due i reg) s.pipe := by
    simpa [due, hw.apart output hmem] using Rfu.due_set (c := c) (some inst) hregs hk
  have hunits : holding (fun _ u => c.unitDue u) (s.units.set cu u.freed) =
      holding (fun _ u => c.unitDue u) s.units := by
    simpa [unitDue, hzero, warp_freed] using Rfu.unitDue_set (c := c) u.freed hu
  have hkeeps : s.Keeps c { s with
      units := s.units.set cu u.freed
      pipe := s.pipe.set output (regs.set k (some inst))
      nonRfOperands := u32 (s.nonRfOperands + inst.nonRegs * c.countedLanes inst.activeMask) } := by
    refine ⟨?_, ?_, .refl _⟩
    · simp only [Rfu.resident, Rfu.collecting, Rfu.piped] at hcollecting hpiped ⊢
      rw [hpiped, ← hcollecting, add_right_comm, add_assoc]
    · simp only [Rfu.owed]
      rw [hdue, hunits]
  refine ⟨⟨by simpa using h.units_length, h.queue_length, h.banks_length, h.dispatch_length,
    (Rfu.sizes_set hregs).trans h.sizes, ?_, h.bank, ?_, ?_⟩, hkeeps, rfl, rfl⟩
  · exact Rfu.coherent_set h.unit ⟨fun _ => ⟨rfl, operands_freed, hnone⟩, fun hf => by cases hf⟩
  · exact h.balance.trans hpending.symm
  · rw [hkeeps.resident]
    exact h.accepts

/-- The turn of a dispatch unit. -/
theorem dispatchOne_meets (hw : c.Wired sizes) (h : s.Coherent c sizes 0) {p : Nat}
    (hp : p < c.dispatchUnits.length) : Meets (c.dispatchOne s p) (c.Dispatches sizes s) := by
  have hunits : c.dispatchUnits[p]? = some c.dispatchUnits[p] := List.getElem?_eq_getElem hp
  have hlast : p < s.dispatchLast.length := h.dispatch_length ▸ hp
  refine .fetch hunits (.fetch (List.getElem?_eq_getElem hlast) ?_)
  obtain ⟨hle, -⟩ := mem_dispatchRanges (List.getElem_mem hp)
  rw [Nat.zero_add] at hle
  rcases Nat.eq_zero_or_pos c.dispatchUnits[p].size with hzero | hpos
  · rw [hzero]
    exact .pure ⟨h, .refl s, rfl, rfl⟩
  · refine .bind (findReady_meets hw h hle hpos _ _) fun found hfound => ?_
    cases found with
    | none => exact .pure ⟨h, .refl s, rfl, rfl⟩
    | some k =>
      obtain ⟨u, hu, hready⟩ := hfound k rfl
      refine .fetch hu ?_
      have h' : Rfu.Coherent c sizes { s with dispatchLast := s.dispatchLast.set p k } 0 :=
        ⟨h.units_length, h.queue_length, h.banks_length, by simpa using h.dispatch_length,
          h.sizes, h.unit, h.bank, h.balance, h.accepts⟩
      exact (dispatch_meets hw h' hu hready).mono fun s' hs' =>
        ⟨hs'.coherent, ⟨hs'.keeps.resident, hs'.keeps.reads, hs'.keeps.queue⟩, hs'.banks, hs'.queue⟩

/-- All dispatch units take their turns. -/
theorem dispatchReadyCu_meets (hw : c.Wired sizes) (h : s.Coherent c sizes 0) :
    Meets (c.dispatchReadyCu s) (c.Dispatches sizes s) := by
  refine .foldlM (c.Dispatches sizes s) (fun m p hp hm => ?_) ⟨h, .refl s, rfl, rfl⟩
  refine (dispatchOne_meets hw hm.coherent (List.mem_range.mp hp)).mono fun m' hm' => ?_
  exact ⟨hm'.coherent, hm.keeps.trans hm'.keeps, hm'.banks.trans hm.banks,
    hm'.queue.trans hm.queue⟩

end RfuConfig

end WaspSim
