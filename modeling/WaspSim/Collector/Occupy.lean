import WaspSim.Collector.Reads

/-!
# Filling the collector units

A port moves the oldest instruction of an input into a free unit, which requests each of
its source registers once. In the sub-core model the unit is one of the scheduler that
issued the instruction.
-/

namespace WaspSim

namespace RfuConfig

variable {c : RfuConfig} {sizes : List Nat} {s : Rfu} {cu input output k : Nat}
  {u : CollectorUnit} {inst : CollectorInst} {regs : PipeRegs} {rest : Multiset ReadOp}

/-- A request enters the queue of its bank. -/
theorem addReadRequest_meets {op : ReadOp} (h : s.Coherent c sizes (op ::ₘ rest)) :
    Meets (addReadRequest s op) fun s' => s'.Coherent c sizes rest ∧ s.Keeps c s' := by
  have hpending : op ∈ s.pending := by
    rw [← h.balance]
    exact Multiset.mem_add.mpr (.inr (Multiset.mem_cons_self op rest))
  obtain ⟨-, -, -, hlt⟩ := registerBank_of_pending h hpending
  have hbank : op.bank < s.queue.length := by rwa [h.queue_length]
  obtain ⟨q, hq⟩ : ∃ q, s.queue[op.bank]? = some q := ⟨_, List.getElem?_eq_getElem hbank⟩
  refine .fetch hq (.pure ⟨⟨h.units_length, by simpa using h.queue_length, h.banks_length,
    h.dispatch_length, h.sizes, h.unit, ?_, ?_, h.accepts⟩, rfl, rfl, ?_⟩)
  · intro b q' hq' op' hop'
    rw [List.getElem?_set] at hq'
    split at hq'
    · next heq =>
      rw [← Option.some.inj hq'] at hop'
      rcases List.mem_append.mp hop' with hop' | hop'
      · exact h.bank b q (heq ▸ hq) op' hop'
      · rw [List.mem_singleton.mp hop', heq]
    · exact h.bank b q' hq' op' hop'
  · have hset : Arbiter.requests (s.queue.set op.bank (q ++ [op])) = s.queued + {op} := by
      have hcell := holding_set (f := fun _ (q : List ReadOp) => (q : Multiset ReadOp))
        (b := q ++ [op]) hq
      refine add_right_cancel (b := (q : Multiset ReadOp)) (hcell.trans ?_)
      rw [← Multiset.coe_add, Multiset.coe_singleton, add_comm (q : Multiset ReadOp),
        ← add_assoc]
      rfl
    have hbalance := h.balance
    rw [← Multiset.singleton_add, ← add_assoc, ← hset] at hbalance
    exact hbalance
  · intro b q' hq'
    by_cases heq : op.bank = b
    · subst heq
      obtain rfl : q = q' := Option.some.inj (hq.symm.trans hq')
      exact ⟨[op], List.getElem?_set_self hbank⟩
    · exact ⟨[], by rw [List.getElem?_set_ne heq, List.append_nil, hq']⟩

/-- The requests of a unit enter their queues. -/
theorem addReadRequests_meets {ops : List ReadOp} (h : s.Coherent c sizes ops) :
    Meets (ops.foldlM addReadRequest s) fun s' => s'.Coherent c sizes 0 ∧ s.Keeps c s' := by
  refine Meets.foldlM_rest (fun s' (ops : List ReadOp) => s'.Coherent c sizes ops ∧
    s.Keeps c s') (fun m op ops hm => ?_) ⟨h, .refl s⟩
  have hco : m.Coherent c sizes (op ::ₘ (ops : Multiset ReadOp)) := hm.1
  exact (addReadRequest_meets hco).mono fun m' hm' => ⟨hm'.1, hm.2.trans hm'.2⟩

/-- A unit filled with an instruction waits for all its operands. -/
structure Filled (c : RfuConfig) (cu output : Nat) (inst : CollectorInst) (u : CollectorUnit) :
    Prop where
  busy : u.free = false
  warp : u.warp = some inst
  warpId : u.warpId = inst.warpId
  output : u.output = some output
  requests : c.Requests cu inst u.operands
  outstanding : u.outstanding = u.operands

/-- `collector_unit_t::allocate` on a free unit takes the instruction of the input. -/
theorem allocate_meets (hu : u.Coherent c cu) (hfree : u.free = true)
    (hregs : s.pipe[input]? = some regs) (hready : regs.getReady = some (k, inst))
    (ha : c.Accepts inst) :
    Meets (c.allocate s.pipe cu u input output) fun r =>
      r.1 = true ∧ c.Filled cu output inst r.2.1 ∧ r.2.2 = s.pipe.set input (regs.set k none) := by
  obtain ⟨-, hops, hnone⟩ := hu.idle hfree
  refine .require hfree (.require hnone (.fetch hregs ?_))
  rw [hready]
  refine .bind (sourceOps_requests ha) fun ops hreq => .pure ⟨rfl, ?_, rfl⟩
  have hdrop : (u.srcOp.drop ops.length).reduceOption = [] := by
    have hsub := (List.drop_sublist ops.length u.srcOp).filterMap id
    exact List.sublist_nil.mp (hops ▸ hsub)
  have hoperands : (ops ++ u.srcOp.drop ops.length).reduceOption = ops.reduceOption := by
    rw [List.reduceOption_append, hdrop, List.append_nil]
  refine ⟨rfl, rfl, rfl, rfl, ?_, ?_⟩
  · simpa only [CollectorUnit.operands, hoperands] using hreq
  · simp only [CollectorUnit.outstanding, CollectorUnit.operands, hoperands, hnone]
    refine congrArg _ (List.filter_eq_self.mpr fun op hop => ?_)
    simpa using ⟨op, hop, rfl⟩

/-- An instruction makes one request for each of its source registers. -/
theorem Requests.length {ops : List ReadOp} (h : c.Requests cu inst ops) :
    ops.length = inst.sources.card := by
  have hset : (ops.map ReadOp.reg).toFinset = inst.sources := by
    ext reg
    rw [List.mem_toFinset, h.mem_regs, CollectorInst.mem_sources]
  rw [← hset, List.toFinset_card_of_nodup h.regs, List.length_map]

/-- Filling a unit moves the instruction out of its input and requests its operands. -/
theorem occupy_meets (h : s.Coherent c sizes 0)
    (hin : input ∈ c.inputs) (hout : output ∈ c.outputs) (hu : s.units[cu]? = some u)
    (hfree : u.free = true) (hregs : s.pipe[input]? = some regs)
    (hready : regs.getReady = some (k, inst)) :
    Meets (c.occupy s cu input output) fun r =>
      r.1 = true ∧ r.2.Coherent c sizes 0 ∧ s.Keeps c r.2 := by
  have hk := PipeRegs.getReady_mem hready
  have hmem : inst ∈ s.resident := by
    refine Multiset.mem_add.mpr (.inr (mem_holding.mpr ⟨input, regs, hregs, ?_⟩))
    exact mem_holding.mpr ⟨k, some inst, hk, by simp⟩
  have ha := h.accepts inst hmem
  have hco := h.unit cu u hu
  obtain ⟨hwarp, hops, -⟩ := hco.idle hfree
  refine .fetch hu (.bind (allocate_meets hco hfree hregs hready ha) fun r hr => ?_)
  obtain ⟨allocated, u', pipe⟩ := r
  obtain ⟨rfl, hfilled, rfl⟩ := hr
  have hwarp' : u'.warp = some inst := hfilled.warp
  have hempty : u.outstanding = 0 := by simp [CollectorUnit.outstanding, hops]
  have hpending : holding (fun _ u => u.outstanding) (s.units.set cu u') =
      s.pending + u'.operands := by
    simpa [hempty, hfilled.outstanding] using Rfu.pending_set u' hu
  have hcollecting : holding (fun _ u => u.held) (s.units.set cu u') = s.collecting + {inst} := by
    simpa [CollectorUnit.held, hwarp, hwarp'] using Rfu.collecting_set u' hu
  have hpiped : holding (fun _ => holding fun _ reg => (reg.toList : Multiset CollectorInst))
      (s.pipe.set input (regs.set k none)) + {inst} = s.piped := by
    simpa using Rfu.piped_set none hregs hk
  have hdue : holding (fun i => holding fun _ reg => c.due i reg)
      (s.pipe.set input (regs.set k none)) + c.readCost inst =
      holding (fun i => holding fun _ reg => c.due i reg) s.pipe := by
    simpa [due, hin] using Rfu.due_set (c := c) none hregs hk
  have hunits : holding (fun _ u => c.unitDue u) (s.units.set cu u') =
      holding (fun _ u => c.unitDue u) s.units + c.readCost inst := by
    have hcost : c.unitDue u' = c.readCost inst := by
      rw [unitDue, hwarp', hfilled.outstanding, Option.elim_some, Multiset.coe_card,
        hfilled.requests.length, readCost, Nat.mul_comm]
    simpa [← hcost, unitDue, hwarp] using Rfu.unitDue_set (c := c) u' hu
  have hkeeps : s.Keeps c { s with
      units := s.units.set cu u'
      pipe := s.pipe.set input (regs.set k none) } := by
    refine ⟨?_, ?_, .refl _⟩
    · simp only [Rfu.resident, Rfu.collecting, Rfu.piped] at hcollecting hpiped ⊢
      rw [hcollecting, ← hpiped, add_right_comm, add_assoc]
    · simp only [Rfu.owed]
      rw [hunits, ← hdue]
      exact congrArg u32 (by omega)
  have hfill : Rfu.Coherent c sizes { s with
      units := s.units.set cu u'
      pipe := s.pipe.set input (regs.set k none) } u'.operands := by
    refine ⟨by simpa using h.units_length, h.queue_length, h.banks_length, h.dispatch_length,
      (Rfu.sizes_set hregs).trans h.sizes, ?_, h.bank, ?_, ?_⟩
    · refine Rfu.coherent_set h.unit ⟨fun hf => ?_, fun _ => ?_⟩
      · rw [hfilled.busy] at hf
        cases hf
      · exact ⟨inst, output, hwarp', hfilled.warpId, hfilled.output, hout,
          hfilled.requests⟩
    · have hbalance := h.balance
      rw [add_zero] at hbalance
      exact (congrArg (· + (u'.operands : Multiset ReadOp)) hbalance).trans hpending.symm
    · rw [hkeeps.resident]
      exact h.accepts
  exact .bind (addReadRequests_meets hfill) fun s' hs' =>
    .pure ⟨rfl, hs'.1, hkeeps.trans hs'.2⟩

/-- The units that may take an instruction lie in their set. -/
theorem unitBounds_meets {units : UnitRange} (hready : regs.getReady = some (k, inst))
    (ha : c.Accepts inst) (heven : c.subCoreModel = true →
      units.size % c.numWarpScheds = 0 ∧ c.numWarpScheds ≤ units.size) :
    Meets (c.unitBounds regs units) fun r => r.1 + r.2 ≤ units.size := by
  unfold unitBounds
  refine .ite (fun hsub => ?_) fun _ => .pure (by simp)
  have hle : inst.schedId * (units.size / c.numWarpScheds) + units.size / c.numWarpScheds ≤
      units.size := by
    calc inst.schedId * (units.size / c.numWarpScheds) + units.size / c.numWarpScheds
        = (inst.schedId + 1) * (units.size / c.numWarpScheds) := by
          rw [Nat.add_mul, Nat.one_mul]
      _ ≤ c.numWarpScheds * (units.size / c.numWarpScheds) := Nat.mul_le_mul_right _ (ha hsub)
      _ ≤ units.size := Nat.mul_div_le _ _
  exact .fetch hready (.require (heven hsub) (.require hle (.pure hle)))

/-- The instructions in a register set are resident. -/
theorem accepts_of_ready (h : s.Coherent c sizes 0) (hregs : s.pipe[input]? = some regs)
    (hready : regs.getReady = some (k, inst)) : c.Accepts inst := by
  refine h.accepts inst (Multiset.mem_add.mpr (.inr (mem_holding.mpr ⟨input, regs, hregs, ?_⟩)))
  exact mem_holding.mpr ⟨k, some inst, PipeRegs.getReady_mem hready, by simp⟩

/-- The search through the sets of a port. -/
theorem searchSets_meets (h : s.Coherent c sizes 0) (hin : input ∈ c.inputs)
    (hout : output ∈ c.outputs) (hregs : s.pipe[input]? = some regs)
    (hhas : regs.hasReady = true) {sets : List Nat}
    (hsets : ∀ setId ∈ sets, ∃ cuSet ∈ c.cuSets, cuSet.setId = setId) :
    Meets (c.searchSets s input output sets) fun s' => s'.Coherent c sizes 0 ∧ s.Keeps c s' := by
  induction sets with
  | nil => exact .pure ⟨h, .refl s⟩
  | cons setId sets ih =>
    obtain ⟨k, inst, hready⟩ := PipeRegs.exists_getReady hhas
    have heven : c.subCoreModel = true → (c.cuSet setId).size % c.numWarpScheds = 0 ∧
        c.numWarpScheds ≤ (c.cuSet setId).size := by
      intro hsub
      obtain ⟨added, hmem, hsize⟩ : ∃ added ∈ c.cuSets, (c.cuSet setId).size = added.numCu :=
        exists_findCuSet (hsets setId List.mem_cons_self)
      rw [hsize]
      exact c.even_sets hsub added hmem
    refine .fetch hregs (.bind (unitBounds_meets hready (accepts_of_ready h hregs hready) heven)
      fun r hr => ?_)
    cases hfind : (List.range' ((c.cuSet setId).base + r.1) r.2).find? fun cu =>
        (s.units[cu]?.map CollectorUnit.free).getD false with
    | none =>
      simp only [hfind]
      exact ih fun setId' h' => hsets setId' (List.mem_cons_of_mem setId h')
    | some cu =>
      simp only [hfind]
      have hfree := List.find?_some hfind
      cases hu : s.units[cu]? with
      | none => simp [hu] at hfree
      | some u =>
        have hidle : u.free = true := by simpa [hu] using hfree
        refine .bind (occupy_meets h hin hout hu hidle hregs hready) fun r hr => ?_
        rw [hr.1, if_pos rfl]
        exact .pure hr.2

/-- A port serves its inputs. -/
theorem allocateCu_meets (hw : c.Wired sizes) (h : s.Coherent c sizes 0) {p : InputPort}
    (hp : p ∈ c.inPorts) :
    Meets (c.allocateCu s p) fun s' => s'.Coherent c sizes 0 ∧ s.Keeps c s' := by
  refine .foldlM (fun s' => s'.Coherent c sizes 0 ∧ s.Keeps c s') (fun m port hport hm => ?_)
    ⟨h, .refl s⟩
  have hin : port.1 ∈ c.inputs :=
    List.mem_flatMap.mpr ⟨p, hp, (List.of_mem_zip hport).1⟩
  have hout : port.2 ∈ c.outputs :=
    List.mem_flatMap.mpr ⟨p, hp, (List.of_mem_zip hport).2⟩
  have hlt : port.1 < m.pipe.length := by
    rw [← List.length_map (f := List.length), hm.1.sizes]
    exact hw.inputs _ hin
  refine .fetch (List.getElem?_eq_getElem hlt) (.ite (fun hhas => ?_) fun _ => .pure hm)
  refine (searchSets_meets hm.1 hin hout (List.getElem?_eq_getElem hlt) hhas
    (c.known_sets p hp)).mono fun m' hm' => ⟨hm'.1, hm.2.trans hm'.2⟩

end RfuConfig

end WaspSim
