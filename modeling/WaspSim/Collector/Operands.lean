import WaspSim.Collector.Step
import WaspSim.Core.Meets

/-!
# Registers, banks and collector sets

What the small functions of the collector return: the bank of a register, the requests of
an instruction, the register that a set offers, and the units of a collector set.
-/

namespace WaspSim

namespace RfuConfig

variable {c : RfuConfig}

/-- In the sub-core model an instruction comes from one of the schedulers. -/
def Accepts (c : RfuConfig) (inst : CollectorInst) : Prop :=
  c.subCoreModel = true → inst.schedId < c.numWarpScheds

/-- The banks of a scheduler lie side by side. -/
theorem bank_lt {schedId n : Nat} (hsub : c.subCoreModel = true)
    (hs : schedId < c.numWarpScheds) :
    n % c.banksPerSched + schedId * c.banksPerSched < c.numBanks := by
  have hdvd : c.numWarpScheds * c.banksPerSched = c.numBanks :=
    Nat.mul_div_cancel' (Nat.dvd_of_mod_eq_zero (c.numBanks_mod hsub))
  have hpos : 0 < c.banksPerSched :=
    Nat.pos_of_mul_pos_left (hdvd.symm ▸ c.numBanks_pos)
  calc n % c.banksPerSched + schedId * c.banksPerSched
      < c.banksPerSched + schedId * c.banksPerSched :=
        Nat.add_lt_add_right (Nat.mod_lt _ hpos) _
    _ = (schedId + 1) * c.banksPerSched := by rw [Nat.add_mul, Nat.one_mul, Nat.add_comm]
    _ ≤ c.numWarpScheds * c.banksPerSched := Nat.mul_le_mul_right _ hs
    _ = c.numBanks := hdvd

/-- `register_bank` finds a bank of the register file. -/
theorem registerBank_meets {inst : CollectorInst} (ha : c.Accepts inst) (reg : Nat) :
    Meets (c.registerBank reg inst.warpId inst.schedId) (· < c.numBanks) := by
  unfold registerBank
  refine .ite (fun hsub => ?_) fun _ => .pure (Nat.mod_lt _ c.numBanks_pos)
  have hlt := bank_lt (n := reg + inst.warpId) hsub (ha hsub)
  exact .require hlt (.pure hlt)

/-- A request for a source register of `inst`, in the bank that holds it. -/
structure RequestOf (c : RfuConfig) (cu : Nat) (inst : CollectorInst) (op : ReadOp) : Prop where
  unit : op.cu = cu
  sched : op.schedId = inst.schedId
  bank_lt : op.bank < c.numBanks
  bank : c.registerBank op.reg inst.warpId inst.schedId = .ok op.bank

/-- The requests of an instruction: one for each of its source registers, at different
operands. -/
structure Requests (c : RfuConfig) (cu : Nat) (inst : CollectorInst) (ops : List ReadOp) :
    Prop where
  each : ∀ op ∈ ops, c.RequestOf cu inst op
  operands : (ops.map ReadOp.operand).Nodup
  regs : (ops.map ReadOp.reg).Nodup
  mem_regs : ∀ reg, reg ∈ ops.map ReadOp.reg ↔ (reg : Int) ∈ inst.src

/-- What the loop of `allocate` has requested from operand `op` on. -/
theorem sourceOps_meets {cu : Nat} {inst : CollectorInst} (ha : c.Accepts inst) (op : Nat)
    (prevRegs regs : List Int) :
    Meets (c.sourceOps cu inst op prevRegs regs) fun ops =>
      (∀ o ∈ ops.reduceOption, c.RequestOf cu inst o ∧ op ≤ o.operand) ∧
      (ops.reduceOption.map ReadOp.operand).Nodup ∧
      (ops.reduceOption.map ReadOp.reg).Nodup ∧
      ∀ reg, reg ∈ ops.reduceOption.map ReadOp.reg ↔
        (reg : Int) ∈ regs ∧ (reg : Int) ∉ prevRegs := by
  induction regs generalizing op prevRegs with
  | nil => exact .pure (by simp)
  | cons r regs ih =>
    rw [sourceOps]
    refine .ite (fun hr => ?_) fun hr => ?_
    · obtain ⟨hpos, hnew⟩ := hr
      obtain ⟨n, rfl⟩ := Int.eq_ofNat_of_zero_le hpos
      refine .bind (registerBank_meets ha _).self fun bank hbank => ?_
      refine .bind (ih (op + 1) (prevRegs ++ [(n : Int)])) fun ops hops => .pure ?_
      obtain ⟨heach, hoperands, hregs, hmem⟩ := hops
      rw [List.reduceOption_cons_of_some]
      refine ⟨?_, ?_, ?_, fun reg => ?_⟩
      · intro o ho
        rcases List.mem_cons.mp ho with rfl | ho
        · exact ⟨⟨rfl, rfl, hbank.2, hbank.1⟩, Nat.le_refl op⟩
        · exact ⟨(heach o ho).1, Nat.le_of_succ_le (heach o ho).2⟩
      · refine List.nodup_cons.mpr ⟨fun hin => ?_, hoperands⟩
        obtain ⟨o, ho, heq⟩ := List.mem_map.mp hin
        have hle := (heach o ho).2
        rw [heq] at hle
        exact absurd hle (Nat.not_succ_le_self op)
      · refine List.nodup_cons.mpr ⟨fun hin => ?_, hregs⟩
        have hout := ((hmem _).mp hin).2
        simp at hout
      · rw [List.map_cons, List.mem_cons, hmem, List.mem_cons, List.mem_append,
          List.mem_singleton, Int.toNat_natCast]
        by_cases hreg : reg = n
        · subst hreg
          simp [hnew]
        · have hint : (reg : Int) ≠ n := by exact_mod_cast hreg
          simp [hreg, hint]
    · refine .bind (ih (op + 1) prevRegs) fun ops hops => .pure ?_
      obtain ⟨heach, hoperands, hregs, hmem⟩ := hops
      rw [List.reduceOption_cons_of_none]
      refine ⟨fun o ho => ⟨(heach o ho).1, Nat.le_of_succ_le (heach o ho).2⟩, hoperands, hregs,
        fun reg => ?_⟩
      rw [hmem, List.mem_cons]
      constructor
      · rintro ⟨hin, hout⟩
        exact ⟨.inr hin, hout⟩
      · rintro ⟨rfl | hin, hout⟩
        · exact absurd ⟨Int.natCast_nonneg reg, hout⟩ hr
        · exact ⟨hin, hout⟩

/-- `allocate` requests every source register once. -/
theorem sourceOps_requests {cu : Nat} {inst : CollectorInst} (ha : c.Accepts inst) :
    Meets (c.sourceOps cu inst 0 [] inst.src) fun ops =>
      c.Requests cu inst ops.reduceOption := by
  refine (sourceOps_meets ha 0 [] inst.src).mono fun ops h => ?_
  obtain ⟨heach, hoperands, hregs, hmem⟩ := h
  refine ⟨fun op hop => (heach op hop).1, hoperands, hregs, fun reg => ?_⟩
  rw [hmem]
  simp

/-- The size of a set that was added is the size of one of the sets. -/
theorem exists_findCuSet {sets : List CuSet} {base setId : Nat}
    (h : ∃ s ∈ sets, s.setId = setId) :
    ∃ s ∈ sets, (findCuSet sets base setId).size = s.numCu := by
  induction sets generalizing base with
  | nil =>
    obtain ⟨s, hs, -⟩ := h
    cases hs
  | cons s sets ih =>
    rw [findCuSet]
    split
    · exact ⟨s, List.mem_cons_self, rfl⟩
    · next hne =>
      obtain ⟨s', hs', hid⟩ := h
      rcases List.mem_cons.mp hs' with rfl | hs'
      · exact absurd hid hne
      · obtain ⟨s'', hs'', hsize⟩ := ih ⟨s', hs', hid⟩
        exact ⟨s'', List.mem_cons_of_mem _ hs'', hsize⟩

/-- The units of a dispatch unit are those of one of the sets. -/
theorem mem_dispatchRanges {sets : List CuSet} {base : Nat} {r : UnitRange}
    (h : r ∈ dispatchRanges sets base) :
    r.base + r.size ≤ base + countUnits sets ∧ ∃ s ∈ sets, r.size = s.numCu := by
  induction sets generalizing base with
  | nil => cases h
  | cons s sets ih =>
    rw [countUnits, ← Nat.add_assoc]
    rcases List.mem_append.mp h with h | h
    · rw [List.eq_of_mem_replicate h]
      exact ⟨Nat.le_add_right _ _, s, List.mem_cons_self, rfl⟩
    · obtain ⟨hle, s', hs', hsize⟩ := ih h
      exact ⟨hle, s', List.mem_cons_of_mem _ hs', hsize⟩

end RfuConfig

namespace PipeRegs

variable {regs : PipeRegs} {i k : Nat} {inst : CollectorInst}

/-- The scan ends with the register that it started with or with one that it passed. -/
theorem oldest_mem {ready : Option (Nat × CollectorInst)}
    (h : oldest ready i regs = some (k, inst)) :
    ready = some (k, inst) ∨ i ≤ k ∧ regs[k - i]? = some (some inst) := by
  induction regs generalizing ready i with
  | nil => exact .inl h
  | cons reg regs ih =>
    have hpast (h : i + 1 ≤ k ∧ regs[k - (i + 1)]? = some (some inst)) :
        i ≤ k ∧ (reg :: regs)[k - i]? = some (some inst) := by
      obtain ⟨d, rfl⟩ := Nat.exists_eq_add_of_le h.1
      refine ⟨by omega, ?_⟩
      have hd : i + 1 + d - i = d + 1 := by omega
      rw [hd, List.getElem?_cons_succ]
      simpa using h.2
    have hhere {reg' : CollectorInst} (hreg : reg = some reg')
        (h : (some (i, reg') : Option (Nat × CollectorInst)) = some (k, inst)) :
        i ≤ k ∧ (reg :: regs)[k - i]? = some (some inst) := by
      obtain ⟨rfl, rfl⟩ := Prod.mk.inj (Option.some.inj h)
      exact ⟨Nat.le_refl i, by simp [hreg]⟩
    cases reg with
    | none =>
      rw [oldest] at h
      exact (ih h).imp_right hpast
    | some new =>
      cases ready with
      | none =>
        rw [oldest] at h
        exact (ih h).elim (fun heq => .inr (hhere rfl heq)) fun hp => .inr (hpast hp)
      | some old =>
        rw [oldest] at h
        split at h
        · exact (ih h).imp_right hpast
        · exact (ih h).elim (fun heq => .inr (hhere rfl heq)) fun hp => .inr (hpast hp)

/-- The scan finds a register when there is one. -/
theorem oldest_isSome {ready : Option (Nat × CollectorInst)}
    (h : ready.isSome = true ∨ regs.hasReady = true) : (oldest ready i regs).isSome = true := by
  induction regs generalizing ready i with
  | nil => simpa [oldest, hasReady] using h
  | cons reg regs ih =>
    cases reg with
    | none =>
      rw [oldest]
      exact ih (by simpa [hasReady] using h)
    | some new =>
      cases ready with
      | none =>
        rw [oldest]
        exact ih (.inl rfl)
      | some old =>
        rw [oldest]
        split
        · exact ih (.inl rfl)
        · exact ih (.inl rfl)

/-- `get_ready` returns a register that holds an instruction. -/
theorem getReady_mem (h : regs.getReady = some (k, inst)) : regs[k]? = some (some inst) := by
  rcases oldest_mem h with hnone | ⟨-, hk⟩
  · cases hnone
  · exact hk

/-- `get_ready` finds an instruction in a set that has one. -/
theorem exists_getReady (h : regs.hasReady = true) :
    ∃ k inst, regs.getReady = some (k, inst) := by
  obtain ⟨⟨k, inst⟩, hk⟩ := Option.isSome_iff_exists.mp (oldest_isSome (.inr h))
  exact ⟨k, inst, hk⟩

/-- `get_free` finds an empty register in a set that has a free one. -/
theorem getFree_meets {subCoreModel : Bool} {regId : Nat}
    (h : regs.hasFree subCoreModel regId = .ok true) :
    Meets (regs.getFree subCoreModel regId) fun k => regs[k]? = some none := by
  unfold hasFree at h
  unfold getFree
  split at h
  · next hsub =>
    rw [if_pos hsub]
    obtain ⟨reg, hreg, hnone⟩ := bind_eq_ok.mp h
    rw [pure_eq_ok, Option.isNone_iff_eq_none] at hnone
    subst hnone
    exact .fetch (fetch_eq_ok.mp hreg) (.require rfl (.pure (fetch_eq_ok.mp hreg)))
  · next hsub =>
    rw [if_neg hsub]
    rw [pure_eq_ok, List.any_eq_true] at h
    have hfound := List.findIdx?_isSome.trans (List.any_eq_true.mpr h)
    obtain ⟨k, hk⟩ := Option.isSome_iff_exists.mp hfound
    refine .of_eq (fetch_eq_ok.mpr hk) ?_
    obtain ⟨hlt, hnone, -⟩ := List.findIdx?_eq_some_iff_getElem.mp hk
    rw [List.getElem?_eq_getElem hlt, Option.isNone_iff_eq_none.mp hnone]

/-- `has_free` with a register for every sub-core. -/
theorem hasFree_meets {subCoreModel : Bool} {regId : Nat}
    (h : subCoreModel = true → regId < regs.length) :
    Meets (regs.hasFree subCoreModel regId) fun _ => True := by
  unfold hasFree
  refine .ite (fun hsub => ?_) fun _ => .pure trivial
  exact .fetch (List.getElem?_eq_getElem (h hsub)) (.pure trivial)

end PipeRegs

end WaspSim
