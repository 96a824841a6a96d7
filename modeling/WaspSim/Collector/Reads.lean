import WaspSim.Collector.Arbiter
import WaspSim.Collector.Dispatch

/-!
# Reading the banks

The granted requests leave their queues and arrive at their units. No two of them are for
one bank and none is for a bank that is written, so that every bank they are allocated is
free.
-/

namespace WaspSim

namespace Arbiter

variable {queue : List (List ReadOp)} {allocatedBank : List BankAlloc} {k : Nat} {op : ReadOp}

@[simp] theorem fronts_cons {a : BankAlloc} {q : List ReadOp} :
    fronts (a :: allocatedBank) (q :: queue) =
      (if a = .writeAlloc then [] else q.head?.toList) ++ fronts allocatedBank queue := by
  by_cases hw : a = .writeAlloc
  · simp [fronts, hw]
  · cases q with
    | nil => simp [fronts, hw]
    | cons op ops => simp [fronts, hw]

@[simp] theorem served_cons {a : BankAlloc} {q : List ReadOp} :
    served (a :: allocatedBank) (q :: queue) =
      (if a = .writeAlloc then q else q.tail) :: served allocatedBank queue := rfl

theorem length_served (ha : allocatedBank.length = queue.length) :
    (served allocatedBank queue).length = queue.length := by
  simp [served, ha]

/-- The granted requests are those that the queues have lost. -/
theorem served_add_fronts (ha : allocatedBank.length = queue.length) :
    requests (served allocatedBank queue) + fronts allocatedBank queue = requests queue := by
  induction queue generalizing allocatedBank with
  | nil =>
    rw [List.length_eq_zero_iff.mp ha]
    rfl
  | cons q queue ih =>
    obtain ⟨a, allocatedBank, rfl⟩ := List.exists_cons_of_length_eq_add_one ha
    have hrest := ih (Nat.succ.inj ha)
    unfold requests at hrest ⊢
    rw [served_cons, fronts_cons, holding_cons, holding_cons, ← hrest]
    by_cases hw : a = .writeAlloc
    · simp [hw, add_assoc]
    · cases q with
      | nil => simp [hw]
      | cons op ops =>
        simp only [hw, ↓reduceIte, List.tail_cons, List.head?_cons, Option.toList_some,
          List.cons_append, List.nil_append, ← Multiset.cons_coe, Multiset.add_cons,
          Multiset.cons_add, add_assoc]

/-- What is left in the queues was there before. -/
theorem mem_served {b : Nat} {q : List ReadOp} (hq : (served allocatedBank queue)[b]? = some q)
    (hop : op ∈ q) : ∃ q', queue[b]? = some q' ∧ op ∈ q' := by
  rw [served, List.getElem?_map, Option.map_eq_some_iff] at hq
  obtain ⟨⟨a, q'⟩, hzip, rfl⟩ := hq
  refine ⟨q', (List.getElem?_zip_eq_some.mp hzip).2, ?_⟩
  by_cases hw : a = .writeAlloc
  · simpa [hw] using hop
  · exact List.mem_of_mem_tail (by simpa [hw] using hop)

/-- Granted requests come from different banks, none of which is written. -/
theorem fronts_banks (ha : allocatedBank.length = queue.length)
    (hbank : ∀ (i : Nat) q, queue[i]? = some q → ∀ op ∈ q, op.bank = k + i) :
    ((fronts allocatedBank queue).map ReadOp.bank).Nodup ∧
      ∀ op ∈ fronts allocatedBank queue, k ≤ op.bank ∧
        ∃ a, allocatedBank[op.bank - k]? = some a ∧ a ≠ .writeAlloc := by
  induction queue generalizing allocatedBank k with
  | nil =>
    rw [List.length_eq_zero_iff.mp ha]
    exact ⟨List.nodup_nil, fun op hop => by cases hop⟩
  | cons q queue ih =>
    obtain ⟨a, allocatedBank, rfl⟩ := List.exists_cons_of_length_eq_add_one ha
    have hrest : ∀ (i : Nat) q, queue[i]? = some q → ∀ op ∈ q, op.bank = k + 1 + i := by
      intro i q hq op hop
      rw [hbank (i + 1) q hq op hop, Nat.add_assoc, Nat.add_comm 1 i]
    obtain ⟨hnodup, hfree⟩ := ih (Nat.succ.inj ha) hrest
    have hlater : ∀ op ∈ fronts allocatedBank queue, k ≤ op.bank ∧
        ∃ a', (a :: allocatedBank)[op.bank - k]? = some a' ∧ a' ≠ .writeAlloc := by
      intro op hop
      obtain ⟨hle, a', ha', hne⟩ := hfree op hop
      have hsub : op.bank - k = op.bank - (k + 1) + 1 := by omega
      exact ⟨Nat.le_of_succ_le hle, a', by rwa [hsub, List.getElem?_cons_succ], hne⟩
    rw [fronts_cons]
    by_cases hw : a = .writeAlloc
    · rw [if_pos hw, List.nil_append]
      exact ⟨hnodup, hlater⟩
    · rw [if_neg hw]
      cases q with
      | nil => exact ⟨hnodup, hlater⟩
      | cons op ops =>
        have hop : op.bank = k := hbank 0 _ rfl op List.mem_cons_self
        rw [List.head?_cons, Option.toList_some, List.singleton_append, List.map_cons]
        refine ⟨List.nodup_cons.mpr ⟨fun hin => ?_, hnodup⟩, fun op' hop' => ?_⟩
        · obtain ⟨op', hop', heq⟩ := List.mem_map.mp hin
          have hle := (hfree op' hop').1
          rw [heq, hop] at hle
          exact Nat.not_succ_le_self k hle
        · rcases List.mem_cons.mp hop' with rfl | hop'
          · exact ⟨Nat.le_of_eq hop.symm, a, by simp [hop], hw⟩
          · exact hlater op' hop'

end Arbiter

/-- Collecting an operand takes it off what its unit waits for. -/
theorem CollectorUnit.outstanding_erase {u : CollectorUnit} {op : ReadOp}
    (hnodup : (u.operands.map ReadOp.operand).Nodup) (hop : op ∈ u.outstanding) :
    u.outstanding = op ::ₘ (u.collectOperand op.operand).outstanding := by
  obtain ⟨hmem, hready⟩ := List.mem_filter.mp (Multiset.mem_coe.mp hop)
  have hops : u.operands.Nodup := hnodup.of_map _
  have hnew : op ∉ u.operands.filter fun op' => op'.operand ∈ u.notReady.erase op.operand := by
    simp
  refine Multiset.coe_eq_coe.mpr
    ((List.perm_ext_iff_of_nodup (hops.filter _) (List.nodup_cons.mpr ⟨hnew, hops.filter _⟩)).mpr
      fun op' => ?_)
  simp only [List.mem_cons, List.mem_filter, decide_eq_true_eq, Finset.mem_erase]
  constructor
  · rintro ⟨hmem', hready'⟩
    by_cases heq : op'.operand = op.operand
    · exact .inl (List.inj_on_of_nodup_map hnodup hmem' hmem heq)
    · exact .inr ⟨hmem', heq, hready'⟩
  · rintro (rfl | ⟨hmem', -, hready'⟩)
    · exact ⟨hmem, by simpa using hready⟩
    · exact ⟨hmem', hready'⟩

namespace RfuConfig

variable {c : RfuConfig} {sizes : List Nat} {s : Rfu} {rest : Multiset ReadOp} {op : ReadOp}

/-- A unit that waits for an operand holds the instruction that it requested it for. -/
theorem request_of_outstanding {cu : Nat} {u : CollectorUnit} (h : u.Coherent c cu)
    (hop : op ∈ u.outstanding) : ∃ inst, u.warp = some inst ∧ u.warpId = inst.warpId ∧
      c.Requests cu inst u.operands ∧ c.RequestOf cu inst op := by
  have hmem : op ∈ u.operands := (List.mem_filter.mp (Multiset.mem_coe.mp hop)).1
  have hbusy : u.free = false := by
    refine Bool.eq_false_iff.mpr fun hfree => ?_
    rw [(h.idle hfree).2.1] at hmem
    cases hmem
  obtain ⟨inst, output, hwarp, hid, -, -, hreq⟩ := h.busy hbusy
  exact ⟨inst, hwarp, hid, hreq, hreq.each op hmem⟩

/-- An operand that is still pending belongs to the unit that its request names. -/
theorem exists_unit (h : s.Coherent c sizes rest) (hop : op ∈ s.pending) :
    ∃ u inst, s.units[op.cu]? = some u ∧ u.warp = some inst ∧ u.warpId = inst.warpId ∧
      op ∈ u.outstanding ∧ c.Requests op.cu inst u.operands ∧ c.RequestOf op.cu inst op := by
  obtain ⟨cu, u, hu, hout⟩ := mem_holding.mp hop
  obtain ⟨inst, hwarp, hid, hreq, hone⟩ := request_of_outstanding (h.unit cu u hu) hout
  obtain rfl : op.cu = cu := hone.unit
  exact ⟨u, inst, hu, hwarp, hid, hout, hreq, hone⟩

/-- A collected operand is counted, and its unit waits for one operand less. -/
theorem collect_meets (h : s.Coherent c sizes (op ::ₘ rest)) :
    Meets (c.collect s op) fun s' => s'.Coherent c sizes rest ∧ s.Keeps c s' := by
  have hpending : op ∈ s.pending := by
    rw [← h.balance]
    exact Multiset.mem_add.mpr (.inr (Multiset.mem_cons_self op rest))
  obtain ⟨u, inst, hu, hwarp, hid, hout, hreq, -⟩ := exists_unit h hpending
  refine .fetch hu (.fetch hwarp (.pure ?_))
  have herase := u.outstanding_erase hreq.operands hout
  have hset : holding (fun _ u => u.outstanding)
      (s.units.set op.cu (u.collectOperand op.operand)) + {op} = s.pending := by
    have hpend := Rfu.pending_set (u.collectOperand op.operand) hu
    rw [herase, ← Multiset.singleton_add, ← add_assoc] at hpend
    exact add_right_cancel hpend
  have hcollecting : holding (fun _ u => u.held)
      (s.units.set op.cu (u.collectOperand op.operand)) = s.collecting := by
    have hheld := Rfu.collecting_set (u.collectOperand op.operand) hu
    exact add_right_cancel (b := u.held) hheld
  have hdue : holding (fun _ u => c.unitDue u)
      (s.units.set op.cu (u.collectOperand op.operand)) + c.countedLanes inst.activeMask =
      holding (fun _ u => c.unitDue u) s.units := by
    have hunit := Rfu.unitDue_set (c := c) (u.collectOperand op.operand) hu
    have hold : c.unitDue u =
        c.unitDue (u.collectOperand op.operand) + c.countedLanes inst.activeMask := by
      simp only [unitDue, CollectorUnit.collectOperand, hwarp, Option.elim_some] at herase ⊢
      rw [herase, Multiset.card_cons, Nat.mul_succ]
    omega
  have hkeeps : s.Keeps c { s with
      units := s.units.set op.cu (u.collectOperand op.operand)
      regfileReads := u32 (s.regfileReads + c.countedLanes inst.activeMask) } := by
    refine ⟨?_, ?_, .refl _⟩
    · simp only [Rfu.resident, Rfu.collecting] at hcollecting ⊢
      rw [hcollecting]
      rfl
    · simp only [Rfu.owed, u32_u32_add]
      exact congrArg u32 (by omega)
  refine ⟨⟨by simpa using h.units_length, h.queue_length, h.banks_length, h.dispatch_length,
    h.sizes, ?_, h.bank, ?_, ?_⟩, hkeeps⟩
  · refine Rfu.coherent_set h.unit ⟨fun hfree => ?_, fun hbusy => ?_⟩
    · have hidle := (h.unit op.cu u hu).idle hfree
      refine ⟨hidle.1, hidle.2.1, ?_⟩
      simp [CollectorUnit.collectOperand, hidle.2.2]
    · exact (h.unit op.cu u hu).busy hbusy
  · have hbalance : s.queued + rest + {op} = s.pending := by
      rw [add_assoc, add_comm rest, Multiset.singleton_add]
      exact h.balance
    exact add_right_cancel (hbalance.trans hset.symm)
  · rw [hkeeps.resident]
    exact h.accepts

/-- A request in a queue names the bank of its register as long as it waits. -/
theorem registerBank_of_pending (h : s.Coherent c sizes rest) (hop : op ∈ s.pending) :
    ∃ u, s.units[op.cu]? = some u ∧ c.registerBank op.reg u.warpId op.schedId = .ok op.bank ∧
      op.bank < c.numBanks := by
  obtain ⟨u, inst, hu, -, hid, -, -, hone⟩ := exists_unit h hop
  refine ⟨u, hu, ?_, hone.bank_lt⟩
  rw [hid, hone.sched]
  exact hone.bank

/-- Requests for different banks that are not allocated can all be allocated. -/
theorem allocateForRead_meets (h : s.Coherent c sizes rest) {ops : List ReadOp}
    (hops : ∀ op ∈ ops, op ∈ s.pending) (hnodup : (ops.map ReadOp.bank).Nodup)
    (hfree : ∀ op ∈ ops, s.allocatedBank[op.bank]? = some .noAlloc) :
    Meets (ops.foldlM c.allocateForRead s) fun s' => s'.Coherent c sizes rest ∧ s.Keeps c s' := by
  refine (Meets.foldlM_rest (fun s' ops => (s'.Coherent c sizes rest ∧ s.Keeps c s') ∧
    (∀ op ∈ ops, op ∈ s'.pending) ∧ (ops.map ReadOp.bank).Nodup ∧
      ∀ op ∈ ops, s'.allocatedBank[op.bank]? = some .noAlloc) (fun m op ops hm => ?_)
    ⟨⟨h, .refl s⟩, hops, hnodup, hfree⟩).mono fun s' hs' => hs'.1
  obtain ⟨⟨hco, hkeeps⟩, hpend, hdistinct, hidle⟩ := hm
  obtain ⟨u, hu, hbank, -⟩ := registerBank_of_pending hco (hpend op List.mem_cons_self)
  obtain ⟨hout, hrest⟩ := List.nodup_cons.mp hdistinct
  refine .fetch hu ?_
  rw [hbank]
  refine .fetch (hidle op List.mem_cons_self) (.require rfl (.pure ⟨⟨?_, ?_⟩, ?_, hrest, ?_⟩))
  · exact ⟨hco.units_length, hco.queue_length, by simpa using hco.banks_length,
      hco.dispatch_length, hco.sizes, hco.unit, hco.bank, hco.balance, hco.accepts⟩
  · exact hkeeps.trans ⟨rfl, rfl, .refl _⟩
  · exact fun op' hop' => hpend op' (List.mem_cons_of_mem op hop')
  · intro op' hop'
    have hne : op.bank ≠ op'.bank := fun heq => hout (heq ▸ List.mem_map_of_mem hop')
    rw [List.getElem?_set_ne hne]
    exact hidle op' (List.mem_cons_of_mem op hop')

/-- Collecting all granted requests. -/
theorem collectAll_meets {ops : List ReadOp} (h : s.Coherent c sizes ops) :
    Meets (ops.foldlM c.collect s) fun s' => s'.Coherent c sizes 0 ∧ s.Keeps c s' := by
  refine Meets.foldlM_rest (fun s' (ops : List ReadOp) => s'.Coherent c sizes ops ∧
    s.Keeps c s') (fun m op ops hm => ?_) ⟨h, .refl s⟩
  have hco : m.Coherent c sizes (op ::ₘ (ops : Multiset ReadOp)) := hm.1
  exact (collect_meets hco).mono fun m' hm' => ⟨hm'.1, hm.2.trans hm'.2⟩

/-- A queued request is pending. -/
theorem pending_of_queued (h : s.Coherent c sizes rest) {b : Nat} {q : List ReadOp}
    (hq : s.queue[b]? = some q) (hop : op ∈ q) : op ∈ s.pending := by
  rw [← h.balance]
  exact Multiset.mem_add.mpr (.inl (mem_holding.mpr ⟨b, q, hq, hop⟩))

/-- The requests at the front of the queues come from units of the collector. -/
theorem fronts_known (h : s.Coherent c sizes rest) :
    ∀ q ∈ s.queue, ∀ op ∈ q.head?, op.cu < c.numCu := by
  intro q hq op hop
  obtain ⟨b, hb⟩ := List.mem_iff_getElem?.mp hq
  obtain ⟨u, -, hu, -⟩ := exists_unit h (pending_of_queued h hb (List.mem_of_mem_head? hop))
  rw [← h.units_length]
  exact (List.getElem?_eq_some_iff.mp hu).1

/-- The arbiter takes the fronts of the queues that can be read. -/
theorem arbiter_coherent (h : s.Coherent c sizes 0) (lastCu : Nat) :
    Rfu.Coherent c sizes
      { s with queue := Arbiter.served s.allocatedBank s.queue, lastCu := lastCu }
      (Arbiter.fronts s.allocatedBank s.queue) := by
  have ha : s.allocatedBank.length = s.queue.length := h.banks_length.trans h.queue_length.symm
  refine ⟨h.units_length, (Arbiter.length_served ha).trans h.queue_length, h.banks_length,
    h.dispatch_length, h.sizes, h.unit, fun b q hq op hop => ?_, ?_, h.accepts⟩
  · obtain ⟨q', hq', hop'⟩ := Arbiter.mem_served hq hop
    exact h.bank b q' hq' op hop'
  · exact (Arbiter.served_add_fronts ha).trans ((add_zero _).symm.trans h.balance)

/-- Reading the banks stops at no assertion when no bank is read yet. -/
theorem allocateReads_meets (h : s.Coherent c sizes 0)
    (hclear : ∀ a ∈ s.allocatedBank, a ≠ .readAlloc) :
    Meets (c.allocateReads s) fun s' => s'.Coherent c sizes 0 ∧
      Rfu.Keeps c { s with queue := Arbiter.served s.allocatedBank s.queue } s' := by
  have ha : s.allocatedBank.length = s.queue.length := h.banks_length.trans h.queue_length.symm
  have hplaced : ∀ (i : Nat) q, s.queue[i]? = some q → ∀ op ∈ q, op.bank = 0 + i := by
    intro i q hq op hop
    rw [Nat.zero_add]
    exact h.bank i q hq op hop
  obtain ⟨hnodup, hfree⟩ := Arbiter.fronts_banks ha hplaced
  have hpos : 0 < c.numCu := c.numCu_pos
  have hco := arbiter_coherent h ((s.lastCu + 1) % c.numCu)
  refine .bind_ok (Arbiter.allocateReads_eq hpos (fronts_known h) ha) ?_
  refine .bind (allocateForRead_meets hco (fun op hop => ?_) hnodup fun op hop => ?_)
    fun m hm => (collectAll_meets hm.1).mono fun s' hs' =>
      ⟨hs'.1, Rfu.Keeps.trans ⟨hm.2.resident, hm.2.reads, hm.2.queue⟩ hs'.2⟩
  · rw [← hco.balance]
    exact Multiset.mem_add.mpr (.inr hop)
  · obtain ⟨-, a, ha, hne⟩ := hfree op hop
    rw [Nat.sub_zero] at ha
    have hread := hclear a (List.mem_of_getElem? ha)
    cases a with
    | noAlloc => exact ha
    | readAlloc => exact absurd rfl hread
    | writeAlloc => exact absurd rfl hne

end RfuConfig

end WaspSim
