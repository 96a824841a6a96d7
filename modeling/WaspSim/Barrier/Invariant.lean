import WaspSim.Barrier.State
import WaspSim.Core.Meets
import WaspSim.Core.Run

/-!
# Barriers keep their warps

The warps that wait are active and those that a barrier counts belong to a resident CTA. A warp
that never arrives without waiting is counted by exactly the barrier it waits at, so no
assertion about its CTA fails.
-/

namespace WaspSim

/-- No `bar.arrive` is among the instructions. -/
def Waits (insts : List SchedInst) : Prop := ∀ inst ∈ insts, inst.barType ≠ .arrive

theorem Waits.of_append {insts : List SchedInst} {inst : SchedInst}
    (h : Waits (insts ++ [inst])) : Waits insts ∧ inst.barType ≠ .arrive :=
  ⟨fun i hi => h i (List.mem_append_left _ hi), h inst (List.mem_append_right _ List.mem_cons_self)⟩

namespace BarrierSet

variable {cfg : BarrierConfig} {b b' : BarrierSet} {reached : Nat → List SchedInst}
  {warps : Finset Nat} {w v i j ctaId : Nat} {inst : SchedInst}

/-- Release the warps of a CTA from a barrier. -/
def releaseCta (b : BarrierSet) (i : Nat) (warps : Finset Nat) : BarrierSet :=
  b.release i (warps ∩ b.barIdToWarps i)

@[simp] theorem releaseCta_ctaToWarps : (b.releaseCta i warps).ctaToWarps = b.ctaToWarps := rfl

/-- A release wakes the warps of the CTA that the barrier counts. -/
@[simp] theorem mem_releaseCta_warpAtBarrier :
    v ∈ (b.releaseCta i warps).warpAtBarrier ↔
      v ∈ b.warpAtBarrier ∧ ¬(v ∈ warps ∧ v ∈ b.barIdToWarps i) := by
  simp only [releaseCta, release, Finset.mem_sdiff, Finset.mem_inter]

@[simp] theorem mem_releaseCta_barIdToWarps :
    v ∈ (b.releaseCta i warps).barIdToWarps j ↔
      v ∈ b.barIdToWarps j ∧ (j = i → v ∉ warps) := by
  by_cases hj : j = i
  · subst hj
    simp only [releaseCta, release, Function.update_self, Finset.mem_sdiff, Finset.mem_inter,
      true_implies]
    tauto
  · simp only [releaseCta, release, Function.update_of_ne hj, hj, false_implies, and_true]

/-- A warp is counted by a barrier, and waits there unless it only arrives. -/
def arriveAt (b : BarrierSet) (w : Nat) (inst : SchedInst) : BarrierSet :=
  { b with
    barIdToWarps := Function.update b.barIdToWarps inst.barId
      (insert w (b.barIdToWarps inst.barId))
    warpAtBarrier :=
      if inst.barType = .sync ∨ inst.barType = .red then insert w b.warpAtBarrier
      else b.warpAtBarrier }

@[simp] theorem arriveAt_ctaToWarps : (b.arriveAt w inst).ctaToWarps = b.ctaToWarps := rfl

@[simp] theorem mem_arriveAt_barIdToWarps :
    v ∈ (b.arriveAt w inst).barIdToWarps j ↔
      v ∈ b.barIdToWarps j ∨ (v = w ∧ j = inst.barId) := by
  by_cases hj : j = inst.barId
  · subst hj
    simp only [arriveAt, Function.update_self, Finset.mem_insert, and_true]
    tauto
  · simp only [arriveAt, Function.update_of_ne hj, hj, and_false, or_false]

/-- A warp that arrives waits unless it only arrives. -/
@[simp] theorem mem_arriveAt_warpAtBarrier :
    v ∈ (b.arriveAt w inst).warpAtBarrier ↔
      v ∈ b.warpAtBarrier ∨ (v = w ∧ (inst.barType = .sync ∨ inst.barType = .red)) := by
  by_cases hwait : inst.barType = .sync ∨ inst.barType = .red
  · have hset : (b.arriveAt w inst).warpAtBarrier = insert w b.warpAtBarrier := if_pos hwait
    rw [hset, Finset.mem_insert]
    tauto
  · have hset : (b.arriveAt w inst).warpAtBarrier = b.warpAtBarrier := if_neg hwait
    rw [hset]
    tauto

/-- The warps of a CTA that have reached a barrier are all it waits for. -/
def Complete (cfg : BarrierConfig) (b : BarrierSet) (warps : Finset Nat) (inst : SchedInst) :
    Prop :=
  match inst.barCount with
  | none => warps ∩ b.barIdToWarps inst.barId = warps ∩ b.warpActive
  | some count => (warps ∩ b.barIdToWarps inst.barId).card * cfg.warpSize = count

/-- The barriers of a core that its resident CTAs account for. -/
structure Sound (cfg : BarrierConfig) (b : BarrierSet) (reached : Nat → List SchedInst) : Prop where
  slots : (b.ctaToWarps.map Prod.fst).Nodup
  slot_lt : ∀ e ∈ b.ctaToWarps, e.1 < cfg.maxCtaPerCore
  apart : ∀ e ∈ b.ctaToWarps, ∀ e' ∈ b.ctaToWarps, e.1 ≠ e'.1 → Disjoint e.2 e'.2
  active_resident : ∀ w ∈ b.warpActive, ∃ e ∈ b.ctaToWarps, w ∈ e.2
  waiting_active : ∀ w ∈ b.warpAtBarrier, w ∈ b.warpActive
  counted_resident : ∀ i, ∀ w ∈ b.barIdToWarps i, ∃ e ∈ b.ctaToWarps, w ∈ e.2
  counted_lt : ∀ i, ∀ w ∈ b.barIdToWarps i, i < cfg.maxBarriersPerCta
  waits_of_counted : ∀ i, ∀ w ∈ b.barIdToWarps i, Waits (reached w) →
    w ∈ b.warpAtBarrier ∧ (reached w).getLast?.map SchedInst.barId = some i
  counted_of_waits : ∀ w ∈ b.warpAtBarrier, Waits (reached w) → ∃ i, w ∈ b.barIdToWarps i

/-- A core without CTAs. -/
theorem sound_empty (cfg : BarrierConfig) (reached : Nat → List SchedInst) :
    Sound cfg {} reached where
  slots := List.nodup_nil
  slot_lt := by simp
  apart := by simp
  active_resident := by simp
  waiting_active := by simp
  counted_resident := by simp
  counted_lt := by simp
  waits_of_counted := by simp
  counted_of_waits := by simp

namespace Sound

/-- The slot of a resident CTA finds it. -/
theorem find_slot (h : Sound cfg b reached) (he : (ctaId, warps) ∈ b.ctaToWarps) :
    (b.ctaToWarps.find? fun e => e.1 == ctaId) = some (ctaId, warps) := by
  cases hfind : b.ctaToWarps.find? fun e => e.1 == ctaId with
  | none =>
    have hne := List.find?_eq_none.mp hfind _ he
    exact absurd (beq_self_eq_true ctaId) hne
  | some e =>
    have hmem := List.mem_of_find?_eq_some hfind
    have hkey : e.1 = ctaId := by simpa using List.find?_some hfind
    rw [List.inj_on_of_nodup_map h.slots hmem he hkey]

/-- A warp finds its resident CTA. -/
theorem find_warp (h : Sound cfg b reached) (he : (ctaId, warps) ∈ b.ctaToWarps) (hw : w ∈ warps) :
    (b.ctaToWarps.find? fun e => decide (w ∈ e.2)) = some (ctaId, warps) := by
  cases hfind : b.ctaToWarps.find? fun e => decide (w ∈ e.2) with
  | none =>
    have hne := List.find?_eq_none.mp hfind _ he
    exact absurd (decide_eq_true hw) hne
  | some e =>
    have hmem := List.mem_of_find?_eq_some hfind
    have hwe : w ∈ e.2 := by simpa using List.find?_some hfind
    have hkey : e.1 = ctaId := by
      by_contra hne
      exact Finset.disjoint_left.mp (h.apart e hmem _ he hne) hwe hw
    rw [List.inj_on_of_nodup_map h.slots hmem he hkey]

/-- Releasing the warps of a CTA from a barrier wakes only warps that wait there. -/
theorem releaseCta (h : Sound cfg b reached) (i : Nat) (warps : Finset Nat) :
    Sound cfg (b.releaseCta i warps) reached where
  slots := h.slots
  slot_lt := h.slot_lt
  apart := h.apart
  active_resident := h.active_resident
  waiting_active v hv := h.waiting_active v (mem_releaseCta_warpAtBarrier.mp hv).1
  counted_resident j v hv := h.counted_resident j v (mem_releaseCta_barIdToWarps.mp hv).1
  counted_lt j v hv := h.counted_lt j v (mem_releaseCta_barIdToWarps.mp hv).1
  waits_of_counted j v hv hwaits := by
    obtain ⟨hcounted, hstay⟩ := mem_releaseCta_barIdToWarps.mp hv
    obtain ⟨hwaiting, hlast⟩ := h.waits_of_counted j v hcounted hwaits
    refine ⟨mem_releaseCta_warpAtBarrier.mpr ⟨hwaiting, ?_⟩, hlast⟩
    rintro ⟨hmem, hreleased⟩
    have hlast' := (h.waits_of_counted i v hreleased hwaits).2
    exact hstay (Option.some.inj (hlast.symm.trans hlast')) hmem
  counted_of_waits v hv hwaits := by
    obtain ⟨hwaiting, hstay⟩ := mem_releaseCta_warpAtBarrier.mp hv
    obtain ⟨j, hj⟩ := h.counted_of_waits v hwaiting hwaits
    refine ⟨j, mem_releaseCta_barIdToWarps.mpr ⟨hj, ?_⟩⟩
    rintro rfl hmem
    exact hstay ⟨hmem, hj⟩

/-- A warp that is active and does not wait reaches a barrier of its CTA. -/
theorem arriveAt (h : Sound cfg b reached) (he : (ctaId, warps) ∈ b.ctaToWarps) (hw : w ∈ warps)
    (hactive : w ∈ b.warpActive) (hfree : w ∉ b.warpAtBarrier) (hbar : inst.barType ≠ .notBar)
    (hlt : inst.barId < cfg.maxBarriersPerCta) :
    Sound cfg (b.arriveAt w inst) (Function.update reached w (reached w ++ [inst])) where
  slots := h.slots
  slot_lt := h.slot_lt
  apart := h.apart
  active_resident := h.active_resident
  waiting_active v hv := by
    rcases mem_arriveAt_warpAtBarrier.mp hv with hv | ⟨rfl, _⟩
    · exact h.waiting_active v hv
    · exact hactive
  counted_resident j v hv := by
    rcases mem_arriveAt_barIdToWarps.mp hv with hv | ⟨rfl, _⟩
    · exact h.counted_resident j v hv
    · exact ⟨(ctaId, warps), he, hw⟩
  counted_lt j v hv := by
    rcases mem_arriveAt_barIdToWarps.mp hv with hv | ⟨_, rfl⟩
    · exact h.counted_lt j v hv
    · exact hlt
  waits_of_counted j v hv hwaits := by
    by_cases hvw : v = w
    · subst hvw
      rw [Function.update_self] at hwaits ⊢
      obtain ⟨hbefore, harrive⟩ := hwaits.of_append
      rcases mem_arriveAt_barIdToWarps.mp hv with hv | ⟨_, rfl⟩
      · exact absurd (h.waits_of_counted j v hv hbefore).1 hfree
      · refine ⟨mem_arriveAt_warpAtBarrier.mpr (.inr ⟨rfl, ?_⟩), by simp⟩
        cases htype : inst.barType with
        | notBar => exact absurd htype hbar
        | sync => exact .inl rfl
        | arrive => exact absurd htype harrive
        | red => exact .inr rfl
    · rw [Function.update_of_ne hvw] at hwaits ⊢
      rcases mem_arriveAt_barIdToWarps.mp hv with hv | ⟨rfl, _⟩
      · obtain ⟨hwaiting, hlast⟩ := h.waits_of_counted j v hv hwaits
        exact ⟨mem_arriveAt_warpAtBarrier.mpr (.inl hwaiting), hlast⟩
      · exact absurd rfl hvw
  counted_of_waits v hv hwaits := by
    rcases mem_arriveAt_warpAtBarrier.mp hv with hbefore | ⟨rfl, _⟩
    · have hvw : v ≠ w := by
        rintro rfl
        exact hfree hbefore
      rw [Function.update_of_ne hvw] at hwaits
      obtain ⟨j, hj⟩ := h.counted_of_waits v hbefore hwaits
      exact ⟨j, mem_arriveAt_barIdToWarps.mpr (.inl hj)⟩
    · exact ⟨inst.barId, mem_arriveAt_barIdToWarps.mpr (.inr ⟨rfl, rfl⟩)⟩

/-- A warp that does not wait exits. -/
theorem erase (h : Sound cfg b reached) (hfree : w ∉ b.warpAtBarrier) :
    Sound cfg { b with warpActive := b.warpActive.erase w } reached where
  slots := h.slots
  slot_lt := h.slot_lt
  apart := h.apart
  active_resident v hv := h.active_resident v (Finset.mem_of_mem_erase hv)
  waiting_active v hv := by
    refine Finset.mem_erase.mpr ⟨?_, h.waiting_active v hv⟩
    rintro rfl
    exact hfree hv
  counted_resident := h.counted_resident
  counted_lt := h.counted_lt
  waits_of_counted := h.waits_of_counted
  counted_of_waits := h.counted_of_waits

/-- A CTA moves in whose warps belong to no other. -/
theorem add (h : Sound cfg b reached) {slots : List (Nat × Finset Nat)}
    (hslots : (slots.map Prod.fst).Nodup) (hlt : ctaId < cfg.maxCtaPerCore)
    (hmem : ∀ e, e ∈ slots ↔ e = (ctaId, warps) ∨ e ∈ b.ctaToWarps)
    (hapart : ∀ e ∈ b.ctaToWarps, Disjoint e.2 warps) :
    Sound cfg
      { warpActive := b.warpActive ∪ warps
        warpAtBarrier := b.warpAtBarrier \ warps
        barIdToWarps := fun i => b.barIdToWarps i \ warps
        ctaToWarps := slots } (fun w => if w ∈ warps then [] else reached w) where
  slots := hslots
  slot_lt := by
    intro e he
    rcases (hmem e).mp he with rfl | he
    · exact hlt
    · exact h.slot_lt e he
  apart := by
    intro e he e' he' hne
    rcases (hmem e).mp he with rfl | he
    · rcases (hmem e').mp he' with rfl | he'
      · exact absurd rfl hne
      · exact (hapart e' he').symm
    · rcases (hmem e').mp he' with rfl | he'
      · exact hapart e he
      · exact h.apart e he e' he' hne
  active_resident := by
    intro w hw
    rcases Finset.mem_union.mp hw with hw | hw
    · obtain ⟨e, he, hwe⟩ := h.active_resident w hw
      exact ⟨e, (hmem e).mpr (.inr he), hwe⟩
    · exact ⟨(ctaId, warps), (hmem _).mpr (.inl rfl), hw⟩
  waiting_active w hw := Finset.mem_union_left _ (h.waiting_active w (Finset.mem_sdiff.mp hw).1)
  counted_resident := by
    intro i w hw
    obtain ⟨e, he, hwe⟩ := h.counted_resident i w (Finset.mem_sdiff.mp hw).1
    exact ⟨e, (hmem e).mpr (.inr he), hwe⟩
  counted_lt i w hw := h.counted_lt i w (Finset.mem_sdiff.mp hw).1
  waits_of_counted := by
    intro i w hw hwaits
    obtain ⟨hw, hnew⟩ := Finset.mem_sdiff.mp hw
    rw [if_neg hnew] at hwaits ⊢
    obtain ⟨hwaiting, hlast⟩ := h.waits_of_counted i w hw hwaits
    exact ⟨Finset.mem_sdiff.mpr ⟨hwaiting, hnew⟩, hlast⟩
  counted_of_waits := by
    intro w hw hwaits
    obtain ⟨hw, hnew⟩ := Finset.mem_sdiff.mp hw
    rw [if_neg hnew] at hwaits
    obtain ⟨i, hi⟩ := h.counted_of_waits w hw hwaits
    exact ⟨i, Finset.mem_sdiff.mpr ⟨hi, hnew⟩⟩

/-- A CTA moves out of whose warps none is active and none is counted. -/
theorem remove (h : Sound cfg b reached) (he : (ctaId, warps) ∈ b.ctaToWarps)
    (hactive : Disjoint warps b.warpActive) (hcounted : ∀ i, Disjoint warps (b.barIdToWarps i)) :
    Sound cfg { b with ctaToWarps := b.ctaToWarps.filter fun e => e.1 != ctaId } reached := by
  have hmem : ∀ e, e ∈ b.ctaToWarps.filter (fun e => e.1 != ctaId) ↔
      e ∈ b.ctaToWarps ∧ e.1 ≠ ctaId := by
    intro e
    rw [List.mem_filter, bne_iff_ne]
  have hresident : ∀ w, w ∉ warps → (∃ e ∈ b.ctaToWarps, w ∈ e.2) →
      ∃ e ∈ b.ctaToWarps.filter (fun e => e.1 != ctaId), w ∈ e.2 := by
    rintro w hout ⟨e, hmem', hw⟩
    refine ⟨e, (hmem e).mpr ⟨hmem', ?_⟩, hw⟩
    intro heq
    obtain rfl : e = (ctaId, warps) := List.inj_on_of_nodup_map h.slots hmem' he heq
    exact hout hw
  exact {
    slots := h.slots.sublist (List.filter_sublist.map _)
    slot_lt := fun e he' => h.slot_lt e ((hmem e).mp he').1
    apart := fun e he' e' he'' => h.apart e ((hmem e).mp he').1 e' ((hmem e').mp he'').1
    active_resident := fun w hw =>
      hresident w (Finset.disjoint_right.mp hactive hw) (h.active_resident w hw)
    waiting_active := h.waiting_active
    counted_resident := fun i w hw =>
      hresident w (Finset.disjoint_right.mp (hcounted i) hw) (h.counted_resident i w hw)
    counted_lt := h.counted_lt
    waits_of_counted := h.waits_of_counted
    counted_of_waits := h.counted_of_waits }

end Sound
end BarrierSet
end WaspSim
