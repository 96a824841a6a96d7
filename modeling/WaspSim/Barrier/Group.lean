import WaspSim.Barrier.Step
import WaspSim.Core.Rendezvous

/-!
# The warps of a CTA as a group that meets

When all warps of a CTA take part in its barriers, reaching a barrier is coming to a place,
exiting is leaving, and a release is going on together. Warps of other CTAs do not matter.
-/

namespace WaspSim

/-- Barriers of all warps, at which each of them waits. -/
def FullBarriers (insts : List SchedInst) : Prop :=
  ∀ inst ∈ insts, inst.barCount = none ∧ inst.barType ≠ .arrive

instance (insts : List SchedInst) : Decidable (FullBarriers insts) :=
  inferInstanceAs (Decidable (∀ inst ∈ insts, _))

/-- At full barriers a warp always waits. -/
theorem FullBarriers.waits {insts : List SchedInst} (h : FullBarriers insts) : Waits insts :=
  fun inst hinst => (h inst hinst).2

namespace BarrierSet

variable {cfg : BarrierConfig} {b : BarrierSet} {reached : Nat → List SchedInst}
  {warps others : Finset Nat} {v w i : Nat} {inst : SchedInst}

/-- Where a warp waits. -/
def waitsAt (b : BarrierSet) (reached : Nat → List SchedInst) (w : Nat) : Option Nat :=
  if w ∈ b.warpAtBarrier then ((reached w).map SchedInst.barId).getLast? else none

/-- The barriers that a warp has gone past. -/
def behind (b : BarrierSet) (reached : Nat → List SchedInst) (w : Nat) : List Nat :=
  if w ∈ b.warpAtBarrier then ((reached w).map SchedInst.barId).dropLast
  else (reached w).map SchedInst.barId

/-- The group of the warps of a CTA. -/
def group (b : BarrierSet) (reached : Nat → List SchedInst) (warps : Finset Nat) :
    Rendezvous Nat Nat where
  present w := w ∈ warps ∧ w ∈ b.warpActive
  place w := if w ∈ warps then b.waitsAt reached w else none
  passed w := if w ∈ warps then b.behind reached w else []

/-- Nothing changes for a CTA when its warps are active, wait and have reached as before. -/
theorem group_congr {b' : BarrierSet} {reached' : Nat → List SchedInst}
    (hactive : ∀ w ∈ warps, (w ∈ b'.warpActive ↔ w ∈ b.warpActive))
    (hwait : ∀ w ∈ warps, (w ∈ b'.warpAtBarrier ↔ w ∈ b.warpAtBarrier))
    (hreached : ∀ w ∈ warps, reached' w = reached w) :
    b'.group reached' warps = b.group reached warps := by
  apply Rendezvous.ext
  · funext w
    exact propext (and_congr_right (hactive w))
  · funext w
    by_cases hw : w ∈ warps
    · simp only [group, if_pos hw, waitsAt, hwait w hw, hreached w hw]
    · simp only [group, if_neg hw]
  · funext w
    by_cases hw : w ∈ warps
    · simp only [group, if_pos hw, behind, hwait w hw, hreached w hw]
    · simp only [group, if_neg hw]

/-- A release of another CTA does not matter. -/
theorem group_releaseCta_other (hapart : Disjoint warps others) :
    (b.releaseCta i others).group reached warps = b.group reached warps := by
  refine group_congr (fun _ _ => Iff.rfl) (fun w hw => ?_) fun _ _ => rfl
  have hout := Finset.disjoint_left.mp hapart hw
  simp only [mem_releaseCta_warpAtBarrier, hout, false_and, not_false_eq_true, and_true]

/-- When the warps that a barrier counts are the active ones, their release is going on. -/
theorem group_releaseCta (h : Sound cfg b reached) (hwaits : ∀ w ∈ warps, Waits (reached w))
    (hall : warps ∩ b.barIdToWarps i = warps ∩ b.warpActive) :
    (b.group reached warps).Step ((b.releaseCta i warps).group reached warps) := by
  have hcounted : ∀ w ∈ warps, w ∈ b.warpActive → w ∈ b.barIdToWarps i := by
    intro w hw hactive
    have hmem : w ∈ warps ∩ b.warpActive := Finset.mem_inter.mpr ⟨hw, hactive⟩
    rw [← hall] at hmem
    exact (Finset.mem_inter.mp hmem).2
  have hfree : ∀ w ∈ warps, w ∉ (b.releaseCta i warps).warpAtBarrier := by
    intro w hw hstill
    obtain ⟨hwait, hnot⟩ := mem_releaseCta_warpAtBarrier.mp hstill
    exact hnot ⟨hw, hcounted w hw (h.waiting_active w hwait)⟩
  refine .goOn _ i ?_ rfl ?_ ?_ ?_
  · rintro w ⟨hw, hactive⟩
    obtain ⟨hwait, hlast⟩ := h.waits_of_counted i w (hcounted w hw hactive) (hwaits w hw)
    simp only [group, if_pos hw, waitsAt, if_pos hwait, List.getLast?_map]
    exact hlast
  · intro w
    by_cases hw : w ∈ warps
    · simp only [group, if_pos hw, waitsAt, if_neg (hfree w hw)]
    · simp only [group, if_neg hw]
  · rintro w ⟨hw, hactive⟩
    obtain ⟨hwait, hlast⟩ := h.waits_of_counted i w (hcounted w hw hactive) (hwaits w hw)
    simp only [group, if_pos hw, behind, if_pos hwait, if_neg (hfree w hw)]
    refine (List.dropLast_append_getLast? i ?_).symm
    rw [List.getLast?_map]
    exact hlast
  · intro w hout
    by_cases hw : w ∈ warps
    · have hwait : w ∉ b.warpAtBarrier := fun hwait => hout ⟨hw, h.waiting_active w hwait⟩
      simp only [group, if_pos hw, behind, if_neg hwait, if_neg (hfree w hw)]
    · simp only [group, if_neg hw]

/-- A warp of another CTA reaches a barrier. -/
theorem group_arriveAt_other (reached : Nat → List SchedInst) (inst : SchedInst)
    (hout : w ∉ warps) :
    (b.arriveAt w inst).group (Function.update reached w (reached w ++ [inst])) warps =
      b.group reached warps := by
  have hne : ∀ v ∈ warps, v ≠ w := by
    rintro v hv rfl
    exact hout hv
  refine group_congr (fun _ _ => Iff.rfl) (fun v hv => ?_)
    fun v hv => Function.update_of_ne (hne v hv) _ _
  simp only [mem_arriveAt_warpAtBarrier, hne v hv, false_and, or_false]

/-- A warp reaches a barrier where it waits. -/
theorem group_arriveAt (reached : Nat → List SchedInst) (hw : w ∈ warps)
    (hactive : w ∈ b.warpActive) (hfree : w ∉ b.warpAtBarrier)
    (htype : inst.barType = .sync ∨ inst.barType = .red) :
    (b.group reached warps).Step
      ((b.arriveAt w inst).group (Function.update reached w (reached w ++ [inst])) warps) := by
  have hwait : ∀ v, v ≠ w → (v ∈ (b.arriveAt w inst).warpAtBarrier ↔ v ∈ b.warpAtBarrier) := by
    intro v hv
    simp only [mem_arriveAt_warpAtBarrier, hv, false_and, or_false]
  have hself : w ∈ (b.arriveAt w inst).warpAtBarrier :=
    mem_arriveAt_warpAtBarrier.mpr (.inr ⟨rfl, htype⟩)
  have heq : (b.arriveAt w inst).group (Function.update reached w (reached w ++ [inst])) warps =
      { b.group reached warps with
        place := Function.update (b.group reached warps).place w (some inst.barId) } := by
    apply Rendezvous.ext
    · rfl
    · funext v
      by_cases hv : v = w
      · subst hv
        simp only [group, if_pos hw, waitsAt, if_pos hself, Function.update_self, List.map_append,
          List.map_cons, List.map_nil, List.getLast?_append, List.getLast?_singleton,
          Option.some_or]
      · simp only [group, waitsAt, hwait v hv, Function.update_of_ne hv]
    · funext v
      by_cases hv : v = w
      · subst hv
        simp only [group, if_pos hw, behind, if_pos hself, if_neg hfree, Function.update_self,
          List.map_append, List.map_cons, List.map_nil, List.dropLast_concat]
      · simp only [group, behind, hwait v hv, Function.update_of_ne hv]
  rw [heq]
  refine .come w inst.barId ⟨hw, hactive⟩ ?_
  simp only [group, if_pos hw, waitsAt, if_neg hfree]

/-- A warp that does not wait leaves. -/
theorem group_erase (hw : w ∈ warps) (hactive : w ∈ b.warpActive) (hfree : w ∉ b.warpAtBarrier) :
    (b.group reached warps).Step
      (group { b with warpActive := b.warpActive.erase w } reached warps) := by
  have heq : group { b with warpActive := b.warpActive.erase w } reached warps =
      { b.group reached warps with
        present := fun v => (b.group reached warps).present v ∧ v ≠ w } := by
    apply Rendezvous.ext
    · funext v
      simp only [group, Finset.mem_erase, eq_iff_iff]
      tauto
    · rfl
    · rfl
  rw [heq]
  refine .leave w ⟨hw, hactive⟩ ?_
  simp only [group, if_pos hw, waitsAt, if_neg hfree]

/-- A warp of another CTA exits. -/
theorem group_erase_other (hout : w ∉ warps) :
    group { b with warpActive := b.warpActive.erase w } reached warps = b.group reached warps := by
  refine group_congr (fun v hv => ?_) (fun _ _ => Iff.rfl) fun _ _ => rfl
  have hne : v ≠ w := by
    rintro rfl
    exact hout hv
  simp only [Finset.mem_erase, hne, ne_eq, not_false_eq_true, true_and]

/-- The releases when a warp has exited. -/
theorem group_releaseAll (h : Sound cfg b reached) (n : Nat)
    (hwaits : ∀ w ∈ warps, Waits (reached w)) :
    Relation.ReflTransGen Rendezvous.Step (b.group reached warps)
      ((releaseAll n warps b).group reached warps) := by
  have hall := releaseAll_induction
    (P := fun b' => Sound cfg b' reached ∧ Relation.ReflTransGen Rendezvous.Step
      (b.group reached warps) (b'.group reached warps)) n warps ⟨h, .refl⟩ ?_
  · exact hall.2
  · rintro b' i _ ⟨hsound, hsteps⟩ heq
    exact ⟨hsound.releaseCta i warps, hsteps.tail (group_releaseCta hsound hwaits heq)⟩

/-- The releases of one CTA leave the group of another as it is. -/
theorem group_releaseAll_other (n : Nat) (hapart : Disjoint warps others) :
    (releaseAll n others b).group reached warps = b.group reached warps :=
  releaseAll_induction (P := fun b' => b'.group reached warps = b.group reached warps) n others rfl
    fun _ _ _ hb _ => (group_releaseCta_other hapart).trans hb

end BarrierSet

namespace BarrierHistory

open Relation

variable {cfg : BarrierConfig} {h h' : BarrierHistory} {a : BarrierAction} {e : Nat × Finset Nat}
  {w : Nat}

/-- The group of the warps of a CTA. -/
def group (h : BarrierHistory) (warps : Finset Nat) : Rendezvous Nat Nat :=
  h.toBarrierSet.group h.reached warps

/-- What a warp of a resident CTA has reached grows by what it reaches in a step. -/
theorem reached_step (hsound : h.Sound cfg h.reached) (hperm : h.Permitted cfg a)
    (hstep : h.step cfg a = .ok h') (he : e ∈ h.ctaToWarps) (hw : w ∈ e.2) :
    h'.reached w = h.reached w ∨
      ∃ ctaId inst, a = .reach ctaId w inst ∧ h'.reached w = h.reached w ++ [inst] := by
  cases a with
  | allocate ctaId warps =>
    rw [((allocate_meets hsound hperm).of_ok hstep).1 w,
      if_neg (Finset.disjoint_left.mp (hperm.2 e he).2 hw)]
    exact .inl rfl
  | reach ctaId v inst =>
    obtain ⟨⟨e', he', rfl, hv⟩, _⟩ := hperm
    rw [((reach_meets hsound he' hv).of_ok hstep).1]
    by_cases heq : w = v
    · subst heq
      exact .inr ⟨e'.1, inst, rfl, Function.update_self ..⟩
    · exact .inl (Function.update_of_ne heq _ _)
  | exit v =>
    obtain ⟨e', he', hv⟩ := hsound.active_resident v hperm.1
    rw [((exit_meets hsound he' hv).of_ok hstep).1]
    exact .inl rfl
  | deallocate ctaId =>
    rw [((deallocate_meets hsound hperm).of_ok hstep).1]
    exact .inl rfl

/-- A resident CTA whose barriers are full after a step had full barriers before. -/
theorem full_of_step (hsound : h.Sound cfg h.reached) (hperm : h.Permitted cfg a)
    (hstep : h.step cfg a = .ok h') (he : e ∈ h.ctaToWarps)
    (hfull : ∀ w ∈ e.2, FullBarriers (h'.reached w)) : ∀ w ∈ e.2, FullBarriers (h.reached w) := by
  intro w hw inst hinst
  apply hfull w hw inst
  rcases reached_step hsound hperm hstep he hw with hsame | ⟨_, _, _, hgrown⟩
  · rwa [hsame]
  · rw [hgrown]
    exact List.mem_append_left _ hinst

/-- A resident CTA whose barriers are full meets in every step as a group does. -/
theorem group_step (hsound : h.Sound cfg h.reached) (hperm : h.Permitted cfg a)
    (hstep : h.step cfg a = .ok h') (he : e ∈ h.ctaToWarps)
    (hfull : ∀ w ∈ e.2, FullBarriers (h'.reached w)) :
    ReflTransGen Rendezvous.Step (h.group e.2) (h'.group e.2) := by
  have hwaits : ∀ w ∈ e.2, Waits (h'.reached w) := fun w hw => (hfull w hw).waits
  cases a with
  | allocate ctaId warps =>
    obtain ⟨hreached, _, _, hactive, hwait, _⟩ := (allocate_meets hsound hperm).of_ok hstep
    have hout : ∀ w ∈ e.2, w ∉ warps := fun w hw =>
      Finset.disjoint_left.mp (hperm.2 e he).2 hw
    have heq : h'.group e.2 = h.group e.2 := by
      refine BarrierSet.group_congr (fun w hw => ?_) (fun w hw => ?_) fun w hw => ?_
      · rw [hactive, Finset.mem_union, or_iff_left (hout w hw)]
      · rw [hwait, Finset.mem_sdiff, and_iff_left (hout w hw)]
      · rw [hreached w, if_neg (hout w hw)]
    rw [heq]
  | reach ctaId w inst =>
    obtain ⟨⟨e', he', rfl, hw⟩, hactive, hfree, hbar, hlt⟩ := hperm
    have hat := hsound.arriveAt he' hw hactive hfree hbar hlt
    obtain ⟨hreached, hcases⟩ := (reach_meets hsound he' hw).of_ok hstep
    by_cases heq : e'.1 = e.1
    · obtain rfl : e' = e := List.inj_on_of_nodup_map hsound.slots he' he heq
      rw [hreached] at hwaits hfull
      have hinst := hfull w hw inst (by rw [Function.update_self]; simp)
      have htype : inst.barType = .sync ∨ inst.barType = .red := by
        cases htype : inst.barType with
        | notBar => exact absurd htype hbar
        | sync => exact .inl rfl
        | arrive => exact absurd htype hinst.2
        | red => exact .inr rfl
      have hcome := BarrierSet.group_arriveAt h.reached hw hactive hfree htype
      rw [group, group, hreached]
      rcases hcases with ⟨hcomplete, hset⟩ | ⟨_, hset⟩
      · rw [BarrierSet.Complete, hinst.1] at hcomplete
        rw [hset]
        exact (ReflTransGen.single hcome).tail (BarrierSet.group_releaseCta hat hwaits hcomplete)
      · rw [hset]
        exact .single hcome
    · have hapart := hsound.apart e he e' he' (Ne.symm heq)
      have hother : h'.group e.2 = h.group e.2 := by
        have hcome := BarrierSet.group_arriveAt_other (b := h.toBarrierSet) h.reached inst
          (Finset.disjoint_right.mp hapart hw)
        rw [group, group, hreached]
        rcases hcases with ⟨_, hset⟩ | ⟨_, hset⟩
        · rw [hset, BarrierSet.group_releaseCta_other hapart, hcome]
        · rw [hset, hcome]
      rw [hother]
  | exit w =>
    obtain ⟨e', he', hw⟩ := hsound.active_resident w hperm.1
    obtain ⟨hreached, hset⟩ := (exit_meets hsound he' hw).of_ok hstep
    rw [group, group, hset, hreached]
    rw [hreached] at hwaits
    by_cases heq : e'.1 = e.1
    · obtain rfl : e' = e := List.inj_on_of_nodup_map hsound.slots he' he heq
      exact .head (BarrierSet.group_erase hw hperm.1 hperm.2)
        (BarrierSet.group_releaseAll (hsound.erase hperm.2) _ hwaits)
    · have hapart := hsound.apart e he e' he' (Ne.symm heq)
      rw [BarrierSet.group_releaseAll_other _ hapart,
        BarrierSet.group_erase_other (Finset.disjoint_right.mp hapart hw)]
  | deallocate ctaId =>
    obtain ⟨hreached, _, _, hactive, hwait, _⟩ := (deallocate_meets hsound hperm).of_ok hstep
    have heq : h'.group e.2 = h.group e.2 := by
      refine BarrierSet.group_congr (fun w _ => ?_) (fun w _ => ?_) fun w _ => ?_
      · rw [hactive]
      · rw [hwait]
      · rw [hreached]
    rw [heq]

end BarrierHistory
end WaspSim
