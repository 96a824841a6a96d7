import WaspSim.Barrier.Group

/-!
# Runs of the barriers

All active warps of a CTA with full barriers have gone past the same ones. No completed barrier
is left unreleased, so a CTA is stuck only when two of its warps wait at different barriers, and
then it is stuck for ever.
-/

namespace WaspSim

namespace BarrierSet

variable {cfg : BarrierConfig} {b : BarrierSet} {reached : Nat → List SchedInst}
  {warps others : Finset Nat} {v w i j n : Nat}

/-- A release leaves no warp of the CTA counted. -/
theorem inter_releaseCta_self : warps ∩ (b.releaseCta i warps).barIdToWarps i = ∅ := by
  ext w
  simp only [Finset.mem_inter, mem_releaseCta_barIdToWarps, true_implies, Finset.notMem_empty,
    iff_false]
  tauto

theorem releaseCta_barIdToWarps_of_ne (hne : j ≠ i) :
    (b.releaseCta i warps).barIdToWarps j = b.barIdToWarps j := by
  ext w
  simp only [mem_releaseCta_barIdToWarps, hne, false_implies, and_true]

/-- A release leaves the warps of another CTA counted. -/
theorem inter_releaseCta_other (hapart : Disjoint warps others) :
    warps ∩ (b.releaseCta i others).barIdToWarps j = warps ∩ b.barIdToWarps j := by
  ext w
  simp only [Finset.mem_inter, mem_releaseCta_barIdToWarps]
  have hout : w ∈ warps → w ∉ others := fun hw => Finset.disjoint_left.mp hapart hw
  tauto

/-- No barrier is left that all active warps of a CTA have reached. -/
def Prompt (b : BarrierSet) (warps : Finset Nat) : Prop :=
  (warps ∩ b.warpActive).Nonempty → ∀ i, warps ∩ b.barIdToWarps i ≠ warps ∩ b.warpActive

theorem Prompt.congr {b' : BarrierSet} (h : b.Prompt warps)
    (hactive : warps ∩ b'.warpActive = warps ∩ b.warpActive)
    (hcounted : ∀ i, warps ∩ b'.barIdToWarps i = warps ∩ b.barIdToWarps i) : b'.Prompt warps := by
  intro hsome i
  rw [hactive] at hsome ⊢
  rw [hcounted i]
  exact h hsome i

/-- Nothing is left after the releases of `warp_exit`. -/
theorem releaseAll_prompt (hactive : (warps ∩ b.warpActive).Nonempty) (hi : i < n) :
    warps ∩ (releaseAll n warps b).barIdToWarps i ≠ warps ∩ b.warpActive := by
  induction n with
  | zero => exact absurd hi (Nat.not_lt_zero i)
  | succ n ih =>
    rw [releaseAll_succ, releaseAll_warpActive]
    by_cases hall : warps ∩ (releaseAll n warps b).barIdToWarps n = warps ∩ b.warpActive
    · rw [if_pos hall]
      by_cases heq : i = n
      · rw [heq, inter_releaseCta_self]
        exact hactive.ne_empty.symm
      · rw [releaseCta_barIdToWarps_of_ne heq]
        exact ih (by omega)
    · rw [if_neg hall]
      by_cases heq : i = n
      · rwa [heq]
      · exact ih (by omega)

theorem inter_releaseAll_other (n : Nat) (hapart : Disjoint warps others) (j : Nat) :
    warps ∩ (releaseAll n others b).barIdToWarps j = warps ∩ b.barIdToWarps j :=
  releaseAll_induction (P := fun b' => warps ∩ b'.barIdToWarps j = warps ∩ b.barIdToWarps j) n
    others rfl fun _ _ _ hb _ => (inter_releaseCta_other hapart).trans hb

end BarrierSet

namespace BarrierHistory

open Relation

variable {cfg : BarrierConfig} {h h' : BarrierHistory} {a : BarrierAction} {e : Nat × Finset Nat}
  {v w i j : Nat}

/-- Only its allocation adds a CTA, and only its deallocation removes it. -/
theorem mem_ctaToWarps_step (hsound : h.Sound cfg h.reached) (hperm : h.Permitted cfg a)
    (hstep : h.step cfg a = .ok h') :
    e ∈ h'.ctaToWarps ↔ (e ∈ h.ctaToWarps ∧ a ≠ .deallocate e.1) ∨ a = .allocate e.1 e.2 := by
  cases a with
  | allocate ctaId warps =>
    have hmem := ((allocate_meets hsound hperm).of_ok hstep).2.2.1 e
    rw [hmem, Prod.ext_iff, eq_comm, @eq_comm _ e.2]
    simp only [ne_eq, reduceCtorEq, not_false_eq_true, and_true, BarrierAction.allocate.injEq,
      or_comm]
  | reach ctaId w inst =>
    obtain ⟨⟨e', he', rfl, hw⟩, _⟩ := hperm
    have hkept : h'.ctaToWarps = h.ctaToWarps := by
      obtain ⟨_, ⟨_, hset⟩ | ⟨_, hset⟩⟩ := (reach_meets hsound he' hw).of_ok hstep
      · rw [hset, BarrierSet.releaseCta_ctaToWarps, BarrierSet.arriveAt_ctaToWarps]
      · rw [hset, BarrierSet.arriveAt_ctaToWarps]
    simp only [hkept, ne_eq, reduceCtorEq, not_false_eq_true, and_true, or_false]
  | exit w =>
    obtain ⟨e', he', hw⟩ := hsound.active_resident w hperm.1
    have hkept : h'.ctaToWarps = h.ctaToWarps := by
      rw [((exit_meets hsound he' hw).of_ok hstep).2, BarrierSet.releaseAll_ctaToWarps]
    simp only [hkept, ne_eq, reduceCtorEq, not_false_eq_true, and_true, or_false]
  | deallocate ctaId =>
    have hmem := ((deallocate_meets hsound hperm).of_ok hstep).2.2.1 e
    simp only [hmem, ne_eq, BarrierAction.deallocate.injEq, reduceCtorEq, or_false, eq_comm]

/-- The warps of a CTA that has just been allocated. -/
theorem group_allocate (hsound : h.Sound cfg h.reached)
    (hperm : h.Permitted cfg (.allocate e.1 e.2))
    (hstep : h.step cfg (.allocate e.1 e.2) = .ok h') : h'.group e.2 = .start (· ∈ e.2) := by
  obtain ⟨hreached, _, _, hactive, hwait, _⟩ := (allocate_meets hsound hperm).of_ok hstep
  have hfree : ∀ w ∈ e.2, w ∉ h'.warpAtBarrier := by
    intro w hw hmem
    rw [hwait] at hmem
    exact (Finset.mem_sdiff.mp hmem).2 hw
  apply Rendezvous.ext
  · funext w
    refine propext ⟨And.left, fun hw => ⟨hw, ?_⟩⟩
    rw [hactive]
    exact Finset.mem_union_right _ hw
  · funext w
    by_cases hw : w ∈ e.2
    · simp only [group, BarrierSet.group, if_pos hw, BarrierSet.waitsAt, if_neg (hfree w hw),
        Rendezvous.start]
    · simp only [group, BarrierSet.group, if_neg hw, Rendezvous.start]
  · funext w
    by_cases hw : w ∈ e.2
    · simp only [group, BarrierSet.group, if_pos hw, BarrierSet.behind, if_neg (hfree w hw),
        hreached w, List.map_nil, Rendezvous.start]
    · simp only [group, BarrierSet.group, if_neg hw, Rendezvous.start]

/-- In any run a resident CTA whose barriers are full has met as a group does. -/
theorem group_of_reaches (hrun : Reaches (step cfg) (Permitted cfg) {} h) :
    ∀ e ∈ h.ctaToWarps, (∀ w ∈ e.2, FullBarriers (h.reached w)) →
      ReflTransGen Rendezvous.Step (.start (· ∈ e.2)) (h.group e.2) := by
  induction hrun with
  | start =>
    intro e he
    cases he
  | @next m m' a hprev hperm hstep ih =>
    intro e he hfull
    have hsound := sound_of_reaches hprev
    rcases (mem_ctaToWarps_step hsound hperm hstep).mp he with ⟨hold, _⟩ | rfl
    · have hbefore := full_of_step hsound hperm hstep hold hfull
      exact (ih e hold hbefore).trans (group_step hsound hperm hstep hold hfull)
    · rw [group_allocate hsound hperm hstep]

/-- In every run the active warps of a CTA with full barriers have gone past the same barriers
in the same order, of which those of its exited warps are a prefix. -/
theorem barriers_aligned (hrun : Reaches (step cfg) (Permitted cfg) {} h) (he : e ∈ h.ctaToWarps)
    (hfull : ∀ w ∈ e.2, FullBarriers (h.reached w)) (hv : v ∈ e.2) (hw : w ∈ e.2) :
    (w ∈ h.warpActive → h.behind h.reached v <+: h.behind h.reached w) ∧
    (h.behind h.reached v <+: h.behind h.reached w ∨
      h.behind h.reached w <+: h.behind h.reached v) := by
  have haligned := (Rendezvous.aligned_start (· ∈ e.2)).steps (group_of_reaches hrun e he hfull)
  have hpassed : ∀ u ∈ e.2, (h.group e.2).passed u = h.behind h.reached u := fun u hu => if_pos hu
  rw [← hpassed v hv, ← hpassed w hw]
  exact ⟨fun hactive => haligned.passed_le v ⟨hw, hactive⟩, haligned.comparable v w⟩

/-- A warp that has exited after one barrier and one that waits at the second. -/
theorem barriers_aligned_twoWarps : ∃ h : BarrierHistory, 1 ∈ h.warpActive ∧
    (1 ∈ h.warpActive → h.behind h.reached 0 <+: h.behind h.reached 1) ∧
    (h.behind h.reached 0 <+: h.behind h.reached 1 ∨
      h.behind h.reached 1 <+: h.behind h.reached 0) := by
  obtain ⟨h, hrun, hactive, he, hfull⟩ := exists_sample
    (P := fun h => 1 ∈ h.warpActive ∧ (1, {0, 1}) ∈ h.ctaToWarps ∧
      FullBarriers (h.reached 0) ∧ FullBarriers (h.reached 1))
    [.allocate 1 {0, 1}, .reach 1 0 (sampleInst .sync 3), .reach 1 1 (sampleInst .sync 3),
      .exit 0, .reach 1 1 (sampleInst .red 4)] (by decide +kernel)
  have hfull' : ∀ w ∈ ({0, 1} : Finset Nat), FullBarriers (h.reached w) := by simpa using hfull
  exact ⟨h, hactive, barriers_aligned hrun he hfull' (by decide) (by decide)⟩

/-- A warp of a CTA with full barriers reaches one, which it completes or not. -/
theorem prompt_reach {inst : SchedInst} (hcount : inst.barCount = none) (hprompt : h.Prompt e.2)
    (hcases : (BarrierSet.Complete cfg (h.arriveAt w inst) e.2 inst ∧
        h'.toBarrierSet = (h.arriveAt w inst).releaseCta inst.barId e.2) ∨
      (¬BarrierSet.Complete cfg (h.arriveAt w inst) e.2 inst ∧
        h'.toBarrierSet = h.arriveAt w inst)) : h'.Prompt e.2 := by
  intro hsome i
  have hother : i ≠ inst.barId → (h.arriveAt w inst).barIdToWarps i = h.barIdToWarps i := by
    intro hne
    ext v
    simp only [BarrierSet.mem_arriveAt_barIdToWarps, hne, and_false, or_false]
  rcases hcases with ⟨_, hset⟩ | ⟨hcomplete, hset⟩
  · rw [hset] at hsome ⊢
    by_cases hi : i = inst.barId
    · rw [hi, BarrierSet.inter_releaseCta_self]
      exact hsome.ne_empty.symm
    · rw [BarrierSet.releaseCta_barIdToWarps_of_ne hi, hother hi]
      exact hprompt hsome i
  · rw [hset] at hsome ⊢
    by_cases hi : i = inst.barId
    · rw [BarrierSet.Complete, hcount] at hcomplete
      rwa [hi]
    · rw [hother hi]
      exact hprompt hsome i

/-- A resident CTA whose barriers are full keeps no completed barrier. -/
theorem prompt_step (hsound : h.Sound cfg h.reached) (hperm : h.Permitted cfg a)
    (hstep : h.step cfg a = .ok h') (he : e ∈ h.ctaToWarps)
    (hfull : ∀ w ∈ e.2, FullBarriers (h'.reached w)) (hprompt : h.Prompt e.2) :
    h'.Prompt e.2 := by
  cases a with
  | allocate ctaId warps =>
    obtain ⟨_, _, _, hactive, _, hcounted⟩ := (allocate_meets hsound hperm).of_ok hstep
    have hout : ∀ w ∈ e.2, w ∉ warps := fun w hw =>
      Finset.disjoint_left.mp (hperm.2 e he).2 hw
    refine hprompt.congr ?_ fun i => ?_
    · ext w
      simp only [hactive, Finset.mem_inter, Finset.mem_union]
      exact and_congr_right fun hw => or_iff_left (hout w hw)
    · ext w
      simp only [hcounted i, Finset.mem_inter, Finset.mem_sdiff]
      exact and_congr_right fun hw => and_iff_left (hout w hw)
  | reach ctaId w inst =>
    obtain ⟨⟨e', he', rfl, hw⟩, _⟩ := hperm
    obtain ⟨hreached, hcases⟩ := (reach_meets hsound he' hw).of_ok hstep
    by_cases heq : e'.1 = e.1
    · obtain rfl : e' = e := List.inj_on_of_nodup_map hsound.slots he' he heq
      have hinst := hfull w hw inst (by rw [hreached, Function.update_self]; simp)
      exact prompt_reach hinst.1 hprompt hcases
    · have hapart := hsound.apart e he e' he' (Ne.symm heq)
      have hinter : ∀ i, e.2 ∩ (h.arriveAt w inst).barIdToWarps i = e.2 ∩ h.barIdToWarps i := by
        intro i
        ext v
        simp only [Finset.mem_inter, BarrierSet.mem_arriveAt_barIdToWarps]
        refine and_congr_right fun hv => or_iff_left ?_
        rintro ⟨rfl, _⟩
        exact Finset.disjoint_left.mp hapart hv hw
      rcases hcases with ⟨_, hset⟩ | ⟨_, hset⟩
      · rw [hset]
        exact hprompt.congr rfl fun i => (BarrierSet.inter_releaseCta_other hapart).trans (hinter i)
      · rw [hset]
        exact hprompt.congr rfl hinter
  | exit w =>
    have hsound' := (sound_step hsound hperm).of_ok hstep
    obtain ⟨e', he', hw⟩ := hsound.active_resident w hperm.1
    obtain ⟨_, hset⟩ := (exit_meets hsound he' hw).of_ok hstep
    have hactive : h'.warpActive = h.warpActive.erase w := by
      rw [hset, BarrierSet.releaseAll_warpActive]
    by_cases heq : e'.1 = e.1
    · obtain rfl : e' = e := List.inj_on_of_nodup_map hsound.slots he' he heq
      intro hsome i
      by_cases hi : i < cfg.maxBarriersPerCta
      · rw [hactive] at hsome ⊢
        rw [hset]
        exact BarrierSet.releaseAll_prompt hsome hi
      · intro hall
        rw [← hall] at hsome
        obtain ⟨v, hv⟩ := hsome
        exact hi (hsound'.counted_lt i v (Finset.mem_inter.mp hv).2)
    · have hapart := hsound.apart e he e' he' (Ne.symm heq)
      refine hprompt.congr ?_ fun i => ?_
      · rw [hactive, Finset.inter_erase, Finset.erase_eq_of_notMem]
        exact fun hmem => Finset.disjoint_left.mp hapart (Finset.mem_inter.mp hmem).1 hw
      · rw [hset, BarrierSet.inter_releaseAll_other _ hapart]
  | deallocate ctaId =>
    obtain ⟨_, _, _, hactive, _, hcounted⟩ := (deallocate_meets hsound hperm).of_ok hstep
    exact hprompt.congr (by rw [hactive]) fun i => by rw [hcounted]

/-- In any run no completed barrier of a CTA with full barriers is left. -/
theorem prompt_of_reaches (hrun : Reaches (step cfg) (Permitted cfg) {} h) :
    ∀ e ∈ h.ctaToWarps, (∀ w ∈ e.2, FullBarriers (h.reached w)) → h.Prompt e.2 := by
  induction hrun with
  | start =>
    intro e he
    cases he
  | @next m m' a hprev hperm hstep ih =>
    intro e he hfull
    have hsound := sound_of_reaches hprev
    rcases (mem_ctaToWarps_step hsound hperm hstep).mp he with ⟨hold, _⟩ | rfl
    · have hbefore := full_of_step hsound hperm hstep hold hfull
      exact prompt_step hsound hperm hstep hold hfull (ih e hold hbefore)
    · intro hsome i
      obtain ⟨_, _, _, _, _, hcounted⟩ := (allocate_meets hsound hperm).of_ok hstep
      rw [hcounted i, Finset.inter_sdiff_self]
      exact hsome.ne_empty.symm

/-- The warps of a CTA go on issuing full barriers. -/
def StaysFull (cfg : BarrierConfig) (warps : Finset Nat) (h : BarrierHistory) (a : BarrierAction) :
    Prop :=
  h.Permitted cfg a ∧ ∀ ctaId w inst, a = .reach ctaId w inst → w ∈ warps →
    inst.barCount = none ∧ inst.barType ≠ .arrive

/-- A step keeps the barriers of a CTA full that goes on issuing full ones. -/
theorem full_step (hsound : h.Sound cfg h.reached) (hstays : h.StaysFull cfg e.2 a)
    (hstep : h.step cfg a = .ok h') (he : e ∈ h.ctaToWarps)
    (hfull : ∀ w ∈ e.2, FullBarriers (h.reached w)) : ∀ w ∈ e.2, FullBarriers (h'.reached w) := by
  intro w hw
  rcases reached_step hsound hstays.1 hstep he hw with hsame | ⟨ctaId, inst, hreach, hgrown⟩
  · rw [hsame]
    exact hfull w hw
  · rw [hgrown]
    intro inst' hmem
    rcases List.mem_append.mp hmem with hold | hnew
    · exact hfull w hw inst' hold
    · rw [List.mem_singleton.mp hnew]
      exact hstays.2 ctaId w inst hreach hw

/-- A warp that waits at a barrier is counted there. -/
theorem counted_of_waitsAt (hsound : h.Sound cfg h.reached) (hwaits : Waits (h.reached w))
    (hat : h.waitsAt h.reached w = some i) : w ∈ h.warpAtBarrier ∧ w ∈ h.barIdToWarps i := by
  unfold BarrierSet.waitsAt at hat
  by_cases hwait : w ∈ h.warpAtBarrier
  · obtain ⟨j, hj⟩ := hsound.counted_of_waits w hwait hwaits
    obtain ⟨_, hlast⟩ := hsound.waits_of_counted j w hj hwaits
    rw [if_pos hwait, List.getLast?_map, hlast] at hat
    obtain rfl : j = i := Option.some.inj hat
    exact ⟨hwait, hj⟩
  · rw [if_neg hwait] at hat
    cases hat

/-- A warp that waits does so at a barrier. -/
theorem exists_waitsAt (hsound : h.Sound cfg h.reached) (hwaits : Waits (h.reached w))
    (hwait : w ∈ h.warpAtBarrier) : ∃ i, h.waitsAt h.reached w = some i := by
  obtain ⟨i, hi⟩ := hsound.counted_of_waits w hwait hwaits
  refine ⟨i, ?_⟩
  rw [BarrierSet.waitsAt, if_pos hwait, List.getLast?_map]
  exact (hsound.waits_of_counted i w hi hwaits).2

/-- Active warps that all wait do not wait at one barrier. -/
theorem exists_apart (hrun : Reaches (step cfg) (Permitted cfg) {} h) (he : e ∈ h.ctaToWarps)
    (hfull : ∀ w ∈ e.2, FullBarriers (h.reached w)) (hv : v ∈ e.2) (hactive : v ∈ h.warpActive)
    (hall : ∀ w ∈ e.2, w ∈ h.warpActive → w ∈ h.warpAtBarrier) :
    ∃ w ∈ e.2, ∃ i j, i ≠ j ∧ h.waitsAt h.reached v = some i ∧
      h.waitsAt h.reached w = some j := by
  have hsound := sound_of_reaches hrun
  obtain ⟨i, hi⟩ := exists_waitsAt hsound (hfull v hv).waits (hall v hv hactive)
  by_contra hnone
  -- every active warp is counted where `v` waits, which completes that barrier
  have hcounted : ∀ w ∈ e.2, w ∈ h.warpActive → w ∈ h.barIdToWarps i := by
    intro w hw hwactive
    obtain ⟨j, hj⟩ := exists_waitsAt hsound (hfull w hw).waits (hall w hw hwactive)
    have heq : i = j := by
      by_contra hne
      exact hnone ⟨w, hw, i, j, hne, hi, hj⟩
    rw [heq]
    exact (counted_of_waitsAt hsound (hfull w hw).waits hj).2
  have hprompt := prompt_of_reaches hrun e he hfull ⟨v, Finset.mem_inter.mpr ⟨hv, hactive⟩⟩ i
  apply hprompt
  ext w
  simp only [Finset.mem_inter]
  refine and_congr_right fun hw => ⟨fun hmem => ?_, hcounted w hw⟩
  exact hsound.waiting_active w (hsound.waits_of_counted i w hmem (hfull w hw).waits).1

/-- Warps of a CTA that wait at different barriers wait there for ever. -/
theorem stuck_of_apart (hrun : Reaches (step cfg) (Permitted cfg) {} h) (he : e ∈ h.ctaToWarps)
    (hfull : ∀ w ∈ e.2, FullBarriers (h.reached w)) (hv : v ∈ e.2) (hw : w ∈ e.2) (hne : i ≠ j)
    (hi : h.waitsAt h.reached v = some i) (hj : h.waitsAt h.reached w = some j)
    (hlater : Reaches (step cfg) (StaysFull cfg e.2) h h') :
    e ∈ h'.ctaToWarps ∧ h'.waitsAt h'.reached v = some i ∧
      h'.waitsAt h'.reached w = some j := by
  have hplace : ∀ (s : BarrierHistory), ∀ u ∈ e.2,
      (s.group e.2).place u = s.waitsAt s.reached u := fun s u hu => if_pos hu
  have haligned := (Rendezvous.aligned_start (· ∈ e.2)).steps (group_of_reaches hrun e he hfull)
  have hstuck : h'.Sound cfg h'.reached ∧ e ∈ h'.ctaToWarps ∧
      (∀ u ∈ e.2, FullBarriers (h'.reached u)) ∧
      ReflTransGen Rendezvous.Step (h.group e.2) (h'.group e.2) := by
    refine hlater.invariant (fun s => s.Sound cfg s.reached ∧ e ∈ s.ctaToWarps ∧
      (∀ u ∈ e.2, FullBarriers (s.reached u)) ∧
      ReflTransGen Rendezvous.Step (h.group e.2) (s.group e.2))
      ⟨sound_of_reaches hrun, he, hfull, .refl⟩ ?_
    rintro s a s' ⟨hsound, hs, hsfull, hsteps⟩ ⟨hperm, hfullstep⟩ hstep
    -- the waiting warps are active, so the CTA is not deallocated
    have hwaits := (Rendezvous.stuck_steps haligned hne ((hplace h v hv).trans hi)
      ((hplace h w hw).trans hj) hsteps).1
    have hactive := ((haligned.steps hsteps).present_of_place v i hwaits).2
    have hstay : a ≠ .deallocate e.1 := by
      rintro rfl
      exact Finset.disjoint_left.mp (hperm e hs rfl) hv hactive
    have hfull' := full_step hsound ⟨hperm, hfullstep⟩ hstep hs hsfull
    exact ⟨(sound_step hsound hperm).of_ok hstep,
      (mem_ctaToWarps_step hsound hperm hstep).mpr (.inl ⟨hs, hstay⟩), hfull',
      hsteps.trans (group_step hsound hperm hstep hs hfull')⟩
  obtain ⟨_, hresident, _, hsteps⟩ := hstuck
  have hstay := Rendezvous.stuck_steps haligned hne ((hplace h v hv).trans hi)
    ((hplace h w hw).trans hj) hsteps
  rw [hplace h' v hv, hplace h' w hw] at hstay
  exact ⟨hresident, hstay⟩

/-- A CTA with full barriers is stuck exactly when two of its warps wait at different barriers:
when all its active warps wait, two of them are apart, and two that are apart wait for ever. -/
theorem barrier_deadlock (hrun : Reaches (step cfg) (Permitted cfg) {} h) (he : e ∈ h.ctaToWarps)
    (hfull : ∀ w ∈ e.2, FullBarriers (h.reached w)) (hv : v ∈ e.2) (hactive : v ∈ h.warpActive) :
    ((∀ w ∈ e.2, w ∈ h.warpActive → w ∈ h.warpAtBarrier) →
      ∃ w ∈ e.2, ∃ i j, i ≠ j ∧ h.waitsAt h.reached v = some i ∧
        h.waitsAt h.reached w = some j) ∧
    ∀ w ∈ e.2, ∀ i j, i ≠ j → h.waitsAt h.reached v = some i → h.waitsAt h.reached w = some j →
      ∀ h', Reaches (step cfg) (StaysFull cfg e.2) h h' →
        e ∈ h'.ctaToWarps ∧ h'.waitsAt h'.reached v = some i ∧
          h'.waitsAt h'.reached w = some j :=
  ⟨exists_apart hrun he hfull hv hactive, fun _ hw _ _ hne hi hj _ hlater =>
    stuck_of_apart hrun he hfull hv hw hne hi hj hlater⟩

/-- Two warps at different barriers. -/
theorem barrier_deadlock_twoWarps : ∃ h : BarrierHistory,
    ∀ h', Reaches (step sampleConfig) (StaysFull sampleConfig {0, 1}) h h' →
      (1, {0, 1}) ∈ h'.ctaToWarps ∧ h'.waitsAt h'.reached 0 = some 3 ∧
        h'.waitsAt h'.reached 1 = some 4 := by
  obtain ⟨h, hrun, ⟨he, hfull⟩, hactive, hi, hj⟩ := exists_sample
    (P := fun h => ((1, {0, 1}) ∈ h.ctaToWarps ∧
        FullBarriers (h.reached 0) ∧ FullBarriers (h.reached 1)) ∧
      0 ∈ h.warpActive ∧ h.waitsAt h.reached 0 = some 3 ∧ h.waitsAt h.reached 1 = some 4)
    [.allocate 1 {0, 1}, .reach 1 0 (sampleInst .sync 3), .reach 1 1 (sampleInst .sync 4)]
    (by decide +kernel)
  have hfull' : ∀ w ∈ ({0, 1} : Finset Nat), FullBarriers (h.reached w) := by simpa using hfull
  exact ⟨h, (barrier_deadlock hrun he hfull' (by decide) hactive).2 1 (by decide) 3 4 (by decide)
    hi hj⟩

end BarrierHistory
end WaspSim
