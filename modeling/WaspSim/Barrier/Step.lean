import WaspSim.Barrier.Invariant

/-!
# Steps of the barriers

What each action does to the barriers of a core: a warp that reaches its barrier completes it or
is counted, a warp that exits may complete any, and slots are filled and emptied. The only
assertion that can fail is that a warp of an ended CTA is still counted after `bar.arrive`.
-/

namespace WaspSim
namespace BarrierSet

variable {cfg : BarrierConfig} {b b' : BarrierSet} {reached : Nat → List SchedInst}
  {warps : Finset Nat} {w ctaId : Nat} {inst : SchedInst}

/-- A warp that reaches a barrier completes it and all are released, or it is counted. -/
theorem warpReachesBarrier_meets (inst : SchedInst) (h : Sound cfg b reached)
    (he : (ctaId, warps) ∈ b.ctaToWarps) (hw : w ∈ warps) :
    Meets (b.warpReachesBarrier cfg.warpSize ctaId w inst) fun r =>
      (Complete cfg (b.arriveAt w inst) warps inst ∧
        r.1 = (b.arriveAt w inst).releaseCta inst.barId warps) ∨
      (¬Complete cfg (b.arriveAt w inst) warps inst ∧ r.1 = b.arriveAt w inst) := by
  have harrive : (if inst.barType = .sync ∨ inst.barType = .red then
      { b with
        barIdToWarps := Function.update b.barIdToWarps inst.barId
          (insert w (b.barIdToWarps inst.barId))
        warpAtBarrier := insert w b.warpAtBarrier }
      else { b with
        barIdToWarps := Function.update b.barIdToWarps inst.barId
          (insert w (b.barIdToWarps inst.barId)) }) = b.arriveAt w inst := by
    by_cases hwait : inst.barType = .sync ∨ inst.barType = .red
    · rw [if_pos hwait, BarrierSet.arriveAt, if_pos hwait]
    · rw [if_neg hwait, BarrierSet.arriveAt, if_neg hwait]
  unfold warpReachesBarrier
  refine Meets.fetch (h.find_slot he) (Meets.require hw (Meets.pure ?_))
  dsimp only
  rw [harrive]
  cases hcount : inst.barCount with
  | none =>
    by_cases hall : warps ∩ (b.arriveAt w inst).barIdToWarps inst.barId =
        warps ∩ (b.arriveAt w inst).warpActive
    · refine .inl ⟨by rw [Complete, hcount]; exact hall, ?_⟩
      rw [if_pos (decide_eq_true hall)]
      rfl
    · refine .inr ⟨by rw [Complete, hcount]; exact hall, ?_⟩
      rw [if_neg fun hdec => hall (of_decide_eq_true hdec)]
  | some count =>
    by_cases hall : (warps ∩ (b.arriveAt w inst).barIdToWarps inst.barId).card * cfg.warpSize =
        count
    · refine .inl ⟨by rw [Complete, hcount]; exact hall, ?_⟩
      rw [if_pos (beq_iff_eq.mpr hall)]
      rfl
    · refine .inr ⟨by rw [Complete, hcount]; exact hall, ?_⟩
      rw [if_neg fun hdec => hall (beq_iff_eq.mp hdec)]

/-- `warp_exit` releases its CTA from each barrier that only the active warps have reached. -/
def releaseAll (n : Nat) (warps : Finset Nat) (b : BarrierSet) : BarrierSet :=
  (List.range n).foldl (fun b i =>
    if warps ∩ b.barIdToWarps i = warps ∩ b.warpActive then b.releaseCta i warps else b) b

/-- The releases one after another. -/
theorem releaseAll_succ (n : Nat) (warps : Finset Nat) (b : BarrierSet) :
    releaseAll (n + 1) warps b =
      if warps ∩ (releaseAll n warps b).barIdToWarps n = warps ∩ (releaseAll n warps b).warpActive
      then (releaseAll n warps b).releaseCta n warps else releaseAll n warps b := by
  rw [releaseAll, List.range_succ, List.foldl_append]
  rfl

/-- Releases keep what each of them keeps. -/
theorem releaseAll_induction {P : BarrierSet → Prop} (n : Nat) (warps : Finset Nat) (hb : P b)
    (hstep : ∀ b i, i < n → P b → warps ∩ b.barIdToWarps i = warps ∩ b.warpActive →
      P (b.releaseCta i warps)) : P (releaseAll n warps b) := by
  induction n with
  | zero => exact hb
  | succ n ih =>
    have hn := ih fun b i hi => hstep b i (Nat.lt_succ_of_lt hi)
    rw [releaseAll_succ]
    by_cases hall : warps ∩ (releaseAll n warps b).barIdToWarps n =
        warps ∩ (releaseAll n warps b).warpActive
    · rw [if_pos hall]
      exact hstep _ n (Nat.lt_succ_self n) hn hall
    · rw [if_neg hall]
      exact hn

theorem releaseAll_ctaToWarps (n : Nat) (warps : Finset Nat) (b : BarrierSet) :
    (releaseAll n warps b).ctaToWarps = b.ctaToWarps :=
  releaseAll_induction (P := fun b' => b'.ctaToWarps = b.ctaToWarps) n warps rfl
    fun _ _ _ hb _ => hb

theorem releaseAll_warpActive (n : Nat) (warps : Finset Nat) (b : BarrierSet) :
    (releaseAll n warps b).warpActive = b.warpActive :=
  releaseAll_induction (P := fun b' => b'.warpActive = b.warpActive) n warps rfl
    fun _ _ _ hb _ => hb

/-- A warp that exits leaves its CTA, which may complete barriers. -/
theorem warpExit_eq (h : Sound cfg b reached) (he : (ctaId, warps) ∈ b.ctaToWarps)
    (hw : w ∈ warps) :
    b.warpExit cfg.maxBarriersPerCta w =
      .ok (releaseAll cfg.maxBarriersPerCta warps
        { b with warpActive := b.warpActive.erase w }) := by
  have hfold : ∀ n, (List.range n).foldl (fun (b' : BarrierSet) i =>
      if warps ∩ b'.barIdToWarps i = warps ∩ b.warpActive.erase w then
        b'.release i (warps ∩ b'.barIdToWarps i) else b')
        { b with warpActive := b.warpActive.erase w } =
      releaseAll n warps { b with warpActive := b.warpActive.erase w } := by
    intro n
    induction n with
    | zero => rfl
    | succ n ih =>
      rw [List.range_succ, List.foldl_append, ih, releaseAll_succ, releaseAll_warpActive]
      rfl
  unfold warpExit
  dsimp only
  rw [fetch_eq_ok.mpr (h.find_warp he hw)]
  exact congrArg Except.ok (hfold _)

/-- A CTA moves into a free slot. -/
theorem allocateBarrier_meets (h : Sound cfg b reached) (hlt : ctaId < cfg.maxCtaPerCore)
    (hfree : ∀ e ∈ b.ctaToWarps, e.1 ≠ ctaId ∧ Disjoint e.2 warps) :
    Meets (b.allocateBarrier cfg ctaId warps) fun b' =>
      Sound cfg b' (fun w => if w ∈ warps then [] else reached w) ∧
      (∀ e, e ∈ b'.ctaToWarps ↔ e = (ctaId, warps) ∨ e ∈ b.ctaToWarps) ∧
      b'.warpActive = b.warpActive ∪ warps ∧ b'.warpAtBarrier = b.warpAtBarrier \ warps ∧
      ∀ i, b'.barIdToWarps i = b.barIdToWarps i \ warps := by
  have hperm := List.perm_orderedInsert (fun e e' : Nat × Finset Nat => e.1 ≤ e'.1)
    (ctaId, warps) b.ctaToWarps
  have hmem : ∀ e, e ∈ b.ctaToWarps.orderedInsert (fun e e' => e.1 ≤ e'.1) (ctaId, warps) ↔
      e = (ctaId, warps) ∨ e ∈ b.ctaToWarps := fun e => List.mem_orderedInsert _
  have hslots : ((b.ctaToWarps.orderedInsert (fun e e' => e.1 ≤ e'.1)
      (ctaId, warps)).map Prod.fst).Nodup := by
    refine (hperm.map Prod.fst).nodup_iff.mpr (List.nodup_cons.mpr ⟨?_, h.slots⟩)
    intro hslot
    obtain ⟨e, he, heq⟩ := List.mem_map.mp hslot
    exact (hfree e he).1 heq
  have hslot_lt : ∀ e ∈ b.ctaToWarps.orderedInsert (fun e e' => e.1 ≤ e'.1) (ctaId, warps),
      e.1 < cfg.maxCtaPerCore := by
    intro e he
    rcases (hmem e).mp he with rfl | he
    · exact hlt
    · exact h.slot_lt e he
  have hlength : (b.ctaToWarps.orderedInsert (fun e e' => e.1 ≤ e'.1) (ctaId, warps)).length ≤
      cfg.maxCtaPerCore := by
    have hsub : ((b.ctaToWarps.orderedInsert (fun e e' => e.1 ≤ e'.1)
        (ctaId, warps)).map Prod.fst).Subperm (List.range cfg.maxCtaPerCore) := by
      refine hslots.subperm fun slot hslot => ?_
      obtain ⟨e, he, rfl⟩ := List.mem_map.mp hslot
      exact List.mem_range.mpr (hslot_lt e he)
    simpa using hsub.length_le
  have hcounted : ∀ i, (if i < cfg.maxBarriersPerCta then b.barIdToWarps i \ warps
      else b.barIdToWarps i) = b.barIdToWarps i \ warps := by
    intro i
    by_cases hi : i < cfg.maxBarriersPerCta
    · exact if_pos hi
    · rw [if_neg hi]
      ext w
      have hnot : w ∉ b.barIdToWarps i := fun hw => hi (h.counted_lt i w hw)
      simp only [Finset.mem_sdiff, hnot, false_and]
  unfold allocateBarrier
  refine Meets.require hlt (Meets.require ?_ (Meets.require hlength (Meets.pure
    ⟨?_, hmem, rfl, rfl, hcounted⟩)))
  · rw [List.find?_eq_none]
    intro e he heq
    exact (hfree e he).1 (beq_iff_eq.mp heq)
  simp only [hcounted]
  exact h.add hslots hlt hmem fun e he => (hfree e he).2

/-- An ended CTA leaves its slot, unless a barrier still counts one of its warps. -/
theorem deallocateBarrier_meets (h : Sound cfg b reached)
    (hended : ∀ e ∈ b.ctaToWarps, e.1 = ctaId → Disjoint e.2 b.warpActive) :
    MeetsUnless (fun e => e = .stuckAtSpecificBarrier ∧
        ∃ c ∈ b.ctaToWarps, c.1 = ctaId ∧ ∃ w ∈ c.2, ∃ i, w ∈ b.barIdToWarps i)
      (b.deallocateBarrier cfg ctaId) fun b' =>
        Sound cfg b' reached ∧ (∀ e, e ∈ b'.ctaToWarps ↔ e ∈ b.ctaToWarps ∧ e.1 ≠ ctaId) ∧
        b'.warpActive = b.warpActive ∧ b'.warpAtBarrier = b.warpAtBarrier ∧
        b'.barIdToWarps = b.barIdToWarps := by
  unfold deallocateBarrier
  cases hfind : b.ctaToWarps.find? fun e => e.1 == ctaId with
  | none =>
    refine .of_meets (.pure ⟨h, fun e => ⟨fun he => ⟨he, ?_⟩, And.left⟩, rfl, rfl, rfl⟩)
    rintro rfl
    exact List.find?_eq_none.mp hfind e he (beq_self_eq_true _)
  | some e =>
    obtain ⟨slot, warps⟩ := e
    have he := List.mem_of_find?_eq_some hfind
    obtain rfl : slot = ctaId := by simpa using List.find?_some hfind
    have hactive : warps ∩ b.warpActive = ∅ :=
      Finset.disjoint_iff_inter_eq_empty.mp (hended _ he rfl)
    have hwaiting : warps ∩ b.warpAtBarrier = ∅ := by
      rw [← Finset.disjoint_iff_inter_eq_empty, Finset.disjoint_left]
      intro w hw hwait
      exact Finset.disjoint_left.mp (hended _ he rfl) hw (h.waiting_active w hwait)
    refine MeetsUnless.require hwaiting (MeetsUnless.require hactive ?_)
    by_cases hcounted : ∀ i < cfg.maxBarriersPerCta, warps ∩ b.barIdToWarps i = ∅
    · have hbar : ∀ i, (if i < cfg.maxBarriersPerCta then b.barIdToWarps i \ warps
          else b.barIdToWarps i) = b.barIdToWarps i := by
        intro i
        by_cases hi : i < cfg.maxBarriersPerCta
        · rw [if_pos hi, Finset.sdiff_eq_self_iff_disjoint, disjoint_comm,
            Finset.disjoint_iff_inter_eq_empty]
          exact hcounted i hi
        · exact if_neg hi
      have hkept : b.warpActive \ warps = b.warpActive := by
        rw [Finset.sdiff_eq_self_iff_disjoint]
        exact (hended _ he rfl).symm
      have hstay : b.warpAtBarrier \ warps = b.warpAtBarrier := by
        rw [Finset.sdiff_eq_self_iff_disjoint, disjoint_comm, Finset.disjoint_iff_inter_eq_empty]
        exact hwaiting
      have hmem : ∀ e, e ∈ b.ctaToWarps.filter (fun e => e.1 != slot) ↔
          e ∈ b.ctaToWarps ∧ e.1 ≠ slot := by
        intro e
        rw [List.mem_filter, bne_iff_ne]
      refine MeetsUnless.require hcounted (.of_meets (.pure ⟨?_, hmem, hkept, hstay, ?_⟩))
      · simp only [hbar, hkept, hstay]
        exact h.remove he (hended _ he rfl) fun i => by
          rw [Finset.disjoint_iff_inter_eq_empty]
          by_cases hi : i < cfg.maxBarriersPerCta
          · exact hcounted i hi
          · ext w
            have hnot : w ∉ b.barIdToWarps i := fun hw => hi (h.counted_lt i w hw)
            simp only [Finset.mem_inter, hnot, and_false, Finset.notMem_empty]
      · exact funext hbar
    · refine .inl ⟨.stuckAtSpecificBarrier, ?_, rfl, (slot, warps), he, rfl, ?_⟩
      · rw [require, if_neg hcounted]
        rfl
      · obtain ⟨i, hi⟩ := not_forall.mp hcounted
        obtain ⟨_, hne⟩ := Classical.not_imp.mp hi
        obtain ⟨w, hw⟩ := Finset.nonempty_iff_ne_empty.mpr hne
        obtain ⟨hwarp, hw⟩ := Finset.mem_inter.mp hw
        exact ⟨w, hwarp, i, hw⟩

end BarrierSet

namespace BarrierHistory

variable {cfg : BarrierConfig} {h : BarrierHistory} {a : BarrierAction}

/-- An ended CTA with a warp that a barrier still counts, after `bar.arrive`. -/
def ArriveLeft (h : BarrierHistory) (a : BarrierAction) (e : BarrierHalt) : Prop :=
  e = .stuckAtSpecificBarrier ∧ ∃ c ∈ h.ctaToWarps, a = .deallocate c.1 ∧
    ∃ w ∈ c.2, (∃ i, w ∈ h.barIdToWarps i) ∧ ∃ inst ∈ h.reached w, inst.barType = .arrive

/-- A CTA is allocated. -/
theorem allocate_meets {ctaId : Nat} {warps : Finset Nat} (hsound : h.Sound cfg h.reached)
    (hperm : h.Permitted cfg (.allocate ctaId warps)) :
    Meets (h.step cfg (.allocate ctaId warps)) fun h' =>
      (∀ w, h'.reached w = if w ∈ warps then [] else h.reached w) ∧
      h'.Sound cfg h'.reached ∧ (∀ e, e ∈ h'.ctaToWarps ↔ e = (ctaId, warps) ∨ e ∈ h.ctaToWarps) ∧
      h'.warpActive = h.warpActive ∪ warps ∧ h'.warpAtBarrier = h.warpAtBarrier \ warps ∧
      ∀ i, h'.barIdToWarps i = h.barIdToWarps i \ warps :=
  Meets.bind (BarrierSet.allocateBarrier_meets hsound hperm.1 hperm.2) fun _ hb =>
    Meets.pure ⟨fun _ => rfl, hb⟩

/-- A warp of a resident CTA reaches a barrier. -/
theorem reach_meets {e : Nat × Finset Nat} {w : Nat} {inst : SchedInst}
    (hsound : h.Sound cfg h.reached) (he : e ∈ h.ctaToWarps) (hw : w ∈ e.2) :
    Meets (h.step cfg (.reach e.1 w inst)) fun h' =>
      h'.reached = Function.update h.reached w (h.reached w ++ [inst]) ∧
      ((BarrierSet.Complete cfg (h.arriveAt w inst) e.2 inst ∧
        h'.toBarrierSet = (h.arriveAt w inst).releaseCta inst.barId e.2) ∨
      (¬BarrierSet.Complete cfg (h.arriveAt w inst) e.2 inst ∧
        h'.toBarrierSet = h.arriveAt w inst)) := by
  have hreach := BarrierSet.warpReachesBarrier_meets inst hsound he hw
  exact Meets.bind (hreach.mapError _) fun _ hr => Meets.pure ⟨rfl, hr⟩

/-- A warp of a resident CTA exits. -/
theorem exit_meets {e : Nat × Finset Nat} {w : Nat} (hsound : h.Sound cfg h.reached)
    (he : e ∈ h.ctaToWarps) (hw : w ∈ e.2) :
    Meets (h.step cfg (.exit w)) fun h' =>
      h'.reached = h.reached ∧
      h'.toBarrierSet = BarrierSet.releaseAll cfg.maxBarriersPerCta e.2
        { h.toBarrierSet with warpActive := h.warpActive.erase w } := by
  have hexit : Meets (h.warpExit cfg.maxBarriersPerCta w) fun b =>
      b = BarrierSet.releaseAll cfg.maxBarriersPerCta e.2
        { h.toBarrierSet with warpActive := h.warpActive.erase w } :=
    .of_eq (BarrierSet.warpExit_eq hsound he hw) rfl
  exact Meets.bind (hexit.mapError _) fun _ hb => Meets.pure ⟨rfl, hb⟩

/-- An ended CTA is deallocated. -/
theorem deallocate_meets {ctaId : Nat} (hsound : h.Sound cfg h.reached)
    (hperm : h.Permitted cfg (.deallocate ctaId)) :
    MeetsUnless (h.ArriveLeft (.deallocate ctaId)) (h.step cfg (.deallocate ctaId)) fun h' =>
      h'.reached = h.reached ∧ h'.Sound cfg h.reached ∧
      (∀ e, e ∈ h'.ctaToWarps ↔ e ∈ h.ctaToWarps ∧ e.1 ≠ ctaId) ∧
      h'.warpActive = h.warpActive ∧ h'.warpAtBarrier = h.warpAtBarrier ∧
      h'.barIdToWarps = h.barIdToWarps := by
  refine MeetsUnless.bind (P := fun b => b.Sound cfg h.reached ∧
    (∀ e, e ∈ b.ctaToWarps ↔ e ∈ h.ctaToWarps ∧ e.1 ≠ ctaId) ∧ b.warpActive = h.warpActive ∧
    b.warpAtBarrier = h.warpAtBarrier ∧ b.barIdToWarps = h.barIdToWarps) ?_
    fun b hb => .pure ⟨rfl, hb⟩
  rcases BarrierSet.deallocateBarrier_meets hsound hperm with
    ⟨e, heq, rfl, c, hc, rfl, w, hw, i, hi⟩ | hmeets
  · refine .inl ⟨_, heq, rfl, c, hc, rfl, w, hw, ⟨i, hi⟩, ?_⟩
    by_contra hnone
    have hwaits : Waits (h.reached w) := fun inst hinst htype => hnone ⟨inst, hinst, htype⟩
    have hactive := hsound.waiting_active w (hsound.waits_of_counted i w hi hwaits).1
    exact Finset.disjoint_left.mp (hperm c hc rfl) hw hactive
  · exact .of_meets hmeets

/-- A permitted action goes on and keeps the barriers sound, unless an ended CTA has a warp that
a barrier still counts. -/
theorem sound_step (hsound : h.Sound cfg h.reached) (hperm : h.Permitted cfg a) :
    MeetsUnless (h.ArriveLeft a) (h.step cfg a) fun h' => h'.Sound cfg h'.reached := by
  cases a with
  | allocate ctaId warps =>
    exact .of_meets ((allocate_meets hsound hperm).mono fun _ h' => h'.2.1)
  | reach ctaId w inst =>
    obtain ⟨⟨e, he, rfl, hw⟩, hactive, hfree, hbar, hlt⟩ := hperm
    have hat := hsound.arriveAt he hw hactive hfree hbar hlt
    refine .of_meets ((reach_meets hsound he hw).mono ?_)
    rintro h' ⟨hreached, ⟨_, hset⟩ | ⟨_, hset⟩⟩
    · rw [hreached, hset]
      exact hat.releaseCta inst.barId e.2
    · rw [hreached, hset]
      exact hat
  | exit w =>
    obtain ⟨hactive, hfree⟩ := hperm
    obtain ⟨e, he, hw⟩ := hsound.active_resident w hactive
    refine .of_meets ((exit_meets hsound he hw).mono ?_)
    rintro h' ⟨hreached, hset⟩
    rw [hreached, hset]
    exact BarrierSet.releaseAll_induction (P := fun b => b.Sound cfg h.reached)
      cfg.maxBarriersPerCta e.2 (hsound.erase hfree) fun b i _ hb _ => hb.releaseCta i e.2
  | deallocate ctaId =>
    refine (deallocate_meets hsound hperm).mono fun h' hh' => ?_
    rw [hh'.1]
    exact hh'.2.1

/-- The barriers are sound after any run. -/
theorem sound_of_reaches (hrun : Reaches (step cfg) (Permitted cfg) {} h) :
    h.Sound cfg h.reached :=
  hrun.invariant (fun h => h.Sound cfg h.reached) (BarrierSet.sound_empty cfg _)
    fun _ _ _ hsound hperm hstep => (sound_step hsound hperm).of_ok hstep

/-- A barrier instruction of all warps of a CTA. -/
def sampleInst (barType : BarrierType) (barId : Nat) : SchedInst where
  pc := 8
  op := .barrierOp
  barType := barType
  barId := barId

/-- A core with two slots. -/
def sampleConfig : BarrierConfig := ⟨2, 16, 32⟩

/-- A run of a list of actions reaches a state, which may be tested. -/
theorem exists_sample (as : List BarrierAction) {P : BarrierHistory → Prop} [DecidablePred P]
    (h : ((as.foldlM (guarded (step sampleConfig) (Permitted sampleConfig) .ctaTooLarge)
      {}).toOption.any fun h => decide (P h)) = true) :
    ∃ h, Reaches (step sampleConfig) (Permitted sampleConfig) {} h ∧ P h :=
  Reaches.exists_of_foldlM as h

end BarrierHistory
end WaspSim
