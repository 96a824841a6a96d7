import Mathlib.Algebra.BigOperators.Intervals
import WaspSim.Correctness.Provenance

/-!
# Warps and their CTAs

A warp with registered threads belongs to the CTA at its place, a CTA slot counts
the registered threads of its warps, and a load on its way to the dispatch
register keeps its warp busy. So a CTA is never retired while a load of one of
its warps has not been dispatched.
-/

namespace WaspSim
namespace Shader

variable {Mem : Type} {cfg : Config} {s s' : Shader Mem} {es : List Event} {mem : Mem}
  {log : List Event} {read : Mem → BitVec 64 → Nat → BitVec 64}

/-- The registered threads of the warps of a CTA. -/
def registeredIn (cfg : Config) (warps : Nat → Warp) (c : Nat) : Nat :=
  ∑ w ∈ Finset.range cfg.maxWarpsPerShader, if (warps w).ctaId = c then (warps w).registered else 0

/-- The loads of a warp on their way to the dispatch register. -/
def queuedBy (l : List WarpInst) (w : Nat) : Nat := l.countP fun i => i.warpId == w

/-- Warps, CTA slots and undispatched loads agree. -/
structure Residency (cfg : Config) (s : Shader Mem) : Prop where
  home : ∀ w, 0 < (s.warps w).registered →
    (s.warps w).ctaId = w / cfg.warpsPerCta ∧ w < cfg.maxWarpsPerShader
  running : ∀ w, 0 < (s.warps w).running → 0 < (s.warps w).registered
  total : ∀ c, s.ctaStatus c = registeredIn cfg s.warps c
  pipeline : ∀ w, (s.warps w).ibuffered + (s.warps w).elsewhere + queuedBy s.ldst.dispatch w ≤
    (s.warps w).instInPipeline
  waiting : ∀ i ∈ s.ldst.dispatch, 0 < (s.warps i.warpId).registered ∧
    i.tokenFromInst.key.ctaHwId = (s.warps i.warpId).ctaId

namespace Residency

/-- No CTA is resident at first. -/
theorem initial (cfg : Config) (mem : Mem) : Residency cfg (initial mem) where
  home w hw := absurd hw (Nat.not_lt_zero _)
  running w hw := absurd hw (Nat.not_lt_zero _)
  total c := by
    refine (Finset.sum_eq_zero fun w _ => ?_).symm
    exact ite_self _
  pipeline w := le_rfl
  waiting i hi := absurd hi List.not_mem_nil

/-- Residency is about warps, CTA counts and instructions at dispatch only. -/
theorem congr (h : Residency cfg s) (hwarps : s'.warps = s.warps)
    (hstatus : s'.ctaStatus = s.ctaStatus) (hdispatch : s'.ldst.dispatch = s.ldst.dispatch) :
    Residency cfg s' where
  home := by rw [hwarps]; exact h.home
  running := by rw [hwarps]; exact h.running
  total := by rw [hwarps, hstatus]; exact h.total
  pipeline := by rw [hwarps, hdispatch]; exact h.pipeline
  waiting := by rw [hwarps, hdispatch]; exact h.waiting

/-- A step of one warp that stays where it is. -/
theorem update (h : Residency cfg s) {w : Nat} {v : Warp}
    (hwarps : s'.warps = Function.update s.warps w v) (hcta : v.ctaId = (s.warps w).ctaId)
    (hregistered : v.registered = (s.warps w).registered)
    (hrunning : 0 < v.running → 0 < (s.warps w).running) (hstatus : s'.ctaStatus = s.ctaStatus)
    (hpipeline : v.ibuffered + v.elsewhere + queuedBy s'.ldst.dispatch w ≤ v.instInPipeline)
    (hothers : ∀ u, u ≠ w → queuedBy s'.ldst.dispatch u ≤ queuedBy s.ldst.dispatch u)
    (hwaiting : ∀ i ∈ s'.ldst.dispatch, 0 < (s.warps i.warpId).registered ∧
      i.tokenFromInst.key.ctaHwId = (s.warps i.warpId).ctaId) : Residency cfg s' := by
  have hsame : ∀ u, (s'.warps u).ctaId = (s.warps u).ctaId ∧
      (s'.warps u).registered = (s.warps u).registered := by
    intro u
    rw [hwarps]
    by_cases hu : u = w
    · subst hu
      rw [Function.update_self]
      exact ⟨hcta, hregistered⟩
    · rw [Function.update_of_ne hu]
      exact ⟨rfl, rfl⟩
  refine ⟨fun u hu => ?_, fun u hu => ?_, fun c => ?_, fun u => ?_, fun i hi => ?_⟩
  · rw [(hsame u).1]
    exact h.home u ((hsame u).2 ▸ hu)
  · rw [(hsame u).2]
    apply h.running u
    rw [hwarps] at hu
    by_cases hw : u = w
    · subst hw
      rw [Function.update_self] at hu
      exact hrunning hu
    · rwa [Function.update_of_ne hw] at hu
  · rw [hstatus, h.total]
    exact Finset.sum_congr rfl fun u _ => by rw [(hsame u).1, (hsame u).2]
  · rw [hwarps]
    by_cases hu : u = w
    · subst hu
      rw [Function.update_self]
      exact hpipeline
    · rw [Function.update_of_ne hu]
      exact (Nat.add_le_add_left (hothers u hu) _).trans (h.pipeline u)
  · rw [(hsame i.warpId).1, (hsame i.warpId).2]
    exact hwaiting i hi

/-- A step of one warp that leaves the undispatched loads alone. -/
theorem updateWarp (h : Residency cfg s) {w : Nat} {v : Warp}
    (hwarps : s'.warps = Function.update s.warps w v) (hcta : v.ctaId = (s.warps w).ctaId)
    (hregistered : v.registered = (s.warps w).registered)
    (hrunning : 0 < v.running → 0 < (s.warps w).running) (hstatus : s'.ctaStatus = s.ctaStatus)
    (hldst : s'.ldst = s.ldst)
    (hpipeline : v.ibuffered + v.elsewhere + (s.warps w).instInPipeline ≤
      v.instInPipeline + ((s.warps w).ibuffered + (s.warps w).elsewhere)) : Residency cfg s' := by
  have hbefore := h.pipeline w
  refine h.update hwarps hcta hregistered hrunning hstatus ?_ (fun u _ => by rw [hldst]) ?_
  · rw [hldst]
    omega
  · rw [hldst]
    exact h.waiting

/-- A load that loses accesses stays on its way. -/
private theorem queuedBy_set {l : List WarpInst} {i : Nat} {inst inst' : WarpInst}
    (hinst : l[i]? = some inst) (hwarp : inst'.warpId = inst.warpId) (w : Nat) :
    queuedBy (l.set i inst') w = queuedBy l w := by
  obtain ⟨hi, rfl⟩ := List.getElem?_eq_some_iff.mp hinst
  have hset := (List.set_perm_cons_eraseIdx hi inst').countP_eq fun i => i.warpId == w
  have hget := (List.getElem_cons_eraseIdx_perm hi).countP_eq fun i => i.warpId == w
  unfold queuedBy
  rw [hset, ← hget, List.countP_cons, List.countP_cons, hwarp]

/-- An instruction that leaves is one less of its warp. -/
private theorem queuedBy_eraseIdx {l : List WarpInst} {i : Nat} {inst : WarpInst}
    (hinst : l[i]? = some inst) (w : Nat) :
    queuedBy l w = queuedBy (l.eraseIdx i) w + if inst.warpId = w then 1 else 0 := by
  obtain ⟨hi, rfl⟩ := List.getElem?_eq_some_iff.mp hinst
  have hget := (List.getElem_cons_eraseIdx_perm hi).countP_eq fun i => i.warpId == w
  unfold queuedBy
  rw [← hget, List.countP_cons]
  simp

/-- Loads in the dispatch register. -/
private theorem dispatch (h : Residency cfg s) {i : Nat} {inst : WarpInst}
    (hinst : s.ldst.dispatch[i]? = some inst) (hstep : DispatchStep cfg s i inst s' es)
    (hout : OutsideLdst s s') : Residency cfg s' := by
  have hstay : ∀ n, s'.ldst.dispatch = s.ldst.dispatch.set i (accessqPop inst n) →
      s'.warps = s.warps → Residency cfg s' := by
    intro n hdispatch hwarps
    refine ⟨by rw [hwarps]; exact h.home, by rw [hwarps]; exact h.running,
      by rw [hwarps, hout.ctaStatus_eq]; exact h.total, fun w => ?_, fun j hj => ?_⟩
    · have hwarp : (accessqPop inst n).warpId = inst.warpId := rfl
      rw [hwarps, hdispatch, queuedBy_set hinst hwarp]
      exact h.pipeline w
    · rw [hdispatch] at hj
      rw [hwarps]
      rcases List.mem_or_eq_of_mem_set hj with hj | rfl
      · exact h.waiting j hj
      · exact h.waiting inst (List.mem_of_getElem? hinst)
  have hleave : s'.ldst.dispatch = s.ldst.dispatch.eraseIdx i → Leaves s inst.warpId s' →
      Residency cfg s' := by
    intro hdispatch hleaves
    have hbefore := h.pipeline inst.warpId
    have herase := queuedBy_eraseIdx hinst
    refine h.update hleaves.warps_eq rfl rfl id hout.ctaStatus_eq ?_ (fun u hu => ?_) fun j hj => ?_
    · rw [herase inst.warpId, if_pos rfl] at hbefore
      rw [hdispatch]
      simp only
      omega
    · rw [hdispatch, herase u]
      exact Nat.le_add_right _ _
    · rw [hdispatch] at hj
      exact h.waiting j (List.mem_of_mem_eraseIdx hj)
  cases hstep with
  | sent n _ _ _ hdispatch hwarps => exact hstay n hdispatch hwarps
  | sentLast _ _ _ hdispatch _ hleaves => exact hleave hdispatch hleaves
  | hit _ _ _ _ _ _ hdispatch hwarps => exact hstay 1 hdispatch hwarps
  | hitLast _ _ _ _ _ _ _ hdispatch _ hleaves => exact hleave hdispatch hleaves

/-- Issuing a load puts it on its way. -/
private theorem load (h : Residency cfg s) {w : Nat} {inst : QueueInst} {key : QueueKey}
    {wi : WarpInst} (hissued : Issued cfg key s s' w inst wi)
    (hldst : s'.ldst = { s.ldst with dispatch := s.ldst.dispatch ++ [wi] })
    (hwarps : s'.warps = (issuing s w).warps) : Residency cfg s' := by
  have hbefore := h.pipeline w
  have hbusy := hissued.busy.1
  have hqueued : ∀ u, queuedBy s'.ldst.dispatch u =
      queuedBy s.ldst.dispatch u + if w = u then 1 else 0 := by
    intro u
    rw [hldst]
    simp [queuedBy, List.countP_append, List.countP_singleton, hissued.warpId_eq]
  refine h.update hwarps rfl rfl id hissued.ctaStatus_eq ?_ (fun u hu => ?_) fun j hj => ?_
  · rw [hqueued w, if_pos rfl]
    simp only
    omega
  · rw [hqueued u, if_neg (Ne.symm hu)]
    exact le_rfl
  · rw [hldst] at hj
    rcases List.mem_append.mp hj with hj | hj
    · exact h.waiting j hj
    · obtain rfl := List.mem_singleton.mp hj
      rw [hissued.warpId_eq]
      refine ⟨h.running w ?_, ?_⟩
      · simpa [Warp.functionalDone, Nat.pos_iff_ne_zero] using hissued.busy.2
      · rw [hissued.token_key]
        obtain ⟨_, _, hkey⟩ := keyForWarp_eq_ok.mp hissued.key_eq
        rw [hkey]

/-- Reclaiming a warp takes its threads out of its CTA slot. -/
private theorem reclaim (h : Residency cfg s) {w : Nat}
    (hdone : (s.warps w).hardwareDone = true)
    (hstatus : s'.ctaStatus = Function.update s.ctaStatus (s.warps w).ctaId
      (s.ctaStatus (s.warps w).ctaId - (s.warps w).registered))
    (hwarps : s'.warps = (s.setWarp w fun v =>
      { v with registered := 0, doneExit := v.doneExit || 0 < v.registered }).warps)
    (hldst : s'.ldst = s.ldst) : Residency cfg s' := by
  obtain ⟨⟨hrunning, _⟩, hempty⟩ : ((s.warps w).running = 0 ∧ _) ∧
      (s.warps w).instInPipeline = 0 := by
    simpa [Warp.hardwareDone, Warp.functionalDone] using hdone
  have hself : s'.warps w = { s.warps w with
      registered := 0, doneExit := (s.warps w).doneExit || 0 < (s.warps w).registered } := by
    rw [hwarps]
    exact Function.update_self ..
  have hother : ∀ u, u ≠ w → s'.warps u = s.warps u := by
    intro u hu
    rw [hwarps]
    exact Function.update_of_ne hu _ _
  have hcta : ∀ u, (s'.warps u).ctaId = (s.warps u).ctaId := by
    intro u
    by_cases hu : u = w
    · rw [hu, hself]
    · rw [hother u hu]
  refine ⟨fun u hu => ?_, fun u hu => ?_, fun c => ?_, fun u => ?_, fun i hi => ?_⟩
  · have hne : u ≠ w := by
      rintro rfl
      rw [hself] at hu
      exact absurd hu (Nat.not_lt_zero _)
    rw [hother u hne] at hu ⊢
    exact h.home u hu
  · have hne : u ≠ w := by
      rintro rfl
      rw [hself, hrunning] at hu
      exact absurd hu (Nat.not_lt_zero _)
    rw [hother u hne] at hu ⊢
    exact h.running u hu
  · rw [hstatus]
    have hsum : registeredIn cfg s.warps c = registeredIn cfg s'.warps c +
        if (s.warps w).ctaId = c then (s.warps w).registered else 0 := by
      by_cases hw : w ∈ Finset.range cfg.maxWarpsPerShader
      · unfold registeredIn
        rw [← Finset.add_sum_erase _ _ hw, ← Finset.add_sum_erase _ _ hw, hself]
        have hrest : ∑ u ∈ (Finset.range cfg.maxWarpsPerShader).erase w,
              (if (s'.warps u).ctaId = c then (s'.warps u).registered else 0) =
            ∑ u ∈ (Finset.range cfg.maxWarpsPerShader).erase w,
              if (s.warps u).ctaId = c then (s.warps u).registered else 0 :=
          Finset.sum_congr rfl fun u hu => by rw [hother u (Finset.ne_of_mem_erase hu)]
        rw [hrest]
        simp only [ite_self, Nat.zero_add]
        exact Nat.add_comm _ _
      · have hzero : (s.warps w).registered = 0 := by
          by_contra hpos
          exact hw (Finset.mem_range.mpr (h.home w (Nat.pos_of_ne_zero hpos)).2)
        rw [hzero, ite_self, Nat.add_zero]
        refine Finset.sum_congr rfl fun u hu => ?_
        rw [hother u (fun heq => hw (heq ▸ hu))]
    by_cases hc : c = (s.warps w).ctaId
    · subst hc
      rw [Function.update_self, h.total, hsum, if_pos rfl, Nat.add_sub_cancel]
    · rw [Function.update_of_ne hc, h.total, hsum, if_neg (Ne.symm hc), Nat.add_zero]
  · rw [hldst]
    by_cases hu : u = w
    · rw [hu, hself]
      exact h.pipeline w
    · rw [hother u hu]
      exact h.pipeline u
  · rw [hldst] at hi
    have hne : i.warpId ≠ w := by
      intro heq
      have hbusy := h.pipeline w
      have hqueued : 0 < queuedBy s.ldst.dispatch w :=
        List.countP_pos_iff.mpr ⟨i, hi, by simpa using heq⟩
      omega
    rw [hother _ hne]
    exact h.waiting i hi

/-- A warp after `initWarp` with number `i` of CTA `c`. -/
def launched (cfg : Config) (c i : Nat) (v : Warp) : Warp :=
  { v with
    ctaId := c
    running := threadsInWarp cfg i
    registered := threadsInWarp cfg i
    doneExit := false }

theorem launched_ctaId (cfg : Config) (c i : Nat) (v : Warp) :
    (launched cfg c i v).ctaId = c := rfl

theorem launched_registered (cfg : Config) (c i : Nat) (v : Warp) :
    (launched cfg c i v).registered = threadsInWarp cfg i := rfl

/-- Launching initialises the warps of the CTA, none of which was busy. -/
theorem issueBlock2core_warps {c : Nat} (h : issueBlock2core cfg s c = .ok (s', es)) :
    s.ctaStatus c = 0 ∧
      s'.ctaStatus = Function.update s.ctaStatus c (∑ i ∈ Finset.range cfg.warpsPerCta,
        threadsInWarp cfg i) ∧
      (∀ i < cfg.warpsPerCta, c * cfg.warpsPerCta + i < cfg.maxWarpsPerShader ∧
        (s.warps (c * cfg.warpsPerCta + i)).instInPipeline = 0 ∧
        s'.warps (c * cfg.warpsPerCta + i) =
          launched cfg c i (s.warps (c * cfg.warpsPerCta + i))) ∧
      ∀ w, w / cfg.warpsPerCta ≠ c → s'.warps w = s.warps w := by
  simp only [issueBlock2core, bind_eq_ok, require_eq_ok, pure_eq_ok, Prod.mk.injEq] at h
  obtain ⟨_, ⟨_, hfree⟩, m, hfold, rfl, rfl⟩ := h
  have hloop := foldlM_range
    (fun n m => m.ctaStatus = s.ctaStatus ∧
      (∀ i < n, c * cfg.warpsPerCta + i < cfg.maxWarpsPerShader ∧
        (s.warps (c * cfg.warpsPerCta + i)).instInPipeline = 0 ∧
        m.warps (c * cfg.warpsPerCta + i) =
          launched cfg c i (s.warps (c * cfg.warpsPerCta + i))) ∧
      ∀ w, ¬(c * cfg.warpsPerCta ≤ w ∧ w < c * cfg.warpsPerCta + n) → m.warps w = s.warps w)
    (fun n m m' _ hm hinit => ?_) hfold ⟨rfl, fun i hi => absurd hi (Nat.not_lt_zero _),
      fun _ _ => rfl⟩
  · obtain ⟨hstatus, hinside, houtside⟩ := hloop
    refine ⟨hfree, ?_, hinside, fun w hw => houtside w fun hrange => hw ?_⟩
    · change Function.update m.ctaStatus c _ = _
      rw [hstatus]
      rfl
    · exact Nat.div_eq_of_lt_le hrange.1 (by rw [Nat.succ_mul]; exact hrange.2)
  · obtain ⟨hstatus, hinside, houtside⟩ := hm
    simp only [initWarp, bind_eq_ok, require_eq_ok, pure_eq_ok] at hinit
    obtain ⟨_, hrange, _, ⟨_, hidle⟩, rfl⟩ := hinit
    have hold := houtside (c * cfg.warpsPerCta + n) (by omega)
    refine ⟨hstatus, fun i hi => ?_, fun w hw => ?_⟩
    · by_cases hin : i = n
      · subst hin
        rw [hold] at hidle
        refine ⟨hrange, hidle, ?_⟩
        simp only [setWarp, Function.update_self, hold]
        rfl
      · obtain ⟨hmax, hpipe, hwarp⟩ := hinside i (by omega)
        refine ⟨hmax, hpipe, ?_⟩
        rw [← hwarp]
        exact Function.update_of_ne (by omega) _ _
    · rw [← houtside w (by omega)]
      exact Function.update_of_ne (by omega) _ _

/-- Launching a CTA registers its threads in a free slot. -/
private theorem launch (h : Residency cfg s) {c : Nat}
    (hlaunch : issueBlock2core cfg s c = .ok (s', es)) : Residency cfg s' := by
  have hidle := (issueBlock2core_idle hlaunch).1
  obtain ⟨hfree, hstatus, hinside, houtside⟩ := issueBlock2core_warps hlaunch
  have hpos := cfg.warpsPerCta_pos
  -- a warp is the `w % warpsPerCta`-th of its CTA
  have hplace : ∀ w, w / cfg.warpsPerCta = c →
      w = c * cfg.warpsPerCta + w % cfg.warpsPerCta ∧ w % cfg.warpsPerCta < cfg.warpsPerCta := by
    rintro w rfl
    exact ⟨by rw [Nat.mul_comm]; exact (Nat.div_add_mod ..).symm, Nat.mod_lt _ hpos⟩
  have hwarp : ∀ w, w / cfg.warpsPerCta = c → w < cfg.maxWarpsPerShader ∧
      (s.warps w).instInPipeline = 0 ∧
      s'.warps w = launched cfg c (w % cfg.warpsPerCta) (s.warps w) := by
    intro w hw
    obtain ⟨heq, hlt⟩ := hplace w hw
    have hin := hinside _ hlt
    rwa [← heq] at hin
  have hunregistered : ∀ w, (s.warps w).ctaId = c → (s.warps w).registered = 0 := by
    intro w hw
    by_contra hne
    have hmax := (h.home w (Nat.pos_of_ne_zero hne)).2
    have htotal := h.total c
    rw [hfree] at htotal
    have hzero := (Finset.sum_eq_zero_iff.mp htotal.symm) w (Finset.mem_range.mpr hmax)
    rw [if_pos hw] at hzero
    exact hne hzero
  refine ⟨fun w hw => ?_, fun w hw => ?_, fun c' => ?_, fun w => ?_, fun i hi => ?_⟩
  · by_cases hc : w / cfg.warpsPerCta = c
    · obtain ⟨hmax, _, heq⟩ := hwarp w hc
      rw [heq]
      exact ⟨hc.symm, hmax⟩
    · rw [houtside w hc] at hw ⊢
      exact h.home w hw
  · by_cases hc : w / cfg.warpsPerCta = c
    · rw [(hwarp w hc).2.2] at hw ⊢
      exact hw
    · rw [houtside w hc] at hw ⊢
      exact h.running w hw
  · rw [hstatus]
    by_cases hc : c' = c
    · subst hc
      rw [Function.update_self]
      have hmax : c' * cfg.warpsPerCta + cfg.warpsPerCta ≤ cfg.maxWarpsPerShader := by
        have hlast := (hinside (cfg.warpsPerCta - 1) (by omega)).1
        omega
      have hterm : ∀ w, (if (s'.warps w).ctaId = c' then (s'.warps w).registered else 0) =
          if c' * cfg.warpsPerCta ≤ w ∧ w < c' * cfg.warpsPerCta + cfg.warpsPerCta then
            threadsInWarp cfg (w - c' * cfg.warpsPerCta) else 0 := by
        intro w
        by_cases hw : w / cfg.warpsPerCta = c'
        · obtain ⟨heq, hlt⟩ := hplace w hw
          have hsub : w - c' * cfg.warpsPerCta = w % cfg.warpsPerCta := by omega
          rw [(hwarp w hw).2.2, launched_ctaId, launched_registered, if_pos rfl, if_pos (by omega),
            hsub]
        · have hout : ¬(c' * cfg.warpsPerCta ≤ w ∧
              w < c' * cfg.warpsPerCta + cfg.warpsPerCta) := fun hrange =>
            hw (Nat.div_eq_of_lt_le hrange.1 (by rw [Nat.succ_mul]; exact hrange.2))
          rw [houtside w hw, if_neg hout]
          split
          · rename_i hcta
            exact hunregistered w hcta
          · rfl
      unfold registeredIn
      rw [Finset.sum_congr rfl fun w _ => hterm w, ← Finset.sum_filter]
      have hfilter : (Finset.range cfg.maxWarpsPerShader).filter (fun w =>
            c' * cfg.warpsPerCta ≤ w ∧ w < c' * cfg.warpsPerCta + cfg.warpsPerCta) =
          Finset.Ico (c' * cfg.warpsPerCta) (c' * cfg.warpsPerCta + cfg.warpsPerCta) := by
        ext w
        simp only [Finset.mem_filter, Finset.mem_range, Finset.mem_Ico]
        omega
      rw [hfilter, Finset.sum_Ico_eq_sum_range, Nat.add_sub_cancel_left]
      exact Finset.sum_congr rfl fun i _ => by rw [Nat.add_sub_cancel_left]
    · rw [Function.update_of_ne hc, h.total]
      refine Finset.sum_congr rfl fun w _ => ?_
      by_cases hw : w / cfg.warpsPerCta = c
      · rw [(hwarp w hw).2.2, launched_ctaId, if_neg (fun heq : c = c' => hc heq.symm)]
        split
        · rename_i hcta
          by_contra hne
          have hhome := (h.home w (Nat.pos_of_ne_zero hne)).1
          exact hc (by rw [← hcta, hhome, hw])
        · rfl
      · rw [houtside w hw]
  · rw [hidle.ldst_eq]
    by_cases hc : w / cfg.warpsPerCta = c
    · rw [(hwarp w hc).2.2]
      exact h.pipeline w
    · rw [houtside w hc]
      exact h.pipeline w
  · rw [hidle.ldst_eq] at hi
    by_cases hc : i.warpId / cfg.warpsPerCta = c
    · have hbusy := h.pipeline i.warpId
      have hqueued : 0 < queuedBy s.ldst.dispatch i.warpId :=
        List.countP_pos_iff.mpr ⟨i, hi, by simp⟩
      have hempty := (hwarp _ hc).2.1
      omega
    · rw [houtside _ hc]
      exact h.waiting i hi

/-- Every action keeps warps, slots and undispatched loads in agreement. -/
theorem step (h : Residency cfg s) (hp : Provenance cfg s log) {a : Action Mem}
    (hstep : Shader.step cfg read s a = .ok (s', es)) : Residency cfg s' := by
  cases a with
  | test w inst countStall =>
    simp only [Shader.step, bind_eq_ok, pure_eq_ok, Prod.exists, Prod.mk.injEq] at hstep
    obtain ⟨_, _, s₁, b₁, hrfq, s₂, b₂, hsmemq, rfl, rfl⟩ := hstep
    have hcore := (canIssue_core hrfq).trans (canIssue_core hsmemq)
    exact h.congr hcore.warps_eq hcore.ctaStatus_eq (by rw [hcore.ldst_eq])
  | issue w inst mask input =>
    cases hload : inst.load with
    | true =>
      obtain ⟨key, wi, hissued, _, _, _, hldst, hwarps⟩ := issueWarp_load_frame hload hstep
      exact h.load hissued hldst hwarps
    | false =>
      obtain ⟨key, wi, written, hissued, _, hldst, hwarps⟩ := issueWarp_move_frame hload hstep
      have hbusy := hissued.busy.1
      refine h.updateWarp (hwarps.trans (Function.update_idem ..)) ?_ ?_ ?_ hissued.ctaStatus_eq
        hldst ?_
      · simp [issuing, setWarp]
      · simp [issuing, setWarp]
      · simp [issuing, setWarp]
      · simp only [issuing, setWarp, Function.update_self]
        omega
  | dispatch i port =>
    obtain ⟨inst, hinst, hcase, hout⟩ :=
      dispatchCycle_cases (fun inst hi => hp.off (List.mem_of_getElem? hi)) hstep
    exact h.dispatch hinst hcase hout
  | l1Latency i status =>
    obtain ⟨_, hframe⟩ := l1LatencyQueueCycle_cases hstep
    exact h.congr hframe.warps_eq hframe.ctaStatus_eq hframe.dispatch_eq
  | respond i =>
    obtain ⟨_, hframe⟩ := respond_cases hstep
    exact h.congr hframe.warps_eq hframe.ctaStatus_eq hframe.dispatch_eq
  | writeback client =>
    obtain ⟨_, hframe⟩ := writeback_cases hstep
    exact h.congr hframe.warps_eq hframe.ctaStatus_eq hframe.dispatch_eq
  | reclaim w =>
    obtain ⟨hdone, _, hstatus, hwarps, hldst, _⟩ := reclaim_cases hstep
    exact h.reclaim hdone.1 hstatus hwarps hldst
  | launch c => exact h.launch hstep
  | decode w =>
    simp only [Shader.step, pure_eq_ok, Prod.mk.injEq] at hstep
    obtain ⟨rfl, rfl⟩ := hstep
    refine h.updateWarp rfl rfl rfl id rfl rfl ?_
    simp only
    omega
  | issueOther w =>
    simp only [Shader.step, bind_eq_ok, require_eq_ok, pure_eq_ok, Prod.mk.injEq] at hstep
    obtain ⟨_, hbusy, rfl, rfl⟩ := hstep
    refine h.updateWarp rfl rfl rfl id rfl rfl ?_
    simp only
    omega
  | finishOther w =>
    simp only [Shader.step, bind_eq_ok, require_eq_ok, pure_eq_ok, Prod.mk.injEq] at hstep
    obtain ⟨_, helse, m, hdec, rfl, rfl⟩ := hstep
    obtain ⟨hbusy, rfl⟩ := decInstInPipeline_eq_ok hdec
    refine h.updateWarp (Function.update_idem ..) ?_ ?_ ?_ rfl rfl ?_
    · simp [setWarp]
    · simp [setWarp]
    · simp [setWarp]
    · simp only [setWarp, Function.update_self]
      omega
  | flush w =>
    simp only [Shader.step, bind_eq_ok, require_eq_ok, pure_eq_ok, Prod.mk.injEq] at hstep
    obtain ⟨_, hle, rfl, rfl⟩ := hstep
    refine h.updateWarp rfl rfl rfl id rfl rfl ?_
    simp only
    omega
  | storeReq w =>
    simp only [Shader.step, pure_eq_ok, Prod.mk.injEq] at hstep
    obtain ⟨rfl, rfl⟩ := hstep
    refine h.updateWarp rfl rfl rfl id rfl rfl ?_
    simp only
    omega
  | storeAck w =>
    simp only [Shader.step, bind_eq_ok, require_eq_ok, pure_eq_ok, Prod.mk.injEq] at hstep
    obtain ⟨_, _, rfl, rfl⟩ := hstep
    refine h.updateWarp rfl rfl rfl id rfl rfl ?_
    simp only
    omega
  | exit w threads =>
    simp only [Shader.step, bind_eq_ok, require_eq_ok, pure_eq_ok, Prod.mk.injEq] at hstep
    obtain ⟨_, _, rfl, rfl⟩ := hstep
    refine h.updateWarp rfl rfl rfl (fun hpos => ?_) rfl rfl ?_
    · simp only at hpos
      omega
    · simp only
      omega
  | storeMem mem =>
    simp only [Shader.step, pure_eq_ok, Prod.mk.injEq] at hstep
    obtain ⟨rfl, rfl⟩ := hstep
    exact h.congr rfl rfl rfl

/-- A CTA is not retired while a load of one of its warps is on its way to the dispatch
register. -/
theorem dispatched_of_retires (h : Residency cfg s) {a : Action Mem} {c : Nat}
    (hstep : Shader.step cfg read s a = .ok (s', es)) (hret : retires s a = some c) :
    ∀ i ∈ s.ldst.dispatch, i.tokenFromInst.key.ctaHwId ≠ c := by
  cases a with
  | reclaim w =>
    simp only [retires, Option.ite_none_right_eq_some, Option.some.injEq] at hret
    obtain ⟨⟨hpos, hlast⟩, rfl⟩ := hret
    obtain ⟨hdone, _⟩ := reclaim_cases hstep
    intro i hi heq
    obtain ⟨hregistered, hcta⟩ := h.waiting i hi
    have hbusy := h.pipeline i.warpId
    have hqueued : 0 < queuedBy s.ldst.dispatch i.warpId :=
      List.countP_pos_iff.mpr ⟨i, hi, by simp⟩
    have hne : i.warpId ≠ w := by
      intro hw
      have hempty : (s.warps w).instInPipeline = 0 := by
        have hhw := hdone.1
        simp only [Warp.hardwareDone, Bool.and_eq_true, beq_iff_eq] at hhw
        exact hhw.2
      rw [hw] at hbusy hqueued
      omega
    -- the slot counts the threads of both warps
    have hsum := h.total (s.warps w).ctaId
    unfold registeredIn at hsum
    rw [← Finset.add_sum_erase _ _ (Finset.mem_range.mpr (h.home w hpos).2), if_pos rfl,
      hlast] at hsum
    have hrest := Finset.sum_eq_zero_iff.mp (Nat.add_eq_left.mp hsum.symm) i.warpId
      (Finset.mem_erase.mpr ⟨hne, Finset.mem_range.mpr (h.home _ hregistered).2⟩)
    rw [if_pos (hcta.symm.trans heq)] at hrest
    omega
  | test => cases hret
  | issue => cases hret
  | dispatch => cases hret
  | l1Latency => cases hret
  | respond => cases hret
  | writeback => cases hret
  | launch => cases hret
  | decode => cases hret
  | issueOther => cases hret
  | finishOther => cases hret
  | flush => cases hret
  | storeReq => cases hret
  | storeAck => cases hret
  | exit => cases hret
  | storeMem => cases hret

end Residency
end Shader
end WaspSim
