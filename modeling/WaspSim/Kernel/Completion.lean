import Mathlib.Algebra.Order.BigOperators.Group.Finset
import WaspSim.Core.Capacity
import WaspSim.Kernel.Output

/-!
# Every run of the grid completes

As long as a thread is not done, some thread can step: one that is not at the barrier,
or one that all others have caught up with. Every step brings a thread further, so a
run that always goes on completes the grid.
-/

namespace WaspSim
namespace StreamFma

variable {α : Type} {l : Launch α} {g g' : Grid α} {log : List (Event α)} {c : Nat} {tid : Tid}
  {b b' : Cta α} {es : List (Event α)}

/-- A thread that is not done can step, at the barrier when all others have arrived. -/
theorem Cta.exists_step (hchunk : (b.threads tid).chunk < l.kChunksPerCta)
    (hwait : (b.threads tid).pc = .wait → ∀ j, (b.threads tid).chunk < (b.threads j).arrivals) :
    ∃ r, b.step l c tid = .ok r := by
  unfold Cta.step
  simp only [hchunk, ↓reduceIte]
  cases hpc : (b.threads tid).pc with
  | wait =>
    simp only [require, hwait hpc, implies_true, ↓reduceIte]
    exact ⟨_, rfl⟩
  | _ => exact ⟨_, rfl⟩

/-- A CTA that is not done has a thread that can step. -/
theorem Control.exists_step (h : Control l b) (hopen : (b.threads tid).chunk < l.kChunksPerCta) :
    ∃ t r, b.step l c t = .ok r := by
  by_cases hpc : (b.threads tid).pc = .wait
  · have hpasses : (b.threads tid).passes < l.kChunksPerCta := by
      unfold Thread.passes
      rwa [hpc]
    obtain ⟨t, hlast, hready⟩ := h.synced.exists_ready (i := tid) hpasses
    have hchunk : (b.threads t).chunk ≤ (b.threads t).passes := by
      unfold Thread.passes
      cases (b.threads t).pc <;> simp
    refine ⟨t, Cta.exists_step (hchunk.trans_lt hlast) fun hwait j => ?_⟩
    rcases hready with harrived | hall
    · simp [Thread.arrivals, Thread.passes, hwait] at harrived
    · exact hchunk.trans_lt (hall j)
  · exact ⟨tid, Cta.exists_step hopen fun hwait => absurd hwait hpc⟩

/-- A grid that is not complete has a thread that can step. -/
theorem GridInv.exists_step (h : GridInv l g log) (hopen : ¬Complete l g) :
    ∃ a g' es, StreamFma.step l g a = .ok (g', es) := by
  unfold Complete at hopen
  simp only [not_forall] at hopen
  obtain ⟨c, hc, tid, hne⟩ := hopen
  have hcontrol := (h.ctas c hc).control
  have hlt : ((g.ctas c).threads tid).chunk < l.kChunksPerCta :=
    Nat.lt_of_le_of_ne (hcontrol.chunk_le tid) hne
  obtain ⟨t, ⟨b', es⟩, hstep⟩ := hcontrol.exists_step (c := c) hlt
  refine ⟨(c, t), ⟨Function.update g.ctas c b', es.foldl Event.apply g.out⟩, es, ?_⟩
  simp only [StreamFma.step, require, hc, hstep, bind, Except.bind, ↓reduceIte]
  rfl

/-- The order of the statements in a chunk. -/
def Pc.rank : Pc → Nat
  | .storeGuard => 0
  | .store x => 1 + x.rank
  | .sync => 4
  | .wait => 5
  | .loadGuard => 6
  | .load x => 7 + x.rank
  | .write => 10

/-- How far a thread is. -/
def Thread.rank (th : Thread α) : Nat := th.chunk * 11 + th.pc.rank

/-- How far a grid is. -/
def Grid.rank (l : Launch α) (g : Grid α) : Nat :=
  ∑ c ∈ Finset.range l.blocks, ∑ t, ((g.ctas c).threads t).rank

theorem Pc.rank_le (pc : Pc) : pc.rank ≤ 10 := by
  cases pc with
  | store x => cases x <;> simp [rank, Input.rank]
  | load x => cases x <;> simp [rank, Input.rank]
  | _ => simp [rank]

/-- A move brings its thread further. -/
theorem Moves.rank_lt (hm : Moves l c b tid b' es) :
    (b.threads tid).rank < (b'.threads tid).rank := by
  unfold Thread.rank
  cases hm with
  | store x v hpc hv => cases x <;> simp [hpc, Pc.afterStore, Pc.rank, Input.rank]
  | load x v hpc hv => cases x <;> simp [hpc, Pc.afterLoad, Pc.rank, Input.rank]
  | toStore hpc htid => simp [hpc, Pc.rank]
  | toSync hpc htid => simp [hpc, Pc.rank]
  | arrive hpc => simp [hpc, Pc.rank]
  | pass hpc hall => simp [hpc, Pc.rank]
  | toLoad hpc htid => simp [hpc, Pc.rank, Input.rank]
  | skip hpc htid =>
    simp only [Cta.setThread_threads, Function.update_self, Thread.next, hpc, Pc.rank]
    omega
  | write v hpc hv =>
    simp only [Cta.setThread_threads, Function.update_self, Thread.next, hpc, Pc.rank]
    omega

/-- A step brings the grid further. -/
theorem rank_lt_of_step {a : Nat × Tid} (hstep : step l g a = .ok (g', es)) :
    g.rank l < g'.rank l := by
  obtain ⟨hc, b', hcta, rfl⟩ := step_cases hstep
  obtain ⟨_, hm⟩ := Cta.step_cases hc hcta
  have hthread : b'.threads = Function.update (g.ctas a.1).threads a.2 (b'.threads a.2) := by
    funext t
    by_cases ht : t = a.2
    · rw [ht, Function.update_self]
    · rw [Function.update_of_ne ht, hm.threads_of_ne ht]
  have hctas := sum_update (Finset.mem_range.mpr hc) g.ctas b' fun b => ∑ t, (b.threads t).rank
  have hthreads := sum_update (Finset.mem_univ a.2) (g.ctas a.1).threads (b'.threads a.2)
    Thread.rank
  rw [← hthread] at hthreads
  have hlt := hm.rank_lt
  change g.rank l <
    ∑ c ∈ Finset.range l.blocks, ∑ t, ((Function.update g.ctas a.1 b' c).threads t).rank
  unfold Grid.rank
  omega

/-- Every thread of the grid has a last statement. -/
theorem GridInv.rank_le (h : GridInv l g log) :
    g.rank l ≤ l.blocks * (256 * (11 * (l.kChunksPerCta + 1))) := by
  have hthread : ∀ c ∈ Finset.range l.blocks, ∀ t ∈ Finset.univ,
      ((g.ctas c).threads t).rank ≤ 11 * (l.kChunksPerCta + 1) := by
    intro c hc t _
    have hchunk := (h.ctas c (Finset.mem_range.mp hc)).control.chunk_le t
    have hpc := ((g.ctas c).threads t).pc.rank_le
    unfold Thread.rank
    omega
  have hcta : ∀ c ∈ Finset.range l.blocks, ∑ t, ((g.ctas c).threads t).rank ≤
      256 * (11 * (l.kChunksPerCta + 1)) := by
    intro c hc
    have hsum := Finset.sum_le_card_nsmul _ _ _ (hthread c hc)
    rwa [Finset.card_univ, Fintype.card_fin] at hsum
  have hsum := Finset.sum_le_card_nsmul _ _ _ hcta
  rwa [Finset.card_range] at hsum

/-- A run keeps the invariant and brings the grid further by each of its steps. -/
theorem GridInv.run (h : GridInv l g log) {as : List (Nat × Tid)} {p : Grid α × List (Event α)}
    (hrun : as.foldlM (logged (StreamFma.step l)) (g, log) = .ok p) :
    GridInv l p.1 p.2 ∧ g.rank l + as.length ≤ p.1.rank l := by
  induction as generalizing g log with
  | nil =>
    obtain rfl := foldlM_nil_eq_ok.mp hrun
    exact ⟨h, Nat.le_refl _⟩
  | cons a as ih =>
    obtain ⟨⟨g', log'⟩, ha, has⟩ := foldlM_cons_eq_ok.mp hrun
    obtain ⟨es, hstep, hlog⟩ := logged_eq_ok.mp ha
    simp only at hstep hlog
    subst hlog
    obtain ⟨hinv, hle⟩ := ih (h.step hstep) has
    have hlt := rank_lt_of_step hstep
    refine ⟨hinv, ?_⟩
    rw [List.length_cons]
    omega

/-- From every state that a run reaches, some run completes the grid. -/
theorem GridInv.exists_complete (h : GridInv l g log) :
    ∃ (as : List (Nat × Tid)) (p : Grid α × List (Event α)),
      as.foldlM (logged (StreamFma.step l)) (g, log) = .ok p ∧ Complete l p.1 := by
  -- induction on the steps that are left
  suffices hall : ∀ left g log, GridInv l g log →
      l.blocks * (256 * (11 * (l.kChunksPerCta + 1))) ≤ g.rank l + left →
      ∃ (as : List (Nat × Tid)) (p : Grid α × List (Event α)),
        as.foldlM (logged (StreamFma.step l)) (g, log) = .ok p ∧ Complete l p.1 by
    exact hall _ g log h (Nat.le_add_left _ _)
  intro left
  induction left with
  | zero =>
    intro g log hinv hle
    refine ⟨[], (g, log), rfl, ?_⟩
    by_contra hopen
    obtain ⟨a, g', es, hstep⟩ := hinv.exists_step hopen
    have hlt := rank_lt_of_step hstep
    have hmax := (hinv.step hstep).rank_le
    omega
  | succ left ih =>
    intro g log hinv hle
    by_cases hdone : Complete l g
    · exact ⟨[], (g, log), rfl, hdone⟩
    · obtain ⟨a, g', es, hstep⟩ := hinv.exists_step hdone
      have hlt := rank_lt_of_step hstep
      obtain ⟨as, p, hrun, hcomplete⟩ := ih g' (log ++ es) (hinv.step hstep) (by omega)
      refine ⟨a :: as, p, ?_, hcomplete⟩
      exact foldlM_cons_eq_ok.mpr ⟨_, logged_eq_ok.mpr ⟨es, hstep, rfl⟩, hrun⟩

/-- What a run of the grid promises. -/
structure HandedOff (l : Launch α) (as : List (Nat × Tid)) (g : Grid α) (log : List (Event α)) :
    Prop where
  /-- A load by consumer `t` of chunk `chunk` sees the input of that chunk's element, which
  the producer of the element stored for that chunk. -/
  loads : ∀ c t chunk x v, Event.load c t chunk x v ∈ log →
    v = l.input x (l.idx c chunk (roleThread t)) ∧ Event.store c (partner t) chunk x v ∈ log
  /-- No element of the output is written twice. -/
  nodup : ((writes log).map Prod.fst).Nodup
  /-- What is written is the value of an element before the end. -/
  values : ∀ i v, (i, v) ∈ writes log → i < l.n ∧ v = l.value i
  /-- When all threads are done every element has been written and holds its value. -/
  complete : Complete l g → ∀ i < l.n, ((writes log).map Prod.fst).count i = 1 ∧
    g.out i = l.value i
  /-- Until then some thread can step. -/
  live : ¬Complete l g → ∃ a g' es, step l g a = .ok (g', es)
  /-- There are only so many steps. -/
  bounded : as.length ≤ l.blocks * (256 * (11 * (l.kChunksPerCta + 1)))

/-- When all threads are done, so is every element. -/
theorem Complete.done (h : Complete l g) {i : Nat} (hi : i < l.n) : Done l g i := by
  obtain ⟨c, hc, chunk, hchunk, role, hrole, rfl⟩ := Launch.exists_idx hi
  have hconsumer : ¬producer ⟨role + 128, by omega⟩ := by
    unfold producer kProducerThreads
    simp
  refine ⟨c, ⟨role + 128, by omega⟩, chunk, hc, hconsumer, ?_, ?_⟩
  · rw [h c hc]
    exact hchunk
  · unfold roleThread
    rw [if_neg hconsumer]
    simp [kProducerThreads]

/-- In every interleaving of the threads of the grid that respects the barrier, each load
sees the element of its own chunk, each element of the output is written at most once
and with its value, and the run can go on until every element is written. -/
theorem handedOff_of_run (l : Launch α) {g₀ : Grid α} (hinitial : g₀.Initial)
    {as : List (Nat × Tid)}
    (hrun : as.foldlM (logged (step l)) (g₀, []) = .ok (g, log)) : HandedOff l as g log := by
  obtain ⟨hinv, hle⟩ := (GridInv.initial hinitial).run hrun
  have hrank := hinv.rank_le
  refine ⟨hinv.accesses.loads, hinv.outputs.nodup, fun i v hmem => ?_, fun hcomplete i hi => ?_,
    hinv.exists_step, by omega⟩
  · obtain ⟨hlt, hv, _⟩ := hinv.outputs.values i v hmem
    exact ⟨hlt, hv⟩
  · have hmem := (hinv.outputs.mem_iff i).mpr (hcomplete.done hi)
    refine ⟨List.count_eq_one_of_mem hinv.outputs.nodup hmem, ?_⟩
    obtain ⟨⟨j, v⟩, hwrite, rfl⟩ := List.mem_map.mp hmem
    obtain ⟨_, hv, hout⟩ := hinv.outputs.values j v hwrite
    rw [← hv]
    exact hout

/-- One CTA with one element for each thread, over natural numbers. -/
def sampleLaunch : Launch Nat where
  n := 256
  n_lt := by decide
  memoryIters := 1
  blocks := 1
  accepted := by decide
  computeIters := 1
  ops := ⟨fun x y z => x * y + z, fun x y => x + y, 2, 3, 5⟩
  input
    | .a, i => i
    | .b, i => i + 1
    | .c, i => i + 2

/-- A grid before its first step. -/
def sampleGrid : Grid Nat where
  ctas _ := { threads := fun _ => { reg := fun _ => 0 }, smem := fun _ _ _ => 0 }
  out _ := 0

theorem sampleGrid_initial : sampleGrid.Initial := fun _ _ => ⟨rfl, rfl⟩

theorem handedOff_of_complete_run :
    ∃ (as : List (Nat × Tid)) (g : Grid Nat) (log : List (Event Nat)),
      as.foldlM (logged (step sampleLaunch)) (sampleGrid, []) = .ok (g, log) ∧
      g.out 255 = sampleLaunch.value 255 := by
  obtain ⟨as, ⟨g, log⟩, hrun, hcomplete⟩ :=
    (GridInv.initial (l := sampleLaunch) sampleGrid_initial).exists_complete
  refine ⟨as, g, log, hrun, ?_⟩
  exact ((handedOff_of_run sampleLaunch sampleGrid_initial hrun).complete hcomplete 255
    (by decide)).2

end StreamFma
end WaspSim
