import WaspSim.Scheduler.Issued
import WaspSim.Scheduler.QueueHead

/-!
# The other warps under an issue

Issuing an instruction of one warp leaves the i-buffers, SIMT stacks, scoreboard
entries and retirement state of the other warps alone, holds none of them at a
barrier, and fills a register of one output set. Threads that exit only release
other warps.
-/

namespace WaspSim
namespace Shader

variable {Mem : Type} {cfg : Config} {s s' : Shader Mem} {read : Mem → BitVec 64 → Nat → BitVec 64}

/-- Issuing a queue instruction leaves the other warps alone. -/
theorem issueWarp_beside {w v : Nat} {inst : QueueInst} {mask : ActiveMask} {input : LaneInput}
    {es : List Event} (h : issueWarp cfg read s w inst mask input = .ok (s', es)) (hne : v ≠ w) :
    s'.warps v = s.warps v := by
  cases hload : inst.load with
  | true =>
    obtain ⟨_, _, _, _, _, _, _, hwarps⟩ := issueWarp_load_frame hload h
    simp [hwarps, issuing, setWarp, hne]
  | false =>
    obtain ⟨_, _, _, _, _, _, hwarps⟩ := issueWarp_move_frame hload h
    simp [hwarps, issuing, setWarp, hne]

/-- The actions that issue an instruction without a queue change their own warp alone. -/
theorem step_beside {w : Nat} {a : Action Mem} {es : List Event}
    (ha : a = .issueOther w ∨ (∃ mem, a = .storeMem mem) ∨ (∃ n, a = .exit w n) ∨ a = .flush w)
    (h : step cfg read s a = .ok (s', es)) :
    s'.tables = s.tables ∧ ∀ v, v ≠ w → s'.warps v = s.warps v := by
  rcases ha with rfl | ⟨mem, rfl⟩ | ⟨n, rfl⟩ | rfl
  · simp only [step, bind_eq_ok, pure_eq_ok, Prod.mk.injEq] at h
    obtain ⟨_, _, rfl, _⟩ := h
    exact ⟨rfl, fun v hv => Function.update_of_ne hv _ _⟩
  · simp only [step, pure_eq_ok, Prod.mk.injEq] at h
    obtain ⟨rfl, _⟩ := h
    exact ⟨rfl, fun _ _ => rfl⟩
  · simp only [step, bind_eq_ok, pure_eq_ok, Prod.mk.injEq] at h
    obtain ⟨_, _, rfl, _⟩ := h
    exact ⟨rfl, fun v hv => Function.update_of_ne hv _ _⟩
  · simp only [step, bind_eq_ok, pure_eq_ok, Prod.mk.injEq] at h
    obtain ⟨_, _, rfl, _⟩ := h
    exact ⟨rfl, fun v hv => Function.update_of_ne hv _ _⟩

end Shader

namespace BarrierSet

variable {b b' : BarrierSet}

/-- Releasing warps holds no warp. -/
theorem mem_release (barId : Nat) {v : Nat} {warps : Finset Nat}
    (h : v ∈ (b.release barId warps).warpAtBarrier) : v ∈ b.warpAtBarrier :=
  (Finset.mem_sdiff.mp h).1

/-- A warp that reaches a barrier holds no other warp there. -/
theorem mem_warpReachesBarrier {warpSize ctaId w v : Nat} {inst : SchedInst} {reduced : Finset Nat}
    (h : b.warpReachesBarrier warpSize ctaId w inst = .ok (b', reduced)) (hne : v ≠ w)
    (hv : v ∈ b'.warpAtBarrier) : v ∈ b.warpAtBarrier := by
  simp only [warpReachesBarrier, bind_eq_ok, pure_eq_ok, Prod.exists] at h
  obtain ⟨_, warpsInCta, _, _, _, h⟩ := h
  have hcases : ∀ (reached : Bool) (x y : BarrierSet × Finset Nat),
      (if reached then x else y) = (b', reduced) → x.1 = b' ∨ y.1 = b' := by
    intro reached x y heq
    cases reached with
    | true => exact .inl (congrArg Prod.fst heq)
    | false => exact .inr (congrArg Prod.fst heq)
  by_cases hsync : inst.barType = .sync ∨ inst.barType = .red
  · simp only [hsync, ↓reduceIte] at h
    have hinsert : v ∈ insert w b.warpAtBarrier → v ∈ b.warpAtBarrier :=
      fun hmem => (Finset.mem_insert.mp hmem).resolve_left hne
    rcases hcases _ _ _ h with heq | heq
    · rw [← heq] at hv
      exact hinsert (mem_release inst.barId hv)
    · rw [← heq] at hv
      exact hinsert hv
  · simp only [hsync, ↓reduceIte] at h
    rcases hcases _ _ _ h with heq | heq
    · rw [← heq] at hv
      exact mem_release inst.barId hv
    · rw [← heq] at hv
      exact hv

/-- A warp that exits holds no warp. -/
theorem mem_warpExit {maxBarriers w v : Nat} (h : b.warpExit maxBarriers w = .ok b')
    (hv : v ∈ b'.warpAtBarrier) : v ∈ b.warpAtBarrier := by
  simp only [warpExit, bind_eq_ok, pure_eq_ok, Prod.exists] at h
  obtain ⟨_, warpsInCta, _, rfl⟩ := h
  revert hv
  refine List.foldlRecOn (motive := fun b₁ : BarrierSet => v ∈ b₁.warpAtBarrier →
    v ∈ b.warpAtBarrier) _ _ (fun hv => hv) fun b₁ ih barId _ hv => ?_
  split at hv
  · exact ih (mem_release barId hv)
  · exact ih hv

end BarrierSet

namespace IssueState

variable {Mem Threads Simt Score : Type} {O : Outside Mem Threads Simt Score} {cfg : SchedConfig}
  {c c' m : IssueState Mem Threads Simt Score} {w : Nat}

/-- Beside warp `w` the core is as before, as far as the issue of the other warps reads it. -/
structure Beside (O : Outside Mem Threads Simt Score) (w : Nat)
    (c c' : IssueState Mem Threads Simt Score) : Prop where
  warp_eq : ∀ v, v ≠ w → c'.shader.warps v = c.shader.warps v
  sched_eq : ∀ v, v ≠ w → c'.schedWarps v = c.schedWarps v
  simt_eq : ∀ v, v ≠ w → c'.simtStack v = c.simtStack v
  collision_eq : ∀ v, v ≠ w → ∀ inst,
    O.checkCollision c'.scoreboard v inst = O.checkCollision c.scoreboard v inst
  barrier : ∀ v, v ≠ w → v ∈ c'.barriers.warpAtBarrier → v ∈ c.barriers.warpAtBarrier

namespace Beside

theorem refl (w : Nat) (c : IssueState Mem Threads Simt Score) : Beside O w c c :=
  ⟨fun _ _ => rfl, fun _ _ => rfl, fun _ _ => rfl, fun _ _ _ => rfl, fun _ _ hv => hv⟩

theorem trans (h : Beside O w c m) (h' : Beside O w m c') : Beside O w c c' :=
  ⟨fun v hv => (h'.warp_eq v hv).trans (h.warp_eq v hv),
    fun v hv => (h'.sched_eq v hv).trans (h.sched_eq v hv),
    fun v hv => (h'.simt_eq v hv).trans (h.simt_eq v hv),
    fun v hv inst => (h'.collision_eq v hv inst).trans (h.collision_eq v hv inst),
    fun v hv hat => h.barrier v hv (h'.barrier v hv hat)⟩

theorem setSchedWarp (g : SchedWarp → SchedWarp) : Beside O w c (c.setSchedWarp w g) := by
  refine ⟨fun _ _ => rfl, fun v hv => ?_, fun _ _ => rfl, fun _ _ _ => rfl, fun _ _ hat => hat⟩
  simp [IssueState.setSchedWarp, hv]

/-- A change of the queue machine that leaves the other warps alone. -/
theorem shader {shader : Shader Mem} {mem : Threads}
    (h : ∀ v, v ≠ w → shader.warps v = c.shader.warps v) :
    Beside O w c { c with shader, threads := mem } :=
  ⟨h, fun _ _ => rfl, fun _ _ => rfl, fun _ _ _ => rfl, fun _ _ hat => hat⟩

end Beside

/-- A flush touches no queue. -/
theorem ibufferFlush_beside (h : c.ibufferFlush O cfg w = .ok c') :
    Beside O w c c' ∧ c'.shader.tables = c.shader.tables := by
  simp only [ibufferFlush, bind_eq_ok, pure_eq_ok, Prod.exists] at h
  obtain ⟨shader, _, hstep, rfl⟩ := h
  obtain ⟨htables, hwarps⟩ := Shader.step_beside (.inr (.inr (.inr rfl))) hstep
  have hshader : Beside O w c { c with shader } := by
    apply Beside.shader
    intro v hv
    rw [hwarps v hv]
    exact Function.update_of_ne hv _ _
  exact ⟨hshader.trans (.setSchedWarp _), htables⟩

/-- Functional execution leaves the other warps alone, and without a queue instruction the
queues. -/
theorem funcExecInst_beside {pipe pipe' : PipeInst}
    (h : c.funcExecInst O cfg pipe = .ok (c', pipe')) :
    Beside O pipe.warpId c c' ∧ (pipe.queue = none → c'.shader.tables = c.shader.tables) := by
  unfold funcExecInst at h
  split at h
  · rename_i inst hqueue
    simp only [bind_eq_ok, pure_eq_ok, Prod.exists, Prod.mk.injEq] at h
    obtain ⟨_, _, hissue, rfl, _⟩ := h
    refine ⟨.shader fun v hv => Shader.issueWarp_beside hissue hv, fun hnone => ?_⟩
    rw [hqueue] at hnone
    cases hnone
  · simp only [bind_eq_ok, Prod.exists] at h
    obtain ⟨s₁, _, h₁, s₂, _, h₂, s₃, _, h₃, h⟩ := h
    obtain ⟨ht₁, hw₁⟩ := Shader.step_beside (.inl rfl) h₁
    obtain ⟨ht₂, hw₂⟩ := Shader.step_beside (w := pipe.warpId) (.inr (.inl ⟨_, rfl⟩)) h₂
    obtain ⟨ht₃, hw₃⟩ := Shader.step_beside (.inr (.inr (.inl ⟨_, rfl⟩))) h₃
    have htables : s₃.tables = c.shader.tables := ht₃.trans (ht₂.trans ht₁)
    have hshader : Beside O pipe.warpId c
        { c with
          shader := s₃
          threads := (O.executeWarpInst c.shader.mem c.threads pipe).threads } :=
      .shader fun v hv => (hw₃ v hv).trans ((hw₂ v hv).trans (hw₁ v hv))
    have hatomics := hshader.trans (.setSchedWarp fun sw => { sw with
      nAtomic := sw.nAtomic + (O.executeWarpInst c.shader.mem c.threads pipe).atomics })
    split at h
    · rw [pure_eq_ok, Prod.mk.injEq] at h
      obtain ⟨rfl, _⟩ := h
      exact ⟨hatomics, fun _ => htables⟩
    · simp only [bind_eq_ok] at h
      obtain ⟨m, hflush, h⟩ := h
      obtain ⟨hflushed, htables'⟩ := ibufferFlush_beside hflush
      have hbefore := hatomics.trans hflushed
      split at h
      · simp only [bind_eq_ok, pure_eq_ok, Prod.mk.injEq] at h
        obtain ⟨barriers, hexit, rfl, _⟩ := h
        refine ⟨hbefore.trans ⟨fun _ _ => rfl, fun _ _ => rfl, fun _ _ => rfl, fun _ _ _ => rfl,
          fun _ _ hat => BarrierSet.mem_warpExit hexit hat⟩, fun _ => htables'.trans htables⟩
      · rw [pure_eq_ok, Prod.mk.injEq] at h
        obtain ⟨rfl, _⟩ := h
        exact ⟨hbefore, fun _ => htables'.trans htables⟩

theorem issueBarrier_beside {inst : SchedInst} (h : c.issueBarrier O cfg w inst = .ok c') :
    Beside O w c c' ∧ c'.shader = c.shader := by
  unfold issueBarrier at h
  split at h
  · simp only [bind_eq_ok, pure_eq_ok, Prod.exists] at h
    obtain ⟨barriers, reduced, hreach, rfl⟩ := h
    exact ⟨⟨fun _ _ => rfl, fun _ _ => rfl, fun _ _ => rfl, fun _ _ _ => rfl,
      fun _ hv hat => BarrierSet.mem_warpReachesBarrier hreach hv hat⟩, rfl⟩
  · rw [pure_eq_ok] at h
    subst h
    exact ⟨.setSchedWarp _, rfl⟩
  · rw [pure_eq_ok] at h
    subst h
    exact ⟨.refl w c, rfl⟩

/-- `issue_warp` leaves the other warps and the other output sets alone. -/
theorem issueWarp_beside {port : OutPort} {inst : SchedInst} {mask : ActiveMask} {schedId : Nat}
    (h : c.issueWarp O cfg port inst mask w schedId = .ok c') :
    Beside O w c c' ∧ ∀ port', port' ≠ port → c'.out port' = c.out port' := by
  simp only [issueWarp, bind_eq_ok, pure_eq_ok, Prod.exists] at h
  obtain ⟨regId, _, c₁, pipe, hexec, c₂, hbarrier, rfl⟩ := h
  obtain ⟨hout, hwarp, _⟩ := funcExecInst_out hexec
  have hout₂ := issueBarrier_out hbarrier
  have hcount : Beside O w c { c with shader := c.shader.setWarp w fun v =>
      { v with ibuffered := (c.schedWarps w).numInstInBuffer } } := by
    apply Beside.shader
    intro v hv
    simp [Shader.setWarp, hv]
  have hbuffer := hcount.trans (.setSchedWarp SchedWarp.ibufferFree)
  have hexec' : Beside O w _ c₁ := (funcExecInst_beside hexec).1
  have hregister : Beside O w c₁ { c₁ with
      out := Function.update c₁.out port ((c₁.out port).set regId (some pipe)) } :=
    ⟨fun _ _ => rfl, fun _ _ => rfl, fun _ _ => rfl, fun _ _ _ => rfl, fun _ _ hat => hat⟩
  have hlast : Beside O w c₂ { c₂ with
      simtStack := Function.update c₂.simtStack w
        (O.updateSimtStack c₂.threads pipe (c₂.simtStack w))
      scoreboard := O.reserveRegisters c₂.scoreboard pipe } := by
    refine ⟨fun _ _ => rfl, fun _ _ => rfl, fun v hv => Function.update_of_ne hv _ _,
      fun v hv inst' => ?_, fun _ _ hat => hat⟩
    apply O.checkCollision_reserveRegisters
    rw [hwarp]
    exact hv
  refine ⟨((((hbuffer.trans hexec').trans hregister).trans (issueBarrier_beside hbarrier).1).trans
    hlast).trans (.setSchedWarp _), fun port' hne => ?_⟩
  change c₂.out port' = c.out port'
  rw [hout₂]
  change Function.update c₁.out port _ port' = c.out port'
  rw [Function.update_of_ne hne, hout]
  rfl

end IssueState
end WaspSim
