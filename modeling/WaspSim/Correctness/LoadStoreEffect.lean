import WaspSim.Correctness.IssueFrame
import WaspSim.Shader.Inflight

/-!
# What the load/store unit does to its accesses

A step of the unit moves accesses between its places or has one of them
answered. A load in the dispatch register leaves once its accesses are gone, and
is completed there unless responses are pending.
-/

namespace WaspSim
namespace Shader

variable {Mem : Type} {cfg : Config} {s s' : Shader Mem} {es : List Event} {inst : WarpInst}

/-- The parts of a core that a load/store step leaves alone. -/
structure OutsideLdst (s s' : Shader Mem) : Prop where
  ctaStatus_eq : s'.ctaStatus = s.ctaStatus
  mem_eq : s'.mem = s.mem
  nextUid_eq : s'.nextUid = s.nextUid

theorem queue?_congr (h : s'.tables = s.tables) (kind : QueueKind) (key : QueueKey) :
    s'.queue? kind key = s.queue? kind key := by
  simp [queue?, h]

/-- Both versions of a response are one function at the instruction's kind. -/
theorem markResponse_eq (cfg : Config) (s : Shader Mem) (inst : WarpInst) :
    markResponse cfg s inst = markMemResponse inst.kind cfg s inst := by
  unfold markResponse
  cases inst.kind <;> rfl

/-- The requests that a load waits for are read in the table of its kind. -/
theorem pendingRequests_eq (cfg : Config) (s : Shader Mem) (inst : WarpInst) :
    pendingRequests cfg s inst = loadPending inst.kind cfg s inst := by
  unfold pendingRequests
  cases inst.kind <;> rfl

/-- Whatever it marks, a response leaves the other queues alone. -/
theorem markResponse_frame {last : Bool} (h : markResponse cfg s inst = .ok (s', last)) :
    OnQueue inst.kind inst.tokenFromInst.key s s' := by
  rw [markResponse_eq] at h
  unfold markMemResponse at h
  split at h
  · rw [pure_eq_ok, Prod.mk.injEq] at h
    obtain ⟨rfl, rfl⟩ := h
    exact .refl inst.kind _ s
  · simp only [bind_eq_ok, pure_eq_ok, Prod.exists, Prod.mk.injEq] at h
    obtain ⟨_, _, q, _, _, rfl, rfl⟩ := h
    exact (OnQueue.count s inst.kind _).trans (.putQueue _ inst.kind _ _)

/-- The events of an answer that completes the load with the last response. -/
def answerEvents (uid : Nat) (last : Bool) : List Event :=
  if last then [.answered uid, .completed uid] else [.answered uid]

/-- A step of the unit outside the dispatch register. -/
inductive LdstStep (cfg : Config) (s s' : Shader Mem) : List Event → Prop
  /-- Accesses change their place. -/
  | moved (htables : s'.tables = s.tables) (hinflight : s'.ldst.inflight = s.ldst.inflight) :
      LdstStep cfg s s' []
  /-- An access is answered. -/
  | answered (inst : WarpInst) (out s₁ : Shader Mem) (last : Bool) (hout : out.tables = s.tables)
      (hmark : markResponse cfg out inst = .ok (s₁, last)) (htables : s'.tables = s₁.tables)
      (hinflight : s.ldst.inflight = {inst.access} + s'.ldst.inflight) :
      LdstStep cfg s s' (answerEvents inst.uid last)

/-- The frame of a step outside the dispatch register. -/
structure LdstFrame (s s' : Shader Mem) : Prop extends OutsideLdst s s' where
  warps_eq : s'.warps = s.warps
  dispatch_eq : s'.ldst.dispatch = s.ldst.dispatch

/-- An answer marks a response, and the events say whether it was the last one. -/
theorem answer_eq_ok (h : answer cfg s inst = .ok (s', es)) :
    ∃ last, markResponse cfg s inst = .ok (s', last) ∧ es = answerEvents inst.uid last := by
  simp only [answer, bind_eq_ok, pure_eq_ok, Prod.exists, Prod.mk.injEq] at h
  obtain ⟨s₁, last, hmark, rfl, rfl⟩ := h
  exact ⟨last, hmark, rfl⟩

/-- What the L1 latency queue does is one of the steps of the load/store unit. -/
theorem l1LatencyQueueCycle_cases {i : Nat} {status : CacheStatus}
    (h : l1LatencyQueueCycle cfg s i status = .ok (s', es)) :
    LdstStep cfg s s' es ∧ LdstFrame s s' := by
  simp only [l1LatencyQueueCycle, bind_eq_ok, fetch_eq_ok] at h
  obtain ⟨inst, hinst, h⟩ := h
  have hout : s.ldst.inflight = {inst.access} + LdstUnit.inflight { s.ldst with
      l1LatencyQueue := s.ldst.l1LatencyQueue.eraseIdx i } := by
    simp only [LdstUnit.inflight, copies_eraseIdx hinst]
    abel
  have hmiss : s.ldst.inflight = LdstUnit.inflight { s.ldst with
      l1LatencyQueue := s.ldst.l1LatencyQueue.eraseIdx i
      memory := s.ldst.memory ++ [inst] } := by
    simp only [LdstUnit.inflight, copies_eraseIdx hinst, copies_append, copies_singleton]
    abel
  cases status with
  | hit =>
    obtain ⟨last, hmark, rfl⟩ := answer_eq_ok h
    have hcore := (markResponse_frame hmark).core
    exact ⟨.answered inst _ s' last (by rfl) hmark rfl (by rw [hcore.ldst_eq]; exact hout),
      ⟨hcore.ctaStatus_eq, hcore.mem_eq, hcore.nextUid_eq⟩, hcore.warps_eq,
      by rw [hcore.ldst_eq]; rfl⟩
  | reservationFail =>
    simp only [pure_eq_ok, Prod.mk.injEq] at h
    obtain ⟨rfl, rfl⟩ := h
    exact ⟨.moved rfl rfl, ⟨rfl, rfl, rfl⟩, rfl, rfl⟩
  | miss =>
    simp only [pure_eq_ok, Prod.mk.injEq] at h
    obtain ⟨rfl, rfl⟩ := h
    exact ⟨.moved rfl hmiss.symm, ⟨rfl, rfl, rfl⟩, rfl, rfl⟩
  | hitReserved =>
    simp only [pure_eq_ok, Prod.mk.injEq] at h
    obtain ⟨rfl, rfl⟩ := h
    exact ⟨.moved rfl hmiss.symm, ⟨rfl, rfl, rfl⟩, rfl, rfl⟩

theorem respond_cases {i : Nat} (h : respond cfg s i = .ok (s', es)) :
    LdstStep cfg s s' es ∧ LdstFrame s s' := by
  simp only [respond, bind_eq_ok, fetch_eq_ok] at h
  obtain ⟨inst, hinst, h⟩ := h
  split at h
  · simp only [bind_eq_ok, require_eq_ok, pure_eq_ok, Prod.mk.injEq] at h
    obtain ⟨_, hnone, rfl, rfl⟩ := h
    refine ⟨.moved rfl ?_, ⟨rfl, rfl, rfl⟩, rfl, rfl⟩
    simp only [setLdst, LdstUnit.inflight, copies_eraseIdx hinst, hnone, Option.toList_none,
      Option.toList_some, copies_nil, copies_singleton]
    abel
  · simp only [pure_eq_ok, Prod.mk.injEq] at h
    obtain ⟨rfl, rfl⟩ := h
    refine ⟨.moved rfl ?_, ⟨rfl, rfl, rfl⟩, rfl, rfl⟩
    simp only [setLdst, LdstUnit.inflight, copies_eraseIdx hinst, copies_append, copies_singleton]
    abel

theorem writeback_cases {client : WritebackClient} (h : writeback cfg s client = .ok (s', es)) :
    LdstStep cfg s s' es ∧ LdstFrame s s' := by
  unfold writeback at h
  cases hwb : s.ldst.nextWb with
  | some inst =>
    simp only [hwb, bind_eq_ok, pure_eq_ok, Prod.exists, Prod.mk.injEq] at h
    obtain ⟨s₁, es₁, hanswer, rfl, rfl⟩ := h
    obtain ⟨last, hmark, rfl⟩ := answer_eq_ok hanswer
    have hcore := (markResponse_frame hmark).core
    refine ⟨.answered inst s s₁ last rfl hmark rfl ?_,
      ⟨hcore.ctaStatus_eq, hcore.mem_eq, hcore.nextUid_eq⟩, hcore.warps_eq, ?_⟩
    · simp only [setLdst, LdstUnit.inflight, hcore.ldst_eq, hwb, Option.toList_none,
        Option.toList_some, copies_nil, copies_singleton]
      abel
    · change s₁.ldst.dispatch = _
      rw [hcore.ldst_eq]
  | none =>
    cases client with
    | nextGlobal =>
      simp only [hwb, bind_eq_ok, fetch_eq_ok, pure_eq_ok, Prod.mk.injEq] at h
      obtain ⟨inst, hinst, rfl, rfl⟩ := h
      refine ⟨.moved rfl ?_, ⟨rfl, rfl, rfl⟩, rfl, rfl⟩
      simp only [setLdst, LdstUnit.inflight, hwb, hinst, Option.toList_none, Option.toList_some,
        copies_nil, copies_singleton]
      abel
    | l1dAccess i =>
      simp only [hwb, bind_eq_ok, fetch_eq_ok, pure_eq_ok, Prod.mk.injEq] at h
      obtain ⟨inst, hinst, rfl, rfl⟩ := h
      refine ⟨.moved rfl ?_, ⟨rfl, rfl, rfl⟩, rfl, rfl⟩
      simp only [setLdst, LdstUnit.inflight, hwb, copies_eraseIdx hinst, Option.toList_none,
        Option.toList_some, copies_nil, copies_singleton]
      abel

/-- One instruction leaves the pipeline of a warp. -/
structure Leaves (s : Shader Mem) (w : Nat) (s' : Shader Mem) : Prop where
  busy : 0 < (s.warps w).instInPipeline
  warps_eq : s'.warps =
    (s.setWarp w fun v => { v with instInPipeline := v.instInPipeline - 1 }).warps

/-- What `ldst_unit::cycle` does with the load `inst` at place `i` on its way through the
dispatch register. -/
inductive DispatchStep (cfg : Config) (s : Shader Mem) (i : Nat) (inst : WarpInst)
    (s' : Shader Mem) : List Event → Prop
  /-- Some accesses are sent and some are left. -/
  | sent (n : Nat) (hleft : n < inst.accessqCount) (htables : s'.tables = s.tables)
      (hinflight : s'.ldst.inflight = s.ldst.inflight)
      (hdispatch : s'.ldst.dispatch = s.ldst.dispatch.set i (accessqPop inst n))
      (hwarps : s'.warps = s.warps) : DispatchStep cfg s i inst s' []
  /-- The rest of the accesses is sent. -/
  | sentLast (pending : Bool) (htables : s'.tables = s.tables)
      (hinflight : s'.ldst.inflight = s.ldst.inflight)
      (hdispatch : s'.ldst.dispatch = s.ldst.dispatch.eraseIdx i)
      (hpending : pendingRequests cfg s inst = .ok pending)
      (hwarps : Leaves s inst.warpId s') :
      DispatchStep cfg s i inst s' (if pending then [] else [.completed inst.uid])
  /-- One access is answered by a hit and some are left. -/
  | hit (s₁ : Shader Mem) (last : Bool) (hleft : 1 < inst.accessqCount)
      (hmark : markResponse cfg s inst = .ok (s₁, last)) (htables : s'.tables = s₁.tables)
      (hinflight : s.ldst.inflight = {inst.access} + s'.ldst.inflight)
      (hdispatch : s'.ldst.dispatch = s.ldst.dispatch.set i (accessqPop inst 1))
      (hwarps : s'.warps = s.warps) : DispatchStep cfg s i inst s' [.answered inst.uid]
  /-- The only access left is answered by a hit. -/
  | hitLast (s₁ : Shader Mem) (last pending : Bool) (hleft : inst.accessqCount = 1)
      (hmark : markResponse cfg s inst = .ok (s₁, last)) (htables : s'.tables = s₁.tables)
      (hinflight : s.ldst.inflight = {inst.access} + s'.ldst.inflight)
      (hdispatch : s'.ldst.dispatch = s.ldst.dispatch.eraseIdx i)
      (hpending : pendingRequests cfg s₁ inst = .ok pending)
      (hwarps : Leaves s inst.warpId s') :
      DispatchStep cfg s i inst s'
        (if pending then [.answered inst.uid] else [.answered inst.uid, .completed inst.uid])

/-- The accesses in flight when the load at place `i` loses `n` of its own. -/
private theorem inflight_accessqPop {ldst : LdstUnit} {i n : Nat} (hn : n ≤ inst.accessqCount)
    (hinst : ldst.dispatch[i]? = some inst) :
    Multiset.replicate n inst.access +
        LdstUnit.inflight { ldst with dispatch := ldst.dispatch.set i (accessqPop inst n) } =
      ldst.inflight := by
  have haccess : (accessqPop inst n).access = inst.access := rfl
  simp only [LdstUnit.inflight, queuedAccesses_set _ hinst, queuedAccesses_eraseIdx hinst,
    replicate_access_split inst hn, haccess]
  abel

/-- The accesses in flight when the load at place `i` leaves. -/
private theorem inflight_eraseIdx {ldst : LdstUnit} {i : Nat}
    (hinst : ldst.dispatch[i]? = some inst) :
    Multiset.replicate inst.accessqCount inst.access +
        LdstUnit.inflight { ldst with dispatch := ldst.dispatch.eraseIdx i } = ldst.inflight := by
  simp only [LdstUnit.inflight, queuedAccesses_eraseIdx hinst]
  abel

/-- A warp counts an instruction out of the pipeline when it has one there. -/
theorem decInstInPipeline_eq_ok {w : Nat} {s' : Shader Mem}
    (h : decInstInPipeline s w = .ok s') :
    0 < (s.warps w).instInPipeline ∧
      s' = s.setWarp w fun v => { v with instInPipeline := v.instInPipeline - 1 } := by
  simp only [decInstInPipeline, bind_eq_ok, require_eq_ok, pure_eq_ok] at h
  obtain ⟨_, hpos, rfl⟩ := h
  exact ⟨hpos, rfl⟩

/-- A load whose lanes are all off has no accesses, so it can only leave. -/
theorem dispatchCycle_cases {i : Nat} {port : Port}
    (hoff : ∀ inst, s.ldst.dispatch[i]? = some inst → inst.activeMask = 0 →
      inst.accessqCount = 0)
    (h : dispatchCycle cfg s i port = .ok (s', es)) :
    ∃ inst, s.ldst.dispatch[i]? = some inst ∧ DispatchStep cfg s i inst s' es ∧
      OutsideLdst s s' := by
  simp only [dispatchCycle, bind_eq_ok, fetch_eq_ok, Prod.exists] at h
  obtain ⟨inst, hinst, s₁, inst₁, done, es₁, hcycle, h⟩ := h
  refine ⟨inst, hinst, ?_⟩
  cases memoryCycle_cases (hoff inst hinst) hcycle with
  | sent n ldst hn hdispatch hinflight =>
    have hinst' : ldst.dispatch[i]? = some inst := by rw [hdispatch]; exact hinst
    by_cases hdone : (accessqPop inst n).accessqCount = 0
    · simp only [hdone, BEq.rfl, ↓reduceIte, bind_eq_ok, pure_eq_ok, Prod.mk.injEq] at h
      obtain ⟨pending, hpending, s₂, hdec, rfl, rfl⟩ := h
      obtain ⟨hpos, rfl⟩ := decInstInPipeline_eq_ok hdec
      have hall : n = inst.accessqCount := by
        simp only [accessqPop] at hdone
        omega
      have hin := inflight_eraseIdx hinst'
      rw [hinflight, ← hall, Multiset.add_comm, Multiset.add_left_inj] at hin
      have hdisp : ldst.dispatch.eraseIdx i = s.ldst.dispatch.eraseIdx i := by rw [hdispatch]
      exact ⟨.sentLast pending rfl hin hdisp hpending ⟨hpos, rfl⟩, rfl, rfl, rfl⟩
    · have hfalse : ((accessqPop inst n).accessqCount == 0) = false := by simpa using hdone
      simp only [hfalse, Bool.false_eq_true, ↓reduceIte, pure_eq_ok, Prod.mk.injEq] at h
      obtain ⟨rfl, rfl⟩ := h
      have hlt : n < inst.accessqCount := by
        simp only [accessqPop] at hdone
        omega
      have hin := inflight_accessqPop hn hinst'
      rw [hinflight, Multiset.add_comm, Multiset.add_left_inj] at hin
      have hdisp : ldst.dispatch.set i (accessqPop inst n) =
          s.ldst.dispatch.set i (accessqPop inst n) := by rw [hdispatch]
      exact ⟨.sent n hlt rfl hin hdisp rfl, rfl, rfl, rfl⟩
  | hit s₂ last hpos hmark =>
    have hcore := (markResponse_frame hmark).core
    have hinst' : s₁.ldst.dispatch[i]? = some inst := by rw [hcore.ldst_eq]; exact hinst
    by_cases hdone : (accessqPop inst 1).accessqCount = 0
    · simp only [hdone, BEq.rfl, ↓reduceIte, bind_eq_ok, pure_eq_ok, Prod.mk.injEq] at h
      obtain ⟨pending, hpending, s₂, hdec, rfl, rfl⟩ := h
      obtain ⟨hbusy, rfl⟩ := decInstInPipeline_eq_ok hdec
      have hone : inst.accessqCount = 1 := by
        simp only [accessqPop] at hdone
        omega
      have hin := inflight_eraseIdx hinst'
      rw [hone, Multiset.replicate_one, hcore.ldst_eq] at hin
      have hdisp : s₁.ldst.dispatch.eraseIdx i = s.ldst.dispatch.eraseIdx i := by
        rw [hcore.ldst_eq]
      have hbusy' : 0 < (s.warps inst.warpId).instInPipeline := by
        rw [hcore.warps_eq] at hbusy
        exact hbusy
      refine ⟨?_, hcore.ctaStatus_eq, hcore.mem_eq, hcore.nextUid_eq⟩
      suffices hstep : DispatchStep cfg s i inst _
          (if pending then [.answered inst.uid] else [.answered inst.uid, .completed inst.uid]) by
        cases pending with
        | true => exact hstep
        | false => exact hstep
      refine .hitLast s₁ last pending hone hmark rfl (hin.symm.trans ?_) hdisp hpending
        ⟨hbusy', ?_⟩
      · change _ = {inst.access} + LdstUnit.inflight { s₁.ldst with
          dispatch := s₁.ldst.dispatch.eraseIdx i }
        rw [hcore.ldst_eq]
      · change Function.update s₁.warps _ _ = Function.update s.warps _ _
        rw [hcore.warps_eq]
        rfl
    · have hfalse : ((accessqPop inst 1).accessqCount == 0) = false := by simpa using hdone
      simp only [hfalse, Bool.false_eq_true, ↓reduceIte, pure_eq_ok, Prod.mk.injEq] at h
      obtain ⟨rfl, rfl⟩ := h
      have hlt : 1 < inst.accessqCount := by
        simp only [accessqPop] at hdone
        omega
      have hin := inflight_accessqPop hpos hinst'
      rw [Multiset.replicate_one, hcore.ldst_eq] at hin
      have hdisp : s₁.ldst.dispatch.set i (accessqPop inst 1) =
          s.ldst.dispatch.set i (accessqPop inst 1) := by rw [hcore.ldst_eq]
      refine ⟨.hit s₁ last hlt hmark rfl (hin.symm.trans ?_) hdisp hcore.warps_eq,
        hcore.ctaStatus_eq, hcore.mem_eq, hcore.nextUid_eq⟩
      change _ = {inst.access} + LdstUnit.inflight { s₁.ldst with
        dispatch := s₁.ldst.dispatch.set i (accessqPop inst 1) }
      rw [hcore.ldst_eq]

end Shader
end WaspSim
