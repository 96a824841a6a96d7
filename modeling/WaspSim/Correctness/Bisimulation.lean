import WaspSim.Correctness.IssueFrame
import WaspSim.Correctness.Runs
import WaspSim.Correctness.Twin

/-!
# RFQ and SMEMQ are the same machine

Every action of a core on the register queues is matched by the same action of the
core on the shared-memory queues, with the same events, or stops both at the same
assertion; so corresponding states stay corresponding along every run.
-/

namespace WaspSim
namespace Shader

variable {Mem : Type} {cfg cfg' : Config} {s s' : Shader Mem}
  {read : Mem → BitVec 64 → Nat → BitVec 64}

/-- Corresponding states after a step, with the same events. -/
def Matched (x y : Shader Mem × List Event) : Prop := Both (List.map Event.toSmemq) x y

/-- The instruction that `issue_warp` copies into the pipeline register. -/
def copied (s : Shader Mem) (warpId : Nat) (inst : QueueInst) (activeMask : ActiveMask) :
    WarpInst :=
  { inst with uid := s.nextUid, warpId, activeMask }

/-- `issue_warp` once the copied instruction is prepared. -/
def execute (cfg : Config) (read : Mem → BitVec 64 → Nat → BitVec 64) (warpId : Nat)
    (input : LaneInput) (s : Shader Mem) (inst : WarpInst) :
    Except Halt (Shader Mem × List Event) :=
  let executed := executes inst.activeMask input
  if inst.load then do
    let value := fun lane word => read s.mem (input.addr lane word) input.size
    let (s, inst) ← Shader.funcExecLoad cfg read s inst input
    let s ← waspRfqAfterFuncExec cfg s inst >>= fun m => smemqAfterFuncExec cfg m inst
    let s := s.setLdst { s.ldst with dispatch := s.ldst.dispatch ++ [inst] }
    pure (s, [.loaded inst executed value])
  else do
    let writes ← Shader.funcExecMove cfg s inst input
    let s ← waspRfqAfterFuncExec cfg s inst >>= fun m => smemqAfterFuncExec cfg m inst
    let s := s.setWarp warpId fun w => { w with elsewhere := w.elsewhere + 1 }
    pure (s, [.moved inst executed (writtenTo writes)])

/-- The issue of an instruction, with the calls on both kinds of queues written out. -/
theorem issueWarp_eq (warpId : Nat) (inst : QueueInst) (activeMask : ActiveMask)
    (input : LaneInput) :
    issueWarp cfg read s warpId inst activeMask input = (do
      require .disabled (0 < (s.warps warpId).ibuffered ∧ (s.warps warpId).functionalDone = false)
      require .queueDisabled (cfg.enabled inst.kind = true)
      let x ← (waspRfqPrepareIssue cfg (issuing s warpId) (copied s warpId inst activeMask) >>=
        fun x => smemqPrepareIssue cfg x.1 x.2)
      execute cfg read warpId input x.1 x.2) := by
  simp only [execute, bind_assoc]
  rfl

namespace Corresponds

variable (hcfg : cfg.Twin cfg') (h : Corresponds s s')
include hcfg h

/-- Twin cores execute a lane of twin loads alike. -/
theorem ldExec (inst : WarpInst) (input : LaneInput) (lane : Nat) :
    Related Corresponds (waspRfqLdExec cfg read s inst input lane)
      (smemqLdExec cfg' read s' inst.toSmemq input lane) := by
  refine .foldlM (fun m m' word _ hm => ?_) h
  rw [hm.mem_eq]
  exact hm.functionalStoreLane hcfg inst lane word _

/-- Twin cores give a lane of twin moves the same words. -/
theorem movExec_eq (inst : WarpInst) (lane : Nat) :
    smemqMovExec cfg' s' inst.toSmemq lane = waspRfqMovExec cfg s inst lane := by
  have hread : ∀ word, Shader.functionalReadLane .smemq cfg' s' inst.toSmemq lane word =
      Shader.functionalReadLane .rfq cfg s inst lane word :=
    h.functionalReadLane_eq hcfg inst lane
  simp only [smemqMovExec, waspRfqMovExec, movExec, hread]
  rfl

/-- Each core executes a lane with the version of its own kind. -/
theorem loadExec {inst : WarpInst} (hkind : inst.kind = .rfq) (input : LaneInput) (lane : Nat) :
    Related Corresponds (loadExec cfg read s inst input lane)
      (loadExec cfg' read s' inst.toSmemq input lane) := by
  rw [loadExec_eq, loadExec_eq, hkind]
  exact h.ldExec hcfg inst input lane

/-- Twin cores give a lane of twin moves the same words, by the kind of the instruction. -/
theorem moveExec_eq {inst : WarpInst} (hkind : inst.kind = .rfq) (lane : Nat) :
    moveExec cfg' s' inst.toSmemq lane = moveExec cfg s inst lane := by
  rw [Shader.moveExec_eq, Shader.moveExec_eq, hkind]
  exact h.movExec_eq hcfg inst lane

/-- Twin cores execute twin loads alike. -/
theorem funcExecLoad {inst : WarpInst} (hkind : inst.kind = .rfq) (input : LaneInput) :
    Related (fun x y => Both WarpInst.toSmemq x y ∧ x.2.kind = .rfq)
      (funcExecLoad cfg read s inst input) (funcExecLoad cfg' read s' inst.toSmemq input) := by
  unfold Shader.funcExecLoad
  rw [hcfg.warpSize_eq]
  refine .bind (.foldlM (R := Both id) (fun p p' lane _ hp => ?_) ⟨h, rfl⟩) fun p p' hp => ?_
  · refine .ite Iff.rfl (fun _ => ?_) fun _ => .pure hp
    refine .ite Iff.rfl (fun _ => ?_) fun _ => ?_
    · exact .bind (.pure hp) fun q q' hq =>
        .bind (.require (by rw [hq.2]; rfl)) fun _ _ _ => .pure hq
    · refine .bind (hp.1.loadExec hcfg hkind input lane) fun m m' hm => ?_
      exact .bind (.pure ⟨hm, rfl⟩) fun q q' hq =>
        .bind (.require (by rw [hq.2]; rfl)) fun _ _ _ => .pure hq
  · exact .bind (.require Iff.rfl) fun _ _ _ => .pure ⟨⟨hp.1, rfl⟩, hkind⟩

/-- Twin cores execute twin moves with the same words. -/
theorem funcExecMove_eq {inst : WarpInst} (hkind : inst.kind = .rfq) (input : LaneInput) :
    funcExecMove cfg' s' inst.toSmemq input = funcExecMove cfg s inst input := by
  simp only [funcExecMove, hcfg.warpSize_eq, h.moveExec_eq hcfg hkind]
  rfl

/-- Each core prepares with the version of its own kind and skips the other. -/
theorem prepareBoth {inst : WarpInst} (hkind : inst.kind = .rfq) :
    Related (fun x y => Both WarpInst.toSmemq x y ∧ x.2.kind = .rfq)
      (waspRfqPrepareIssue cfg s inst >>= fun x => smemqPrepareIssue cfg x.1 x.2)
      (waspRfqPrepareIssue cfg' s' inst.toSmemq >>= fun x => smemqPrepareIssue cfg' x.1 x.2) := by
  have hother : waspRfqPrepareIssue cfg' s' inst.toSmemq = .ok (s', inst.toSmemq) :=
    prepareIssue_other (by simp)
  have hsame := h.prepareIssue hcfg hkind
  rw [hother]
  change Related _ (Shader.prepareIssue .rfq cfg s inst >>= _)
    (Shader.prepareIssue .smemq cfg' s' inst.toSmemq)
  cases hprepare : Shader.prepareIssue .rfq cfg s inst with
  | error e =>
    rw [hprepare] at hsame
    exact hsame
  | ok x =>
    obtain ⟨y, hy, hxy⟩ := hsame.exists_ok hprepare
    have hne : x.2.kind ≠ .smemq := by rw [hxy.2]; decide
    rw [hy]
    change Related _ (smemqPrepareIssue cfg x.1 x.2) _
    rw [smemqPrepareIssue, prepareIssue_other hne]
    exact .ok hxy

/-- Each core closes the entry with the version of its own kind and skips the other. -/
theorem afterBoth {inst : WarpInst} (hkind : inst.kind = .rfq) :
    Related Corresponds
      (waspRfqAfterFuncExec cfg s inst >>= fun m => smemqAfterFuncExec cfg m inst)
      (waspRfqAfterFuncExec cfg' s' inst.toSmemq >>= fun m =>
        smemqAfterFuncExec cfg' m inst.toSmemq) := by
  have hother : waspRfqAfterFuncExec cfg' s' inst.toSmemq = .ok s' :=
    afterFuncExec_other (by simp)
  have hne : inst.kind ≠ .smemq := by rw [hkind]; decide
  have hskip : ∀ m : Shader Mem, smemqAfterFuncExec cfg m inst = .ok m :=
    fun _ => afterFuncExec_other hne
  simp only [hother, hskip]
  have hpure : (Shader.afterFuncExec .rfq cfg s inst >>= fun m => Except.ok m) =
      Shader.afterFuncExec .rfq cfg s inst := by
    cases Shader.afterFuncExec .rfq cfg s inst <;> rfl
  change Related Corresponds (Shader.afterFuncExec .rfq cfg s inst >>= fun m => Except.ok m)
    (Shader.afterFuncExec .smemq cfg' s' inst.toSmemq)
  rw [hpure]
  exact h.afterFuncExec hcfg hkind

/-- Twin cores execute twin instructions alike. -/
theorem execute {inst : WarpInst} (hkind : inst.kind = .rfq) (warpId : Nat)
    (input : LaneInput) :
    Related Matched (execute cfg read warpId input s inst)
      (execute cfg' read warpId input s' inst.toSmemq) := by
  unfold Shader.execute
  rw [h.mem_eq]
  refine .ite Iff.rfl (fun _ => ?_) fun _ => ?_
  · refine .bind (h.funcExecLoad hcfg hkind input) ?_
    rintro ⟨m, inst'⟩ ⟨m', _⟩ ⟨⟨hm, rfl⟩, hkind'⟩
    refine .bind (hm.afterBoth hcfg hkind') fun c c' hc => .pure ⟨hc.setLdst ?_ ?_, rfl⟩
    · simp [hc.ldst_eq, LdstUnit.toSmemq]
    · refine { hc.onlyRfq with dispatch := fun i hi => ?_ }
      rcases List.mem_append.mp hi with hi | hi
      · exact hc.onlyRfq.dispatch i hi
      · rw [List.mem_singleton.mp hi]
        exact hkind'
  · rw [h.funcExecMove_eq hcfg hkind input]
    refine .bind (.of_eq rfl) ?_
    rintro writes _ rfl
    refine .bind (h.afterBoth hcfg hkind) fun c c' hc => .pure ⟨?_, rfl⟩
    exact hc.setWarp warpId fun w => { w with elsewhere := w.elsewhere + 1 }

/-- Issuing a queue instruction. -/
theorem issueWarp (warpId : Nat) {inst : QueueInst} (hkind : inst.kind = .rfq)
    (activeMask : ActiveMask) (input : LaneInput) :
    Related Matched (issueWarp cfg read s warpId inst activeMask input)
      (issueWarp cfg' read s' warpId inst.toSmemq activeMask input) := by
  have hon : cfg.enabled inst.kind = true := by rw [hkind, hcfg.rfq_enabled]
  have hon' : cfg'.enabled inst.toSmemq.kind = true := (hcfg.smemq_enabled _).mpr rfl
  have hstart : Corresponds (issuing s warpId) (issuing s' warpId) := by
    have hwarp := h.setWarp warpId fun w => { w with ibuffered := w.ibuffered - 1 }
    exact { hwarp with nextUid_eq := by simp only [issuing, h.nextUid_eq] }
  have hcopied : copied s' warpId inst.toSmemq activeMask =
      (copied s warpId inst activeMask).toSmemq := by
    simp only [copied, h.nextUid_eq]
    rfl
  rw [issueWarp_eq, issueWarp_eq, h.warps_eq, hcopied]
  refine .bind (.require Iff.rfl) fun _ _ _ => .bind (.require (by simp [hon, hon'])) ?_
  intro _ _ _
  refine .bind (hstart.prepareBoth hcfg hkind) ?_
  rintro ⟨m, inst'⟩ ⟨m', _⟩ ⟨⟨hm, rfl⟩, hkind'⟩
  exact hm.execute hcfg hkind' warpId input

/-- Twin cores mark the response of twin instructions alike. -/
theorem markResponse {inst : WarpInst} (hkind : inst.kind = .rfq) :
    Related (Both id) (markResponse cfg s inst) (markResponse cfg' s' inst.toSmemq) := by
  simp only [Shader.markResponse, hkind, WarpInst.kind_toSmemq]
  exact h.markMemResponse hcfg hkind

theorem pendingRequests {inst : WarpInst} (hkind : inst.kind = .rfq) :
    Related Eq (pendingRequests cfg s inst) (pendingRequests cfg' s' inst.toSmemq) := by
  simp only [Shader.pendingRequests, hkind, WarpInst.kind_toSmemq]
  exact h.loadPending hcfg hkind

/-- Twin cores answer twin instructions alike. -/
theorem answer {inst : WarpInst} (hkind : inst.kind = .rfq) :
    Related Matched (answer cfg s inst) (answer cfg' s' inst.toSmemq) := by
  refine .bind (h.markResponse hcfg hkind) ?_
  rintro ⟨m, last⟩ ⟨m', last'⟩ ⟨hm, hlast⟩
  obtain rfl : last' = last := hlast
  refine .pure ⟨hm, ?_⟩
  cases last' with
  | true => rfl
  | false => rfl

omit hcfg in

/-- Sending an access of a load to memory. -/
theorem toMemory {inst : WarpInst} (hkind : inst.kind = .rfq) :
    Corresponds (s.setLdst { s.ldst with memory := s.ldst.memory ++ [inst] })
      (s'.setLdst { s'.ldst with memory := s'.ldst.memory ++ [inst.toSmemq] }) := by
  refine h.setLdst ?_ { h.onlyRfq with memory := fun i hi => ?_ }
  · simp [h.ldst_eq, LdstUnit.toSmemq]
  · rcases List.mem_append.mp hi with hi | hi
    · exact h.onlyRfq.memory i hi
    · rw [List.mem_singleton.mp hi]
      exact hkind

/-- Twin cores process the access of twin loads alike. -/
theorem processCacheAccess {inst : WarpInst} (hkind : inst.kind = .rfq) (status : CacheStatus) :
    Related
      (fun x y => Corresponds x.1 y.1 ∧ y.2.1 = x.2.1.toSmemq ∧ x.2.1.kind = .rfq ∧
        y.2.2 = x.2.2.map Event.toSmemq)
      (processCacheAccess cfg s inst status) (processCacheAccess cfg' s' inst.toSmemq status) := by
  have hpop : (accessqPop inst 1).kind = .rfq := hkind
  cases status with
  | hit =>
    refine .bind (h.markResponse hcfg hpop) ?_
    rintro ⟨m, last⟩ ⟨m', _⟩ ⟨hm, rfl⟩
    exact .pure ⟨hm, rfl, hpop, rfl⟩
  | reservationFail => exact .pure ⟨h, rfl, hkind, rfl⟩
  | miss => exact .pure ⟨h.toMemory hkind, rfl, hpop, rfl⟩
  | hitReserved => exact .pure ⟨h.toMemory hkind, rfl, hpop, rfl⟩

/-- The dispatch register sends the same accesses in both cores. -/
theorem memoryCycle {inst : WarpInst} (hkind : inst.kind = .rfq) (port : Port) :
    Related
      (fun x y => Corresponds x.1 y.1 ∧ y.2.1 = x.2.1.toSmemq ∧ x.2.1.kind = .rfq ∧
        y.2.2.1 = x.2.2.1 ∧ y.2.2.2 = x.2.2.2.map Event.toSmemq)
      (memoryCycle cfg s inst port) (memoryCycle cfg' s' inst.toSmemq port) := by
  have hpop : ∀ n, (accessqPop inst n).kind = .rfq := fun _ => hkind
  have hbypass : bypassL1D cfg' inst.toSmemq = bypassL1D cfg inst := by
    simp only [bypassL1D, hcfg.hasL1D_eq, hcfg.gmemSkipL1D_eq]
    rfl
  simp only [Shader.memoryCycle, hbypass, hcfg.l1Latency_eq, hcfg.l1Banks_eq]
  refine .ite Iff.rfl (fun _ => .pure ⟨h, rfl, hkind, rfl, rfl⟩) fun _ => ?_
  refine .ite Iff.rfl (fun _ => ?_) fun _ => .ite Iff.rfl (fun _ => .pure ?_) fun _ => ?_
  · refine .ite Iff.rfl (fun _ => .pure ⟨h, rfl, hkind, rfl, rfl⟩) fun _ => .pure ?_
    exact ⟨h.toMemory hkind, rfl, hpop 1, rfl, rfl⟩
  · refine ⟨h.setLdst ?_ { h.onlyRfq with l1LatencyQueue := fun i hi => ?_ }, rfl, hpop _, rfl, rfl⟩
    · simp [h.ldst_eq, LdstUnit.toSmemq]
      rfl
    · rcases List.mem_append.mp hi with hi | hi
      · exact h.onlyRfq.l1LatencyQueue i hi
      · rw [List.eq_of_mem_replicate hi]
        exact hkind
  · refine .bind (h.processCacheAccess hcfg hkind port.status) ?_
    rintro ⟨m, inst', es⟩ ⟨m', _, _⟩ ⟨hm, rfl, hkind', rfl⟩
    exact .pure ⟨hm, rfl, hkind', rfl, rfl⟩

omit hcfg in

/-- Twin cores count an instruction out of the pipeline alike. -/
theorem decInstInPipeline (warpId : Nat) :
    Related Corresponds (decInstInPipeline s warpId) (decInstInPipeline s' warpId) := by
  unfold Shader.decInstInPipeline
  rw [h.warps_eq]
  refine .bind (.require Iff.rfl) fun _ _ _ => .pure ?_
  exact h.setWarp warpId fun w => { w with instInPipeline := w.instInPipeline - 1 }

/-- A load leaves the dispatch register, and completes there, in both cores alike. -/
theorem dispatchCycle (i : Nat) (port : Port) :
    Related Matched (dispatchCycle cfg s i port) (dispatchCycle cfg' s' i port) := by
  unfold Shader.dispatchCycle
  have hget : s'.ldst.dispatch[i]? = s.ldst.dispatch[i]?.map WarpInst.toSmemq := by
    simp [h.ldst_eq, LdstUnit.toSmemq]
  cases hinst : s.ldst.dispatch[i]? with
  | none =>
    rw [hget, hinst]
    exact .error _
  | some inst =>
    rw [hget, hinst]
    have hkind : inst.kind = .rfq := h.onlyRfq.dispatch inst (List.mem_of_getElem? hinst)
    change Related Matched (Shader.memoryCycle cfg s inst port >>= _)
      (Shader.memoryCycle cfg' s' inst.toSmemq port >>= _)
    refine .bind (h.memoryCycle hcfg hkind port) ?_
    rintro ⟨m, inst', done, es⟩ ⟨m', inst'', done', es'⟩ ⟨hm, hinst', hkind', hdone, hes⟩
    obtain rfl : inst'' = inst'.toSmemq := hinst'
    obtain rfl : done' = done := hdone
    obtain rfl : es' = es.map Event.toSmemq := hes
    replace hm : Corresponds m m' := hm
    refine .ite Iff.rfl (fun _ => ?_) fun _ => .pure ⟨hm.setLdst ?_ ?_, rfl⟩
    · refine .bind (hm.pendingRequests hcfg hkind') ?_
      rintro pending _ rfl
      refine .bind (hm.decInstInPipeline inst'.warpId) fun c c' hc =>
        .pure ⟨hc.setLdst ?_ ?_, ?_⟩
      · simp [hc.ldst_eq, LdstUnit.toSmemq, List.eraseIdx_map]
      · exact { hc.onlyRfq with
          dispatch := fun j hj => hc.onlyRfq.dispatch j (List.mem_of_mem_eraseIdx hj) }
      · cases pending with
        | true => rfl
        | false => simp [Event.toSmemq, WarpInst.toSmemq]
    · simp [hm.ldst_eq, LdstUnit.toSmemq, List.map_set]
    · refine { hm.onlyRfq with dispatch := fun j hj => ?_ }
      rcases List.mem_or_eq_of_mem_set hj with hj | rfl
      · exact hm.onlyRfq.dispatch j hj
      · exact hkind'

/-- An access leaves the L1 latency queue. -/
theorem l1LatencyQueueCycle (i : Nat) (status : CacheStatus) :
    Related Matched (l1LatencyQueueCycle cfg s i status)
      (l1LatencyQueueCycle cfg' s' i status) := by
  unfold Shader.l1LatencyQueueCycle
  have hget : s'.ldst.l1LatencyQueue[i]? = s.ldst.l1LatencyQueue[i]?.map WarpInst.toSmemq := by
    simp [h.ldst_eq, LdstUnit.toSmemq]
  cases hinst : s.ldst.l1LatencyQueue[i]? with
  | none =>
    rw [hget, hinst]
    exact .error _
  | some inst =>
    rw [hget, hinst]
    have hkind : inst.kind = .rfq := h.onlyRfq.l1LatencyQueue inst (List.mem_of_getElem? hinst)
    have hout : Corresponds
        (s.setLdst { s.ldst with l1LatencyQueue := s.ldst.l1LatencyQueue.eraseIdx i })
        (s'.setLdst { s'.ldst with l1LatencyQueue := s'.ldst.l1LatencyQueue.eraseIdx i }) := by
      refine h.setLdst ?_ { h.onlyRfq with l1LatencyQueue := fun j hj => ?_ }
      · simp [h.ldst_eq, LdstUnit.toSmemq, List.eraseIdx_map]
      · exact h.onlyRfq.l1LatencyQueue j (List.mem_of_mem_eraseIdx hj)
    cases status with
    | hit => exact hout.answer hcfg hkind
    | reservationFail => exact .pure ⟨h, rfl⟩
    | miss => exact .pure ⟨hout.toMemory hkind, rfl⟩
    | hitReserved => exact .pure ⟨hout.toMemory hkind, rfl⟩

/-- A response arrives. -/
theorem respond (i : Nat) : Related Matched (respond cfg s i) (respond cfg' s' i) := by
  unfold Shader.respond
  have hget : s'.ldst.memory[i]? = s.ldst.memory[i]?.map WarpInst.toSmemq := by
    simp [h.ldst_eq, LdstUnit.toSmemq]
  cases hinst : s.ldst.memory[i]? with
  | none =>
    rw [hget, hinst]
    exact .error _
  | some inst =>
    rw [hget, hinst]
    have hkind : inst.kind = .rfq := h.onlyRfq.memory inst (List.mem_of_getElem? hinst)
    have honly : LdstUnit.OnlyRfq { s.ldst with memory := s.ldst.memory.eraseIdx i } :=
      { h.onlyRfq with memory := fun j hj => h.onlyRfq.memory j (List.mem_of_mem_eraseIdx hj) }
    have hbypass : bypassL1DResponse cfg' inst.toSmemq = bypassL1DResponse cfg inst := by
      simp only [bypassL1DResponse, hcfg.hasL1D_eq, hcfg.gmemSkipL1D_eq]
      rfl
    refine .ite (by rw [hbypass]) (fun _ => ?_) fun _ => .pure ⟨h.setLdst ?_ ?_, rfl⟩
    · refine .bind (.require (by simp [h.ldst_eq, LdstUnit.toSmemq])) fun _ _ _ =>
        .pure ⟨h.setLdst ?_ ?_, rfl⟩
      · simp [h.ldst_eq, LdstUnit.toSmemq, List.eraseIdx_map]
      · refine { honly with nextGlobal := fun j hj => ?_ }
        cases hj
        exact hkind
    · simp [h.ldst_eq, LdstUnit.toSmemq, List.eraseIdx_map]
    · refine { honly with l1dReady := fun j hj => ?_ }
      rcases List.mem_append.mp hj with hj | hj
      · exact h.onlyRfq.l1dReady j hj
      · rw [List.mem_singleton.mp hj]
        exact hkind

/-- A writeback answers the load in `m_next_wb`, or a client fills it. -/
theorem writeback (client : WritebackClient) :
    Related Matched (writeback cfg s client) (writeback cfg' s' client) := by
  have hwb : s'.ldst.nextWb = s.ldst.nextWb.map WarpInst.toSmemq := by
    simp [h.ldst_eq, LdstUnit.toSmemq]
  unfold Shader.writeback
  cases hnext : s.ldst.nextWb with
  | some inst =>
    rw [hwb, hnext]
    refine .bind (h.answer hcfg (h.onlyRfq.nextWb inst hnext)) ?_
    rintro ⟨m, es⟩ ⟨m', _⟩ ⟨hm, rfl⟩
    replace hm : Corresponds m m' := hm
    refine .pure ⟨hm.setLdst ?_ { hm.onlyRfq with nextWb := fun j hj => by cases hj }, rfl⟩
    simp [hm.ldst_eq, LdstUnit.toSmemq]
  | none =>
    rw [hwb, hnext]
    cases client with
    | nextGlobal =>
      have hget : s'.ldst.nextGlobal = s.ldst.nextGlobal.map WarpInst.toSmemq := by
        simp [h.ldst_eq, LdstUnit.toSmemq]
      cases hinst : s.ldst.nextGlobal with
      | none =>
        simp only [hget, hinst]
        exact .error _
      | some inst =>
        simp only [hget, hinst]
        refine .pure ⟨h.setLdst ?_ { h.onlyRfq with
          nextGlobal := fun j hj => by cases hj
          nextWb := fun j hj => ?_ }, rfl⟩
        · simp [h.ldst_eq, LdstUnit.toSmemq]
        · cases hj
          exact h.onlyRfq.nextGlobal _ hinst
    | l1dAccess i =>
      have hget : s'.ldst.l1dReady[i]? = s.ldst.l1dReady[i]?.map WarpInst.toSmemq := by
        simp [h.ldst_eq, LdstUnit.toSmemq]
      cases hinst : s.ldst.l1dReady[i]? with
      | none =>
        simp only [hget, hinst]
        exact .error _
      | some inst =>
        simp only [hget, hinst]
        refine .pure ⟨h.setLdst ?_ { h.onlyRfq with
          l1dReady := fun j hj => h.onlyRfq.l1dReady j (List.mem_of_mem_eraseIdx hj)
          nextWb := fun j hj => ?_ }, rfl⟩
        · simp [h.ldst_eq, LdstUnit.toSmemq, List.eraseIdx_map]
        · cases hj
          exact h.onlyRfq.l1dReady _ (List.mem_of_getElem? hinst)

omit hcfg in

/-- Twin cores register the exit of a thread alike. -/
theorem registerCtaThreadExit (ctaHwId : Nat) :
    Related Matched (registerCtaThreadExit s ctaHwId) (registerCtaThreadExit s' ctaHwId) := by
  unfold Shader.registerCtaThreadExit
  rw [h.ctaStatus_eq]
  refine .bind (.require Iff.rfl) fun _ _ _ => .pure ?_
  have hexit : Corresponds
      { s with ctaStatus := Function.update s.ctaStatus ctaHwId (s.ctaStatus ctaHwId - 1) }
      { s' with ctaStatus := Function.update s.ctaStatus ctaHwId (s.ctaStatus ctaHwId - 1) } :=
    { h with ctaStatus_eq := rfl }
  by_cases hlast : Function.update s.ctaStatus ctaHwId (s.ctaStatus ctaHwId - 1) ctaHwId = 0
  · simp only [hlast, ↓reduceIte]
    exact ⟨hexit.eraseCta ctaHwId, rfl⟩
  · simp only [hlast, ↓reduceIte]
    exact ⟨hexit, rfl⟩

omit hcfg in

theorem registerExits (ctaHwId n : Nat) :
    Related Matched (registerExits s ctaHwId n) (registerExits s' ctaHwId n) := by
  induction n generalizing s s' with
  | zero => exact .pure ⟨h, rfl⟩
  | succ n ih =>
    refine .bind (h.registerCtaThreadExit ctaHwId) ?_
    rintro ⟨m, es⟩ ⟨m', _⟩ ⟨hm, rfl⟩
    refine .bind (ih hm) ?_
    rintro ⟨c, rest⟩ ⟨c', _⟩ ⟨hc, rfl⟩
    exact .pure ⟨hc, List.map_append.symm⟩

omit hcfg in

/-- Reclaiming a warp retires the same CTA. -/
theorem reclaim (warpId : Nat) : Related Matched (reclaim s warpId) (reclaim s' warpId) := by
  unfold Shader.reclaim
  rw [h.warps_eq]
  refine .bind (.require Iff.rfl) fun _ _ _ => .bind (h.registerExits _ _) ?_
  rintro ⟨m, es⟩ ⟨m', _⟩ ⟨hm, rfl⟩
  refine .pure ⟨?_, rfl⟩
  exact hm.setWarp warpId fun w =>
    { w with registered := 0, doneExit := w.doneExit || 0 < w.registered }

/-- Twin cores initialise a warp alike. -/
theorem initWarp (ctaHwId i : Nat) :
    Related Corresponds (initWarp cfg ctaHwId s i) (initWarp cfg' ctaHwId s' i) := by
  have hthreads : threadsInWarp cfg' i = threadsInWarp cfg i := by
    simp only [threadsInWarp, hcfg.warpSize_eq, hcfg.threadsPerCta_eq]
  simp only [Shader.initWarp, hcfg.warpsPerCta_eq, hcfg.maxWarpsPerShader_eq, h.warps_eq, hthreads]
  refine .bind (.require Iff.rfl) fun _ _ _ => .bind (.require Iff.rfl) fun _ _ _ => .pure ?_
  exact h.setWarp (ctaHwId * cfg.warpsPerCta + i) fun w =>
    { w with
      ctaId := ctaHwId
      running := threadsInWarp cfg i
      registered := threadsInWarp cfg i
      doneExit := false }

/-- Launching a CTA into a hardware slot that both cores have. -/
theorem issueBlock2core {ctaHwId : Nat}
    (hslot : ctaHwId < cfg.kernelMaxCtaPerShader ↔ ctaHwId < cfg'.kernelMaxCtaPerShader) :
    Related Matched (issueBlock2core cfg s ctaHwId) (issueBlock2core cfg' s' ctaHwId) := by
  have hthreads : threadsInWarp cfg' = threadsInWarp cfg := by
    funext i
    simp only [threadsInWarp, hcfg.warpSize_eq, hcfg.threadsPerCta_eq]
  simp only [Shader.issueBlock2core, hcfg.warpsPerCta_eq, hthreads]
  refine .bind (.require (by rw [hslot, h.ctaStatus_eq])) fun _ _ _ => ?_
  refine .bind (.foldlM (fun m m' i _ hm => hm.initWarp hcfg ctaHwId i) h) fun m m' hm => .pure ?_
  exact ⟨{ hm with ctaStatus_eq := by simp only [hm.ctaStatus_eq] }, rfl⟩

end Corresponds

/-- The queue instruction of an action. -/
def inst? : Action Mem → Option QueueInst
  | .test _ inst _ => some inst
  | .issue _ inst _ _ => some inst
  | _ => none

/-- A launch goes into a hardware slot that both cores have or neither has; the limits on
resident CTAs may differ, since the queues take registers in one core and shared memory
in the other. -/
def SameSlot (cfg cfg' : Config) : Action Mem → Prop
  | .launch ctaHwId =>
    ctaHwId < cfg.kernelMaxCtaPerShader ↔ ctaHwId < cfg'.kernelMaxCtaPerShader
  | _ => True

/-- One action keeps the two cores in correspondence. -/
theorem Corresponds.step (hcfg : cfg.Twin cfg') (h : Corresponds s s') {a : Action Mem}
    (hkind : ∀ inst ∈ inst? a, inst.kind = .rfq) (hslot : SameSlot cfg cfg' a) :
    Related Matched (step cfg read s a) (step cfg' read s' a.toSmemq) := by
  cases a with
  | test warpId inst countStall =>
    have hrfq : inst.kind = .rfq := hkind inst rfl
    have hne : inst.kind ≠ .smemq := by rw [hrfq]; decide
    have hne' : inst.toSmemq.kind ≠ .rfq := by simp [QueueInst.toSmemq]
    have hskip : ∀ m : Shader Mem,
        Shader.canIssue .smemq cfg m warpId inst countStall = .ok (m, true) :=
      fun _ => canIssue_other hne
    simp only [Shader.step, Action.toSmemq, h.warps_eq, waspRfqCanIssue, smemqCanIssue,
      canIssue_other hne']
    refine .bind (.require Iff.rfl) fun _ _ _ => ?_
    change Related Matched (Shader.canIssue .rfq cfg s warpId inst countStall >>= _)
      (Shader.canIssue .smemq cfg' s' warpId inst.toSmemq countStall >>= _)
    refine .bind (h.canIssue hcfg warpId hrfq countStall) ?_
    rintro ⟨m, ready⟩ ⟨m', _⟩ ⟨hm, rfl⟩
    rw [hskip]
    exact .pure ⟨hm, rfl⟩
  | issue warpId inst activeMask input =>
    exact h.issueWarp hcfg warpId (hkind inst rfl) activeMask input
  | dispatch i port => exact h.dispatchCycle hcfg i port
  | l1Latency i status => exact h.l1LatencyQueueCycle hcfg i status
  | respond i => exact h.respond hcfg i
  | writeback client => exact h.writeback hcfg client
  | decode warpId =>
    refine .pure ⟨?_, rfl⟩
    exact h.setWarp warpId fun w =>
      { w with ibuffered := w.ibuffered + 1, instInPipeline := w.instInPipeline + 1 }
  | issueOther warpId =>
    simp only [Shader.step, Action.toSmemq, h.warps_eq]
    refine .bind (.require Iff.rfl) fun _ _ _ => .pure ⟨?_, rfl⟩
    exact h.setWarp warpId fun w =>
      { w with ibuffered := w.ibuffered - 1, elsewhere := w.elsewhere + 1 }
  | finishOther warpId =>
    simp only [Shader.step, Action.toSmemq, h.warps_eq]
    refine .bind (.require Iff.rfl) fun _ _ _ =>
      .bind (h.decInstInPipeline warpId) fun m m' hm => .pure ⟨?_, rfl⟩
    exact hm.setWarp warpId fun w => { w with elsewhere := w.elsewhere - 1 }
  | flush warpId =>
    simp only [Shader.step, Action.toSmemq, h.warps_eq]
    refine .bind (.require Iff.rfl) fun _ _ _ => .pure ⟨?_, rfl⟩
    exact h.setWarp warpId fun w =>
      { w with ibuffered := 0, instInPipeline := w.instInPipeline - w.ibuffered }
  | storeReq warpId =>
    refine .pure ⟨?_, rfl⟩
    exact h.setWarp warpId fun w => { w with storesOutstanding := w.storesOutstanding + 1 }
  | storeAck warpId =>
    simp only [Shader.step, Action.toSmemq, h.warps_eq]
    refine .bind (.require Iff.rfl) fun _ _ _ => .pure ⟨?_, rfl⟩
    exact h.setWarp warpId fun w => { w with storesOutstanding := w.storesOutstanding - 1 }
  | exit warpId threads =>
    simp only [Shader.step, Action.toSmemq, h.warps_eq]
    refine .bind (.require Iff.rfl) fun _ _ _ => .pure ⟨?_, rfl⟩
    exact h.setWarp warpId fun w => { w with running := w.running - threads }
  | reclaim warpId => exact h.reclaim warpId
  | launch ctaHwId => exact h.issueBlock2core hcfg hslot
  | storeMem mem => exact .pure ⟨{ h with mem_eq := rfl }, rfl⟩

/-- What corresponding states answer alike to the scheduler and the load/store unit. -/
structure SameAnswers (cfg cfg' : Config) (s s' : Shader Mem) : Prop where
  /-- Every warp may issue the same instructions. -/
  canIssue : ∀ warpId inst countStall, inst.kind = .rfq →
    Related (fun x y => y.2 = x.2) (waspRfqCanIssue cfg s warpId inst countStall)
      (smemqCanIssue cfg' s' warpId inst.toSmemq countStall)
  /-- Every warp has the same role. -/
  role : ∀ warpId, isWaspProducerWarp cfg' warpId = isWaspProducerWarp cfg warpId
  /-- Every load has the same responses outstanding. -/
  pending : ∀ inst : WarpInst, inst.kind = .rfq →
    Related Eq (waspRfqLoadPending cfg s inst) (smemqLoadPending cfg' s' inst.toSmemq)
  /-- Every response is the last of its load in both or in neither. -/
  response : ∀ inst : WarpInst, inst.kind = .rfq →
    Related (fun x y => y.2 = x.2) (waspRfqMarkMemResponse cfg s inst)
      (smemqMarkMemResponse cfg' s' inst.toSmemq)
  /-- Every lane of a move receives the same words. -/
  words : ∀ (inst : WarpInst) lane, inst.kind = .rfq →
    smemqMovExec cfg' s' inst.toSmemq lane = waspRfqMovExec cfg s inst lane

/-- Corresponding cores give twin instructions the same answers. -/
theorem Corresponds.sameAnswers (hcfg : cfg.Twin cfg') (h : Corresponds s s') :
    SameAnswers cfg cfg' s s' where
  canIssue warpId _ countStall hkind :=
    (h.canIssue hcfg warpId hkind countStall).mono fun _ _ hxy => hxy.2
  role := hcfg.isWaspProducerWarp_eq
  pending _ hkind := h.loadPending hcfg hkind
  response _ hkind := (h.markMemResponse hcfg hkind).mono fun _ _ hxy => hxy.2
  words inst lane _ := h.movExec_eq hcfg inst lane

/-- The action's queue instruction is an instruction of the program. -/
def FromProgram (P : List PtxInst) (a : Action Mem) : Prop :=
  ∀ inst ∈ inst? a, ∃ i ∈ P, i.decode = .ok (some inst)

theorem toSmemq_of_none {a : Action Mem} (h : inst? a = none) : a.toSmemq = a := by
  cases a with
  | test => cases h
  | issue => cases h
  | _ => rfl

/-- The replaced program decodes to the replaced instructions. -/
theorem decodes_toSmemq {P : List PtxInst} (hP : ∀ i ∈ P, PtxOption.smemq ∉ i.options)
    (inst : QueueInst) :
    (∃ i ∈ P.map PtxInst.toSmemq, i.decode = .ok (some inst)) ↔
      ∃ i ∈ P, ∃ inst₀, i.decode = .ok (some inst₀) ∧ inst = inst₀.toSmemq := by
  simp only [List.mem_map, exists_exists_and_eq_and]
  refine exists_congr fun i => and_congr_right fun hi => ?_
  have hsame := PtxInst.decode_toSmemq (hP i hi)
  cases hd : i.decode with
  | error e =>
    rw [hsame.eq_error hd]
    simp
  | ok o =>
    obtain ⟨o', ho', rfl⟩ := hsame.exists_ok hd
    rw [ho']
    cases o with
    | none => simp
    | some inst₀ => simp [eq_comm]

/-- The actions of the replaced program are the replaced actions of the program. -/
theorem fromProgram_toSmemq {P : List PtxInst} (hP : ∀ i ∈ P, PtxOption.smemq ∉ i.options)
    (a : Action Mem) :
    FromProgram (P.map PtxInst.toSmemq) a ↔ ∃ b, FromProgram P b ∧ a = b.toSmemq := by
  constructor
  · intro ha
    cases hinst : inst? a with
    | none =>
      refine ⟨a, fun j hj => ?_, (toSmemq_of_none hinst).symm⟩
      rw [hinst] at hj
      cases hj
    | some inst =>
      obtain ⟨i, hi, inst₀, hd, rfl⟩ := (decodes_toSmemq hP inst).mp (ha inst hinst)
      have hfrom : ∀ j ∈ some inst₀, ∃ i ∈ P, i.decode = .ok (some j) := by
        intro j hj
        cases hj
        exact ⟨i, hi, hd⟩
      cases a with
      | test warpId _ countStall =>
        cases hinst
        exact ⟨.test warpId inst₀ countStall, hfrom, rfl⟩
      | issue warpId _ activeMask input =>
        cases hinst
        exact ⟨.issue warpId inst₀ activeMask input, hfrom, rfl⟩
      | _ => cases hinst
  · rintro ⟨b, hb, rfl⟩ inst hinst
    refine (decodes_toSmemq hP inst).mpr ?_
    cases b with
    | test warpId inst₀ countStall =>
      cases hinst
      obtain ⟨i, hi, hd⟩ := hb inst₀ rfl
      exact ⟨i, hi, inst₀, hd, rfl⟩
    | issue warpId inst₀ activeMask input =>
      cases hinst
      obtain ⟨i, hi, hd⟩ := hb inst₀ rfl
      exact ⟨i, hi, inst₀, hd, rfl⟩
    | _ => cases hinst

/-- A program without `.smemq` decodes to instructions on the register queues. -/
theorem FromProgram.kind_eq {P : List PtxInst} (hP : ∀ i ∈ P, PtxOption.smemq ∉ i.options)
    {a : Action Mem} (ha : FromProgram P a) {inst : QueueInst} (hinst : inst ∈ inst? a) :
    inst.kind = .rfq := by
  obtain ⟨i, hi, hd⟩ := ha inst hinst
  have hnone : i.options.contains .smemq = false := by simpa using hP i hi
  simp only [PtxInst.decode, hnone, bind_eq_ok, pure_eq_ok] at hd
  obtain ⟨_, _, rfq, _, smemq, hsmemq, _, _, _, _, hd⟩ := hd
  obtain rfl : ({} : QueueFlags) = smemq := by simpa [PtxInst.queueFlags] using hsmemq
  by_cases hqueue : (rfq.load || rfq.move) = true
  · rw [if_pos hqueue, Option.some.injEq] at hd
    rw [← hd]
    rfl
  · rw [if_neg hqueue] at hd
    cases hd

/-- Every run of a program on the register queues and the same run of the program with
`.smemq` for `.rfq` stay in correspondence, emit the same events and stop at the same
assertions. -/
theorem rfq_smemq_bisimulation {P : List PtxInst} (hP : ∀ i ∈ P, PtxOption.smemq ∉ i.options)
    (hcfg : cfg.Twin cfg') (h : Corresponds s s') :
    (∀ a : Action Mem, FromProgram (P.map PtxInst.toSmemq) a ↔
      ∃ b, FromProgram P b ∧ a = b.toSmemq) ∧
    ∀ (as : List (Action Mem)) (log : List Event),
      (∀ a ∈ as, FromProgram P a ∧ SameSlot cfg cfg' a) →
      Related
        (fun x y => Corresponds x.1 y.1 ∧ SameAnswers cfg cfg' x.1 y.1 ∧
          y.2 = x.2.map Event.toSmemq)
        (as.foldlM (logged (step cfg read)) (s, log))
        ((as.map Action.toSmemq).foldlM (logged (step cfg' read)) (s', log.map Event.toSmemq)) := by
  refine ⟨fromProgram_toSmemq hP, fun as log has => ?_⟩
  refine (Related.logged Action.toSmemq Event.toSmemq (fun m m' a ha hm => ?_) h).mono ?_
  · obtain ⟨hfrom, hslot⟩ := has a ha
    exact hm.step hcfg (fun inst hinst => hfrom.kind_eq hP hinst) hslot
  · intro x y hxy
    exact ⟨hxy.1, hxy.1.sameAnswers hcfg, hxy.2⟩

/-- `ld.rfq q0` and `mov.rfq r, q0`. -/
def samplePtx : List PtxInst :=
  [⟨.ld, [.rfq], [.name ['q', '0'], .other]⟩, ⟨.mov, [.rfq], [.name ['r'], .name ['q', '0']]⟩]

/-- A load, its response and the move that takes its words. -/
def sampleActions : List (Action Unit) :=
  [.launch 0, .decode 0, .decode 1,
    .issue 0 { sampleLoad with vectorDst := false } (BitVec.allOnes 32) (sampleInput 1),
    .dispatch 0 { freeBanks := 1 }, .l1Latency 0 .hit,
    .issue 1 { sampleMove with vectorDst := false, cacheOp := .other } (BitVec.allOnes 32)
      (sampleInput 0)]

/-- The sample core with its queues in shared memory. -/
def sampleSmemq : Config :=
  { Config.sample 64 1 with
    rfq := { enable := false, entries := 1 }
    smemq := { enable := true, entries := 1 } }

theorem sample_twin : (Config.sample 64 1).Twin sampleSmemq where
  rfq_enabled kind := by cases kind <;> decide
  smemq_enabled kind := by cases kind <;> decide
  entries_eq := rfl
  modelData_eq := rfl
  metadata_eq := rfl
  warpSize_eq := rfl
  maxWarpsPerShader_eq := rfl
  threadsPerCta_eq := rfl
  hasL1D_eq := rfl
  gmemSkipL1D_eq := rfl
  l1Latency_eq := rfl
  l1Banks_eq := rfl

theorem sampleActions_from :
    ∀ a ∈ sampleActions, FromProgram samplePtx a ∧ SameSlot (Config.sample 64 1) sampleSmemq a := by
  have hload : samplePtx[0].decode = .ok (some { sampleLoad with vectorDst := false }) := rfl
  have hmove : samplePtx[1].decode =
      .ok (some { sampleMove with vectorDst := false, cacheOp := .other }) := rfl
  intro a ha
  simp only [sampleActions, List.mem_cons, List.not_mem_nil, or_false] at ha
  rcases ha with rfl | rfl | rfl | rfl | rfl | rfl | rfl
  all_goals refine ⟨fun inst hinst => ?_, by simp [SameSlot, Config.sample, sampleSmemq]⟩
  all_goals cases hinst
  · exact ⟨_, List.getElem_mem _, hload⟩
  · exact ⟨_, List.getElem_mem _, hmove⟩

theorem rfq_smemq_bisimulation_sample :
    ∃ x y, sampleActions.foldlM (logged (step (Config.sample 64 1) sampleRead))
        (initial (), []) = .ok x ∧
      (sampleActions.map Action.toSmemq).foldlM (logged (step sampleSmemq sampleRead))
        (initial (), []) = .ok y ∧
      Corresponds x.1 y.1 ∧ SameAnswers (Config.sample 64 1) sampleSmemq x.1 y.1 ∧
      y.2 = x.2.map Event.toSmemq := by
  have hsame := (@rfq_smemq_bisimulation Unit (Config.sample 64 1) sampleSmemq (initial ())
    (initial ()) sampleRead samplePtx (by decide) sample_twin (.initial ())).2 sampleActions []
    sampleActions_from
  have hrun : (sampleActions.foldlM (logged (step (Config.sample 64 1) sampleRead))
      (initial (), [])).toOption.isSome = true := by decide +kernel
  cases hx : sampleActions.foldlM (logged (step (Config.sample 64 1) sampleRead))
      (initial (), []) with
  | error e =>
    rw [hx] at hrun
    cases hrun
  | ok x =>
    obtain ⟨y, hy, hxy⟩ := hsame.exists_ok hx
    exact ⟨x, y, rfl, hy, hxy⟩

end Shader
end WaspSim
