import WaspSim.Scheduler.Beside
import WaspSim.Scheduler.PairSearch
import WaspSim.Scheduler.Transparency

/-!
# Issuing a pair

The two candidates of a co-issue are tested before either of them issues. The issue
of the producer leaves everything that the tests of the consumer read, except for
the queue that both of them name: the consumer can still issue unless both take the
head of one queue and the entry behind it is not ready.
-/

namespace WaspSim

variable {Mem Threads Simt Score : Type} {O : Outside Mem Threads Simt Score} {cfg : SchedConfig}

namespace IssueState

variable {c c' : IssueState Mem Threads Simt Score} {schedId v w : Nat} {inst : SchedInst}
  {t : IssueTarget}

/-- The instruction of a warp can issue to a target: the warp neither is done nor waits, the
instruction is the next in its i-buffer and the one its SIMT stack asks for, the scoreboard and
the queues let it pass, and its output register set has a free register. -/
structure Issuable (O : Outside Mem Threads Simt Score) (cfg : SchedConfig)
    (c : IssueState Mem Threads Simt Score) (schedId w : Nat) (inst : SchedInst) (t : IssueTarget) :
    Prop where
  doneExit_eq : c.doneExit w = false
  waiting_eq : (c.waiting O w).2 = false
  inst_eq : (c.schedWarps w).ibufferNextInst = some inst
  valid_eq : (c.schedWarps w).ibufferNextValid = true
  pc_eq : O.pdomStackTop (c.simtStack w) = inst.pc
  activeMask_eq : t.activeMask = O.activeMask (c.simtStack w)
  collision_eq : O.checkCollision c.scoreboard w inst = false
  queue_ready : ∀ q ∈ inst.queue,
    ∃ s', Shader.canIssue q.kind cfg.toConfig c.shader w q false = .ok (s', true)
  free_eq : RegisterSet.hasFree (c.out t.out) cfg.subCoreModel schedId = .ok true

/-- What a warp waits for. -/
theorem waiting_eq_false : (c.waiting O w).2 = false ↔
    c.functionalDone w = false ∧ w ∉ c.barriers.warpAtBarrier ∧
      ((c.schedWarps w).membar = false ∨ O.pendingWrites c.scoreboard w = false) ∧
      (c.schedWarps w).nAtomic = 0 := by
  unfold waiting
  cases hdone : c.functionalDone w with
  | true => simp
  | false =>
    by_cases hbarrier : w ∈ c.barriers.warpAtBarrier
    · simp [hbarrier]
    · cases hmembar : (c.schedWarps w).membar with
      | false => simp [hbarrier, warpWaitingAtMemBarrier, hmembar]
      | true =>
        cases hpending : O.pendingWrites c.scoreboard w with
        | false => simp [hbarrier, warpWaitingAtMemBarrier, hmembar, hpending, setSchedWarp]
        | true => simp [hbarrier, warpWaitingAtMemBarrier, hmembar, hpending]

/-- A ready candidate can issue on its own. -/
theorem issuable_of_collect {cand : IssueCandidate}
    (h : c.collectIssueCandidate O cfg schedId (some w) = .ok (c', some cand))
    (ht : cand.target = .ok t) : c.Issuable O cfg schedId cand.warpId cand.inst t := by
  obtain ⟨_, hpresents, _⟩ := collectIssueCandidate_some h
  obtain ⟨hpasses, hclass, hmask⟩ := collectIssueCandidate_ready h ht
  obtain ⟨_, _, _, _, hfree⟩ := classifyIssueTarget_some hclass
  have hkeeps := collectIssueCandidate_keeps h cand.warpId
  have hnext := nextToIssue_keeps (O := O) (c := c) cand.warpId cand.warpId
  have hdone : c.doneExit cand.warpId = false := by
    by_contra hdone
    rw [Bool.not_eq_false] at hdone
    simp [Presents, nextToIssue, hdone] at hpresents
  obtain ⟨hwaiting, hpresented⟩ := (presents_iff hdone _).mp hpresents
  obtain ⟨hinst, hvalid, hpc⟩ := presented_eq_some hpresented
  have hcollision : O.checkCollision c.scoreboard cand.warpId cand.inst = false := by
    by_contra hcollision
    rw [Bool.not_eq_false] at hcollision
    simp [passesScoreboard, hnext.scoreboard_eq, hcollision] at hpasses
  refine ⟨hdone, hwaiting, hinst, hvalid, hpc, ?_, hcollision, fun q hq => ?_, ?_⟩
  · rw [hmask, hkeeps.simt_eq]
  · rw [passesScoreboard_queue (by rw [hnext.scoreboard_eq]; exact hcollision) hq,
      nextToIssue_shader] at hpasses
    simp only [bind_eq_ok, pure_eq_ok, Prod.exists, Prod.mk.injEq] at hpasses
    obtain ⟨s', _, hcan, _, rfl⟩ := hpasses
    exact ⟨s', hcan⟩
  · rw [hkeeps.out_eq] at hfree
    exact hfree

/-- The queue of an instruction is in the tables after its test, sized for it. -/
structure Stored (cfg : SchedConfig) (c : IssueState Mem Threads Simt Score) (w : Nat)
    (j : QueueInst) (key : QueueKey) (q : Queue) : Prop where
  enabled : cfg.enabled j.kind = true
  key_eq : Shader.keyForWarp j.kind cfg.toConfig c.shader w j.queueId = .ok key
  queue_eq : c.shader.queue? j.kind key = some q
  configured : q.configured = true
  configure_eq : q.configure (cfg.options j.kind).entries j.payloadWords cfg.warpSize = .ok q
  ready_eq : (if j.load then !q.full else q.headReady) = true

/-- What a ready candidate leaves once its collection changes nothing any more. -/
theorem settled_of_collect {cand : IssueCandidate}
    (h : c.collectIssueCandidate O cfg schedId (some w) = .ok (c, some cand))
    (ht : cand.target = .ok t) :
    (c.schedWarps cand.warpId).membar = false ∧
      ∀ j ∈ cand.inst.queue, ∃ key q, Stored cfg c cand.warpId j key q := by
  have hissuable := issuable_of_collect h ht
  obtain ⟨hpasses, _⟩ := collectIssueCandidate_ready h ht
  constructor
  · by_contra hmembar
    rw [Bool.not_eq_false] at hmembar
    obtain ⟨hfunctional, hbarrier, hpending, _⟩ := waiting_eq_false.mp hissuable.waiting_eq
    rw [hmembar] at hpending
    have hended : ((c.nextToIssue O cand.warpId).1.schedWarps cand.warpId).membar = false := by
      simp [nextToIssue, hissuable.doneExit_eq, waiting, hfunctional, hbarrier,
        warpWaitingAtMemBarrier, hmembar, hpending.resolve_left Bool.noConfusion, setSchedWarp]
    rcases (passesScoreboard_keeps hpasses cand.warpId).sched_eq with heq | ⟨hopen, _⟩
    · rw [← heq, hmembar] at hended
      cases hended
    · rw [hended] at hopen
      cases hopen
  · intro j hj
    have hnext := nextToIssue_keeps (O := O) (c := c) cand.warpId cand.warpId
    rw [passesScoreboard_queue (by rw [hnext.scoreboard_eq]; exact hissuable.collision_eq) hj,
      nextToIssue_shader] at hpasses
    simp only [bind_eq_ok, pure_eq_ok, Prod.exists, Prod.mk.injEq] at hpasses
    obtain ⟨shader, _, hcan, hsettle, rfl⟩ := hpasses
    obtain ⟨henabled, key, q, m, hfor, hshader, hready⟩ := Shader.canIssue_eq_ok rfl hcan
    obtain ⟨hkey, _, hput⟩ := Shader.queueFor_frame hfor
    have hstored : shader.queue? j.kind key = some q := by
      rcases hshader with rfl | ⟨g, rfl⟩
      · exact hput
      · exact hput
    have hqueue : c.shader.queue? j.kind key = some q := by
      rw [← hsettle, queue?_settle fun kind k hk => Shader.canIssue_mem rfl hcan
        (by rw [nextToIssue_shader] at hk; exact hk)]
      exact hstored
    refine ⟨key, q, henabled, hkey, hqueue, Shader.configured_of_queueFor hfor, ?_, hready.symm⟩
    simp only [Shader.queueFor, bind_eq_ok, pure_eq_ok, Prod.exists, Prod.mk.injEq,
      QueueTable.getOrCreate_eq_ok] at hfor
    obtain ⟨_, _, _, _, ⟨hconf, _⟩, _, _, rfl⟩ := hfor
    exact Queue.configure_idem hconf

/-- A test of an instruction whose queue changed but kept its sizes. -/
theorem Stored.canIssue {j : QueueInst} {key : QueueKey} {q q' : Queue}
    (h : Stored cfg c w j key q) (hcta : (c'.shader.warps w).ctaId = (c.shader.warps w).ctaId)
    (hq' : c'.shader.queue? j.kind key = some q') (hshape : SameShape q q') :
    ∃ s', Shader.canIssue j.kind cfg.toConfig c'.shader w j false =
      .ok (s', if j.load then !q'.full else q'.headReady) := by
  have hconf : q'.configure (cfg.options j.kind).entries j.payloadWords cfg.warpSize = .ok q' := by
    have hsizes := h.configure_eq
    have hconf' : q'.configured = true := by
      rw [← h.configured, Queue.configured, hshape.entries_eq, Queue.configured]
    simp only [Queue.configure, h.configured, hconf', ↓reduceIte, bind_eq_ok, require_eq_ok,
      pure_eq_ok, hshape.entries_eq, hshape.width_eq, hshape.warpSize_eq] at hsizes ⊢
    obtain ⟨_, h₁, _, h₂, _, h₃, _⟩ := hsizes
    exact ⟨(), h₁, (), h₂, (), h₃, trivial⟩
  have hfor : Shader.queueFor j.kind cfg.toConfig c'.shader w j =
      .ok (c'.shader.putQueue j.kind key q', key, q') := by
    simp only [Shader.queueFor, bind_eq_ok, pure_eq_ok, Prod.exists, Prod.mk.injEq,
      QueueTable.getOrCreate_eq_ok]
    refine ⟨key, ?_, _, q', ⟨?_, rfl⟩, rfl, rfl, rfl⟩
    · have hkey := h.key_eq
      rw [Shader.keyForWarp_eq_ok] at hkey ⊢
      rw [hcta]
      exact hkey
    · rw [show (c'.shader.tables j.kind).lookup key = some q' from hq']
      exact hconf
  obtain ⟨s', hs', _⟩ := Shader.canIssue_of_queueFor rfl h.enabled hfor false
  exact ⟨s', hs'⟩

/-- An instruction names the queue of a key. -/
def Names (cfg : SchedConfig) (c : IssueState Mem Threads Simt Score) (w : Nat) (i : QueueInst)
    (kind : QueueKind) (key : QueueKey) : Prop :=
  i.kind = kind ∧ Shader.keyForWarp kind cfg.toConfig c.shader w i.queueId = .ok key

/-- What `issue_warp` does to a queue: nothing when the instruction does not name it, else a
load keeps a ready head, and a move consumes the head. -/
theorem issueWarp_queue {port : OutPort} {mask : ActiveMask} {kind : QueueKind} {key : QueueKey}
    {q : Queue} (h : c.issueWarp O cfg port inst mask w schedId = .ok c')
    (hq : c.shader.queue? kind key = some q) (hconf : q.configured = true) :
    ∃ q', c'.shader.queue? kind key = some q' ∧
      ((q' = q ∧ ∀ i ∈ inst.queue, ¬c.Names cfg w i kind key) ∨
        ∃ i ∈ inst.queue, c.Names cfg w i kind key ∧
          (i.load = true ∧ SameShape q q' ∧ (q.headReady = true → q'.headReady = true) ∨
            i.load = false ∧ q.consumeHead = .ok q')) := by
  simp only [issueWarp, bind_eq_ok, pure_eq_ok, Prod.exists] at h
  obtain ⟨regId, _, c₁, pipe, hexec, c₂, hbarrier, rfl⟩ := h
  have hshader := (issueBarrier_beside hbarrier).2
  change ∃ q', c₂.shader.queue? kind key = some q' ∧ _
  rw [hshader]
  change ∃ q', c₁.shader.queue? kind key = some q' ∧ _
  cases hqueue : inst.queue with
  | none =>
    have htables := (funcExecInst_beside hexec).2 hqueue
    refine ⟨q, ?_, .inl ⟨rfl, fun i hi => by cases hi⟩⟩
    unfold Shader.queue?
    rw [htables]
    exact hq
  | some i =>
    simp only [funcExecInst, hqueue, bind_eq_ok, pure_eq_ok, Prod.exists, Prod.mk.injEq] at hexec
    obtain ⟨s', es, hissue, rfl, _⟩ := hexec
    have hkeys : ∀ k, Shader.keyForWarp i.kind cfg.toConfig (c.shader.setWarp w fun u =>
        { u with ibuffered := (c.schedWarps w).numInstInBuffer }) w i.queueId = .ok k ↔
        Shader.keyForWarp i.kind cfg.toConfig c.shader w i.queueId = .ok k := by
      intro k
      simp [Shader.keyForWarp_eq_ok, Shader.setWarp]
    by_cases hnames : c.Names cfg w i kind key
    · have hnamed := hnames
      obtain ⟨rfl, hkey⟩ := hnamed
      cases hload : i.load with
      | true =>
        obtain ⟨q', hq', hkept⟩ :=
          Shader.issueWarp_load_head hload ((hkeys key).mpr hkey) hq hconf hissue
        exact ⟨q', hq', .inr ⟨i, rfl, hnames, .inl ⟨hload, hkept⟩⟩⟩
      | false =>
        obtain ⟨q', hconsume, hq'⟩ :=
          Shader.issueWarp_move_head hload ((hkeys key).mpr hkey) hq hconf hissue
        exact ⟨q', hq', .inr ⟨i, rfl, hnames, .inr ⟨hload, hconsume⟩⟩⟩
    · have hothers : ∀ k, Shader.keyForWarp i.kind cfg.toConfig c.shader w i.queueId = .ok k →
          ¬(kind = i.kind ∧ key = k) := by
        rintro k hk ⟨rfl, rfl⟩
        exact hnames ⟨rfl, hk⟩
      refine ⟨q, ?_, .inl ⟨rfl, fun i' hi' => by cases hi'; exact hnames⟩⟩
      cases hload : i.load with
      | true =>
        obtain ⟨k, _, hframe, _⟩ := Shader.issueWarp_load_frame hload hissue
        exact (hframe.others kind key (hothers k ((hkeys k).mp hframe.key_eq))).trans hq
      | false =>
        obtain ⟨k, _, _, hframe, _⟩ := Shader.issueWarp_move_frame hload hissue
        exact (hframe.others kind key (hothers k ((hkeys k).mp hframe.key_eq))).trans hq

end IssueState
end WaspSim
