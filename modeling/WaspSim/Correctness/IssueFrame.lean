import WaspSim.Shader.Machine

/-!
# What issuing leaves alone

Issuing a queue instruction touches the queue its key names and no other queue.
Outside the tables it numbers the instruction, takes it from the i-buffer, and
sends a load towards the load/store unit.
-/

namespace WaspSim
namespace Shader

variable {Mem : Type} {cfg : Config} {kind : QueueKind} {key : QueueKey} {s s' : Shader Mem}
  {read : Mem → BitVec 64 → Nat → BitVec 64}

/-- Looking up the queue of an instruction. -/
theorem queueFor_frame {warpId : Nat} {inst : QueueInst} {q : Queue}
    (h : queueFor kind cfg s warpId inst = .ok (s', key, q)) :
    keyForWarp kind cfg s warpId inst.queueId = .ok key ∧ OnQueue kind key s s' ∧
      s'.queue? kind key = some q := by
  simp only [queueFor, bind_eq_ok, pure_eq_ok, Prod.exists, Prod.mk.injEq,
    QueueTable.getOrCreate_eq_ok] at h
  obtain ⟨key', hkey, table, q', ⟨_, rfl⟩, rfl, rfl, rfl⟩ := h
  exact ⟨hkey, .putQueue s kind key' q', queue?_putQueue s kind key' q'⟩

theorem OnQueue.countStage (s : Shader Mem) (kind' : QueueKind) (stage : Nat) :
    OnQueue kind key s (s.countStage kind' stage) := by
  cases kind' with
  | rfq => exact ⟨⟨rfl, rfl, rfl, rfl, rfl⟩, fun _ _ _ => rfl⟩
  | smemq => exact .refl kind key s

/-- The test of the other kind of queue passes and changes nothing. -/
theorem canIssue_other {warpId : Nat} {inst : QueueInst} {countStall : Bool}
    (h : inst.kind ≠ kind) : canIssue kind cfg s warpId inst countStall = .ok (s, true) := by
  simp [canIssue, h, pure, Except.pure]

/-- A stall changes a counter at most. -/
private theorem stall_cases {m : Shader Mem} {g : QueueStats → QueueStats} {countStall : Bool}
    (h : (if countStall then m.count kind g else m) = s') :
    s' = m ∨ ∃ g, s' = m.count kind g := by
  cases countStall with
  | true => exact .inr ⟨g, h.symm⟩
  | false => exact .inl h.symm

/-- Testing an instruction finds or creates its queue and looks at the room or the head. -/
theorem canIssue_eq_ok {warpId : Nat} {inst : QueueInst} {countStall ready : Bool}
    (hkind : inst.kind = kind)
    (h : canIssue kind cfg s warpId inst countStall = .ok (s', ready)) :
    cfg.enabled kind = true ∧ ∃ key q m, queueFor kind cfg s warpId inst = .ok (m, key, q) ∧
      (s' = m ∨ ∃ g, s' = m.count kind g) ∧
      ready = if inst.load then !q.full else q.headReady := by
  simp only [canIssue, hkind, ne_eq, not_true_eq_false, ↓reduceIte, bind_eq_ok, require_eq_ok,
    Prod.exists] at h
  obtain ⟨_, henabled, m, key, q, hqueue, h⟩ := h
  refine ⟨henabled, key, q, m, hqueue, ?_⟩
  cases hload : inst.load with
  | true =>
    cases hfull : q.full with
    | true =>
      simp only [hload, hfull, ↓reduceIte, pure_eq_ok, Prod.mk.injEq] at h
      obtain ⟨hs', rfl⟩ := h
      exact ⟨stall_cases hs', rfl⟩
    | false =>
      simp only [hload, hfull, Bool.false_eq_true, ↓reduceIte, pure_eq_ok, Prod.mk.injEq] at h
      obtain ⟨rfl, rfl⟩ := h
      exact ⟨.inl rfl, rfl⟩
  | false =>
    cases hempty : q.empty with
    | true =>
      simp only [hload, hempty, Bool.false_eq_true, ↓reduceIte, pure_eq_ok, Prod.mk.injEq] at h
      obtain ⟨hs', rfl⟩ := h
      exact ⟨stall_cases hs', by simp [Queue.headReady, hempty]⟩
    | false =>
      cases hready : q.headReady with
      | true =>
        simp only [hload, hempty, hready, Bool.false_eq_true, Bool.not_true, ↓reduceIte, pure_eq_ok,
          Prod.mk.injEq] at h
        obtain ⟨rfl, rfl⟩ := h
        exact ⟨.inl rfl, rfl⟩
      | false =>
        simp only [hload, hempty, hready, Bool.false_eq_true, Bool.not_false, ↓reduceIte,
          pure_eq_ok, Prod.mk.injEq] at h
        obtain ⟨hs', rfl⟩ := h
        exact ⟨stall_cases hs', rfl⟩

/-- Testing an instruction touches the queue of its key alone. -/
theorem canIssue_frame {warpId : Nat} {inst : QueueInst} {countStall ready : Bool}
    (hkind : inst.kind = kind)
    (h : canIssue kind cfg s warpId inst countStall = .ok (s', ready)) :
    ∃ key, keyForWarp kind cfg s warpId inst.queueId = .ok key ∧ OnQueue kind key s s' := by
  obtain ⟨_, key, q, m, hqueue, hs', _⟩ := canIssue_eq_ok hkind h
  obtain ⟨hkey, honq, _⟩ := queueFor_frame hqueue
  refine ⟨key, hkey, ?_⟩
  rcases hs' with rfl | ⟨g, rfl⟩
  · exact honq
  · exact honq.trans (.count m kind g)

/-- An eligibility test leaves warps and load/store unit as they are. -/
theorem canIssue_core {warpId : Nat} {inst : QueueInst} {countStall ready : Bool}
    (h : canIssue kind cfg s warpId inst countStall = .ok (s', ready)) : SameCore s s' := by
  by_cases hkind : inst.kind = kind
  · obtain ⟨_, _, honq⟩ := canIssue_frame hkind h
    exact honq.core
  · rw [canIssue_other hkind, Except.ok.injEq, Prod.mk.injEq] at h
    exact h.1 ▸ .refl s

/-- An instruction's own version of a function is the only one that acts. -/
theorem prepareIssue_other {inst : WarpInst} (h : inst.kind ≠ kind) :
    prepareIssue kind cfg s inst = .ok (s, inst) := by
  simp [prepareIssue, h, pure, Except.pure]

/-- What follows an instruction of the other kind of queue is nothing. -/
theorem afterFuncExec_other {inst : WarpInst} (h : inst.kind ≠ kind) :
    afterFuncExec kind cfg s inst = .ok s := by
  simp [afterFuncExec, h, pure, Except.pure]

/-- A reserved token carries the key of the reservation. -/
theorem key_of_reserveTail {q q' : Queue} {mask : ActiveMask} {pending : Nat} {token : Token}
    (h : q.reserveTail key mask pending = .ok (q', token)) : token.key = key := by
  simp only [Queue.reserveTail, bind_eq_ok, pure_eq_ok, Prod.mk.injEq] at h
  obtain ⟨_, _, _, _, _, _, _, _, _, rfl⟩ := h
  rfl

/-- Preparing writes a token of the instruction's key and changes nothing else of the
instruction. -/
theorem prepareIssue_frame {inst inst' : WarpInst} (henabled : cfg.enabled kind = true)
    (hkind : inst.kind = kind) (h : prepareIssue kind cfg s inst = .ok (s', inst')) :
    ∃ key token, keyForWarp kind cfg s inst.warpId inst.queueId = .ok key ∧
      OnQueue kind key s s' ∧ inst' = inst.writeTokenToInst token ∧ token.key = key := by
  simp only [prepareIssue, henabled, hkind, Bool.true_eq_false, ne_eq, not_true_eq_false,
    or_self, ↓reduceIte, bind_eq_ok, Prod.exists] at h
  obtain ⟨m, key, q, hqueue, h⟩ := h
  obtain ⟨hkey, honq, _⟩ := queueFor_frame hqueue
  split at h
  · simp only [bind_eq_ok, Prod.exists, pure_eq_ok, Prod.mk.injEq] at h
    obtain ⟨_, _, q', token, hreserve, rfl, rfl⟩ := h
    exact ⟨key, token, hkey, (honq.trans (.putQueue m kind key q')).trans
      ((OnQueue.count _ kind _).trans (.countStage _ kind 0)), rfl, key_of_reserveTail hreserve⟩
  · rw [pure_eq_ok, Prod.mk.injEq] at h
    obtain ⟨rfl, rfl⟩ := h
    exact ⟨key, _, hkey, honq.trans (.countStage m kind 1), rfl, rfl⟩

/-- Preparing keeps everything of the instruction but its token. -/
theorem prepareIssue_inst {inst inst' : WarpInst}
    (h : prepareIssue kind cfg s inst = .ok (s', inst')) :
    inst'.toQueueInst = inst.toQueueInst := by
  unfold prepareIssue at h
  split at h
  · rw [pure_eq_ok, Prod.mk.injEq] at h
    rw [h.2]
  · simp only [bind_eq_ok, Prod.exists] at h
    obtain ⟨m, key', q₀, _, h⟩ := h
    split at h
    · simp only [bind_eq_ok, Prod.exists, pure_eq_ok, Prod.mk.injEq] at h
      obtain ⟨_, _, _, _, _, _, rfl⟩ := h
      rfl
    · rw [pure_eq_ok, Prod.mk.injEq] at h
      rw [← h.2]
      rfl

/-- The two versions of `prepare_issue` together are that of the instruction's kind. -/
theorem prepareIssue_both {s₁ s₂ : Shader Mem} {inst inst₁ inst₂ : WarpInst}
    (h₁ : waspRfqPrepareIssue cfg s inst = .ok (s₁, inst₁))
    (h₂ : smemqPrepareIssue cfg s₁ inst₁ = .ok (s₂, inst₂)) :
    prepareIssue inst.kind cfg s inst = .ok (s₂, inst₂) := by
  have hkind : inst₁.kind = inst.kind := congrArg QueueInst.kind (prepareIssue_inst h₁)
  cases hk : inst.kind with
  | rfq =>
    have hne : inst₁.kind ≠ .smemq := by rw [hkind, hk]; decide
    rw [smemqPrepareIssue, prepareIssue_other hne, Except.ok.injEq, Prod.mk.injEq] at h₂
    rw [← h₂.1, ← h₂.2]
    exact h₁
  | smemq =>
    have hne : inst.kind ≠ .rfq := by rw [hk]; decide
    rw [waspRfqPrepareIssue, prepareIssue_other hne, Except.ok.injEq, Prod.mk.injEq] at h₁
    rw [h₁.1, h₁.2]
    exact h₂

/-- The two versions of `after_func_exec` together are that of the instruction's kind. -/
theorem afterFuncExec_both {s₁ s₂ : Shader Mem} {inst : WarpInst}
    (h₁ : waspRfqAfterFuncExec cfg s inst = .ok s₁)
    (h₂ : smemqAfterFuncExec cfg s₁ inst = .ok s₂) :
    afterFuncExec inst.kind cfg s inst = .ok s₂ := by
  cases hk : inst.kind with
  | rfq =>
    have hne : inst.kind ≠ .smemq := by rw [hk]; decide
    rw [smemqAfterFuncExec, afterFuncExec_other hne, Except.ok.injEq] at h₂
    rw [← h₂]
    exact h₁
  | smemq =>
    have hne : inst.kind ≠ .rfq := by rw [hk]; decide
    rw [waspRfqAfterFuncExec, afterFuncExec_other hne, Except.ok.injEq] at h₁
    rw [h₁]
    exact h₂

/-- A stored word concerns the queue of its instruction only. -/
theorem functionalStoreLane_frame {inst : WarpInst} {lane word : Nat} {v : BitVec 64}
    (h : functionalStoreLane kind cfg s inst lane word v = .ok s') :
    OnQueue kind inst.tokenFromInst.key s s' := by
  unfold functionalStoreLane at h
  split at h
  · rw [pure_eq_ok] at h
    exact h ▸ .refl kind _ s
  · simp only [bind_eq_ok, pure_eq_ok] at h
    obtain ⟨_, _, q, _, rfl⟩ := h
    exact .putQueue s kind _ q

theorem ldExec_frame {inst : WarpInst} {input : LaneInput} {lane : Nat}
    (h : ldExec inst.kind cfg read s inst input lane = .ok s') :
    OnQueue inst.kind inst.tokenFromInst.key s s' :=
  foldlM_invariant (OnQueue inst.kind inst.tokenFromInst.key s)
    (fun _ _ _ _ hm hf => hm.trans (functionalStoreLane_frame hf)) h (.refl _ _ s)

/-- A load concerns the queue of its instruction only, and loses the lanes predicated off. -/
theorem funcExecLoad_frame {inst inst' : WarpInst} {input : LaneInput}
    (h : funcExecLoad cfg read s inst input = .ok (s', inst')) :
    OnQueue inst.kind inst.tokenFromInst.key s s' ∧
      inst' = { inst with
        activeMask := maskAfter cfg.warpSize input inst.activeMask
        accessqCount := input.accesses } ∧
      (inst'.activeMask = 0 → inst'.accessqCount = 0) := by
  obtain ⟨hfold, _, rfl, hoff⟩ := funcExecLoad_ok h
  refine ⟨?_, rfl, hoff⟩
  refine foldlM_invariant (OnQueue inst.kind inst.tokenFromInst.key s)
    (fun m lane m' _ hm hf => ?_) hfold (.refl _ _ s)
  split at hf
  · exact hm.trans (ldExec_frame hf)
  · rw [pure_eq_ok] at hf
    exact hf ▸ hm

/-- What follows an instruction concerns its own queue only. -/
theorem afterFuncExec_frame {inst : WarpInst} (h : afterFuncExec kind cfg s inst = .ok s') :
    OnQueue kind inst.tokenFromInst.key s s' := by
  unfold afterFuncExec at h
  split at h
  · rw [pure_eq_ok] at h
    exact h ▸ .refl kind _ s
  · simp only [bind_eq_ok] at h
    obtain ⟨_, _, h⟩ := h
    split at h
    · simp only [bind_eq_ok, pure_eq_ok] at h
      obtain ⟨q, _, rfl⟩ := h
      exact .putQueue s kind _ q
    · simp only [bind_eq_ok, pure_eq_ok] at h
      obtain ⟨_, _, q, _, rfl⟩ := h
      exact (OnQueue.putQueue s kind _ q).trans (.count _ kind _)

/-- The state in which `issue_warp` prepares the copied instruction. -/
def issuing (s : Shader Mem) (warpId : Nat) : Shader Mem :=
  { s.setWarp warpId (fun w => { w with ibuffered := w.ibuffered - 1 }) with
    nextUid := s.nextUid + 1 }

/-- The key of a warp does not depend on its other fields. -/
theorem keyForWarp_issuing (kind : QueueKind) (cfg : Config) (s : Shader Mem)
    (warpId warpId' queueId : Nat) :
    keyForWarp kind cfg (issuing s warpId) warpId' queueId =
      keyForWarp kind cfg s warpId' queueId := by
  have hcta : ((issuing s warpId).warps warpId').ctaId = (s.warps warpId').ctaId := by
    by_cases h : warpId' = warpId
    · subst h
      simp [issuing, setWarp]
    · simp [issuing, setWarp, h]
  simp [keyForWarp, hcta]

/-- The token that preparing writes into an instruction is read back from it. -/
theorem tokenFromInst_prepared (inst : WarpInst) {token : Token} {key : QueueKey} {w queueId : Nat}
    (hkey : keyForWarp kind cfg s w queueId = .ok key) (htoken : token.key = key)
    (hqueue : inst.queueId = queueId) :
    (inst.writeTokenToInst token).tokenFromInst.key = key ∧
      (inst.writeTokenToInst token).tokenFromInst.slotIndex = token.slotIndex := by
  obtain ⟨_, _, hkey₀⟩ := keyForWarp_eq_ok.mp hkey
  refine ⟨?_, rfl⟩
  rw [hkey₀] at htoken ⊢
  simp [WarpInst.tokenFromInst, WarpInst.writeTokenToInst, htoken, hqueue]

/-- The phases in which a load issues. -/
theorem issueWarp_load_eq_ok {warpId : Nat} {inst : QueueInst} {activeMask : ActiveMask}
    {input : LaneInput} {es : List Event} (hload : inst.load = true)
    (h : issueWarp cfg read s warpId inst activeMask input = .ok (s', es)) :
    (0 < (s.warps warpId).ibuffered ∧ (s.warps warpId).functionalDone = false) ∧
      cfg.enabled inst.kind = true ∧ ∃ s₂ inst₂ s₃ wi s₅,
        prepareIssue inst.kind cfg (issuing s warpId)
          { inst with uid := s.nextUid, warpId, activeMask } = .ok (s₂, inst₂) ∧
        inst₂.toQueueInst = inst ∧ funcExecLoad cfg read s₂ inst₂ input = .ok (s₃, wi) ∧
        wi.toQueueInst = inst ∧ afterFuncExec inst.kind cfg s₃ wi = .ok s₅ ∧
        s' = s₅.setLdst { s₅.ldst with dispatch := s₅.ldst.dispatch ++ [wi] } ∧
        es = [.loaded wi (executes inst₂.activeMask input)
          fun lane word => read s₂.mem (input.addr lane word) input.size] := by
  simp only [issueWarp, bind_eq_ok, require_eq_ok, Prod.exists] at h
  obtain ⟨_, hbusy, _, henabled, s₁, inst₁, hprep₁, s₂, inst₂, hprep₂, h⟩ := h
  have hprep := prepareIssue_both hprep₁ hprep₂
  have hinst₂ : inst₂.toQueueInst = inst := prepareIssue_inst hprep
  have hload₂ : inst₂.load = true := by rw [hinst₂]; exact hload
  simp only [hload₂, ↓reduceIte, bind_eq_ok, pure_eq_ok, Prod.exists, Prod.mk.injEq] at h
  obtain ⟨s₃, wi, hexec, s₄, hafter₁, s₅, hafter₂, rfl, rfl⟩ := h
  have hwi : wi.toQueueInst = inst := by
    obtain ⟨_, rfl, _⟩ := funcExecLoad_frame hexec
    exact hinst₂
  have hafter := afterFuncExec_both hafter₁ hafter₂
  rw [hwi] at hafter
  exact ⟨hbusy, henabled, s₂, inst₂, s₃, wi, s₅, hprep, hinst₂, hexec, hwi, hafter, rfl, rfl⟩

/-- The phases in which a move issues. -/
theorem issueWarp_move_eq_ok {warpId : Nat} {inst : QueueInst} {activeMask : ActiveMask}
    {input : LaneInput} {es : List Event} (hload : inst.load = false)
    (h : issueWarp cfg read s warpId inst activeMask input = .ok (s', es)) :
    (0 < (s.warps warpId).ibuffered ∧ (s.warps warpId).functionalDone = false) ∧
      cfg.enabled inst.kind = true ∧ ∃ s₂ inst₂ writes s₄,
        prepareIssue inst.kind cfg (issuing s warpId)
          { inst with uid := s.nextUid, warpId, activeMask } = .ok (s₂, inst₂) ∧
        inst₂.toQueueInst = inst ∧ funcExecMove cfg s₂ inst₂ input = .ok writes ∧
        afterFuncExec inst.kind cfg s₂ inst₂ = .ok s₄ ∧
        s' = s₄.setWarp warpId (fun w => { w with elsewhere := w.elsewhere + 1 }) ∧
        es = [.moved inst₂ (executes inst₂.activeMask input) (writtenTo writes)] := by
  simp only [issueWarp, bind_eq_ok, require_eq_ok, Prod.exists] at h
  obtain ⟨_, hbusy, _, henabled, s₁, inst₁, hprep₁, s₂, inst₂, hprep₂, h⟩ := h
  have hprep := prepareIssue_both hprep₁ hprep₂
  have hinst₂ : inst₂.toQueueInst = inst := prepareIssue_inst hprep
  have hload₂ : inst₂.load = false := by rw [hinst₂]; exact hload
  simp only [hload₂, Bool.false_eq_true, ↓reduceIte, bind_eq_ok, pure_eq_ok, Prod.mk.injEq] at h
  obtain ⟨writes, hexec, s₃, hafter₁, s₄, hafter₂, rfl, rfl⟩ := h
  have hafter := afterFuncExec_both hafter₁ hafter₂
  rw [hinst₂] at hafter
  exact ⟨hbusy, henabled, s₂, inst₂, writes, s₄, hprep, hinst₂, hexec, hafter, rfl, rfl⟩

/-- The parts of a core that an issue changes besides the queue under `key`. -/
structure Issued (cfg : Config) (key : QueueKey) (s s' : Shader Mem) (warpId : Nat)
    (inst : QueueInst) (wi : WarpInst) : Prop where
  inst_eq : wi.toQueueInst = inst
  uid_eq : wi.uid = s.nextUid
  warpId_eq : wi.warpId = warpId
  enabled : cfg.enabled inst.kind = true
  key_eq : keyForWarp inst.kind cfg s warpId inst.queueId = .ok key
  token_key : wi.tokenFromInst.key = key
  busy : 0 < (s.warps warpId).ibuffered ∧ (s.warps warpId).functionalDone = false
  others : ∀ kind' key', ¬(kind' = inst.kind ∧ key' = key) →
    s'.queue? kind' key' = s.queue? kind' key'
  ctaStatus_eq : s'.ctaStatus = s.ctaStatus
  mem_eq : s'.mem = s.mem
  nextUid_eq : s'.nextUid = s.nextUid + 1

/-- The instruction that an issue logs is on the queue of its key. -/
theorem Issued.on_iff {warpId : Nat} {inst : QueueInst} {wi : WarpInst}
    (h : Issued cfg key s s' warpId inst wi) {kind' : QueueKind} {key' : QueueKey} :
    (wi.kind = kind' ∧ wi.tokenFromInst.key = key') ↔ kind' = inst.kind ∧ key' = key := by
  rw [h.token_key, h.inst_eq]
  exact ⟨fun ⟨h₁, h₂⟩ => ⟨h₁.symm, h₂.symm⟩, fun ⟨h₁, h₂⟩ => ⟨h₁.symm, h₂.symm⟩⟩

/-- Issuing a load sends it towards the load/store unit. -/
theorem issueWarp_load_frame {warpId : Nat} {inst : QueueInst} {activeMask : ActiveMask}
    {input : LaneInput} {es : List Event} (hload : inst.load = true)
    (h : issueWarp cfg read s warpId inst activeMask input = .ok (s', es)) :
    ∃ key wi, Issued cfg key s s' warpId inst wi ∧
      es = [.loaded wi (executes activeMask input)
        fun lane word => read s.mem (input.addr lane word) input.size] ∧
      wi.accessqCount = input.accesses ∧ (wi.activeMask = 0 → wi.accessqCount = 0) ∧
      s'.ldst = { s.ldst with dispatch := s.ldst.dispatch ++ [wi] } ∧
      s'.warps = (issuing s warpId).warps := by
  obtain ⟨hbusy, henabled, s₂, inst₂, s₃, wi, s₅, hprep, hinst₂, hexec, hwiInst, hafter,
    rfl, rfl⟩ := issueWarp_load_eq_ok hload h
  obtain ⟨key, token, hkey, honq, hwrite, htoken⟩ := prepareIssue_frame henabled rfl hprep
  rw [keyForWarp_issuing] at hkey
  obtain ⟨honq₃, hwi, hoff⟩ := funcExecLoad_frame hexec
  have honq₅ := afterFuncExec_frame hafter
  have hkind₂ : inst₂.kind = inst.kind := by rw [hinst₂]
  have htokenKey : inst₂.tokenFromInst.key = key := by
    rw [hwrite]
    exact (tokenFromInst_prepared _ hkey htoken rfl).1
  have hwiKey : wi.tokenFromInst.key = key := by rw [hwi]; exact htokenKey
  rw [hkind₂, htokenKey] at honq₃
  rw [hwiKey] at honq₅
  have hall : OnQueue inst.kind key (issuing s warpId) s₅ := (honq.trans honq₃).trans honq₅
  refine ⟨key, wi, ⟨hwiInst, by rw [hwi, hwrite]; rfl, by rw [hwi, hwrite]; rfl, henabled, hkey,
    hwiKey, hbusy, fun kind' key' hne => hall.others kind' key' hne, hall.core.ctaStatus_eq,
    hall.core.mem_eq, hall.core.nextUid_eq⟩, ?_, by rw [hwi], hoff, ?_, hall.core.warps_eq⟩
  · have hmask : inst₂.activeMask = activeMask := by rw [hwrite]; rfl
    have hmem : s₂.mem = s.mem := honq.core.mem_eq
    rw [hmask, hmem]
  · change { s₅.ldst with dispatch := s₅.ldst.dispatch ++ [wi] } = _
    rw [hall.core.ldst_eq]
    rfl

/-- Issuing a move leaves the load/store unit alone. -/
theorem issueWarp_move_frame {warpId : Nat} {inst : QueueInst} {activeMask : ActiveMask}
    {input : LaneInput} {es : List Event} (hload : inst.load = false)
    (h : issueWarp cfg read s warpId inst activeMask input = .ok (s', es)) :
    ∃ key wi written, Issued cfg key s s' warpId inst wi ∧
      es = [.moved wi (executes activeMask input) written] ∧ s'.ldst = s.ldst ∧
      s'.warps = ((issuing s warpId).setWarp warpId fun w =>
        { w with elsewhere := w.elsewhere + 1 }).warps := by
  obtain ⟨hbusy, henabled, s₂, inst₂, writes, s₄, hprep, hinst₂, hexec, hafter, rfl, rfl⟩ :=
    issueWarp_move_eq_ok hload h
  obtain ⟨key, token, hkey, honq, hwrite, htoken⟩ := prepareIssue_frame henabled rfl hprep
  rw [keyForWarp_issuing] at hkey
  have honq₄ := afterFuncExec_frame hafter
  have htokenKey : inst₂.tokenFromInst.key = key := by
    rw [hwrite]
    exact (tokenFromInst_prepared _ hkey htoken rfl).1
  rw [htokenKey] at honq₄
  have hall : OnQueue inst.kind key (issuing s warpId) s₄ := honq.trans honq₄
  have hmask : inst₂.activeMask = activeMask := by rw [hwrite]; rfl
  refine ⟨key, inst₂, writtenTo writes, ⟨hinst₂, by rw [hwrite]; rfl, by rw [hwrite]; rfl,
    henabled, hkey, htokenKey, hbusy, fun kind' key' hne => hall.others kind' key' hne,
    hall.core.ctaStatus_eq, hall.core.mem_eq, hall.core.nextUid_eq⟩, by rw [hmask],
    hall.core.ldst_eq, ?_⟩
  simp only [setWarp, hall.core.warps_eq]

end Shader
end WaspSim
