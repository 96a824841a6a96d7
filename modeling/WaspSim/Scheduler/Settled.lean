import WaspSim.Correctness.IssueFrame
import WaspSim.Scheduler.Cycle

/-!
# Testing an instruction again

A test creates the queue of an instruction when it is missing and may end a memory
barrier of its warp. After that the test changes nothing: it gives the same answer
in every state that keeps the warp and the queues.
-/

namespace WaspSim

namespace QueueTable

variable {t : QueueTable} {key : QueueKey} {q : Queue}

@[simp] theorem settle_self (t : QueueTable) : t.settle t = t := by
  simp [settle]

/-- Storing the queue that a key already has settles to the same table. -/
theorem settle_insert_of_lookup (h : t.lookup key = some q) : t.settle (t.insert key q) = t := by
  refine if_pos fun k _ => ?_
  by_cases hk : k = key
  · subst hk
    rw [h, AList.lookup_insert]
  · rw [AList.lookup_insert_ne hk]

/-- Settling keeps every queue of a later table. -/
theorem lookup_settle {t' : QueueTable} (h : ∀ k ∈ t, k ∈ t') (k : QueueKey) :
    (t.settle t').lookup k = t'.lookup k := by
  unfold settle
  split
  · rename_i hsame
    by_cases hk : k ∈ t'.keys
    · exact hsame k hk
    · have hnew : k ∉ t' := fun hmem => hk (AList.mem_keys.mp hmem)
      rw [AList.lookup_eq_none.mpr hnew, AList.lookup_eq_none.mpr fun hmem => hnew (h k hmem)]
  · rfl

end QueueTable

/-- A queue that was configured once accepts the same sizes again. -/
theorem Queue.configure_idem {q q' : Queue} {entries width warpSize : Nat}
    (h : q.configure entries width warpSize = .ok q') :
    q'.configure entries width warpSize = .ok q' := by
  unfold configure at h
  split at h
  · rename_i hconf
    simp only [bind_eq_ok, require_eq_ok, pure_eq_ok] at h
    obtain ⟨_, hentries, _, hwidth, _, hwarp, rfl⟩ := h
    simp [configure, hconf, hentries, hwidth, hwarp, require, bind, Except.bind, pure, Except.pure]
  · simp only [bind_eq_ok, require_eq_ok, pure_eq_ok] at h
    obtain ⟨_, hentries, _, _, _, _, rfl⟩ := h
    simp [configure, configured, hentries, require, bind, Except.bind, pure, Except.pure]

/-- A queue is configured after `configure`. -/
theorem Queue.configured_of_configure {q q' : Queue} {entries width warpSize : Nat}
    (h : q.configure entries width warpSize = .ok q') : q'.configured = true := by
  unfold configure at h
  split at h
  · rename_i hconf
    simp only [bind_eq_ok, pure_eq_ok] at h
    obtain ⟨_, _, _, _, _, _, rfl⟩ := h
    exact hconf
  · simp only [bind_eq_ok, require_eq_ok, pure_eq_ok] at h
    obtain ⟨_, hentries, _, _, _, _, rfl⟩ := h
    simpa [configured] using hentries

/-- Configuring a queue again leaves it as it is. -/
theorem Queue.configure_eq_self {q q' : Queue} {entries width warpSize : Nat}
    (hconf : q.configured = true) (h : q.configure entries width warpSize = .ok q') : q' = q := by
  simp only [configure, hconf, ↓reduceIte, bind_eq_ok, pure_eq_ok] at h
  obtain ⟨_, _, _, _, _, _, rfl⟩ := h
  rfl

namespace Shader

variable {Mem : Type} {cfg : Config} {kind : QueueKind} {s s' s₂ : Shader Mem}

/-- Looking up a queue that exists with the right sizes stores it again. -/
theorem queueFor_of_queue? {w : Nat} {inst : QueueInst} {key : QueueKey} {q : Queue}
    (h : queueFor kind cfg s w inst = .ok (s', key, q))
    (hcta : (s₂.warps w).ctaId = (s.warps w).ctaId)
    (hq : s₂.queue? kind key = some q) :
    queueFor kind cfg s₂ w inst = .ok (s₂.putQueue kind key q, key, q) := by
  simp only [queueFor, bind_eq_ok, pure_eq_ok, Prod.exists, Prod.mk.injEq,
    QueueTable.getOrCreate_eq_ok] at h ⊢
  obtain ⟨key', hkey, table, q', ⟨hconf, rfl⟩, rfl, rfl, rfl⟩ := h
  refine ⟨key', ?_, _, q', ⟨?_, rfl⟩, rfl, rfl, rfl⟩
  · rw [keyForWarp_eq_ok] at hkey ⊢
    rw [hcta]
    exact hkey
  · have hlookup : (s₂.tables kind).lookup key' = some q' := hq
    rw [hlookup]
    exact Queue.configure_idem hconf

theorem configured_of_queueFor {w : Nat} {inst : QueueInst} {key : QueueKey} {q : Queue}
    (h : queueFor kind cfg s w inst = .ok (s', key, q)) : q.configured = true := by
  simp only [queueFor, bind_eq_ok, pure_eq_ok, Prod.exists, Prod.mk.injEq,
    QueueTable.getOrCreate_eq_ok] at h
  obtain ⟨_, _, _, _, ⟨hconf, _⟩, _, _, rfl⟩ := h
  exact Queue.configured_of_configure hconf

/-- Creating a missing queue keeps every configured one. -/
theorem queueFor_keeps {w : Nat} {inst : QueueInst} {key : QueueKey} {q : Queue}
    (h : queueFor kind cfg s w inst = .ok (s', key, q)) {kind' : QueueKind} {key' : QueueKey}
    {q' : Queue} (hconf : q'.configured = true) (hq' : s.queue? kind' key' = some q') :
    s'.queue? kind' key' = some q' := by
  obtain ⟨_, honq, hput⟩ := queueFor_frame h
  by_cases hsame : kind' = kind ∧ key' = key
  · obtain ⟨rfl, rfl⟩ := hsame
    simp only [queueFor, bind_eq_ok, pure_eq_ok, Prod.exists, Prod.mk.injEq,
      QueueTable.getOrCreate_eq_ok] at h
    obtain ⟨k, _, _, q₀, ⟨hconfigure, _⟩, _, hk, hq₀⟩ := h
    have hlookup : (s.tables kind').lookup k = some q' := by
      rw [hk]
      exact hq'
    rw [hlookup] at hconfigure
    rw [hput, ← hq₀]
    exact congrArg some (Queue.configure_eq_self hconf hconfigure)
  · rw [honq.others kind' key' hsame]
    exact hq'

/-- Looking up a queue drops no other. -/
theorem queueFor_mem {w : Nat} {inst : QueueInst} {key : QueueKey} {q : Queue}
    (h : queueFor kind cfg s w inst = .ok (s', key, q)) {kind' : QueueKind} {k : QueueKey}
    (hk : k ∈ s.tables kind') : k ∈ s'.tables kind' := by
  obtain ⟨_, honq, hput⟩ := queueFor_frame h
  rw [← AList.lookup_isSome] at hk ⊢
  by_cases hsame : kind' = kind ∧ k = key
  · obtain ⟨rfl, rfl⟩ := hsame
    change (s'.queue? _ _).isSome = true
    rw [hput]
    rfl
  · change (s'.queue? kind' k).isSome = true
    rw [honq.others kind' k hsame]
    exact hk

/-- A test whose queue exists succeeds. -/
theorem canIssue_of_queueFor {w : Nat} {inst : QueueInst} {key : QueueKey} {q : Queue}
    (hkind : inst.kind = kind) (henabled : cfg.enabled kind = true)
    (hqueue : queueFor kind cfg s w inst = .ok (s', key, q)) (count : Bool) :
    ∃ s'', canIssue kind cfg s w inst count =
        .ok (s'', if inst.load then !q.full else q.headReady) ∧
      (s'' = s' ∨ count = true ∧ ∃ g, s'' = s'.count kind g) := by
  have hstall : ∀ g : QueueStats → QueueStats, ∃ s'',
      (if count then s'.count kind g else s') = s'' ∧
      (s'' = s' ∨ count = true ∧ ∃ g, s'' = s'.count kind g) := by
    intro g
    cases count with
    | true => exact ⟨_, rfl, .inr ⟨rfl, g, rfl⟩⟩
    | false => exact ⟨_, rfl, .inl rfl⟩
  simp only [canIssue, hkind, ne_eq, not_true_eq_false, ↓reduceIte, require, henabled, hqueue,
    bind, Except.bind, pure, Except.pure]
  cases hload : inst.load with
  | true =>
    cases hfull : q.full with
    | true =>
      obtain ⟨s'', hs'', hcases⟩ := hstall fun c => { c with fullStalls := c.fullStalls + 1 }
      exact ⟨s'', by simp [hs''], hcases⟩
    | false => exact ⟨s', by simp, .inl rfl⟩
  | false =>
    cases hempty : q.empty with
    | true =>
      obtain ⟨s'', hs'', hcases⟩ := hstall fun c => { c with emptyStalls := c.emptyStalls + 1 }
      exact ⟨s'', by simp [hs'', Queue.headReady, hempty], hcases⟩
    | false =>
      cases hready : q.headReady with
      | true => exact ⟨s', by simp, .inl rfl⟩
      | false =>
        obtain ⟨s'', hs'', hcases⟩ := hstall fun c =>
          { c with headNotReadyStalls := c.headNotReadyStalls + 1 }
        exact ⟨s'', by simp [hs''], hcases⟩

/-- A test drops no queue. -/
theorem canIssue_mem {w : Nat} {inst : QueueInst} {count ready : Bool} (hkind : inst.kind = kind)
    (h : canIssue kind cfg s w inst count = .ok (s', ready)) {kind' : QueueKind} {k : QueueKey}
    (hk : k ∈ s.tables kind') : k ∈ s'.tables kind' := by
  obtain ⟨_, key, q, m, hfor, hs', _⟩ := canIssue_eq_ok hkind h
  rcases hs' with rfl | ⟨g, rfl⟩
  · exact queueFor_mem hfor hk
  · exact queueFor_mem hfor hk

/-- A test keeps every configured queue. -/
theorem canIssue_keeps {w : Nat} {inst : QueueInst} {count ready : Bool} (hkind : inst.kind = kind)
    (h : canIssue kind cfg s w inst count = .ok (s', ready)) {kind' : QueueKind} {key' : QueueKey}
    {q' : Queue} (hconf : q'.configured = true) (hq' : s.queue? kind' key' = some q') :
    s'.queue? kind' key' = some q' := by
  obtain ⟨_, key, q, m, hfor, hs', _⟩ := canIssue_eq_ok hkind h
  rcases hs' with rfl | ⟨g, rfl⟩
  · exact queueFor_keeps hfor hconf hq'
  · exact queueFor_keeps hfor hconf hq'

/-- A test that found or created its queue gives the same answer wherever that queue is kept. -/
theorem canIssue_again {w : Nat} {inst : QueueInst} {count ready : Bool} (hkind : inst.kind = kind)
    (h : canIssue kind cfg s w inst count = .ok (s', ready))
    (hcta : (s₂.warps w).ctaId = (s.warps w).ctaId)
    (hqueues : ∀ key q, q.configured = true → s'.queue? kind key = some q →
      s₂.queue? kind key = some q) (count₂ : Bool) :
    ∃ key q s₃, s₂.queue? kind key = some q ∧
      canIssue kind cfg s₂ w inst count₂ = .ok (s₃, ready) ∧
      (s₃ = s₂.putQueue kind key q ∨
        count₂ = true ∧ ∃ g, s₃ = (s₂.putQueue kind key q).count kind g) := by
  obtain ⟨henabled, key, q, m, hqueue, hs', rfl⟩ := canIssue_eq_ok hkind h
  have hput := (queueFor_frame hqueue).2.2
  have hq₂ : s₂.queue? kind key = some q := by
    apply hqueues key q (configured_of_queueFor hqueue)
    rcases hs' with rfl | ⟨g, rfl⟩
    · exact hput
    · exact hput
  obtain ⟨s₃, hs₃, hcases⟩ :=
    canIssue_of_queueFor hkind henabled (queueFor_of_queue? hqueue hcta hq₂) count₂
  exact ⟨key, q, s₃, hq₂, hs₃, hcases⟩

end Shader

namespace IssueState

variable {Mem Threads Simt Score : Type} {O : Outside Mem Threads Simt Score} {cfg : SchedConfig}
  {c c' c₁ c₂ : IssueState Mem Threads Simt Score} {w : Nat}

@[simp] theorem settle_shader (c : IssueState Mem Threads Simt Score) : c.settle c.shader = c := by
  simp [settle]

/-- Storing a queue where it already is settles to the same core. -/
theorem settle_putQueue {kind : QueueKind} {key : QueueKey} {q : Queue}
    (h : c.shader.queue? kind key = some q) : c.settle (c.shader.putQueue kind key q) = c := by
  have htables : (fun k => (c.shader.tables k).settle ((c.shader.putQueue kind key q).tables k)) =
      c.shader.tables := by
    funext k
    by_cases hk : k = kind
    · subst hk
      simpa [Shader.putQueue, Shader.setTable] using QueueTable.settle_insert_of_lookup h
    · simp [Shader.putQueue, Shader.setTable, hk]
  unfold settle
  rw [htables]
  rfl

/-- The queues of a settled core. -/
theorem queue?_settle {shader : Shader Mem}
    (h : ∀ kind, ∀ k ∈ c.shader.tables kind, k ∈ shader.tables kind) (kind : QueueKind)
    (key : QueueKey) : (c.settle shader).shader.queue? kind key = shader.queue? kind key :=
  QueueTable.lookup_settle (h kind) key

/-- The one queue function that tests an instruction. -/
theorem passesScoreboard_queue {inst : SchedInst} {q : QueueInst} {count : Bool}
    (hfree : O.checkCollision c.scoreboard w inst = false) (hqueue : inst.queue = some q) :
    c.passesScoreboard O cfg w inst count =
      Shader.canIssue q.kind cfg.toConfig c.shader w q count >>= fun r =>
        pure (c.settle r.1, r.2) := by
  simp only [passesScoreboard, hfree, hqueue, Bool.false_eq_true, ↓reduceIte,
    Shader.waspRfqCanIssue, Shader.smemqCanIssue]
  cases hkind : q.kind with
  | rfq =>
    have hne : q.kind ≠ .smemq := by rw [hkind]; decide
    simp only [Shader.canIssue_other hne]
    cases Shader.canIssue .rfq cfg.toConfig c.shader w q count with
    | error e => rfl
    | ok r =>
      obtain ⟨shader, passes⟩ := r
      cases passes with
      | false => rfl
      | true =>
        change Except.ok ((c.settle shader).settle (c.settle shader).shader, true) = _
        rw [settle_shader]
        rfl
  | smemq =>
    have hne : q.kind ≠ .rfq := by rw [hkind]; decide
    simp only [Shader.canIssue_other hne, bind, Except.bind, settle_shader, Bool.true_eq_false,
      ↓reduceIte]

/-- What the tests of a warp's next instruction depend on is the same in a later state, apart
from a memory barrier that has ended. -/
structure KeepsFor (O : Outside Mem Threads Simt Score) (w : Nat)
    (c c' : IssueState Mem Threads Simt Score) : Prop where
  warp_eq : c'.shader.warps w = c.shader.warps w
  sched_eq : c'.schedWarps w = c.schedWarps w ∨
    (c.schedWarps w).membar = true ∧ O.pendingWrites c.scoreboard w = false ∧
      c'.schedWarps w = { c.schedWarps w with membar := false }
  simt_eq : c'.simtStack w = c.simtStack w
  scoreboard_eq : c'.scoreboard = c.scoreboard
  barriers_eq : c'.barriers = c.barriers
  out_eq : c'.out = c.out
  queues : ∀ kind key q, q.configured = true → c.shader.queue? kind key = some q →
    c'.shader.queue? kind key = some q

namespace KeepsFor

theorem refl (w : Nat) (c : IssueState Mem Threads Simt Score) : KeepsFor O w c c :=
  ⟨rfl, .inl rfl, rfl, rfl, rfl, rfl, fun _ _ _ _ h => h⟩

theorem trans (h : KeepsFor O w c c₁) (h' : KeepsFor O w c₁ c₂) : KeepsFor O w c c₂ := by
  refine ⟨h'.warp_eq.trans h.warp_eq, ?_, h'.simt_eq.trans h.simt_eq,
    h'.scoreboard_eq.trans h.scoreboard_eq, h'.barriers_eq.trans h.barriers_eq,
    h'.out_eq.trans h.out_eq,
    fun kind key q hconf hq => h'.queues kind key q hconf (h.queues kind key q hconf hq)⟩
  rcases h.sched_eq with heq | ⟨hmembar, hpending, heq⟩
  · have hsched := h'.sched_eq
    rw [heq, h.scoreboard_eq] at hsched
    exact hsched
  · rcases h'.sched_eq with heq' | ⟨hmembar', _, _⟩
    · exact .inr ⟨hmembar, hpending, heq'.trans heq⟩
    · rw [heq] at hmembar'
      cases hmembar'

/-- The i-buffer is the same. -/
theorem ibuffer_eq (h : KeepsFor O w c c') :
    (c'.schedWarps w).ibuffer = (c.schedWarps w).ibuffer ∧
      (c'.schedWarps w).next = (c.schedWarps w).next := by
  rcases h.sched_eq with heq | ⟨_, _, heq⟩
  · rw [heq]
    exact ⟨rfl, rfl⟩
  · rw [heq]
    exact ⟨rfl, rfl⟩

/-- Ending a memory barrier without pending writes. -/
theorem endMembar {v : Nat} (hmembar : (c.schedWarps v).membar = true)
    (hpending : O.pendingWrites c.scoreboard v = false) (w : Nat) :
    KeepsFor O w c (c.setSchedWarp v fun sw => { sw with membar := false }) := by
  refine ⟨rfl, ?_, rfl, rfl, rfl, rfl, fun _ _ _ _ hq => hq⟩
  by_cases hw : w = v
  · subst hw
    exact .inr ⟨hmembar, hpending, by simp [setSchedWarp]⟩
  · exact .inl (by simp [setSchedWarp, hw])

/-- Testing the queues keeps what other tests depend on. -/
theorem settle {shader : Shader Mem} (hwarps : shader.warps = c.shader.warps)
    (hqueues : ∀ kind key q, q.configured = true → c.shader.queue? kind key = some q →
      (c.settle shader).shader.queue? kind key = some q) (w : Nat) :
    KeepsFor O w c (c.settle shader) :=
  ⟨congrFun hwarps w, .inl rfl, rfl, rfl, rfl, rfl, hqueues⟩

end KeepsFor

/-- A memory barrier ends when no write is pending. -/
theorem warpWaitingAtMemBarrier_keeps (v w : Nat) :
    KeepsFor O w c (c.warpWaitingAtMemBarrier O v).1 := by
  unfold warpWaitingAtMemBarrier
  cases hmembar : (c.schedWarps v).membar with
  | false => exact .refl w c
  | true =>
    cases hpending : O.pendingWrites c.scoreboard v with
    | false => exact .endMembar hmembar hpending w
    | true => exact .refl w c

/-- The wait at a memory barrier has the same answer again. -/
theorem warpWaitingAtMemBarrier_again {b : Bool} (h : c.warpWaitingAtMemBarrier O w = (c₁, b))
    (hkeeps : KeepsFor O w c₁ c₂) :
    c₂.warpWaitingAtMemBarrier O w = (c₂, b) ∧
      (c₂.schedWarps w).nAtomic = (c₁.schedWarps w).nAtomic := by
  have hatomic : (c₂.schedWarps w).nAtomic = (c₁.schedWarps w).nAtomic := by
    rcases hkeeps.sched_eq with heq | ⟨_, _, heq⟩
    · rw [heq]
    · rw [heq]
  refine ⟨?_, hatomic⟩
  have hoff : (c₁.schedWarps w).membar = false → (c₂.schedWarps w).membar = false := by
    intro hc₁
    rcases hkeeps.sched_eq with heq | ⟨_, _, heq⟩
    · rw [heq]
      exact hc₁
    · rw [heq]
  unfold warpWaitingAtMemBarrier at h ⊢
  cases hmembar : (c.schedWarps w).membar with
  | false =>
    simp only [hmembar, ↓reduceIte, Prod.mk.injEq] at h
    obtain ⟨rfl, rfl⟩ := h
    rw [if_pos (hoff hmembar)]
  | true =>
    cases hpending : O.pendingWrites c.scoreboard w with
    | false =>
      simp only [hmembar, hpending, Bool.true_eq_false, ↓reduceIte, Prod.mk.injEq] at h
      obtain ⟨rfl, rfl⟩ := h
      rw [if_pos (hoff (by simp [setSchedWarp]))]
    | true =>
      simp only [hmembar, hpending, Bool.true_eq_false, ↓reduceIte, Prod.mk.injEq] at h
      obtain ⟨rfl, rfl⟩ := h
      have hsame : c₂.schedWarps w = c.schedWarps w := by
        rcases hkeeps.sched_eq with heq | ⟨_, hended, _⟩
        · exact heq
        · rw [hpending] at hended
          cases hended
      simp [hsame, hmembar, hkeeps.scoreboard_eq, hpending]

/-- Asking whether a warp waits keeps what every test depends on. -/
theorem waiting_keeps (v w : Nat) : KeepsFor O w c (c.waiting O v).1 := by
  unfold waiting
  split
  · exact .refl w c
  · split
    · exact .refl w c
    · exact warpWaitingAtMemBarrier_keeps v w

/-- A warp that was asked whether it waits gives the same answer again. -/
theorem waiting_again {b : Bool} (h : c.waiting O w = (c₁, b)) (hkeeps : KeepsFor O w c₁ c₂) :
    c₂.waiting O w = (c₂, b) := by
  have hfirst := waiting_keeps (O := O) (c := c) w w
  rw [h] at hfirst
  have hall := hfirst.trans hkeeps
  have hdone : c₂.functionalDone w = c.functionalDone w := by
    simp only [functionalDone, hall.warp_eq]
  unfold waiting at h ⊢
  rw [hdone, hall.barriers_eq]
  split at h
  · rename_i hd
    rw [if_pos hd]
    rw [(Prod.mk.inj h).2]
  · rename_i hd
    rw [if_neg hd]
    split at h
    · rename_i hbarrier
      rw [if_pos hbarrier]
      rw [(Prod.mk.inj h).2]
    · rename_i hbarrier
      rw [if_neg hbarrier]
      cases hmem : c.warpWaitingAtMemBarrier O w with
      | mk m atMemBarrier =>
        rw [hmem] at h
        obtain ⟨rfl, rfl⟩ := Prod.mk.inj h
        obtain ⟨hagain, hatomic⟩ := warpWaitingAtMemBarrier_again hmem hkeeps
        rw [hagain]
        simp only [hatomic]

/-- A warp presents the same instruction. -/
theorem KeepsFor.presented_eq (h : KeepsFor O w c c') : c'.presented O w = c.presented O w := by
  obtain ⟨hibuffer, hnext⟩ := h.ibuffer_eq
  simp only [presented, SchedWarp.ibufferEmpty, SchedWarp.ibufferNextInst,
    SchedWarp.ibufferNextValid, hibuffer, hnext, h.simt_eq]
  rfl

theorem KeepsFor.doneExit_eq (h : KeepsFor O w c c') : c'.doneExit w = c.doneExit w := by
  simp only [doneExit, h.warp_eq]

/-- Looking for the next instruction of a warp asks only whether it waits. -/
theorem nextToIssue_keeps (v w : Nat) : KeepsFor O w c (c.nextToIssue O v).1 := by
  unfold nextToIssue
  split
  · exact .refl w c
  · exact waiting_keeps v w

/-- Whether a warp waits does not change while its tests are kept. -/
theorem KeepsFor.waiting_eq (h : KeepsFor O w c c') : (c'.waiting O w).2 = (c.waiting O w).2 := by
  have hdone : c'.functionalDone w = c.functionalDone w := by
    simp only [functionalDone, h.warp_eq]
  have hmem : (c'.warpWaitingAtMemBarrier O w).2 = (c.warpWaitingAtMemBarrier O w).2 := by
    rcases h.sched_eq with heq | ⟨hmembar, hpending, heq⟩
    · simp only [warpWaitingAtMemBarrier, heq, h.scoreboard_eq]
      split
      · rfl
      · split
        · rfl
        · rfl
    · simp [warpWaitingAtMemBarrier, heq, hmembar, hpending]
  have hatomic : ((c'.warpWaitingAtMemBarrier O w).1.schedWarps w).nAtomic =
      ((c.warpWaitingAtMemBarrier O w).1.schedWarps w).nAtomic := by
    have hsame : ∀ c₀ : IssueState Mem Threads Simt Score,
        ((c₀.warpWaitingAtMemBarrier O w).1.schedWarps w).nAtomic = (c₀.schedWarps w).nAtomic := by
      intro c₀
      rcases (warpWaitingAtMemBarrier_keeps (O := O) (c := c₀) w w).sched_eq with heq | ⟨_, _, heq⟩
      · rw [heq]
      · rw [heq]
    rw [hsame, hsame]
    rcases h.sched_eq with heq | ⟨_, _, heq⟩
    · rw [heq]
    · rw [heq]
  unfold waiting
  rw [hdone, h.barriers_eq]
  split
  · rfl
  · split
    · rfl
    · simp only [hmem, hatomic]

/-- What a warp presents does not change while its tests are kept. -/
theorem KeepsFor.nextToIssue_eq (h : KeepsFor O w c c') :
    (c'.nextToIssue O w).2 = (c.nextToIssue O w).2 := by
  have hpresented : ∀ c₀ : IssueState Mem Threads Simt Score,
      (c₀.waiting O w).1.presented O w = c₀.presented O w :=
    fun _ => (waiting_keeps w w).presented_eq
  unfold nextToIssue
  rw [h.doneExit_eq]
  split
  · rfl
  · simp only [hpresented, h.waiting_eq, h.presented_eq]

/-- The next instruction of a warp stays the same. -/
theorem nextToIssue_again {o : Option SchedInst} (h : c.nextToIssue O w = (c₁, o))
    (hkeeps : KeepsFor O w c₁ c₂) : c₂.nextToIssue O w = (c₂, o) := by
  have hfirst := nextToIssue_keeps (O := O) (c := c) w w
  rw [h] at hfirst
  unfold nextToIssue at h ⊢
  rw [(hfirst.trans hkeeps).doneExit_eq]
  split at h
  · rename_i hd
    rw [if_pos hd, (Prod.mk.inj h).2]
  · rename_i hd
    rw [if_neg hd]
    cases hwait : c.waiting O w with
    | mk m waits =>
      rw [hwait] at h
      obtain ⟨rfl, rfl⟩ := Prod.mk.inj h
      rw [waiting_again hwait hkeeps]
      simp only [hkeeps.presented_eq]

/-- Testing the scoreboard and the queues keeps what every test depends on. -/
theorem passesScoreboard_keeps {inst : SchedInst} {count b : Bool}
    (h : c.passesScoreboard O cfg w inst count = .ok (c', b)) (v : Nat) : KeepsFor O v c c' := by
  cases hfree : O.checkCollision c.scoreboard w inst with
  | true =>
    simp only [passesScoreboard, hfree, ↓reduceIte, pure_eq_ok, Prod.mk.injEq] at h
    exact h.1 ▸ .refl v c
  | false =>
    cases hqueue : inst.queue with
    | none =>
      simp only [passesScoreboard, hfree, hqueue, Bool.false_eq_true, ↓reduceIte, pure_eq_ok,
        Prod.mk.injEq] at h
      exact h.1 ▸ .refl v c
    | some q =>
      rw [passesScoreboard_queue hfree hqueue] at h
      simp only [bind_eq_ok, pure_eq_ok, Prod.exists, Prod.mk.injEq] at h
      obtain ⟨shader, _, hcan, rfl, _⟩ := h
      refine .settle (Shader.canIssue_core hcan).warps_eq (fun kind k q' hconf hq' => ?_) v
      rw [queue?_settle fun kind k => Shader.canIssue_mem rfl hcan]
      exact Shader.canIssue_keeps rfl hcan hconf hq'

/-- The scoreboard and the queues answer the same again, and only a counted stall changes the
core. -/
theorem passesScoreboard_again {inst : SchedInst} {count b : Bool}
    (h : c.passesScoreboard O cfg w inst count = .ok (c₁, b)) (hkeeps : KeepsFor O w c₁ c₂)
    (count₂ : Bool) :
    ∃ c₃, c₂.passesScoreboard O cfg w inst count₂ = .ok (c₃, b) ∧
      (count₂ = false → c₃ = c₂) := by
  have hfirst := passesScoreboard_keeps h w
  have hscore : c₂.scoreboard = c.scoreboard := (hfirst.trans hkeeps).scoreboard_eq
  cases hfree : O.checkCollision c.scoreboard w inst with
  | true =>
    simp only [passesScoreboard, hfree, hscore, ↓reduceIte, pure_eq_ok, Prod.mk.injEq] at h ⊢
    exact ⟨c₂, ⟨rfl, h.2⟩, fun _ => rfl⟩
  | false =>
    cases hqueue : inst.queue with
    | none =>
      simp only [passesScoreboard, hfree, hscore, hqueue, Bool.false_eq_true, ↓reduceIte,
        pure_eq_ok, Prod.mk.injEq] at h ⊢
      exact ⟨c₂, ⟨rfl, h.2⟩, fun _ => rfl⟩
    | some q =>
      rw [passesScoreboard_queue hfree hqueue] at h
      simp only [bind_eq_ok, pure_eq_ok, Prod.exists, Prod.mk.injEq] at h
      obtain ⟨shader, _, hcan, rfl, rfl⟩ := h
      have hqueues : ∀ key q₀, q₀.configured = true → shader.queue? q.kind key = some q₀ →
          c₂.shader.queue? q.kind key = some q₀ := by
        intro key q₀ hconf hq₀
        apply hkeeps.queues _ _ _ hconf
        rw [queue?_settle fun kind k => Shader.canIssue_mem rfl hcan]
        exact hq₀
      have hcta : (c₂.shader.warps w).ctaId = (c.shader.warps w).ctaId := by
        rw [(hfirst.trans hkeeps).warp_eq]
      obtain ⟨key, q₀, s₃, hq₀, hagain, hs₃⟩ :=
        Shader.canIssue_again rfl hcan hcta hqueues count₂
      refine ⟨c₂.settle s₃, ?_, fun hcount => ?_⟩
      · rw [passesScoreboard_queue (by rw [hscore]; exact hfree) hqueue, hagain]
        rfl
      · rcases hs₃ with rfl | ⟨htrue, _⟩
        · exact settle_putQueue hq₀
        · rw [hcount] at htrue
          cases htrue

/-- The instruction that a warp presents, if it is neither done nor waiting. -/
def Presents (O : Outside Mem Threads Simt Score) (c : IssueState Mem Threads Simt Score)
    (w : Nat) (inst : SchedInst) : Prop := (c.nextToIssue O w).2 = some inst

/-- The tests of a warp's next instruction change nothing any more. -/
structure Settled (O : Outside Mem Threads Simt Score) (cfg : SchedConfig)
    (c : IssueState Mem Threads Simt Score) (w : Nat) : Prop where
  next_eq : (c.nextToIssue O w).1 = c
  passes : ∀ inst, c.Presents O w inst → ∃ b, c.passesScoreboard O cfg w inst false = .ok (c, b)

theorem KeepsFor.presents_iff (h : KeepsFor O w c c') (inst : SchedInst) :
    c'.Presents O w inst ↔ c.Presents O w inst := by
  rw [Presents, h.nextToIssue_eq, Presents]

theorem Settled.mono (h : Settled O cfg c w) (hkeeps : KeepsFor O w c c₂) :
    Settled O cfg c₂ w := by
  have hnext := nextToIssue_again (Prod.ext h.next_eq rfl) hkeeps
  refine ⟨by rw [hnext], fun inst hinst => ?_⟩
  obtain ⟨b, hb⟩ := h.passes inst ((hkeeps.presents_iff inst).mp hinst)
  obtain ⟨c₃, hc₃, hsame⟩ := passesScoreboard_again hb hkeeps false
  obtain rfl := hsame rfl
  exact ⟨b, hc₃⟩

/-- Counting a warp as eligible keeps what every test depends on. -/
theorem eligible_keeps {entry : Option Nat} {b : Bool} (h : c.eligible O cfg entry = .ok (c', b))
    (v : Nat) : KeepsFor O v c c' := by
  cases entry with
  | none =>
    simp only [eligible, pure_eq_ok, Prod.mk.injEq] at h
    exact h.1 ▸ .refl v c
  | some w =>
    have hfirst := nextToIssue_keeps (O := O) (c := c) w v
    cases hnext : c.nextToIssue O w with
    | mk m o =>
      rw [hnext] at hfirst
      cases o with
      | none =>
        simp only [eligible, hnext, pure_eq_ok, Prod.mk.injEq] at h
        exact h.1 ▸ hfirst
      | some inst =>
        simp only [eligible, hnext] at h
        exact hfirst.trans (passesScoreboard_keeps h v)

/-- Counting a warp as eligible settles it. -/
theorem eligible_settles {b : Bool} (h : c.eligible O cfg (some w) = .ok (c', b)) :
    Settled O cfg c' w := by
  cases hnext : c.nextToIssue O w with
  | mk m o =>
    cases o with
    | none =>
      simp only [eligible, hnext, pure_eq_ok, Prod.mk.injEq] at h
      obtain ⟨rfl, _⟩ := h
      have hagain := nextToIssue_again hnext (.refl w m)
      refine ⟨by rw [hagain], fun inst hinst => ?_⟩
      rw [Presents, hagain] at hinst
      cases hinst
    | some inst =>
      simp only [eligible, hnext] at h
      have hagain := nextToIssue_again hnext (passesScoreboard_keeps h w)
      refine ⟨by rw [hagain], fun inst' hinst => ?_⟩
      rw [Presents, hagain] at hinst
      obtain rfl := Option.some.inj hinst
      obtain ⟨c₃, hc₃, hsame⟩ := passesScoreboard_again h (.refl w c') false
      obtain rfl := hsame rfl
      exact ⟨b, hc₃⟩

/-- Sampling the eligible warps settles every prioritized warp. -/
theorem eligibleWarps_settles {prioritized : List (Option Nat)} {n : Nat}
    (h : c.eligibleWarps O cfg prioritized = .ok (c', n)) :
    (∀ w, KeepsFor O w c c') ∧ ∀ w, some w ∈ prioritized → Settled O cfg c' w := by
  unfold eligibleWarps at h
  generalize hcount : 0 = count at h
  clear hcount
  induction prioritized generalizing c count with
  | nil =>
    simp only [foldlM_nil_eq_ok, Prod.mk.injEq] at h
    obtain ⟨rfl, _⟩ := h
    exact ⟨fun w => .refl w c, fun w hw => absurd hw List.not_mem_nil⟩
  | cons entry rest ih =>
    obtain ⟨⟨m, count'⟩, hstep, hrest⟩ := foldlM_cons_eq_ok.mp h
    simp only [bind_eq_ok, Prod.exists, pure_eq_ok, Prod.mk.injEq] at hstep
    obtain ⟨m', b, hentry, rfl, _⟩ := hstep
    obtain ⟨hkeeps, hsettled⟩ := ih count' hrest
    refine ⟨fun w => (eligible_keeps hentry w).trans (hkeeps w), fun w hw => ?_⟩
    rcases List.mem_cons.mp hw with rfl | hw
    · exact (eligible_settles hentry).mono (hkeeps w)
    · exact hsettled w hw

end IssueState

namespace Stage

variable {Mem Threads Simt Score : Type} {O : Outside Mem Threads Simt Score} {cfg : SchedConfig}
  {g g' : Stage Mem Threads Simt Score}

/-- The start of a cycle settles every prioritized warp. -/
theorem sample_settles (h : g.sample O cfg = .ok g') :
    (∀ w, IssueState.KeepsFor O w g.core g'.core) ∧
      (∀ w, some w ∈ g'.sched.prioritized → IssueState.Settled O cfg g'.core w) ∧
      g'.sched = g.sched := by
  simp only [sample, bind_eq_ok, pure_eq_ok, Prod.exists] at h
  obtain ⟨core, n, heligible, rfl⟩ := h
  obtain ⟨hkeeps, hsettled⟩ := IssueState.eligibleWarps_settles heligible
  exact ⟨hkeeps, hsettled, rfl⟩

/-- Some flags count no stall, and the others count the same one for every scheduler. -/
theorem countStall_cases (flags : IssueFlags) :
    (∀ g : Stage Mem Threads Simt Score, g.countStall flags = g) ∨
      ∃ i, ∀ g : Stage Mem Threads Simt Score,
        g.countStall flags = { g with stats := g.stats.countDistro i } := by
  cases hvalid : flags.validInst with
  | false => exact .inr ⟨0, fun g => by simp [countStall, hvalid]⟩
  | true =>
    cases hready : flags.readyInst with
    | false => exact .inr ⟨1, fun g => by simp [countStall, hvalid, hready]⟩
    | true =>
      cases hissued : flags.issuedInst with
      | false => exact .inr ⟨2, fun g => by simp [countStall, hvalid, hready, hissued]⟩
      | true => exact .inl fun g => by simp [countStall, hvalid, hready, hissued]

/-- Counting a stall leaves the core alone. -/
theorem countStall_core (g : Stage Mem Threads Simt Score) (flags : IssueFlags) :
    (g.countStall flags).core = g.core := by
  rcases countStall_cases flags with hnone | ⟨i, hcount⟩
  · rw [hnone]
  · rw [hcount]

end Stage
end WaspSim
