import WaspSim.Correctness.IssueEffect
import WaspSim.Correctness.StepCases

/-!
# Where a stale token can stop the core

A step looks tokens up when it closes a load, stores its words, asks for pending
responses or marks one. A load that issues uses the token it has just been given,
so only the lookups in the load/store unit can find another sequence number.
-/

namespace WaspSim
namespace Shader

variable {Mem : Type} {cfg : Config} {kind : QueueKind} {key : QueueKey} {s s' : Shader Mem}
  {f : Fifo (Item Nat)} {read : Mem → BitVec 64 → Nat → BitVec 64}

theorem keyForWarp_avoids {warpId queueId : Nat} :
    Avoids .staleToken (keyForWarp kind cfg s warpId queueId) :=
  .bind (.require (by decide)) fun _ _ => .bind (.require (by decide)) fun _ _ => .pure _

theorem configure_avoids {q : Queue} {entries width warpSize : Nat} :
    Avoids .staleToken (q.configure entries width warpSize) := by
  unfold Queue.configure
  split
  · exact .bind (.require (by decide)) fun _ _ => .bind (.require (by decide)) fun _ _ =>
      .bind (.require (by decide)) fun _ _ => .pure _
  · exact .bind (.require (by decide)) fun _ _ => .bind (.require (by decide)) fun _ _ =>
      .bind (.require (by decide)) fun _ _ => .pure _

/-- A queue is found by its key and not by a token. -/
theorem queueFor_avoids {warpId : Nat} {inst : QueueInst} :
    Avoids .staleToken (queueFor kind cfg s warpId inst) :=
  .bind keyForWarp_avoids fun _ _ =>
    .bind (.bind configure_avoids fun _ _ => .pure _) fun _ _ => .pure _

/-- The eligibility test reads no token. -/
theorem canIssue_avoids {warpId : Nat} {inst : QueueInst} {countStall : Bool} :
    Avoids .staleToken (canIssue kind cfg s warpId inst countStall) := by
  unfold canIssue
  split
  · exact .pure _
  · refine .bind (.require (by decide)) fun _ _ => .bind queueFor_avoids fun p _ => ?_
    obtain ⟨m, key, q⟩ := p
    simp only
    split
    · split
      · exact .pure _
      · exact .pure _
    · split
      · exact .pure _
      · split
        · exact .pure _
        · exact .pure _

/-- A load gets its token, and a move needs none. -/
theorem prepareIssue_avoids {inst : WarpInst} :
    Avoids .staleToken (prepareIssue kind cfg s inst) := by
  unfold prepareIssue
  split
  · exact .pure _
  · refine .bind queueFor_avoids fun p _ => ?_
    obtain ⟨m, key, q⟩ := p
    simp only
    split
    · refine .bind (.require (by decide)) fun _ _ => .bind ?_ fun p _ => .pure _
      exact .bind (.require (by decide)) fun _ _ => .bind (.require (by decide)) fun _ _ =>
        .bind (.fetch (by decide)) fun _ _ => .bind (.require (by decide)) fun _ _ => .pure _
    · exact .pure _

/-- The core finds the entry of an instruction's token. -/
def Found (s : Shader Mem) (inst : WarpInst) : Prop :=
  ∀ q, s.queue? inst.kind inst.tokenFromInst.key = some q →
    ∃ e, q.entryForToken inst.tokenFromInst = .ok e

/-- Whether a token is found is about the tables only. -/
theorem Found.congr {inst : WarpInst} (h : Found s inst) (htables : s'.tables = s.tables) :
    Found s' inst := by
  intro q hq
  rw [queue?_congr htables] at hq
  exact h q hq

/-- A response with a token that is found is marked. -/
theorem markResponse_avoids {inst : WarpInst} (h : Found s inst) :
    Avoids .staleToken (markResponse cfg s inst) := by
  rw [markResponse_eq]
  unfold markMemResponse
  split
  · exact .pure _
  · refine .bind (.fetch (by decide)) fun q hq => ?_
    obtain ⟨e, he⟩ := h q (fetch_eq_ok.mp hq)
    refine .bind (.bind (.of_ok he) fun _ _ => .bind (.require (by decide)) fun _ _ =>
      .bind (.require (by decide)) fun _ _ => ?_) fun _ _ => .pure _
    simp only
    split
    · exact .pure _
    · exact .pure _

/-- The requests of a token that is found are read. -/
theorem pendingRequests_avoids {inst : WarpInst} (h : Found s inst) :
    Avoids .staleToken (pendingRequests cfg s inst) := by
  rw [pendingRequests_eq]
  unfold loadPending
  split
  · exact .pure _
  · refine .bind (.fetch (by decide)) fun q hq => ?_
    obtain ⟨e, he⟩ := h q (fetch_eq_ok.mp hq)
    exact .bind (.of_ok he) fun _ _ => .pure _

/-- The tail item of a queue has been reserved and not been closed. -/
private def Reserved (kind : QueueKind) (key : QueueKey) (q : Queue) (f : Fifo (Item Nat))
    (s₀ s : Shader Mem) : Prop :=
  ∃ i, Changes kind key s₀ s q (f.push i)

/-- The reserved entry is found while the load executes. -/
private theorem Reserved.find {q : Queue} {s₀ : Shader Mem} (h : Reserved kind key q f s₀ s)
    {q₁ : Queue} (hq₁ : s.queue? kind key = some q₁) :
    ∃ e, q₁.entryForToken (q.tokenAt key f.pushed) = .ok e := by
  obtain ⟨i, hchanges⟩ := h
  obtain ⟨q₂, hq₂, hshape, hrep⟩ := hchanges.changed
  obtain rfl : q₁ = q₂ := Option.some.inj (hq₁.symm.trans hq₂)
  obtain ⟨e, he, _⟩ := hrep.entryForToken (Fifo.get?_push_self f i) key
  exact ⟨e, by rw [← hshape.tokenAt_eq]; exact he⟩

/-- A stored word finds the reserved entry, and leaves it in its place. -/
private theorem Reserved.storeLane {q : Queue} {s₀ : Shader Mem} {inst : WarpInst}
    {lane word : Nat} {v : BitVec 64} (h : Reserved kind key q f s₀ s)
    (htoken : inst.tokenFromInst = q.tokenAt key f.pushed) :
    Avoids .staleToken (functionalStoreLane kind cfg s inst lane word v) ∧
      ∀ s', functionalStoreLane kind cfg s inst lane word v = .ok s' →
        Reserved kind key q f s₀ s' := by
  constructor
  · unfold functionalStoreLane
    split
    · exact .pure _
    · refine .bind (.fetch (by decide)) fun q₁ hq₁ => ?_
      have hlookup : s.queue? kind key = some q₁ := by
        have hkey : inst.tokenFromInst.key = key := by rw [htoken]; rfl
        rw [← hkey]
        exact fetch_eq_ok.mp hq₁
      obtain ⟨e, he⟩ := h.find hlookup
      rw [← htoken] at he
      exact .bind (.bind (.of_ok he) fun _ _ => .bind (.require (by decide)) fun _ _ =>
        .bind (.require (by decide)) fun _ _ => .bind (.require (by decide)) fun _ _ => .pure _)
        fun _ _ => .pure _
  · intro s' hs'
    obtain ⟨i, hchanges⟩ := h
    have hstoring : Storing cfg kind key q f i.owner (fun _ _ => v) s₀ (fun _ _ => False) s :=
      ⟨i, hchanges, rfl, fun _ _ _ hd => hd.elim⟩
    obtain ⟨i', hchanges', _⟩ := functionalStoreLane_spec hstoring htoken hs'
    exact ⟨i', hchanges'⟩

/-- A lane of the load finds the reserved entry, and leaves it in its place. -/
private theorem Reserved.ldExec {q : Queue} {s₀ : Shader Mem} {inst : WarpInst}
    {input : LaneInput} {lane : Nat} (h : Reserved inst.kind key q f s₀ s)
    (htoken : inst.tokenFromInst = q.tokenAt key f.pushed) :
    Avoids .staleToken (ldExec inst.kind cfg read s inst input lane) ∧
      ∀ s', ldExec inst.kind cfg read s inst input lane = .ok s' →
        Reserved inst.kind key q f s₀ s' :=
  ⟨.foldlM (Reserved inst.kind key q f s₀) (fun _ _ _ _ hm hf => (hm.storeLane htoken).2 _ hf)
      (fun _ _ _ hm => (hm.storeLane htoken).1) h,
    fun _ hs' => foldlM_invariant (Reserved inst.kind key q f s₀)
      (fun _ _ _ _ hm hf => (hm.storeLane htoken).2 _ hf) hs' h⟩

/-- A lane of a load keeps the reservation, whether it executes or is skipped. -/
private theorem Reserved.ptxExecLoad {q : Queue} {s₀ : Shader Mem} {inst : WarpInst}
    {input : LaneInput} {lane : Nat} {p : Shader Mem × Bool}
    (h : Reserved inst.kind key q f s₀ p.1) (htoken : inst.tokenFromInst = q.tokenAt key f.pushed) :
    Avoids .staleToken (ptxExecLoad cfg read inst input p lane) ∧
      ∀ p', ptxExecLoad cfg read inst input p lane = .ok p' →
        Reserved inst.kind key q f s₀ p'.1 := by
  constructor
  · unfold Shader.ptxExecLoad
    split
    · exact .bind (.pure _) fun _ _ => .bind (.require (by decide)) fun _ _ => .pure _
    · rw [loadExec_eq]
      exact .bind (h.ldExec htoken).1 fun _ _ => .bind (.pure _) fun _ _ =>
        .bind (.require (by decide)) fun _ _ => .pure _
  · intro p' hp'
    obtain ⟨_, ⟨_, rfl⟩ | ⟨_, hexec⟩⟩ := ptxExecLoad_eq_ok.mp hp'
    · exact h
    · exact (h.ldExec htoken).2 _ hexec

/-- The execution of a load finds the entry that it reserved. -/
private theorem Reserved.funcExecLoad {q : Queue} {s₀ : Shader Mem} {inst : WarpInst}
    {input : LaneInput} (h : Reserved inst.kind key q f s₀ s)
    (htoken : inst.tokenFromInst = q.tokenAt key f.pushed) :
    Avoids .staleToken (funcExecLoad cfg read s inst input) ∧
      ∀ s' inst', funcExecLoad cfg read s inst input = .ok (s', inst') → Found s' inst' := by
  constructor
  · refine .bind (.foldlM (fun p => Reserved inst.kind key q f s₀ p.1) ?_ ?_ h)
      fun _ _ => .bind (.require (by decide)) fun _ _ => .pure _
    · intro p lane p' _ hp hlane
      split at hlane
      · exact (hp.ptxExecLoad htoken).2 _ hlane
      · exact pure_eq_ok.mp hlane ▸ hp
    · intro p lane _ hp
      split
      · exact (hp.ptxExecLoad htoken).1
      · exact .pure _
  · intro s' inst' hexec
    obtain ⟨hfold, _, hinst', _⟩ := funcExecLoad_ok hexec
    have hm := foldlM_invariant (Reserved inst.kind key q f s₀)
      (fun m lane m' _ hm hf => ?_) hfold h
    · intro q₁ hq₁
      have htoken' : inst'.tokenFromInst = q.tokenAt key f.pushed := by rw [hinst']; exact htoken
      have hkind' : inst'.kind = inst.kind := by rw [hinst']
      rw [hkind', htoken'] at hq₁
      obtain ⟨e, he⟩ := hm.find hq₁
      exact ⟨e, by rw [htoken']; exact he⟩
    · split at hf
      · exact (hm.ldExec htoken).2 _ hf
      · exact pure_eq_ok.mp hf ▸ hm

/-- What follows a load finds its entry. -/
theorem afterFuncExec_avoids {inst : WarpInst} (h : inst.load = true → Found s inst) :
    Avoids .staleToken (afterFuncExec kind cfg s inst) := by
  unfold afterFuncExec
  split
  · exact .pure _
  · rename_i hkind
    have hkind : inst.kind = kind := by
      by_contra hne
      exact hkind (.inr hne)
    refine .bind (.fetch (by decide)) fun q hq => ?_
    split
    · rename_i hload
      obtain ⟨e, he⟩ := h hload q (by rw [hkind]; exact fetch_eq_ok.mp hq)
      exact .bind (.bind (.of_ok he) fun _ _ => .pure _) fun _ _ => .pure _
    · refine .bind (.require (by decide)) fun _ _ => .bind ?_ fun _ _ => .pure _
      exact .bind (.require (by decide)) fun _ _ => .bind (.fetch (by decide)) fun _ _ =>
        .bind (.require (by decide)) fun _ _ => .pure _

/-- Both versions of closing an instruction, of which one acts. -/
private theorem afterFuncExec_both_avoids {inst : WarpInst} (h : inst.load = true → Found s inst) :
    Avoids .staleToken (waspRfqAfterFuncExec cfg s inst) ∧
      ∀ m, waspRfqAfterFuncExec cfg s inst = .ok m →
        Avoids .staleToken (smemqAfterFuncExec cfg m inst) := by
  refine ⟨afterFuncExec_avoids h, fun m hm => ?_⟩
  cases hk : inst.kind with
  | rfq =>
    have hne : inst.kind ≠ .smemq := by rw [hk]; decide
    exact .of_ok (afterFuncExec_other hne)
  | smemq =>
    have hne : inst.kind ≠ .rfq := by rw [hk]; decide
    rw [waspRfqAfterFuncExec, afterFuncExec_other hne, Except.ok.injEq] at hm
    exact hm ▸ afterFuncExec_avoids h

/-- A move reads the head of its queue and no token. -/
theorem funcExecMove_avoids {inst : WarpInst} {input : LaneInput} :
    Avoids .staleToken (funcExecMove cfg s inst input) := by
  refine .mapM fun lane => .bind ?_ fun _ _ => .pure _
  rw [moveExec_eq]
  refine .bind (.mapM fun word => ?_) fun _ _ => .pure _
  unfold functionalReadLane
  split
  · exact .pure _
  · exact .bind (.fetch (by decide)) fun _ _ => .bind (.require (by decide)) fun _ _ =>
      .bind (.fetch (by decide)) fun _ _ => .bind (.require (by decide)) fun _ _ =>
        .bind (.require (by decide)) fun _ _ => .fetch (by decide)

/-- A queue instruction that issues finds its own token. -/
theorem issueWarp_avoids {warpId : Nat} {inst : QueueInst} {activeMask : ActiveMask}
    {input : LaneInput} (hheld : ∀ key, ∃ f, Holds cfg inst.kind key s f) :
    Avoids .staleToken (issueWarp cfg read s warpId inst activeMask input) := by
  refine .bind (.require (by decide)) fun _ _ => .bind (.require (by decide)) fun _ henabled =>
    .bind prepareIssue_avoids fun p₁ hprep₁ => .bind prepareIssue_avoids fun p₂ hprep₂ => ?_
  have henabled := require_eq_ok.mp henabled
  obtain ⟨s₁, inst₁⟩ := p₁
  obtain ⟨s₂, inst₂⟩ := p₂
  have hprep := prepareIssue_both hprep₁ hprep₂
  have hinst₂ : inst₂.toQueueInst = inst := prepareIssue_inst hprep
  simp only
  split
  · rename_i hload₂
    have hload : inst.load = true := by rw [← hinst₂]; exact hload₂
    obtain ⟨key, token, hkey, _⟩ := prepareIssue_frame (s := issuing s warpId) henabled rfl hprep
    obtain ⟨f, hf⟩ := hheld key
    obtain ⟨_, q, _, _, _, _, _, hq, _, _, hrep, _, htoken⟩ :=
      prepareIssue_load (s := issuing s warpId) henabled rfl hload
        (fun k hk => by rw [hkey, Except.ok.injEq] at hk; exact hk.symm) hf hprep
    have hkind₂ : inst₂.kind = inst.kind := by rw [hinst₂]
    have hstart : Reserved inst₂.kind key q f s₂ s₂ := by
      rw [hkind₂]
      exact ⟨_, .refl _ _ s₂, q, hq, .refl q, hrep⟩
    obtain ⟨hexec, hfound⟩ : Avoids .staleToken (funcExecLoad cfg read s₂ inst₂ input) ∧ _ :=
      hstart.funcExecLoad htoken
    refine .bind hexec fun p hp => ?_
    obtain ⟨hafter₁, hafter₂⟩ : Avoids .staleToken (waspRfqAfterFuncExec cfg p.1 p.2) ∧ _ :=
      afterFuncExec_both_avoids fun _ => hfound p.1 p.2 hp
    exact .bind hafter₁ fun m hm => .bind (hafter₂ m hm) fun _ _ => .pure _
  · rename_i hload₂
    refine .bind funcExecMove_avoids fun _ _ => ?_
    obtain ⟨hafter₁, hafter₂⟩ : Avoids .staleToken (waspRfqAfterFuncExec cfg s₂ inst₂) ∧ _ :=
      afterFuncExec_both_avoids fun hload => absurd hload hload₂
    exact .bind hafter₁ fun m hm => .bind (hafter₂ m hm) fun _ _ => .pure _

/-- A marked entry keeps its sequence number. -/
theorem Found.marked {inst : WarpInst} {last : Bool} (h : Found s inst)
    (hmark : markResponse cfg s inst = .ok (s', last)) : Found s' inst := by
  rw [markResponse_eq] at hmark
  unfold markMemResponse at hmark
  split at hmark
  · rw [pure_eq_ok, Prod.mk.injEq] at hmark
    exact hmark.1 ▸ h
  · simp only [bind_eq_ok, pure_eq_ok, Prod.exists, Prod.mk.injEq] at hmark
    obtain ⟨q, _, q', last', hq', rfl, _⟩ := hmark
    intro q₁ hq₁
    rw [queue?_putQueue, Option.some.injEq] at hq₁
    exact hq₁ ▸ Queue.entryForToken_of_markResponse hq'

/-- The dispatch of an access with a token that is found goes on. -/
theorem memoryCycle_avoids {inst : WarpInst} {port : Port} (h : Found s inst) :
    Avoids .staleToken (memoryCycle cfg s inst port) := by
  unfold memoryCycle
  split
  · exact .pure _
  · split
    · split
      · exact .pure _
      · exact .pure _
    · split
      · exact .pure _
      · refine .bind ?_ fun _ _ => .pure _
        cases port.status with
        | hit => exact .bind (markResponse_avoids h) fun _ _ => .pure _
        | hitReserved => exact .pure _
        | miss => exact .pure _
        | reservationFail => exact .pure _

theorem decInstInPipeline_avoids {w : Nat} : Avoids .staleToken (s.decInstInPipeline w) :=
  .bind (.require (by decide)) fun _ _ => .pure _

/-- A load is looked up in the dispatch register after its last access was sent or
answered. -/
theorem dispatchCycle_avoids {i : Nat} {port : Port}
    (hoff : ∀ inst ∈ s.ldst.dispatch, inst.activeMask = 0 → inst.accessqCount = 0)
    (hfound : ∀ inst ∈ s.ldst.dispatch, Found s inst) :
    Avoids .staleToken (dispatchCycle cfg s i port) := by
  refine .bind (.fetch (by decide)) fun inst hinst => ?_
  have hmem := List.mem_of_getElem? (fetch_eq_ok.mp hinst)
  refine .bind (memoryCycle_avoids (hfound inst hmem)) fun p hcycle => ?_
  obtain ⟨s₁, inst₁, done, es⟩ := p
  have hfound₁ : Found s₁ inst₁ := by
    cases memoryCycle_cases (hoff inst hmem) hcycle with
    | sent n ldst _ _ _ => exact (hfound inst hmem).congr rfl
    | hit s₁ last _ hmark => exact (hfound inst hmem).marked hmark
  simp only
  split
  · exact .bind (pendingRequests_avoids hfound₁) fun _ _ => .bind decInstInPipeline_avoids
      fun _ _ => .pure _
  · exact .pure _

theorem answer_avoids {inst : WarpInst} (h : Found s inst) :
    Avoids .staleToken (answer cfg s inst) :=
  .bind (markResponse_avoids h) fun _ _ => .pure _

/-- The L1 latency queue goes on with accesses whose tokens are found. -/
theorem l1LatencyQueueCycle_avoids {i : Nat} {status : CacheStatus}
    (hfound : ∀ inst ∈ s.ldst.l1LatencyQueue, Found s inst) :
    Avoids .staleToken (l1LatencyQueueCycle cfg s i status) := by
  refine .bind (.fetch (by decide)) fun inst hinst => ?_
  have hmem := List.mem_of_getElem? (fetch_eq_ok.mp hinst)
  cases status with
  | hit => exact answer_avoids ((hfound inst hmem).congr rfl)
  | hitReserved => exact .pure _
  | miss => exact .pure _
  | reservationFail => exact .pure _

theorem writeback_avoids {client : WritebackClient}
    (hfound : ∀ inst ∈ s.ldst.nextWb, Found s inst) :
    Avoids .staleToken (writeback cfg s client) := by
  unfold writeback
  split
  · rename_i inst hinst
    exact .bind (answer_avoids (hfound inst hinst)) fun _ _ => .pure _
  · cases client with
    | nextGlobal => exact .bind (.fetch (by decide)) fun _ _ => .pure _
    | l1dAccess i => exact .bind (.fetch (by decide)) fun _ _ => .pure _

theorem registerExits_avoids {c n : Nat} : Avoids .staleToken (registerExits s c n) := by
  induction n generalizing s with
  | zero => exact .pure _
  | succ n ih =>
    exact .bind (.bind (.require (by decide)) fun _ _ => .pure _) fun _ _ =>
      .bind ih fun _ _ => .pure _

/-- No action stops at a stale token when the loads on their way to the dispatch
register and the accesses in flight find theirs. -/
theorem step_avoids (hheld : ∀ kind key, ∃ f, Holds cfg kind key s f)
    (hoff : ∀ inst ∈ s.ldst.dispatch, inst.activeMask = 0 → inst.accessqCount = 0)
    (hfound : ∀ inst, inst ∈ s.ldst.dispatch ∨ inst.access ∈ s.ldst.inflight → Found s inst)
    (a : Action Mem) : Avoids .staleToken (step cfg read s a) := by
  cases a with
  | test w inst countStall =>
    exact .bind (.require (by decide)) fun _ _ => .bind canIssue_avoids fun _ _ =>
      .bind canIssue_avoids fun _ _ => .pure _
  | issue w inst mask input => exact issueWarp_avoids (hheld inst.kind)
  | dispatch i port => exact dispatchCycle_avoids hoff fun inst hi => hfound inst (.inl hi)
  | l1Latency i status =>
    refine l1LatencyQueueCycle_avoids fun inst hi => hfound inst (.inr ?_)
    simp [LdstUnit.inflight, mem_copies hi]
  | respond i =>
    refine .bind (.fetch (by decide)) fun inst _ => ?_
    simp only
    split
    · exact .bind (.require (by decide)) fun _ _ => .pure _
    · exact .pure _
  | writeback client =>
    refine writeback_avoids fun inst hi => hfound inst (.inr ?_)
    have hmem : inst ∈ s.ldst.nextWb.toList := Option.mem_toList.mpr hi
    simp [LdstUnit.inflight, mem_copies hmem]
  | decode w => exact .pure _
  | issueOther w => exact .bind (.require (by decide)) fun _ _ => .pure _
  | finishOther w =>
    exact .bind (.require (by decide)) fun _ _ => .bind decInstInPipeline_avoids fun _ _ => .pure _
  | flush w => exact .bind (.require (by decide)) fun _ _ => .pure _
  | storeReq w => exact .pure _
  | storeAck w => exact .bind (.require (by decide)) fun _ _ => .pure _
  | exit w n => exact .bind (.require (by decide)) fun _ _ => .pure _
  | reclaim w =>
    exact .bind (.require (by decide)) fun _ _ => .bind registerExits_avoids fun _ _ => .pure _
  | launch c =>
    refine .bind (.require (by decide)) fun _ _ => .bind ?_ fun _ _ => .pure _
    refine .foldlM (fun _ => True) (fun _ _ _ _ _ _ => trivial) (fun _ _ _ _ => ?_) trivial
    exact .bind (.require (by decide)) fun _ _ => .bind (.require (by decide)) fun _ _ => .pure _
  | storeMem mem => exact .pure _

end Shader
end WaspSim
