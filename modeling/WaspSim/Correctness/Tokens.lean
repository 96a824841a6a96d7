import WaspSim.Correctness.Instances
import WaspSim.Correctness.StaleToken

/-!
# Tokens stay current

The token of a load is used until the load has left the dispatch register and its
last access was answered. A load cannot get through its issue without an executed
lane, so it has accesses, and as long as one of them is in flight its entry keeps
its slot. Only a retirement with accesses in flight leads to a stale token.
-/

namespace WaspSim
namespace Shader

open Log

variable {Mem : Type} {cfg : Config} {kind : QueueKind} {key : QueueKey} {s s' : Shader Mem}
  {f f' : Fifo (Item Nat)} {log es : List Event} {mem : Mem}
  {read : Mem → BitVec 64 → Nat → BitVec 64}

/-- What code outside the modelled sources gives a queue load that is issued: the SIMT stack
an active lane, and `generate_mem_accesses` an access when a lane has executed. -/
def Supplied (cfg : Config) : Action Mem → Prop
  | .issue _ inst mask input => inst.load = true →
      (∃ lane < cfg.warpSize, mask.getLsbD lane = true) ∧
        ((∃ lane < cfg.warpSize, executes mask input lane = true) → 0 < input.accesses)
  | _ => True

instance (cfg : Config) : (a : Action Mem) → Decidable (Supplied cfg a)
  | .issue _ inst mask input => inferInstanceAs (Decidable (inst.load = true →
      (∃ lane < cfg.warpSize, mask.getLsbD lane = true) ∧
        ((∃ lane < cfg.warpSize, executes mask input lane = true) → 0 < input.accesses)))
  | .test .. | .dispatch .. | .l1Latency .. | .respond .. | .writeback .. | .decode ..
  | .issueOther .. | .finishOther .. | .flush .. | .storeReq .. | .storeAck .. | .exit ..
  | .reclaim .. | .launch .. | .storeMem .. => isTrue trivial

/-- A load that has been issued with an active lane has executed one. -/
theorem issueWarp_load_executes {w : Nat} {inst : QueueInst} {mask : ActiveMask}
    {input : LaneInput} (hload : inst.load = true)
    (hissue : issueWarp cfg read s w inst mask input = .ok (s', es))
    (hactive : ∃ lane < cfg.warpSize, mask.getLsbD lane = true) :
    ∃ lane < cfg.warpSize, executes mask input lane = true := by
  obtain ⟨_, henabled, s₂, inst₂, s₃, wi, s₅, hprep, _, hexec, _⟩ :=
    issueWarp_load_eq_ok hload hissue
  obtain ⟨key, token, _, _, hwrite, _⟩ := prepareIssue_frame henabled rfl hprep
  have hmask : inst₂.activeMask = mask := by rw [hwrite]; rfl
  have hlanes := (funcExecLoad_ok hexec).2.1
  rw [hmask] at hlanes
  exact hlanes hactive

/-- An issue that is supplied records a load with accesses. -/
theorem AccessStep.loads_accessed {a : Action Mem} (h : AccessStep cfg read s a s' es)
    (hsupplied : Supplied cfg a) : ∀ r ∈ loads es, 0 < r.inst.accessqCount := by
  cases h with
  | load haction hload hissue =>
    subst haction
    obtain ⟨hactive, hmade⟩ := hsupplied hload
    obtain ⟨_, wi, _, rfl, haccesses, _⟩ := issueWarp_load_frame hload hissue
    intro r hr
    obtain rfl : r = ⟨wi, _, _⟩ := List.mem_singleton.mp hr
    rw [haccesses]
    exact hmade (issueWarp_load_executes hload hissue hactive)
  | move _ hload hissue =>
    obtain ⟨_, _, _, _, rfl, _⟩ := issueWarp_move_frame hload hissue
    exact fun r hr => absurd hr List.not_mem_nil
  | answered inst _ _ _ done _ _ _ _ _ _ _ _ =>
    rw [loads_answerEvents]
    exact fun r hr => absurd hr List.not_mem_nil
  | quiet | test | completed | retire => exact fun r hr => absurd hr List.not_mem_nil

/-- Every load of a run whose issues are supplied has made an access. -/
theorem Run.loads_accessed (h : Run cfg read (fun _ a => Supplied cfg a) mem s log) :
    ∀ r ∈ loads log, 0 < r.inst.accessqCount := by
  have hall : Provenance cfg s log ∧ ∀ r ∈ loads log, 0 < r.inst.accessqCount := by
    refine Reaches.invariant
      (fun p => Provenance cfg p.1 p.2 ∧ ∀ r ∈ loads p.2, 0 < r.inst.accessqCount)
      ⟨.initial cfg mem, fun r hr => absurd hr List.not_mem_nil⟩ ?_ h
    rintro ⟨s, log⟩ a ⟨s', log'⟩ ⟨hp, hmade⟩ hsupplied hstep
    obtain ⟨es, hstep, rfl⟩ := logged_eq_ok.mp hstep
    have haccess := hp.accessStep hstep
    refine ⟨hp.step haccess, fun r hr => ?_⟩
    rw [loads_append] at hr
    rcases List.mem_append.mp hr with hr | hr
    · exact hmade r hr
    · exact haccess.loads_accessed hsupplied r hr
  exact hall.2

/-- A load on its way to the dispatch register has an access in flight. -/
theorem Provenance.undispatched (h : Provenance cfg s log)
    (hmade : ∀ r ∈ loads log, 0 < r.inst.accessqCount) {i : WarpInst} (hi : i ∈ s.ldst.dispatch) :
    i.access ∈ s.ldst.inflight := by
  obtain ⟨r, hr, _, _, hleft⟩ := h.dispatch i hi
  exact access_mem_inflight hi (hleft (hmade r hr))

/-- The core finds the entry that a load reserved, in a slot it still owns. -/
structure Current (kind : QueueKind) (key : QueueKey) (s : Shader Mem) (log : List Event)
    (inst : WarpInst) : Prop where
  found : ∃ q e, s.queue? kind key = some q ∧ q.entryForToken inst.tokenFromInst = .ok e ∧
    e.sequence = inst.tokenSequence
  owned : slotOwner kind key inst.tokenSlotIndex log = some inst.uid

/-- A recent ticket is current. -/
private theorem Tracks.current (h : Tracks cfg kind key s log f) {inst : WarpInst} {t : Nat}
    {r : LoadRecord} {q : Queue} (hr : (loadsOf kind key log)[t]? = some r)
    (haccess : inst.access = r.inst.access) (hq : s.queue? kind key = some q)
    (hrecent : f.pushed ≤ t + q.entries) : Current kind key s log inst := by
  have htok : inst.tokenFromInst = r.inst.tokenFromInst := by
    rw [← WarpInst.tokenFromInst_access inst, haccess, WarpInst.tokenFromInst_access]
  have htoken := h.token t r q hr hq
  have hrep := (h.held.of_queue hq).2
  obtain ⟨e, he, _, hseq⟩ := hrep.entryForToken_recent (h.lt_pushed hr) hrecent key
  have howner := h.slotOwner_eq hq hr hrecent
  have hslot : inst.tokenSlotIndex = r.inst.tokenSlotIndex := congrArg Token.slotIndex htok
  refine ⟨⟨q, e, hq, by rw [htok, htoken]; exact he, ?_⟩, ?_⟩
  · rw [hseq]
    exact (congrArg Token.sequence (htok.trans htoken)).symm
  · rw [hslot, howner, WarpInst.uid_eq_of_access_eq haccess]

/-- On a run that meets the condition of a queue, the tokens of the accesses in flight on
it are current. -/
theorem Run.current (h : Run cfg read (CleanRetire kind key) mem s log) {i : WarpInst}
    (hi : i.access ∈ s.ldst.inflight) (hon : i.On kind key) : Current kind key s log i := by
  have hp := h.provenance
  obtain ⟨f, ht, hs⟩ := h.settled
  obtain ⟨t, r, j, hr, haccess, hj, _⟩ :=
    hs.live hp ht (Multiset.mem_filter.mpr ⟨hi, On.access_iff.mpr hon⟩)
  obtain ⟨q, hq, _, hrep⟩ := ht.held.exists_queue hj
  exact ht.current hr haccess hq (hrep.pushed_le hj)

/-- A second load on a queue of depth 1 is on its way when the first one was consumed. -/
def issueTwice : List (Action Unit) :=
  answerInTime ++ [.issue 1 sampleMove (BitVec.allOnes 32) (sampleInput 0), .finishOther 1,
    .decode 0, .issue 0 sampleLoad (BitVec.allOnes 32) (sampleInput 1)]

/-- The CTA is retired with the access of its second load in flight, and the next CTA in
the slot issues its first load. -/
def restartEarly : List (Action Unit) :=
  issueTwice ++ [.dispatch 0 { freeBanks := 1 }, .exit 0 32, .exit 1 32, .reclaim 0, .reclaim 1,
    .launch 0, .decode 0, .issue 0 sampleLoad (BitVec.allOnes 32) (sampleInput 1)]

end Shader
end WaspSim
