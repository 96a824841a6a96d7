import WaspSim.Correctness.Runs

/-!
# Loads complete once

A queue load with accesses counts its answers down in its entry and is completed
exactly once, with the last of them, as long as the CTA of its queue is not
retired with accesses in flight. A response left over from an earlier CTA counts
in the entry of a later load, which is then completed before its own answer.
-/

namespace WaspSim
namespace Shader

open Log

variable {Mem : Type} {cfg : Config} {kind : QueueKind} {key : QueueKey} {s s' : Shader Mem}
  {f : Fifo (Item Nat)} {log : List Event} {mem : Mem} {read : Mem → BitVec 64 → Nat → BitVec 64}

/-- The accesses of a load that have not been answered. -/
def unanswered (s : Shader Mem) (r : LoadRecord) : Nat := s.ldst.inflight.count r.inst.access

/-- The entry of a load that is still queued waits for its unanswered accesses. -/
theorem Settled.pending_eq (h : Settled kind key s log f) (hp : Provenance cfg s log)
    (ht : Tracks cfg kind key s log f) {t : Nat} {r : LoadRecord}
    (hr : (loadsOf kind key log)[t]? = some r) (hqueued : f.popped ≤ t) :
    ∃ q e, s.queue? kind key = some q ∧ q.entryForToken r.inst.tokenFromInst = .ok e ∧
      e.pendingResponses = unanswered s r ∧ e.state = Queue.stateFor (unanswered s r) := by
  obtain ⟨i, hi⟩ := Fifo.exists_get? hqueued (ht.lt_pushed hr)
  obtain ⟨r', hr', hitem⟩ := ht.item t i hi
  obtain rfl : r = r' := Option.some.inj (hr.symm.trans hr')
  obtain ⟨q, hq, _, hrep⟩ := ht.held.exists_queue hi
  obtain ⟨e, hfind, _, hold⟩ := hrep.entryForToken hi key
  refine ⟨q, e, hq, by rw [ht.token t r q hr hq]; exact hfind, ?_⟩
  have hbalance := hp.balance r (mem_loads_of_mem_loadsOf (List.mem_of_getElem? hr))
  have hmarked := h.marked t i r hi hr
  have hpending : e.pendingResponses = unanswered s r := by
    rw [hold.pending_eq, hitem.total_eq, hmarked, unanswered]
    omega
  exact ⟨hpending, hpending ▸ hold.state_eq⟩

/-- An access in flight belongs to a queued load, whose entry accepts the response and
tells the last one. -/
theorem Settled.accepts (h : Settled kind key s log f) (hp : Provenance cfg s log)
    (ht : Tracks cfg kind key s log f) {r : LoadRecord} (hr : r ∈ loads log)
    (hon : r.inst.On kind key) (hin : r.inst.access ∈ s.ldst.inflight) :
    ∃ t, (loadsOf kind key log)[t]? = some r ∧ f.popped ≤ t ∧
      ∃ s', markResponse cfg s r.inst = .ok (s', decide (unanswered s r = 1)) := by
  have ha : r.inst.access ∈ onQueue kind key s.ldst :=
    Multiset.mem_filter.mpr ⟨hin, On.access_iff.mpr hon⟩
  obtain ⟨t, r', i, hr', haccess, hi, hitem, hmarked, hdue⟩ := h.live hp ht ha
  obtain rfl := hp.eq_of_uid_eq hr (mem_loads_of_mem_loadsOf (List.mem_of_getElem? hr'))
    (WarpInst.uid_eq_of_access_eq haccess)
  obtain ⟨q, hq, _, hrep⟩ := ht.held.exists_queue hi
  obtain ⟨hload, henabled, _⟩ := hp.loaded r hr
  have htoken := ht.token t r q hr' hq
  obtain ⟨hkind, hkey⟩ := hon
  rw [← hkey] at hq htoken
  rw [← hkind] at hq
  obtain ⟨s', hs'⟩ := markMemResponse_succeeds henabled rfl hload hq hrep htoken hi hdue
  refine ⟨t, hr', (Fifo.mem_of_get? hi).1, s', ?_⟩
  have hbalance := hp.balance r hr
  have hlast : (i.marked + 1 = i.total) = (unanswered s r = 1) := by
    rw [hmarked, hitem.total_eq, unanswered, eq_iff_iff]
    omega
  simp only [hlast] at hs'
  rw [markResponse_eq]
  exact hs'

/-- A load with accesses on a queue is completed when all of them have been answered, and
not before; until then its entry counts them down. -/
theorem load_completes_once (hrun : Run cfg read (CleanRetire kind key) mem s log)
    {r : LoadRecord} (hr : r ∈ loads log) (hon : r.inst.On kind key)
    (hn : 0 < r.inst.accessqCount) :
    answers r.inst.uid log + unanswered s r = r.inst.accessqCount ∧
      completions r.inst.uid log = (if answers r.inst.uid log = r.inst.accessqCount then 1 else 0) ∧
      (∀ t, (loadsOf kind key log)[t]? = some r → (movesOf kind key log).length ≤ t →
        ∃ q e, s.queue? kind key = some q ∧ q.entryForToken r.inst.tokenFromInst = .ok e ∧
          e.pendingResponses = unanswered s r) ∧
      (r.inst.access ∈ s.ldst.inflight →
        ∃ t, (loadsOf kind key log)[t]? = some r ∧ (movesOf kind key log).length ≤ t ∧
          ∃ s', markResponse cfg s r.inst = .ok (s', decide (unanswered s r = 1))) := by
  have hp := hrun.provenance
  obtain ⟨f, ht, hs⟩ := hrun.settled
  rw [ht.moves_length]
  refine ⟨hp.balance r hr, hs.completed r hr hon hn, fun t hrt hle => ?_,
    fun hin => hs.accepts hp ht hr hon hin⟩
  obtain ⟨q, e, hq, hfind, hpending, _⟩ := hs.pending_eq hp ht hrt hle
  exact ⟨q, e, hq, hfind, hpending⟩

/-- A queued load whose accesses have all returned is not left RESERVED. -/
theorem ready_of_returned (hrun : Run cfg read (CleanRetire kind key) mem s log) {t : Nat}
    {r : LoadRecord} (hr : (loadsOf kind key log)[t]? = some r)
    (hqueued : (movesOf kind key log).length ≤ t) (hreturned : unanswered s r = 0) :
    ∃ q e, s.queue? kind key = some q ∧ q.entryForToken r.inst.tokenFromInst = .ok e ∧
      e.state = .ready := by
  obtain ⟨f, ht, hs⟩ := hrun.settled
  rw [ht.moves_length] at hqueued
  obtain ⟨q, e, hq, hfind, _, hstate⟩ := hs.pending_eq hrun.provenance ht hr hqueued
  rw [hreturned] at hstate
  exact ⟨q, e, hq, hfind, hstate⟩

theorem load_completes_once_in_time :
    ∃ s log r, Run (Config.sample 64 1) sampleRead (CleanRetire .rfq sampleKey) () s log ∧
      r ∈ loads log ∧ completions r.inst.uid log = 1 := by
  obtain ⟨s, log, hrun, hall⟩ := exists_run (Config.sample 64 1) sampleRead
    (CleanRetire .rfq sampleKey) () answerInTime
    (fun _ log => ((loads log)[0]?.any fun r : LoadRecord => decide (r.inst.On .rfq sampleKey ∧
      0 < r.inst.accessqCount ∧ answers r.inst.uid log = r.inst.accessqCount)) = true)
    (by decide +kernel)
  obtain ⟨r, hget, hr⟩ := (Option.any_eq_true _ _).mp hall
  obtain ⟨hon, hn, hanswers⟩ := of_decide_eq_true hr
  have hmem := List.mem_of_getElem? hget
  have honce := (load_completes_once hrun hmem hon hn).2.1
  rw [if_pos hanswers] at honce
  exact ⟨s, log, r, hrun, hmem, honce⟩

/-- With a response of an earlier CTA outstanding, a load of one access is completed at
its dispatch, before its answer. -/
theorem load_completes_unanswered :
    ∃ s log, Run (Config.sample 64 1) sampleRead anyAction () s log ∧
      (loads log)[1]?.map (fun r =>
        (r.inst.accessqCount, answers r.inst.uid log, completions r.inst.uid log)) =
        some (1, 0, 1) :=
  exists_run (Config.sample 64 1) sampleRead anyAction ()
    (answerLate ++ [.dispatch 0 { freeBanks := 1 }]) _ (by decide +kernel)

end Shader
end WaspSim
