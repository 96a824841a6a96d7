import WaspSim.Correctness.Completion

/-!
# Responses find the instance that reserved their slot

A queue dies with its CTA, and a later CTA in the same hardware slot gets a new
queue under the same key. A response in flight finds the queue its load reserved
in, with its slot still reserved for that load, as long as no CTA is retired
with accesses in flight. Nothing in the retirement of a CTA waits for them.
-/

namespace WaspSim
namespace Shader

open Log

variable {Mem : Type} {cfg : Config} {kind : QueueKind} {key : QueueKey} {s s' : Shader Mem}
  {f : Fifo (Item Nat)} {log : List Event} {mem : Mem} {read : Mem → BitVec 64 → Nat → BitVec 64}

/-- The last element with a property is the one after which none has it. -/
private theorem findRev?_eq_some {α : Type} {p : α → Bool} {l : List α} {t : Nat} {x : α}
    (hx : l[t]? = some x) (hp : p x = true)
    (hlater : ∀ u y, t < u → l[u]? = some y → p y = false) : l.findRev? p = some x := by
  have hsplit : l = l.take (t + 1) ++ l.drop (t + 1) := (List.take_append_drop _ _).symm
  have hdrop : (l.drop (t + 1)).findRev? p = none := by
    rw [List.findRev?_eq_find?_reverse, List.find?_eq_none]
    intro y hy
    obtain ⟨u, hu⟩ := List.mem_iff_getElem?.mp (List.mem_reverse.mp hy)
    rw [List.getElem?_drop] at hu
    simp [hlater _ y (by omega) hu]
  have htake : l.take (t + 1) = l.take t ++ [x] := by
    rw [List.take_add_one, hx]
    rfl
  rw [List.findRev?_eq_find?_reverse] at hdrop ⊢
  rw [hsplit, List.reverse_append, List.find?_append, hdrop, htake, List.reverse_append]
  simp [hp]

/-- The slot of a ticket among the last `entries` belongs to the load that reserved it. -/
theorem Tracks.slotOwner_eq (h : Tracks cfg kind key s log f) {q : Queue} {t : Nat}
    {r : LoadRecord} (hq : s.queue? kind key = some q)
    (hr : (loadsOf kind key log)[t]? = some r) (hrecent : f.pushed ≤ t + q.entries) :
    slotOwner kind key r.inst.tokenSlotIndex log = some r.inst.uid := by
  have hslot : ∀ {u : Nat} {y : LoadRecord}, (loadsOf kind key log)[u]? = some y →
      y.inst.tokenSlotIndex = u % q.entries :=
    fun hy => congrArg Token.slotIndex (h.token _ _ q hy hq)
  have hlast := findRev?_eq_some (p := fun y => y.inst.tokenSlotIndex == r.inst.tokenSlotIndex)
    hr (by simp) fun u y htu hy => by
      have hu := h.lt_pushed hy
      rw [beq_eq_false_iff_ne, hslot hy, hslot hr]
      intro heq
      have := Ring.eq_of_mod_eq (n := q.entries) (le_refl t) (by omega) htu.le (by omega) heq.symm
      omega
  rw [slotOwner, hlast]
  rfl

/-- A response to a load on a queue finds the queue in the table, with the slot of the
load still reserved by that load, and is accepted by it. -/
theorem response_finds_instance (hrun : Run cfg read (CleanRetire kind key) mem s log)
    {a : WarpInst} (ha : a ∈ s.ldst.inflight) (hon : a.On kind key) :
    ∃ r q e s', r ∈ loads log ∧ a = r.inst.access ∧ s.queue? kind key = some q ∧
      q.entryForToken a.tokenFromInst = .ok e ∧ 0 < e.pendingResponses ∧
      slotOwner kind key a.tokenSlotIndex log = some a.uid ∧
      markResponse cfg s a = .ok (s', decide (unanswered s r = 1)) := by
  have hp := hrun.provenance
  obtain ⟨f, ht, hs⟩ := hrun.settled
  obtain ⟨r, hr, rfl⟩ := hp.inflight a ha
  obtain ⟨t, hrt, hqueued, s', hmark⟩ := hs.accepts hp ht hr (On.access_iff.mp hon) ha
  obtain ⟨q, e, hq, hfind, hpending, _⟩ := hs.pending_eq hp ht hrt hqueued
  obtain ⟨i, hi⟩ := Fifo.exists_get? hqueued (ht.lt_pushed hrt)
  have hrep := (ht.held.of_queue hq).2
  exact ⟨r, q, e, s', hr, rfl, hq, hfind, by rw [hpending]; exact Multiset.count_pos.mpr ha,
    ht.slotOwner_eq hq hrt (hrep.pushed_le hi), hmark⟩

theorem response_finds_instance_in_time :
    ∃ s log a s' last, Run (Config.sample 64 1) sampleRead (CleanRetire .rfq sampleKey) () s log ∧
      a ∈ s.ldst.inflight ∧ slotOwner .rfq sampleKey a.tokenSlotIndex log = some a.uid ∧
      markResponse (Config.sample 64 1) s a = .ok (s', last) := by
  obtain ⟨s, log, hrun, hall⟩ := exists_run (Config.sample 64 1) sampleRead
    (CleanRetire .rfq sampleKey) () (answerInTime.take 5)
    (fun s _ => (s.ldst.l1LatencyQueue[0]?.any fun a : WarpInst =>
      decide (a.access ∈ s.ldst.inflight ∧ a.access.On .rfq sampleKey)) = true) (by decide +kernel)
  obtain ⟨a, _, ha⟩ := (Option.any_eq_true _ _).mp hall
  obtain ⟨hin, hon⟩ := of_decide_eq_true ha
  obtain ⟨_, _, _, s', _, _, _, _, _, howner, hmark⟩ := response_finds_instance hrun hin hon
  exact ⟨s, log, a.access, s', _, hrun, hin, howner, hmark⟩

/-- A CTA can retire with a response outstanding. The response then finds no queue, or,
once the next CTA has reserved the slot, is credited to that CTA's load. -/
theorem response_outlives_cta :
    (∃ s log, Run (Config.sample 64 1) sampleRead anyAction () s log ∧
      s.ldst.l1LatencyQueue.map (·.uid) = [0] ∧
      (step (Config.sample 64 1) sampleRead s (.l1Latency 0 .hit)).map (fun _ => ()) =
        .error .noQueue) ∧
    ∃ s log, Run (Config.sample 64 1) sampleRead anyAction () s log ∧
      s.ldst.l1LatencyQueue.map (·.uid) = [0] ∧
      slotOwner .rfq sampleKey 0 log = some 1 ∧
      (step (Config.sample 64 1) sampleRead s (.l1Latency 0 .hit)).map
        (fun p => ((p.1.queue? .rfq sampleKey).bind (·.storage[0]?)).map (·.pendingResponses)) =
        .ok (some 0) := by
  constructor
  · exact exists_run (Config.sample 64 1) sampleRead anyAction () retireEarly _ (by decide +kernel)
  · exact exists_run (Config.sample 64 1) sampleRead anyAction () (answerLate.take 12) _
      (by decide +kernel)

end Shader
end WaspSim
