import WaspSim.Correctness.IssueEffect
import WaspSim.Correctness.Provenance

/-!
# Steps as seen by one queue

Each action of a core leaves the window under a key alone, pushes the item of a
load, pops the head for a move, marks a response, or drops the queue with its
CTA. The account of every queue is proved from this list.
-/

namespace WaspSim
namespace Shader

variable {Mem : Type} {cfg : Config} {kind : QueueKind} {key : QueueKey} {s s' : Shader Mem}
  {f f' : Fifo (Item Nat)} {log es : List Event} {read : Mem → BitVec 64 → Nat → BitVec 64}

/-- An event that is about another queue. -/
def Elsewhere (kind : QueueKind) (key : QueueKey) (s : Shader Mem) : Event → Prop
  | .loaded inst _ _ => ¬inst.On kind key
  | .moved inst _ _ => ¬inst.On kind key
  | .answered u => ∃ inst : WarpInst, inst.uid = u ∧ ¬inst.On kind key ∧
      (inst.access ∈ s.ldst.inflight ∨ inst ∈ s.ldst.dispatch)
  | .completed u => ∃ inst : WarpInst, inst.uid = u ∧ ¬inst.On kind key ∧
      (inst.access ∈ s.ldst.inflight ∨ inst ∈ s.ldst.dispatch)
  | .retired c => key.ctaHwId ≠ c

/-- The accesses in flight that belong to loads on a queue. -/
def onQueue (kind : QueueKind) (key : QueueKey) (u : LdstUnit) : Multiset WarpInst :=
  u.inflight.filter fun a => a.On kind key

/-- Queues of one shape under a key before and after a step. -/
def KeepsShape (kind : QueueKind) (key : QueueKey) (s s' : Shader Mem) : Prop :=
  ∀ q₀ q, s.queue? kind key = some q₀ → s'.queue? kind key = some q → SameShape q₀ q

theorem KeepsShape.of_eq (h : s'.queue? kind key = s.queue? kind key) :
    KeepsShape kind key s s' := by
  intro q₀ q hq₀ hq
  rw [h, hq₀, Option.some.injEq] at hq
  exact hq ▸ .refl q₀

/-- What an action does to the window under a key. -/
inductive QueueStep (cfg : Config) (read : Mem → BitVec 64 → Nat → BitVec 64) (kind : QueueKind)
    (key : QueueKey) (f : Fifo (Item Nat)) (s : Shader Mem) (a : Action Mem) (s' : Shader Mem) :
    List Event → Fifo (Item Nat) → Prop
  | elsewhere {es : List Event} (hheld : Holds cfg kind key s' f)
      (hshape : KeepsShape kind key s s')
      (hinflight : onQueue kind key s'.ldst = onQueue kind key s.ldst)
      (hes : ∀ e ∈ es, Elsewhere kind key s e) : QueueStep cfg read kind key f s a s' es f
  | load {w : Nat} {inst : QueueInst} {mask : ActiveMask} {input : LaneInput} {wi : WarpInst}
      {q : Queue} {i : Item Nat} (haction : a = .issue w inst mask input)
      (hload : inst.load = true) (hkind : inst.kind = kind)
      (hissued : Issued cfg key s s' w inst wi)
      (heffect : IssuedLoad cfg read key f s s' inst mask input wi q i)
      (haccesses : wi.accessqCount = input.accesses)
      (hldst : s'.ldst = { s.ldst with dispatch := s.ldst.dispatch ++ [wi] }) :
      QueueStep cfg read kind key f s a s'
        [.loaded wi (executes mask input)
          fun lane word => read s.mem (input.addr lane word) input.size] (f.push i)
  | move {w : Nat} {inst : QueueInst} {mask : ActiveMask} {input : LaneInput} {wi : WarpInst}
      {written : Nat → List (BitVec 64)} {q : Queue} {i : Item Nat}
      (haction : a = .issue w inst mask input) (hload : inst.load = false)
      (hkind : inst.kind = kind)
      (hissued : Issued cfg key s s' w inst wi)
      (heffect : IssuedMove cfg key f s s' inst mask input written q i)
      (hldst : s'.ldst = s.ldst) :
      QueueStep cfg read kind key f s a s' [.moved wi (executes mask input) written] f.pop
  | answered {inst : WarpInst} {q : Queue} {t : Nat} {i : Item Nat} {done : Bool}
      (hon : inst.On kind key) (hinflight : s.ldst.inflight = {inst.access} + s'.ldst.inflight)
      (hq : s.queue? kind key = some q) (hrep : Represents q f) (ht : f.get? t = some i)
      (hslot : inst.tokenSlotIndex = t % q.entries) (hdue : i.marked < i.total)
      (hheld : Holds cfg kind key s' (f.modify t Item.mark)) (hshape : KeepsShape kind key s s')
      (hdone : done = decide (i.marked + 1 = i.total) ∨
        (done = false ∧ inst.access ∈ s'.ldst.inflight)) :
      QueueStep cfg read kind key f s a s' (answerEvents inst.uid done) (f.modify t Item.mark)
  | completed {inst : WarpInst} (hon : inst.On kind key) (hinst : inst ∈ s.ldst.dispatch)
      (hready : ∀ q t i, s.queue? kind key = some q → Represents q f → f.get? t = some i →
        inst.tokenSlotIndex = t % q.entries → i.Ready)
      (hqueue : s'.queue? kind key = s.queue? kind key)
      (hinflight : s'.ldst.inflight = s.ldst.inflight) :
      QueueStep cfg read kind key f s a s' [.completed inst.uid] f
  | erased (hret : retires s a = some key.ctaHwId) (hqueue : s'.queue? kind key = none)
      (hldst : s'.ldst = s.ldst) :
      QueueStep cfg read kind key f s a s' [.retired key.ctaHwId] Fifo.empty

/-- A step never changes the shape of a queue that stays. -/
theorem QueueStep.keepsShape {a : Action Mem} (h : QueueStep cfg read kind key f s a s' es f') :
    KeepsShape kind key s s' := by
  cases h with
  | elsewhere _ hshape _ _ => exact hshape
  | load _ _ hkind _ heffect _ _ =>
    subst hkind
    intro q₀ q hq₀ hq
    obtain rfl := Option.some.inj (heffect.queue_eq.symm.trans hq)
    exact heffect.shape q₀ hq₀
  | move _ _ hkind _ heffect _ =>
    subst hkind
    intro q₀ q hq₀ hq
    obtain rfl := Option.some.inj (heffect.queue_eq.symm.trans hq)
    exact heffect.shape q₀ hq₀
  | answered _ _ _ _ _ _ _ _ hshape _ => exact hshape
  | completed _ _ _ hqueue _ => exact .of_eq hqueue
  | erased _ hqueue _ =>
    intro q₀ q _ hq
    rw [hqueue] at hq
    cases hq

/-- An access is on the queue of its instruction. -/
theorem On.access_iff {inst : WarpInst} : inst.access.On kind key ↔ inst.On kind key := .rfl

/-- Marking through a queue of the same tables gives the step of an answer. -/
private theorem QueueStep.of_mark {a : Action Mem} {inst : WarpInst} {out s₁ : Shader Mem}
    {last done : Bool} (hf : Holds cfg inst.kind inst.tokenFromInst.key s f)
    (hload : inst.load = true) (henabled : cfg.enabled inst.kind = true)
    (hout : out.tables = s.tables) (hmark : markResponse cfg out inst = .ok (s₁, last))
    (htables : s'.tables = s₁.tables)
    (hinflight : s.ldst.inflight = {inst.access} + s'.ldst.inflight)
    (hdone : CompletesWith cfg s₁ s' inst last done) :
    ∃ f', QueueStep cfg read inst.kind inst.tokenFromInst.key f s a s'
      (answerEvents inst.uid done) f' := by
  rw [markResponse_eq] at hmark
  have hheld : Holds cfg inst.kind inst.tokenFromInst.key out f := hf.congr (queue?_congr hout _ _)
  obtain ⟨q, t, i, hq, hrep, hconf, ht, hslot, hdue, hlast, hchanges⟩ :=
    markMemResponse_spec hmark henabled rfl hload hheld
  obtain ⟨q₁, hq₁, hshape, hrep₁⟩ := hchanges.changed
  rw [queue?_congr hout] at hq
  have hq' : s'.queue? inst.kind inst.tokenFromInst.key = some q₁ := by
    rw [queue?_congr htables]
    exact hq₁
  refine ⟨f.modify t Item.mark, .answered ⟨rfl, rfl⟩ hinflight hq hrep ht hslot hdue
    ((hchanges.holds hconf).congr (queue?_congr htables _ _)) ?_ ?_⟩
  · intro q₀ q₂ hq₀ hq₂
    rw [hq, Option.some.injEq] at hq₀
    rw [hq', Option.some.injEq] at hq₂
    exact hq₀ ▸ hq₂ ▸ hshape
  · rcases hdone with hdone | hleft | hpending
    · exact .inl (hdone.trans hlast)
    · exact .inr hleft
    · rw [pendingRequests_eq] at hpending
      have hready := ready_of_loadPending hpending henabled rfl hload hq₁ hrep₁
        (hshape.entries_eq ▸ hslot) (Fifo.get?_modify_self ht)
      exact .inl ((Bool.not_inj hready).trans (decide_eq_decide.mpr .rfl))

/-- A load on its way has as many accesses more on its queue. -/
theorem onQueue_load {wi : WarpInst} {u u' : LdstUnit}
    (hldst : u' = { u with dispatch := u.dispatch ++ [wi] }) :
    onQueue kind key u' = onQueue kind key u +
      if wi.On kind key then Multiset.replicate wi.accessqCount wi.access else 0 := by
  have hinflight : u'.inflight = u.inflight + Multiset.replicate wi.accessqCount wi.access := by
    rw [hldst]
    simp only [LdstUnit.inflight, queuedAccesses_append]
    abel
  unfold onQueue
  rw [hinflight, Multiset.filter_add]
  congr 1
  split
  · rename_i hon
    exact Multiset.filter_eq_self.mpr fun a ha => (Multiset.eq_of_mem_replicate ha) ▸ hon
  · rename_i hoff
    exact Multiset.filter_eq_nil.mpr fun a ha => (Multiset.eq_of_mem_replicate ha) ▸ hoff

/-- An answered access has left its queue. -/
theorem onQueue_answered {inst : WarpInst} {u u' : LdstUnit}
    (hinflight : u.inflight = {inst.access} + u'.inflight) :
    onQueue kind key u = (if inst.On kind key then {inst.access} else 0) + onQueue kind key u' := by
  unfold onQueue
  rw [hinflight, Multiset.filter_add, Multiset.filter_singleton]
  rfl

/-- Every action of a core whose accounts are sound is one of these steps. -/
theorem AccessStep.queueStep {a : Action Mem} (h : AccessStep cfg read s a s' es)
    (hp : Provenance cfg s log) (hf : Holds cfg kind key s f) :
    ∃ f', QueueStep cfg read kind key f s a s' es f' := by
  cases h with
  | quiet _ htables hinflight _ _ =>
    have hqueue := queue?_congr htables kind key
    exact ⟨f, .elsewhere (hf.congr hqueue) (.of_eq hqueue) (by rw [onQueue, hinflight]; rfl)
      (fun e he => by cases he)⟩
  | test _ _ hrfq hsmemq =>
    obtain ⟨hf₁, hkeep₁⟩ := canIssue_holds hrfq hf
    obtain ⟨hf₂, hkeep₂⟩ := canIssue_holds hsmemq hf₁
    have hcore := (canIssue_core hrfq).trans (canIssue_core hsmemq)
    refine ⟨f, .elsewhere hf₂ (fun q₀ q hq₀ hq => ?_) (by rw [hcore.ldst_eq])
      (fun e he => by cases he)⟩
    rw [hkeep₂ q₀ (hkeep₁ q₀ hq₀), Option.some.injEq] at hq
    exact hq ▸ .refl q₀
  | @load w inst mask input _ haction hload hissue =>
    obtain ⟨key', wi, hissued, rfl, haccesses, _, hldst, _⟩ := issueWarp_load_frame hload hissue
    by_cases hon : kind = inst.kind ∧ key = key'
    · obtain ⟨rfl, rfl⟩ := hon
      have hkey : ∀ k, keyForWarp inst.kind cfg s w inst.queueId = .ok k → k = key := by
        intro k hk
        rw [hissued.key_eq, Except.ok.injEq] at hk
        exact hk.symm
      obtain ⟨wi', value, q, i, hes, heffect⟩ := issueWarp_load hload hkey hf hissue
      obtain ⟨rfl, _⟩ : wi = wi' ∧ _ := by simpa using hes
      exact ⟨f.push i, .load haction hload rfl hissued heffect haccesses hldst⟩
    · have hoff : ¬wi.On kind key := fun h => hon (hissued.on_iff.mp h)
      have hqueue := hissued.others kind key hon
      refine ⟨f, .elsewhere (hf.congr hqueue) (.of_eq hqueue) ?_ fun e he => ?_⟩
      · rw [onQueue_load hldst, if_neg hoff, add_zero]
      · obtain rfl := List.mem_singleton.mp he
        exact hoff
  | @move w inst mask input _ haction hload hissue =>
    obtain ⟨key', wi, written, hissued, rfl, hldst, _⟩ := issueWarp_move_frame hload hissue
    by_cases hon : kind = inst.kind ∧ key = key'
    · obtain ⟨rfl, rfl⟩ := hon
      have hkey : ∀ k, keyForWarp inst.kind cfg s w inst.queueId = .ok k → k = key := by
        intro k hk
        rw [hissued.key_eq, Except.ok.injEq] at hk
        exact hk.symm
      obtain ⟨wi', written', q, i, hes, heffect⟩ := issueWarp_move hload hkey hf hissue
      obtain ⟨rfl, rfl⟩ : wi = wi' ∧ written = written' := by simpa using hes
      exact ⟨f.pop, .move haction hload rfl hissued heffect hldst⟩
    · have hoff : ¬wi.On kind key := fun h => hon (hissued.on_iff.mp h)
      have hqueue := hissued.others kind key hon
      refine ⟨f, .elsewhere (hf.congr hqueue) (.of_eq hqueue) (by rw [hldst]) fun e he => ?_⟩
      obtain rfl := List.mem_singleton.mp he
      exact hoff
  | answered inst out s₁ last done _ hout hmark htables hinflight _ _ hdone =>
    have hin : inst.access ∈ s.ldst.inflight := by simp [hinflight]
    by_cases hon : inst.On kind key
    · obtain ⟨r, hr, haccess⟩ := hp.inflight _ hin
      obtain ⟨hload, henabled, _⟩ := hp.loaded r hr
      rw [← WarpInst.toQueueInst_eq_of_access_eq haccess] at hload henabled
      obtain ⟨rfl, rfl⟩ := hon
      exact QueueStep.of_mark hf hload henabled hout hmark htables hinflight hdone
    · have hframe := (markResponse_frame hmark).others kind key fun h => hon ⟨h.1.symm, h.2.symm⟩
      rw [← queue?_congr htables, queue?_congr hout] at hframe
      refine ⟨f, .elsewhere (hf.congr hframe) (.of_eq hframe) ?_ fun e he => ?_⟩
      · rw [onQueue_answered hinflight, if_neg hon, zero_add]
      · have hwhere : ∃ i : WarpInst, i.uid = inst.uid ∧ ¬i.On kind key ∧
            (i.access ∈ s.ldst.inflight ∨ i ∈ s.ldst.dispatch) := ⟨inst, rfl, hon, .inl hin⟩
        cases done with
        | true =>
          rcases List.mem_pair.mp he with rfl | rfl
          · exact hwhere
          · exact hwhere
        | false =>
          obtain rfl := List.mem_singleton.mp he
          exact hwhere
  | completed inst _ hinst hpending htables hinflight _ _ =>
    have hqueue := queue?_congr htables kind key
    by_cases hon : inst.On kind key
    · obtain ⟨r, hr, haccess, _⟩ := hp.dispatch inst hinst
      obtain ⟨hload, henabled, _⟩ := hp.loaded r hr
      rw [← WarpInst.toQueueInst_eq_of_access_eq haccess] at hload henabled
      refine ⟨f, .completed hon hinst (fun q t i hq hrep ht hslot => ?_) hqueue hinflight⟩
      rw [pendingRequests_eq] at hpending
      obtain ⟨rfl, rfl⟩ := hon
      have hready := ready_of_loadPending hpending henabled rfl hload hq hrep
        hslot ht
      simpa using hready
    · refine ⟨f, .elsewhere (hf.congr hqueue) (.of_eq hqueue) (by rw [onQueue, hinflight]; rfl)
        fun e he => ?_⟩
      obtain rfl := List.mem_singleton.mp he
      exact ⟨inst, rfl, hon, .inr hinst⟩
  | @retire c hret htables hldst _ =>
    have hlookup : s'.queue? kind key = if key.ctaHwId = c then none else s.queue? kind key := by
      rw [queue?_congr htables]
      exact QueueTable.lookup_eraseCta (s.tables kind) c key
    by_cases hcta : key.ctaHwId = c
    · subst hcta
      rw [if_pos rfl] at hlookup
      exact ⟨Fifo.empty, .erased hret hlookup hldst⟩
    · rw [if_neg hcta] at hlookup
      refine ⟨f, .elsewhere (hf.congr hlookup) (.of_eq hlookup) (by rw [hldst]) fun e he => ?_⟩
      obtain rfl := List.mem_singleton.mp he
      exact hcta

end Shader
end WaspSim
