import WaspSim.Correctness.Tracks

/-!
# Queues whose responses are their own

As long as the CTA of a queue is not retired with accesses of its loads in flight,
every response to a load on the queue marks the item of that load: the marks of
an item are the answers to its load, a load leaves the queue only when all its
accesses were answered, and it is completed once, with its last answer.
-/

namespace WaspSim
namespace Shader

open Log

variable {Mem : Type} {cfg : Config} {kind : QueueKind} {key : QueueKey} {s s' : Shader Mem}
  {f f' : Fifo (Item Nat)} {log es : List Event} {read : Mem → BitVec 64 → Nat → BitVec 64}

/-- The action does not retire the CTA of a queue while accesses of loads on it are in
flight. -/
def CleanRetire (kind : QueueKind) (key : QueueKey) (s : Shader Mem) (a : Action Mem) : Prop :=
  retires s a = some key.ctaHwId → onQueue kind key s.ldst = 0

instance (kind : QueueKind) (key : QueueKey) (s : Shader Mem) (a : Action Mem) :
    Decidable (CleanRetire kind key s a) := inferInstanceAs (Decidable (_ → _))

/-- How often a load of `n` accesses should have been completed after some answers. -/
def dueCompletions (n answers : Nat) : Nat := if answers = n then 1 else 0

/-- The responses that a queue has seen are those of its own loads. -/
structure Settled (kind : QueueKind) (key : QueueKey) (s : Shader Mem) (log : List Event)
    (f : Fifo (Item Nat)) : Prop where
  current : ∀ a ∈ onQueue kind key s.ldst, ∃ r ∈ loadsOf kind key log, a = r.inst.access
  marked : ∀ t i r, f.get? t = some i → (loadsOf kind key log)[t]? = some r →
    i.marked = answers r.inst.uid log
  departed : ∀ t r, t < f.popped → (loadsOf kind key log)[t]? = some r →
    answers r.inst.uid log = r.inst.accessqCount
  completed : ∀ r ∈ loads log, r.inst.On kind key → 0 < r.inst.accessqCount →
    completions r.inst.uid log = dueCompletions r.inst.accessqCount (answers r.inst.uid log)

/-- Events elsewhere record no load on the queue. -/
theorem not_on_of_elsewhere (hes : ∀ e ∈ es, Elsewhere kind key s e) {r : LoadRecord}
    (hr : r ∈ loads es) : ¬r.inst.On kind key := by
  obtain ⟨e, he, hload⟩ := List.mem_filterMap.mp hr
  have hoff := hes e he
  cases e with
  | loaded inst executed value =>
    obtain rfl := Option.some.inj hload
    exact hoff
  | moved inst executed written => cases hload
  | answered u => cases hload
  | completed u => cases hload
  | retired c => cases hload

/-- Events elsewhere answer and complete no load on the queue. -/
theorem Provenance.silent_elsewhere (h : Provenance cfg s log)
    (hes : ∀ e ∈ es, Elsewhere kind key s e) {r : LoadRecord} (hr : r ∈ loads log)
    (hon : r.inst.On kind key) :
    answers r.inst.uid es = 0 ∧ completions r.inst.uid es = 0 := by
  have hother : ∀ inst : WarpInst, inst.uid = r.inst.uid →
      (inst.access ∈ s.ldst.inflight ∨ inst ∈ s.ldst.dispatch) → inst.On kind key := by
    intro inst huid hwhere
    obtain ⟨r₀, hr₀, haccess⟩ : ∃ r₀ ∈ loads log, inst.access = r₀.inst.access := by
      rcases hwhere with hin | hin
      · exact h.inflight _ hin
      · obtain ⟨r₀, hr₀, haccess, _⟩ := h.dispatch _ hin
        exact ⟨r₀, hr₀, haccess⟩
    have huid₀ := WarpInst.uid_eq_of_access_eq haccess
    obtain rfl := h.eq_of_uid_eq hr hr₀ (huid.symm.trans huid₀)
    rw [← On.access_iff, haccess]
    exact On.access_iff.mpr hon
  constructor
  · rw [answers, List.countP_eq_zero]
    intro e he hans
    cases e with
    | answered u =>
      obtain ⟨inst, hu, hoff, hwhere⟩ := hes _ he
      exact hoff (hother inst (hu.trans (by simpa [answersLoad] using hans)) hwhere)
    | loaded inst executed value => cases hans
    | moved inst executed written => cases hans
    | completed u => cases hans
    | retired c => cases hans
  · rw [completions, List.countP_eq_zero]
    intro e he hcomp
    cases e with
    | completed u =>
      obtain ⟨inst, hu, hoff, hwhere⟩ := hes _ he
      exact hoff (hother inst (hu.trans (by simpa [completesLoad] using hcomp)) hwhere)
    | loaded inst executed value => cases hcomp
    | moved inst executed written => cases hcomp
    | answered u => cases hcomp
    | retired c => cases hcomp

namespace Settled

/-- An access in flight belongs to a load that is still queued and not ready. -/
theorem live (h : Settled kind key s log f) (hp : Provenance cfg s log)
    (ht : Tracks cfg kind key s log f) {a : WarpInst} (ha : a ∈ onQueue kind key s.ldst) :
    ∃ t r i, (loadsOf kind key log)[t]? = some r ∧ a = r.inst.access ∧ f.get? t = some i ∧
      ItemOf cfg r i ∧ i.marked = answers r.inst.uid log ∧ i.marked < i.total := by
  obtain ⟨r, hr, rfl⟩ := h.current a ha
  obtain ⟨t, hrt⟩ := List.mem_iff_getElem?.mp hr
  have hlt := hp.answers_lt (mem_loads_of_mem_loadsOf hr) (Multiset.mem_filter.mp ha).1
  have hlive : f.popped ≤ t := by
    by_contra hlt'
    have heq := h.departed t r (by omega) hrt
    omega
  obtain ⟨i, hi⟩ := Fifo.exists_get? hlive (ht.lt_pushed hrt)
  obtain ⟨r', hr', hitem⟩ := ht.item t i hi
  obtain rfl : r = r' := Option.some.inj (hrt.symm.trans hr')
  have hmarked := h.marked t i r hi hrt
  exact ⟨t, r, i, hrt, rfl, hi, hitem, hmarked, by rw [hmarked, hitem.total_eq]; exact hlt⟩

/-- A queue without accesses in flight is settled when its window is empty. -/
theorem empty (hnone : onQueue kind key s.ldst = 0)
    (hcompleted : ∀ r ∈ loads log, r.inst.On kind key → 0 < r.inst.accessqCount →
      completions r.inst.uid log = dueCompletions r.inst.accessqCount (answers r.inst.uid log)) :
    Settled kind key s log Fifo.empty where
  current a ha := by simp [hnone] at ha
  marked t i r hi := by simp at hi
  departed t r ht := absurd ht (Nat.not_lt_zero _)
  completed := hcompleted

/-- All loads have settled at first. -/
theorem initial (kind : QueueKind) (key : QueueKey) (mem : Mem) :
    Settled kind key (initial mem) [] Fifo.empty :=
  empty (by rfl) (by simp)

/-- A new load starts without answers. -/
private theorem load (h : Settled kind key s log f) (hp : Provenance cfg s log)
    (ht : Tracks cfg kind key s log f) {wi : WarpInst} {executed : Nat → Bool}
    {value : Nat → Nat → BitVec 64} {i : Item Nat} (hon : wi.On kind key)
    (huid : wi.uid = s.nextUid) (hmarked : i.marked = 0)
    (hldst : s'.ldst = { s.ldst with dispatch := s.ldst.dispatch ++ [wi] }) :
    Settled kind key s' (log ++ [.loaded wi executed value]) (f.push i) := by
  have hanswers : ∀ u, answers u (log ++ [.loaded wi executed value]) = answers u log := by
    intro u
    rw [answers_append]
    rfl
  have hcompletions :
      ∀ u, completions u (log ++ [.loaded wi executed value]) = completions u log := by
    intro u
    rw [completions_append]
    rfl
  have hlen := ht.loads_length
  obtain ⟨hnone, hnever⟩ := hp.unanswered huid.ge
  refine ⟨fun a ha => ?_, fun t j r hj hr => ?_, fun t r hlt hr => ?_, fun r hr hron hpos => ?_⟩
  · rw [onQueue_load hldst, if_pos hon, Multiset.mem_add] at ha
    rw [loadsOf_loaded hon]
    rcases ha with ha | ha
    · obtain ⟨r, hr, hra⟩ := h.current a ha
      exact ⟨r, List.mem_append_left _ hr, hra⟩
    · exact ⟨_, List.mem_append_right _ (List.mem_singleton_self _),
        Multiset.eq_of_mem_replicate ha⟩
  · rw [hanswers]
    rw [loadsOf_loaded hon] at hr
    rw [Fifo.get?_push] at hj
    split at hj
    · rename_i htop
      obtain rfl : i = j := by simpa using hj
      rw [htop, ← hlen, List.getElem?_concat_length, Option.some.injEq] at hr
      rw [← hr, hmarked]
      exact hnone.symm
    · have hlt := (Fifo.mem_of_get? hj).2
      rw [List.getElem?_append_left (by rw [hlen]; exact hlt)] at hr
      exact h.marked t j r hj hr
  · rw [hanswers]
    rw [loadsOf_loaded hon] at hr
    have hle : f.popped ≤ f.pushed := Nat.le_add_right _ _
    rw [Fifo.popped_push] at hlt
    rw [List.getElem?_append_left (by omega)] at hr
    exact h.departed t r hlt hr
  · rw [hanswers, hcompletions]
    rw [loads_append] at hr
    rcases List.mem_append.mp hr with hr | hr
    · exact h.completed r hr hron hpos
    · obtain rfl : r = ⟨wi, executed, value⟩ := List.mem_singleton.mp hr
      rw [hnone, hnever, dueCompletions, if_neg (Nat.ne_of_lt hpos)]

/-- A move removes a load that has had all its answers. -/
private theorem move (h : Settled kind key s log f) (ht : Tracks cfg kind key s log f)
    {wi : WarpInst} {executed : Nat → Bool} {written : Nat → List (BitVec 64)} {i : Item Nat}
    (hhead : f.items.head? = some i) (hready : i.Ready) (hldst : s'.ldst = s.ldst) :
    Settled kind key s' (log ++ [.moved wi executed written]) f.pop := by
  have hanswers : ∀ u, answers u (log ++ [.moved wi executed written]) = answers u log := by
    intro u
    rw [answers_append]
    rfl
  have hcompletions :
      ∀ u, completions u (log ++ [.moved wi executed written]) = completions u log := by
    intro u
    rw [completions_append]
    rfl
  have hloads : loadsOf kind key (log ++ [.moved wi executed written]) = loadsOf kind key log := by
    rw [loadsOf_append]
    rfl
  refine ⟨fun a ha => ?_, fun t j r hj hr => ?_, fun t r hlt hr => ?_, fun r hr hron hpos => ?_⟩
  · rw [hldst] at ha
    rw [hloads]
    exact h.current a ha
  · rw [hanswers]
    rw [hloads] at hr
    rw [Fifo.get?_pop] at hj
    split at hj
    · cases hj
    · exact h.marked t j r hj hr
  · rw [hanswers]
    rw [hloads] at hr
    rw [Fifo.popped_pop] at hlt
    rcases Nat.lt_succ_iff_lt_or_eq.mp hlt with hlt | rfl
    · exact h.departed t r hlt hr
    · have hi : f.get? f.popped = some i := by rw [Fifo.get?_popped, hhead]
      obtain ⟨r', hr', hitem⟩ := ht.item _ i hi
      obtain rfl : r = r' := Option.some.inj (hr.symm.trans hr')
      rw [← h.marked _ i r hi hr, ← hitem.total_eq]
      exact hready
  · rw [hanswers, hcompletions]
    rw [loads_append] at hr
    exact h.completed r (by simpa [loads, load?] using hr) hron hpos

/-- A response marks the item of the load it answers. -/
private theorem answered (h : Settled kind key s log f) (hp : Provenance cfg s log)
    (ht : Tracks cfg kind key s log f) {inst : WarpInst} {q : Queue} {t : Nat} {i : Item Nat}
    {done : Bool} (hon : inst.On kind key)
    (hinflight : s.ldst.inflight = {inst.access} + s'.ldst.inflight)
    (hp' : Provenance cfg s' (log ++ answerEvents inst.uid done))
    (hq : s.queue? kind key = some q) (hrep : Represents q f) (hi : f.get? t = some i)
    (hslot : inst.tokenSlotIndex = t % q.entries)
    (hdone : done = decide (i.marked + 1 = i.total) ∨
      (done = false ∧ inst.access ∈ s'.ldst.inflight)) :
    Settled kind key s' (log ++ answerEvents inst.uid done) (f.modify t Item.mark) := by
  have hin : inst.access ∈ onQueue kind key s.ldst := by
    rw [onQueue_answered hinflight, if_pos hon]
    exact Multiset.mem_add.mpr (.inl (Multiset.mem_singleton_self _))
  obtain ⟨u, r, j, hr, haccess, hj, hitem, hmarked, hdue⟩ := h.live hp ht hin
  have huid := WarpInst.uid_eq_of_access_eq haccess
  -- the slot that was marked is the slot of the answered load
  obtain rfl : t = u := by
    by_contra hne
    have htoken := ht.token u r q hr hq
    have hslot' : inst.tokenSlotIndex = u % q.entries := by
      have htok : inst.tokenFromInst = r.inst.tokenFromInst := by
        rw [← WarpInst.tokenFromInst_access inst, haccess, WarpInst.tokenFromInst_access]
      rw [← htok] at htoken
      exact congrArg Token.slotIndex htoken
    exact hrep.shows.mod_ne hi hj hne (hslot.symm.trans hslot')
  obtain rfl : i = j := Option.some.inj (hi.symm.trans hj)
  have hown : answers r.inst.uid (log ++ answerEvents inst.uid done) =
      answers r.inst.uid log + 1 := by
    rw [answers_append, answers_answerEvents, if_pos huid]
  have hother : ∀ r' ∈ loads log, r' ≠ r →
      answers r'.inst.uid (log ++ answerEvents inst.uid done) = answers r'.inst.uid log ∧
      completions r'.inst.uid (log ++ answerEvents inst.uid done) =
        completions r'.inst.uid log := by
    intro r' hr' hne
    have hu : ¬inst.uid = r'.inst.uid := fun heq =>
      hne (hp.eq_of_uid_eq hr' (mem_loads_of_mem_loadsOf (List.mem_of_getElem? hr))
        (heq.symm.trans huid))
    rw [answers_append, completions_append, answers_answerEvents, completions_answerEvents,
      if_neg hu, if_neg fun hc => hu hc.1]
    exact ⟨rfl, rfl⟩
  have hloads : loads (log ++ answerEvents inst.uid done) = loads log := by
    rw [loads_append, loads_answerEvents, List.append_nil]
  refine ⟨fun a ha => ?_, fun v k r' hk hr' => ?_, fun v r' hlt hr' => ?_,
    fun r' hr' hron hpos => ?_⟩
  · rw [loadsOf_answerEvents]
    apply h.current a
    rw [onQueue_answered hinflight]
    exact Multiset.mem_add.mpr (.inr ha)
  · rw [loadsOf_answerEvents] at hr'
    rw [Fifo.get?_modify hi] at hk
    split at hk
    · rename_i hv
      obtain rfl : i.mark = k := by simpa using hk
      obtain rfl : r = r' := Option.some.inj (hr.symm.trans (hv ▸ hr'))
      rw [hown, ← hmarked]
      rfl
    · rename_i hv
      have hne : r' ≠ r := by
        rintro rfl
        exact hv (hp.ticket_unique hr' hr rfl)
      rw [(hother r' (mem_loads_of_mem_loadsOf (List.mem_of_getElem? hr')) hne).1]
      exact h.marked v k r' hk hr'
  · rw [loadsOf_answerEvents] at hr'
    have hne : r' ≠ r := by
      rintro rfl
      have hv := hp.ticket_unique hr' hr rfl
      have hle := (Fifo.mem_of_get? hi).1
      rw [Fifo.popped_modify] at hlt
      omega
    rw [(hother r' (mem_loads_of_mem_loadsOf (List.mem_of_getElem? hr')) hne).1]
    exact h.departed v r' hlt hr'
  · have hr₀ := hr'
    rw [hloads] at hr'
    by_cases hne : r' = r
    · subst hne
      have hbefore := h.completed r' hr' hron hpos
      have hlt : answers r'.inst.uid log < r'.inst.accessqCount := by
        rw [← hmarked, ← hitem.total_eq]
        exact hdue
      rw [dueCompletions, if_neg (Nat.ne_of_lt hlt)] at hbefore
      rw [hown, completions_append, completions_answerEvents, hbefore, Nat.zero_add]
      have hflag : (done = true) ↔ answers r'.inst.uid log + 1 = r'.inst.accessqCount := by
        rcases hdone with hdone | ⟨hfalse, hleft⟩
        · rw [hdone, decide_eq_true_iff, hmarked, hitem.total_eq]
        · have hstill := hp'.answers_lt hr₀ (haccess ▸ hleft)
          rw [hown] at hstill
          simp only [hfalse, Bool.false_eq_true, false_iff]
          omega
      simp only [huid, true_and, hflag, dueCompletions]
    · obtain ⟨ha, hc⟩ := hother r' hr' hne
      rw [ha, hc]
      exact h.completed r' hr' hron hpos

/-- Every action that does not retire the CTA with accesses in flight keeps the queue
settled. -/
theorem step (h : Settled kind key s log f) (hp : Provenance cfg s log)
    (ht : Tracks cfg kind key s log f) {a : Action Mem} (hguard : CleanRetire kind key s a)
    (hp' : Provenance cfg s' (log ++ es)) (hstep : QueueStep cfg read kind key f s a s' es f') :
    Settled kind key s' (log ++ es) f' := by
  cases hstep with
  | elsewhere hheld hshape hinflight hes =>
    have hsilent : ∀ r ∈ loads log, r.inst.On kind key →
        answers r.inst.uid (log ++ es) = answers r.inst.uid log ∧
          completions r.inst.uid (log ++ es) = completions r.inst.uid log := by
      intro r hr hon
      obtain ⟨ha, hc⟩ := hp.silent_elsewhere hes hr hon
      rw [answers_append, completions_append, ha, hc]
      exact ⟨rfl, rfl⟩
    have hmem : ∀ {t : Nat} {r : LoadRecord}, (loadsOf kind key log)[t]? = some r →
        r ∈ loads log ∧ r.inst.On kind key := fun hr =>
      ⟨mem_loads_of_mem_loadsOf (List.mem_of_getElem? hr),
        on_of_mem_loadsOf (List.mem_of_getElem? hr)⟩
    refine ⟨fun a ha => ?_, fun t i r hi hr => ?_, fun t r hlt hr => ?_, fun r hr hon hpos => ?_⟩
    · rw [hinflight] at ha
      rw [loadsOf_elsewhere hes]
      exact h.current a ha
    · rw [loadsOf_elsewhere hes] at hr
      rw [(hsilent r (hmem hr).1 (hmem hr).2).1]
      exact h.marked t i r hi hr
    · rw [loadsOf_elsewhere hes] at hr
      rw [(hsilent r (hmem hr).1 (hmem hr).2).1]
      exact h.departed t r hlt hr
    · rw [loads_append] at hr
      rcases List.mem_append.mp hr with hr | hr
      · obtain ⟨ha, hc⟩ := hsilent r hr hon
        rw [ha, hc]
        exact h.completed r hr hon hpos
      · exact absurd hon (not_on_of_elsewhere hes hr)
  | load _ _ hkind hissued heffect _ hldst =>
    exact h.load hp ht (hissued.on_iff.mpr ⟨hkind.symm, rfl⟩) hissued.uid_eq heffect.marked_eq hldst
  | move _ _ _ _ heffect hldst => exact h.move ht heffect.head_eq heffect.ready hldst
  | answered hon hinflight hq hrep hi hslot _ _ _ hdone =>
    exact h.answered hp ht hon hinflight hp' hq hrep hi hslot hdone
  | @completed inst hon hinst hready hqueue hinflight =>
    have hanswers : ∀ u, answers u (log ++ [.completed inst.uid]) = answers u log := by
      intro u
      rw [answers_append]
      rfl
    obtain ⟨r₀, hr₀, haccess, _, hpos₀⟩ := hp.dispatch inst hinst
    -- a load that still has accesses is not ready, so it is not the one that leaves
    have hzero : r₀.inst.accessqCount = 0 := by
      by_contra hne
      have hin : inst.access ∈ onQueue kind key s.ldst :=
        Multiset.mem_filter.mpr ⟨access_mem_inflight hinst (hpos₀ (Nat.pos_of_ne_zero hne)), hon⟩
      obtain ⟨t, r, i, hr, hra, hi, _, _, hdue⟩ := h.live hp ht hin
      obtain ⟨q, hq, _, hrep⟩ := ht.held.exists_queue hi
      have htok : inst.tokenFromInst = r.inst.tokenFromInst := by
        rw [← WarpInst.tokenFromInst_access inst, hra, WarpInst.tokenFromInst_access]
      have hslot : inst.tokenSlotIndex = t % q.entries :=
        congrArg Token.slotIndex (htok.trans (ht.token t r q hr hq))
      have heq : i.marked = i.total := hready q t i hq hrep hi hslot
      omega
    refine ⟨fun a ha => ?_, fun t i r hi hr => ?_, fun t r hlt hr => ?_, fun r hr hron hpos => ?_⟩
    · rw [onQueue, hinflight] at ha
      rw [loadsOf_append]
      exact h.current a ha
    · rw [hanswers]
      rw [loadsOf_append] at hr
      exact h.marked t i r hi hr
    · rw [hanswers]
      rw [loadsOf_append] at hr
      exact h.departed t r hlt hr
    · have hlog : loads (log ++ [.completed inst.uid]) = loads log := by
        rw [loads_append]
        exact List.append_nil _
      rw [hlog] at hr
      have hne : ¬inst.uid = r.inst.uid := by
        intro heq
        obtain rfl := hp.eq_of_uid_eq hr hr₀
          (heq.symm.trans (WarpInst.uid_eq_of_access_eq haccess))
        omega
      have hother : completions r.inst.uid [.completed inst.uid] = 0 := by
        simp [completions, completesLoad, hne]
      rw [hanswers, completions_append, hother, Nat.add_zero]
      exact h.completed r hr hron hpos
  | erased hret _ hldst =>
    refine .empty (by rw [hldst]; exact hguard hret) fun r hr hron hpos => ?_
    rw [answers_append, completions_append]
    rw [loads_append] at hr
    exact h.completed r (by simpa [loads, load?] using hr) hron hpos

end Settled
end Shader
end WaspSim
