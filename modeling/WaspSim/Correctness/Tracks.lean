import WaspSim.Correctness.QueueStep

/-!
# The window a log describes

On any run, retirements with responses outstanding included, the log tells what
is in the queue of a key: ticket `t` is the `t`-th load logged on the queue since
its CTA was last retired, with that load's token, accesses and values, and the
tickets that have left are the moves logged on it. The responses that the queued
items still wait for are all in flight.
-/

namespace WaspSim
namespace Shader

open Log

variable {Mem : Type} {cfg : Config} {kind : QueueKind} {key : QueueKey} {s s' : Shader Mem}
  {f f' : Fifo (Item Nat)} {log es : List Event} {read : Mem → BitVec 64 → Nat → BitVec 64}

/-- The item of a load's reservation, with the values its executed lanes read. -/
structure ItemOf (cfg : Config) (r : LoadRecord) (i : Item Nat) : Prop where
  owner_eq : i.owner = r.inst.uid
  total_eq : i.total = r.inst.accessqCount
  payload_eq : cfg.modelsData r.inst.kind = true → ∀ lane word, lane < cfg.warpSize →
    r.executed lane = true → word < r.inst.payloadWords → i.payload lane word = r.value lane word

/-- A response does not change the load that an entry stands for. -/
theorem ItemOf.mark {r : LoadRecord} {i : Item Nat} (h : ItemOf cfg r i) : ItemOf cfg r i.mark :=
  ⟨h.owner_eq, h.total_eq, h.payload_eq⟩

/-- The responses an item still waits for. -/
def Item.pending (i : Item Nat) : Nat := i.total - i.marked

/-- The window `f` under a key is the one the log describes. -/
structure Tracks (cfg : Config) (kind : QueueKind) (key : QueueKey) (s : Shader Mem)
    (log : List Event) (f : Fifo (Item Nat)) : Prop where
  held : Holds cfg kind key s f
  loads_length : (loadsOf kind key log).length = f.pushed
  moves_length : (movesOf kind key log).length = f.popped
  token : ∀ t r q, (loadsOf kind key log)[t]? = some r → s.queue? kind key = some q →
    r.inst.tokenFromInst = q.tokenAt key t
  item : ∀ t i, f.get? t = some i → ∃ r, (loadsOf kind key log)[t]? = some r ∧ ItemOf cfg r i
  outstanding : f.weight Item.pending ≤ (onQueue kind key s.ldst).card

/-- Events elsewhere change neither the loads nor the moves of a queue. -/
theorem loadsOf_elsewhere (hes : ∀ e ∈ es, Elsewhere kind key s e) :
    loadsOf kind key (log ++ es) = loadsOf kind key log := by
  rw [loadsOf_append]
  induction es with
  | nil => rfl
  | cons e es ih =>
    have hsame : trackLoad kind key (loadsOf kind key log) e = loadsOf kind key log := by
      have he := hes e (List.mem_cons_self ..)
      cases e with
      | loaded inst executed value => exact if_neg he
      | retired c => exact if_neg he
      | moved inst executed written => rfl
      | answered u => rfl
      | completed u => rfl
    rw [List.foldl_cons, hsame]
    exact ih fun e' he' => hes e' (List.mem_cons_of_mem _ he')

/-- Events elsewhere are no moves of the queue. -/
theorem movesOf_elsewhere (hes : ∀ e ∈ es, Elsewhere kind key s e) :
    movesOf kind key (log ++ es) = movesOf kind key log := by
  rw [movesOf_append]
  induction es with
  | nil => rfl
  | cons e es ih =>
    have hsame : trackMove kind key (movesOf kind key log) e = movesOf kind key log := by
      have he := hes e (List.mem_cons_self ..)
      cases e with
      | moved inst executed written => exact if_neg he
      | retired c => exact if_neg he
      | loaded inst executed value => rfl
      | answered u => rfl
      | completed u => rfl
    rw [List.foldl_cons, hsame]
    exact ih fun e' he' => hes e' (List.mem_cons_of_mem _ he')

theorem loadsOf_answerEvents (uid : Nat) (done : Bool) :
    loadsOf kind key (log ++ answerEvents uid done) = loadsOf kind key log := by
  rw [loadsOf_append]
  cases done <;> rfl

theorem movesOf_answerEvents (uid : Nat) (done : Bool) :
    movesOf kind key (log ++ answerEvents uid done) = movesOf kind key log := by
  rw [movesOf_append]
  cases done <;> rfl

/-- A load of the queue is one more. -/
theorem loadsOf_loaded {inst : WarpInst} {executed : Nat → Bool}
    {value : Nat → Nat → BitVec 64} (hon : inst.On kind key) :
    loadsOf kind key (log ++ [.loaded inst executed value]) =
      loadsOf kind key log ++ [⟨inst, executed, value⟩] := by
  rw [loadsOf_append]
  exact if_pos hon

/-- A move of the queue is one more. -/
theorem movesOf_moved {inst : WarpInst} {executed : Nat → Bool}
    {written : Nat → List (BitVec 64)} (hon : inst.On kind key) :
    movesOf kind key (log ++ [.moved inst executed written]) =
      movesOf kind key log ++ [⟨inst, executed, written⟩] := by
  rw [movesOf_append]
  exact if_pos hon

/-- A retired CTA begins its queues anew. -/
theorem loadsOf_retired : loadsOf kind key (log ++ [.retired key.ctaHwId]) = [] := by
  rw [loadsOf_append]
  exact if_pos rfl

theorem movesOf_retired : movesOf kind key (log ++ [.retired key.ctaHwId]) = [] := by
  rw [movesOf_append]
  exact if_pos rfl

namespace Tracks

/-- A key without queue tracks the empty window. -/
theorem empty (hqueue : s.queue? kind key = none) (hloads : loadsOf kind key log = [])
    (hmoves : movesOf kind key log = []) : Tracks cfg kind key s log Fifo.empty where
  held := .inl ⟨hqueue, rfl⟩
  loads_length := by rw [hloads]; rfl
  moves_length := by rw [hmoves]; rfl
  token t r q hr _ := by simp [hloads] at hr
  item t i hi := by simp at hi
  outstanding := Nat.zero_le _

/-- A queue without events tracks none. -/
theorem initial (cfg : Config) (kind : QueueKind) (key : QueueKey) (mem : Mem) :
    Tracks cfg kind key (initial mem) [] Fifo.empty :=
  empty (AList.lookup_empty key) rfl rfl

/-- Every load of the queue was pushed. -/
theorem lt_pushed (h : Tracks cfg kind key s log f) {t : Nat} {r : LoadRecord}
    (hr : (loadsOf kind key log)[t]? = some r) : t < f.pushed := by
  rw [← h.loads_length]
  exact (List.getElem?_eq_some_iff.mp hr).1

/-- A load that issues pushes its item. -/
private theorem load (h : Tracks cfg kind key s log f) {w : Nat} {inst : QueueInst}
    {mask : ActiveMask} {input : LaneInput} {wi : WarpInst} {q : Queue} {i : Item Nat}
    (hkind : inst.kind = kind) (hissued : Issued cfg key s s' w inst wi)
    (heffect : IssuedLoad cfg read key f s s' inst mask input wi q i)
    (haccesses : wi.accessqCount = input.accesses)
    (hldst : s'.ldst = { s.ldst with dispatch := s.ldst.dispatch ++ [wi] }) :
    Tracks cfg kind key s' (log ++ [.loaded wi (executes mask input)
      fun lane word => read s.mem (input.addr lane word) input.size]) (f.push i) := by
  subst hkind
  have hon : wi.On inst.kind key := hissued.on_iff.mpr ⟨rfl, rfl⟩
  have hlen := h.loads_length
  have hitem : ItemOf cfg ⟨wi, executes mask input,
      fun lane word => read s.mem (input.addr lane word) input.size⟩ i := by
    refine ⟨heffect.owner_eq.trans hissued.uid_eq.symm, heffect.total_eq.trans haccesses.symm, ?_⟩
    rw [hissued.inst_eq]
    exact heffect.payload_eq
  refine ⟨.inr ⟨q, heffect.queue_eq, ?_, heffect.represents⟩, ?_, ?_, ?_, ?_, ?_⟩
  · exact ⟨heffect.configured.entries_eq, heffect.configured.warpSize_eq, rfl⟩
  · rw [loadsOf_loaded hon, List.length_append, hlen, Fifo.pushed_push]
    rfl
  · rw [movesOf_append]
    exact h.moves_length
  · intro t r q' hr hq'
    rw [heffect.queue_eq, Option.some.injEq] at hq'
    subst hq'
    rw [loadsOf_loaded hon] at hr
    by_cases ht : t < f.pushed
    · rw [List.getElem?_append_left (by rw [hlen]; exact ht)] at hr
      cases hq₀ : s.queue? inst.kind key with
      | none =>
        rcases h.held with ⟨_, hempty⟩ | ⟨q₀, hq₁, _⟩
        · rw [hempty, Fifo.pushed_empty] at ht
          omega
        · rw [hq₀] at hq₁
          cases hq₁
      | some q₀ => rw [h.token t r q₀ hr hq₀, (heffect.shape q₀ hq₀).tokenAt_eq]
    · have htop : t = f.pushed := by
        have hlt := (List.getElem?_eq_some_iff.mp hr).1
        rw [List.length_append, hlen, List.length_singleton] at hlt
        omega
      rw [htop, ← hlen, List.getElem?_concat_length, Option.some.injEq] at hr
      rw [← hr, htop]
      exact heffect.token_eq
  · intro t j hj
    rw [loadsOf_loaded hon]
    rw [Fifo.get?_push] at hj
    split at hj
    · rename_i ht
      obtain rfl : i = j := by simpa using hj
      exact ⟨_, by rw [ht, ← hlen]; exact List.getElem?_concat_length .., hitem⟩
    · obtain ⟨r, hr, hj'⟩ := h.item t j hj
      have hlt := (List.getElem?_eq_some_iff.mp hr).1
      exact ⟨r, by rw [List.getElem?_append_left hlt]; exact hr, hj'⟩
  · have hpending : Item.pending i = wi.accessqCount := by
      rw [Item.pending, heffect.total_eq, heffect.marked_eq, haccesses, Nat.sub_zero]
    rw [Fifo.weight_push, onQueue_load hldst, if_pos hon, Multiset.card_add,
      Multiset.card_replicate, hpending]
    exact Nat.add_le_add_right h.outstanding _

/-- A move that issues pops the head. -/
private theorem move (h : Tracks cfg kind key s log f) {w : Nat} {inst : QueueInst}
    {mask : ActiveMask} {input : LaneInput} {wi : WarpInst} {written : Nat → List (BitVec 64)}
    {q : Queue} {i : Item Nat} (hkind : inst.kind = kind) (hissued : Issued cfg key s s' w inst wi)
    (heffect : IssuedMove cfg key f s s' inst mask input written q i) (hldst : s'.ldst = s.ldst) :
    Tracks cfg kind key s' (log ++ [.moved wi (executes mask input) written]) f.pop := by
  subst hkind
  have hon : wi.On inst.kind key := hissued.on_iff.mpr ⟨rfl, rfl⟩
  have hne : f.items ≠ [] := by
    intro hnil
    have hhead := heffect.head_eq
    rw [hnil] at hhead
    cases hhead
  have hloads : loadsOf inst.kind key (log ++ [.moved wi (executes mask input) written]) =
      loadsOf inst.kind key log := by
    rw [loadsOf_append]
    rfl
  refine ⟨.inr ⟨q, heffect.queue_eq, ?_, heffect.represents⟩, ?_, ?_, ?_, ?_, ?_⟩
  · exact ⟨heffect.configured.entries_eq, heffect.configured.warpSize_eq, rfl⟩
  · rw [hloads, Fifo.pushed_pop hne]
    exact h.loads_length
  · rw [movesOf_moved hon, List.length_append, h.moves_length]
    rfl
  · intro t r q' hr hq'
    rw [heffect.queue_eq, Option.some.injEq] at hq'
    subst hq'
    rw [hloads] at hr
    obtain ⟨q₀, hq₀, _⟩ := h.held.exists_queue
      (by rw [Fifo.get?_popped]; exact heffect.head_eq)
    rw [h.token t r q₀ hr hq₀, (heffect.shape q₀ hq₀).tokenAt_eq]
  · intro t j hj
    rw [hloads]
    rw [Fifo.get?_pop] at hj
    split at hj
    · cases hj
    · exact h.item t j hj
  · have hweight := Fifo.weight_pop Item.pending heffect.head_eq
    have hle := h.outstanding
    rw [hldst]
    omega

/-- A response marks one item. -/
private theorem answered (h : Tracks cfg kind key s log f) {inst : WarpInst} {t : Nat}
    {i : Item Nat} {done : Bool} (hon : inst.On kind key)
    (hinflight : s.ldst.inflight = {inst.access} + s'.ldst.inflight) {q : Queue}
    (hq : s.queue? kind key = some q) (ht : f.get? t = some i) (hdue : i.marked < i.total)
    (hheld : Holds cfg kind key s' (f.modify t Item.mark)) (hshape : KeepsShape kind key s s') :
    Tracks cfg kind key s' (log ++ answerEvents inst.uid done) (f.modify t Item.mark) := by
  refine ⟨hheld, ?_, ?_, ?_, ?_, ?_⟩
  · rw [loadsOf_answerEvents, Fifo.pushed_modify]
    exact h.loads_length
  · rw [movesOf_answerEvents]
    exact h.moves_length
  · intro u r q' hr hq'
    rw [loadsOf_answerEvents] at hr
    rw [h.token u r q hr hq, (hshape q q' hq hq').tokenAt_eq]
  · intro u j hj
    rw [loadsOf_answerEvents]
    rw [Fifo.get?_modify ht] at hj
    split at hj
    · rename_i hu
      obtain rfl : i.mark = j := by simpa using hj
      obtain ⟨r, hr, hi⟩ := h.item t i ht
      exact ⟨r, hu ▸ hr, hi.mark⟩
    · exact h.item u j hj
  · have hweight := Fifo.weight_modify Item.pending Item.mark ht
    have hle := h.outstanding
    rw [onQueue_answered hinflight, if_pos hon, Multiset.card_add, Multiset.card_singleton] at hle
    simp only [Item.pending, Item.mark] at hweight
    omega

/-- Every action keeps the description. -/
theorem step (h : Tracks cfg kind key s log f) {a : Action Mem}
    (hstep : QueueStep cfg read kind key f s a s' es f') :
    Tracks cfg kind key s' (log ++ es) f' := by
  cases hstep with
  | elsewhere hheld hshape hinflight hes =>
    refine ⟨hheld, ?_, ?_, ?_, ?_, ?_⟩
    · rw [loadsOf_elsewhere hes]
      exact h.loads_length
    · rw [movesOf_elsewhere hes]
      exact h.moves_length
    · intro t r q hr hq
      rw [loadsOf_elsewhere hes] at hr
      rcases h.held with ⟨_, rfl⟩ | ⟨q₀, hq₀, _⟩
      · exact absurd (h.lt_pushed hr) (Nat.not_lt_zero _)
      · rw [h.token t r q₀ hr hq₀, (hshape q₀ q hq₀ hq).tokenAt_eq]
    · intro t i hi
      rw [loadsOf_elsewhere hes]
      exact h.item t i hi
    · rw [hinflight]
      exact h.outstanding
  | load _ _ hkind hissued heffect haccesses hldst =>
    exact h.load hkind hissued heffect haccesses hldst
  | move _ _ hkind hissued heffect hldst => exact h.move hkind hissued heffect hldst
  | answered hon hinflight hq _ ht _ hdue hheld hshape _ =>
    exact h.answered hon hinflight hq ht hdue hheld hshape
  | completed hon _ _ hqueue hinflight =>
    refine ⟨h.held.congr hqueue, ?_, ?_, ?_, ?_, ?_⟩
    · rw [loadsOf_append]
      exact h.loads_length
    · rw [movesOf_append]
      exact h.moves_length
    · intro t r q hr hq
      rw [loadsOf_append] at hr
      exact h.token t r q hr (hqueue ▸ hq)
    · intro t i hi
      rw [loadsOf_append]
      exact h.item t i hi
    · rw [onQueue, hinflight]
      exact h.outstanding
  | erased _ hqueue _ => exact .empty hqueue loadsOf_retired movesOf_retired

end Tracks
end Shader
end WaspSim
