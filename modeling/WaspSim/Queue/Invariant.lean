import WaspSim.Core.Ring
import WaspSim.Core.Run
import WaspSim.Queue.Operations

/-!
# The representation invariant of the ring

What the fields of a queue have to do with each other after any calls of its
member functions, when the response count and the lane values of an entry are set
only while it is the latest one. The calls may use any token, and the sizes may
be any that `configure` accepts.
-/

namespace WaspSim

/-- A call of a member function that changes a queue. -/
inductive QueueOp where
  | configure (entries payloadWordsPerLane warpSize : Nat)
  | reserveTail (key : QueueKey) (activeMask : ActiveMask) (pendingResponses : Nat)
  | setPendingResponses (token : Token) (pendingResponses : Nat)
  | setLaneValue (token : Token) (lane word : Nat) (value : BitVec 64)
  | markResponse (token : Token)
  | consumeHead

/-- A queue and the tokens of the entries in it, oldest first. -/
structure QueueRun where
  queue : Queue
  outstanding : List Token

namespace QueueRun

/-- Make one call. -/
def step (s : QueueRun) : QueueOp → Except Halt QueueRun
  | .configure entries width warpSize => do
    let queue ← s.queue.configure entries width warpSize
    pure { s with queue }
  | .reserveTail key mask pending => do
    let (queue, token) ← s.queue.reserveTail key mask pending
    pure ⟨queue, s.outstanding ++ [token]⟩
  | .setPendingResponses token n => do
    let queue ← s.queue.setPendingResponses token n
    pure { s with queue }
  | .setLaneValue token lane word v => do
    let queue ← s.queue.setLaneValue token lane word v
    pure { s with queue }
  | .markResponse token => do
    let (queue, _) ← s.queue.markResponse token
    pure { s with queue }
  | .consumeHead => do
    let queue ← s.queue.consumeHead
    pure ⟨queue, s.outstanding.tail⟩

/-- The token names the entry that was reserved last and is still queued. -/
def Latest (s : QueueRun) (token : Token) : Prop :=
  ∃ latest, s.outstanding.getLast? = some latest ∧ token.slotIndex = latest.slotIndex

/-- Only the latest entry has its response count or its lanes set. -/
def SetsLatest (s : QueueRun) : QueueOp → Prop
  | .setPendingResponses token _ => s.Latest token
  | .setLaneValue token _ _ _ => s.Latest token
  | _ => True

instance (s : QueueRun) (token : Token) : Decidable (s.Latest token) :=
  decidable_of_iff
    ((s.outstanding.getLast?.any fun latest => token.slotIndex == latest.slotIndex) = true)
    (by simp [Latest, Option.any_eq_true])

instance (s : QueueRun) (op : QueueOp) : Decidable (s.SetsLatest op) :=
  match op with
  | .setPendingResponses token _ => inferInstanceAs (Decidable (s.Latest token))
  | .setLaneValue token _ _ _ => inferInstanceAs (Decidable (s.Latest token))
  | .configure _ _ _ | .reserveTail _ _ _ | .markResponse _ | .consumeHead =>
    inferInstanceAs (Decidable True)

end QueueRun

/-- The fields of a queue agree with each other. -/
structure Queue.Consistent (q : Queue) : Prop where
  occupancy_le : q.occupancy ≤ q.entries
  tail_eq : q.tail = (q.head + q.occupancy) % q.entries
  /-- Exactly the slots of the window are taken. -/
  taken_iff : ∀ slot e, q.storage[slot]? = some e →
    (e.state ≠ .free ↔ ∃ k < q.occupancy, slot = (q.head + k) % q.entries)
  /-- An entry of the window is reserved while it waits for responses, and ready after. -/
  state_iff : ∀ k < q.occupancy, ∃ e, q.storage[(q.head + k) % q.entries]? = some e ∧
    (e.state = .reserved ↔ 0 < e.pendingResponses) ∧ (e.state = .ready ↔ e.pendingResponses = 0)
  /-- Sequence numbers count up through the window, modulo the width of an `unsigned`. -/
  sequence_succ : ∀ k e e', k + 1 < q.occupancy → q.storage[(q.head + k) % q.entries]? = some e →
    q.storage[(q.head + (k + 1)) % q.entries]? = some e' → e'.sequence = u32 (e.sequence + 1)
  sequence_last : ∀ k e, k + 1 = q.occupancy → q.storage[(q.head + k) % q.entries]? = some e →
    q.nextSequence = u32 (e.sequence + 1)
  counts_eq : q.readyCount + q.pendingCount = q.occupancy
  cleared : ∀ e ∈ q.storage, e.state = .free →
    e.pendingResponses = 0 ∧ e.activeMask = 0 ∧ ∀ v ∈ e.lanePayload, v = 0

namespace QueueRun

/-- A taken slot: ticket `t` waits for `pending` responses. -/
structure Taken (t pending : Nat) (e : Entry) : Prop where
  sequence_eq : e.sequence = u32 (t + 1)
  pending_eq : e.pendingResponses = pending
  state_eq : e.state = Queue.stateFor pending

/-- A cleared slot. -/
structure Cleared (e : Entry) : Prop where
  state_eq : e.state = .free
  pending_eq : e.pendingResponses = 0
  mask_eq : e.activeMask = 0
  payload_eq : ∀ v ∈ e.lanePayload, v = 0

/-- The ring shows the window of response counts `f`. -/
structure Shows (s : QueueRun) (f : Fifo Nat) : Prop where
  entries_pos : 0 < s.queue.entries
  head_eq : s.queue.head = f.popped % s.queue.entries
  tail_eq : s.queue.tail = f.pushed % s.queue.entries
  occupancy_eq : s.queue.occupancy = f.items.length
  nextSequence_eq : s.queue.nextSequence = u32 (f.pushed + 1)
  slots : Ring.Shows s.queue.entries Taken Cleared s.queue.storage f
  tokens_eq : s.outstanding.map Token.slotIndex =
    (List.range' f.popped f.items.length).map fun t => t % s.queue.entries

theorem stateFor_ne_free (n : Nat) : Queue.stateFor n ≠ .free := by
  unfold Queue.stateFor
  split
  · simp
  · simp

namespace Shows

variable {s s' : QueueRun} {f : Fifo Nat}

/-- A fresh ring shows the empty window. -/
theorem start {entries width warpSize : Nat} {q : Queue}
    (h : ({} : Queue).configure entries width warpSize = .ok q) : Shows ⟨q, []⟩ Fifo.empty := by
  simp only [Queue.configure, Queue.configured, lt_self_iff_false, decide_false,
    Bool.false_eq_true, ↓reduceIte, bind_eq_ok, require_eq_ok, pure_eq_ok] at h
  obtain ⟨_, hentries, _, _, _, _, rfl⟩ := h
  refine ⟨hentries, by simp, by simp, rfl, by simp [u32], ?_, rfl⟩
  apply Ring.Shows.empty
  · simp
  · intro e he
    rw [List.eq_of_mem_replicate he]
    exact ⟨rfl, rfl, rfl, fun v hv => List.eq_of_mem_replicate hv⟩

/-- The slot of a live ticket. -/
theorem slot (h : Shows s f) {k : Nat} (hk : k < s.queue.occupancy) :
    ∃ e pending, f.get? (f.popped + k) = some pending ∧
      s.queue.storage[(s.queue.head + k) % s.queue.entries]? = some e ∧
      Taken (f.popped + k) pending e := by
  rw [h.occupancy_eq] at hk
  obtain ⟨pending, hp⟩ : ∃ i, f.get? (f.popped + k) = some i :=
    Fifo.exists_get? (Nat.le_add_right _ _) (by unfold Fifo.pushed; omega)
  obtain ⟨e, he, htaken⟩ := h.slots.liveAt _ _ hp
  refine ⟨e, pending, hp, ?_, htaken⟩
  rw [h.head_eq, Nat.mod_add_mod]
  exact he

/-- The token of the latest entry names the slot before the tail. -/
theorem slot_of_latest (h : Shows s f) {token : Token} (hl : s.Latest token) :
    ∃ t i, f.get? t = some i ∧ t % s.queue.entries = token.slotIndex := by
  obtain ⟨latest, hlast, hslot⟩ := hl
  have hmap : (s.outstanding.map Token.slotIndex).getLast? = some latest.slotIndex := by
    rw [List.getLast?_map, hlast, Option.map_some]
  rw [h.tokens_eq, List.getLast?_map] at hmap
  cases hlen : f.items.length with
  | zero => simp [hlen] at hmap
  | succ m =>
    rw [hlen, List.range'_1_concat, List.getLast?_concat, Option.map_some,
      Option.some.injEq] at hmap
    obtain ⟨i, hi⟩ : ∃ i, f.get? (f.popped + m) = some i :=
      Fifo.exists_get? (Nat.le_add_right _ _) (by unfold Fifo.pushed; omega)
    exact ⟨_, i, hi, by rw [hmap, hslot]⟩

/-- Rewriting the slot of a live ticket changes its response count alone. -/
theorem setEntry (h : Shows s f) {t i : Nat} (ht : f.get? t = some i) {g : Nat → Nat} {e : Entry}
    (he : Taken t (g i) e) :
    Shows { s with queue := s.queue.setEntry (t % s.queue.entries) e } (f.modify t g) where
  entries_pos := h.entries_pos
  head_eq := h.head_eq
  tail_eq := by
    rw [Fifo.pushed_modify]
    exact h.tail_eq
  occupancy_eq := by
    rw [Fifo.length_modify]
    exact h.occupancy_eq
  nextSequence_eq := by
    rw [Fifo.pushed_modify]
    exact h.nextSequence_eq
  slots := h.slots.modify ht he
  tokens_eq := by
    rw [Fifo.length_modify, Fifo.popped_modify]
    exact h.tokens_eq

/-- A ring with a slot left can be reserved. -/
theorem room (h : Shows s f) (hfull : s.queue.full = false) :
    f.items.length < s.queue.entries ∧
      ∃ e, s.queue.storage[s.queue.tail]? = some e ∧ Cleared e := by
  have hlt : f.items.length < s.queue.entries := by
    have hle : ¬s.queue.entries ≤ s.queue.occupancy := of_decide_eq_false hfull
    rw [h.occupancy_eq] at hle
    exact Nat.lt_of_not_le hle
  rw [h.tail_eq]
  exact ⟨hlt, h.slots.free_tail hlt⟩

/-- Configuring again changes nothing. -/
theorem configure (h : Shows s f) {entries width warpSize : Nat}
    (hs : s.step (.configure entries width warpSize) = .ok s') : Shows s' f := by
  simp only [step, Queue.configure, Queue.configured, h.entries_pos, decide_true, ↓reduceIte,
    bind_eq_ok, require_eq_ok, pure_eq_ok] at hs
  obtain ⟨_, ⟨_, _, _, _, _, _, rfl⟩, rfl⟩ := hs
  exact h

/-- A reservation takes the slot of the next ticket. -/
theorem reserveTail (h : Shows s f) {key : QueueKey} {mask : ActiveMask} {pending : Nat}
    (hs : s.step (.reserveTail key mask pending) = .ok s') : Shows s' (f.push pending) := by
  simp only [step, Queue.reserveTail, bind_eq_ok, require_eq_ok, fetch_eq_ok, pure_eq_ok,
    Prod.exists, Prod.mk.injEq] at hs
  obtain ⟨_, _, ⟨_, _, _, hfull, e, he, _, hfree, rfl, rfl⟩, rfl⟩ := hs
  obtain ⟨hroom, _⟩ := h.room hfull
  constructor
  · exact h.entries_pos
  · exact h.head_eq
  · simp [h.tail_eq, Queue.setEntry]
  · simp [h.occupancy_eq]
  · simp [h.nextSequence_eq, u32_succ]
  · simp only [h.tail_eq]
    exact h.slots.push hroom ⟨h.nextSequence_eq, rfl, rfl⟩
  · rw [Fifo.popped_push, Fifo.items_push, List.length_append, List.length_singleton,
      List.range'_1_concat, List.map_append, List.map_append]
    congr 1
    · exact h.tokens_eq
    · simp only [List.map_cons, List.map_nil, h.tail_eq]
      rfl

/-- Setting the response count of the latest entry. -/
theorem setPendingResponses (h : Shows s f) {token : Token} {n : Nat} (hl : s.Latest token)
    (hs : s.step (.setPendingResponses token n) = .ok s') : ∃ f', Shows s' f' := by
  obtain ⟨t, i, hi, hslot⟩ := h.slot_of_latest hl
  obtain ⟨e, he, htaken⟩ := h.slots.liveAt t i hi
  simp only [step, Queue.setPendingResponses, Queue.entryForToken, bind_eq_ok, require_eq_ok,
    fetch_eq_ok, pure_eq_ok] at hs
  obtain ⟨_, ⟨_, ⟨_, _, _, _, e₁, he₁, _, _, rfl⟩, rfl⟩, rfl⟩ := hs
  rw [← hslot, he, Option.some.injEq] at he₁
  subst he₁
  rw [← hslot]
  exact ⟨_, h.setEntry hi (g := fun _ => n) ⟨htaken.sequence_eq, rfl, rfl⟩⟩

/-- Setting a lane of the latest entry. -/
theorem setLaneValue (h : Shows s f) {token : Token} {lane word : Nat} {v : BitVec 64}
    (hl : s.Latest token) (hs : s.step (.setLaneValue token lane word v) = .ok s') :
    ∃ f', Shows s' f' := by
  obtain ⟨t, i, hi, hslot⟩ := h.slot_of_latest hl
  obtain ⟨e, he, htaken⟩ := h.slots.liveAt t i hi
  simp only [step, Queue.setLaneValue, Queue.entryForToken, bind_eq_ok, require_eq_ok,
    fetch_eq_ok, pure_eq_ok] at hs
  obtain ⟨_, ⟨_, ⟨_, _, _, _, e₁, he₁, _, _, rfl⟩, _, _, _, _, _, _, rfl⟩, rfl⟩ := hs
  rw [← hslot, he, Option.some.injEq] at he₁
  subst he₁
  rw [← hslot]
  exact ⟨_, h.setEntry hi (g := id) ⟨htaken.sequence_eq, htaken.pending_eq, htaken.state_eq⟩⟩

/-- A response, under whatever token, is marked in a taken slot. -/
theorem markResponse (h : Shows s f) {token : Token}
    (hs : s.step (.markResponse token) = .ok s') : ∃ f', Shows s' f' := by
  simp only [step, Queue.markResponse, Queue.entryForToken, bind_eq_ok, require_eq_ok,
    fetch_eq_ok, pure_eq_ok, Prod.exists] at hs
  obtain ⟨_, _, ⟨e, ⟨_, _, _, _, e₁, he, _, _, rfl⟩, _, hstate, _, hpos, hs⟩, rfl⟩ := hs
  have hfree : ¬Cleared e₁ := by
    intro hcleared
    rw [hcleared.state_eq] at hstate
    simp at hstate
  obtain ⟨t, i, hi, hslot, htaken⟩ := h.slots.exists_live he hfree
  rw [htaken.pending_eq] at hpos
  split at hs
  · rename_i hzero
    simp only [pure_eq_ok, Prod.mk.injEq] at hs
    obtain ⟨rfl, rfl⟩ := hs
    rw [← hslot]
    refine ⟨_, h.setEntry hi (g := fun n => n - 1) ⟨htaken.sequence_eq, ?_, ?_⟩⟩
    · rw [← htaken.pending_eq]
    · rw [← htaken.pending_eq, Queue.stateFor, if_pos hzero]
  · rename_i hzero
    simp only [pure_eq_ok, Prod.mk.injEq] at hs
    obtain ⟨rfl, rfl⟩ := hs
    rw [← hslot]
    refine ⟨_, h.setEntry hi (g := fun n => n - 1) ⟨htaken.sequence_eq, ?_, ?_⟩⟩
    · rw [← htaken.pending_eq]
    · change e₁.state = _
      rw [htaken.pending_eq] at hzero
      rw [htaken.state_eq, Queue.stateFor, Queue.stateFor, if_neg (Nat.ne_of_gt hpos), if_neg hzero]

/-- Consumption clears the slot of the oldest ticket. -/
theorem consumeHead (h : Shows s f) (hs : s.step .consumeHead = .ok s') : Shows s' f.pop := by
  simp only [step, Queue.consumeHead, bind_eq_ok, require_eq_ok, fetch_eq_ok, pure_eq_ok] at hs
  obtain ⟨_, ⟨_, hempty, e, he, _, _, rfl⟩, rfl⟩ := hs
  have hpos : 0 < f.items.length := by
    rw [← h.occupancy_eq]
    exact Nat.pos_of_ne_zero (by simpa [Queue.empty] using hempty)
  have hne : f.items ≠ [] := List.ne_nil_of_length_pos hpos
  constructor
  · exact h.entries_pos
  · simp [h.head_eq, Queue.setEntry]
  · rw [Fifo.pushed_pop hne]
    exact h.tail_eq
  · simp [h.occupancy_eq]
  · rw [Fifo.pushed_pop hne]
    exact h.nextSequence_eq
  · simp only [h.head_eq]
    apply h.slots.pop hne
    exact ⟨rfl, rfl, rfl, fun v hv => List.eq_of_mem_replicate hv⟩
  · obtain ⟨m, hm⟩ := Nat.exists_eq_succ_of_ne_zero (Nat.ne_of_gt hpos)
    rw [List.map_tail, h.tokens_eq, Fifo.popped_pop, Fifo.items_pop, List.length_tail, hm,
      List.range'_succ, List.map_cons, List.tail_cons]
    rfl

/-- Every call that sets only the latest entry keeps a window shown. -/
theorem step (h : Shows s f) {op : QueueOp} (hg : s.SetsLatest op) (hs : s.step op = .ok s') :
    ∃ f', Shows s' f' := by
  cases op with
  | configure _ _ _ => exact ⟨_, h.configure hs⟩
  | reserveTail _ _ _ => exact ⟨_, h.reserveTail hs⟩
  | setPendingResponses _ _ => exact h.setPendingResponses hg hs
  | setLaneValue _ _ _ _ => exact h.setLaneValue hg hs
  | markResponse _ => exact h.markResponse hs
  | consumeHead => exact ⟨_, h.consumeHead hs⟩

/-- The two kinds of taken slots. -/
theorem counts_eq (h : Shows s f) : s.queue.readyCount + s.queue.pendingCount = f.items.length := by
  have hsum : (s.queue.storage.map fun e => if e.state = .free then 0 else 1).sum =
      f.weight fun _ => 1 := by
    refine h.slots.sum_eq (z := {}) ?_ ?_ ⟨rfl, rfl, rfl, by simp⟩
    · intro t i e htaken
      simp [htaken.state_eq, stateFor_ne_free]
    · intro e hcleared
      simp [hcleared.state_eq]
  have hlength : f.weight (fun _ => 1) = f.items.length := by simp [Fifo.weight]
  rw [← hlength, ← hsum]
  unfold Queue.readyCount Queue.pendingCount
  induction s.queue.storage with
  | nil => rfl
  | cons e es ih =>
    simp only [List.countP_cons, List.map_cons, List.sum_cons]
    cases e.state <;> simp <;> omega

/-- A ring that shows a window is consistent. -/
theorem consistent (h : Shows s f) : s.queue.Consistent where
  occupancy_le := by
    rw [h.occupancy_eq]
    exact h.slots.bounded
  tail_eq := by
    rw [h.tail_eq, h.head_eq, h.occupancy_eq, Nat.mod_add_mod]
    rfl
  taken_iff := by
    intro k e he
    constructor
    · intro hstate
      have hfree : ¬Cleared e := fun hcleared => hstate hcleared.state_eq
      obtain ⟨t, i, hi, rfl, _⟩ := h.slots.exists_live he hfree
      obtain ⟨hlo, hhi⟩ := Fifo.mem_of_get? hi
      unfold Fifo.pushed at hhi
      refine ⟨t - f.popped, by rw [h.occupancy_eq]; omega, ?_⟩
      rw [h.head_eq, Nat.mod_add_mod, Nat.add_sub_cancel' hlo]
    · rintro ⟨j, hj, rfl⟩
      obtain ⟨e', i, _, he', htaken⟩ := h.slot hj
      rw [he, Option.some.injEq] at he'
      subst he'
      rw [htaken.state_eq]
      exact stateFor_ne_free i
  state_iff := by
    intro k hk
    obtain ⟨e, i, _, he, htaken⟩ := h.slot hk
    refine ⟨e, he, ?_⟩
    rw [htaken.state_eq, htaken.pending_eq]
    unfold Queue.stateFor
    split
    · simp [*]
    · simp [*, Nat.pos_of_ne_zero]
  sequence_succ := by
    intro k e e' hk he he'
    obtain ⟨e₁, _, _, he₁, htaken⟩ := h.slot (Nat.lt_of_succ_lt hk)
    obtain ⟨e₂, _, _, he₂, htaken'⟩ := h.slot hk
    rw [he, Option.some.injEq] at he₁
    rw [he', Option.some.injEq] at he₂
    subst he₁ he₂
    rw [htaken.sequence_eq, htaken'.sequence_eq, u32_succ]
    rfl
  sequence_last := by
    intro k e hk he
    obtain ⟨e₁, _, _, he₁, htaken⟩ := h.slot (k := k) (by omega)
    rw [he, Option.some.injEq] at he₁
    subst he₁
    rw [h.nextSequence_eq, htaken.sequence_eq, u32_succ]
    unfold Fifo.pushed
    rw [← h.occupancy_eq, ← hk]
    rfl
  counts_eq := by
    rw [h.counts_eq, h.occupancy_eq]
  cleared := by
    intro e he hfree
    obtain ⟨k, hk⟩ := List.mem_iff_getElem?.mp he
    by_contra hdirty
    have hnot : ¬Cleared e := fun hc => hdirty ⟨hc.pending_eq, hc.mask_eq, hc.payload_eq⟩
    obtain ⟨_, i, _, _, htaken⟩ := h.slots.exists_live hk hnot
    rw [htaken.state_eq] at hfree
    exact stateFor_ne_free i hfree

end Shows

/-- After `configure` and any calls that set only the latest entry, the queue is
consistent; a queue that is not full can be reserved, and one whose head is ready can
be consumed. -/
theorem consistent_of_reaches {entries width warpSize : Nat} {q : Queue} {s : QueueRun}
    (hconf : ({} : Queue).configure entries width warpSize = .ok q)
    (hrun : Reaches step SetsLatest ⟨q, []⟩ s) :
    s.queue.Consistent ∧
      (s.queue.full = false → ∀ key mask pending,
        ∃ r, s.queue.reserveTail key mask pending = .ok r) ∧
      (s.queue.headReady = true → ∃ q', s.queue.consumeHead = .ok q') := by
  obtain ⟨f, hf⟩ : ∃ f, Shows s f := by
    apply hrun.invariant (fun s => ∃ f, Shows s f)
    · exact ⟨_, Shows.start hconf⟩
    · rintro s op s' ⟨f, hf⟩ hg hs
      exact hf.step hg hs
  refine ⟨hf.consistent, ?_, ?_⟩
  · intro hfull key mask pending
    obtain ⟨_, e, he, hcleared⟩ := hf.room hfull
    have hconfigured : s.queue.configured = true := decide_eq_true hf.entries_pos
    simp [Queue.reserveTail, require, fetch, hconfigured, hfull, he, hcleared.state_eq, bind,
      Except.bind, pure, Except.pure]
  · intro hready
    simp only [Queue.headReady, Bool.and_eq_true, Bool.not_eq_true', Option.any_eq_true,
      beq_iff_eq] at hready
    obtain ⟨hempty, e, he, hstate⟩ := hready
    simp [Queue.consumeHead, require, fetch, hempty, he, hstate, bind, Except.bind, pure,
      Except.pure]

/-- Three loads through a ring of two slots, the first of them answered and consumed. -/
def wrappingOps : List QueueOp :=
  [.reserveTail {} 3 0, .setPendingResponses ⟨{}, 0, 1, 3, true⟩ 1, .reserveTail {} 3 0,
    .setPendingResponses ⟨{}, 1, 2, 3, true⟩ 2, .markResponse ⟨{}, 0, 1, 3, true⟩, .consumeHead,
    .reserveTail {} 1 0, .setLaneValue ⟨{}, 0, 3, 3, true⟩ 0 2 7]

theorem consistent_of_reaches_wrapping :
    ∃ q s, ({} : Queue).configure 2 3 32 = .ok q ∧
      wrappingOps.foldlM (guarded step SetsLatest .disabled) ⟨q, []⟩ = .ok s ∧
      s.queue.Consistent ∧ s.queue.head = 1 ∧ s.queue.occupancy = 2 := by
  obtain ⟨q, hconf⟩ : ∃ q, ({} : Queue).configure 2 3 32 = .ok q := ⟨_, rfl⟩
  obtain ⟨s, hs, hhead, hoccupancy⟩ : ∃ s,
      wrappingOps.foldlM (guarded step SetsLatest .disabled) ⟨q, []⟩ = .ok s ∧
        s.queue.head = 1 ∧ s.queue.occupancy = 2 := by
    cases hconf
    exact ⟨_, rfl, rfl, rfl⟩
  have hconsistent := (consistent_of_reaches hconf (.of_foldlM hs)).1
  exact ⟨q, s, hconf, hs, hconsistent, hhead, hoccupancy⟩

end QueueRun
end WaspSim
