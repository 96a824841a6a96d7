import WaspSim.Core.Run
import WaspSim.Queue.Refinement

/-!
# Sessions of calls on one queue

A session holds one queue and the tokens its reservations returned; later calls
name a token by the number of its reservation. The specification is the window
itself: it accepts a call when the queue's own assertions allow it on an entry
that is still queued, and answers from the items alone. Every accepted list of
calls succeeds on the ring with the same replies, as long as an entry's payload
can be indexed by an `unsigned`.
-/

namespace WaspSim

/-- A call on one queue; `t` numbers the reservation whose token is used. -/
inductive Call where
  | reserveTail (activeMask : ActiveMask) (pendingResponses : Nat)
  | setPendingResponses (t pendingResponses : Nat)
  | setLaneValue (t lane word : Nat) (value : BitVec 64)
  | markResponse (t : Nat)
  | headReady
  | headLaneValue (lane word : Nat)
  | consumeHead

/-- What a call returns. -/
inductive Reply where
  | done
  | last (b : Bool)
  | ready (b : Bool)
  | value (v : BitVec 64)
  deriving DecidableEq, Repr

/-- One queue, the tokens it has returned and the slots it has freed. -/
structure Session where
  key : QueueKey
  queue : Queue
  /-- The tokens of the reservations so far. -/
  tokens : List Token
  /-- Slot and sequence of each consumed entry. -/
  consumed : List (Nat × Nat)
  deriving DecidableEq

namespace Session

/-- A session on a queue that was just configured. -/
def start (key : QueueKey) (queue : Queue) : Session := ⟨key, queue, [], []⟩

/-- The token of reservation `t`. -/
def token (s : Session) (t : Nat) : Except Halt Token := fetch .tokenInvalid s.tokens[t]?

/-- Run one call on the ring. -/
def call (s : Session) : Call → Except Halt (Session × Reply)
  | .reserveTail mask pending => do
    let (queue, token) ← s.queue.reserveTail s.key mask pending
    pure ({ s with queue, tokens := s.tokens ++ [token] }, .done)
  | .setPendingResponses t n => do
    let queue ← s.queue.setPendingResponses (← s.token t) n
    pure ({ s with queue }, .done)
  | .setLaneValue t lane word v => do
    let queue ← s.queue.setLaneValue (← s.token t) lane word v
    pure ({ s with queue }, .done)
  | .markResponse t => do
    let (queue, last) ← s.queue.markResponse (← s.token t)
    pure ({ s with queue }, .last last)
  | .headReady => pure (s, .ready s.queue.headReady)
  | .headLaneValue lane word => do
    let v ← s.queue.headLaneValue lane word
    pure (s, .value v)
  | .consumeHead => do
    let e ← fetch .indexOutOfRange s.queue.storage[s.queue.head]?
    let queue ← s.queue.consumeHead
    pure ({ s with queue, consumed := s.consumed ++ [(s.queue.head, e.sequence)] }, .done)

end Session

/-- One call on the window, for a queue of the given geometry; `none` when an
assertion fails or the named entry is no longer queued. -/
def windowCall (entries width warpSize : Nat) (f : Fifo (Item Unit)) :
    Call → Option (Fifo (Item Unit) × Reply)
  | .reserveTail mask pending =>
    if f.items.length < entries then some (f.push (Item.reserve () mask pending), .done) else none
  | .setPendingResponses t n => do
    let _ ← f.get? t
    pure (f.modify t (Item.await n), .done)
  | .setLaneValue t lane word v => do
    let _ ← f.get? t
    if lane < warpSize ∧ word < width then pure (f.modify t (Item.store lane word v), .done)
    else none
  | .markResponse t => do
    let i ← f.get? t
    if i.marked < i.total then pure (f.modify t Item.mark, .last (decide (i.marked + 1 = i.total)))
    else none
  | .headReady => some (f, .ready (f.items.head?.any fun i => decide i.Ready))
  | .headLaneValue lane word => do
    let i ← f.items.head?
    if i.Ready ∧ lane < warpSize ∧ word < width then pure (f, .value (i.payload lane word))
    else none
  | .consumeHead => do
    let i ← f.items.head?
    if i.Ready then pure (f.pop, .done) else none

/-- The session shows the window: its queue represents it, its tokens are those of
the tickets, and it has freed exactly the slots of the departed tickets. -/
structure Session.Shows (entries width warpSize : Nat) (s : Session) (f : Fifo (Item Unit)) :
    Prop where
  entries_eq : s.queue.entries = entries
  width_eq : s.queue.payloadWordsPerLane = width
  warpSize_eq : s.queue.warpSize = warpSize
  represents : Represents s.queue f
  tokens_length : s.tokens.length = f.pushed
  tokens_eq : ∀ t < f.pushed, s.tokens[t]? = some (s.queue.tokenAt s.key t)
  consumed_eq : s.consumed = (s.tokens.take f.popped).map fun k => (k.slotIndex, k.sequence)

namespace Session.Shows

variable {entries width warpSize : Nat} {s : Session} {f : Fifo (Item Unit)}

/-- A session on a fresh queue shows the empty window. -/
theorem start {q : Queue} (key : QueueKey)
    (h : ({} : Queue).configure entries width warpSize = .ok q)
    (hfits : warpSize * width < 2 ^ 32) :
    Shows entries width warpSize (Session.start key q) Fifo.empty := by
  obtain ⟨hrep, he, hw, hs⟩ := Represents.configure h hfits
  exact ⟨he, hw, hs, hrep, rfl, by simp, rfl⟩

/-- The session keeps the token of every live ticket. -/
theorem token_eq (h : Shows entries width warpSize s f) {t : Nat} {i : Item Unit}
    (ht : f.get? t = some i) : s.token t = .ok (s.queue.tokenAt s.key t) := by
  simp [Session.token, h.tokens_eq t (Fifo.mem_of_get? ht).2]

/-- A change of one item through its token. -/
theorem modify (h : Shows entries width warpSize s f) {q : Queue} {t : Nat}
    {g : Item Unit → Item Unit} (hrep : Represents q (f.modify t g))
    (hshape : SameShape s.queue q) :
    Shows entries width warpSize { s with queue := q } (f.modify t g) where
  entries_eq := hshape.entries_eq.trans h.entries_eq
  width_eq := hshape.width_eq.trans h.width_eq
  warpSize_eq := hshape.warpSize_eq.trans h.warpSize_eq
  represents := hrep
  tokens_length := by simpa using h.tokens_length
  tokens_eq t ht := by
    rw [hshape.tokenAt_eq]
    exact h.tokens_eq t (by simpa using ht)
  consumed_eq := by simpa using h.consumed_eq

/-- A reservation and the token it returned. -/
theorem push (h : Shows entries width warpSize s f) {q : Queue} {i : Item Unit}
    (hrep : Represents q (f.push i)) (hshape : SameShape s.queue q) :
    Shows entries width warpSize
      { s with queue := q, tokens := s.tokens ++ [s.queue.tokenAt s.key f.pushed] }
      (f.push i) where
  entries_eq := hshape.entries_eq.trans h.entries_eq
  width_eq := hshape.width_eq.trans h.width_eq
  warpSize_eq := hshape.warpSize_eq.trans h.warpSize_eq
  represents := hrep
  tokens_length := by simp [h.tokens_length]
  tokens_eq t ht := by
    rw [hshape.tokenAt_eq]
    rcases Nat.lt_or_ge t f.pushed with hlt | hge
    · rw [List.getElem?_append_left (by rw [h.tokens_length]; exact hlt)]
      exact h.tokens_eq t hlt
    · have heq : t = s.tokens.length := by
        rw [Fifo.pushed_push] at ht
        rw [h.tokens_length]
        omega
      rw [heq, List.getElem?_concat_length, h.tokens_length]
  consumed_eq := by
    have hle : f.popped ≤ s.tokens.length := by
      rw [h.tokens_length]
      exact Nat.le_add_right _ _
    simpa [List.take_append_of_le_length hle] using h.consumed_eq

/-- A consumption frees the slot of the oldest token. -/
theorem pop (h : Shows entries width warpSize s f) {q : Queue} {e : Entry} {i : Item Unit}
    (hi : f.items.head? = some i) (he : s.queue.storage[s.queue.head]? = some e)
    (hrep : Represents q f.pop) (hshape : SameShape s.queue q) :
    Shows entries width warpSize
      { s with queue := q, consumed := s.consumed ++ [(s.queue.head, e.sequence)] } f.pop where
  entries_eq := hshape.entries_eq.trans h.entries_eq
  width_eq := hshape.width_eq.trans h.width_eq
  warpSize_eq := hshape.warpSize_eq.trans h.warpSize_eq
  represents := hrep
  tokens_length := by
    have hne : f.items ≠ [] := by
      intro hnil
      simp [hnil] at hi
    rw [Fifo.pushed_pop hne]
    exact h.tokens_length
  tokens_eq t ht := by
    have hne : f.items ≠ [] := by
      intro hnil
      simp [hnil] at hi
    rw [hshape.tokenAt_eq]
    exact h.tokens_eq t (by rwa [Fifo.pushed_pop hne] at ht)
  consumed_eq := by
    have hlive : f.get? f.popped = some i := by rw [Fifo.get?_popped, hi]
    have htok := h.tokens_eq f.popped (Fifo.mem_of_get? hlive).2
    obtain ⟨e', he', hold⟩ := h.represents.entry_head hi
    obtain rfl : e = e' := by simpa [he] using he'
    rw [Fifo.popped_pop, List.take_add_one, htok, h.consumed_eq]
    simp [Queue.tokenAt, h.represents.head_eq, hold.sequence_eq]

/-- One accepted call succeeds on the ring with the same reply. -/
theorem call (h : Shows entries width warpSize s f) {c : Call} {f' : Fifo (Item Unit)}
    {r : Reply} (hc : windowCall entries width warpSize f c = some (f', r)) :
    ∃ s', s.call c = .ok (s', r) ∧ Shows entries width warpSize s' f' := by
  cases c with
  | reserveTail mask pending =>
    simp only [windowCall, Option.ite_none_right_eq_some, Option.some.injEq, Prod.mk.injEq] at hc
    obtain ⟨hroom, rfl, rfl⟩ := hc
    rw [← h.entries_eq] at hroom
    obtain ⟨q, hq, hrep, hshape⟩ := h.represents.reserveTail hroom () s.key mask pending
    exact ⟨_, by simp [Session.call, hq], h.push hrep hshape⟩
  | setPendingResponses t n =>
    simp only [windowCall, Option.bind_eq_bind, Option.bind_eq_some_iff, Option.pure_def,
      Option.some.injEq, Prod.mk.injEq] at hc
    obtain ⟨i, hi, rfl, rfl⟩ := hc
    obtain ⟨q, hq, hrep, hshape⟩ := h.represents.setPendingResponses hi s.key n
    exact ⟨_, by simp [Session.call, h.token_eq hi, hq], h.modify hrep hshape⟩
  | setLaneValue t lane word v =>
    simp only [windowCall, Option.bind_eq_bind, Option.bind_eq_some_iff, Option.pure_def,
      Option.ite_none_right_eq_some, Option.some.injEq, Prod.mk.injEq] at hc
    obtain ⟨i, hi, ⟨hlane, hword⟩, rfl, rfl⟩ := hc
    rw [← h.warpSize_eq] at hlane
    rw [← h.width_eq] at hword
    obtain ⟨q, hq, hrep, hshape⟩ := h.represents.setLaneValue hi s.key hlane hword v
    exact ⟨_, by simp [Session.call, h.token_eq hi, hq], h.modify hrep hshape⟩
  | markResponse t =>
    simp only [windowCall, Option.bind_eq_bind, Option.bind_eq_some_iff, Option.pure_def,
      Option.ite_none_right_eq_some, Option.some.injEq, Prod.mk.injEq] at hc
    obtain ⟨i, hi, hdue, rfl, rfl⟩ := hc
    obtain ⟨q, hq, hrep, hshape⟩ := h.represents.markResponse hi s.key hdue
    exact ⟨_, by simp [Session.call, h.token_eq hi, hq], h.modify hrep hshape⟩
  | headReady =>
    simp only [windowCall, Option.some.injEq, Prod.mk.injEq] at hc
    obtain ⟨rfl, rfl⟩ := hc
    have hready : s.queue.headReady = f.items.head?.any fun i => decide i.Ready := by
      rw [Bool.eq_iff_iff, h.represents.headReady_iff]
      simp [Option.any_eq_true]
    exact ⟨s, by simp [Session.call, hready], h⟩
  | headLaneValue lane word =>
    simp only [windowCall, Option.bind_eq_bind, Option.bind_eq_some_iff, Option.pure_def,
      Option.ite_none_right_eq_some, Option.some.injEq, Prod.mk.injEq] at hc
    obtain ⟨i, hi, ⟨hready, hlane, hword⟩, rfl, rfl⟩ := hc
    rw [← h.warpSize_eq] at hlane
    rw [← h.width_eq] at hword
    exact ⟨s, by simp [Session.call, h.represents.headLaneValue hi hready hlane hword], h⟩
  | consumeHead =>
    simp only [windowCall, Option.bind_eq_bind, Option.bind_eq_some_iff, Option.pure_def,
      Option.ite_none_right_eq_some, Option.some.injEq, Prod.mk.injEq] at hc
    obtain ⟨i, hi, hready, rfl, rfl⟩ := hc
    obtain ⟨e, he, _⟩ := h.represents.entry_head hi
    obtain ⟨q, hq, hrep, hshape⟩ := h.represents.consumeHead hi hready
    exact ⟨_, by simp [Session.call, he, hq], h.pop hi he hrep hshape⟩

end Session.Shows

/-- Every list of calls that the window accepts succeeds on a freshly configured
ring with the same replies: values read, ready flags and last-response flags. The
entries freed are those of the departed tickets in order, the ring represents the
window, and its head is ready exactly when the oldest item has had all responses. -/
theorem session_refines_window {entries width warpSize : Nat} {q : Queue} {key : QueueKey}
    (hconf : ({} : Queue).configure entries width warpSize = .ok q)
    (hfits : warpSize * width < 2 ^ 32) {calls : List Call} {f : Fifo (Item Unit)}
    {replies : List Reply}
    (hcalls : replay (windowCall entries width warpSize) Fifo.empty calls = some (f, replies)) :
    ∃ s, replay Session.call (Session.start key q) calls = .ok (s, replies) ∧
      s.tokens.length = f.pushed ∧
      s.consumed = (s.tokens.take f.popped).map (fun k => (k.slotIndex, k.sequence)) ∧
      Represents s.queue f ∧ s.queue.occupancy = f.items.length ∧
      (s.queue.headReady = true ↔ ∃ i, f.items.head? = some i ∧ i.marked = i.total) := by
  have hstep : ∀ s f c f' r, Session.Shows entries width warpSize s f →
      windowCall entries width warpSize f c = some (f', r) →
      ∃ s', s.call c = .ok (s', r) ∧ Session.Shows entries width warpSize s' f' :=
    fun _ _ _ _ _ hshows hc => hshows.call hc
  obtain ⟨s, hs, hshows⟩ := replay_simulates (Session.Shows entries width warpSize) hstep
    (Session.Shows.start key hconf hfits) hcalls
  exact ⟨s, hs, hshows.tokens_length, hshows.consumed_eq, hshows.represents,
    hshows.represents.occupancy_eq, hshows.represents.headReady_iff⟩

/-- Three loads through a ring of two slots, answered out of order. -/
def wrappingCalls : List Call :=
  [.reserveTail 3 0, .setLaneValue 0 1 2 7, .setPendingResponses 0 1,
    .reserveTail 3 0, .setPendingResponses 1 2, .markResponse 1, .markResponse 0,
    .headLaneValue 1 2, .consumeHead, .reserveTail 1 0, .markResponse 1, .consumeHead, .headReady]

theorem session_refines_window_wrapping :
    ∃ q s, ({} : Queue).configure 2 3 32 = .ok q ∧
      replay Session.call (Session.start {} q) wrappingCalls = .ok (s, [.done, .done, .done, .done,
        .done, .last false, .last true, .value 7, .done, .done, .last true, .done, .ready true]) ∧
      s.consumed = (s.tokens.take 2).map (fun k => (k.slotIndex, k.sequence)) := by
  obtain ⟨q, hconf⟩ : ∃ q, ({} : Queue).configure 2 3 32 = .ok q := ⟨_, rfl⟩
  obtain ⟨f, hcalls, hpopped⟩ : ∃ f, replay (windowCall 2 3 32) Fifo.empty wrappingCalls =
      some (f, [.done, .done, .done, .done, .done, .last false, .last true, .value 7, .done, .done,
        .last true, .done, .ready true]) ∧ f.popped = 2 := ⟨_, rfl, rfl⟩
  obtain ⟨s, hs, _, hconsumed, _⟩ := session_refines_window hconf (by decide) hcalls
  exact ⟨q, s, hconf, hs, hpopped ▸ hconsumed⟩

/-- A ring whose entries have 32 lanes of `2 ^ 27 + 1` words: the place of lane 31,
word `2 ^ 27 - 31` wraps to the place of lane 0, word 0. -/
def aliasingCalls : List Call :=
  [.reserveTail 0 0, .setLaneValue 0 0 0 1, .setLaneValue 0 31 (2 ^ 27 - 31) 2, .headLaneValue 0 0]

/-- The window reads the value last stored for lane 0, the ring another lane's. -/
theorem session_reads_other_lane :
    (replay (windowCall 1 (2 ^ 27 + 1) 32) Fifo.empty aliasingCalls).map Prod.snd =
        some [.done, .done, .done, .value 1] ∧
      (do
        let q ← ({} : Queue).configure 1 (2 ^ 27 + 1) 32
        let (_, replies) ← replay Session.call (Session.start {} q) aliasingCalls
        pure replies) = .ok [.done, .done, .done, .value 2] :=
  ⟨by decide, by decide⟩

end WaspSim
