import WaspSim.Queue.Representation

/-!
# The operations on a represented window

Every operation of the queue class is one operation on the window: reservation
pushes, consumption pops, and the token operations change the item whose ticket
the token carries. A token of a live ticket always finds its own entry.
-/

namespace WaspSim
namespace Represents

variable {α : Type} {q q' : Queue} {f : Fifo (Item α)} {t : Nat} {i : Item α}

/-- A queue configured for the first time represents the empty window. -/
theorem configure {entries width warpSize : Nat}
    (h : ({} : Queue).configure entries width warpSize = .ok q)
    (hfits : warpSize * width < 2 ^ 32) :
    Represents q (Fifo.empty : Fifo (Item α)) ∧
      q.entries = entries ∧ q.payloadWordsPerLane = width ∧ q.warpSize = warpSize := by
  simp only [Queue.configure, Queue.configured, lt_self_iff_false, decide_false,
    Bool.false_eq_true, ↓reduceIte, bind_eq_ok, require_eq_ok, pure_eq_ok] at h
  obtain ⟨_, hentries, _, _, _, _, rfl⟩ := h
  refine ⟨⟨hentries, by simp, by simp, rfl, by simp [u32], hfits, ?_, .zero⟩, rfl, rfl, rfl⟩
  refine Ring.Shows.empty (by simp) fun e he => ?_
  rw [List.eq_of_mem_replicate he]
  exact ⟨rfl, rfl, rfl, by simp [u32_eq_self hfits]⟩

/-- A configured queue accepts exactly its own sizes again, and is unchanged. -/
theorem configure_again (h : Represents q f) {entries width warpSize : Nat} :
    q.configure entries width warpSize = .ok q' ↔
      q' = q ∧ q.entries = entries ∧ q.payloadWordsPerLane = width ∧ q.warpSize = warpSize := by
  have hpos := h.entries_pos
  simp only [Queue.configure, Queue.configured, hpos, decide_true, ↓reduceIte, bind_eq_ok,
    require_eq_ok, pure_eq_ok]
  constructor
  · rintro ⟨_, he, _, hw, _, hs, rfl⟩
    exact ⟨rfl, he, hw, hs⟩
  · rintro ⟨rfl, he, hw, hs⟩
    exact ⟨(), he, (), hw, (), hs, rfl⟩

theorem full_eq_false_iff (h : Represents q f) :
    q.full = false ↔ f.items.length < q.entries := by
  simp [Queue.full, h.occupancy_eq]

/-- The queue is empty exactly when the window is. -/
theorem empty_iff (h : Represents q f) : q.empty = true ↔ f.items = [] := by
  simp [Queue.empty, h.occupancy_eq]

theorem empty_eq_false_iff (h : Represents q f) : q.empty = false ↔ f.items ≠ [] := by
  simp [Queue.empty, h.occupancy_eq]

/-- The slot of a live ticket. -/
theorem entry (h : Represents q f) (ht : f.get? t = some i) :
    ∃ e, q.storage[t % q.entries]? = some e ∧
      EntryHolds q.payloadWordsPerLane q.warpSize t i e :=
  h.shows.liveAt t i ht

/-- The head slot shows the oldest item. -/
theorem entry_head (h : Represents q f) (hi : f.items.head? = some i) :
    ∃ e, q.storage[q.head]? = some e ∧
      EntryHolds q.payloadWordsPerLane q.warpSize f.popped i e := by
  rw [h.head_eq]
  exact h.entry (by rw [Fifo.get?_popped, hi])

/-- The token of a live ticket finds the entry of that ticket. -/
theorem entryForToken (h : Represents q f) (ht : f.get? t = some i) (key : QueueKey) :
    ∃ e, q.entryForToken (q.tokenAt key t) = .ok e ∧
      q.storage[t % q.entries]? = some e ∧
      EntryHolds q.payloadWordsPerLane q.warpSize t i e := by
  obtain ⟨e, he, hold⟩ := h.entry ht
  refine ⟨e, ?_, he, hold⟩
  simp [Queue.entryForToken, Queue.tokenAt, Nat.mod_lt _ h.entries_pos, he, hold.sequence_eq]

/-- A live ticket is one of the last `entries` tickets. -/
theorem pushed_le (h : Represents q f) (ht : f.get? t = some i) : f.pushed ≤ t + q.entries := by
  have hlo := (Fifo.mem_of_get? ht).1
  have hb := h.shows.bounded
  unfold Fifo.pushed
  omega

/-- Rewriting the slot of a live ticket changes its item alone. -/
theorem setEntry (h : Represents q f) (ht : f.get? t = some i) {g : Item α → Item α} {e : Entry}
    (he : EntryHolds q.payloadWordsPerLane q.warpSize t (g i) e) :
    Represents (q.setEntry (t % q.entries) e) (f.modify t g) where
  entries_pos := h.entries_pos
  head_eq := h.head_eq
  tail_eq := by simpa [Queue.setEntry] using h.tail_eq
  occupancy_eq := by simpa [Queue.setEntry] using h.occupancy_eq
  nextSequence_eq := by simpa [Queue.setEntry] using h.nextSequence_eq
  fits := h.fits
  shows := h.shows.modify ht he
  recent := by
    rw [Fifo.pushed_modify]
    exact h.recent.set (Fifo.mem_of_get? ht).2 (h.pushed_le ht) he.sequence_eq

/-- A reservation pushes a fresh item, whose ticket is in the returned token. -/
theorem reserveTail (h : Represents q f) (hroom : f.items.length < q.entries) (owner : α)
    (key : QueueKey) (mask : ActiveMask) (pending : Nat) :
    ∃ q', q.reserveTail key mask pending = .ok (q', q.tokenAt key f.pushed) ∧
      Represents q' (f.push (Item.reserve owner mask pending)) ∧ SameShape q q' := by
  obtain ⟨e, he, hfree⟩ := h.shows.free_tail hroom
  have hconf : q.configured = true := by simpa [Queue.configured] using h.entries_pos
  have hfull : q.full = false := h.full_eq_false_iff.mpr hroom
  let e' : Entry := { e with
    state := Queue.stateFor pending
    sequence := q.nextSequence
    pendingResponses := pending
    payloadWordsPerLane := q.payloadWordsPerLane
    activeMask := mask
    lanePayload := List.replicate e.lanePayload.length 0 }
  have hold : EntryHolds q.payloadWordsPerLane q.warpSize f.pushed
      (Item.reserve owner mask pending) e' := by
    refine ⟨h.nextSequence_eq, Nat.zero_le _, rfl, rfl, rfl, rfl, ?_, fun lane word hl hw => ?_⟩
    · simpa [e'] using hfree.length_eq
    · have hlt := (payloadIndex_eq h.fits hl hw).1
      simp [e', Item.reserve, hfree.length_eq, hlt]
  refine ⟨{ q.setEntry (f.pushed % q.entries) e' with
    nextSequence := u32 (q.nextSequence + 1)
    tail := (q.tail + 1) % q.entries
    occupancy := q.occupancy + 1 }, ?_, ?_, ⟨rfl, rfl, rfl⟩⟩
  · simp [Queue.reserveTail, hconf, hfull, h.tail_eq, he, hfree.state_eq, Queue.tokenAt, e',
      h.nextSequence_eq, require, fetch, bind, Except.bind, pure, Except.pure]
  · exact {
      entries_pos := h.entries_pos
      head_eq := h.head_eq
      tail_eq := by simp [h.tail_eq, Queue.setEntry]
      occupancy_eq := by simp [h.occupancy_eq]
      nextSequence_eq := by simp [h.nextSequence_eq, u32_succ]
      fits := h.fits
      shows := h.shows.push hroom hold
      recent := by
        rw [Fifo.pushed_push]
        exact h.recent.succ h.shows.size h.entries_pos hold.sequence_eq }

/-- Setting the response count of a live token makes its item wait anew. -/
theorem setPendingResponses (h : Represents q f) (ht : f.get? t = some i) (key : QueueKey)
    (n : Nat) :
    ∃ q', q.setPendingResponses (q.tokenAt key t) n = .ok q' ∧
      Represents q' (f.modify t (Item.await n)) ∧ SameShape q q' := by
  obtain ⟨e, hfind, _, hold⟩ := h.entryForToken ht key
  refine ⟨q.setEntry (t % q.entries)
    { e with pendingResponses := n, state := Queue.stateFor n },
    by simp [Queue.setPendingResponses, hfind], h.setEntry ht ?_, ⟨rfl, rfl, rfl⟩⟩
  exact ⟨hold.sequence_eq, Nat.zero_le _, rfl, rfl, hold.width_eq, hold.mask_eq, hold.length_eq,
    hold.payload_eq⟩

/-- The token of a recent ticket finds its slot, freed or not. -/
theorem entryForToken_recent (h : Represents q f) (hlt : t < f.pushed)
    (hn : f.pushed ≤ t + q.entries) (key : QueueKey) :
    ∃ e, q.entryForToken (q.tokenAt key t) = .ok e ∧ q.storage[t % q.entries]? = some e ∧
      e.sequence = u32 (t + 1) := by
  obtain ⟨e, he, hseq⟩ := h.recent t hlt hn
  refine ⟨e, ?_, he, hseq⟩
  simp [Queue.entryForToken, Queue.tokenAt, Nat.mod_lt _ h.entries_pos, he, hseq]

/-- A live token has responses outstanding until its item is ready. -/
theorem hasPendingResponses (h : Represents q f) (ht : f.get? t = some i) (key : QueueKey) :
    q.hasPendingResponses (q.tokenAt key t) = .ok (!decide i.Ready) := by
  obtain ⟨e, hfind, _, hold⟩ := h.entryForToken ht key
  have hle := hold.marked_le
  have hiff : 0 < i.total - i.marked ↔ ¬i.Ready := by
    unfold Item.Ready
    omega
  simp only [Queue.hasPendingResponses, hfind, bind_eq_ok, pure_eq_ok]
  refine ⟨e, rfl, ?_⟩
  rw [← decide_not, decide_eq_decide, hold.pending_eq]
  exact hiff

/-- Marking a live token with a response outstanding marks its item, and reports
whether that was the last one. -/
theorem markResponse (h : Represents q f) (ht : f.get? t = some i) (key : QueueKey)
    (hdue : i.marked < i.total) :
    ∃ q', q.markResponse (q.tokenAt key t) = .ok (q', decide (i.marked + 1 = i.total)) ∧
      Represents q' (f.modify t Item.mark) ∧ SameShape q q' := by
  obtain ⟨e, hfind, _, hold⟩ := h.entryForToken ht key
  have hpending : e.pendingResponses = i.total - i.marked := hold.pending_eq
  have hstate : ¬e.state = .reserved → e.state = .ready := by
    rw [hold.state_eq]
    unfold Queue.stateFor
    split <;> simp
  have hpos : ¬e.pendingResponses = 0 := by omega
  by_cases hlast : i.marked + 1 = i.total
  · have hzero : e.pendingResponses - 1 = 0 := by omega
    refine ⟨q.setEntry (t % q.entries)
      { e with pendingResponses := e.pendingResponses - 1, state := .ready }, ?_,
      h.setEntry ht ?_, ⟨rfl, rfl, rfl⟩⟩
    · simpa [Queue.markResponse, hfind, require, hzero, hlast] using ⟨hstate, hpos⟩
    · refine ⟨hold.sequence_eq, by simp only [Item.mark]; omega,
        by simp only [Item.mark]; omega, ?_, hold.width_eq, hold.mask_eq, hold.length_eq,
        hold.payload_eq⟩
      simp [Queue.stateFor, hzero]
  · have hzero : ¬e.pendingResponses - 1 = 0 := by omega
    refine ⟨q.setEntry (t % q.entries)
      { e with pendingResponses := e.pendingResponses - 1 }, ?_,
      h.setEntry ht ?_, ⟨rfl, rfl, rfl⟩⟩
    · simpa [Queue.markResponse, hfind, require, hzero, hlast] using ⟨hstate, hpos⟩
    · refine ⟨hold.sequence_eq, by simp only [Item.mark]; omega,
        by simp only [Item.mark]; omega, ?_, hold.width_eq, hold.mask_eq, hold.length_eq,
        hold.payload_eq⟩
      simp [hold.state_eq, Queue.stateFor, hzero, hpos]

/-- Marking a live token succeeds only while a response is outstanding. -/
theorem due_of_markResponse (h : Represents q f) (ht : f.get? t = some i) {key : QueueKey}
    {last : Bool} (hm : q.markResponse (q.tokenAt key t) = .ok (q', last)) :
    i.marked < i.total := by
  obtain ⟨e, hfind, _, hold⟩ := h.entryForToken ht key
  simp only [Queue.markResponse, hfind, bind_eq_ok, require_eq_ok, Except.ok.injEq] at hm
  obtain ⟨_, rfl, _, _, _, hpos, _⟩ := hm
  rw [hold.pending_eq] at hpos
  omega

/-- A token that finds the entry of a live ticket's slot acts as the ticket's own. -/
private theorem entryForToken_slot (h : Represents q f) (ht : f.get? t = some i) {token : Token}
    {e : Entry} (hslot : token.slotIndex = t % q.entries) (he : q.entryForToken token = .ok e) :
    q.entryForToken (q.tokenAt token.key t) = .ok e := by
  obtain ⟨e', hfind, hstored, _⟩ := h.entryForToken ht token.key
  simp only [Queue.entryForToken, bind_eq_ok, require_eq_ok, fetch_eq_ok, pure_eq_ok] at he
  obtain ⟨_, _, _, _, e₁, he₁, _, _, rfl⟩ := he
  rw [hslot, hstored, Option.some.injEq] at he₁
  rw [hfind, he₁]

/-- Whatever token it is given, a mark that succeeds marks the live item in the slot of
the token. -/
theorem live_of_markResponse (h : Represents q f) {token : Token} {last : Bool}
    (hm : q.markResponse token = .ok (q', last)) :
    ∃ t i, f.get? t = some i ∧ token.slotIndex = t % q.entries ∧ i.marked < i.total ∧
      last = decide (i.marked + 1 = i.total) ∧ Represents q' (f.modify t Item.mark) ∧
      SameShape q q' := by
  have hm' := hm
  simp only [Queue.markResponse, bind_eq_ok, require_eq_ok] at hm'
  obtain ⟨e, he, _, hstate, _⟩ := hm'
  have hstored : q.storage[token.slotIndex]? = some e := by
    simp only [Queue.entryForToken, bind_eq_ok, require_eq_ok, fetch_eq_ok, pure_eq_ok] at he
    obtain ⟨_, _, _, _, e₁, he₁, _, _, rfl⟩ := he
    exact he₁
  obtain ⟨t, hlive, hslot⟩ : ∃ t, (f.get? t).isSome ∧ t % q.entries = token.slotIndex := by
    by_contra hnone
    have hfree := h.shows.freeAt _ _ hstored fun t ht heq => hnone ⟨t, ht, heq⟩
    simp [hfree.state_eq] at hstate
  obtain ⟨i, hi⟩ := Option.isSome_iff_exists.mp hlive
  have hsame : q.markResponse (q.tokenAt token.key t) = q.markResponse token := by
    simp [Queue.markResponse, h.entryForToken_slot hi hslot.symm he, he, hslot]
  have hdue := h.due_of_markResponse hi (hsame.trans hm)
  obtain ⟨q₁, hq₁, hrep, hshape⟩ := h.markResponse hi token.key hdue
  rw [hsame, hm, Except.ok.injEq, Prod.mk.injEq] at hq₁
  obtain ⟨rfl, rfl⟩ := hq₁
  exact ⟨t, i, hi, hslot.symm, hdue, rfl, hrep, hshape⟩

/-- Whatever token it is given, an answer about pending responses is about the live item
in the slot of the token. -/
theorem ready_of_hasPendingResponses (h : Represents q f) (ht : f.get? t = some i)
    {token : Token} {pending : Bool} (hslot : token.slotIndex = t % q.entries)
    (hp : q.hasPendingResponses token = .ok pending) : pending = !decide i.Ready := by
  have hp' := hp
  simp only [Queue.hasPendingResponses, bind_eq_ok] at hp'
  obtain ⟨e, he, _⟩ := hp'
  have hown := h.hasPendingResponses ht token.key
  simp only [Queue.hasPendingResponses, h.entryForToken_slot ht hslot he, he] at hown hp
  rw [hp, Except.ok.injEq] at hown
  exact hown

/-- The head is ready exactly when the oldest item is. -/
theorem headReady_iff (h : Represents q f) :
    q.headReady = true ↔ ∃ i, f.items.head? = some i ∧ i.Ready := by
  cases hitems : f.items.head? with
  | none =>
    have hempty : q.empty = true := h.empty_iff.mpr (List.head?_eq_none_iff.mp hitems)
    simp [Queue.headReady, hempty]
  | some i =>
    have hne : f.items ≠ [] := by
      intro hnil
      simp [hnil] at hitems
    obtain ⟨e, he, hold⟩ := h.entry_head hitems
    have hready : e.state = .ready ↔ i.Ready := by
      have hle := hold.marked_le
      rw [hold.state_eq, hold.pending_eq]
      unfold Queue.stateFor Item.Ready
      split
      · simp only [true_iff]
        omega
      · simp only [reduceCtorEq, false_iff]
        omega
    simp [Queue.headReady, h.empty_eq_false_iff.mpr hne, he, hready]

/-- Consuming removes the oldest item, which must be ready. -/
theorem consumeHead (h : Represents q f) (hi : f.items.head? = some i) (hready : i.Ready) :
    ∃ q', q.consumeHead = .ok q' ∧ Represents q' f.pop ∧ SameShape q q' := by
  obtain ⟨e, he, hold⟩ := h.entry_head hi
  have hne : f.items ≠ [] := by
    intro hnil
    simp [hnil] at hi
  have hempty : q.empty = false := h.empty_eq_false_iff.mpr hne
  have hstate : e.state = .ready := by
    have heq : i.marked = i.total := hready
    rw [hold.state_eq, hold.pending_eq, heq]
    simp [Queue.stateFor]
  let e' : Entry := { e with
    state := .free
    pendingResponses := 0
    activeMask := 0
    lanePayload := List.replicate e.lanePayload.length 0 }
  have hfree : EntryFree q.payloadWordsPerLane q.warpSize e' :=
    ⟨rfl, rfl, rfl, by simpa [e'] using hold.length_eq⟩
  refine ⟨{ q.setEntry q.head e' with
    head := (q.head + 1) % q.entries
    occupancy := q.occupancy - 1 }, ?_, ?_, ⟨rfl, rfl, rfl⟩⟩
  · simp [Queue.consumeHead, hempty, he, hstate, require, e']
  · have hpushed : f.pop.pushed = f.pushed := Fifo.pushed_pop hne
    exact {
      entries_pos := h.entries_pos
      head_eq := by simp [h.head_eq, Queue.setEntry]
      tail_eq := by rw [hpushed]; exact h.tail_eq
      occupancy_eq := by simp [h.occupancy_eq]
      nextSequence_eq := by rw [hpushed]; exact h.nextSequence_eq
      fits := h.fits
      shows := by
        have hs := h.shows.pop hne hfree
        rw [← h.head_eq] at hs
        exact hs
      recent := by
        have hlive : f.get? f.popped = some i := by rw [Fifo.get?_popped, hi]
        have hs := h.recent.set (Fifo.mem_of_get? hlive).2 (h.pushed_le hlive)
          (e := e') hold.sequence_eq
        rw [hpushed]
        rw [← h.head_eq] at hs
        exact hs }

/-- Storing a lane's word through a live token changes that value of its item alone. -/
theorem setLaneValue (h : Represents q f) (ht : f.get? t = some i) (key : QueueKey)
    {lane word : Nat} (hlane : lane < q.warpSize) (hword : word < q.payloadWordsPerLane)
    (v : BitVec 64) :
    ∃ q', q.setLaneValue (q.tokenAt key t) lane word v = .ok q' ∧
      Represents q' (f.modify t (Item.store lane word v)) ∧ SameShape q q' := by
  obtain ⟨e, hfind, _, hold⟩ := h.entryForToken ht key
  obtain ⟨hlt, hindex⟩ := payloadIndex_eq h.fits hlane hword
  have hwidth : word < e.payloadWordsPerLane := by rw [hold.width_eq]; exact hword
  have hlen : lane * q.payloadWordsPerLane + word < e.lanePayload.length := by
    rw [hold.length_eq]
    exact hlt
  refine ⟨q.setEntry (t % q.entries)
    { e with lanePayload := e.lanePayload.set (lane * q.payloadWordsPerLane + word) v }, ?_,
    h.setEntry ht ?_, ⟨rfl, rfl, rfl⟩⟩
  · simp [Queue.setLaneValue, hfind, require, hlane, hword, hold.width_eq, hindex, hlen]
  · refine ⟨hold.sequence_eq, hold.marked_le, hold.pending_eq, hold.state_eq, hold.width_eq,
      hold.mask_eq, by simpa using hold.length_eq, fun l w hl hw => ?_⟩
    by_cases hsame : l = lane ∧ w = word
    · obtain ⟨rfl, rfl⟩ := hsame
      simp [Item.store, hlen]
    · have hne : lane * q.payloadWordsPerLane + word ≠ l * q.payloadWordsPerLane + w := by
        intro heq
        obtain ⟨h₁, h₂⟩ := place_inj hword hw heq
        exact hsame ⟨h₁.symm, h₂.symm⟩
      simp only [Item.store, hsame, ↓reduceIte]
      rw [List.getElem?_set_ne hne]
      exact hold.payload_eq l w hl hw

/-- Storing through a live token succeeds only for a lane of the warp and a word
of the payload. -/
theorem range_of_setLaneValue (h : Represents q f) (ht : f.get? t = some i) {key : QueueKey}
    {lane word : Nat} {v : BitVec 64}
    (hs : q.setLaneValue (q.tokenAt key t) lane word v = .ok q') :
    lane < q.warpSize ∧ word < q.payloadWordsPerLane := by
  obtain ⟨e, hfind, _, hold⟩ := h.entryForToken ht key
  simp only [Queue.setLaneValue, hfind, bind_eq_ok, require_eq_ok, Except.ok.injEq] at hs
  obtain ⟨_, rfl, _, hlane, _, hword, _⟩ := hs
  exact ⟨hlane, by rwa [hold.width_eq] at hword⟩

/-- Reading the head reads the value last stored in the oldest item. -/
theorem headLaneValue (h : Represents q f) (hi : f.items.head? = some i) (hready : i.Ready)
    {lane word : Nat} (hlane : lane < q.warpSize) (hword : word < q.payloadWordsPerLane) :
    q.headLaneValue lane word = .ok (i.payload lane word) := by
  obtain ⟨e, he, hold⟩ := h.entry_head hi
  obtain ⟨_, hindex⟩ := payloadIndex_eq h.fits hlane hword
  have hhead : q.headReady = true := h.headReady_iff.mpr ⟨i, hi, hready⟩
  simp [Queue.headLaneValue, hhead, he, hlane, hword, hold.width_eq, hindex,
    hold.payload_eq lane word hlane hword]

/-- Reading the head succeeds only on a ready head, for a lane of the warp and a
word of the payload. -/
theorem range_of_headLaneValue (h : Represents q f) {lane word : Nat} {v : BitVec 64}
    (hv : q.headLaneValue lane word = .ok v) :
    (∃ i, f.items.head? = some i ∧ i.Ready) ∧ lane < q.warpSize ∧
      word < q.payloadWordsPerLane := by
  simp only [Queue.headLaneValue, bind_eq_ok, require_eq_ok, fetch_eq_ok] at hv
  obtain ⟨_, hhead, e, he, _, hlane, _, hword, _⟩ := hv
  obtain ⟨i, hi, hready⟩ := h.headReady_iff.mp hhead
  obtain ⟨e', he', hold⟩ := h.entry_head hi
  obtain rfl : e = e' := by simpa [he] using he'
  exact ⟨⟨i, hi, hready⟩, hlane, by rwa [hold.width_eq] at hword⟩

end Represents
end WaspSim
