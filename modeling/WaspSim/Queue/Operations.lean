import WaspSim.Queue.State

/-!
# Queue operations

The member functions of the queue class and of its table. An operation that
changes the queue returns the changed queue, and one whose assertion fails
returns the `Halt` of that assertion.
-/

namespace WaspSim
namespace Queue

/-- `configured`. -/
def configured (q : Queue) : Bool := 0 < q.entries

/-- `full`. -/
def full (q : Queue) : Bool := q.entries ≤ q.occupancy

/-- `empty`. -/
def empty (q : Queue) : Bool := q.occupancy == 0

/-- `configure`: the first call sizes the ring, later calls must agree with it. -/
def configure (q : Queue) (entries payloadWordsPerLane warpSize : Nat) : Except Halt Queue :=
  if q.configured then do
    require .reconfigured (q.entries = entries)
    require .reconfigured (q.payloadWordsPerLane = payloadWordsPerLane)
    require .reconfigured (q.warpSize = warpSize)
    pure q
  else do
    require .zeroSize (0 < entries)
    require .zeroSize (0 < payloadWordsPerLane)
    require .zeroSize (0 < warpSize)
    let lanePayload := List.replicate (u32 (warpSize * payloadWordsPerLane)) 0
    pure { q with
      entries, payloadWordsPerLane, warpSize
      storage := List.replicate entries { lanePayload } }

/-- `head_ready`. -/
def headReady (q : Queue) : Bool :=
  !q.empty && (q.storage[q.head]?).any fun e => e.state == .ready

/-- `ready_count`. -/
def readyCount (q : Queue) : Nat := q.storage.countP fun e => e.state == .ready

/-- `pending_count`. -/
def pendingCount (q : Queue) : Nat := q.storage.countP fun e => e.state == .reserved

/-- The responses that the entries of the window wait for. -/
def outstanding (q : Queue) : Nat :=
  (q.storage.map fun e => if e.state = .free then 0 else e.pendingResponses).sum

/-- The state of an entry that waits for `pendingResponses` responses. -/
def stateFor (pendingResponses : Nat) : EntryState :=
  if pendingResponses = 0 then .ready else .reserved

/-- `entry_for_token`: the slot of a token, which must still carry its sequence. -/
def entryForToken (q : Queue) (token : Token) : Except Halt Entry := do
  require .tokenInvalid (token.valid = true)
  require .slotOutOfRange (token.slotIndex < q.entries)
  let e ← fetch .indexOutOfRange q.storage[token.slotIndex]?
  require .staleToken (e.sequence = token.sequence)
  pure e

/-- Write a slot of the ring. -/
def setEntry (q : Queue) (slot : Nat) (e : Entry) : Queue :=
  { q with storage := q.storage.set slot e }

/-- `reserve_tail`. -/
def reserveTail (q : Queue) (key : QueueKey) (activeMask : ActiveMask)
    (pendingResponses : Nat) : Except Halt (Queue × Token) := do
  require .notConfigured (q.configured = true)
  require .queueFull (q.full = false)
  let e ← fetch .indexOutOfRange q.storage[q.tail]?
  require .slotNotFree (e.state = .free)
  let e := { e with
    state := stateFor pendingResponses
    sequence := q.nextSequence
    pendingResponses
    payloadWordsPerLane := q.payloadWordsPerLane
    activeMask
    lanePayload := List.replicate e.lanePayload.length 0 }
  let token :=
    { key, slotIndex := q.tail, sequence := e.sequence,
      payloadWordsPerLane := q.payloadWordsPerLane, valid := true }
  pure ({ q.setEntry q.tail e with
    nextSequence := u32 (q.nextSequence + 1)
    tail := (q.tail + 1) % q.entries
    occupancy := q.occupancy + 1 }, token)

/-- `set_pending_responses`. -/
def setPendingResponses (q : Queue) (token : Token) (pendingResponses : Nat) :
    Except Halt Queue := do
  let e ← q.entryForToken token
  pure (q.setEntry token.slotIndex
    { e with pendingResponses, state := stateFor pendingResponses })

/-- `has_pending_responses`. -/
def hasPendingResponses (q : Queue) (token : Token) : Except Halt Bool := do
  let e ← q.entryForToken token
  pure (0 < e.pendingResponses)

/-- `mark_response`: the flag is true on the last response. -/
def markResponse (q : Queue) (token : Token) : Except Halt (Queue × Bool) := do
  let e ← q.entryForToken token
  require .entryFree (e.state = .reserved ∨ e.state = .ready)
  require .noResponseDue (0 < e.pendingResponses)
  let e := { e with pendingResponses := e.pendingResponses - 1 }
  if e.pendingResponses = 0 then
    pure (q.setEntry token.slotIndex { e with state := .ready }, true)
  else
    pure (q.setEntry token.slotIndex e, false)

/-- A marked entry is still found. -/
theorem entryForToken_of_markResponse {q q' : Queue} {token : Token} {last : Bool}
    (h : q.markResponse token = .ok (q', last)) : ∃ e, q'.entryForToken token = .ok e := by
  simp only [markResponse, bind_eq_ok] at h
  obtain ⟨e, he, _, _, _, _, h⟩ := h
  simp only [entryForToken, bind_eq_ok, require_eq_ok, fetch_eq_ok, pure_eq_ok] at he
  obtain ⟨_, hvalid, _, hslot, e', hget, _, hseq, rfl⟩ := he
  have hlt := (List.getElem?_eq_some_iff.mp hget).1
  have hfound : ∀ e₁ : Entry, e₁.sequence = e'.sequence →
      ∃ e, (q.setEntry token.slotIndex e₁).entryForToken token = .ok e := by
    intro e₁ he₁
    exact ⟨e₁, by simp [entryForToken, setEntry, require, fetch, hvalid, hslot, hlt, he₁, hseq]⟩
  split at h
  · simp only [pure_eq_ok, Prod.mk.injEq] at h
    exact h.1 ▸ hfound _ rfl
  · simp only [pure_eq_ok, Prod.mk.injEq] at h
    exact h.1 ▸ hfound _ rfl

/-- `consume_head`, which ignores the key it is given. -/
def consumeHead (q : Queue) : Except Halt Queue := do
  require .queueEmpty (q.empty = false)
  let e ← fetch .indexOutOfRange q.storage[q.head]?
  require .headNotReady (e.state = .ready)
  let e := { e with
    state := .free
    pendingResponses := 0
    activeMask := 0
    lanePayload := List.replicate e.lanePayload.length 0 }
  pure { q.setEntry q.head e with
    head := (q.head + 1) % q.entries
    occupancy := q.occupancy - 1 }

/-- The place of a lane's word in `lane_payload`. -/
def payloadIndex (payloadWordsPerLane lane word : Nat) : Nat :=
  u32 (lane * payloadWordsPerLane + word)

/-- `set_lane_value`. -/
def setLaneValue (q : Queue) (token : Token) (lane word : Nat) (value : BitVec 64) :
    Except Halt Queue := do
  let e ← q.entryForToken token
  require .laneOutOfRange (lane < q.warpSize)
  require .wordOutOfRange (word < e.payloadWordsPerLane)
  let index := payloadIndex e.payloadWordsPerLane lane word
  require .indexOutOfRange (index < e.lanePayload.length)
  pure (q.setEntry token.slotIndex { e with lanePayload := e.lanePayload.set index value })

/-- `head_lane_value`. -/
def headLaneValue (q : Queue) (lane word : Nat) : Except Halt (BitVec 64) := do
  require .headNotReady (q.headReady = true)
  let e ← fetch .indexOutOfRange q.storage[q.head]?
  require .laneOutOfRange (lane < q.warpSize)
  require .wordOutOfRange (word < e.payloadWordsPerLane)
  fetch .indexOutOfRange e.lanePayload[payloadIndex e.payloadWordsPerLane lane word]?

end Queue

namespace QueueTable

/-- `get_or_create`: the queue under a key, which is created when it is missing. -/
def getOrCreate (t : QueueTable) (key : QueueKey) (entries payloadWordsPerLane warpSize : Nat) :
    Except Halt (QueueTable × Queue) := do
  let queue ← ((t.lookup key).getD {}).configure entries payloadWordsPerLane warpSize
  pure (t.insert key queue, queue)

/-- `find`, for callers that assert its result. -/
def find (t : QueueTable) (key : QueueKey) : Except Halt Queue :=
  fetch .noQueue (t.lookup key)

/-- `erase_cta`: drop every queue of a hardware CTA. -/
def eraseCta (t : QueueTable) (ctaHwId : Nat) : QueueTable :=
  ⟨t.entries.filter fun e => e.1.ctaHwId != ctaHwId,
    t.nodupKeys.sublist List.filter_sublist⟩

/-- The sum of a measure over the queues of a table. -/
def total (g : Queue → Nat) (t : QueueTable) : Nat := (t.entries.map fun e => g e.2).sum

/-- The queues of a table that another table no longer has. -/
def without (t t' : QueueTable) : QueueTable :=
  ⟨t.entries.filter fun e => e.1 ∉ t', t.nodupKeys.sublist List.filter_sublist⟩

end QueueTable
end WaspSim
