import WaspSim.Core.Ring
import WaspSim.Queue.Operations

/-!
# The window a queue represents

Abstractly a queue is a first-in first-out window of items, each counting the
responses it waits for and holding one value for every lane and word. The ring
represents the window: ticket `t` lives in slot `t % entries` under sequence
`t + 1`, and the slots of no ticket are cleared. Each operation has one lemma
giving its result on a represented window; none looks at other slots.
-/

namespace WaspSim

/-- One queued load, labelled by whoever reserved it. -/
structure Item (α : Type) where
  /-- The load that reserved the entry. -/
  owner : α
  /-- The responses the entry waits for in all. -/
  total : Nat
  /-- The responses marked so far. -/
  marked : Nat
  /-- The lanes active at the reservation. -/
  mask : ActiveMask
  /-- The value of every lane and word. -/
  payload : Nat → Nat → BitVec 64

namespace Item

variable {α : Type}

/-- The item of a reservation. -/
def reserve (owner : α) (mask : ActiveMask) (pending : Nat) : Item α :=
  ⟨owner, pending, 0, mask, fun _ _ => 0⟩

/-- Wait for a new number of responses. -/
def await (n : Nat) (i : Item α) : Item α := { i with total := n, marked := 0 }

/-- One more response. -/
def mark (i : Item α) : Item α := { i with marked := i.marked + 1 }

/-- Store one lane's word. -/
def store (lane word : Nat) (v : BitVec 64) (i : Item α) : Item α :=
  { i with payload := fun l w => if l = lane ∧ w = word then v else i.payload l w }

/-- All responses have been marked. -/
def Ready (i : Item α) : Prop := i.marked = i.total

instance (i : Item α) : Decidable i.Ready := inferInstanceAs (Decidable (_ = _))

end Item

/-- The slot content `e` shows item `i` under ticket `t`. -/
structure EntryHolds {α : Type} (width warpSize t : Nat) (i : Item α) (e : Entry) : Prop where
  sequence_eq : e.sequence = u32 (t + 1)
  marked_le : i.marked ≤ i.total
  pending_eq : e.pendingResponses = i.total - i.marked
  state_eq : e.state = Queue.stateFor e.pendingResponses
  width_eq : e.payloadWordsPerLane = width
  mask_eq : e.activeMask = i.mask
  length_eq : e.lanePayload.length = warpSize * width
  payload_eq : ∀ lane word, lane < warpSize → word < width →
    e.lanePayload[lane * width + word]? = some (i.payload lane word)

/-- The slot is cleared. -/
structure EntryFree (width warpSize : Nat) (e : Entry) : Prop where
  state_eq : e.state = .free
  pending_eq : e.pendingResponses = 0
  mask_eq : e.activeMask = 0
  length_eq : e.lanePayload.length = warpSize * width

/-- The queue `q` represents the window `f`. -/
structure Represents {α : Type} (q : Queue) (f : Fifo (Item α)) : Prop where
  entries_pos : 0 < q.entries
  head_eq : q.head = f.popped % q.entries
  tail_eq : q.tail = f.pushed % q.entries
  occupancy_eq : q.occupancy = f.items.length
  nextSequence_eq : q.nextSequence = u32 (f.pushed + 1)
  /-- The payload of one entry can be indexed by an `unsigned`. -/
  fits : q.warpSize * q.payloadWordsPerLane < 2 ^ 32
  shows : Ring.Shows q.entries (EntryHolds q.payloadWordsPerLane q.warpSize)
    (EntryFree q.payloadWordsPerLane q.warpSize) q.storage f
  /-- A freed slot keeps the sequence of its last ticket until it is reserved again. -/
  recent : Ring.Stamped q.entries (fun t e => e.sequence = u32 (t + 1)) q.storage f.pushed

/-- Two queues of one geometry. -/
structure SameShape (q q' : Queue) : Prop where
  entries_eq : q'.entries = q.entries
  width_eq : q'.payloadWordsPerLane = q.payloadWordsPerLane
  warpSize_eq : q'.warpSize = q.warpSize

theorem SameShape.refl (q : Queue) : SameShape q q := ⟨rfl, rfl, rfl⟩

theorem SameShape.trans {a b c : Queue} (hab : SameShape a b) (hbc : SameShape b c) :
    SameShape a c :=
  ⟨hbc.entries_eq.trans hab.entries_eq, hbc.width_eq.trans hab.width_eq,
    hbc.warpSize_eq.trans hab.warpSize_eq⟩

/-- The token that the reservation of ticket `t` was given. -/
def Queue.tokenAt (q : Queue) (key : QueueKey) (t : Nat) : Token :=
  { key, slotIndex := t % q.entries, sequence := u32 (t + 1),
    payloadWordsPerLane := q.payloadWordsPerLane, valid := true }

@[simp] theorem Queue.slotIndex_tokenAt (q : Queue) (key : QueueKey) (t : Nat) :
    (q.tokenAt key t).slotIndex = t % q.entries := rfl

theorem SameShape.tokenAt_eq {q q' : Queue} (h : SameShape q q') (key : QueueKey) (t : Nat) :
    q'.tokenAt key t = q.tokenAt key t := by
  simp [Queue.tokenAt, h.entries_eq, h.width_eq]

/-- Lane words have distinct places below the length of the payload. -/
theorem payloadIndex_eq {width warpSize lane word : Nat} (hfits : warpSize * width < 2 ^ 32)
    (hlane : lane < warpSize) (hword : word < width) :
    lane * width + word < warpSize * width ∧
      Queue.payloadIndex width lane word = lane * width + word := by
  have hlt : lane * width + word < warpSize * width :=
    calc lane * width + word < lane * width + width := by omega
      _ = (lane + 1) * width := by rw [Nat.succ_mul]
      _ ≤ warpSize * width := Nat.mul_le_mul_right _ hlane
  exact ⟨hlt, u32_eq_self (by omega)⟩

/-- The place of a lane word determines the lane and the word. -/
theorem place_inj {width lane word lane' word' : Nat} (hword : word < width)
    (hword' : word' < width) (h : lane * width + word = lane' * width + word') :
    lane = lane' ∧ word = word' := by
  have hpos : 0 < width := by omega
  have hdiv : (lane * width + word) / width = (lane' * width + word') / width := by rw [h]
  have hmod : (lane * width + word) % width = (lane' * width + word') % width := by rw [h]
  rw [Nat.mul_comm lane, Nat.mul_comm lane'] at hdiv hmod
  rw [Nat.mul_add_div hpos, Nat.mul_add_div hpos, Nat.div_eq_of_lt hword,
    Nat.div_eq_of_lt hword'] at hdiv
  rw [Nat.mul_add_mod, Nat.mul_add_mod, Nat.mod_eq_of_lt hword, Nat.mod_eq_of_lt hword'] at hmod
  exact ⟨by simpa using hdiv, hmod⟩

end WaspSim
