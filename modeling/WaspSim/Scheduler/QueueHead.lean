import WaspSim.Queue.Representation
import WaspSim.Scheduler.Settled

/-!
# The head of a queue under an issue

An issue changes one queue: a load writes the slot that it reserves, which is not
the slot of a ready head, and a move consumes the head. So a ready head stays
ready unless a move takes it and the entry behind it is not ready yet.
-/

namespace WaspSim
namespace Queue

variable {q q' q₂ : Queue} {slot : Nat}

/-- The entry behind the head is ready, so that the head is ready again once it is consumed. -/
def nextReady (q : Queue) : Bool :=
  1 < q.occupancy && ((q.head + 1) % q.entries != q.head) &&
    (q.storage[(q.head + 1) % q.entries]?).any fun e => e.state == .ready

/-- Consuming the head keeps the sizes and gives a slot back. -/
theorem shape_of_consumeHead (h : q.consumeHead = .ok q') :
    SameShape q q' ∧ q'.occupancy = q.occupancy - 1 := by
  simp only [consumeHead, bind_eq_ok, pure_eq_ok] at h
  obtain ⟨_, _, e, _, _, _, rfl⟩ := h
  exact ⟨⟨rfl, rfl, rfl⟩, rfl⟩

/-- Consuming the head brings the entry behind it to the head. -/
theorem headReady_of_consumeHead (h : q.consumeHead = .ok q') : q'.headReady = q.nextReady := by
  simp only [consumeHead, bind_eq_ok, require_eq_ok, fetch_eq_ok, pure_eq_ok] at h
  obtain ⟨_, _, e, he, _, _, rfl⟩ := h
  have hlt := (List.getElem?_eq_some_iff.mp he).1
  have hempty : (q.occupancy - 1 == 0) = !decide (1 < q.occupancy) := by
    rw [Bool.eq_iff_iff]
    simp only [beq_iff_eq, Bool.not_eq_true', decide_eq_false_iff_not]
    omega
  by_cases hnext : (q.head + 1) % q.entries = q.head
  · simp [headReady, nextReady, setEntry, hnext, hlt]
  · have hne : ((q.head + 1) % q.entries != q.head) = true := by simpa using hnext
    simp [headReady, nextReady, setEntry, empty, hempty, hne, Ne.symm hnext]

/-- Between two states of a queue at most one slot was written, and nothing was consumed. -/
structure Rewrites (slot : Nat) (q q' : Queue) : Prop where
  shape : SameShape q q'
  head_eq : q'.head = q.head
  occupancy_le : q.occupancy ≤ q'.occupancy
  others : ∀ k, k ≠ slot → q'.storage[k]? = q.storage[k]?

namespace Rewrites

theorem trans (h : Rewrites slot q q₂) (h' : Rewrites slot q₂ q') : Rewrites slot q q' :=
  ⟨h.shape.trans h'.shape, h'.head_eq.trans h.head_eq, h.occupancy_le.trans h'.occupancy_le,
    fun k hk => (h'.others k hk).trans (h.others k hk)⟩

theorem setEntry (q : Queue) (slot : Nat) (e : Entry) : Rewrites slot q (q.setEntry slot e) :=
  ⟨⟨rfl, rfl, rfl⟩, rfl, le_refl _, fun _ hk => List.getElem?_set_ne (Ne.symm hk)⟩

/-- Writing another slot keeps the head ready. -/
theorem headReady (h : Rewrites slot q q') (hne : slot ≠ q.head) (hready : q.headReady = true) :
    q'.headReady = true := by
  simp only [Queue.headReady, empty, Bool.and_eq_true, Bool.not_eq_true', beq_eq_false_iff_ne]
    at hready ⊢
  refine ⟨?_, ?_⟩
  · have hle := h.occupancy_le
    omega
  · rw [h.head_eq, h.others _ (Ne.symm hne)]
    exact hready.2

end Rewrites

/-- Reserving writes the tail slot, which must be free. -/
theorem rewrites_of_reserveTail {key : QueueKey} {mask : ActiveMask} {pending : Nat} {token : Token}
    (h : q.reserveTail key mask pending = .ok (q', token)) :
    Rewrites q.tail q q' ∧ token.slotIndex = q.tail ∧ (q.headReady = true → q.tail ≠ q.head) := by
  simp only [reserveTail, bind_eq_ok, require_eq_ok, fetch_eq_ok, pure_eq_ok, Prod.mk.injEq] at h
  obtain ⟨_, _, _, _, e, he, _, hfree, rfl, rfl⟩ := h
  refine ⟨?_, rfl, fun hready heq => ?_⟩
  · have hset := Rewrites.setEntry q q.tail { e with
      state := stateFor pending
      sequence := q.nextSequence
      pendingResponses := pending
      payloadWordsPerLane := q.payloadWordsPerLane
      activeMask := mask
      lanePayload := List.replicate e.lanePayload.length 0 }
    exact ⟨⟨rfl, rfl, rfl⟩, rfl, Nat.le_succ _, hset.others⟩
  · rw [heq] at he
    simp [headReady, he, hfree] at hready

theorem rewrites_of_setLaneValue {token : Token} {lane word : Nat} {value : BitVec 64}
    (h : q.setLaneValue token lane word value = .ok q') : Rewrites token.slotIndex q q' := by
  simp only [setLaneValue, bind_eq_ok, pure_eq_ok] at h
  obtain ⟨e, _, _, _, _, _, _, _, rfl⟩ := h
  exact .setEntry q _ _

theorem rewrites_of_setPendingResponses {token : Token} {pending : Nat}
    (h : q.setPendingResponses token pending = .ok q') : Rewrites token.slotIndex q q' := by
  simp only [setPendingResponses, bind_eq_ok, pure_eq_ok] at h
  obtain ⟨e, _, rfl⟩ := h
  exact .setEntry q _ _

end Queue

namespace Shader

variable {Mem : Type} {cfg : Config} {kind : QueueKind} {key : QueueKey} {s s' : Shader Mem}
  {q : Queue} {slot : Nat} {read : Mem → BitVec 64 → Nat → BitVec 64}

/-- The queue under a key is `q` with one slot rewritten. -/
def Rewritten (kind : QueueKind) (key : QueueKey) (slot : Nat) (q : Queue)
    (s : Shader Mem) : Prop :=
  ∃ q', s.queue? kind key = some q' ∧ q.Rewrites slot q'

/-- Looking up a configured queue finds it as it is. -/
theorem queueFor_found {w : Nat} {inst : QueueInst} {q' : Queue}
    (h : queueFor kind cfg s w inst = .ok (s', key, q')) (hconf : q.configured = true)
    (hq : s.queue? kind key = some q) : q' = q := by
  have hput := (queueFor_frame h).2.2
  have hkeep := queueFor_keeps h hconf hq
  rw [hput] at hkeep
  exact Option.some.inj hkeep

theorem functionalStoreLane_rewritten {inst : WarpInst} {lane word : Nat} {v : BitVec 64}
    (hkey : inst.tokenFromInst.key = key) (hslot : inst.tokenFromInst.slotIndex = slot)
    (hs : Rewritten kind key slot q s)
    (h : functionalStoreLane kind cfg s inst lane word v = .ok s') :
    Rewritten kind key slot q s' := by
  unfold functionalStoreLane at h
  split at h
  · rw [pure_eq_ok] at h
    exact h ▸ hs
  · simp only [bind_eq_ok, QueueTable.find_eq_ok, pure_eq_ok] at h
    obtain ⟨q₁, hq₁, q₂, hset, rfl⟩ := h
    obtain ⟨q₁', hq₁', hrewrites⟩ := hs
    rw [hkey] at hq₁
    obtain rfl : q₁ = q₁' := Option.some.inj (hq₁.symm.trans hq₁')
    have hstore := Queue.rewrites_of_setLaneValue hset
    rw [hslot] at hstore
    refine ⟨q₂, ?_, hrewrites.trans hstore⟩
    rw [hkey]
    exact queue?_putQueue s kind key q₂

/-- Executing a load writes the slot of its token alone. -/
theorem funcExecLoad_rewritten {inst inst' : WarpInst} {input : LaneInput}
    (hkind : inst.kind = kind) (hkey : inst.tokenFromInst.key = key)
    (hslot : inst.tokenFromInst.slotIndex = slot) (hs : Rewritten kind key slot q s)
    (h : funcExecLoad cfg read s inst input = .ok (s', inst')) : Rewritten kind key slot q s' := by
  obtain ⟨hfold, _⟩ := funcExecLoad_ok h
  refine foldlM_invariant (Rewritten kind key slot q) (fun m lane m' _ hm hf => ?_) hfold hs
  split at hf
  · refine foldlM_invariant (Rewritten kind key slot q) (fun m word m' _ hm hf => ?_) hf hm
    rw [hkind] at hf
    exact functionalStoreLane_rewritten hkey hslot hm hf
  · rw [pure_eq_ok] at hf
    exact hf ▸ hm

/-- Preparing a load reserves a slot that is not the slot of a ready head. -/
theorem prepareIssue_load_head (inst : WarpInst) {inst' : WarpInst}
    (henabled : cfg.enabled inst.kind = true)
    (hload : inst.load = true)
    (hkey : keyForWarp inst.kind cfg s inst.warpId inst.queueId = .ok key)
    (hq : s.queue? inst.kind key = some q) (hconf : q.configured = true)
    (h : prepareIssue inst.kind cfg s inst = .ok (s', inst')) :
    ∃ slot, (q.headReady = true → slot ≠ q.head) ∧ Rewritten inst.kind key slot q s' ∧
      inst'.tokenFromInst.key = key ∧ inst'.tokenFromInst.slotIndex = slot := by
  simp only [prepareIssue, henabled, hload, Bool.true_eq_false, ne_eq, not_true_eq_false,
    or_self, ↓reduceIte, bind_eq_ok, Prod.exists, pure_eq_ok, Prod.mk.injEq] at h
  obtain ⟨m, key', q₀, hqueue, _, _, q₁, token, hreserve, rfl, rfl⟩ := h
  have hsame := (queueFor_frame hqueue).1
  rw [hkey, Except.ok.injEq] at hsame
  subst hsame
  obtain rfl := queueFor_found hqueue hconf hq
  obtain ⟨hrewrites, hslot, hhead⟩ := Queue.rewrites_of_reserveTail hreserve
  obtain ⟨htkey, htslot⟩ := tokenFromInst_prepared inst hkey (key_of_reserveTail hreserve) rfl
  refine ⟨q₀.tail, hhead, ⟨q₁, ?_, hrewrites⟩, htkey, htslot.trans hslot⟩
  cases inst.kind with
  | rfq => exact queue?_putQueue m .rfq key q₁
  | smemq => exact queue?_putQueue m .smemq key q₁

/-- Preparing a move names its queue. -/
theorem prepareIssue_move_head (inst : WarpInst) {inst' : WarpInst}
    (henabled : cfg.enabled inst.kind = true)
    (hload : inst.load = false)
    (hkey : keyForWarp inst.kind cfg s inst.warpId inst.queueId = .ok key)
    (hq : s.queue? inst.kind key = some q) (hconf : q.configured = true)
    (h : prepareIssue inst.kind cfg s inst = .ok (s', inst')) :
    s'.queue? inst.kind key = some q ∧ inst'.tokenFromInst.key = key := by
  simp only [prepareIssue, henabled, hload, Bool.true_eq_false, Bool.false_eq_true, ne_eq,
    not_true_eq_false, or_self, ↓reduceIte, bind_eq_ok, Prod.exists, pure_eq_ok,
    Prod.mk.injEq] at h
  obtain ⟨m, key', q₀, hqueue, rfl, rfl⟩ := h
  obtain ⟨hsame, _, hput⟩ := queueFor_frame hqueue
  rw [hkey, Except.ok.injEq] at hsame
  subst hsame
  obtain rfl := queueFor_found hqueue hconf hq
  refine ⟨?_, (tokenFromInst_prepared inst hkey rfl rfl).1⟩
  cases hkind : inst.kind with
  | rfq =>
    rw [hkind] at hput
    exact hput
  | smemq =>
    rw [hkind] at hput
    exact hput

/-- A load leaves a ready head of its queue ready. -/
theorem issueWarp_load_head {w : Nat} {inst : QueueInst} {mask : ActiveMask} {input : LaneInput}
    {es : List Event} (hload : inst.load = true)
    (hkey : keyForWarp inst.kind cfg s w inst.queueId = .ok key)
    (hq : s.queue? inst.kind key = some q) (hconf : q.configured = true)
    (h : issueWarp cfg read s w inst mask input = .ok (s', es)) :
    ∃ q', s'.queue? inst.kind key = some q' ∧ SameShape q q' ∧
      (q.headReady = true → q'.headReady = true) := by
  obtain ⟨_, henabled, s₂, inst₂, s₃, wi, s₅, hprep, hinst₂, hexec, hwiInst, hafter, rfl, _⟩ :=
    issueWarp_load_eq_ok hload h
  obtain ⟨slot, hne, hs₂, htkey, htslot⟩ := prepareIssue_load_head (s := issuing s w)
    { inst with uid := s.nextUid, warpId := w, activeMask := mask } henabled hload
    (by rw [keyForWarp_issuing]; exact hkey) hq hconf hprep
  have hkind₂ : inst₂.kind = inst.kind := by rw [hinst₂]
  obtain ⟨_, hwi, _⟩ := funcExecLoad_frame hexec
  obtain ⟨q₃, hq₃, hrewrites⟩ := funcExecLoad_rewritten hkind₂ htkey htslot hs₂ hexec
  have hwiKind : wi.kind = inst.kind := by rw [hwiInst]
  have hwiLoad : wi.load = true := by rw [hwiInst]; exact hload
  have hwiToken : wi.tokenFromInst = inst₂.tokenFromInst := by rw [hwi]; rfl
  -- closing the load writes that slot again
  simp only [afterFuncExec, hwiKind, henabled, hwiLoad, hwiToken, htkey, Bool.true_eq_false, ne_eq,
    not_true_eq_false, or_self, ↓reduceIte, bind_eq_ok, QueueTable.find_eq_ok, pure_eq_ok] at hafter
  obtain ⟨q₃', hq₃', q₄, hset, rfl⟩ := hafter
  obtain rfl : q₃' = q₃ := Option.some.inj (hq₃'.symm.trans hq₃)
  have hlast := Queue.rewrites_of_setPendingResponses hset
  rw [htslot] at hlast
  have hall := hrewrites.trans hlast
  exact ⟨q₄, queue?_putQueue s₃ inst.kind key q₄, hall.shape,
    fun hready => hall.headReady (hne hready) hready⟩

/-- A move consumes the head of its queue. -/
theorem issueWarp_move_head {w : Nat} {inst : QueueInst} {mask : ActiveMask} {input : LaneInput}
    {es : List Event} (hload : inst.load = false)
    (hkey : keyForWarp inst.kind cfg s w inst.queueId = .ok key)
    (hq : s.queue? inst.kind key = some q) (hconf : q.configured = true)
    (h : issueWarp cfg read s w inst mask input = .ok (s', es)) :
    ∃ q', q.consumeHead = .ok q' ∧ s'.queue? inst.kind key = some q' := by
  obtain ⟨_, henabled, s₂, inst₂, _, s₄, hprep, hinst₂, _, hafter, rfl, _⟩ :=
    issueWarp_move_eq_ok hload h
  have hload₂ : inst₂.load = false := by rw [hinst₂]; exact hload
  obtain ⟨hq₂, htkey⟩ := prepareIssue_move_head (s := issuing s w)
    { inst with uid := s.nextUid, warpId := w, activeMask := mask } henabled hload
    (by rw [keyForWarp_issuing]; exact hkey) hq hconf hprep
  have hkind₂ : inst₂.kind = inst.kind := by rw [hinst₂]
  simp only [afterFuncExec, hkind₂, henabled, hload₂, htkey, Bool.true_eq_false, Bool.false_eq_true,
    ne_eq, not_true_eq_false, or_self, ↓reduceIte, bind_eq_ok, QueueTable.find_eq_ok, pure_eq_ok]
    at hafter
  obtain ⟨q₁, hq₁, _, _, q', hconsume, rfl⟩ := hafter
  obtain rfl : q₁ = q := Option.some.inj (hq₁.symm.trans hq₂)
  exact ⟨q', hconsume, queue?_putQueue s₂ inst.kind key q'⟩

end Shader
end WaspSim
