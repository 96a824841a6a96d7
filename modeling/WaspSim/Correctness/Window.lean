import WaspSim.Queue.Refinement
import WaspSim.Correctness.IssueFrame

/-!
# The queue functions on windows

A core holds a window under a key when the queue stored there represents it; a
missing queue holds the window nothing has entered. Each function of the core
changes the window of its own key by one queue operation and leaves every other
key alone.
-/

namespace WaspSim
namespace Shader

variable {Mem : Type} {cfg : Config} {kind : QueueKind} {key : QueueKey} {s s' : Shader Mem}
  {f : Fifo (Item Nat)} {t : Nat} {i : Item Nat}

/-- A queue of the configured geometry, as wide as `width`. -/
structure Configured (cfg : Config) (kind : QueueKind) (width : Nat) (q : Queue) : Prop where
  entries_eq : q.entries = (cfg.options kind).entries
  warpSize_eq : q.warpSize = cfg.warpSize
  width_eq : q.payloadWordsPerLane = width

/-- A queue of the same shape is configured alike. -/
theorem Configured.of_sameShape {q q' : Queue} {width : Nat} (h : Configured cfg kind width q)
    (hs : SameShape q q') : Configured cfg kind width q' :=
  ⟨hs.entries_eq.trans h.entries_eq, hs.warpSize_eq.trans h.warpSize_eq,
    hs.width_eq.trans h.width_eq⟩

/-- The core holds the window `f` under a key. -/
def Holds (cfg : Config) (kind : QueueKind) (key : QueueKey) (s : Shader Mem)
    (f : Fifo (Item Nat)) : Prop :=
  (s.queue? kind key = none ∧ f = Fifo.empty) ∨
    ∃ q, s.queue? kind key = some q ∧ Configured cfg kind q.payloadWordsPerLane q ∧
      Represents q f

/-- A queue that is there represents its items. -/
theorem Holds.of_queue (h : Holds cfg kind key s f) {q : Queue}
    (hq : s.queue? kind key = some q) :
    Configured cfg kind q.payloadWordsPerLane q ∧ Represents q f := by
  rcases h with ⟨hnone, _⟩ | ⟨q', hq', hconf, hrep⟩
  · simp [hq] at hnone
  · obtain rfl : q = q' := by simpa [hq] using hq'
    exact ⟨hconf, hrep⟩

/-- What a queue holds depends on that queue only. -/
theorem Holds.congr (h : Holds cfg kind key s f)
    (hq : s'.queue? kind key = s.queue? kind key) : Holds cfg kind key s' f := by
  unfold Holds
  rw [hq]
  exact h

/-- A live ticket needs a queue. -/
theorem Holds.exists_queue (h : Holds cfg kind key s f) (ht : f.get? t = some i) :
    ∃ q, s.queue? kind key = some q ∧ Configured cfg kind q.payloadWordsPerLane q ∧
      Represents q f := by
  rcases h with ⟨_, rfl⟩ | h
  · simp at ht
  · exact h

/-- The stages a queue function goes through on one key: from a queue to another of
the same shape that represents the changed window. -/
structure Changes (kind : QueueKind) (key : QueueKey) (s s' : Shader Mem) (q : Queue)
    (f' : Fifo (Item Nat)) : Prop where
  onQueue : OnQueue kind key s s'
  changed : ∃ q', s'.queue? kind key = some q' ∧ SameShape q q' ∧ Represents q' f'

/-- A queue that changes to some items holds them. -/
theorem Changes.holds {q : Queue} {width : Nat} {f' : Fifo (Item Nat)}
    (h : Changes kind key s s' q f') (hconf : Configured cfg kind width q) :
    Holds cfg kind key s' f' := by
  obtain ⟨q', hq', hshape, hrep⟩ := h.changed
  have hconf' := hconf.of_sameShape hshape
  exact .inr ⟨q', hq', ⟨hconf'.entries_eq, hconf'.warpSize_eq, rfl⟩, hrep⟩

/-- A queue is replaced by one that represents the new items. -/
theorem Changes.of_putQueue {q q' : Queue} {f' : Fifo (Item Nat)} (hshape : SameShape q q')
    (hrep : Represents q' f') : Changes kind key s (s.putQueue kind key q') q f' :=
  ⟨.putQueue s kind key q', q', queue?_putQueue s kind key q', hshape, hrep⟩

/-- Two changes of a queue are one. -/
theorem Changes.trans {a b c : Shader Mem} {q : Queue} {f₁ f₂ : Fifo (Item Nat)}
    (hab : Changes kind key a b q f₁)
    (hbc : ∀ q₁, b.queue? kind key = some q₁ → SameShape q q₁ → Represents q₁ f₁ →
      Changes kind key b c q₁ f₂) : Changes kind key a c q f₂ := by
  obtain ⟨q₁, hq₁, hshape₁, hrep₁⟩ := hab.changed
  obtain ⟨honq, q₂, hq₂, hshape₂, hrep₂⟩ := hbc q₁ hq₁ hshape₁ hrep₁
  exact ⟨hab.onQueue.trans honq, q₂, hq₂, hshape₁.trans hshape₂, hrep₂⟩

/-- Counters do not matter to a change. -/
theorem Changes.count {a b : Shader Mem} {q : Queue} {f' : Fifo (Item Nat)}
    (h : Changes kind key a b q f') (kind' : QueueKind) (g : QueueStats → QueueStats) :
    Changes kind key a (b.count kind' g) q f' :=
  ⟨h.onQueue.trans (.count b kind' g), h.changed⟩

theorem Changes.countStage {a b : Shader Mem} {q : Queue} {f' : Fifo (Item Nat)}
    (h : Changes kind key a b q f') (kind' : QueueKind) (stage : Nat) :
    Changes kind key a (b.countStage kind' stage) q f' := by
  refine ⟨h.onQueue.trans (.countStage b kind' stage), ?_⟩
  cases kind' with
  | rfq => exact h.changed
  | smemq => exact h.changed

/-- Looking up the queue of an instruction leaves the window under the key alone and
gives a queue as wide as the instruction. -/
theorem queueFor_spec {warpId : Nat} {inst : QueueInst} {q : Queue}
    (h : queueFor kind cfg s warpId inst = .ok (s', key, q)) (hf : Holds cfg kind key s f) :
    keyForWarp kind cfg s warpId inst.queueId = .ok key ∧ OnQueue kind key s s' ∧
      s'.queue? kind key = some q ∧ Configured cfg kind inst.payloadWords q ∧ Represents q f ∧
      ∀ q₀, s.queue? kind key = some q₀ → q = q₀ := by
  simp only [queueFor, bind_eq_ok, pure_eq_ok, Prod.exists, Prod.mk.injEq,
    QueueTable.getOrCreate_eq_ok] at h
  obtain ⟨key', hkey, table, q', ⟨hconf, rfl⟩, rfl, rfl, rfl⟩ := h
  have hcreated : Configured cfg kind inst.payloadWords q' ∧ Represents q' f ∧
      ∀ q₀, s.queue? kind key' = some q₀ → q' = q₀ := by
    rcases hf with ⟨hnone, rfl⟩ | ⟨q₀, hq₀, hconf₀, hrep⟩
    · unfold queue? at hnone
      rw [hnone] at hconf
      have hfits : cfg.warpSize * inst.payloadWords < 2 ^ 32 :=
        calc cfg.warpSize * inst.payloadWords ≤ 32 * 3 :=
              Nat.mul_le_mul cfg.warpSize_le inst.payloadWords_le.2
          _ < 2 ^ 32 := by decide
      obtain ⟨hrep, he, hw, hs⟩ := Represents.configure hconf hfits
      exact ⟨⟨he, hs, hw⟩, hrep, fun q₀ hq₀ => by simp [queue?, hnone] at hq₀⟩
    · have hlookup : (s.tables kind).lookup key' = some q₀ := hq₀
      rw [hlookup] at hconf
      obtain ⟨rfl, he, hw, hs⟩ := hrep.configure_again.mp hconf
      exact ⟨⟨he, hs, hw⟩, hrep, fun q₁ hq₁ => by simpa [hq₀] using hq₁⟩
  exact ⟨hkey, .putQueue s kind key' q', queue?_putQueue s kind key' q', hcreated⟩

/-- Marking a response marks the live item in the slot of the token, and tells whether
that was the last one. -/
theorem markMemResponse_spec {inst : WarpInst} {last : Bool}
    (h : markMemResponse kind cfg s inst = .ok (s', last)) (henabled : cfg.enabled kind = true)
    (hkind : inst.kind = kind) (hload : inst.load = true)
    (hf : Holds cfg kind inst.tokenFromInst.key s f) :
    ∃ q t i, s.queue? kind inst.tokenFromInst.key = some q ∧ Represents q f ∧
      Configured cfg kind q.payloadWordsPerLane q ∧ f.get? t = some i ∧
      inst.tokenSlotIndex = t % q.entries ∧ i.marked < i.total ∧
      last = decide (i.marked + 1 = i.total) ∧
      Changes kind inst.tokenFromInst.key s s' q (f.modify t Item.mark) := by
  simp only [markMemResponse, henabled, hkind, hload, ne_eq, not_true_eq_false, Bool.true_eq_false,
    or_self, ↓reduceIte, bind_eq_ok, QueueTable.find_eq_ok, pure_eq_ok, Prod.exists,
    Prod.mk.injEq] at h
  obtain ⟨q, hq, q₁, last', hmark, rfl, rfl⟩ := h
  obtain ⟨hconf, hrep⟩ := hf.of_queue hq
  obtain ⟨t, i, ht, hslot, hdue, hlast, hrep₁, hshape⟩ := hrep.live_of_markResponse hmark
  exact ⟨q, t, i, hq, hrep, hconf, ht, hslot, hdue, hlast,
    (OnQueue.count s kind _).trans (.putQueue _ kind _ _), _, queue?_putQueue _ kind _ _,
    hshape, hrep₁⟩

/-- A response to the token of a live item with a response due is accepted. -/
theorem markMemResponse_succeeds {inst : WarpInst} (henabled : cfg.enabled kind = true)
    (hkind : inst.kind = kind) (hload : inst.load = true) {q : Queue}
    (hq : s.queue? kind inst.tokenFromInst.key = some q) (hrep : Represents q f)
    (htoken : inst.tokenFromInst = q.tokenAt inst.tokenFromInst.key t)
    (ht : f.get? t = some i) (hdue : i.marked < i.total) :
    ∃ s', markMemResponse kind cfg s inst = .ok (s', decide (i.marked + 1 = i.total)) := by
  obtain ⟨q', hmark, _, _⟩ := hrep.markResponse ht inst.tokenFromInst.key hdue
  rw [← htoken] at hmark
  unfold queue? at hq
  simp [markMemResponse, henabled, hkind, hload, QueueTable.find, hq, fetch, hmark]

/-- A load is pending until the live item in the slot of its token is ready. -/
theorem ready_of_loadPending {inst : WarpInst} {pending : Bool}
    (h : loadPending kind cfg s inst = .ok pending) (henabled : cfg.enabled kind = true)
    (hkind : inst.kind = kind) (hload : inst.load = true) {q : Queue}
    (hq : s.queue? kind inst.tokenFromInst.key = some q) (hrep : Represents q f)
    (hslot : inst.tokenSlotIndex = t % q.entries) (ht : f.get? t = some i) :
    pending = !decide i.Ready := by
  simp only [loadPending, henabled, hkind, hload, ne_eq, not_true_eq_false, Bool.true_eq_false,
    or_self, ↓reduceIte, bind_eq_ok, QueueTable.find_eq_ok] at h
  obtain ⟨q', hq', hpending⟩ := h
  unfold queue? at hq
  rw [hq, Option.some.injEq] at hq'
  subst hq'
  exact hrep.ready_of_hasPendingResponses ht hslot hpending

/-- Testing an instruction keeps the window under every key, and the shape of its queue. -/
theorem canIssue_holds {kind' : QueueKind} {warpId : Nat} {inst : QueueInst}
    {countStall ready : Bool} (h : canIssue kind' cfg s warpId inst countStall = .ok (s', ready))
    (hf : Holds cfg kind key s f) :
    Holds cfg kind key s' f ∧
      ∀ q, s.queue? kind key = some q → s'.queue? kind key = some q := by
  by_cases hkind : inst.kind = kind'
  · obtain ⟨_, key', q, m, hqueue, hs', _⟩ := canIssue_eq_ok hkind h
    have hcount : ∀ k κ, s'.queue? k κ = m.queue? k κ := by
      intro k κ
      rcases hs' with rfl | ⟨g, rfl⟩
      · rfl
      · rfl
    by_cases hon : kind = kind' ∧ key = key'
    · obtain ⟨rfl, rfl⟩ := hon
      obtain ⟨_, _, hq, hconf, hrep, hsame⟩ := queueFor_spec hqueue hf
      rw [← hcount] at hq
      refine ⟨.inr ⟨q, hq, ⟨hconf.entries_eq, hconf.warpSize_eq, rfl⟩, hrep⟩, fun q₀ hq₀ => ?_⟩
      rw [hq, hsame q₀ hq₀]
    · have hother := (queueFor_frame hqueue).2.1.others kind key hon
      rw [← hcount] at hother
      exact ⟨hf.congr hother, fun q hq => hother.trans hq⟩
  · rw [canIssue_other hkind, Except.ok.injEq, Prod.mk.injEq] at h
    obtain ⟨rfl, _⟩ := h
    exact ⟨hf, fun q hq => hq⟩

/-- The queue of an instruction is found or created when it has the right width. -/
theorem queueFor_succeeds {warpId : Nat} {inst : QueueInst}
    (hkey : keyForWarp kind cfg s warpId inst.queueId = .ok key)
    (hentries : 0 < (cfg.options kind).entries) (hf : Holds cfg kind key s f)
    (hwidth : ∀ q, s.queue? kind key = some q → q.payloadWordsPerLane = inst.payloadWords) :
    ∃ m q, queueFor kind cfg s warpId inst = .ok (m, key, q) := by
  have hconfigure : ∃ q, ((s.queue? kind key).getD {}).configure (cfg.options kind).entries
      inst.payloadWords cfg.warpSize = .ok q := by
    rcases hf with ⟨hnone, _⟩ | ⟨q, hq, hconf, hrep⟩
    · simp [hnone, Queue.configure, Queue.configured, require, hentries, cfg.warpSize_pos,
        inst.payloadWords_le.1]
    · rw [hq]
      exact ⟨q, hrep.configure_again.mpr ⟨rfl, hconf.entries_eq, hwidth q hq, hconf.warpSize_eq⟩⟩
  obtain ⟨q, hq⟩ := hconfigure
  refine ⟨s.setTable kind ((s.tables kind).insert key q), q, ?_⟩
  simp only [queueFor, bind_eq_ok, pure_eq_ok, Prod.exists, Prod.mk.injEq,
    QueueTable.getOrCreate_eq_ok]
  exact ⟨key, hkey, _, q, ⟨hq, rfl⟩, rfl, rfl, rfl⟩

/-- A load with room and a move with a ready head pass the test. -/
theorem canIssue_succeeds {warpId : Nat} {inst : QueueInst} {countStall : Bool} {q : Queue}
    (henabled : cfg.enabled kind = true) (hkind : inst.kind = kind)
    (hqueue : queueFor kind cfg s warpId inst = .ok (s', key, q))
    (hready : (if inst.load then !q.full else q.headReady) = true) :
    canIssue kind cfg s warpId inst countStall = .ok (s', true) := by
  simp only [canIssue, hkind, ne_eq, not_true_eq_false, ↓reduceIte, bind_eq_ok, require_eq_ok,
    Prod.exists]
  refine ⟨(), henabled, s', key, q, hqueue, ?_⟩
  cases hload : inst.load with
  | true =>
    have hfull : q.full = false := by simpa [hload] using hready
    simp [hfull, pure, Except.pure]
  | false =>
    have hhead : q.headReady = true := by simpa [hload] using hready
    have hempty : q.empty = false := by
      rw [Queue.headReady, Bool.and_eq_true] at hhead
      simpa using hhead.1
    simp [hhead, hempty, pure, Except.pure]

end Shader
end WaspSim
