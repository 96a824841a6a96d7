import WaspSim.Correctness.Ledger

/-!
# Every step is booked

The functions of a core count at three places: a load when its entry is reserved,
a move when it consumes the head, and an answer when it is marked. Together with
what these do to the queues, the books balance over every action.
-/

namespace WaspSim
namespace Shader

variable {Mem : Type} {cfg : Config} {kind : QueueKind} {key : QueueKey} {s s' : Shader Mem}
  {f : Fifo (Item Nat)} {es : List Event} {read : Mem → BitVec 64 → Nat → BitVec 64}

/-- What a step does for one kind: it keeps every key on a window and balances the books. -/
def Balances (cfg : Config) (s s' : Shader Mem) (es : List Event) : Prop :=
  Sound cfg s' ∧ ∀ kind, Booked cfg kind s s' es

theorem queueFor_stats {warpId : Nat} {inst : QueueInst} {q : Queue}
    (h : queueFor kind cfg s warpId inst = .ok (s', key, q)) : s'.stats = s.stats := by
  simp only [queueFor, bind_eq_ok, pure_eq_ok, Prod.exists, Prod.mk.injEq] at h
  obtain ⟨_, _, _, _, _, rfl, _⟩ := h
  rfl

@[simp] theorem stats_putQueue (s : Shader Mem) (kind : QueueKind) (key : QueueKey) (q : Queue) :
    (s.putQueue kind key q).stats = s.stats := rfl

@[simp] theorem stats_countStage (s : Shader Mem) (kind : QueueKind) (stage : Nat) :
    (s.countStage kind stage).stats = s.stats := by
  cases kind <;> rfl

/-- Testing an instruction counts at most a stall. -/
theorem canIssue_counts {kind' : QueueKind} {warpId : Nat} {inst : QueueInst}
    {countStall ready : Bool} (h : canIssue kind' cfg s warpId inst countStall = .ok (s', ready))
    (k : QueueKind) : SameCounts (s.stats k) (s'.stats k) := by
  have hcount : ∀ (b : Bool) (m : Shader Mem) (g : QueueStats → QueueStats),
      (∀ c, SameCounts c (g c)) →
        SameCounts (m.stats k) ((if b then m.count kind' g else m).stats k) := by
    intro b m g hg
    cases b with
    | false => exact .of_eq rfl
    | true =>
      by_cases hk : k = kind'
      · subst hk
        simpa [count] using hg _
      · exact .of_eq (by simp [count, hk])
  unfold canIssue at h
  split at h
  · rw [pure_eq_ok, Prod.mk.injEq] at h
    exact .of_eq (by rw [h.1])
  · simp only [bind_eq_ok, Prod.exists] at h
    obtain ⟨_, _, m, key', q, hqueue, h⟩ := h
    have hm : SameCounts (s.stats k) (m.stats k) := .of_eq (by rw [queueFor_stats hqueue])
    split at h
    · split at h
      · rw [pure_eq_ok, Prod.mk.injEq] at h
        exact hm.trans (h.1 ▸ hcount _ m _ fun c => ⟨rfl, rfl, rfl, rfl⟩)
      · rw [pure_eq_ok, Prod.mk.injEq] at h
        exact h.1 ▸ hm
    · split at h
      · rw [pure_eq_ok, Prod.mk.injEq] at h
        exact hm.trans (h.1 ▸ hcount _ m _ fun c => ⟨rfl, rfl, rfl, rfl⟩)
      · split at h
        · rw [pure_eq_ok, Prod.mk.injEq] at h
          exact hm.trans (h.1 ▸ hcount _ m _ fun c => ⟨rfl, rfl, rfl, rfl⟩)
        · rw [pure_eq_ok, Prod.mk.injEq] at h
          exact h.1 ▸ hm

/-- Reserving an entry counts the reservation and its occupancy. -/
theorem prepareIssue_load_stats {inst inst' : WarpInst} (henabled : cfg.enabled kind = true)
    (hkind : inst.kind = kind) (hload : inst.load = true)
    (h : prepareIssue kind cfg s inst = .ok (s', inst')) :
    ∃ key q, s'.queue? kind key = some q ∧
      keyForWarp kind cfg s inst.warpId inst.queueId = .ok key ∧
      s'.stats = Function.update s.stats kind { s.stats kind with
        reservations := (s.stats kind).reservations + 1
        maxOccupancy := max (s.stats kind).maxOccupancy q.occupancy } := by
  simp only [prepareIssue, henabled, hkind, hload, Bool.true_eq_false, ne_eq, not_true_eq_false,
    or_self, ↓reduceIte, bind_eq_ok, require_eq_ok, Prod.exists, pure_eq_ok, Prod.mk.injEq] at h
  obtain ⟨m, key, q₀, hqueue, _, _, q, token, _, rfl, rfl⟩ := h
  have hm := queueFor_stats hqueue
  refine ⟨key, q, ?_, (queueFor_frame hqueue).1, ?_⟩
  · cases kind <;> exact queue?_putQueue m _ key q
  · rw [stats_countStage]
    simp [count, hm]

/-- A move reserves nothing, so its preparation counts nothing. -/
theorem prepareIssue_move_stats {inst inst' : WarpInst} (henabled : cfg.enabled kind = true)
    (hkind : inst.kind = kind) (hload : inst.load = false)
    (h : prepareIssue kind cfg s inst = .ok (s', inst')) : s'.stats = s.stats := by
  simp only [prepareIssue, henabled, hkind, hload, Bool.true_eq_false, Bool.false_eq_true, ne_eq,
    not_true_eq_false, or_self, ↓reduceIte, bind_eq_ok, Prod.exists, pure_eq_ok,
    Prod.mk.injEq] at h
  obtain ⟨m, key, q, hqueue, rfl, rfl⟩ := h
  rw [stats_countStage, queueFor_stats hqueue]

/-- A stored word counts nothing. -/
theorem functionalStoreLane_stats {inst : WarpInst} {lane word : Nat} {v : BitVec 64}
    (h : functionalStoreLane kind cfg s inst lane word v = .ok s') : s'.stats = s.stats := by
  unfold functionalStoreLane at h
  split at h
  · rw [pure_eq_ok] at h
    rw [h]
  · simp only [bind_eq_ok, pure_eq_ok] at h
    obtain ⟨_, _, _, _, rfl⟩ := h
    rfl

theorem funcExecLoad_stats {inst inst' : WarpInst} {input : LaneInput}
    (h : funcExecLoad cfg read s inst input = .ok (s', inst')) : s'.stats = s.stats := by
  obtain ⟨hfold, _⟩ := funcExecLoad_ok h
  apply foldlM_invariant (fun m : Shader Mem => m.stats = s.stats) ?_ hfold rfl
  intro m lane m' _ hm hlane
  split at hlane
  · apply foldlM_invariant (fun m : Shader Mem => m.stats = s.stats) ?_ hlane hm
    intro n word n' _ hn hword
    rw [functionalStoreLane_stats hword, hn]
  · rw [pure_eq_ok] at hlane
    rw [← hlane, hm]

/-- What follows the execution of a load counts nothing. -/
theorem afterFuncExec_load_stats {inst : WarpInst} (henabled : cfg.enabled kind = true)
    (hkind : inst.kind = kind) (hload : inst.load = true)
    (h : afterFuncExec kind cfg s inst = .ok s') : s'.stats = s.stats := by
  simp only [afterFuncExec, henabled, hkind, hload, Bool.true_eq_false, ne_eq, not_true_eq_false,
    or_self, ↓reduceIte, bind_eq_ok, pure_eq_ok] at h
  obtain ⟨_, _, _, _, rfl⟩ := h
  rfl

/-- Closing a move counts the consumption. -/
theorem afterFuncExec_move_stats {inst : WarpInst} (henabled : cfg.enabled kind = true)
    (hkind : inst.kind = kind) (hload : inst.load = false)
    (h : afterFuncExec kind cfg s inst = .ok s') :
    s'.stats = Function.update s.stats kind { s.stats kind with
      consumes := (s.stats kind).consumes + 1 } := by
  simp only [afterFuncExec, henabled, hkind, hload, Bool.true_eq_false, Bool.false_eq_true, ne_eq,
    not_true_eq_false, or_self, ↓reduceIte, bind_eq_ok, pure_eq_ok] at h
  obtain ⟨_, _, _, _, _, _, rfl⟩ := h
  rfl

/-- The counters after the issue of a load. -/
theorem issueWarp_load_stats {warpId : Nat} {inst : QueueInst} {activeMask : ActiveMask}
    {input : LaneInput} (hload : inst.load = true) (hold : Holds cfg inst.kind key s f)
    (hkey : keyForWarp inst.kind cfg s warpId inst.queueId = .ok key)
    (h : issueWarp cfg read s warpId inst activeMask input = .ok (s', es)) :
    s'.stats = Function.update s.stats inst.kind { s.stats inst.kind with
      reservations := (s.stats inst.kind).reservations + 1
      maxOccupancy := max (s.stats inst.kind).maxOccupancy (f.items.length + 1) } := by
  obtain ⟨_, henabled, s₂, inst₂, s₃, wi, s₅, hprep, hinst₂, hexec, hwi, hafter, rfl, _⟩ :=
    issueWarp_load_eq_ok hload h
  have hkeys : ∀ k, keyForWarp inst.kind cfg (issuing s warpId) warpId inst.queueId = .ok k →
      k = key := by
    intro k hk
    rw [keyForWarp_issuing, hkey, Except.ok.injEq] at hk
    exact hk.symm
  obtain ⟨_, q, _, _, _, _, _, hq, _, _, hrep, _, _⟩ :=
    prepareIssue_load (s := issuing s warpId) henabled rfl hload hkeys hold hprep
  obtain ⟨k, q', hq', hk, hstats⟩ :=
    prepareIssue_load_stats henabled rfl hload hprep
  obtain rfl := hkeys k hk
  obtain rfl : q = q' := Option.some.inj (hq.symm.trans hq')
  have hoccupancy : q.occupancy = f.items.length + 1 := by
    rw [hrep.occupancy_eq, Fifo.items_push, List.length_append, List.length_singleton]
  have hlast := afterFuncExec_load_stats henabled (by rw [hwi]) (by rw [hwi]; exact hload) hafter
  change s₅.stats = _
  rw [hlast, funcExecLoad_stats hexec, hstats, hoccupancy]
  rfl

/-- The counters after the issue of a move. -/
theorem issueWarp_move_stats {warpId : Nat} {inst : QueueInst} {activeMask : ActiveMask}
    {input : LaneInput} (hload : inst.load = false)
    (h : issueWarp cfg read s warpId inst activeMask input = .ok (s', es)) :
    s'.stats = Function.update s.stats inst.kind { s.stats inst.kind with
      consumes := (s.stats inst.kind).consumes + 1 } := by
  obtain ⟨_, henabled, s₂, inst₂, _, s₄, hprep, hinst₂, _, hafter, rfl, _⟩ :=
    issueWarp_move_eq_ok hload h
  have hload₂ : inst₂.load = false := by rw [hinst₂]; exact hload
  have hlast := afterFuncExec_move_stats henabled (by rw [hinst₂]) hload₂ hafter
  change s₄.stats = _
  rw [hlast, prepareIssue_move_stats henabled rfl hload hprep]
  rfl

/-- Queues and counters stay as they are. -/
structure Untouched (s s' : Shader Mem) : Prop where
  tables_eq : s'.tables = s.tables
  stats_eq : s'.stats = s.stats

theorem Untouched.refl (s : Shader Mem) : Untouched s s := ⟨rfl, rfl⟩

theorem Untouched.trans {a b c : Shader Mem} (hab : Untouched a b) (hbc : Untouched b c) :
    Untouched a c :=
  ⟨hbc.tables_eq.trans hab.tables_eq, hbc.stats_eq.trans hab.stats_eq⟩

/-- At most one answer is marked. -/
def Marks (cfg : Config) (s s' : Shader Mem) : Prop :=
  Untouched s s' ∨ ∃ out s₁ inst last, Untouched s out ∧
    markResponse cfg out inst = .ok (s₁, last) ∧ Untouched s₁ s'

/-- A step that marks responses stays one with a further step that leaves the books alone. -/
theorem Marks.trans {a b c : Shader Mem} (hab : Marks cfg a b) (hbc : Untouched b c) :
    Marks cfg a c := by
  rcases hab with hab | ⟨out, s₁, inst, last, hout, hmark, hs⟩
  · exact .inl (hab.trans hbc)
  · exact .inr ⟨out, s₁, inst, last, hout, hmark, hs.trans hbc⟩

/-- Soundness is about the tables only. -/
theorem Sound.congr (h : Sound cfg s) (htables : s'.tables = s.tables) : Sound cfg s' := by
  intro kind key
  obtain ⟨f, hf⟩ := h kind key
  exact ⟨f, hf.congr (queue?_congr htables kind key)⟩

theorem Booked.of_untouched (h : Untouched s s') (hgenerated : generated kind es = 0) :
    Booked cfg kind s s' es := by
  apply Booked.of_keep
  · exact .of_eq (by rw [h.stats_eq])
  · exact hgenerated
  · intro k _
    rw [h.tables_eq]
    exact ⟨rfl, rfl⟩

/-- What happens to the counters and queues around a step does not matter. -/
theorem Booked.congr {a b : Shader Mem} (h : Booked cfg kind a b es) (hs : Untouched s a)
    (hs' : Untouched b s') : Booked cfg kind s s' es := by
  obtain ⟨h₁, h₂, h₃, h₄, h₅⟩ := h
  unfold occupied droppedEntries at h₁
  unfold awaited droppedResponses at h₂
  rw [hs.tables_eq, hs.stats_eq, ← hs'.tables_eq, ← hs'.stats_eq] at h₁ h₂ h₅
  rw [hs.stats_eq, ← hs'.stats_eq] at h₃ h₄
  exact ⟨h₁, h₂, h₃, h₄, h₅⟩

/-- Marking a response books one answer. -/
theorem markMemResponse_balances {inst : WarpInst} {last : Bool} (hsound : Sound cfg s)
    (hgenerated : ∀ k, generated k es = 0)
    (h : markMemResponse kind cfg s inst = .ok (s', last)) : Balances cfg s s' es := by
  by_cases hskip : cfg.enabled kind = false ∨ inst.kind ≠ kind ∨ inst.load = false
  · rw [markMemResponse, if_pos hskip, pure_eq_ok, Prod.mk.injEq] at h
    obtain ⟨rfl, _⟩ := h
    exact ⟨hsound, fun k => .of_untouched (.refl s) (hgenerated k)⟩
  · have hstats : s'.stats = Function.update s.stats kind { s.stats kind with
        memoryFills := (s.stats kind).memoryFills + 1 } := by
      rw [markMemResponse, if_neg hskip] at h
      simp only [bind_eq_ok, Prod.exists, pure_eq_ok, Prod.mk.injEq] at h
      obtain ⟨_, _, _, _, _, rfl, _⟩ := h
      rfl
    simp only [not_or, Bool.not_eq_false, ne_eq, not_not] at hskip
    obtain ⟨henabled, hkind, hload⟩ := hskip
    obtain ⟨f, hf⟩ := hsound kind inst.tokenFromInst.key
    obtain ⟨q, t, i, _, _, hconf, ht, _, hdue, _, hchanges⟩ :=
      markMemResponse_spec h henabled hkind hload hf
    have hf' := hchanges.holds hconf
    obtain ⟨q', hq', _, _⟩ := hchanges.changed
    constructor
    · intro k key
      by_cases hon : k = kind ∧ key = inst.tokenFromInst.key
      · obtain ⟨rfl, rfl⟩ := hon
        exact ⟨_, hf'⟩
      · obtain ⟨g, hg⟩ := hsound k key
        exact ⟨g, hg.congr (hchanges.onQueue.others k key hon)⟩
    · intro k
      by_cases hk : k = kind
      · subst hk
        have hweight := Fifo.weight_modify Item.pending Item.mark ht
        simp only [Item.pending, Item.mark] at hweight
        refine .of_change (r := 0) (c := 0) (m := 1) (g := 0) ?_
          (AList.lookup_isSome.mp (Option.isSome_of_eq_some hq')) ?_ ?_ ?_ ?_ ?_ (hgenerated k) ?_
        · exact fun κ hκ => hchanges.onQueue.others k κ fun hon => hκ hon.2
        · rw [hf'.share_eq.1, hf.share_eq.1, Fifo.length_modify]
        · rw [hf'.share_eq.2, hf.share_eq.2]
          omega
        · simp [hstats]
        · simp [hstats]
        · simp [hstats]
        · exact .inl ⟨by simp [hstats], le_rfl⟩
      · apply Booked.of_keep
        · exact .of_eq (by simp [hstats, hk])
        · exact hgenerated k
        · intro κ _
          have hqueue := hchanges.onQueue.others k κ fun hon => hk hon.1
          exact ⟨share_congr hqueue, share_congr hqueue⟩

/-- A step that only marks responses balances. -/
theorem Marks.balances (h : Marks cfg s s') (hsound : Sound cfg s)
    (hgenerated : ∀ k, generated k es = 0) : Balances cfg s s' es := by
  rcases h with h | ⟨out, s₁, inst, last, hout, hmark, hs⟩
  · exact ⟨hsound.congr h.tables_eq, fun k => .of_untouched h (hgenerated k)⟩
  · rw [markResponse_eq] at hmark
    obtain ⟨hsound₁, hbooked⟩ :=
      markMemResponse_balances (hsound.congr hout.tables_eq) hgenerated hmark
    exact ⟨hsound₁.congr hs.tables_eq, fun k => (hbooked k).congr hout hs⟩

/-- Testing an instruction may create an empty queue. -/
theorem test_balances {w : Nat} {inst : QueueInst} {countStall b₁ b₂ : Bool} {s₁ : Shader Mem}
    (hsound : Sound cfg s) (hrfq : canIssue .rfq cfg s w inst countStall = .ok (s₁, b₁))
    (hsmemq : canIssue .smemq cfg s₁ w inst countStall = .ok (s', b₂)) : Balances cfg s s' [] := by
  have hkeep : ∀ k key f, Holds cfg k key s f → Holds cfg k key s' f :=
    fun _ _ _ hf => (canIssue_holds hsmemq (canIssue_holds hrfq hf).1).1
  constructor
  · intro k key
    obtain ⟨f, hf⟩ := hsound k key
    exact ⟨f, hkeep k key f hf⟩
  · intro k
    apply Booked.of_keep
    · exact (canIssue_counts hrfq k).trans (canIssue_counts hsmemq k)
    · rfl
    · intro key _
      obtain ⟨f, hf⟩ := hsound k key
      have hf' := hkeep k key f hf
      rw [hf'.share_eq.1, hf'.share_eq.2, hf.share_eq.1, hf.share_eq.2]
      exact ⟨rfl, rfl⟩

/-- The queue of an issued instruction is in the table afterwards. -/
private theorem issue_balances {inst : QueueInst} {f f' : Fifo (Item Nat)} {q : Queue}
    {r c g : Nat} (hsound : Sound cfg s) (hf : Holds cfg inst.kind key s f)
    (hq : s'.queue? inst.kind key = some q) (hconf : Configured cfg inst.kind inst.payloadWords q)
    (hrep : Represents q f')
    (hothers : ∀ k κ, ¬(k = inst.kind ∧ κ = key) → s'.queue? k κ = s.queue? k κ)
    (hlength : f'.items.length + c = f.items.length + r)
    (hweight : f'.weight Item.pending = f.weight Item.pending + g) {counts : QueueStats}
    (hstats : s'.stats = Function.update s.stats inst.kind counts)
    (hreservations : counts.reservations = (s.stats inst.kind).reservations + r)
    (hconsumes : counts.consumes = (s.stats inst.kind).consumes + c)
    (hfills : counts.memoryFills = (s.stats inst.kind).memoryFills)
    (hgenerated : ∀ k, generated k es = if k = inst.kind then g else 0)
    (hmax : counts.maxOccupancy = (s.stats inst.kind).maxOccupancy ∧ r ≤ c ∨
      counts.maxOccupancy = max (s.stats inst.kind).maxOccupancy f'.items.length ∧
        f'.items.length ≤ (cfg.options inst.kind).entries) : Balances cfg s s' es := by
  have hf' : Holds cfg inst.kind key s' f' :=
    .inr ⟨q, hq, ⟨hconf.entries_eq, hconf.warpSize_eq, rfl⟩, hrep⟩
  constructor
  · intro k κ
    by_cases hon : k = inst.kind ∧ κ = key
    · obtain ⟨rfl, rfl⟩ := hon
      exact ⟨f', hf'⟩
    · obtain ⟨g, hg⟩ := hsound k κ
      exact ⟨g, hg.congr (hothers k κ hon)⟩
  · intro k
    by_cases hk : k = inst.kind
    · subst hk
      have hnow : s'.stats inst.kind = counts := by rw [hstats, Function.update_self]
      refine .of_change (r := r) (c := c) (m := 0) (g := g) ?_
        (AList.lookup_isSome.mp (Option.isSome_of_eq_some hq)) ?_ ?_ ?_ ?_ ?_ ?_ ?_
      · exact fun κ hκ => hothers inst.kind κ fun hon => hκ hon.2
      · rw [hf'.share_eq.1, hf.share_eq.1]
        exact hlength
      · rw [hf'.share_eq.2, hf.share_eq.2, Nat.add_zero]
        exact hweight
      · rw [hnow, hreservations]
      · rw [hnow, hconsumes]
      · rw [hnow, hfills, Nat.add_zero]
      · rw [hgenerated, if_pos rfl]
      · rw [hnow, hf'.share_eq.1]
        exact hmax
    · apply Booked.of_keep
      · exact .of_eq (by rw [hstats, Function.update_of_ne hk])
      · rw [hgenerated, if_neg hk]
      · intro κ _
        have hqueue := hothers k κ fun hon => hk hon.1
        exact ⟨share_congr hqueue, share_congr hqueue⟩

/-- The issue of a load balances: one reservation, one more entry. -/
theorem load_balances {w : Nat} {inst : QueueInst} {mask : ActiveMask} {input : LaneInput}
    (hsound : Sound cfg s) (hload : inst.load = true)
    (h : issueWarp cfg read s w inst mask input = .ok (s', es)) : Balances cfg s s' es := by
  obtain ⟨key, wi, hissued, rfl, haccesses, _, _, _⟩ := issueWarp_load_frame hload h
  obtain ⟨f, hf⟩ := hsound inst.kind key
  have hkeys : ∀ k, keyForWarp inst.kind cfg s w inst.queueId = .ok k → k = key := by
    intro k hk
    rw [hissued.key_eq, Except.ok.injEq] at hk
    exact hk.symm
  obtain ⟨_, _, q, i, _, heffect⟩ := issueWarp_load hload hkeys hf h
  have hlength : (f.push i).items.length = f.items.length + 1 := by
    rw [Fifo.items_push, List.length_append, List.length_singleton]
  refine issue_balances (r := 1) (c := 0) (g := input.accesses) hsound hf heffect.queue_eq
    heffect.configured heffect.represents hissued.others hlength ?_
    (issueWarp_load_stats hload hf hissued.key_eq h) rfl rfl rfl ?_ (.inr ⟨by rw [hlength], ?_⟩)
  · rw [Fifo.weight_push, Item.pending, heffect.total_eq, heffect.marked_eq, Nat.sub_zero]
  · intro k
    have hkind : wi.kind = inst.kind := by rw [hissued.inst_eq]
    by_cases hk : k = inst.kind
    · simp [generated, Log.loads, Log.load?, hkind, hk, haccesses]
    · simp [generated, Log.loads, Log.load?, hkind, hk, Ne.symm hk]
  · rw [hlength]
    exact heffect.room

/-- The issue of a move balances: one consumption, one entry less. -/
theorem move_balances {w : Nat} {inst : QueueInst} {mask : ActiveMask} {input : LaneInput}
    (hsound : Sound cfg s) (hload : inst.load = false)
    (h : issueWarp cfg read s w inst mask input = .ok (s', es)) : Balances cfg s s' es := by
  obtain ⟨key, wi, written, hissued, rfl, _, _⟩ := issueWarp_move_frame hload h
  obtain ⟨f, hf⟩ := hsound inst.kind key
  have hkeys : ∀ k, keyForWarp inst.kind cfg s w inst.queueId = .ok k → k = key := by
    intro k hk
    rw [hissued.key_eq, Except.ok.injEq] at hk
    exact hk.symm
  obtain ⟨_, _, q, i, _, heffect⟩ := issueWarp_move hload hkeys hf h
  have hweight := Fifo.weight_pop Item.pending heffect.head_eq
  have hready : i.marked = i.total := heffect.ready
  have hpos : 0 < f.items.length := by
    apply List.length_pos_of_ne_nil
    intro hnil
    have hhead := heffect.head_eq
    rw [hnil] at hhead
    cases hhead
  refine issue_balances (r := 0) (c := 1) (g := 0) hsound hf heffect.queue_eq
    heffect.configured heffect.represents hissued.others ?_ ?_
    (issueWarp_move_stats hload h) rfl rfl rfl (fun k => by split <;> rfl)
    (.inl ⟨rfl, Nat.zero_le _⟩)
  · rw [Fifo.items_pop, List.length_tail]
    omega
  · have hzero : Item.pending i = 0 := by simp [Item.pending, hready]
    omega

/-- Erasing a CTA drops its queues. -/
theorem eraseCta_balances {ctaHwId : Nat} (hsound : Sound cfg s)
    (htables : s'.tables = (s.eraseCta ctaHwId).tables) (hstats : s'.stats = s.stats)
    (hgenerated : ∀ k, generated k es = 0) : Balances cfg s s' es := by
  have hlookup : ∀ k κ, s'.queue? k κ = if κ.ctaHwId = ctaHwId then none else s.queue? k κ := by
    intro k κ
    rw [queue?_congr htables]
    exact QueueTable.lookup_eraseCta (s.tables k) ctaHwId κ
  constructor
  · intro k κ
    by_cases hcta : κ.ctaHwId = ctaHwId
    · exact ⟨Fifo.empty, .inl ⟨by rw [hlookup, if_pos hcta], rfl⟩⟩
    · obtain ⟨f, hf⟩ := hsound k κ
      exact ⟨f, hf.congr (by rw [hlookup, if_neg hcta])⟩
  · intro k
    apply Booked.of_keep
    · exact .of_eq (by rw [hstats])
    · exact hgenerated k
    · intro κ hκ
      have hsome : (s'.queue? k κ).isSome := AList.lookup_isSome.mpr hκ
      have hqueue : s'.queue? k κ = s.queue? k κ := by
        rw [hlookup] at hsome ⊢
        split at hsome
        · cases hsome
        · rename_i hcta
          rw [if_neg hcta]
      exact ⟨share_congr hqueue, share_congr hqueue⟩

/-- A step that leaves the books alone balances. -/
theorem Untouched.balances (h : Untouched s s') (hsound : Sound cfg s)
    (hgenerated : ∀ k, generated k es = 0) : Balances cfg s s' es :=
  Marks.balances (.inl h) hsound hgenerated

end Shader
end WaspSim
