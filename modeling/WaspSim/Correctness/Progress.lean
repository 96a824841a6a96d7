import WaspSim.Correctness.Program
import WaspSim.Correctness.Runs

/-!
# Order-matched programs do not get stuck

What a producer and its consumer have done are two beginnings of one sequence.
If the consumer is behind, the queue it moves from next is not empty, and its head
is ready or waits for an access in flight; if it has caught up, all their queues
are empty and the next load has room. No circular wait between a full and an
empty queue is possible at any depth.
-/

namespace WaspSim
namespace Shader

open Log

variable {Mem : Type} {cfg : Config} {p : QueueProgram cfg} {s s' : Shader Mem} {id : Nat}
  {f : Fifo (Item Nat)} {log es : List Event} {mem : Mem} {a : Action Mem}
  {read : Mem → BitVec 64 → Nat → BitVec 64}

/-- The next element of a sequence extends its beginning. -/
private theorem concat_prefix {α : Type} {l l' : List α} {x : α} (h : l <+: l')
    (hx : l'[l.length]? = some x) : l ++ [x] <+: l' := by
  obtain ⟨t, rfl⟩ := h
  rw [List.getElem?_append_right (le_refl _), Nat.sub_self] at hx
  cases t with
  | nil => cases hx
  | cons y t =>
    obtain rfl : y = x := by simpa using hx
    exact ⟨t, by simp⟩

/-- Only the producer and the consumer name their queues. -/
theorem Names.warp_eq {w : Nat} {inst : QueueInst} (h : Names cfg s a w inst (p.key id))
    (hr : Residency cfg s) (hkind : inst.kind = p.kind) : ∃ load, w = p.warp load := by
  obtain ⟨_, _, hkey⟩ := keyForWarp_eq_ok.mp h.key_eq
  obtain ⟨hcta, horiginal⟩ : p.ctaHwId = (s.warps w).ctaId ∧ p.producer =
      originalWarpId (cfg.producerWarps p.kind) (w % cfg.warpsPerCta) := by
    rw [← hkind]
    exact ⟨congrArg QueueKey.ctaHwId hkey, congrArg QueueKey.originalWarpId hkey⟩
  have hrunning : 0 < (s.warps w).running := by
    have hnot := h.running
    rw [Warp.functionalDone, beq_eq_false_iff_ne] at hnot
    omega
  rw [(hr.home w (hr.running w hrunning)).1] at hcta
  have hsplit := Nat.div_add_mod' w cfg.warpsPerCta
  rw [← hcta] at hsplit
  unfold originalWarpId at horiginal
  split at horiginal
  · exact ⟨true, by simp only [QueueProgram.warp, ↓reduceIte]; omega⟩
  · refine ⟨false, ?_⟩
    simp only [QueueProgram.warp, Bool.false_eq_true, ↓reduceIte]
    omega

/-- On the queues of a program only its next instructions are tested and issued. -/
theorem Names.next_eq {w : Nat} {inst : QueueInst} (h : Names cfg s a w inst (p.key id))
    (hr : Residency cfg s) (hguard : p.Follows (s, log) a) (hkind : inst.kind = p.kind) :
    p.ids[(p.done inst.load log).length]? = some id ∧ inst.v3 = p.v3 id := by
  obtain ⟨load, hw⟩ := h.warp_eq hr hkind
  have hnext : p.next load log = some inst := hguard (w, inst) h.named load hw hkind
  obtain ⟨hid, rfl, hv3⟩ := QueueProgram.instAt_eq_some hnext
  have hqueue : inst.queueId = id := by
    obtain ⟨_, _, hkey⟩ := keyForWarp_eq_ok.mp h.key_eq
    exact (congrArg QueueKey.queueId hkey).symm
  rw [hqueue] at hid hv3
  exact ⟨hid, hv3⟩

/-- Both sides have done the beginning of the program, in queues of its widths. -/
structure Ordered (p : QueueProgram cfg) (s : Shader Mem) (log : List Event) : Prop where
  done_prefix : ∀ load, p.done load log <+: p.ids
  width : ∀ id q, s.queue? p.kind (p.key id) = some q → ∀ inst : QueueInst,
    inst.v3 = p.v3 id → q.payloadWordsPerLane = inst.payloadWords

namespace Ordered

/-- No instruction of the program has been issued at first. -/
theorem initial (p : QueueProgram cfg) (mem : Mem) : Ordered p (initial mem) [] where
  done_prefix _ := List.nil_prefix
  width id q hq := by
    rw [queue?, Shader.initial, AList.lookup_empty] at hq
    cases hq

/-- The instruction that issues next on a queue of the program extends what its side
has done. -/
private theorem use_prefix (h : Ordered p s log) (hr : Residency cfg s)
    (hguard : p.Follows (s, log) a) {w : Nat} {inst : QueueInst} {wi : WarpInst} {key : QueueKey}
    (hnames : Names cfg s a w inst key) (hissued : Issued cfg key s s' w inst wi) (load : Bool) :
    (if load = inst.load ∧ wi.On p.kind ⟨p.ctaHwId, p.producer, 0, 1, wi.queueId⟩ then
      p.done load log ++ [wi.queueId] else p.done load log) <+: p.ids := by
  split
  · rename_i hon
    obtain ⟨rfl, hon⟩ := hon
    obtain ⟨hkind, rfl⟩ := hissued.on_iff.mp hon
    have hkey : Names cfg s a w inst (p.key wi.queueId) := hnames
    exact concat_prefix (h.done_prefix _) (hkey.next_eq hr hguard hkind.symm).1
  · exact h.done_prefix load

/-- Every step that follows the program keeps the order. -/
theorem step (h : Ordered p s log) (hp : Provenance cfg s log) (hr : Residency cfg s)
    (hheld : ∀ id, ∃ f, Holds cfg p.kind (p.key id) s f) (hguard : p.Follows (s, log) a)
    (hstep : AccessStep cfg read s a s' es) : Ordered p s' (log ++ es) where
  done_prefix load := by
    have hold := h.done_prefix load
    unfold QueueProgram.done
    rw [idsOf_append]
    cases hstep with
    | quiet _ _ _ _ _ => exact hold
    | test _ _ _ _ => exact hold
    | load haction hload hissue =>
      obtain ⟨key, wi, hissued, rfl, _⟩ := issueWarp_load_frame hload hissue
      have hextended := h.use_prefix hr hguard (haction ▸ hissued.names) hissued load
      rw [hload] at hextended
      exact hextended
    | move haction hload hissue =>
      obtain ⟨key, wi, written, hissued, rfl, _⟩ := issueWarp_move_frame hload hissue
      have hextended := h.use_prefix hr hguard (haction ▸ hissued.names) hissued load
      rw [hload] at hextended
      exact hextended
    | answered inst _ _ _ done _ _ _ _ _ _ _ _ =>
      cases done with
      | true => exact hold
      | false => exact hold
    | completed _ _ _ _ _ _ _ _ => exact hold
    | @retire c _ _ _ _ =>
      simp only [List.foldl_cons, List.foldl_nil, trackId]
      split
      · exact List.nil_prefix
      · exact hold
  width id q hq inst hv3 := by
    obtain ⟨f, hf⟩ := hheld id
    rcases hstep.queue_back hp hf hq with ⟨q₀, hq₀, hshape⟩ | ⟨w, inst', hnames, hkind, hconf⟩
    · rw [hshape.width_eq]
      exact h.width id q₀ hq₀ inst hv3
    · have hv3' := (hnames.next_eq hr hguard hkind).2
      rw [hconf.width_eq, QueueInst.payloadWords_eq, QueueInst.payloadWords_eq,
        QueueInst.payloadWordsPerLane, QueueInst.payloadWordsPerLane, hv3', hv3]

end Ordered

/-- A program stays in order on every run that follows it. -/
theorem ordered_of_reaches
    (h : Reaches (logged (step cfg read)) p.Follows (initial mem, []) (s, log)) :
    Provenance cfg s log ∧ Residency cfg s ∧
      (∀ kind key, ∃ f, Tracks cfg kind key s log f) ∧ Ordered p s log := by
  refine Reaches.invariant (fun m => Provenance cfg m.1 m.2 ∧ Residency cfg m.1 ∧
      (∀ kind key, ∃ f, Tracks cfg kind key m.1 m.2 f) ∧ Ordered p m.1 m.2)
    ⟨.initial cfg mem, .initial cfg mem, fun kind key => ⟨_, .initial cfg kind key mem⟩,
      .initial p mem⟩ ?_ h
  rintro ⟨s, log⟩ a ⟨s', log'⟩ ⟨hp, hr, ht, ho⟩ hguard hstep
  obtain ⟨es, hstep, rfl⟩ := logged_eq_ok.mp hstep
  have haccess := hp.accessStep hstep
  refine ⟨hp.step haccess, hr.step hp hstep, fun kind key => ?_, ho.step hp hr (fun id => ?_) hguard
    haccess⟩
  · obtain ⟨f, hf⟩ := ht kind key
    obtain ⟨f', hqueue⟩ := haccess.queueStep hp hf.held
    exact ⟨f', hf.step hqueue⟩
  · obtain ⟨f, hf⟩ := ht p.kind (p.key id)
    exact ⟨f, hf.held⟩

/-- Both `can_issue` functions let the instruction pass. -/
def Issuable (cfg : Config) (s : Shader Mem) (w : Nat) (inst : QueueInst) : Prop :=
  ∀ countStall, ∃ s₁ s₂, waspRfqCanIssue cfg s w inst countStall = .ok (s₁, true) ∧
    smemqCanIssue cfg s₁ w inst countStall = .ok (s₂, true)

/-- The function of the instruction's own kind decides. -/
theorem Issuable.of_canIssue {w : Nat} {inst : QueueInst}
    (h : ∀ countStall, ∃ m, canIssue inst.kind cfg s w inst countStall = .ok (m, true)) :
    Issuable cfg s w inst := by
  intro countStall
  obtain ⟨m, hm⟩ := h countStall
  cases hkind : inst.kind with
  | rfq =>
    rw [hkind] at hm
    exact ⟨m, m, hm, canIssue_other (by rw [hkind]; decide)⟩
  | smemq =>
    rw [hkind] at hm
    exact ⟨s, m, canIssue_other (by rw [hkind]; decide), hm⟩

/-- A side that still runs names the queue of its next instruction. -/
private theorem keyForWarp_next (hr : Residency cfg s) {load : Bool}
    (hrunning : (s.warps (p.warp load)).functionalDone = false) (id : Nat) :
    keyForWarp p.kind cfg s (p.warp load) id = .ok (p.key id) := by
  have hpos : 0 < (s.warps (p.warp load)).running := by
    rw [Warp.functionalDone, beq_eq_false_iff_ne] at hrunning
    omega
  obtain ⟨hcta, hwarp⟩ := hr.home _ (hr.running _ hpos)
  have hproducer := p.producer_lt
  have hconsumer := p.consumer_lt
  have hlocal : p.warp load / cfg.warpsPerCta = p.ctaHwId ∧ originalWarpId
      (cfg.producerWarps p.kind) (p.warp load % cfg.warpsPerCta) = p.producer := by
    unfold QueueProgram.warp originalWarpId
    have hlt : (if load then p.producer else p.producer + cfg.producerWarps p.kind) <
        cfg.warpsPerCta := by
      split
      · omega
      · omega
    rw [Nat.mul_comm, Nat.mul_add_div cfg.warpsPerCta_pos, Nat.div_eq_of_lt hlt, Nat.mul_add_mod,
      Nat.mod_eq_of_lt hlt, Nat.add_zero]
    refine ⟨rfl, ?_⟩
    cases load with
    | true => simp [hproducer]
    | false => simp
  rw [keyForWarp_eq_ok, hcta, hlocal.1, hlocal.2]
  exact ⟨hwarp, by omega, rfl⟩

/-- The next instruction of a side passes when its queue has room or a ready head. -/
private theorem issuable_next (hr : Residency cfg s) (ho : Ordered p s log) {load : Bool}
    (hrunning : (s.warps (p.warp load)).functionalDone = false)
    (hid : p.ids[(p.done load log).length]? = some id) (hf : Holds cfg p.kind (p.key id) s f)
    (hready : ∀ q, Represents q f → q.entries = (cfg.options p.kind).entries →
      (if load then !q.full else q.headReady) = true) :
    ∃ inst, p.next load log = some inst ∧ Issuable cfg s (p.warp load) inst := by
  obtain ⟨inst, hinst, hqueueId, hkind, rfl, hv3⟩ : ∃ inst, p.next load log = some inst ∧
      inst.queueId = id ∧ inst.kind = p.kind ∧ inst.load = load ∧ inst.v3 = p.v3 id := by
    rw [QueueProgram.next, QueueProgram.instAt, hid]
    exact ⟨_, rfl, rfl, rfl, rfl, rfl⟩
  refine ⟨inst, hinst, .of_canIssue fun countStall => ?_⟩
  have hkey := keyForWarp_next hr hrunning id
  rw [← hqueueId] at hkey hf
  obtain ⟨m, q, hqueue⟩ := queueFor_succeeds hkey p.entries_pos hf
    fun q hq => ho.width _ q hq inst (by rw [hv3, hqueueId])
  obtain ⟨_, _, _, hconf, hrep, _⟩ := queueFor_spec hqueue hf
  rw [hkind]
  exact ⟨m, canIssue_succeeds p.enabled hkind hqueue (hready q hrep hconf.entries_eq)⟩

/-- In every reached state in which the two warps have not both finished, the next
instruction of one of them passes `can_issue`, or an access of a load on their queues
is in flight; when both have finished, their queues are empty. -/
theorem order_matched_progress
    (h : Reaches (logged (step cfg read)) p.Follows (initial mem, []) (s, log))
    (hrunning : ∀ load, (p.done load log).length < p.ids.length →
      (s.warps (p.warp load)).functionalDone = false) :
    ((∃ load, (p.done load log).length < p.ids.length) →
      (∃ load inst, p.next load log = some inst ∧ Issuable cfg s (p.warp load) inst) ∨
        ∃ id ∈ p.ids, onQueue p.kind (p.key id) s.ldst ≠ 0) ∧
    ((∀ load, (p.done load log).length = p.ids.length) →
      ∀ id q, s.queue? p.kind (p.key id) = some q → q.empty = true) := by
  obtain ⟨hp, hr, ht, ho⟩ := ordered_of_reaches h
  -- what a side has done on a queue is what has entered or left its window
  have hcount : ∀ id, ∃ f, Tracks cfg p.kind (p.key id) s log f ∧
      (p.done true log).count id = f.pushed ∧ (p.done false log).count id = f.popped := by
    intro id
    obtain ⟨f, hf⟩ := ht p.kind (p.key id)
    exact ⟨f, hf, count_idsOf_load.trans hf.loads_length, count_idsOf_move.trans hf.moves_length⟩
  -- the consumer is never ahead, since it would have popped an empty window
  have hbehind : p.done false log <+: p.done true log := by
    rcases Nat.le_total (p.done false log).length (p.done true log).length with hle | hle
    · exact List.prefix_of_prefix_length_le (ho.done_prefix false) (ho.done_prefix true) hle
    · obtain ⟨l, hl⟩ := List.prefix_of_prefix_length_le (ho.done_prefix true)
        (ho.done_prefix false) hle
      cases l with
      | nil => exact ⟨[], by simpa using hl.symm⟩
      | cons id l =>
        obtain ⟨f, _, hpushed, hpopped⟩ := hcount id
        rw [← hl, List.count_append, List.count_cons_self, hpushed] at hpopped
        simp only [Fifo.pushed] at hpopped
        omega
  constructor
  · rintro ⟨side, hside⟩
    obtain ⟨l, hl⟩ := hbehind
    cases l with
    | cons id l =>
      -- the consumer is behind: the window of its next queue is not empty
      have hnext : p.ids[(p.done false log).length]? = some id := by
        obtain ⟨l', hl'⟩ := ho.done_prefix true
        rw [← hl', ← hl]
        simp
      obtain ⟨f, hf, hpushed, hpopped⟩ := hcount id
      rw [← hl, List.count_append, List.count_cons_self, hpopped] at hpushed
      obtain ⟨i, hi⟩ := Fifo.exists_get? (f := f) (le_refl _) (by omega)
      by_cases hready : i.Ready
      · left
        have hlt := (List.getElem?_eq_some_iff.mp hnext).1
        refine ⟨false, issuable_next hr ho (hrunning false hlt) hnext hf.held fun q hrep _ => ?_⟩
        exact hrep.headReady_iff.mpr ⟨i, by rw [← Fifo.get?_popped]; exact hi, hready⟩
      · right
        refine ⟨id, List.mem_of_getElem? hnext, fun hnone => ?_⟩
        obtain ⟨q, _, _, hrep⟩ := hf.held.exists_queue hi
        obtain ⟨e, _, hold⟩ := hrep.entry hi
        have hpending : Item.pending i ≤ 0 :=
          calc Item.pending i ≤ f.weight Item.pending := Fifo.weight_le hi
            _ ≤ (onQueue p.kind (p.key id) s.ldst).card := hf.outstanding
            _ = 0 := by rw [hnone, Multiset.card_zero]
        have hmarked := hold.marked_le
        unfold Item.pending at hpending
        unfold Item.Ready at hready
        omega
    | nil =>
      -- the consumer has caught up: the next queue of the producer has room
      rw [List.append_nil] at hl
      left
      have hlt : (p.done true log).length < p.ids.length := by
        cases side with
        | true => exact hside
        | false => rwa [hl] at hside
      obtain ⟨f, hf, hpushed, hpopped⟩ := hcount (p.ids[(p.done true log).length])
      rw [hl, hpushed] at hpopped
      refine ⟨true, issuable_next hr ho (hrunning true hlt) (List.getElem?_eq_getElem hlt) hf.held
        fun q hrep hentries => ?_⟩
      have hpos := p.entries_pos
      have hfull : q.full = false := by
        rw [hrep.full_eq_false_iff, hentries]
        simp only [Fifo.pushed] at hpopped
        omega
      simp [hfull]
  · intro hfinished id q hq
    obtain ⟨f, hf, hpushed, hpopped⟩ := hcount id
    have hsame : p.done false log = p.done true log :=
      hbehind.eq_of_length ((hfinished false).trans (hfinished true).symm)
    rw [hsame, hpushed] at hpopped
    rw [(hf.held.of_queue hq).2.empty_iff, ← List.length_eq_zero_iff]
    simp only [Fifo.pushed] at hpopped
    omega

/-- A producer that loads into two queues of one entry each, which are full until its
consumer moves. -/
def sampleProgram : QueueProgram (Config.sample 64 1) where
  kind := .rfq
  ctaHwId := 0
  producer := 0
  ids := [0, 1, 0, 1]
  v3 := fun _ => false
  vectorDst := fun _ _ => true
  cacheOp := fun _ _ => .all
  enabled := by decide
  entries_pos := by decide
  producer_lt := by decide
  consumer_lt := by decide

theorem order_matched_progress_when_full :
    ∃ s log, Reaches (logged (step (Config.sample 64 1) sampleRead)) sampleProgram.Follows
        (initial (), []) (s, log) ∧
      ((∃ load inst, sampleProgram.next load log = some inst ∧
          Issuable (Config.sample 64 1) s (sampleProgram.warp load) inst) ∨
        ∃ id ∈ sampleProgram.ids, onQueue .rfq (sampleProgram.key id) s.ldst ≠ 0) := by
  obtain ⟨s, log, hrun, hlt, hrunning⟩ := exists_reaches (Config.sample 64 1) sampleRead
    sampleProgram.Follows () [.launch 0, .decode 0, .decode 0, .decode 0, .decode 1,
      .issue 0 sampleLoad (BitVec.allOnes 32) (sampleInput 1),
      .issue 0 { sampleLoad with queueId := 1 } (BitVec.allOnes 32) (sampleInput 1),
      .test 0 sampleLoad true]
    (fun s log => (sampleProgram.done true log).length < sampleProgram.ids.length ∧
      ∀ load, (s.warps (sampleProgram.warp load)).functionalDone = false) (by decide +kernel)
  exact ⟨s, log, hrun, (order_matched_progress hrun fun load _ => hrunning load).1 ⟨true, hlt⟩⟩

end Shader
end WaspSim
