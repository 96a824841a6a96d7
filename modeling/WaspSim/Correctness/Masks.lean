import WaspSim.Correctness.Delivery
import WaspSim.Correctness.Instances

/-!
# Lanes of loads and moves

Nothing compares the lanes of a move with those of the load whose entry it pops,
whatever `assert_mask_match` says. A lane of a move that executes receives a word
that a producer lane stored exactly when the load with the same number on the
queue executed in that lane; otherwise it receives the zero of the reservation.
-/

namespace WaspSim
namespace Shader

open Log

variable {Mem : Type} {cfg : Config} {kind : QueueKind} {key : QueueKey} {s s' : Shader Mem}
  {log es : List Event} {mem : Mem} {read : Mem → BitVec 64 → Nat → BitVec 64}

/-- The load `r` filled the entry that the next move on a queue pops: it is the last one
that reserved the slot at the head. -/
def FilledHead (kind : QueueKind) (key : QueueKey) (s : Shader Mem) (log : List Event)
    (r : LoadRecord) : Prop :=
  r ∈ loadsOf kind key log ∧ ∃ q, s.queue? kind key = some q ∧
    r.inst.tokenSlotIndex = q.head ∧ slotOwner kind key q.head log = some r.inst.uid

/-- A move pops an entry only if each lane it executes stored its words when the entry
was filled, and such a lane receives these words when data is modelled. -/
def LanesServed (cfg : Config) (read : Mem → BitVec 64 → Nat → BitVec 64)
    (p : Shader Mem × List Event) : Action Mem → Prop
  | .issue warpId inst activeMask input => inst.load = false →
    ∃ key r s' wi written,
      keyForWarp inst.kind cfg p.1 warpId inst.queueId = .ok key ∧
      FilledHead inst.kind key p.1 p.2 r ∧
      issueWarp cfg read p.1 warpId inst activeMask input =
        .ok (s', [.moved wi (executes activeMask input) written]) ∧
      ∀ lane < cfg.warpSize, executes activeMask input lane = true →
        r.executed lane = true ∧ (cfg.modelsData inst.kind = true →
          ∀ word < inst.payloadWords, (inst.vectorDst = true ∨ word = 0) →
            (written lane)[word]? = some (r.value lane word))
  | _ => True

/-- The lanes that a move executes are among those that the load with its number on the
queue executed. -/
def MasksMatch (cfg : Config) (p : Shader Mem × List Event) : Action Mem → Prop
  | .issue warpId inst activeMask input => inst.load = false →
    ∀ key r, keyForWarp inst.kind cfg p.1 warpId inst.queueId = .ok key →
      (loadsOf inst.kind key p.2)[(movesOf inst.kind key p.2).length]? = some r →
      ∀ lane < cfg.warpSize, executes activeMask input lane = true → r.executed lane = true
  | _ => True

/-- A move that issues pops the entry of the load with its number. -/
theorem Run.pops (hrun : Run cfg read anyAction mem s log) {w : Nat} {inst : QueueInst}
    {mask : ActiveMask} {input : LaneInput} (hmove : inst.load = false)
    (hissue : issueWarp cfg read s w inst mask input = .ok (s', es)) :
    ∃ key wi written r, keyForWarp inst.kind cfg s w inst.queueId = .ok key ∧
      es = [.moved wi (executes mask input) written] ∧
      (loadsOf inst.kind key log)[(movesOf inst.kind key log).length]? = some r ∧
      FilledHead inst.kind key s log r ∧
      (cfg.modelsData inst.kind = true → ∀ lane word, lane < cfg.warpSize →
        r.executed lane = true → executes mask input lane = true → word < inst.payloadWords →
        (inst.vectorDst = true ∨ word = 0) →
        (written lane)[word]? = some (r.value lane word)) := by
  obtain ⟨key, _, _, hissued, _⟩ := issueWarp_move_frame hmove hissue
  have hfun : ∀ k, keyForWarp inst.kind cfg s w inst.queueId = .ok k → k = key := by
    intro k hk
    rw [hissued.key_eq, Except.ok.injEq] at hk
    exact hk.symm
  obtain ⟨_, f, ht⟩ := hrun.tracks inst.kind key
  obtain ⟨wi, written, q', i, hes, heffect⟩ := issueWarp_move hmove hfun ht.held hissue
  have hi : f.get? f.popped = some i := by rw [Fifo.get?_popped, heffect.head_eq]
  obtain ⟨r, hr, hitem⟩ := ht.item _ i hi
  obtain ⟨q, hq, _, hrep⟩ := ht.held.exists_queue hi
  have hslot : r.inst.tokenSlotIndex = q.head := by
    rw [hrep.head_eq]
    exact congrArg Token.slotIndex (ht.token _ r q hr hq)
  have hrkind : r.inst.kind = inst.kind := (on_of_mem_loadsOf (List.mem_of_getElem? hr)).1
  refine ⟨key, wi, written, r, hissued.key_eq, hes, by rw [ht.moves_length]; exact hr,
    ⟨List.mem_of_getElem? hr, q, hq, hslot, ?_⟩,
    fun hdata lane word hlane hexec hexec' hword hdst => ?_⟩
  · rw [← hslot]
    exact ht.slotOwner_eq hq hr (hrep.pushed_le hi)
  · have hwidth : inst.payloadWords = r.inst.payloadWords := by
      have hw : r.inst.payloadWordsPerLane = q.payloadWordsPerLane :=
        congrArg Token.payloadWordsPerLane (ht.token _ r q hr hq)
      rw [QueueInst.payloadWords_eq r.inst.toQueueInst, hw, ← (heffect.shape q hq).width_eq,
        heffect.configured.width_eq]
    rw [heffect.written_eq hdata lane word hlane hexec' hword hdst,
      hitem.payload_eq (hrkind ▸ hdata) lane word hlane hexec (hwidth ▸ hword)]

/-- A move that issues serves its lanes exactly when its mask matches that of its load. -/
theorem lanesServed_iff (hrun : Run cfg read anyAction mem s log) {a : Action Mem}
    (hstep : step cfg read s a = .ok (s', es)) :
    LanesServed cfg read (s, log) a ↔ MasksMatch cfg (s, log) a := by
  cases a with
  | issue w inst mask input =>
    refine forall_congr' fun hmove => ?_
    obtain ⟨key, wi, written, r, hkey, rfl, hr, hfilled, hvalue⟩ := hrun.pops hmove hstep
    have hkey_eq : ∀ {k}, keyForWarp inst.kind cfg s w inst.queueId = .ok k → k = key := by
      intro k hk
      rw [hkey, Except.ok.injEq] at hk
      exact hk.symm
    constructor
    · rintro ⟨k, r', _, _, _, hk, ⟨hmem', q', hq', _, howner'⟩, _, hall⟩ k' r'' hk' hr''
      obtain rfl := hkey_eq hk
      obtain rfl := hkey_eq hk'
      obtain rfl : r = r'' := Option.some.inj (hr.symm.trans hr'')
      obtain ⟨hmem, q, hq, _, howner⟩ := hfilled
      obtain rfl : q = q' := Option.some.inj (hq.symm.trans hq')
      obtain rfl : r = r' := by
        refine hrun.provenance.eq_of_uid_eq (mem_loads_of_mem_loadsOf hmem)
          (mem_loads_of_mem_loadsOf hmem') ?_
        exact Option.some.inj (howner.symm.trans howner')
      exact fun lane hlane hexec => (hall lane hlane hexec).1
    · intro hmatch
      have hlanes := hmatch key r hkey hr
      refine ⟨key, r, s', wi, written, hkey, hfilled, hstep, fun lane hlane hexec => ?_⟩
      refine ⟨hlanes lane hlane hexec, fun hdata word hword hdst => ?_⟩
      exact hvalue hdata lane word hlane (hlanes lane hlane hexec) hexec hword hdst
  | _ => exact Iff.rfl

/-- Along any run, every move serves the lanes it executes if and only if every move's
lanes are among those of the load with its number. -/
theorem lanes_served_iff_masks_match (cfg : Config) (read : Mem → BitVec 64 → Nat → BitVec 64)
    (mem : Mem) (as : List (Action Mem)) :
    Along (logged (step cfg read)) (LanesServed cfg read) as (initial mem, []) ↔
      Along (logged (step cfg read)) (MasksMatch cfg) as (initial mem, []) := by
  refine Along.congr (fun p a p' hreach hstep => ?_) as
  have hrun : Run cfg read anyAction mem p.1 p.2 := hreach
  obtain ⟨es, hstep, _⟩ := logged_eq_ok.mp hstep
  exact lanesServed_iff hrun hstep

/-- The load's guard switches lane 1 off. -/
def dividedInput : LaneInput := { sampleInput 1 with skip := fun lane => lane == 1 }

/-- A load that leaves out lane 1 and a move in all lanes. -/
def dividedActions : List (Action Unit) :=
  [.launch 0, .decode 0, .decode 1, .issue 0 sampleLoad (BitVec.allOnes 32) dividedInput,
    .dispatch 0 { freeBanks := 1 }, .l1Latency 0 .hit,
    .issue 1 sampleMove (BitVec.allOnes 32) (sampleInput 0)]

/-- With the check configured a move takes a word in a lane that its load left out, and
gets a 0 there that no producer lane wrote. -/
theorem lane_without_producer :
    (Config.sample 64 1).rfq.assertMaskMatch = true ∧
    ¬Along (logged (step (Config.sample 64 1) sampleRead))
      (LanesServed (Config.sample 64 1) sampleRead) dividedActions (initial (), []) ∧
    ∃ s log, Run (Config.sample 64 1) sampleRead anyAction () s log ∧
      ((movesOf .rfq sampleKey log).map fun m => (m.executed 1, m.written 1)) =
        [(true, [0, 0, 0, 0])] ∧
      ((loadsOf .rfq sampleKey log).map fun r => (r.executed 1, r.value 1 0)) = [(false, 5)] := by
  refine ⟨rfl, fun hall => ?_, ?_⟩
  · have heval : ((dividedActions.take 6).foldlM
        (logged (step (Config.sample 64 1) sampleRead)) (initial (), [])).toOption.any
        (fun p => decide (keyForWarp .rfq (Config.sample 64 1) p.1 1 0 = .ok sampleKey ∧
          (loadsOf .rfq sampleKey p.2).all (fun r => !r.executed 1) = true) &&
          (logged (step (Config.sample 64 1) sampleRead) p
            (.issue 1 sampleMove (BitVec.allOnes 32) (sampleInput 0))).toOption.isSome) = true := by
      decide +kernel
    cases hrun : (dividedActions.take 6).foldlM (logged (step (Config.sample 64 1) sampleRead))
        (initial (), []) with
    | error e =>
      rw [hrun] at heval
      cases heval
    | ok p =>
      simp only [hrun, Except.toOption, Option.any_some, Bool.and_eq_true, decide_eq_true_eq,
        List.all_eq_true] at heval
      obtain ⟨⟨hkey, hloads⟩, hsome⟩ := heval
      cases hstep : logged (step (Config.sample 64 1) sampleRead) p
          (.issue 1 sampleMove (BitVec.allOnes 32) (sampleInput 0)) with
      | error e =>
        rw [hstep] at hsome
        cases hsome
      | ok p' =>
        obtain ⟨key, r, _, _, _, hk, ⟨hr, _⟩, _, hlanes⟩ :=
          Along.of_append (dividedActions.take 6) [] hall hrun hstep rfl
        obtain rfl : sampleKey = key := Except.ok.inj (hkey.symm.trans hk)
        have hoff := hloads r hr
        rw [(hlanes 1 (by decide) (by decide)).1] at hoff
        cases hoff
  · exact exists_run (Config.sample 64 1) sampleRead anyAction () dividedActions _
      (by decide +kernel)

end Shader
end WaspSim
