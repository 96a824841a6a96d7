import WaspSim.Correctness.Runs

/-!
# Moves receive the values of loads

The `k`-th move issued on a queue writes what the `k`-th load issued on it read
from memory, and comes after all answers to that load, as long as the CTA of the
queue is not retired with accesses of its loads in flight. A response that is
left over from an earlier CTA can let a move come before the answers.
-/

namespace WaspSim
namespace Shader

open Log

variable {Mem : Type} {cfg : Config} {kind : QueueKind} {key : QueueKey} {s s' : Shader Mem}
  {log es : List Event} {mem : Mem} {read : Mem → BitVec 64 → Nat → BitVec 64}

/-- The load `r` was issued in core `s₀`, where it read its values from memory. -/
structure IssuedIn (cfg : Config) (read : Mem → BitVec 64 → Nat → BitVec 64) (s₀ : Shader Mem)
    (input : LaneInput) (r : LoadRecord) : Prop where
  issue_eq : ∃ w inst mask s₁, inst.load = true ∧ r.executed = executes mask input ∧
    issueWarp cfg read s₀ w inst mask input = .ok (s₁, [.loaded r.inst r.executed r.value])
  value_eq : ∀ lane word, r.value lane word = read s₀.mem (input.addr lane word) input.size

/-- A step logs the one load it issues, if any. -/
private theorem AccessStep.loads_eq {a : Action Mem} (h : AccessStep cfg read s a s' es) :
    loads es = [] ∨ ∃ r input, loads es = [r] ∧ IssuedIn cfg read s input r := by
  cases h with
  | @load w inst mask input _ _ hload hissue =>
    obtain ⟨key', wi, _, rfl, _⟩ := issueWarp_load_frame hload hissue
    exact .inr ⟨_, input, rfl, ⟨w, inst, mask, s', hload, rfl, hissue⟩, fun _ _ => rfl⟩
  | move _ hload hissue =>
    obtain ⟨key', wi, written, _, rfl, _⟩ := issueWarp_move_frame hload hissue
    exact .inl rfl
  | quiet => exact .inl rfl
  | test => exact .inl rfl
  | answered inst _ _ _ done => exact .inl loads_answerEvents
  | completed => exact .inl rfl
  | retire => exact .inl rfl

/-- Every logged load was issued in a core that the run went through. -/
theorem Run.exists_issue {guard : Shader Mem → Action Mem → Prop}
    (h : Run cfg read guard mem s log) {r : LoadRecord} (hr : r ∈ loads log) :
    ∃ s₀ log₀ input, Run cfg read guard mem s₀ log₀ ∧ log₀ <+: log ∧
      IssuedIn cfg read s₀ input r := by
  have hall : Run cfg read guard mem s log ∧ ∀ r ∈ loads log, ∃ s₀ log₀ input,
      Run cfg read guard mem s₀ log₀ ∧ log₀ <+: log ∧ IssuedIn cfg read s₀ input r := by
    refine Reaches.invariant (fun p => Run cfg read guard mem p.1 p.2 ∧ ∀ r ∈ loads p.2,
      ∃ s₀ log₀ input, Run cfg read guard mem s₀ log₀ ∧ log₀ <+: p.2 ∧ IssuedIn cfg read s₀ input r)
      ⟨?_, fun r hr => by cases hr⟩ ?_ h
    · exact Reaches.start
    rintro ⟨s, log⟩ a ⟨s', log'⟩ ⟨hrun, hloads⟩ hguard hstep
    refine ⟨Reaches.next hrun hguard hstep, fun r hr => ?_⟩
    obtain ⟨es, hstep, rfl⟩ := logged_eq_ok.mp hstep
    rw [loads_append] at hr
    rcases List.mem_append.mp hr with hr | hr
    · obtain ⟨s₀, log₀, input, hrun₀, hprefix, hissued⟩ := hloads r hr
      exact ⟨s₀, log₀, input, hrun₀, hprefix.trans (List.prefix_append _ _), hissued⟩
    · rcases (hrun.provenance.accessStep hstep).loads_eq with hnone | ⟨r', input, hes, hissued⟩
      · rw [hnone] at hr
        cases hr
      · rw [hes] at hr
        obtain rfl := List.mem_singleton.mp hr
        exact ⟨s, log, input, hrun, List.prefix_append _ _, hissued⟩
  exact hall.2 r hr

/-- The move `wi` receives load `r`: the words written to a lane that executed in both
are the values the load read, and every access of the load was answered before. -/
structure Receives (cfg : Config) (s : Shader Mem) (log : List Event) (r : LoadRecord)
    (wi : WarpInst) (executed : Nat → Bool) (written : Nat → List (BitVec 64)) : Prop where
  width_eq : r.inst.payloadWords = wi.payloadWords
  answered : answers r.inst.uid log = r.inst.accessqCount
  arrived : r.inst.access ∉ s.ldst.inflight
  value_eq : ∀ lane word, lane < cfg.warpSize → r.executed lane = true → executed lane = true →
    word < wi.payloadWords → (wi.vectorDst = true ∨ word = 0) →
    (written lane)[word]? = some (r.value lane word)

/-- The next move on a queue that models data receives the load with the same number. -/
theorem move_receives_load (hdata : cfg.modelsData kind = true)
    (hrun : Run cfg read (CleanRetire kind key) mem s log) {w : Nat} {inst : QueueInst}
    {mask : ActiveMask} {input : LaneInput} (hkind : inst.kind = kind) (hmove : inst.load = false)
    (hkey : keyForWarp kind cfg s w inst.queueId = .ok key)
    (hissue : issueWarp cfg read s w inst mask input = .ok (s', es)) :
    ∃ wi written r s₀ log₀ input₀, es = [.moved wi (executes mask input) written] ∧
      (loadsOf kind key log)[(movesOf kind key log).length]? = some r ∧
      Run cfg read (CleanRetire kind key) mem s₀ log₀ ∧ log₀ <+: log ∧
      IssuedIn cfg read s₀ input₀ r ∧ Receives cfg s log r wi (executes mask input) written := by
  subst hkind
  obtain ⟨f, ht, hs⟩ := hrun.settled
  have hp := hrun.provenance
  have hfun : ∀ k, keyForWarp inst.kind cfg s w inst.queueId = .ok k → k = key := by
    intro k hk
    rw [hkey, Except.ok.injEq] at hk
    exact hk.symm
  obtain ⟨key', wi, written, hissued, rfl, _, _⟩ := issueWarp_move_frame hmove hissue
  obtain ⟨wi', written', q, i, hes, heffect⟩ := issueWarp_move hmove hfun ht.held hissue
  obtain ⟨rfl, rfl⟩ : wi = wi' ∧ written = written' := by simpa using hes
  have hi : f.get? f.popped = some i := by rw [Fifo.get?_popped, heffect.head_eq]
  obtain ⟨r, hr, hitem⟩ := ht.item _ i hi
  have hmem : r ∈ loads log := mem_loads_of_mem_loadsOf (List.mem_of_getElem? hr)
  have hanswers : answers r.inst.uid log = r.inst.accessqCount := by
    rw [← hs.marked _ i r hi hr, ← hitem.total_eq]
    exact heffect.ready
  have hrkind : r.inst.kind = inst.kind := (on_of_mem_loadsOf (List.mem_of_getElem? hr)).1
  obtain ⟨s₀, log₀, input₀, hrun₀, hprefix, hissued₀⟩ := hrun.exists_issue hmem
  refine ⟨wi, written, r, s₀, log₀, input₀, rfl, by rw [ht.moves_length]; exact hr, hrun₀, hprefix,
    hissued₀, ?_, hanswers, ?_, ?_⟩
  · obtain ⟨q₀, hq₀, _, _⟩ := ht.held.exists_queue hi
    have hwidth : r.inst.payloadWordsPerLane = q₀.payloadWordsPerLane :=
      congrArg Token.payloadWordsPerLane (ht.token _ r q₀ hr hq₀)
    rw [QueueInst.payloadWords_eq, hwidth, hissued.inst_eq, ← heffect.configured.width_eq,
      (heffect.shape q₀ hq₀).width_eq]
  · intro hin
    have hlt := hp.answers_lt hmem hin
    omega
  · intro lane word hlane hexec hexec' hword hdst
    rw [hissued.inst_eq] at hword hdst
    have hvalue := heffect.written_eq hdata lane word hlane hexec' hword hdst
    have hwords : word < r.inst.payloadWords := by
      obtain ⟨q₀, hq₀, _, _⟩ := ht.held.exists_queue hi
      have hwidth : r.inst.payloadWordsPerLane = q₀.payloadWordsPerLane :=
        congrArg Token.payloadWordsPerLane (ht.token _ r q₀ hr hq₀)
      rw [QueueInst.payloadWords_eq, hwidth, ← (heffect.shape q₀ hq₀).width_eq,
        heffect.configured.width_eq]
      exact hword
    rw [hvalue, hitem.payload_eq (hrkind ▸ hdata) lane word hlane hexec hwords]

theorem move_receives_load_in_time :
    ∃ s log s' wi written r,
      Run (Config.sample 64 1) sampleRead (CleanRetire .rfq sampleKey) () s log ∧
      issueWarp (Config.sample 64 1) sampleRead s 1 sampleMove (BitVec.allOnes 32)
        (sampleInput 0) =
        .ok (s', [.moved wi (executes (BitVec.allOnes 32) (sampleInput 0)) written]) ∧
      Receives (Config.sample 64 1) s log r wi (executes (BitVec.allOnes 32) (sampleInput 0))
        written := by
  obtain ⟨s, log, hrun, hkey, hissue⟩ := exists_run (Config.sample 64 1) sampleRead
    (CleanRetire .rfq sampleKey) () answerInTime
    (fun s _ => keyForWarp .rfq (Config.sample 64 1) s 1 0 = .ok sampleKey ∧
      (issueWarp (Config.sample 64 1) sampleRead s 1 sampleMove (BitVec.allOnes 32)
        (sampleInput 0)).toOption.isSome = true) (by decide +kernel)
  cases hresult : issueWarp (Config.sample 64 1) sampleRead s 1 sampleMove (BitVec.allOnes 32)
      (sampleInput 0) with
  | error e =>
    rw [hresult] at hissue
    cases hissue
  | ok p =>
    obtain ⟨wi, written, r, _, _, _, hes, _, _, _, _, hreceives⟩ :=
      move_receives_load (by decide) hrun rfl rfl hkey hresult
    exact ⟨s, log, p.1, wi, written, r, hrun, by rw [hresult, ← hes], hreceives⟩

/-- With a response of an earlier CTA outstanding, a move issues although the access of
its load has not been answered. -/
theorem move_before_answer :
    ∃ s log, Run (Config.sample 64 1) sampleRead anyAction () s log ∧
      keyForWarp .rfq (Config.sample 64 1) s 1 0 = .ok sampleKey ∧
      (issueWarp (Config.sample 64 1) sampleRead s 1 sampleMove (BitVec.allOnes 32)
        (sampleInput 0)).toOption.isSome = true ∧
      (movesOf .rfq sampleKey log).length = 0 ∧
      (loadsOf .rfq sampleKey log)[0]?.map
        (fun r => (answers r.inst.uid log, r.inst.accessqCount)) = some (0, 1) := by
  exact exists_run (Config.sample 64 1) sampleRead anyAction () answerLate _ (by decide +kernel)

end Shader
end WaspSim
