import WaspSim.Scheduler.Settled

/-!
# The collected candidates

A candidate is the instruction that its warp presents. It is ready when the
scoreboard and the queues let it pass and the register set of its execution unit
has a free register; otherwise it says why not.
-/

namespace WaspSim

/-- The execution unit behind an output register set. -/
def OutPort.execType : OutPort → ExecUnitType
  | .sp => .sp
  | .dp => .dp
  | .sfu => .sfu
  | .int => .int
  | .tensorCore => .tensor
  | .mem => .mem
  | .specCore _ => .specialized

namespace IssueState

variable {Mem Threads Simt Score : Type} {O : Outside Mem Threads Simt Score} {cfg : SchedConfig}
  {c c' c₂ : IssueState Mem Threads Simt Score} {schedId w : Nat} {inst : SchedInst}

/-- The instruction that a warp presents is valid and has the PC of the SIMT stack. -/
theorem presented_eq_some (h : c.presented O w = some inst) :
    (c.schedWarps w).ibufferNextInst = some inst ∧ (c.schedWarps w).ibufferNextValid = true ∧
      O.pdomStackTop (c.simtStack w) = inst.pc := by
  unfold presented at h
  dsimp only at h
  split at h
  · cases h
  · split at h
    · rename_i inst' hinst
      split at h
      · rename_i hnext
        cases h
        rw [Bool.and_eq_true, beq_iff_eq] at hnext
        exact ⟨hinst, hnext⟩
      · cases h
    · cases h

/-- A classified instruction is no barrier and no device runtime call, its register set belongs
to its execution unit, and the result says whether that has a free register. -/
theorem classifyIssueTarget_some {port : OutPort} {execType : ExecUnitType} {free : Bool}
    (h : c.classifyIssueTarget cfg schedId inst = .ok (some port, execType, free)) :
    inst.isCdp = 0 ∧ inst.op ≠ .barrierOp ∧ inst.op ≠ .memoryBarrierOp ∧
      execType = port.execType ∧
      RegisterSet.hasFree (c.out port) cfg.subCoreModel schedId = .ok free := by
  unfold classifyIssueTarget at h
  split at h
  · simp at h
  · rename_i hplain
    simp only [not_or, not_not] at hplain
    obtain ⟨hbarrier, hmembar, hcdp⟩ := hplain
    refine ⟨hcdp, hbarrier, hmembar, ?_⟩
    have htarget : ∀ {port' : OutPort},
        (RegisterSet.hasFree (c.out port') cfg.subCoreModel schedId >>= fun free =>
          pure (some port', port'.execType, free)) = .ok (some port, execType, free) →
        execType = port.execType ∧
          RegisterSet.hasFree (c.out port) cfg.subCoreModel schedId = .ok free := by
      intro port' hport
      simp only [bind_eq_ok, pure_eq_ok, Prod.mk.injEq, Option.some.injEq] at hport
      obtain ⟨free', hfree, rfl, rfl, rfl⟩ := hport
      exact ⟨rfl, hfree⟩
    split at h
    · exact htarget h
    · exact htarget h
    · exact htarget h
    · exact htarget h
    · exact htarget h
    · exact htarget h
    · split at h
      · exact htarget h
      · exact htarget h
    · rw [bind_eq_ok] at h
      obtain ⟨_, _, h⟩ := h
      exact htarget h
    · split at h
      · exact htarget h
      · split at h
        · exact htarget h
        · simp at h

/-- What a collected candidate says. -/
theorem collectIssueCandidate_some {entry : Option Nat} {cand : IssueCandidate}
    (h : c.collectIssueCandidate O cfg schedId entry = .ok (c', some cand)) :
    entry = some cand.warpId ∧ c.Presents O cand.warpId cand.inst ∧
      ∃ b, (c.nextToIssue O cand.warpId).1.passesScoreboard O cfg cand.warpId cand.inst false =
          .ok (c', b) ∧
        (b = false → cand.target = .error .scoreboard) ∧
        (b = true → ∃ out execType free,
          c'.classifyIssueTarget cfg schedId cand.inst = .ok (out, execType, free) ∧
          cand.target =
            issueTarget (O.activeMask (c'.simtStack cand.warpId)) execType out free) := by
  cases entry with
  | none => simp [collectIssueCandidate] at h
  | some w =>
    cases hnext : c.nextToIssue O w with
    | mk m o =>
      cases o with
      | none => simp [collectIssueCandidate, hnext] at h
      | some inst =>
        simp only [collectIssueCandidate, hnext, bind_eq_ok, Prod.exists] at h
        obtain ⟨m', b, hpasses, h⟩ := h
        cases b with
        | false =>
          simp only [↓reduceIte, pure_eq_ok, Prod.mk.injEq, Option.some.injEq] at h
          obtain ⟨rfl, rfl⟩ := h
          refine ⟨rfl, by rw [Presents, hnext], false, by rw [hnext]; exact hpasses, ?_, ?_⟩
          · exact fun _ => rfl
          · intro hb
            cases hb
        | true =>
          simp only [Bool.true_eq_false, ↓reduceIte, bind_eq_ok, Prod.exists, pure_eq_ok,
            Prod.mk.injEq, Option.some.injEq] at h
          obtain ⟨out, execType, free, hclass, rfl, rfl⟩ := h
          refine ⟨rfl, by rw [Presents, hnext], true, by rw [hnext]; exact hpasses, ?_, ?_⟩
          · intro hb
            cases hb
          · exact fun _ => ⟨out, execType, free, hclass, rfl⟩

/-- A warp without a candidate presents nothing. -/
theorem collectIssueCandidate_none
    (h : c.collectIssueCandidate O cfg schedId (some w) = .ok (c', none)) :
    c' = (c.nextToIssue O w).1 ∧ ∀ inst, ¬c.Presents O w inst := by
  cases hnext : c.nextToIssue O w with
  | mk m o =>
    cases o with
    | none =>
      simp only [collectIssueCandidate, hnext, pure_eq_ok, Prod.mk.injEq, and_true] at h
      refine ⟨h.symm, fun inst hinst => ?_⟩
      rw [Presents, hnext] at hinst
      cases hinst
    | some inst =>
      simp only [collectIssueCandidate, hnext, bind_eq_ok, Prod.exists] at h
      obtain ⟨m', b, _, h⟩ := h
      split at h
      · simp at h
      · simp at h

/-- Collecting a candidate keeps what every test depends on. -/
theorem collectIssueCandidate_keeps {entry : Option Nat} {cand : Option IssueCandidate}
    (h : c.collectIssueCandidate O cfg schedId entry = .ok (c', cand)) (v : Nat) :
    KeepsFor O v c c' := by
  cases cand with
  | some cand =>
    obtain ⟨_, _, b, hpasses, _⟩ := collectIssueCandidate_some h
    exact (nextToIssue_keeps cand.warpId v).trans (passesScoreboard_keeps hpasses v)
  | none =>
    cases entry with
    | none =>
      simp only [collectIssueCandidate, pure_eq_ok, Prod.mk.injEq, and_true] at h
      exact h ▸ .refl v c
    | some w =>
      rw [(collectIssueCandidate_none h).1]
      exact nextToIssue_keeps w v

/-- Collecting the candidate of a settled warp changes nothing. -/
theorem Settled.collect (hsettled : Settled O cfg c w) {cand : Option IssueCandidate}
    (h : c.collectIssueCandidate O cfg schedId (some w) = .ok (c', cand)) : c' = c := by
  cases cand with
  | some cand =>
    obtain ⟨hentry, hpresents, b, hpasses, _⟩ := collectIssueCandidate_some h
    obtain rfl := Option.some.inj hentry
    rw [hsettled.next_eq] at hpasses
    obtain ⟨b', hb'⟩ := hsettled.passes _ hpresents
    rw [hb', Except.ok.injEq, Prod.mk.injEq] at hpasses
    exact hpasses.1.symm
  | none => exact (collectIssueCandidate_none h).1.trans hsettled.next_eq

/-- Collecting the candidate of an entry whose warp is settled changes nothing. -/
theorem Settled.collect_entry {entry : Option Nat} {cand : Option IssueCandidate}
    (hsettled : ∀ w, entry = some w → Settled O cfg c w)
    (h : c.collectIssueCandidate O cfg schedId entry = .ok (c', cand)) : c' = c := by
  cases entry with
  | none =>
    simp only [collectIssueCandidate, pure_eq_ok, Prod.mk.injEq] at h
    exact h.1.symm
  | some w => exact (hsettled w rfl).collect h

/-- A ready candidate passes the scoreboard and is no device runtime call, and its register
set has a free register. -/
theorem collectIssueCandidate_ready {entry : Option Nat} {cand : IssueCandidate} {t : IssueTarget}
    (h : c.collectIssueCandidate O cfg schedId entry = .ok (c', some cand))
    (ht : cand.target = .ok t) :
    (c.nextToIssue O cand.warpId).1.passesScoreboard O cfg cand.warpId cand.inst false =
        .ok (c', true) ∧
      c'.classifyIssueTarget cfg schedId cand.inst = .ok (some t.out, t.execType, true) ∧
      t.activeMask = O.activeMask (c'.simtStack cand.warpId) := by
  obtain ⟨_, _, b, hpasses, hblocked, htarget⟩ := collectIssueCandidate_some h
  cases b with
  | false =>
    rw [hblocked rfl] at ht
    cases ht
  | true =>
    obtain ⟨out, execType, free, hclass, heq⟩ := htarget rfl
    rw [heq] at ht
    cases out with
    | none => cases ht
    | some out =>
      cases free with
      | false => cases ht
      | true =>
        cases ht
        exact ⟨hpasses, hclass, rfl⟩

/-- A candidate that is not ready has a reason. -/
theorem collectIssueCandidate_reason {entry : Option Nat} {cand : IssueCandidate}
    {reason : PcCoissueFailReason}
    (h : c.collectIssueCandidate O cfg schedId entry = .ok (c', some cand))
    (hreason : cand.target = .error reason) :
    reason = .scoreboard ∨ reason = .dispatchPort ∨ reason = .structural := by
  obtain ⟨_, _, b, _, hblocked, htarget⟩ := collectIssueCandidate_some h
  cases b with
  | false =>
    rw [hblocked rfl] at hreason
    cases hreason
    exact .inl rfl
  | true =>
    obtain ⟨out, execType, free, _, heq⟩ := htarget rfl
    rw [heq] at hreason
    cases out with
    | none =>
      cases hreason
      exact .inr (.inr rfl)
    | some out =>
      cases free with
      | false =>
        cases hreason
        exact .inr (.inl rfl)
      | true => cases hreason

end IssueState

namespace Collected

variable {Mem Threads Simt Score : Type} {O : Outside Mem Threads Simt Score} {cfg : SchedConfig}
  {schedId : Nat} {entry : Option Nat} {r r' : Collected Mem Threads Simt Score}

/-- An entry adds nothing, or its candidate on the side of its warp. -/
theorem add_eq_ok (h : r.add O cfg schedId entry = .ok r') :
    ∃ core cand, r.core.collectIssueCandidate O cfg schedId entry = .ok (core, cand) ∧
      (cand = none ∧ r' = { r with core } ∨
        ∃ x producer, cand = some x ∧
          Shader.isWaspProducerWarp cfg.toConfig x.warpId = .ok producer ∧
          r' = {
            core
            flags := { r.flags with
              validInst := true
              readyInst := r.flags.readyInst || x.ready }
            producers := if producer then r.producers ++ [x] else r.producers
            consumers := if producer then r.consumers else r.consumers ++ [x] }) := by
  simp only [add, bind_eq_ok, Prod.exists] at h
  obtain ⟨core, cand, hcollect, h⟩ := h
  refine ⟨core, cand, hcollect, ?_⟩
  cases cand with
  | none =>
    rw [pure_eq_ok] at h
    exact .inl ⟨rfl, h.symm⟩
  | some x =>
    simp only [bind_eq_ok] at h
    obtain ⟨producer, hrole, h⟩ := h
    refine .inr ⟨x, producer, rfl, hrole, ?_⟩
    cases producer with
    | true =>
      simp only [↓reduceIte, pure_eq_ok] at h
      exact h.symm
    | false =>
      simp only [Bool.false_eq_true, ↓reduceIte, pure_eq_ok] at h
      exact h.symm

/-- An entry whose warp is settled leaves the core as it is. -/
theorem core_of_add (hsettled : ∀ w, entry = some w → IssueState.Settled O cfg r.core w)
    (h : r.add O cfg schedId entry = .ok r') : r'.core = r.core := by
  obtain ⟨core, cand, hcollect, hadd⟩ := add_eq_ok h
  have hsame := IssueState.Settled.collect_entry hsettled hcollect
  rcases hadd with ⟨_, rfl⟩ | ⟨_, _, _, _, rfl⟩
  · exact hsame
  · exact hsame

/-- A candidate that is there afterwards was there before or is the one of the entry. -/
theorem mem_of_add (h : r.add O cfg schedId entry = .ok r') {cand : IssueCandidate}
    (hcand : cand ∈ r'.producers ++ r'.consumers) :
    cand ∈ r.producers ++ r.consumers ∨
      r.core.collectIssueCandidate O cfg schedId entry = .ok (r'.core, some cand) := by
  obtain ⟨core, _, hcollect, ⟨rfl, rfl⟩ | ⟨x, producer, rfl, _, rfl⟩⟩ := add_eq_ok h
  · exact .inl hcand
  · rw [List.mem_append] at hcand ⊢
    cases producer with
    | true =>
      rcases hcand with hcand | hcand
      · rcases List.mem_append.mp hcand with hold | hnew
        · exact .inl (.inl hold)
        · rw [List.mem_singleton.mp hnew]
          exact .inr hcollect
      · exact .inl (.inr hcand)
    | false =>
      rcases hcand with hcand | hcand
      · exact .inl (.inl hcand)
      · rcases List.mem_append.mp hcand with hold | hnew
        · exact .inl (.inr hold)
        · rw [List.mem_singleton.mp hnew]
          exact .inr hcollect

end Collected
end WaspSim
