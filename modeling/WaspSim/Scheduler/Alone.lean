import WaspSim.Scheduler.Candidates
import WaspSim.Scheduler.QueueHead

/-!
# Candidates on their own

The candidates of a cycle are collected one after the other, and a test may create
a queue that a later test finds. A created queue is empty, so each candidate is the
one that its warp would have on its own in the state before the collection.
-/

namespace WaspSim

/-- A queue that was sized before accepts what the queue it was sized from accepts. -/
theorem Queue.configure_twice {q q₁ q₂ : Queue}
    {entries width warpSize entries' width' warpSize' : Nat}
    (h : q.configure entries width warpSize = .ok q₁)
    (h' : q₁.configure entries' width' warpSize' = .ok q₂) :
    q.configure entries' width' warpSize' = .ok q₂ := by
  have hconf := configured_of_configure h
  by_cases hq : q.configured = true
  · rw [configure_eq_self hq h] at h'
    exact h'
  · have hsame := configure_eq_self hconf h'
    subst hsame
    simp only [configure, hconf, ↓reduceIte, bind_eq_ok, require_eq_ok, pure_eq_ok] at h'
    obtain ⟨_, rfl, _, rfl, _, rfl, _⟩ := h'
    have hsizes := h
    simp only [configure, hq, Bool.false_eq_true, ↓reduceIte, bind_eq_ok, pure_eq_ok] at hsizes
    obtain ⟨_, _, _, _, _, _, rfl⟩ := hsizes
    exact h

/-- A queue that was just sized has no ready head. -/
theorem Queue.configured_of_headReady {q q' : Queue} {entries width warpSize : Nat}
    (h : q.configure entries width warpSize = .ok q') (hready : q'.headReady = true) :
    q.configured = true := by
  by_contra hq
  simp only [configure, hq, ↓reduceIte, bind_eq_ok, pure_eq_ok] at h
  obtain ⟨_, _, _, _, _, _, rfl⟩ := h
  simp only [headReady, Bool.and_eq_true, Option.any_eq_true, List.getElem?_replicate] at hready
  obtain ⟨_, e, he, hstate⟩ := hready
  split at he
  · cases he
    cases hstate
  · cases he

namespace Shader

variable {Mem : Type} {cfg : Config} {kind : QueueKind} {s s' m m' : Shader Mem}

/-- Tests turn one core into the other: its queues are as they were, or were sized since. -/
def Grown (s s' : Shader Mem) : Prop :=
  ∀ kind key, s'.queue? kind key = s.queue? kind key ∨
    ∃ entries width warpSize q, s'.queue? kind key = some q ∧
      ((s.queue? kind key).getD {}).configure entries width warpSize = .ok q

namespace Grown

theorem refl (s : Shader Mem) : Grown s s := fun _ _ => .inl rfl

theorem trans (h : Grown s m) (h' : Grown m s') : Grown s s' := by
  intro kind key
  rcases h' kind key with heq' | ⟨e', w', n', q', hq', hconf'⟩
  · rw [heq']
    exact h kind key
  · rcases h kind key with heq | ⟨e, w, n, q, hq, hconf⟩
    · rw [heq] at hconf'
      exact .inr ⟨e', w', n', q', hq', hconf'⟩
    · rw [hq] at hconf'
      exact .inr ⟨e', w', n', q', hq', Queue.configure_twice hconf hconf'⟩

/-- A queue with a ready head was there before. -/
theorem queue?_eq (h : Grown s s') {key : QueueKey} {q : Queue}
    (hq : s'.queue? kind key = some q) (hready : q.headReady = true) :
    s.queue? kind key = some q := by
  rcases h kind key with heq | ⟨e, w, n, q', hq', hconf⟩
  · rw [← heq]
    exact hq
  · obtain rfl : q' = q := Option.some.inj (hq'.symm.trans hq)
    have hold := Queue.configured_of_headReady hconf hready
    rw [Queue.configure_eq_self hold hconf]
    cases hstored : s.queue? kind key with
    | some q₀ => rfl
    | none =>
      rw [hstored] at hold
      cases hold

end Grown

theorem queueFor_grown {w : Nat} {inst : QueueInst} {key : QueueKey} {q : Queue}
    (h : queueFor kind cfg s w inst = .ok (s', key, q)) : Grown s s' := by
  obtain ⟨_, honq, hput⟩ := queueFor_frame h
  simp only [queueFor, bind_eq_ok, pure_eq_ok, Prod.exists, Prod.mk.injEq,
    QueueTable.getOrCreate_eq_ok] at h
  obtain ⟨k, _, _, q₀, ⟨hconf, _⟩, _, rfl, rfl⟩ := h
  intro kind' key'
  by_cases hsame : kind' = kind ∧ key' = k
  · obtain ⟨rfl, rfl⟩ := hsame
    exact .inr ⟨_, _, _, q₀, hput, hconf⟩
  · exact .inl (honq.others kind' key' hsame)

theorem canIssue_grown {w : Nat} {inst : QueueInst} {count ready : Bool} (hkind : inst.kind = kind)
    (h : canIssue kind cfg s w inst count = .ok (s', ready)) : Grown s s' := by
  obtain ⟨_, key, q, m, hfor, hs', _⟩ := canIssue_eq_ok hkind h
  intro kind' key'
  rcases hs' with rfl | ⟨g, rfl⟩
  · exact queueFor_grown hfor kind' key'
  · exact queueFor_grown hfor kind' key'

/-- A test finds the queue that it would create on its own. -/
theorem queueFor_alone {w : Nat} {inst : QueueInst} {key : QueueKey} {q : Queue}
    (hgrown : Grown s m) (hcta : (m.warps w).ctaId = (s.warps w).ctaId)
    (h : queueFor kind cfg m w inst = .ok (m', key, q)) :
    ∃ s', queueFor kind cfg s w inst = .ok (s', key, q) := by
  simp only [queueFor, bind_eq_ok, pure_eq_ok, Prod.exists, Prod.mk.injEq,
    QueueTable.getOrCreate_eq_ok] at h ⊢
  obtain ⟨key', hkey, table, q', ⟨hconf, rfl⟩, rfl, rfl, rfl⟩ := h
  refine ⟨_, key', ?_, _, q', ⟨?_, rfl⟩, rfl, rfl, rfl⟩
  · rw [keyForWarp_eq_ok] at hkey ⊢
    rw [← hcta]
    exact hkey
  · change ((m.queue? kind key').getD {}).configure _ _ _ = .ok q' at hconf
    change ((s.queue? kind key').getD {}).configure _ _ _ = .ok q'
    rcases hgrown kind key' with heq | ⟨e, w, n, q₀, hq₀, hconf₀⟩
    · rw [← heq]
      exact hconf
    · rw [hq₀] at hconf
      exact Queue.configure_twice hconf₀ hconf

/-- A test gives the answer that it would give on its own. -/
theorem canIssue_alone {w : Nat} {inst : QueueInst} {count ready : Bool} (hkind : inst.kind = kind)
    (hgrown : Grown s m) (hcta : (m.warps w).ctaId = (s.warps w).ctaId)
    (h : canIssue kind cfg m w inst count = .ok (m', ready)) :
    ∃ s', canIssue kind cfg s w inst count = .ok (s', ready) := by
  obtain ⟨henabled, key, q, _, hfor, _, rfl⟩ := canIssue_eq_ok hkind h
  obtain ⟨s₁, hs₁⟩ := queueFor_alone hgrown hcta hfor
  obtain ⟨s', hs', _⟩ := canIssue_of_queueFor hkind henabled hs₁ count
  exact ⟨s', hs'⟩

end Shader

namespace IssueState

variable {Mem Threads Simt Score : Type} {O : Outside Mem Threads Simt Score} {cfg : SchedConfig}
  {c c' c₂ m m' : IssueState Mem Threads Simt Score} {schedId w : Nat}

/-- Looking for the next instruction leaves the queues alone. -/
theorem nextToIssue_shader (w : Nat) : (c.nextToIssue O w).1.shader = c.shader := by
  unfold nextToIssue waiting warpWaitingAtMemBarrier
  split
  · rfl
  · dsimp only
    split
    · rfl
    · split
      · rfl
      · split
        · rfl
        · split
          · rfl
          · rfl

theorem passesScoreboard_grown {inst : SchedInst} {count b : Bool}
    (h : c.passesScoreboard O cfg w inst count = .ok (c', b)) : c.shader.Grown c'.shader := by
  cases hfree : O.checkCollision c.scoreboard w inst with
  | true =>
    simp only [passesScoreboard, hfree, ↓reduceIte, pure_eq_ok, Prod.mk.injEq] at h
    exact h.1 ▸ .refl _
  | false =>
    cases hqueue : inst.queue with
    | none =>
      simp only [passesScoreboard, hfree, hqueue, Bool.false_eq_true, ↓reduceIte, pure_eq_ok,
        Prod.mk.injEq] at h
      exact h.1 ▸ .refl _
    | some q =>
      rw [passesScoreboard_queue hfree hqueue] at h
      simp only [bind_eq_ok, pure_eq_ok, Prod.exists, Prod.mk.injEq] at h
      obtain ⟨shader, _, hcan, rfl, _⟩ := h
      intro kind key
      rw [queue?_settle fun kind k => Shader.canIssue_mem rfl hcan]
      exact Shader.canIssue_grown rfl hcan kind key

/-- The scoreboard and the queues give the answer that they would give on their own. -/
theorem passesScoreboard_alone {inst : SchedInst} {count b : Bool}
    (hgrown : c.shader.Grown m.shader) (hwarp : m.shader.warps w = c.shader.warps w)
    (hscore : m.scoreboard = c.scoreboard)
    (h : m.passesScoreboard O cfg w inst count = .ok (m', b)) :
    ∃ c', c.passesScoreboard O cfg w inst count = .ok (c', b) := by
  cases hfree : O.checkCollision c.scoreboard w inst with
  | true =>
    simp only [passesScoreboard, hfree, hscore, ↓reduceIte, pure_eq_ok, Prod.mk.injEq] at h ⊢
    exact ⟨c, rfl, h.2⟩
  | false =>
    have hfree' : O.checkCollision m.scoreboard w inst = false := by rw [hscore]; exact hfree
    cases hqueue : inst.queue with
    | none =>
      simp only [passesScoreboard, hfree, hfree', hqueue, Bool.false_eq_true, ↓reduceIte,
        pure_eq_ok, Prod.mk.injEq] at h ⊢
      exact ⟨c, rfl, h.2⟩
    | some q =>
      rw [passesScoreboard_queue hfree' hqueue] at h
      rw [passesScoreboard_queue hfree hqueue]
      simp only [bind_eq_ok, pure_eq_ok, Prod.exists, Prod.mk.injEq] at h
      obtain ⟨shader, _, hcan, rfl, rfl⟩ := h
      obtain ⟨s', hs'⟩ := Shader.canIssue_alone rfl hgrown (by rw [hwarp]) hcan
      exact ⟨c.settle s', by rw [hs']; rfl⟩

/-- Classifying an instruction reads the output registers alone. -/
theorem classifyIssueTarget_congr (h : c'.out = c.out) (inst : SchedInst) :
    c'.classifyIssueTarget cfg schedId inst = c.classifyIssueTarget cfg schedId inst := by
  unfold classifyIssueTarget
  rw [h]

/-- What the collection of other candidates does to a core. -/
structure Tested (O : Outside Mem Threads Simt Score) (c c' : IssueState Mem Threads Simt Score) :
    Prop where
  keeps : ∀ w, KeepsFor O w c c'
  grown : c.shader.Grown c'.shader

namespace Tested

theorem refl (c : IssueState Mem Threads Simt Score) : Tested O c c :=
  ⟨fun w => .refl w c, .refl _⟩

theorem trans (h : Tested O c m) (h' : Tested O m c') : Tested O c c' :=
  ⟨fun w => (h.keeps w).trans (h'.keeps w), h.grown.trans h'.grown⟩

theorem collect {entry : Option Nat} {cand : Option IssueCandidate}
    (h : c.collectIssueCandidate O cfg schedId entry = .ok (c', cand)) : Tested O c c' := by
  refine ⟨collectIssueCandidate_keeps h, ?_⟩
  cases cand with
  | some cand =>
    obtain ⟨_, _, b, hpasses, _⟩ := collectIssueCandidate_some h
    have hgrown := passesScoreboard_grown hpasses
    rw [nextToIssue_shader] at hgrown
    exact hgrown
  | none =>
    cases entry with
    | none =>
      simp only [collectIssueCandidate, pure_eq_ok, Prod.mk.injEq, and_true] at h
      exact h ▸ .refl _
    | some w =>
      rw [(collectIssueCandidate_none h).1, nextToIssue_shader]
      exact .refl _

/-- A collected candidate is the one of its warp on its own. -/
theorem alone (h : Tested O c m) {entry : Option Nat} {cand : Option IssueCandidate}
    (hm : m.collectIssueCandidate O cfg schedId entry = .ok (m', cand)) :
    ∃ c', c.collectIssueCandidate O cfg schedId entry = .ok (c', cand) := by
  cases entry with
  | none =>
    simp only [collectIssueCandidate, pure_eq_ok, Prod.mk.injEq] at hm ⊢
    exact ⟨c, rfl, hm.2⟩
  | some w =>
    have hsame := (h.keeps w).nextToIssue_eq
    have hc := nextToIssue_shader (O := O) (c := c) w
    have hm₀ := nextToIssue_shader (O := O) (c := m) w
    have hkc := nextToIssue_keeps (O := O) (c := c) w w
    have hkm := nextToIssue_keeps (O := O) (c := m) w w
    cases hnext : c.nextToIssue O w with
    | mk c₁ o =>
      cases hnext' : m.nextToIssue O w with
      | mk m₁ o' =>
        rw [hnext, hnext'] at hsame
        rw [hnext] at hc hkc
        rw [hnext'] at hm₀ hkm
        dsimp only at hsame hc hm₀ hkc hkm
        subst hsame
        cases o' with
        | none =>
          simp only [collectIssueCandidate, hnext, hnext', pure_eq_ok, Prod.mk.injEq] at hm ⊢
          exact ⟨c₁, rfl, hm.2⟩
        | some inst =>
          simp only [collectIssueCandidate, hnext, hnext', bind_eq_ok, Prod.exists] at hm ⊢
          obtain ⟨m₂, b, hpasses, hm⟩ := hm
          have hgrown : c₁.shader.Grown m₁.shader := by
            rw [hc, hm₀]
            exact h.grown
          obtain ⟨c₂, hc₂⟩ := passesScoreboard_alone hgrown (by rw [hm₀, hc, (h.keeps w).warp_eq])
            (hkm.scoreboard_eq.trans ((h.keeps w).scoreboard_eq.trans hkc.scoreboard_eq.symm))
            hpasses
          have hk₂ := hkc.trans (passesScoreboard_keeps hc₂ w)
          have hkm₂ := ((h.keeps w).trans hkm).trans (passesScoreboard_keeps hpasses w)
          cases b with
          | false =>
            simp only [↓reduceIte, pure_eq_ok, Prod.mk.injEq] at hm
            exact ⟨c₂, c₂, false, hc₂, by simp [hm.2, pure, Except.pure]⟩
          | true =>
            simp only [Bool.true_eq_false, ↓reduceIte, bind_eq_ok, Prod.exists, pure_eq_ok,
              Prod.mk.injEq] at hm
            obtain ⟨out, execType, free, hclass, _, hcand⟩ := hm
            rw [classifyIssueTarget_congr (hkm₂.out_eq.trans hk₂.out_eq.symm)] at hclass
            rw [hkm₂.simt_eq, ← hk₂.simt_eq] at hcand
            exact ⟨c₂, c₂, true, hc₂, by simp [hclass, hcand, bind, Except.bind, pure, Except.pure]⟩

end Tested

/-- A candidate is collected again wherever its tests are kept. -/
theorem collectIssueCandidate_again {cand : IssueCandidate}
    (h : c.collectIssueCandidate O cfg schedId (some w) = .ok (c', some cand))
    (hkeeps : KeepsFor O w c' c₂) :
    c₂.collectIssueCandidate O cfg schedId (some w) = .ok (c₂, some cand) := by
  cases hnext : c.nextToIssue O w with
  | mk c₁ o =>
    cases o with
    | none => simp [collectIssueCandidate, hnext] at h
    | some inst =>
      simp only [collectIssueCandidate, hnext, bind_eq_ok, Prod.exists] at h
      obtain ⟨m, b, hpasses, h⟩ := h
      have hm : m = c' := by
        cases b with
        | false =>
          simp only [↓reduceIte, pure_eq_ok, Prod.mk.injEq] at h
          exact h.1
        | true =>
          simp only [Bool.true_eq_false, ↓reduceIte, bind_eq_ok, Prod.exists, pure_eq_ok,
            Prod.mk.injEq] at h
          obtain ⟨_, _, _, _, rfl, _⟩ := h
          rfl
      subst hm
      have hnext₂ := nextToIssue_again hnext ((passesScoreboard_keeps hpasses w).trans hkeeps)
      obtain ⟨c₃, hc₃, hsame⟩ := passesScoreboard_again hpasses hkeeps false
      obtain rfl := hsame rfl
      simp only [collectIssueCandidate, hnext₂, hc₃, bind, Except.bind]
      cases b with
      | false =>
        simp only [↓reduceIte, pure_eq_ok, Prod.mk.injEq, true_and] at h ⊢
        exact h
      | true =>
        simp only [Bool.true_eq_false, ↓reduceIte, bind_eq_ok, Prod.exists, pure_eq_ok,
          Prod.mk.injEq, true_and] at h ⊢
        obtain ⟨out, execType, free, hclass, hcand⟩ := h
        rw [classifyIssueTarget_congr hkeeps.out_eq, hclass, hkeeps.simt_eq]
        simp [hcand, pure, Except.pure]

end IssueState
end WaspSim
