import WaspSim.Scheduler.Alone
import WaspSim.Scheduler.Outcome

/-!
# The search for a pair

The candidates that a co-issue collects are those of the warps of the priority
list, each as in the state before, split into producers and consumers. The search
ends with the first pair of them that are ready and use different execution units,
in the order of the producers first.
-/

namespace WaspSim

variable {Mem Threads Simt Score : Type} {O : Outside Mem Threads Simt Score} {cfg : SchedConfig}

/-- Two ready candidates with different execution units. -/
def IssueCandidate.Pairs (prod cons : IssueCandidate) : Prop :=
  ∃ t t', prod.target = .ok t ∧ cons.target = .ok t' ∧ t.execType ≠ t'.execType

/-- A test of a pair fails only when the two do not pair. -/
theorem not_pairs_of_testPair {prod cons : IssueCandidate} {reason : PcCoissueFailReason}
    (h : testPair prod cons = .error reason) : ¬prod.Pairs cons := by
  rintro ⟨t, t', ht, ht', hne⟩
  simp [testPair, ht, ht', require, hne, bind, Except.bind, pure, Except.pure] at h

/-- The first pair of two lists, in the order of the first list and then of the second. -/
structure FirstPair (producers consumers : List IssueCandidate) (pair : CoissuePair) : Prop where
  producer_ready : pair.producer.target = .ok pair.producerTarget
  consumer_ready : pair.consumer.target = .ok pair.consumerTarget
  execType_ne : pair.producerTarget.execType ≠ pair.consumerTarget.execType
  producer_first : ∃ before after, producers = before ++ pair.producer :: after ∧
    ∀ prod ∈ before, ∀ cons ∈ consumers, ¬prod.Pairs cons
  consumer_first : ∃ before after, consumers = before ++ pair.consumer :: after ∧
    ∀ cons ∈ before, ¬pair.producer.Pairs cons

namespace FirstPair

variable {producers consumers : List IssueCandidate} {pair : CoissuePair}

theorem mem_producers (h : FirstPair producers consumers pair) : pair.producer ∈ producers := by
  obtain ⟨before, after, heq, _⟩ := h.producer_first
  rw [heq]
  exact List.mem_append_right _ List.mem_cons_self

theorem mem_consumers (h : FirstPair producers consumers pair) : pair.consumer ∈ consumers := by
  obtain ⟨before, after, heq, _⟩ := h.consumer_first
  rw [heq]
  exact List.mem_append_right _ List.mem_cons_self

end FirstPair

namespace IssueStats

variable {s s' : IssueStats}

/-- The pairs of one producer end with the first that passes. -/
theorem tryConsumers_first {prod : IssueCandidate} {consumers : List IssueCandidate}
    {found : Option CoissuePair} (h : s.tryConsumers prod consumers = (s', found)) :
    (found = none → ∀ cons ∈ consumers, ¬prod.Pairs cons) ∧
      ∀ pair ∈ found, testPair prod pair.consumer = .ok pair ∧
        ∃ before after, consumers = before ++ pair.consumer :: after ∧
          ∀ cons ∈ before, ¬prod.Pairs cons := by
  induction consumers generalizing s with
  | nil =>
    cases h
    exact ⟨fun _ cons hcons => absurd hcons List.not_mem_nil, fun pair hp => by cases hp⟩
  | cons cons rest ih =>
    simp only [tryConsumers] at h
    split at h
    · rename_i pair hpair
      cases h
      refine ⟨fun hnone => (by cases hnone), fun pair' hp => ?_⟩
      cases hp
      obtain ⟨_, hcons, _⟩ := testPair_eq_ok hpair
      rw [hcons]
      exact ⟨hpair, [], rest, rfl, fun c hc => absurd hc List.not_mem_nil⟩
    · rename_i reason hpair
      have hnot := not_pairs_of_testPair hpair
      obtain ⟨hnone, hsome⟩ := ih h
      constructor
      · intro hfound
        rw [List.forall_mem_cons]
        exact ⟨hnot, hnone hfound⟩
      · intro pair hp
        obtain ⟨htest, before, after, heq, hbefore⟩ := hsome pair hp
        refine ⟨htest, cons :: before, after, by rw [heq]; rfl, ?_⟩
        rw [List.forall_mem_cons]
        exact ⟨hnot, hbefore⟩

/-- The search fails only when no producer pairs with a consumer, and else ends with the first
pair. -/
theorem tryProducers_first {consumers producers : List IssueCandidate} {found : Option CoissuePair}
    (h : s.tryProducers consumers producers = (s', found)) :
    (found = none → ∀ prod ∈ producers, ∀ cons ∈ consumers, ¬prod.Pairs cons) ∧
      ∀ pair ∈ found, FirstPair producers consumers pair := by
  induction producers generalizing s with
  | nil =>
    cases h
    exact ⟨fun _ prod hprod => absurd hprod List.not_mem_nil, fun pair hp => by cases hp⟩
  | cons prod rest ih =>
    simp only [tryProducers] at h
    split at h
    · rename_i s₁ pair htry
      cases h
      refine ⟨fun hnone => (by cases hnone), fun pair' hp => ?_⟩
      cases hp
      obtain ⟨htest, hfirst⟩ := (tryConsumers_first htry).2 pair rfl
      obtain ⟨hprod, _, ht, ht', hne⟩ := testPair_eq_ok htest
      rw [← hprod] at ht hfirst
      refine ⟨ht, ht', hne, ⟨[], rest, by rw [hprod]; rfl, ?_⟩, hfirst⟩
      exact fun p hp => absurd hp List.not_mem_nil
    · rename_i s₁ htry
      have hnot := (tryConsumers_first htry).1 rfl
      obtain ⟨hnone, hsome⟩ := ih h
      constructor
      · intro hfound
        rw [List.forall_mem_cons]
        exact ⟨hnot, hnone hfound⟩
      · intro pair hp
        have hpair := hsome pair hp
        obtain ⟨before, after, heq, hbefore⟩ := hpair.producer_first
        refine ⟨hpair.producer_ready, hpair.consumer_ready, hpair.execType_ne,
          ⟨prod :: before, after, by rw [heq]; rfl, ?_⟩, hpair.consumer_first⟩
        rw [List.forall_mem_cons]
        exact ⟨hnot, hbefore⟩

end IssueStats

/-- The warp of a candidate is a producer. -/
def IssueCandidate.isProducer (cfg : SchedConfig) (cand : IssueCandidate) : Bool :=
  match Shader.isWaspProducerWarp cfg.toConfig cand.warpId with
  | .ok producer => producer
  | .error _ => false

namespace Stage

variable {g : Stage Mem Threads Simt Score}

/-- The candidate of an entry of the priority list on its own. -/
def candidate (O : Outside Mem Threads Simt Score) (cfg : SchedConfig)
    (g : Stage Mem Threads Simt Score) (entry : Option Nat) : Option IssueCandidate :=
  match g.core.collectIssueCandidate O cfg g.sched.id entry with
  | .ok (_, cand) => cand
  | .error _ => none

/-- The candidates of the priority list, in order. -/
def candidates (O : Outside Mem Threads Simt Score) (cfg : SchedConfig)
    (g : Stage Mem Threads Simt Score) : List IssueCandidate :=
  g.sched.prioritized.filterMap (g.candidate O cfg)

/-- The producer candidates. -/
def producers (O : Outside Mem Threads Simt Score) (cfg : SchedConfig)
    (g : Stage Mem Threads Simt Score) : List IssueCandidate :=
  (g.candidates O cfg).filter (·.isProducer cfg)

/-- The consumer candidates. -/
def consumers (O : Outside Mem Threads Simt Score) (cfg : SchedConfig)
    (g : Stage Mem Threads Simt Score) : List IssueCandidate :=
  (g.candidates O cfg).filter fun cand => !cand.isProducer cfg

/-- The priority list holds a ready producer and a ready consumer with different execution
units. -/
def HasPair (O : Outside Mem Threads Simt Score) (cfg : SchedConfig)
    (g : Stage Mem Threads Simt Score) : Prop :=
  ∃ prod ∈ g.producers O cfg, ∃ cons ∈ g.consumers O cfg, prod.Pairs cons

/-- Collecting a list of entries: each candidate is the one on its own, is collected again
afterwards, and stands on the side of its warp. -/
theorem collect_candidates {rest : List (Option Nat)} {r r' : Collected Mem Threads Simt Score}
    (htested : IssueState.Tested O g.core r.core)
    (h : rest.foldlM (Collected.add O cfg g.sched.id) r = .ok r') :
    IssueState.Tested O r.core r'.core ∧
      r'.producers =
        r.producers ++ (rest.filterMap (g.candidate O cfg)).filter (·.isProducer cfg) ∧
      r'.consumers =
        r.consumers ++ (rest.filterMap (g.candidate O cfg)).filter (fun c => !c.isProducer cfg) ∧
      ∀ cand ∈ rest.filterMap (g.candidate O cfg),
        r'.core.collectIssueCandidate O cfg g.sched.id (some cand.warpId) =
            .ok (r'.core, some cand) ∧
          Shader.isWaspProducerWarp cfg.toConfig cand.warpId = .ok (cand.isProducer cfg) := by
  induction rest generalizing r with
  | nil =>
    simp only [foldlM_nil_eq_ok] at h
    subst h
    exact ⟨.refl _, by simp, by simp, by simp⟩
  | cons entry rest ih =>
    obtain ⟨m, hadd, hrest⟩ := foldlM_cons_eq_ok.mp h
    obtain ⟨core, cand, hcollect, hcase⟩ := Collected.add_eq_ok hadd
    have hstep := IssueState.Tested.collect hcollect
    obtain ⟨_, halone⟩ := htested.alone hcollect
    have hentry : g.candidate O cfg entry = cand := by
      unfold candidate
      rw [halone]
    obtain ⟨rfl, rfl⟩ | ⟨x, producer, rfl, hrole, hm⟩ := hcase
    · obtain ⟨hrest', hprods, hconss, hall⟩ := ih (htested.trans hstep) hrest
      rw [List.filterMap_cons_none hentry]
      exact ⟨hstep.trans hrest', hprods, hconss, hall⟩
    · have hside : x.isProducer cfg = producer := by
        unfold IssueCandidate.isProducer
        rw [hrole]
      have hsides : m.producers = r.producers ++ [x].filter (·.isProducer cfg) ∧
          m.consumers = r.consumers ++ [x].filter (fun c => !c.isProducer cfg) := by
        subst hm
        cases producer with
        | true => simp [hside]
        | false => simp [hside]
      have hmcore : m.core = core := by rw [hm]
      obtain ⟨hmprods, hmconss⟩ := hsides
      obtain ⟨hrest', hprods, hconss, hall⟩ := ih (by rw [hmcore]; exact htested.trans hstep) hrest
      rw [hmcore] at hrest'
      rw [List.filterMap_cons_some hentry]
      refine ⟨hstep.trans hrest', ?_, ?_, ?_⟩
      · rw [hprods, hmprods, List.append_assoc, ← List.filter_append, List.singleton_append]
      · rw [hconss, hmconss, List.append_assoc, ← List.filter_append, List.singleton_append]
      · rw [List.forall_mem_cons]
        refine ⟨⟨?_, by rw [hside]; exact hrole⟩, hall⟩
        obtain ⟨hw, _⟩ := IssueState.collectIssueCandidate_some hcollect
        rw [hw] at hcollect
        exact IssueState.collectIssueCandidate_again hcollect (hrest'.keeps x.warpId)

/-- What a co-issue collects. -/
theorem collectCandidates_spec {flags : IssueFlags} {r : Collected Mem Threads Simt Score}
    (h : g.collectCandidates O cfg flags = .ok r) :
    IssueState.Tested O g.core r.core ∧ r.producers = g.producers O cfg ∧
      r.consumers = g.consumers O cfg ∧ ∀ cand ∈ g.candidates O cfg,
        r.core.collectIssueCandidate O cfg g.sched.id (some cand.warpId) =
            .ok (r.core, some cand) ∧
          Shader.isWaspProducerWarp cfg.toConfig cand.warpId = .ok (cand.isProducer cfg) := by
  obtain ⟨htested, hprods, hconss, hall⟩ :=
    collect_candidates (g := g) (r := { core := g.core, flags }) (.refl _) h
  exact ⟨htested, hprods, hconss, hall⟩

end Stage
end WaspSim
