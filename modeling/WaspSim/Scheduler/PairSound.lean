import WaspSim.Scheduler.PairIssue

/-!
# A pair after its first half

A co-issue finds a pair exactly when the priority list holds one, and both halves of the
pair can issue before either does. Behind the issue of the producer the consumer can still
issue, but for one case: both take the head of one queue, and the entry behind the head is
not ready. The issue of the consumer then stops at the assertion of the queue.
-/

namespace WaspSim

variable {Mem Threads Simt Score : Type} {O : Outside Mem Threads Simt Score} {cfg : SchedConfig}

namespace IssueState

variable {c c' c₁ : IssueState Mem Threads Simt Score} {schedId v w : Nat} {inst : SchedInst}
  {t : IssueTarget} {pair : CoissuePair}

/-- The two instructions take the head of one queue, and the entry behind it is not ready. -/
def PopsUnready (cfg : SchedConfig) (c : IssueState Mem Threads Simt Score) (pair : CoissuePair) :
    Prop :=
  ∃ i ∈ pair.producer.inst.queue, ∃ j ∈ pair.consumer.inst.queue,
    i.load = false ∧ j.load = false ∧ ∃ key q,
      c.Names cfg pair.producer.warpId i j.kind key ∧
        c.Names cfg pair.consumer.warpId j j.kind key ∧
          c.shader.queue? j.kind key = some q ∧ q.nextReady = false

/-- A queue load goes to the memory unit. -/
theorem execType_of_load {port : OutPort} {execType : ExecUnitType} {free : Bool} {i : QueueInst}
    (h : c.classifyIssueTarget cfg schedId inst = .ok (some port, execType, free))
    (hqueue : i ∈ inst.queue) (hload : i.load = true) : execType = .mem := by
  have hop := (inst.op_of_queue i hqueue).1 hload
  unfold classifyIssueTarget at h
  split at h
  · cases h
  · simp only [hop, bind_eq_ok, pure_eq_ok, Prod.mk.injEq] at h
    obtain ⟨_, _, _, rfl, _⟩ := h
    rfl

/-- The issue of another warp into another output set leaves an instruction issuable as far as
its queue does. -/
theorem Issuable.beside_iff (h : c.Issuable O cfg schedId w inst t)
    (hmembar : (c.schedWarps w).membar = false) (hbeside : Beside O v c c₁) (hne : w ≠ v)
    (hout : c₁.out t.out = c.out t.out) :
    c₁.Issuable O cfg schedId w inst t ↔ ∀ q ∈ inst.queue,
      ∃ s', Shader.canIssue q.kind cfg.toConfig c₁.shader w q false = .ok (s', true) := by
  constructor
  · exact fun h₁ => h₁.queue_ready
  · intro hqueue
    have hwarp := hbeside.warp_eq w hne
    have hsched := hbeside.sched_eq w hne
    have hsimt := hbeside.simt_eq w hne
    obtain ⟨hdone, hbarrier, _, hatomic⟩ := waiting_eq_false.mp h.waiting_eq
    constructor
    · unfold doneExit
      rw [hwarp]
      exact h.doneExit_eq
    · rw [waiting_eq_false]
      refine ⟨?_, ?_, .inl ?_, ?_⟩
      · unfold functionalDone
        rw [hwarp]
        exact hdone
      · intro hat
        exact hbarrier (hbeside.barrier w hne hat)
      · rw [hsched]
        exact hmembar
      · rw [hsched]
        exact hatomic
    · rw [hsched]
      exact h.inst_eq
    · rw [hsched]
      exact h.valid_eq
    · rw [hsimt]
      exact h.pc_eq
    · rw [hsimt]
      exact h.activeMask_eq
    · rw [hbeside.collision_eq w hne]
      exact h.collision_eq
    · exact hqueue
    · rw [hout]
      exact h.free_eq

/-- What a warp finds in its queue behind the issue of another warp. -/
theorem Stored.behind {j : QueueInst} {key : QueueKey} {q : Queue} {port : OutPort}
    {mask : ActiveMask} (h : Stored cfg c w j key q) (hne : w ≠ v)
    (hissue : c.issueWarp O cfg port inst mask v schedId = .ok c₁) :
    ∃ q' s', c₁.shader.queue? j.kind key = some q' ∧ SameShape q q' ∧
      Shader.canIssue j.kind cfg.toConfig c₁.shader w j false =
        .ok (s', if j.load then !q'.full else q'.headReady) ∧
      ((q' = q ∧ ∀ i ∈ inst.queue, ¬c.Names cfg v i j.kind key) ∨
        ∃ i ∈ inst.queue, c.Names cfg v i j.kind key ∧
          (i.load = true ∧ SameShape q q' ∧ (q.headReady = true → q'.headReady = true) ∨
            i.load = false ∧ q.consumeHead = .ok q')) := by
  obtain ⟨q', hq', hcases⟩ := issueWarp_queue hissue h.queue_eq h.configured
  have hshape : SameShape q q' := by
    rcases hcases with ⟨rfl, _⟩ | ⟨i, _, _, ⟨_, hshape, _⟩ | ⟨_, hconsume⟩⟩
    · exact .refl _
    · exact hshape
    · exact (Queue.shape_of_consumeHead hconsume).1
  have hwarp := (issueWarp_beside hissue).1.warp_eq w hne
  obtain ⟨s', hs'⟩ := h.canIssue (by rw [hwarp]) hq' hshape
  exact ⟨q', s', hq', hshape, hs', hcases⟩

/-- A pair of ready candidates of different warps and execution units, whose tests change
nothing any more. -/
structure ReadyPair (O : Outside Mem Threads Simt Score) (cfg : SchedConfig)
    (c : IssueState Mem Threads Simt Score) (schedId : Nat) (pair : CoissuePair) : Prop where
  producer_eq : c.collectIssueCandidate O cfg schedId (some pair.producer.warpId) =
    .ok (c, some pair.producer)
  consumer_eq : c.collectIssueCandidate O cfg schedId (some pair.consumer.warpId) =
    .ok (c, some pair.consumer)
  producer_ready : pair.producer.target = .ok pair.producerTarget
  consumer_ready : pair.consumer.target = .ok pair.consumerTarget
  execType_ne : pair.producerTarget.execType ≠ pair.consumerTarget.execType
  warp_ne : pair.consumer.warpId ≠ pair.producer.warpId

namespace ReadyPair

/-- The halves of a pair are not both queue loads, which need the same unit. -/
theorem not_both_load (h : ReadyPair O cfg c schedId pair) {i j : QueueInst}
    (hi : i ∈ pair.producer.inst.queue) (hj : j ∈ pair.consumer.inst.queue) :
    ¬(i.load = true ∧ j.load = true) := by
  rintro ⟨hload, hload'⟩
  obtain ⟨_, hclass, _⟩ := collectIssueCandidate_ready h.producer_eq h.producer_ready
  obtain ⟨_, hclass', _⟩ := collectIssueCandidate_ready h.consumer_eq h.consumer_ready
  apply h.execType_ne
  rw [execType_of_load hclass hi hload, execType_of_load hclass' hj hload']

/-- Different execution units have different output register sets. -/
theorem out_ne (h : ReadyPair O cfg c schedId pair) :
    pair.consumerTarget.out ≠ pair.producerTarget.out := by
  obtain ⟨_, hclass, _⟩ := collectIssueCandidate_ready h.producer_eq h.producer_ready
  obtain ⟨_, hclass', _⟩ := collectIssueCandidate_ready h.consumer_eq h.consumer_ready
  obtain ⟨_, _, _, hunit, _⟩ := classifyIssueTarget_some hclass
  obtain ⟨_, _, _, hunit', _⟩ := classifyIssueTarget_some hclass'
  intro heq
  apply h.execType_ne
  rw [hunit, hunit', heq]

/-- When both take from one queue and the next entry is not ready, the producer leaves the
consumer a head that is not ready. -/
theorem head_behind (h : ReadyPair O cfg c schedId pair)
    (hissue : c.issueWarp O cfg pair.producerTarget.out pair.producer.inst
      pair.producerTarget.activeMask pair.producer.warpId schedId = .ok c₁)
    (hpops : PopsUnready cfg c pair) :
    ∃ j ∈ pair.consumer.inst.queue, j.load = false ∧ ∃ key q s',
      c₁.Names cfg pair.consumer.warpId j j.kind key ∧ c₁.shader.queue? j.kind key = some q ∧
        q.configured = true ∧ q.headReady = false ∧
        Shader.canIssue j.kind cfg.toConfig c₁.shader pair.consumer.warpId j false =
          .ok (s', false) := by
  obtain ⟨i, hi, j, hj, hload, hload', key, q, hnames, hnames', hq, hnext⟩ := hpops
  obtain ⟨key', q₀, hold⟩ := (settled_of_collect h.consumer_eq h.consumer_ready).2 j hj
  obtain rfl : key' = key := Except.ok.inj (hold.key_eq.symm.trans hnames'.2)
  obtain rfl : q₀ = q := Option.some.inj (hold.queue_eq.symm.trans hq)
  obtain ⟨q', s', hq', hshape, hcan, hcases⟩ := hold.behind h.warp_ne hissue
  have hhead : q'.headReady = false := by
    rcases hcases with ⟨_, hnone⟩ | ⟨i', hi', _, hcase⟩
    · exact absurd hnames (hnone i hi)
    · obtain rfl : i' = i := Option.mem_unique hi' hi
      rcases hcase with ⟨htrue, _⟩ | ⟨_, hconsume⟩
      · rw [hload] at htrue
        cases htrue
      · rw [Queue.headReady_of_consumeHead hconsume]
        exact hnext
  refine ⟨j, hj, hload', key', q', s', ⟨rfl, ?_⟩, hq', ?_, hhead, ?_⟩
  · have hkey := hnames'.2
    rw [Shader.keyForWarp_eq_ok] at hkey ⊢
    rw [(issueWarp_beside hissue).1.warp_eq _ h.warp_ne]
    exact hkey
  · rw [← hold.configured, Queue.configured, hshape.entries_eq, Queue.configured]
  · rw [hcan, hload', hhead]
    rfl

/-- Behind the issue of the producer the queue of the consumer lets it pass, unless both take
from one queue and the next entry is not ready. -/
theorem queues_iff (h : ReadyPair O cfg c schedId pair)
    (hissue : c.issueWarp O cfg pair.producerTarget.out pair.producer.inst
      pair.producerTarget.activeMask pair.producer.warpId schedId = .ok c₁) :
    (∀ j ∈ pair.consumer.inst.queue, ∃ s',
        Shader.canIssue j.kind cfg.toConfig c₁.shader pair.consumer.warpId j false =
          .ok (s', true)) ↔ ¬PopsUnready cfg c pair := by
  constructor
  · intro hready hpops
    obtain ⟨j, hj, _, key, q, s', _, _, _, _, hcan⟩ := h.head_behind hissue hpops
    obtain ⟨s'', htrue⟩ := hready j hj
    rw [hcan] at htrue
    cases htrue
  · intro hpops j hj
    obtain ⟨key, q, hold⟩ := (settled_of_collect h.consumer_eq h.consumer_ready).2 j hj
    obtain ⟨q', s', _, _, hcan, hcases⟩ := hold.behind h.warp_ne hissue
    refine ⟨s', ?_⟩
    rw [hcan]
    suffices hready : (if j.load then !q'.full else q'.headReady) = true by rw [hready]
    have hbefore := hold.ready_eq
    rcases hcases with ⟨rfl, _⟩ | ⟨i, hi, hnames, ⟨hload, _, hkept⟩ | ⟨hload, hconsume⟩⟩
    · exact hbefore
    · -- the producer reserves a slot of the queue that the consumer takes from
      cases hload' : j.load with
      | true => exact absurd ⟨hload, hload'⟩ (h.not_both_load hi hj)
      | false =>
        rw [hload'] at hbefore
        exact hkept hbefore
    · cases hload' : j.load with
      | true =>
        -- the producer takes from the queue that the consumer reserves a slot of
        rw [hload'] at hbefore
        obtain ⟨hshape, hoccupancy⟩ := Queue.shape_of_consumeHead hconsume
        simp only [↓reduceIte, Queue.full, Bool.not_eq_true', decide_eq_false_iff_not, not_le]
          at hbefore ⊢
        rw [hshape.entries_eq, hoccupancy]
        omega
      | false =>
        change q'.headReady = true
        by_contra hnext
        rw [Queue.headReady_of_consumeHead hconsume, Bool.not_eq_true] at hnext
        exact hpops ⟨i, hi, j, hj, hload, hload', key, q, hnames, ⟨rfl, hold.key_eq⟩,
          hold.queue_eq, hnext⟩

/-- Behind the issue of the producer the consumer can issue, unless both take from one queue
and the next entry is not ready. -/
theorem consumer_issuable_iff (h : ReadyPair O cfg c schedId pair)
    (hissue : c.issueWarp O cfg pair.producerTarget.out pair.producer.inst
      pair.producerTarget.activeMask pair.producer.warpId schedId = .ok c₁) :
    c₁.Issuable O cfg schedId pair.consumer.warpId pair.consumer.inst pair.consumerTarget ↔
      ¬PopsUnready cfg c pair := by
  have hissuable := issuable_of_collect h.consumer_eq h.consumer_ready
  have hmembar := (settled_of_collect h.consumer_eq h.consumer_ready).1
  obtain ⟨hbeside, hout⟩ := issueWarp_beside hissue
  rw [hissuable.beside_iff hmembar hbeside h.warp_ne (hout _ h.out_ne)]
  exact h.queues_iff hissue

end ReadyPair

/-- Collecting candidates does not change whether a ready pair takes from one queue whose next
entry is not ready. -/
theorem popsUnready_tested (h : ReadyPair O cfg c' schedId pair) (htested : Tested O c c') :
    PopsUnready cfg c' pair ↔ PopsUnready cfg c pair := by
  have hnames : ∀ {w i kind key}, c'.Names cfg w i kind key ↔ c.Names cfg w i kind key := by
    intro w i kind key
    unfold Names
    rw [Shader.keyForWarp_eq_ok, Shader.keyForWarp_eq_ok, (htested.keeps w).warp_eq]
  -- the head that the consumer would take was ready before
  have hqueue : ∀ {j : QueueInst} {key q}, j ∈ pair.consumer.inst.queue → j.load = false →
      c'.Names cfg pair.consumer.warpId j j.kind key →
        (c'.shader.queue? j.kind key = some q ↔ c.shader.queue? j.kind key = some q) := by
    intro j key q hj hload hnamed
    obtain ⟨key', q₀, hold⟩ := (settled_of_collect h.consumer_eq h.consumer_ready).2 j hj
    obtain rfl : key' = key := Except.ok.inj (hold.key_eq.symm.trans hnamed.2)
    have hready : q₀.headReady = true := by
      have hready := hold.ready_eq
      rw [hload] at hready
      exact hready
    rw [hold.queue_eq, htested.grown.queue?_eq hold.queue_eq hready]
  unfold PopsUnready
  constructor
  · rintro ⟨i, hi, j, hj, hload, hload', key, q, hi', hj', hq, hnext⟩
    exact ⟨i, hi, j, hj, hload, hload', key, q, hnames.mp hi', hnames.mp hj',
      (hqueue hj hload' hj').mp hq, hnext⟩
  · rintro ⟨i, hi, j, hj, hload, hload', key, q, hi', hj', hq, hnext⟩
    exact ⟨i, hi, j, hj, hload, hload', key, q, hnames.mpr hi', hnames.mpr hj',
      (hqueue hj hload' (hnames.mpr hj')).mpr hq, hnext⟩

/-- A move from queue 0, to a register or, with another operation, to memory. -/
def sampleMove (pc : Nat) (op : OpType) (h : op = .aluOp ∨ op = .loadOp ∨ op = .storeOp) :
    SchedInst where
  pc
  op
  queue := some { kind := .rfq, load := false, queueId := 0, v3 := false }
  op_of_queue := by
    intro q hq
    cases hq
    exact ⟨fun hload => (by cases hload), fun _ => h⟩

/-- A queue of one entry, which is ready. -/
def sampleQueue : Queue where
  entries := 1
  payloadWordsPerLane := 1
  warpSize := 32
  occupancy := 1
  nextSequence := 2
  storage := [{
    state := .ready
    sequence := 1
    payloadWordsPerLane := 1
    activeMask := BitVec.allOnes 32
    lanePayload := List.replicate 32 0 }]

/-- Warps 0 and 1 of a CTA present an instruction each, and queue 0 between them holds one
entry. -/
def samplePair (a b : SchedInst) : IssueState Unit Unit Nat Unit :=
  { sample a 0 with
    shader := ((sample a 0).shader.setWarp 1 fun v =>
      { v with running := 32, registered := 32, instInPipeline := 1, doneExit := false }).putQueue
        .rfq {} sampleQueue
    schedWarps := Function.update (sample a 0).schedWarps 1 ((sample b 0).schedWarps 0)
    simtStack := Function.update (fun _ => b.pc) 0 a.pc }

/-- Consuming a head that is not ready stops at an assertion. -/
theorem headReady_of_issueWarp {port : OutPort} {mask : ActiveMask} {i : QueueInst} {key : QueueKey}
    {q : Queue} (h : c.issueWarp O cfg port inst mask w schedId = .ok c')
    (hi : i ∈ inst.queue) (hload : i.load = false) (hnames : c.Names cfg w i i.kind key)
    (hq : c.shader.queue? i.kind key = some q) (hconf : q.configured = true) :
    q.headReady = true := by
  obtain ⟨q', _, ⟨_, hnone⟩ | ⟨i', hi', _, ⟨htrue, _⟩ | ⟨_, hconsume⟩⟩⟩ :=
    issueWarp_queue h hq hconf
  · exact absurd hnames (hnone i hi)
  · obtain rfl : i' = i := Option.mem_unique hi' hi
    rw [hload] at htrue
    cases htrue
  · simp only [Queue.consumeHead, bind_eq_ok, require_eq_ok, fetch_eq_ok] at hconsume
    obtain ⟨_, hempty, e, he, _, hstate, _⟩ := hconsume
    simp [Queue.headReady, hempty, he, hstate]

end IssueState

namespace Stage

variable {g : Stage Mem Threads Simt Score} {pair : CoissuePair} {flags : IssueFlags}
  {r : Collected Mem Threads Simt Score}

/-- A producer and a consumer that use different output register sets, and each of which can
issue on its own. -/
structure SoundPair (O : Outside Mem Threads Simt Score) (cfg : SchedConfig)
    (g : Stage Mem Threads Simt Score) (pair : CoissuePair) : Prop where
  warp_ne : pair.consumer.warpId ≠ pair.producer.warpId
  producer_role : Shader.isWaspProducerWarp cfg.toConfig pair.producer.warpId = .ok true
  consumer_role : Shader.isWaspProducerWarp cfg.toConfig pair.consumer.warpId = .ok false
  out_ne : pair.consumerTarget.out ≠ pair.producerTarget.out
  producer_issuable : g.core.Issuable O cfg g.sched.id pair.producer.warpId pair.producer.inst
    pair.producerTarget
  consumer_issuable : g.core.Issuable O cfg g.sched.id pair.consumer.warpId pair.consumer.inst
    pair.consumerTarget

/-- A candidate of the priority list that is ready can issue. -/
theorem issuable_of_mem_candidates {cand : IssueCandidate} {t : IssueTarget}
    (h : cand ∈ g.candidates O cfg) (ht : cand.target = .ok t) :
    g.core.Issuable O cfg g.sched.id cand.warpId cand.inst t := by
  obtain ⟨entry, _, hentry⟩ := List.mem_filterMap.mp h
  unfold candidate at hentry
  split at hentry
  · rename_i c' cand' hcollect
    subst hentry
    obtain ⟨rfl, _⟩ := IssueState.collectIssueCandidate_some hcollect
    exact IssueState.issuable_of_collect hcollect ht
  · cases hentry

/-- What the first pair is in the state before, and once all candidates are collected. -/
theorem sound_of_firstPair (h : g.collectCandidates O cfg flags = .ok r)
    (hfirst : FirstPair (g.producers O cfg) (g.consumers O cfg) pair) :
    g.SoundPair O cfg pair ∧ r.core.ReadyPair O cfg g.sched.id pair := by
  obtain ⟨_, _, _, hall⟩ := collectCandidates_spec h
  obtain ⟨hprodMem, hprodRole⟩ := List.mem_filter.mp hfirst.mem_producers
  obtain ⟨hconsMem, hconsRole⟩ := List.mem_filter.mp hfirst.mem_consumers
  rw [Bool.not_eq_true'] at hconsRole
  obtain ⟨hprodAgain, hprod⟩ := hall _ hprodMem
  obtain ⟨hconsAgain, hcons⟩ := hall _ hconsMem
  rw [hprodRole] at hprod
  rw [hconsRole] at hcons
  have hne : pair.consumer.warpId ≠ pair.producer.warpId := by
    intro heq
    rw [heq, hprod] at hcons
    cases hcons
  have hready : r.core.ReadyPair O cfg g.sched.id pair :=
    ⟨hprodAgain, hconsAgain, hfirst.producer_ready, hfirst.consumer_ready, hfirst.execType_ne, hne⟩
  exact ⟨⟨hne, hprod, hcons, hready.out_ne,
    issuable_of_mem_candidates hprodMem hfirst.producer_ready,
    issuable_of_mem_candidates hconsMem hfirst.consumer_ready⟩, hready⟩

/-- The issue of a pair that takes from one queue with an entry that is not ready stops. -/
theorem issuePair_stops {g' : Stage Mem Threads Simt Score}
    (h : g.core.ReadyPair O cfg g.sched.id pair)
    (hpops : g.core.PopsUnready cfg pair) : g.issuePair O cfg pair ≠ .ok g' := by
  intro hissue
  simp only [issuePair, issueWarp, bind_eq_ok, pure_eq_ok] at hissue
  obtain ⟨-, -, -, -, g₁, ⟨c₁, hprod, rfl⟩, g₂, ⟨c₂, hcons, rfl⟩, -⟩ := hissue
  obtain ⟨j, hj, hload, key, q, _, hnames, hq, hconf, hhead, _⟩ := h.head_behind hprod hpops
  have hready := IssueState.headReady_of_issueWarp hcons hj hload hnames hq hconf
  rw [hhead] at hready
  cases hready

/-- A co-issue issues exactly when the priority list holds a pair, and then the first one. Its
halves are sound; the consumer can still issue behind the producer unless both take from one
queue whose next entry is not ready, where the co-issue stops at an assertion. -/
theorem tryPcCoissue_sound (O : Outside Mem Threads Simt Score) (flags : IssueFlags)
    (hcoissue : cfg.coissues = true) :
    (∀ e, g.collectCandidates O cfg flags = .error e →
        g.tryPcCoissue O cfg flags = .error e) ∧
      ∀ r, g.collectCandidates O cfg flags = .ok r →
        (¬g.HasPair O cfg → ∃ g', g.tryPcCoissue O cfg flags = .ok (g', r.flags, false)) ∧
          (g.HasPair O cfg → ∃ pair stats,
            FirstPair (g.producers O cfg) (g.consumers O cfg) pair ∧ g.SoundPair O cfg pair ∧
              g.tryPcCoissue O cfg flags =
                (fun g' => (g', { r.flags with issuedInst := true }, true)) <$>
                  issuePair O cfg { g with core := r.core, stats } pair ∧
              (∀ core₁, r.core.issueWarp O cfg pair.producerTarget.out pair.producer.inst
                  pair.producerTarget.activeMask pair.producer.warpId g.sched.id = .ok core₁ →
                (core₁.Issuable O cfg g.sched.id pair.consumer.warpId pair.consumer.inst
                    pair.consumerTarget ↔ ¬g.core.PopsUnready cfg pair)) ∧
              (g.core.PopsUnready cfg pair → ∀ x, g.tryPcCoissue O cfg flags ≠ .ok x)) := by
  have hon : ¬(cfg.gpgpuWaspPcCoissueEnable = false ∨
      (cfg.waspRfqEnabled = false ∧ cfg.smemqEnabled = false)) := by
    simp only [SchedConfig.coissues, Bool.and_eq_true, Bool.or_eq_true] at hcoissue
    grind
  constructor
  · intro e hcollect
    simp only [tryPcCoissue, hon, ↓reduceIte, hcollect]
    rfl
  · intro r hcollect
    obtain ⟨htested, hprods, hconss, _⟩ := collectCandidates_spec hcollect
    cases hfound : g.stats.tryProducers r.consumers r.producers with
    | mk stats found =>
      obtain ⟨hnone, hsome⟩ := IssueStats.tryProducers_first hfound
      rw [hprods, hconss] at hnone hsome
      cases found with
      | none =>
        have hlacks : ¬g.HasPair O cfg := by
          rintro ⟨prod, hprod, cons, hcons, hpairs⟩
          exact hnone rfl prod hprod cons hcons hpairs
        refine ⟨fun _ => ⟨{ g with core := r.core, stats }, ?_⟩, fun hpair => absurd hpair hlacks⟩
        simp only [tryPcCoissue, hon, ↓reduceIte, hcollect, hfound, bind, Except.bind]
        rfl
      | some pair =>
        have hfirst := hsome pair rfl
        obtain ⟨hsound, hready⟩ := sound_of_firstPair hcollect hfirst
        have htry : g.tryPcCoissue O cfg flags =
            (fun g' => (g', { r.flags with issuedInst := true }, true)) <$>
              issuePair O cfg { g with core := r.core, stats } pair := by
          simp only [tryPcCoissue, hon, ↓reduceIte, hcollect, hfound, bind, Except.bind]
          cases issuePair O cfg { g with core := r.core, stats } pair with
          | error e => rfl
          | ok g' => rfl
        have hpops := IssueState.popsUnready_tested hready htested
        refine ⟨fun hlacks => absurd ?_ hlacks,
          fun _ => ⟨pair, stats, hfirst, hsound, htry, fun core₁ hissue => ?_, fun hp x hx => ?_⟩⟩
        · exact ⟨_, hfirst.mem_producers, _, hfirst.mem_consumers, _, _, hfirst.producer_ready,
            hfirst.consumer_ready, hfirst.execType_ne⟩
        · rw [← hpops]
          exact hready.consumer_issuable_iff hissue
        · rw [htry, map_eq_ok] at hx
          obtain ⟨g', hissue, _⟩ := hx
          exact issuePair_stops (g := { g with core := r.core, stats }) hready (hpops.mpr hp) hissue

/-- A producer that takes from its queue issues beside a load of its consumer. -/
theorem tryPcCoissue_sound_of_move_and_load :
    let g := ofPair (.samplePair (IssueState.sampleMove 8 .aluOp (.inl rfl))
      { pc := 16, op := .loadOp })
    ∃ pair,
      FirstPair (g.producers .sample (.sample 64 1)) (g.consumers .sample (.sample 64 1)) pair ∧
      g.SoundPair .sample (.sample 64 1) pair ∧
        (g.tryPcCoissue .sample (.sample 64 1) {}).map (fun x => x.2.2) = .ok true := by
  intro g
  have hcollect : ∃ r, g.collectCandidates .sample (.sample 64 1) {} = .ok r := ⟨_, rfl⟩
  obtain ⟨r, hcollect⟩ := hcollect
  have hproducers : g.producers .sample (.sample 64 1) = [{
      warpId := 0
      inst := IssueState.sampleMove 8 .aluOp (.inl rfl)
      target := .ok { activeMask := BitVec.allOnes 32, out := .int, execType := .int } }] := by
    decide +kernel
  have hconsumers : g.consumers .sample (.sample 64 1) = [{
      warpId := 1
      inst := { pc := 16, op := .loadOp }
      target := .ok { activeMask := BitVec.allOnes 32, out := .mem, execType := .mem } }] := by
    decide +kernel
  have hpair : g.HasPair .sample (.sample 64 1) := by
    unfold HasPair
    rw [hproducers, hconsumers]
    exact ⟨_, List.mem_cons_self, _, List.mem_cons_self, _, _, rfl, rfl, by decide⟩
  obtain ⟨pair, stats, hfirst, hsound, _⟩ :=
    ((tryPcCoissue_sound (g := g) .sample {} (by decide)).2 r hcollect).2 hpair
  exact ⟨pair, hfirst, hsound, by decide +kernel⟩

/-- Two moves from one queue with one entry pair when one of them accesses memory, and the
second stops at an assertion. -/
theorem tryPcCoissue_stops_at_one_entry :
    let g := ofPair (.samplePair (IssueState.sampleMove 8 .aluOp (.inl rfl))
      (IssueState.sampleMove 16 .storeOp (.inr (.inr rfl))))
    (SchedConfig.sample 64 1).coissues = true ∧ g.HasPair .sample (.sample 64 1) ∧
      (g.tryPcCoissue .sample (.sample 64 1) {}).map (fun x => x.2.2) = .error .headNotReady := by
  intro g
  have hproducers : g.producers .sample (.sample 64 1) = [{
      warpId := 0
      inst := IssueState.sampleMove 8 .aluOp (.inl rfl)
      target := .ok { activeMask := BitVec.allOnes 32, out := .int, execType := .int } }] := by
    decide +kernel
  have hconsumers : g.consumers .sample (.sample 64 1) = [{
      warpId := 1
      inst := IssueState.sampleMove 16 .storeOp (.inr (.inr rfl))
      target := .ok { activeMask := BitVec.allOnes 32, out := .mem, execType := .mem } }] := by
    decide +kernel
  refine ⟨by decide, ?_, by decide +kernel⟩
  unfold HasPair
  rw [hproducers, hconsumers]
  exact ⟨_, List.mem_cons_self, _, List.mem_cons_self, _, _, rfl, rfl, by decide⟩

end Stage
end WaspSim
