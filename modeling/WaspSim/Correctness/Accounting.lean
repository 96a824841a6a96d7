import Mathlib.Algebra.BigOperators.Fin
import WaspSim.Core.Capacity
import WaspSim.Correctness.Bookkeeping
import WaspSim.Correctness.Runs

/-!
# The counters of a whole device

The cores of a device share one statistics object and global memory. Over any run
of all cores, with kernels and table clears in between, every reservation is a
consumption, an entry of a live queue or an entry that was dropped; every access
of a queue load was answered, is awaited or was dropped; and the largest occupancy
is recorded.
-/

namespace WaspSim

/-- The options of a core while it runs a kernel of another geometry. -/
def Config.forKernel (cfg : Config) (threadsPerCta kernelMaxCtaPerShader : Nat) : Config :=
  { cfg with threadsPerCta, kernelMaxCtaPerShader }

namespace Shader

variable {Mem : Type} {cfg : Config} {s s' : Shader Mem} {es : List Event}
  {read : Mem → BitVec 64 → Nat → BitVec 64}

/-- `reset` of a warp. -/
def resetWarp (s : Shader Mem) (w : Nat) : Except Halt (Shader Mem) := do
  require .warpBusy ((s.warps w).storesOutstanding = 0 ∧ (s.warps w).instInPipeline = 0)
  pure (s.setWarp w fun v => { v with running := 0, doneExit := true })

/-- `reinit` of the whole core with `reset_not_completed`. -/
def reinit (cfg : Config) (s : Shader Mem) : Except Halt (Shader Mem) :=
  (List.range cfg.maxWarpsPerShader).foldlM resetWarp { s with tables := fun _ => ∅ }

theorem generated_of_loads (kind : QueueKind) (h : Log.loads es = []) : generated kind es = 0 := by
  simp [generated, h]

/-- Sending accesses marks at most one hit. -/
theorem memoryCycle_marks {inst inst' : WarpInst} {port : Port} {done : Bool}
    (h : memoryCycle cfg s inst port = .ok (s', inst', done, es)) :
    Marks cfg s s' ∧ Log.loads es = [] := by
  have hkeep : ∀ {m : Shader Mem} {i : WarpInst} {d : Bool}, Untouched s m →
      pure (m, i, d, []) = (Except.ok (s', inst', done, es) : Except Halt _) →
      Marks cfg s s' ∧ Log.loads es = [] := by
    intro m i d hm hpure
    simp only [pure_eq_ok, Prod.mk.injEq] at hpure
    obtain ⟨rfl, _, _, rfl⟩ := hpure
    exact ⟨.inl hm, rfl⟩
  unfold memoryCycle at h
  split at h
  · exact hkeep (.refl s) h
  · split at h
    · split at h
      · exact hkeep (.refl s) h
      · refine hkeep ?_ h
        exact ⟨rfl, rfl⟩
    · split at h
      · refine hkeep ?_ h
        exact ⟨rfl, rfl⟩
      · simp only [bind_eq_ok, pure_eq_ok, Prod.exists, Prod.mk.injEq] at h
        obtain ⟨s₁, inst₁, es₁, haccess, rfl, _, _, rfl⟩ := h
        cases hstatus : port.status with
        | hit =>
          simp only [hstatus, processCacheAccess, bind_eq_ok, pure_eq_ok, Prod.exists,
            Prod.mk.injEq] at haccess
          obtain ⟨m, last, hmark, rfl, _, rfl⟩ := haccess
          exact ⟨.inr ⟨s, m, _, last, .refl s, hmark, .refl m⟩, rfl⟩
        | reservationFail =>
          simp only [hstatus, processCacheAccess, pure_eq_ok, Prod.mk.injEq] at haccess
          obtain ⟨rfl, _, rfl⟩ := haccess
          exact ⟨.inl (.refl s), rfl⟩
        | miss =>
          simp only [hstatus, processCacheAccess, pure_eq_ok, Prod.mk.injEq] at haccess
          obtain ⟨rfl, _, rfl⟩ := haccess
          exact ⟨.inl ⟨rfl, rfl⟩, rfl⟩
        | hitReserved =>
          simp only [hstatus, processCacheAccess, pure_eq_ok, Prod.mk.injEq] at haccess
          obtain ⟨rfl, _, rfl⟩ := haccess
          exact ⟨.inl ⟨rfl, rfl⟩, rfl⟩

/-- Dispatch only marks responses, and loads nothing. -/
theorem dispatchCycle_marks {i : Nat} {port : Port}
    (h : dispatchCycle cfg s i port = .ok (s', es)) : Marks cfg s s' ∧ Log.loads es = [] := by
  simp only [dispatchCycle, bind_eq_ok, fetch_eq_ok, Prod.exists] at h
  obtain ⟨inst, _, s₁, inst₁, done, es₁, hcycle, h⟩ := h
  obtain ⟨hmarks, hloads⟩ := memoryCycle_marks hcycle
  split at h
  · simp only [bind_eq_ok, pure_eq_ok, Prod.mk.injEq] at h
    obtain ⟨pending, _, m, hdec, rfl, rfl⟩ := h
    obtain ⟨_, rfl⟩ := decInstInPipeline_eq_ok hdec
    refine ⟨hmarks.trans ⟨rfl, rfl⟩, ?_⟩
    split
    · exact hloads
    · rw [Log.loads_append, hloads]
      rfl
  · simp only [pure_eq_ok, Prod.mk.injEq] at h
    obtain ⟨rfl, rfl⟩ := h
    exact ⟨hmarks.trans ⟨rfl, rfl⟩, hloads⟩

theorem l1LatencyQueueCycle_marks {i : Nat} {status : CacheStatus}
    (h : l1LatencyQueueCycle cfg s i status = .ok (s', es)) :
    Marks cfg s s' ∧ Log.loads es = [] := by
  simp only [l1LatencyQueueCycle, bind_eq_ok, fetch_eq_ok] at h
  obtain ⟨inst, _, h⟩ := h
  cases status with
  | hit =>
    obtain ⟨last, hmark, rfl⟩ := answer_eq_ok h
    refine ⟨.inr ⟨_, s', inst, last, ?_, hmark, .refl s'⟩, Log.loads_answerEvents⟩
    exact ⟨rfl, rfl⟩
  | reservationFail | miss | hitReserved =>
    simp only [pure_eq_ok, Prod.mk.injEq] at h
    obtain ⟨rfl, rfl⟩ := h
    exact ⟨.inl ⟨rfl, rfl⟩, rfl⟩

theorem respond_marks {i : Nat} (h : respond cfg s i = .ok (s', es)) :
    Marks cfg s s' ∧ Log.loads es = [] := by
  simp only [respond, bind_eq_ok, fetch_eq_ok] at h
  obtain ⟨inst, _, h⟩ := h
  split at h
  · simp only [bind_eq_ok, pure_eq_ok, Prod.mk.injEq] at h
    obtain ⟨_, _, rfl, rfl⟩ := h
    exact ⟨.inl ⟨rfl, rfl⟩, rfl⟩
  · simp only [pure_eq_ok, Prod.mk.injEq] at h
    obtain ⟨rfl, rfl⟩ := h
    exact ⟨.inl ⟨rfl, rfl⟩, rfl⟩

theorem writeback_marks {client : WritebackClient} (h : writeback cfg s client = .ok (s', es)) :
    Marks cfg s s' ∧ Log.loads es = [] := by
  unfold writeback at h
  split at h
  · simp only [bind_eq_ok, pure_eq_ok, Prod.exists, Prod.mk.injEq] at h
    obtain ⟨s₁, es₁, hanswer, rfl, rfl⟩ := h
    obtain ⟨last, hmark, rfl⟩ := answer_eq_ok hanswer
    exact ⟨.inr ⟨s, s₁, _, last, .refl s, hmark, ⟨rfl, rfl⟩⟩, Log.loads_answerEvents⟩
  · cases client with
    | nextGlobal =>
      simp only [bind_eq_ok, pure_eq_ok, Prod.mk.injEq] at h
      obtain ⟨_, _, rfl, rfl⟩ := h
      exact ⟨.inl ⟨rfl, rfl⟩, rfl⟩
    | l1dAccess i =>
      simp only [bind_eq_ok, pure_eq_ok, Prod.mk.injEq] at h
      obtain ⟨_, _, rfl, rfl⟩ := h
      exact ⟨.inl ⟨rfl, rfl⟩, rfl⟩

/-- Exits leave the counters as they are. -/
theorem registerExits_stats {ctaHwId n : Nat} (h : registerExits s ctaHwId n = .ok (s', es)) :
    s'.stats = s.stats := by
  induction n generalizing s es with
  | zero =>
    simp only [registerExits, pure_eq_ok, Prod.mk.injEq] at h
    rw [h.1]
  | succ n ih =>
    simp only [registerExits, registerCtaThreadExit, bind_eq_ok, pure_eq_ok, Prod.exists,
      Prod.mk.injEq] at h
    obtain ⟨s₁, _, ⟨_, _, hone⟩, s₂, _, hrest, rfl, _⟩ := h
    rw [ih hrest]
    split at hone
    · rw [← (Prod.mk.inj hone).1]
      rfl
    · rw [← (Prod.mk.inj hone).1]

/-- Reclaiming a warp balances: the entries of a retired CTA are dropped. -/
theorem reclaim_balances {w : Nat} (hsound : Sound cfg s) (h : reclaim s w = .ok (s', es)) :
    Balances cfg s s' es := by
  obtain ⟨_, _, _, _, _, _, _, hcases⟩ := reclaim_cases h
  have hstats : s'.stats = s.stats := by
    simp only [reclaim, bind_eq_ok, pure_eq_ok, Prod.exists, Prod.mk.injEq] at h
    obtain ⟨_, _, s₁, _, hexits, rfl, _⟩ := h
    change s₁.stats = s.stats
    exact registerExits_stats hexits
  rcases hcases with ⟨c, _, htables, rfl⟩ | ⟨_, htables, rfl⟩
  · exact eraseCta_balances hsound htables hstats fun _ => rfl
  · exact Untouched.balances ⟨htables, hstats⟩ hsound fun _ => rfl

/-- The launch of a CTA balances. -/
theorem issueBlock2core_balances {c : Nat} (hsound : Sound cfg s) {cfg' : Config}
    (h : issueBlock2core cfg' s c = .ok (s', es)) : Balances cfg s s' es := by
  simp only [issueBlock2core, bind_eq_ok, pure_eq_ok, Prod.mk.injEq] at h
  obtain ⟨_, _, m, hfold, rfl, rfl⟩ := h
  have hm : Untouched s m := by
    apply foldlM_invariant (Untouched s) ?_ hfold (.refl s)
    intro n i n' _ hn hinit
    simp only [initWarp, bind_eq_ok, pure_eq_ok] at hinit
    obtain ⟨_, _, _, _, rfl⟩ := hinit
    exact hn.trans ⟨rfl, rfl⟩
  exact Untouched.balances (hm.trans ⟨rfl, rfl⟩) hsound fun _ => rfl

/-- Every action of a core is booked. -/
theorem step_balances {a : Action Mem} (hsound : Sound cfg s)
    (h : step cfg read s a = .ok (s', es)) : Balances cfg s s' es := by
  have hmarks : Marks cfg s s' ∧ Log.loads es = [] → Balances cfg s s' es :=
    fun hm => hm.1.balances hsound fun kind => generated_of_loads kind hm.2
  cases a with
  | test w inst countStall =>
    simp only [step, bind_eq_ok, pure_eq_ok, Prod.exists, Prod.mk.injEq] at h
    obtain ⟨_, _, s₁, b₁, hrfq, s₂, b₂, hsmemq, rfl, rfl⟩ := h
    exact test_balances hsound hrfq hsmemq
  | issue w inst mask input =>
    cases hload : inst.load with
    | true => exact load_balances hsound hload h
    | false => exact move_balances hsound hload h
  | dispatch i port => exact hmarks (dispatchCycle_marks h)
  | l1Latency i status => exact hmarks (l1LatencyQueueCycle_marks h)
  | respond i => exact hmarks (respond_marks h)
  | writeback client => exact hmarks (writeback_marks h)
  | reclaim w => exact reclaim_balances hsound h
  | launch c => exact issueBlock2core_balances hsound h
  | finishOther w =>
    simp only [step, bind_eq_ok, pure_eq_ok, Prod.mk.injEq] at h
    obtain ⟨_, _, m, hdec, rfl, rfl⟩ := h
    obtain ⟨_, rfl⟩ := decInstInPipeline_eq_ok hdec
    exact hmarks ⟨.inl ⟨rfl, rfl⟩, rfl⟩
  | decode w | storeReq w | storeMem mem =>
    simp only [step, pure_eq_ok, Prod.mk.injEq] at h
    obtain ⟨rfl, rfl⟩ := h
    exact hmarks ⟨.inl ⟨rfl, rfl⟩, rfl⟩
  | issueOther w | flush w | storeAck w | exit w n =>
    simp only [step, bind_eq_ok, pure_eq_ok, Prod.mk.injEq] at h
    obtain ⟨_, _, rfl, rfl⟩ := h
    exact hmarks ⟨.inl ⟨rfl, rfl⟩, rfl⟩

@[simp] theorem options_forKernel (cfg : Config) (threadsPerCta kernelMaxCtaPerShader : Nat)
    (kind : QueueKind) :
    (cfg.forKernel threadsPerCta kernelMaxCtaPerShader).options kind = cfg.options kind := by
  cases kind <;> rfl

/-- The books do not depend on the kernel that a core runs. -/
theorem sound_forKernel (threadsPerCta kernelMaxCtaPerShader : Nat) :
    Sound (cfg.forKernel threadsPerCta kernelMaxCtaPerShader) s ↔ Sound cfg s := by
  have hconf : ∀ kind width q,
      Configured (cfg.forKernel threadsPerCta kernelMaxCtaPerShader) kind width q ↔
        Configured cfg kind width q := by
    intro kind width q
    constructor
    · rintro ⟨h₁, h₂, h₃⟩
      exact ⟨by rw [h₁, options_forKernel], h₂, h₃⟩
    · rintro ⟨h₁, h₂, h₃⟩
      exact ⟨by rw [h₁, options_forKernel], h₂, h₃⟩
  simp only [Sound, Holds, hconf]

/-- What a step books does not depend on the kernel. -/
theorem booked_forKernel (threadsPerCta kernelMaxCtaPerShader : Nat) {kind : QueueKind} :
    Booked (cfg.forKernel threadsPerCta kernelMaxCtaPerShader) kind s s' es ↔
      Booked cfg kind s s' es := by
  constructor
  · rintro ⟨h₁, h₂, h₃, h₄, h₅⟩
    rw [options_forKernel] at h₄
    exact ⟨h₁, h₂, h₃, h₄, h₅⟩
  · rintro ⟨h₁, h₂, h₃, h₄, h₅⟩
    exact ⟨h₁, h₂, h₃, by rwa [options_forKernel], h₅⟩

/-- Clearing the tables drops every queue. -/
theorem reinit_balances (h : reinit cfg s = .ok s') : Balances cfg s s' [] := by
  have hm : Untouched { s with tables := fun _ => ∅ } s' := by
    apply foldlM_invariant (Untouched { s with tables := fun _ => ∅ }) ?_ h (.refl _)
    intro n w n' _ hn hreset
    simp only [resetWarp, bind_eq_ok, pure_eq_ok] at hreset
    obtain ⟨_, _, rfl⟩ := hreset
    exact hn.trans ⟨rfl, rfl⟩
  constructor
  · intro kind key
    refine ⟨Fifo.empty, .inl ⟨?_, rfl⟩⟩
    rw [queue?_congr hm.tables_eq]
    exact AList.lookup_empty key
  · intro kind
    apply Booked.of_keep
    · exact .of_eq (by rw [hm.stats_eq])
    · rfl
    · intro key hkey
      rw [hm.tables_eq] at hkey
      exact absurd hkey (AList.notMem_empty key)

end Shader

/-- What the counters cannot show: accesses generated, and entries and responses
dropped with their queues. -/
structure Ledger where
  generated : QueueKind → Nat := fun _ => 0
  droppedEntries : QueueKind → Nat := fun _ => 0
  droppedResponses : QueueKind → Nat := fun _ => 0

/-- The cores of a device, with what they share. -/
structure Gpu (n : Nat) (Mem : Type) where
  cores : Fin n → Shader Mem
  /-- The counters of the queues in `shader_core_stats`. -/
  stats : QueueKind → QueueStats
  /-- `wasp_stage_issue_count`. -/
  stageIssueCount : Nat → Nat
  /-- Global memory. -/
  mem : Mem
  ledger : Ledger

/-- An action of the device. -/
inductive GpuAction (n : Nat) (Mem : Type) where
  /-- A core acts while it runs a kernel of the given geometry. -/
  | core (i : Fin n) (threadsPerCta kernelMaxCtaPerShader : Nat) (a : Action Mem)
  /-- A core is reinitialised. -/
  | reinit (i : Fin n)

namespace Gpu

variable {n : Nat} {Mem : Type} {cfg : Config} {read : Mem → BitVec 64 → Nat → BitVec 64}
  {g g' : Gpu n Mem} {mem : Mem}

/-- A device with empty cores and all counters at 0. -/
def initial (mem : Mem) : Gpu n Mem where
  cores _ := Shader.initial mem
  stats _ := {}
  stageIssueCount _ := 0
  mem
  ledger := {}

/-- A core with the shared statistics and memory. -/
def core (g : Gpu n Mem) (i : Fin n) : Shader Mem :=
  { g.cores i with stats := g.stats, stageIssueCount := g.stageIssueCount, mem := g.mem }

/-- Take over what a core has become, and note what the counters cannot show. -/
def commit (g : Gpu n Mem) (i : Fin n) (s : Shader Mem) (es : List Event) : Gpu n Mem where
  cores := Function.update g.cores i s
  stats := s.stats
  stageIssueCount := s.stageIssueCount
  mem := s.mem
  ledger := {
    generated := fun kind => g.ledger.generated kind + Shader.generated kind es
    droppedEntries := fun kind => g.ledger.droppedEntries kind + (g.core i).droppedEntries s kind
    droppedResponses := fun kind =>
      g.ledger.droppedResponses kind + (g.core i).droppedResponses s kind }

/-- One action of the device. -/
def step (cfg : Config) (read : Mem → BitVec 64 → Nat → BitVec 64) (g : Gpu n Mem) :
    GpuAction n Mem → Except Halt (Gpu n Mem)
  | .core i threadsPerCta kernelMaxCtaPerShader a => do
    let (s, es) ← Shader.step (cfg.forKernel threadsPerCta kernelMaxCtaPerShader) read (g.core i) a
    pure (g.commit i s es)
  | .reinit i => do
    let s ← Shader.reinit cfg (g.core i)
    pure (g.commit i s [])

/-- The books of the device balance. -/
structure Balanced (cfg : Config) (g : Gpu n Mem) : Prop where
  sound : ∀ i, (g.core i).Sound cfg
  entries_eq : ∀ kind, (g.stats kind).reservations =
    (g.stats kind).consumes + ∑ i, (g.cores i).occupied kind + g.ledger.droppedEntries kind
  responses_eq : ∀ kind, (g.stats kind).memoryFills + ∑ i, (g.cores i).awaited kind +
    g.ledger.droppedResponses kind = g.ledger.generated kind
  maxOccupancy_le : ∀ kind, (g.stats kind).maxOccupancy ≤ (cfg.options kind).entries
  occupancy_le : ∀ kind i key,
    ((g.cores i).tables kind).share Queue.occupancy key ≤ (g.stats kind).maxOccupancy

/-- A GPU that has done nothing is balanced. -/
theorem Balanced.initial (cfg : Config) (mem : Mem) : Balanced cfg (initial mem : Gpu n Mem) where
  sound i kind key := ⟨Fifo.empty, .inl ⟨AList.lookup_empty key, rfl⟩⟩
  entries_eq kind := by simp [Gpu.initial, Shader.initial, Shader.occupied, QueueTable.total]
  responses_eq kind := by simp [Gpu.initial, Shader.initial, Shader.awaited, QueueTable.total]
  maxOccupancy_le kind := Nat.zero_le _
  occupancy_le kind i key := by
    change QueueTable.share Queue.occupancy ∅ key ≤ _
    rw [QueueTable.share_of_not_mem (AList.notMem_empty key)]
    exact Nat.zero_le _

/-- A booked step of a core keeps the books of the device. -/
theorem Balanced.commit (h : Balanced cfg g) {i : Fin n} {s : Shader Mem} {es : List Event}
    (hs : Shader.Balances cfg (g.core i) s es) : Balanced cfg (g.commit i s es) where
  sound j := by
    by_cases hj : j = i
    · subst hj
      apply hs.1.congr
      simp [core, Gpu.commit]
    · apply (h.sound j).congr
      simp [core, Gpu.commit, hj]
  entries_eq kind := by
    have hsum := sum_update (Finset.mem_univ i) g.cores s fun c => c.occupied kind
    have hold := h.entries_eq kind
    have hbook := (hs.2 kind).entries_eq
    have hcore : (g.core i).occupied kind = (g.cores i).occupied kind := rfl
    have hstats : (g.core i).stats = g.stats := rfl
    rw [hstats, hcore] at hbook
    simp only [Gpu.commit] at hsum ⊢
    omega
  responses_eq kind := by
    have hsum := sum_update (Finset.mem_univ i) g.cores s fun c => c.awaited kind
    have hold := h.responses_eq kind
    have hbook := (hs.2 kind).responses_eq
    have hcore : (g.core i).awaited kind = (g.cores i).awaited kind := rfl
    have hstats : (g.core i).stats = g.stats := rfl
    rw [hstats, hcore] at hbook
    simp only [Gpu.commit] at hsum ⊢
    omega
  maxOccupancy_le kind := (hs.2 kind).maxOccupancy_le (h.maxOccupancy_le kind)
  occupancy_le kind j key := by
    by_cases hj : j = i
    · subst hj
      have hnow := (hs.2 kind).occupancy_le (h.occupancy_le kind j) key
      simpa [Gpu.commit] using hnow
    · have hold := h.occupancy_le kind j key
      simpa [Gpu.commit, hj] using hold.trans (hs.2 kind).maxOccupancy_mono

/-- Every action of the device is one booked step of a core. -/
theorem step_balances (hsound : ∀ i, (g.core i).Sound cfg) {a : GpuAction n Mem}
    (h : step cfg read g a = .ok g') :
    ∃ i s es, Shader.Balances cfg (g.core i) s es ∧ g' = g.commit i s es := by
  cases a with
  | core i threads maxCta a =>
    simp only [step, bind_eq_ok, pure_eq_ok, Prod.exists] at h
    obtain ⟨s, es, hstep, rfl⟩ := h
    obtain ⟨hs, hbooked⟩ := Shader.step_balances ((Shader.sound_forKernel _ _).mpr (hsound i)) hstep
    exact ⟨i, s, es, ⟨(Shader.sound_forKernel _ _).mp hs, fun kind =>
      (Shader.booked_forKernel _ _).mp (hbooked kind)⟩, rfl⟩
  | reinit i =>
    simp only [step, bind_eq_ok, pure_eq_ok] at h
    obtain ⟨s, hreinit, rfl⟩ := h
    exact ⟨i, s, [], Shader.reinit_balances hreinit, rfl⟩

/-- The books balance after every run. -/
theorem balanced_of_reaches
    (hrun : Reaches (step cfg read) (fun _ _ => True) (Gpu.initial mem) g) : Balanced cfg g := by
  apply hrun.invariant (Balanced cfg) (.initial cfg mem)
  intro g a g' hg _ hstep
  obtain ⟨i, s, es, hs, rfl⟩ := step_balances hg.sound hstep
  exact hg.commit hs

/-- The maximum occupancy never falls along a run. -/
theorem maxOccupancy_mono (hg : Balanced cfg g)
    (hrun : Reaches (step cfg read) (fun _ _ => True) g g') (kind : QueueKind) :
    (g.stats kind).maxOccupancy ≤ (g'.stats kind).maxOccupancy := by
  have hall : Balanced cfg g' ∧ (g.stats kind).maxOccupancy ≤ (g'.stats kind).maxOccupancy := by
    apply hrun.invariant fun g' =>
      Balanced cfg g' ∧ (g.stats kind).maxOccupancy ≤ (g'.stats kind).maxOccupancy
    · exact ⟨hg, le_rfl⟩
    · rintro g₁ a g₂ ⟨hg₁, hle⟩ _ hstep
      obtain ⟨i, s, es, hs, rfl⟩ := step_balances hg₁.sound hstep
      exact ⟨hg₁.commit hs, hle.trans (hs.2 kind).maxOccupancy_mono⟩
  exact hall.2

/-- In every state of every run of the device, the entries reserved were consumed, are
queued or were dropped; the accesses generated were answered, are awaited or were
dropped; and the recorded maximum is within the depth of the queues and is, then and
ever after, at least every occupancy. -/
theorem queue_accounting
    (hrun : Reaches (step cfg read) (fun _ _ => True) (Gpu.initial mem : Gpu n Mem) g)
    (kind : QueueKind) :
    (g.stats kind).reservations =
        (g.stats kind).consumes + ∑ i, (g.cores i).occupied kind + g.ledger.droppedEntries kind ∧
      (g.stats kind).memoryFills + ∑ i, (g.cores i).awaited kind +
        g.ledger.droppedResponses kind = g.ledger.generated kind ∧
      (g.stats kind).maxOccupancy ≤ (cfg.options kind).entries ∧
      ∀ g', Reaches (step cfg read) (fun _ _ => True) g g' →
        ∀ i key q, (g.cores i).queue? kind key = some q →
          q.occupancy ≤ (g'.stats kind).maxOccupancy := by
  have hg := balanced_of_reaches hrun
  refine ⟨hg.entries_eq kind, hg.responses_eq kind, hg.maxOccupancy_le kind, ?_⟩
  intro g' hrun' i key q hq
  have hle := hg.occupancy_le kind i key
  rw [QueueTable.share_of_lookup hq] at hle
  exact hle.trans (maxOccupancy_mono hg hrun' kind)

/-- Two cores: one retires its CTA with a load unanswered, the other is cleared after
its consumer has moved one of two loads. -/
def retireAndClear : List (GpuAction 2 Unit) :=
  Shader.retireEarly.map (.core ⟨0, Nat.two_pos⟩ 64 1) ++
    [.launch 0, .decode 0, .decode 0, .decode 1,
      .issue 0 Shader.sampleLoad (BitVec.allOnes 32) (Shader.sampleInput 1),
      .issue 0 Shader.sampleLoad (BitVec.allOnes 32) (Shader.sampleInput 2),
      .dispatch 0 { freeBanks := 1 }, .dispatch 0 { freeBanks := 2 }, .l1Latency 0 .hit,
      .issue 1 Shader.sampleMove (BitVec.allOnes 32) (Shader.sampleInput 0),
      .dispatch 0 { freeBanks := 2 }, .finishOther 1].map (.core ⟨1, Nat.one_lt_two⟩ 64 1) ++
    [.reinit ⟨1, Nat.one_lt_two⟩]

/-- Three loads, one move, and two entries dropped with their CTA. -/
theorem queue_accounting_after_clear : ∃ g : Gpu 2 Unit,
    Reaches (step (Config.sample 64 4) Shader.sampleRead) (fun _ _ => True) (Gpu.initial ()) g ∧
      ((g.stats .rfq).reservations = 3 ∧ (g.stats .rfq).consumes = 1 ∧
        g.ledger.droppedEntries .rfq = 2) ∧
      (g.stats .rfq).reservations = (g.stats .rfq).consumes +
        ∑ i, (g.cores i).occupied .rfq + g.ledger.droppedEntries .rfq := by
  obtain ⟨g, hrun, hcounts⟩ : ∃ g : Gpu 2 Unit,
      Reaches (step (Config.sample 64 4) Shader.sampleRead) (fun _ _ => True) (Gpu.initial ()) g ∧
        (g.stats .rfq).reservations = 3 ∧ (g.stats .rfq).consumes = 1 ∧
          g.ledger.droppedEntries .rfq = 2 :=
    Reaches.exists_of_foldlM (e := .disabled) retireAndClear (by decide +kernel)
  exact ⟨g, hrun, hcounts, (queue_accounting hrun .rfq).1⟩

end Gpu
end WaspSim
