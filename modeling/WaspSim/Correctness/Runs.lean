import WaspSim.Correctness.Settled

/-!
# Runs of a core

A run starts with an empty core and takes actions in any order. The accounts of
accesses and the windows of all queues hold on every run, and a queue is settled
on every run that retires its CTA with none of its accesses in flight.
-/

namespace WaspSim
namespace Shader

variable {Mem : Type} {cfg : Config} {kind : QueueKind} {key : QueueKey} {s : Shader Mem}
  {log : List Event} {mem : Mem} {read : Mem → BitVec 64 → Nat → BitVec 64}
  {guard : Shader Mem → Action Mem → Prop}

/-- A core and the log of the actions that led to it, each of which met `guard`. -/
def Run (cfg : Config) (read : Mem → BitVec 64 → Nat → BitVec 64)
    (guard : Shader Mem → Action Mem → Prop) (mem : Mem) (s : Shader Mem) (log : List Event) :
    Prop :=
  Reaches (logged (step cfg read)) (fun p a => guard p.1 a) (initial mem, []) (s, log)

/-- No condition on the actions. -/
def anyAction (_ : Shader Mem) (_ : Action Mem) : Prop := True

/-- Accounts and windows on every run. -/
theorem Run.tracks (h : Run cfg read guard mem s log) (kind : QueueKind) (key : QueueKey) :
    Provenance cfg s log ∧ ∃ f, Tracks cfg kind key s log f := by
  refine Reaches.invariant
    (fun p => Provenance cfg p.1 p.2 ∧ ∃ f, Tracks cfg kind key p.1 p.2 f)
    ⟨.initial cfg mem, _, .initial cfg kind key mem⟩ ?_ h
  rintro ⟨s, log⟩ a ⟨s', log'⟩ ⟨hp, f, ht⟩ _ hstep
  obtain ⟨es, hstep, rfl⟩ := logged_eq_ok.mp hstep
  have haccess := hp.accessStep hstep
  obtain ⟨f', hqueue⟩ := haccess.queueStep hp ht.held
  exact ⟨hp.step haccess, f', ht.step hqueue⟩

/-- Every access in a run comes from a load that was issued. -/
theorem Run.provenance (h : Run cfg read guard mem s log) : Provenance cfg s log :=
  (h.tracks .rfq {}).1

/-- A queue is settled as long as its CTA is not retired with its accesses in flight. -/
theorem Run.settled (h : Run cfg read (CleanRetire kind key) mem s log) :
    ∃ f, Tracks cfg kind key s log f ∧ Settled kind key s log f := by
  have hall : Provenance cfg s log ∧
      ∃ f, Tracks cfg kind key s log f ∧ Settled kind key s log f := by
    refine Reaches.invariant (fun p => Provenance cfg p.1 p.2 ∧
        ∃ f, Tracks cfg kind key p.1 p.2 f ∧ Settled kind key p.1 p.2 f)
      ⟨.initial cfg mem, _, .initial cfg kind key mem, .initial kind key mem⟩ ?_ h
    rintro ⟨s, log⟩ a ⟨s', log'⟩ ⟨hp, f, ht, hs⟩ hguard hstep
    obtain ⟨es, hstep, rfl⟩ := logged_eq_ok.mp hstep
    have haccess := hp.accessStep hstep
    have hp' := hp.step haccess
    obtain ⟨f', hqueue⟩ := haccess.queueStep hp ht.held
    exact ⟨hp', f', ht.step hqueue, hs.step hp ht hguard hp' hqueue⟩
  exact hall.2

/-- Executing a list of actions that all meet a guard is a run. -/
theorem exists_reaches (cfg : Config) (read : Mem → BitVec 64 → Nat → BitVec 64)
    (guard : Shader Mem × List Event → Action Mem → Prop) [∀ p a, Decidable (guard p a)]
    (mem : Mem) (as : List (Action Mem)) (P : Shader Mem → List Event → Prop)
    [∀ s log, Decidable (P s log)]
    (h : ((as.foldlM (guarded (logged (step cfg read)) guard .disabled)
      (initial mem, [])).toOption.any fun p => decide (P p.1 p.2)) = true) :
    ∃ s log, Reaches (logged (step cfg read)) guard (initial mem, []) (s, log) ∧ P s log := by
  obtain ⟨p, hrun, hp⟩ :=
    Reaches.exists_of_foldlM (P := fun p : Shader Mem × List Event => P p.1 p.2) as h
  exact ⟨p.1, p.2, hrun, hp⟩

/-- A run of a list of actions reaches a state, which may be tested. -/
theorem exists_run (cfg : Config) (read : Mem → BitVec 64 → Nat → BitVec 64)
    (guard : Shader Mem → Action Mem → Prop) [∀ s a, Decidable (guard s a)] (mem : Mem)
    (as : List (Action Mem)) (P : Shader Mem → List Event → Prop) [∀ s log, Decidable (P s log)]
    (h : ((as.foldlM (guarded (logged (step cfg read)) (fun p a => guard p.1 a) .disabled)
      (initial mem, [])).toOption.any fun p => decide (P p.1 p.2)) = true) :
    ∃ s log, Run cfg read guard mem s log ∧ P s log :=
  exists_reaches cfg read (fun p a => guard p.1 a) mem as P h

instance : ∀ (s : Shader Mem) (a : Action Mem), Decidable (anyAction s a) :=
  fun _ _ => inferInstanceAs (Decidable True)

/-- A one-word RFQ load on queue 0. -/
def sampleLoad : QueueInst := { kind := .rfq, load := true, queueId := 0, v3 := false }

/-- A one-word RFQ move from queue 0. -/
def sampleMove : QueueInst := { kind := .rfq, load := false, queueId := 0, v3 := false }

/-- The queue that the sample instructions use in CTA 0. -/
def sampleKey : QueueKey := ⟨0, 0, 0, 1, 0⟩

/-- All lanes execute and make a number of accesses. -/
def sampleInput (accesses : Nat) : LaneInput :=
  { skip := fun _ => false, addr := fun _ _ => 0, size := 4, accesses }

/-- Every address holds 5. -/
def sampleRead : Unit → BitVec 64 → Nat → BitVec 64 := fun _ _ _ => 5

/-- A CTA whose producer issues one load and whose warps then exit: it retires while the
load's access is in the L1 latency queue. -/
def retireEarly : List (Action Unit) :=
  [.launch 0, .decode 0, .issue 0 sampleLoad (BitVec.allOnes 32) (sampleInput 1),
    .dispatch 0 { freeBanks := 1 }, .exit 0 32, .exit 1 32, .reclaim 0, .reclaim 1]

/-- The next CTA in the same hardware slot issues the same load, and then the access of
the first one is answered. -/
def answerLate : List (Action Unit) :=
  retireEarly ++ [.launch 0, .decode 0, .decode 1,
    .issue 0 sampleLoad (BitVec.allOnes 32) (sampleInput 1), .l1Latency 0 .hit]

/-- A CTA whose producer issues one load, answered before its consumer moves it. -/
def answerInTime : List (Action Unit) :=
  [.launch 0, .decode 0, .decode 1, .issue 0 sampleLoad (BitVec.allOnes 32) (sampleInput 1),
    .dispatch 0 { freeBanks := 1 }, .l1Latency 0 .hit]

end Shader
end WaspSim
