import Mathlib.Data.List.Induction
import WaspSim.Shader.Machine

/-!
# Reading the log of a run

The log of a run names the loads and moves issued on each queue since its CTA
was last retired, and counts the answers and completions of each load.
-/

namespace WaspSim

/-- A queue load as logged at its issue. -/
structure LoadRecord where
  /-- The instruction after issue, with its token and all its accesses. -/
  inst : WarpInst
  /-- The lanes that executed. -/
  executed : Nat → Bool
  /-- The value read for each lane and word. -/
  value : Nat → Nat → BitVec 64

/-- A queue move as logged at its issue. -/
structure MoveRecord where
  inst : WarpInst
  executed : Nat → Bool
  /-- The words written to the destination of each lane. -/
  written : Nat → List (BitVec 64)

/-- The queue that an instruction's token names. -/
def WarpInst.On (inst : WarpInst) (kind : QueueKind) (key : QueueKey) : Prop :=
  inst.kind = kind ∧ inst.tokenFromInst.key = key

instance (inst : WarpInst) (kind : QueueKind) (key : QueueKey) : Decidable (inst.On kind key) :=
  inferInstanceAs (Decidable (_ ∧ _))

namespace Log

/-- The load an event records. -/
def load? : Event → Option LoadRecord
  | .loaded inst executed value => some ⟨inst, executed, value⟩
  | _ => none

/-- Every queue load of a log. -/
def loads (log : List Event) : List LoadRecord := log.filterMap load?

/-- One event's effect on the loads of a queue: a retirement of its CTA forgets them. -/
def trackLoad (kind : QueueKind) (key : QueueKey) (acc : List LoadRecord) : Event →
    List LoadRecord
  | .loaded inst executed value =>
    if inst.On kind key then acc ++ [⟨inst, executed, value⟩] else acc
  | .retired ctaHwId => if key.ctaHwId = ctaHwId then [] else acc
  | _ => acc

/-- The loads issued on a queue since its CTA was last retired. -/
def loadsOf (kind : QueueKind) (key : QueueKey) (log : List Event) : List LoadRecord :=
  log.foldl (trackLoad kind key) []

/-- One event's effect on the moves of a queue. -/
def trackMove (kind : QueueKind) (key : QueueKey) (acc : List MoveRecord) : Event →
    List MoveRecord
  | .moved inst executed written =>
    if inst.On kind key then acc ++ [⟨inst, executed, written⟩] else acc
  | .retired ctaHwId => if key.ctaHwId = ctaHwId then [] else acc
  | _ => acc

/-- The moves issued on a queue since its CTA was last retired. -/
def movesOf (kind : QueueKind) (key : QueueKey) (log : List Event) : List MoveRecord :=
  log.foldl (trackMove kind key) []

/-- The event answers an access of load `uid`. -/
def answersLoad (uid : Nat) : Event → Bool
  | .answered u => u == uid
  | _ => false

/-- The event completes load `uid`. -/
def completesLoad (uid : Nat) : Event → Bool
  | .completed u => u == uid
  | _ => false

/-- How many accesses of a load were answered. -/
def answers (uid : Nat) (log : List Event) : Nat := log.countP (answersLoad uid)

/-- How often a load was completed. -/
def completions (uid : Nat) (log : List Event) : Nat := log.countP (completesLoad uid)

/-- The load that reserved a slot of a queue last since the queue's CTA was last
retired. -/
def slotOwner (kind : QueueKind) (key : QueueKey) (slot : Nat) (log : List Event) : Option Nat :=
  ((loadsOf kind key log).findRev? fun r => r.inst.tokenSlotIndex == slot).map (·.inst.uid)

variable {kind : QueueKind} {key : QueueKey} {log es : List Event} {uid : Nat}

theorem loads_append : loads (log ++ es) = loads log ++ loads es := List.filterMap_append

theorem loadsOf_append : loadsOf kind key (log ++ es) = es.foldl (trackLoad kind key)
    (loadsOf kind key log) := List.foldl_append

theorem movesOf_append : movesOf kind key (log ++ es) = es.foldl (trackMove kind key)
    (movesOf kind key log) := List.foldl_append

theorem answers_append : answers uid (log ++ es) = answers uid log + answers uid es :=
  List.countP_append

theorem completions_append :
    completions uid (log ++ es) = completions uid log + completions uid es :=
  List.countP_append

/-- The loads of a queue are loads of the log, in order. -/
theorem loadsOf_sublist : (loadsOf kind key log).Sublist (loads log) := by
  induction log using List.reverseRecOn with
  | nil => exact List.nil_sublist _
  | append_singleton log e ih =>
    rw [loadsOf_append, loads_append]
    have hkeep : (loadsOf kind key log).Sublist (loads log ++ loads [e]) :=
      ih.trans (List.sublist_append_left _ _)
    cases e with
    | loaded inst executed value =>
      simp only [List.foldl_cons, List.foldl_nil, trackLoad]
      split
      · exact ih.append (.refl _)
      · exact hkeep
    | retired c =>
      simp only [List.foldl_cons, List.foldl_nil, trackLoad]
      split
      · exact List.nil_sublist _
      · exact hkeep
    | moved inst executed written => exact hkeep
    | answered u => exact hkeep
    | completed u => exact hkeep

/-- The loads of a queue name it. -/
theorem on_of_mem_loadsOf {r : LoadRecord} (h : r ∈ loadsOf kind key log) :
    r.inst.On kind key := by
  induction log using List.reverseRecOn with
  | nil => simp [loadsOf] at h
  | append_singleton log e ih =>
    rw [loadsOf_append] at h
    cases e with
    | loaded inst executed value =>
      simp only [List.foldl_cons, List.foldl_nil, trackLoad] at h
      split at h
      · rename_i hon
        rcases List.mem_append.mp h with h | h
        · exact ih h
        · rw [List.mem_singleton.mp h]
          exact hon
      · exact ih h
    | retired c =>
      simp only [List.foldl_cons, List.foldl_nil, trackLoad] at h
      split at h
      · cases h
      · exact ih h
    | moved inst executed written => exact ih h
    | answered u => exact ih h
    | completed u => exact ih h

theorem mem_loads_of_mem_loadsOf {r : LoadRecord} (h : r ∈ loadsOf kind key log) :
    r ∈ loads log := loadsOf_sublist.subset h

end Log
end WaspSim
