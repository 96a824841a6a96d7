import Mathlib.Data.List.Rotate
import WaspSim.Scheduler.Coissue

/-!
# Scheduling policies

How each scheduler class registers its warps and orders them for a cycle. Iterators
into a vector are indices, the end its length. `std::sort` is a parameter, since it
leaves the order of equivalent warps open.
-/

namespace WaspSim

variable {Mem Threads Simt Score : Type}

/-- `concrete_scheduler`, with the options in its configuration string. -/
inductive Policy where
  | lrr
  | twoLevelActive (maxActiveWarps : Nat)
  | gto
  | rrr
  | oldest
  | warpLimiting (numWarpsToLimit : Nat)
  deriving DecidableEq, Repr

/-- A scheduler class and its warps. -/
structure SchedulerUnit where
  policy : Policy
  /-- `m_id`. -/
  id : Nat
  /-- `m_supervised_warps`. -/
  supervised : List Nat := []
  supervised_nodup : supervised.Nodup := by simp
  /-- The two-level scheduler registers its warps elsewhere. -/
  supervised_twoLevel : ∀ n, policy = .twoLevelActive n → supervised = [] := by simp
  /-- `m_next_cycle_prioritized_warps`. -/
  prioritized : List Nat := []
  /-- `m_pending_warps`. -/
  pending : List Nat := []
  prioritized_nodup : (prioritized ++ pending).Nodup := by simp
  /-- `m_last_supervised_issued`. -/
  lastSupervisedIssued : Nat := 0
  lastSupervisedIssued_le : lastSupervisedIssued ≤ supervised.length := by simp
  /-- `m_num_issued_last_cycle`. -/
  numIssuedLastCycle : Nat := 0
  /-- `m_current_turn_warp`. -/
  currentTurnWarp : Nat := 0

namespace SchedulerUnit

/-- A scheduler class as it is constructed. -/
def empty (policy : Policy) (id : Nat) : SchedulerUnit where
  policy
  id

/-- `add_supervised_warp_id`, for a warp that is not registered yet. -/
def addSupervisedWarpId (u : SchedulerUnit) (i : Nat) (hnew : i ∉ u.supervised)
    (hother : i ∉ u.prioritized ++ u.pending) : SchedulerUnit :=
  match hpolicy : u.policy with
  | .twoLevelActive maxActiveWarps =>
    if u.prioritized.length < maxActiveWarps then
      { u with
        prioritized := u.prioritized ++ [i]
        prioritized_nodup := by
          rw [List.append_assoc, List.singleton_append, List.nodup_middle, List.nodup_cons]
          exact ⟨hother, u.prioritized_nodup⟩ }
    else
      { u with
        pending := u.pending ++ [i]
        prioritized_nodup := by
          rw [← List.append_assoc, List.nodup_append_comm, List.singleton_append, List.nodup_cons]
          exact ⟨hother, u.prioritized_nodup⟩ }
  | .lrr | .gto | .rrr | .oldest | .warpLimiting _ =>
    { u with
      supervised := u.supervised ++ [i]
      supervised_nodup := by
        rw [List.nodup_append_comm, List.singleton_append, List.nodup_cons]
        exact ⟨hnew, u.supervised_nodup⟩
      supervised_twoLevel := by
        intro n hn
        cases hpolicy.symm.trans hn
      lastSupervisedIssued_le := by
        rw [List.length_append]
        exact Nat.le_add_right_of_le u.lastSupervisedIssued_le }

/-- `done_adding_supervised_warps`. -/
def doneAddingSupervisedWarps (u : SchedulerUnit) : SchedulerUnit :=
  match u.policy with
  | .lrr | .rrr =>
    { u with lastSupervisedIssued := u.supervised.length, lastSupervisedIssued_le := le_refl _ }
  | _ => { u with lastSupervisedIssued := 0, lastSupervisedIssued_le := Nat.zero_le _ }

end SchedulerUnit

section Ordering

variable {α : Type}

/-- The loop of `order_lrr` from an iterator on. -/
def orderLrrFrom (input : List α) : Nat → Nat → List α
  | _, 0 => []
  | iter, count + 1 =>
    let iter := if iter = input.length then 0 else iter
    input[iter]?.toList ++ orderLrrFrom input (iter + 1) count

/-- `order_lrr`. -/
def orderLrr (input : List α) (lastIssuedFromInput numWarpsToAdd : Nat) : Except Halt (List α) := do
  require .indexOutOfRange (numWarpsToAdd ≤ input.length)
  let iter := if lastIssuedFromInput = input.length then 0 else lastIssuedFromInput + 1
  pure (orderLrrFrom input iter numWarpsToAdd)

/-- `order_by_priority` with the greedy ordering, for the sorted input. -/
def orderGreedy [DecidableEq α] (input sorted : List α) (lastIssuedFromInput numWarpsToAdd : Nat) :
    Except Halt (List α) := do
  require .indexOutOfRange (numWarpsToAdd ≤ input.length)
  let greedyValue ← fetch .indexOutOfRange input[lastIssuedFromInput]?
  pure (greedyValue :: (sorted.take numWarpsToAdd).filter (· ≠ greedyValue))

/-- `order_by_priority` with the priority function only, for the sorted input. -/
def orderByPriorityOnly (input sorted : List α) (numWarpsToAdd : Nat) : Except Halt (List α) := do
  require .indexOutOfRange (numWarpsToAdd ≤ input.length)
  pure (sorted.take numWarpsToAdd)

end Ordering

namespace IssueState

/-- Ask warps whether they wait, in order. -/
def ask (O : Outside Mem Threads Simt Score) (c : IssueState Mem Threads Simt Score)
    (ws : List Nat) : IssueState Mem Threads Simt Score :=
  ws.foldl (fun c w => (c.waiting O w).1) c

/-- `done_exit() || waiting()`. -/
def sleeps (O : Outside Mem Threads Simt Score) (c : IssueState Mem Threads Simt Score) (w : Nat) :
    IssueState Mem Threads Simt Score × Bool :=
  if c.doneExit w then (c, true) else c.waiting O w

/-- `sort_warps_by_oldest_dynamic_id`. -/
def sortWarpsByOldestDynamicId (O : Outside Mem Threads Simt Score)
    (c : IssueState Mem Threads Simt Score) (dynamicWarpId : Nat → Nat) (lhs rhs : Nat) : Bool :=
  if (c.sleeps O lhs).2 then false
  else if (c.sleeps O rhs).2 then true
  else dynamicWarpId lhs < dynamicWarpId rhs

/-- The loop of `order_rrr` over the supervised warps: the first one that can run. -/
def firstAwake (O : Outside Mem Threads Simt Score) (c : IssueState Mem Threads Simt Score) :
    List Nat → IssueState Mem Threads Simt Score × Option Nat
  | [] => (c, none)
  | w :: rest =>
    match c.sleeps O w with
    | (c, true) => firstAwake O c rest
    | (c, false) => (c, some w)

end IssueState

/-- What `order_warps` uses besides the scheduler and its core. -/
structure OrderOracle (Score : Type) where
  /-- `std::sort`. -/
  sort : (Nat → Nat → Bool) → List Nat → List Nat
  /-- It permutes its input. -/
  sort_perm : ∀ before l, (sort before l).Perm l
  /-- The warps that its comparisons ask whether they wait. -/
  asked : List Nat
  /-- `get_dynamic_warp_id`. -/
  dynamicWarpId : Nat → Nat
  /-- An operand of the next instruction of a warp comes from a long operation. -/
  longOp : Score → Nat → Option SchedInst → Bool

namespace SchedulerUnit

variable (O : Outside Mem Threads Simt Score) (cfg : SchedConfig) (order : OrderOracle Score)

/-- Demote an active warp that waits. -/
def demote (acc : IssueState Mem Threads Simt Score × List Nat × List Nat) (w : Nat) :
    IssueState Mem Threads Simt Score × List Nat × List Nat :=
  let (c, kept, demoted) := acc
  let (c, waiting) := c.waiting O w
  if waiting || order.longOp c.scoreboard w (c.schedWarps w).ibufferNextInst then
    (c, kept, demoted ++ [w])
  else (c, kept ++ [w], demoted)

/-- Whether `order_rrr` looks for another warp. -/
def endsTurn (u : SchedulerUnit) (c : IssueState Mem Threads Simt Score) :
    Except Halt (IssueState Mem Threads Simt Score × Bool) :=
  if 0 < u.numIssuedLastCycle then pure (c, true)
  else do
    require .warpOutOfRange (u.currentTurnWarp < cfg.maxWarpsPerShader)
    pure (c.sleeps O u.currentTurnWarp)

/-- `order_rrr`, with `m_current_turn_warp` after it. -/
def orderRrr (u : SchedulerUnit) (c : IssueState Mem Threads Simt Score) :
    Except Halt (IssueState Mem Threads Simt Score × List Nat × Nat) := do
  let (c, ends) ← u.endsTurn O cfg c
  if ends = false then pure (c, [u.currentTurnWarp], u.currentTurnWarp)
  else do
    let ws ← orderLrr u.supervised u.lastSupervisedIssued u.supervised.length
    match c.firstAwake O ws with
    | (c, some w) => pure (c, [w], w)
    | (c, none) => pure (c, [], u.currentTurnWarp)

/-- `order_warps` of each scheduler class: the ordered warps, the pending ones and the turn. -/
def orderWarps (u : SchedulerUnit) (c : IssueState Mem Threads Simt Score) :
    Except Halt (IssueState Mem Threads Simt Score × List Nat × List Nat × Nat) :=
  let sorted := order.sort (c.sortWarpsByOldestDynamicId O order.dynamicWarpId) u.supervised
  match u.policy with
  | .lrr => do
    let ws ← orderLrr u.supervised u.lastSupervisedIssued u.supervised.length
    pure (c, ws, u.pending, u.currentTurnWarp)
  | .rrr => do
    let (c, ws, turn) ← u.orderRrr O cfg c
    pure (c, ws, u.pending, turn)
  | .gto => do
    let ws ← orderGreedy u.supervised sorted u.lastSupervisedIssued u.supervised.length
    pure (c.ask O order.asked, ws, u.pending, u.currentTurnWarp)
  | .oldest => do
    let ws ← orderByPriorityOnly u.supervised sorted u.supervised.length
    pure (c.ask O order.asked, ws, u.pending, u.currentTurnWarp)
  | .warpLimiting numWarpsToLimit => do
    let ws ← orderGreedy u.supervised sorted u.lastSupervisedIssued
      (min numWarpsToLimit u.supervised.length)
    pure (c.ask O order.asked, ws, u.pending, u.currentTurnWarp)
  | .twoLevelActive maxActiveWarps => do
    let (c, kept, demoted) := u.prioritized.foldl (demote O order) (c, [], [])
    let pending := u.pending ++ demoted
    let promoted := maxActiveWarps - kept.length
    require .indexOutOfRange (promoted ≤ pending.length)
    require .unbalancedPromotion (promoted = demoted.length)
    pure (c, kept ++ pending.take promoted, pending.drop promoted, u.currentTurnWarp)

end SchedulerUnit
end WaspSim
