import Mathlib.Logic.Function.Iterate
import WaspSim.Core.Rendezvous
import WaspSim.Scheduler.Instruction

/-!
# Functional simulation of a CTA

`functionalCoreSim::execute` lets the warps of a CTA execute one instruction each, in turns, and
a warp that has executed a barrier or a memory barrier waits until all live warps have. It
takes any two of them for the same barrier, so it never hangs, and the live warps of a CTA have
always been released equally often.
-/

namespace WaspSim

/-- What `functionalCoreSim` calls: the threads, memory and SIMT stacks of a CTA of `n` warps. -/
structure FuncMachine (σ : Type) (n : Nat) where
  /-- `m_liveThreadCount`, which `checkExecutionStatusAndUpdate` counts down. -/
  liveThreadCount : σ → Nat → Nat
  /-- `getExecuteWarp`, `execute_warp_inst_t`, `do_atomic` and `updateSIMTStack`, with the `op`
  of the instruction. -/
  executeInst : σ → Nat → OpType × σ
  /-- An instruction ends threads of its own warp only. -/
  live_other : ∀ s i j, j ≠ i → liveThreadCount (executeInst s i).2 j = liveThreadCount s j
  /-- A barrier ends no thread. -/
  live_barrier : ∀ s i, (executeInst s i).1 = .barrierOp ∨ (executeInst s i).1 = .memoryBarrierOp →
    liveThreadCount (executeInst s i).2 i = liveThreadCount s i

/-- `functionalCoreSim`, with the number of releases of each warp. -/
structure FuncCore (σ : Type) where
  machine : σ
  /-- `m_warpAtBarrier`. -/
  warpAtBarrier : Nat → Bool := fun _ => false
  released : Nat → Nat := fun _ => 0

/-- Warps that each have a list of operations left before they exit. -/
def FuncMachine.sample (n : Nat) : FuncMachine (Nat → Option (List OpType)) n where
  liveThreadCount s i := if (s i).isSome then 32 else 0
  executeInst s i :=
    match s i with
    | none => (.noOp, s)
    | some [] => (.exitOps, Function.update s i none)
    | some (op :: ops) => (op, Function.update s i (some ops))
  live_other s i j hne := by
    cases hs : s i with
    | none => rfl
    | some ops =>
      cases ops with
      | nil => simp only [Function.update_of_ne hne]
      | cons op ops => simp only [Function.update_of_ne hne]
  live_barrier s i hbar := by
    cases hs : s i with
    | none =>
      rw [hs] at hbar
      rcases hbar with hbar | hbar <;> cases hbar
    | some ops =>
      cases ops with
      | nil =>
        rw [hs] at hbar
        rcases hbar with hbar | hbar <;> cases hbar
      | cons op ops => simp only [Function.update_self, Option.isSome_some]

namespace FuncCore

variable {σ : Type} {n : Nat} {M : FuncMachine σ n} {f f' : FuncCore σ} {i j k : Nat}

/-- A warp that is live. -/
def Live (M : FuncMachine σ n) (f : FuncCore σ) (i : Nat) : Prop :=
  M.liveThreadCount f.machine i ≠ 0

instance (M : FuncMachine σ n) (f : FuncCore σ) (i : Nat) : Decidable (f.Live M i) :=
  inferInstanceAs (Decidable (_ ≠ _))

/-- A warp that is live and does not wait. -/
def CanExecute (M : FuncMachine σ n) (f : FuncCore σ) (i : Nat) : Prop :=
  f.warpAtBarrier i = false ∧ f.Live M i

instance (M : FuncMachine σ n) (f : FuncCore σ) (i : Nat) : Decidable (f.CanExecute M i) :=
  inferInstanceAs (Decidable (_ ∧ _))

/-- The instruction that a warp executes in its turn. -/
def executeInst (M : FuncMachine σ n) (f : FuncCore σ) (i : Nat) : FuncCore σ :=
  { f with
    machine := (M.executeInst f.machine i).2
    warpAtBarrier :=
      if (M.executeInst f.machine i).1 = .barrierOp ∨
          (M.executeInst f.machine i).1 = .memoryBarrierOp then
        Function.update f.warpAtBarrier i true
      else f.warpAtBarrier }

/-- The turn of a warp, without the flags of `executeWarp`. -/
def turn (M : FuncMachine σ n) (f : FuncCore σ) (i : Nat) : FuncCore σ :=
  if f.CanExecute M i then f.executeInst M i else f

/-- `executeWarp`, with `allAtBarrier` and `someOneLive`. -/
def executeWarp (M : FuncMachine σ n) (t : FuncCore σ × Bool × Bool) (i : Nat) :
    FuncCore σ × Bool × Bool :=
  let f := t.1.turn M i
  (f, t.2.1 && !(!f.warpAtBarrier i && decide (0 < M.liveThreadCount f.machine i)),
    t.2.2 || decide (0 < M.liveThreadCount f.machine i))

/-- The turns of all warps in one round of the loop of `execute`. -/
def round (M : FuncMachine σ n) (f : FuncCore σ) : FuncCore σ × Bool × Bool :=
  (List.range n).foldl (executeWarp M) (f, true, false)

/-- Every warp may go on. -/
def release (n : Nat) (f : FuncCore σ) : FuncCore σ :=
  { f with
    warpAtBarrier := fun i => if i < n then false else f.warpAtBarrier i
    released := fun i =>
      if i < n ∧ f.warpAtBarrier i = true then f.released i + 1 else f.released i }

/-- The state after a round in which some warp is live. -/
def next (M : FuncMachine σ n) (f : FuncCore σ) : FuncCore σ :=
  if (f.round M).2.1 = true then release n (f.round M).1 else (f.round M).1

/-- The loop of `execute`, for `fuel` rounds at most, without the files that a checkpoint
writes. The flag stands for the conditions of a checkpoint beside the number of turns. -/
def execute (M : FuncMachine σ n) (instCount : Nat) (checkpointing : Bool) :
    Nat → Nat → FuncCore σ → Option (FuncCore σ)
  | 0, _, _ => none
  | fuel + 1, count, f =>
    if 0 < instCount ∧ instCount < count + n ∧ checkpointing = true then some (f.round M).1
    else if (f.round M).2.2 = false then some (f.round M).1
    else execute M instCount checkpointing fuel (count + n) (f.next M)

/-- The instruction in the turn of a warp is a barrier or a memory barrier. -/
def AtBarrierInst (M : FuncMachine σ n) (f : FuncCore σ) (i : Nat) : Prop :=
  (M.executeInst f.machine i).1 = .barrierOp ∨ (M.executeInst f.machine i).1 = .memoryBarrierOp

theorem warpAtBarrier_executeInst (hbar : f.AtBarrierInst M i) :
    (f.executeInst M i).warpAtBarrier = Function.update f.warpAtBarrier i true :=
  if_pos hbar

theorem warpAtBarrier_executeInst_of_not (hbar : ¬f.AtBarrierInst M i) :
    (f.executeInst M i).warpAtBarrier = f.warpAtBarrier :=
  if_neg hbar

/-- A turn changes nothing for the other warps. -/
theorem live_turn (hne : j ≠ i) : (f.turn M i).Live M j ↔ f.Live M j := by
  unfold turn
  by_cases hcan : f.CanExecute M i
  · rw [if_pos hcan]
    exact not_congr (by rw [executeInst, M.live_other _ _ _ hne])
  · rw [if_neg hcan]

/-- The turn of a warp does not stop another one. -/
theorem warpAtBarrier_turn (hne : j ≠ i) :
    (f.turn M i).warpAtBarrier j = f.warpAtBarrier j := by
  unfold turn
  by_cases hcan : f.CanExecute M i
  · rw [if_pos hcan]
    by_cases hbar : f.AtBarrierInst M i
    · rw [warpAtBarrier_executeInst hbar]
      exact Function.update_of_ne hne _ _
    · rw [warpAtBarrier_executeInst_of_not hbar]
  · rw [if_neg hcan]

/-- What the turns keep, from the start of a round, holds after it. -/
theorem round_induction {P : Nat → FuncCore σ × Bool × Bool → Prop} (hstart : P 0 (f, true, false))
    (hstep : ∀ k t, k < n → P k t → P (k + 1) (executeWarp M t k)) : P n (f.round M) := by
  have hall : ∀ k ≤ n, P k ((List.range k).foldl (executeWarp M) (f, true, false)) := by
    intro k hk
    induction k with
    | zero => exact hstart
    | succ k ih =>
      rw [List.range_succ, List.foldl_append]
      exact hstep k _ hk (ih (Nat.le_of_succ_le hk))
  exact hall n (Nat.le_refl n)

/-- What holds after the turns of the first `k` warps. -/
structure Rounds (M : FuncMachine σ n) (f : FuncCore σ) (k : Nat) (t : FuncCore σ × Bool × Bool) :
    Prop where
  all : t.2.1 = true ↔ ∀ i < k, t.1.warpAtBarrier i = true ∨ ¬t.1.Live M i
  some : t.2.2 = true ↔ ∃ i < k, t.1.Live M i
  later : ∀ i, k ≤ i → (t.1.CanExecute M i ↔ f.CanExecute M i)

/-- No warp has had its turn at first. -/
theorem rounds_start : Rounds M f 0 (f, true, false) :=
  ⟨by simp, by simp, fun _ _ => Iff.rfl⟩

/-- The next warp takes its turn. -/
theorem rounds_step {t : FuncCore σ × Bool × Bool} (h : Rounds M f k t) :
    Rounds M f (k + 1) (executeWarp M t k) where
  all := by
    have hkept : (∀ i < k, (t.1.turn M k).warpAtBarrier i = true ∨ ¬(t.1.turn M k).Live M i) ↔
        ∀ i < k, t.1.warpAtBarrier i = true ∨ ¬t.1.Live M i := by
      refine forall₂_congr fun i hi => ?_
      rw [warpAtBarrier_turn (Nat.ne_of_lt hi), live_turn (Nat.ne_of_lt hi)]
    rw [Nat.forall_lt_succ_right]
    change (t.2.1 && _) = true ↔ _
    rw [Bool.and_eq_true, h.all, ← hkept]
    refine and_congr_right fun _ => ?_
    simp only [Live, Bool.not_eq_true', Bool.and_eq_false_iff, Bool.not_eq_false',
      decide_eq_false_iff_not, Nat.pos_iff_ne_zero]
    rfl
  some := by
    have hkept : (∃ i < k, (t.1.turn M k).Live M i) ↔ ∃ i < k, t.1.Live M i := by
      refine exists_congr fun i => and_congr_right fun hi => ?_
      rw [live_turn (Nat.ne_of_lt hi)]
    rw [Nat.exists_lt_succ_right]
    change (t.2.2 || _) = true ↔ _
    rw [Bool.or_eq_true, h.some, ← hkept, decide_eq_true_iff, Nat.pos_iff_ne_zero]
    rfl
  later := by
    intro i hi
    have hne : i ≠ k := by omega
    rw [← h.later i (by omega)]
    change (t.1.turn M k).CanExecute M i ↔ _
    rw [CanExecute, CanExecute, warpAtBarrier_turn hne, live_turn hne]

/-- The flags after a round say who waits and who is live. -/
theorem rounds (M : FuncMachine σ n) (f : FuncCore σ) : Rounds M f n (f.round M) :=
  round_induction rounds_start fun _ _ _ => rounds_step

section

variable {remaining : σ → Nat}

/-- A round in which a warp can execute makes progress. -/
theorem round_remaining
    (hless : ∀ s i, i < n → M.liveThreadCount s i ≠ 0 →
      remaining (M.executeInst s i).2 < remaining s) (f : FuncCore σ) :
    remaining (f.round M).1.machine ≤ remaining f.machine ∧
      ((∃ i < n, f.CanExecute M i) → remaining (f.round M).1.machine < remaining f.machine) := by
  refine (round_induction (P := fun k t => Rounds M f k t ∧
    remaining t.1.machine ≤ remaining f.machine ∧
    ((∃ i < k, f.CanExecute M i) → remaining t.1.machine < remaining f.machine))
    ⟨rounds_start, Nat.le_refl _, by simp⟩ ?_).2
  rintro k t hk ⟨hrounds, hle, hlt⟩
  refine ⟨rounds_step hrounds, ?_⟩
  change remaining (t.1.turn M k).machine ≤ _ ∧ (_ → remaining (t.1.turn M k).machine < _)
  unfold turn
  by_cases hcan : t.1.CanExecute M k
  · rw [if_pos hcan]
    have hturn : remaining (t.1.executeInst M k).machine < remaining t.1.machine :=
      hless _ k hk hcan.2
    exact ⟨(hturn.trans_le hle).le, fun _ => hturn.trans_le hle⟩
  · rw [if_neg hcan]
    refine ⟨hle, ?_⟩
    rintro ⟨i, hi, hexec⟩
    rcases Nat.lt_succ_iff_lt_or_eq.mp hi with hbefore | rfl
    · exact hlt ⟨i, hbefore, hexec⟩
    · exact absurd ((hrounds.later i (Nat.le_refl i)).mpr hexec) hcan

/-- A round in which no warp can execute leaves everything. -/
theorem round_idle (hidle : ∀ i < n, ¬f.CanExecute M i) : (f.round M).1 = f := by
  refine round_induction (P := fun _ t => t.1 = f) rfl fun k t hk ht => ?_
  change t.1.turn M k = f
  rw [ht, turn, if_neg (hidle k hk)]

theorem next_machine : (f.next M).machine = (f.round M).1.machine := by
  unfold next
  by_cases hall : (f.round M).2.1 = true
  · rw [if_pos hall]
    rfl
  · rw [if_neg hall]

/-- The simulation ends, and without a checkpoint no warp is live then. -/
def Ends (M : FuncMachine σ n) (instCount : Nat) (checkpointing : Bool) (fuel count : Nat)
    (f : FuncCore σ) : Prop :=
  ∃ f', execute M instCount checkpointing fuel count f = some f' ∧
    ((0 < instCount ∧ checkpointing = true) ∨ ∀ i < n, ¬f'.Live M i)

variable {instCount fuel count : Nat} {checkpointing : Bool}

/-- The loop ends when it does after one more round. -/
theorem ends_succ (h : (f.round M).2.2 = true →
    Ends M instCount checkpointing fuel (count + n) (f.next M)) :
    Ends M instCount checkpointing (fuel + 1) count f := by
  unfold Ends execute
  by_cases hcheck : 0 < instCount ∧ instCount < count + n ∧ checkpointing = true
  · rw [if_pos hcheck]
    exact ⟨_, rfl, .inl ⟨hcheck.1, hcheck.2.2⟩⟩
  · rw [if_neg hcheck]
    by_cases hsome : (f.round M).2.2 = false
    · rw [if_pos hsome]
      refine ⟨_, rfl, .inr fun i hi hlive => ?_⟩
      have htrue := (rounds M f).some.mpr ⟨i, hi, hlive⟩
      rw [hsome] at htrue
      cases htrue
    · rw [if_neg hsome]
      exact h (eq_true_of_ne_false hsome)

/-- The functional simulation of a CTA whose warps execute finitely many instructions ends
within two rounds for each of them, wherever its barriers stand. -/
theorem execute_ends
    (hless : ∀ s i, i < n → M.liveThreadCount s i ≠ 0 →
      remaining (M.executeInst s i).2 < remaining s) (instCount : Nat) (checkpointing : Bool)
    (count : Nat) (f : FuncCore σ) (hfuel : 2 * remaining f.machine + 2 ≤ fuel) :
    ∃ f', execute M instCount checkpointing fuel count f = some f' ∧
      ((0 < instCount ∧ checkpointing = true) ∨ ∀ i < n, ¬f'.Live M i) := by
  suffices hall : ∀ m, (∀ f fuel count, remaining f.machine = m → (∃ i < n, f.CanExecute M i) →
      2 * m + 1 ≤ fuel → Ends M instCount checkpointing fuel count f) ∧
      ∀ f fuel count, remaining f.machine = m → 2 * m + 2 ≤ fuel →
        Ends M instCount checkpointing fuel count f by
    exact (hall _).2 f fuel count rfl hfuel
  intro m
  induction m using Nat.strongRecOn with
  | ind m ih =>
    have hbusy : ∀ f fuel count, remaining f.machine = m → (∃ i < n, f.CanExecute M i) →
        2 * m + 1 ≤ fuel → Ends M instCount checkpointing fuel count f := by
      intro f fuel count hm hcan hle
      obtain ⟨fuel, rfl⟩ : ∃ fuel', fuel = fuel' + 1 := ⟨fuel - 1, by omega⟩
      refine ends_succ fun _ => ?_
      have hprogress := (round_remaining hless f).2 hcan
      rw [← next_machine, hm] at hprogress
      exact (ih _ hprogress).2 _ fuel _ rfl (by omega)
    refine ⟨hbusy, fun f fuel count hm hle => ?_⟩
    by_cases hcan : ∃ i < n, f.CanExecute M i
    · exact hbusy f fuel count hm hcan (by omega)
    · -- all live warps wait, so the round only releases them
      have hidle : ∀ i < n, ¬f.CanExecute M i := fun i hi hexec => hcan ⟨i, hi, hexec⟩
      obtain ⟨fuel, rfl⟩ : ∃ fuel', fuel = fuel' + 1 := ⟨fuel - 1, by omega⟩
      refine ends_succ fun hsome => ?_
      have hsame := round_idle hidle
      obtain ⟨i, hi, hlive⟩ := (rounds M f).some.mp hsome
      have hwait : (f.round M).2.1 = true := by
        refine (rounds M f).all.mpr fun j hj => ?_
        rw [hsame]
        by_cases hat : f.warpAtBarrier j = true
        · exact .inl hat
        · exact .inr fun hlive => hidle j hj ⟨Bool.eq_false_iff.mpr hat, hlive⟩
      have hnext : f.next M = release n f := by rw [next, if_pos hwait, hsame]
      rw [hsame] at hlive
      rw [hnext]
      exact hbusy _ fuel _ hm ⟨i, hi, if_pos hi, hlive⟩ (by omega)

end

/-- Two warps of which one meets no second barrier. -/
def sampleMachine : Nat → Option (List OpType)
  | 0 => some [.barrierOp, .aluOp, .memoryBarrierOp]
  | 1 => some [.aluOp, .barrierOp]
  | _ => none

/-- How many operations the two warps have left. -/
def sampleRemaining (s : Nat → Option (List OpType)) : Nat :=
  (s 0).elim 0 (·.length + 1) + (s 1).elim 0 (·.length + 1)

/-- Every instruction of the sample is one less to come. -/
theorem sampleRemaining_lt (s : Nat → Option (List OpType)) (i : Nat) (hi : i < 2)
    (hlive : (FuncMachine.sample 2).liveThreadCount s i ≠ 0) :
    sampleRemaining ((FuncMachine.sample 2).executeInst s i).2 < sampleRemaining s := by
  cases hs : s i with
  | none =>
    simp only [FuncMachine.sample, hs] at hlive
    exact absurd rfl hlive
  | some ops =>
    obtain rfl | rfl : i = 0 ∨ i = 1 := by omega
    · cases ops with
      | nil => simp [FuncMachine.sample, sampleRemaining, hs]
      | cons op ops => simp [FuncMachine.sample, sampleRemaining, hs]
    · cases ops with
      | nil => simp [FuncMachine.sample, sampleRemaining, hs]
      | cons op ops => simp [FuncMachine.sample, sampleRemaining, hs]

theorem execute_ends_twoWarps : ∃ f',
    execute (FuncMachine.sample 2) 0 false 16 0 { machine := sampleMachine } = some f' ∧
      ((0 < 0 ∧ false = true) ∨ ∀ i < 2, ¬f'.Live (FuncMachine.sample 2) i) :=
  execute_ends sampleRemaining_lt 0 false 0 { machine := sampleMachine } (by decide)

/-- The warps as a group that meets, at places that have no names. -/
def group (M : FuncMachine σ n) (f : FuncCore σ) : Rendezvous Nat Unit where
  present i := i < n ∧ f.Live M i
  place i := if i < n ∧ f.warpAtBarrier i = true then some () else none
  passed i := List.replicate (f.released i) ()

/-- A warp that can execute is at no barrier. -/
theorem place_group (h : f.CanExecute M i) : (f.group M).place i = none :=
  if_neg fun hat => by rw [h.1] at hat; exact Bool.noConfusion hat.2

/-- A warp comes to the barrier of its group. -/
theorem group_come (hi : i < n) (hcan : f.CanExecute M i) (hbar : f.AtBarrierInst M i) :
    (f.turn M i).group M =
      { f.group M with place := Function.update (f.group M).place i (some ()) } := by
  have hturn : f.turn M i = f.executeInst M i := if_pos hcan
  have hstay : (f.turn M i).Live M i ↔ f.Live M i := by
    rw [hturn]
    exact not_congr (by rw [executeInst, M.live_barrier _ _ hbar])
  apply Rendezvous.ext
  · funext j
    refine propext (and_congr_right fun _ => ?_)
    by_cases hj : j = i
    · rw [hj, hstay]
    · exact live_turn hj
  · funext j
    change ((f.turn M i).group M).place j = Function.update (f.group M).place i (some ()) j
    by_cases hj : j = i
    · rw [hj, Function.update_self, hturn]
      refine if_pos ⟨hi, ?_⟩
      rw [warpAtBarrier_executeInst hbar]
      exact Function.update_self ..
    · rw [Function.update_of_ne hj]
      change (if j < n ∧ (f.turn M i).warpAtBarrier j = true then _ else _) = _
      rw [warpAtBarrier_turn hj]
      rfl
  · rw [hturn]
    rfl

/-- Beside a barrier, a turn changes at most whether its warp is live. -/
theorem group_of_present {present : Nat → Prop} (hcan : f.CanExecute M i)
    (hbar : ¬f.AtBarrierInst M i)
    (hpresent : ∀ j, ((f.turn M i).group M).present j ↔ present j) :
    (f.turn M i).group M = { f.group M with present := present } := by
  have hturn : f.turn M i = f.executeInst M i := if_pos hcan
  have hkept : (f.turn M i).warpAtBarrier = f.warpAtBarrier := by
    rw [hturn, warpAtBarrier_executeInst_of_not hbar]
  apply Rendezvous.ext
  · funext j
    exact propext (hpresent j)
  · funext j
    rw [group, hkept]
    rfl
  · rw [hturn]
    rfl

/-- An instruction between barriers is no step of the group. -/
theorem group_keep (hcan : f.CanExecute M i) (hbar : ¬f.AtBarrierInst M i)
    (hlive : (f.turn M i).Live M i) : (f.turn M i).group M = f.group M := by
  refine group_of_present hcan hbar fun j => and_congr_right fun _ => ?_
  by_cases hj : j = i
  · rw [hj]
    exact iff_of_true hlive hcan.2
  · exact live_turn hj

/-- A warp that ends leaves the group. -/
theorem group_leave (hcan : f.CanExecute M i) (hbar : ¬f.AtBarrierInst M i)
    (hends : ¬(f.turn M i).Live M i) : (f.turn M i).group M =
      { f.group M with present := fun j => (f.group M).present j ∧ j ≠ i } := by
  refine group_of_present hcan hbar fun j => ?_
  by_cases hj : j = i
  · subst hj
    exact iff_of_false (fun h => hends h.2) fun h => h.2 rfl
  · exact ((and_congr_right fun _ => live_turn hj).trans (and_iff_left hj).symm)

/-- In its turn a warp comes to a barrier, ends, or stays as it is to the others. -/
theorem group_turn (hi : i < n) :
    Relation.ReflTransGen Rendezvous.Step (f.group M) ((f.turn M i).group M) := by
  by_cases hcan : f.CanExecute M i
  · by_cases hbar : f.AtBarrierInst M i
    · rw [group_come hi hcan hbar]
      exact .single (.come i () ⟨hi, hcan.2⟩ (place_group hcan))
    · by_cases hends : (f.turn M i).Live M i
      · rw [group_keep hcan hbar hends]
      · rw [group_leave hcan hbar hends]
        exact .single (.leave i ⟨hi, hcan.2⟩ (place_group hcan))
  · rw [turn, if_neg hcan]

/-- A release when all live warps wait is going on together. -/
theorem group_release (h : (f.group M).Aligned)
    (hall : ∀ i < n, f.warpAtBarrier i = true ∨ ¬f.Live M i) :
    (f.group M).Step ((release n f).group M) := by
  have hat : ∀ i, (f.group M).present i → f.warpAtBarrier i = true :=
    fun i hi => (hall i hi.1).resolve_right fun hnot => hnot hi.2
  refine .goOn _ () (fun i hi => if_pos ⟨hi.1, hat i hi⟩) rfl (fun i => ?_) (fun i hi => ?_)
    fun i hout => ?_
  · refine if_neg ?_
    rintro ⟨hi, hwait⟩
    have hfree : (release n f).warpAtBarrier i = false := if_pos hi
    rw [hfree] at hwait
    cases hwait
  · have hcount : (release n f).released i = f.released i + 1 := if_pos ⟨hi.1, hat i hi⟩
    change List.replicate ((release n f).released i) () = List.replicate (f.released i) () ++ [()]
    rw [hcount]
    exact List.replicate_succ'
  · have hcount : (release n f).released i = f.released i := by
      refine if_neg fun hwait => hout ?_
      exact h.present_of_place i () (if_pos hwait)
    exact congrArg (List.replicate · ()) hcount

/-- A round of turns, and the release behind it, as a group meets. -/
theorem group_next (h : (f.group M).Aligned) :
    Relation.ReflTransGen Rendezvous.Step (f.group M) ((f.next M).group M) := by
  have hround : Relation.ReflTransGen Rendezvous.Step (f.group M) ((f.round M).1.group M) :=
    round_induction (P := fun _ t => Relation.ReflTransGen Rendezvous.Step (f.group M)
      (t.1.group M)) .refl fun k t hk ht => ht.trans (group_turn hk)
  unfold next
  by_cases hwait : (f.round M).2.1 = true
  · rw [if_pos hwait]
    exact hround.tail (group_release (h.steps hround) ((rounds M f).all.mp hwait))
  · rw [if_neg hwait]
    exact hround

/-- The state after `k` rounds from the start of a CTA. -/
def after (M : FuncMachine σ n) (s : σ) (k : Nat) : FuncCore σ := (next M)^[k] { machine := s }

/-- Warps that have not executed are aligned. -/
theorem aligned_initial (M : FuncMachine σ n) (s : σ) :
    (group M { machine := s }).Aligned := by
  refine ⟨fun i b hi => ?_, [], fun _ => ⟨List.prefix_refl [], fun _ => rfl⟩⟩
  have hnone : (group M { machine := s }).place i = none :=
    if_neg fun hat => Bool.noConfusion hat.2
  cases hnone.symm.trans hi

/-- The warps are aligned after every round. -/
theorem aligned_after (M : FuncMachine σ n) (s : σ) (k : Nat) :
    ((after M s k).group M).Aligned := by
  induction k with
  | zero => exact aligned_initial M s
  | succ k ih =>
    rw [after, Function.iterate_succ_apply']
    exact ih.steps (group_next ih)

/-- After any number of rounds the live warps of a CTA have been released equally often, and the
ended ones no more often. -/
theorem functional_aligned (M : FuncMachine σ n) (s : σ) (k : Nat) (hi : i < n)
    (hlive : (after M s k).Live M i) (j : Nat) :
    (after M s k).released j ≤ (after M s k).released i ∧
    (j < n → (after M s k).Live M j → (after M s k).released j = (after M s k).released i) := by
  have hle : ∀ j i, i < n → (after M s k).Live M i →
      (after M s k).released j ≤ (after M s k).released i := by
    intro j i hi hlive
    have hlength := ((aligned_after M s k).passed_le j ⟨hi, hlive⟩).length_le
    rwa [group, List.length_replicate, List.length_replicate] at hlength
  exact ⟨hle j i hi hlive, fun hj hjlive => Nat.le_antisymm (hle j i hi hlive) (hle i j hj hjlive)⟩

theorem functional_aligned_twoWarps :
    (after (FuncMachine.sample 2) sampleMachine 2).released 1 ≤
      (after (FuncMachine.sample 2) sampleMachine 2).released 0 ∧
    (1 < 2 → (after (FuncMachine.sample 2) sampleMachine 2).Live (FuncMachine.sample 2) 1 →
      (after (FuncMachine.sample 2) sampleMachine 2).released 1 =
        (after (FuncMachine.sample 2) sampleMachine 2).released 0) :=
  functional_aligned (FuncMachine.sample 2) sampleMachine 2 (by decide) (by decide +kernel) 1

end FuncCore
end WaspSim
