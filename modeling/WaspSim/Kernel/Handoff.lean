import Mathlib.Tactic.Ring
import WaspSim.Kernel.StreamFma

/-!
# The hand-off through the double buffer

A consumer that loads has passed the barrier of its chunk, so the producer of its
element has stored the chunk; and the producer has not passed the barrier of the next
chunk, so it has not stored the one after that. Between them lies exactly what two
buffers hold.
-/

namespace WaspSim
namespace StreamFma

variable {α : Type} {l : Launch α}

namespace Launch

theorem memoryIters_pos (l : Launch α) : 0 < l.memoryIters := by
  have h := l.accepted
  unfold hostBlocks at h
  split at h
  · cases h
  · rename_i hok
    by_contra hzero
    obtain hzero : l.memoryIters = 0 := by omega
    simp [hzero, isSupportedMemoryIters] at hok

theorem kChunksPerCta_eq (l : Launch α) : l.kChunksPerCta = 2 * l.memoryIters := by
  unfold kChunksPerCta kThreads kChunkElements kProducerThreads
  omega

/-- The accepted size is that of the grid. -/
theorem n_eq (l : Launch α) : l.n = l.blocks * l.kChunksPerCta * 128 := by
  have h := l.accepted
  unfold hostBlocks at h
  split at h
  · cases h
  simp only at h
  split at h
  · cases h
  split at h
  · cases h
  · rename_i hdvd _
    rw [Option.some.injEq] at h
    have hn := Nat.div_mul_cancel (Nat.dvd_of_mod_eq_zero (not_not.mp hdvd))
    rw [h] at hn
    rw [← hn, kChunksPerCta_eq, kThreads]
    ring

theorem kChunksPerCta_pos (l : Launch α) : 0 < l.kChunksPerCta := by
  have hpos := l.memoryIters_pos
  rw [kChunksPerCta_eq]
  omega

variable {blockIdx chunk role : Nat}

/-- An element of the grid is before the end, and its index does not wrap. -/
theorem idx_eq (hblock : blockIdx < l.blocks) (hchunk : chunk < l.kChunksPerCta)
    (hrole : role < 128) :
    l.idx blockIdx chunk role = (blockIdx * l.kChunksPerCta + chunk) * 128 + role ∧
      (blockIdx * l.kChunksPerCta + chunk) * 128 + role < l.n := by
  have hlast : blockIdx * l.kChunksPerCta + chunk < l.blocks * l.kChunksPerCta := by
    have hle : (blockIdx + 1) * l.kChunksPerCta ≤ l.blocks * l.kChunksPerCta :=
      Nat.mul_le_mul_right _ hblock
    rw [Nat.succ_mul] at hle
    omega
  have hlt : (blockIdx * l.kChunksPerCta + chunk) * 128 + role < l.n := by
    rw [l.n_eq]
    omega
  refine ⟨?_, hlt⟩
  have hsum : blockIdx * kThreads * l.memoryIters + chunk * kChunkElements + role =
      (blockIdx * l.kChunksPerCta + chunk) * 128 + role := by
    rw [kChunksPerCta_eq, kThreads, kChunkElements, kProducerThreads]
    ring
  unfold idx
  rw [hsum]
  exact Nat.mod_eq_of_lt (hlt.trans l.n_lt)

theorem idx_lt (hblock : blockIdx < l.blocks) (hchunk : chunk < l.kChunksPerCta)
    (hrole : role < 128) : l.idx blockIdx chunk role < l.n := by
  rw [(idx_eq hblock hchunk hrole).1]
  exact (idx_eq hblock hchunk hrole).2

/-- Different elements have different indices. -/
theorem idx_injective {blockIdx' chunk' role' : Nat} (hblock : blockIdx < l.blocks)
    (hchunk : chunk < l.kChunksPerCta) (hrole : role < 128) (hblock' : blockIdx' < l.blocks)
    (hchunk' : chunk' < l.kChunksPerCta) (hrole' : role' < 128)
    (h : l.idx blockIdx chunk role = l.idx blockIdx' chunk' role') :
    blockIdx = blockIdx' ∧ chunk = chunk' ∧ role = role' := by
  rw [(idx_eq hblock hchunk hrole).1, (idx_eq hblock' hchunk' hrole').1] at h
  have hq : blockIdx * l.kChunksPerCta + chunk = blockIdx' * l.kChunksPerCta + chunk' := by omega
  have hdiv : ∀ {b c}, c < l.kChunksPerCta → (b * l.kChunksPerCta + c) / l.kChunksPerCta = b := by
    intro b c hc
    rw [Nat.add_comm, Nat.add_mul_div_right _ _ l.kChunksPerCta_pos, Nat.div_eq_of_lt hc,
      Nat.zero_add]
  have hb : blockIdx = blockIdx' := by
    rw [← hdiv (b := blockIdx) hchunk, hq, hdiv hchunk']
  subst hb
  exact ⟨rfl, by omega, by omega⟩

/-- Every index before the end belongs to an element. -/
theorem exists_idx {i : Nat} (hi : i < l.n) :
    ∃ blockIdx < l.blocks, ∃ chunk < l.kChunksPerCta, ∃ role < 128,
      i = l.idx blockIdx chunk role := by
  have hq : i / 128 < l.blocks * l.kChunksPerCta := by
    rw [l.n_eq] at hi
    omega
  have hblock : i / 128 / l.kChunksPerCta < l.blocks := by
    rwa [Nat.div_lt_iff_lt_mul l.kChunksPerCta_pos]
  have hchunk := Nat.mod_lt (i / 128) l.kChunksPerCta_pos
  have hrole := Nat.mod_lt i (show 0 < 128 by decide)
  refine ⟨_, hblock, _, hchunk, _, hrole, ?_⟩
  rw [(idx_eq hblock hchunk hrole).1, Nat.div_add_mod']
  exact (Nat.div_add_mod' i 128).symm

end Launch

theorem roleThread_lt (tid : Tid) : roleThread tid < 128 := by
  unfold roleThread
  have hlt := tid.isLt
  split
  · assumption
  · unfold kProducerThreads
    omega

theorem roleThread_of_producer {tid : Tid} (h : producer tid) : roleThread tid = tid :=
  if_pos h

/-- The producer of the element that a thread works on. -/
def partner (tid : Tid) : Tid := ⟨roleThread tid, (roleThread_lt tid).trans (by decide)⟩

theorem producer_partner (tid : Tid) : producer (partner tid) := roleThread_lt tid

theorem roleThread_partner (tid : Tid) : roleThread (partner tid) = roleThread tid :=
  roleThread_of_producer (producer_partner tid)

/-- How often a thread has passed the barrier. -/
def Thread.passes (th : Thread α) : Nat :=
  match th.pc with
  | .storeGuard | .store _ | .sync | .wait => th.chunk
  | .loadGuard | .load _ | .write => th.chunk + 1

/-- The order of the inputs in a chunk. -/
def Input.rank : Input → Nat
  | .a => 0
  | .b => 1
  | .c => 2

/-- How many elements of an input a producer has stored. -/
def Thread.stores (th : Thread α) (x : Input) : Nat :=
  match th.pc with
  | .storeGuard => th.chunk
  | .store y => if x.rank < y.rank then th.chunk + 1 else th.chunk
  | .sync | .wait | .loadGuard | .load _ | .write => th.chunk + 1

/-- A consumer has loaded the register of an input in its chunk. -/
def Thread.Loaded (th : Thread α) (x : Input) : Prop :=
  match th.pc with
  | .load y => x.rank < y.rank
  | .write => True
  | .storeGuard | .store _ | .sync | .wait | .loadGuard => False

/-- Only producers store, and only consumers load and write. -/
def Pc.Allowed (pc : Pc) (tid : Tid) : Prop :=
  match pc with
  | .store _ => producer tid
  | .load _ | .write => ¬producer tid
  | .storeGuard | .sync | .wait | .loadGuard => True

theorem Thread.passes_le (th : Thread α) : th.passes ≤ th.arrivals := by
  unfold passes arrivals
  cases th.pc <;> simp

theorem Thread.arrivals_le (th : Thread α) : th.arrivals ≤ th.passes + 1 := by
  unfold passes arrivals
  cases th.pc <;> simp

/-- A thread at the barrier has stored every input. -/
theorem Thread.arrivals_le_stores (th : Thread α) (x : Input) : th.arrivals ≤ th.stores x := by
  unfold arrivals stores
  cases th.pc with
  | store y =>
    simp only
    split
    · exact Nat.le_succ _
    · exact Nat.le_refl _
  | _ => simp

theorem Thread.stores_le (th : Thread α) (x : Input) : th.stores x ≤ th.passes + 1 := by
  unfold passes stores
  cases th.pc with
  | store y =>
    simp only
    split
    · exact Nat.le_refl _
    · exact Nat.le_succ _
  | _ => simp

/-- A copy stores one more element of its input. -/
theorem Thread.stores_afterStore {th : Thread α} {x : Input} (h : th.pc = .store x) (y : Input) :
    ({ th with pc := .afterStore x } : Thread α).stores y =
      if y = x then th.stores x + 1 else th.stores y := by
  unfold stores
  rw [h]
  cases x <;> cases y <;> simp [Pc.afterStore, Input.rank]

theorem Thread.stores_store {th : Thread α} {x : Input} (h : th.pc = .store x) :
    th.stores x = th.chunk := by
  unfold stores
  rw [h]
  simp

/-- A load adds its register to those that are loaded. -/
theorem Thread.loaded_afterLoad {th : Thread α} {x y : Input} (h : th.pc = .load x)
    {reg : Input → α} (hy : ({ th with pc := .afterLoad x, reg } : Thread α).Loaded y) :
    y = x ∨ (y ≠ x ∧ th.Loaded y) := by
  unfold Loaded at hy ⊢
  rw [h]
  cases x <;> cases y <;> simp_all [Pc.afterLoad, Input.rank]

/-- What a step of a thread can do. -/
inductive Moves (l : Launch α) (blockIdx : Nat) (b : Cta α) (tid : Tid) :
    Cta α → List (Event α) → Prop
  | toStore (hpc : (b.threads tid).pc = .storeGuard) (htid : producer tid) :
      Moves l blockIdx b tid (b.setThread tid { b.threads tid with pc := .store .a }) []
  | toSync (hpc : (b.threads tid).pc = .storeGuard) (htid : ¬producer tid) :
      Moves l blockIdx b tid (b.setThread tid { b.threads tid with pc := .sync }) []
  | store (x : Input) (v : α) (hpc : (b.threads tid).pc = .store x)
      (hv : v = l.input x (l.idx blockIdx (b.threads tid).chunk (roleThread tid))) :
      Moves l blockIdx b tid
        { b.setThread tid { b.threads tid with pc := .afterStore x } with
          smem := Function.update b.smem x (Function.update (b.smem x) ((b.threads tid).chunk % 2)
            (Function.update (b.smem x ((b.threads tid).chunk % 2)) (roleThread tid) v)) }
        [.store blockIdx tid (b.threads tid).chunk x v]
  | arrive (hpc : (b.threads tid).pc = .sync) :
      Moves l blockIdx b tid (b.setThread tid { b.threads tid with pc := .wait }) []
  | pass (hpc : (b.threads tid).pc = .wait)
      (hall : ∀ j, (b.threads tid).chunk < (b.threads j).arrivals) :
      Moves l blockIdx b tid (b.setThread tid { b.threads tid with pc := .loadGuard }) []
  | toLoad (hpc : (b.threads tid).pc = .loadGuard) (htid : ¬producer tid) :
      Moves l blockIdx b tid (b.setThread tid { b.threads tid with pc := .load .a }) []
  | skip (hpc : (b.threads tid).pc = .loadGuard) (htid : producer tid) :
      Moves l blockIdx b tid (b.setThread tid (b.threads tid).next) []
  | load (x : Input) (v : α) (hpc : (b.threads tid).pc = .load x)
      (hv : v = b.smem x ((b.threads tid).chunk % 2) (roleThread tid)) :
      Moves l blockIdx b tid
        (b.setThread tid { b.threads tid with
          pc := .afterLoad x
          reg := Function.update (b.threads tid).reg x v })
        [.load blockIdx tid (b.threads tid).chunk x v]
  | write (v : α) (hpc : (b.threads tid).pc = .write)
      (hv : v = streamFmaValue l.ops ((b.threads tid).reg .a) ((b.threads tid).reg .b)
        ((b.threads tid).reg .c) l.computeIters) :
      Moves l blockIdx b tid (b.setThread tid (b.threads tid).next)
        [.write (l.idx blockIdx (b.threads tid).chunk (roleThread tid)) v]

variable {blockIdx : Nat} {b b' : Cta α} {tid : Tid} {es : List (Event α)}

/-- A step is one of the moves, as every element is before the end. -/
theorem Cta.step_cases (hblock : blockIdx < l.blocks) (h : b.step l blockIdx tid = .ok (b', es)) :
    (b.threads tid).chunk < l.kChunksPerCta ∧ Moves l blockIdx b tid b' es := by
  unfold Cta.step at h
  simp only at h
  split at h
  · rename_i hchunk
    have hidx := Launch.idx_lt hblock hchunk (roleThread_lt tid)
    refine ⟨hchunk, ?_⟩
    cases hpc : (b.threads tid).pc with
    | storeGuard =>
      simp only [hpc, hidx, and_true, pure_eq_ok, Prod.mk.injEq] at h
      obtain ⟨rfl, rfl⟩ := h
      by_cases htid : producer tid
      · rw [if_pos htid]
        exact .toStore hpc htid
      · rw [if_neg htid]
        exact .toSync hpc htid
    | store x =>
      simp only [hpc, pure_eq_ok, Prod.mk.injEq] at h
      obtain ⟨rfl, rfl⟩ := h
      exact .store x _ hpc rfl
    | sync =>
      simp only [hpc, pure_eq_ok, Prod.mk.injEq] at h
      obtain ⟨rfl, rfl⟩ := h
      exact .arrive hpc
    | wait =>
      simp only [hpc, bind_eq_ok, require_eq_ok, pure_eq_ok, Prod.mk.injEq] at h
      obtain ⟨_, hall, rfl, rfl⟩ := h
      exact .pass hpc hall
    | loadGuard =>
      simp only [hpc, hidx, and_true, pure_eq_ok, Prod.mk.injEq] at h
      obtain ⟨rfl, rfl⟩ := h
      by_cases htid : producer tid
      · rw [if_neg (not_not.mpr htid)]
        exact .skip hpc htid
      · rw [if_pos htid]
        exact .toLoad hpc htid
    | load x =>
      simp only [hpc, pure_eq_ok, Prod.mk.injEq] at h
      obtain ⟨rfl, rfl⟩ := h
      exact .load x _ hpc rfl
    | write =>
      simp only [hpc, pure_eq_ok, Prod.mk.injEq] at h
      obtain ⟨rfl, rfl⟩ := h
      exact .write _ hpc rfl
  · cases h

/-- The threads of a CTA keep to their role and to the barrier. -/
structure Control (l : Launch α) (b : Cta α) : Prop where
  chunk_le : ∀ t, (b.threads t).chunk ≤ l.kChunksPerCta
  allowed : ∀ t, (b.threads t).pc.Allowed t
  synced : Synced (fun t => (b.threads t).arrivals) fun t => (b.threads t).passes

/-- The buffers of a CTA hold the last two elements that each producer stored. -/
def Buffers (l : Launch α) (blockIdx : Nat) (b : Cta α) : Prop :=
  ∀ t, producer t → ∀ x, Buffered 2 (fun c => b.smem x c (roleThread t))
    ((b.threads t).stores x) fun c => l.input x (l.idx blockIdx c (roleThread t))

/-- The registers of a CTA hold the inputs of the element of their chunk. -/
def Registers (l : Launch α) (blockIdx : Nat) (b : Cta α) : Prop :=
  ∀ t x, (b.threads t).Loaded x →
    (b.threads t).reg x = l.input x (l.idx blockIdx (b.threads t).chunk (roleThread t))

/-- What every CTA of the grid keeps. -/
structure CtaInv (l : Launch α) (blockIdx : Nat) (b : Cta α) : Prop where
  control : Control l b
  buffers : Buffers l blockIdx b
  registers : Registers l blockIdx b

@[simp] theorem Cta.setThread_threads (b : Cta α) (tid : Tid) (th : Thread α) :
    (b.setThread tid th).threads = Function.update b.threads tid th := rfl

@[simp] theorem Cta.setThread_smem (b : Cta α) (tid : Tid) (th : Thread α) :
    (b.setThread tid th).smem = b.smem := rfl

variable {th : Thread α}

/-- A thread may go on in its role, passing the barrier only as often as all have arrived. -/
theorem Control.update (h : Control l b) (hthreads : b'.threads = Function.update b.threads tid th)
    (hchunk : th.chunk ≤ l.kChunksPerCta) (hallowed : th.pc.Allowed tid)
    (hmore : (b.threads tid).arrivals ≤ th.arrivals)
    (hall : ∀ j, j ≠ tid → th.passes ≤ (b.threads j).arrivals) : Control l b' := by
  constructor
  · intro t
    rw [hthreads]
    by_cases ht : t = tid
    · rwa [ht, Function.update_self]
    · rw [Function.update_of_ne ht]
      exact h.chunk_le t
  · intro t
    rw [hthreads]
    by_cases ht : t = tid
    · rwa [ht, Function.update_self]
    · rw [Function.update_of_ne ht]
      exact h.allowed t
  · have hmove := h.synced.move (i := tid) th.passes_le th.arrivals_le hmore hall
    have harrivals : (fun t => (b'.threads t).arrivals) =
        Function.update (fun t => (b.threads t).arrivals) tid th.arrivals := by
      rw [hthreads]
      exact Function.comp_update Thread.arrivals b.threads tid th
    have hpasses : (fun t => (b'.threads t).passes) =
        Function.update (fun t => (b.threads t).passes) tid th.passes := by
      rw [hthreads]
      exact Function.comp_update Thread.passes b.threads tid th
    rw [harrivals, hpasses]
    exact hmove

/-- A move keeps the threads of a CTA in their roles and at the barrier. -/
theorem Control.moves (h : Control l b) (hchunk : (b.threads tid).chunk < l.kChunksPerCta)
    (hm : Moves l blockIdx b tid b' es) : Control l b' := by
  have hle := h.chunk_le tid
  -- a thread that does not pass the barrier is not ahead of the others
  have hsame : ∀ j, j ≠ tid → (b.threads tid).passes ≤ (b.threads j).arrivals :=
    fun j _ => h.synced.barrier tid j
  have hallowed := h.allowed tid
  cases hm with
  | toStore hpc htid =>
    exact h.update rfl hle htid (by simp [Thread.arrivals, hpc])
      (by simpa [Thread.passes, hpc] using hsame)
  | toSync hpc htid =>
    exact h.update rfl hle trivial (by simp [Thread.arrivals, hpc])
      (by simpa [Thread.passes, hpc] using hsame)
  | store x v hpc hv =>
    rw [hpc] at hallowed
    refine h.update rfl hle ?_ ?_ ?_
    · cases x
      · exact hallowed
      · exact hallowed
      · exact trivial
    · cases x <;> simp [Thread.arrivals, hpc, Pc.afterStore]
    · cases x <;> simpa [Thread.passes, hpc, Pc.afterStore] using hsame
  | arrive hpc =>
    exact h.update rfl hle trivial (by simp [Thread.arrivals, hpc])
      (by simpa [Thread.passes, hpc] using hsame)
  | pass hpc hall =>
    exact h.update rfl hle trivial (by simp [Thread.arrivals, hpc]) fun j _ => hall j
  | toLoad hpc htid =>
    exact h.update rfl hle htid (by simp [Thread.arrivals, hpc])
      (by simpa [Thread.passes, hpc] using hsame)
  | skip hpc htid =>
    exact h.update rfl hchunk trivial (by simp [Thread.next, Thread.arrivals, hpc])
      (by simpa [Thread.next, Thread.passes, hpc] using hsame)
  | load x v hpc hv =>
    rw [hpc] at hallowed
    refine h.update rfl hle ?_ ?_ ?_
    · cases x
      · exact hallowed
      · exact hallowed
      · exact hallowed
    · cases x <;> simp [Thread.arrivals, hpc, Pc.afterLoad]
    · cases x <;> simpa [Thread.passes, hpc, Pc.afterLoad] using hsame
  | write v hpc hv =>
    exact h.update rfl hchunk trivial (by simp [Thread.next, Thread.arrivals, hpc])
      (by simpa [Thread.next, Thread.passes, hpc] using hsame)

/-- A consumer that loads finds its element stored and not yet replaced. -/
theorem Control.window (h : Control l b) {x : Input} (hpc : (b.threads tid).pc = .load x)
    (y : Input) :
    (b.threads tid).chunk < (b.threads (partner tid)).stores y ∧
      (b.threads (partner tid)).stores y ≤ (b.threads tid).chunk + 2 := by
  have hpasses : (b.threads tid).passes = (b.threads tid).chunk + 1 := by
    unfold Thread.passes
    rw [hpc]
  have harrivals : (b.threads tid).arrivals = (b.threads tid).chunk + 1 := by
    unfold Thread.arrivals
    rw [hpc]
  have hpassed := h.synced.barrier tid (partner tid)
  have hahead := h.synced.barrier (partner tid) tid
  have hlow := (b.threads (partner tid)).arrivals_le_stores y
  have hhigh := (b.threads (partner tid)).stores_le y
  omega

/-- What a consumer loads is the input of its element. -/
theorem CtaInv.load_eq (h : CtaInv l blockIdx b) {x : Input}
    (hpc : (b.threads tid).pc = .load x) :
    b.smem x ((b.threads tid).chunk % 2) (roleThread tid) =
      l.input x (l.idx blockIdx (b.threads tid).chunk (roleThread tid)) := by
  obtain ⟨hlow, hhigh⟩ := h.control.window hpc x
  have hcell := h.buffers (partner tid) (producer_partner tid) x _ hlow hhigh
  simpa only [roleThread_partner] using hcell

/-- The buffers do not change when no producer stores. -/
theorem Buffers.update (h : Buffers l blockIdx b) (hsmem : b'.smem = b.smem)
    (hthreads : b'.threads = Function.update b.threads tid th)
    (hsame : producer tid → ∀ x, th.stores x = (b.threads tid).stores x) :
    Buffers l blockIdx b' := by
  intro t ht x
  rw [hsmem, hthreads]
  by_cases heq : t = tid
  · rw [heq, Function.update_self, hsame (heq ▸ ht)]
    exact h tid (heq ▸ ht) x
  · rw [Function.update_of_ne heq]
    exact h t ht x

/-- A copy replaces the cell of the oldest element of its producer and input. -/
theorem Buffers.store (h : Buffers l blockIdx b) (htid : producer tid) {x : Input}
    (hpc : (b.threads tid).pc = .store x) :
    Buffers l blockIdx { b.setThread tid { b.threads tid with pc := .afterStore x } with
      smem := Function.update b.smem x (Function.update (b.smem x) ((b.threads tid).chunk % 2)
        (Function.update (b.smem x ((b.threads tid).chunk % 2)) (roleThread tid)
          (l.input x (l.idx blockIdx (b.threads tid).chunk (roleThread tid))))) } := by
  intro t ht y
  have hold := h t ht y
  simp only [Cta.setThread_threads]
  by_cases hyx : y = x
  · subst hyx
    rw [Function.update_self]
    by_cases heq : t = tid
    · subst heq
      rw [Function.update_self, Thread.stores_afterStore hpc, if_pos rfl]
      rw [Thread.stores_store hpc] at hold ⊢
      have hcells : (fun c => Function.update (b.smem y) ((b.threads t).chunk % 2)
          (Function.update (b.smem y ((b.threads t).chunk % 2)) (roleThread t)
            (l.input y (l.idx blockIdx (b.threads t).chunk (roleThread t)))) c (roleThread t)) =
          Function.update (fun c => b.smem y c (roleThread t)) ((b.threads t).chunk % 2)
            (l.input y (l.idx blockIdx (b.threads t).chunk (roleThread t))) := by
        funext c
        by_cases hc : c = (b.threads t).chunk % 2
        · rw [hc, Function.update_self, Function.update_self, Function.update_self]
        · rw [Function.update_of_ne hc, Function.update_of_ne hc]
      rw [hcells]
      exact hold.store
    · rw [Function.update_of_ne heq]
      have hne : roleThread t ≠ roleThread tid := by
        rw [roleThread_of_producer ht, roleThread_of_producer htid]
        exact fun hval => heq (Fin.ext hval)
      have hcells : (fun c => Function.update (b.smem y) ((b.threads tid).chunk % 2)
          (Function.update (b.smem y ((b.threads tid).chunk % 2)) (roleThread tid)
            (l.input y (l.idx blockIdx (b.threads tid).chunk (roleThread tid)))) c
              (roleThread t)) = fun c => b.smem y c (roleThread t) := by
        funext c
        by_cases hc : c = (b.threads tid).chunk % 2
        · rw [hc, Function.update_self, Function.update_of_ne hne]
        · rw [Function.update_of_ne hc]
      rw [hcells]
      exact hold
  · rw [Function.update_of_ne hyx]
    by_cases heq : t = tid
    · subst heq
      rw [Function.update_self, Thread.stores_afterStore hpc, if_neg hyx]
      exact hold
    · rw [Function.update_of_ne heq]
      exact hold

/-- A move keeps the buffers of a CTA. -/
theorem Buffers.moves (h : Buffers l blockIdx b) (hcontrol : Control l b)
    (hm : Moves l blockIdx b tid b' es) : Buffers l blockIdx b' := by
  cases hm with
  | toStore hpc htid =>
    exact h.update rfl rfl fun _ x => by simp [Thread.stores, hpc, Input.rank]
  | toSync hpc htid => exact h.update rfl rfl fun hproducer => absurd hproducer htid
  | store x v hpc hv =>
    have hallowed := hcontrol.allowed tid
    rw [hpc] at hallowed
    subst hv
    exact h.store hallowed hpc
  | arrive hpc => exact h.update rfl rfl fun _ x => by simp [Thread.stores, hpc]
  | pass hpc hall => exact h.update rfl rfl fun _ x => by simp [Thread.stores, hpc]
  | toLoad hpc htid => exact h.update rfl rfl fun _ x => by simp [Thread.stores, hpc]
  | skip hpc htid => exact h.update rfl rfl fun _ x => by simp [Thread.next, Thread.stores, hpc]
  | load x v hpc hv =>
    refine h.update rfl rfl fun _ y => ?_
    cases x <;> simp [Thread.stores, hpc, Pc.afterLoad]
  | write v hpc hv =>
    exact h.update rfl rfl fun _ x => by simp [Thread.next, Thread.stores, hpc]

/-- Registers of a thread that has loaded nothing in its chunk do not matter. -/
theorem Registers.update (h : Registers l blockIdx b)
    (hthreads : b'.threads = Function.update b.threads tid th)
    (hloaded : ∀ x, th.Loaded x →
      th.reg x = l.input x (l.idx blockIdx th.chunk (roleThread tid))) :
    Registers l blockIdx b' := by
  intro t x hx
  rw [hthreads] at hx ⊢
  by_cases heq : t = tid
  · rw [heq, Function.update_self] at hx ⊢
    exact hloaded x hx
  · rw [Function.update_of_ne heq] at hx ⊢
    exact h t x hx

/-- A move keeps the registers of a CTA. -/
theorem CtaInv.moves (h : CtaInv l blockIdx b)
    (hchunk : (b.threads tid).chunk < l.kChunksPerCta) (hm : Moves l blockIdx b tid b' es) :
    CtaInv l blockIdx b' := by
  refine ⟨h.control.moves hchunk hm, h.buffers.moves h.control hm, ?_⟩
  have hregisters := h.registers
  cases hm with
  | toStore hpc htid => exact hregisters.update rfl fun x hx => absurd hx (by simp [Thread.Loaded])
  | toSync hpc htid => exact hregisters.update rfl fun x hx => absurd hx (by simp [Thread.Loaded])
  | store x v hpc hv =>
    refine hregisters.update rfl fun y hy => absurd hy ?_
    cases x <;> simp [Thread.Loaded, Pc.afterStore]
  | arrive hpc => exact hregisters.update rfl fun x hx => absurd hx (by simp [Thread.Loaded])
  | pass hpc hall => exact hregisters.update rfl fun x hx => absurd hx (by simp [Thread.Loaded])
  | toLoad hpc htid =>
    exact hregisters.update rfl fun x hx => absurd hx (by simp [Thread.Loaded, Input.rank])
  | skip hpc htid =>
    exact hregisters.update rfl fun x hx => absurd hx (by simp [Thread.next, Thread.Loaded])
  | load x v hpc hv =>
    refine hregisters.update rfl fun y hy => ?_
    rcases Thread.loaded_afterLoad hpc hy with rfl | ⟨hne, hy⟩
    · simp only [Function.update_self, hv]
      exact h.load_eq hpc
    · simp only [Function.update_of_ne hne]
      exact hregisters tid y hy
  | write v hpc hv =>
    exact hregisters.update rfl fun x hx => absurd hx (by simp [Thread.next, Thread.Loaded])

end StreamFma
end WaspSim
