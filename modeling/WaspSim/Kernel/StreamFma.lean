import Mathlib.Algebra.BigOperators.Fin
import WaspSim.Core.Barrier
import WaspSim.Core.Run
import WaspSim.Queue.State

/-!
# The double-buffered stream kernel

The kernel that the queues are compared with: in every chunk the 128 producer threads
of a CTA copy three inputs to a shared buffer, all threads meet at a barrier, and the
128 consumer threads compute from the buffer. There are two buffers and one barrier for
each chunk. A step is one access, arrival or test of one thread of the grid.
-/

namespace WaspSim
namespace StreamFma

/-- The arithmetic of `float` that the kernel uses. -/
structure FloatOps (α : Type) where
  fmaf : α → α → α → α
  add : α → α → α
  /-- `1.0001f`. -/
  accScale : α
  /-- `0.9999f`. -/
  xScale : α
  /-- `1.0003f`. -/
  yScale : α

/-- `stream_fma_value`. -/
def streamFmaValue {α : Type} (ops : FloatOps α) (acc x y : α) : Nat → α
  | 0 => ops.add (ops.add acc x) y
  | r + 1 =>
    let acc := ops.fmaf acc ops.accScale x
    let x := ops.fmaf x ops.xScale y
    let y := ops.fmaf y ops.yScale acc
    streamFmaValue ops acc x y r

/-- The inputs `a`, `b` and `c`. -/
inductive Input where
  | a
  | b
  | c
  deriving DecidableEq, Repr

/-- `is_supported_memory_iters`. -/
def isSupportedMemoryIters (value : Nat) : Bool :=
  value == 1 || value == 2 || value == 4 || value == 8

def kThreads : Nat := 256
def kProducerThreads : Nat := 128
def kChunkElements : Nat := kProducerThreads

/-- The checks of the host program, and its number of CTAs. -/
def hostBlocks (n memoryIters : Nat) : Option Nat :=
  if n = 0 ∨ isSupportedMemoryIters memoryIters = false then none
  else
    let elementsPerCta := kThreads * memoryIters
    if n % elementsPerCta ≠ 0 then none
    else
      let blocks := n / elementsPerCta
      if blocks = 0 ∨ 2 ^ 31 - 1 < blocks then none else some blocks

/-- A launch that the host accepts. -/
structure Launch (α : Type) where
  /-- `n`, a `size_t`. -/
  n : Nat
  n_lt : n < 2 ^ 64
  memoryIters : Nat
  blocks : Nat
  accepted : hostBlocks n memoryIters = some blocks
  computeIters : Nat
  ops : FloatOps α
  input : Input → Nat → α

/-- A thread of a CTA. -/
abbrev Tid := Fin 256

/-- `producer`. -/
def producer (tid : Tid) : Prop := tid.val < kProducerThreads

instance : DecidablePred producer := fun tid => inferInstanceAs (Decidable (tid.val < _))

/-- `role_thread`. -/
def roleThread (tid : Tid) : Nat :=
  if producer tid then tid else tid - kProducerThreads

namespace Launch

variable {α : Type} (l : Launch α)

/-- `kChunksPerCta`. -/
def kChunksPerCta : Nat := kThreads * l.memoryIters / kChunkElements

/-- `idx`, a `size_t`. -/
def idx (blockIdx chunk roleThread : Nat) : Nat :=
  (blockIdx * kThreads * l.memoryIters + chunk * kChunkElements + roleThread) % 2 ^ 64

/-- The value that belongs in `out[i]`. -/
def value (i : Nat) : α :=
  streamFmaValue l.ops (l.input .a i) (l.input .b i) (l.input .c i) l.computeIters

end Launch

/-- Where a thread is in a chunk. -/
inductive Pc where
  /-- At `if (producer && idx < n)`. -/
  | storeGuard
  /-- At the copy of an input to its buffer. -/
  | store (x : Input)
  /-- At `__syncthreads`. -/
  | sync
  /-- Arrived at the barrier. -/
  | wait
  /-- At `if (consumer && idx < n)`. -/
  | loadGuard
  /-- At the load of `acc`, `x` or `y`. -/
  | load (x : Input)
  /-- At the assignment to `out[idx]`. -/
  | write
  deriving DecidableEq, Repr

/-- The statement after the copy of an input. -/
def Pc.afterStore : Input → Pc
  | .a => .store .b
  | .b => .store .c
  | .c => .sync

/-- The statement after the load of a register. -/
def Pc.afterLoad : Input → Pc
  | .a => .load .b
  | .b => .load .c
  | .c => .write

/-- A thread with its registers `acc`, `x` and `y`. -/
structure Thread (α : Type) where
  chunk : Nat := 0
  pc : Pc := .storeGuard
  reg : Input → α

/-- How often a thread has arrived at the barrier. -/
def Thread.arrivals {α : Type} (th : Thread α) : Nat :=
  match th.pc with
  | .storeGuard | .store _ | .sync => th.chunk
  | .wait | .loadGuard | .load _ | .write => th.chunk + 1

/-- The thread at the test of its next chunk. -/
def Thread.next {α : Type} (th : Thread α) : Thread α :=
  { th with chunk := th.chunk + 1, pc := .storeGuard }

/-- A CTA: its threads and its shared memory, by input, buffer and element. -/
structure Cta (α : Type) where
  threads : Tid → Thread α
  smem : Input → Nat → Nat → α

/-- What a step does to memory. -/
inductive Event (α : Type) where
  /-- A copy of an input to a buffer. -/
  | store (blockIdx : Nat) (tid : Tid) (chunk : Nat) (x : Input) (v : α)
  /-- A load from a buffer. -/
  | load (blockIdx : Nat) (tid : Tid) (chunk : Nat) (x : Input) (v : α)
  /-- An assignment to `out[i]`. -/
  | write (i : Nat) (v : α)

/-- The output after an event. -/
def Event.apply {α : Type} (out : Nat → α) : Event α → Nat → α
  | .write i v => Function.update out i v
  | _ => out

/-- The CTA with another state of one of its threads. -/
def Cta.setThread {α : Type} (b : Cta α) (tid : Tid) (th : Thread α) : Cta α :=
  { b with threads := Function.update b.threads tid th }

section

variable {α : Type}

/-- `stream_fma_v6_variant2_kernel_impl`, one step of one thread. -/
def Cta.step (l : Launch α) (blockIdx : Nat) (b : Cta α) (tid : Tid) :
    Except Halt (Cta α × List (Event α)) :=
  let th := b.threads tid
  let buffer := th.chunk % 2
  let i := l.idx blockIdx th.chunk (roleThread tid)
  if th.chunk < l.kChunksPerCta then
    match th.pc with
    | .storeGuard =>
      pure (b.setThread tid
        { th with pc := if producer tid ∧ i < l.n then .store .a else .sync }, [])
    | .store x =>
      let v := l.input x i
      pure ({ b.setThread tid { th with pc := .afterStore x } with
        smem := Function.update b.smem x (Function.update (b.smem x) buffer
          (Function.update (b.smem x buffer) (roleThread tid) v)) },
        [.store blockIdx tid th.chunk x v])
    | .sync => pure (b.setThread tid { th with pc := .wait }, [])
    | .wait => do
      -- no thread passes before all have arrived as often
      require .disabled (∀ j, th.chunk < (b.threads j).arrivals)
      pure (b.setThread tid { th with pc := .loadGuard }, [])
    | .loadGuard =>
      pure (b.setThread tid
        (if ¬producer tid ∧ i < l.n then { th with pc := .load .a } else th.next), [])
    | .load x =>
      let v := b.smem x buffer (roleThread tid)
      pure (b.setThread tid { th with pc := .afterLoad x, reg := Function.update th.reg x v },
        [.load blockIdx tid th.chunk x v])
    | .write =>
      pure (b.setThread tid th.next,
        [.write i (streamFmaValue l.ops (th.reg .a) (th.reg .b) (th.reg .c) l.computeIters)])
  else .error .disabled

/-- A grid of CTAs and the output. -/
structure Grid (α : Type) where
  ctas : Nat → Cta α
  out : Nat → α

/-- One step of one thread of the grid. -/
def step (l : Launch α) (g : Grid α) (a : Nat × Tid) : Except Halt (Grid α × List (Event α)) := do
  require .disabled (a.1 < l.blocks)
  let (b, es) ← (g.ctas a.1).step l a.1 a.2
  pure ({ ctas := Function.update g.ctas a.1 b, out := es.foldl Event.apply g.out }, es)

/-- A grid at its launch. The shared memory, the registers and the output are as they are. -/
def Grid.Initial (g : Grid α) : Prop :=
  ∀ c tid, ((g.ctas c).threads tid).chunk = 0 ∧ ((g.ctas c).threads tid).pc = .storeGuard

end

end StreamFma
end WaspSim
