import WaspSim.Core.Checked
import WaspSim.Core.Text

/-!
# Options of the gather kernel

The command line of the producer/consumer pair benchmark. An accepted run has positive
counts that fit into an `int`; the dual modes fix the iterations, and the mode with one
queue slot for each tile bounds the tiles.
-/

namespace WaspSim
namespace PairKernel

open Text

def kBlockThreads : Nat := 1024
def kProducerThreads : Nat := 512
def kMaxRfqTiles : Nat := 16

/-- The largest `int`. -/
def intMax : Nat := 2147483647

inductive Mode where
  | baseline
  | splitH200
  | streamDual
  | queueDual
  | rfqStreamDual
  deriving DecidableEq, Repr

/-- The modes by their names. -/
def Mode.ofName? (name : List Char) : Option Mode :=
  if name = "baseline".toList then some .baseline
  else if name = "split_h200".toList then some .splitH200
  else if name = "stream_dual".toList then some .streamDual
  else if name = "queue_dual".toList then some .queueDual
  else if name = "rfq_stream_dual".toList then some .rfqStreamDual
  else none

/-- `Options`, with the mode in the type that the command line has for it. -/
structure Options (M : Type) where
  mode : M
  n : Nat := 67584
  iters : Nat := 8
  tiles : Nat := 64
  warmup : Nat := 0
  repeats : Nat := 1
  deriving DecidableEq, Repr

/-- Why the command line is refused. -/
inductive OptionError where
  | missingValue
  | unknownOption
  | invalidValue
  | mode
  /-- A count is 0. -/
  | counts
  /-- A dual mode without 8 iterations. -/
  | iters
  | tiles
  deriving DecidableEq, Repr

/-- `parse_int`: the whole text is a number, which is an `int` and not negative. -/
def parseInt (text : List Char) : Except OptionError Nat := do
  let (negative, digits) := splitSign (trimLeft text)
  require .invalidValue (digits ≠ [] ∧ digits.all Char.isDigit = true)
  let value := digitsValue digits
  require .invalidValue (value ≤ intMax ∧ (negative = true → value = 0))
  pure value

/-- One option with its value. -/
def setOption (opt : Options (List Char)) (flag value : List Char) :
    Except OptionError (Options (List Char)) :=
  if flag = "--mode".toList then pure { opt with mode := value }
  else if flag = "--n".toList then do pure { opt with n := ← parseInt value }
  else if flag = "--iters".toList then do pure { opt with iters := ← parseInt value }
  else if flag = "--tiles".toList then do pure { opt with tiles := ← parseInt value }
  else if flag = "--warmup".toList then do pure { opt with warmup := ← parseInt value }
  else if flag = "--repeats".toList then do pure { opt with repeats := ← parseInt value }
  else .error .unknownOption

/-- The options that take a value. -/
def knownOption (flag : List Char) : Bool :=
  ["--mode", "--n", "--iters", "--tiles", "--warmup", "--repeats"].any fun s => s.toList == flag

/-- The loop over the arguments. -/
def readOptions (opt : Options (List Char)) :
    List (List Char) → Except OptionError (Options (List Char))
  | [] => pure opt
  | [flag] => .error (if knownOption flag then .missingValue else .unknownOption)
  | flag :: value :: args => do
    let opt ← setOption opt flag value
    readOptions opt args

/-- `parse_options`. -/
def parseOptions (args : List (List Char)) : Except OptionError (Options Mode) := do
  let opt ← readOptions { mode := "baseline".toList } args
  let mode ← fetch .mode (Mode.ofName? opt.mode)
  require .counts (0 < opt.n ∧ 0 < opt.iters ∧ 0 < opt.tiles ∧ 0 < opt.repeats)
  require .iters (mode = .streamDual ∨ mode = .queueDual ∨ mode = .rfqStreamDual → opt.iters = 8)
  require .tiles (mode = .rfqStreamDual → opt.tiles ≤ kMaxRfqTiles)
  pure { opt with mode }

/-- The counts fit into an `int`. -/
def Options.Fits {M : Type} (opt : Options M) : Prop :=
  opt.n ≤ intMax ∧ opt.iters ≤ intMax ∧ opt.tiles ≤ intMax

theorem parseInt_le {text : List Char} {value : Nat} (h : parseInt text = .ok value) :
    value ≤ intMax := by
  simp only [parseInt, bind_eq_ok, require_eq_ok, pure_eq_ok] at h
  obtain ⟨_, _, _, ⟨hle, _⟩, rfl⟩ := h
  exact hle

/-- Setting an option keeps the counts within an `int`. -/
theorem setOption_fits {opt opt' : Options (List Char)} {flag value : List Char} (h : opt.Fits)
    (hset : setOption opt flag value = .ok opt') : opt'.Fits := by
  obtain ⟨hn, hiters, htiles⟩ := h
  unfold setOption at hset
  split at hset
  · rw [pure_eq_ok] at hset
    subst hset
    exact ⟨hn, hiters, htiles⟩
  · split at hset
    · simp only [bind_eq_ok, pure_eq_ok] at hset
      obtain ⟨value, hvalue, rfl⟩ := hset
      exact ⟨parseInt_le hvalue, hiters, htiles⟩
    · split at hset
      · simp only [bind_eq_ok, pure_eq_ok] at hset
        obtain ⟨value, hvalue, rfl⟩ := hset
        exact ⟨hn, parseInt_le hvalue, htiles⟩
      · split at hset
        · simp only [bind_eq_ok, pure_eq_ok] at hset
          obtain ⟨value, hvalue, rfl⟩ := hset
          exact ⟨hn, hiters, parseInt_le hvalue⟩
        · split at hset
          · simp only [bind_eq_ok, pure_eq_ok] at hset
            obtain ⟨value, _, rfl⟩ := hset
            exact ⟨hn, hiters, htiles⟩
          · split at hset
            · simp only [bind_eq_ok, pure_eq_ok] at hset
              obtain ⟨value, _, rfl⟩ := hset
              exact ⟨hn, hiters, htiles⟩
            · cases hset

theorem readOptions_fits {args : List (List Char)} {opt opt' : Options (List Char)} (h : opt.Fits)
    (hread : readOptions opt args = .ok opt') : opt'.Fits := by
  induction opt, args using readOptions.induct with
  | case1 opt =>
    cases hread
    exact h
  | case2 opt flag => cases hread
  | case3 opt flag value args ih =>
    simp only [readOptions, bind_eq_ok] at hread
    obtain ⟨m, hm, hread⟩ := hread
    exact ih m (setOption_fits h hm) hread

/-- Accepted counts are positive and fit into an `int`. -/
theorem parseOptions_spec {args : List (List Char)} {opt : Options Mode}
    (h : parseOptions args = .ok opt) : opt.Fits ∧ 0 < opt.n ∧ 0 < opt.iters ∧ 0 < opt.tiles := by
  simp only [parseOptions, bind_eq_ok, require_eq_ok, pure_eq_ok] at h
  obtain ⟨raw, hraw, mode, _, _, ⟨hn, hiters, htiles, _⟩, _, _, _, _, rfl⟩ := h
  have hfits : raw.Fits := readOptions_fits ⟨by decide, by decide, by decide⟩ hraw
  exact ⟨hfits, hn, hiters, htiles⟩

end PairKernel
end WaspSim
