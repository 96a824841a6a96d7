import Mathlib.Data.Fintype.EquivFin
import Mathlib.Data.Nat.Find
import Mathlib.Logic.Function.Basic

/-!
# A barrier and a ring of buffers

Threads meet at a barrier again and again. None passes it for the next time before
all have arrived as often, so their numbers of passes differ by at most one, and some
thread can always go on. A ring of cells into which items are stored in order holds
the last ones.
-/

universe u v

namespace WaspSim

section

variable {ι : Type u} {arrived passed : ι → Nat} {i : ι}

/-- How often each thread has arrived at the barrier and how often it has passed. -/
structure Synced (arrived passed : ι → Nat) : Prop where
  passed_le : ∀ i, passed i ≤ arrived i
  arrived_le : ∀ i, arrived i ≤ passed i + 1
  barrier : ∀ i j, passed i ≤ arrived j

namespace Synced

/-- Threads that have not started are in step. -/
theorem start : Synced (fun _ : ι => 0) fun _ => 0 :=
  ⟨fun _ => Nat.le_refl 0, fun _ => Nat.zero_le _, fun _ _ => Nat.le_refl 0⟩

/-- A thread may arrive, and it may pass as often as all have arrived. -/
theorem move [DecidableEq ι] (h : Synced arrived passed) {a p : Nat} (hp : p ≤ a)
    (ha : a ≤ p + 1) (hmore : arrived i ≤ a) (hall : ∀ j, j ≠ i → p ≤ arrived j) :
    Synced (Function.update arrived i a) (Function.update passed i p) := by
  constructor
  · intro j
    by_cases hj : j = i
    · rwa [hj, Function.update_self, Function.update_self]
    · rw [Function.update_of_ne hj, Function.update_of_ne hj]
      exact h.passed_le j
  · intro j
    by_cases hj : j = i
    · rwa [hj, Function.update_self, Function.update_self]
    · rw [Function.update_of_ne hj, Function.update_of_ne hj]
      exact h.arrived_le j
  · intro j k
    by_cases hj : j = i
    · rw [hj, Function.update_self]
      by_cases hk : k = i
      · rwa [hk, Function.update_self]
      · rw [Function.update_of_ne hk]
        exact hall k hk
    · rw [Function.update_of_ne hj]
      by_cases hk : k = i
      · rw [hk, Function.update_self]
        exact (h.barrier j i).trans hmore
      · rw [Function.update_of_ne hk]
        exact h.barrier j k

/-- As long as a thread has not passed for the last time, one of those can arrive or pass. -/
theorem exists_ready (h : Synced arrived passed) {last : Nat} (hi : passed i < last) :
    ∃ j, passed j < last ∧ (arrived j = passed j ∨ ∀ k, passed j < arrived k) := by
  -- a thread that has passed least often
  obtain ⟨j, hj⟩ : ∃ j, ∀ k, passed j ≤ passed k := by
    have hex : ∃ m j, passed j = m := ⟨_, i, rfl⟩
    classical
    obtain ⟨j, hj⟩ := Nat.find_spec hex
    exact ⟨j, fun k => hj ▸ Nat.find_min' hex ⟨k, rfl⟩⟩
  have hlast : passed j < last := (hj i).trans_lt hi
  by_cases hall : ∀ k, passed j < arrived k
  · exact ⟨j, hlast, .inr hall⟩
  · obtain ⟨k, hk⟩ := not_forall.mp hall
    have hle := h.passed_le k
    have hleast := hj k
    exact ⟨k, by omega, .inl (by omega)⟩

end Synced

end

section

variable {β : Type v} {d w c : Nat} {cells item : Nat → β}

/-- Of the `w` items stored in order into a ring of `d` cells, it holds the last `d`. -/
def Buffered (d : Nat) (cells : Nat → β) (w : Nat) (item : Nat → β) : Prop :=
  ∀ c, c < w → w ≤ c + d → cells (c % d) = item c

namespace Buffered

/-- A buffer in which nothing was stored. -/
theorem empty : Buffered d cells 0 item := by
  intro c hc
  exact absurd hc (Nat.not_lt_zero c)

/-- The buffer holds one item more, in the place of an older one. -/
theorem store (h : Buffered d cells w item) :
    Buffered d (Function.update cells (w % d) (item w)) (w + 1) item := by
  intro c hc hd
  rcases Nat.lt_succ_iff_lt_or_eq.mp hc with hlt | rfl
  · have hne : c % d ≠ w % d := by
      intro heq
      have hdvd := Nat.dvd_of_mod_eq_zero (Nat.sub_mod_eq_zero_of_mod_eq heq.symm)
      have hle := Nat.le_of_dvd (by omega) hdvd
      omega
    rw [Function.update_of_ne hne]
    exact h c hlt (by omega)
  · exact Function.update_self _ _ _

end Buffered

end

end WaspSim
