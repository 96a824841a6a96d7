import Mathlib.Algebra.BigOperators.Fin
import Mathlib.Tactic.Common

/-!
# Demands on capacities

How many equal demands a capacity can serve is a floored quotient, and a top
value stands for a demand of nothing. Several capacities together serve the
smallest of these counts. What the holders of a capacity demand together changes by
what one of them changes.
-/

namespace WaspSim

/-- How many demands a capacity serves; `top` stands for any number. -/
def quota (top capacity demand : Nat) : Nat := if 0 < demand then capacity / demand else top

variable {top capacity demand n : Nat}

/-- Counts up to the top are served exactly when their total demand is within the
capacity. -/
theorem le_quota_iff (hn : n ≤ top) : n ≤ quota top capacity demand ↔ n * demand ≤ capacity := by
  unfold quota
  split
  · rename_i hpos
    exact Nat.le_div_iff_mul_le hpos
  · rename_i hzero
    obtain rfl : demand = 0 := by omega
    simp [hn]

/-- `quota` of integers. -/
def intQuota (top capacity demand : Int) : Int :=
  if demand ≠ 0 then capacity.fdiv demand else top

section

variable {top capacity demand n : Int}

/-- So many demands fit as the quota says. -/
theorem le_intQuota_iff (hdemand : 0 ≤ demand) (hcapacity : 0 ≤ capacity) (hn : n ≤ top) :
    n ≤ intQuota top capacity demand ↔ n * demand ≤ capacity := by
  unfold intQuota
  split
  · rename_i hne
    rw [Int.fdiv_eq_ediv_of_nonneg _ hdemand]
    exact Int.le_ediv_iff_mul_le (by omega)
  · rename_i hzero
    obtain rfl : demand = 0 := by omega
    simp [hn, hcapacity]

/-- A demand below zero leaves nothing. -/
theorem intQuota_neg (hdemand : demand < 0) (hcapacity : 0 < capacity) :
    intQuota top capacity demand < 0 := by
  unfold intQuota
  rw [if_pos (by omega), ← Int.neg_fdiv_neg]
  exact Int.fdiv_neg_of_neg_of_pos (by omega) (by omega)

/-- Below a positive limit the limit is the largest count; a limit raised to one is the
largest count when one fits at all. -/
theorem max_one_largest_iff {p : Int → Prop} {limit : Int}
    (h : ∀ k, 1 ≤ k → (p k ↔ k ≤ limit)) :
    (p (max 1 limit) ∧ ∀ k, max 1 limit < k → ¬p k) ↔ p 1 := by
  constructor
  · rintro ⟨hfits, -⟩
    rw [h _ (Int.le_max_left _ _)] at hfits
    exact (h 1 (Int.le_refl 1)).mpr (by omega)
  · intro hone
    have hlimit := (h 1 (Int.le_refl 1)).mp hone
    constructor
    · exact (h _ (Int.le_max_left _ _)).mpr (by omega)
    · intro k hk hfits
      have hle := (h k (by omega)).mp hfits
      omega

end

/-- The total demand after one holder has changed. -/
theorem sum_update {ι α : Type*} [DecidableEq ι] {I : Finset ι} {i : ι} (hi : i ∈ I) (c : ι → α)
    (a : α) (w : α → Nat) :
    ∑ j ∈ I, w (Function.update c i a j) + w (c i) = ∑ j ∈ I, w (c j) + w a := by
  rw [← Finset.add_sum_erase I (fun j => w (Function.update c i a j)) hi,
    ← Finset.add_sum_erase I (fun j => w (c j)) hi, Function.update_self]
  have hrest : ∑ j ∈ I.erase i, w (Function.update c i a j) = ∑ j ∈ I.erase i, w (c j) := by
    apply Finset.sum_congr rfl
    intro j hj
    rw [Function.update_of_ne (Finset.ne_of_mem_erase hj)]
  omega

end WaspSim
