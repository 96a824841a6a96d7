import WaspSim.Core.Capacity

/-!
# Ranges of a table

A range of the entries of a table is replaced at once, and the flags that are set in a range are
counted. Entries outside the range do not matter to the count, and one entry changes it by one.
-/

namespace WaspSim

section

variable {α : Type*} {a : Nat → α} {start n i : Nat} {f : Nat → α}

/-- The table `a` with the `n` entries from `start` on replaced by those of `f`. -/
def overlay (a : Nat → α) (start n : Nat) (f : Nat → α) (i : Nat) : α :=
  if start ≤ i ∧ i < start + n then f (i - start) else a i

theorem overlay_zero : overlay a start 0 f = a := by
  funext i
  exact if_neg (by omega)

/-- Entry by entry the range is replaced. -/
theorem overlay_succ :
    overlay a start (n + 1) f = Function.update (overlay a start n f) (start + n) (f n) := by
  funext i
  unfold overlay
  by_cases hi : i = start + n
  · rw [hi, Function.update_self, if_pos (by omega), Nat.add_sub_cancel_left]
  · rw [Function.update_of_ne hi]
    by_cases hin : start ≤ i ∧ i < start + n
    · rw [if_pos hin, if_pos (by omega)]
    · rw [if_neg hin, if_neg (by omega)]

/-- Inside its range the new table is read. -/
theorem overlay_inside {t : Nat} (ht : t < n) : overlay a start n f (start + t) = f t := by
  rw [overlay, if_pos (by omega), Nat.add_sub_cancel_left]

/-- Outside its range the old table is read. -/
theorem overlay_outside (h : ¬(start ≤ i ∧ i < start + n)) : overlay a start n f i = a i := if_neg h

end

variable {p q : Nat → Bool} {start n i : Nat} {b : Bool}

/-- How many flags are set among the `n` from `start` on. -/
def countIn (p : Nat → Bool) (start n : Nat) : Nat :=
  ∑ t ∈ Finset.range n, (p (start + t)).toNat

/-- The count depends on the range only. -/
theorem countIn_congr (h : ∀ t < n, p (start + t) = q (start + t)) :
    countIn p start n = countIn q start n :=
  Finset.sum_congr rfl fun t ht => by rw [h t (Finset.mem_range.mp ht)]

/-- The count of a range that holds throughout. -/
theorem countIn_all (h : ∀ t < n, p (start + t) = true) : countIn p start n = n := by
  calc countIn p start n = ∑ _t ∈ Finset.range n, 1 :=
        Finset.sum_congr rfl fun t ht => by rw [h t (Finset.mem_range.mp ht), Bool.toNat_true]
    _ = n := by rw [Finset.sum_const, Finset.card_range, smul_eq_mul, Nat.mul_one]

/-- The count is zero when nothing in the range holds. -/
theorem countIn_eq_zero : countIn p start n = 0 ↔ ∀ t < n, p (start + t) = false := by
  simp only [countIn, Finset.sum_eq_zero_iff, Finset.mem_range, Bool.toNat_eq_zero]

/-- A flag inside the range counts with its new value. -/
theorem countIn_update_inside (hlo : start ≤ i) (hhi : i < start + n) :
    countIn (Function.update p i b) start n + (p i).toNat = countIn p start n + b.toNat := by
  obtain ⟨t, rfl⟩ := Nat.exists_eq_add_of_le hlo
  have hmoved : ∀ j, Function.update p (start + t) b (start + j) =
      Function.update (fun j => p (start + j)) t b j := by
    intro j
    by_cases hj : j = t
    · rw [hj, Function.update_self, Function.update_self]
    · rw [Function.update_of_ne hj, Function.update_of_ne (by omega)]
  have hsum := sum_update (Finset.mem_range.mpr (Nat.lt_of_add_lt_add_left hhi))
    (fun j => p (start + j)) b Bool.toNat
  simp only [countIn, hmoved]
  exact hsum

end WaspSim
