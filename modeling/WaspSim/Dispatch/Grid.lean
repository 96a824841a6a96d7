import Mathlib.Algebra.Order.Group.Nat

/-!
# Grids

The CTAs of a grid and the threads of a block are taken one after another, x first, then y,
then z. The `n`-th position is known in closed form, and the count through all of them ends
exactly where the code takes the grid to be used up.
-/

namespace WaspSim

/-- `dim3`. -/
structure Dim3 where
  x : Nat
  y : Nat
  z : Nat
  deriving DecidableEq, Repr

namespace Dim3

variable {bound : Dim3} {n : Nat}

/-- `increment_x_then_y_then_z`. -/
def incrementXThenYThenZ (i bound : Dim3) : Dim3 :=
  if bound.x ≤ i.x + 1 then
    if bound.y ≤ i.y + 1 then ⟨0, 0, if i.z < bound.z then i.z + 1 else i.z⟩
    else ⟨0, i.y + 1, i.z⟩
  else ⟨i.x + 1, i.y, i.z⟩

/-- `num_blocks` of a grid and `threads_per_cta` of a block. -/
def volume (bound : Dim3) : Nat := bound.x * bound.y * bound.z

/-- `no_more_ctas_to_run`: the position is outside. -/
def past (bound i : Dim3) : Bool := bound.x ≤ i.x || bound.y ≤ i.y || bound.z ≤ i.z

/-- `get_next_cta_id_single` and `get_next_thread_id`. -/
def linear (bound i : Dim3) : Nat := i.x + bound.x * i.y + bound.x * bound.y * i.z

/-- The position after `n` increments. -/
def nth (bound : Dim3) (n : Nat) : Dim3 :=
  ⟨n % bound.x, n / bound.x % bound.y, n / bound.x / bound.y⟩

@[simp] theorem nth_zero : nth bound 0 = ⟨0, 0, 0⟩ := by simp [nth]

/-- The next number either keeps the quotient or carries. -/
theorem succ_div_mod {d : Nat} (hd : 0 < d) (n : Nat) :
    (n % d + 1 < d ∧ (n + 1) % d = n % d + 1 ∧ (n + 1) / d = n / d) ∨
      (n % d + 1 = d ∧ (n + 1) % d = 0 ∧ (n + 1) / d = n / d + 1) := by
  have hsplit := Nat.div_add_mod n d
  have hlt := Nat.mod_lt n hd
  rcases Nat.lt_or_ge (n % d + 1) d with hnext | hcarry
  · have hn : n + 1 = n % d + 1 + d * (n / d) := by omega
    refine .inl ⟨hnext, ?_, ?_⟩
    · rw [hn, Nat.add_mul_mod_self_left, Nat.mod_eq_of_lt hnext]
    · rw [hn, Nat.add_mul_div_left _ _ hd, Nat.div_eq_of_lt hnext, Nat.zero_add]
  · have hd' : n % d + 1 = d := by omega
    have hn : n + 1 = d * (n / d + 1) := by
      rw [Nat.mul_succ]
      omega
    refine .inr ⟨hd', ?_, ?_⟩
    · rw [hn, Nat.mul_mod_right]
    · rw [hn, Nat.mul_div_cancel_left _ hd]

/-- A number below the volume has a position within the bounds. -/
theorem nth_lt (hn : n < bound.volume) :
    0 < bound.x ∧ 0 < bound.y ∧ n / bound.x / bound.y < bound.z := by
  have hpos : 0 < bound.x * bound.y := by
    rcases Nat.eq_zero_or_pos (bound.x * bound.y) with hzero | hpos
    · rw [volume, hzero, Nat.zero_mul] at hn
      cases hn
    · exact hpos
  refine ⟨Nat.pos_of_mul_pos_right hpos, Nat.pos_of_mul_pos_left hpos, ?_⟩
  rw [Nat.div_div_eq_div_mul]
  exact Nat.div_lt_of_lt_mul hn

/-- One increment leads from each position to the next. -/
theorem increment_nth (hn : n < bound.volume) :
    incrementXThenYThenZ (nth bound n) bound = nth bound (n + 1) := by
  obtain ⟨hx, hy, hz⟩ := nth_lt hn
  unfold incrementXThenYThenZ nth
  rcases succ_div_mod hx n with ⟨hlt, hmod, hdiv⟩ | ⟨heq, hmod, hdiv⟩
  · rw [if_neg (Nat.not_le.mpr hlt), hmod, hdiv]
  · rw [if_pos (Nat.le_of_eq heq.symm), hmod, hdiv]
    rcases succ_div_mod hy (n / bound.x) with ⟨hlt, hmod', hdiv'⟩ | ⟨heq', hmod', hdiv'⟩
    · rw [if_neg (Nat.not_le.mpr hlt), hmod', hdiv']
    · rw [if_pos (Nat.le_of_eq heq'.symm), if_pos hz, hmod', hdiv']

theorem past_iff {i : Dim3} :
    past bound i = true ↔ bound.x ≤ i.x ∨ bound.y ≤ i.y ∨ bound.z ≤ i.z := by
  simp [past, or_assoc]

/-- The grid is used up after as many increments as it has positions, and not before. -/
theorem past_nth (hn : n ≤ bound.volume) : past bound (nth bound n) = true ↔ n = bound.volume := by
  constructor
  · intro hpast
    rcases Nat.lt_or_eq_of_le hn with hlt | heq
    · obtain ⟨hx, hy, hz⟩ := nth_lt hlt
      rcases past_iff.mp hpast with hle | hle | hle
      · exact absurd hle (Nat.not_le.mpr (Nat.mod_lt n hx))
      · exact absurd hle (Nat.not_le.mpr (Nat.mod_lt (n / bound.x) hy))
      · exact absurd hle (Nat.not_le.mpr hz)
    · exact heq
  · rintro rfl
    rw [past_iff]
    rcases Nat.eq_zero_or_pos bound.x with hx | hx
    · exact .inl (hx ▸ Nat.zero_le _)
    rcases Nat.eq_zero_or_pos bound.y with hy | hy
    · exact .inr (.inl (hy ▸ Nat.zero_le _))
    refine .inr (.inr ?_)
    have hz : bound.volume / bound.x / bound.y = bound.z := by
      rw [volume, Nat.div_div_eq_div_mul, Nat.mul_div_cancel_left _ (Nat.mul_pos hx hy)]
    exact Nat.le_of_eq hz.symm

/-- The code numbers the positions in the order in which it takes them. -/
theorem linear_nth (n : Nat) : linear bound (nth bound n) = n := by
  have hx := Nat.mod_add_div n bound.x
  have hy := Nat.mod_add_div (n / bound.x) bound.y
  calc linear bound (nth bound n)
      = n % bound.x + bound.x * (n / bound.x % bound.y + bound.y * (n / bound.x / bound.y)) := by
        rw [linear, nth, Nat.mul_add, ← Nat.mul_assoc, Nat.add_assoc]
    _ = n := by rw [hy, hx]

theorem nth_injective : Function.Injective (nth bound) := fun m n h => by
  rw [← @linear_nth bound m, h, linear_nth]

end Dim3

end WaspSim
