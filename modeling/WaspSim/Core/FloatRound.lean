import Mathlib.Algebra.Order.Floor.Ring
import Mathlib.Algebra.Order.Round
import Mathlib.Data.Int.Log
import Mathlib.Data.Rat.Floor
import Mathlib.Tactic.FieldSimp
import Mathlib.Tactic.Linarith
import Mathlib.Tactic.Positivity

/-!
# Rounding to a number of significant bits

Floating-point arithmetic on rationals in the range of normal numbers: the exact
result, rounded to the nearest number of `p` significant bits, ties to even.
-/

namespace WaspSim

/-- The nearest integer, the even one of two. -/
def roundHalfEven (x : ℚ) : ℤ :=
  let below := ⌊x⌋
  if x - below < 1 / 2 then below
  else if 1 / 2 < x - below then below + 1
  else if 2 ∣ below then below
  else below + 1

/-- Rounding moves a number by one half at most. -/
theorem abs_roundHalfEven_sub_le (x : ℚ) : |(roundHalfEven x : ℚ) - x| ≤ 1 / 2 := by
  have hlow := Int.floor_le x
  have hhigh := Int.lt_floor_add_one x
  rw [abs_le]
  unfold roundHalfEven
  dsimp only
  split
  · constructor
    · linarith
    · linarith
  · split
    · push_cast
      constructor
      · linarith
      · linarith
    · split
      · constructor
        · linarith
        · linarith
      · push_cast
        constructor
        · linarith
        · linarith

/-- The nearest number of `p` significant bits. -/
def roundSig (p : Nat) (x : ℚ) : ℚ :=
  if x = 0 then 0
  else
    let ulp : ℚ := 2 ^ (Int.log 2 |x| + 1 - p)
    roundHalfEven (x / ulp) * ulp

/-- The relative error of a rounding is at most half a unit in the last place. -/
theorem abs_roundSig_sub_le (p : Nat) (x : ℚ) : |roundSig p x - x| ≤ |x| / 2 ^ p := by
  unfold roundSig
  split
  · rename_i hzero
    simp [hzero]
  · rename_i hne
    have hpos : 0 < |x| := abs_pos.mpr hne
    have hlog : (2 : ℚ) ^ Int.log 2 |x| ≤ |x| := by
      exact_mod_cast Int.zpow_log_le_self (b := 2) one_lt_two hpos
    generalize hulp : (2 : ℚ) ^ (Int.log 2 |x| + 1 - (p : ℤ)) = ulp
    have hulp_pos : 0 < ulp := by
      rw [← hulp]
      exact zpow_pos two_pos _
    have hulp_le : ulp / 2 ≤ |x| / 2 ^ p := by
      have hsplit : ulp = 2 ^ Int.log 2 |x| * 2 / 2 ^ p := by
        rw [← hulp, zpow_sub₀ two_ne_zero, zpow_add_one₀ two_ne_zero, zpow_natCast]
      have hhalf : ulp / 2 = 2 ^ Int.log 2 |x| / 2 ^ p := by
        rw [hsplit]
        ring
      rw [hhalf]
      gcongr
    have hscaled : (roundHalfEven (x / ulp) : ℚ) * ulp - x =
        ((roundHalfEven (x / ulp) : ℚ) - x / ulp) * ulp := by
      field_simp
    calc
      |(roundHalfEven (x / ulp) : ℚ) * ulp - x| =
          |(roundHalfEven (x / ulp) : ℚ) - x / ulp| * ulp := by
        rw [hscaled, abs_mul, abs_of_pos hulp_pos]
      _ ≤ 1 / 2 * ulp := by
        gcongr
        exact abs_roundHalfEven_sub_le _
      _ = ulp / 2 := by ring
      _ ≤ |x| / 2 ^ p := hulp_le

variable {p : Nat} {x : ℚ}

/-- A rounded number is larger by at most the relative error. -/
theorem roundSig_le (hx : 0 ≤ x) : roundSig p x ≤ x * (1 + 1 / 2 ^ p) := by
  have herr := (abs_le.mp (abs_roundSig_sub_le p x)).2
  rw [abs_of_nonneg hx] at herr
  calc
    roundSig p x ≤ x + x / 2 ^ p := by linarith
    _ = x * (1 + 1 / 2 ^ p) := by ring

/-- A rounded number is smaller by at most the relative error. -/
theorem le_roundSig (hx : 0 ≤ x) : x * (1 - 1 / 2 ^ p) ≤ roundSig p x := by
  have herr := (abs_le.mp (abs_roundSig_sub_le p x)).1
  rw [abs_of_nonneg hx] at herr
  calc
    x * (1 - 1 / 2 ^ p) = x - x / 2 ^ p := by ring
    _ ≤ roundSig p x := by linarith

/-- Rounding keeps the sign. -/
theorem roundSig_nonneg (hx : 0 ≤ x) : 0 ≤ roundSig p x := by
  have hunit : (1 : ℚ) / 2 ^ p ≤ 1 := by
    rw [div_le_one (by positivity)]
    exact one_le_pow₀ one_le_two
  exact (mul_nonneg hx (by linarith)).trans (le_roundSig hx)

/-- A third in single precision. -/
example : roundSig 24 (1 / 3) = 11184811 / 33554432 := by decide +kernel

end WaspSim
