import Mathlib.Logic.Function.Basic
import WaspSim.Core.Checked

/-!
# First fit in a bitset

A search for a free range among the multiples of its own size. The search tests
bits up to the first occupied one of each candidate and looks only at where a
candidate starts, so a range that it finds may end beyond the limit. Testing a
bit beyond the bitset is an error.

The owners of disjoint ranges fill a bitset when its bits are the union of the
ranges. A free range may be given to a new owner and is free again after it.
-/

namespace WaspSim

universe u

variable {ε : Type u} {e : ε} {size limit n fuel start r : Nat} {occupied : Nat → Bool}

/-- Test `n` bits from `start` on, up to the first occupied one. -/
def rangeFree (e : ε) (size : Nat) (occupied : Nat → Bool) : Nat → Nat → Except ε Bool
  | 0, _ => pure true
  | n + 1, start => do
    require e (start < size)
    if occupied start then pure false else rangeFree e size occupied n (start + 1)

/-- The first of the candidates `start`, `start + n`, … below `limit` whose `n` bits are
free. -/
def firstFit (e : ε) (size : Nat) (occupied : Nat → Bool) (limit n : Nat) :
    Nat → Nat → Except ε (Option Nat)
  | 0, _ => pure none
  | fuel + 1, start =>
    if limit ≤ start then pure none
    else do
      let free ← rangeFree e size occupied n start
      if free then pure (some start) else firstFit e size occupied limit n fuel (start + n)

/-- The bits of a range are in the bitset and free. -/
def Free (size : Nat) (occupied : Nat → Bool) (start n : Nat) : Prop :=
  ∀ t, start ≤ t → t < start + n → t < size ∧ occupied t = false

/-- The search accepts a start where the range is free. -/
theorem rangeFree_eq_true : rangeFree e size occupied n start = .ok true ↔
    Free size occupied start n := by
  induction n generalizing start with
  | zero =>
    constructor
    · intro _ t hlo hhi
      omega
    · intro _
      rfl
  | succ n ih =>
    simp only [rangeFree, bind_eq_ok, require_eq_ok]
    constructor
    · rintro ⟨_, hsize, h⟩ t hlo hhi
      cases hocc : occupied start with
      | true => simp [hocc] at h
      | false =>
        simp only [hocc, Bool.false_eq_true, ↓reduceIte, ih] at h
        rcases Nat.eq_or_lt_of_le hlo with rfl | hlt
        · exact ⟨hsize, hocc⟩
        · exact h t hlt (by omega)
    · intro h
      obtain ⟨hsize, hocc⟩ := h start Nat.le.refl (by omega)
      refine ⟨(), hsize, ?_⟩
      simp only [hocc, Bool.false_eq_true, ↓reduceIte, ih]
      intro t hlo hhi
      exact h t (by omega) (by omega)

/-- A range that is not free has an occupied bit. -/
theorem exists_occupied (h : rangeFree e size occupied n start = .ok false) :
    ∃ t, start ≤ t ∧ t < start + n ∧ occupied t = true := by
  induction n generalizing start with
  | zero => cases h
  | succ n ih =>
    simp only [rangeFree, bind_eq_ok, require_eq_ok] at h
    obtain ⟨_, _, h⟩ := h
    cases hocc : occupied start with
    | true => exact ⟨start, Nat.le.refl, by omega, hocc⟩
    | false =>
      simp only [hocc, Bool.false_eq_true, ↓reduceIte] at h
      obtain ⟨t, hlo, hhi, ht⟩ := ih h
      exact ⟨t, by omega, by omega, ht⟩

/-- The test stops only at the end of the bitset. -/
theorem rangeFree_error {e' : ε} (h : rangeFree e size occupied n start = .error e') : e' = e := by
  induction n generalizing start with
  | zero => cases h
  | succ n ih =>
    rw [rangeFree] at h
    by_cases hin : start < size
    · rw [require, if_pos hin] at h
      change (if occupied start = true then pure false
        else rangeFree e size occupied n (start + 1)) = _ at h
      split at h
      · cases h
      · exact ih h
    · rw [require, if_neg hin] at h
      exact (Except.error.inj h).symm

/-- The search stops only at the end of the bitset. -/
theorem firstFit_error {e' : ε} (h : firstFit e size occupied limit n fuel start = .error e') :
    e' = e := by
  induction fuel generalizing start with
  | zero => cases h
  | succ fuel ih =>
    rw [firstFit] at h
    split at h
    · cases h
    · cases hfree : rangeFree e size occupied n start with
      | error e₁ =>
        rw [hfree] at h
        rw [← Except.error.inj h]
        exact rangeFree_error hfree
      | ok free =>
        rw [hfree] at h
        cases free with
        | true => cases h
        | false => exact ih h

/-- A found range starts below the limit at a multiple of its size and is free, and every
earlier candidate is occupied somewhere. -/
theorem firstFit_eq_some (h : firstFit e size occupied limit n fuel start = .ok (some r)) :
    ∃ m, r = start + m * n ∧ r < limit ∧ Free size occupied r n ∧
      ∀ j < m, ∃ t, start + j * n ≤ t ∧ t < start + j * n + n ∧ occupied t = true := by
  induction fuel generalizing start with
  | zero => cases h
  | succ fuel ih =>
    unfold firstFit at h
    split at h
    · cases h
    · rename_i hlimit
      simp only [bind_eq_ok] at h
      obtain ⟨free, hfree, h⟩ := h
      cases free with
      | true =>
        simp only [↓reduceIte, pure_eq_ok, Option.some.injEq] at h
        subst h
        exact ⟨0, by omega, by omega, rangeFree_eq_true.mp hfree, fun j hj => by omega⟩
      | false =>
        simp only [Bool.false_eq_true, ↓reduceIte] at h
        obtain ⟨m, rfl, hlt, hrange, hearlier⟩ := ih h
        refine ⟨m + 1, by rw [Nat.succ_mul]; omega, hlt, hrange, fun j hj => ?_⟩
        cases j with
        | zero =>
          rw [Nat.zero_mul, Nat.add_zero]
          exact exists_occupied hfree
        | succ j =>
          have hj' := hearlier j (by omega)
          rw [Nat.succ_mul, show start + (j * n + n) = start + n + j * n by omega]
          exact hj'

/-- A free candidate bounds what the search finds. -/
theorem firstFit_le (h : firstFit e size occupied limit n fuel 0 = .ok (some r)) {m : Nat}
    (hfree : ∀ t, m * n ≤ t → t < m * n + n → occupied t = false) : r ≤ m * n := by
  obtain ⟨j, rfl, _, _, hearlier⟩ := firstFit_eq_some h
  rw [Nat.zero_add]
  by_contra hlt
  have hmj : m < j := by
    by_contra hle
    exact hlt (Nat.mul_le_mul_right n (by omega))
  obtain ⟨t, hlo, hhi, ht⟩ := hearlier m hmj
  rw [hfree t (by omega) (by omega)] at ht
  cases ht

/-- After `k` ranges from the start on, the search finds the next one. -/
theorem firstFit_prefix {k : Nat} (hn : 0 < n) (hlimit : (k + 1) * n ≤ limit)
    (hsize : limit ≤ size) (hfuel : limit ≤ fuel) :
    firstFit e size (fun t => decide (t < k * n)) limit n fuel 0 = .ok (some (k * n)) := by
  suffices hall : ∀ d j fuel, j + d = k → d < fuel →
      firstFit e size (fun t => decide (t < k * n)) limit n fuel (j * n) = .ok (some (k * n)) by
    have hk : k < fuel :=
      calc k < k + 1 := Nat.lt_succ_self k
        _ ≤ (k + 1) * n := Nat.le_mul_of_pos_right _ hn
        _ ≤ fuel := Nat.le_trans hlimit hfuel
    simpa using hall k 0 fuel (by omega) hk
  intro d
  have hkn : k * n + n = (k + 1) * n := (Nat.succ_mul k n).symm
  induction d with
  | zero =>
    intro j fuel hj hfuel
    obtain ⟨fuel, rfl⟩ : ∃ f, fuel = f + 1 := ⟨fuel - 1, by omega⟩
    obtain rfl : j = k := hj
    have hfree : rangeFree e size (fun t => decide (t < j * n)) n (j * n) = .ok true := by
      refine rangeFree_eq_true.mpr fun t hlo hhi => ⟨by omega, ?_⟩
      exact decide_eq_false (by omega)
    rw [firstFit, if_neg (by omega), hfree]
    rfl
  | succ d ih =>
    intro j fuel hj hfuel
    obtain ⟨fuel, rfl⟩ : ∃ f, fuel = f + 1 := ⟨fuel - 1, by omega⟩
    have hjk : (j + 1) * n ≤ k * n := Nat.mul_le_mul_right n (by omega)
    rw [Nat.succ_mul] at hjk
    have hocc : rangeFree e size (fun t => decide (t < k * n)) n (j * n) = .ok false := by
      obtain ⟨n', rfl⟩ : ∃ n', n = n' + 1 := ⟨n - 1, by omega⟩
      have hlt : j * (n' + 1) < k * (n' + 1) := by omega
      have hin : j * (n' + 1) < size := by omega
      simp only [rangeFree, require, hin, hlt, ↓reduceIte, decide_true]
      rfl
    rw [firstFit, if_neg (by omega), hocc]
    have hnext := ih (j + 1) fuel (by omega) (by omega)
    rw [Nat.succ_mul] at hnext
    exact hnext

section

variable {ι : Type*} {bits : Nat → Bool} {range : ι → Option (Nat × Nat)} {i : ι} {a m t : Nat}

/-- A bit is in the range of an owner. -/
def InRange (range : ι → Option (Nat × Nat)) (i : ι) (t : Nat) : Prop :=
  ∃ a m, range i = some (a, m) ∧ a ≤ t ∧ t < a + m

/-- The bits are the disjoint union of the ranges. -/
structure Packed (bits : Nat → Bool) (range : ι → Option (Nat × Nat)) : Prop where
  bit_iff : ∀ t, bits t = true ↔ ∃ i, InRange range i t
  disjoint : ∀ i j t, InRange range i t → InRange range j t → i = j

/-- A range that is there covers its places. -/
theorem inRange_iff (hi : range i = some (a, m)) : InRange range i t ↔ a ≤ t ∧ t < a + m := by
  constructor
  · rintro ⟨a', m', hi', h⟩
    rw [hi, Option.some.injEq, Prod.mk.injEq] at hi'
    rcases hi' with ⟨rfl, rfl⟩
    exact h
  · intro h
    exact ⟨a, m, hi, h⟩

/-- A range that is not there covers no place. -/
theorem not_inRange (hi : range i = none) : ¬InRange range i t := by
  rintro ⟨a, m, hi', _⟩
  rw [hi] at hi'
  cases hi'

variable [DecidableEq ι]

/-- Another range covers what it did. -/
theorem inRange_update_of_ne {i j : ι} (h : j ≠ i) (r : Option (Nat × Nat)) :
    InRange (Function.update range i r) j t ↔ InRange range j t := by
  unfold InRange
  rw [Function.update_of_ne h]

namespace Packed

/-- A free range may be added. -/
theorem insert (h : Packed bits range) (hi : range i = none)
    (hfree : ∀ t, a ≤ t → t < a + m → bits t = false) :
    Packed (fun t => if a ≤ t ∧ t < a + m then true else bits t)
      (Function.update range i (some (a, m))) := by
  have hself : ∀ t, InRange (Function.update range i (some (a, m))) i t ↔ a ≤ t ∧ t < a + m :=
    fun t => inRange_iff (Function.update_self i _ range)
  -- an owner from before has none of the new bits
  have hold : ∀ j t, j ≠ i → InRange (Function.update range i (some (a, m))) j t →
      ¬(a ≤ t ∧ t < a + m) := by
    intro j t hne hj hnew
    have hbit := (h.bit_iff t).mpr ⟨j, (inRange_update_of_ne hne _).mp hj⟩
    rw [hfree t hnew.1 hnew.2] at hbit
    cases hbit
  constructor
  · intro t
    by_cases hnew : a ≤ t ∧ t < a + m
    · rw [if_pos hnew]
      exact ⟨fun _ => ⟨i, (hself t).mpr hnew⟩, fun _ => rfl⟩
    · rw [if_neg hnew, h.bit_iff]
      constructor
      · rintro ⟨j, hj⟩
        have hne : j ≠ i := by
          rintro rfl
          exact not_inRange hi hj
        exact ⟨j, (inRange_update_of_ne hne _).mpr hj⟩
      · rintro ⟨j, hj⟩
        have hne : j ≠ i := by
          rintro rfl
          exact hnew ((hself t).mp hj)
        exact ⟨j, (inRange_update_of_ne hne _).mp hj⟩
  · intro j l t hj hl
    by_cases hji : j = i
    · by_cases hli : l = i
      · rw [hji, hli]
      · rw [hji] at hj
        exact absurd ((hself t).mp hj) (hold l t hli hl)
    · by_cases hli : l = i
      · rw [hli] at hl
        exact absurd ((hself t).mp hl) (hold j t hji hj)
      · exact h.disjoint j l t ((inRange_update_of_ne hji _).mp hj)
          ((inRange_update_of_ne hli _).mp hl)

/-- A range may be taken away. -/
theorem remove (h : Packed bits range) (hi : range i = some (a, m)) :
    Packed (fun t => if a ≤ t ∧ t < a + m then false else bits t)
      (Function.update range i none) := by
  have hself : ∀ t, ¬InRange (Function.update range i none) i t :=
    fun t => not_inRange (Function.update_self i _ range)
  constructor
  · intro t
    by_cases hold : a ≤ t ∧ t < a + m
    · rw [if_pos hold]
      constructor
      · intro hbit
        cases hbit
      · rintro ⟨j, hj⟩
        have hne : j ≠ i := by
          rintro rfl
          exact hself t hj
        exact absurd (h.disjoint j i t ((inRange_update_of_ne hne _).mp hj)
          ((inRange_iff hi).mpr hold)) hne
    · rw [if_neg hold, h.bit_iff]
      constructor
      · rintro ⟨j, hj⟩
        have hne : j ≠ i := by
          rintro rfl
          exact hold ((inRange_iff hi).mp hj)
        exact ⟨j, (inRange_update_of_ne hne _).mpr hj⟩
      · rintro ⟨j, hj⟩
        have hne : j ≠ i := by
          rintro rfl
          exact hself t hj
        exact ⟨j, (inRange_update_of_ne hne _).mp hj⟩
  · intro j l t hj hl
    have hne : ∀ j, InRange (Function.update range i none) j t → j ≠ i := by
      rintro j hj rfl
      exact hself t hj
    exact h.disjoint j l t ((inRange_update_of_ne (hne j hj) _).mp hj)
      ((inRange_update_of_ne (hne l hl) _).mp hl)

omit [DecidableEq ι] in

/-- Without ranges no place is occupied. -/
theorem eq_false (h : Packed bits range) (hnone : ∀ i, range i = none) (t : Nat) :
    bits t = false := by
  rw [← Bool.not_eq_true, h.bit_iff]
  rintro ⟨i, hi⟩
  exact not_inRange (hnone i) hi

end Packed

end

end WaspSim
