import Mathlib.Data.Nat.ModEq
import WaspSim.Core.Text

/-!
# Decimal digits

A run of decimal digits denotes a number, and two runs denote the same number exactly
when they agree behind their leading zeros. `atoi` keeps less than that: it stops at the
largest 64-bit number and drops all but 32 bits.
-/

namespace WaspSim
namespace Text

/-- The digits behind the leading zeros. -/
def significant (ds : List Char) : List Char := ds.dropWhile (· = '0')

theorem digitsValue_eq_ofDigitChars (ds : List Char) : digitsValue ds = Nat.ofDigitChars 10 ds 0 :=
  rfl

/-- A last digit counts once, and those before it ten times. -/
theorem digitsValue_append_singleton (ds : List Char) (c : Char) :
    digitsValue (ds ++ [c]) = 10 * digitsValue ds + (c.toNat - 48) := by
  rw [digitsValue, List.foldl_append]
  rfl

/-- Leading zeros denote nothing. -/
theorem digitsValue_significant (ds : List Char) :
    digitsValue (significant ds) = digitsValue ds := by
  induction ds with
  | nil => rfl
  | cons c ds ih =>
    by_cases hc : c = '0'
    · subst hc
      exact ih
    · rw [significant, List.dropWhile_cons_of_neg (by simpa using hc)]

/-- The significant digits do not begin with a zero. -/
theorem significant_head (ds : List Char) : (significant ds).head? ≠ some '0' := by
  intro h
  have hnot := List.head?_dropWhile_not (fun c : Char => decide (c = '0')) ds
  unfold significant at h
  rw [h] at hnot
  simp at hnot

theorem mem_of_mem_significant {ds : List Char} {c : Char} (h : c ∈ significant ds) : c ∈ ds :=
  (List.dropWhile_sublist _).subset h

/-- The value of a digit. -/
theorem toNat_of_isDigit {c : Char} (h : c.isDigit = true) :
    c.toNat - 48 < 10 ∧ Nat.digitChar (c.toNat - 48) = c := by
  simp only [Char.isDigit, Bool.and_eq_true, decide_eq_true_eq, UInt32.le_iff_toNat_le] at h
  have hlow : 48 ≤ c.toNat := h.1
  have hhigh : c.toNat ≤ 57 := h.2
  have hlt : c.toNat - 48 < 10 := by omega
  refine ⟨hlt, ?_⟩
  apply Char.toNat_inj.mp
  rw [Nat.toNat_digitChar_of_lt_ten hlt]
  omega

/-- Digits without a leading zero are the decimal writing of their number. -/
theorem toDigits_digitsValue {ds : List Char} (hdigits : ∀ c ∈ ds, c.isDigit = true)
    (hhead : ds.head? ≠ some '0') (hne : ds ≠ []) : Nat.toDigits 10 (digitsValue ds) = ds := by
  induction ds using List.reverseRecOn with
  | nil => exact absurd rfl hne
  | append_singleton ds c ih =>
    obtain ⟨hlt, hchar⟩ := toNat_of_isDigit (hdigits c (by simp))
    rw [digitsValue_append_singleton]
    by_cases hds : ds = []
    · subst hds
      have hvalue : 10 * digitsValue [] + (c.toNat - 48) = c.toNat - 48 := Nat.zero_add _
      rw [hvalue, Nat.toDigits_of_lt_base hlt, hchar]
      rfl
    · have hhead' : ds.head? ≠ some '0' := by
        intro h
        apply hhead
        rw [List.head?_append, h]
        rfl
      have hprefix := ih (fun c hc => hdigits c (List.mem_append_left _ hc)) hhead' hds
      have hpos : 0 < digitsValue ds := by
        rw [Nat.pos_iff_ne_zero]
        intro hzero
        rw [hzero, Nat.toDigits_zero] at hprefix
        exact hhead' (by rw [← hprefix]; rfl)
      rw [← Nat.toDigits_append_toDigits (by decide) hpos hlt, hprefix,
        Nat.toDigits_of_lt_base hlt, hchar]

/-- Digits denote the same number exactly when they agree behind their leading zeros. -/
theorem digitsValue_eq_iff {ds es : List Char} (hds : ∀ c ∈ ds, c.isDigit = true)
    (hes : ∀ c ∈ es, c.isDigit = true) :
    digitsValue ds = digitsValue es ↔ significant ds = significant es := by
  constructor
  · intro h
    rw [← digitsValue_significant ds, ← digitsValue_significant es] at h
    have hwriting : ∀ {ds : List Char}, (∀ c ∈ ds, c.isDigit = true) → significant ds ≠ [] →
        Nat.toDigits 10 (digitsValue (significant ds)) = significant ds :=
      fun hds => toDigits_digitsValue (fun c hc => hds c (mem_of_mem_significant hc))
        (significant_head _)
    have hzero : ∀ {ds : List Char}, (∀ c ∈ ds, c.isDigit = true) →
        digitsValue (significant ds) = 0 → significant ds = [] := by
      intro ds hds hvalue
      by_contra hne
      have hdigits := hwriting hds hne
      rw [hvalue, Nat.toDigits_zero] at hdigits
      exact significant_head ds (by rw [← hdigits]; rfl)
    by_cases hempty : significant ds = []
    · rw [hempty] at h ⊢
      exact (hzero hes h.symm).symm
    · have hempty' : significant es ≠ [] := by
        intro hes'
        rw [hes'] at h
        exact hempty (hzero hds h)
      rw [← hwriting hds hempty, ← hwriting hes hempty', h]
  · intro h
    rw [← digitsValue_significant ds, ← digitsValue_significant es, h]

/-- Numbers of which one at least is too large for 32 bits, and which `atoi` cuts to the
same bits. -/
def WrapsOnto (ds es : List Char) : Prop :=
  (4294967296 ≤ digitsValue ds ∨ 4294967296 ≤ digitsValue es) ∧
    min (digitsValue ds) 9223372036854775807 ≡ min (digitsValue es) 9223372036854775807
      [MOD 4294967296]

/-- When `atoi` reads the same number from two runs of digits. -/
theorem atoi_eq_iff {ds es : List Char} (hds : ∀ c ∈ ds, c.isDigit = true)
    (hes : ∀ c ∈ es, c.isDigit = true) :
    atoi ds = atoi es ↔ significant ds = significant es ∨ WrapsOnto ds es := by
  rw [← digitsValue_eq_iff hds hes]
  unfold atoi WrapsOnto Nat.ModEq
  constructor
  · intro h
    by_cases hsmall : digitsValue ds < 4294967296 ∧ digitsValue es < 4294967296
    · left
      omega
    · right
      exact ⟨by omega, h⟩
  · rintro (h | ⟨-, h⟩)
    · rw [h]
    · exact h

/-- `atoi` reads back the decimal writing of a 32-bit number. -/
theorem atoi_toDigits {n : Nat} (hn : n < 4294967296) : atoi (Nat.toDigits 10 n) = n := by
  rw [atoi, digitsValue_eq_ofDigitChars, Nat.ofDigitChars_ten_toDigits]
  omega

end Text
end WaspSim
