import GoComplexity.Text.Decimal
import Mathlib.Algebra.Order.Ring.Abs
import Mathlib.Algebra.Order.Field.Power
import Mathlib.Data.Rat.Cast.Order
import Mathlib.Tactic.Linarith
import Mathlib.Tactic.NormNum
import Mathlib.Tactic.Positivity

/-!
# Rounding of decimal texts

Zero is the nearest 64-bit binary floating-point number, and the even one of two equally near, exactly up
to half of the least positive number. The comparison of a coefficient and a power of ten with that half
is exact; the shortcut for many places agrees with it. A text without a sign denotes the number that its
digits spell, moved by its exponent.
-/

namespace GoComplexity.Text

/-! ## Binary numbers -/

/-- A finite number of the 64-bit binary format. -/
def IsBinary64 (x : ℚ) : Prop :=
  ∃ significand exponent : ℤ, |significand| < 2 ^ 53 ∧ -1074 ≤ exponent ∧ exponent ≤ 971 ∧
    x = significand * 2 ^ exponent

/-- No binary number is nearer than zero. A tie goes to zero, whose significand is even. -/
def ZeroIsNearest (v : ℚ) : Prop := ∀ x, IsBinary64 x → |v| ≤ |v - x|

/-- Half of the least positive binary number. -/
def halfLeast : ℚ := 2 ^ (-1075 : ℤ)

theorem halfLeast_pos : 0 < halfLeast := zpow_pos two_pos _

theorem two_mul_halfLeast : 2 * halfLeast = 2 ^ (-1074 : ℤ) := by
  rw [halfLeast, ← zpow_one_add₀ two_ne_zero]
  rfl

theorem isBinary64_two_mul_halfLeast : IsBinary64 (2 * halfLeast) := by
  refine ⟨1, -1074, by norm_num, le_rfl, by norm_num, ?_⟩
  rw [two_mul_halfLeast, Int.cast_one, one_mul]

/-- No float but zero is smaller than the least positive one. -/
theorem IsBinary64.two_mul_halfLeast_le_abs {x : ℚ} (h : IsBinary64 x) (hx : x ≠ 0) :
    2 * halfLeast ≤ |x| := by
  obtain ⟨significand, exponent, -, hexponent, -, rfl⟩ := h
  have hsignificand : significand ≠ 0 := by
    rintro rfl
    simp at hx
  have hone : (1 : ℚ) ≤ |(significand : ℚ)| := by
    rw [← Int.cast_abs]
    exact_mod_cast Int.one_le_abs hsignificand
  have hpos : (0 : ℚ) < 2 ^ exponent := zpow_pos two_pos exponent
  calc
    2 * halfLeast = 2 ^ (-1074 : ℤ) := two_mul_halfLeast
    _ ≤ 2 ^ exponent := zpow_le_zpow_right₀ one_le_two hexponent
    _ ≤ |(significand : ℚ)| * 2 ^ exponent := le_mul_of_one_le_left hpos.le hone
    _ = |(significand : ℚ) * 2 ^ exponent| := by rw [abs_mul, abs_of_pos hpos]

/-- Zero is the nearest float up to half of the least positive one; the tie goes to zero. -/
theorem zeroIsNearest_iff {v : ℚ} (hv : 0 ≤ v) : ZeroIsNearest v ↔ v ≤ halfLeast := by
  constructor
  · intro h
    have hnear := h _ isBinary64_two_mul_halfLeast
    rw [abs_of_nonneg hv] at hnear
    rcases le_abs.mp hnear with hnear | hnear
    · linarith [halfLeast_pos]
    · linarith
  · intro h x hx
    by_cases hzero : x = 0
    · rw [hzero, sub_zero]
    · have hfar := hx.two_mul_halfLeast_le_abs hzero
      have htriangle := abs_sub_abs_le_abs_sub x v
      rw [abs_sub_comm x v, abs_of_nonneg hv] at htriangle
      rw [abs_of_nonneg hv]
      linarith

/-! ## Coefficients and powers of ten -/

/-- The bound in integers, without fractions. -/
theorem le_halfLeast_iff (coefficient places : ℕ) :
    (coefficient : ℚ) * 10 ^ (-(places : ℤ)) ≤ halfLeast ↔ coefficient * 2 ^ 1075 ≤ 10 ^ places := by
  have hten : (0 : ℚ) < 10 ^ places := by positivity
  have htwo : (0 : ℚ) < 2 ^ 1075 := by positivity
  rw [halfLeast, zpow_neg, zpow_natCast, ← div_eq_mul_inv,
    show (2 : ℚ) ^ (-1075 : ℤ) = 1 / 2 ^ 1075 by rw [one_div]; exact zpow_neg 2 1075,
    div_le_div_iff₀ hten htwo, one_mul]
  exact_mod_cast Iff.rfl

/-- A coefficient that is short against the places need not be multiplied out. -/
theorem mul_le_pow_of_length_lt {coefficient places : ℕ}
    (h : (Nat.toDigits 10 coefficient).length + 400 < places) :
    coefficient * 2 ^ 1075 ≤ 10 ^ places := by
  have hlength : coefficient < 10 ^ (Nat.toDigits 10 coefficient).length :=
    (Nat.length_toDigits_le_iff (by decide) (List.length_pos_iff.mpr Nat.toDigits_ne_nil)).mp le_rfl
  calc
    coefficient * 2 ^ 1075 ≤ 10 ^ (Nat.toDigits 10 coefficient).length * 10 ^ 400 :=
      Nat.mul_le_mul hlength.le (by decide +kernel)
    _ = 10 ^ ((Nat.toDigits 10 coefficient).length + 400) := (pow_add ..).symm
    _ ≤ 10 ^ places := Nat.pow_le_pow_right (by decide) h.le

/-- The integer test says whether a decimal rounds to zero. -/
theorem roundsToZero_eq_true_iff (coefficient : ℕ) (exponent : ℤ) :
    roundsToZero coefficient exponent = true ↔ ZeroIsNearest ((coefficient : ℚ) * 10 ^ exponent) := by
  rw [zeroIsNearest_iff (by positivity)]
  unfold roundsToZero
  by_cases hzero : coefficient = 0
  · simp [hzero, halfLeast_pos.le]
  by_cases hexponent : 0 ≤ exponent
  · have hone : (1 : ℚ) ≤ coefficient := Nat.one_le_cast.mpr (Nat.one_le_iff_ne_zero.mpr hzero)
    have hlarge : halfLeast < coefficient * 10 ^ exponent :=
      calc
        halfLeast < 1 := zpow_lt_one_of_neg₀ one_lt_two (by decide)
        _ ≤ coefficient * 10 ^ exponent :=
          one_le_mul_of_one_le_of_one_le hone (one_le_zpow₀ (by norm_num) hexponent)
    simp [hzero, hexponent, hlarge]
  · obtain ⟨places, rfl⟩ : ∃ places : ℕ, exponent = -places := ⟨exponent.natAbs, by omega⟩
    rw [if_neg hzero, if_neg hexponent, Int.natAbs_neg, Int.natAbs_natCast, le_halfLeast_iff]
    by_cases hplaces : (Nat.toDigits 10 coefficient).length + 400 < places
    · rw [if_pos hplaces]
      exact iff_of_true rfl (mul_le_pow_of_length_lt hplaces)
    · rw [if_neg hplaces]
      generalize 1075 = bits
      exact decide_eq_true_iff

/-! ## Digits and exponents -/

variable {whole fraction rest : List Char} {exponent : ℤ}

theorem splitDigits_append (h : ∀ c ∈ whole, isDigit c = true)
    (hrest : ∀ c ∈ rest.head?, isDigit c = false) :
    (whole ++ rest).takeWhile isDigit = whole ∧ (whole ++ rest).dropWhile isDigit = rest := by
  rw [List.takeWhile_append_of_pos h, List.dropWhile_append_of_pos h]
  cases rest with
  | nil => exact ⟨List.append_nil whole, rfl⟩
  | cons c more =>
    have hc : ¬ isDigit c = true := by simp [hrest c rfl]
    rw [List.takeWhile_cons_of_neg hc, List.dropWhile_cons_of_neg hc, List.append_nil]
    exact ⟨rfl, rfl⟩

/-- An exponent is empty or starts with its letter. -/
theorem head?_of_readExponent? (h : readExponent? rest = some exponent) :
    ∀ c ∈ rest.head?, c = 'e' ∨ c = 'E' := by
  intro c hc
  cases rest with
  | nil => cases hc
  | cons d more =>
    obtain rfl : d = c := Option.some.inj hc
    by_contra hd
    simp [readExponent?, hd] at h

theorem not_isDigit_of_readExponent? (h : readExponent? rest = some exponent) :
    ∀ c ∈ rest.head?, isDigit c = false := by
  intro c hc
  obtain rfl | rfl := head?_of_readExponent? h c hc <;> rfl

theorem readDecimal?_point (hwhole : ∀ c ∈ whole, isDigit c = true)
    (hfraction : ∀ c ∈ fraction, isDigit c = true) (hne : whole ++ fraction ≠ [])
    (hrest : readExponent? rest = some exponent) :
    readDecimal? (whole ++ '.' :: (fraction ++ rest)) =
      some (digitsValue (whole ++ fraction), exponent - fraction.length) := by
  have hpoint : ∀ c ∈ ('.' :: (fraction ++ rest)).head?, isDigit c = false := by
    rintro c ⟨⟩
    rfl
  obtain ⟨htake, hdrop⟩ := splitDigits_append hwhole hpoint
  obtain ⟨htake', hdrop'⟩ := splitDigits_append hfraction (not_isDigit_of_readExponent? hrest)
  have hdigits : ¬ (whole.isEmpty && fraction.isEmpty) = true := by
    simpa [List.append_eq_nil_iff] using hne
  unfold readDecimal?
  simp only [htake, hdrop, htake', hdrop', if_neg hdigits, hrest, Option.map_some]

theorem readDecimal?_whole (hwhole : ∀ c ∈ whole, isDigit c = true) (hne : whole ≠ [])
    (hrest : readExponent? rest = some exponent) :
    readDecimal? (whole ++ rest) = some (digitsValue whole, exponent) := by
  obtain ⟨htake, hdrop⟩ := splitDigits_append hwhole (not_isDigit_of_readExponent? hrest)
  have hdigits : ¬ whole.isEmpty = true := by simpa using hne
  unfold readDecimal?
  simp only [htake, hdrop, if_neg hdigits]
  split
  · exact absurd (head?_of_readExponent? hrest '.' rfl) (by decide)
  · rw [hrest, Option.map_some]

/-! ## Whole texts -/

/-- A text that reads as a number has no sign. -/
theorem dropSign_of_readDecimal? {cs : List Char} {number : ℕ × ℤ} (h : readDecimal? cs = some number) :
    dropSign cs = cs := by
  unfold dropSign
  split
  · simp [readDecimal?, isDigit] at h
  · simp [readDecimal?, isDigit] at h
  · rfl

/-- A decimal text counts as zero exactly if zero is the float nearest to its value. -/
theorem isZeroDecimal_iff {cs : List Char} {coefficient : ℕ}
    (h : readDecimal? cs = some (coefficient, exponent)) :
    isZeroDecimal cs = true ↔ ZeroIsNearest ((coefficient : ℚ) * 10 ^ exponent) := by
  unfold isZeroDecimal
  rw [dropSign_of_readDecimal? h, h]
  exact roundsToZero_eq_true_iff coefficient exponent

end GoComplexity.Text
