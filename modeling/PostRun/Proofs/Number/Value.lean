import Mathlib.Algebra.Order.Field.Power
import Mathlib.Tactic.Ring
import Mathlib.Tactic.Positivity
import Mathlib.Data.Rat.Cast.Order
import PostRun.Number.Binary64

/-!
# The numbers that words stand for

A finite word is a rational number: its significand, scaled by a power of two.  All of them are
multiples of the smallest one, `2 ^ -1074`, so a word is known by how many of these units it has
(`Binary64.units`).  The units grow with the magnitude (`Binary64.units_lt_units`): within one
exponent the significand grows, and from one exponent to the next the units double while the
significand drops by no more than half.

So the order of the words, which is one of integers made of their bits, is that of the rational
numbers (`Binary64.toRat_le_of_numericKey_le`).
-/

namespace PostRun
namespace Binary64

/-- The exponent field as it scales a significand: the subnormal numbers have the exponent of the
smallest normal ones. -/
def scale (x : Binary64) : ℕ := max x.exponentField 1

/-- The absolute value of a finite word, in units of `2 ^ -1074`. -/
def units (x : Binary64) : ℕ := x.significand * 2 ^ (x.scale - 1)

/-- The sign of a word as a factor. -/
def sign (x : Binary64) : ℚ := if x.isNegative then -1 else 1

/-- The absolute value of a finite word. -/
def absRat (x : Binary64) : ℚ := x.significand * 2 ^ x.power

/-- **The number that a finite word stands for.** -/
def toRat (x : Binary64) : ℚ := x.sign * x.absRat

variable {x y : Binary64}

/-- What the magnitude has beyond its exponent is the significand. -/
theorem magnitude_eq (x : Binary64) :
    x.magnitude = (x.scale - 1) * hiddenBit + x.significand := by
  have hsplit : x.exponentField * hiddenBit + x.fraction = x.magnitude := Nat.div_add_mod' _ _
  rw [scale, significand, ← hsplit]
  cases hfield : x.exponentField with
  | zero => simp
  | succ e =>
    have hscale : max (e + 1) 1 - 1 = e := by omega
    rw [hscale, if_neg (Nat.succ_ne_zero e), Nat.succ_mul, Nat.add_assoc]

theorem fraction_lt (x : Binary64) : x.fraction < hiddenBit := Nat.mod_lt _ (by decide)

theorem significand_lt (x : Binary64) : x.significand < 2 * hiddenBit := by
  have := x.fraction_lt
  rw [significand]
  split <;> omega

theorem hiddenBit_le_significand (h : 1 < x.scale) : hiddenBit ≤ x.significand := by
  have hfield : x.exponentField ≠ 0 := by
    rw [scale] at h
    omega
  rw [significand, if_neg hfield]
  exact Nat.le_add_right _ _

theorem scale_le_scale (h : x.magnitude ≤ y.magnitude) : x.scale ≤ y.scale :=
  max_le_max (Nat.div_le_div_right h) le_rfl

/-- **A word with a larger magnitude has more units.** -/
theorem units_lt_units (h : x.magnitude < y.magnitude) : x.units < y.units := by
  rcases (scale_le_scale h.le).lt_or_eq with hlt | heq
  · have hone : 1 ≤ x.scale := le_max_right _ _
    have hdouble : x.scale ≤ y.scale - 1 := by omega
    calc x.units
        < 2 * hiddenBit * 2 ^ (x.scale - 1) :=
          Nat.mul_lt_mul_of_pos_right x.significand_lt (Nat.two_pow_pos _)
      _ = hiddenBit * 2 ^ x.scale := by
          obtain ⟨e, he⟩ := Nat.exists_eq_add_of_le hone
          rw [he, Nat.add_sub_cancel_left, Nat.pow_add, Nat.pow_one]
          ring
      _ ≤ y.significand * 2 ^ (y.scale - 1) :=
          Nat.mul_le_mul (hiddenBit_le_significand (by omega))
            (Nat.pow_le_pow_right Nat.two_pos hdouble)
  · have hsignificand : x.significand < y.significand := by
      rw [magnitude_eq x, magnitude_eq y, heq] at h
      exact Nat.lt_of_add_lt_add_left h
    rw [units, units, heq]
    exact Nat.mul_lt_mul_of_pos_right hsignificand (Nat.two_pow_pos _)

theorem units_eq_units (h : x.magnitude = y.magnitude) : x.units = y.units := by
  have hfield : x.exponentField = y.exponentField := by rw [exponentField, exponentField, h]
  have hfraction : x.fraction = y.fraction := by rw [fraction, fraction, h]
  rw [units, units, scale, scale, significand, significand, hfield, hfraction]

/-- The units in the place of the power. -/
theorem absRat_eq (x : Binary64) : x.absRat = x.units * 2 ^ (-1074 : ℤ) := by
  have hone : 1 ≤ x.scale := le_max_right _ _
  have hpower : x.power = ((x.scale - 1 : ℕ) : ℤ) + (-1074) := by
    rw [power, ← scale]
    omega
  rw [absRat, units, hpower, zpow_add₀ two_ne_zero, zpow_natCast, Nat.cast_mul, Nat.cast_pow,
    Nat.cast_ofNat, mul_assoc]

theorem absRat_nonneg (x : Binary64) : 0 ≤ x.absRat :=
  mul_nonneg (Nat.cast_nonneg _) (zpow_nonneg zero_le_two _)

theorem absRat_le_absRat (h : x.magnitude ≤ y.magnitude) : x.absRat ≤ y.absRat := by
  have hunits : x.units ≤ y.units := by
    rcases h.lt_or_eq with hlt | heq
    · exact (units_lt_units hlt).le
    · exact (units_eq_units heq).le
  rw [absRat_eq, absRat_eq]
  exact mul_le_mul_of_nonneg_right (Nat.cast_le.2 hunits) (zpow_nonneg zero_le_two _)

theorem absRat_eq_zero_iff : x.absRat = 0 ↔ x.significand = 0 := by
  rw [absRat, mul_eq_zero, or_iff_left (zpow_ne_zero _ two_ne_zero), Nat.cast_eq_zero]

theorem significand_eq_zero_of_magnitude (h : x.magnitude = 0) : x.significand = 0 := by
  have := x.magnitude_eq
  omega

theorem sign_mul_of_isNegative (h : x.isNegative) (a : ℚ) : x.sign * a = -a := by
  rw [sign, if_pos h, neg_one_mul]

theorem sign_mul_of_not_isNegative (h : ¬ x.isNegative) (a : ℚ) : x.sign * a = a := by
  rw [sign, if_neg h, one_mul]

theorem abs_sign_mul (x : Binary64) (a : ℚ) : |x.sign * a| = |a| := by
  by_cases h : x.isNegative
  · rw [sign_mul_of_isNegative h, abs_neg]
  · rw [sign_mul_of_not_isNegative h]

/-- Signs are compared first: numbers of one sign are in the order of their absolute values, or in
the reverse one, and a number that is not negative stands before a negative one only if both are
zero. -/
theorem sign_mul_le_sign_mul {a b : ℚ} (ha : 0 ≤ a) (hb : 0 ≤ b)
    (hpositive : ¬ x.isNegative → ¬ y.isNegative → a ≤ b)
    (hnegative : x.isNegative → y.isNegative → b ≤ a)
    (hzeros : ¬ x.isNegative → y.isNegative → a = 0 ∧ b = 0) :
    x.sign * a ≤ y.sign * b := by
  by_cases hx : x.isNegative <;> by_cases hy : y.isNegative
  · rw [sign_mul_of_isNegative hx, sign_mul_of_isNegative hy]
    exact neg_le_neg (hnegative hx hy)
  · rw [sign_mul_of_isNegative hx, sign_mul_of_not_isNegative hy]
    exact (neg_nonpos.2 ha).trans hb
  · obtain ⟨rfl, rfl⟩ := hzeros hx hy
    rw [mul_zero, mul_zero]
  · rw [sign_mul_of_not_isNegative hx, sign_mul_of_not_isNegative hy]
    exact hpositive hx hy

/-- **The order of the words is that of the numbers.** -/
theorem toRat_le_of_numericKey_le (h : x.numericKey ≤ y.numericKey) : x.toRat ≤ y.toRat := by
  rw [numericKey, numericKey] at h
  refine sign_mul_le_sign_mul x.absRat_nonneg y.absRat_nonneg (fun hx hy => ?_)
    (fun hx hy => ?_) fun hx hy => ?_
  · rw [if_neg hx, if_neg hy] at h
    exact absRat_le_absRat (by omega)
  · rw [if_pos hx, if_pos hy] at h
    exact absRat_le_absRat (by omega)
  · rw [if_neg hx, if_pos hy] at h
    exact ⟨absRat_eq_zero_iff.2 (significand_eq_zero_of_magnitude (by omega)),
      absRat_eq_zero_iff.2 (significand_eq_zero_of_magnitude (by omega))⟩

/-- What is not below a number is not below it in the order of the numbers. -/
theorem toRat_le_of_not_lt (hx : x.isFinite) (hy : y.isFinite) (h : ¬ y < x) :
    x.toRat ≤ y.toRat := by
  have hnumber : ∀ {z : Binary64}, z.isFinite → z.isNaN = false := by
    intro z hz
    simp only [isFinite, isNaN, decide_eq_true_eq, decide_eq_false_iff_not] at hz ⊢
    omega
  refine toRat_le_of_numericKey_le (not_lt.1 fun hkey => h ?_)
  exact lt_iff.2 ⟨hnumber hy, hnumber hx, hkey⟩

end Binary64
end PostRun
