import Mathlib.Algebra.Order.Floor.Semifield
import Mathlib.Data.Rat.Floor
import Mathlib.Tactic.FieldSimp
import Mathlib.Tactic.Linarith
import Mathlib.Tactic.NormNum
import Mathlib.Tactic.Qify
import PostRun.Proofs.Number.Grid
import PostRun.Proofs.Number.Value

/-!
# Rounding to decimals

A word is rounded in natural numbers: its fraction is scaled by a power of ten, divided, and the
quotient is rounded.  Here the same is said of rational numbers.

* `Fraction.decimalExponent_spec`: counting digits finds the power of ten at or below a fraction.
* `roundsTo_rounded`: so the rounded decimal of a word is its absolute value, rounded on the grid
  that belongs to its first digit.

## Rounding keeps the order

On one grid this is a matter of ties: a smaller number is rounded beyond a larger one only if both
are the same tie, and then both go to the even side (`NearestEven.mono`).  A larger number may also
have a coarser grid.  Then the power of ten between the two numbers lies on both grids, and neither
result passes it: the smaller number is rounded up to it at most, which is the carry that makes one
digit more, and the larger one is not rounded below it (`RoundsTo.mono`).
-/

namespace PostRun
namespace Decimal

/-! ## Fractions -/

/-- A power with an integral exponent, as a quotient of two powers. -/
theorem zpow_eq_div {b : ℚ} (hb : b ≠ 0) (e : ℤ) : b ^ e = b ^ e.toNat / b ^ (-e).toNat := by
  calc b ^ e = b ^ ((e.toNat : ℤ) - (-e).toNat) := by rw [Int.toNat_sub_toNat_neg]
    _ = b ^ e.toNat / b ^ (-e).toNat := by rw [zpow_sub₀ hb, zpow_natCast, zpow_natCast]

namespace Fraction

/-- The number that a fraction stands for. -/
def toRat (x : Fraction) : ℚ := x.num / x.den

theorem toRat_ofDyadic (m : ℕ) (q : ℤ) : (ofDyadic m q).toRat = m * 2 ^ q := by
  have hcast : ∀ n : ℕ, ((Nat.pow 2 n : ℕ) : ℚ) = 2 ^ n := fun n => Nat.cast_pow 2 n
  rw [toRat, ofDyadic, Nat.cast_mul, hcast, hcast, zpow_eq_div two_ne_zero, mul_div_assoc]

theorem toRat_scaleDown (x : Fraction) (e : ℤ) : (x.scaleDown e).toRat = x.toRat / 10 ^ e := by
  have hcast : ∀ n : ℕ, ((powerOfTen n : ℕ) : ℚ) = 10 ^ n := fun n => Nat.cast_pow 10 n
  have hten : (10 : ℚ) ≠ 0 := by norm_num
  rw [toRat, toRat, scaleDown, Nat.cast_mul, Nat.cast_mul, hcast, hcast, zpow_eq_div hten]
  field_simp

/-- A number lies between two powers of ten as it has digits. -/
theorem pow_digitCount {n : ℕ} (h : n ≠ 0) :
    10 ^ (digitCount n - 1) ≤ n ∧ n < 10 ^ digitCount n := by
  have hcount : 0 < digitCount n := List.length_pos_iff.2 Nat.toDigits_ne_nil
  have hiff : ∀ {k : ℕ}, 0 < k → (digitCount n ≤ k ↔ n < 10 ^ k) := fun hk =>
    Nat.length_toDigits_le_iff (by decide) hk
  refine ⟨?_, (hiff hcount).1 le_rfl⟩
  by_cases hone : digitCount n = 1
  · rw [hone]
    exact Nat.one_le_iff_ne_zero.2 h
  · refine not_lt.1 fun hlt => ?_
    have := (hiff (by omega)).2 hlt
    omega

theorem digitCount_eq {n d : ℕ} (hlow : 10 ^ n ≤ d) (hhigh : d < 10 ^ (n + 1)) :
    digitCount d = n + 1 := by
  have hne : d ≠ 0 := (Nat.lt_of_lt_of_le (Nat.pow_pos (by decide)) hlow).ne'
  obtain ⟨hbelow, habove⟩ := pow_digitCount hne
  have hle : n < digitCount d := (Nat.pow_lt_pow_iff_right (by decide)).1 (hlow.trans_lt habove)
  have hge : digitCount d - 1 < n + 1 :=
    (Nat.pow_lt_pow_iff_right (by decide)).1 (hbelow.trans_lt hhigh)
  omega

/-- The decimal exponent of a fraction that is not below one. -/
theorem decimalExponent_spec_of_le {x : Fraction} (hden : x.den ≠ 0) (h : x.den ≤ x.num) :
    10 ^ x.decimalExponent ≤ x.toRat ∧ x.toRat < 10 ^ (x.decimalExponent + 1) := by
  have hfloor : ⌊x.toRat⌋₊ = x.num / x.den := Nat.floor_div_eq_div _ _
  have hwhole : ⌊x.toRat⌋₊ ≠ 0 := by
    rw [hfloor]
    exact (Nat.div_pos h (Nat.pos_of_ne_zero hden)).ne'
  obtain ⟨hlow, hhigh⟩ := pow_digitCount hwhole
  have hcount : 0 < digitCount ⌊x.toRat⌋₊ := List.length_pos_iff.2 Nat.toDigits_ne_nil
  have hexponent : x.decimalExponent = ((digitCount ⌊x.toRat⌋₊ - 1 : ℕ) : ℤ) := by
    rw [decimalExponent, if_pos h, ← hfloor]
    omega
  have hnext : x.decimalExponent + 1 = ((digitCount ⌊x.toRat⌋₊ : ℕ) : ℤ) := by omega
  have hnonneg : 0 ≤ x.toRat := div_nonneg (Nat.cast_nonneg _) (Nat.cast_nonneg _)
  rw [hnext, hexponent, zpow_natCast, zpow_natCast]
  constructor
  · calc (10 : ℚ) ^ (digitCount ⌊x.toRat⌋₊ - 1) ≤ ⌊x.toRat⌋₊ := by exact_mod_cast hlow
      _ ≤ x.toRat := Nat.floor_le hnonneg
  · calc x.toRat < ⌊x.toRat⌋₊ + 1 := Nat.lt_floor_add_one _
      _ ≤ 10 ^ digitCount ⌊x.toRat⌋₊ := by exact_mod_cast hhigh

/-- The decimal exponent of a fraction below one. -/
theorem decimalExponent_spec_of_lt {x : Fraction} (hnum : x.num ≠ 0) (h : x.num < x.den) :
    10 ^ x.decimalExponent ≤ x.toRat ∧ x.toRat < 10 ^ (x.decimalExponent + 1) := by
  -- The number below the inverse, which has as many digits as the fraction has leading zeros.
  set n := (x.den + x.num - 1) / x.num - 1 with hn
  have hpos : 0 < x.num := Nat.pos_of_ne_zero hnum
  have htwo : 2 ≤ (x.den + x.num - 1) / x.num := by
    rw [Nat.le_div_iff_mul_le hpos]
    omega
  have hceil : (x.den + x.num - 1) / x.num = n + 1 := by omega
  have hone : n ≠ 0 := by omega
  have hbelow : n * x.num < x.den := by
    have hle := Nat.div_mul_le_self (x.den + x.num - 1) x.num
    rw [hceil, Nat.succ_mul] at hle
    omega
  have habove : x.den ≤ (n + 1) * x.num := by
    have hlt := Nat.lt_div_mul_add (a := x.den + x.num - 1) hpos
    rw [hceil] at hlt
    omega
  obtain ⟨hlow, hhigh⟩ := pow_digitCount hone
  have hcount : 0 < digitCount n := List.length_pos_iff.2 Nat.toDigits_ne_nil
  have hexponent : x.decimalExponent = -((digitCount n : ℕ) : ℤ) := by
    rw [decimalExponent, if_neg (Nat.not_le.2 h), ← hn]
  have hnext : x.decimalExponent + 1 = -((digitCount n - 1 : ℕ) : ℤ) := by omega
  have hden : (0 : ℚ) < x.den := Nat.cast_pos.2 (hpos.trans h)
  rw [hnext, hexponent, zpow_neg, zpow_neg, zpow_natCast, zpow_natCast, toRat]
  constructor
  · have hle : x.den ≤ 10 ^ digitCount n * x.num :=
      habove.trans (Nat.mul_le_mul_right _ hhigh)
    rw [inv_le_iff_one_le_mul₀ (by positivity), div_mul_eq_mul_div, one_le_div hden]
    exact_mod_cast (mul_comm x.num _) ▸ hle
  · have hlt : 10 ^ (digitCount n - 1) * x.num < x.den :=
      (Nat.mul_le_mul_right _ hlow).trans_lt hbelow
    rw [lt_inv_comm₀ (by positivity) (by positivity), inv_div, lt_div_iff₀ (by positivity)]
    exact_mod_cast hlt

/-- **The decimal exponent** is that of the power of ten at or below the fraction. -/
theorem decimalExponent_spec {x : Fraction} (hnum : x.num ≠ 0) (hden : x.den ≠ 0) :
    10 ^ x.decimalExponent ≤ x.toRat ∧ x.toRat < 10 ^ (x.decimalExponent + 1) := by
  rcases le_or_gt x.den x.num with hle | hlt
  · exact decimalExponent_spec_of_le hden hle
  · exact decimalExponent_spec_of_lt hnum hlt

end Fraction

/-! ## Decimals of a fixed number of digits -/

/-- The number that a decimal stands for. -/
def toRat (x : Decimal) : ℚ := (if x.negative then -1 else 1) * (x.digits * 10 ^ x.exponent)

/-- The absolute value of a decimal. -/
def absRat (x : Decimal) : ℚ := x.digits * 10 ^ x.exponent

theorem toRat_eq (x : Decimal) : x.toRat = (if x.negative then -1 else 1) * x.absRat := rfl

/-- A number that is not negative is rounded to `n + 1` digits: to the nearest multiple of the power
of ten that `n` places behind its first digit stand for.  Zero stays zero. -/
inductive RoundsTo (n : ℕ) : ℚ → ℚ → Prop
  | zero : RoundsTo n 0 0
  | digits {r : ℚ} {e : ℤ} {d : ℕ} : 10 ^ e ≤ r → r < 10 ^ (e + 1) →
      NearestEven (r / 10 ^ (e - n)) d → RoundsTo n r (d * 10 ^ (e - n))

theorem ten_zpow_pos (e : ℤ) : (0 : ℚ) < 10 ^ e := zpow_pos (by norm_num) e

theorem ten_zpow_le {e f : ℤ} (h : e ≤ f) : (10 : ℚ) ^ e ≤ 10 ^ f :=
  zpow_le_zpow_right₀ (by norm_num) h

theorem ten_zpow_add_natCast (e : ℤ) (n : ℕ) :
    (10 : ℚ) ^ (e + n) = ((10 ^ n : ℕ) : ℚ) * 10 ^ e := by
  rw [zpow_add₀ (by norm_num), zpow_natCast, mul_comm]
  push_cast
  rfl

/-- A power of ten on the grid of `n` more digits. -/
theorem ten_zpow_eq_mul (e : ℤ) (n : ℕ) : (10 : ℚ) ^ e = ((10 ^ n : ℕ) : ℚ) * 10 ^ (e - n) := by
  rw [← ten_zpow_add_natCast, sub_add_cancel]

/-- The next power of ten on the same grid. -/
theorem ten_zpow_succ_eq_mul (e : ℤ) (n : ℕ) :
    (10 : ℚ) ^ (e + 1) = ((10 ^ (n + 1) : ℕ) : ℚ) * 10 ^ (e - n) := by
  rw [ten_zpow_eq_mul (e + 1) (n + 1)]
  congr 2
  push_cast
  ring

section Digits

variable {n : ℕ} {r : ℚ} {e : ℤ} {d : ℕ} (hlow : 10 ^ e ≤ r) (hhigh : r < 10 ^ (e + 1))
  (hd : NearestEven (r / 10 ^ (e - n)) d)

include hlow hd in
/-- Rounding does not go below the power of ten. -/
theorem pow_le_of_nearestEven : 10 ^ n ≤ d := by
  refine (nearestEven_natCast (10 ^ n)).mono hd ?_
  rw [le_div_iff₀ (ten_zpow_pos _), ← ten_zpow_eq_mul]
  exact hlow

include hhigh hd in
/-- Rounding reaches the next power of ten at most. -/
theorem le_pow_of_nearestEven : d ≤ 10 ^ (n + 1) := by
  refine hd.mono (nearestEven_natCast (10 ^ (n + 1))) ?_
  rw [div_le_iff₀ (ten_zpow_pos _), ← ten_zpow_succ_eq_mul]
  exact hhigh.le

end Digits

theorem RoundsTo.nonneg {n : ℕ} {r t : ℚ} (h : RoundsTo n r t) : 0 ≤ t := by
  cases h with
  | zero => exact le_rfl
  | digits => exact mul_nonneg (Nat.cast_nonneg _) (ten_zpow_pos _).le

/-- **Rounding is monotone.**  Numbers with the same power of ten are rounded on the same grid.
With different ones, the power of ten above the smaller number lies between the results. -/
theorem RoundsTo.mono {n : ℕ} {r s t u : ℚ} (ht : RoundsTo n r t) (hu : RoundsTo n s u)
    (h : r ≤ s) : t ≤ u := by
  cases ht with
  | zero => exact hu.nonneg
  | @digits _ e d hlow hhigh hd =>
    cases hu with
    | zero => exact absurd (hlow.trans h) (not_le.2 (ten_zpow_pos e))
    | @digits _ f c hlow' hhigh' hc =>
      have hef : e ≤ f := by
        have hlt : (10 : ℚ) ^ e < 10 ^ (f + 1) := (hlow.trans h).trans_lt hhigh'
        exact Int.lt_add_one_iff.1 ((zpow_lt_zpow_iff_right₀ (by norm_num)).1 hlt)
      rcases hef.lt_or_eq with hlt | rfl
      · calc (d : ℚ) * 10 ^ (e - n)
            ≤ ((10 ^ (n + 1) : ℕ) : ℚ) * 10 ^ (e - n) :=
              mul_le_mul_of_nonneg_right (Nat.cast_le.2 (le_pow_of_nearestEven hhigh hd))
                (ten_zpow_pos _).le
          _ = 10 ^ (e + 1) := (ten_zpow_succ_eq_mul e n).symm
          _ ≤ 10 ^ f := ten_zpow_le hlt
          _ = ((10 ^ n : ℕ) : ℚ) * 10 ^ (f - n) := ten_zpow_eq_mul f n
          _ ≤ c * 10 ^ (f - n) :=
              mul_le_mul_of_nonneg_right (Nat.cast_le.2 (pow_le_of_nearestEven hlow' hc))
                (ten_zpow_pos _).le
      · refine mul_le_mul_of_nonneg_right (Nat.cast_le.2 (hd.mono hc ?_)) (ten_zpow_pos _).le
        exact div_le_div_of_nonneg_right h (ten_zpow_pos _).le

theorem RoundsTo.eq_zero {n : ℕ} {t : ℚ} (h : RoundsTo n 0 t) : t = 0 :=
  le_antisymm (h.mono .zero le_rfl) h.nonneg

/-- The result is within half a unit of the last digit. -/
theorem RoundsTo.abs_sub_le {n : ℕ} {r t : ℚ} (h : RoundsTo n r t) (hr : r ≠ 0) :
    ∃ e : ℤ, 10 ^ e ≤ r ∧ r < 10 ^ (e + 1) ∧ |t - r| ≤ 10 ^ (e - n) / 2 := by
  cases h with
  | zero => exact absurd rfl hr
  | @digits _ e d hlow hhigh hd =>
    refine ⟨e, hlow, hhigh, ?_⟩
    have hpos := ten_zpow_pos (e - n)
    have hfactor : d * 10 ^ (e - n) - r = -(r / 10 ^ (e - n) - d) * 10 ^ (e - n) := by
      field_simp
      ring
    rw [hfactor, abs_mul, abs_neg, abs_of_pos hpos]
    calc |r / 10 ^ (e - n) - d| * 10 ^ (e - n)
        ≤ 1 / 2 * 10 ^ (e - n) := mul_le_mul_of_nonneg_right hd.near hpos.le
      _ = 10 ^ (e - n) / 2 := by ring

/-! ## Rounded words -/

variable {x y : Binary64}

theorem toRat_valueOf (x : Binary64) : (valueOf x).toRat = x.absRat := Fraction.toRat_ofDyadic _ _

/-- A zero is rounded to no digit but zeros. -/
theorem rounded_of_significand_eq_zero (n : ℕ) (h : x.significand = 0) :
    rounded n x = ⟨x.isNegative, 0, -n⟩ := by
  rw [rounded, if_pos h]

/-- The digits of a word that is not zero, and the power of ten that they are counted in. -/
theorem exists_digits_of_significand_ne_zero (n : ℕ) (h : x.significand ≠ 0) :
    ∃ (e : ℤ) (d : ℕ), 10 ^ e ≤ x.absRat ∧ x.absRat < 10 ^ (e + 1) ∧
      NearestEven (x.absRat / 10 ^ (e - n)) d ∧
      rounded n x = if d = 10 ^ (n + 1) then ⟨x.isNegative, 10 ^ n, e - n + 1⟩
        else ⟨x.isNegative, d, e - n⟩ := by
  have hnum : (valueOf x).num ≠ 0 := Nat.mul_ne_zero h (Nat.two_pow_pos _).ne'
  have hden : (valueOf x).den ≠ 0 := (Nat.two_pow_pos _).ne'
  have hspec := Fraction.decimalExponent_spec hnum hden
  rw [toRat_valueOf] at hspec
  set e := (valueOf x).decimalExponent with he
  have hscaled : ((valueOf x).scaleDown (e - n)).den ≠ 0 :=
    Nat.mul_ne_zero hden (Nat.pow_pos (by decide)).ne'
  have hnearest := nearestEven_roundDiv ((valueOf x).scaleDown (e - n)).num hscaled
  have hquotient : (((valueOf x).scaleDown (e - n)).num : ℚ) /
      ((valueOf x).scaleDown (e - n)).den = x.absRat / 10 ^ (e - n) := by
    rw [← toRat_valueOf, ← Fraction.toRat_scaleDown, Fraction.toRat]
  rw [hquotient] at hnearest
  refine ⟨e, _, hspec.1, hspec.2, hnearest, ?_⟩
  rw [rounded, if_neg h]
  rfl

/-- **The rounded decimal of a word** is its rounded absolute value. -/
theorem roundsTo_rounded (n : ℕ) (x : Binary64) : RoundsTo n x.absRat (rounded n x).absRat := by
  by_cases hzero : x.significand = 0
  · rw [Binary64.absRat_eq_zero_iff.2 hzero, rounded_of_significand_eq_zero n hzero, absRat,
      Nat.cast_zero, zero_mul]
    exact .zero
  · obtain ⟨e, d, hlow, hhigh, hd, hrounded⟩ := exists_digits_of_significand_ne_zero n hzero
    have habs : (rounded n x).absRat = d * 10 ^ (e - n) := by
      rw [hrounded]
      split_ifs with hcarry
      · rw [absRat, hcarry, zpow_add_one₀ (by norm_num), Nat.pow_succ]
        push_cast
        ring
      · rfl
    rw [habs]
    exact .digits hlow hhigh hd

/-- The sign stays. -/
theorem negative_rounded (n : ℕ) (x : Binary64) : (rounded n x).negative = x.isNegative := by
  by_cases hzero : x.significand = 0
  · rw [rounded_of_significand_eq_zero n hzero]
  · obtain ⟨e, d, -, -, -, hrounded⟩ := exists_digits_of_significand_ne_zero n hzero
    rw [hrounded]
    split_ifs <;> rfl

theorem toRat_rounded (n : ℕ) (x : Binary64) :
    (rounded n x).toRat = x.sign * (rounded n x).absRat := by
  rw [toRat_eq, negative_rounded]
  rfl

/-- The digits are as many as they are meant to be. -/
theorem digits_rounded_bounds (n : ℕ) (h : x.significand ≠ 0) :
    10 ^ n ≤ (rounded n x).digits ∧ (rounded n x).digits < 10 ^ (n + 1) := by
  obtain ⟨e, d, hlow, hhigh, hd, hrounded⟩ := exists_digits_of_significand_ne_zero n h
  rw [hrounded]
  split_ifs with hcarry
  · exact ⟨le_rfl, Nat.pow_lt_pow_right (by decide) (Nat.lt_succ_self n)⟩
  · exact ⟨pow_le_of_nearestEven hlow hd,
      lt_of_le_of_ne (le_pow_of_nearestEven hhigh hd) hcarry⟩

/-- **Larger words have larger rounded decimals.** -/
theorem toRat_rounded_mono (n : ℕ) (h : x.toRat ≤ y.toRat) :
    (rounded n x).toRat ≤ (rounded n y).toRat := by
  have ht := roundsTo_rounded n x
  have hu := roundsTo_rounded n y
  rw [Binary64.toRat, Binary64.toRat] at h
  rw [toRat_rounded, toRat_rounded]
  refine Binary64.sign_mul_le_sign_mul ht.nonneg hu.nonneg (fun hxpos hypos => ?_)
    (fun hxneg hyneg => ?_) fun hxpos hyneg => ?_
  · rw [Binary64.sign_mul_of_not_isNegative hxpos,
      Binary64.sign_mul_of_not_isNegative hypos] at h
    exact ht.mono hu h
  · rw [Binary64.sign_mul_of_isNegative hxneg, Binary64.sign_mul_of_isNegative hyneg] at h
    exact hu.mono ht (neg_le_neg_iff.1 h)
  · rw [Binary64.sign_mul_of_not_isNegative hxpos, Binary64.sign_mul_of_isNegative hyneg] at h
    have hxnonneg := x.absRat_nonneg
    have hynonneg := y.absRat_nonneg
    have hxzero : x.absRat = 0 := by linarith
    have hyzero : y.absRat = 0 := by linarith
    rw [hxzero] at ht
    rw [hyzero] at hu
    exact ⟨ht.eq_zero, hu.eq_zero⟩

/-- A decimal lies within half a unit of the last of `n + 1` significant digits of a number. -/
def IsWithinHalfUnit (n : ℕ) (r t : ℚ) : Prop :=
  (r = 0 → t = 0) ∧
    (r ≠ 0 → ∃ e : ℤ, 10 ^ e ≤ |r| ∧ |r| < 10 ^ (e + 1) ∧ |t - r| ≤ 10 ^ (e - n) / 2)

/-- **The rounded decimal** is within half a unit of its last digit. -/
theorem isWithinHalfUnit_rounded (n : ℕ) (x : Binary64) :
    IsWithinHalfUnit n x.toRat (rounded n x).toRat := by
  have ht := roundsTo_rounded n x
  rw [toRat_rounded, Binary64.toRat]
  refine ⟨fun hzero => ?_, fun hne => ?_⟩
  · have hr : x.absRat = 0 := by
      rw [← abs_of_nonneg x.absRat_nonneg, ← x.abs_sign_mul, hzero, abs_zero]
    rw [hr] at ht
    rw [ht.eq_zero, mul_zero]
  · obtain ⟨e, hlow, hhigh, hnear⟩ := ht.abs_sub_le (right_ne_zero_of_mul hne)
    rw [x.abs_sign_mul, abs_of_nonneg x.absRat_nonneg, ← mul_sub, x.abs_sign_mul]
    exact ⟨e, hlow, hhigh, hnear⟩

end Decimal
end PostRun
