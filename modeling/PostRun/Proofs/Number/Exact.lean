import Mathlib.Algebra.BigOperators.Group.List.Basic
import Mathlib.Algebra.Order.Field.Basic
import Mathlib.Analysis.SpecialFunctions.Trigonometric.Basic
import PostRun.Number.Scalar

/-!
# Exact arithmetic

Nothing is promised of the operations of a `Scalar`, since those on words round.  Here is the
other reading: the operations are those of a field, and what is computed from them is the
mathematics that the rounded computation stands for.

* `ExactScalar`: the operations of a field, with the natural numbers where they belong.
* `ExactElementary`: an ordered field with some functions on it.  The square root is asked for
  one thing only, which a norm needs: that it vanishes at zero and at no positive number.

The sum from left to right and the product from left to right are then the ones that have a
theory (`Scalar.sum_eq`, `Scalar.product_eq`), and the start of the sum is no longer visible.
-/

namespace PostRun

/-- The operations of a field as those of a scalar. -/
class ExactScalar (K : Type u) extends Field K, Scalar K where
  ofNat_eq_cast (n : ℕ) : Scalar.ofNat n = (n : K)

/-- An ordered field with the functions that sampling needs. -/
class ExactElementary (K : Type u) extends ExactScalar K, Elementary K, LinearOrder K,
    IsStrictOrderedRing K where
  sqrt_eq_zero_iff {x : K} : 0 ≤ x → (sqrt x = 0 ↔ x = 0)

/-- The rational numbers. -/
instance : ExactScalar ℚ where
  ofNat n := n
  ofNat_eq_cast _ := rfl

/-- The real numbers. -/
noncomputable instance : ExactElementary ℝ where
  ofNat n := n
  ofNat_eq_cast _ := rfl
  pi := Real.pi
  sin := Real.sin
  cos := Real.cos
  sqrt := Real.sqrt
  sqrt_eq_zero_iff := Real.sqrt_eq_zero

/-- The square root vanishes at zero only. -/
theorem Elementary.sqrt_eq_zero_iff {K : Type u} [ExactElementary K] {x : K} (h : 0 ≤ x) :
    sqrt x = 0 ↔ x = 0 :=
  ExactElementary.sqrt_eq_zero_iff h

namespace Scalar

variable {K : Type u} [ExactScalar K]

@[simp] theorem ofNat_eq (n : ℕ) : (ofNat n : K) = n := ExactScalar.ofNat_eq_cast n

@[simp] theorem zero_eq : (zero : K) = 0 := rfl

@[simp] theorem half_eq : (half : K) = 1 / 2 := by
  simp [half]

/-- The start of a sum does not count. -/
@[simp] theorem sum_eq (xs : List K) : sum xs = xs.sum := by
  rw [sum, zero_eq, neg_zero, List.sum_eq_foldl]

@[simp] theorem product_eq (xs : List K) : product xs = xs.prod := by
  rw [product, ofNat_eq, Nat.cast_one, List.prod_eq_foldl]

/-- What is left when some numbers are taken away, one after another. -/
theorem foldl_sub (a : K) (xs : List K) : xs.foldl (· - ·) a = a - xs.sum := by
  induction xs generalizing a with
  | nil => simp
  | cons x xs ih => rw [List.foldl_cons, ih, List.sum_cons, sub_sub]

end Scalar
end PostRun
