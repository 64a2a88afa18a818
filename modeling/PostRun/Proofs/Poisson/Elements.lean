import Mathlib.Algebra.Polynomial.Derivative
import Mathlib.Algebra.Polynomial.Eval.Degree
import Mathlib.Tactic.ComputeDegree
import PostRun.Proofs.Number.Exact
import PostRun.Poisson.Interval

/-!
# The affine maps of the elements

An element is seen through an affine map from logical to inertial coordinates.  A polynomial on
the element is a polynomial of no higher degree in the logical coordinate, and its slope there is
its derivative times the Jacobian (`Element.eval_derivative_comp_chart`).

The Jacobian of an element is half the width of the interval, divided by the number of elements
(`Interval.jacobian_element`).  So it is the same for all of them, and it is not zero.
-/

namespace PostRun
namespace Poisson

open Polynomial

namespace Element

variable {K : Type u} [ExactScalar K]

/-- The affine map of an element, as a polynomial. -/
noncomputable def chart (e : Element K) : K[X] := C e.lower + (X + 1) * C e.jacobian

@[simp] theorem eval_chart (e : Element K) (xi : K) : e.chart.eval xi = e.inertial xi := by
  simp [chart, inertial]

theorem natDegree_chart_le (e : Element K) : e.chart.natDegree ≤ 1 := by
  unfold chart
  compute_degree

/-- A polynomial on an element, in the logical coordinate. -/
theorem eval_comp_chart (p : K[X]) (e : Element K) (xi : K) :
    (p.comp e.chart).eval xi = p.eval (e.inertial xi) := by
  rw [eval_comp, eval_chart]

theorem natDegree_comp_chart_le (p : K[X]) (e : Element K) :
    (p.comp e.chart).natDegree ≤ p.natDegree := by
  calc (p.comp e.chart).natDegree
      ≤ p.natDegree * e.chart.natDegree := natDegree_comp_le
    _ ≤ p.natDegree * 1 := Nat.mul_le_mul_left _ e.natDegree_chart_le
    _ = p.natDegree := Nat.mul_one _

/-- The slope in the logical coordinate is the derivative times the Jacobian. -/
theorem eval_derivative_comp_chart (p : K[X]) (e : Element K) (xi : K) :
    (p.comp e.chart).derivative.eval xi = e.jacobian * p.derivative.eval (e.inertial xi) := by
  have hchart : e.chart.derivative = C e.jacobian := by
    simp [chart]
  rw [derivative_comp, hchart, eval_mul, eval_C, eval_comp, eval_chart]

end Element

/-- Two neighbouring division points of a level. -/
theorem Segment.division_succ_sub {K : Type u} [ExactScalar K] [CharZero K] (level place : ℕ) :
    (division level (place + 1) : K) - division level place = 2 / segmentCount level := by
  simp only [division, Scalar.ofNat_eq]
  push_cast
  ring

namespace Interval

section Scalars

variable {α : Type u} [LT α] (d : Interval α)

theorem elementCount_pos : 0 < d.elementCount := Nat.two_pow_pos d.level

theorem mem_elements [Scalar α] {e : Element α} : e ∈ d.elements ↔ ∃ i, d.element i = e :=
  List.mem_ofFn

/-- The collocation points of all elements, from left to right. -/
def collocation [Scalar α] (nodes : List α) : List α :=
  d.elements.flatMap fun e => nodes.map e.inertial

end Scalars

/-- **All elements have the same Jacobian**: half the width of the interval, divided by their
number. -/
theorem jacobian_element {K : Type u} [ExactScalar K] [CharZero K] [LT K] (d : Interval K)
    (i : Fin d.elementCount) :
    (d.element i).jacobian = (d.upper - d.lower) / (2 * d.elementCount) := by
  have hwidth : (d.segment i).upper - (d.segment i).lower = (2 / d.elementCount : K) :=
    Segment.division_succ_sub d.level i
  calc (d.element i).jacobian
      = 1 / 2 * (1 / 2 * ((d.segment i).upper - (d.segment i).lower) * (d.upper - d.lower)) := by
        simp only [Element.jacobian, element, inertial, Scalar.half_eq, Scalar.ofNat_eq]
        ring
    _ = (d.upper - d.lower) / (2 * d.elementCount) := by
        rw [hwidth]
        ring

/-- The left end of an element. -/
theorem lower_element {K : Type u} [ExactScalar K] [CharZero K] [LT K] (d : Interval K)
    (i : Fin d.elementCount) :
    (d.element i).lower = d.lower + i / d.elementCount * (d.upper - d.lower) := by
  simp only [element, inertial, segment, Segment.lower, Segment.division, Scalar.half_eq,
    Scalar.ofNat_eq, elementCount]
  push_cast
  ring

theorem jacobian_pos {K : Type u} [ExactScalar K] [LinearOrder K] [IsStrictOrderedRing K]
    (d : Interval K) {e : Element K} (he : e ∈ d.elements) : 0 < e.jacobian := by
  obtain ⟨i, rfl⟩ := d.mem_elements.1 he
  have hcount : (0 : K) < d.elementCount := Nat.cast_pos.2 d.elementCount_pos
  rw [jacobian_element]
  exact div_pos (sub_pos.2 d.lower_lt_upper) (mul_pos two_pos hcount)

end Interval
end Poisson
end PostRun
