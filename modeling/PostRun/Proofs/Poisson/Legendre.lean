import Mathlib.Algebra.Polynomial.Derivative
import Mathlib.Algebra.Polynomial.Eval.Defs
import Mathlib.Tactic.LinearCombination
import PostRun.Proofs.Number.Exact
import PostRun.Proofs.Poisson.Lobatto

/-!
# The fixed points of Newton's method

The collocation points of degree `N` are the ends of the logical interval and the places between
them where the Legendre polynomial `P_N` has an extremum.  The program does not ask for the slope of
`P_N`.  It corrects a point `x` by `(x P_N(x) - P_{N-1}(x)) / ((N + 1) P_N(x))`, with values that a
loop over the three-term recurrence computed.  Here this is read in an exact field.

## The slope

That the correction vanishes at the right places rests on `(1 - X²) P_N' = N (P_{N-1} - X P_N)`.
An induction on this alone gets stuck: the recurrence goes two degrees back, so the slope of
`P_{N+1}` takes the slopes of both `P_N` and `P_{N-1}`.  What goes through is a pair of
equations, one that climbs from the slope of `P_n` to that of `P_{n+1}` and one that goes back
(`legendrePolynomial.derivative_succ`).  Each needs the other one for the next degree, and together
they give the slope (`legendrePolynomial.one_sub_sq_mul_derivative`).

## Division

The correction divides by `P_N(x)`.  Where that is zero the quotient is no number of the program,
and an exact field makes zero of it, which would be a fixed point that is no node.  So the fixed
points are characterized where `P_N` does not vanish (`Lobatto.correction_eq_zero_iff`).  No node is
lost: if `P_N` vanished at a node, then so would `P_{N-1}`, and then all the way down to `P_0`
(`legendrePolynomial.eval_ne_zero_of_slope`).

## The ends

At the ends `x² = 1`, and the recurrence has the powers of `x` as its solution
(`legendrePolynomial.eval_of_mul_self`).  Hence neither end is ever corrected, whatever happens to
the points between, and mirroring puts half the distance of the ends back in their place.
-/

namespace PostRun
namespace Poisson

open Polynomial

/-- Points of which the first is `-1` and the last one is `1`. -/
structure ReachesEnds {K : Type u} [Field K] (xs : List K) : Prop where
  first : xs.head? = some (-1 : K)
  last : xs.getLast? = some (1 : K)

theorem cast_add_two_ne_zero {R : Type u} [AddMonoidWithOne R] [CharZero R] (n : ℕ) :
    (n : R) + 2 ≠ 0 := by
  exact_mod_cast Nat.succ_ne_zero (n + 1)

/-! ## Legendre polynomials -/

/-- The Legendre polynomials, by their three-term recurrence. -/
noncomputable def legendrePolynomial (K : Type u) [Field K] : ℕ → K[X]
  | 0 => 1
  | 1 => X
  | n + 2 => C ((n : K) + 2)⁻¹ * ((2 * (n : K[X]) + 3) * X * legendrePolynomial K (n + 1) -
      ((n : K[X]) + 1) * legendrePolynomial K n)

namespace legendrePolynomial

variable {K : Type u} [Field K]

@[simp] theorem zero : legendrePolynomial K 0 = 1 := by
  rw [legendrePolynomial]

@[simp] theorem one : legendrePolynomial K 1 = X := by
  rw [legendrePolynomial]

variable [CharZero K]

/-- The three-term recurrence. -/
theorem succ_succ (n : ℕ) : ((n : K[X]) + 2) * legendrePolynomial K (n + 2) =
    (2 * (n : K[X]) + 3) * X * legendrePolynomial K (n + 1) -
      ((n : K[X]) + 1) * legendrePolynomial K n := by
  have hne : (n : K) + 2 ≠ 0 := cast_add_two_ne_zero n
  have hcast : (n : K[X]) + 2 = C ((n : K) + 2) := by
    rw [map_add, map_natCast, map_ofNat]
  rw [legendrePolynomial, hcast, ← mul_assoc, ← C_mul, mul_inv_cancel₀ hne, C_1, one_mul]

/-- The slopes of two polynomials in a row. -/
theorem derivative_succ (n : ℕ) :
    derivative (legendrePolynomial K (n + 1)) =
        X * derivative (legendrePolynomial K n) + ((n : K[X]) + 1) * legendrePolynomial K n ∧
      X * derivative (legendrePolynomial K (n + 1)) - derivative (legendrePolynomial K n) =
        ((n : K[X]) + 1) * legendrePolynomial K (n + 1) := by
  induction n with
  | zero => simp
  | succ n ih =>
    obtain ⟨hnext, hback⟩ := ih
    have hne : (n : K[X]) + 2 ≠ 0 := cast_add_two_ne_zero n
    have hrecurrence := succ_succ (K := K) n
    have hslope : ((n : K[X]) + 2) * derivative (legendrePolynomial K (n + 2)) =
        (2 * (n : K[X]) + 3) * (legendrePolynomial K (n + 1) +
          X * derivative (legendrePolynomial K (n + 1))) -
        ((n : K[X]) + 1) * derivative (legendrePolynomial K n) := by
      have hderivative := congrArg derivative hrecurrence
      simp only [derivative_mul, derivative_sub, derivative_add, derivative_natCast,
        derivative_ofNat, derivative_X, derivative_one] at hderivative
      linear_combination hderivative
    have hsucc : derivative (legendrePolynomial K (n + 2)) =
        X * derivative (legendrePolynomial K (n + 1)) +
          ((n : K[X]) + 2) * legendrePolynomial K (n + 1) := by
      refine mul_left_cancel₀ hne ?_
      linear_combination hslope + ((n : K[X]) + 1) * hback
    push_cast
    refine ⟨by linear_combination hsucc, ?_⟩
    linear_combination X * hsucc - hrecurrence + X * hback - hnext

/-- **The slope of a Legendre polynomial**, from its value and that of the one before it. -/
theorem one_sub_sq_mul_derivative (n : ℕ) :
    (1 - X ^ 2) * derivative (legendrePolynomial K (n + 1)) =
      ((n : K[X]) + 1) * (legendrePolynomial K n - X * legendrePolynomial K (n + 1)) := by
  obtain ⟨hnext, hback⟩ := derivative_succ (K := K) n
  linear_combination hnext - X * hback

/-! ## Values -/

/-- The three-term recurrence of the values. -/
theorem eval_succ_succ (n : ℕ) (x : K) :
    (n + 2) * (legendrePolynomial K (n + 2)).eval x =
      (2 * n + 3) * x * (legendrePolynomial K (n + 1)).eval x -
        (n + 1) * (legendrePolynomial K n).eval x := by
  have hvalues := congrArg (eval x) (succ_succ (K := K) n)
  simpa using hvalues

/-- The slope in terms of the values. -/
theorem one_sub_sq_mul_eval_derivative (n : ℕ) (x : K) :
    (1 - x ^ 2) * (derivative (legendrePolynomial K (n + 1))).eval x =
      (n + 1) * ((legendrePolynomial K n).eval x - x * (legendrePolynomial K (n + 1)).eval x) := by
  have hvalues := congrArg (eval x) (one_sub_sq_mul_derivative (K := K) n)
  simpa using hvalues

/-- The value at an end. -/
theorem eval_of_mul_self {x : K} (h : x * x = 1) (n : ℕ) :
    (legendrePolynomial K n).eval x = x ^ n := by
  induction n using Nat.twoStepInduction with
  | zero => simp
  | one => simp
  | more n hn hsucc =>
    refine mul_left_cancel₀ (cast_add_two_ne_zero n) ?_
    rw [eval_succ_succ, hn, hsucc]
    linear_combination ((n : K) + 1) * x ^ n * h

/-- Two Legendre polynomials in a row do not vanish together, as all before them would. -/
theorem eval_ne_zero_of_eval_succ {n : ℕ} {x : K}
    (h : (legendrePolynomial K (n + 1)).eval x = 0) : (legendrePolynomial K n).eval x ≠ 0 := by
  induction n with
  | zero => simp
  | succ n ih =>
    intro hsucc
    have hn : (n : K) + 1 ≠ 0 := Nat.cast_add_one_ne_zero n
    have hvalues := eval_succ_succ n x
    rw [h, hsucc, mul_zero, mul_zero, zero_sub, zero_eq_neg] at hvalues
    exact ih hsucc ((mul_eq_zero.1 hvalues).resolve_left hn)

/-- A Legendre polynomial does not vanish where it has an extremum, nor at the ends. -/
theorem eval_ne_zero_of_slope {n : ℕ} {x : K}
    (h : (1 - x ^ 2) * (derivative (legendrePolynomial K (n + 1))).eval x = 0) :
    (legendrePolynomial K (n + 1)).eval x ≠ 0 := by
  intro hzero
  have hn : (n : K) + 1 ≠ 0 := Nat.cast_add_one_ne_zero n
  rw [one_sub_sq_mul_eval_derivative, hzero, mul_zero, sub_zero] at h
  exact eval_ne_zero_of_eval_succ hzero ((mul_eq_zero.1 h).resolve_left hn)

end legendrePolynomial

/-! ## Newton's method -/

namespace Lobatto

open legendrePolynomial

variable {K : Type u} [ExactElementary K]

/-- The loop goes from two polynomials in a row to the two that are some degrees higher. -/
theorem recurrence_eq (x : K) (steps k : ℕ) :
    recurrence x steps k ((legendrePolynomial K (k + 1)).eval x)
        ((legendrePolynomial K k).eval x) =
      ((legendrePolynomial K (k + steps + 1)).eval x, (legendrePolynomial K (k + steps)).eval x) := by
  induction steps generalizing k with
  | zero => rfl
  | succ steps ih =>
    have hne : (k : K) + 2 ≠ 0 := cast_add_two_ne_zero k
    have hnext : ((Scalar.ofNat 2 * Scalar.ofNat (k + 2) - Scalar.ofNat 1) * x *
        (legendrePolynomial K (k + 1)).eval x - (Scalar.ofNat (k + 2) - Scalar.ofNat 1) *
          (legendrePolynomial K k).eval x) / Scalar.ofNat (k + 2) =
        (legendrePolynomial K (k + 2)).eval x := by
      have hvalues := eval_succ_succ k x
      simp only [Scalar.ofNat_eq]
      push_cast
      rw [div_eq_iff hne]
      linear_combination -hvalues
    have hplace : k + (steps + 1) = k + 1 + steps := by omega
    rw [recurrence, hnext, ih (k + 1), hplace]

/-- **The loop evaluates the Legendre polynomials.** -/
theorem legendre_succ (n : ℕ) (x : K) :
    legendre (n + 1) x =
      ((legendrePolynomial K (n + 1)).eval x, (legendrePolynomial K n).eval x) := by
  have hloop := recurrence_eq x n 0
  simpa [legendre] using hloop

/-- The step of Newton's method in terms of the Legendre polynomials. -/
theorem correction_succ (n : ℕ) (x : K) :
    correction (n + 2) x =
      (x * (legendrePolynomial K (n + 1)).eval x - (legendrePolynomial K n).eval x) /
        ((n + 2) * (legendrePolynomial K (n + 1)).eval x) := by
  have hdegree : n + 2 - 1 = n + 1 := rfl
  rw [correction, hdegree, legendre_succ, Scalar.ofNat_eq]
  push_cast
  rfl

/-- A point is not moved exactly if it is a node. -/
theorem correction_eq_zero_iff {n : ℕ} {x : K}
    (h : (legendrePolynomial K (n + 1)).eval x ≠ 0) :
    correction (n + 2) x = 0 ↔
      (1 - x ^ 2) * (derivative (legendrePolynomial K (n + 1))).eval x = 0 := by
  have hone : (n : K) + 1 ≠ 0 := Nat.cast_add_one_ne_zero n
  have htwo : (n : K) + 2 ≠ 0 := cast_add_two_ne_zero n
  rw [correction_succ, div_eq_zero_iff, or_iff_left (mul_ne_zero htwo h),
    one_sub_sq_mul_eval_derivative, mul_eq_zero, or_iff_right hone, sub_eq_zero, sub_eq_zero,
    eq_comm]

/-- An end is not moved. -/
theorem correction_of_mul_self (n : ℕ) {x : K} (h : x * x = 1) : correction (n + 2) x = 0 := by
  have hx : x ≠ 0 := left_ne_zero_of_mul_eq_one h
  have hvalue : (legendrePolynomial K (n + 1)).eval x ≠ 0 := by
    rw [eval_of_mul_self h]
    exact pow_ne_zero _ hx
  rw [correction_eq_zero_iff hvalue, sq, h, sub_self, zero_mul]

/-! ## The ends -/

/-- A sweep does not move the ends. -/
theorem reachesEnds_sweeps {n fuel : ℕ} {xs : List K} (h : ReachesEnds xs) :
    ReachesEnds (sweeps (n + 2) fuel xs) := by
  induction fuel generalizing xs with
  | zero => exact h
  | succ fuel ih =>
    have hmoved : ReachesEnds (List.zipWith (· - ·) xs (xs.map (correction (n + 2)))) := by
      rw [List.zipWith_map_right, List.zipWith_self]
      constructor
      · rw [List.head?_map, h.first, Option.map_some,
          correction_of_mul_self n (by ring), sub_zero]
      · rw [List.getLast?_map, h.last, Option.map_some,
          correction_of_mul_self n (by ring), sub_zero]
    rw [Lobatto.sweeps]
    split
    · exact hmoved
    · exact ih hmoved

/-- Mirroring does not move the ends. -/
theorem reachesEnds_symmetric {xs : List K} (hlength : 2 ≤ xs.length) (h : ReachesEnds xs) :
    ReachesEnds (symmetric xs) := by
  have hhalf : 0 < xs.length / 2 := by omega
  have hdistance : halfDistance xs 0 = 1 := by
    rw [halfDistance, List.getD_eq_getElem?_getD, List.getD_eq_getElem?_getD, Nat.sub_zero,
      ← List.getLast?_eq_getElem?, ← List.head?_eq_getElem?, h.first, h.last, Scalar.half_eq]
    norm_num
  constructor
  · rw [List.head?_eq_getElem?, getElem?_symmetric_front hhalf, hdistance]
  · have hback := getElem?_symmetric_back hhalf
    rw [Nat.sub_zero, hdistance] at hback
    rw [List.getLast?_eq_getElem?, length_symmetric, hback]

/-- The sweeps start with both ends. -/
theorem reachesEnds_start (n : ℕ) : ReachesEnds (start (n + 2) : List ℝ) := by
  have hstart : ∀ i < n + 2, (start (n + 2) : List ℝ)[i]? =
      some (-Real.cos (Real.pi * i / (n + 1 : ℕ))) := by
    intro i hi
    rw [start, List.getElem?_map, List.getElem?_range hi]
    rfl
  have hdegree : ((n + 1 : ℕ) : ℝ) ≠ 0 := Nat.cast_ne_zero.2 (Nat.succ_ne_zero n)
  constructor
  · rw [List.head?_eq_getElem?, hstart 0 (by omega), Nat.cast_zero, mul_zero, zero_div,
      Real.cos_zero]
  · have hplace : n + 2 - 1 = n + 1 := rfl
    rw [List.getLast?_eq_getElem?, length_start, hplace, hstart (n + 1) (by omega),
      mul_div_cancel_right₀ _ hdegree, Real.cos_pi, neg_neg]

/-! ## Nodes -/

/-- **The fixed points of a step are the nodes.**  For every degree from one on,

* the loop computes the values of the Legendre polynomial of that degree and of the one before it;
* these give the slope of the polynomial, and they are known at the ends;
* where the polynomial is not zero, the step leaves exactly those points alone that are ends or at
  which the slope is zero, and at all of these the polynomial is not zero;
* the step leaves the ends alone, the sweeps start with them, and so the points that come out, one
  more than the degree, begin and end with them. -/
theorem correction_fixes_nodes {K : Type u} [ExactElementary K] {degree : ℕ} (h : 1 ≤ degree)
    (x : K) :
    legendre degree x = ((legendrePolynomial K degree).eval x,
      (legendrePolynomial K (degree - 1)).eval x) ∧
    (1 - x ^ 2) * (derivative (legendrePolynomial K degree)).eval x =
      degree * ((legendrePolynomial K (degree - 1)).eval x -
        x * (legendrePolynomial K degree).eval x) ∧
    (legendrePolynomial K degree).eval 1 = 1 ∧
    (legendrePolynomial K degree).eval (-1) = (-1) ^ degree ∧
    correction (degree + 1) x =
      (x * (legendrePolynomial K degree).eval x - (legendrePolynomial K (degree - 1)).eval x) /
        ((degree + 1) * (legendrePolynomial K degree).eval x) ∧
    ((legendrePolynomial K degree).eval x ≠ 0 →
      (x - correction (degree + 1) x = x ↔
        (1 - x ^ 2) * (derivative (legendrePolynomial K degree)).eval x = 0)) ∧
    ((1 - x ^ 2) * (derivative (legendrePolynomial K degree)).eval x = 0 →
      (legendrePolynomial K degree).eval x ≠ 0) ∧
    1 - correction (degree + 1) (1 : K) = 1 ∧ -1 - correction (degree + 1) (-1 : K) = -1 ∧
    ReachesEnds (start (degree + 1) : List ℝ) ∧
    ∃ nodes : List ℝ, points (degree + 1) = .ok nodes ∧ nodes.length = degree + 1 ∧
      ReachesEnds nodes := by
  obtain ⟨n, rfl⟩ := Nat.exists_eq_add_of_le' h
  have hstart := reachesEnds_start n
  have hnodes : ReachesEnds (symmetric (sweeps (n + 2) sweepLimit (start (n + 2) : List ℝ))) :=
    reachesEnds_symmetric (by simp) (reachesEnds_sweeps hstart)
  have hone : (1 : K) * 1 = 1 := one_mul 1
  have hneg : (-1 : K) * -1 = 1 := by ring
  refine ⟨legendre_succ n x, ?_, ?_, eval_of_mul_self hneg _, ?_, fun hvalue => ?_,
    eval_ne_zero_of_slope, ?_, ?_, hstart, _, ?_, ?_, hnodes⟩
  · have hslope := one_sub_sq_mul_eval_derivative n x
    push_cast
    exact hslope
  · rw [eval_of_mul_self hone, one_pow]
  · have hcount : ((n + 1 : ℕ) : K) + 1 = n + 2 := by
      push_cast
      ring
    rw [hcount]
    exact correction_succ n x
  · rw [sub_eq_self]
    exact correction_eq_zero_iff hvalue
  · rw [correction_of_mul_self n hone, sub_zero]
  · rw [correction_of_mul_self n hneg, sub_zero]
  · rw [points, if_neg (by omega)]
  · simp

/-- Three points.  The parabola has its extremum at zero, and a point beside it is moved. -/
theorem correction_fixes_nodes_three :
    1 ≤ 2 ∧ (legendrePolynomial ℝ 2).eval 0 ≠ 0 ∧ 0 - correction 3 (0 : ℝ) = 0 ∧
    (legendrePolynomial ℝ 2).eval (1 / 2) ≠ 0 ∧ 1 / 2 - correction 3 (1 / 2 : ℝ) ≠ 1 / 2 ∧
    ∃ middle : ℝ, points 3 = .ok [-1, middle, 1] := by
  have h : 1 ≤ 2 := by decide
  have hparabola : ∀ x : ℝ, (legendrePolynomial ℝ 2).eval x = (3 * x ^ 2 - 1) / 2 := by
    intro x
    have hvalues := eval_succ_succ 0 x
    simp only [zero_add, legendrePolynomial.one, legendrePolynomial.zero, eval_X,
      Polynomial.eval_one] at hvalues
    push_cast at hvalues
    linarith
  have hzero : (legendrePolynomial ℝ 2).eval 0 ≠ 0 := by
    rw [hparabola]
    norm_num
  have hhalf : (legendrePolynomial ℝ 2).eval (1 / 2) ≠ 0 := by
    rw [hparabola]
    norm_num
  obtain ⟨-, hslope, -, -, -, hfixed, -, -, -, -, nodes, hpoints, hlength, hends⟩ :=
    correction_fixes_nodes h (0 : ℝ)
  obtain ⟨-, hslope', -, -, -, hmoved, -⟩ := correction_fixes_nodes h (1 / 2 : ℝ)
  refine ⟨h, hzero, (hfixed hzero).2 ?_, hhalf, fun hsame => ?_, ?_⟩
  · rw [hslope, zero_mul, sub_zero]
    simp
  · have hnode := (hmoved hhalf).1 hsame
    rw [hslope', hparabola] at hnode
    norm_num at hnode
  · match nodes, hlength with
    | [first, middle, last], _ =>
      cases hends.first
      cases hends.last
      exact ⟨middle, hpoints⟩

end Lobatto
end Poisson
end PostRun
