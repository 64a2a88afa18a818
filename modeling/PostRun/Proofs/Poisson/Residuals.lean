import Mathlib.Algebra.Order.BigOperators.Group.List
import PostRun.Proofs.Poisson.Sampling

/-!
# The residual is the error of the source

A verification compares a source with the derivative of a sampled gradient.  Over words the
residual mixes three errors: that of the source, that of the interpolation, and that of rounding.
Over an exact field there is no rounding, and a gradient of lower degree than an element has points
is interpolated by itself.  So only the error of the source is left.

The argument goes along the way of the values.  On an element the gradient is a polynomial in the
logical coordinate, of no higher degree.  The matrix gives its slopes there, which are the
derivative times the Jacobian (`Sampled.slopes_map_eval`); the inverse Jacobian takes that factor
away again, since no element is degenerate (`Sampled.fieldResidual_ofSlopes`).  The norm of an
element is a mean of squares, so it vanishes with the residual at every point and not before
(`meanNorm_eq_zero_iff`).
-/

namespace PostRun
namespace Poisson

open Polynomial

/-! ## Norms -/

section Norm

variable {K : Type u} [ExactElementary K]

theorem sum_map_mul_self_nonneg (values : List K) : 0 ≤ (values.map fun v => v * v).sum :=
  List.sum_nonneg (List.forall_mem_map.2 fun v _ => mul_self_nonneg v)

theorem sum_map_mul_self_eq_zero_iff {values : List K} :
    (values.map fun v => v * v).sum = 0 ↔ ∀ v ∈ values, v = 0 := by
  induction values with
  | nil => simp
  | cons v values ih =>
    rw [List.map_cons, List.sum_cons, add_eq_zero_iff_of_nonneg (mul_self_nonneg v)
      (sum_map_mul_self_nonneg values), ih, mul_self_eq_zero, List.forall_mem_cons]

/-- The root of the mean square vanishes for zeros only. -/
theorem meanNorm_eq_zero_iff {values : List K} : meanNorm values = 0 ↔ ∀ v ∈ values, v = 0 := by
  by_cases hempty : values = []
  · subst hempty
    simp [meanNorm]
  · have hcount : (values.length : K) ≠ 0 :=
      Nat.cast_ne_zero.2 (mt List.length_eq_zero_iff.1 hempty)
    have hmean : 0 ≤ (values.map fun v => v * v).sum / (values.length : K) :=
      div_nonneg (sum_map_mul_self_nonneg values) (Nat.cast_nonneg _)
    rw [meanNorm, if_neg (mt List.isEmpty_iff.1 hempty), Scalar.sum_eq, Scalar.ofNat_eq,
      Elementary.sqrt_eq_zero_iff hmean, div_eq_zero_iff, or_iff_left hcount,
      sum_map_mul_self_eq_zero_iff]

end Norm

/-! ## Residuals -/

namespace Sampled

variable {K : Type u} [ExactElementary K] {nodes : List K} {solution : Solution K}
  {element : Element K} {p : K[X]}

/-- The slopes of a polynomial on an element, in the logical coordinate. -/
theorem slopes_map_eval (hnodup : nodes.Nodup) (hdegree : p.natDegree < nodes.length) :
    (Differentiation.ofNodes nodes).slopes ((nodes.map element.inertial).map p.eval) =
      (nodes.map element.inertial).map fun x => element.jacobian * p.derivative.eval x := by
  have hcomp : (p.comp element.chart).natDegree < nodes.length :=
    lt_of_le_of_lt (element.natDegree_comp_chart_le p) hdegree
  have hvalues : (nodes.map element.inertial).map p.eval =
      nodes.map (p.comp element.chart).eval := by
    rw [List.map_map]
    exact List.map_congr_left fun xi _ => (element.eval_comp_chart p xi).symm
  rw [hvalues, Differentiation.slopes_ofNodes hnodup hcomp, List.map_map]
  exact List.map_congr_left fun xi _ => element.eval_derivative_comp_chart p xi

/-- The inverse Jacobian takes the Jacobian away that the slope brings. -/
theorem fieldResidualAt_mul {jacobian : K} (h : jacobian ≠ 0) (slope source : K) :
    fieldResidualAt (Scalar.ofNat 1 / jacobian) (jacobian * slope) source = -slope - source := by
  rw [fieldResidualAt, Scalar.ofNat_eq, Nat.cast_one]
  field_simp

theorem auxiliaryResidualAt_mul {jacobian : K} (h : jacobian ≠ 0) (slope gradient : K) :
    auxiliaryResidualAt (Scalar.ofNat 1 / jacobian) (jacobian * slope) gradient =
      gradient - slope := by
  rw [auxiliaryResidualAt, Scalar.ofNat_eq, Nat.cast_one]
  field_simp

/-- The residual of the field equation, if the gradient is a polynomial. -/
theorem fieldResidual_ofSlopes (hnodup : nodes.Nodup) (hdegree : p.natDegree < nodes.length)
    (hjacobian : element.jacobian ≠ 0) (hgradient : ∀ x, solution.gradient x = p.eval x) :
    (ofSlopes nodes (.ofNodes nodes) solution element).fieldResidual =
      (nodes.map element.inertial).map fun x => -p.derivative.eval x - solution.source x := by
  have hfun : solution.gradient = fun x => p.eval x := funext hgradient
  rw [ofSlopes, hfun, slopes_map_eval hnodup hdegree, List.zipWith_map, List.zipWith_self]
  exact List.map_congr_left fun x _ => fieldResidualAt_mul hjacobian _ _

/-- The residual of the auxiliary equation, if the field is a polynomial. -/
theorem auxiliaryResidual_ofSlopes (hnodup : nodes.Nodup) (hdegree : p.natDegree < nodes.length)
    (hjacobian : element.jacobian ≠ 0) (hfield : ∀ x, solution.field x = p.eval x) :
    (ofSlopes nodes (.ofNodes nodes) solution element).auxiliaryResidual =
      (nodes.map element.inertial).map fun x => solution.gradient x - p.derivative.eval x := by
  have hfun : solution.field = fun x => p.eval x := funext hfield
  rw [ofSlopes, hfun, slopes_map_eval hnodup hdegree, List.zipWith_map, List.zipWith_self]
  exact List.map_congr_left fun x _ => auxiliaryResidualAt_mul hjacobian _ _

end Sampled

namespace Verification

variable {K : Type u} [ExactElementary K]

/-- **The verification reports exactly the error of the source.**  With as many distinct nodes as
the domain has points for an element, and a polynomial of lower degree as the gradient, all
elements can be sampled, and

* the residual that is stored at a point is what the source misses there;
* the norm of an element vanishes if and only if the source misses nothing at its points;
* the auxiliary residual is the difference of the gradient to the derivative of the field, if the
  field is such a polynomial too. -/
theorem atNodes_reports_error_of_source {nodes : List K} {solution : Solution K}
    {domain : Interval K} {v : K[X]} (hcount : nodes.length = domain.points)
    (hnodup : nodes.Nodup) (hdegree : v.natDegree < domain.points)
    (hgradient : ∀ x, solution.gradient x = v.eval x) :
    ∃ verification, atNodes nodes solution domain = .ok verification ∧
      verification.volumeData.components.find? "InertialCoordinates_x" =
        some (domain.collocation nodes) ∧
      verification.volumeData.components.find? "FieldResidual" =
        some ((domain.collocation nodes).map fun x =>
          -v.derivative.eval x - solution.source x) ∧
      List.Forall₂ (fun element residual => residual.1 = element.id ∧
          (residual.2 = 0 ↔ ∀ x ∈ nodes.map element.inertial,
            solution.source x = -v.derivative.eval x))
        domain.elements verification.residuals ∧
      ∀ u : K[X], u.natDegree < domain.points → (∀ x, solution.field x = u.eval x) →
        verification.volumeData.components.find? "AuxiliaryResidual" =
          some ((domain.collocation nodes).map fun x => v.eval x - u.derivative.eval x) := by
  rw [← hcount] at hdegree
  have hne : nodes ≠ [] := List.ne_nil_of_length_pos (Nat.zero_lt_of_lt hdegree)
  have hjacobian : ∀ e ∈ domain.elements, e.jacobian ≠ 0 := fun e he =>
    (domain.jacobian_pos he).ne'
  have hresidual : ∀ e ∈ domain.elements,
      (Sampled.ofSlopes nodes (.ofNodes nodes) solution e).fieldResidual =
        (nodes.map e.inertial).map fun x => -v.derivative.eval x - solution.source x :=
    fun e he => Sampled.fieldResidual_ofSlopes hnodup hdegree (hjacobian e he) hgradient
  refine ⟨ofSamples (samples nodes solution domain), atNodes_eq_ok hne solution domain,
    find?_coordinate, find?_samples (fun s => by simp [Sampled.components]) hresidual, ?_, ?_⟩
  · refine List.forall₂_map_right_iff.2 (List.forall₂_map_right_iff.2 (List.forall₂_same.2 ?_))
    intro e he
    refine ⟨rfl, ?_⟩
    rw [Sampled.residual, hresidual e he, meanNorm_eq_zero_iff, List.forall_mem_map]
    exact forall₂_congr fun x _ => sub_eq_zero.trans eq_comm
  · intro u hu hfield
    have haux : ∀ e ∈ domain.elements,
        (Sampled.ofSlopes nodes (.ofNodes nodes) solution e).auxiliaryResidual =
          (nodes.map e.inertial).map fun x => v.eval x - u.derivative.eval x := by
      intro e he
      rw [Sampled.auxiliaryResidual_ofSlopes hnodup (hcount ▸ hu) (hjacobian e he) hfield]
      simp only [hgradient]
    exact find?_samples (fun s => by simp [Sampled.components]) haux

/-- The unit interval in two elements of three points each, and a source that is right at the points
of the first one only. -/
theorem atNodes_reports_error_of_source_halfRight :
    ∃ verification a b, atNodes [-1, 0, 1]
        ⟨fun x => x * x, fun x => x * x + x, fun x => -(2 * x + 1) + x * (x - 1 / 4) * (x - 1 / 2)⟩
        (⟨0, 1, false, 1, 3, Real.zero_lt_one, by decide, by decide⟩ : Interval ℝ) =
          .ok verification ∧
      verification.volumeData.components.find? "InertialCoordinates_x" =
        some [0, 1 / 4, 1 / 2, 1 / 2, 3 / 4, 1] ∧
      verification.volumeData.components.find? "FieldResidual" =
        some [0, 0, 0, 0, -3 / 32, -3 / 8] ∧
      verification.residuals.map (·.2) = [a, b] ∧ a = 0 ∧ b ≠ 0 ∧
      verification.volumeData.components.find? "AuxiliaryResidual" =
        some [0, -3 / 16, -1 / 4, -1 / 4, -3 / 16, 0] := by
  set d : Interval ℝ := ⟨0, 1, false, 1, 3, Real.zero_lt_one, by decide, by decide⟩ with hd
  set e : Fin 2 → Element ℝ := d.element with he
  have helements : d.elements = [e 0, e 1] := rfl
  have hinertial : ∀ i xi, (e i).inertial xi = (i : ℕ) / 2 + (xi + 1) / 4 := by
    intro i xi
    have hjacobian : (e i).jacobian = 1 / 4 := by
      refine (d.jacobian_element i).trans ?_
      norm_num [hd, Interval.elementCount, segmentCount]
    have hlower : (e i).lower = (i : ℕ) / 2 := by
      simp [he, hd, Interval.element, Interval.inertial, Interval.segment, Segment.lower,
        Segment.division, segmentCount]
      ring
    rw [Element.inertial, hjacobian, hlower, Scalar.ofNat_eq]
    ring
  have hfirst : [-1, 0, 1].map (e 0).inertial = [0, 1 / 4, 1 / 2] := by norm_num [hinertial]
  have hsecond : [-1, 0, 1].map (e 1).inertial = [1 / 2, 3 / 4, 1] := by norm_num [hinertial]
  have hpoints : d.collocation [-1, 0, 1] = [0, 1 / 4, 1 / 2, 1 / 2, 3 / 4, 1] := by
    rw [Interval.collocation, helements, List.flatMap_cons, List.flatMap_cons, hfirst, hsecond]
    rfl
  have hdegree : (X ^ 2 + X : ℝ[X]).natDegree < 3 := by
    refine lt_of_le_of_lt ?_ (show 2 < 3 by decide)
    compute_degree
  obtain ⟨verification, hrun, hx, hfield, hnorms, haux⟩ :=
    @atNodes_reports_error_of_source ℝ _ [-1, 0, 1]
      ⟨fun x => x * x, fun x => x * x + x, fun x => -(2 * x + 1) + x * (x - 1 / 4) * (x - 1 / 2)⟩ d
      (X ^ 2 + X) rfl (by norm_num) hdegree (fun x => by simp [sq])
  have hslope := haux (X ^ 2) (by simp [d]) (fun x => by simp [sq])
  rw [hpoints] at hx hfield hslope
  rw [helements] at hnorms
  obtain ⟨first, others, ⟨-, hfirstNorm⟩, hothers, hresiduals⟩ :=
    List.forall₂_cons_left_iff.1 hnorms
  obtain ⟨second, rest, ⟨-, hsecondNorm⟩, hrest, rfl⟩ := List.forall₂_cons_left_iff.1 hothers
  obtain rfl : rest = [] := List.forall₂_nil_left_iff.1 hrest
  rw [hfirst] at hfirstNorm
  rw [hsecond] at hsecondNorm
  refine ⟨verification, first.2, second.2, hrun, hx, ?_, by rw [hresiduals]; rfl, ?_, ?_, ?_⟩
  · rw [hfield]
    norm_num
  · rw [hfirstNorm]
    norm_num
  · rw [Ne, hsecondNorm]
    norm_num
  · rw [hslope]
    norm_num

end Verification
end Poisson
end PostRun
