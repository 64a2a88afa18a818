import PostRun.Proofs.Poisson.Residuals
import PostRun.Proofs.Poisson.Shape

/-!
# Mirrored elements have equal residuals

A solution that is symmetric about the middle of a domain, or antisymmetric, has a residual of the
same kind.  Over words that holds up to rounding only.  Over an exact field it is a law, provided
that the nodes are mirror-symmetric about zero, which the Lobatto points are
(`Lobatto.areMirrored_of_points`).

## The matrix

The matrix is antisymmetric about its centre.  Its entries show that only after a count of signs: a
weight changes its sign or keeps it, depending on how many nodes there are.  There is no need to
look at them.  Values at different nodes are those of a polynomial `p`, and the same values in
reverse order are those of `p` at the mirrored nodes.  The derivative of the latter is the negative
of `p'` at the mirrored nodes, and the matrix is exact on both (`Differentiation.slopes_reverse`).

## The domain

The mirror image of an element about the middle of the domain is the element with as many others to
its right as the first one has to its left (`Interval.inertial_element_rev`).  So the samples of
all elements, back to back, are turned around as a whole (`Interval.reverse_flatMap_elements`).  A
mirrored place is then a place of the reversed list, and one index finds both the element and the
node (`mirrorsBy_of_reverse`).
-/

namespace PostRun
namespace Poisson

open Polynomial

/-! ## Nodes -/

/-- Nodes that are mirror-symmetric about zero. -/
def AreMirrored {K : Type u} [ExactScalar K] (nodes : List K) : Prop :=
  nodes.reverse = nodes.map (- ·)

/-- The points made symmetric are so, whatever they were before. -/
theorem Lobatto.areMirrored_symmetric {K : Type u} [ExactElementary K] (xs : List K) :
    AreMirrored (symmetric xs) := by
  have hmiddle : ∀ middle : List K, middle = [Scalar.zero] ∨ middle = [] →
      middle.reverse = middle.map (- ·) := by
    rintro middle (rfl | rfl)
    · simp
    · rfl
  rw [AreMirrored, symmetric]
  simp only [List.reverse_append, List.map_append, List.reverse_reverse, List.map_reverse,
    List.map_map, List.append_assoc]
  rw [hmiddle _ (by split_ifs <;> simp)]
  simp

/-- **The Lobatto points are mirror-symmetric.** -/
theorem Lobatto.areMirrored_of_points {K : Type u} [ExactElementary K] {n : ℕ} {nodes : List K}
    (h : Lobatto.points n = .ok nodes) : AreMirrored nodes := by
  unfold points at h
  split_ifs at h
  cases h
  exact areMirrored_symmetric _

/-! ## The matrix of mirrored nodes -/

namespace Differentiation

variable {K : Type u} [ExactScalar K] {nodes values : List K}

/-- Values at different nodes are those of a polynomial. -/
theorem exists_map_eval_eq (hnodup : nodes.Nodup) (hne : nodes ≠ [])
    (hlength : values.length = nodes.length) :
    ∃ p : K[X], p.natDegree < nodes.length ∧ nodes.map p.eval = values := by
  classical
  have hinj : Set.InjOn nodes.get (Finset.univ : Finset (Fin nodes.length)) :=
    (List.nodup_iff_injective_get.1 hnodup).injOn
  set r : Fin nodes.length → K := fun i => values[i] with hr
  set p := Lagrange.interpolate Finset.univ nodes.get r with hp
  have hdegree : p.degree < nodes.length := by
    have hbound := Lagrange.degree_interpolate_lt r hinj
    rwa [Finset.card_univ, Fintype.card_fin] at hbound
  have heval : ∀ i : Fin nodes.length, p.eval nodes[i] = values[i] := fun i =>
    Lagrange.eval_interpolate_at_node r hinj (Finset.mem_univ i)
  refine ⟨p, ?_, List.ext_getElem (by simp [hlength]) fun i hi _ => ?_⟩
  · by_cases hzero : p = 0
    · rw [hzero, natDegree_zero]
      exact List.length_pos_iff.2 hne
    · exact (natDegree_lt_iff_degree_lt hzero).2 hdegree
  · rw [List.length_map] at hi
    rw [List.getElem_map]
    exact heval ⟨i, hi⟩

/-- The slopes of a multiple of some values. -/
theorem slopes_map_mul (m : Differentiation K) (c : K) (values : List K) :
    m.slopes (values.map (c * ·)) = (m.slopes values).map (c * ·) := by
  have hrow : ∀ row : List K, Scalar.sum (List.zipWith (· * ·) row (values.map (c * ·))) =
      c * Scalar.sum (List.zipWith (· * ·) row values) := by
    intro row
    have hproducts : List.zipWith (· * ·) row (values.map (c * ·)) =
        (List.zipWith (· * ·) row values).map (c * ·) := by
      rw [List.zipWith_map_right, List.map_zipWith]
      simp only [mul_left_comm c]
    rw [Scalar.sum_eq, Scalar.sum_eq, hproducts, List.sum_map_mul_left _ fun u => u, List.map_id']
  rw [slopes, slopes, List.map_map]
  exact List.map_congr_left fun row _ => hrow row

/-- **The matrix of mirrored nodes is antisymmetric about its centre**: values in reverse order have
the negative slopes in reverse order. -/
theorem slopes_reverse (hmirrored : AreMirrored nodes) (hnodup : nodes.Nodup) (hne : nodes ≠ [])
    (hlength : values.length = nodes.length) :
    (ofNodes nodes).slopes values.reverse =
      (((ofNodes nodes).slopes values).map (- ·)).reverse := by
  classical
  obtain ⟨p, hdegree, rfl⟩ := exists_map_eval_eq hnodup hne hlength
  have hdegree' : (p.comp (-X)).natDegree < nodes.length := by
    rwa [natDegree_comp, natDegree_neg, natDegree_X, Nat.mul_one]
  have hvalues : (nodes.map p.eval).reverse = nodes.map (p.comp (-X)).eval := by
    rw [← List.map_reverse, hmirrored]
    simp
  rw [hvalues, slopes_ofNodes hnodup hdegree', slopes_ofNodes hnodup hdegree, ← List.map_reverse,
    ← List.map_reverse, hmirrored]
  simp [derivative_comp]

end Differentiation

/-! ## The domain -/

namespace Interval

variable {K : Type u} [ExactScalar K] [CharZero K] [LT K] (d : Interval K)

/-- **The mirror image of an element** is the one with as many others to its right. -/
theorem inertial_element_rev (i : Fin d.elementCount) (xi : K) :
    (d.element i.rev).inertial xi = d.lower + d.upper - (d.element i).inertial (-xi) := by
  have hcount : (d.elementCount : K) ≠ 0 := Nat.cast_ne_zero.2 d.elementCount_pos.ne'
  have hplace : ((i.rev : ℕ) : K) = d.elementCount - (i + 1) := by
    rw [Fin.val_rev, Nat.cast_sub i.isLt]
    push_cast
    rfl
  rw [Element.inertial, Element.inertial, jacobian_element, jacobian_element, lower_element,
    lower_element, hplace, Scalar.ofNat_eq]
  field_simp
  ring

/-- The points of an element are those of its mirror image, mirrored and in reverse order. -/
theorem map_inertial_element_rev {nodes : List K} (hmirrored : AreMirrored nodes)
    (i : Fin d.elementCount) :
    nodes.map (d.element i.rev).inertial =
      ((nodes.map (d.element i).inertial).map (d.lower + d.upper - ·)).reverse := by
  rw [← List.map_reverse, ← List.map_reverse, hmirrored, List.map_map, List.map_map]
  exact List.map_congr_left fun xi _ => d.inertial_element_rev i xi

omit [CharZero K] in
/-- Values of all elements, back to back, are turned around as a whole if those of every element
are. -/
theorem reverse_flatMap_elements {r : Element K → List K} {f : K → K}
    (h : ∀ i, r (d.element i.rev) = ((r (d.element i)).map f).reverse) :
    (d.elements.flatMap r).reverse = (d.elements.flatMap r).map f := by
  have hreverse : d.elements.reverse = List.ofFn fun i => d.element i.rev := by
    refine List.ext_getElem (by simp) fun i hi _ => ?_
    rw [List.length_reverse, length_elements] at hi
    simp only [elements, List.getElem_reverse, List.getElem_ofFn, List.length_ofFn]
    have hplace : d.elementCount - 1 - i = d.elementCount - (i + 1) := by omega
    exact congrArg d.element (Fin.ext hplace)
  rw [List.reverse_flatMap, hreverse, List.map_flatMap, elements, List.flatMap_def,
    List.flatMap_def, List.map_ofFn, List.map_ofFn]
  simp [h, Function.comp_def]

end Interval

/-! ## Samples -/

/-- A solution that is the same at mirrored places up to a sign, which its gradient has the other
way round.  The sum of mirrored places is given. -/
structure Solution.IsMirrored {K : Type u} [ExactScalar K] (solution : Solution K) (sum sign : K) :
    Prop where
  field x : solution.field (sum - x) = sign * solution.field x
  gradient x : solution.gradient (sum - x) = -sign * solution.gradient x
  source x : solution.source (sum - x) = sign * solution.source x

namespace Sampled

variable {K : Type u} [ExactElementary K] {nodes : List K} {solution : Solution K}
  {domain : Interval K} {sign c : K} {f : K → K}

/-- The samples of an element are those of its mirror image, in reverse order. -/
theorem map_samples_rev (hmirrored : AreMirrored nodes)
    (hf : ∀ x, f (domain.lower + domain.upper - x) = c * f x) (i : Fin domain.elementCount) :
    (nodes.map (domain.element i.rev).inertial).map f =
      (((nodes.map (domain.element i).inertial).map f).map (c * ·)).reverse := by
  rw [domain.map_inertial_element_rev hmirrored, List.map_reverse, List.map_map, List.map_map,
    List.map_map, List.map_map]
  exact congrArg List.reverse (List.map_congr_left fun xi _ => hf _)

/-- The slopes of these samples have the other sign. -/
theorem slopes_samples_rev (hmirrored : AreMirrored nodes) (hnodup : nodes.Nodup)
    (hne : nodes ≠ []) (hf : ∀ x, f (domain.lower + domain.upper - x) = c * f x)
    (i : Fin domain.elementCount) :
    (Differentiation.ofNodes nodes).slopes ((nodes.map (domain.element i.rev).inertial).map f) =
      (((Differentiation.ofNodes nodes).slopes ((nodes.map (domain.element i).inertial).map f)).map
        (-c * ·)).reverse := by
  rw [map_samples_rev hmirrored hf, Differentiation.slopes_reverse hmirrored hnodup hne (by simp),
    Differentiation.slopes_map_mul, List.map_map]
  simp only [Function.comp_def, neg_mul]

theorem jacobian_rev (i : Fin domain.elementCount) :
    (domain.element i.rev).jacobian = (domain.element i).jacobian := by
  rw [domain.jacobian_element, domain.jacobian_element]

/-- **The field residual of the mirror image** is the same up to the sign, in reverse order. -/
theorem fieldResidual_rev (hmirrored : AreMirrored nodes) (hnodup : nodes.Nodup) (hne : nodes ≠ [])
    (hsolution : solution.IsMirrored (domain.lower + domain.upper) sign)
    (i : Fin domain.elementCount) :
    (ofSlopes nodes (.ofNodes nodes) solution (domain.element i.rev)).fieldResidual =
      ((ofSlopes nodes (.ofNodes nodes) solution (domain.element i)).fieldResidual.map
        (sign * ·)).reverse := by
  have hpoint : ∀ inverse slope source : K,
      fieldResidualAt inverse (- -sign * slope) (sign * source) =
        sign * fieldResidualAt inverse slope source := by
    intro inverse slope source
    simp only [fieldResidualAt]
    ring
  simp only [ofSlopes]
  rw [slopes_samples_rev hmirrored hnodup hne hsolution.gradient,
    map_samples_rev hmirrored hsolution.source, jacobian_rev,
    ← List.reverse_zipWith (by simp), List.zipWith_map, List.map_zipWith]
  simp only [hpoint]

/-- The auxiliary residual of the mirror image has the other sign. -/
theorem auxiliaryResidual_rev (hmirrored : AreMirrored nodes) (hnodup : nodes.Nodup)
    (hne : nodes ≠ []) (hsolution : solution.IsMirrored (domain.lower + domain.upper) sign)
    (i : Fin domain.elementCount) :
    (ofSlopes nodes (.ofNodes nodes) solution (domain.element i.rev)).auxiliaryResidual =
      ((ofSlopes nodes (.ofNodes nodes) solution (domain.element i)).auxiliaryResidual.map
        (-sign * ·)).reverse := by
  have hpoint : ∀ inverse slope gradient : K,
      auxiliaryResidualAt inverse (-sign * slope) (-sign * gradient) =
        -sign * auxiliaryResidualAt inverse slope gradient := by
    intro inverse slope gradient
    simp only [auxiliaryResidualAt]
    ring
  simp only [ofSlopes]
  rw [slopes_samples_rev hmirrored hnodup hne hsolution.field,
    map_samples_rev hmirrored hsolution.gradient, jacobian_rev,
    ← List.reverse_zipWith (by simp), List.zipWith_map, List.map_zipWith]
  simp only [hpoint]

end Sampled

/-- The norm knows neither the sign nor the order of its values. -/
theorem meanNorm_map_sign_reverse {K : Type u} [ExactElementary K] {sign : K}
    (hsign : sign = 1 ∨ sign = -1) (values : List K) :
    meanNorm (values.map (sign * ·)).reverse = meanNorm values := by
  have hsquare : ∀ v : K, sign * v * (sign * v) = v * v := by
    rcases hsign with rfl | rfl <;> intro v <;> ring
  simp only [meanNorm, List.isEmpty_reverse, List.isEmpty_map, List.length_reverse, List.length_map,
    List.map_reverse, List.map_map, Function.comp_def, hsquare, Scalar.sum_eq, List.sum_reverse]

/-! ## Mirrored places -/

/-- Values at the points of all elements, back to back, each of which a function makes of the value
at the mirrored point of the mirrored element. -/
def MirrorsBy {K : Type u} (f : K → K) (count points : ℕ) (values : List K) : Prop :=
  values.length = count * points ∧ ∀ (i : Fin count) (k : Fin points),
    values[(i * points + k : ℕ)]? = (values[(i.rev * points + k.rev : ℕ)]?).map f

/-- Mirrored places are as far from one end of the values as from the other. -/
theorem mirrorsBy_of_reverse {K : Type u} {f : K → K} {count points : ℕ} {values : List K}
    (hlength : values.length = count * points) (hreverse : values.reverse = values.map f) :
    MirrorsBy f count points values := by
  refine ⟨hlength, fun i k => ?_⟩
  have hplaces : (i * points + k : ℕ) + (i.rev * points + k.rev : ℕ) + 1 = values.length := by
    have helements : (i : ℕ) + i.rev + 1 = count := by
      rw [Fin.val_rev]
      omega
    have hpoints : (k : ℕ) + k.rev + 1 = points := by
      rw [Fin.val_rev]
      omega
    calc (i * points + k : ℕ) + (i.rev * points + k.rev : ℕ) + 1
        = ((i : ℕ) + i.rev) * points + ((k : ℕ) + k.rev + 1) := by ring
      _ = ((i : ℕ) + i.rev + 1) * points := by rw [hpoints, Nat.succ_mul]
      _ = values.length := by rw [helements, hlength]
  rw [← List.getElem?_map, ← hreverse, List.getElem?_reverse (by omega)]
  congr 1
  omega

namespace Verification

variable {K : Type u} [ExactElementary K] {nodes : List K} {solution : Solution K}
  {domain : Interval K} {sign : K}

/-- A component that is turned around on every element is turned around as a whole. -/
theorem exists_find?_mirrorsBy (component : String) {values : Sampled K → List K} {f : K → K}
    (hcount : nodes.length = domain.points)
    (hvalues : ∀ s, (component, values s) ∈ s.components)
    (hrev : ∀ i, values (.ofSlopes nodes (.ofNodes nodes) solution (domain.element i.rev)) =
      ((values (.ofSlopes nodes (.ofNodes nodes) solution (domain.element i))).map f).reverse) :
    ∃ stored, (ofSamples (samples nodes solution domain)).volumeData.components.find? component =
      some stored ∧ MirrorsBy f domain.elementCount domain.points stored := by
  have hfound := find?_ofSamples (samples_ne_nil nodes solution domain) carries_samples hvalues
  refine ⟨_, hfound, mirrorsBy_of_reverse ?_ ?_⟩
  · rw [(hasShape_ofSamples nodes solution domain).length_component component _ hfound, hcount,
      Nat.mul_comm]
    rfl
  · rw [samples, List.flatMap_map]
    exact domain.reverse_flatMap_elements hrev

/-- **Mirrored elements have equal residuals.**  The nodes are different, mirror-symmetric about
zero and as many as the domain has points for an element, as the Lobatto points are; the solution
is symmetric about the middle of the domain, or antisymmetric.  Then all elements can be sampled.

* the field residual at a point is the one at the mirrored point of the mirrored element, times the
  sign, and the auxiliary residual is so with the other sign;
* the norms that are reported for an element and its mirror image are equal. -/
theorem atNodes_mirrors (hcount : nodes.length = domain.points) (hnodup : nodes.Nodup)
    (hmirrored : AreMirrored nodes) (hsign : sign = 1 ∨ sign = -1)
    (hsolution : solution.IsMirrored (domain.lower + domain.upper) sign) :
    domain.elementCount = 2 ^ domain.level ∧
    ∃ verification residual auxiliary, atNodes nodes solution domain = .ok verification ∧
      verification.volumeData.components.find? "FieldResidual" = some residual ∧
      MirrorsBy (sign * ·) domain.elementCount domain.points residual ∧
      verification.volumeData.components.find? "AuxiliaryResidual" = some auxiliary ∧
      MirrorsBy (-sign * ·) domain.elementCount domain.points auxiliary ∧
      verification.residuals.length = domain.elementCount ∧
      ∀ i : Fin domain.elementCount, ∃ norm,
        verification.residuals[(i : ℕ)]? = some ((domain.element i).id, norm) ∧
        verification.residuals[(i.rev : ℕ)]? = some ((domain.element i.rev).id, norm) := by
  have hne : nodes ≠ [] := by
    have := domain.two_le_points
    exact List.ne_nil_of_length_pos (by omega)
  obtain ⟨residual, hresidual, hfield⟩ := exists_find?_mirrorsBy "FieldResidual" hcount
    (fun s => by simp [Sampled.components])
    (Sampled.fieldResidual_rev hmirrored hnodup hne hsolution)
  obtain ⟨auxiliary, hauxiliary, haux⟩ := exists_find?_mirrorsBy "AuxiliaryResidual" hcount
    (fun s => by simp [Sampled.components])
    (Sampled.auxiliaryResidual_rev hmirrored hnodup hne hsolution)
  refine ⟨rfl, ofSamples (samples nodes solution domain), residual, auxiliary,
    atNodes_eq_ok hne solution domain, hresidual, hfield, hauxiliary, haux, ?_, fun i => ?_⟩
  · simp [ofSamples, samples]
  · have hnorm : ∀ j : Fin domain.elementCount,
        (ofSamples (samples nodes solution domain)).residuals[(j : ℕ)]? =
          some ((domain.element j).id,
            (Sampled.ofSlopes nodes (.ofNodes nodes) solution (domain.element j)).residual) := by
      intro j
      simp [ofSamples, samples, Interval.elements, Sampled.ofSlopes]
    refine ⟨_, hnorm i, ?_⟩
    rw [hnorm, Sampled.residual, Sampled.fieldResidual_rev hmirrored hnodup hne hsolution,
      meanNorm_map_sign_reverse hsign]
    rfl

/-- An arch of the sine, refined as `halvedUnit` is: two elements of three points each. -/
noncomputable def sineArch : Interval ℝ where
  lower := 0
  upper := Real.pi
  periodic := false
  level := halvedUnit.level
  points := halvedUnit.points
  lower_lt_upper := Real.pi_pos
  two_le_points := halvedUnit.two_le_points
  level_lt := halvedUnit.level_lt

/-- The sine is symmetric about the middle of its arch, and so are its residuals. -/
theorem atNodes_mirrors_sineArch :
    ([-1, 0, 1] : List ℝ).Nodup ∧ AreMirrored ([-1, 0, 1] : List ℝ) ∧
    (Solution.sinusoid (1 : ℝ)).IsMirrored (sineArch.lower + sineArch.upper) 1 ∧
    ∃ verification residual left right norm,
      atNodes [-1, 0, 1] (.sinusoid 1) sineArch = .ok verification ∧
      verification.volumeData.components.find? "FieldResidual" = some residual ∧
      residual.length = 6 ∧ residual[0]? = residual[5]? ∧ residual[1]? = residual[4]? ∧
      residual[2]? = residual[3]? ∧
      verification.residuals = [(left, norm), (right, norm)] ∧
      left.text = "[B0,(L1I0)]" ∧ right.text = "[B0,(L1I1)]" := by
  have hnodes : ([-1, 0, 1] : List ℝ).length = sineArch.points := rfl
  have hnodup : ([-1, 0, 1] : List ℝ).Nodup := by norm_num
  have hmirrored : AreMirrored ([-1, 0, 1] : List ℝ) := by
    simp [AreMirrored]
  have hsum : sineArch.lower + sineArch.upper = Real.pi := zero_add Real.pi
  have hsolution : (Solution.sinusoid (1 : ℝ)).IsMirrored (sineArch.lower + sineArch.upper) 1 := by
    rw [hsum]
    constructor <;> intro x
    · have hsin : Real.sin (1 * (Real.pi - x)) = 1 * Real.sin (1 * x) := by
        simp only [one_mul, Real.sin_pi_sub]
      exact hsin
    · have hcos : 1 * Real.cos (1 * (Real.pi - x)) = -1 * (1 * Real.cos (1 * x)) := by
        simp only [one_mul, neg_one_mul, Real.cos_pi_sub]
      exact hcos
    · have hsin : 1 * 1 * Real.sin (1 * (Real.pi - x)) = 1 * (1 * 1 * Real.sin (1 * x)) := by
        simp only [one_mul, Real.sin_pi_sub]
      exact hsin
  obtain ⟨-, verification, residual, -, hrun, hfound, ⟨hlength, hplaces⟩, -, -, hcount, hnorms⟩ :=
    atNodes_mirrors hnodes hnodup hmirrored (.inl rfl) hsolution
  obtain ⟨norm, hleft, hright⟩ := hnorms (0 : Fin 2)
  have hone : ∀ value : Option ℝ, value.map (1 * ·) = value := by
    intro value
    simp
  refine ⟨hnodup, hmirrored, hsolution, verification, residual, (sineArch.element (0 : Fin 2)).id,
    (sineArch.element (Fin.rev (0 : Fin 2))).id, norm, hrun, hfound, hlength,
    ?_, ?_, ?_, List.ext_getElem? fun i => ?_, rfl, rfl⟩
  · exact (hplaces (0 : Fin 2) (0 : Fin 3)).trans (hone _)
  · exact (hplaces (0 : Fin 2) (1 : Fin 3)).trans (hone _)
  · exact (hplaces (0 : Fin 2) (2 : Fin 3)).trans (hone _)
  · match i with
    | 0 => exact hleft
    | 1 => exact hright
    | i + 2 =>
      rw [List.getElem?_eq_none_iff.2, List.getElem?_eq_none_iff.2]
      · simp
      · rw [hcount]
        exact Nat.le_add_left 2 i

end Verification
end Poisson
end PostRun
