import Mathlib.LinearAlgebra.Lagrange
import Mathlib.Tactic.ComputeDegree
import Mathlib.Tactic.NormNum
import PostRun.Proofs.Number.Exact
import PostRun.Poisson.Differentiation

/-!
# The matrix differentiates exactly

A polynomial of lower degree than there are nodes is the sum of its values times the basis
polynomials of Lagrange.  The derivative at a node is then known once the slopes of the basis
polynomials are, and for the basis polynomial of another node that slope is a quotient of two
barycentric weights by the distance (`eval_derivative_basis`).  This is the entry beside the
diagonal.

## The diagonal

The basis polynomial of the node itself would need a sum of inverse distances.  The matrix never
forms it: its diagonal makes the row sum to zero.  That suffices, because a polynomial has the
derivative of its difference to the value at that node, and in this difference the node itself has
no share (`eval_derivative_eq_sum`).  A row works the same way (`sum_zipWith_row`).

Division is total here, so an equation alone would not show that nothing is divided by zero.  A
weight is the inverse of a product of distances, and an entry divides by a weight and by a distance.
Between different nodes no distance vanishes, and with them no weight (`weight_ne_zero`).

## Main results

* `Differentiation.apply_eq_ok`: values that fit the matrix are differentiated.
* `Differentiation.sum_of_mem_rows_ofNodes`: every row sums to zero, whatever the nodes are.
* `Differentiation.slopes_ofNodes`: the matrix of some nodes is exact on polynomials of lower
  degree.
* `Differentiation.apply_ofNodes_eval`: all of this for the program as a whole.
-/

namespace PostRun
namespace Poisson

open Polynomial Lagrange

/-! ## Slopes of polynomials at nodes -/

section Interpolation

variable {F : Type u} [Field F] [DecidableEq F] {s : Finset F} {x y : F}

/-- The slope, at a node, of the basis polynomial of another node. -/
theorem eval_derivative_basis (hx : x ∈ s) (hy : y ∈ s) (hne : y ≠ x) :
    (Lagrange.basis s id y).derivative.eval x =
      nodalWeight s id y / nodalWeight s id x / (x - y) := by
  have hdiff : x - y ≠ 0 := sub_ne_zero.2 hne.symm
  -- The weight of `x` has one more factor than the slope: the distance to `y`.
  have hweight : (nodalWeight s id x)⁻¹ =
      (x - y) * (nodal (s.erase y) id).derivative.eval x := by
    have hxy : x ∈ s.erase y := Finset.mem_erase.2 ⟨hne.symm, hx⟩
    have hyx : y ∈ s.erase x := Finset.mem_erase.2 ⟨hne, hy⟩
    have hslope : (nodal (s.erase y) id).derivative.eval x =
        (nodal ((s.erase y).erase x) id).eval x :=
      eval_nodal_derivative_eval_node_eq (v := id) hxy
    rw [hslope, nodalWeight_eq_eval_nodal_erase_inv, inv_inv, Finset.erase_right_comm,
      nodal_eq_mul_nodal_erase hyx]
    simp
  rw [basis_eq_prod_sub_inv_mul_nodal_div hy, ← nodal_erase_eq_nodal_div hy, derivative_C_mul,
    eval_C_mul, div_eq_mul_inv (nodalWeight s id y), hweight]
  field_simp

/-- The derivative at a node, from the differences of the values to the one at that node. -/
theorem eval_derivative_eq_sum {p : F[X]} (hp : p.natDegree < s.card) (hx : x ∈ s) :
    p.derivative.eval x = ∑ y ∈ s.erase x,
      nodalWeight s id y / nodalWeight s id x / (x - y) * (p.eval y - p.eval x) := by
  have hdegree : (p - C (p.eval x)).degree < s.card := by
    refine lt_of_le_of_lt degree_le_natDegree ?_
    rw [natDegree_sub_C]
    exact_mod_cast hp
  have hinterpolate : p - C (p.eval x) = interpolate s id fun y => p.eval y - p.eval x := by
    refine eq_interpolate_of_eval_eq _ (Set.injOn_id _) hdegree ?_
    intro y _
    simp
  calc p.derivative.eval x
      = (p - C (p.eval x)).derivative.eval x := by simp
    _ = ∑ y ∈ s, (p.eval y - p.eval x) * (Lagrange.basis s id y).derivative.eval x := by
        rw [hinterpolate, interpolate_apply, derivative_sum, eval_finsetSum]
        simp
    _ = ∑ y ∈ s.erase x, (p.eval y - p.eval x) * (Lagrange.basis s id y).derivative.eval x := by
        rw [← Finset.add_sum_erase s _ hx]
        simp
    _ = ∑ y ∈ s.erase x,
        nodalWeight s id y / nodalWeight s id x / (x - y) * (p.eval y - p.eval x) := by
        refine Finset.sum_congr rfl fun y hy => ?_
        obtain ⟨hne, hys⟩ := Finset.mem_erase.1 hy
        rw [eval_derivative_basis hx hys hne, mul_comm]

end Interpolation

namespace Differentiation

/-! ## Values that fit -/

section Scalars

variable {α : Type u} [Scalar α]

/-- What a matrix makes of values, one for each row. -/
def slopes (m : Differentiation α) (values : List α) : List α :=
  m.rows.map fun row => Scalar.sum (List.zipWith (· * ·) row values)

@[simp] theorem length_slopes (m : Differentiation α) (values : List α) :
    (m.slopes values).length = m.rows.length := by simp [slopes]

/-- As many values as rows are taken, if there are any. -/
theorem apply_eq_ok {m : Differentiation α} {values : List α} (hne : values ≠ [])
    (hlength : values.length = m.rows.length) : m.apply values = .ok (m.slopes values) := by
  have hpos : m.rows.length ≠ 0 := by
    rwa [← hlength, Ne, List.length_eq_zero_iff]
  rw [apply, if_neg (not_not.2 hlength), if_neg hpos, slopes]

/-- **The matrix of some nodes is square.** -/
theorem length_of_mem_rows_ofNodes {nodes : List α} :
    ∀ row ∈ (ofNodes nodes).rows, row.length = nodes.length := by
  intro entries hentries
  obtain ⟨i, hi, rfl⟩ := List.mem_mapIdx.1 hentries
  have hweighted : (weighted nodes).length = nodes.length := by simp [weighted]
  rw [row, List.length_append, List.length_cons, List.length_map, List.length_map, List.length_take,
    List.length_drop, hweighted]
  omega

end Scalars

/-! ## Rows -/

variable {K : Type u} [ExactScalar K]

theorem sum_map_mul_sub {ι : Type v} (c g : ι → K) (a : K) (xs : List ι) :
    (xs.map fun x => c x * (g x - a)).sum =
      (xs.map fun x => c x * g x).sum - (xs.map c).sum * a := by
  induction xs with
  | nil => simp
  | cons x xs ih =>
    simp only [List.map_cons, List.sum_cons, ih]
    ring

/-- A row takes values to their differences to the value on the diagonal, each times its entry. -/
theorem sum_zipWith_row (before after : List (K × K)) (node : K × K) (value : K × K → K) :
    Scalar.sum (List.zipWith (· * ·) (row before node after)
      ((before ++ node :: after).map value)) =
      ((before ++ after).map fun other => entry node other * (value other - value node)).sum := by
  have hlength : (before.map (entry node)).length = (before.map value).length := by simp
  have hbeside : ∀ nodes : List (K × K),
      List.zipWith (· * ·) (nodes.map (entry node)) (nodes.map value) =
        nodes.map fun other => entry node other * value other := by
    intro nodes
    rw [List.zipWith_map, List.zipWith_self]
  rw [row, Scalar.foldl_sub, Scalar.zero_eq, Scalar.sum_eq, List.map_append, List.map_cons,
    List.zipWith_append hlength, List.zipWith_cons_cons, hbeside, hbeside]
  simp only [List.map_append, List.sum_append, List.sum_cons, sum_map_mul_sub]
  ring

/-- The diagonal is the negative of the other entries. -/
theorem sum_row (before after : List (K × K)) (node : K × K) :
    (row before node after).sum = 0 := by
  rw [row, Scalar.foldl_sub, Scalar.zero_eq, List.sum_append, List.sum_cons, List.sum_append]
  ring

/-- **Every row sums to zero**, so that constants have no derivative. -/
theorem sum_of_mem_rows_ofNodes {nodes : List K} :
    ∀ entries ∈ (ofNodes nodes).rows, entries.sum = 0 := by
  intro entries hentries
  obtain ⟨i, hi, rfl⟩ := List.mem_mapIdx.1 hentries
  exact sum_row _ _ _

/-! ## A node in its place -/

section Places

variable {ι : Type v}

/-- Every item of a list stands between those before it and those after it. -/
theorem forall_getElem_of_split {xs : List ι} {P : ℕ → ι → Prop}
    (h : ∀ before x after, xs = before ++ x :: after → P before.length x) {i : ℕ}
    (hi : i < xs.length) : P i xs[i] := by
  have hsplit : xs = xs.take i ++ xs[i] :: xs.drop (i + 1) := by simp
  have hplace : (xs.take i).length = i := List.length_take_of_le hi.le
  have hitem : P (xs.take i).length xs[i] := h _ _ _ hsplit
  rwa [hplace] at hitem

theorem nodup_beside {before after : List ι} {x : ι} (h : (before ++ x :: after).Nodup) :
    (before ++ after).Nodup :=
  (List.nodup_cons.1 (List.nodup_middle.1 h)).2

theorem toFinset_beside [DecidableEq ι] {before after : List ι} {x : ι}
    (h : (before ++ x :: after).Nodup) :
    (before ++ after).toFinset = (before ++ x :: after).toFinset.erase x := by
  have hx : x ∉ before ++ after := (List.nodup_cons.1 (List.nodup_middle.1 h)).1
  ext y
  rw [Finset.mem_erase, List.mem_toFinset, List.mem_toFinset]
  grind

end Places

/-! ## The matrix of some nodes -/

variable [DecidableEq K] {before after : List K} {x : K}

/-- A node with its barycentric weight among some nodes. -/
def withWeight (s : Finset K) (x : K) : K × K := (x, nodalWeight s id x)

theorem weight_append (h : (before ++ x :: after).Nodup) :
    weight (before ++ x :: after) before.length x =
      nodalWeight (before ++ x :: after).toFinset id x := by
  have hothers : others (before ++ x :: after) before.length = before ++ after := by
    rw [others, List.eraseIdx_append_of_length_le le_rfl, Nat.sub_self, List.eraseIdx_cons_zero]
  rw [weight, hothers, Scalar.ofNat_eq, Scalar.product_eq, Nat.cast_one, one_div, nodalWeight,
    Finset.prod_inv_distrib, ← toFinset_beside h, List.prod_toFinset _ (nodup_beside h)]
  rfl

/-- The weights are the barycentric ones. -/
theorem weighted_eq_map {nodes : List K} (h : nodes.Nodup) :
    weighted nodes = nodes.map (withWeight nodes.toFinset) := by
  refine List.ext_getElem (by simp [weighted]) fun i _ hi => ?_
  rw [List.length_map] at hi
  simp only [weighted, List.getElem_mapIdx, List.getElem_map]
  refine forall_getElem_of_split (P := fun i x => (x, weight nodes i x) = withWeight _ x) ?_ hi
  rintro before x after rfl
  rw [weight_append h, withWeight]

/-- The row of a node takes the values of a polynomial to its derivative at that node. -/
theorem sum_row_eval {s : Finset K} (h : (before ++ x :: after).Nodup)
    (hs : s = (before ++ x :: after).toFinset) {p : K[X]} (hp : p.natDegree < s.card) :
    Scalar.sum (List.zipWith (· * ·)
      (row (before.map (withWeight s)) (withWeight s x) (after.map (withWeight s)))
      ((before ++ x :: after).map p.eval)) = p.derivative.eval x := by
  have hmem : x ∈ s := by
    rw [hs]
    simp
  have hvalues : (before ++ x :: after).map p.eval =
      (before.map (withWeight s) ++ withWeight s x :: after.map (withWeight s)).map
        fun node => p.eval node.1 := by
    simp [withWeight, Function.comp_def]
  rw [hvalues, sum_zipWith_row, ← List.map_append, List.map_map, eval_derivative_eq_sum hp hmem,
    hs, ← toFinset_beside h, List.sum_toFinset _ (nodup_beside h)]
  rfl

/-- **The matrix differentiates exactly** what the nodes determine. -/
theorem slopes_ofNodes {nodes : List K} (h : nodes.Nodup) {p : K[X]}
    (hp : p.natDegree < nodes.length) :
    (ofNodes nodes).slopes (nodes.map p.eval) = nodes.map p.derivative.eval := by
  have hcard : p.natDegree < nodes.toFinset.card := by
    rwa [List.toFinset_card_of_nodup h]
  rw [slopes, ofNodes, weighted_eq_map h]
  refine List.ext_getElem (by simp) fun i _ hi => ?_
  rw [List.length_map] at hi
  simp only [List.getElem_map, List.getElem_mapIdx]
  refine forall_getElem_of_split (P := fun i x => Scalar.sum (List.zipWith (· * ·)
    (row ((nodes.map (withWeight nodes.toFinset)).take i) (withWeight nodes.toFinset x)
      ((nodes.map (withWeight nodes.toFinset)).drop (i + 1))) (nodes.map p.eval)) =
    p.derivative.eval x) ?_ hi
  rintro before x after rfl
  have htake : (before ++ x :: after).take before.length = before := List.take_left
  have hdrop : (before ++ x :: after).drop (before.length + 1) = after := by
    rw [← List.drop_drop, List.drop_left, List.drop_one, List.tail_cons]
  rw [← List.map_take, ← List.map_drop, htake, hdrop]
  exact sum_row_eval h rfl hcard

omit [DecidableEq K] in
/-- No weight of different nodes vanishes. -/
theorem weight_ne_zero {nodes : List K} (h : nodes.Nodup) :
    ∀ node ∈ weighted nodes, node.2 ≠ 0 := by
  classical
  rw [weighted_eq_map h]
  refine List.forall_mem_map.2 fun x hx => ?_
  exact nodalWeight_ne_zero (Set.injOn_id _) (List.mem_toFinset.2 hx)

omit [DecidableEq K] in
/-- **Differentiation is exact on what the nodes can represent**, for different nodes in any order.

* The values of a polynomial of lower degree than there are nodes are taken, and what comes out is
  its derivative at the nodes.
* The matrix is square, and every row of it sums to zero.
* No weight vanishes, so that nothing was divided by zero on the way. -/
theorem apply_ofNodes_eval {nodes : List K} (hnodup : nodes.Nodup) :
    (∀ p : K[X], p.natDegree < nodes.length →
      (ofNodes nodes).apply (nodes.map p.eval) = .ok (nodes.map p.derivative.eval)) ∧
    (ofNodes nodes).rows.length = nodes.length ∧
    (∀ entries ∈ (ofNodes nodes).rows, entries.length = nodes.length ∧ entries.sum = 0) ∧
    ∀ node ∈ weighted nodes, node.2 ≠ 0 := by
  classical
  refine ⟨fun p hdegree => ?_, length_rows_ofNodes nodes, fun entries hentries => ?_,
    weight_ne_zero hnodup⟩
  · have hne : nodes ≠ [] := List.ne_nil_of_length_pos (Nat.zero_lt_of_lt hdegree)
    rw [apply_eq_ok (by simpa using hne) (by simp), slopes_ofNodes hnodup hdegree]
  · exact ⟨length_of_mem_rows_ofNodes entries hentries, sum_of_mem_rows_ofNodes entries hentries⟩

/-- A parabola at three nodes out of order. -/
theorem apply_ofNodes_eval_unordered :
    ([2, 0, 3] : List ℚ).Nodup ∧ (X ^ 2 - X : ℚ[X]).natDegree < 3 ∧
    (ofNodes ([2, 0, 3] : List ℚ)).apply [2, 0, 6] = .ok [3, -1, 5] ∧
    ∀ entries ∈ (ofNodes ([2, 0, 3] : List ℚ)).rows, entries.length = 3 ∧ entries.sum = 0 := by
  have hnodup : ([2, 0, 3] : List ℚ).Nodup := by decide
  have hdegree : (X ^ 2 - X : ℚ[X]).natDegree < 3 := by
    refine lt_of_le_of_lt ?_ (show 2 < 3 by decide)
    compute_degree
  obtain ⟨hexact, -, hrows, -⟩ := apply_ofNodes_eval hnodup
  have happly := hexact (X ^ 2 - X) hdegree
  norm_num at happly
  exact ⟨hnodup, hdegree, happly, hrows⟩

end Differentiation
end Poisson
end PostRun
