import Mathlib.Data.List.ChainOfFn
import PostRun.Proofs.Poisson.Legendre
import PostRun.Proofs.Poisson.Shape

/-!
# The elements tile the interval

An interval is cut into elements by cutting the logical interval into segments and carrying the ends
of each segment over.  There is a gap between two neighbours as soon as the two ends that should
meet are computed in different ways.  They are not: the right end of a segment is the division point
with the next number, and that is the left end of the next segment.  So neighbours have one bound in
common whatever the arithmetic is, and over words it is the same word (`AreRefined`,
`Interval.areRefined_elements`).

## Exact arithmetic

Where the common bounds lie, and in which order, holds up to rounding only, and is stated over an
exact ordered field (`Tile`, `Interval.tile_elements`).  Two affine maps have to fit together.  The
one of the interval takes `½ (ξ + 1)` of its width and places the bounds, and the one of an element
takes `ξ + 1` times its Jacobian and places the points between them.  They fit because the Jacobian
is half the width of the element, with the width taken from its bounds (`Element.inertial_left`,
`Element.inertial_right`).

Points that ascend from `-1` to `1` then ascend in every element, from one bound to the other, and
an element ends before any later one begins (`Interval.upper_element_le`).  So the points of all
elements ascend too (`Interval.pairwise_collocation`), with a step of zero just where two elements
meet, since both have the point there (`Interval.collocation_meet`).
-/

namespace PostRun
namespace Poisson

/-! ## Any arithmetic -/

/-- A segment is one that its level has. -/
theorem Segment.ofIndex_eq_ok {α : Type u} (s : Segment) :
    (ofIndex s.level s.index : Except (DomainError α) Segment) = .ok s := by
  rw [ofIndex, dif_pos ⟨s.level_lt, s.index_lt⟩]

/-- The elements of a refinement level, from left to right: one for each segment of the level, all
in the first block, and each ends where the next one begins. -/
structure AreRefined {α : Type u} (level : ℕ) (elements : List (Element α)) : Prop where
  length : elements.length = 2 ^ level
  id : ∀ (i : ℕ) (h : i < elements.length), ∃ segment,
    (Segment.ofIndex level i : Except (DomainError α) Segment) = .ok segment ∧
      elements[i].id = ⟨0, segment⟩
  meet : elements.IsChain fun left right => left.upper = right.lower

/-- Neighbours compute their common bound in the same way, from the same division point. -/
theorem Interval.areRefined_elements {α : Type u} [Scalar α] [LT α] (d : Interval α) :
    AreRefined d.level d.elements where
  length := d.length_elements
  id i h := by
    have hi : i < d.elementCount := by simpa using h
    refine ⟨d.segment ⟨i, hi⟩, (d.segment ⟨i, hi⟩).ofIndex_eq_ok, ?_⟩
    simp only [elements, List.getElem_ofFn]
    rfl
  meet := by
    rw [elements, List.isChain_ofFn]
    intro i hi
    rfl

/-! ## Exact arithmetic -/

namespace Element

variable {K : Type u} [ExactScalar K] (e : Element K)

theorem inertial_left : e.inertial (-1) = e.lower := by
  rw [inertial, Scalar.ofNat_eq, Nat.cast_one, neg_add_cancel, zero_mul, add_zero]

theorem inertial_right [CharZero K] : e.inertial 1 = e.upper := by
  rw [inertial, jacobian, Scalar.ofNat_eq, Scalar.half_eq]
  push_cast
  ring

theorem strictMono_inertial [LinearOrder K] [IsStrictOrderedRing K] {e : Element K}
    (h : 0 < e.jacobian) : StrictMono e.inertial := by
  intro xi eta hlt
  have hshift : xi + 1 < eta + 1 := by
    gcongr
  rw [inertial, inertial, Scalar.ofNat_eq, Nat.cast_one]
  gcongr

end Element

namespace Interval

section Places

variable {K : Type u} [ExactScalar K] [CharZero K] [LT K] (d : Interval K)

omit [CharZero K] in
theorem cast_elementCount : (d.elementCount : K) = 2 ^ d.level := by
  have hcount : d.elementCount = 2 ^ d.level := rfl
  rw [hcount]
  push_cast
  rfl

/-- The right end of an element. -/
theorem upper_element (i : Fin d.elementCount) :
    (d.element i).upper = d.lower + (i + 1) / d.elementCount * (d.upper - d.lower) := by
  simp only [element, inertial, segment, Segment.upper, Segment.division, Scalar.half_eq,
    Scalar.ofNat_eq, elementCount]
  push_cast
  ring

theorem width_element (i : Fin d.elementCount) :
    (d.element i).upper - (d.element i).lower = (d.upper - d.lower) / 2 ^ d.level := by
  rw [upper_element, lower_element, cast_elementCount]
  ring

end Places

variable {K : Type u} [ExactScalar K] [LinearOrder K] [IsStrictOrderedRing K] (d : Interval K)

/-- An element ends before any later one begins. -/
theorem upper_element_le {i j : Fin d.elementCount} (h : i < j) :
    (d.element i).upper ≤ (d.element j).lower := by
  have hcount : (0 : K) < d.elementCount := Nat.cast_pos.2 d.elementCount_pos
  have hwidth : 0 ≤ d.upper - d.lower := (sub_pos.2 d.lower_lt_upper).le
  have hplace : (i : K) + 1 ≤ (j : ℕ) := by
    exact_mod_cast h
  rw [upper_element, lower_element]
  gcongr

end Interval

/-- Elements that tile an interval: the first begins and the last ends with it, they are equally
wide, and each of them is covered by its affine map. -/
structure Tile {K : Type u} [ExactScalar K] [LinearOrder K] (lower upper : K) (level : ℕ)
    (elements : List (Element K)) : Prop where
  first : ∃ e ∈ elements.head?, e.lower = lower
  last : ∃ e ∈ elements.getLast?, e.upper = upper
  width : ∀ e ∈ elements, e.upper - e.lower = (upper - lower) / 2 ^ level
  width_pos : 0 < (upper - lower) / 2 ^ level
  jacobian : ∀ e ∈ elements, e.jacobian = (upper - lower) / 2 ^ (level + 1)
  ends : ∀ e ∈ elements, e.inertial (-1) = e.lower ∧ e.inertial 1 = e.upper
  strictMono : ∀ e ∈ elements, StrictMono e.inertial

namespace Interval

variable {K : Type u} [ExactScalar K] [LinearOrder K] [IsStrictOrderedRing K] (d : Interval K)

theorem tile_elements : Tile d.lower d.upper d.level d.elements where
  first := by
    refine ⟨d.element ⟨0, d.elementCount_pos⟩, ?_, ?_⟩
    · rw [Option.mem_def, List.head?_eq_getElem?, elements, List.getElem?_ofFn]
      simp [d.elementCount_pos]
    · rw [lower_element]
      simp
  last := by
    have hlast : d.elementCount - 1 < d.elementCount := Nat.sub_lt d.elementCount_pos Nat.one_pos
    have hcount : (d.elementCount : K) ≠ 0 := Nat.cast_ne_zero.2 d.elementCount_pos.ne'
    refine ⟨d.element ⟨d.elementCount - 1, hlast⟩, ?_, ?_⟩
    · rw [Option.mem_def, List.getLast?_eq_getElem?, length_elements, elements,
        List.getElem?_ofFn, dif_pos hlast]
    · have hplace : ((d.elementCount - 1 : ℕ) : K) + 1 = d.elementCount := by
        exact_mod_cast Nat.sub_add_cancel d.elementCount_pos
      rw [upper_element, hplace, div_self hcount]
      ring
  width := by
    intro e he
    obtain ⟨i, rfl⟩ := d.mem_elements.1 he
    exact d.width_element i
  width_pos := div_pos (sub_pos.2 d.lower_lt_upper) (pow_pos two_pos d.level)
  jacobian := by
    intro e he
    obtain ⟨i, rfl⟩ := d.mem_elements.1 he
    rw [jacobian_element, cast_elementCount, pow_succ']
  ends e _ := ⟨e.inertial_left, e.inertial_right⟩
  strictMono e he := Element.strictMono_inertial (d.jacobian_pos he)

end Interval

/-! ## Collocation points -/

/-- Points that ascend from one end to the other lie between the ends. -/
theorem ReachesEnds.bounds {K : Type u} [Field K] [LinearOrder K] {nodes : List K}
    (hends : ReachesEnds nodes) (hascending : nodes.Pairwise (· < ·)) :
    ∀ xi ∈ nodes, -1 ≤ xi ∧ xi ≤ 1 := by
  intro xi hxi
  constructor
  · obtain ⟨rest, rfl⟩ := List.head?_eq_some_iff.1 hends.first
    rcases List.mem_cons.1 hxi with rfl | hrest
    · exact le_rfl
    · exact ((List.pairwise_cons.1 hascending).1 xi hrest).le
  · obtain ⟨init, rfl⟩ := List.getLast?_eq_some_iff.1 hends.last
    rcases List.mem_append.1 hxi with hinit | hlast
    · exact ((List.pairwise_append.1 hascending).2.2 xi hinit 1 (List.mem_singleton_self 1)).le
    · exact (List.mem_singleton.1 hlast).le

namespace Interval

/-- Neighbours share the collocation point at their common bound. -/
theorem collocation_meet {K : Type u} [ExactScalar K] [CharZero K] [LT K] (d : Interval K)
    {nodes : List K} (hends : ReachesEnds nodes) :
    d.elements.IsChain fun left right =>
      (nodes.map left.inertial).getLast? = (nodes.map right.inertial).head? := by
  refine d.areRefined_elements.meet.imp fun left right hmeet => ?_
  rw [List.getLast?_map, List.head?_map, hends.last, hends.first, Option.map_some,
    Option.map_some, left.inertial_right, right.inertial_left, hmeet]

variable {K : Type u} [ExactScalar K] [LinearOrder K] [IsStrictOrderedRing K] (d : Interval K)

/-- **The collocation points of all elements ascend.** -/
theorem pairwise_collocation {nodes : List K} (hends : ReachesEnds nodes)
    (hascending : nodes.Pairwise (· < ·)) : (d.collocation nodes).Pairwise (· ≤ ·) := by
  have hbounds := hends.bounds hascending
  have hmono := d.tile_elements.strictMono
  rw [collocation, List.pairwise_flatMap]
  constructor
  · intro e he
    exact hascending.map e.inertial fun xi eta hlt => (hmono e he hlt).le
  · rw [elements, List.pairwise_ofFn]
    intro i j hij x hx y hy
    obtain ⟨xi, hxi, rfl⟩ := List.mem_map.1 hx
    obtain ⟨eta, heta, rfl⟩ := List.mem_map.1 hy
    calc (d.element i).inertial xi
        ≤ (d.element i).inertial 1 :=
          (hmono _ (d.mem_elements.2 ⟨i, rfl⟩)).monotone (hbounds xi hxi).2
      _ = (d.element i).upper := (d.element i).inertial_right
      _ ≤ (d.element j).lower := d.upper_element_le hij
      _ = (d.element j).inertial (-1) := (d.element j).inertial_left.symm
      _ ≤ (d.element j).inertial eta :=
          (hmono _ (d.mem_elements.2 ⟨j, rfl⟩)).monotone (hbounds eta heta).1

end Interval

/-! ## The tiling -/

/-- **The elements of an interval tile it**, for every interval that is accepted.

* Over any arithmetic there is one element for each segment of the level, in their order, and
  neighbours have their common bound in common.
* Over an exact field the elements begin and end where the interval does, are all equally wide, and
  each is covered by its affine map.
* With nodes that ascend from `-1` to `1`, the collocation points of all elements ascend, those of
  one element strictly, and neighbours share the point where they meet. -/
theorem Interval.elements_tile {periodic : Bool} {level points : ℕ} :
    (∀ {α : Type u} [Scalar α] [LT α] [DecidableLT α] {lower upper : α} {d : Interval α},
      ofBounds lower upper periodic level points = .ok d → AreRefined level d.elements) ∧
    ∀ {K : Type v} [ExactScalar K] [LinearOrder K] [IsStrictOrderedRing K] {lower upper : K}
      {d : Interval K}, ofBounds lower upper periodic level points = .ok d →
        Tile lower upper level d.elements ∧
        ∀ nodes : List K, ReachesEnds nodes → nodes.Pairwise (· < ·) →
          (d.collocation nodes).Pairwise (· ≤ ·) ∧
          (∀ e ∈ d.elements, (nodes.map e.inertial).Pairwise (· < ·)) ∧
          d.elements.IsChain fun left right =>
            (nodes.map left.inertial).getLast? = (nodes.map right.inertial).head? := by
  constructor
  · intro α _ _ _ lower upper d h
    obtain ⟨-, -, -, rfl, -⟩ := ofBounds_eq_ok_iff.1 h
    exact d.areRefined_elements
  · intro K _ _ _ lower upper d h
    obtain ⟨rfl, rfl, -, rfl, -⟩ := ofBounds_eq_ok_iff.1 h
    refine ⟨d.tile_elements, fun nodes hends hascending => ?_⟩
    refine ⟨d.pairwise_collocation hends hascending, fun e he => ?_, d.collocation_meet hends⟩
    exact hascending.map e.inertial fun _ _ hlt => d.tile_elements.strictMono e he hlt

/-- Four units to the right of `-1`, refined as `halvedUnit` is. -/
def halvedFour : Interval ℚ where
  lower := -1
  upper := 3
  periodic := false
  level := halvedUnit.level
  points := halvedUnit.points
  lower_lt_upper := by norm_num
  two_le_points := halvedUnit.two_le_points
  level_lt := halvedUnit.level_lt

/-- Both maps of it stretch nothing. -/
theorem Interval.collocation_halvedFour :
    halvedFour.collocation [-1, 1 / 2, 1] = [-1, 1 / 2, 1, 1, 5 / 2, 3] := by
  have hcount : (halvedFour.elementCount : ℚ) = 2 := rfl
  have hinertial : ∀ i xi, (halvedFour.element i).inertial xi = 2 * (i : ℕ) + xi := by
    intro i xi
    rw [Element.inertial, jacobian_element, lower_element, hcount, Scalar.ofNat_eq]
    norm_num [halvedFour]
    ring
  have hfirst : ([-1, 1 / 2, 1] : List ℚ).map (halvedFour.element (0 : Fin 2)).inertial =
      [-1, 1 / 2, 1] := by
    rw [funext (hinertial (0 : Fin 2))]
    norm_num
  have hsecond : ([-1, 1 / 2, 1] : List ℚ).map (halvedFour.element (1 : Fin 2)).inertial =
      [1, 5 / 2, 3] := by
    rw [funext (hinertial (1 : Fin 2))]
    norm_num
  calc halvedFour.collocation [-1, 1 / 2, 1]
      = ([-1, 1 / 2, 1] : List ℚ).map (halvedFour.element (0 : Fin 2)).inertial ++
        ([-1, 1 / 2, 1] : List ℚ).map (halvedFour.element (1 : Fin 2)).inertial := rfl
    _ = [-1, 1 / 2, 1, 1, 5 / 2, 3] := by
      rw [hfirst, hsecond]
      rfl

/-- Two elements over words and two over the rational numbers, with a node out of the middle. -/
theorem Interval.elements_tile_halved :
    ofBounds .zero ⟨0x3FF0000000000000⟩ false 1 3 = .ok halvedUnit ∧
    ofBounds (-1) 3 false 1 3 = .ok halvedFour ∧
    halvedUnit.elements.length = 2 ∧ Tile (-1) 3 1 halvedFour.elements ∧
    halvedFour.collocation [-1, 1 / 2, 1] = [-1, 1 / 2, 1, 1, 5 / 2, 3] ∧
    (halvedFour.collocation [-1, 1 / 2, 1]).Pairwise (· ≤ ·) := by
  have hwords : ofBounds .zero ⟨0x3FF0000000000000⟩ false 1 3 = .ok halvedUnit :=
    ofBounds_eq_ok_iff.2 ⟨rfl, rfl, rfl, rfl, rfl⟩
  have hexact : ofBounds (-1) 3 false 1 3 = .ok halvedFour :=
    ofBounds_eq_ok_iff.2 ⟨rfl, rfl, rfl, rfl, rfl⟩
  have hascending : ([-1, 1 / 2, 1] : List ℚ).Pairwise (· < ·) := by
    norm_num
  obtain ⟨hrefined, htile⟩ := @elements_tile.{0, 0} false 1 3
  obtain ⟨htiles, hcollocation⟩ := htile hexact
  obtain ⟨hordered, -⟩ := hcollocation _ ⟨rfl, rfl⟩ hascending
  exact ⟨hwords, hexact, (hrefined hwords).length, htiles, collocation_halvedFour, hordered⟩

end Poisson
end PostRun
