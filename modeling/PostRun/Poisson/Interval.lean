import PostRun.Poisson.Segment

/-!
# Domains in one dimension

A domain is an interval that was halved a number of times; every piece is an
element with the same number of collocation points.  An `Interval` carries the
three facts that make it a domain: its bounds ascend, an element has at least two
points, and it is not refined too deeply.

Neighbouring elements share their common bound: both compute it from the same
division point of the logical interval.
-/

namespace PostRun
namespace Poisson

/-- An element: its name, the piece it covers and its number of collocation points. -/
structure Element (α : Type u) where
  id : ElementId
  lower : α
  upper : α
  points : Nat

namespace Element

variable {α : Type u} [Scalar α]

/-- The derivative of the affine map from logical to inertial coordinates. -/
def jacobian (e : Element α) : α := Scalar.half * (e.upper - e.lower)

/-- The inertial coordinate of a logical one. -/
def inertial (e : Element α) (xi : α) : α := e.lower + (xi + Scalar.ofNat 1) * e.jacobian

end Element

/-- An interval, halved `level` times. -/
structure Interval (α : Type u) [LT α] where
  lower : α
  upper : α
  periodic : Bool
  level : Nat
  points : Nat
  lower_lt_upper : lower < upper
  two_le_points : 2 ≤ points
  level_lt : level < 32

namespace Interval

variable {α : Type u} [LT α]

/-- The interval with the given bounds, refinement and points per element. -/
def ofBounds [DecidableLT α] (lower upper : α) (periodic : Bool) (level points : Nat) :
    Except (DomainError α) (Interval α) :=
  if bounds : lower < upper then
    if enough : 2 ≤ points then
      if shallow : level < 32 then
        .ok ⟨lower, upper, periodic, level, points, bounds, enough, shallow⟩
      else .error (.levelTooDeep level)
    else .error (.tooFewPoints points)
  else .error (.boundsNotAscending lower upper)

/-- The number of elements. -/
def elementCount (d : Interval α) : Nat := segmentCount d.level

/-- The inertial coordinate of a logical one. -/
def inertial [Scalar α] (d : Interval α) (xi : α) : α :=
  d.lower + Scalar.half * (xi + Scalar.ofNat 1) * (d.upper - d.lower)

/-- The segment at a place of the interval's level. -/
def segment (d : Interval α) (i : Fin d.elementCount) : Segment :=
  ⟨d.level, i, Nat.lt_trans d.level_lt (by decide), i.isLt⟩

/-- The element at a place, counted from the left. -/
def element [Scalar α] (d : Interval α) (i : Fin d.elementCount) : Element α where
  id := ⟨0, d.segment i⟩
  lower := d.inertial (d.segment i).lower
  upper := d.inertial (d.segment i).upper
  points := d.points

/-- The elements from left to right. -/
def elements [Scalar α] (d : Interval α) : List (Element α) := List.ofFn d.element

@[simp] theorem length_elements [Scalar α] (d : Interval α) :
    d.elements.length = d.elementCount := by simp [elements]

end Interval
end Poisson
end PostRun
