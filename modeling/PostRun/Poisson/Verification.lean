import PostRun.Log
import PostRun.Number.Notation
import PostRun.Poisson.Differentiation
import PostRun.Poisson.Interval
import PostRun.Volume.File

/-!
# Verifying a solution

The operator `-u'' = f` in first-order form is applied to an analytic solution that
is sampled at the collocation points of every element.  What is left over is the
residual: of the field equation `-v' - f`, and of the auxiliary equation `v - u'`,
where `v` is the gradient.  The norm of the first is reported for every element, and
all samples are kept as volume data.

Boundary terms are left out, since an analytic solution is continuous across element
boundaries.  So the result does not depend on the domain being periodic.
-/

namespace PostRun
namespace Poisson

/-- An analytic solution: a field, its gradient and the source it belongs to. -/
structure Solution (α : Type u) where
  field : α → α
  gradient : α → α
  source : α → α

/-- The field `sin (k x)` with the source `k ^ 2 sin (k x)`. -/
def Solution.sinusoid {α : Type u} [Elementary α] (k : α) : Solution α where
  field x := Elementary.sin (k * x)
  gradient x := k * Elementary.cos (k * x)
  source x := k * k * Elementary.sin (k * x)

/-- The root of the mean square; zero for no values. -/
def meanNorm {α : Type u} [Elementary α] (values : List α) : α :=
  if values.isEmpty then Scalar.zero
  else
    Elementary.sqrt (Scalar.sum (values.map fun v => v * v) / Scalar.ofNat values.length)

/-- The samples and residuals of one element. -/
structure Sampled (α : Type u) where
  element : Element α
  x : List α
  field : List α
  gradient : List α
  source : List α
  fieldResidual : List α
  auxiliaryResidual : List α

namespace Sampled

variable {α : Type u} [Elementary α]

/-- The residual of the field equation at a point. -/
def fieldResidualAt (inverseJacobian slope source : α) : α := -slope * inverseJacobian - source

/-- The residual of the auxiliary equation at a point. -/
def auxiliaryResidualAt (inverseJacobian slope gradient : α) : α :=
  gradient - slope * inverseJacobian

/-- Samples a solution on an element at the given nodes, with the matrix of those nodes. -/
def ofElement (nodes : List α) (derivative : Differentiation α) (solution : Solution α)
    (element : Element α) : Except NodeError (Sampled α) := do
  let x := nodes.map element.inertial
  let inverse := Scalar.ofNat 1 / element.jacobian
  let field := x.map solution.field
  let gradient := x.map solution.gradient
  let source := x.map solution.source
  let gradientSlope ← derivative.apply gradient
  let fieldSlope ← derivative.apply field
  return {
    element, x, field, gradient, source
    fieldResidual := List.zipWith (fieldResidualAt inverse) gradientSlope source
    auxiliaryResidual := List.zipWith (auxiliaryResidualAt inverse) fieldSlope gradient }

/-- The residual that is reported for an element. -/
def residual (s : Sampled α) : α := meanNorm s.fieldResidual

/-- The samples as the components of an element. -/
def components (s : Sampled α) : List (String × List α) :=
  let zeros := s.x.map fun _ => Scalar.zero
  [("InertialCoordinates_x", s.x), ("InertialCoordinates_y", zeros),
    ("InertialCoordinates_z", zeros), ("Field", s.field), ("AuxiliaryField", s.gradient),
    ("FixedSource", s.source), ("FieldResidual", s.fieldResidual),
    ("AuxiliaryResidual", s.auxiliaryResidual)]

/-- Appends the samples to an observation. -/
def addTo (d : Volume.ObservationData α) (s : Sampled α) : Volume.ObservationData α :=
  d.addElement s.element.id.text ⟨s.x.length, 1, 1⟩ s.components

end Sampled

/-- The outcome of a verification: the residual of every element from left to right, and the
volume data of all elements as one observation. -/
structure Verification (α : Type u) where
  residuals : List (ElementId × α)
  volumeData : Volume.ObservationData α

namespace Verification

variable {α : Type u} [Elementary α] [LT α]

/-- Verifies a solution at the given nodes of every element. -/
def atNodes (nodes : List α) (solution : Solution α) (domain : Interval α) :
    Except NodeError (Verification α) := do
  let derivative := Differentiation.ofNodes nodes
  let sampled ← domain.elements.mapM (Sampled.ofElement nodes derivative solution)
  return {
    residuals := sampled.map fun s => (s.element.id, s.residual)
    volumeData := sampled.foldl Sampled.addTo (.ofValue Scalar.zero) }

/-- Verifies a solution at the Lobatto points of every element. -/
def ofSolution [DecidableLT α] (solution : Solution α) (domain : Interval α) :
    Except NodeError (Verification α) := do
  atNodes (← Lobatto.points domain.points) solution domain

end Verification

/-- What a verification can fail with. -/
inductive VerificationError where
  | domain (error : DomainError Binary64)
  | missing (piece : Volume.MissingPiece)
  | nodes (error : NodeError)
  | dumpUnavailable (path : String)
  deriving DecidableEq

/-- The wording of a defect of a domain. -/
def DomainError.message : DomainError Binary64 → String
  | .noSegment level index =>
      "no segment " ++ toString index ++ " on refinement level " ++ toString level
  | .boundsNotAscending lower upper =>
      "lower bound " ++ lower.plain ++ " is not below upper bound " ++ upper.plain
  | .tooFewPoints points =>
      toString points ++ " grid points per element, at least 2 are required"
  | .levelTooDeep level => "refinement level " ++ toString level ++ " is too deep"

/-- The wording of a defect of nodes or values. -/
def NodeError.message : NodeError → String
  | .tooFewNodes _ => "at least two Lobatto points are required"
  | .valueCount _ _ => "wrong number of nodal values"

/-- The wording of a failed verification. -/
def VerificationError.message : VerificationError → String
  | .domain e => "invalid domain: " ++ e.message
  | .missing p => p.message
  | .nodes e => e.message
  | .dumpUnavailable path => path ++ ": writing volume data requires the hdf5 feature"

/-- The records of a verification: one for the whole and one for each element. -/
def report (domain : Interval Binary64) (v : Verification Binary64) : List Record :=
  let manner := if domain.periodic then "periodic" else "non-periodic"
  ⟨.info, "Applying the operator on " ++ toString domain.elementCount ++ " elements (" ++ manner ++
      ")"⟩ ::
    v.residuals.map fun r => ⟨.debug, r.1.text ++ ": residual " ++ r.2.scientific⟩

/-- Applies the operator to a solution on every element of a domain. -/
def applyOperator (solution : Solution Binary64) (domain : Interval Binary64) :
    Logged (Except VerificationError (Verification Binary64)) :=
  match Verification.ofSolution solution domain with
  | .error e => ⟨[], .error (.nodes e)⟩
  | .ok v => ⟨report domain v, .ok v⟩

/-- The residuals of a solution.  The volume data cannot be dumped to a file, which is found out
after the work is done. -/
def verifySolution (solution : Solution Binary64) (domain : Interval Binary64)
    (dump : Option String) : Logged (Except VerificationError (List (ElementId × Binary64))) := do
  let outcome ← applyOperator solution domain
  return do
    let v ← outcome
    match dump with
    | none => return v.residuals
    | some path => throw (.dumpUnavailable path)

end Poisson
end PostRun
