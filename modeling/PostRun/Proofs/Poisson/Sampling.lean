import PostRun.Proofs.Poisson.Differentiation
import PostRun.Proofs.Poisson.Elements
import PostRun.Proofs.Attempts
import PostRun.Proofs.Volume.Assembly
import PostRun.Poisson.Verification

/-!
# What a verification stores

Sampling an element can only fail where the matrix does, and the matrix of the nodes takes values
at the nodes.  So a verification is what its samples make it (`Verification.atNodes_eq_ok`), and
its volume data is an observation of elements that all carry the same eight components: a
component is the samples of all elements, back to back (`Verification.find?_ofSamples`).

Nothing here depends on what the operations of the scalars do.
-/

namespace PostRun
namespace Poisson

variable {α : Type u} [Elementary α]

namespace Sampled

/-- The samples of an element, with the slopes that a matrix gives. -/
def ofSlopes (nodes : List α) (derivative : Differentiation α) (solution : Solution α)
    (element : Element α) : Sampled α :=
  let x := nodes.map element.inertial
  let inverse := Scalar.ofNat 1 / element.jacobian
  let field := x.map solution.field
  let gradient := x.map solution.gradient
  let source := x.map solution.source
  { element, x, field, gradient, source
    fieldResidual :=
      List.zipWith (fieldResidualAt inverse) (derivative.slopes gradient) source
    auxiliaryResidual :=
      List.zipWith (auxiliaryResidualAt inverse) (derivative.slopes field) gradient }

/-- Sampling succeeds with a matrix that fits the nodes. -/
theorem ofElement_eq_ok {nodes : List α} {derivative : Differentiation α} (hne : nodes ≠ [])
    (hrows : derivative.rows.length = nodes.length) (solution : Solution α) (element : Element α) :
    ofElement nodes derivative solution element =
      .ok (ofSlopes nodes derivative solution element) := by
  have happly : ∀ f : α → α, derivative.apply ((nodes.map element.inertial).map f) =
      .ok (derivative.slopes ((nodes.map element.inertial).map f)) := by
    intro f
    exact Differentiation.apply_eq_ok (by simpa using hne) (by simp [hrows])
  rw [ofElement, happly, happly]
  rfl

/-! ## Samples as an element of an observation -/

/-- The components of the samples. -/
def componentNames : List String :=
  ["InertialCoordinates_x", "InertialCoordinates_y", "InertialCoordinates_z", "Field",
    "AuxiliaryField", "FixedSource", "FieldResidual", "AuxiliaryResidual"]

/-- Samples as they are appended to an observation. -/
def toElement (s : Sampled α) : Volume.ElementData α :=
  ⟨s.element.id.text, ⟨s.x.length, 1, 1⟩, s.components⟩

theorem addTo_eq_add (d : Volume.ObservationData α) (s : Sampled α) :
    addTo d s = d.add s.toElement := rfl

theorem nodup_componentNames : componentNames.Nodup := by decide

@[simp] theorem map_fst_components (s : Sampled α) : s.components.map (·.1) = componentNames := rfl

/-- Every component has a sample at every point. -/
theorem carries_toElement {nodes : List α} {derivative : Differentiation α}
    (hrows : derivative.rows.length = nodes.length) (solution : Solution α) (element : Element α) :
    (ofSlopes nodes derivative solution element).toElement.Carries componentNames where
  nodup := nodup_componentNames
  mem_iff _ := Iff.rfl
  length_eq := by
    simp [toElement, components, ofSlopes, Volume.Extents.points, hrows]

end Sampled

namespace Verification

/-- The outcome that samples make. -/
def ofSamples (samples : List (Sampled α)) : Verification α where
  residuals := samples.map fun s => (s.element.id, s.residual)
  volumeData := .ofElements Scalar.zero (samples.map Sampled.toElement)

/-- A component of the volume data: the samples of all elements, back to back. -/
theorem find?_ofSamples {samples : List (Sampled α)} (hne : samples ≠ [])
    (hcarries : ∀ s ∈ samples, s.toElement.Carries Sampled.componentNames) {component : String}
    {values : Sampled α → List α} (hvalues : ∀ s, (component, values s) ∈ s.components) :
    (ofSamples samples).volumeData.components.find? component = some (samples.flatMap values) := by
  have hcomponent : component ∈ Sampled.componentNames := by
    obtain ⟨s, -⟩ := List.exists_mem_of_ne_nil samples hne
    rw [← s.map_fst_components]
    exact List.mem_map_of_mem (hvalues s)
  have hconcat : (samples.map Sampled.toElement).flatMap (·.values component) =
      samples.flatMap values := by
    rw [List.flatMap_map]
    refine List.flatMap_congr fun s hs => ?_
    exact Volume.ElementData.values_eq_of_mem (hcarries s hs).nodup (hvalues s)
  rw [ofSamples, Volume.ObservationData.find?_ofElements (by simpa using hne)
    (List.forall_mem_map.2 hcarries) hcomponent, hconcat]

variable [LT α]

/-- The samples of all elements of a domain. -/
def samples (nodes : List α) (solution : Solution α) (domain : Interval α) : List (Sampled α) :=
  domain.elements.map (Sampled.ofSlopes nodes (.ofNodes nodes) solution)

theorem samples_ne_nil (nodes : List α) (solution : Solution α) (domain : Interval α) :
    samples nodes solution domain ≠ [] := by
  have hcount : domain.elements.length ≠ 0 := by
    rw [Interval.length_elements]
    exact domain.elementCount_pos.ne'
  rw [samples, Ne, List.map_eq_nil_iff]
  exact fun h => hcount (by rw [h, List.length_nil])

theorem carries_samples {nodes : List α} {solution : Solution α} {domain : Interval α} :
    ∀ s ∈ samples nodes solution domain, s.toElement.Carries Sampled.componentNames := by
  refine List.forall_mem_map.2 fun element _ => ?_
  exact Sampled.carries_toElement (Differentiation.length_rows_ofNodes nodes) solution element

/-- A component of the volume data, if its samples are known at the points of every element. -/
theorem find?_samples {nodes : List α} {solution : Solution α} {domain : Interval α}
    {component : String} {values : Sampled α → List α}
    (hvalues : ∀ s, (component, values s) ∈ s.components) {f : α → α}
    (h : ∀ e ∈ domain.elements, values (.ofSlopes nodes (.ofNodes nodes) solution e) =
      (nodes.map e.inertial).map f) :
    (ofSamples (samples nodes solution domain)).volumeData.components.find? component =
      some ((domain.collocation nodes).map f) := by
  have hconcat : (samples nodes solution domain).flatMap values =
      (domain.collocation nodes).map f := by
    rw [samples, List.flatMap_map, Interval.collocation, List.map_flatMap]
    exact List.flatMap_congr h
  rw [find?_ofSamples (samples_ne_nil nodes solution domain) carries_samples hvalues, hconcat]

/-- The coordinates are those of the collocation points. -/
theorem find?_coordinate {nodes : List α} {solution : Solution α} {domain : Interval α} :
    (ofSamples (samples nodes solution domain)).volumeData.components.find?
      "InertialCoordinates_x" = some (domain.collocation nodes) := by
  have hpoints : ∀ e ∈ domain.elements,
      (Sampled.ofSlopes nodes (.ofNodes nodes) solution e).x = (nodes.map e.inertial).map id :=
    fun e _ => (List.map_id _).symm
  rw [find?_samples (fun s => by simp [Sampled.components]) hpoints, List.map_id]

/-- **A verification succeeds** at any nodes but none at all. -/
theorem atNodes_eq_ok {nodes : List α} (hne : nodes ≠ []) (solution : Solution α)
    (domain : Interval α) :
    atNodes nodes solution domain = .ok (ofSamples (samples nodes solution domain)) := by
  have hsampled : domain.elements.mapM (Sampled.ofElement nodes (.ofNodes nodes) solution) =
      .ok (samples nodes solution domain) :=
    mapM_eq_ok_map fun element _ => Sampled.ofElement_eq_ok hne
      (Differentiation.length_rows_ofNodes nodes) solution element
  have hdata : (samples nodes solution domain).foldl Sampled.addTo (.ofValue Scalar.zero) =
      .ofElements Scalar.zero ((samples nodes solution domain).map Sampled.toElement) := by
    simp only [Volume.ObservationData.ofElements, List.foldl_map, ← Sampled.addTo_eq_add]
  rw [atNodes, hsampled]
  simp only [bind, Except.bind, hdata]
  rfl

end Verification
end Poisson
end PostRun
