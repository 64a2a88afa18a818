import PostRun.Proofs.Poisson.Lobatto
import PostRun.Proofs.Poisson.Names
import PostRun.Proofs.Poisson.Sampling
import PostRun.Proofs.Xdmf.Sizes

/-!
# The shape of a verification

A verification is arithmetic on words from beginning to end, and a solution may answer with any
words it likes.  What is stored has a shape all the same: it is a matter of how many points and
elements there are, and of how they are called, and no word has a part in that.

All guards are in one place.  An interval that was made has two points or more for an element, and
few enough halvings that the elements can be counted (`Interval.ofBounds_eq_ok_iff`).  From there:

* there are as many nodes as points, the matrix of the nodes is square, and every element is
  sampled at as many places (`Lobatto.points_eq_ok`, `Differentiation.length_of_mem_rows_ofNodes`,
  `Verification.extents_samples`);
* the elements are the pieces of one level, from left to right, so that no two of them have the
  same name (`Interval.places_elements`, `ElementId.text_injective`);
* an element with one point along two axes has no cells, and all elements bring the same
  components, so that an index of what was stored can be made
  (`Xdmf.exists_generate_standard`).
-/

namespace PostRun
namespace Poisson

/-! ## Elements -/

namespace Interval

variable {α : Type u} [LT α]

/-- What an interval is made of. -/
theorem ofBounds_eq_ok_iff [DecidableLT α] {lower upper : α} {periodic : Bool} {level points : Nat}
    {d : Interval α} :
    ofBounds lower upper periodic level points = .ok d ↔
      d.lower = lower ∧ d.upper = upper ∧ d.periodic = periodic ∧ d.level = level ∧
        d.points = points := by
  obtain ⟨lower', upper', periodic', level', points', hbounds, henough, hshallow⟩ := d
  constructor
  · intro h
    unfold ofBounds at h
    split_ifs at h
    cases h
    exact ⟨rfl, rfl, rfl, rfl, rfl⟩
  · rintro ⟨rfl, rfl, rfl, rfl, rfl⟩
    rw [ofBounds, dif_pos hbounds, dif_pos henough, dif_pos hshallow]

variable [Scalar α] (d : Interval α)

/-- The elements are the pieces of one level, from left to right. -/
theorem places_elements :
    d.elements.map (fun e => (e.id.block, e.id.segment.level, e.id.segment.index)) =
      (List.range d.elementCount).map fun i => (0, d.level, i) := by
  refine List.ext_getElem (by simp) fun i hi _ => ?_
  simp only [elements, List.getElem_map, List.getElem_ofFn, List.getElem_range]
  rfl

/-- No two elements have the same place. -/
theorem nodup_ids_elements : (d.elements.map (·.id)).Nodup := by
  have hplaces : (d.elements.map fun e =>
      (e.id.block, e.id.segment.level, e.id.segment.index)).Nodup := by
    rw [places_elements]
    exact List.nodup_range.map fun i j hij => by simpa using hij
  refine List.Nodup.of_map (fun id : ElementId => (id.block, id.segment.level, id.segment.index)) ?_
  rwa [List.map_map]

end Interval

/-! ## What is stored -/

namespace Verification

variable {α : Type u} [Elementary α] [LT α] (nodes : List α) (solution : Solution α)
  (domain : Interval α)

/-- Every element has the same extents. -/
theorem extents_samples :
    ((samples nodes solution domain).map Sampled.toElement).map (·.extents) =
      List.replicate domain.elementCount ⟨nodes.length, 1, 1⟩ := by
  refine List.eq_replicate_iff.2 ⟨by simp [samples], ?_⟩
  simp [samples, Sampled.toElement, Sampled.ofSlopes]

/-- A count that is a matter of the extents is the same for all elements. -/
theorem total_samples (count : Volume.Extents → ℕ) :
    Volume.total (((samples nodes solution domain).map Sampled.toElement).map
      fun e => count e.extents) = domain.elementCount * count ⟨nodes.length, 1, 1⟩ := by
  rw [← Function.comp_def count, ← List.map_map, extents_samples, List.map_replicate,
    Volume.total_replicate]

/-- The residuals belong to the elements, in their order. -/
theorem ids_residuals :
    (ofSamples (samples nodes solution domain)).residuals.map (·.1) =
      domain.elements.map (·.id) := by
  simp [ofSamples, samples, Sampled.ofSlopes, Function.comp_def]

omit [LT α] in
/-- The data of the elements is stored under their names. -/
theorem gridNames_ofSamples (samples : List (Sampled α)) :
    (ofSamples samples).volumeData.gridNames = (ofSamples samples).residuals.map (·.1.text) := by
  rw [ofSamples, Volume.ObservationData.gridNames_ofElements]
  simp [Sampled.toElement, Function.comp_def]

omit [LT α] in
theorem value_ofSamples (samples : List (Sampled α)) :
    (ofSamples samples).volumeData.value = Scalar.zero :=
  Volume.ObservationData.value_ofElements _ _

theorem pointCount_ofSamples :
    (ofSamples (samples nodes solution domain)).volumeData.pointCount =
      nodes.length * 2 ^ domain.level := by
  rw [ofSamples, Volume.ObservationData.pointCount_ofElements, total_samples]
  simp [Volume.Extents.points, Interval.elementCount, segmentCount, Nat.mul_comm]

theorem isAssembled_ofSamples :
    (ofSamples (samples nodes solution domain)).volumeData.IsAssembled := by
  refine ⟨Scalar.zero, _, Sampled.componentNames, ?_, by decide,
    List.forall_mem_map.2 carries_samples, rfl⟩
  simpa using samples_ne_nil nodes solution domain

/-- A verification has the shape of the verifications at `points` points on each of `2 ^ level`
elements. -/
structure HasShape (v : Verification α) (level points : ℕ) : Prop where
  places : v.residuals.map (fun r => (r.1.block, r.1.segment.level, r.1.segment.index)) =
    (List.range (2 ^ level)).map fun i => (0, level, i)
  nodup_ids : (v.residuals.map (·.1)).Nodup
  gridNames : v.volumeData.gridNames = v.residuals.map (·.1.text)
  nodup_gridNames : v.volumeData.gridNames.Nodup
  extents : v.volumeData.extents = (List.replicate (2 ^ level) [points, 1, 1]).flatten
  connectivity : v.volumeData.connectivity = []
  pointCount : v.volumeData.pointCount = points * 2 ^ level
  names : v.volumeData.components.names.Perm Sampled.componentNames
  length_component : ∀ component values,
    v.volumeData.components.find? component = some values → values.length = points * 2 ^ level

/-- **The samples of a domain have the shape of the domain.** -/
theorem hasShape_ofSamples :
    (ofSamples (samples nodes solution domain)).HasShape domain.level nodes.length where
  places := by
    have hids := congrArg (List.map fun id : ElementId =>
      (id.block, id.segment.level, id.segment.index)) (ids_residuals nodes solution domain)
    rw [List.map_map, List.map_map] at hids
    exact hids.trans domain.places_elements
  nodup_ids := by
    rw [ids_residuals]
    exact domain.nodup_ids_elements
  gridNames := gridNames_ofSamples _
  nodup_gridNames := by
    rw [gridNames_ofSamples, ← Function.comp_def ElementId.text, ← List.map_map, ids_residuals]
    exact domain.nodup_ids_elements.map ElementId.text_injective
  extents := by
    rw [ofSamples, Volume.ObservationData.extents_ofElements, extents_samples,
      List.flatMap_def, List.map_replicate]
    rfl
  connectivity := by
    have hcells : (Volume.Extents.mk nodes.length 1 1).cells = 0 := rfl
    refine List.eq_nil_of_length_eq_zero ?_
    rw [ofSamples, Volume.ObservationData.length_connectivity_ofElements, total_samples, hcells,
      Nat.mul_zero, Nat.mul_zero]
  pointCount := pointCount_ofSamples nodes solution domain
  names := by
    refine (List.perm_ext_iff_of_nodup (NameMap.nodup_names _)
      Sampled.nodup_componentNames).2 fun name => ?_
    rw [← NameMap.isSome_find?, ofSamples, Volume.ObservationData.isSome_find?_ofElements]
    constructor
    · rintro ⟨e, he, hname⟩
      obtain ⟨s, -, rfl⟩ := List.mem_map.1 he
      exact hname
    · intro hname
      obtain ⟨s, hs⟩ := List.exists_mem_of_ne_nil _ (samples_ne_nil nodes solution domain)
      exact ⟨s.toElement, List.mem_map_of_mem hs, hname⟩
  length_component := by
    intro component values hvalues
    rw [(isAssembled_ofSamples nodes solution domain).length_component hvalues,
      pointCount_ofSamples]

end Verification

/-! ## The outcome -/

/-- **Applying the operator never fails, and what it gives is well-formed**, on every interval that
was made and for every solution.

* The nodes of an element are as many as its points, their matrix is square, and the elements can be
  counted in 64 bits.
* There is one residual for each place `0`, …, `2 ^ level - 1` of the level of the interval, and the
  volume data has the shape that belongs to these elements: extents for each of them, no cells, and
  eight components with a number for every point.
* Stored in a file, the data of the elements is found under their names, and no two of them have the
  same name.
* An index of the file can be made.  It declares all points and no cells. -/
theorem applyOperator_hasShape {lower upper : Binary64} {periodic : Bool} {level points : ℕ}
    {domain : Interval Binary64}
    (h : Interval.ofBounds lower upper periodic level points = .ok domain)
    (solution : Solution Binary64) :
    (domain.elementCount = 2 ^ level ∧ 2 ^ level < 2 ^ 64) ∧
    ∃ (nodes : List Binary64) (v : Verification Binary64),
      Lobatto.points points = .ok nodes ∧ nodes.length = points ∧
      (Differentiation.ofNodes nodes).rows.length = points ∧
      (∀ row ∈ (Differentiation.ofNodes nodes).rows, row.length = points) ∧
      (applyOperator solution domain).value = .ok v ∧ v.HasShape level points ∧
      (∀ (file : Volume.File Binary64) name,
        (file.insert name v.volumeData).gridNames name = .ok (v.residuals.map (·.1.text))) ∧
      ∀ path name, ∃ text g,
        (Xdmf.generate [(Volume.File.ofPath path).insert name v.volumeData] .standard).value =
          .ok text ∧
        Xdmf.decode text = some [⟨"0.00000000000000e+00", [g]⟩] ∧
        g.DeclaresSizes ((Volume.File.ofPath path).insert name v.volumeData) name v.volumeData ∧
        g.cells = "0" ∧ g.topology.dimensions = "0 8" ∧
        ∀ item ∈ g.geometry, item.dimensions = " " ++ toString (points * 2 ^ level) := by
  obtain ⟨-, -, -, rfl, rfl⟩ := Interval.ofBounds_eq_ok_iff.1 h
  obtain ⟨nodes, hnodes, hlength⟩ : ∃ nodes : List Binary64, _ :=
    Lobatto.points_eq_ok domain.two_le_points
  have hne : nodes ≠ [] := List.ne_nil_of_length_pos (by have := domain.two_le_points; omega)
  have hshape := Verification.hasShape_ofSamples nodes solution domain
  have hassembled := Verification.isAssembled_ofSamples nodes solution domain
  rw [hlength] at hshape
  set v := Verification.ofSamples (Verification.samples nodes solution domain) with hv
  have hvalue : (applyOperator solution domain).value = .ok v := by
    rw [applyOperator, Verification.ofSolution, hnodes]
    simp only [bind, Except.bind, Verification.atNodes_eq_ok hne]
    rfl
  refine ⟨⟨rfl, ?_⟩, nodes, v, hnodes, hlength, ?_, ?_, hvalue, hshape, ?_, ?_⟩
  · exact Nat.pow_lt_pow_right (by decide) (by have := domain.level_lt; omega)
  · rw [Differentiation.length_rows_ofNodes, hlength]
  · rw [← hlength]
    exact Differentiation.length_of_mem_rows_ofNodes
  · intro file name
    rw [← hshape.gridNames]
    refine Volume.File.gridNames_eq_ok (Volume.File.find?_contents_insert file name _) ?_
    rw [hshape.gridNames]
    exact List.forall_mem_map.2 fun r _ => r.1.nameEnd_not_mem_text
  · intro path name
    obtain ⟨text, g, htext, hdecode, hsizes⟩ := Xdmf.exists_generate_standard path name
      (Verification.value_ofSamples _) hassembled
    obtain ⟨cells, hcells, -, hdimensions, hcount⟩ := hsizes.topology
    rw [hshape.connectivity, List.length_nil] at hcount
    obtain rfl : cells = 0 := by omega
    refine ⟨text, g, htext, hdecode, hsizes, hcells, hdimensions, fun item hitem => ?_⟩
    obtain ⟨component, values, -, -, hitem, hpoints⟩ := hsizes.geometry.2 item hitem
    rw [hitem, hpoints, hshape.pointCount]

/-- The unit interval in two elements of three points each. -/
def halvedUnit : Interval Binary64 where
  lower := .zero
  upper := ⟨0x3FF0000000000000⟩
  periodic := false
  level := 1
  points := 3
  lower_lt_upper := by decide
  two_le_points := by decide
  level_lt := by decide

/-- A solution that is not a number anywhere. -/
theorem applyOperator_hasShape_notANumber :
    Interval.ofBounds .zero ⟨0x3FF0000000000000⟩ false 1 3 = .ok halvedUnit ∧
    ∃ v, (applyOperator ⟨fun _ => ⟨0x7FF8000000000000⟩, fun _ => ⟨0x7FF8000000000000⟩,
        fun _ => ⟨0x7FF8000000000000⟩⟩ halvedUnit).value = .ok v ∧
      v.residuals.map (·.1.segment.index) = [0, 1] ∧
      v.volumeData.extents = [3, 1, 1, 3, 1, 1] ∧ v.volumeData.pointCount = 6 ∧
      ∃ text g, (Xdmf.generate [(Volume.File.ofPath "Solution.h5").insert "t" v.volumeData]
          .standard).value = .ok text ∧
        Xdmf.decode text = some [⟨"0.00000000000000e+00", [g]⟩] ∧ g.cells = "0" ∧
        ∀ item ∈ g.geometry, item.dimensions = " 6" := by
  have hbounds : Interval.ofBounds .zero ⟨0x3FF0000000000000⟩ false 1 3 = .ok halvedUnit :=
    Interval.ofBounds_eq_ok_iff.2 ⟨rfl, rfl, rfl, rfl, rfl⟩
  obtain ⟨-, nodes, v, -, -, -, -, hvalue, hshape, -, hindex⟩ := applyOperator_hasShape hbounds
    ⟨fun _ => ⟨0x7FF8000000000000⟩, fun _ => ⟨0x7FF8000000000000⟩, fun _ => ⟨0x7FF8000000000000⟩⟩
  obtain ⟨text, g, htext, hdecode, -, hcells, -, hpoints⟩ := hindex "Solution.h5" "t"
  have hplaces := congrArg (List.map fun place : ℕ × ℕ × ℕ => place.2.2) hshape.places
  rw [List.map_map] at hplaces
  exact ⟨hbounds, v, hvalue, hplaces, hshape.extents, hshape.pointCount, text, g, htext, hdecode,
    hcells, hpoints⟩

end Poisson
end PostRun
