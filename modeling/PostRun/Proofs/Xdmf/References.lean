import PostRun.Proofs.Xdmf.Fields
import PostRun.Proofs.Xdmf.Outline

/-!
# What a grid points at

The grid of an observation points at the cells, at the three coordinates and at every tensor
component, each once, and at nothing else.  The listing of the datasets of a file holds the
bookkeeping names beside the components, and a component may bear one of these names too;
the names that are left when they are taken out are those of the tensor components, each
once (`Volume.ObservationData.tensorNames_perm`).  The fields are a partition of them
(`Field.flatMap_components_perm`), so the references of a grid, read off its text, are the
paths of these datasets in some order (`Grid.references_perm`).
-/

namespace PostRun

/-! ## The tensor components of an observation -/

namespace Volume

variable {α : Type u}

/-- What is shown of the components: those whose name is not one of the bookkeeping names. -/
theorem ObservationData.tensorNames_perm (d : ObservationData α) :
    d.tensorNames.Perm (d.components.names.filter fun n => !isBookkeeping n) := by
  have hbookkeeping :
      [connectivityName, gridNamesName, extentsName].filter (fun n => !isBookkeeping n) = [] := by
    decide
  have hperm := (List.mergeSort_perm (d.components.names ++
    [connectivityName, gridNamesName, extentsName]) fun a b => decide (a ≤ b)).filter
      fun n => !isBookkeeping n
  rwa [List.filter_append, hbookkeeping, List.append_nil] at hperm

theorem ObservationData.mem_tensorNames_iff {d : ObservationData α} {n : String} :
    n ∈ d.tensorNames ↔ n ∈ d.components.names ∧ isBookkeeping n = false := by
  rw [d.tensorNames_perm.mem_iff, List.mem_filter, Bool.not_eq_true']

theorem ObservationData.nodup_tensorNames (d : ObservationData α) : d.tensorNames.Nodup :=
  d.tensorNames_perm.nodup_iff.2 (d.components.nodup_names.filter _)

/-- A component that an observation holds can be read. -/
theorem File.exists_tensorComponent_eq_ok {file : File α} {name component : String}
    {d : ObservationData α} (hd : file.contents.find? name = some d)
    (hcomponent : component ∈ d.components.names) :
    ∃ values, file.tensorComponent name component = .ok values := by
  obtain ⟨values, hvalues⟩ :=
    Option.isSome_iff_exists.1 ((d.components.isSome_find? component).2 hcomponent)
  exact ⟨values, tensorComponent_eq_ok hd hvalues⟩

end Volume

namespace Xdmf

/-! ## References -/

/-- What a field points at. -/
def FieldOutline.targets : FieldOutline → List String
  | .scalar _ item => [item.target]
  | .joined _ _ items => items.map (·.target)

/-- What the fields of a grid point at. -/
def GridOutline.fieldTargets (o : GridOutline) : List String :=
  o.fields.flatMap FieldOutline.targets

/-- What a grid points at. -/
def GridOutline.targets (o : GridOutline) : List String :=
  o.topology.target :: o.geometry.map (·.target) ++ o.fieldTargets

/-- Paths of distinct datasets are distinct. -/
theorem DatasetPath.text_injective (path name : String) :
    Function.Injective fun dataset => (DatasetPath.mk path name dataset).text := by
  intro a b h
  simpa [text] using h

/-- A reference points at the path of its dataset. -/
theorem Reference.target_to (path name dimensions dataset : String) :
    (Reference.to path name dimensions dataset).target =
      (DatasetPath.mk path name dataset).text := by
  rw [DatasetPath.text_eq]
  rfl

/-- A field points at its components. -/
theorem FieldOutline.targets_ofField (path name : String) (points : Nat) (f : Field) :
    (ofField path name points f).targets =
      f.components.map fun dataset => (DatasetPath.mk path name dataset).text := by
  cases f with
  | scalar component => simp [ofField, targets, Field.components, Reference.target_to]
  | vector base =>
    have hcomponents : (Field.vector base).components = ["_x", "_y", "_z"].map (base ++ ·) := rfl
    simp [ofField, targets, hcomponents, Reference.target_to]

/-- The fields of a grid point at the components of the fields. -/
theorem Grid.fieldTargets_outline (g : Grid) :
    g.outline.fieldTargets =
      (g.fields.flatMap Field.components).map fun dataset => (g.path dataset).text := by
  simp only [GridOutline.fieldTargets, outline, List.flatMap_map, FieldOutline.targets_ofField,
    List.map_flatMap, path]

/-- A grid points at the cells, the coordinates and the components of the fields. -/
theorem Grid.targets_outline (g : Grid) :
    g.outline.targets =
      (Volume.connectivityName :: Volume.coordinateNames ++
        g.fields.flatMap Field.components).map fun dataset => (g.path dataset).text := by
  rw [GridOutline.targets, fieldTargets_outline]
  simp [outline, Reference.target_to, path, Volume.connectivityName, Volume.coordinateNames]

/-- The lines of a grid are read as its outline. -/
theorem Grid.root?_markup (g : Grid) :
    (root? (ended (g.markup.lines 4))).bind gridOutline? = some g.outline := by
  obtain ⟨e, he, houtline⟩ := Option.bind_eq_some_iff.1 g.gridOutline?_markup
  rw [Markup.root?_ended g.isReadable_markup he]
  exact houtline

/-! ## The references of a grid -/

section Shown

variable (path name : String) (size : MeshSize) (d : Volume.ObservationData Binary64)

/-- The datasets of a grid are distinct. -/
theorem nodup_datasets :
    (Volume.connectivityName :: Volume.coordinateNames ++ d.tensorNames).Nodup := by
  have hmesh : ∀ c ∈ Volume.connectivityName :: Volume.coordinateNames,
      Volume.isBookkeeping c := by decide
  refine List.nodup_append.2 ⟨by decide, d.nodup_tensorNames, fun a ha b hb hab => ?_⟩
  have hshown := (Volume.ObservationData.mem_tensorNames_iff.1 hb).2
  rw [← hab, hmesh a ha] at hshown
  cases hshown

/-- The fields point at the tensor components, each once. -/
theorem fieldTargets_perm :
    (Grid.outline ⟨path, name, size, Field.ofComponents d.tensorNames⟩).fieldTargets.Perm
      (d.tensorNames.map fun dataset => (DatasetPath.mk path name dataset).text) := by
  rw [Grid.fieldTargets_outline]
  exact (Field.flatMap_components_perm d.nodup_tensorNames).map _

/-- The grid points at the cells, the coordinates and the tensor components, each once. -/
theorem targets_perm :
    (Grid.outline ⟨path, name, size, Field.ofComponents d.tensorNames⟩).targets.Perm
      ((Volume.connectivityName :: Volume.coordinateNames ++ d.tensorNames).map
        fun dataset => (DatasetPath.mk path name dataset).text) := by
  rw [Grid.targets_outline]
  exact ((Field.flatMap_components_perm d.nodup_tensorNames).append_left _).map _

/-- No field points at a bookkeeping dataset. -/
theorem not_mem_fieldTargets {dataset : String} (h : Volume.isBookkeeping dataset) :
    (DatasetPath.mk path name dataset).text ∉
      (Grid.outline ⟨path, name, size, Field.ofComponents d.tensorNames⟩).fieldTargets := by
  rw [(fieldTargets_perm path name size d).mem_iff,
    List.mem_map_of_injective (DatasetPath.text_injective path name),
    Volume.ObservationData.mem_tensorNames_iff, h]
  simp

/-- The grid does not point at the extents and the element names. -/
theorem not_mem_targets {dataset : String}
    (h : dataset ∈ [Volume.extentsName, Volume.gridNamesName]) :
    (DatasetPath.mk path name dataset).text ∉
      (Grid.outline ⟨path, name, size, Field.ofComponents d.tensorNames⟩).targets := by
  have hother : ∀ n ∈ [Volume.extentsName, Volume.gridNamesName],
      n ∉ Volume.connectivityName :: Volume.coordinateNames ∧ Volume.isBookkeeping n := by decide
  obtain ⟨hmesh, hbookkeeping⟩ := hother dataset h
  rw [(targets_perm path name size d).mem_iff,
    List.mem_map_of_injective (DatasetPath.text_injective path name), List.mem_append,
    Volume.ObservationData.mem_tensorNames_iff, hbookkeeping]
  simp [hmesh]

end Shown

/-- **What a grid points at.**  The grid of an observation that holds the coordinates can be made if
the extents fill whole elements.  Read off its text, its references are the paths of the cells, of
the coordinates and of the tensor components, each once, and those of its fields are the paths of
the tensor components.  The extents and the element names are never pointed at, no bookkeeping
dataset is part of a field, and every component that is pointed at can be read. -/
theorem Grid.references_perm {file : Volume.File Binary64} {name : String}
    {d : Volume.ObservationData Binary64} (hheld : file.contents.find? name = some d)
    (hcoordinates : ∀ c ∈ Volume.coordinateNames, c ∈ d.components.names) :
    ((∃ g, Grid.ofFile file name = .ok g) ↔ 3 ∣ d.extents.length) ∧
    ∀ g, Grid.ofFile file name = .ok g → ∃ (o : GridOutline) (components : List String),
      (root? (ended (g.markup.lines 4))).bind gridOutline? = some o ∧
      file.tensorComponents name = .ok components ∧
      components.Perm (d.components.names.filter fun n => !Volume.isBookkeeping n) ∧
      (Volume.connectivityName :: Volume.coordinateNames ++ components).Nodup ∧
      o.targets.Perm ((Volume.connectivityName :: Volume.coordinateNames ++ components).map
        fun dataset => (DatasetPath.mk file.path name dataset).text) ∧
      o.fieldTargets.Perm
        (components.map fun dataset => (DatasetPath.mk file.path name dataset).text) ∧
      (∀ dataset ∈ [Volume.extentsName, Volume.gridNamesName],
        (DatasetPath.mk file.path name dataset).text ∉ o.targets) ∧
      (∀ dataset, Volume.isBookkeeping dataset →
        (DatasetPath.mk file.path name dataset).text ∉ o.fieldTargets) ∧
      ∀ c ∈ Volume.coordinateNames ++ components,
        ∃ values, file.tensorComponent name c = .ok values := by
  refine ⟨?_, fun g hg => ?_⟩
  · rw [exists_ofFile_eq_ok_iff ((file.contents.isSome_find? name).1 (by rw [hheld]; rfl)),
      malformed_iff hheld, not_not]
  obtain ⟨extents, size, components, -, -, hcomponents, rfl⟩ := ofFile_eq_ok_iff.1 hg
  cases (Volume.File.tensorComponents_eq_ok hheld).symm.trans hcomponents
  refine ⟨_, _, root?_markup _, hcomponents, d.tensorNames_perm, nodup_datasets d,
    targets_perm _ _ _ d, fieldTargets_perm _ _ _ d, fun dataset h => not_mem_targets _ _ _ d h,
    fun dataset h => not_mem_fieldTargets _ _ _ d h, fun c hc => ?_⟩
  refine Volume.File.exists_tensorComponent_eq_ok hheld ?_
  rcases List.mem_append.1 hc with hc | hc
  · exact hcoordinates c hc
  · exact (Volume.ObservationData.mem_tensorNames_iff.1 hc).1

/-- A grid with a scalar and a vector points at eight datasets. -/
theorem Grid.references_perm_markedFile :
    markedFile.contents.find? "t=\"0\"" = some markedData ∧
    (∀ c ∈ Volume.coordinateNames, c ∈ markedData.components.names) ∧
    ∃ g o, Grid.ofFile markedFile "t=\"0\"" = .ok g ∧
      (root? (ended (g.markup.lines 4))).bind gridOutline? = some o ∧
      o.targets.length = 8 ∧ o.fieldTargets.length = 4 := by
  have hheld : markedFile.contents.find? "t=\"0\"" = some markedData := rfl
  have hcoordinates : ∀ c ∈ Volume.coordinateNames, c ∈ markedData.components.names := by decide
  obtain ⟨hmade, hreferences⟩ := Grid.references_perm hheld hcoordinates
  obtain ⟨g, hg⟩ := hmade.2 (by decide)
  obtain ⟨o, components, hread, -, hcomponents, -, htargets, hfieldTargets, -⟩ := hreferences g hg
  have hlength : components.length = 4 := hcomponents.length_eq.trans (by decide)
  refine ⟨hheld, hcoordinates, g, o, hg, hread, ?_, ?_⟩
  · simp [htargets.length_eq, hlength, Volume.coordinateNames]
  · simp [hfieldTargets.length_eq, hlength]

end Xdmf
end PostRun
