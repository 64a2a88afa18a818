import PostRun.Proofs.Volume.Cells
import PostRun.Proofs.Xdmf.Outcome
import PostRun.Proofs.Xdmf.References

/-!
# The sizes in a document

A document says of every dataset that it points at how large it is.  It never looks into the
datasets: all sizes are computed from the extents.  A reader that trusts them reads past the end of
a dataset if they are wrong.

The extents of an observation of elements are those of the elements (`elementsOf?_flatMap_toList`),
and the datasets were filled element by element.  So both sides are sums over the elements, and
`MeshSize.exists_ofExtents?_eq_some` says that they agree: a component has a value for every point,
and the cells have eight corners each.

`generate_declares_sizes` reads the sizes off the text of a document and holds each of them against
the dataset that is named beside it.
-/

namespace PostRun
namespace Xdmf

/-! ## Sizes from the extents -/

/-- The elements with the extents of some elements are these elements. -/
theorem elementsOf?_flatMap_toList (es : List Volume.Extents) :
    elementsOf? (es.flatMap Volume.Extents.toList) = some es := by
  induction es with
  | nil => rfl
  | cons e es ih =>
    rw [List.flatMap_cons, Volume.Extents.toList, List.cons_append, List.cons_append,
      List.cons_append, List.nil_append, elementsOf?, ih]
    rfl

/-- **The size of the mesh is that of the datasets.** -/
theorem MeshSize.exists_ofExtents?_eq_some {α : Type u} {d : Volume.ObservationData α}
    (h : d.IsAssembled) :
    ∃ size, ofExtents? d.extents = some size ∧ size.points = d.pointCount ∧
      8 * size.cells = d.connectivity.length := by
  obtain ⟨value, elements, names, -, -, -, rfl⟩ := h
  refine ⟨ofElements (elements.map (·.extents)), ?_, ?_, ?_⟩
  · rw [ofExtents?, Volume.ObservationData.extents_ofElements, elementsOf?_flatMap_toList]
    rfl
  · rw [ofElements, Volume.ObservationData.pointCount_ofElements, List.map_map]
    rfl
  · rw [Volume.ObservationData.length_connectivity_ofElements]
    simp only [ofElements, List.map_map]
    rfl

/-! ## What is declared -/

section Declared

variable (file : Volume.File Binary64) (name : String) (d : Volume.ObservationData Binary64)

/-- A reference points at a component of an observation in a file, and declares one number for each
value of it; these are as many as there are points. -/
def Reference.DeclaresComponent (r : Reference) : Prop :=
  ∃ component values, r.target = (DatasetPath.mk file.path name component).text ∧
    file.tensorComponent name component = .ok values ∧
    r.dimensions = " " ++ toString values.length ∧ values.length = d.pointCount

/-- A field declares the sizes of its components; three of them make a vector, which declares three
numbers for each point. -/
def FieldOutline.DeclaresSizes : FieldOutline → Prop
  | .scalar _ item => item.DeclaresComponent file name d
  | .joined _ dimensions items =>
      dimensions = " " ++ toString d.pointCount ++ " 3" ∧ items.length = 3 ∧
        ∀ item ∈ items, item.DeclaresComponent file name d

/-- A grid declares the sizes of the datasets that it points at. -/
structure GridOutline.DeclaresSizes (g : GridOutline) : Prop where
  topology : ∃ cells : Nat, g.cells = toString cells ∧
    g.topology.target = (DatasetPath.mk file.path name Volume.connectivityName).text ∧
    g.topology.dimensions = toString cells ++ " 8" ∧ 8 * cells = d.connectivity.length
  geometry : g.geometry.length = 3 ∧ ∀ item ∈ g.geometry, item.DeclaresComponent file name d
  fields : ∀ f ∈ g.fields, f.DeclaresSizes file name d

end Declared

section Held

variable {file : Volume.File Binary64} {name : String} {d : Volume.ObservationData Binary64}
  (hheld : file.contents.find? name = some d) (h : d.IsAssembled)

include hheld h

/-- A reference with as many numbers as there are points declares the size of any component. -/
theorem Reference.declaresComponent_to {component : String}
    (hcomponent : component ∈ d.components.names) :
    (Reference.to file.path name (" " ++ toString d.pointCount) component).DeclaresComponent
      file name d := by
  obtain ⟨values, hvalues⟩ :=
    Option.isSome_iff_exists.1 ((d.components.isSome_find? component).2 hcomponent)
  have hlength := h.length_component hvalues
  refine ⟨component, values, Reference.target_to _ _ _ _,
    Volume.File.tensorComponent_eq_ok hheld hvalues, ?_, hlength⟩
  rw [hlength]
  rfl

/-- A field of components that are there declares their sizes. -/
theorem FieldOutline.declaresSizes_ofField {f : Field}
    (hcomponents : ∀ c ∈ f.components, c ∈ d.components.names) :
    (FieldOutline.ofField file.path name d.pointCount f).DeclaresSizes file name d := by
  cases f with
  | scalar component =>
    exact Reference.declaresComponent_to hheld h (hcomponents component List.mem_cons_self)
  | vector base =>
    refine ⟨rfl, rfl, List.forall_mem_map.2 fun axis haxis => ?_⟩
    refine Reference.declaresComponent_to hheld h (hcomponents _ ?_)
    have hall : (Field.vector base).components = ["_x", "_y", "_z"].map (base ++ ·) := rfl
    rw [hall]
    exact List.mem_map_of_mem haxis

/-- **A grid declares the sizes of the datasets that it points at.** -/
theorem Grid.declaresSizes_outline {g : Grid} (hg : Grid.ofFile file name = .ok g) :
    g.outline.DeclaresSizes file name d := by
  obtain ⟨size, hsize, hpoints, hcells⟩ := MeshSize.exists_ofExtents?_eq_some h
  rw [Grid.ofFile_eq hheld, hsize, Except.ok.injEq] at hg
  subst hg
  refine ⟨⟨size.cells, rfl, Reference.target_to _ _ _ _, rfl, hcells⟩, ⟨rfl, ?_⟩, ?_⟩
  · refine List.forall_mem_map.2 fun component hcomponent => ?_
    rw [hpoints]
    obtain ⟨values, hvalues⟩ := h.exists_find?_coordinate hcomponent
    exact Reference.declaresComponent_to hheld h
      ((d.components.isSome_find? component).1 (Option.isSome_iff_exists.2 ⟨values, hvalues⟩))
  · refine List.forall_mem_map.2 fun f hf => ?_
    rw [hpoints]
    refine FieldOutline.declaresSizes_ofField hheld h fun component hcomponent => ?_
    have hshown : component ∈ d.tensorNames :=
      (Field.flatMap_components_perm d.nodup_tensorNames).subset
        (List.mem_flatMap.2 ⟨f, hf, hcomponent⟩)
    exact (Volume.ObservationData.mem_tensorNames_iff.1 hshown).1

end Held

/-! ## Documents -/

/-- An index that was made renders chosen observations of the run. -/
theorem exists_render_of_generate {files : List (Volume.File Binary64)} {s : Selection}
    {text : String} (h : (generate files s).value = .ok text) :
    ∃ all chosen, observations files = .ok all ∧ (s.select all).value = .ok chosen ∧
      render files chosen = .ok text := by
  cases hall : observations files with
  | error e =>
    rw [generate_value_of_observations_eq_error hall] at h
    cases h
  | ok all =>
    by_cases hstride : s.stride = 0
    · rw [generate_value_of_stride_eq_zero hall hstride] at h
      cases h
    · have hchosen := s.select_value_of_stride_ne_zero hstride all
      rw [generate_value_of_select hall hchosen] at h
      exact ⟨all, _, rfl, hchosen, h⟩

/-- **What was assembled from elements is indexed** under any names, with one grid that declares the
sizes of what is stored. -/
theorem exists_generate_standard (path name : String) {d : Volume.ObservationData Binary64}
    (hzero : d.value = .zero) (h : d.IsAssembled) :
    ∃ text g, (generate [(Volume.File.ofPath path).insert name d] .standard).value = .ok text ∧
      decode text = some [⟨"0.00000000000000e+00", [g]⟩] ∧
      g.DeclaresSizes ((Volume.File.ofPath path).insert name d) name d := by
  set file := (Volume.File.ofPath path).insert name d with hfile
  have hheld : file.contents.find? name = some d := Volume.File.find?_contents_insert _ name d
  have hlisted : file.observations = [⟨name, .zero⟩] := by
    rw [← hzero]
    rfl
  have hall : observations [file] = .ok [⟨name, .zero⟩] := by
    refine observations_eq_ok_iff.2 ⟨by simp, ?_⟩
    rw [inOrder, hlisted, List.mergeSort_singleton]
  have hchosen : (Selection.standard.select [⟨name, .zero⟩]).value = .ok [⟨name, .zero⟩] := rfl
  obtain ⟨size, hsize, -⟩ := MeshSize.exists_ofExtents?_eq_some h
  obtain ⟨g, hg⟩ : ∃ g, Grid.ofFile file name = .ok g := by
    rw [Grid.ofFile_eq hheld, hsize]
    exact ⟨_, rfl⟩
  have hdoc : Document.ofFiles [file] [⟨name, .zero⟩] = .ok ⟨[⟨.zero, [g]⟩]⟩ :=
    Document.ofFiles_eq_ok_iff.2 (.cons ⟨rfl, .cons hg .nil⟩ .nil)
  have hstamp : Binary64.zero.timeStamp = "0.00000000000000e+00" := by decide
  refine ⟨Document.render ⟨[⟨.zero, [g]⟩]⟩, g.outline, ?_, ?_, Grid.declaresSizes_outline hheld h hg⟩
  · rw [generate_value_of_select hall hchosen, render, hdoc]
    rfl
  · rw [Document.decode_render, ← hstamp]
    rfl

/-- **A document declares the sizes of the datasets that it points at**, if every observation in the
files was made of elements with the same components.  The text of the document lists the chosen
observations, with a grid for every file.  In each grid the cells are declared with eight numbers
each, and these are all that the dataset of the cells holds; the coordinates and the components of
all fields are declared with as many numbers as they hold, which is the number of points; and a
vector is declared with three numbers for each point. -/
theorem generate_declares_sizes {files : List (Volume.File Binary64)} {s : Selection}
    {text : String}
    (hassembled : ∀ file ∈ files, ∀ name d, file.contents.find? name = some d → d.IsAssembled)
    (h : (generate files s).value = .ok text) :
    ∃ all chosen entries, observations files = .ok all ∧ (s.select all).value = .ok chosen ∧
      decode text = some entries ∧
      List.Forall₂ (fun (o : Snapshot) (entry : EntryOutline) =>
        List.Forall₂ (fun (file : Volume.File Binary64) (g : GridOutline) =>
          ∃ d, file.contents.find? o.name = some d ∧ g.DeclaresSizes file o.name d)
          files entry.grids) chosen entries := by
  obtain ⟨all, chosen, hall, hchosen, hrender⟩ := exists_render_of_generate h
  obtain ⟨doc, hdoc, rfl⟩ := map_eq_ok_iff.1 hrender
  refine ⟨all, chosen, _, hall, hchosen, doc.decode_render, List.forall₂_map_right_iff.2 ?_⟩
  refine (Document.ofFiles_eq_ok_iff.1 hdoc).imp fun o entry ⟨_, hgrids⟩ => ?_
  refine List.forall₂_map_right_iff.2 ?_
  refine ((List.forall₂_and_left _ _).2 ⟨hassembled, hgrids⟩).imp fun file g ⟨hfile, hg⟩ => ?_
  obtain ⟨extents, -, -, hextents, -⟩ := Grid.ofFile_eq_ok_iff.1 hg
  obtain ⟨d, hd⟩ := Volume.File.exists_find?_of_extents hextents
  exact ⟨d, hd, Grid.declaresSizes_outline hd (hfile _ d hd) hg⟩

/-- Two elements, the first with a cell and the second without, that have a vector and a scalar. -/
def cellAndFace : List (Volume.ElementData Binary64) :=
  let names := Volume.coordinateNames ++ ["Psi", "v_x", "v_y", "v_z"]
  [⟨"Cell", ⟨2, 2, 2⟩, names.map (·, List.replicate 8 .zero)⟩,
    ⟨"Face", ⟨1, 3, 2⟩, names.map (·, List.replicate 6 .zero)⟩]

/-- A file that holds them. -/
def cellAndFaceFile : Volume.File Binary64 :=
  (Volume.File.ofPath "Volume0.h5").insert "t0" (.ofElements .zero cellAndFace)

/-- The observation in that file was made of elements. -/
theorem isAssembled_cellAndFaceFile : ∀ file ∈ [cellAndFaceFile], ∀ name d,
    file.contents.find? name = some d → d.IsAssembled := by
  intro file hfile name d hd
  rw [List.mem_singleton.1 hfile, cellAndFaceFile, Volume.File.insert,
    NameMap.find?_insert] at hd
  split at hd
  · cases hd
    refine ⟨.zero, cellAndFace, Volume.coordinateNames ++ ["Psi", "v_x", "v_y", "v_z"],
      List.cons_ne_nil _ _, by decide, fun e he => .of_perm (by decide) ?_ ?_, rfl⟩
    · revert e he
      decide
    · revert e he
      decide
  · cases hd

/-- The document of that file declares fourteen points and one cell. -/
theorem generate_declares_sizes_cellAndFace :
    (∀ file ∈ [cellAndFaceFile], ∀ name d, file.contents.find? name = some d → d.IsAssembled) ∧
    ∃ text time g, (generate [cellAndFaceFile] .standard).value = .ok text ∧
      decode text = some [⟨time, [g]⟩] ∧ g.cells = "1" ∧
      g.topology.dimensions = "1 8" ∧ ∀ item ∈ g.geometry, item.dimensions = " 14" := by
  have hlisted : cellAndFaceFile.observations = [⟨"t0", .zero⟩] := rfl
  have hdata : cellAndFaceFile.contents.find? "t0" = some (.ofElements .zero cellAndFace) := rfl
  have hall : observations [cellAndFaceFile] = .ok [⟨"t0", .zero⟩] := by
    refine observations_eq_ok_iff.2 ⟨by simp, ?_⟩
    rw [inOrder, hlisted, List.mergeSort_singleton]
  have hchosen : (Selection.standard.select [⟨"t0", .zero⟩]).value = .ok [⟨"t0", .zero⟩] := by
    decide
  have hrender : ∃ text, render [cellAndFaceFile] [⟨"t0", .zero⟩] = .ok text := by
    refine (exists_render_eq_ok_iff ?_).2 ?_
    · simp only [List.mem_singleton]
      rintro o rfl file rfl
      decide
    · simp only [List.mem_singleton]
      rintro o rfl file rfl
      rw [malformed_iff hdata]
      decide
  obtain ⟨text, htext⟩ := hrender
  have hvalue := (generate_value_of_select hall hchosen).trans htext
  obtain ⟨all', chosen', entries, hall', hchosen', hdecode, hsizes⟩ :=
    generate_declares_sizes isAssembled_cellAndFaceFile hvalue
  cases hall.symm.trans hall'
  cases hchosen.symm.trans hchosen'
  rcases hsizes with _ | @⟨_, entry, _, _, hgrids, ⟨⟩⟩
  obtain ⟨time, grids⟩ := entry
  rcases hgrids with _ | @⟨_, g, _, _, ⟨d, hd, hg⟩, ⟨⟩⟩
  cases hdata.symm.trans hd
  have hcorners :
      (Volume.ObservationData.ofElements .zero cellAndFace).connectivity.length = 8 := by
    decide
  have hpoints : (Volume.ObservationData.ofElements .zero cellAndFace).pointCount = 14 := by decide
  obtain ⟨cells, hcells, -, hdimensions, hcount⟩ := hg.topology
  have hone : cells = 1 := by omega
  subst hone
  refine ⟨isAssembled_cellAndFaceFile, text, time, g, hvalue, hdecode, hcells, hdimensions,
    fun item hitem => ?_⟩
  obtain ⟨component, values, -, -, hitem, hlength⟩ := hg.geometry.2 item hitem
  rw [hitem, hlength, hpoints]
  rfl

end Xdmf
end PostRun
