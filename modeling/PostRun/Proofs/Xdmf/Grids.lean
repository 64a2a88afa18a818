import PostRun.Proofs.Attempts
import PostRun.Proofs.Volume.Assembly
import PostRun.Xdmf.Document

/-!
# When a document can be made

A document has a grid for every chosen observation in every file.  It can be made if each
of these grids can, and the first one that cannot decides what is wrong.

* `Grid.ofFile_eq`: the grid of an observation that a file holds.  It can be made if the
  extents fill whole elements.
* `Document.ofFiles_eq_ok_iff`, `Document.ofFiles_eq_error_iff`: the document.
-/

namespace PostRun

/-! ## What is shown of an observation -/

namespace Volume

variable {α : Type u}

/-- The components that are shown of an observation. -/
def ObservationData.tensorNames (d : ObservationData α) : List String :=
  ((d.components.names ++ [connectivityName, gridNamesName, extentsName]).mergeSort
    fun a b => decide (a ≤ b)).filter fun n => !isBookkeeping n

variable {file : File α} {name : String}

theorem File.tensorComponents_eq_ok {d : ObservationData α}
    (h : file.contents.find? name = some d) :
    file.tensorComponents name = .ok d.tensorNames := by
  rw [tensorComponents, datasetNames, observation_eq_ok h]
  rfl

end Volume

namespace Xdmf

/-! ## One grid -/

/-- Extents fill whole elements if their number is a multiple of three. -/
theorem isSome_elementsOf?_iff (extents : List Nat) :
    (elementsOf? extents).isSome ↔ 3 ∣ extents.length := by
  fun_induction elementsOf? extents with
  | case1 x y z rest ih =>
    rw [Option.isSome_map, ih, List.length_cons, List.length_cons, List.length_cons]
    omega
  | case2 => simp
  | case3 rest hthree hnil =>
    rcases rest with _ | ⟨a, _ | ⟨b, _ | ⟨c, rest⟩⟩⟩
    · exact absurd rfl hnil
    · simp
    · simp
    · exact absurd rfl (hthree a b c rest)

/-- The grid of an observation that the file holds. -/
theorem Grid.ofFile_eq {file : Volume.File Binary64} {name : String}
    {d : Volume.ObservationData Binary64} (h : file.contents.find? name = some d) :
    Grid.ofFile file name =
      match MeshSize.ofExtents? d.extents with
      | none => .error (.malformedExtents file.path name d.extents.length)
      | some size => .ok ⟨file.path, name, size, Field.ofComponents d.tensorNames⟩ := by
  rw [Grid.ofFile, Volume.File.extents_eq_ok h, Volume.File.tensorComponents_eq_ok h]
  cases hsize : MeshSize.ofExtents? d.extents with
  | none => simp [Except.mapError, bind, Except.bind, hsize]; rfl
  | some size => simp [Except.mapError, bind, Except.bind, hsize]; rfl

/-- **A grid that was made** has the size and the fields that the file answers for. -/
theorem Grid.ofFile_eq_ok_iff {file : Volume.File Binary64} {name : String} {g : Grid} :
    Grid.ofFile file name = .ok g ↔ ∃ extents size components,
      file.extents name = .ok extents ∧ MeshSize.ofExtents? extents = some size ∧
      file.tensorComponents name = .ok components ∧
      g = ⟨file.path, name, size, Field.ofComponents components⟩ := by
  rw [Grid.ofFile]
  cases hextents : file.extents name with
  | error e => simp [Except.mapError, bind, Except.bind]
  | ok extents =>
    cases hsize : MeshSize.ofExtents? extents with
    | none => simp [Except.mapError, bind, Except.bind, hsize, throw, throwThe, MonadExceptOf.throw]
    | some size =>
      cases hcomponents : file.tensorComponents name with
      | error e => simp [Except.mapError, bind, Except.bind, hsize]
      | ok components =>
        simp [Except.mapError, bind, Except.bind, hsize, pure, Except.pure, eq_comm]

/-- The extents of an observation in a file do not fill whole elements. -/
def Malformed (file : Volume.File Binary64) (name : String) : Prop :=
  ∃ d, file.contents.find? name = some d ∧ ¬ 3 ∣ d.extents.length

section Held

variable {file : Volume.File Binary64} {name : String} {d : Volume.ObservationData Binary64}

theorem malformed_iff (h : file.contents.find? name = some d) :
    Malformed file name ↔ ¬ 3 ∣ d.extents.length := by
  simp [Malformed, h]

theorem Grid.exists_ofFile_eq_ok_iff (h : name ∈ file.observationNames) :
    (∃ g, Grid.ofFile file name = .ok g) ↔ ¬ Malformed file name := by
  obtain ⟨d, hd⟩ := Volume.File.exists_find?_of_mem h
  rw [malformed_iff hd, not_not, ← isSome_elementsOf?_iff, Grid.ofFile_eq hd, MeshSize.ofExtents?]
  cases elementsOf? d.extents <;> simp

theorem Grid.ofFile_eq_error_iff (h : file.contents.find? name = some d) {e : Failure} :
    Grid.ofFile file name = .error e ↔
      Malformed file name ∧ e = .malformedExtents file.path name d.extents.length := by
  rw [malformed_iff h, ← isSome_elementsOf?_iff, Grid.ofFile_eq h, MeshSize.ofExtents?]
  cases elementsOf? d.extents <;> simp [eq_comm]

end Held

/-! ## All grids -/

variable {files : List (Volume.File Binary64)} {chosen : List Snapshot}

theorem Entry.ofFiles_eq (files : List (Volume.File Binary64)) (o : Snapshot) :
    Entry.ofFiles files o =
      (files.mapM fun file => Grid.ofFile file o.name).map (Entry.mk o.value) := by
  rw [Entry.ofFiles]
  cases files.mapM fun file => Grid.ofFile file o.name <;> rfl

theorem Document.ofFiles_eq (files : List (Volume.File Binary64)) (chosen : List Snapshot) :
    Document.ofFiles files chosen = (chosen.mapM (Entry.ofFiles files)).map Document.mk := by
  rw [Document.ofFiles]
  cases chosen.mapM (Entry.ofFiles files) <;> rfl

/-- **A document that was made** has an entry for every observation, with a grid for every file. -/
theorem Document.ofFiles_eq_ok_iff {doc : Document} :
    Document.ofFiles files chosen = .ok doc ↔
      List.Forall₂ (fun (o : Snapshot) (e : Entry) => e.time = o.value ∧
        List.Forall₂ (fun file g => Grid.ofFile file o.name = .ok g) files e.grids)
        chosen doc.entries := by
  have hentry : ∀ (o : Snapshot) (e : Entry), Entry.ofFiles files o = .ok e ↔ e.time = o.value ∧
      List.Forall₂ (fun file g => Grid.ofFile file o.name = .ok g) files e.grids := by
    rintro o ⟨time, grids⟩
    rw [Entry.ofFiles_eq, map_eq_ok_iff]
    simp only [mapM_eq_ok_iff, Entry.mk.injEq]
    exact ⟨fun ⟨gs, hgs, htime, hgrids⟩ => ⟨htime.symm, hgrids ▸ hgs⟩,
      fun ⟨htime, hgs⟩ => ⟨grids, hgs, htime.symm, rfl⟩⟩
  obtain ⟨entries⟩ := doc
  simp [Document.ofFiles_eq, map_eq_ok_iff, mapM_eq_ok_iff, hentry]

theorem Entry.exists_ofFiles_eq_ok_iff {o : Snapshot} :
    (∃ entry, Entry.ofFiles files o = .ok entry) ↔
      ∀ file ∈ files, ∃ g, Grid.ofFile file o.name = .ok g := by
  rw [← exists_mapM_eq_ok_iff]
  simp [Entry.ofFiles_eq, map_eq_ok_iff]

theorem Document.exists_ofFiles_eq_ok_iff :
    (∃ doc, Document.ofFiles files chosen = .ok doc) ↔
      ∀ o ∈ chosen, ∀ file ∈ files, ∃ g, Grid.ofFile file o.name = .ok g := by
  simp only [← Entry.exists_ofFiles_eq_ok_iff]
  rw [← exists_mapM_eq_ok_iff]
  simp [Document.ofFiles_eq, map_eq_ok_iff]

/-- **A document that cannot be made** fails at the first grid that cannot, the observations going
before the files. -/
theorem Document.ofFiles_eq_error_iff {e : Failure} :
    Document.ofFiles files chosen = .error e ↔
      ∃ before o after, chosen = before ++ o :: after ∧
        (∀ p ∈ before, ∀ file ∈ files, ∃ g, Grid.ofFile file p.name = .ok g) ∧
        ∃ above file below, files = above ++ file :: below ∧
          (∀ f ∈ above, ∃ g, Grid.ofFile f o.name = .ok g) ∧
          Grid.ofFile file o.name = .error e := by
  rw [Document.ofFiles_eq, map_eq_error_iff, mapM_eq_error_iff]
  simp only [Entry.exists_ofFiles_eq_ok_iff]
  simp only [Entry.ofFiles_eq, map_eq_error_iff, mapM_eq_error_iff]

end Xdmf
end PostRun
