import PostRun.Proofs.Xdmf.References

/-!
# Names of fields

A vector is shown under what its three components have in common.  Nothing keeps a component from
bearing that name itself: next to `v_x`, `v_y` and `v_z` there can be a component `v`, and then a
scalar and a vector are shown under one name (`names_shared`).

This is the only way in which names meet.  Two fields that bear the same name are a scalar and a
vector (`eq_or_of_name_eq`), and they do so exactly for the names in question (`IsShared`).  So a
reader that tells fields apart by name and type loses none, and one that goes by the name alone
loses none if no name is shared (`names_distinct_iff`).  The same holds for the elements of a grid,
as they are read off its text.
-/

namespace PostRun
namespace Xdmf

namespace Field

variable {names : List String}

/-- A scalar and a vector are shown under a name: a component bears it that no vector takes in, and
there are the components of a vector of that name. -/
def IsShared (names : List String) (base : String) : Prop :=
  base ∈ names ∧ (vector base).components ⊆ names ∧
    ∀ outer, base ∈ (vector outer).components → ¬ (vector outer).components ⊆ names

theorem isComplete_iff_subset {base : String} :
    isComplete names base ↔ (vector base).components ⊆ names := by
  rw [isComplete_iff]
  constructor
  · intro h n hn
    obtain ⟨a, rfl⟩ := mem_components_vector.1 hn
    exact h a
  · exact fun h a => h (mem_components_vector.2 ⟨a, rfl⟩)

theorem isShared_iff {base : String} :
    IsShared names base ↔ scalar base ∈ ofComponents names ∧ vector base ∈ ofComponents names := by
  have hsingle : (∀ outer a, base = Axis.component outer a → isComplete names outer = false) ↔
      ∀ outer, base ∈ (vector outer).components → ¬ (vector outer).components ⊆ names := by
    refine forall_congr' fun outer => ?_
    rw [mem_components_vector, forall_exists_index, ← isComplete_iff_subset, Bool.not_eq_true]
  rw [scalar_mem_ofComponents, vector_mem_ofComponents, hsingle, isComplete_iff_subset, IsShared]
  tauto

/-- Fields of one name are the same, or a scalar and a vector. -/
theorem eq_or_of_name_eq {f g : Field} (h : f.name = g.name) :
    f = g ∨ ∃ base, (f = scalar base ∧ g = vector base) ∨ (f = vector base ∧ g = scalar base) := by
  cases f with
  | scalar n =>
    obtain m | m := g
    · exact .inl (congrArg scalar h)
    · exact .inr ⟨m, .inl ⟨congrArg scalar h, rfl⟩⟩
  | vector n =>
    obtain m | m := g
    · exact .inr ⟨m, .inr ⟨congrArg vector h, rfl⟩⟩
    · exact .inl (congrArg vector h)

/-- The names of distinct fields are distinct if no scalar bears the name of a vector. -/
theorem nodup_map_name_iff {fields : List Field} (h : fields.Nodup) :
    (fields.map name).Nodup ↔ ∀ base, ¬ (scalar base ∈ fields ∧ vector base ∈ fields) := by
  rw [List.nodup_map_iff_inj_on h]
  constructor
  · rintro hinj base ⟨hscalar, hvector⟩
    cases hinj _ hscalar _ hvector rfl
  · intro hnone f hf g hg hname
    rcases eq_or_of_name_eq hname with heq | ⟨base, ⟨rfl, rfl⟩ | ⟨rfl, rfl⟩⟩
    · exact heq
    · exact absurd ⟨hf, hg⟩ (hnone base)
    · exact absurd ⟨hg, hf⟩ (hnone base)

theorem nodup_map_name_ofComponents_iff (h : names.Nodup) :
    ((ofComponents names).map name).Nodup ↔ ∀ base, ¬ IsShared names base := by
  rw [nodup_map_name_iff (nodup_ofComponents h)]
  exact forall_congr' fun base => not_congr isShared_iff.symm

end Field

/-! ## The elements of a grid -/

namespace FieldOutline

/-- The field that is shown. -/
def field : FieldOutline → Field
  | .scalar name _ => .scalar name
  | .joined name _ _ => .vector name

/-- The name under which a field is shown. -/
def name : FieldOutline → String
  | .scalar name _ => name
  | .joined name _ _ => name

variable (path observation : String) (points : Nat) (f : Field)

theorem field_ofField : (ofField path observation points f).field = f := by cases f <;> rfl

theorem name_ofField : (ofField path observation points f).name = f.name := by cases f <;> rfl

end FieldOutline

/-- The elements of a grid show its fields. -/
theorem Grid.map_field_outline (g : Grid) : g.outline.fields.map FieldOutline.field = g.fields := by
  simp [outline, Function.comp_def, FieldOutline.field_ofField]

theorem Grid.map_name_outline (g : Grid) :
    g.outline.fields.map FieldOutline.name = g.fields.map Field.name := by
  simp [outline, Function.comp_def, FieldOutline.name_ofField]

/-- The components that a grid shows are distinct. -/
theorem Grid.nodup_components_of_ofFile {file : Volume.File Binary64} {observation : String}
    {g : Grid} (h : ofFile file observation = .ok g) :
    ∃ components, file.tensorComponents observation = .ok components ∧ components.Nodup ∧
      g.fields = Field.ofComponents components := by
  obtain ⟨extents, size, components, hextents, -, hcomponents, rfl⟩ := ofFile_eq_ok_iff.1 h
  obtain ⟨d, hd⟩ := Volume.File.exists_find?_of_extents hextents
  cases (Volume.File.tensorComponents_eq_ok hd).symm.trans hcomponents
  exact ⟨_, hcomponents, d.nodup_tensorNames, rfl⟩

namespace Field

/-- **When fields share a name.**  Of distinct components no field is shown twice, and two fields of
one name are a scalar and a vector.  The names are distinct exactly when no component bears the name
of a vector, unless it is itself taken in by another vector.  The elements of a grid, read off its
text, are distinct by name and type, and their names are distinct under the same condition on the
tensor components. -/
theorem names_distinct_iff {names : List String} (h : names.Nodup) :
    ((ofComponents names).Pairwise fun f g => f ≠ g ∧ (f.name = g.name →
      ∃ base, (f = scalar base ∧ g = vector base) ∨ (f = vector base ∧ g = scalar base))) ∧
    (∀ base, IsShared names base ↔
      scalar base ∈ ofComponents names ∧ vector base ∈ ofComponents names) ∧
    (((ofComponents names).map name).Nodup ↔ ∀ base, ¬ IsShared names base) ∧
    ∀ file observation g, Grid.ofFile file observation = .ok g →
      ∃ (o : GridOutline) (components : List String),
        (root? (ended (g.markup.lines 4))).bind gridOutline? = some o ∧
        file.tensorComponents observation = .ok components ∧
        (o.fields.map FieldOutline.field).Nodup ∧
        ((o.fields.map FieldOutline.name).Nodup ↔ ∀ base, ¬ IsShared components base) := by
  refine ⟨?_, fun base => isShared_iff, nodup_map_name_ofComponents_iff h,
    fun file observation g hg => ?_⟩
  · refine (nodup_ofComponents h).imp fun {f g} hne => ⟨hne, fun hname => ?_⟩
    exact (eq_or_of_name_eq hname).resolve_left hne
  · obtain ⟨components, hcomponents, hnodup, hfields⟩ := Grid.nodup_components_of_ofFile hg
    refine ⟨g.outline, components, g.root?_markup, hcomponents, ?_, ?_⟩
    · rw [g.map_field_outline, hfields]
      exact nodup_ofComponents hnodup
    · rw [g.map_name_outline, hfields]
      exact nodup_map_name_ofComponents_iff hnodup

/-- Two vectors, one of them named as a component of the other.  The names are distinct, as they are
in a grid with a scalar and a vector. -/
theorem names_distinct_iff_nested :
    ["a_x", "a_x_x", "a_x_y", "a_x_z", "a_y", "a_z"].Nodup ∧
    (ofComponents ["a_x", "a_x_x", "a_x_y", "a_x_z", "a_y", "a_z"]).map name = ["a", "a_x"] ∧
    (∀ base, ¬ IsShared ["a_x", "a_x_x", "a_x_y", "a_x_z", "a_y", "a_z"] base) ∧
    ∃ g o, Grid.ofFile markedFile "t=\"0\"" = .ok g ∧
      (root? (ended (g.markup.lines 4))).bind gridOutline? = some o ∧
      (o.fields.map FieldOutline.field).Nodup := by
  have hnodup : ["a_x", "a_x_x", "a_x_y", "a_x_z", "a_y", "a_z"].Nodup := by decide
  have hnames : (ofComponents ["a_x", "a_x_x", "a_x_y", "a_x_z", "a_y", "a_z"]).map name =
      ["a", "a_x"] := by decide
  obtain ⟨-, -, hshared, hgrids⟩ := names_distinct_iff hnodup
  have hheld : markedFile.contents.find? "t=\"0\"" = some markedData := rfl
  obtain ⟨g, hg⟩ : ∃ g, Grid.ofFile markedFile "t=\"0\"" = .ok g := by
    rw [Grid.ofFile_eq hheld]
    exact ⟨_, rfl⟩
  obtain ⟨o, -, hread, -, hdistinct, -⟩ := hgrids _ _ g hg
  refine ⟨hnodup, hnames, hshared.1 ?_, g, o, hg, hread, hdistinct⟩
  rw [hnames]
  decide

end Field

/-- An observation of one element that has a component beside the vector of its name. -/
def besideData : Volume.ObservationData Binary64 :=
  (Volume.ObservationData.ofValue .zero).addElement "E" ⟨1, 1, 1⟩
    ((Volume.coordinateNames ++ ["v", "v_x", "v_y", "v_z"]).map (·, [.zero]))

/-- A file with that observation. -/
def besideFile : Volume.File Binary64 :=
  (Volume.File.ofPath "Volume0.h5").insert "ObservationId0" besideData

/-- **A name that is borne twice.**  A scalar and a vector are shown under the name `v`, and so they
are in the grid of a file. -/
theorem names_shared :
    ["v", "v_x", "v_y", "v_z"].Nodup ∧
    (Field.ofComponents ["v", "v_x", "v_y", "v_z"]).map Field.name = ["v", "v"] ∧
    ∃ g o, Grid.ofFile besideFile "ObservationId0" = .ok g ∧
      (root? (ended (g.markup.lines 4))).bind gridOutline? = some o ∧
      o.fields.map FieldOutline.name = ["v", "v"] := by
  have hnames : (Field.ofComponents ["v", "v_x", "v_y", "v_z"]).map Field.name = ["v", "v"] := by
    decide
  have hheld : besideFile.contents.find? "ObservationId0" = some besideData := rfl
  obtain ⟨g, hg⟩ : ∃ g, Grid.ofFile besideFile "ObservationId0" = .ok g := by
    rw [Grid.ofFile_eq hheld]
    exact ⟨_, rfl⟩
  obtain ⟨components, hcomponents, -, hfields⟩ := Grid.nodup_components_of_ofFile hg
  cases (Volume.File.tensorComponents_eq_ok hheld).symm.trans hcomponents
  have htensor : besideData.tensorNames.Perm ["v", "v_x", "v_y", "v_z"] :=
    besideData.tensorNames_perm.trans (by decide)
  refine ⟨by decide, hnames, g, g.outline, hg, g.root?_markup, ?_⟩
  have hperm := (Field.ofComponents_perm htensor).map Field.name
  rw [hnames] at hperm
  rw [g.map_name_outline, hfields]
  exact (List.perm_replicate (n := 2)).1 hperm

end Xdmf
end PostRun
