import PostRun.Proofs.Attempts
import PostRun.Proofs.Volume.Assembly

/-!
# Splitting an observation into its elements

An observation holds the data of all its elements back to back: the extents three by three, the
names in one run of text, and every component as one list.  `File.splitElements` reads all of it
through the file and cuts it where the extents say so.  It knows nothing of how the observation was
made, and it has no answer if something is left over or missing.

`splitElements_insert` says that the elements come back as they were appended.  The order in which
the components of an element were listed is not kept, since components are kept by name.
-/

namespace PostRun
namespace Volume

variable {α : Type}

/-- Cuts data into elements: a shape and a name for each, and from every component the values of as
many points as the shape has. -/
def cutElements :
    List (List Nat) → List String → List (String × List α) → Option (List (ElementData α))
  | [], [], columns => if columns.all (·.2.isEmpty) then some [] else none
  | [x, y, z] :: shapes, name :: names, columns =>
      (cutElements shapes names (columns.map fun c => (c.1, c.2.drop (x * y * z)))).map
        (⟨name, ⟨x, y, z⟩, columns.map fun c => (c.1, c.2.take (x * y * z))⟩ :: ·)
  | _, _, _ => none

/-- Reads an observation of a file and cuts it into its elements, with the given components. -/
def File.splitElements (f : File α) (observation : String) (components : List String) :
    Except MissingPiece (Option (List (ElementData α))) := do
  let extents ← f.extents observation
  let names ← f.gridNames observation
  let columns ← components.mapM fun c => (f.tensorComponent observation c).map (c, ·)
  return cutElements (triples extents) names columns

namespace ElementData

/-- An element with its components listed in a given order. -/
def arranged (names : List String) (e : ElementData α) : ElementData α :=
  { e with components := names.map fun c => (c, e.values c) }

/-- An arrangement lists the same components. -/
theorem Carries.arranged_perm {names : List String} {e : ElementData α} (h : e.Carries names)
    (hnames : names.Nodup) : (e.arranged names).components.Perm e.components := by
  have hperm : names.Perm (e.components.map (·.1)) :=
    (List.perm_ext_iff_of_nodup hnames h.nodup).2 fun c => (h.mem_iff c).symm
  have hself : (e.components.map (·.1)).map (fun c => (c, e.values c)) = e.components := by
    rw [List.map_map]
    refine (List.map_congr_left fun c hc => ?_).trans (List.map_id _)
    rw [Function.comp_apply, values_eq_of_mem h.nodup hc, id]
  have hlisted := hperm.map fun c => (c, e.values c)
  rwa [hself] at hlisted

end ElementData

/-- **Cutting undoes appending.**  Each element is cut off the front of all components at once,
because in all of them its values are as many as it has points. -/
theorem cutElements_ofElements {names : List String} {elements : List (ElementData α)}
    (h : ∀ e ∈ elements, e.Carries names) :
    cutElements (elements.map (·.extents.toList)) (elements.map (·.name))
        (names.map fun c => (c, elements.flatMap (·.values c))) =
      some (elements.map (·.arranged names)) := by
  induction elements with
  | nil => simp [cutElements]
  | cons e elements ih =>
    obtain ⟨he, helements⟩ := List.forall_mem_cons.1 h
    have hlength : ∀ c ∈ names, (e.values c).length = e.extents.x * e.extents.y * e.extents.z :=
      fun c hc => he.length_values hc
    have hfront : (names.map fun c => (c, (e :: elements).flatMap (·.values c))).map
        (fun c => (c.1, c.2.take (e.extents.x * e.extents.y * e.extents.z))) =
        (e.arranged names).components := by
      rw [List.map_map]
      refine List.map_congr_left fun c hc => ?_
      simp [List.take_left' (hlength c hc)]
    have hrest : (names.map fun c => (c, (e :: elements).flatMap (·.values c))).map
        (fun c => (c.1, c.2.drop (e.extents.x * e.extents.y * e.extents.z))) =
        names.map fun c => (c, elements.flatMap (·.values c)) := by
      rw [List.map_map]
      refine List.map_congr_left fun c hc => ?_
      simp [List.drop_left' (hlength c hc)]
    rw [List.map_cons, List.map_cons, Extents.toList, cutElements, hfront, hrest, ih helements]
    rfl

/-- What is read of a file that holds an observation of elements, and cut. -/
theorem File.splitElements_eq_ok {file : File α} {observation : String} {value : α}
    {elements : List (ElementData α)} {names : List String} (hne : elements ≠ [])
    (hcolon : ∀ e ∈ elements, nameEnd ∉ e.name.toList) (hcarries : ∀ e ∈ elements, e.Carries names)
    (hheld : file.contents.find? observation = some (.ofElements value elements)) :
    file.splitElements observation names = .ok (some (elements.map (·.arranged names))) := by
  have hgridNames : file.gridNames observation = .ok (elements.map (·.name)) := by
    rw [← ObservationData.gridNames_ofElements value]
    refine File.gridNames_eq_ok hheld ?_
    rw [ObservationData.gridNames_ofElements]
    exact List.forall_mem_map.2 hcolon
  have hcolumns : names.mapM (fun c => (file.tensorComponent observation c).map (c, ·)) =
      .ok (names.map fun c => (c, elements.flatMap (·.values c))) := by
    refine mapM_eq_ok_map fun c hc => ?_
    rw [File.tensorComponent_eq_ok hheld (ObservationData.find?_ofElements hne hcarries hc)]
    rfl
  have htriples : triples (ObservationData.ofElements value elements).extents =
      elements.map (·.extents.toList) := by
    rw [ObservationData.extents_ofElements, triples_flatMap_toList, List.map_map]
    rfl
  rw [File.splitElements, File.extents_eq_ok hheld, hgridNames, hcolumns,
    ← cutElements_ofElements hcarries, ← htriples]
  rfl

/-- **The elements of an observation are read back.**  Elements are appended to an empty
observation, each with the same distinct components and with a name without a colon, and the observation is
stored in a file beside any others.  What is read of the file and cut by the extents are these
elements in their order, each with its name, its extents and the values of its components. -/
theorem splitElements_insert {file : File α} {observation : String} {value : α}
    {elements : List (ElementData α)} {names : List String}
    {others : List (String × ObservationData α)} (hnames : names.Nodup) (hne : elements ≠ [])
    (hcolon : ∀ e ∈ elements, nameEnd ∉ e.name.toList) (hcarries : ∀ e ∈ elements, e.Carries names)
    (hothers : ∀ o ∈ others, o.1 ≠ observation) :
    ∃ read, (others.foldl (fun f o => f.insert o.1 o.2)
        (file.insert observation (.ofElements value elements))).splitElements observation names =
          .ok (some read) ∧
      List.Forall₂ (fun e r : ElementData α => r.name = e.name ∧ r.extents = e.extents ∧
        r.components.map (·.1) = names ∧ r.components.Perm e.components) elements read := by
  have hheld := (File.find?_contents_foldl_insert (file.insert observation
    (.ofElements value elements)) hothers).trans (File.find?_contents_insert file observation _)
  refine ⟨_, File.splitElements_eq_ok hne hcolon hcarries hheld, ?_⟩
  refine List.forall₂_map_right_iff.2 (List.forall₂_same.2 fun e he => ⟨rfl, rfl, ?_,
    (hcarries e he).arranged_perm hnames⟩)
  simp [ElementData.arranged, Function.comp_def]

/-- An element with an empty name, one without points, and one that lists its components in another
order. -/
def unevenElements : List (ElementData Nat) :=
  [⟨"", ⟨2, 1, 1⟩, [("u", [1, 2]), ("v", [3, 4])]⟩, ⟨"E", ⟨0, 3, 1⟩, [("u", []), ("v", [])]⟩,
    ⟨"F", ⟨1, 1, 1⟩, [("v", [6]), ("u", [5])]⟩]

/-- The three elements are read back beside another observation. -/
theorem splitElements_insert_uneven :
    ["u", "v"].Nodup ∧ unevenElements ≠ [] ∧
    (∀ e ∈ unevenElements, nameEnd ∉ e.name.toList) ∧
    (∀ e ∈ unevenElements, e.Carries ["u", "v"]) ∧
    (∀ o ∈ [("s", ObservationData.ofValue 1)], o.1 ≠ "t") ∧
    ∃ first second third, (((File.ofPath "f").insert "t" (.ofElements 0 unevenElements)).insert "s"
        (.ofValue 1)).splitElements "t" ["u", "v"] = .ok (some [first, second, third]) ∧
      first.name = "" ∧ second.extents = ⟨0, 3, 1⟩ ∧
      third.components.Perm [("v", [6]), ("u", [5])] := by
  have hnames : ["u", "v"].Nodup := by decide
  have hne : unevenElements ≠ [] := List.cons_ne_nil _ _
  have hcolon : ∀ e ∈ unevenElements, nameEnd ∉ e.name.toList := by decide
  have hcarries : ∀ e ∈ unevenElements, e.Carries ["u", "v"] := by
    intro e he
    refine .of_perm hnames ?_ ?_
    · revert e he
      decide
    · revert e he
      decide
  have hothers : ∀ o ∈ [("s", ObservationData.ofValue 1)], o.1 ≠ "t" := by simp
  obtain ⟨read, hread, hsame⟩ := @splitElements_insert _ (File.ofPath "f") "t" 0 _ _ _ hnames
    hne hcolon hcarries hothers
  rcases hsame with _ | @⟨_, first, _, _, hfirst, _ | @⟨_, second, _, _, hsecond,
    _ | @⟨_, third, _, _, hthird, ⟨⟩⟩⟩⟩
  exact ⟨hnames, hne, hcolon, hcarries, hothers, first, second, third, hread, hfirst.1, hsecond.2.1,
    hthird.2.2.2⟩

end Volume
end PostRun
