import PostRun.Proofs.Files.Expansion
import PostRun.Proofs.Text.ByteOrder
import PostRun.Xdmf.Document

/-!
# The volume files of a run

The pattern of a run is its stem with `*.h5` behind it.  So its last component is never empty and
always holds a wildcard, whatever the stem is, and nothing special has to be said of a path that
ends in a slash (`getLast?_patternComponents_ne`).

A pattern that is refused is refused before anything is looked up.  Otherwise what is found is a set
of paths, and the list is that set in ascending order.  A list that ascends is known by its members
(`eq_of_ascending`), so the order in which a directory lists its names leaves no trace.
-/

namespace PostRun
namespace Xdmf

open Files Files.Surroundings

/-- The components of the pattern for the volume files of a run. -/
def patternComponents (stem : String) : List String := Tree.components (stem ++ "*.h5")

theorem patternComponents_ne_nil (stem : String) : patternComponents stem ≠ [] := by
  simp [patternComponents, Tree.components, Text.pieces_ne_nil]

/-- The last component is never empty: it ends as the names of volume files do. -/
theorem getLast?_patternComponents_ne (stem : String) :
    (patternComponents stem).getLast? ≠ some "" := by
  have hend : '/' ∉ "*.h5".toList := by decide
  have hlast := Text.getLast?_pieces_append_ne (by decide) hend stem.toList
  rw [patternComponents, Tree.components, String.toList_append, List.getLast?_map]
  intro h
  obtain ⟨piece, hpiece, hempty⟩ := Option.map_eq_some_iff.1 h
  rw [hpiece] at hlast
  exact hlast (congrArg some (String.ofList_eq_empty_iff.1 hempty))

/-- The paths that a run is looked for at: names stand for the components of its pattern. -/
def IsVolumePath (s : Surroundings) (stem path : String) : Prop :=
  ∃ names, s.ReplacesAll "" (patternComponents stem) names ∧ path = "/".intercalate names

theorem discover_value_of_firstRefused (s : Surroundings) {stem : String} {e : PatternError}
    (h : FirstRefused (patternComponents stem) e) :
    (discover s stem).value = .error (.pattern e) := by
  rw [discover, Logged.bind_value, expand, Logged.bind_value, ← patternComponents,
    s.expandFrom_value_of_firstRefused h]
  rfl

theorem discover_value_of_accepted {s : Surroundings} (hs : s.Lawful) {stem : String}
    (h : ∀ component ∈ patternComponents stem, ∀ cause, ¬ Refuses component cause) :
    ∃ paths : List String, (∀ path, path ∈ paths ↔ IsVolumePath s stem path) ∧
      paths.Pairwise (fun a b => Text.bytes a < Text.bytes b) ∧
      (discover s stem).value = if paths = [] then .error (.noVolumeFiles stem) else .ok paths := by
  have hslash : ∀ component ∈ patternComponents stem, '/' ∉ component.toList :=
    fun _ => Tree.slash_not_mem_of_mem_components
  have hnodup := hs.nodup_paths "" (patternComponents_ne_nil stem) hslash
  have hfound := s.expandFrom_value h (getLast?_patternComponents_ne stem) [""]
  simp only [List.flatMap_singleton, String.empty_append] at hfound
  set found := (s.selections "" (patternComponents stem)).map ("/".intercalate ·) with hpaths
  have hperm : (found.mergeSort fun a b => decide (a ≤ b)).Perm found := List.mergeSort_perm _ _
  refine ⟨found.mergeSort fun a b => decide (a ≤ b), fun path => ?_, ?_, ?_⟩
  · rw [hperm.mem_iff, hpaths, List.mem_map, IsVolumePath]
    simp only [mem_selections, eq_comm]
  · have hsorted : (found.mergeSort fun a b => decide (a ≤ b)).Pairwise fun a b => decide (a ≤ b) :=
      List.pairwise_mergeSort (fun a b c => by simpa using String.le_trans)
        (fun a b => by simpa using String.le_total a b) _
    refine (hsorted.and (hperm.nodup_iff.2 hnodup)).imp fun {a b} ⟨hle, hne⟩ => ?_
    exact Text.lt_iff_bytes_lt.1 (Std.lt_of_le_of_ne (by simpa using hle) hne)
  · rw [discover, Logged.bind_value, expand, Logged.bind_value, ← patternComponents, hfound]
    simp only [Except.map, pure]
    cases found.mergeSort fun a b => decide (a ≤ b) <;> rfl

/-- Ascending lists of the same paths are the same. -/
theorem eq_of_ascending {paths others : List String}
    (hpaths : paths.Pairwise fun a b => Text.bytes a < Text.bytes b)
    (hothers : others.Pairwise fun a b => Text.bytes a < Text.bytes b)
    (hmem : ∀ path, path ∈ paths ↔ path ∈ others) : paths = others := by
  have hne : ∀ {a b : String}, Text.bytes a < Text.bytes b → a ≠ b := by
    intro a b hlt
    exact String.ne_of_lt (Text.lt_iff_bytes_lt.2 hlt)
  have hperm : paths.Perm others :=
    (List.perm_ext_iff_of_nodup (hpaths.imp hne) (hothers.imp hne)).2 hmem
  refine hperm.eq_of_pairwise (fun a b _ _ hab hba => ?_) hpaths hothers
  exact absurd (Text.lt_iff_bytes_lt.2 hba) (String.lt_asymm (Text.lt_iff_bytes_lt.2 hab))

/-- **Discovery finds exactly the matching files.**

* If a component of the pattern is refused, discovery fails with the first such component, whatever
  is on the disk.
* Otherwise it finds the paths that names make in place of the components, in ascending order of
  their bytes and each of them once; if there is none, it fails for that.
* The order in which directories list their names makes no difference. -/
theorem discover_finds_matches {s : Surroundings} (hs : s.Lawful) (stem : String) :
    ((∃ component ∈ patternComponents stem, ∃ cause, Refuses component cause) →
      ∃ e, FirstRefused (patternComponents stem) e ∧
        (discover s stem).value = .error (.pattern e)) ∧
    ((∀ component ∈ patternComponents stem, ∀ cause, ¬ Refuses component cause) →
      ∃ paths : List String,
        (∀ path, path ∈ paths ↔ IsVolumePath s stem path) ∧
        paths.Pairwise (fun a b => Text.bytes a < Text.bytes b) ∧
        (discover s stem).value =
          if paths = [] then .error (.noVolumeFiles stem) else .ok paths) ∧
    ∀ t : Surroundings, t.Lawful → (∀ path, s.kind? path = t.kind? path) →
      (∀ directory name, s.Lists directory name ↔ t.Lists directory name) →
      (discover t stem).value = (discover s stem).value := by
  refine ⟨fun hrefused => ?_, discover_value_of_accepted hs, fun t ht hkind hlists => ?_⟩
  · rcases firstRefused_or_accepted (patternComponents stem) with ⟨e, he⟩ | haccepted
    · exact ⟨e, he, discover_value_of_firstRefused s he⟩
    · obtain ⟨component, hcomponent, cause, hcause⟩ := hrefused
      exact absurd hcause (haccepted component hcomponent cause)
  · rcases firstRefused_or_accepted (patternComponents stem) with ⟨e, he⟩ | haccepted
    · rw [discover_value_of_firstRefused s he, discover_value_of_firstRefused t he]
    · obtain ⟨paths, hmem, hpaths, hvalue⟩ := discover_value_of_accepted hs haccepted
      obtain ⟨others, hmem', hothers, hvalue'⟩ := discover_value_of_accepted ht haccepted
      have hsame : others = paths := by
        refine eq_of_ascending hothers hpaths fun path => ?_
        rw [hmem, hmem', IsVolumePath, IsVolumePath]
        simp only [replacesAll_congr hkind hlists]
      rw [hvalue, hvalue', hsame]

/-- A run in segments.  One segment has a hidden file and another one a directory among its volume
files, and the last one is no directory. -/
def segments : Tree where
  contents := ⟨[("Lev0", .directory), ("Lev0/.Volume1.h5", .file .empty),
    ("Lev0/Volume0.h5", .file .empty), ("Lev1", .directory), ("Lev1/Volume0.h5", .directory),
    ("Lev1/Volume2.h5", .file .empty), ("Lev2", .file .empty)], by decide⟩

/-- The volume files of that run; the doubled slash of the pattern stays doubled.  A pattern with a
class that is not closed is refused. -/
theorem discover_finds_matches_segments :
    segments.surroundings.Lawful ∧
    (discover segments.surroundings "Lev[0-2]//").value =
      .ok ["Lev0//Volume0.h5", "Lev1//Volume2.h5"] ∧
    ∃ e, FirstRefused (patternComponents "Lev0/[Vol") e ∧
      (discover segments.surroundings "Lev0/[Vol").value = .error (.pattern e) := by
  have hlawful := Tree.lawful_surroundings segments
  have hselections : segments.surroundings.selections "" (patternComponents "Lev[0-2]//") =
      [["Lev0", "", "Volume0.h5"], ["Lev1", "", "Volume2.h5"]] := by decide
  have hparsed : ∀ component ∈ patternComponents "Lev[0-2]//", (Glob.parse component).isOk := by
    decide
  obtain ⟨-, hfound, -⟩ := discover_finds_matches hlawful "Lev[0-2]//"
  obtain ⟨paths, hmem, hascending, hvalue⟩ := hfound fun component hcomponent cause hrefused => by
    have hok := hparsed component hcomponent
    rw [hrefused.2] at hok
    cases hok
  have hpaths : paths = ["Lev0//Volume0.h5", "Lev1//Volume2.h5"] := by
    refine eq_of_ascending hascending (by decide) fun path => ?_
    rw [hmem, IsVolumePath]
    simp only [← mem_selections, hselections, List.mem_cons, List.not_mem_nil, or_false,
      exists_eq_or_imp, exists_eq_left]
    rfl
  obtain ⟨hrefused, -⟩ := discover_finds_matches hlawful "Lev0/[Vol"
  have hclass : ∃ component ∈ patternComponents "Lev0/[Vol", ∃ cause, Refuses component cause :=
    ⟨"[Vol*.h5", by decide, .unclosedClass, by decide, by decide⟩
  refine ⟨hlawful, ?_, hrefused hclass⟩
  rw [hvalue, hpaths]
  rfl

end Xdmf
end PostRun
