import PostRun.Proofs.Xdmf.Grids
import PostRun.Proofs.Xdmf.Window

/-!
# What an index comes to

An index can fail in four ways, and `generate_outcome` says which one it is.  Each is asked
for only when the ones before it are not there:

1. there are no files;
2. a file does not hold the observations of the first one, and the first such file is
   named;
3. the stride is zero;
4. the extents of a chosen observation do not fill whole elements in some file, and the
   first such place is named, the observations going before the files.

Only chosen observations are looked at, so what is wrong with any other one does no harm.

## Nothing is missing

Reading a file can also fail because the observation is not there.  This never happens:
what is chosen was in the first file, and so its name is in every file
(`mem_observationNames_of_select`).  Sorting and choosing bring in no other names.
-/

namespace PostRun
namespace Xdmf

/-! ## What is chosen -/

theorem Selection.everyFrom_sublist (stride skip : Nat) (l : List Snapshot) :
    (Selection.everyFrom stride skip l).Sublist l := by
  induction l generalizing skip with
  | nil => exact List.Sublist.refl _
  | cons o l ih =>
    cases skip with
    | zero => exact (ih (stride - 1)).cons_cons o
    | succ skip => exact (ih skip).cons o

/-- The chosen observations are in order of time, like all of them. -/
theorem Selection.sublist_of_select {s : Selection} {all chosen : List Snapshot}
    (h : (s.select all).value = .ok chosen) : chosen.Sublist all := by
  by_cases hstride : s.stride = 0
  · simp [select, hstride] at h
  · rw [s.select_value_of_stride_ne_zero hstride] at h
    rw [← Except.ok.inj h]
    exact ((everyFrom_sublist _ _ _).trans (List.takeWhile_sublist _)).trans List.filter_sublist

/-- A chosen observation is in every file. -/
theorem mem_observationNames_of_select {reference : Volume.File Binary64}
    {rest : List (Volume.File Binary64)} {s : Selection} {chosen : List Snapshot}
    (hsame : ∀ file ∈ rest, SameNames reference file)
    (hchosen : (s.select (inOrder reference)).value = .ok chosen) :
    ∀ o ∈ chosen, ∀ file ∈ reference :: rest, o.name ∈ file.observationNames := by
  intro o ho file hfile
  have hreference : o.name ∈ reference.observationNames :=
    mem_observationNames_of_mem_inOrder ((Selection.sublist_of_select hchosen).subset ho)
  rcases List.mem_cons.1 hfile with rfl | hfile
  · exact hreference
  · exact (hsame file hfile o.name).1 hreference

/-! ## What is rendered -/

/-- The first place at which extents do not fill whole elements, the observations going before the
files. -/
def FirstMalformed (files : List (Volume.File Binary64)) (chosen : List Snapshot) (o : Snapshot)
    (file : Volume.File Binary64) : Prop :=
  ∃ before after above below, chosen = before ++ o :: after ∧ files = above ++ file :: below ∧
    (∀ p ∈ before, ∀ f ∈ files, ¬ Malformed f p.name) ∧ (∀ f ∈ above, ¬ Malformed f o.name) ∧
    Malformed file o.name

section Held

variable {files : List (Volume.File Binary64)} {chosen : List Snapshot}
  (hheld : ∀ o ∈ chosen, ∀ file ∈ files, o.name ∈ file.observationNames)

include hheld

/-- Observations that all files hold are rendered if all their extents fill whole elements. -/
theorem exists_render_eq_ok_iff :
    (∃ text, render files chosen = .ok text) ↔
      ∀ o ∈ chosen, ∀ file ∈ files, ¬ Malformed file o.name := by
  have hdoc : (∃ text, render files chosen = .ok text) ↔
      ∃ doc, Document.ofFiles files chosen = .ok doc := by
    simp [render, map_eq_ok_iff]
  rw [hdoc, Document.exists_ofFiles_eq_ok_iff]
  exact forall₂_congr fun o ho => forall₂_congr fun file hfile =>
    Grid.exists_ofFile_eq_ok_iff (hheld o ho file hfile)

/-- Observations that all files hold fail at the first place where the extents do not fill whole
elements. -/
theorem render_eq_error_iff {e : Failure} :
    render files chosen = .error e ↔
      ∃ o file d, FirstMalformed files chosen o file ∧ file.contents.find? o.name = some d ∧
        e = .malformedExtents file.path o.name d.extents.length := by
  rw [render, map_eq_error_iff, Document.ofFiles_eq_error_iff]
  constructor
  · rintro ⟨before, o, after, rfl, hbefore, above, file, below, rfl, habove, hfile⟩
    have ho : o ∈ before ++ o :: after := List.mem_append_right _ List.mem_cons_self
    obtain ⟨d, hd⟩ := Volume.File.exists_find?_of_mem
      (hheld o ho file (List.mem_append_right _ List.mem_cons_self))
    obtain ⟨hmalformed, he⟩ := (Grid.ofFile_eq_error_iff hd).1 hfile
    refine ⟨o, file, d, ⟨before, after, above, below, rfl, rfl, ?_, ?_, hmalformed⟩, hd, he⟩
    · intro p hp f hf
      exact (Grid.exists_ofFile_eq_ok_iff (hheld p (List.mem_append_left _ hp) f hf)).1
        (hbefore p hp f hf)
    · intro f hf
      exact (Grid.exists_ofFile_eq_ok_iff (hheld o ho f (List.mem_append_left _ hf))).1
        (habove f hf)
  · rintro ⟨o, file, d, ⟨before, after, above, below, rfl, rfl, hbefore, habove, hmalformed⟩, hd,
      he⟩
    have ho : o ∈ before ++ o :: after := List.mem_append_right _ List.mem_cons_self
    refine ⟨before, o, after, rfl, ?_, above, file, below, rfl, ?_,
      (Grid.ofFile_eq_error_iff hd).2 ⟨hmalformed, he⟩⟩
    · intro p hp f hf
      exact (Grid.exists_ofFile_eq_ok_iff (hheld p (List.mem_append_left _ hp) f hf)).2
        (hbefore p hp f hf)
    · intro f hf
      exact (Grid.exists_ofFile_eq_ok_iff (hheld o ho f (List.mem_append_left _ hf))).2
        (habove f hf)

end Held

/-! ## The outcome -/

theorem generate_value_of_observations_eq_error {files : List (Volume.File Binary64)}
    {e : Failure} (h : observations files = .error e) (s : Selection) :
    (generate files s).value = .error e := by
  simp [generate, h]

theorem generate_value_of_stride_eq_zero {files : List (Volume.File Binary64)} {s : Selection}
    {all : List Snapshot} (hall : observations files = .ok all) (hstride : s.stride = 0) :
    (generate files s).value = .error .invalidStride := by
  simp [generate, hall, Selection.select, hstride]

/-- Only a run in which a file does not agree has a first such file. -/
theorem not_firstOther {reference file : Volume.File Binary64}
    {rest : List (Volume.File Binary64)} (h : ∀ f ∈ rest, SameNames reference f) :
    ¬ FirstOther reference rest file := by
  rintro ⟨before, after, rfl, -, hfile⟩
  exact hfile (h file (List.mem_append_right _ List.mem_cons_self))

/-- The outcome of an index, for a run in which all files agree and a stride that is not zero. -/
theorem generate_outcome_of_select {files : List (Volume.File Binary64)} {s : Selection}
    {all chosen : List Snapshot} (hall : observations files = .ok all)
    (hchosen : (s.select all).value = .ok chosen)
    (hheld : ∀ o ∈ chosen, ∀ file ∈ files, o.name ∈ file.observationNames) :
    (∀ e, (generate files s).value = .error e ↔
      ∃ o file d, FirstMalformed files chosen o file ∧ file.contents.find? o.name = some d ∧
        e = .malformedExtents file.path o.name d.extents.length) ∧
    ((∃ text, (generate files s).value = .ok text) ↔
      ∀ o ∈ chosen, ∀ file ∈ files, ¬ Malformed file o.name) := by
  rw [generate_value_of_select hall hchosen]
  exact ⟨fun e => render_eq_error_iff hheld, exists_render_eq_ok_iff hheld⟩

/-- **The outcome of an index.**  It fails for want of files if there are none.  Otherwise it fails
at the first file with other observations, if there is one; otherwise at a stride of zero; otherwise
at the first chosen observation and file whose extents do not fill whole elements.  If there is none
of these, it succeeds.  In no case is an observation or a dataset missing. -/
theorem generate_outcome (files : List (Volume.File Binary64)) (s : Selection) :
    ((generate files s).value = .error .noFiles ↔ files = []) ∧
    (∀ reference rest, files = reference :: rest →
      (∀ path first, (generate files s).value = .error (.mismatchedObservations path first) ↔
        ∃ file, FirstOther reference rest file ∧ path = file.path ∧ first = reference.path) ∧
      ((∀ file ∈ rest, SameNames reference file) →
        ((generate files s).value = .error .invalidStride ↔ s.stride = 0) ∧
        (s.stride ≠ 0 → ∃ all chosen,
          observations files = .ok all ∧ (s.select all).value = .ok chosen ∧
          (∀ path name count,
            (generate files s).value = .error (.malformedExtents path name count) ↔
              ∃ o file d, FirstMalformed files chosen o file ∧
                file.contents.find? o.name = some d ∧
                path = file.path ∧ name = o.name ∧ count = d.extents.length) ∧
          ((∃ text, (generate files s).value = .ok text) ↔
            ∀ o ∈ chosen, ∀ file ∈ files, ¬ Malformed file o.name)))) ∧
    ∀ piece, (generate files s).value ≠ .error (.missing piece) := by
  cases files with
  | nil =>
    have hvalue : (generate [] s).value = .error .noFiles :=
      generate_value_of_observations_eq_error rfl s
    simp [hvalue]
  | cons reference rest =>
    cases hall : observations (reference :: rest) with
    | error e =>
      have hvalue := generate_value_of_observations_eq_error hall s
      obtain ⟨file, hfile, he⟩ := observations_eq_error_iff.1 hall
      refine ⟨by simp [hvalue, he], ?_, by simp [hvalue, he]⟩
      rintro reference' rest' hfiles
      cases hfiles
      refine ⟨fun path first => ?_, fun hsame => absurd hfile (not_firstOther hsame)⟩
      have hobservations : ∀ m, (generate (reference :: rest) s).value = .error m ↔
          observations (reference :: rest) = .error m := by
        intro m
        rw [hvalue, hall, Except.error.injEq, Except.error.injEq]
      rw [hobservations, observations_eq_error_iff]
      simp only [Failure.mismatchedObservations.injEq]
    | ok all =>
      obtain ⟨hsame, rfl⟩ := observations_eq_ok_iff.1 hall
      by_cases hstride : s.stride = 0
      · have hvalue := generate_value_of_stride_eq_zero hall hstride
        refine ⟨by simp [hvalue], ?_, by simp [hvalue]⟩
        rintro reference' rest' hfiles
        cases hfiles
        exact ⟨fun path first => by simp [hvalue, not_firstOther hsame],
          fun _ => ⟨by simp [hvalue, hstride], fun h => absurd hstride h⟩⟩
      · have hchosen := s.select_value_of_stride_ne_zero hstride (inOrder reference)
        obtain ⟨herror, hok⟩ := generate_outcome_of_select hall hchosen
          (mem_observationNames_of_select hsame hchosen)
        refine ⟨by simp [herror], ?_, by simp [herror]⟩
        rintro reference' rest' hfiles
        cases hfiles
        refine ⟨fun path first => by simp [herror, not_firstOther hsame],
          fun _ => ⟨by simp [herror, hstride], fun _ => ⟨_, _, rfl, hchosen, ?_, hok⟩⟩⟩
        intro path name count
        rw [herror]
        simp only [Failure.malformedExtents.injEq]

end Xdmf
end PostRun
