import Mathlib.Data.List.Nodup
import Mathlib.Data.List.Perm.Subperm
import PostRun.Proofs.Text.ByteOrder
import PostRun.Xdmf.Selection

/-!
# The observations of a run

The observations of a run are those of its first file, if every other file holds
observations of the same names.  They are listed in order of time, and those of the same
time in order of their names.

* `holdsExactly_iff`: the files are compared by counting names and looking each of them up,
  and that settles whether the names are the same.
* `observations_eq_ok_iff`, `observations_eq_error_iff`: what the observations of a run are.
* `pairwise_earlier_inOrder`: the order.  The file lists its observations by name, and
  sorting them by time keeps that order among equal times.
-/

namespace PostRun
namespace Xdmf

/-! ## Files with the same observations -/

/-- Two files hold observations of the same names. -/
def SameNames (a b : Volume.File Binary64) : Prop :=
  ∀ name, name ∈ a.observationNames ↔ name ∈ b.observationNames

/-- A file is the first of some files that does not hold observations of the same names. -/
def FirstOther (reference : Volume.File Binary64) (rest : List (Volume.File Binary64))
    (file : Volume.File Binary64) : Prop :=
  ∃ before after, rest = before ++ file :: after ∧ (∀ f ∈ before, SameNames reference f) ∧
    ¬ SameNames reference file

/-- No name is counted twice on either side, so that a file which has as many names as are asked
for, and none besides, has them all. -/
theorem holdsExactly_iff {names : List String} (hnames : names.Nodup)
    (file : Volume.File Binary64) :
    holdsExactly names file ↔ ∀ name, name ∈ file.observationNames ↔ name ∈ names := by
  have hfile : file.observationNames.Nodup := file.contents.nodup_names
  have hholds : holdsExactly names file ↔
      file.observationNames.length = names.length ∧ file.observationNames ⊆ names := by
    simp [holdsExactly, List.subset_def]
  rw [hholds]
  constructor
  · rintro ⟨hlength, hsubset⟩ name
    have hperm : file.observationNames.Perm names :=
      (hfile.subperm hsubset).perm_of_length_le (Nat.le_of_eq hlength.symm)
    exact hperm.mem_iff
  · intro hsame
    have hperm : file.observationNames.Perm names :=
      (List.perm_ext_iff_of_nodup hfile hnames).2 hsame
    exact ⟨hperm.length_eq, hperm.subset⟩

/-- The observations of a file in order of time. -/
def inOrder (file : Volume.File Binary64) : List Snapshot :=
  file.observations.mergeSort fun a b => a.value.totalLe b.value

theorem inOrder_perm (file : Volume.File Binary64) : (inOrder file).Perm file.observations :=
  List.mergeSort_perm _ _

/-- The names in order of time are the names of the file. -/
theorem map_name_inOrder_perm (file : Volume.File Binary64) :
    ((inOrder file).map (·.name)).Perm file.observationNames := by
  have hperm := (inOrder_perm file).map (·.name)
  rwa [file.map_name_observations] at hperm

theorem mem_observationNames_of_mem_inOrder {file : Volume.File Binary64} {o : Snapshot}
    (h : o ∈ inOrder file) : o.name ∈ file.observationNames :=
  (map_name_inOrder_perm file).subset (List.mem_map_of_mem h)

/-- A file is held against the names of the first one. -/
theorem holdsExactly_inOrder_iff (reference file : Volume.File Binary64) :
    holdsExactly ((inOrder reference).map (·.name)) file ↔ SameNames reference file := by
  have hperm := map_name_inOrder_perm reference
  rw [holdsExactly_iff (hperm.nodup_iff.2 reference.contents.nodup_names)]
  exact forall_congr' fun name => by rw [hperm.mem_iff]; exact iff_comm

variable {reference : Volume.File Binary64} {rest : List (Volume.File Binary64)}

theorem observations_cons (reference : Volume.File Binary64)
    (rest : List (Volume.File Binary64)) :
    observations (reference :: rest) =
      match rest.find? fun file => !holdsExactly ((inOrder reference).map (·.name)) file with
      | some file => .error (.mismatchedObservations file.path reference.path)
      | none => .ok (inOrder reference) := rfl

theorem not_holdsExactly_inOrder_iff (reference file : Volume.File Binary64) :
    (!holdsExactly ((inOrder reference).map (·.name)) file) = true ↔
      ¬ SameNames reference file := by
  rw [← holdsExactly_inOrder_iff, Bool.not_eq_true', Bool.not_eq_true]

/-- The observations of a run are those of its first file, if all files agree. -/
theorem observations_eq_ok_iff {all : List Snapshot} :
    observations (reference :: rest) = .ok all ↔
      (∀ file ∈ rest, SameNames reference file) ∧ all = inOrder reference := by
  have hfind : (rest.find? fun file =>
      !holdsExactly ((inOrder reference).map (·.name)) file) = none ↔
        ∀ file ∈ rest, SameNames reference file := by
    simp only [List.find?_eq_none, not_holdsExactly_inOrder_iff, not_not]
  rw [observations_cons, ← hfind]
  split
  · next file hsome => simp [hsome]
  · next hnone => simp [hnone, eq_comm]

/-- The first file that does not agree with the first one of all is named, if there is one. -/
theorem observations_eq_error_iff {e : Failure} :
    observations (reference :: rest) = .error e ↔
      ∃ file, FirstOther reference rest file ∧
        e = .mismatchedObservations file.path reference.path := by
  have hfind : ∀ file, (rest.find? fun file =>
      !holdsExactly ((inOrder reference).map (·.name)) file) = some file ↔
        FirstOther reference rest file := by
    intro file
    rw [List.find?_eq_some_iff_append, not_holdsExactly_inOrder_iff, FirstOther]
    simp only [Bool.not_not, holdsExactly_inOrder_iff]
    exact ⟨fun ⟨hfile, before, after, hrest, hbefore⟩ => ⟨before, after, hrest, hbefore, hfile⟩,
      fun ⟨before, after, hrest, hbefore, hfile⟩ => ⟨hfile, before, after, hrest, hbefore⟩⟩
  rw [observations_cons]
  constructor
  · intro h
    split at h
    · next file hfile => exact ⟨file, (hfind file).1 hfile, (Except.error.inj h).symm⟩
    · cases h
  · rintro ⟨file, hfile, rfl⟩
    rw [(hfind file).2 hfile]

/-! ## The order of the observations -/

/-- One observation comes before another: at an earlier time, or at the same time and with the
smaller name. -/
def Earlier (a b : Snapshot) : Prop :=
  a.value.totalKey < b.value.totalKey ∨ a.value = b.value ∧ Text.bytes a.name < Text.bytes b.name

theorem pairwise_totalLe_inOrder (file : Volume.File Binary64) :
    (inOrder file).Pairwise fun a b => a.value.totalLe b.value :=
  List.pairwise_mergeSort (fun a b c => @Binary64.totalLe_trans a.value b.value c.value)
    (fun a b => Binary64.totalLe_total a.value b.value) _

/-- Observations of one time are left as the file lists them. -/
theorem filter_inOrder (file : Volume.File Binary64) (t : Binary64) :
    (inOrder file).filter (·.value = t) = file.observations.filter (·.value = t) := by
  have hequal : (file.observations.filter (·.value = t)).Pairwise
      fun a b => a.value.totalLe b.value := by
    refine List.pairwise_iff_forall_sublist.2 fun {a b} hab => ?_
    have ha : a.value = t := by simpa using (List.mem_filter.1 (hab.subset (by simp))).2
    have hb : b.value = t := by simpa using (List.mem_filter.1 (hab.subset (by simp))).2
    rw [ha, hb]
    exact Binary64.totalLe_refl t
  have hsublist : (file.observations.filter (·.value = t)).Sublist (inOrder file) :=
    List.sublist_mergeSort (fun a b c => @Binary64.totalLe_trans a.value b.value c.value)
      (fun a b => Binary64.totalLe_total a.value b.value) hequal List.filter_sublist
  have hfilter := hsublist.filter (·.value = t)
  rw [List.filter_filter] at hfilter
  simp only [Bool.and_self] at hfilter
  exact (hfilter.eq_of_length ((inOrder_perm file).filter _).length_eq.symm).symm

/-- **The observations of a file in order of time** are in strict order. -/
theorem pairwise_earlier_inOrder (file : Volume.File Binary64) :
    (inOrder file).Pairwise Earlier := by
  have hnames : file.observations.Pairwise fun a b => a.name < b.name :=
    List.pairwise_map.2 file.contents.sorted
  refine List.pairwise_iff_forall_sublist.2 fun {a b} hab => ?_
  have hle : a.value.totalKey ≤ b.value.totalKey := by
    simpa [Binary64.totalLe] using
      List.pairwise_iff_forall_sublist.1 (pairwise_totalLe_inOrder file) hab
  rcases Int.lt_or_eq_of_le hle with hlt | heq
  · exact .inl hlt
  · have hvalue : a.value = b.value := Binary64.eq_of_totalKey_eq heq
    have hfilter := hab.filter (·.value = b.value)
    rw [filter_inOrder] at hfilter
    have hpair : [a, b].Sublist file.observations := by
      have hboth : [a, b].filter (·.value = b.value) = [a, b] := by simp [hvalue]
      rw [hboth] at hfilter
      exact hfilter.trans List.filter_sublist
    exact .inr ⟨hvalue, Text.lt_iff_bytes_lt.1 (List.pairwise_iff_forall_sublist.1 hnames hpair)⟩

end Xdmf
end PostRun
