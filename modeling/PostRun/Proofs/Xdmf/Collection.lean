import Mathlib.Data.List.Forall2
import PostRun.Proofs.Volume.Insertions
import PostRun.Proofs.Xdmf.Snapshots

/-!
# Collecting the observations of a run

The observations of a run are collected from its first file, once all others are known to have
observations of the same names.  `observations_collects` says all that there is to say about it:
when it succeeds, which observations there are then and in which order, and on what the list does
not depend.

The order is the total order of the words.  It has a place for every word, so also for those that
are not numbers: a NaN with a sign stands before all numbers, and one without a sign behind them
(`Binary64.region_le_of_totalLe`).  Among numbers it agrees with the numerical order and tells the
zeros apart.
-/

namespace PostRun

namespace Binary64

/-- The parts of the total order: NaNs with a sign, then numbers, then NaNs without a sign. -/
def region (x : Binary64) : Nat := if x.isNaN then if x.isNegative then 0 else 2 else 1

/-- The parts follow one another in the total order. -/
theorem region_le_of_totalLe {x y : Binary64} (h : x.totalLe y) : x.region ≤ y.region := by
  simp only [totalLe, decide_eq_true_eq] at h
  unfold totalKey at h
  simp only [region, isNaN, decide_eq_true_eq]
  split_ifs at h ⊢ <;> omega

/-- What is in order is not the wrong way round numerically. -/
theorem not_lt_of_totalLe {x y : Binary64} (h : x.totalLe y) : ¬ y < x := by
  intro hlt
  have hkey := totalKey_lt_of_lt hlt
  simp only [totalLe, decide_eq_true_eq] at h
  omega

end Binary64

namespace Xdmf

variable {reference : Volume.File Binary64} {rest : List (Volume.File Binary64)}

/-- No observation is collected twice. -/
theorem nodup_map_name_inOrder (file : Volume.File Binary64) :
    ((inOrder file).map (·.name)).Nodup :=
  (map_name_inOrder_perm file).nodup_iff.2 file.contents.nodup_names

/-- The files behind the first one may change places. -/
theorem observations_congr_perm {rest' : List (Volume.File Binary64)} (h : rest.Perm rest')
    {all : List Snapshot} (hall : observations (reference :: rest) = .ok all) :
    observations (reference :: rest') = .ok all := by
  obtain ⟨hsame, rfl⟩ := observations_eq_ok_iff.1 hall
  exact observations_eq_ok_iff.2 ⟨fun file hfile => hsame file (h.mem_iff.2 hfile), rfl⟩

/-- Runs whose files are made of the same insertions are the same runs. -/
theorem map_ofItems_congr
    {made made' : List (String × List (String × Volume.ObservationData Binary64))}
    (hdistinct : ∀ m ∈ made, (m.2.map (·.1)).Nodup)
    (h : List.Forall₂ (fun m m' => m.1 = m'.1 ∧ m.2.Perm m'.2) made made') :
    (made.map fun m => Volume.File.ofItems m.1 m.2) =
      made'.map fun m => Volume.File.ofItems m.1 m.2 := by
  induction h with
  | nil => rfl
  | @cons m m' made made' hfile hfiles ih =>
    obtain ⟨hnodup, hrest⟩ := List.forall_mem_cons.1 hdistinct
    rw [List.map_cons, List.map_cons, ih hrest, ← hfile.1,
      Volume.File.ofItems_congr hnodup hfile.2]

/-- **Collecting the observations of a run.**  It succeeds if there is a first file and all others
have observations of the same names.  What is collected are the observations of the first file, each
of them once: at ascending times in the total order, so that NaNs stand at the two ends and no two
numbers the wrong way round, and at the same time in order of the bytes of their names.  The other
files may come in any order, and the observations of a file may have been inserted in any order if
their names are distinct. -/
theorem observations_collects (files : List (Volume.File Binary64)) :
    ((∃ all, observations files = .ok all) ↔
      ∃ reference rest, files = reference :: rest ∧ ∀ file ∈ rest, SameNames reference file) ∧
    (∀ all, observations files = .ok all → ∃ reference rest, files = reference :: rest ∧
      all.Perm reference.observations ∧ (all.map (·.name)).Nodup ∧ all.Pairwise Earlier ∧
      (all.Pairwise fun a b => a.value.region ≤ b.value.region ∧ ¬ b.value < a.value) ∧
      ∀ rest', rest.Perm rest' → observations (reference :: rest') = .ok all) ∧
    ∀ made made' : List (String × List (String × Volume.ObservationData Binary64)),
      files = (made.map fun m => .ofItems m.1 m.2) →
      (∀ m ∈ made, (m.2.map (·.1)).Nodup) →
      List.Forall₂ (fun m m' => m.1 = m'.1 ∧ m.2.Perm m'.2) made made' →
      observations (made'.map fun m => .ofItems m.1 m.2) = observations files := by
  refine ⟨⟨?_, ?_⟩, fun all hall => ?_, ?_⟩
  · rintro ⟨all, hall⟩
    cases files with
    | nil => cases hall
    | cons reference rest => exact ⟨reference, rest, rfl, (observations_eq_ok_iff.1 hall).1⟩
  · rintro ⟨reference, rest, rfl, hsame⟩
    exact ⟨_, observations_eq_ok_iff.2 ⟨hsame, rfl⟩⟩
  · cases files with
    | nil => cases hall
    | cons reference rest =>
      obtain ⟨hsame, rfl⟩ := observations_eq_ok_iff.1 hall
      refine ⟨reference, rest, rfl, inOrder_perm reference, nodup_map_name_inOrder reference,
        pairwise_earlier_inOrder reference, ?_, fun rest' h => observations_congr_perm h hall⟩
      exact (pairwise_totalLe_inOrder reference).imp fun hle =>
        ⟨Binary64.region_le_of_totalLe hle, Binary64.not_lt_of_totalLe hle⟩
  · rintro made made' rfl hdistinct h
    rw [map_ofItems_congr hdistinct h]

end Xdmf
end PostRun
