import PostRun.Proofs.Number.Reading
import PostRun.Proofs.Xdmf.Sizes

/-!
# The times of an index

An index writes every time with fifteen digits.  Two times that differ may be written the same, but
never the wrong way round.  Three orders are involved, and each of them keeps what the one before it
puts in order:

* the observations are sorted by the total order of the words, in which a NaN has a place and the
  negative zero comes before the positive one;
* the numbers that finite words stand for do not descend where the words do not
  (`Binary64.toRat_le_of_numericKey_le`);
* the decimals that numbers are rounded to do not descend where the numbers do not
  (`Decimal.toRat_rounded_mono`).

What is written can be read without knowing any of this: the text of a time is a decimal, and it is
read as the one that it was written from (`Binary64.read?_timeStamp`).  So a time stamp grows with
its word, whatever document it stands in (`timeStamp_mono`).
-/

namespace PostRun
namespace Xdmf

/-- The decimals that stand in an index for the times of its observations. -/
def writtenTimes (chosen : List Snapshot) : List Decimal :=
  chosen.map fun o => Decimal.rounded 14 o.value

/-- **Rounded times are in the order of the times.** -/
theorem pairwise_writtenTimes {chosen : List Snapshot}
    (h : chosen.Pairwise fun a b => a.value.totalLe b.value) :
    (writtenTimes chosen).Pairwise fun a b => a.toRat ≤ b.toRat := by
  refine List.pairwise_map.2 (h.imp fun {a b} hle => ?_)
  exact Decimal.toRat_rounded_mono 14
    (Binary64.toRat_le_of_numericKey_le (Binary64.numericKey_le_of_totalLe hle))

/-- What is chosen of a run is taken in order from the observations of one of its files. -/
theorem exists_sublist_inOrder_of_select {files : List (Volume.File Binary64)} {s : Selection}
    {all chosen : List Snapshot} (hall : observations files = .ok all)
    (hchosen : (s.select all).value = .ok chosen) :
    ∃ file ∈ files, chosen.Sublist (inOrder file) := by
  cases files with
  | nil => cases hall
  | cons reference rest =>
    obtain ⟨-, rfl⟩ := observations_eq_ok_iff.1 hall
    exact ⟨reference, List.mem_cons_self, Selection.sublist_of_select hchosen⟩

/-- **A time stamp grows with the word**: of two finite times, the one that is not later is not written
as a later one. -/
theorem timeStamp_mono {v w : Binary64} (hv : v.isFinite) (hw : w.isFinite) (hle : ¬ w < v) :
    ∃ a b, Decimal.read? v.timeStamp.toList = some a ∧
      Decimal.read? w.timeStamp.toList = some b ∧ a.toRat ≤ b.toRat :=
  ⟨_, _, Binary64.read?_timeStamp hv, Binary64.read?_timeStamp hw,
    Decimal.toRat_rounded_mono 14 (Binary64.toRat_le_of_not_lt hv hw hle)⟩

/-- **The times in a document never go backwards.**  A time stamp is a decimal that grows with the
word.  So if the values of all observations are finite, the times in the text of an index can be read
as decimals, which do not descend, and each of them lies within half a unit of its fifteenth digit of
the value of its observation. -/
theorem generate_times_ascend {files : List (Volume.File Binary64)} {s : Selection} {text : String}
    (hfinite : ∀ file ∈ files, ∀ o ∈ file.observations, o.value.isFinite)
    (h : (generate files s).value = .ok text) :
    (∃ all chosen entries times, observations files = .ok all ∧
      (s.select all).value = .ok chosen ∧ decode text = some entries ∧
      List.Forall₂ (fun (e : EntryOutline) t => Decimal.read? e.time.toList = some t)
        entries times ∧
      times.Pairwise (fun a b => a.toRat ≤ b.toRat) ∧
      List.Forall₂ (fun (o : Snapshot) t => Decimal.IsWithinHalfUnit 14 o.value.toRat t.toRat)
        chosen times) ∧
    ∀ v w : Binary64, v.isFinite → w.isFinite → ¬ w < v →
      ∃ a b, Decimal.read? v.timeStamp.toList = some a ∧
        Decimal.read? w.timeStamp.toList = some b ∧ a.toRat ≤ b.toRat := by
  constructor
  · obtain ⟨all, chosen, hall, hchosen, hrender⟩ := exists_render_of_generate h
    obtain ⟨doc, hdoc, rfl⟩ := map_eq_ok_iff.1 hrender
    obtain ⟨file, hfile, hsublist⟩ := exists_sublist_inOrder_of_select hall hchosen
    refine ⟨all, chosen, doc.entries.map Entry.outline, writtenTimes chosen, hall, hchosen,
      doc.decode_render, ?_,
      pairwise_writtenTimes ((pairwise_totalLe_inOrder file).sublist hsublist), ?_⟩
    · refine List.forall₂_map_left_iff.2 (List.forall₂_map_right_iff.2 ?_)
      have hvalues : ∀ o ∈ chosen, o.value.isFinite := by
        intro o ho
        exact hfinite file hfile o ((inOrder_perm file).subset (hsublist.subset ho))
      refine ((List.forall₂_and_left _ _).2
        ⟨hvalues, Document.ofFiles_eq_ok_iff.1 hdoc⟩).flip.imp fun e o ⟨hvalue, htime, _⟩ => ?_
      rw [Entry.outline, htime]
      exact Binary64.read?_timeStamp hvalue
    · refine List.forall₂_map_right_iff.2 (List.forall₂_same.2 fun o _ => ?_)
      exact Decimal.isWithinHalfUnit_rounded 14 o.value
  · intro v w hv hw hle
    exact timeStamp_mono hv hw hle

/-- A file with an observation just before the time one, and another one at that time. -/
def nearlyOne : Volume.File Binary64 :=
  ((Volume.File.ofPath "Volume0.h5").insert "A" (.ofValue ⟨0x3FEFFFFFFFFFFFFF⟩)).insert "B"
    (.ofValue ⟨0x3FF0000000000000⟩)

/-- Both times of that file are written as one, and the smallest number is not below the negative
zero. -/
theorem generate_times_ascend_nearlyOne :
    (∀ file ∈ [nearlyOne], ∀ o ∈ file.observations, o.value.isFinite) ∧
    (∃ text entries times, (generate [nearlyOne] .standard).value = .ok text ∧
      decode text = some entries ∧
      List.Forall₂ (fun (e : EntryOutline) t => Decimal.read? e.time.toList = some t)
        entries times ∧
      times.Pairwise (fun a b => a.toRat ≤ b.toRat) ∧ entries.length = 2) ∧
    ∃ a b, Decimal.read? "-0.00000000000000e+00".toList = some a ∧
      Decimal.read? "4.94065645841247e-324".toList = some b ∧ a.toRat ≤ b.toRat := by
  have hfinite : ∀ file ∈ [nearlyOne], ∀ o ∈ file.observations, o.value.isFinite := by
    intro file hfile
    rw [List.mem_singleton.1 hfile]
    decide
  have hlisted : nearlyOne.observations =
      [⟨"A", ⟨0x3FEFFFFFFFFFFFFF⟩⟩, ⟨"B", ⟨0x3FF0000000000000⟩⟩] := rfl
  have hall : observations [nearlyOne] = .ok nearlyOne.observations := by
    refine observations_eq_ok_iff.2 ⟨by simp, ?_⟩
    rw [inOrder, hlisted, List.mergeSort_of_pairwise (by decide)]
  have hchosen : (Selection.standard.select nearlyOne.observations).value =
      .ok nearlyOne.observations := by
    decide
  obtain ⟨text, htext⟩ : ∃ text, render [nearlyOne] nearlyOne.observations = .ok text := by
    refine (exists_render_eq_ok_iff ?_).2 ?_
    · intro o ho file hfile
      rw [List.mem_singleton.1 hfile, ← nearlyOne.map_name_observations]
      exact List.mem_map_of_mem ho
    · intro o ho file hfile
      rw [List.mem_singleton.1 hfile]
      rw [hlisted, List.mem_pair] at ho
      rcases ho with rfl | rfl
      · rw [malformed_iff (d := .ofValue ⟨0x3FEFFFFFFFFFFFFF⟩) rfl]
        decide
      · rw [malformed_iff (d := .ofValue ⟨0x3FF0000000000000⟩) rfl]
        decide
  have hvalue := (generate_value_of_select hall hchosen).trans htext
  obtain ⟨⟨all, chosen, entries, times, hall', hchosen', hdecode, hread, hascend, hnear⟩, hstamps⟩ :=
    generate_times_ascend hfinite hvalue
  cases hall.symm.trans hall'
  cases hchosen.symm.trans hchosen'
  have hcount : entries.length = 2 := by rw [hread.length_eq, ← hnear.length_eq, hlisted]; rfl
  have hzero : (⟨0x8000000000000000⟩ : Binary64).timeStamp = "-0.00000000000000e+00" := by decide
  have hsmallest : (⟨1⟩ : Binary64).timeStamp = "4.94065645841247e-324" := by
    decide +kernel
  have hpair := hstamps ⟨0x8000000000000000⟩ ⟨1⟩ (by decide) (by decide) (by decide)
  rw [hzero, hsmallest] at hpair
  exact ⟨hfinite, ⟨text, entries, times, hvalue, hdecode, hread, hascend, hcount⟩, hpair⟩

end Xdmf
end PostRun
