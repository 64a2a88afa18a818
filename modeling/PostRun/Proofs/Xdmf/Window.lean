import PostRun.Proofs.Xdmf.Snapshots
import PostRun.Xdmf.Document

/-!
# The snapshots of an index

An index shows every so many of the observations that lie in a window of time.  They are
found by a scan which stops at the first observation behind the window and looks at no
other.  On a list in any order that would lose observations.  The observations of a run
are in order of time, so it loses none: `generate_indexes_window` says that the scan finds
the whole window.

## Two orders

The observations are sorted by the total order on words, and the window is a matter of
numerical comparison, in which the two zeros are equal and a NaN is not comparable.  What
carries over is that an observation behind the stop is followed by such observations only
(`reaches_of_totalLe`), as long as no time is a NaN: a NaN with a sign comes first in the
total order and a NaN without one comes last, and neither is behind the stop.
-/

namespace PostRun
namespace Xdmf

namespace Selection

variable (s : Selection)

/-! ## A scan that stops -/

/-- Whether an observation lies in the window. -/
def covers (o : Snapshot) : Bool := !decide (o.value < s.start) && !decide (s.stop < o.value)

/-- If whatever follows a miss is a miss, nothing is lost by stopping at the first one. -/
theorem takeWhile_eq_filter {p : Snapshot → Bool} {l : List Snapshot}
    (h : l.Pairwise fun a b => p b → p a) : l.takeWhile p = l.filter p := by
  induction l with
  | nil => rfl
  | cons a l ih =>
    obtain ⟨hfirst, hrest⟩ := List.pairwise_cons.1 h
    by_cases ha : p a
    · rw [List.takeWhile_cons_of_pos ha, List.filter_cons_of_pos ha, ih hrest]
    · have hnone : l.filter p = [] :=
        List.filter_eq_nil_iff.2 fun b hb hpb => ha (hfirst b hb hpb)
      rw [List.takeWhile_cons_of_neg ha, List.filter_cons_of_neg ha, hnone]

/-- What stands before an observation that reaches the stop reaches it too. -/
theorem reaches_of_totalLe {a b : Snapshot} (hle : a.value.totalLe b.value)
    (hb : b.value.isNaN = false) (h : s.reaches b) : s.reaches a := by
  simp only [reaches, Bool.not_eq_true', decide_eq_false_iff_not] at h ⊢
  exact fun hlt => h (Binary64.lt_of_lt_of_totalLe hlt hle hb)

/-- In order of time the window is what lies in it. -/
theorem window_eq_filter {l : List Snapshot}
    (hsorted : l.Pairwise fun a b => a.value.totalLe b.value)
    (hnumbers : ∀ o ∈ l, o.value.isNaN = false) : s.window l = l.filter s.covers := by
  have hstarted : (s.started l).Pairwise fun a b => s.reaches b → s.reaches a := by
    refine (hsorted.sublist List.filter_sublist).imp_of_mem fun {a b} _ hb hle h => ?_
    exact s.reaches_of_totalLe hle (hnumbers b (List.mem_of_mem_filter hb)) h
  rw [window, takeWhile_eq_filter hstarted, started, List.filter_filter]
  exact List.filter_congr fun o _ => Bool.and_comm _ _

/-! ## Every so many -/

/-- What is at a place of the choice. -/
theorem getElem?_everyFrom {stride : Nat} (hstride : 1 ≤ stride) (skip : Nat) (l : List Snapshot)
    (i : Nat) : (everyFrom stride skip l)[i]? = l[skip + i * stride]? := by
  induction l generalizing skip i with
  | nil => simp [everyFrom]
  | cons o l ih =>
    cases skip with
    | succ skip =>
      have hplace : skip + 1 + i * stride = skip + i * stride + 1 := by omega
      rw [everyFrom, ih, hplace, List.getElem?_cons_succ]
    | zero =>
      cases i with
      | zero => simp [everyFrom]
      | succ i =>
        have hplace : 0 + (i + 1) * stride = stride - 1 + i * stride + 1 := by
          rw [Nat.add_one_mul]
          omega
        rw [everyFrom, List.getElem?_cons_succ, ih, hplace, List.getElem?_cons_succ]

theorem select_value_of_stride_ne_zero (h : s.stride ≠ 0) (all : List Snapshot) :
    (s.select all).value = .ok (everyFrom s.stride 0 (s.window all)) := by
  simp [select, h]

end Selection

/-! ## The index -/

/-- The observations that are chosen are rendered. -/
theorem generate_value_of_select {files : List (Volume.File Binary64)} {s : Selection}
    {all chosen : List Snapshot} (hall : observations files = .ok all)
    (hchosen : (s.select all).value = .ok chosen) :
    (generate files s).value = render files chosen := by
  simp [generate, hall, hchosen]

/-- **An index shows every so many observations of its window.**  The observations of the first
file that lie in the window, in order of time and of their names, are some list; what is rendered
are the entries of that list at the multiples of the stride. -/
theorem generate_indexes_window {reference : Volume.File Binary64}
    {rest : List (Volume.File Binary64)} {s : Selection}
    (hsame : ∀ file ∈ rest, SameNames reference file)
    (hnumbers : ∀ o ∈ reference.observations, o.value.isNaN = false)
    (hstride : 1 ≤ s.stride) :
    ∃ all covered chosen : List Snapshot,
      observations (reference :: rest) = .ok all ∧
      (s.select all).value = .ok chosen ∧
      (generate (reference :: rest) s).value = render (reference :: rest) chosen ∧
      covered.Perm (reference.observations.filter s.covers) ∧
      covered.Pairwise Earlier ∧
      ∀ i : Nat, chosen[i]? = covered[i * s.stride]? := by
  have hperm := inOrder_perm reference
  have hall := observations_eq_ok_iff.2 ⟨hsame, rfl⟩
  have hchosen := s.select_value_of_stride_ne_zero (Nat.ne_of_gt hstride) (inOrder reference)
  have hwindow : s.window (inOrder reference) = (inOrder reference).filter s.covers :=
    s.window_eq_filter (pairwise_totalLe_inOrder reference)
      fun o ho => hnumbers o (hperm.mem_iff.1 ho)
  rw [hwindow] at hchosen
  refine ⟨_, _, _, hall, hchosen, generate_value_of_select hall hchosen, hperm.filter _,
    (pairwise_earlier_inOrder reference).sublist List.filter_sublist, fun i => ?_⟩
  rw [Selection.getElem?_everyFrom hstride, Nat.zero_add]

/-- A file with four observations, two of them at one time, and one at the negative zero. -/
def fourSnapshots : Volume.File Binary64 :=
  (((Volume.File.ofPath "Volume0.h5").insert "C" (.ofValue ⟨0x3FF0000000000000⟩)).insert "A"
    (.ofValue ⟨0x4000000000000000⟩)).insert "B" (.ofValue ⟨0x3FF0000000000000⟩)
    |>.insert "D" (.ofValue ⟨0x8000000000000000⟩)

/-- Another file of the run, in which a time is missing. -/
def untimedSnapshots : Volume.File Binary64 :=
  { fourSnapshots.insert "A" (.ofValue ⟨0x7FF8000000000000⟩) with path := "Volume1.h5" }

/-- The index of the two files, with every second observation from time zero to two. -/
theorem generate_indexes_window_two_files :
    (∀ file ∈ [untimedSnapshots], SameNames fourSnapshots file) ∧
    (∀ o ∈ fourSnapshots.observations, o.value.isNaN = false) ∧
    ∃ covered chosen : List Snapshot,
      (generate [fourSnapshots, untimedSnapshots] ⟨.zero, ⟨0x4000000000000000⟩, 2⟩).value =
        render [fourSnapshots, untimedSnapshots] chosen ∧
      covered.length = 4 ∧ covered.Pairwise Earlier ∧
      ∀ i : Nat, chosen[i]? = covered[i * 2]? := by
  have hsame : ∀ file ∈ [untimedSnapshots], SameNames fourSnapshots file := by
    intro file hfile name
    have hnames : untimedSnapshots.observationNames = fourSnapshots.observationNames := by decide
    rw [List.mem_singleton.1 hfile, hnames]
  have hnumbers : ∀ o ∈ fourSnapshots.observations, o.value.isNaN = false := by decide
  obtain ⟨-, covered, chosen, -, -, hvalue, hperm, hearlier, hplaces⟩ :=
    generate_indexes_window (s := ⟨.zero, ⟨0x4000000000000000⟩, 2⟩) hsame hnumbers (by decide)
  exact ⟨hsame, hnumbers, covered, chosen, hvalue, hperm.length_eq.trans (by decide), hearlier,
    hplaces⟩

end Xdmf
end PostRun
