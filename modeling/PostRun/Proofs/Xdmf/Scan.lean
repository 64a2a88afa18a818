import Mathlib.Data.List.TakeWhile
import Mathlib.Order.Basic
import PostRun.Proofs.Xdmf.Window

/-!
# Choosing from observations in any order

`generate_indexes_window` speaks of observations in order of time.  Here the list is in any order,
and its values may be NaNs.  The choice is then not a matter of a window: an observation that lies
in it is lost if it comes behind the one at which the scan ends.

`select_takes_every` says what is chosen.  The list is cut before the first observation that ends
the scan; of what stands before the cut, those that are not before the start are counted, and every
so many of them are chosen.

The scan itself, in one pass and with a counter, is `scan`.  The counter `n` and the number of
observations that are yet to be skipped belong together: their sum is a multiple of the stride.
Each step preserves this (`scan_eq_everyFrom`), so the counter does nothing but keep the distance.
-/

namespace PostRun
namespace Xdmf
namespace Selection

variable (s : Selection)

/-! ## Where the scan ends -/

/-- An observation ends the scan: it is not before the start, and it is behind the stop. -/
def Ends (o : Snapshot) : Prop := ¬ o.value < s.start ∧ s.stop < o.value

instance (o : Snapshot) : Decidable (s.Ends o) := inferInstanceAs (Decidable (_ ∧ _))

/-- The window is what is counted before the scan ends. -/
theorem window_eq_started (l : List Snapshot) :
    s.window l = s.started (l.takeWhile fun o => !decide (s.Ends o)) := by
  rw [window, started, started, List.takeWhile_filter]
  congr 2
  funext o
  by_cases hstart : o.value < s.start <;> simp [reaches, Ends, hstart]

/-- Every list is cut where the scan ends. -/
theorem exists_cut (l : List Snapshot) :
    ∃ before rest, l = before ++ rest ∧ (∀ o ∈ before, ¬ s.Ends o) ∧
      (∀ o, rest.head? = some o → s.Ends o) ∧ s.window l = s.started before := by
  refine ⟨_, _, List.takeWhile_append_dropWhile.symm, fun o ho => ?_, fun o ho => ?_,
    s.window_eq_started l⟩
  · simpa using List.mem_takeWhile_imp ho
  · have hhead := List.head?_dropWhile_not (fun o => !decide (s.Ends o)) l
    rw [ho] at hhead
    simpa using hhead

theorem started_append_cons_of_lt {o : Snapshot} (h : o.value < s.start)
    (before after : List Snapshot) :
    s.started (before ++ o :: after) = s.started (before ++ after) := by
  rw [started, started, List.filter_append, List.filter_cons_of_neg (by simpa using h),
    List.filter_append]

/-- An observation before the start is not noticed, wherever it stands. -/
theorem select_append_cons_of_lt {o : Snapshot} (h : o.value < s.start)
    (before after : List Snapshot) :
    s.select (before ++ o :: after) = s.select (before ++ after) := by
  simp only [select, stopper?, window, s.started_append_cons_of_lt h]

/-! ## The length of the choice -/

theorem lt_length_everyFrom_iff {stride : Nat} (hstride : 1 ≤ stride) (l : List Snapshot)
    (i : Nat) : i < (everyFrom stride 0 l).length ↔ i * stride < l.length := by
  rw [← not_iff_not, Nat.not_lt, Nat.not_lt, ← List.getElem?_eq_none_iff,
    ← List.getElem?_eq_none_iff, getElem?_everyFrom hstride, Nat.zero_add]

theorem length_everyFrom {stride : Nat} (hstride : 1 ≤ stride) (l : List Snapshot) :
    (everyFrom stride 0 l).length = (l.length + stride - 1) / stride := by
  refine eq_of_forall_lt_iff fun i => ?_
  rw [lt_length_everyFrom_iff hstride, ← Nat.add_one_le_iff (n := i), Nat.le_div_iff_mul_le hstride,
    Nat.add_one_mul]
  omega

/-! ## The scan -/

/-- The observations that are chosen in one pass, when so many have been counted. -/
def scan : Nat → List Snapshot → List Snapshot
  | _, [] => []
  | n, o :: os =>
      if o.value < s.start then scan n os
      else if s.stop < o.value then []
      else if n % s.stride = 0 then o :: scan (n + 1) os
      else scan (n + 1) os

variable {s} {o : Snapshot}

theorem window_cons_of_lt (h : o.value < s.start) (l : List Snapshot) :
    s.window (o :: l) = s.window l := by
  rw [window, window, ← List.nil_append (o :: l), s.started_append_cons_of_lt h, List.nil_append]

theorem window_cons_of_ends (h : s.Ends o) (l : List Snapshot) : s.window (o :: l) = [] := by
  rw [window_eq_started, List.takeWhile_cons_of_neg (by simpa using h)]
  rfl

theorem window_cons_of_counted (hstart : ¬ o.value < s.start) (hstop : ¬ s.stop < o.value)
    (l : List Snapshot) : s.window (o :: l) = o :: s.window l := by
  rw [window, started, List.filter_cons_of_pos (by simpa using hstart),
    List.takeWhile_cons_of_pos (by simpa [reaches] using hstop)]
  rfl

/-- **The counter keeps the distance.**  What has been counted and what is yet to be skipped make a
multiple of the stride, at every step. -/
theorem scan_eq_everyFrom {n skip : Nat} (l : List Snapshot) (hskip : skip < s.stride)
    (hsum : s.stride ∣ n + skip) : s.scan n l = everyFrom s.stride skip (s.window l) := by
  induction l generalizing n skip with
  | nil => rfl
  | cons o l ih =>
    rw [scan]
    split_ifs with hstart hstop hturn
    · rw [window_cons_of_lt hstart, ih hskip hsum]
    · rw [window_cons_of_ends ⟨hstart, hstop⟩]
      rfl
    · have hnone : skip = 0 := by
        refine Nat.eq_zero_of_dvd_of_lt ?_ hskip
        exact (Nat.dvd_add_right (Nat.dvd_of_mod_eq_zero hturn)).1 hsum
      subst hnone
      have hnext : s.stride ∣ n + 1 + (s.stride - 1) := by
        rw [show n + 1 + (s.stride - 1) = n + s.stride by omega]
        exact (Nat.dvd_add_left (Nat.dvd_refl _)).2 hsum
      rw [window_cons_of_counted hstart hstop, everyFrom, ih (by omega) hnext]
    · obtain ⟨skip, rfl⟩ : ∃ k, skip = k + 1 := by
        refine Nat.exists_eq_add_one_of_ne_zero fun hnone => hturn ?_
        rw [hnone] at hsum
        exact Nat.mod_eq_zero_of_dvd hsum
      rw [window_cons_of_counted hstart hstop, everyFrom,
        ih (Nat.lt_of_succ_lt hskip) (by rwa [Nat.add_right_comm, Nat.add_assoc])]

variable (s)

theorem select_value_eq_scan (h : 1 ≤ s.stride) (all : List Snapshot) :
    (s.select all).value = .ok (s.scan 0 all) := by
  have hscan : s.scan 0 all = everyFrom s.stride 0 (s.window all) :=
    scan_eq_everyFrom all h (Nat.dvd_zero _)
  rw [s.select_value_of_stride_ne_zero (Nat.ne_of_gt h), hscan]

/-! ## The choice -/

/-- What is not a number is not compared. -/
theorem not_lt_of_isNaN {x y : Binary64} (h : x.isNaN ∨ y.isNaN) : ¬ x < y := by
  intro hlt
  obtain ⟨hx, hy, -⟩ := Binary64.lt_iff.1 hlt
  rcases h with h | h
  · exact absurd h (by simp [hx])
  · exact absurd h (by simp [hy])

/-- **What is chosen from observations in any order.**  The list is cut before the first observation
that ends the scan.  Of those before the cut that are not before the start, the ones at the
multiples of the stride are chosen, as a scan with a counter finds them.  An observation before the
start might as well be missing, also if it is behind the stop, and what is not a number neither
shuts an observation out nor ends the scan.  There is no choice with a stride of zero. -/
theorem select_takes_every (all : List Snapshot) :
    (s.stride = 0 → (s.select all).value = .error .invalidStride) ∧
    (1 ≤ s.stride → ∃ before rest chosen, all = before ++ rest ∧
      (∀ o ∈ before, ¬ s.Ends o) ∧ (∀ o, rest.head? = some o → s.Ends o) ∧
      (s.select all).value = .ok chosen ∧ chosen = s.scan 0 all ∧
      (∀ i : Nat, chosen[i]? = (s.started before)[i * s.stride]?) ∧
      chosen.length = ((s.started before).length + s.stride - 1) / s.stride) ∧
    (∀ before o after, all = before ++ o :: after → o.value < s.start →
      s.select all = s.select (before ++ after)) ∧
    ∀ o : Snapshot, (o.value.isNaN ∨ s.start.isNaN → ¬ o.value < s.start) ∧
      (o.value.isNaN ∨ s.stop.isNaN → ¬ s.Ends o) := by
  refine ⟨fun h => ?_, fun h => ?_, ?_, fun o => ⟨not_lt_of_isNaN, fun hnan hends => ?_⟩⟩
  · rw [select, if_pos h]
    rfl
  · obtain ⟨before, rest, hall, hbefore, hrest, hwindow⟩ := s.exists_cut all
    have hscan : s.scan 0 all = everyFrom s.stride 0 (s.started before) := by
      rw [scan_eq_everyFrom all h (Nat.dvd_zero _), hwindow]
    refine ⟨before, rest, _, hall, hbefore, hrest, s.select_value_eq_scan h all, rfl,
      fun i => ?_, ?_⟩
    · rw [hscan, getElem?_everyFrom h, Nat.zero_add]
    · rw [hscan, length_everyFrom h]
  · rintro before o after rfl hlt
    exact s.select_append_cons_of_lt hlt before after
  · exact not_lt_of_isNaN hnan.symm hends.2

end Selection
end Xdmf
end PostRun
