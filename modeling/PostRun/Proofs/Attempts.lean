import Mathlib.Data.List.Forall2

/-!
# Lists of attempts

What is done for one thing and may fail is done for a list of things in order, and the first
failure ends it.

* `bind_eq_ok_iff`: one attempt behind another.
* `mapM_eq_ok_iff`, `mapM_eq_error_iff`: the two outcomes.
* `mapM_eq_ok_map`: attempts that are known to succeed.
* `foldlM_invariant`: attempts that build on one another.
-/

namespace PostRun

variable {ε : Type u} {α : Type v} {β : Type w} {f : α → Except ε β}

theorem map_eq_ok_iff {x : Except ε α} {g : α → β} {z : β} :
    x.map g = .ok z ↔ ∃ y, x = .ok y ∧ g y = z := by
  cases x <;> simp [Except.map]

theorem map_eq_error_iff {x : Except ε α} {g : α → β} {e : ε} :
    x.map g = .error e ↔ x = .error e := by
  cases x <;> simp [Except.map]

theorem bind_eq_ok_iff {β : Type v} {x : Except ε α} {g : α → Except ε β} {z : β} :
    x >>= g = .ok z ↔ ∃ y, x = .ok y ∧ g y = .ok z := by
  cases x <;> simp [bind, Except.bind]

theorem mapM_cons_of_ok {x : α} {y : β} (h : f x = .ok y) (xs : List α) :
    (x :: xs).mapM f = (xs.mapM f).map (y :: ·) := by
  rw [List.mapM_cons, h]
  cases xs.mapM f <;> rfl

theorem mapM_cons_of_error {x : α} {e : ε} (h : f x = .error e) (xs : List α) :
    (x :: xs).mapM f = .error e := by
  rw [List.mapM_cons, h]
  rfl

/-- A list of attempts succeeds if every one does, and the results are in order. -/
theorem mapM_eq_ok_iff {xs : List α} {ys : List β} :
    xs.mapM f = .ok ys ↔ List.Forall₂ (fun x y => f x = .ok y) xs ys := by
  induction xs generalizing ys with
  | nil => cases ys <;> simp [pure, Except.pure]
  | cons x xs ih =>
    cases hx : f x with
    | error e =>
      rw [mapM_cons_of_error hx]
      cases ys <;> simp [hx]
    | ok y =>
      rw [mapM_cons_of_ok hx]
      cases ys with
      | nil => simp [map_eq_ok_iff]
      | cons z zs => simp [map_eq_ok_iff, hx, ← ih, and_comm]

/-- A list of attempts fails as the first one of them that fails. -/
theorem mapM_eq_error_iff {xs : List α} {e : ε} :
    xs.mapM f = .error e ↔ ∃ before x after, xs = before ++ x :: after ∧
      (∀ y ∈ before, ∃ z, f y = .ok z) ∧ f x = .error e := by
  induction xs with
  | nil => simp [pure, Except.pure]
  | cons x xs ih =>
    cases hx : f x with
    | error e' =>
      rw [mapM_cons_of_error hx, Except.error.injEq]
      constructor
      · rintro rfl
        exact ⟨[], x, xs, rfl, by simp, hx⟩
      · rintro ⟨before, y, after, hsplit, hbefore, hy⟩
        cases before with
        | nil =>
          cases hsplit
          exact Except.error.inj (hx.symm.trans hy)
        | cons b before =>
          cases hsplit
          obtain ⟨z, hz⟩ := hbefore x List.mem_cons_self
          rw [hx] at hz
          cases hz
    | ok y =>
      rw [mapM_cons_of_ok hx, map_eq_error_iff, ih]
      constructor
      · rintro ⟨before, z, after, rfl, hbefore, hz⟩
        exact ⟨x :: before, z, after, rfl, List.forall_mem_cons.2 ⟨⟨y, hx⟩, hbefore⟩, hz⟩
      · rintro ⟨before, z, after, hsplit, hbefore, hz⟩
        cases before with
        | nil =>
          cases hsplit
          rw [hx] at hz
          cases hz
        | cons b before =>
          cases hsplit
          exact ⟨before, z, after, rfl, (List.forall_mem_cons.1 hbefore).2, hz⟩

theorem exists_mapM_eq_ok_iff {xs : List α} :
    (∃ ys, xs.mapM f = .ok ys) ↔ ∀ x ∈ xs, ∃ y, f x = .ok y := by
  induction xs with
  | nil => simp [pure, Except.pure]
  | cons x xs ih =>
    rw [List.forall_mem_cons, ← ih]
    cases hx : f x with
    | error e => simp [mapM_cons_of_error hx]
    | ok y =>
      rw [mapM_cons_of_ok hx]
      cases xs.mapM f <;> simp [Except.map]

/-- Attempts of which all succeed. -/
theorem mapM_eq_ok_map {xs : List α} {g : α → β} (h : ∀ x ∈ xs, f x = .ok (g x)) :
    xs.mapM f = .ok (xs.map g) :=
  mapM_eq_ok_iff.2 (List.forall₂_map_right_iff.2 (List.forall₂_same.2 h))

/-- Attempts that build on one another.  An invariant speaks of the things that were done so far. -/
theorem foldlM_invariant {β : Type v} {f : β → α → Except ε β} {I : List α → β → Prop} {y z : β}
    {xs : List α} (hstart : I [] y)
    (hstep : ∀ before x y z, I before y → f y x = .ok z → I (before ++ [x]) z)
    (h : xs.foldlM f y = .ok z) : I xs z := by
  have hrun : ∀ (after before : List α) (y : β), I before y → after.foldlM f y = .ok z →
      I (before ++ after) z := by
    intro after
    induction after with
    | nil =>
      intro before y hy h
      cases h
      simpa using hy
    | cons x after ih =>
      intro before y hy h
      rw [List.foldlM_cons] at h
      obtain ⟨next, hnext, h⟩ := bind_eq_ok_iff.1 h
      have hall := ih (before ++ [x]) next (hstep before x y next hy hnext) h
      rwa [List.append_assoc] at hall
  exact hrun xs [] y hstart h

end PostRun
