import PostRun.Poisson.Nodes

/-!
# Counting and mirroring the collocation points

The points are moved and mirrored as lists, and no step names a place in a list.  What a step could
get wrong is how many points there are: the symmetric points are put together from two halves and,
for an odd number, from a zero between them.  The halves are as long as half the list, so that the
whole has as many points as before (`length_symmetric`), whatever the numbers are.

## In place

The points may as well be mirrored in the list that holds them, one pair after another, each pair
written over the two points it was computed from (`mirrorPair`).  The steps go from both ends to the
middle, so a step finds its two points as they were before all steps, and no later step comes back
to them: after some steps the list is mirrored outside of them and untouched between
(`getElem?_mirrorPairs`).  At the end only the middle of an odd number of points is left over, and
the list is the one that the halves make (`mirrorInPlace_eq_symmetric`).

Nothing is asked of the arithmetic.  A point is the negative of its mirror image because it was
written as that, and not because two computations agree (`isMirrorSymmetric_symmetric`).
-/

namespace PostRun
namespace Poisson
namespace Lobatto

variable {α : Type u} [Elementary α]

/-! ## How many points there are -/

@[simp] theorem length_start (n : Nat) : (start n : List α).length = n := by simp [start]

section Sweeps

variable [LT α] [DecidableLT α]

/-- A sweep moves every point, and takes or adds none. -/
@[simp] theorem length_sweeps (n fuel : Nat) (xs : List α) :
    (sweeps n fuel xs).length = xs.length := by
  induction fuel generalizing xs with
  | zero => rfl
  | succ fuel ih =>
    have hmoved : (List.zipWith (· - ·) xs (xs.map (correction n))).length = xs.length := by simp
    rw [sweeps]
    split
    · exact hmoved
    · rw [ih, hmoved]

end Sweeps

@[simp] theorem length_halfDistances (xs : List α) :
    (halfDistances xs).length = xs.length / 2 := by
  simp [halfDistances]
  omega

/-- Two halves, and a point in the middle if there is one. -/
@[simp] theorem length_symmetric (xs : List α) : (symmetric xs).length = xs.length := by
  rw [symmetric, List.length_append, List.length_append, List.length_map, List.length_reverse,
    length_halfDistances]
  by_cases hodd : xs.length % 2 = 1
  · rw [if_pos hodd, List.length_singleton]
    omega
  · rw [if_neg hodd, List.length_nil]
    omega

/-- **There are as many points as are asked for**, if these are at least two. -/
theorem points_eq_ok [LT α] [DecidableLT α] {n : Nat} (h : 2 ≤ n) :
    ∃ nodes : List α, points n = .ok nodes ∧ nodes.length = n := by
  refine ⟨symmetric (sweeps n sweepLimit (start n)), ?_, by simp⟩
  rw [points, if_neg (Nat.not_lt.2 h)]

/-! ## Mirroring in place -/

/-- Half the distance of a point to its mirror image, by its place. -/
def halfDistance (xs : List α) (i : Nat) : α :=
  Scalar.half * (xs.getD (xs.length - 1 - i) Scalar.zero - xs.getD i Scalar.zero)

/-- Mirrors a point and its image in place: half their distance takes the place of the image, and
its negative that of the point. -/
def mirrorPair (xs : List α) (i : Nat) : List α :=
  (xs.set i (-halfDistance xs i)).set (xs.length - 1 - i) (halfDistance xs i)

/-- Mirrors some points at both ends, from the ends inwards. -/
def mirrorPairs (xs : List α) (count : Nat) : List α := (List.range count).foldl mirrorPair xs

/-- Mirrors all points in place, and sets the one in the middle to zero if there is one. -/
def mirrorInPlace (xs : List α) : List α :=
  let mirrored := mirrorPairs xs (xs.length / 2)
  if xs.length % 2 = 1 then mirrored.set (xs.length / 2) Scalar.zero else mirrored

theorem mirrorPairs_succ (xs : List α) (count : Nat) :
    mirrorPairs xs (count + 1) = mirrorPair (mirrorPairs xs count) count := by
  rw [mirrorPairs, List.range_succ, List.foldl_append]
  rfl

@[simp] theorem length_mirrorPair (xs : List α) (i : Nat) :
    (mirrorPair xs i).length = xs.length := by simp [mirrorPair]

@[simp] theorem length_mirrorPairs (xs : List α) (count : Nat) :
    (mirrorPairs xs count).length = xs.length := by
  induction count with
  | zero => rfl
  | succ count ih => rw [mirrorPairs_succ, length_mirrorPair, ih]

/-- What stands at a place when the points at both ends are mirrored. -/
def mirroredAt (xs : List α) (count j : Nat) : Option α :=
  if j < count then some (-halfDistance xs j)
  else if xs.length - 1 - j < count then some (halfDistance xs (xs.length - 1 - j))
  else xs[j]?

/-- Between the ends that are mirrored nothing has changed. -/
theorem mirroredAt_between {xs : List α} {count j : Nat} (hpoint : count ≤ j)
    (himage : count ≤ xs.length - 1 - j) : mirroredAt xs count j = xs[j]? := by
  rw [mirroredAt, if_neg (Nat.not_lt.2 hpoint), if_neg (Nat.not_lt.2 himage)]

/-- The distance of a pair depends on the two points only. -/
theorem halfDistance_congr {xs ys : List α} {i : Nat} (hlength : ys.length = xs.length)
    (hpoint : ys[i]? = xs[i]?) (himage : ys[xs.length - 1 - i]? = xs[xs.length - 1 - i]?) :
    halfDistance ys i = halfDistance xs i := by
  rw [halfDistance, halfDistance, hlength, List.getD_eq_getElem?_getD,
    List.getD_eq_getElem?_getD, List.getD_eq_getElem?_getD, List.getD_eq_getElem?_getD,
    hpoint, himage]

/-- **The list after some steps**: mirrored at both ends, and as it was between them.  The points of
the next step are among the latter. -/
theorem getElem?_mirrorPairs {xs : List α} {count : Nat} (h : count ≤ xs.length / 2) {j : Nat}
    (hj : j < xs.length) : (mirrorPairs xs count)[j]? = mirroredAt xs count j := by
  induction count generalizing j with
  | zero => simp [mirrorPairs, mirroredAt]
  | succ count ih =>
    have hcount : count < xs.length / 2 := h
    have hsame : halfDistance (mirrorPairs xs count) count = halfDistance xs count := by
      apply halfDistance_congr (length_mirrorPairs xs count)
      · rw [ih (by omega) (by omega), mirroredAt_between (Nat.le_refl count) (by omega)]
      · rw [ih (by omega) (by omega), mirroredAt_between (by omega) (by omega)]
    rw [mirrorPairs_succ, mirrorPair, hsame, length_mirrorPairs, List.getElem?_set,
      List.getElem?_set, List.length_set, length_mirrorPairs, ih (by omega) hj]
    by_cases himage : xs.length - 1 - count = j
    · subst himage
      have hplace : xs.length - 1 - (xs.length - 1 - count) = count := by omega
      rw [if_pos rfl, if_pos hj, mirroredAt, if_neg (by omega), hplace, if_pos (by omega)]
    · rw [if_neg himage]
      by_cases hpoint : count = j
      · subst hpoint
        rw [if_pos rfl, if_pos hj, mirroredAt, if_pos (by omega)]
      · have hfront : (j < count + 1) = (j < count) := propext (by omega)
        have hback : (xs.length - 1 - j < count + 1) = (xs.length - 1 - j < count) :=
          propext (by omega)
        rw [if_neg hpoint, mirroredAt, mirroredAt]
        simp only [hfront, hback]

/-! ## Symmetry -/

theorem getElem?_halfDistances {xs : List α} {i : Nat} (h : i < xs.length / 2) :
    (halfDistances xs)[i]? = some (halfDistance xs i) := by
  have hpoint : i < xs.length := by omega
  have himage : xs.length - 1 - i < xs.length := by omega
  rw [halfDistances, List.getElem?_take_of_lt h, List.getElem?_zipWith,
    List.getElem?_eq_getElem hpoint, List.getElem?_reverse hpoint,
    List.getElem?_eq_getElem himage, halfDistance, List.getD_eq_getElem?_getD,
    List.getD_eq_getElem?_getD, List.getElem?_eq_getElem hpoint, List.getElem?_eq_getElem himage]
  rfl

/-- A place is in the first half, at the mirrored place in the last half, or in the middle. -/
theorem place_cases {n j : Nat} (hj : j < n) :
    j < n / 2 ∨ (∃ i, i < n / 2 ∧ j = n - 1 - i) ∨ n % 2 = 1 ∧ j = n / 2 := by
  by_cases hback : n - 1 - j < n / 2
  · exact .inr (.inl ⟨n - 1 - j, hback, by omega⟩)
  · omega

/-- The first half. -/
theorem getElem?_symmetric_front {xs : List α} {i : Nat} (h : i < xs.length / 2) :
    (symmetric xs)[i]? = some (-halfDistance xs i) := by
  rw [symmetric, List.append_assoc, List.getElem?_append_left (by simpa using h),
    List.getElem?_map, getElem?_halfDistances h]
  rfl

/-- The last half. -/
theorem getElem?_symmetric_back {xs : List α} {i : Nat} (h : i < xs.length / 2) :
    (symmetric xs)[xs.length - 1 - i]? = some (halfDistance xs i) := by
  have hplace : i < (symmetric xs).length := by
    rw [length_symmetric]
    omega
  have hreverse := List.getElem?_reverse hplace
  rw [length_symmetric] at hreverse
  rw [← hreverse, symmetric, List.reverse_append, List.reverse_reverse,
    List.getElem?_append_left (by simpa using h), getElem?_halfDistances h]

/-- The middle of an odd number of points. -/
theorem getElem?_symmetric_middle {xs : List α} (h : xs.length % 2 = 1) :
    (symmetric xs)[xs.length / 2]? = some Scalar.zero := by
  have hfront : ((halfDistances xs).map (- ·)).length = xs.length / 2 := by simp
  rw [symmetric, if_pos h, List.append_assoc, List.getElem?_append_right (Nat.le_of_eq hfront),
    hfront, Nat.sub_self]
  rfl

/-- What is set to zero at last is not one of the mirrored pairs. -/
theorem getElem?_mirrorInPlace_of_ne {xs : List α} {j : Nat} (hj : j < xs.length)
    (hmiddle : xs.length % 2 = 1 → j ≠ xs.length / 2) :
    (mirrorInPlace xs)[j]? = mirroredAt xs (xs.length / 2) j := by
  rw [← getElem?_mirrorPairs (Nat.le_refl _) hj, mirrorInPlace]
  split
  · rename_i hodd
    exact List.getElem?_set_ne (hmiddle hodd).symm
  · rfl

@[simp] theorem length_mirrorInPlace (xs : List α) : (mirrorInPlace xs).length = xs.length := by
  rw [mirrorInPlace]
  split <;> simp

/-- **Mirroring in place makes the symmetric points.** -/
theorem mirrorInPlace_eq_symmetric (xs : List α) : mirrorInPlace xs = symmetric xs := by
  refine List.ext_getElem? fun j => ?_
  by_cases hj : j < xs.length
  · rcases place_cases hj with hfront | ⟨i, hi, rfl⟩ | ⟨hodd, rfl⟩
    · rw [getElem?_symmetric_front hfront, getElem?_mirrorInPlace_of_ne hj (by omega), mirroredAt,
        if_pos hfront]
    · have hplace : xs.length - 1 - (xs.length - 1 - i) = i := by omega
      rw [getElem?_symmetric_back hi, getElem?_mirrorInPlace_of_ne hj (by omega), mirroredAt,
        if_neg (by omega), hplace, if_pos hi]
    · rw [getElem?_symmetric_middle hodd, mirrorInPlace, if_pos hodd,
        List.getElem?_set_self (by simpa using hj)]
  · rw [List.getElem?_eq_none (by simpa using hj), List.getElem?_eq_none (by simpa using hj)]

/-- A number of points that are symmetric about zero: each of the first half is the negative of its
mirror image, and in the middle of an odd number stands zero. -/
structure IsMirrorSymmetric (n : Nat) (nodes : List α) : Prop where
  length : nodes.length = n
  mirrored : ∀ i < n / 2, ∃ x, nodes[n - 1 - i]? = some x ∧ nodes[i]? = some (-x)
  middle : n % 2 = 1 → nodes[n / 2]? = some Scalar.zero

/-- The symmetric points are so, whatever they were before. -/
theorem isMirrorSymmetric_symmetric (xs : List α) :
    IsMirrorSymmetric xs.length (symmetric xs) where
  length := length_symmetric xs
  mirrored i hi := ⟨halfDistance xs i, getElem?_symmetric_back hi, getElem?_symmetric_front hi⟩
  middle := getElem?_symmetric_middle

/-- **The collocation points are exactly symmetric**, for every number of them and every arithmetic.
The points that the sweeps left are mirrored in place, and what comes out is symmetric, as it would
be for any other points. -/
theorem points_isMirrorSymmetric [LT α] [DecidableLT α] {n : Nat} (h : 2 ≤ n) :
    ∃ nodes : List α, points n = .ok nodes ∧ IsMirrorSymmetric n nodes ∧
      nodes = mirrorInPlace (sweeps n sweepLimit (start n)) ∧
      ∀ moved : List α, moved.length = n → IsMirrorSymmetric n (mirrorInPlace moved) := by
  have hany : ∀ moved : List α, moved.length = n → IsMirrorSymmetric n (mirrorInPlace moved) := by
    rintro moved rfl
    rw [mirrorInPlace_eq_symmetric]
    exact isMirrorSymmetric_symmetric moved
  refine ⟨mirrorInPlace (sweeps n sweepLimit (start n)), ?_, hany _ (by simp), rfl, hany⟩
  rw [points, if_neg (Nat.not_lt.2 h), mirrorInPlace_eq_symmetric]

/-- Five words: two, zero, and the negatives of the two. -/
theorem points_isMirrorSymmetric_five : 2 ≤ 5 ∧ ∃ a b : Binary64,
    points 5 = .ok [-a, -b, ⟨0⟩, b, a] := by
  have h : 2 ≤ 5 := by decide
  obtain ⟨nodes, hpoints, hsymmetric, -, -⟩ := points_isMirrorSymmetric (α := Binary64) h
  obtain ⟨a, hlast, hfirst⟩ := hsymmetric.mirrored 0 (by decide)
  obtain ⟨b, hfourth, hsecond⟩ := hsymmetric.mirrored 1 (by decide)
  have hmiddle := hsymmetric.middle rfl
  have hnodes : nodes = [-a, -b, ⟨0⟩, b, a] := by
    match nodes, hsymmetric.length with
    | [_, _, _, _, _], _ =>
      cases hlast
      cases hfirst
      cases hfourth
      cases hsecond
      cases hmiddle
      rfl
  exact ⟨h, a, b, hnodes ▸ hpoints⟩

end Lobatto
end Poisson
end PostRun
