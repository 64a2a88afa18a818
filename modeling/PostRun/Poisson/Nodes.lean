import PostRun.Number.Scalar

/-!
# Collocation points

The Legendre-Gauss-Lobatto points on the logical interval: both ends, and between
them the extrema of a Legendre polynomial.  They are found by Newton's method from
the extrema of a Chebyshev polynomial, and made symmetric about zero at the end.

## Newton's method in sweeps

All points take one step together.  The steps end when no point moved as far as the
tolerance, or after a fixed number of sweeps; a change that is not a number never
counts as the largest one.

## Symmetry

Only the differences of mirrored points enter the result: half the difference is
one point and its negative the other, so the result is symmetric exactly, whatever
the steps before left.  With an odd number of points the middle one is zero.
-/

namespace PostRun
namespace Poisson

/-- What is wrong with the nodes or the values at them. -/
inductive NodeError where
  | tooFewNodes (nodes : Nat)
  | valueCount (nodes values : Nat)
  deriving DecidableEq

namespace Lobatto

variable {α : Type u} [Elementary α]

/-- The three-term recurrence from the polynomials of degree `k + 1` and `k`, for a number of
steps: the last polynomial and the one before it. -/
def recurrence (x : α) : Nat → Nat → α → α → α × α
  | 0, _, p, before => (p, before)
  | steps + 1, k, p, before =>
      let degree := Scalar.ofNat (k + 2)
      let next := ((Scalar.ofNat 2 * degree - Scalar.ofNat 1) * x * p -
        (degree - Scalar.ofNat 1) * before) / degree
      recurrence x steps (k + 1) next p

/-- The Legendre polynomials of degree `n` and `n - 1` at a point, for a positive `n`. -/
def legendre (n : Nat) (x : α) : α × α := recurrence x (n - 1) 0 x (Scalar.ofNat 1)

/-- The step of Newton's method at a point: what is to be taken from it. -/
def correction (n : Nat) (x : α) : α :=
  let (p, before) := legendre (n - 1) x
  (x * p - before) / (Scalar.ofNat n * p)

/-- The extrema of the Chebyshev polynomial of the same degree, ascending. -/
def start (n : Nat) : List α :=
  (List.range n).map fun i =>
    -Elementary.cos (Elementary.pi * Scalar.ofNat i / Scalar.ofNat (n - 1))

/-- The smallest change that asks for another sweep: `1e-15`. -/
def tolerance : α := Scalar.ofNat 1 / Scalar.ofNat 1000000000000000

/-- The largest number of sweeps. -/
def sweepLimit : Nat := 100

section Ordered

variable [LT α] [DecidableLT α]

/-- The larger of two numbers; the first if they do not compare. -/
def larger (a b : α) : α := if a < b then b else a

/-- The largest absolute value of a list, zero if there is none. -/
def largestChange (changes : List α) : α :=
  changes.foldl (fun m dx => larger (larger m dx) (-dx)) Scalar.zero

/-- Sweeps of Newton's method until the points rest. -/
def sweeps (n : Nat) : Nat → List α → List α
  | 0, xs => xs
  | fuel + 1, xs =>
      let changes := xs.map (correction n)
      let moved := List.zipWith (· - ·) xs changes
      if largestChange changes < tolerance then moved else sweeps n fuel moved

/-- Half the distances of mirrored points, for the first half of a list. -/
def halfDistances (xs : List α) : List α :=
  (List.zipWith (fun x mirrored => Scalar.half * (mirrored - x)) xs xs.reverse).take
    (xs.length / 2)

/-- The points made symmetric about zero. -/
def symmetric (xs : List α) : List α :=
  let halves := halfDistances xs
  halves.map (- ·) ++ (if xs.length % 2 = 1 then [Scalar.zero] else []) ++ halves.reverse

/-- The Legendre-Gauss-Lobatto points, ascending. -/
def points (n : Nat) : Except NodeError (List α) :=
  if n < 2 then .error (.tooFewNodes n) else .ok (symmetric (sweeps n sweepLimit (start n)))

end Ordered
end Lobatto
end Poisson
end PostRun
