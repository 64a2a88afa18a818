import PostRun.Number.Scalar

/-!
# Segments and element names

A segment is a piece of the logical interval from `-1` to `1`, obtained by halving
it a number of times.  A refinement level has a power of two of them, counted from
left to right, and a segment carries the proof that its level has it.

An element of a domain is named by the block it lies in and its segment of that
block.
-/

namespace PostRun
namespace Poisson

/-- What is wrong with the description of a domain. -/
inductive DomainError (α : Type u) where
  | noSegment (level index : Nat)
  | boundsNotAscending (lower upper : α)
  | tooFewPoints (points : Nat)
  | levelTooDeep (level : Nat)
  deriving DecidableEq

/-- The number of segments of a refinement level: the power of two. -/
def segmentCount (level : Nat) : Nat := Nat.pow 2 level

/-- A segment of the logical interval. -/
structure Segment where
  level : Nat
  index : Nat
  level_lt : level < 64
  index_lt : index < segmentCount level
  deriving DecidableEq

namespace Segment

variable {α : Type u}

/-- The segment at a place of a refinement level. -/
def ofIndex (level index : Nat) : Except (DomainError α) Segment :=
  if h : level < 64 ∧ index < segmentCount level then .ok ⟨level, index, h.1, h.2⟩
  else .error (.noSegment level index)

/-- The logical coordinate of a division point of a level, counted from the left end. -/
def division [Scalar α] (level place : Nat) : α :=
  -Scalar.ofNat 1 + Scalar.ofNat 2 * Scalar.ofNat place / Scalar.ofNat (segmentCount level)

/-- The logical coordinate of the left end. -/
def lower [Scalar α] (s : Segment) : α := division s.level s.index

/-- The logical coordinate of the right end. -/
def upper [Scalar α] (s : Segment) : α := division s.level (s.index + 1)

end Segment

/-- The name of an element. -/
structure ElementId where
  block : Nat
  segment : Segment
  deriving DecidableEq

namespace ElementId

/-- The written name of an element. -/
def text (id : ElementId) : String :=
  "[B" ++ toString id.block ++ ",(L" ++ toString id.segment.level ++ "I" ++
    toString id.segment.index ++ ")]"

/-- The order of the names: by block, then by level, then from left to right. -/
def le (a b : ElementId) : Bool :=
  a.block < b.block || a.block == b.block &&
    (a.segment.level < b.segment.level || a.segment.level == b.segment.level &&
      a.segment.index ≤ b.segment.index)

end ElementId
end Poisson
end PostRun
