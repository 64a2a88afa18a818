import PostRun.Number.Word
import PostRun.Poisson.Segment

/-!
# Segments counted in words

A machine holds the level and the index of a segment in words.  It counts the segments of a level
in a word too, by shifting a bit, and not every level has such a count.  So a level is looked at
before its segments are counted.  For the ends of a segment the index behind its own is needed,
and not every word has one behind it.

A machine finds the segments that there are (`ofPlace?_eq`), and these have their ends
(`ends?_ofSegment`).
-/

namespace PostRun
namespace Poisson

/-- A level and an index in words, which need not have a segment. -/
structure SegmentWords where
  level : UInt32
  index : UInt64
  deriving DecidableEq

namespace SegmentWords

variable {α : Type u}

/-- The words of a segment. -/
def ofSegment (s : Segment) : SegmentWords := ⟨s.level.toUInt32, s.index.toUInt64⟩

/-- The words of the segment at a place of a refinement level. -/
def ofPlace? (level : UInt32) (index : UInt64) :
    Option (Except (DomainError α) SegmentWords) :=
  if 64 ≤ level then some (.error (.noSegment level.toNat index.toNat))
  else (Word.shiftLeft? 1 level).map fun count =>
    if count ≤ index then .error (.noSegment level.toNat index.toNat) else .ok ⟨level, index⟩

/-- The logical coordinate of a division point among the given number of segments. -/
def coordinate [Scalar α] (count place : UInt64) : α :=
  -Scalar.ofNat 1 + Scalar.ofNat 2 * Scalar.ofNat place.toNat / Scalar.ofNat count.toNat

/-- The logical coordinates of both ends. -/
def ends? [Scalar α] (s : SegmentWords) : Option (α × α) :=
  (Word.shiftLeft? 1 s.level).bind fun count =>
    (Word.add? s.index 1).map fun next => (coordinate count s.index, coordinate count next)

/-- Words say of the segments of a level what numbers say. -/
theorem ofPlace?_eq (level : UInt32) (index : UInt64) :
    (ofPlace? level index : Option (Except (DomainError α) SegmentWords)) =
      some ((Segment.ofIndex level.toNat index.toNat).map ofSegment) := by
  unfold ofPlace? Segment.ofIndex
  by_cases hlevel : level.toNat < 64
  · obtain ⟨count, hshift, hcount⟩ := Word.exists_shiftLeft?_one_eq_some hlevel
    have hshallow : ¬64 ≤ level := mt UInt32.le_iff_toNat_le.1 (Nat.not_le.2 hlevel)
    have hcompare : count ≤ index ↔ ¬index.toNat < segmentCount level.toNat := by
      rw [UInt64.le_iff_toNat_le, hcount, Nat.not_lt]
      rfl
    rw [if_neg hshallow, hshift, Option.map_some, Option.some.injEq]
    by_cases hindex : index.toNat < segmentCount level.toNat
    · rw [if_neg fun hle => hcompare.1 hle hindex, dif_pos ⟨hlevel, hindex⟩]
      simp [Except.map, ofSegment]
    · rw [if_pos (hcompare.2 hindex), dif_neg fun h => hindex h.2]
      rfl
  · have hdeep : 64 ≤ level := UInt32.le_iff_toNat_le.2 (Nat.not_lt.1 hlevel)
    rw [if_pos hdeep, dif_neg fun h => hlevel h.1]
    rfl

theorem toNat_level_ofSegment (s : Segment) : (ofSegment s).level.toNat = s.level :=
  UInt32.toNat_ofNat_of_lt' (Nat.lt_trans s.level_lt (by decide))

/-- The index of a segment, and even the one behind it, is far from the greatest word. -/
theorem toNat_index_ofSegment (s : Segment) :
    (ofSegment s).index.toNat = s.index ∧ s.index + 1 < UInt64.size := by
  have hcount : segmentCount s.level ≤ 2 ^ 63 :=
    Nat.pow_le_pow_right (by decide) (Nat.le_of_lt_succ s.level_lt)
  have hindex : s.index < 2 ^ 63 := Nat.lt_of_lt_of_le s.index_lt hcount
  have hroom : 2 ^ 63 < UInt64.size := by decide
  exact ⟨UInt64.toNat_ofNat_of_lt' (Nat.lt_trans hindex hroom), Nat.lt_of_le_of_lt hindex hroom⟩

/-- Every segment has its ends, also the last one of the deepest level. -/
theorem ends?_ofSegment [Scalar α] (s : Segment) :
    (ofSegment s).ends? = some ((s.lower : α), s.upper) := by
  have hlevel := toNat_level_ofSegment s
  obtain ⟨hindex, hroom⟩ := toNat_index_ofSegment s
  obtain ⟨count, hshift, hcount⟩ := Word.exists_shiftLeft?_one_eq_some
    (hlevel.symm ▸ s.level_lt : (ofSegment s).level.toNat < 64)
  obtain ⟨next, hadd, hnext⟩ := Word.exists_add?_eq_some (b := 1)
    (hindex.symm ▸ hroom : (ofSegment s).index.toNat + 1 < UInt64.size)
  rw [hlevel] at hcount
  rw [hindex, UInt64.toNat_one] at hnext
  rw [ends?, hshift, hadd, Option.bind_some, Option.map_some, coordinate, coordinate, hcount,
    hindex, hnext]
  rfl

end SegmentWords
end Poisson
end PostRun
