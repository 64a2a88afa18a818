import PostRun.Proofs.Poisson.Tiling
import PostRun.Poisson.SegmentWords

/-!
# Segments by bisection

The ends of a segment are computed in one step from its level and its index, by dividing.  What a
segment is meant to be is said with steps: the logical interval is halved, its halves are halved,
and so on for as many levels.  Both agree, and the reason is one step of the second kind.  The
division points of a level are every second one of the next level, and those in between are the
midpoints (`Segment.division_mul_two`, `Segment.division_mul_two_add_one`).  So the segments of a
level, halved, are those of the next level in the same order (`Segment.ends_ofLevel_succ`), and by
induction they are what halving makes of the logical interval (`Segment.ends_ofLevel`).

That they tile it needs no formula any more.  Halving keeps pieces free of gaps and overlaps
(`IsCut.flatMap_halves`), and there is one piece at the beginning.

All of this is about exact arithmetic.  What is counted is the same in words as in numbers of any
size (`SegmentWords.ofPlace?_eq`, `SegmentWords.ends?_ofSegment`).
-/

namespace PostRun
namespace Poisson

/-! ## Pieces side by side -/

section Pieces

variable {K : Type u} [LinearOrder K]

/-- Pieces, given by their ends, that lead from one number up to another: each begins where the one
before it ends. -/
def IsCut : K → K → List (K × K) → Prop
  | first, last, [] => first = last
  | first, last, piece :: pieces => piece.1 = first ∧ piece.1 < piece.2 ∧ IsCut piece.2 last pieces

namespace IsCut

variable {first last : K} {pieces : List (K × K)}

/-- No piece begins before the first one. -/
theorem le_of_mem (h : IsCut first last pieces) {piece : K × K} (hpiece : piece ∈ pieces) :
    first ≤ piece.1 := by
  induction pieces generalizing first with
  | nil => cases hpiece
  | cons head pieces ih =>
    obtain ⟨rfl, hlt, htail⟩ := h
    rcases List.mem_cons.1 hpiece with rfl | hmem
    · exact le_rfl
    · exact hlt.le.trans (ih htail hmem)

/-- **Every number from the first to the last is in exactly one of the pieces**, if each of them
has its left end and not its right one. -/
theorem existsUnique (h : IsCut first last pieces) {x : K} (hfirst : first ≤ x) (hlast : x < last) :
    ∃! piece, piece ∈ pieces ∧ piece.1 ≤ x ∧ x < piece.2 := by
  induction pieces generalizing first with
  | nil =>
    cases h
    exact absurd hlast (not_lt.2 hfirst)
  | cons head pieces ih =>
    obtain ⟨rfl, -, htail⟩ := h
    rcases lt_or_ge x head.2 with hx | hx
    · refine ⟨head, ⟨List.mem_cons_self, hfirst, hx⟩, ?_⟩
      rintro other ⟨hmem, hle, -⟩
      rcases List.mem_cons.1 hmem with rfl | hmem
      · rfl
      · exact absurd ((htail.le_of_mem hmem).trans hle) (not_le.2 hx)
    · obtain ⟨piece, ⟨hmem, hholds⟩, hunique⟩ := ih htail hx
      refine ⟨piece, ⟨List.mem_cons_of_mem head hmem, hholds⟩, ?_⟩
      rintro other ⟨hother, hle, hlt⟩
      rcases List.mem_cons.1 hother with rfl | hother
      · exact absurd hlt (not_lt.2 hx)
      · exact hunique other ⟨hother, hle, hlt⟩

end IsCut

end Pieces

/-! ## Halving -/

section Halving

variable {α : Type u} [Scalar α]

/-- The number in the middle of two others. -/
def middle (a b : α) : α := (a + b) / Scalar.ofNat 2

/-- Both halves of a piece. -/
def halves (piece : α × α) : List (α × α) :=
  [(piece.1, middle piece.1 piece.2), (middle piece.1 piece.2, piece.2)]

/-- The logical interval after halving, and halving all pieces again, for a number of levels. -/
def bisected : ℕ → List (α × α)
  | 0 => [(-Scalar.ofNat 1, Scalar.ofNat 1)]
  | level + 1 => (bisected level).flatMap halves

@[simp] theorem middle_eq {K : Type u} [ExactScalar K] (a b : K) : middle a b = (a + b) / 2 := by
  rw [middle, Scalar.ofNat_eq, Nat.cast_ofNat]

variable {K : Type u} [ExactScalar K] [LinearOrder K] [IsStrictOrderedRing K]

/-- Halving leaves no gap and makes no overlap. -/
theorem IsCut.flatMap_halves {first last : K} {pieces : List (K × K)}
    (h : IsCut first last pieces) : IsCut first last (pieces.flatMap halves) := by
  induction pieces generalizing first with
  | nil => exact h
  | cons piece pieces ih =>
    obtain ⟨hfirst, hlt, htail⟩ := h
    have hleft : piece.1 < middle piece.1 piece.2 := by
      rw [middle_eq]
      exact left_lt_add_div_two.2 hlt
    have hright : middle piece.1 piece.2 < piece.2 := by
      rw [middle_eq]
      exact add_div_two_lt_right.2 hlt
    exact ⟨hfirst, hleft, rfl, hright, ih htail⟩

/-- The pieces of the logical interval lead from one of its ends to the other. -/
theorem isCut_bisected (level : ℕ) : IsCut (-1 : K) 1 (bisected level) := by
  induction level with
  | zero =>
    have hone : (Scalar.ofNat 1 : K) = 1 := by rw [Scalar.ofNat_eq, Nat.cast_one]
    rw [bisected, hone]
    exact ⟨rfl, neg_lt_self one_pos, rfl⟩
  | succ level ih => exact ih.flatMap_halves

end Halving

/-! ## Segments -/

namespace Segment

/-- A segment is found where it is, and nowhere else. -/
theorem ofIndex_eq_ok_iff {α : Type u} {level index : ℕ} {s : Segment} :
    (ofIndex level index : Except (DomainError α) Segment) = .ok s ↔
      s.level = level ∧ s.index = index := by
  constructor
  · intro h
    unfold ofIndex at h
    split_ifs at h
    cases h
    exact ⟨rfl, rfl⟩
  · rintro ⟨rfl, rfl⟩
    exact s.ofIndex_eq_ok

/-- The places that have a segment. -/
theorem exists_ofIndex_eq_ok_iff {α : Type u} {level index : ℕ} :
    (∃ s, (ofIndex level index : Except (DomainError α) Segment) = .ok s) ↔
      level < 64 ∧ index < 2 ^ level := by
  simp only [ofIndex_eq_ok_iff]
  constructor
  · rintro ⟨s, rfl, rfl⟩
    exact ⟨s.level_lt, s.index_lt⟩
  · rintro ⟨hlevel, hindex⟩
    exact ⟨⟨level, index, hlevel, hindex⟩, rfl, rfl⟩

/-- The segments of a level, from left to right. -/
def ofLevel (level : ℕ) (h : level < 64) : List Segment :=
  List.ofFn fun i : Fin (segmentCount level) => ⟨level, i, h, i.isLt⟩

theorem mem_ofLevel {level : ℕ} {h : level < 64} {s : Segment} :
    s ∈ ofLevel level h ↔ s.level = level := by
  rw [ofLevel, List.mem_ofFn]
  constructor
  · rintro ⟨i, rfl⟩
    rfl
  · rintro rfl
    exact ⟨⟨s.index, s.index_lt⟩, rfl⟩

/-- One of the two children of a segment, if there is a level below its own. -/
def child (s : Segment) (h : s.level < 63) (side : Fin 2) : Segment where
  level := s.level + 1
  index := s.index * 2 + side
  level_lt := Nat.succ_lt_succ h
  index_lt := by
    have hcount : segmentCount (s.level + 1) = segmentCount s.level * 2 := rfl
    have := s.index_lt
    omega

/-- Both ends of a segment. -/
def ends {α : Type u} [Scalar α] (s : Segment) : α × α := (s.lower, s.upper)

section Ends

variable {K : Type u} [ExactScalar K] [CharZero K]

/-- A division point is one of the next level too. -/
theorem division_mul_two (level place : ℕ) :
    (division (level + 1) (place * 2) : K) = division level place := by
  have hcount : segmentCount (level + 1) = segmentCount level * 2 := rfl
  simp only [division, Scalar.ofNat_eq, hcount]
  push_cast
  ring

/-- Between two neighbouring division points the next level has their midpoint. -/
theorem division_mul_two_add_one (level place : ℕ) :
    (division (level + 1) (place * 2 + 1) : K) =
      middle (division level place) (division level (place + 1)) := by
  have hcount : segmentCount (level + 1) = segmentCount level * 2 := rfl
  simp only [middle_eq, division, Scalar.ofNat_eq, hcount]
  push_cast
  ring

theorem division_injective (level : ℕ) : Function.Injective (division level : ℕ → K) := by
  intro i j h
  have hcount : (segmentCount level : K) ≠ 0 := Nat.cast_ne_zero.2 (Nat.two_pow_pos level).ne'
  simpa [division, div_left_inj' hcount] using h

/-- The left child begins where the segment does and ends in its middle. -/
theorem ends_child_zero (s : Segment) (h : s.level < 63) :
    (s.child h 0).ends = ((s.lower, middle s.lower s.upper) : K × K) :=
  Prod.ext (division_mul_two s.level s.index) (division_mul_two_add_one s.level s.index)

/-- The right child begins there and ends where the segment does. -/
theorem ends_child_one (s : Segment) (h : s.level < 63) :
    (s.child h 1).ends = ((middle s.lower s.upper, s.upper) : K × K) := by
  refine Prod.ext (division_mul_two_add_one s.level s.index) ?_
  calc ((s.child h 1).upper : K)
      = division (s.level + 1) (s.index * 2 + 1 + 1) := rfl
    _ = division (s.level + 1) ((s.index + 1) * 2) := by rw [Nat.succ_mul]
    _ = s.upper := division_mul_two s.level (s.index + 1)

/-- The children of a segment are its halves. -/
theorem ofFn_ends_child (s : Segment) (h : s.level < 63) :
    (List.ofFn fun side => (s.child h side).ends) = halves (s.ends : K × K) := by
  rw [List.ofFn_succ, List.ofFn_succ, List.ofFn_zero, ends_child_zero]
  exact congrArg (fun right => [_, right]) (ends_child_one s h)

/-- **The segments of the next level are the halves of those of this one**, in the same order. -/
theorem ends_ofLevel_succ {level : ℕ} (h : level + 1 < 64) :
    ((ofLevel (level + 1) h).map ends : List (K × K)) =
      ((ofLevel level (Nat.lt_of_succ_lt h)).map ends).flatMap halves := by
  rw [ofLevel, ofLevel, List.map_ofFn, List.map_ofFn, List.flatMap_def, List.map_ofFn]
  -- the places of a level in pairs, one pair for every place of the level above
  refine (List.ofFn_mul (m := segmentCount level) (n := 2) _).trans (congrArg List.flatten ?_)
  refine List.ofFn_inj.2 (funext fun i => ?_)
  exact ofFn_ends_child ⟨level, i, Nat.lt_of_succ_lt h, i.isLt⟩ (Nat.lt_of_succ_lt_succ h)

/-- The segments of a level are what halving makes of the logical interval. -/
theorem ends_ofLevel {level : ℕ} (h : level < 64) :
    ((ofLevel level h).map ends : List (K × K)) = bisected level := by
  induction level with
  | zero =>
    have hcount : segmentCount 0 = 1 := rfl
    have hupper : (-1 + 2 : K) = 1 := by ring
    simp [ofLevel, ends, lower, upper, division, bisected, hcount, hupper]
  | succ level ih => rw [ends_ofLevel_succ, ih, bisected]

/-- Of the segments of a level, no two have the same ends. -/
theorem eq_of_ends_eq {s t : Segment} (hlevel : s.level = t.level)
    (hends : (s.ends : K × K) = t.ends) : s = t := by
  obtain ⟨level, i, _, _⟩ := s
  obtain ⟨_, j, _, _⟩ := t
  obtain rfl : level = _ := hlevel
  obtain rfl : i = j := division_injective level (congrArg Prod.fst hends)
  rfl

end Ends

variable {K : Type u} [ExactScalar K] [LinearOrder K] [IsStrictOrderedRing K]

/-- Every number of the logical interval but for its right end is in one segment of a level. -/
theorem existsUnique_of_level {level : ℕ} (h : level < 64) {x : K} (hfirst : -1 ≤ x)
    (hlast : x < 1) : ∃! s : Segment, s.level = level ∧ s.lower ≤ x ∧ x < s.upper := by
  have hcut : IsCut (-1 : K) 1 ((ofLevel level h).map ends) := by
    rw [ends_ofLevel]
    exact isCut_bisected level
  obtain ⟨piece, ⟨hmem, hholds⟩, hunique⟩ := hcut.existsUnique hfirst hlast
  obtain ⟨s, hs, rfl⟩ := List.mem_map.1 hmem
  refine ⟨s, ⟨mem_ofLevel.1 hs, hholds⟩, ?_⟩
  rintro t ⟨ht, hholds'⟩
  have hmem' : (t.ends : K × K) ∈ (ofLevel level h).map ends :=
    List.mem_map_of_mem (mem_ofLevel.2 ht)
  exact eq_of_ends_eq (ht.trans (mem_ofLevel.1 hs).symm) (hunique t.ends ⟨hmem', hholds'⟩)

/-! ## The tree -/

/-- **The segments are the tree of halves of the logical interval.**

* Words suffice to find a segment and to say that there is none, for any level and any index, and
  they suffice for the ends of every segment that there is.  A level below 64 has the places below
  the power of two.
* Over an exact ordered field, a segment above the last level has its left half and its right half
  as the segments with twice its index and with the index behind that.
* The segments of a level are what repeated halving makes of the logical interval.  They lead from
  `-1` to `1`, and every number between is in one of them only. -/
theorem segments_bisect_interval :
    (∀ {α : Type u} [Scalar α] (level : UInt32) (index : UInt64),
      (SegmentWords.ofPlace? level index : Option (Except (DomainError α) SegmentWords)) =
        some ((ofIndex level.toNat index.toNat).map SegmentWords.ofSegment) ∧
      ((∃ s, (ofIndex level.toNat index.toNat : Except (DomainError α) Segment) = .ok s) ↔
        level.toNat < 64 ∧ index.toNat < 2 ^ level.toNat) ∧
      ∀ s, (ofIndex level.toNat index.toNat : Except (DomainError α) Segment) = .ok s →
        SegmentWords.ofSegment s = ⟨level, index⟩ ∧
        (SegmentWords.ofSegment s).ends? = some ((s.lower : α), s.upper)) ∧
    ∀ {K : Type v} [ExactScalar K] [LinearOrder K] [IsStrictOrderedRing K],
      (∀ s : Segment, s.level < 63 → ∃ left right,
        (ofIndex (s.level + 1) (2 * s.index) : Except (DomainError K) Segment) = .ok left ∧
        (ofIndex (s.level + 1) (2 * s.index + 1) : Except (DomainError K) Segment) = .ok right ∧
        left.ends = ((s.lower, (s.lower + s.upper) / 2) : K × K) ∧
        right.ends = (((s.lower + s.upper) / 2, s.upper) : K × K)) ∧
      ∀ (level : ℕ) (h : level < 64),
        ((ofLevel level h).map ends : List (K × K)) = bisected level ∧
        IsCut (-1 : K) 1 ((ofLevel level h).map ends) ∧
        ∀ x : K, -1 ≤ x → x < 1 → ∃! s : Segment, s.level = level ∧ s.lower ≤ x ∧ x < s.upper := by
  refine ⟨fun level index => ⟨SegmentWords.ofPlace?_eq level index, exists_ofIndex_eq_ok_iff, ?_⟩,
    fun {K} _ _ _ => ⟨fun s hs => ?_, fun level h => ⟨ends_ofLevel h, ?_, ?_⟩⟩⟩
  · intro s hs
    obtain ⟨hlevel, hindex⟩ := ofIndex_eq_ok_iff.1 hs
    refine ⟨?_, SegmentWords.ends?_ofSegment s⟩
    simp [SegmentWords.ofSegment, hlevel, hindex]
  · refine ⟨s.child hs 0, s.child hs 1, ?_, ?_, ?_, ?_⟩
    · exact ofIndex_eq_ok_iff.2 ⟨rfl, Nat.mul_comm s.index 2⟩
    · exact ofIndex_eq_ok_iff.2 ⟨rfl, congrArg (· + 1) (Nat.mul_comm s.index 2)⟩
    · rw [ends_child_zero, middle_eq]
    · rw [ends_child_one, middle_eq]
  · rw [ends_ofLevel]
    exact isCut_bisected level
  · exact fun x hfirst hlast => existsUnique_of_level h hfirst hlast

/-- The last segment of a level that has one more below it. -/
def lastAbove : Segment := ⟨62, 4611686018427387903, by decide, by decide⟩

/-- The last place of the last level, and the two ways to be behind it. -/
theorem segments_bisect_interval_last :
    (SegmentWords.ofPlace? 63 9223372036854775807 :
        Option (Except (DomainError ℚ) SegmentWords)) = some (.ok ⟨63, 9223372036854775807⟩) ∧
    (SegmentWords.mk 63 9223372036854775807).ends? = some ((1 - 1 / 2 ^ 62 : ℚ), 1) ∧
    (SegmentWords.ofPlace? 63 9223372036854775808 :
        Option (Except (DomainError ℚ) SegmentWords)) =
      some (.error (.noSegment 63 9223372036854775808)) ∧
    (SegmentWords.ofPlace? 64 0 : Option (Except (DomainError ℚ) SegmentWords)) =
      some (.error (.noSegment 64 0)) ∧
    lastAbove.level < 63 ∧ lastAbove.ends = ((1 - 1 / 2 ^ 61, 1) : ℚ × ℚ) ∧
    (∃ right, (ofIndex 63 9223372036854775807 : Except (DomainError ℚ) Segment) = .ok right ∧
      right.ends = ((1 - 1 / 2 ^ 62, 1) : ℚ × ℚ)) ∧
    ∃! s : Segment, s.level = 63 ∧ s.lower ≤ (1 / 3 : ℚ) ∧ 1 / 3 < (s.upper : ℚ) := by
  have hends : lastAbove.ends = ((1 - 1 / 2 ^ 61, 1) : ℚ × ℚ) := by
    have hcount : segmentCount 62 = 4611686018427387904 := rfl
    norm_num [lastAbove, ends, lower, upper, division, hcount]
  obtain ⟨hlower, hupper⟩ := Prod.mk.inj hends
  obtain ⟨hwords, hexact⟩ := @segments_bisect_interval.{0, 0}
  obtain ⟨hchildren, hlevels⟩ := hexact (K := ℚ)
  obtain ⟨-, right, -, hfound, -, hright⟩ := hchildren lastAbove (by decide)
  have hlast : right.ends = ((1 - 1 / 2 ^ 62, 1) : ℚ × ℚ) := by
    rw [hright, hlower, hupper]
    norm_num
  obtain ⟨hplace, -, hsegment⟩ := hwords (α := ℚ) 63 9223372036854775807
  obtain ⟨hofSegment, hvalue⟩ := hsegment right hfound
  refine ⟨?_, ?_, ?_, ?_, by decide, hends, ⟨right, hfound, hlast⟩, ?_⟩
  · rw [← hofSegment]
    exact hplace.trans (congrArg (fun found => some (found.map SegmentWords.ofSegment)) hfound)
  · rw [← hofSegment, hvalue]
    exact congrArg some hlast
  · exact (hwords (α := ℚ) 63 9223372036854775808).1
  · exact (hwords (α := ℚ) 64 0).1
  · exact (hlevels 63 (by decide)).2.2 (1 / 3) (by norm_num) (by norm_num)

end Segment

end Poisson
end PostRun
