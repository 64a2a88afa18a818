import Mathlib.Data.List.Induction
import Mathlib.Tactic.Ring
import PostRun.Proofs.Volume.Assembly

/-!
# The cells of an observation

The cells of an observation are indices into the points of all its elements.  The elements do not
know of each other: the cells of an element are numbered from its own first point, which is the
number of points before it.  So the cells fall apart into one block for each element
(`connectivity_ofElements`), and a block is the cells of the element alone, moved up
(`Extents.cellCorners_offset`).

## Bounds

A point of an element has an index below the number of its points (`Extents.point_zero_lt`), and the
corners of a cell are points because a cell lies strictly inside the extents.  Therefore a block
stays in the range of its element, and the ranges of two elements are disjoint
(`firstPoint_add_points_le`).

An index is stored in 32 bits with a sign.  Up to `indexLimit` points nothing of it is lost
(`Extents.storedIndex_of_lt`).
-/

namespace PostRun
namespace Volume

/-- The number of indices that can be stored: half of the numbers of 32 bits. -/
def indexLimit : Nat := 0x80000000

namespace Extents

/-! ## One element -/

/-- A small index is stored as it is. -/
theorem storedIndex_of_lt {n : Nat} (h : n < indexLimit) : storedIndex n = n := by
  unfold storedIndex
  unfold indexLimit at h
  exact Int.bmod_eq_of_le_mul_two (by omega) (by omega)

variable (e : Extents) (offset : Nat)

theorem point_offset (i j k : Nat) : e.point offset i j k = offset + e.point 0 i j k := by
  unfold point
  omega

theorem corners_offset (i j k : Nat) :
    e.corners offset i j k = (e.corners 0 i j k).map (offset + ·) := by
  simp only [corners, List.map_cons, List.map_nil, ← point_offset]

/-- The cells of an element are those of the element at the start, moved up. -/
theorem cellCorners_offset : e.cellCorners offset = (e.cellCorners 0).map (offset + ·) := by
  simp only [cellCorners, List.map_flatMap, ← corners_offset]

/-- The points of an element are numbered below their number. -/
theorem point_zero_lt {i j k : Nat} (hi : i < e.x) (hj : j < e.y) (hk : k < e.z) :
    e.point 0 i j k < e.points := by
  have hplane : j + e.y * k + 1 ≤ e.y * e.z := by
    calc j + e.y * k + 1 ≤ e.y * k + e.y := by omega
      _ = e.y * (k + 1) := (Nat.mul_succ _ _).symm
      _ ≤ e.y * e.z := Nat.mul_le_mul_left _ hk
  calc e.point 0 i j k = i + e.x * (j + e.y * k) := by simp [point]
    _ < e.x * (j + e.y * k) + e.x := by omega
    _ = e.x * (j + e.y * k + 1) := (Nat.mul_succ _ _).symm
    _ ≤ e.x * (e.y * e.z) := Nat.mul_le_mul_left _ hplane
    _ = e.points := (Nat.mul_assoc _ _ _).symm

/-- The steps from the first corner of a cell to all of them: the bottom face, then the top face. -/
def cornerSteps : List (Nat × Nat × Nat) :=
  [(0, 0, 0), (1, 0, 0), (1, 1, 0), (0, 1, 0), (0, 0, 1), (1, 0, 1), (1, 1, 1), (0, 1, 1)]

theorem corners_eq_map (e : Extents) (offset i j k : Nat) :
    e.corners offset i j k =
      cornerSteps.map fun s => e.point offset (i + s.1) (j + s.2.1) (k + s.2.2) := rfl

theorem le_one_of_mem_cornerSteps {s : Nat × Nat × Nat} (h : s ∈ cornerSteps) :
    s.1 ≤ 1 ∧ s.2.1 ≤ 1 ∧ s.2.2 ≤ 1 := by
  have hall : ∀ s ∈ cornerSteps, s.1 ≤ 1 ∧ s.2.1 ≤ 1 ∧ s.2.2 ≤ 1 := by decide
  exact hall s h

/-- The corners of a cell are points of the element. -/
theorem lt_points_of_mem_corners {i j k n : Nat} (hi : i + 1 < e.x) (hj : j + 1 < e.y)
    (hk : k + 1 < e.z) (hn : n ∈ e.corners 0 i j k) : n < e.points := by
  rw [corners_eq_map] at hn
  obtain ⟨s, hs, rfl⟩ := List.mem_map.1 hn
  obtain ⟨hx, hy, hz⟩ := le_one_of_mem_cornerSteps hs
  exact e.point_zero_lt (by omega) (by omega) (by omega)

/-- All cells of an element join points of the element. -/
theorem lt_points_of_mem_cellCorners {n : Nat} (hn : n ∈ e.cellCorners 0) : n < e.points := by
  simp only [cellCorners, List.mem_flatMap, List.mem_range] at hn
  obtain ⟨k, hk, j, hj, i, hi, hn⟩ := hn
  exact e.lt_points_of_mem_corners (by omega) (by omega) (by omega) hn

/-- A list of runs of one length. -/
theorem length_flatMap_range {β : Type v} {f : Nat → List β} {m : Nat}
    (h : ∀ i, (f i).length = m) (n : Nat) : ((List.range n).flatMap f).length = n * m := by
  induction n with
  | zero => simp
  | succ n ih =>
    rw [List.range_succ, List.flatMap_append, List.length_append, ih, List.flatMap_singleton, h,
      Nat.succ_mul]

theorem length_cellRow (j k : Nat) :
    ((List.range (e.x - 1)).flatMap fun i => e.corners offset i j k).length = (e.x - 1) * 8 :=
  length_flatMap_range (f := fun i => e.corners offset i j k) (fun _ => rfl) _

theorem length_cellPlane (k : Nat) :
    ((List.range (e.y - 1)).flatMap fun j =>
      (List.range (e.x - 1)).flatMap fun i => e.corners offset i j k).length =
      (e.y - 1) * ((e.x - 1) * 8) :=
  length_flatMap_range (fun j => e.length_cellRow offset j k) _

/-- A cell has eight corners. -/
theorem length_cellCorners : (e.cellCorners offset).length = 8 * e.cells := by
  rw [cellCorners, length_flatMap_range (e.length_cellPlane offset), cells]
  ring

theorem length_connectivity : (e.connectivity offset).length = 8 * e.cells := by
  rw [connectivity, List.length_map, length_cellCorners]

variable {e offset}

/-- The stored cells of an element, as long as the indices fit. -/
theorem connectivity_eq_map (h : offset + e.points ≤ indexLimit) :
    e.connectivity offset = (e.cellCorners 0).map fun n => ((offset + n : Nat) : Int) := by
  rw [connectivity, cellCorners_offset, List.map_map]
  refine List.map_congr_left fun n hn => ?_
  have hn' := e.lt_points_of_mem_cellCorners hn
  have hlt : offset + n < indexLimit := by omega
  rw [Function.comp_apply, storedIndex_of_lt hlt]

/-- The stored cells of an element are those of the element at the start, moved up. -/
theorem connectivity_offset (h : offset + e.points ≤ indexLimit) :
    e.connectivity offset = (e.connectivity 0).map ((offset : Int) + ·) := by
  have hzero : 0 + e.points ≤ indexLimit := by omega
  rw [connectivity_eq_map h, connectivity_eq_map hzero, List.map_map]
  refine List.map_congr_left fun n _ => ?_
  simp

/-- The stored cells of an element stay in its range. -/
theorem mem_range_of_mem_connectivity (h : offset + e.points ≤ indexLimit) {n : Int}
    (hn : n ∈ e.connectivity offset) : (offset : Int) ≤ n ∧ n < offset + e.points := by
  rw [connectivity_eq_map h] at hn
  obtain ⟨m, hm, rfl⟩ := List.mem_map.1 hn
  have := e.lt_points_of_mem_cellCorners hm
  omega

end Extents

/-! ## All elements -/

variable {α : Type u}

/-- The index of the first point of the element at a place: the number of points before it. -/
def firstPoint (elements : List (ElementData α)) (i : Nat) : Nat :=
  total ((elements.take i).map (·.extents.points))

theorem firstPoint_append {elements : List (ElementData α)} {i : Nat} (h : i ≤ elements.length)
    (more : List (ElementData α)) : firstPoint (elements ++ more) i = firstPoint elements i := by
  rw [firstPoint, firstPoint, List.take_append_of_le_length h]

theorem firstPoint_succ {elements : List (ElementData α)} {i : Nat} {e : ElementData α}
    (he : elements[i]? = some e) :
    firstPoint elements (i + 1) = firstPoint elements i + e.extents.points := by
  rw [firstPoint, firstPoint, List.take_add_one, he]
  simp

theorem firstPoint_mono (elements : List (ElementData α)) {i j : Nat} (h : i ≤ j) :
    firstPoint elements i ≤ firstPoint elements j := by
  have htake := List.take_append_drop i (elements.take j)
  rw [List.take_take, Nat.min_eq_left h] at htake
  rw [firstPoint, firstPoint, ← htake, List.map_append, total_append]
  exact Nat.le_add_right _ _

/-- The range of an element lies before that of every later one. -/
theorem firstPoint_add_points_le {elements : List (ElementData α)} {i j : Nat} {e : ElementData α}
    (he : elements[i]? = some e) (h : i < j) :
    firstPoint elements i + e.extents.points ≤ firstPoint elements j := by
  rw [← firstPoint_succ he]
  exact firstPoint_mono elements h

theorem firstPoint_add_points_le_total {elements : List (ElementData α)} {i : Nat}
    {e : ElementData α} (he : elements[i]? = some e) :
    firstPoint elements i + e.extents.points ≤ total (elements.map (·.extents.points)) := by
  have hi : i < elements.length := (List.getElem?_eq_some_iff.1 he).1
  have hle := firstPoint_add_points_le he hi
  rwa [firstPoint, firstPoint, List.take_length] at hle

namespace ObservationData

/-- The cells of each element. -/
def cellBlocks (elements : List (ElementData α)) : List (List Int) :=
  elements.mapIdx fun i e => e.extents.connectivity (firstPoint elements i)

/-- **The cells are those of the elements**, each numbered from its first point. -/
theorem connectivity_ofElements (value : α) (elements : List (ElementData α)) :
    (ofElements value elements).connectivity = (cellBlocks elements).flatten := by
  induction elements using List.reverseRecOn with
  | nil => rfl
  | append_singleton elements e ih =>
    have hbefore : elements.mapIdx (fun i e' =>
        e'.extents.connectivity (firstPoint (elements ++ [e]) i)) = cellBlocks elements := by
      refine List.mapIdx_eq_mapIdx_iff.2 fun i hi => ?_
      rw [firstPoint_append hi.le]
    have hlast : firstPoint (elements ++ [e]) elements.length =
        (ofElements value elements).pointCount := by
      rw [firstPoint_append le_rfl, firstPoint, List.take_length, pointCount_ofElements]
    rw [ofElements_append_singleton, connectivity_add, ih, ← hbefore, ← hlast, cellBlocks,
      List.mapIdx_concat, List.flatten_concat]

/-- Every cell of every element has eight corners, whatever the number of points. -/
theorem length_connectivity_ofElements (value : α) (elements : List (ElementData α)) :
    (ofElements value elements).connectivity.length =
      8 * total (elements.map (·.extents.cells)) := by
  induction elements using List.reverseRecOn with
  | nil => rfl
  | append_singleton elements e ih =>
    rw [ofElements_append_singleton, connectivity_add, List.length_append, ih,
      Extents.length_connectivity, List.map_append, total_append, Nat.mul_add]
    rfl

/-- A run of eight in blocks whose lengths are multiples of eight lies in one block. -/
theorem exists_mem_of_take_drop_flatten {β : Type v} {blocks : List (List β)}
    (h : ∀ block ∈ blocks, 8 ∣ block.length) {cell : Nat}
    (hcell : 8 * cell < blocks.flatten.length) :
    ∃ block ∈ blocks, ∀ n ∈ (blocks.flatten.drop (8 * cell)).take 8, n ∈ block := by
  induction blocks generalizing cell with
  | nil => simp at hcell
  | cons block blocks ih =>
    obtain ⟨⟨cells, hcells⟩, hrest⟩ := List.forall_mem_cons.1 h
    rw [List.flatten_cons] at hcell ⊢
    by_cases hin : cell < cells
    · refine ⟨block, List.mem_cons_self, fun n hn => ?_⟩
      rw [List.drop_append_of_le_length (by omega), List.take_append_of_le_length
        (by rw [List.length_drop]; omega)] at hn
      exact List.mem_of_mem_drop (List.mem_of_mem_take hn)
    · have hskip : 8 * cell = block.length + 8 * (cell - cells) := by omega
      rw [List.length_append] at hcell
      have hbehind : 8 * (cell - cells) < blocks.flatten.length := by omega
      obtain ⟨found, hfound, hmem⟩ := ih hrest hbehind
      refine ⟨found, List.mem_cons_of_mem _ hfound, ?_⟩
      rw [hskip, List.drop_append, List.drop_eq_nil_of_le (Nat.le_add_right _ _), List.nil_append,
        Nat.add_sub_cancel_left]
      exact hmem

/-- **The mesh of an observation stays valid**, however many elements are appended, as long as the
indices of its points can be stored.  The cells are blocks, one for each element in order.  A block
has eight entries for each cell of its element, it is the cells of the element alone with the number
of points before it added, and it stays in the range of the points of the element.  These ranges
follow one another.  So every index is that of a point, and the eight corners of a cell are points
of one element. -/
theorem connectivity_blocks (value : α) (elements : List (ElementData α))
    (h : (ofElements value elements).pointCount ≤ indexLimit) :
    (∃ blocks : List (List Int),
      (ofElements value elements).connectivity = blocks.flatten ∧
      blocks.length = elements.length ∧
      ∀ (i : Nat) (e : ElementData α), elements[i]? = some e → ∃ block, blocks[i]? = some block ∧
        block.length = 8 * ((e.extents.x - 1) * (e.extents.y - 1) * (e.extents.z - 1)) ∧
        block = (e.extents.connectivity 0).map ((firstPoint elements i : Int) + ·) ∧
        ∀ n ∈ block, (firstPoint elements i : Int) ≤ n ∧
          n < firstPoint elements i + e.extents.points) ∧
    (∀ (i j : Nat) (e : ElementData α), elements[i]? = some e → i < j →
      firstPoint elements i + e.extents.points ≤ firstPoint elements j) ∧
    (∀ n ∈ (ofElements value elements).connectivity,
      0 ≤ n ∧ n < (ofElements value elements).pointCount) ∧
    8 ∣ (ofElements value elements).connectivity.length ∧
    ∀ cell : Nat, 8 * cell < (ofElements value elements).connectivity.length →
      ∃ (i : Nat) (e : ElementData α), elements[i]? = some e ∧
        ∀ n ∈ ((ofElements value elements).connectivity.drop (8 * cell)).take 8,
          (firstPoint elements i : Int) ≤ n ∧ n < firstPoint elements i + e.extents.points := by
  have hpoints := pointCount_ofElements value elements
  have hfits : ∀ (i : Nat) (e : ElementData α), elements[i]? = some e →
      firstPoint elements i + e.extents.points ≤ indexLimit := by
    intro i e he
    have := firstPoint_add_points_le_total he
    omega
  have hblock : ∀ block ∈ cellBlocks elements, ∃ (i : Nat) (e : ElementData α),
      elements[i]? = some e ∧ block = e.extents.connectivity (firstPoint elements i) := by
    intro block hmem
    obtain ⟨i, hi, rfl⟩ := List.mem_mapIdx.1 hmem
    exact ⟨i, elements[i], List.getElem?_eq_getElem hi, rfl⟩
  have hdvd : ∀ block ∈ cellBlocks elements, 8 ∣ block.length := by
    intro block hmem
    obtain ⟨i, e, -, rfl⟩ := hblock block hmem
    exact ⟨_, Extents.length_connectivity _ _⟩
  rw [connectivity_ofElements]
  refine ⟨⟨cellBlocks elements, rfl, List.length_mapIdx, fun i e he => ?_⟩,
    fun i j e he hij => firstPoint_add_points_le he hij, fun n hn => ?_, ?_, fun cell hcell => ?_⟩
  · refine ⟨e.extents.connectivity (firstPoint elements i), ?_, Extents.length_connectivity _ _,
      Extents.connectivity_offset (hfits i e he),
      fun n hn => Extents.mem_range_of_mem_connectivity (hfits i e he) hn⟩
    rw [cellBlocks, List.getElem?_mapIdx, he, Option.map_some]
  · obtain ⟨block, hmem, hn⟩ := List.mem_flatten.1 hn
    obtain ⟨i, e, he, rfl⟩ := hblock block hmem
    have hrange := Extents.mem_range_of_mem_connectivity (hfits i e he) hn
    have hlast := firstPoint_add_points_le_total he
    omega
  · rw [← connectivity_ofElements value, length_connectivity_ofElements]
    exact Nat.dvd_mul_right _ _
  · obtain ⟨block, hmem, hrun⟩ := exists_mem_of_take_drop_flatten hdvd hcell
    obtain ⟨i, e, he, rfl⟩ := hblock block hmem
    exact ⟨i, e, he, fun n hn =>
      Extents.mem_range_of_mem_connectivity (hfits i e he) (hrun n hn)⟩

/-- The third of three elements, behind one that has no cells. -/
theorem connectivity_blocks_three :
    (ofElements () [⟨"A", ⟨2, 2, 2⟩, []⟩, ⟨"B", ⟨3, 1, 2⟩, []⟩, ⟨"C", ⟨2, 2, 2⟩, []⟩]).pointCount ≤
      indexLimit ∧
    ∃ blocks : List (List Int),
      (ofElements () [⟨"A", ⟨2, 2, 2⟩, []⟩, ⟨"B", ⟨3, 1, 2⟩, []⟩,
        ⟨"C", ⟨2, 2, 2⟩, []⟩]).connectivity = blocks.flatten ∧
      blocks[1]? = some [] ∧ blocks[2]? = some [14, 15, 17, 16, 18, 19, 21, 20] := by
  have hlimit : (ofElements () [⟨"A", ⟨2, 2, 2⟩, []⟩, ⟨"B", ⟨3, 1, 2⟩, []⟩,
      ⟨"C", ⟨2, 2, 2⟩, []⟩]).pointCount ≤ indexLimit := by decide
  obtain ⟨⟨blocks, hflatten, -, hblocks⟩, -⟩ := connectivity_blocks _ _ hlimit
  obtain ⟨second, hsecond, -, hempty, -⟩ := hblocks 1 _ rfl
  obtain ⟨third, hthird, -, hcells, -⟩ := hblocks 2 _ rfl
  refine ⟨hlimit, blocks, hflatten, ?_, ?_⟩
  · rw [hsecond, hempty]
    decide
  · rw [hthird, hcells]
    decide

end ObservationData
end Volume
end PostRun
