import Mathlib.Data.List.Nodup
import PostRun.Proofs.Volume.Cells

/-!
# Which cell stands where

The cells of an element are listed in three nested runs, and the list is flat: eight indices for
each cell.  Here the runs are taken apart again.  The cell at the place `(i, j, k)` is the octet
with the number `i + (x - 1) * (j + (y - 1) * k)`, where `x`, `y`, `z` are the numbers of points
(`octet_cellCorners`).

Two systems of numbers with mixed radices meet in this.  Points are counted with the radices
`x`, `y`, and cells with the radices `x - 1`, `y - 1`.  Both are the same function, `point`, at
different extents, so it is enough to know that function well:

* `point_injective`: below the radices, the number tells the place;
* `exists_point_eq`: every number below the product is that of a place.

With them the corners of a cell are distinct (`nodup_corners`).  A cell is known by the set of its
corners, because the corner that it begins with has the least number (`eq_of_mem_corners_iff`).  And
every point is a corner, since along each axis a cell begins at the point or at the one before it
(`exists_mem_corners`).
-/

namespace PostRun
namespace Volume
namespace Extents

/-! ## Numbers with mixed radices -/

/-- A number is known by its remainder and its quotient. -/
theorem eq_of_add_mul_eq {m a b c d : Nat} (ha : a < m) (hc : c < m)
    (h : a + m * b = c + m * d) : a = c ∧ b = d := by
  have hmod := congrArg (· % m) h
  simp only [Nat.add_mul_mod_self_left, Nat.mod_eq_of_lt ha, Nat.mod_eq_of_lt hc] at hmod
  subst hmod
  exact ⟨rfl, Nat.eq_of_mul_eq_mul_left (by omega) (Nat.add_left_cancel h)⟩

variable {e : Extents} {offset i j k i' j' k' n : Nat}

/-- The number of a point tells its place. -/
theorem point_injective (hi : i < e.x) (hi' : i' < e.x) (hj : j < e.y) (hj' : j' < e.y)
    (h : e.point offset i j k = e.point offset i' j' k') : i = i' ∧ j = j' ∧ k = k' := by
  rw [point, point, Nat.add_assoc, Nat.add_assoc] at h
  obtain ⟨hfirst, hrest⟩ := eq_of_add_mul_eq hi hi' (Nat.add_left_cancel h)
  exact ⟨hfirst, eq_of_add_mul_eq hj hj' hrest⟩

/-- Every number below the number of points is that of a point. -/
theorem exists_point_eq (h : n < e.points) :
    ∃ i j k, i < e.x ∧ j < e.y ∧ k < e.z ∧ e.point 0 i j k = n := by
  rw [points, Nat.mul_assoc] at h
  have hx : 0 < e.x := Nat.pos_of_ne_zero fun hzero => by simp [hzero] at h
  have hrow : n / e.x < e.y * e.z := Nat.div_lt_of_lt_mul h
  have hy : 0 < e.y := Nat.pos_of_ne_zero fun hzero => by simp [hzero] at hrow
  refine ⟨n % e.x, n / e.x % e.y, n / e.x / e.y, Nat.mod_lt _ hx, Nat.mod_lt _ hy,
    Nat.div_lt_of_lt_mul hrow, ?_⟩
  rw [point, Nat.zero_add, Nat.mod_add_div, Nat.mod_add_div]

/-- Every number below the number of cells is that of a cell: cells are counted as points are, with
one less along each axis. -/
theorem exists_cell_eq (h : n < e.cells) :
    ∃ i j k, i < e.x - 1 ∧ j < e.y - 1 ∧ k < e.z - 1 ∧
      i + (e.x - 1) * (j + (e.y - 1) * k) = n := by
  obtain ⟨i, j, k, hi, hj, hk, hn⟩ := exists_point_eq (e := ⟨e.x - 1, e.y - 1, e.z - 1⟩) h
  rw [point, Nat.zero_add] at hn
  exact ⟨i, j, k, hi, hj, hk, hn⟩

/-! ## The corners of a cell -/

theorem mem_cornerSteps {a b c : Nat} (ha : a < 2) (hb : b < 2) (hc : c < 2) :
    (a, b, c) ∈ cornerSteps := by
  have hall : ∀ a b c : Fin 2, ((a : Nat), (b : Nat), (c : Nat)) ∈ cornerSteps := by decide
  exact hall ⟨a, ha⟩ ⟨b, hb⟩ ⟨c, hc⟩

/-- The corners of a cell are distinct. -/
theorem nodup_corners (hi : i + 1 < e.x) (hj : j + 1 < e.y) : (e.corners offset i j k).Nodup := by
  rw [corners_eq_map]
  refine (List.nodup_map_iff_inj_on (by decide : cornerSteps.Nodup)).2 fun s hs t ht h => ?_
  obtain ⟨hs1, hs2, -⟩ := le_one_of_mem_cornerSteps hs
  obtain ⟨ht1, ht2, -⟩ := le_one_of_mem_cornerSteps ht
  obtain ⟨h1, h2, h3⟩ := point_injective (by omega) (by omega) (by omega) (by omega) h
  ext <;> omega

/-- The first corner of a cell has the least number. -/
theorem point_le_of_mem_corners (hn : n ∈ e.corners offset i j k) : e.point offset i j k ≤ n := by
  rw [corners_eq_map] at hn
  obtain ⟨s, -, rfl⟩ := List.mem_map.1 hn
  refine Nat.add_le_add (by omega) (Nat.mul_le_mul_left _ (Nat.add_le_add (by omega) ?_))
  exact Nat.mul_le_mul_left _ (by omega)

/-- Cells with the same corners are the same, since they have the same least corner. -/
theorem eq_of_mem_corners_iff (hi : i < e.x) (hi' : i' < e.x) (hj : j < e.y) (hj' : j' < e.y)
    (h : ∀ p, p ∈ e.corners offset i j k ↔ p ∈ e.corners offset i' j' k') :
    i = i' ∧ j = j' ∧ k = k' := by
  have hle : e.point offset i' j' k' ≤ e.point offset i j k :=
    point_le_of_mem_corners ((h _).1 List.mem_cons_self)
  have hge : e.point offset i j k ≤ e.point offset i' j' k' :=
    point_le_of_mem_corners ((h _).2 List.mem_cons_self)
  exact point_injective hi hi' hj hj' (Nat.le_antisymm hge hle)

/-- Every point is a corner of some cell, if there are two points along each axis. -/
theorem exists_mem_corners (hi : i < e.x) (hj : j < e.y) (hk : k < e.z) (hx : 2 ≤ e.x)
    (hy : 2 ≤ e.y) (hz : 2 ≤ e.z) :
    ∃ i' j' k', i' < e.x - 1 ∧ j' < e.y - 1 ∧ k' < e.z - 1 ∧
      e.point offset i j k ∈ e.corners offset i' j' k' := by
  -- Along each axis a cell begins at the point or, for the last one, at the point before it.
  have hstep : ∀ {p count : Nat}, p < count → 2 ≤ count →
      ∃ first step, first < count - 1 ∧ step < 2 ∧ p = first + step := by
    intro p count hp hcount
    by_cases hlast : p = count - 1
    · exact ⟨p - 1, 1, by omega, by omega, by omega⟩
    · exact ⟨p, 0, by omega, by omega, rfl⟩
  obtain ⟨i', a, hi', ha, rfl⟩ := hstep hi hx
  obtain ⟨j', b, hj', hb, rfl⟩ := hstep hj hy
  obtain ⟨k', c, hk', hc, rfl⟩ := hstep hk hz
  refine ⟨i', j', k', hi', hj', hk', ?_⟩
  rw [corners_eq_map]
  exact List.mem_map.2 ⟨(a, b, c), mem_cornerSteps ha hb hc, rfl⟩

/-- Then the cells join all points. -/
theorem mem_cellCorners_iff (hx : 2 ≤ e.x) (hy : 2 ≤ e.y) (hz : 2 ≤ e.z) :
    n ∈ e.cellCorners 0 ↔ n < e.points := by
  refine ⟨e.lt_points_of_mem_cellCorners, fun hn => ?_⟩
  obtain ⟨i, j, k, hi, hj, hk, rfl⟩ := exists_point_eq hn
  obtain ⟨i', j', k', hi', hj', hk', hmem⟩ := exists_mem_corners hi hj hk hx hy hz
  simp only [cellCorners, List.mem_flatMap, List.mem_range]
  exact ⟨k', hk', j', hj', i', hi', hmem⟩

/-! ## Octets -/

/-- The eight entries that stand behind so many octets. -/
def octet {β : Type v} (l : List β) (n : Nat) : List β := (l.drop (8 * n)).take 8

theorem octet_map {β : Type v} {γ : Type w} (f : β → γ) (l : List β) (n : Nat) :
    octet (l.map f) n = (octet l n).map f := by
  rw [octet, octet, List.map_take, List.map_drop]

/-- A run of entries inside one of several blocks of one length. -/
theorem take_drop_flatMap_range {β : Type v} {f : Nat → List β} {m : Nat}
    (h : ∀ i, (f i).length = m) {i n : Nat} (hi : i < n) {r w : Nat} (hr : r + w ≤ m) :
    (((List.range n).flatMap f).drop (m * i + r)).take w = ((f i).drop r).take w := by
  obtain ⟨l, rfl⟩ := Nat.exists_eq_add_of_lt hi
  have hbefore : ((List.range i).flatMap f).length = m * i := by
    rw [length_flatMap_range h, Nat.mul_comm]
  rw [Nat.add_assoc, List.range_add, List.flatMap_append, List.range_succ_eq_map, List.map_cons,
    List.flatMap_cons, Nat.add_zero, List.drop_append, hbefore, Nat.add_sub_cancel_left,
    List.drop_eq_nil_of_le (by omega), List.nil_append,
    List.drop_append_of_le_length (by rw [h]; omega),
    List.take_append_of_le_length (by rw [List.length_drop, h]; omega)]

/-- **The octet of a cell** holds its corners: the plane is found first, then the row in the plane,
then the cell in the row. -/
theorem octet_cellCorners (hi : i < e.x - 1) (hj : j < e.y - 1) (hk : k < e.z - 1) :
    octet (e.cellCorners offset) (i + (e.x - 1) * (j + (e.y - 1) * k)) =
      e.corners offset i j k := by
  have hplace : 8 * (i + (e.x - 1) * (j + (e.y - 1) * k)) =
      (e.y - 1) * ((e.x - 1) * 8) * k + ((e.x - 1) * 8 * j + (8 * i + 0)) := by ring
  have hrow : 8 * i + 0 + 8 ≤ (e.x - 1) * 8 := by omega
  have hplane : (e.x - 1) * 8 * j + (8 * i + 0) + 8 ≤ (e.y - 1) * ((e.x - 1) * 8) := by
    calc (e.x - 1) * 8 * j + (8 * i + 0) + 8 ≤ (e.x - 1) * 8 * j + (e.x - 1) * 8 := by omega
      _ = (j + 1) * ((e.x - 1) * 8) := by ring
      _ ≤ (e.y - 1) * ((e.x - 1) * 8) := Nat.mul_le_mul_right _ hj
  rw [octet, cellCorners, hplace, take_drop_flatMap_range (e.length_cellPlane offset) hk hplane,
    take_drop_flatMap_range (fun j => e.length_cellRow offset j k) hj hrow,
    take_drop_flatMap_range (f := fun i => e.corners offset i j k) (fun _ => rfl) hi (by decide)]
  rfl

/-- The stored cells are the cells, as long as the indices fit. -/
theorem connectivity_eq_map_cellCorners (h : offset + e.points ≤ indexLimit) :
    e.connectivity offset = (e.cellCorners offset).map fun n : Nat => (n : Int) := by
  rw [connectivity_eq_map h, e.cellCorners_offset offset, List.map_map]
  rfl

/-- The octet of a cell as it is stored. -/
theorem octet_connectivity (h : offset + e.points ≤ indexLimit) (hi : i < e.x - 1)
    (hj : j < e.y - 1) (hk : k < e.z - 1) :
    octet (e.connectivity offset) (i + (e.x - 1) * (j + (e.y - 1) * k)) =
      (e.corners offset i j k).map fun n : Nat => (n : Int) := by
  rw [connectivity_eq_map_cellCorners h, octet_map, octet_cellCorners hi hj hk]

/-- **The connectivity of an element enumerates its cells.**  It has an octet for each cell.  The
cell at a place has the octet with its number, in which the corners are listed: the four of the
bottom face around that face, then the four above them.  The corners of a cell are distinct, no two
cells have the same ones, and if there are two points along each axis, the indices that occur are
those of the points. -/
theorem connectivity_enumerates_cells (e : Extents) (offset : Nat)
    (h : offset + e.points ≤ indexLimit) :
    (e.connectivity offset).length = 8 * ((e.x - 1) * (e.y - 1) * (e.z - 1)) ∧
    (∀ i j k, i < e.x - 1 → j < e.y - 1 → k < e.z - 1 →
      octet (e.connectivity offset) (i + (e.x - 1) * (j + (e.y - 1) * k)) =
        [(e.point offset i j k : Int), e.point offset (i + 1) j k,
          e.point offset (i + 1) (j + 1) k, e.point offset i (j + 1) k,
          e.point offset i j (k + 1), e.point offset (i + 1) j (k + 1),
          e.point offset (i + 1) (j + 1) (k + 1), e.point offset i (j + 1) (k + 1)]) ∧
    (∀ n < e.cells, (octet (e.connectivity offset) n).Nodup) ∧
    (∀ m n, m < e.cells → n < e.cells → m ≠ n →
      ¬ ∀ p, p ∈ octet (e.connectivity offset) m ↔ p ∈ octet (e.connectivity offset) n) ∧
    (2 ≤ e.x → 2 ≤ e.y → 2 ≤ e.z → ∀ p : Int,
      p ∈ e.connectivity offset ↔ (offset : Int) ≤ p ∧ p < offset + e.points) := by
  refine ⟨length_connectivity e offset, fun i j k => octet_connectivity h, fun n hn => ?_,
    fun m n hm hn hne hsame => ?_, fun hx hy hz p => ?_⟩
  · obtain ⟨i, j, k, hi, hj, hk, rfl⟩ := exists_cell_eq hn
    rw [octet_connectivity h hi hj hk]
    exact (nodup_corners (by omega) (by omega)).map Int.ofNat_injective
  · obtain ⟨i, j, k, hi, hj, hk, rfl⟩ := exists_cell_eq hm
    obtain ⟨i', j', k', hi', hj', hk', rfl⟩ := exists_cell_eq hn
    rw [octet_connectivity h hi hj hk, octet_connectivity h hi' hj' hk'] at hsame
    have hcorners : ∀ p, p ∈ e.corners offset i j k ↔ p ∈ e.corners offset i' j' k' := by
      intro p
      simpa using hsame p
    obtain ⟨rfl, rfl, rfl⟩ :=
      eq_of_mem_corners_iff (by omega) (by omega) (by omega) (by omega) hcorners
    exact hne rfl
  · refine ⟨mem_range_of_mem_connectivity h, fun ⟨hlow, hhigh⟩ => ?_⟩
    obtain ⟨n, rfl⟩ := Int.eq_ofNat_of_zero_le ((Int.natCast_nonneg offset).trans hlow)
    have hn : n - offset ∈ e.cellCorners 0 := (mem_cellCorners_iff hx hy hz).2 (by omega)
    rw [connectivity_eq_map h]
    exact List.mem_map.2 ⟨n - offset, hn, by omega⟩

/-- An element of two cells, one beside the other, behind five points. -/
theorem connectivity_enumerates_cells_uneven :
    5 + (⟨3, 2, 2⟩ : Extents).points ≤ indexLimit ∧
    octet ((⟨3, 2, 2⟩ : Extents).connectivity 5) 1 = [6, 7, 10, 9, 12, 13, 16, 15] ∧
    ∀ p : Int, p ∈ (⟨3, 2, 2⟩ : Extents).connectivity 5 ↔ 5 ≤ p ∧ p < 17 := by
  have hlimit : 5 + (⟨3, 2, 2⟩ : Extents).points ≤ indexLimit := by decide
  obtain ⟨-, hoctet, -, -, hall⟩ := connectivity_enumerates_cells ⟨3, 2, 2⟩ 5 hlimit
  exact ⟨hlimit, hoctet 1 0 0 (by decide) (by decide) (by decide),
    hall (by decide) (by decide) (by decide)⟩

end Extents
end Volume
end PostRun
