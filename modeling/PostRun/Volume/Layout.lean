import PostRun.Text.Pieces

/-!
# Layout of an observation

The datasets of an observation hold the data of all its elements back to back.
Which element owns which part is kept in three bookkeeping datasets: the extents
of every element, the names of the elements in one run of text, and the cells as
indices of points.

## Names and cells

Every element name is followed by a colon, so a name without a colon survives
joining and splitting.  The points of an element are numbered with the first
axis fastest, and a cell lists its bottom face and then its top face, both
counter-clockwise.
-/

namespace PostRun
namespace Volume

/-- The group that holds the observations of a file. -/
def groupName : String := "element_data.vol"

/-- The dataset of the cells. -/
def connectivityName : String := "connectivity"

/-- The dataset of the extents. -/
def extentsName : String := "total_extents"

/-- The dataset of the element names. -/
def gridNamesName : String := "grid_names"

/-- The datasets of the coordinates, in the order of the axes. -/
def coordinateNames : List String :=
  ["InertialCoordinates_x", "InertialCoordinates_y", "InertialCoordinates_z"]

/-- Whether a dataset belongs to the mesh and is no tensor component. -/
def isBookkeeping (name : String) : Bool :=
  coordinateNames.contains name || name == connectivityName || name == extentsName ||
    name == gridNamesName

/-- The character behind every element name. -/
def nameEnd : Char := ':'

/-- The element names in a run of text; what follows the last colon is no name. -/
def splitGridNames (raw : String) : List String :=
  ((Text.pieces nameEnd raw.toList).dropLast).map String.ofList

/-- The element names as one run of text. -/
def joinGridNames (names : List String) : String :=
  String.ofList (names.flatMap fun name => name.toList ++ [nameEnd])

/-- The number of points along each axis of an element. -/
structure Extents where
  x : Nat
  y : Nat
  z : Nat
  deriving DecidableEq

namespace Extents

/-- The extents in the order of the axes. -/
def toList (e : Extents) : List Nat := [e.x, e.y, e.z]

/-- The number of points of an element. -/
def points (e : Extents) : Nat := e.x * e.y * e.z

/-- The number of cells of an element. -/
def cells (e : Extents) : Nat := (e.x - 1) * (e.y - 1) * (e.z - 1)

/-- The index of a point among all points, when the element's first one has index `offset`. -/
def point (e : Extents) (offset i j k : Nat) : Nat := offset + i + e.x * (j + e.y * k)

/-- The corners of a cell: bottom face, then top face. -/
def corners (e : Extents) (offset i j k : Nat) : List Nat :=
  [e.point offset i j k, e.point offset (i + 1) j k, e.point offset (i + 1) (j + 1) k,
    e.point offset i (j + 1) k, e.point offset i j (k + 1), e.point offset (i + 1) j (k + 1),
    e.point offset (i + 1) (j + 1) (k + 1), e.point offset i (j + 1) (k + 1)]

/-- The corners of all cells, the first axis fastest. -/
def cellCorners (e : Extents) (offset : Nat) : List Nat :=
  (List.range (e.z - 1)).flatMap fun k =>
    (List.range (e.y - 1)).flatMap fun j =>
      (List.range (e.x - 1)).flatMap fun i => e.corners offset i j k

/-- A point index as it is stored, in 32 bits with a sign. -/
def storedIndex (n : Nat) : Int := Int.bmod n 0x100000000

/-- The cells of an element as they are stored. -/
def connectivity (e : Extents) (offset : Nat) : List Int := (e.cellCorners offset).map storedIndex

end Extents

/-- The sum of counts. -/
def total (counts : List Nat) : Nat := counts.foldr (· + ·) 0

/-- The product of the numbers of points along some axes. -/
def pointsAlong (axes : List Nat) : Nat := axes.foldr (· * ·) 1

/-- Cuts a list into runs of three; the last run may be shorter. -/
def triples : List Nat → List (List Nat)
  | a :: b :: c :: rest => [a, b, c] :: triples rest
  | [] => []
  | rest => [rest]

@[simp] theorem total_nil : total [] = 0 := rfl

@[simp] theorem total_cons (n : Nat) (ns : List Nat) : total (n :: ns) = n + total ns := rfl

@[simp] theorem total_append (ms ns : List Nat) : total (ms ++ ns) = total ms + total ns := by
  induction ms with
  | nil => simp
  | cons m ms ih => simp [ih, Nat.add_assoc]

@[simp] theorem pointsAlong_nil : pointsAlong [] = 1 := rfl

@[simp] theorem pointsAlong_cons (n : Nat) (ns : List Nat) :
    pointsAlong (n :: ns) = n * pointsAlong ns := rfl

@[simp] theorem triples_nil : triples [] = [] := rfl

@[simp] theorem triples_cons (a b c : Nat) (rest : List Nat) :
    triples (a :: b :: c :: rest) = [a, b, c] :: triples rest := rfl

/-- Extents that fill whole elements are cut where they were joined. -/
theorem triples_flatMap_toList (es : List Extents) :
    triples (es.flatMap Extents.toList) = es.map Extents.toList := by
  induction es with
  | nil => rfl
  | cons e es ih => simp [Extents.toList, ← ih]

@[simp] theorem pointsAlong_toList (e : Extents) : pointsAlong e.toList = e.points := by
  simp [Extents.toList, Extents.points, Nat.mul_assoc]

@[simp] theorem joinGridNames_nil : joinGridNames [] = "" := rfl

/-- Names without a colon survive joining and splitting. -/
theorem splitGridNames_joinGridNames {names : List String}
    (h : ∀ name ∈ names, nameEnd ∉ name.toList) : splitGridNames (joinGridNames names) = names := by
  have hpieces : Text.pieces nameEnd (names.flatMap fun name => name.toList ++ [nameEnd]) =
      names.map String.toList ++ [[]] := by
    induction names with
    | nil => rfl
    | cons name names ih =>
      rw [List.flatMap_cons, List.append_assoc, List.singleton_append,
        Text.pieces_append_cons (h name List.mem_cons_self),
        ih fun n hn => h n (List.mem_cons_of_mem _ hn), List.map_cons, List.cons_append]
  rw [splitGridNames, joinGridNames, String.toList_ofList, hpieces, List.dropLast_concat,
    List.map_map]
  simp [Function.comp_def]

end Volume
end PostRun
