import PostRun.Volume.Layout

/-!
# The size of a mesh

The number of points and of hexahedral cells in a set of elements, counted from the
flattened extents of the elements.
-/

namespace PostRun
namespace Xdmf

/-- The number of points and cells of a mesh. -/
structure MeshSize where
  points : Nat
  cells : Nat
  deriving DecidableEq

/-- The elements with the given flattened extents, if these fill whole elements. -/
def elementsOf? : List Nat → Option (List Volume.Extents)
  | x :: y :: z :: rest => (elementsOf? rest).map (⟨x, y, z⟩ :: ·)
  | [] => some []
  | _ => none

namespace MeshSize

/-- The size of a mesh of elements. -/
def ofElements (elements : List Volume.Extents) : MeshSize where
  points := Volume.total (elements.map Volume.Extents.points)
  cells := Volume.total (elements.map Volume.Extents.cells)

/-- The size of the mesh with the given flattened extents, if these fill whole elements. -/
def ofExtents? (extents : List Nat) : Option MeshSize := (elementsOf? extents).map ofElements

end MeshSize
end Xdmf
end PostRun
