import PostRun.Number.Scalar
import PostRun.Text.NameMap
import PostRun.Volume.Layout

/-!
# Observations

What a volume file holds at one observation: the value of the observation, which
is usually the time, and the data of every element.  Elements are appended one
after another; all their datasets grow together, and the cells of a new element
are numbered from the number of points present before it.
-/

namespace PostRun
namespace Volume

/-- The data of one observation, all elements back to back. -/
structure ObservationData (α : Type u) where
  value : α
  extents : List Nat
  gridNames : List String
  connectivity : List Int
  components : NameMap (List α)

namespace ObservationData

variable {α : Type u}

/-- An observation without elements. -/
def ofValue (value : α) : ObservationData α := ⟨value, [], [], [], .empty⟩

/-- The number of points of all elements.  Extents that do not fill a whole triple count as an
element of fewer axes. -/
def pointCount (d : ObservationData α) : Nat := total ((triples d.extents).map pointsAlong)

/-- Appends values to one component. -/
def extendComponent (m : NameMap (List α)) (c : String × List α) : NameMap (List α) :=
  m.alter c.1 fun old => old.getD [] ++ c.2

/-- Appends one element.  Every component holds one value per point; the coordinates are among
the components. -/
def addElement (d : ObservationData α) (name : String) (extents : Extents)
    (components : List (String × List α)) : ObservationData α where
  value := d.value
  extents := d.extents ++ extents.toList
  gridNames := d.gridNames ++ [name]
  connectivity := d.connectivity ++ extents.connectivity d.pointCount
  components := components.foldl extendComponent d.components

@[simp] theorem pointCount_ofValue (value : α) : (ofValue value).pointCount = 0 := rfl

@[simp] theorem addElement_value (d : ObservationData α) (name : String) (e : Extents)
    (cs : List (String × List α)) : (d.addElement name e cs).value = d.value := rfl

@[simp] theorem addElement_extents (d : ObservationData α) (name : String) (e : Extents)
    (cs : List (String × List α)) :
    (d.addElement name e cs).extents = d.extents ++ e.toList := rfl

@[simp] theorem addElement_gridNames (d : ObservationData α) (name : String) (e : Extents)
    (cs : List (String × List α)) :
    (d.addElement name e cs).gridNames = d.gridNames ++ [name] := rfl

end ObservationData

/-- An observation as it is listed: its name and its value. -/
structure Observation (α : Type u) where
  name : String
  value : α
  deriving DecidableEq

end Volume
end PostRun
