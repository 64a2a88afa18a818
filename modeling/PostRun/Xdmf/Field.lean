/-!
# Fields

The components of an observation are shown as fields.  Three components whose names
differ only in the axis at their end make a vector, which stands where its first
component stood; every other component is a scalar.
-/

namespace PostRun
namespace Xdmf

/-- An axis of space. -/
inductive Axis where
  | x
  | y
  | z
  deriving DecidableEq

namespace Axis

/-- The letter of an axis. -/
def letter : Axis → Char
  | x => 'x'
  | y => 'y'
  | z => 'z'

/-- The axes in order. -/
def all : List Axis := [x, y, z]

/-- The name of the component of a vector along an axis. -/
def component (base : String) (a : Axis) : String := base ++ String.ofList ['_', a.letter]

/-- The axis that a name ends in, and what stands before it. -/
def ofName? (name : String) : Option (String × Axis) :=
  match name.toList.reverse with
  | 'x' :: '_' :: base => some (String.ofList base.reverse, x)
  | 'y' :: '_' :: base => some (String.ofList base.reverse, y)
  | 'z' :: '_' :: base => some (String.ofList base.reverse, z)
  | _ => none

end Axis

/-- What is shown of the components: one of them, or three joined to a vector. -/
inductive Field where
  | scalar (name : String)
  | vector (base : String)
  deriving DecidableEq

namespace Field

/-- The name under which a field is shown. -/
def name : Field → String
  | scalar name => name
  | vector base => base

/-- The components of a field. -/
def components : Field → List String
  | scalar name => [name]
  | vector base => Axis.all.map (Axis.component base)

/-- The field that a component stands for among the given names; none for a component that a
vector takes in. -/
def ofComponent? (names : List String) (name : String) : Option Field :=
  match Axis.ofName? name with
  | none => some (scalar name)
  | some (base, axis) =>
      if (vector base).components.all names.contains then
        if axis = .x then some (vector base) else none
      else some (scalar name)

/-- The fields that components make, in the order of the components. -/
def ofComponents (names : List String) : List Field := names.filterMap (ofComponent? names)

@[simp] theorem ofComponents_nil : ofComponents [] = [] := rfl

end Field
end Xdmf
end PostRun
